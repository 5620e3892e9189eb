/-!
# Unread bytes

A buffer is a list of bytes together with their number, so that a message can tell at once how much is
left of it.

* `Buffer.ofBytes`           the buffer of a list;
* `next?`, `take?`, `drop?`  one byte, and a given number of bytes; `none` if there are fewer;
* `…_ofBytes`                the same on lists.
-/

namespace RpcAdapters.Wire

structure Buffer where
  bytes : List UInt8
  size : Nat
  size_eq : size = bytes.length

namespace Buffer

def ofBytes (bytes : List UInt8) : Buffer := ⟨bytes, bytes.length, rfl⟩

theorem ofBytes_bytes (b : Buffer) : ofBytes b.bytes = b := by
  obtain ⟨bytes, size, rfl⟩ := b; rfl

theorem size_ofBytes (bytes : List UInt8) : (ofBytes bytes).size = bytes.length := rfl

def next? : Buffer → Option (UInt8 × Buffer)
  | ⟨[], _, _⟩ => none
  | ⟨b :: bytes, size, h⟩ => some (b, ⟨bytes, size - 1, by rw [h, List.length_cons]; rfl⟩)

theorem next?_ofBytes_cons (b : UInt8) (bytes : List UInt8) :
    (ofBytes (b :: bytes)).next? = some (b, ofBytes bytes) := rfl

def drop (b : Buffer) (n : Nat) : Buffer :=
  ⟨b.bytes.drop n, b.size - n, by rw [b.size_eq, List.length_drop]⟩

def drop? (b : Buffer) (n : Nat) : Option Buffer := if b.size < n then none else some (b.drop n)

def take? (b : Buffer) (n : Nat) : Option (List UInt8 × Buffer) :=
  if b.size < n then none else some (b.bytes.take n, b.drop n)

theorem drop_ofBytes_append (xs ys : List UInt8) :
    (ofBytes (xs ++ ys)).drop xs.length = ofBytes ys := by
  rw [← ofBytes_bytes ((ofBytes (xs ++ ys)).drop xs.length)]
  exact congrArg ofBytes List.drop_left

theorem drop?_ofBytes_append (xs ys : List UInt8) :
    (ofBytes (xs ++ ys)).drop? xs.length = some (ofBytes ys) := by
  rw [drop?, if_neg, drop_ofBytes_append]
  rw [size_ofBytes, List.length_append]; omega

theorem take?_ofBytes_append (xs ys : List UInt8) :
    (ofBytes (xs ++ ys)).take? xs.length = some (xs, ofBytes ys) := by
  rw [take?, if_neg, drop_ofBytes_append]
  · exact congrArg (fun zs => some (zs, ofBytes ys)) List.take_left
  · rw [size_ofBytes, List.length_append]; omega

end Buffer

end RpcAdapters.Wire
