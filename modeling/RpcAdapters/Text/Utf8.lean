/-!
# UTF-8

* `utf8 s`      the bytes of a text;
* `ofUtf8? bs`  the text whose bytes are `bs`: only the shortest encodings of scalar values count;
* `utf8Chars_cons`, `utf8_append`   the bytes, one character or one text at a time;
* `ofUtf8?_utf8`   a text is read back from its bytes.
-/

namespace RpcAdapters.Text

def utf8Chars (cs : List Char) : List UInt8 := cs.flatMap String.utf8EncodeChar

def utf8 (s : String) : List UInt8 := utf8Chars s.toList

def ofUtf8? (bs : List UInt8) : Option String := String.fromUTF8? ⟨bs.toArray⟩

theorem utf8Chars_nil : utf8Chars [] = [] := rfl

theorem utf8Chars_cons (c : Char) (cs : List Char) :
    utf8Chars (c :: cs) = String.utf8EncodeChar c ++ utf8Chars cs := rfl

theorem utf8Chars_append (cs ds : List Char) :
    utf8Chars (cs ++ ds) = utf8Chars cs ++ utf8Chars ds := by
  simp [utf8Chars, List.flatMap_append]

theorem utf8_append (s t : String) : utf8 (s ++ t) = utf8 s ++ utf8 t := by
  rw [utf8, String.toList_append, utf8Chars_append]; rfl

theorem toByteArray_eq (s : String) : (⟨(utf8 s).toArray⟩ : ByteArray) = s.toByteArray := by
  have h : s.toByteArray = (utf8 s).toByteArray := by
    rw [← String.toByteArray_ofList.symm.trans (congrArg String.toByteArray s.ofList_toList)]
    rfl
  rw [h]
  exact ByteArray.ext List.data_toByteArray.symm

theorem ofUtf8?_utf8 (s : String) : ofUtf8? (utf8 s) = some s := by
  rw [ofUtf8?, toByteArray_eq, String.fromUTF8?, dif_pos s.isValidUTF8]
  rfl

end RpcAdapters.Text
