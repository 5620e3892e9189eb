import RpcAdapters.Proofs.Schema.FullNames
import RpcAdapters.Proofs.Text.Ascii

/-!
# Names of nested messages

What is written for a byte of a name depends on the place before it and on whether a lowercase letter
follows, and after a dot a name starts anew.  So a name that is cut at a dot is written part by part,
with an underscore between two parts unless the second starts with a lowercase letter.

* `Place.after b`             the place after the byte `b`;
* `Place.written p b`         what is written for `b` at the place `p`;
* `exportedFrom_cons`         one byte, then the rest at the place after it;
* `startsLower cs`            whether a lowercase letter of ASCII is in front;
* `joint name`                what stands between the part `name` and the part before it;
* `composed path`             the parts of a path with what stands between them;
* `exported_composed`         the Go name of a nested message is composed of those of its parts.
-/

namespace RpcAdapters.Naming

/-! ## one byte -/

theorem isLower_iff {b : UInt8} : isLower b = true ↔ 97 ≤ b.toNat ∧ b.toNat ≤ 122 := by
  unfold isLower
  rw [Bool.and_eq_true, decide_eq_true_iff, decide_eq_true_iff]
  exact Iff.rfl

theorem isDigit_iff {b : UInt8} : isDigit b = true ↔ 48 ≤ b.toNat ∧ b.toNat ≤ 57 := by
  unfold isDigit
  rw [Bool.and_eq_true, decide_eq_true_iff, decide_eq_true_iff]
  exact Iff.rfl

theorem upper_of_not_isLower {b : UInt8} (h : ¬ isLower b = true) : upper b = b := by
  unfold upper
  rw [if_neg h]

theorem upper_of_isDigit {b : UInt8} (h : isDigit b = true) : upper b = b := by
  apply upper_of_not_isLower
  rw [isDigit_iff] at h
  rw [isLower_iff]
  omega

namespace Place

/-- whatever the place before -/
def after (b : UInt8) : Place :=
  if b = dot then .start
  else if b = underscore ∨ isDigit b = true then .gap
  else .word

/-- `followed` says whether the next byte is a lowercase letter -/
def written (p : Place) (b : UInt8) (followed : Bool) : List Char :=
  if b = dot then if followed then [] else ['_']
  else if b = underscore then if p = .start then ['X'] else if followed then [] else ['_']
  else [toChar (if p = .word then b else upper b)]

end Place

theorem exportedFrom_cons (p : Place) (b : UInt8) (rest : List UInt8) :
    exportedFrom p (b :: rest) = p.written b (lowerNext rest) ++ exportedFrom (.after b) rest := by
  unfold Place.written Place.after
  by_cases hdot : b = dot
  · rw [if_pos hdot, if_pos hdot, hdot]
    exact exportedFrom_dot p rest
  rw [if_neg hdot, if_neg hdot]
  by_cases hunderscore : b = underscore
  · rw [if_pos hunderscore, if_pos (Or.inl hunderscore), hunderscore]
    exact exportedFrom_underscore p rest
  rw [if_neg hunderscore]
  by_cases hdigit : isDigit b = true
  · rw [if_pos (Or.inr hdigit), exportedFrom_digit p rest hdigit, upper_of_isDigit hdigit, ite_self]
    rfl
  rw [if_neg (not_or.mpr ⟨hunderscore, hdigit⟩)]
  by_cases hlower : p = .word ∧ isLower b = true
  · rw [if_pos hlower.1, hlower.1, exportedFrom_word_lower rest hlower.2]
    rfl
  · -- the byte starts a word, or goes on with one without being a lowercase letter
    have hupper : upper b = if p = .word then b else upper b := by
      by_cases hword : p = .word
      · rw [if_pos hword]
        exact upper_of_not_isLower fun h => hlower ⟨hword, h⟩
      · rw [if_neg hword]
    rw [exportedFrom, if_neg hlower, if_neg hdot, if_neg hunderscore, if_neg hdigit, ← hupper]
    rfl

/-! ## parts -/

/-- a dot is never taken for a lowercase letter, and nothing before it is looked at after it -/
theorem exportedFrom_append_dot (p : Place) (bs rest : List UInt8) :
    exportedFrom p (bs ++ dot :: rest)
      = exportedFrom p bs ++ (if lowerNext rest then [] else ['_']) ++ exportedFrom .start rest := by
  induction bs generalizing p with
  | nil =>
    rw [exportedFrom_nil]
    exact exportedFrom_dot p rest
  | cons b bs ih =>
    have hnext : lowerNext (bs ++ dot :: rest) = lowerNext bs := by
      cases bs with
      | nil => rfl
      | cons _ _ => rfl
    rw [List.cons_append, exportedFrom_cons, exportedFrom_cons, hnext, ih]
    simp only [List.append_assoc]

def startsLower (cs : List Char) : Bool := cs.head?.any Char.isLower

/-- what stands in front of `name` when it is not the first part -/
def joint (name : String) : String := if startsLower name.toList then "" else "_"

theorem lowerNext_utf8Chars (cs : List Char) : lowerNext (Text.utf8Chars cs) = startsLower cs := by
  cases cs with
  | nil => rw [Text.utf8Chars_nil]; rfl
  | cons c cs =>
    show _ = c.isLower
    rw [Text.utf8Chars_cons, Bool.eq_iff_iff, Text.isLower_iff]
    by_cases hc : c.toNat < 128
    · rw [Text.utf8EncodeChar_of_lt hc, ← Text.toNat_toUInt8 hc]
      exact isLower_iff
    · -- no byte of another character is a letter
      rw [Nat.not_lt] at hc
      cases hbytes : String.utf8EncodeChar c with
      | nil => exact absurd hbytes String.utf8EncodeChar_ne_nil
      | cons b bs =>
        have hb : 128 ≤ b.toNat := Text.le_of_mem_utf8EncodeChar hc (hbytes ▸ List.mem_cons_self ..)
        show isLower b = true ↔ _
        rw [isLower_iff]
        omega

theorem exported_append_dot (outer inner : String) :
    exported (outer ++ "." ++ inner) = exported outer ++ joint inner ++ exported inner := by
  have hbytes : Text.utf8 (outer ++ "." ++ inner)
      = Text.utf8 outer ++ dot :: Text.utf8 inner := by
    rw [Text.utf8_append, Text.utf8_append, List.append_assoc]
    rfl
  have hjoint : joint inner
      = String.ofList (if lowerNext (Text.utf8 inner) = true then [] else ['_']) := by
    unfold joint Text.utf8
    rw [lowerNext_utf8Chars]
    split <;> rfl
  unfold exported
  rw [hbytes, exportedFrom_append_dot, hjoint, String.ofList_append, String.ofList_append]

/-! ## paths -/

/-- the parts of a path with what stands between them -/
def composed : List String → String
  | [] => ""
  | [name] => exported name
  | outer :: inner :: path => exported outer ++ joint inner ++ composed (inner :: path)

theorem dotted_cons_cons (outer inner : String) (path : List String) :
    dotted (outer :: inner :: path) = outer ++ "." ++ dotted (inner :: path) :=
  String.intercalate_cons_cons

/-- an empty part is followed by a dot or by nothing at all -/
theorem joint_dotted (name : String) (path : List String) : joint (dotted (name :: path)) = joint name := by
  cases path with
  | nil => rw [dotted, String.intercalate_singleton]
  | cons inner path =>
    rw [dotted_cons_cons, joint, joint, String.toList_append, String.toList_append]
    cases name.toList with
    | nil => rfl
    | cons c cs => rfl

theorem exported_dotted (path : List String) : exported (dotted path) = composed path := by
  induction path with
  | nil => rfl
  | cons outer path ih =>
    cases path with
    | nil => rw [dotted, String.intercalate_singleton, composed]
    | cons inner path => rw [dotted_cons_cons, exported_append_dot, joint_dotted, ih, composed]

/-- the two names are the same as parts of a path, wherever they stand in it -/
structure Alike (a b : String) : Prop where
  goName : exported a = exported b
  joint : joint a = joint b

theorem composed_congr {a b : String} {path path' : List String} (h : exported a = exported b)
    (hpath : List.Forall₂ Alike path path') : composed (a :: path) = composed (b :: path') := by
  induction hpath generalizing a b with
  | nil => exact h
  | cons hhead _ ih => rw [composed, composed, h, hhead.joint, ih hhead.goName]

/-- **Go names compose**: a name is exported part by part, and nothing but the Go names of its parts and
whether they start with a lowercase letter tells what comes out.  So it is for the messages of an index,
whose parts are the messages around them. -/
theorem exported_composed :
    (∀ outer inner : String,
      exported (outer ++ "." ++ inner) = exported outer ++ joint inner ++ exported inner) ∧
    (∀ path : List String, exported (dotted path) = composed path) ∧
    (∀ (a b : String) (path path' : List String), exported a = exported b →
      List.Forall₂ Alike path path' →
      exported (dotted (a :: path)) = exported (dotted (b :: path'))) ∧
    ∀ (files : List ProtoFile) (n : String) (entry : MessageEntry),
      (MessageIndex.ofFiles files).find? n = some entry →
      ∃ f ∈ files, ∃ path, Leads f.messages path ∧ f.knownAs path = n ∧
        entry.goName = composed (path.dropWhile (· = "")) := by
  refine ⟨exported_append_dot, exported_dotted, ?_, ?_⟩
  · intro a b path path' h hpath
    rw [exported_dotted, exported_dotted]
    exact composed_congr h hpath
  · intro files n entry hentry
    obtain ⟨before, f, path, after, hplaces, hn, -, rfl⟩ :=
      MessageIndex.find?_eq_some_iff_place.mp hentry
    have hplace : (f, path) ∈ placesInOrder files := by
      rw [hplaces]
      exact List.mem_append_right _ (List.mem_cons_self ..)
    obtain ⟨hf, hpath⟩ := mem_placesInOrder.mp hplace
    exact ⟨f, hf, path, hpath, hn, exported_dotted _⟩

/-- two spellings of a part that are alike in any path, and two that are not for want of a joint -/
theorem exported_composed_line :
    (Alike "line_item" "lineItem" ∧
      exported "Order._lines.line_item" = exported "Order._lines.lineItem") ∧
    ¬ Alike "Inner" "inner" ∧
      exported "Outer.Inner" = exported "Outer" ++ "_" ++ exported "Inner" ∧
      exported "Outer.inner" = exported "Outer" ++ "" ++ exported "inner" := by
  have halike : Alike "line_item" "lineItem" := ⟨by decide +kernel, by decide⟩
  have hlines : Alike "_lines" "_lines" := ⟨rfl, rfl⟩
  refine ⟨⟨halike, ?_⟩, fun h => ?_, ?_, ?_⟩
  · exact exported_composed.2.2.1 "Order" "Order" ["_lines", "line_item"] ["_lines", "lineItem"] rfl
      (.cons hlines (.cons halike .nil))
  · exact absurd h.joint (by decide)
  · exact exported_composed.1 "Outer" "Inner"
  · exact exported_composed.1 "Outer" "inner"

end RpcAdapters.Naming
