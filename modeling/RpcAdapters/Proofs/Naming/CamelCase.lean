import Mathlib.Data.List.Chain
import RpcAdapters.Proofs.Naming.Nested

/-!
# Camel-cased names

An exported name has no dot, does not start with an underscore or a lowercase letter, and has lowercase
letters only inside words.  Names of that form keep their spelling when they are exported, and no others do.

* `spelledFrom p cs`          what is written for the ASCII characters `cs` at the place `p`;
* `Place.spelled_cases`       at most one character for each, and what is known of it;
* `CamelFrom p cs`            nothing has to change in `cs` at the place `p`;
* `CamelCased name`           nothing has to change in the name;
* `exported_eq_self_iff`      exactly these names keep their spelling;
* `exported_exported`         a name that was exported keeps its spelling.
-/

namespace RpcAdapters.Naming

/-! ## characters and their bytes -/

theorem toNat_toChar (b : UInt8) : (toChar b).toNat = b.toNat := by
  have hvalid : b.toNat.isValidChar := Or.inl (Nat.lt_trans b.toNat_lt (by decide))
  unfold toChar Char.ofNat
  rw [dif_pos hvalid]
  rfl

theorem toNat_upper (b : UInt8) :
    (upper b).toNat = if isLower b = true then b.toNat - 32 else b.toNat := by
  unfold upper
  by_cases hlower : isLower b = true
  · have hle : 32 ≤ b := by
      have hrange := isLower_iff.mp hlower
      rw [UInt8.le_iff_toNat_le]
      show 32 ≤ b.toNat
      omega
    rw [if_pos hlower, if_pos hlower, UInt8.toNat_sub_of_le _ _ hle]
    rfl
  · rw [if_neg hlower, if_neg hlower]

/-- an ASCII character as it starts a word -/
def raised (c : Char) : Char := toChar (upper c.toUInt8)

section
variable {c : Char} (hc : c.toNat < 128)
include hc

theorem toUInt8_eq_dot_iff : c.toUInt8 = dot ↔ c = '.' :=
  Text.toUInt8_inj (d := '.') hc (by decide)

theorem toUInt8_eq_underscore_iff : c.toUInt8 = underscore ↔ c = '_' :=
  Text.toUInt8_inj (d := '_') hc (by decide)

theorem isLower_toUInt8 : isLower c.toUInt8 = c.isLower := by
  rw [Bool.eq_iff_iff, isLower_iff, Text.isLower_iff, Text.toNat_toUInt8 hc]

theorem isDigit_toUInt8 : isDigit c.toUInt8 = c.isDigit := by
  rw [Bool.eq_iff_iff, isDigit_iff, Char.isDigit_iff_toNat, Text.toNat_toUInt8 hc]
  exact Iff.rfl

theorem toChar_toUInt8 : toChar c.toUInt8 = c := by
  rw [← Char.toNat_inj, toNat_toChar, Text.toNat_toUInt8 hc]

theorem toNat_raised : (raised c).toNat = if c.isLower = true then c.toNat - 32 else c.toNat := by
  unfold raised
  rw [toNat_toChar, toNat_upper, isLower_toUInt8 hc, Text.toNat_toUInt8 hc]

theorem raised_of_not_isLower (h : ¬ c.isLower = true) : raised c = c := by
  rw [← Char.toNat_inj, toNat_raised hc, if_neg h]

theorem isUpper_raised (h : c.isLower = true) : (raised c).isUpper = true := by
  have hrange := Text.isLower_iff.mp h
  rw [Text.isUpper_iff, toNat_raised hc, if_pos h]
  omega

end

/-! ## ASCII names, one character at a time -/

namespace Place

/-- the place after a character -/
def afterChar (c : Char) : Place :=
  if c = '.' then .start
  else if c = '_' ∨ c.isDigit = true then .gap
  else .word

def spelled (p : Place) (c : Char) (followed : Bool) : List Char :=
  if c = '.' then if followed then [] else ['_']
  else if c = '_' then if p = .start then ['X'] else if followed then [] else ['_']
  else [if p = .word then c else raised c]

theorem after_toUInt8 {c : Char} (hc : c.toNat < 128) : after c.toUInt8 = afterChar c := by
  unfold after afterChar
  simp only [toUInt8_eq_dot_iff hc, toUInt8_eq_underscore_iff hc, isDigit_toUInt8 hc]

theorem written_toUInt8 (p : Place) {c : Char} (hc : c.toNat < 128) (followed : Bool) :
    p.written c.toUInt8 followed = p.spelled c followed := by
  unfold written spelled raised
  simp only [toUInt8_eq_dot_iff hc, toUInt8_eq_underscore_iff hc, apply_ite toChar,
    toChar_toUInt8 hc]

end Place

def spelledFrom : Place → List Char → List Char
  | _, [] => []
  | p, c :: cs => p.spelled c (startsLower cs) ++ spelledFrom (.afterChar c) cs

/-- whatever is written is written for one of the characters -/
theorem exists_of_mem_spelledFrom {p : Place} {cs : List Char} {e : Char} (he : e ∈ spelledFrom p cs) :
    ∃ q, ∃ c ∈ cs, ∃ followed, e ∈ Place.spelled q c followed := by
  induction cs generalizing p with
  | nil => exact absurd he List.not_mem_nil
  | cons c cs ih =>
    rw [spelledFrom, List.mem_append] at he
    rcases he with he | he
    · exact ⟨p, c, List.mem_cons_self .., startsLower cs, he⟩
    · obtain ⟨q, d, hd, followed, he⟩ := ih he
      exact ⟨q, d, List.mem_cons_of_mem _ hd, followed, he⟩

theorem exportedFrom_map_toUInt8 (p : Place) {cs : List Char} (h : ∀ c ∈ cs, c.toNat < 128) :
    exportedFrom p (cs.map Char.toUInt8) = spelledFrom p cs := by
  induction cs generalizing p with
  | nil => exact exportedFrom_nil p
  | cons c cs ih =>
    have hc := h c (List.mem_cons_self ..)
    have htail : ∀ d ∈ cs, d.toNat < 128 := fun d hd => h d (List.mem_cons_of_mem _ hd)
    have hnext : lowerNext (cs.map Char.toUInt8) = startsLower cs := by
      cases cs with
      | nil => rfl
      | cons d cs => exact isLower_toUInt8 (htail d (List.mem_cons_self ..))
    rw [List.map_cons, exportedFrom_cons, hnext, p.written_toUInt8 hc, Place.after_toUInt8 hc,
      ih _ htail, spelledFrom]

theorem toList_exported {name : String} (h : Text.IsAscii name) :
    (exported name).toList = spelledFrom .start name.toList := by
  unfold exported
  rw [String.toList_ofList, Text.utf8_of_isAscii h, exportedFrom_map_toUInt8 .start h]

/-! ## what is written -/

/-- a word goes on after the character -/
def InWord (d : Char) : Prop := d ≠ '_' ∧ d.isDigit = false

theorem inWord_of_isUpper {e : Char} (h : e.isUpper = true) : InWord e := by
  have hrange := Text.isUpper_iff.mp h
  constructor
  · rintro rfl
    exact absurd h (by decide)
  · rw [Bool.eq_false_iff, Ne, Char.isDigit_iff_toNat]
    show ¬ (48 ≤ e.toNat ∧ e.toNat ≤ 57)
    omega

namespace Place

variable {c : Char}

theorem afterChar_eq_word_iff : afterChar c = .word ↔ c ≠ '.' ∧ InWord c := by
  unfold afterChar
  by_cases hdot : c = '.'
  · rw [if_pos hdot]
    exact iff_of_false (by decide) fun h => h.1 hdot
  rw [if_neg hdot]
  by_cases hgap : c = '_' ∨ c.isDigit = true
  · rw [if_pos hgap]
    refine iff_of_false (by decide) fun h => ?_
    rcases hgap with hunderscore | hdigit
    · exact h.2.1 hunderscore
    · exact Bool.false_ne_true (h.2.2.symm.trans hdigit)
  · rw [if_neg hgap]
    obtain ⟨hunderscore, hdigit⟩ := not_or.mp hgap
    exact iff_of_true rfl ⟨hdot, hunderscore, Bool.eq_false_iff.mpr hdigit⟩

/-- what is known of a character `e` that is written for `c` at the place `p` -/
structure Spells (p : Place) (c e : Char) : Prop where
  ascii : e.toNat < 128
  not_dot : e ≠ '.'
  lower : e.isLower = true → p = .word
  inWord : afterChar c = .word → InWord e
  start : p = .start → c ≠ '.' → e ≠ '_'

theorem spells_of_isUpper (p : Place) (c : Char) {e : Char} (he : e.isUpper = true) :
    p.Spells c e := by
  have hrange := Text.isUpper_iff.mp he
  have hword := inWord_of_isUpper he
  refine ⟨by omega, ?_, fun hlower => ?_, fun _ => hword, fun _ _ => hword.1⟩
  · rintro rfl
    exact absurd he (by decide)
  · have hlow := Text.isLower_iff.mp hlower
    omega

theorem spells_self {p : Place} (hc : c.toNat < 128) (hdot : c ≠ '.') (hunderscore : c ≠ '_')
    (hlower : c.isLower = true → p = .word) : p.Spells c c :=
  ⟨hc, hdot, hlower, fun h => (afterChar_eq_word_iff.mp h).2, fun _ _ => hunderscore⟩

theorem spells_underscore (h : afterChar c ≠ .word) {p : Place} (hstart : p = .start → c = '.') :
    p.Spells c '_' :=
  ⟨by decide, by decide, fun hlower => absurd hlower (by decide), fun hword => absurd hword h,
    fun hp hdot => absurd (hstart hp) hdot⟩

/-- **One step**: nothing is written for `c`, and then it is a dot or an underscore, or one character -/
theorem spelled_cases (p : Place) (hc : c.toNat < 128) (followed : Bool) :
    (p.spelled c followed = [] ∧ afterChar c ≠ .word ∧ (p = .start → c = '.')) ∨
      ∃ e, p.spelled c followed = [e] ∧ p.Spells c e := by
  unfold spelled
  by_cases hdot : c = '.'
  · have hafter : afterChar c ≠ .word := fun h => (afterChar_eq_word_iff.mp h).1 hdot
    rw [if_pos hdot]
    cases followed with
    | true => exact Or.inl ⟨rfl, hafter, fun _ => hdot⟩
    | false => exact Or.inr ⟨'_', rfl, spells_underscore hafter fun _ => hdot⟩
  rw [if_neg hdot]
  by_cases hunderscore : c = '_'
  · have hafter : afterChar c ≠ .word := fun h => (afterChar_eq_word_iff.mp h).2.1 hunderscore
    rw [if_pos hunderscore]
    by_cases hstart : p = .start
    · rw [if_pos hstart]
      exact Or.inr ⟨'X', rfl, p.spells_of_isUpper c (by decide)⟩
    · have hnot : p = .start → c = '.' := fun h => absurd h hstart
      rw [if_neg hstart]
      cases followed with
      | true => exact Or.inl ⟨rfl, hafter, hnot⟩
      | false => exact Or.inr ⟨'_', rfl, spells_underscore hafter hnot⟩
  rw [if_neg hunderscore]
  refine Or.inr ⟨_, rfl, ?_⟩
  by_cases hword : p = .word
  · rw [if_pos hword]
    exact spells_self hc hdot hunderscore fun _ => hword
  rw [if_neg hword]
  by_cases hlower : c.isLower = true
  · exact spells_of_isUpper p c (isUpper_raised hc hlower)
  · rw [raised_of_not_isLower hc hlower]
    exact spells_self hc hdot hunderscore fun h => absurd h hlower

end Place

/-! ## names that keep their spelling -/

/-- nothing has to change at the place `p` -/
structure CamelFrom (p : Place) (cs : List Char) : Prop where
  undotted : '.' ∉ cs
  head : ∀ c ∈ cs.head?, (p = .start → c ≠ '_') ∧ (c.isLower = true → p = .word)
  lower : cs.IsChain fun d c => c.isLower = true → InWord d

section
variable {p : Place} {cs : List Char}

theorem CamelFrom.tail {c : Char} (h : CamelFrom p (c :: cs)) : CamelFrom (.afterChar c) cs := by
  have hdot : c ≠ '.' := fun hc => h.undotted (hc ▸ List.mem_cons_self ..)
  obtain ⟨hhead, htail⟩ := List.isChain_cons.mp h.lower
  refine ⟨fun hmem => h.undotted (List.mem_cons_of_mem _ hmem), fun d hd => ⟨fun hstart => ?_,
    fun hlower => Place.afterChar_eq_word_iff.mpr ⟨hdot, hhead d hd hlower⟩⟩, htail⟩
  unfold Place.afterChar at hstart
  rw [if_neg hdot] at hstart
  split at hstart <;> cases hstart

theorem CamelFrom.spelledFrom_eq (hascii : ∀ c ∈ cs, c.toNat < 128) (h : CamelFrom p cs) :
    spelledFrom p cs = cs := by
  induction cs generalizing p with
  | nil => rfl
  | cons c cs ih =>
    have hc := hascii c (List.mem_cons_self ..)
    have hdot : c ≠ '.' := fun heq => h.undotted (heq ▸ List.mem_cons_self ..)
    obtain ⟨hstart, hlower⟩ := h.head c rfl
    have hkept : p.spelled c (startsLower cs) = [c] := by
      unfold Place.spelled
      rw [if_neg hdot]
      by_cases hunderscore : c = '_'
      · -- what follows is no lowercase letter, as no word goes on after an underscore
        have hnext : startsLower cs = false := by
          unfold startsLower
          cases cs with
          | nil => rfl
          | cons d cs =>
            have hd := (List.isChain_cons_cons.mp h.lower).1
            exact Bool.eq_false_iff.mpr fun hlow => (hd hlow).1 hunderscore
        rw [if_pos hunderscore, if_neg fun hp => hstart hp hunderscore, hnext, hunderscore]
        rfl
      · rw [if_neg hunderscore]
        by_cases hword : p = .word
        · rw [if_pos hword]
        · rw [if_neg hword, raised_of_not_isLower hc fun hlow => hword (hlower hlow)]
    rw [spelledFrom, hkept, ih (fun d hd => hascii d (List.mem_cons_of_mem _ hd)) h.tail]
    rfl

/-! ## names that were exported -/

theorem of_mem_spelledFrom (hascii : ∀ c ∈ cs, c.toNat < 128) {e : Char}
    (he : e ∈ spelledFrom p cs) : e.toNat < 128 ∧ e ≠ '.' := by
  obtain ⟨q, c, hc, followed, he⟩ := exists_of_mem_spelledFrom he
  rcases q.spelled_cases (hascii c hc) followed with ⟨hnone, -, -⟩ | ⟨e', hone, hspells⟩
  · rw [hnone] at he
    exact absurd he List.not_mem_nil
  · rw [hone] at he
    obtain rfl := List.mem_singleton.mp he
    exact ⟨hspells.ascii, hspells.not_dot⟩

/-- the character `d` before is in a word if that place is inside one -/
theorem isChain_spelledFrom (hascii : ∀ c ∈ cs, c.toNat < 128) {d : Char}
    (hd : p = .word → InWord d) :
    List.IsChain (fun d c => c.isLower = true → InWord d) (d :: spelledFrom p cs) := by
  induction cs generalizing p d with
  | nil => exact .singleton d
  | cons c cs ih =>
    have htail : ∀ x ∈ cs, x.toNat < 128 := fun x hx => hascii x (List.mem_cons_of_mem _ hx)
    rw [spelledFrom]
    rcases p.spelled_cases (hascii c (List.mem_cons_self ..)) (startsLower cs) with
      ⟨hnone, hafter, -⟩ | ⟨e, hone, hspells⟩
    · rw [hnone]
      exact ih htail fun hword => absurd hword hafter
    · rw [hone]
      exact .cons_cons (fun hlower => hd (hspells.lower hlower)) (ih htail hspells.inWord)

theorem camelFrom_spelledFrom (hascii : ∀ c ∈ cs, c.toNat < 128) (hdot : cs.head? ≠ some '.') :
    CamelFrom p (spelledFrom p cs) := by
  refine ⟨fun hmem => (of_mem_spelledFrom hascii hmem).2 rfl, fun e he => ⟨fun hp => ?_,
    fun hlower => ?_⟩, ?_⟩
  · cases cs with
    | nil => cases he
    | cons c cs =>
      have hc : c ≠ '.' := fun heq => hdot (congrArg some heq)
      rw [spelledFrom] at he
      rcases p.spelled_cases (hascii c (List.mem_cons_self ..)) (startsLower cs) with
        ⟨-, -, hstart⟩ | ⟨e', hone, hspells⟩
      · exact absurd (hstart hp) hc
      · rw [hone] at he
        obtain rfl : e' = e := Option.some.inj he
        exact hspells.start hp hc
  · by_contra hword
    -- an underscore could stand before such a place, and no word goes on after one
    have hchain := isChain_spelledFrom (d := '_') hascii fun hp => absurd hp hword
    exact ((List.isChain_cons.mp hchain).1 e he hlower).1 rfl
  · have hchain := isChain_spelledFrom (p := p) (d := 'X') hascii fun _ => inWord_of_isUpper (by decide)
    exact (List.isChain_cons.mp hchain).2

end

/-! ## characters outside ASCII -/

def outside (n : Nat) : Bool := 128 ≤ n

theorem countP_written (p : Place) (b : UInt8) (followed : Bool) :
    (p.written b followed).countP (fun c => outside c.toNat) = if outside b.toNat = true then 1 else 0 := by
  unfold Place.written
  by_cases hdot : b = dot
  · rw [if_pos hdot, hdot]
    cases followed <;> rfl
  rw [if_neg hdot]
  by_cases hunderscore : b = underscore
  · rw [if_pos hunderscore, hunderscore]
    cases p <;> cases followed <;> rfl
  · have hbyte : outside (if p = .word then b else upper b).toNat = outside b.toNat := by
      unfold outside
      rw [apply_ite UInt8.toNat, toNat_upper, decide_eq_decide]
      by_cases hlower : isLower b = true
      · have hrange := isLower_iff.mp hlower
        rw [if_pos hlower]
        split <;> omega
      · rw [if_neg hlower, ite_self]
    rw [if_neg hunderscore, List.countP_singleton, toNat_toChar, hbyte]

theorem countP_exportedFrom (p : Place) (bs : List UInt8) :
    (exportedFrom p bs).countP (fun c => outside c.toNat) = bs.countP fun b => outside b.toNat := by
  induction bs generalizing p with
  | nil => rw [exportedFrom_nil, List.countP_nil, List.countP_nil]
  | cons b bs ih =>
    rw [exportedFrom_cons, List.countP_append, countP_written, ih, List.countP_cons, Nat.add_comm]

theorem countP_utf8Chars (cs : List Char) :
    2 * cs.countP (fun c => outside c.toNat)
      ≤ (Text.utf8Chars cs).countP fun b => outside b.toNat := by
  induction cs with
  | nil => exact Nat.le_refl 0
  | cons c cs ih =>
    rw [List.countP_cons, Text.utf8Chars_cons, List.countP_append]
    by_cases hc : outside c.toNat = true
    · have hle : 128 ≤ c.toNat := of_decide_eq_true hc
      have hall : (String.utf8EncodeChar c).countP (fun b => outside b.toNat)
          = (String.utf8EncodeChar c).length :=
        List.countP_eq_length.mpr fun b hb => decide_eq_true (Text.le_of_mem_utf8EncodeChar hle hb)
      have htwo := Text.length_utf8EncodeChar_of_le hle
      rw [if_pos hc, hall]
      omega
    · rw [if_neg hc]
      omega

/-- every byte of such a character is written on its own, and a character has more than one -/
theorem isAscii_of_exported_eq {name : String} (h : exported name = name) : Text.IsAscii name := by
  have hcount := countP_exportedFrom .start (Text.utf8 name)
  have hlist : exportedFrom .start (Text.utf8 name) = name.toList := by
    rw [← String.toList_ofList (l := exportedFrom .start (Text.utf8 name))]
    exact congrArg String.toList h
  have htwice := countP_utf8Chars name.toList
  rw [hlist, Text.utf8] at hcount
  have hnone : name.toList.countP (fun c => outside c.toNat) = 0 := by omega
  intro c hc
  have hc := List.countP_eq_zero.mp hnone c hc
  unfold outside at hc
  rw [decide_eq_true_iff] at hc
  omega

/-! ## exported names -/

/-- a name as it stands in Go: no dot, an underscore neither in front nor before a lowercase letter, and
no lowercase letter in front or after a digit -/
structure CamelCased (name : String) : Prop where
  ascii : Text.IsAscii name
  undotted : '.' ∉ name.toList
  head : ∀ c ∈ name.toList.head?, c ≠ '_' ∧ c.isLower = false
  lower : name.toList.IsChain fun d c => c.isLower = true → d ≠ '_' ∧ d.isDigit = false

theorem camelCased_iff {name : String} :
    CamelCased name ↔ Text.IsAscii name ∧ CamelFrom .start name.toList := by
  constructor
  · intro h
    refine ⟨h.ascii, h.undotted, fun c hc => ⟨fun _ => (h.head c hc).1, fun hlower => ?_⟩, h.lower⟩
    exact absurd hlower (Bool.eq_false_iff.mp (h.head c hc).2)
  · rintro ⟨hascii, h⟩
    refine ⟨hascii, h.undotted, fun c hc => ⟨(h.head c hc).1 rfl, Bool.eq_false_iff.mpr fun hlower => ?_⟩,
      h.lower⟩
    cases (h.head c hc).2 hlower

theorem camelCased_exported {name : String} (hascii : Text.IsAscii name)
    (hdot : name.toList.head? ≠ some '.') : CamelCased (exported name) := by
  rw [camelCased_iff, Text.IsAscii, toList_exported hascii]
  exact ⟨fun c hc => (of_mem_spelledFrom hascii hc).1, camelFrom_spelledFrom hascii hdot⟩

theorem exported_eq_self_iff {name : String} : exported name = name ↔ CamelCased name := by
  constructor
  · intro h
    have hascii := isAscii_of_exported_eq h
    have hlist : spelledFrom .start name.toList = name.toList := by
      rw [← toList_exported hascii, h]
    have hdot : '.' ∉ name.toList := by
      rw [← hlist]
      exact fun hmem => (of_mem_spelledFrom hascii hmem).2 rfl
    rw [← h]
    exact camelCased_exported hascii fun hhead => hdot (List.mem_of_mem_head? hhead)
  · intro h
    obtain ⟨hascii, hcamel⟩ := camelCased_iff.mp h
    apply String.toList_injective
    rw [toList_exported hascii, hcamel.spelledFrom_eq hascii]

/-- **Exported names keep their spelling**: an ASCII name that does not start with a dot is camel-cased
once it is exported, and it is just the camel-cased names that exporting does not change. -/
theorem exported_exported {name : String} (hascii : Text.IsAscii name)
    (hdot : name.toList.head? ≠ some '.') :
    exported (exported name) = exported name ∧ CamelCased (exported name) ∧
      ∀ other : String, exported other = other ↔ CamelCased other := by
  have hcamel := camelCased_exported hascii hdot
  exact ⟨exported_eq_self_iff.mpr hcamel, hcamel, fun _ => exported_eq_self_iff⟩

/-- underscores in front, before a dot and before a digit, a word after a digit, and a hyphen -/
theorem exported_exported_order : Text.IsAscii "_order__line_.v2a-Item._x_1" ∧
    "_order__line_.v2a-Item._x_1".toList.head? ≠ some '.' ∧
    exported "_order__line_.v2a-Item._x_1" = "XOrder_Line_V2A-Item_XX_1" ∧
    exported "XOrder_Line_V2A-Item_XX_1" = "XOrder_Line_V2A-Item_XX_1" := by
  have hascii : Text.IsAscii "_order__line_.v2a-Item._x_1" := by decide
  have hdot : "_order__line_.v2a-Item._x_1".toList.head? ≠ some '.' := by decide
  have hname : exported "_order__line_.v2a-Item._x_1" = "XOrder_Line_V2A-Item_XX_1" := by
    decide +kernel
  have hagain := (exported_exported hascii hdot).1
  rw [hname] at hagain
  exact ⟨hascii, hdot, hname, hagain⟩

/-- the dot in front makes an underscore, which is then the first character -/
example : exported ".Order" = "_Order" ∧ exported "_Order" = "XOrder" := by decide +kernel

end RpcAdapters.Naming
