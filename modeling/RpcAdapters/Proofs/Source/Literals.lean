import Mathlib.Tactic.SplitIfs
import RpcAdapters.Proofs.InOrder
import RpcAdapters.Proofs.Source.Imports

/-!
# Reading literals back

A literal can be read wherever it stands: it ends at the first quote that no backslash escapes, and
what is before that denotes the text that the literal was written for.

* `Escapes c d`            `d` is what a backslash and `c` stand for;
* `ReadsBody cs ds rest`   the grammar of literals, after the opening quote: `cs` denotes `ds` up to the
                           closing quote, and `rest` comes after that;
* `ReadsBody.readBody?_eq` what the grammar reads, `readBody?` reads as well, so there is one reading;
* `reads_literal_iff`      what a literal denotes and where it ends, whatever follows it;
* `not_mem_literal`        what is escaped is never in a literal as it is: line breaks, tabs;
* `ReadsSpec line spec`    the path and the alias that a line of an import block shows;
* `literal_exact`          literals of all texts, and the import blocks of all units.
-/

namespace RpcAdapters

namespace Source

/-! ## the grammar of literals -/

inductive Escapes : Char → Char → Prop
  | quote : Escapes '"' '"'
  | backslash : Escapes '\\' '\\'
  | lineBreak : Escapes 'n' '\n'
  | tab : Escapes 't' '\t'

inductive ReadsBody : List Char → List Char → List Char → Prop
  | close (rest : List Char) : ReadsBody ('"' :: rest) [] rest
  | plain {c : Char} {cs ds rest : List Char} (hquote : c ≠ '"') (hbackslash : c ≠ '\\')
    (hbreak : c ≠ '\n') (h : ReadsBody cs ds rest) : ReadsBody (c :: cs) (c :: ds) rest
  | escape {c d : Char} {cs ds rest : List Char} (hc : Escapes c d) (h : ReadsBody cs ds rest) :
    ReadsBody ('\\' :: c :: cs) (d :: ds) rest

/-- a literal that denotes `ds` is at the start of `cs`, and `rest` comes after its closing quote -/
def Reads (cs ds rest : List Char) : Prop := ∃ body, cs = '"' :: body ∧ ReadsBody body ds rest

theorem Escapes.unescapeChar?_eq {c d : Char} (h : Escapes c d) : unescapeChar? c = some d := by
  cases h <;> rfl

theorem readBody?_plain {c : Char} (hquote : c ≠ '"') (hbackslash : c ≠ '\\') (cs : List Char) :
    readBody? (c :: cs) = (readBody? cs).map fun p => (c :: p.1, p.2) := by
  rw [readBody?]
  · exact if_neg hbackslash
  all_goals simp [hquote, hbackslash]

theorem ReadsBody.readBody?_eq {cs ds rest : List Char} (h : ReadsBody cs ds rest) :
    readBody? cs = some (ds, rest) := by
  induction h with
  | close rest => rfl
  | plain hquote hbackslash _ _ ih =>
    rw [readBody?_plain hquote hbackslash, ih]
    rfl
  | escape hc _ ih =>
    rw [readBody?, hc.unescapeChar?_eq]
    simp only [ih, Option.map_some]

/-! ## literals -/

theorem ReadsBody.escapeChar_append (c : Char) {cs ds rest : List Char} (h : ReadsBody cs ds rest) :
    ReadsBody (escapeChar c ++ cs) (c :: ds) rest := by
  unfold escapeChar
  split_ifs with hquote hbackslash hbreak htab
  · subst hquote
    exact .escape .quote h
  · subst hbackslash
    exact .escape .backslash h
  · subst hbreak
    exact .escape .lineBreak h
  · subst htab
    exact .escape .tab h
  · exact .plain hquote hbackslash hbreak h

theorem readsBody_escape (cs rest : List Char) : ReadsBody (escape cs ++ '"' :: rest) cs rest := by
  induction cs with
  | nil => exact .close rest
  | cons c cs ih =>
    rw [escape, List.flatMap_cons, List.append_assoc]
    exact ih.escapeChar_append c

theorem literal_append (s : String) (follow : List Char) :
    (literal s).toList ++ follow = '"' :: (escape s.toList ++ '"' :: follow) := by
  rw [literal, String.toList_ofList, literalChars, List.cons_append, List.append_assoc]
  rfl

/-- there is one way to read a literal, whatever follows it -/
theorem reads_literal_iff {s : String} {follow ds rest : List Char} :
    Reads ((literal s).toList ++ follow) ds rest ↔ ds = s.toList ∧ rest = follow := by
  rw [literal_append]
  constructor
  · rintro ⟨body, hbody, h⟩
    obtain rfl := (List.cons.inj hbody).2
    have hread := h.readBody?_eq
    rw [readBody?_escape, Option.some.injEq, Prod.mk.injEq] at hread
    exact ⟨hread.1.symm, hread.2.symm⟩
  · rintro ⟨rfl, rfl⟩
    exact ⟨_, rfl, readsBody_escape s.toList _⟩

theorem literal_append_inj {s s' : String} {follow follow' : List Char}
    (h : (literal s).toList ++ follow = (literal s').toList ++ follow') : s = s' ∧ follow = follow' := by
  have hread : Reads ((literal s').toList ++ follow') s.toList follow :=
    h ▸ reads_literal_iff.mpr ⟨rfl, rfl⟩
  obtain ⟨htext, hfollow⟩ := reads_literal_iff.mp hread
  exact ⟨String.toList_inj.mp htext, hfollow⟩

theorem not_mem_escapeChar {x : Char} (hx : x = '\n' ∨ x = '\t') (c : Char) : x ∉ escapeChar c := by
  unfold escapeChar
  split_ifs with _ _ hbreak htab
  case neg =>
    intro h
    obtain rfl := List.mem_singleton.mp h
    exact hx.elim hbreak htab
  all_goals rcases hx with rfl | rfl <;> decide

/-- line breaks and tabs are escaped -/
theorem not_mem_literal {x : Char} (hx : x = '\n' ∨ x = '\t') (s : String) :
    x ∉ (literal s).toList := by
  have hquote : x ≠ '"' := by rcases hx with rfl | rfl <;> decide
  rw [literal, String.toList_ofList, literalChars, List.mem_cons, List.mem_append,
    List.mem_singleton, escape, List.mem_flatMap]
  rintro (h | ⟨c, -, h⟩ | h)
  · exact hquote h
  · exact not_mem_escapeChar hx c h
  · exact hquote h

/-! ## import lines -/

/-- a tab, an alias, a space and the literal of a path, and nothing after it -/
def ReadsSpec (line : String) (spec : String × String) : Prop :=
  ∃ cs, line.toList = '\t' :: (spec.2.toList ++ ' ' :: cs) ∧ ' ' ∉ spec.2.toList ∧
    Reads cs spec.1.toList []

theorem toList_specLine (spec : String × String) : (specLine spec).toList =
    '\t' :: (spec.2.toList ++ ' ' :: ((literal spec.1).toList ++ [])) := by
  simp [specLine]

/-- the first space ends the alias, and the literal goes on to the end of the line -/
theorem readsSpec_specLine_iff {spec spec' : String × String} (h : ' ' ∉ spec.2.toList) :
    ReadsSpec (specLine spec) spec' ↔ spec' = spec := by
  unfold ReadsSpec
  rw [toList_specLine]
  constructor
  · rintro ⟨cs, hline, hspace, hread⟩
    have hsplit := congrArg (Text.splitFirst ' ') (List.cons.inj hline).2
    rw [Text.splitFirst_append _ h, Text.splitFirst_append _ hspace, Option.some.injEq,
      Prod.mk.injEq] at hsplit
    obtain ⟨hshort, rfl⟩ := hsplit
    exact Prod.ext (String.toList_inj.mp (reads_literal_iff.mp hread).1)
      (String.toList_inj.mp hshort.symm)
  · rintro rfl
    exact ⟨_, rfl, h, reads_literal_iff.mpr ⟨rfl, rfl⟩⟩

theorem not_mem_specLine {spec : String × String} (h : '\n' ∉ spec.2.toList) :
    '\n' ∉ (specLine spec).toList := by
  rw [toList_specLine, List.append_nil, List.mem_cons, List.mem_append, List.mem_cons]
  rintro (htab | halias | hspace | hpath)
  · exact absurd htab (by decide)
  · exact h halias
  · exact absurd hspace (by decide)
  · exact not_mem_literal (.inl rfl) spec.1 hpath

end Source

open Source

/-! ## all texts and all units -/

structure Source.LiteralExact (s : String) : Prop where
  reads : ∀ follow ds rest, Reads ((literal s).toList ++ follow) ds rest ↔
    ds = s.toList ∧ rest = follow
  unbroken : '\n' ∉ (literal s).toList
  distinct : ∀ s', literal s = literal s' → s = s'

namespace SourceUnit

variable (u : SourceUnit)

/-- the import block, if there is one, says line by line what is imported under which alias -/
structure ImportsReadable : Prop where
  block : importLines (.allocate u) = [] ∧ (Aliases.allocate u).specs = [] ∨
    ∃ ls, importLines (.allocate u) = "import (" :: (ls ++ [")", ""]) ∧
      ∀ specs, List.Forall₂ ReadsSpec ls specs ↔ specs = (Aliases.allocate u).specs
  unbroken : ∀ l ∈ importLines (.allocate u), '\n' ∉ l.toList

theorem not_mem_alias {c : Char} (hc : Naming.isIdentifierChar c = false) {spec : String × String}
    (h : spec ∈ (Aliases.allocate u).specs) : c ∉ spec.2.toList := by
  have hmem := (Aliases.perm_specs _).mem_iff.mp h
  exact (Aliases.isIdentifier_of_mem_allocate hmem).not_mem hc

theorem importsReadable : u.ImportsReadable where
  block := by
    rw [importLines]
    by_cases hspecs : (Aliases.allocate u).specs = []
    · exact .inl ⟨if_pos hspecs, hspecs⟩
    · rw [if_neg hspecs]
      refine .inr ⟨(Aliases.allocate u).specs.map specLine, rfl, fun specs => ?_⟩
      apply forall₂_map_left_iff_eq
      intro spec hspec spec'
      exact readsSpec_specLine_iff (u.not_mem_alias Naming.isIdentifierChar_space hspec)
  unbroken := by
    have hspecs : ∀ l ∈ (Aliases.allocate u).specs.map specLine, '\n' ∉ l.toList := by
      intro l hl
      obtain ⟨spec, hspec, rfl⟩ := List.mem_map.mp hl
      exact not_mem_specLine (u.not_mem_alias Naming.isIdentifierChar_lineBreak hspec)
    rw [importLines]
    split
    · exact fun l hl => absurd hl List.not_mem_nil
    · rw [List.forall_mem_append, List.forall_mem_append]
      exact ⟨⟨by decide, hspecs⟩, by decide⟩

end SourceUnit

/-- **Literals are read back**: whatever a text is and whatever follows its literal, the literal denotes
that text and ends at its own last quote, on one line.  So the lines of any import block give back the
paths and aliases that they were written for. -/
theorem Source.literal_exact : (∀ s, LiteralExact s) ∧ ∀ u : SourceUnit, u.ImportsReadable := by
  refine ⟨fun s => ⟨?_, not_mem_literal (.inl rfl) s, ?_⟩, SourceUnit.importsReadable⟩
  · intro follow ds rest
    exact reads_literal_iff
  · intro s' h
    have hlist : (literal s).toList ++ [] = (literal s').toList ++ [] := by rw [h]
    exact (literal_append_inj hlist).1

-- a backslash before a quote or before the letter of an escape is doubled, so that it escapes neither
example : literal "a\\\"\\n" = "\"a\\\\\\\"\\\\n\"" := by decide +kernel

end RpcAdapters
