/-!
# Sets of code points given by ranges

* `inRanges rs c`   the code point of `c` lies in one of the closed ranges `rs`;
* `inRanges_cons`   one range at a time.
-/

namespace RpcAdapters.Text

/-- closed ranges of code points, in ascending order -/
abbrev CodeRanges := List (Nat × Nat)

def inRanges (rs : CodeRanges) (c : Char) : Bool :=
  rs.any fun r => r.1 ≤ c.toNat && c.toNat ≤ r.2

theorem inRanges_nil (c : Char) : inRanges [] c = false := rfl

theorem inRanges_cons (lo hi : Nat) (rs : CodeRanges) (c : Char) :
    inRanges ((lo, hi) :: rs) c = ((lo ≤ c.toNat && c.toNat ≤ hi) || inRanges rs c) := rfl

theorem inRanges_of_mem {rs : CodeRanges} {c : Char} {lo hi : Nat} (h : (lo, hi) ∈ rs)
    (hlo : lo ≤ c.toNat) (hhi : c.toNat ≤ hi) : inRanges rs c = true :=
  List.any_eq_true.mpr ⟨(lo, hi), h, by simp [hlo, hhi]⟩

end RpcAdapters.Text
