import StacksWallet.Text.UpperCase

/-!
# Letters whose capitals are ASCII

Nearly all letters beyond ASCII have capital forms beyond ASCII, so that writing a text in capitals adds nothing to
what ASCII can tell apart. Ten letters are the exception: the sharp s, the dotless i, the long s and seven ligatures.
Some of them become several letters, so that a text may also grow.
-/

namespace StacksWallet.CodePoint

/-- The letters beyond ASCII whose capital forms are ASCII. -/
def foldedLetters : List CodePoint :=
  [0xDF, 0x131, 0x17F, 0xFB00, 0xFB01, 0xFB02, 0xFB03, 0xFB04, 0xFB05, 0xFB06]

/-- Of the letters that expand, only folded ones expand to ASCII. -/
theorem mem_folded_of_expansion {p : Nat × List CodePoint} (hp : p ∈ capitalExpansions)
    (h : ∀ d ∈ p.2, d.isAscii = true) : p.1 ∈ foldedLetters.map Fin.val := by
  have hall : (capitalExpansions.all fun p =>
      !p.2.all isAscii || (foldedLetters.map Fin.val).contains p.1) = true := by decide +kernel
  have hentry := List.all_eq_true.mp hall p hp
  rwa [List.all_eq_true.mpr h, Bool.not_true, Bool.false_or, List.contains_iff_mem] at hentry

/-- The capitals of a run are beyond ASCII, unless the run is within ASCII or consists of one folded letter. -/
theorem beyond_or_folded_of_run {r : CapitalRun} (hr : r ∈ capitalRuns) :
    128 ≤ r.capital ∨ r.last < 128 ∨ r.first = r.last ∧ r.first ∈ foldedLetters.map Fin.val := by
  have hall : (capitalRuns.all fun r => decide (128 ≤ r.capital ∨ r.last < 128 ∨
      r.first = r.last ∧ r.first ∈ foldedLetters.map Fin.val)) = true := by decide +kernel
  exact of_decide_eq_true (List.all_eq_true.mp hall r hr)

/-- A number beyond ASCII has a code point beyond ASCII, or none at all. -/
theorem not_isAscii_ofNat {n : Nat} (h : 128 ≤ n) : ¬ (ofNat n).isAscii = true := by
  rw [isAscii, decide_eq_true_eq, Nat.not_lt, ofNat]
  split
  · exact h
  · decide

/-- A letter beyond ASCII with its capital form in ASCII is one of the folded letters. -/
theorem mem_folded_of_upper {c : CodePoint} (hc : ¬ c.isAscii = true) (h : ∀ d ∈ c.upper, d.isAscii = true) :
    c ∈ foldedLetters := by
  have hfolded (hval : c.val ∈ foldedLetters.map Fin.val) : c ∈ foldedLetters := by
    obtain ⟨d, hd, heq⟩ := List.mem_map.mp hval
    exact Fin.ext heq ▸ hd
  rw [upper, if_neg hc] at h
  split at h
  · rename_i expansion hlookup
    obtain ⟨front, behind, hentries, -⟩ := List.lookup_eq_some_iff.mp hlookup
    have hmem : (c.val, expansion) ∈ capitalExpansions := by
      rw [hentries]
      exact List.mem_append_right front List.mem_cons_self
    exact hfolded (mem_folded_of_expansion hmem h)
  · split at h
    · rename_i r hr
      have hcovers : r.covers c.val = true := List.find?_some (p := fun r : CapitalRun => r.covers c.val) hr
      simp only [CapitalRun.covers, Bool.and_eq_true, decide_eq_true_eq] at hcovers
      rw [isAscii, decide_eq_true_eq] at hc
      rcases beyond_or_folded_of_run (List.mem_of_find?_eq_some hr) with hcapital | hlast | ⟨hsingle, hfirst⟩
      · exact absurd (h _ List.mem_cons_self) (not_isAscii_ofNat (by omega))
      · omega
      · have hval : c.val = r.first := by omega
        exact hfolded (hval ▸ hfirst)
    · exact absurd (h c List.mem_cons_self) hc

end StacksWallet.CodePoint
