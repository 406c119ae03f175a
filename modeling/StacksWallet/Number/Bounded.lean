/-!
# Numbers below a bound

Fields of fixed width hold the natural numbers below a bound. Callers give integers of any size, so every such
field starts with the question whether the integer fits. The largest fields have 128 bits and come with a sign
and without.
-/

namespace StacksWallet

/-- An integer as a number below a bound, if it is one. -/
def below? (bound : Nat) (n : Int) : Option (Fin bound) :=
  if h : 0 ≤ n ∧ n < bound then some ⟨n.toNat, by omega⟩ else none

theorem below?_eq_some_iff {bound : Nat} {n : Int} {k : Fin bound} : below? bound n = some k ↔ n = k.val := by
  unfold below?
  split
  · simp only [Option.some.injEq, Fin.ext_iff]
    omega
  · have := k.isLt
    simp
    omega

theorem below?_eq_none_iff {bound : Nat} {n : Int} : below? bound n = none ↔ n < 0 ∨ bound ≤ n := by
  unfold below?
  split <;> simp <;> omega

/-- Unsigned integers of 128 bits. -/
abbrev UInt128 := Fin 0x1_0000_0000_0000_0000_0000_0000_0000_0000

/-- Signed integers of 128 bits. -/
abbrev Int128 :=
  { n : Int //
    -0x8000_0000_0000_0000_0000_0000_0000_0000 ≤ n ∧ n < 0x8000_0000_0000_0000_0000_0000_0000_0000 }

/-- An integer as a signed integer of 128 bits, if it is one. -/
def Int128.ofInt? (n : Int) : Option Int128 :=
  if h : -0x8000_0000_0000_0000_0000_0000_0000_0000 ≤ n ∧ n < 0x8000_0000_0000_0000_0000_0000_0000_0000 then
    some ⟨n, h⟩
  else none

theorem Int128.ofInt?_eq_some_iff {n : Int} {k : Int128} : Int128.ofInt? n = some k ↔ n = k.val := by
  unfold Int128.ofInt?
  split
  · rw [Option.some.injEq, Subtype.ext_iff]
  · constructor
    · nofun
    · intro h
      obtain rfl := h
      exact absurd k.property (by assumption)

end StacksWallet
