import StacksWallet.Proofs.Clarity.RoundTrip
import StacksWallet.Proofs.Wire.Separation

/-!
# Values tell where they end

The bytes of a value tell which value it is, up to the order of tuple fields, and where they end. Values may be
nested on any number of levels here: the reader that proves it gets as many levels as the two values in question
need, while the one that reads transactions gives up at a limit.
-/

namespace StacksWallet.Value

/-- A value in order that is written fits into more levels than it is deep. -/
theorem written_of_encode {v : Value} {b : Bytes} {levels : Nat} (hordered : v.Ordered) (hb : v.encode = .ok b)
    (hdepth : v.depth < levels) (after : Bytes) : Spelling.written (Fits levels) bytes v b after := by
  obtain ⟨hflaw, rfl⟩ := encode_eq_ok_iff.mp hb
  rw [canonical_eq_self hordered] at hflaw ⊢
  exact ⟨⟨hordered, hflaw, hdepth⟩, rfl⟩

/-- Values in order are told by their bytes, however deep they are. -/
theorem separates_ordered : (Spelling.encoded Ordered encode).Separates Eq := by
  intro v w b c after after' hb hc
  have hv := written_of_encode hb.1 hb.2 (Nat.lt_succ_of_le (le_max_left v.depth w.depth)) after
  have hw := written_of_encode hc.1 hc.2 (Nat.lt_succ_of_le (le_max_right v.depth w.depth)) after'
  exact (reads_readWithin true _).separates_written hv hw

/-- Values are told by their bytes up to the order of tuple fields. -/
theorem separates : (Spelling.encoded Distinct encode).Separates fun v w => v.equal w = true :=
  separates_ordered.of_canonical (fun _ h => encode_canonical h) (fun _ _ h _ => canonical_ordered h)
    fun _ _ => equal_iff

/-- A value's bytes begin those of another value if and only if the two are equal, and then they are all of them:
no bytes of a value go on to be the bytes of another one, and equal values are those with equal bytes. -/
theorem encode_isPrefix_iff {v w : Value} {b c : Bytes} (hv : v.Constructible) (hw : w.Constructible)
    (hb : v.encode = .ok b) (hc : w.encode = .ok c) :
    (b <+: c ↔ v.equal w = true) ∧ (b = c ↔ v.equal w = true) ∧ (b <+: c → b = c) := by
  -- What stands behind equal values is equal, and behind `c` there is nothing.
  have hbegin (after : Bytes) : b ++ after = c ↔ v.equal w = true ∧ after = [] := by
    rw [← separates ⟨hv.distinct, hb⟩ ⟨hw.distinct, hc⟩, List.append_nil]
  have hequal : b = c ↔ v.equal w = true := by
    simpa using hbegin []
  have hwhole : b <+: c → b = c := by
    intro h
    obtain ⟨after, hafter⟩ := h
    exact hequal.mpr ((hbegin after).mp hafter).1
  have hself : v.equal w = true → b <+: c := by
    intro h
    obtain rfl := hequal.mpr h
    exact List.prefix_rfl
  exact ⟨⟨fun h => hequal.mp (hwhole h), hself⟩, hequal, hwhole⟩

/-- Two tuples with the same fields in another order, nested deeper than transactions are read, have the same bytes
and so are equal. -/
theorem encode_isPrefix_iff_nested :
    (some^[40] (tuple [(⟨[98], by decide⟩, none), (⟨[97], by decide⟩, list [])])).Constructible ∧
      (some^[40] (tuple [(⟨[97], by decide⟩, list []), (⟨[98], by decide⟩, none)])).Constructible ∧
      (some^[40] (tuple [(⟨[98], by decide⟩, none), (⟨[97], by decide⟩, list [])])).equal
        (some^[40] (tuple [(⟨[97], by decide⟩, list []), (⟨[98], by decide⟩, none)])) = true := by
  have hv : (some^[40] (tuple [(⟨[98], by decide⟩, none), (⟨[97], by decide⟩, list [])])).Constructible :=
    constructible_of_distinct (by unfold Distinct; decide) rfl
  have hw : (some^[40] (tuple [(⟨[97], by decide⟩, list []), (⟨[98], by decide⟩, none)])).Constructible :=
    constructible_of_distinct (by unfold Distinct; decide) rfl
  exact ⟨hv, hw, (encode_isPrefix_iff hv hw rfl rfl).2.1.mp rfl⟩

end StacksWallet.Value
