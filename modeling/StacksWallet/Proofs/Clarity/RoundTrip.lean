import StacksWallet.Proofs.Clarity.Constructible
import StacksWallet.Proofs.Clarity.Depth
import StacksWallet.Proofs.Wire.Place

/-!
# Values and their bytes

Writing a value and reading it back gives the value in canonical form, wherever the bytes stand, unless the
value is nested on more than 32 levels. In the other direction, whatever is read can be made, and writing it
gives the bytes that were read and no others: no value has two spellings.
-/

namespace StacksWallet.Value

/-- A value is written as its canonical form, if that can be written. -/
theorem encode_eq_ok_iff {v : Value} {b : Bytes} :
    v.encode = .ok b ↔ v.canonical.flaw? = .none ∧ b = v.canonical.bytes := by
  rw [encode]
  cases v.canonical.flaw? with
  | none => simp [eq_comm]
  | some fault => simp

/-- A value is written as its canonical form is. -/
theorem encode_canonical {v : Value} (h : v.Distinct) : v.canonical.encode = v.encode := by
  rw [encode, encode, canonical_eq_self (canonical_ordered h)]

/-- Values are read from what stands at an offset. -/
theorem decode_eq_ok_iff {b : Bytes} {offset : Int} (hoffset : 0 ≤ offset) (hlength : offset ≤ b.length)
    {v : Value} {n : Int} :
    decode b offset = .ok (v, n) ↔
      ∃ after, b.drop offset.toNat = v.bytes ++ after ∧ v.Fits (depthLimit + 1) ∧ n = v.bytes.length := by
  rw [decode, read, (reads_readWithin true (depthLimit + 1)).decodeAt_iff hoffset hlength]
  constructor
  · intro h
    obtain ⟨form, after, hb, ⟨hv, rfl⟩, hn⟩ := h
    exact ⟨after, hb, hv, hn⟩
  · intro h
    obtain ⟨after, hb, hv, hn⟩ := h
    exact ⟨v.bytes, after, hb, ⟨hv, rfl⟩, hn⟩

/-- The value is in canonical form and not too deep. -/
structure Settled (v : Value) : Prop where
  ordered : v.Ordered
  depth_le : v.depth ≤ depthLimit

/-- Values are read from what they are written as, in canonical form. -/
theorem reads (guarded : Bool) : (read guarded).Reads (.encoded Settled encode) := by
  refine (reads_readWithin guarded (depthLimit + 1)).congr fun v b after => ?_
  rw [Spelling.written, Spelling.encoded, encode_eq_ok_iff]
  constructor
  · intro h
    obtain ⟨⟨hordered, hflaw, hdepth⟩, rfl⟩ := h
    rw [canonical_eq_self hordered]
    exact ⟨⟨hordered, Nat.le_of_lt_succ hdepth⟩, hflaw, rfl⟩
  · intro h
    obtain ⟨⟨hordered, hdepth⟩, hflaw, rfl⟩ := h
    rw [canonical_eq_self hordered] at hflaw ⊢
    exact ⟨⟨hordered, hflaw, Nat.lt_succ_of_le hdepth⟩, rfl⟩

/-- The canonical form of a value that is not too deep is settled. -/
theorem settled_canonical {v : Value} (h : v.Distinct) (hdepth : v.depth ≤ depthLimit) : v.canonical.Settled :=
  ⟨canonical_ordered h, v.canonical_depth.trans_le hdepth⟩

/-- A value takes a byte. -/
theorem needsByte_read (guarded : Bool) : (read guarded).NeedsByte := Reader.needsByte_tagged _

/-- Nothing is read behind the end of the bytes. -/
theorem decode_beyond {b : Bytes} {offset : Int} (hlength : b.length < offset) (v : Value) (n : Int) :
    decode b offset ≠ .ok (v, n) := fun h => absurd ((needsByte_read true).lt_length h) hlength.not_gt

/-- A value without repeated names that is not too deep is read back in canonical form. -/
theorem decode_of_encode {v : Value} {b : Bytes} (hv : v.Distinct) (hdepth : v.depth ≤ depthLimit)
    (hb : v.encode = .ok b) (before after : Bytes) :
    decode (before ++ b ++ after) before.length = .ok (v.canonical, b.length) := by
  have hcanonical : v.canonical.encode = .ok b := (encode_canonical hv).trans hb
  exact (reads true).decodeAt_encoded (settled_canonical hv hdepth) hcanonical before after

/-- A value that can be made and written is read back in canonical form, from any place, if it is nested on at
most 32 levels; it is refused if it is nested deeper. -/
theorem decode_encode {v : Value} {b : Bytes} (hv : v.Constructible) (hb : v.encode = .ok b) (before after : Bytes) :
    (v.depth ≤ 32 →
      decode (before ++ b ++ after) before.length = .ok (v.canonical, b.length) ∧
        v.canonical.equal v = true ∧ v.Rearranges v.canonical ∧
        ∀ keys ∈ v.canonical.keyLists, keys.Pairwise fun k l => k.bytes < l.bytes) ∧
      (32 < v.depth →
        ∃ offset, decode (before ++ b ++ after) before.length = .error (.malformed (.some offset) .tooDeep)) := by
  obtain ⟨hflaw, rfl⟩ := encode_eq_ok_iff.mp hb
  have hordered := canonical_ordered hv.distinct
  constructor
  · intro hdepth
    refine ⟨?_, canonical_equal hv.distinct, rearranges_canonical v, fun keys hkeys => ?_⟩
    · rw [decode_eq_ok_iff (Int.natCast_nonneg _) (by simp; omega)]
      refine ⟨after, by simp, ⟨hordered, hflaw, ?_⟩, rfl⟩
      rw [canonical_depth]
      exact Nat.lt_succ_of_le hdepth
    · exact (hordered keys hkeys).imp Name.precedes_iff_bytes.mp
  · intro hdepth
    rw [← canonical_depth] at hdepth
    exact (refuses_tooDeep hordered hflaw hdepth).decodeAt_eq before after

/-- A tuple whose fields are out of order is read back in order, from between other bytes. -/
theorem decode_encode_swapped :
    (tuple [(⟨[98], by decide⟩, some none), (⟨[97], by decide⟩, list [])]).Constructible ∧
      (tuple [(⟨[98], by decide⟩, some none), (⟨[97], by decide⟩, list [])]).encode =
        .ok [12, 0, 0, 0, 2, 1, 97, 11, 0, 0, 0, 0, 1, 98, 10, 9] ∧
      decode ([255] ++ [12, 0, 0, 0, 2, 1, 97, 11, 0, 0, 0, 0, 1, 98, 10, 9] ++ [7]) 1 =
        .ok (tuple [(⟨[97], by decide⟩, list []), (⟨[98], by decide⟩, some none)], 16) := by
  have hv : (tuple [(⟨[98], by decide⟩, some none), (⟨[97], by decide⟩, list [])]).Constructible :=
    constructible_of_distinct (by unfold Distinct; decide) rfl
  exact ⟨hv, rfl, ((decode_encode hv rfl [255] [7]).1 (by decide)).1⟩

/-- What is read can be made, stands between the offset and the end, and is written as the bytes that stood there. -/
theorem encode_decode {b : Bytes} {offset : Int} {v : Value} {n : Int} (hoffset : 0 ≤ offset)
    (h : decode b offset = .ok (v, n)) :
    1 ≤ n ∧ offset + n ≤ b.length ∧ v.Constructible ∧ v.depth ≤ 32 ∧
      v.encode = .ok ((b.drop offset.toNat).take n.toNat) := by
  have hlength : offset ≤ b.length := not_lt.mp fun hbeyond => decode_beyond hbeyond v n h
  obtain ⟨after, hb, hfits, rfl⟩ := (decode_eq_ok_iff hoffset hlength).mp h
  have hpos := List.length_pos_iff.mpr v.bytes_ne_nil
  have htotal := congrArg List.length hb
  rw [List.length_drop, List.length_append] at htotal
  refine ⟨by omega, by omega, constructible_of_distinct hfits.ordered.distinct hfits.flawless,
    Nat.le_of_lt_succ hfits.depth_lt, ?_⟩
  rw [encode_eq_ok_iff, canonical_eq_self hfits.ordered, hb, Int.toNat_natCast, List.take_left]
  exact ⟨hfits.flawless, rfl⟩

/-- A list is read from between other bytes, and written as it stood there. -/
theorem encode_decode_list :
    decode [255, 11, 0, 0, 0, 2, 3, 10, 4, 7] 1 = .ok (list [bool true, some (bool false)], 8) ∧
      (list [bool true, some (bool false)]).encode = .ok [11, 0, 0, 0, 2, 3, 10, 4] := by
  have h : decode [255, 11, 0, 0, 0, 2, 3, 10, 4, 7] 1 = .ok (list [bool true, some (bool false)], 8) := by rfl
  exact ⟨h, (encode_decode (by decide) h).2.2.2.2⟩

end StacksWallet.Value
