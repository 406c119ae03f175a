import StacksWallet.Proofs.Clarity.Separation
import StacksWallet.Proofs.PostCondition.Canonical

/-!
# Post-conditions tell where they end

The bytes of a condition tell its kind and each of its parts, whatever comes after them: the asset up to the way
in which its version was given, and the token up to the order of tuple fields. Lists of conditions are told one
condition after the other, since their count comes first.
-/

namespace StacksWallet

/-- Amounts are told by their bytes. -/
theorem Amount.bytes_append_iff {a a' : Amount} {after after' : Bytes} :
    a.bytes ++ after = a'.bytes ++ after' ↔ a = a' ∧ after = after' :=
  (reads "amount").separates_written ⟨trivial, rfl⟩ ⟨trivial, rfl⟩

namespace Asset

/-- The canonical form has the version that is written. -/
theorem canonical_of_whole {a : Asset} {n : Int} (h : Wire.whole? a.version = some n) :
    a.canonical = ⟨.integer n, a.hash, a.contract, a.name⟩ := by
  rw [canonical, h]

/-- A version that is written counts as the number that is written. -/
theorem integral?_of_whole {d : Datum} {n : Int} (h : Wire.whole? d = some n) : d.integral? = some n := by
  cases d <;> simp_all [Wire.whole?, Datum.integral?]

/-- Assets that are written are equal if and only if they have the same canonical form. -/
theorem equal_iff {a a' : Asset} {b b' : Bytes} (hb : a.encode = .ok b) (hb' : a'.encode = .ok b') :
    a.equal a' = true ↔ a.canonical = a'.canonical := by
  obtain ⟨n, -, hn, -⟩ := encode_eq_ok_iff.mp hb
  obtain ⟨n', -, hn', -⟩ := encode_eq_ok_iff.mp hb'
  rw [canonical_of_whole hn, canonical_of_whole hn', equal, sameVersion, integral?_of_whole hn,
    integral?_of_whole hn']
  simp [and_assoc, Subtype.ext_iff]

/-- Assets are told by their bytes up to the way in which the version was given. -/
theorem separates : (Spelling.encoded (fun _ => True) encode).Separates fun a a' => a.equal a' = true :=
  reads.separates_encoded.of_canonical (fun a _ => a.encode_canonical) (fun _ _ _ hb => settled_canonical hb) equal_iff

end Asset

namespace PostCondition

/-- Codes of amounts are told by their bytes. -/
theorem codeByte_amount_append_iff {c c' : AmountCode} {after after' : Bytes} :
    codeByte c.code ++ after = codeByte c'.code ++ after' ↔ c = c' ∧ after = after' :=
  reads_amountCode.separates_written ⟨trivial, rfl⟩ ⟨trivial, rfl⟩

/-- Codes of ownership are told by their bytes. -/
theorem codeByte_ownership_append_iff {c c' : OwnershipCode} {after after' : Bytes} :
    codeByte c.code ++ after = codeByte c'.code ++ after' ↔ c = c' ∧ after = after' :=
  reads_ownershipCode.separates_written ⟨trivial, rfl⟩ ⟨trivial, rfl⟩

/-- Conditions that are written begin alike only if they are of one kind. -/
theorem kindCode_eq_of_append_eq {pc pc' : PostCondition} {b b' after after' : Bytes} (hb : pc.encode = .ok b)
    (hb' : pc'.encode = .ok b') (h : b ++ after = b' ++ after') : pc.kindCode = pc'.kindCode := by
  obtain ⟨c, rfl⟩ := head_of_encode hb
  obtain ⟨c', rfl⟩ := head_of_encode hb'
  exact Bytes.byte_inj (pc.kindCode_le.trans_lt (by decide)) (pc'.kindCode_le.trans_lt (by decide)) (List.cons.inj h).1

/-- Equal conditions are of one kind. -/
theorem kindCode_eq_of_equal {pc pc' : PostCondition} (h : pc.equal pc' = true) : pc.kindCode = pc'.kindCode := by
  cases pc <;> cases pc' <;> first | rfl | cases h

/-- Conditions are told by their bytes up to equality. -/
theorem separates : (Spelling.encoded (fun pc => ∀ v ∈ pc.tokens, v.Distinct) encode).Separates
    fun pc pc' => pc.equal pc' = true := by
  intro pc pc' b b' after after' hb hb'
  have hkind : pc.kindCode ≠ pc'.kindCode → (b ++ after = b' ++ after' ↔ pc.equal pc' = true ∧ after = after') :=
    fun hne => iff_of_false (fun h => hne (kindCode_eq_of_append_eq hb.2 hb'.2 h))
      (fun h => hne (kindCode_eq_of_equal h.1))
  cases pc with
  | native holder code amount =>
    cases pc' with
    | native holder' code' amount' =>
      obtain ⟨x, hx, rfl⟩ := encode_native.mp hb.2
      obtain ⟨x', hx', rfl⟩ := encode_native.mp hb'.2
      simp only [List.cons_append, List.cons_inj_right, List.append_assoc]
      rw [Holder.reads.separates_encoded ⟨trivial, hx⟩ ⟨trivial, hx'⟩, codeByte_amount_append_iff,
        Amount.bytes_append_iff]
      simp [equal, and_assoc]
    | _ => exact hkind (by simp [kindCode])
  | fungible holder asset code amount =>
    cases pc' with
    | fungible holder' asset' code' amount' =>
      obtain ⟨x, y, hx, hy, rfl⟩ := encode_fungible.mp hb.2
      obtain ⟨x', y', hx', hy', rfl⟩ := encode_fungible.mp hb'.2
      simp only [List.cons_append, List.cons_inj_right, List.append_assoc]
      rw [Holder.reads.separates_encoded ⟨trivial, hx⟩ ⟨trivial, hx'⟩,
        Asset.separates ⟨trivial, hy⟩ ⟨trivial, hy'⟩, codeByte_amount_append_iff, Amount.bytes_append_iff]
      simp [equal, and_assoc]
    | _ => exact hkind (by simp [kindCode])
  | nonFungible holder asset token code =>
    cases pc' with
    | nonFungible holder' asset' token' code' =>
      obtain ⟨x, y, z, hx, hy, hz, rfl⟩ := encode_nonFungible.mp hb.2
      obtain ⟨x', y', z', hx', hy', hz', rfl⟩ := encode_nonFungible.mp hb'.2
      simp only [List.cons_append, List.cons_inj_right, List.append_assoc]
      rw [Holder.reads.separates_encoded ⟨trivial, hx⟩ ⟨trivial, hx'⟩,
        Asset.separates ⟨trivial, hy⟩ ⟨trivial, hy'⟩,
        Value.separates ⟨hb.1 token List.mem_cons_self, hz⟩ ⟨hb'.1 token' List.mem_cons_self, hz'⟩,
        codeByte_ownership_append_iff]
      simp [equal, and_assoc]
    | _ => exact hkind (by simp [kindCode])

/-- Conditions are written one by one. -/
theorem each_encode_iff {P : PostCondition → Prop} {pcs : List PostCondition} {c after : Bytes} :
    (Spelling.encoded P encode).each pcs c after ↔ (∀ pc ∈ pcs, P pc) ∧ encodeEach pcs = .ok c :=
  @Spelling.each_encoded _ _ encode encodeEach rfl (fun _ _ => rfl) _ _ _

/-- A list of conditions is written behind its count. -/
theorem encodeAll_eq_ok_iff {pcs : List PostCondition} {b : Bytes} :
    encodeAll pcs = .ok b ↔
      pcs.length < wordCount 4 ∧ ∃ c, encodeEach pcs = .ok c ∧ b = bigEndian 4 pcs.length ++ c := by
  rw [encodeAll, Outcome.bind_eq_ok]
  constructor
  · intro h
    obtain ⟨_, hcount, h⟩ := h
    obtain ⟨hlt, rfl⟩ := Wire.size_eq_ok_iff.mp hcount
    obtain ⟨c, hc, h⟩ := Outcome.bind_eq_ok.mp h
    exact ⟨hlt, c, hc, (Except.ok.inj h).symm⟩
  · intro h
    obtain ⟨hlt, c, hc, rfl⟩ := h
    exact ⟨_, Wire.size_eq_ok_iff.mpr ⟨hlt, rfl⟩, Outcome.bind_eq_ok.mpr ⟨c, hc, rfl⟩⟩

/-- Lists of conditions are told one by one. -/
theorem separates_encodeAll :
    (Spelling.encoded (fun pcs => ∀ pc ∈ pcs, ∀ v ∈ pc.tokens, v.Distinct) encodeAll).Separates
      (List.Forall₂ fun pc pc' => pc.equal pc' = true) := by
  intro pcs pcs' b b' after after' hb hb'
  obtain ⟨hlt, c, hc, rfl⟩ := encodeAll_eq_ok_iff.mp hb.2
  obtain ⟨hlt', c', hc', rfl⟩ := encodeAll_eq_ok_iff.mp hb'.2
  rw [List.append_assoc, List.append_assoc]
  exact separates.counted hlt hlt' (each_encode_iff.mpr ⟨hb.1, hc⟩) (each_encode_iff.mpr ⟨hb'.1, hc'⟩)

end PostCondition

end StacksWallet
