import StacksWallet.Proofs.PostCondition.Separation
import StacksWallet.Proofs.Transaction.Canonical

/-!
# Envelopes tell what is in them

The bytes of a payload, and those of an envelope with valid spending conditions, tell each of their parts, up to
what counts as equal. So two envelopes are written alike if and only if they are equal.
-/

namespace StacksWallet

namespace Payload

/-- Recipients are told by their bytes. -/
theorem recipient_append_iff {r r' : Principal} {b b' after after' : Bytes}
    (hb : (Value.principal r).encode = .ok b) (hb' : (Value.principal r').encode = .ok b') :
    b ++ after = b' ++ after' ↔ r = r' ∧ after = after' := by
  have hdistinct : ∀ r : Principal, (Value.principal r).Distinct := fun _ => nofun
  refine (Value.separates ⟨hdistinct r, hb⟩ ⟨hdistinct r', hb'⟩).trans (and_congr_left' ?_)
  exact Value.equal_iff.trans ⟨Value.principal.inj, congrArg Value.principal⟩

/-- Arguments are told one by one behind their count. -/
theorem arguments_append_iff {vs vs' : List Value} (hvs : ∀ v ∈ vs, v.Distinct) (hvs' : ∀ v ∈ vs', v.Distinct)
    (hcount : vs.length < wordCount 4) (hcount' : vs'.length < wordCount 4) {c c' after after' : Bytes}
    (hc : Value.encodeAll vs = .ok c) (hc' : Value.encodeAll vs' = .ok c') :
    bigEndian 4 vs.length ++ (c ++ after) = bigEndian 4 vs'.length ++ (c' ++ after') ↔
      (Value.list vs).equal (Value.list vs') = true ∧ after = after' := by
  have heach : ∀ {vs : List Value} {c after : Bytes}, (∀ v ∈ vs, v.Distinct) → Value.encodeAll vs = .ok c →
      (Spelling.encoded Value.Distinct Value.encode).each vs c after :=
    fun hvs hc => (@Spelling.each_encoded _ _ Value.encode Value.encodeAll rfl (fun _ _ => rfl) _ _ _).mpr ⟨hvs, hc⟩
  rw [Value.equal_list_iff]
  exact Value.separates.counted hcount hcount' (heach hvs hc) (heach hvs' hc')

/-- Names are told by their bytes. -/
theorem name_append_iff {n n' : Name} {after after' : Bytes} :
    n.encode ++ after = n'.encode ++ after' ↔ n = n' ∧ after = after' :=
  (Name.reads .contract).separates_written ⟨trivial, rfl⟩ ⟨trivial, rfl⟩

/-- Addresses with a whole version are told by the byte of the version and by their hash. -/
theorem address_append_iff {a a' : Address} {n n' : Fin 32} (hn : a.version = .whole n) (hn' : a'.version = .whole n')
    {after after' : Bytes} :
    UInt8.ofNat n.val :: (a.hash.val ++ after) = UInt8.ofNat n'.val :: (a'.hash.val ++ after') ↔
      a = a' ∧ after = after' := by
  have hbyte : UInt8.ofNat n.val = UInt8.ofNat n'.val ↔ n = n' := by
    constructor
    · intro h
      exact Fin.ext (Bytes.byte_inj (n.isLt.trans (by decide)) (n'.isLt.trans (by decide)) h)
    · intro h
      rw [h]
  obtain ⟨version, hash⟩ := a
  obtain ⟨version', hash'⟩ := a'
  obtain rfl : version = .whole n := hn
  obtain rfl : version' = .whole n' := hn'
  rw [List.cons.injEq, Bytes.append_eq_append_iff (hash.property.trans hash'.property.symm), hbyte, Address.mk.injEq,
    Version.whole.injEq, Subtype.ext_iff, and_assoc]

/-- Payloads are told by their bytes up to equality. -/
theorem separates : (Spelling.encoded (fun p => ∀ v ∈ p.arguments, v.Distinct) encode).Separates
    fun p p' => p.equal p' = true := by
  intro p p' b b' after after' hb hb'
  cases p with
  | transfer r a m =>
    obtain ⟨x, hx, rfl⟩ := encode_transfer.mp hb.2
    cases p' with
    | transfer r' a' m' =>
      obtain ⟨x', hx', rfl⟩ := encode_transfer.mp hb'.2
      simp only [List.cons_append, List.cons_inj_right, List.append_assoc]
      rw [recipient_append_iff hx hx', Amount.bytes_append_iff,
        Bytes.append_eq_append_iff (m.property.trans m'.property.symm)]
      simp [equal, and_assoc]
    | call =>
      obtain ⟨_, _, -, -, -, rfl⟩ := encode_call.mp hb'.2
      exact iff_of_false (fun h => absurd (List.cons.inj h).1 (by decide)) (fun h => absurd h.1 Bool.false_ne_true)
  | call a contract function vs =>
    obtain ⟨n, c, hn, hcount, hc, rfl⟩ := encode_call.mp hb.2
    cases p' with
    | transfer =>
      obtain ⟨_, -, rfl⟩ := encode_transfer.mp hb'.2
      exact iff_of_false (fun h => absurd (List.cons.inj h).1 (by decide)) (fun h => absurd h.1 Bool.false_ne_true)
    | call a' contract' function' vs' =>
      obtain ⟨n', c', hn', hcount', hc', rfl⟩ := encode_call.mp hb'.2
      have hvs : ∀ v ∈ vs, v.Distinct := hb.1
      have hvs' : ∀ v ∈ vs', v.Distinct := hb'.1
      simp only [List.cons_append, List.cons_inj_right, List.append_assoc]
      rw [address_append_iff hn hn', name_append_iff, name_append_iff,
        arguments_append_iff hvs hvs' hcount hcount' hc hc']
      simp [equal, and_assoc]

end Payload

/-- The network is told by its byte. -/
theorem TransactionVersion.byte_inj {v v' : TransactionVersion} :
    UInt8.ofNat v.code = UInt8.ofNat v'.code ↔ v = v' := by
  cases v <;> cases v' <;> decide

/-- The anchor mode is told by its byte. -/
theorem AnchorMode.byte_inj {m m' : AnchorMode} : UInt8.ofNat m.code = UInt8.ofNat m'.code ↔ m = m' := by
  cases m <;> cases m' <;> decide

/-- The post-condition mode is told by its byte. -/
theorem PostConditionMode.byte_inj {m m' : PostConditionMode} : UInt8.ofNat m.code = UInt8.ofNat m'.code ↔ m = m' := by
  cases m <;> cases m' <;> decide

namespace Envelope

/-- Envelopes with valid spending conditions are told by their bytes up to equality. -/
theorem separates :
    (Spelling.encoded (fun e => e.auth.Valid ∧ ∀ v ∈ e.values, v.Distinct) encode).Separates Equal := by
  intro e e' b b' after after' hb hb'
  obtain ⟨⟨hauth, hvalues⟩, hencode⟩ := hb
  obtain ⟨⟨hauth', hvalues'⟩, hencode'⟩ := hb'
  obtain ⟨hconditions, hpayload⟩ := forall_values_iff.mp hvalues
  obtain ⟨hconditions', hpayload'⟩ := forall_values_iff.mp hvalues'
  obtain ⟨x, y, hx, hy, rfl⟩ := (encode_eq_ok_iff hauth).mp hencode
  obtain ⟨x', y', hx', hy', rfl⟩ := (encode_eq_ok_iff hauth').mp hencode'
  simp only [List.cons_append, List.append_assoc, List.cons.injEq]
  rw [Reader.reads_u32.separates_written ⟨e.chainId_lt, rfl⟩ ⟨e'.chainId_lt, rfl⟩,
    Authorization.reads.separates_written ⟨hauth, rfl⟩ ⟨hauth', rfl⟩, List.cons.injEq, List.cons.injEq,
    PostCondition.separates_encodeAll ⟨hconditions, hx⟩ ⟨hconditions', hx'⟩,
    Payload.separates ⟨hpayload, hy⟩ ⟨hpayload', hy'⟩, TransactionVersion.byte_inj, AnchorMode.byte_inj,
    PostConditionMode.byte_inj, Fin.val_inj]
  constructor
  · intro h
    obtain ⟨h₁, h₂, h₃, h₄, h₅, h₆, h₇, h₈⟩ := h
    exact ⟨⟨h₁, h₂, h₃, h₄, h₅, h₆, h₇⟩, h₈⟩
  · intro h
    obtain ⟨⟨h₁, h₂, h₃, h₄, h₅, h₆, h₇⟩, h₈⟩ := h
    exact ⟨h₁, h₂, h₃, h₄, h₅, h₆, h₇, h₈⟩

/-- Envelopes with valid spending conditions are written alike if and only if they are equal. -/
theorem encode_eq_iff {e e' : Envelope} {b b' : Bytes} (hauth : e.auth.Valid) (hauth' : e'.auth.Valid)
    (hvalues : ∀ v ∈ e.values, v.Distinct) (hvalues' : ∀ v ∈ e'.values, v.Distinct) (hb : e.encode = .ok b)
    (hb' : e'.encode = .ok b') : b = b' ↔ e.Equal e' := by
  have h : b ++ [] = b' ++ [] ↔ e.Equal e' ∧ ([] : Bytes) = [] :=
    separates ⟨⟨hauth, hvalues⟩, hb⟩ ⟨⟨hauth', hvalues'⟩, hb'⟩
  rwa [List.append_nil, List.append_nil, eq_self, and_true] at h

end Envelope

end StacksWallet
