import StacksWallet.Proofs.PostCondition.Report
import StacksWallet.Proofs.Transaction.Reading

/-!
# Where transactions fail to be read

Any bytes and any text are a transaction or malformed. Nothing else can come of them: whatever the constructors of
the parts refuse is reported as a flaw of the bytes, at a place in them, and what they check again has been settled by
then. A text that is no hexadecimal one has no bytes in which there could be a place.
-/

namespace StacksWallet

variable {size : Nat}

/-- Payloads report where they start, behind their tag, or as their parts do. A memo has its size. -/
theorem Payload.reports_read (guarded : Bool) : (read guarded).Reports size fun _ => True := by
  refine Reader.reports_tagged fun start tag hstart hbehind => ?_
  split
  · refine (Value.reports_readWithin guarded _).bind fun v _ => ?_
    cases v.principal? with
    | none => exact Reader.reports_malformed hbehind
    | some recipient =>
      refine (Amount.reports_read _).bind fun amount _ => (Reader.reports_take (by decide)).bind fun raw hraw => ?_
      rw [Memo.ofBytes, dif_pos hraw.le]
      exact Reader.reports_pure trivial
  · split
    · exact Reader.reports_u8.bind fun version _ => (Reader.reports_take (by decide)).bind fun hash _ =>
        (Reader.reports_require hbehind _ _).bind fun address _ => (Name.reports_read _).bind fun contract _ =>
          (Name.reports_read _).bind fun function _ => (Reader.reports_count guarded _).bind fun n _ =>
            (Reader.reports_times (Value.reports_readWithin guarded _) n).map _
    · exact Reader.reports_malformed hstart

/-- Spending conditions report where they start or where the encoding of the key stands. What is read makes one. -/
theorem SpendingCondition.reports_read : read.Reports size fun _ => True := by
  refine Reader.reports_tagged fun start rawMode hstart _ => ?_
  cases HashMode.ofCode? rawMode with
  | none => exact Reader.reports_malformed hstart
  | some mode =>
    refine Reader.reports_guard hstart fun hmode => (Reader.reports_take (by decide)).bind fun signer hsigner =>
      Reader.reports_u64.bind fun nonce hnonce => Reader.reports_u64.bind fun fee hfee =>
        Reader.reports_tagged fun encodingAt rawEncoding hencoding _ => ?_
    cases KeyEncoding.ofCode? rawEncoding with
    | none => exact Reader.reports_malformed hencoding
    | some encoding =>
      refine (Reader.reports_take (by decide)).bind fun signature hsignature => ?_
      -- What the constructor checks again has been settled by the widths of what was read.
      have hvalid : Valid ⟨mode, signer, nonce, fee, encoding, signature⟩ :=
        ⟨by simpa using hmode, hsigner, hsignature, ⟨Int.natCast_nonneg _, Int.ofNat_lt.mpr hnonce⟩,
          ⟨Int.natCast_nonneg _, Int.ofNat_lt.mpr hfee⟩⟩
      have hmade : make mode signer (.integer nonce) (.integer fee) encoding signature =
          .ok ⟨mode, signer, nonce, fee, encoding, signature⟩ :=
        make_eq_ok_iff.mpr ⟨hvalid, rfl, rfl, rfl, rfl, rfl, rfl⟩
      rw [hmade]
      exact Reader.reports_pure trivial

/-- Authorizations report where they start, or as their conditions do. -/
theorem Authorization.reports_read : read.Reports size fun _ => True := by
  refine Reader.reports_tagged fun start tag hstart _ => ?_
  split
  · exact SpendingCondition.reports_read.map standard
  · split
    · exact SpendingCondition.reports_read.bind fun origin _ => SpendingCondition.reports_read.map _
    · exact Reader.reports_malformed hstart

namespace Envelope

/-- Bytes that are left over are reported where they start. A chain of four bytes is in range. -/
theorem reports_readEnd {rawChain : Nat} (hchain : rawChain < wordCount 4) (on : Fin 0x1_0000_0000 → Envelope) :
    (readEnd rawChain on).Reports size fun _ => True := by
  refine Reader.reports_remaining.bind fun left _ => ?_
  split
  · exact Reader.reports_position fun here hhere => Reader.reports_malformed hhere
  · have hmade : chainOf (.integer rawChain) = .ok ⟨rawChain, hchain⟩ := chainOf_integer_eq_ok_iff.mpr rfl
    rw [hmade]
    exact Reader.reports_pure trivial

/-- Envelopes report where they start, where the modes stand, or as their parts do. -/
theorem reports_read (guarded : Bool) : (read guarded).Reports size fun _ => True := by
  refine Reader.reports_u8.bind fun rawVersion _ => ?_
  cases TransactionVersion.ofCode? rawVersion with
  | none => exact Reader.reports_malformed ⟨le_rfl, Int.natCast_nonneg size⟩
  | some version =>
    refine Reader.reports_u32.bind fun rawChain hchain => Authorization.reports_read.bind fun auth _ =>
      Reader.reports_tagged fun modesAt rawAnchor hmodes _ => Reader.reports_u8.bind fun rawMode _ => ?_
    cases AnchorMode.ofCode? rawAnchor with
    | none => exact Reader.reports_malformed hmodes
    | some anchor =>
      cases PostConditionMode.ofCode? rawMode with
      | none => exact Reader.reports_malformed hmodes
      | some conditionMode =>
        exact (PostCondition.reports_readAll guarded).bind fun conditions _ =>
          (Payload.reports_read guarded).bind fun payload _ => reports_readEnd hchain _

end Envelope

namespace Transaction

/-- Bytes are those of a transaction, or they are malformed at a place in them. -/
theorem ofBytes_or_placed (guarded : Bool) (b : Bytes) :
    (∃ t, ofBytes guarded b = .ok t) ∨ ∃ fault, ofBytes guarded b = .error fault ∧ fault.Placed b.length := by
  rw [ofBytes]
  rcases (Envelope.reports_read guarded).decodeAt (b := b) le_rfl (Int.natCast_nonneg _) with
    ⟨e, n, h⟩ | ⟨fault, h, hplaced⟩
  · rw [h]
    exact .inl ⟨_, rfl⟩
  · rw [h]
    exact .inr ⟨fault, rfl, hplaced⟩

/-- Any bytes are what a settled transaction is written as, and then it is read, or no settled transaction is written
so and they are malformed at a place in them. Any text is a transaction or malformed. -/
theorem deserialize_or_malformed :
    (∀ b : Bytes, (∃ t, deserialize (.bytes b) = .ok t ∧ t.envelope.Settled ∧ t.envelope.encode = .ok b) ∨
      (∀ e : Envelope, e.Settled → e.encode ≠ .ok b) ∧ ∃ (offset : Int) (flaw : WireFlaw),
        deserialize (.bytes b) = .error (.malformed (some offset) flaw) ∧ 0 ≤ offset ∧ offset ≤ b.length) ∧
      ∀ s : Text, (∃ t, deserialize (.text s) = .ok t) ∨ ∃ (offset? : Option Int) (flaw : WireFlaw),
        deserialize (.text s) = .error (.malformed offset? flaw) := by
  constructor
  · intro b
    rcases ofBytes_or_placed true b with ⟨t, h⟩ | ⟨fault, h, offset, flaw, rfl, hplace⟩
    · obtain ⟨e, hsettled, he, rfl⟩ := ofBytes_eq_ok_iff.mp h
      exact .inl ⟨_, h, hsettled, he⟩
    · refine .inr ⟨fun e hsettled he => ?_, offset, flaw, h, hplace⟩
      have hread : ofBytes true b = .ok (ofEnvelope e) := ofBytes_eq_ok_iff.mpr ⟨e, hsettled, he, rfl⟩
      cases hread.symm.trans h
  · intro s
    rw [deserialize]
    cases (Datum.text s).toBytes with
    | error flaw => exact .inr ⟨none, _, rfl⟩
    | ok b =>
      rcases ofBytes_or_placed true b with h | ⟨fault, h, offset, flaw, rfl, -⟩
      · exact .inl h
      · exact .inr ⟨some offset, flaw, h⟩

end Transaction

end StacksWallet
