import StacksWallet.Proofs.Transaction.Envelope
import StacksWallet.Proofs.Transaction.Operation

/-!
# Transactions that are read

Bytes are a transaction if they are what an envelope of the right kind is written as. So writing a transaction
that was read gives the bytes that it was read from: no transaction has two spellings.
-/

namespace StacksWallet

namespace Envelope

/-- The signature of the origin stands at one place in the bytes of every envelope. -/
theorem origin_signature_eq {e : Envelope} (hauth : e.auth.Valid) {b : Bytes} (hb : e.encode = .ok b) :
    e.auth.origin.signature = (b.drop 44).take signatureWidth := by
  obtain ⟨conditions, payload, -, -, rfl⟩ := (encode_eq_ok_iff hauth).mp hb
  let before : Bytes := UInt8.ofNat e.version.code :: (bigEndian 4 e.chainId.val ++
    UInt8.ofNat e.auth.kind.code :: UInt8.ofNat e.auth.origin.mode.code :: (e.auth.origin.signer ++
      (bigEndian 8 e.auth.origin.nonce.toNat ++ (bigEndian 8 e.auth.origin.fee.toNat ++
        [UInt8.ofNat e.auth.origin.encoding.code]))))
  let after : Bytes := (e.auth.sponsor?.map SpendingCondition.form).getD [] ++
    UInt8.ofNat e.anchor.code :: UInt8.ofNat e.conditionMode.code :: (conditions ++ payload)
  have hbefore : before.length = 44 := by simp [before, hauth.origin.signer_length]
  have hform : before ++ (e.auth.origin.signature ++ after) = UInt8.ofNat e.version.code ::
      (bigEndian 4 e.chainId.val ++ (e.auth.form ++
        UInt8.ofNat e.anchor.code :: UInt8.ofNat e.conditionMode.code :: (conditions ++ payload))) := by
    simp [before, after, Authorization.form, Authorization.tail, SpendingCondition.form, SpendingCondition.tail]
  rw [← hform, List.drop_left' hbefore, List.take_left' hauth.origin.signature_length]

/-- A transfer of nothing from and to accounts of zeros, with a signature that is not all zero. -/
def blankTransfer : Envelope where
  version := .mainnet
  chainId := ⟨1, by decide⟩
  auth := .standard ⟨.p2pkh, Bytes.zeros 20, 0, 0, .compressed, 1 :: Bytes.zeros 64⟩
  anchor := .any
  conditionMode := .deny
  conditions := []
  payload := .transfer ⟨⟨.whole ⟨22, by decide⟩, ⟨Bytes.zeros 20, rfl⟩⟩, none⟩ ⟨0, by decide⟩ ⟨Bytes.zeros 34, rfl⟩

/-- The bytes of the blank transfer. -/
def blankBytes : Bytes :=
  [0, 0, 0, 0, 1, 4, 0] ++ Bytes.zeros 37 ++ 1 :: Bytes.zeros 64 ++ [3, 2, 0, 0, 0, 0, 0, 5, 22] ++ Bytes.zeros 62

/-- The blank transfer is one that is read. -/
theorem settled_blankTransfer : blankTransfer.Settled :=
  ⟨⟨⟨rfl, rfl, rfl, by decide, by decide⟩, nofun⟩, nofun, trivial⟩

/-- The blank transfer is written as its bytes. -/
theorem encode_blankTransfer : blankTransfer.encode = .ok blankBytes :=
  (encode_eq_ok_iff settled_blankTransfer.auth).mpr ⟨_, _, rfl, rfl, by decide +kernel⟩

end Envelope

namespace Transaction

/-- Bytes are read as the transaction of the envelope that is written as these bytes. -/
theorem ofBytes_eq_ok_iff {guarded : Bool} {b : Bytes} {t : Transaction} :
    ofBytes guarded b = .ok t ↔ ∃ e : Envelope, e.Settled ∧ e.encode = .ok b ∧ t = ofEnvelope e := by
  have hread : ∀ e n, (Envelope.read guarded).decodeAt b 0 = .ok (e, n) ↔
      (e.Settled ∧ e.encode = .ok b) ∧ n = b.length := by
    intro e n
    rw [(Envelope.reads guarded).decodeAt_iff le_rfl (Int.natCast_nonneg _)]
    constructor
    · intro h
      obtain ⟨form, _, hb, ⟨hsettled, hencode, rfl⟩, hn⟩ := h
      rw [List.append_nil] at hb
      obtain rfl : b = form := hb
      exact ⟨⟨hsettled, hencode⟩, hn⟩
    · intro h
      obtain ⟨⟨hsettled, hencode⟩, hn⟩ := h
      exact ⟨b, [], (List.append_nil _).symm, ⟨hsettled, hencode, rfl⟩, hn⟩
  rw [ofBytes, Outcome.map_eq_ok]
  constructor
  · intro h
    obtain ⟨⟨e, n⟩, hdecode, rfl⟩ := h
    obtain ⟨⟨hsettled, hencode⟩, -⟩ := (hread e n).mp hdecode
    exact ⟨e, hsettled, hencode, rfl⟩
  · intro h
    obtain ⟨e, hsettled, hencode, rfl⟩ := h
    exact ⟨(e, b.length), (hread e _).mpr ⟨⟨hsettled, hencode⟩, rfl⟩, rfl⟩

/-- A transaction is read from bytes, or from a text that spells them. -/
theorem deserialize_eq_ok_iff {d : Datum} {t : Transaction} :
    deserialize d = .ok t ↔
      ∃ b, d.toBytes = .ok b ∧ ∃ e : Envelope, e.Settled ∧ e.encode = .ok b ∧ t = ofEnvelope e := by
  unfold deserialize
  cases hd : d.toBytes with
  | error flaw => exact ⟨nofun, fun ⟨_, h, _⟩ => nomatch h⟩
  | ok b => exact ofBytes_eq_ok_iff.trans ⟨fun h => ⟨b, rfl, h⟩, fun ⟨_, hb, h⟩ => by cases hb; exact h⟩

/-- The stage of a transaction that was not used yet says whether its origin has signed. -/
theorem stage_ofEnvelope (e : Envelope) :
    (ofEnvelope e).stage = if e.auth.origin.signature = emptySignature then .unsigned else .signed := by
  by_cases h : e.auth.origin.signature = emptySignature
  · simp [ofEnvelope, SpendingCondition.isSigned, h]
  · simp [ofEnvelope, SpendingCondition.isSigned, h]

/-- A transaction that is read is written as the bytes that it was read from. If they hold a signature of the
origin, the transaction is signed, and these bytes are the ones for the network. -/
theorem serialize_deserialize {b : Bytes} {t : Transaction} (h : deserialize (.bytes b) = .ok t) :
    t.envelope.encode = .ok b ∧ t.envelope.auth.origin.signature = (b.drop 44).take signatureWidth ∧
      ((b.drop 44).take signatureWidth ≠ emptySignature →
        t.stage = .signed ∧ ∃ t', outcome serialize t = (.ok b, t')) := by
  obtain ⟨_, hd, e, hsettled, hencode, rfl⟩ := deserialize_eq_ok_iff.mp h
  obtain rfl := Except.ok.inj hd
  have hsignature := e.origin_signature_eq hsettled.auth hencode
  refine ⟨hencode, hsignature, fun hsigned => ?_⟩
  have hstage : (ofEnvelope e).stage = .signed := by
    rw [stage_ofEnvelope, hsignature, if_neg hsigned]
  have hcached : ∀ c, (ofEnvelope e).cached? = some c → c = b := fun c hc => by
    change none = some c at hc
    cases hc
  obtain ⟨t', ht', -⟩ := outcome_serialize (by rw [hstage]; decide) hcached hencode
  exact ⟨hstage, t', ht'⟩

/-- The blank transfer is read from its bytes. -/
theorem deserialize_blankBytes :
    deserialize (.bytes Envelope.blankBytes) = .ok (ofEnvelope Envelope.blankTransfer) :=
  deserialize_eq_ok_iff.mpr ⟨_, rfl, _, Envelope.settled_blankTransfer, Envelope.encode_blankTransfer, rfl⟩

/-- The blank transfer is read as a signed transaction, whose bytes for the network are those it was read from. -/
theorem serialize_deserialize_blankTransfer :
    deserialize (.bytes Envelope.blankBytes) = .ok (ofEnvelope Envelope.blankTransfer) ∧
      (ofEnvelope Envelope.blankTransfer).stage = .signed ∧
      ∃ t', outcome serialize (ofEnvelope Envelope.blankTransfer) = (.ok Envelope.blankBytes, t') :=
  ⟨deserialize_blankBytes, (serialize_deserialize deserialize_blankBytes).2.2 (by decide)⟩

end Transaction

end StacksWallet
