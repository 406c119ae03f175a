import StacksWallet.Proofs.Transaction.Run

/-!
# Unsigned transactions

Nonce and fee may change while a transaction is unsigned, which it is as long as its origin has not signed. Whether
its sponsor has signed is not asked. No call leaves the signature of a sponsor behind on an unsigned transaction, but
one that was there from the start stays: a transaction can be made of an authorization that only the sponsor has
signed, and it can be read from bytes with such an authorization. What the sponsor has signed can change then, and
the signature stays attached.
-/

namespace StacksWallet.Transaction

variable {scheme : SignatureScheme} {t t' start : Transaction}

/-- Nobody has signed the transaction. -/
structure Bare (t : Transaction) : Prop where
  origin : t.envelope.auth.origin.signature = emptySignature
  sponsor : ∀ c, t.envelope.auth.sponsor? = some c → c.signature = emptySignature

/-- If the transaction is unsigned, any signature of a sponsor was there at the start, when the transaction was
unsigned as well. -/
def Inherits (start t : Transaction) : Prop :=
  t.stage = .unsigned → ∀ c, t.envelope.auth.sponsor? = some c → c.signature ≠ emptySignature →
    start.stage = .unsigned ∧ start.envelope.auth.sponsor? = some c

/-- Changes add no signature of a sponsor to an unsigned transaction. -/
theorem Change.inherits (h : Change scheme t t') (ht : start.Inherits t) : start.Inherits t' := by
  cases h with
  | stay => exact ht
  | nonce | fee => exact ht
  | sign | sponsor | serialize =>
    -- The origin has signed by then, so that a sponsor's signature is not left behind.
    intro hstage
    cases hstage
  | clear =>
    intro _ c hc hsigned
    obtain ⟨_, -, rfl⟩ := Option.map_eq_some_iff.mp hc
    exact absurd rfl hsigned

/-- The signature of a sponsor on a transaction that is unsigned after a run was there at the start. -/
theorem inherits_after {calls : List Call} (hcalls : ∀ c ∈ calls, c.Genuine scheme) :
    t.Inherits (after scheme t calls) :=
  after_induction (P := t.Inherits) (fun _ _ hchange => hchange.inherits) hcalls fun hstage _ hc _ => ⟨hstage, hc⟩

/-- In all runs a fresh transaction is signed by nobody whenever it is unsigned, if and only if it did not begin with
a signature of its sponsor alone. -/
theorem bare_after_iff (hempty : scheme.NeverEmpty) (ht : Fresh t) :
    (∀ calls : List Call, (∀ c ∈ calls, c.Genuine scheme) → (after scheme t calls).stage = .unsigned →
        (after scheme t calls).Bare) ↔
      (t.envelope.auth.origin.signature = emptySignature → ∀ c, t.envelope.auth.sponsor? = some c →
        c.signature = emptySignature) := by
  have hunsigned : t.stage = .unsigned ↔ t.envelope.auth.origin.signature = emptySignature :=
    ht.consistent.unsigned_iff
  constructor
  · intro h horigin
    exact (h [] (List.forall_mem_nil _) (hunsigned.mpr horigin)).sponsor
  · intro h calls hcalls hstage
    refine ⟨(consistent_after hempty ht hcalls).unsigned_iff.mp hstage, fun c hc => ?_⟩
    by_contra hsigned
    obtain ⟨hstart, hsponsor⟩ := inherits_after hcalls hstage c hc hsigned
    exact hsigned (h (hunsigned.mp hstart) c hsponsor)

/-- The authorization by an account of zeros that has not signed, and by a sponsor with some signature. -/
def sponsorFirst (signature : Bytes) : Authorization :=
  .sponsored ⟨.p2pkh, Bytes.zeros 20, 0, 0, .compressed, emptySignature⟩
    (some ⟨.p2pkh, 1 :: Bytes.zeros 19, 0, 0, .compressed, signature⟩)

/-- The blank transfer under that authorization. -/
def sponsoredTransfer (signature : Bytes) : Transaction :=
  ofEnvelope { Envelope.blankTransfer with auth := sponsorFirst signature }

/-- The transfer is new, whatever the signature is. -/
theorem new_sponsoredTransfer (signature : Bytes) :
    Transaction.new .mainnet 1 (sponsorFirst signature) (.of Envelope.blankTransfer.payload) (.integer 3) (.integer 2)
      [] = .ok (sponsoredTransfer signature) := rfl

/-- The transfer is read from bytes, whatever the signature is. -/
theorem deserialize_sponsoredTransfer {signature : Bytes} (h : signature.length = signatureWidth) :
    ∃ b, deserialize (.bytes b) = .ok (sponsoredTransfer signature) := by
  have horigin : (sponsorFirst signature).origin.Keyed := ⟨rfl, rfl⟩
  have hauth : (sponsorFirst signature).Valid := by
    refine ⟨horigin.blank_valid, fun c hc => ?_⟩
    obtain rfl := Option.some.inj hc
    exact { horigin.blank_valid with signer_length := rfl, signature_length := h }
  have hencode := (Envelope.encode_eq_ok_iff (e := (sponsoredTransfer signature).envelope) hauth).mpr
    ⟨_, _, rfl, rfl, rfl⟩
  exact ⟨_, deserialize_eq_ok_iff.mpr
    ⟨_, rfl, (sponsoredTransfer signature).envelope, ⟨hauth, List.forall_mem_nil _, trivial⟩, hencode, rfl⟩⟩

/-- The transfer whose sponsor has not signed either is signed by nobody whenever it is unsigned. -/
theorem bare_after_sponsoredTransfer :
    SignatureScheme.secp256k1.repaired.NeverEmpty ∧ Fresh (sponsoredTransfer emptySignature) ∧
      ∀ calls : List Call, (∀ c ∈ calls, c.Genuine SignatureScheme.secp256k1.repaired) →
        (after SignatureScheme.secp256k1.repaired (sponsoredTransfer emptySignature) calls).stage = .unsigned →
          (after SignatureScheme.secp256k1.repaired (sponsoredTransfer emptySignature) calls).Bare := by
  have hempty : SignatureScheme.secp256k1.repaired.NeverEmpty := fun _ h => (SignatureScheme.repaired_produces h).2
  have hfresh : Fresh (sponsoredTransfer emptySignature) := .new (new_sponsoredTransfer emptySignature)
  refine ⟨hempty, hfresh, (bare_after_iff hempty hfresh).mpr fun _ c hc => ?_⟩
  obtain rfl := Option.some.inj hc
  rfl

/-- The transfer whose sponsor has signed is new, and it can be read, but it is unsigned: its nonce can be set, and
the sponsor's signature stays. -/
theorem sponsoredTransfer_not_bare :
    ∃ t t', Transaction.new .mainnet 1 (sponsorFirst (1 :: Bytes.zeros 64)) (.of Envelope.blankTransfer.payload)
        (.integer 3) (.integer 2) [] = .ok t ∧
      (∃ b, deserialize (.bytes b) = .ok t) ∧ t.stage = .unsigned ∧ ¬ t.Bare ∧
        outcome (setNonce (.integer 7)) t = (.ok (), t') ∧ t'.nonce = 7 ∧
          t'.envelope.auth.sponsor? = t.envelope.auth.sponsor? := by
  refine ⟨sponsoredTransfer (1 :: Bytes.zeros 64), _, new_sponsoredTransfer _, deserialize_sponsoredTransfer rfl, rfl,
    fun hbare => ?_, rfl, rfl, rfl⟩
  exact absurd (hbare.sponsor _ rfl) (by decide)

end StacksWallet.Transaction
