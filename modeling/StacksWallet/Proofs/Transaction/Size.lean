import StacksWallet.Node.Service
import StacksWallet.Proofs.Transaction.Twin
import StacksWallet.Proofs.Transaction.Verification

/-!
# The number of bytes

Whatever changes in the life of a transaction, a nonce, a fee, a signature or a sponsor, takes the same number of bytes
before and after, and a place is kept for a sponsor who is not known yet. So the number of bytes is known before anybody
has signed, and a fee by the byte that is asked for then is the fee for the bytes that are handed in at the end.
-/

namespace StacksWallet

namespace SpendingCondition

/-- The number of bytes of a condition. -/
def width : Nat := 103

/-- Valid conditions are all equally long. -/
theorem Valid.length_form {c : SpendingCondition} (h : c.Valid) : c.form.length = width := by
  simp [form, tail, h.signer_length, h.signature_length, signatureWidth, width]

end SpendingCondition

/-- The number of bytes of authorizations of a kind. -/
def AuthKind.width : AuthKind → Nat
  | standard => 1 + SpendingCondition.width
  | sponsored => 1 + SpendingCondition.width + SpendingCondition.width

/-- Valid authorizations of one kind are all equally long. -/
theorem Authorization.Valid.length_form {a : Authorization} (h : a.Valid) : a.form.length = a.kind.width := by
  obtain ⟨origin, _ | sponsor⟩ := a
  · have horigin := h.origin.length_form
    simp [form, tail, horigin, kind, isSponsored, AuthKind.width, Nat.add_comm]
  · have horigin := h.origin.length_form
    have hsponsor := (h.sponsor sponsor rfl).length_form
    simp [form, tail, horigin, hsponsor, kind, isSponsored, AuthKind.width]
    omega

namespace Envelope

/-- The number of bytes on the wire. -/
def size (e : Envelope) : Except Fault Nat := e.encode.map (·.length)

/-- The number of bytes of an envelope with valid spending conditions, from those of its parts. -/
theorem size_eq {e : Envelope} (hauth : e.auth.Valid) :
    e.size = do
      let conditions ← PostCondition.encodeAll e.conditions
      let payload ← e.payload.encode
      return 7 + e.auth.kind.width + conditions.length + payload.length := by
  rw [size, encode, hauth.encode_eq]
  cases PostCondition.encodeAll e.conditions with
  | error fault => rfl
  | ok conditions =>
    cases e.payload.encode with
    | error fault => rfl
    | ok payload =>
      refine congrArg Except.ok ?_
      simp [hauth.length_form]
      omega

/-- Envelopes of the same blank have the same number of bytes. -/
theorem size_congr {e e' : Envelope} (hauth : e.auth.Valid) (hauth' : e'.auth.Valid) (h : e.blank = e'.blank) :
    e.size = e'.size := by
  have hretains := blank_eq_iff.mp h
  rw [size_eq hauth, size_eq hauth', hretains.kind, hretains.conditions, hretains.payload]

end Envelope

namespace Transaction

variable {scheme : SignatureScheme} {t t' : Transaction}

/-- Changes leave no bytes behind but those that the transaction is written as. -/
theorem Change.keeps (h : Change scheme t t') (ht : t.Keeps) : t'.Keeps := by
  cases h with
  | stay => exact ht
  | nonce hstage | fee hstage =>
    -- An unsigned transaction has no bytes that could be left behind.
    exact fun b hb => absurd hstage (ht b hb).1
  | sign | sponsor | clear => exact keeps_of_none rfl
  | serialize hstage hcached hb => exact Made.keeps ⟨rfl, mem_signedStages_iff.mpr (.inr rfl), rfl⟩ hb

/-- The bytes that are kept of a transaction that comes about are those that it is written as. -/
theorem Reachable.keeps (ht : Reachable scheme t) : t.Keeps := by
  refine ht.induction (P := Keeps) (fun t h => ?_) fun _ _ hchange => hchange.keeps
  rw [h.envelope.1]
  exact keeps_of_none rfl

/-- The bytes for the network are those that the transaction is written as. -/
theorem Keeps.eq_of_serialize {b c : Bytes} (h : t.Keeps) (hb : t.envelope.encode = .ok b)
    (hc : outcome serialize t = (.ok c, t')) : c = b := by
  have hstage : t.stage ∈ signedStages := by
    by_contra hstage
    rw [serialize, outcome_require_refused hstage] at hc
    cases (Prod.mk.inj hc).1
  obtain ⟨_, hserialize, -⟩ := outcome_serialize hstage (h.eq_of_encode hb) hb
  exact Except.ok.inj (Prod.mk.inj (hc.symm.trans hserialize)).1

/-- The fee for a transaction is the rate times its number of bytes. -/
theorem estimateTransactionFee_eq_ok {client : Client} {link link' : Link} {fee : Int} {n : Nat}
    (hn : t.byteLength = .ok n) (h : (client.estimateTransactionFee t).run link = (.ok fee, link')) :
    ∃ rate, client.feeRate.run link = (.ok rate, link') ∧ fee = n * rate := by
  rw [Client.estimateTransactionFee, Outcome.run_lift_bind hn] at h
  obtain ⟨rate, _, hrate, h⟩ := Outcome.run_bind_eq_ok.mp h
  obtain ⟨hfee, rfl⟩ := Prod.mk.inj h
  exact ⟨rate, hrate, (Except.ok.inj hfee).symm⟩

/-- What comes about has the same number of bytes whatever is called on it. -/
theorem size_after {library : CurveLibrary} (ht : Reachable library.scheme t) {calls : List Call}
    (hcalls : ∀ c ∈ calls, c.Genuine library.scheme) :
    (after library.scheme t calls).envelope.size = t.envelope.size := by
  have hvalid := ht.valid library.scheme_fullWidth
  have hafter : (after library.scheme t calls).envelope.auth.Valid ∧
      (after library.scheme t calls).envelope.blank = t.envelope.blank :=
    after_induction (P := fun u => u.envelope.auth.Valid ∧ u.envelope.blank = t.envelope.blank)
      (fun _ _ hchange h => ⟨hchange.valid library.scheme_fullWidth h.1, hchange.blank_eq.trans h.2⟩) hcalls ⟨hvalid, rfl⟩
  exact Envelope.size_congr hafter.1 hvalid hafter.2

/-- A transaction that can be written has the same number of bytes after every run of calls, and it is that of the bytes
for the network once they are made. So a fee by the byte that was asked for before, as it may be while nobody has signed,
is the rate times the number of the bytes that are handed in. -/
theorem byteLength_after {library : CurveLibrary} (ht : Reachable library.scheme t) {b : Bytes}
    (hb : t.envelope.encode = .ok b) {calls : List Call} (hcalls : ∀ c ∈ calls, c.Genuine library.scheme) {u : Transaction}
    (hu : after library.scheme t calls = u) :
    t.byteLength = .ok b.length ∧ u.byteLength = .ok b.length ∧
      ∀ c v, outcome serialize u = (.ok c, v) → c.length = b.length ∧
        ∀ (client : Client) (link link' : Link) (fee : Int),
          (client.estimateTransactionFee t).run link = (.ok fee, link') →
            ∃ rate, client.feeRate.run link = (.ok rate, link') ∧ fee = rate * c.length := by
  have hkeeps : u.Keeps := by
    rw [← hu]
    exact after_induction (P := Keeps) (fun _ _ hchange => hchange.keeps) hcalls ht.keeps
  have hlength : t.byteLength = .ok b.length := by
    rw [ht.keeps.byteLength, hb]
    rfl
  have hsize : u.envelope.size = .ok b.length := by
    rw [← hu, size_after ht hcalls, Envelope.size, hb]
    rfl
  obtain ⟨b', hb', hlength'⟩ := Outcome.map_eq_ok.mp hsize
  refine ⟨hlength, hkeeps.byteLength.trans hsize, fun c v hc => ?_⟩
  obtain rfl := hkeeps.eq_of_serialize hb' hc
  refine ⟨hlength', fun client link link' fee hfee => ?_⟩
  obtain ⟨rate, hrate, rfl⟩ := estimateTransactionFee_eq_ok hlength hfee
  refine ⟨rate, hrate, ?_⟩
  rw [hlength', Int.mul_comm]

/-- The transfer comes about. -/
theorem start_pendingTransfer (key : Bytes) : Start (pendingTransfer key) := by
  have hauth : (Authorization.sponsored (.account key 0) none).Valid := valid_pendingTransfer key
  refine .new hauth (fun p hp v hv => ?_) (fun _ hpc => absurd hpc List.not_mem_nil) (new_pendingTransfer key)
  obtain rfl := Arg.of.inj hp
  cases hv

/-- The transfer has the same number of bytes before anybody has signed and after it was signed and sponsored with the
secret one. -/
theorem byteLength_after_pendingTransfer :
    ∃ b u, Reachable CurveLibrary.secp256k1.repaired.scheme
          (pendingTransfer (CurveLibrary.secp256k1.repaired.publicKey (Bytes.zeros 31 ++ [1]))) ∧
        (pendingTransfer (CurveLibrary.secp256k1.repaired.publicKey (Bytes.zeros 31 ++ [1]))).envelope.encode = .ok b ∧
        after CurveLibrary.secp256k1.repaired.scheme
          (pendingTransfer (CurveLibrary.secp256k1.repaired.publicKey (Bytes.zeros 31 ++ [1])))
          [.sign (.plain (.bytes (Bytes.zeros 31 ++ [1]))),
            .sponsor (.plain (.bytes (Bytes.zeros 31 ++ [1]))) (.integer 5) (.integer 0) (.integer 0)] = u ∧
        u.stage = .signed ∧
        (pendingTransfer (CurveLibrary.secp256k1.repaired.publicKey (Bytes.zeros 31 ++ [1]))).byteLength =
          .ok b.length ∧
        u.byteLength = .ok b.length := by
  have hlibrary : CurveLibrary.secp256k1.repaired.Sound :=
    CurveLibrary.repaired_sound CurveLibrary.length_publicKey_secp256k1
  have hsecret : CurveLibrary.secp256k1.repaired.isSecret (Bytes.zeros 31 ++ [1]) = true := by decide
  have ht : Reachable CurveLibrary.secp256k1.repaired.scheme
      (pendingTransfer (CurveLibrary.secp256k1.repaired.publicKey (Bytes.zeros 31 ++ [1]))) :=
    .start (start_pendingTransfer _)
  obtain ⟨b, hb⟩ := encode_pendingTransfer (CurveLibrary.secp256k1.repaired.publicKey (Bytes.zeros 31 ++ [1]))
  obtain ⟨u, _, hu, hstage, -⟩ := after_pendingTransfer hlibrary hsecret rfl
  obtain ⟨hbefore, hafter, -⟩ := byteLength_after ht hb (by simp [Call.Genuine, KeyArg.Genuine]) hu
  exact ⟨b, u, ht, hb, hu, hstage, hbefore, hafter⟩

end Transaction

end StacksWallet
