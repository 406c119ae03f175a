import StacksWallet.Proofs.Signing.Recovery
import StacksWallet.Proofs.Transaction.Run

/-!
# Signed transactions verify

A transaction that was made without signatures goes through calls in sequence. Whenever it has been signed, the
signature of the origin leads back to the origin over the transaction as it is, and so does that of a sponsor who
was attached. Nothing that was signed changes under a signature: a transaction that may still be changed has no
sponsor, and any change of one that is signed either starts again or leaves what the digests start from as it is.
-/

namespace StacksWallet

namespace Envelope

/-- The digest that the origin's signature starts from is that of the blank envelope. -/
theorem initialDigest_blank (e : Envelope) : e.blank.initialDigest = e.initialDigest := by
  obtain ⟨version, chainId, ⟨origin, _ | sponsor⟩, anchor, conditionMode, conditions, payload⟩ := e
  · rfl
  · rfl

/-- Envelopes with the same blank start from the same digest. -/
theorem initialDigest_congr {e e' : Envelope} (h : e.blank = e'.blank) : e.initialDigest = e'.initialDigest := by
  rw [← initialDigest_blank, h, initialDigest_blank]

end Envelope

namespace SpendingCondition

/-- A signature that is set is all that changes. -/
theorem eq_of_withSignature {c c' : SpendingCondition} {signature : Bytes} (h : c.withSignature signature = .ok c') :
    c' = { c with signature := signature } := by
  obtain ⟨-, hnonce, hfee, hmode, hsigner, hencoding, hsignature⟩ := make_eq_ok_iff.mp h
  obtain ⟨mode, signer, nonce, fee, encoding, other⟩ := c'
  obtain rfl := Datum.integer.inj hnonce
  obtain rfl := Datum.integer.inj hfee
  obtain rfl := hmode
  obtain rfl := hsigner
  obtain rfl := hencoding
  obtain rfl := hsignature
  rfl

/-- Signatures of the right width are set on valid conditions. -/
theorem Valid.withSignature_eq {c : SpendingCondition} {signature : Bytes} (h : c.Valid)
    (hlength : signature.length = signatureWidth) :
    c.withSignature signature = .ok { c with signature := signature } :=
  make_eq_ok_iff.mpr ⟨{ h with signature_length := hlength }, rfl, rfl, rfl, rfl, rfl, rfl⟩

/-- A condition for the holder of a key has the hash of the key as its signer. -/
theorem signerHash_of_ofPublicKey {key : Bytes} {nonce fee mode : Datum} {c : SpendingCondition}
    (h : ofPublicKey (.bytes key) nonce fee mode = .ok c) : signerHash? key c.mode = some c.signer := by
  obtain ⟨hash, hhash, h⟩ := Outcome.bind_eq_ok.mp h
  obtain ⟨m, hm, h⟩ := Outcome.bind_eq_ok.mp h
  obtain ⟨m', hm', hhash⟩ := signerHash_eq_ok_iff.mp hhash
  obtain rfl := Except.ok.inj (hm.symm.trans hm')
  obtain ⟨-, -, -, rfl, rfl, -, -⟩ := make_eq_ok_iff.mp h
  exact hhash

/-- The account of a public key, at a fee. -/
def account (key : Bytes) (fee : Int) : SpendingCondition :=
  ⟨.p2pkh, (keyHash key).val, 0, fee, .compressed, emptySignature⟩

/-- Such an account passes the checks of the constructor. -/
theorem account_valid (key : Bytes) (fee : Int) (h : 0 ≤ fee ∧ fee < wordCount 8) : (account key fee).Valid := by
  have hkeyed : (account key fee).Keyed := ⟨rfl, (keyHash key).property⟩
  exact { hkeyed.blank_valid with fee_range := h }

/-- Such an account is made for the holder of the key. -/
theorem ofPublicKey_account (key : Bytes) (fee : Int) (h : 0 ≤ fee ∧ fee < wordCount 8) :
    ofPublicKey (.bytes key) (.integer 0) (.integer fee) (.integer 0) = .ok (account key fee) :=
  Outcome.bind_eq_ok.mpr ⟨_, signerHash_eq_ok_iff.mpr ⟨.p2pkh, rfl, rfl⟩, Outcome.bind_eq_ok.mpr
    ⟨.p2pkh, rfl, make_eq_ok_iff.mpr ⟨account_valid key fee h, rfl, rfl, rfl, rfl, rfl, rfl⟩⟩⟩

end SpendingCondition

namespace Transaction

variable {scheme : SignatureScheme} {t t' : Transaction}

/-- The origin's signature passes verification, and behind it that of the sponsor if there is one. -/
def Verifies (scheme : SignatureScheme) (t : Transaction) : Prop :=
  ∃ running middle, t.initialDigest = .ok running ∧
    t.envelope.auth.origin.nextVerification scheme .standard running = .ok middle ∧
      ∀ c, t.envelope.auth.sponsor? = some c → c.isSentinel = false →
        ∃ last, c.nextVerification scheme .sponsored middle = .ok last

/-- A transaction that is signed passes verification, and one that is not has no sponsor. -/
structure Backed (scheme : SignatureScheme) (t : Transaction) : Prop where
  signed : t.stage ∈ signedStages → t.Verifies scheme
  unsigned : t.stage = .unsigned → ∀ c, t.envelope.auth.sponsor? = some c → c.isSentinel = true

/-- The digest of an envelope survives changes. -/
theorem Change.initialDigest_eq (h : Change scheme t t') : t'.initialDigest = t.initialDigest :=
  Envelope.initialDigest_congr h.blank_eq

/-- Changes keep transactions backed. -/
theorem Change.backed (hscheme : scheme.Sound) (h : Change scheme t t') (ht : t.Backed scheme) : t'.Backed scheme := by
  have hdigest := h.initialDigest_eq
  cases h with
  | stay => exact ht
  | nonce hstage | fee hstage =>
    refine ⟨fun hsigned => ?_, ht.unsigned⟩
    have hsigned : t.stage ∈ signedStages := hsigned
    rw [hstage] at hsigned
    exact absurd hsigned (by decide)
  | sign hstage hsigner hhash hrunning hsignature horigin =>
    obtain ⟨mode, hmode, hhash⟩ := signerHash_eq_ok_iff.mp hhash
    obtain rfl := Except.ok.inj ((HashMode.ofDatum_code _).symm.trans hmode)
    obtain rfl := SpendingCondition.eq_of_withSignature horigin
    have hmiddle := SpendingCondition.nextVerification_of_nextSignature hscheme hsigner hhash hsignature
    -- The stage was unsigned, and so there is no sponsor whose signature could be behind another one.
    have hsponsor := ht.unsigned hstage
    refine ⟨fun _ => ⟨_, _, hdigest.trans hrunning, hmiddle, fun c hc hsentinel => ?_⟩, nofun⟩
    cases hsentinel.symm.trans (hsponsor c hc)
  | sponsor hstage _ hsigner hcondition hrunning hmiddle hsignature =>
    refine ⟨fun _ => ⟨_, _, hdigest.trans hrunning, hmiddle, fun c hc _ => ?_⟩, nofun⟩
    obtain rfl := Option.some.inj hc
    have hhash := SpendingCondition.signerHash_of_ofPublicKey hcondition
    exact ⟨_, SpendingCondition.nextVerification_of_nextSignature hscheme hsigner hhash hsignature⟩
  | clear horigin =>
    refine ⟨fun hsigned => absurd hsigned (by decide : Stage.unsigned ∉ signedStages), fun _ c hc => ?_⟩
    obtain ⟨_, -, rfl⟩ := Option.map_eq_some_iff.mp hc
    rfl
  | serialize hstage => exact ⟨fun _ => ht.signed hstage, nofun⟩

/-- Verification of a signed transaction finds that the signatures hold, if they do. -/
theorem outcome_verify (hstage : t.stage ∈ signedStages) (h : t.Verifies scheme) :
    outcome (verify scheme) t = (.ok true, t) := by
  obtain ⟨running, middle, hrunning, hmiddle, hsponsor⟩ := h
  rw [verify, outcome_require_bind hstage, outcome_get_bind, outcome_lift_bind hrunning, outcome_lift_bind hmiddle]
  cases hc : t.envelope.auth.sponsor? with
  | none => rfl
  | some c =>
    dsimp only
    cases hsentinel : c.isSentinel with
    | true => rfl
    | false =>
      obtain ⟨last, hlast⟩ := hsponsor c hc hsentinel
      exact outcome_lift_bind hlast

/-- A new transaction without a sponsor is backed. -/
theorem backed_of_new {version : TransactionVersion} {chainId : Nat} {auth : Authorization} {payload : PayloadArg}
    {anchor conditionMode : Datum} {conditions : List (Arg PostCondition)}
    (h : Transaction.new version chainId auth payload anchor conditionMode conditions = .ok t)
    (hsponsor : ∀ c, auth.sponsor? = some c → c.isSentinel = true) : t.Backed scheme := by
  obtain ⟨-, e, he, rfl⟩ := new_eq_ok_iff.mp h
  obtain rfl := Arg.of.inj (envelope_of_make he).1
  exact ⟨fun hsigned => absurd hsigned (by decide : Stage.unsigned ∉ signedStages), fun _ => hsponsor⟩

/-- Whenever a transaction that began without signatures and sponsor is signed, verification finds that its
signatures hold: that of the origin, and that of a sponsor who was attached, lead back to their signers over the
transaction as it is. -/
theorem verify_after {library : CurveLibrary} (hlibrary : library.Sound) {version : TransactionVersion} {chainId : Nat}
    {auth : Authorization} {payload : PayloadArg} {anchor conditionMode : Datum}
    {conditions : List (Arg PostCondition)}
    (hnew : Transaction.new version chainId auth payload anchor conditionMode conditions = .ok t)
    (hsponsor : ∀ c, auth.sponsor? = some c → c.isSentinel = true) {calls : List Call}
    (hcalls : ∀ c ∈ calls, c.Genuine library.scheme) {u : Transaction} (hu : after library.scheme t calls = u)
    (hstage : u.stage = .signed ∨ u.stage = .serialized) :
    outcome (verify library.scheme) u = (.ok true, u) ∧
      ∃ running middle, u.initialDigest = .ok running ∧
        u.envelope.auth.origin.SignedOver library.scheme .standard running middle ∧
          ∀ c, u.envelope.auth.sponsor? = some c → c.isSentinel = false →
            ∃ last, c.SignedOver library.scheme .sponsored middle last := by
  have hbacked : u.Backed library.scheme := by
    rw [← hu]
    exact after_induction (fun _ _ hchange => hchange.backed hlibrary.scheme) hcalls (backed_of_new hnew hsponsor)
  have hsigned := mem_signedStages_iff.mpr hstage
  have hverifies := hbacked.signed hsigned
  refine ⟨outcome_verify hsigned hverifies, ?_⟩
  obtain ⟨running, middle, hrunning, hmiddle, hlast⟩ := hverifies
  refine ⟨running, middle, hrunning, (SpendingCondition.nextVerification_eq_ok_iff.mp hmiddle).2.2, fun c hc h => ?_⟩
  obtain ⟨last, hlast⟩ := hlast c hc h
  exact ⟨last, (SpendingCondition.nextVerification_eq_ok_iff.mp hlast).2.2⟩

/-- The key that the origin commits to signs an unsigned transaction that can be written. -/
theorem exists_sign {key : KeyArg} {signer : Signer} {b : Bytes} (hwidth : scheme.FullWidth)
    (hstage : t.stage = .unsigned) (horigin : t.envelope.auth.origin.Valid) (hb : t.envelope.encode = .ok b)
    (hkey : key.Genuine scheme) (hsigner : signerOf scheme key = .ok signer)
    (hhash : signerHash? signer.publicKey t.envelope.auth.origin.mode = some t.envelope.auth.origin.signer) :
    ∃ t', outcome (sign scheme key) t = (.ok (), t') ∧ t'.stage = .signed ∧
      t'.envelope.auth.sponsor? = t.envelope.auth.sponsor? := by
  have hgot : signerHash (.bytes signer.publicKey) (.integer t.envelope.auth.origin.mode.code) =
      .ok t.envelope.auth.origin.signer :=
    signerHash_eq_ok_iff.mpr ⟨_, HashMode.ofDatum_code _, hhash⟩
  obtain ⟨blank, hblank⟩ := Envelope.exists_encode_blank horigin.keyed hb
  have hrunning : t.initialDigest = .ok (Sha512.digest blank) :=
    Outcome.map_eq_ok.mpr ⟨blank, (Envelope.initialBytes_eq horigin.keyed).trans hblank, rfl⟩
  obtain ⟨signature, next, hsignature⟩ := horigin.exists_nextSignature scheme .standard (Sha512.digest blank) signer
  have hlength := hwidth _ (SpendingCondition.nextSignature_produces (hkey.signer hsigner) hsignature)
  let origin := { t.envelope.auth.origin with signature := signature }
  refine ⟨{ t.withOrigin origin with stage := .signed, cached? := none }, ?_, rfl, rfl⟩
  rw [sign, outcome_require_bind (List.mem_singleton.mpr hstage), outcome_lift_bind hsigner, outcome_get_bind]
  refine (outcome_lift_bind hgot).trans ((outcome_guard (not_not.mpr rfl)).trans ?_)
  rw [outcome_get_bind, outcome_lift_bind hrunning, outcome_lift_bind hsignature]
  exact outcome_lift_bind (horigin.withSignature_eq hlength)

/-- Whoever has a key can sponsor a sponsored transaction that passes verification. -/
theorem exists_sponsor {key : KeyArg} {signer : Signer} {fee nonce mode : Datum} {condition : SpendingCondition}
    (hempty : scheme.NeverEmpty) (hstage : t.stage ∈ signedStages) (hsponsored : t.envelope.auth.isSponsored = true)
    (hverifies : t.Verifies scheme) (hkey : key.Genuine scheme) (hsigner : signerOf scheme key = .ok signer)
    (hcondition : SpendingCondition.ofPublicKey (.bytes signer.publicKey) nonce fee mode = .ok condition) :
    ∃ c t', outcome (sponsor scheme key fee nonce mode) t = (.ok (), t') ∧ t'.stage = .signed ∧
      t'.envelope.auth.sponsor? = some c ∧ c.isSigned = true := by
  obtain ⟨running, middle, hrunning, hmiddle, -⟩ := hverifies
  have hvalid := ofPublicKey_valid hcondition
  obtain ⟨signature, next, hsignature⟩ := hvalid.exists_nextSignature scheme .sponsored middle signer
  have hne := hempty _ (SpendingCondition.nextSignature_produces (hkey.signer hsigner) hsignature)
  have hunsponsored : ¬ (!t.envelope.auth.isSponsored) = true := by simpa using hsponsored
  refine ⟨{ condition with signature := signature },
    { t.withSponsor { condition with signature := signature } with stage := .signed, cached? := none }, ?_, rfl, rfl,
    bne_iff_ne.mpr hne⟩
  rw [sponsor, outcome_get_bind]
  refine (outcome_guard hunsponsored).trans ?_
  rw [outcome_require_bind hstage, outcome_lift_bind hsigner, outcome_lift_bind hcondition,
    outcome_lift_bind hrunning, outcome_lift_bind hmiddle, outcome_lift_bind hsignature]
  rfl

/-- The blank transfer from the account of a public key, before anybody has signed or sponsored it. -/
def pendingTransfer (key : Bytes) : Transaction :=
  ofEnvelope { Envelope.blankTransfer with auth := .sponsored (.account key 0) none }

/-- The transfer is new. -/
theorem new_pendingTransfer (key : Bytes) :
    Transaction.new .mainnet 1 (.sponsored (.account key 0) none) (.of Envelope.blankTransfer.payload) (.integer 3)
      (.integer 2) [] = .ok (pendingTransfer key) := rfl

/-- The transfer has no sponsor. -/
theorem sponsor_pendingTransfer (key : Bytes) :
    ∀ c, (Authorization.sponsored (.account key 0) none).sponsor? = some c → c.isSentinel = true := by
  intro c hc
  obtain rfl := Option.some.inj hc
  rfl

/-- The spending conditions of the transfer are valid. -/
theorem valid_pendingTransfer (key : Bytes) : (pendingTransfer key).envelope.auth.Valid := by
  refine ⟨SpendingCondition.account_valid key 0 (by decide), fun c hc => ?_⟩
  obtain rfl := Option.some.inj hc
  exact sentinel_valid

/-- The transfer is written. -/
theorem encode_pendingTransfer (key : Bytes) : ∃ b, (pendingTransfer key).envelope.encode = .ok b :=
  ⟨_, (Envelope.encode_eq_ok_iff (valid_pendingTransfer key)).mpr ⟨_, _, rfl, rfl, rfl⟩⟩

/-- The transfer can be signed and sponsored with any secret whose public key it is from. -/
theorem after_pendingTransfer {library : CurveLibrary} (hlibrary : library.Sound) {secret : Bytes}
    (hsecret : library.isSecret secret = true) (hlength : secret.length = 32) :
    ∃ u c, after library.scheme (pendingTransfer (library.publicKey secret)) [.sign (.plain (.bytes secret)),
        .sponsor (.plain (.bytes secret)) (.integer 5) (.integer 0) (.integer 0)] = u ∧
      u.stage = .signed ∧ u.envelope.auth.sponsor? = some c ∧ c.isSigned = true := by
  have hscheme := hlibrary.scheme
  have hsigner : signerOf library.scheme (.plain (.bytes secret)) = .ok ⟨secret, library.publicKey secret⟩ :=
    Signer.ofKey_bytes hsecret hlength
  have hkey : KeyArg.Genuine library.scheme (.plain (.bytes secret)) := nofun
  have horigin := SpendingCondition.account_valid (library.publicKey secret) 0 (by decide)
  have hcondition := SpendingCondition.ofPublicKey_account (library.publicKey secret) 5 (by decide)
  obtain ⟨b, hb⟩ := encode_pendingTransfer (library.publicKey secret)
  obtain ⟨t, ht, hstage, hauth⟩ := exists_sign hscheme.fullWidth rfl horigin hb hkey hsigner rfl
  have hsigned := mem_signedStages_iff.mpr (.inl hstage)
  have hbacked := ((does_sign _).success ht hkey).backed hscheme
    (backed_of_new (new_pendingTransfer _) (sponsor_pendingTransfer _))
  have hsponsored : t.envelope.auth.isSponsored = true := by
    rw [Authorization.isSponsored, hauth]
    rfl
  obtain ⟨c, u, hu, hresult⟩ := exists_sponsor hscheme.neverEmpty hsigned hsponsored (hbacked.signed hsigned) hkey
    hsigner hcondition
  refine ⟨u, c, ?_, hresult⟩
  rw [after_cons (outcome_bind_eq_ok.mpr ⟨(), t, ht, rfl⟩), after_cons (outcome_bind_eq_ok.mpr ⟨(), u, hu, rfl⟩), after]

/-- The transfer is signed and sponsored with the secret one, and verification finds that both signatures hold. -/
theorem verify_after_pendingTransfer :
    CurveLibrary.secp256k1.repaired.Sound ∧
      ∃ u c, after CurveLibrary.secp256k1.repaired.scheme
          (pendingTransfer (CurveLibrary.secp256k1.repaired.publicKey (Bytes.zeros 31 ++ [1])))
          [.sign (.plain (.bytes (Bytes.zeros 31 ++ [1]))),
            .sponsor (.plain (.bytes (Bytes.zeros 31 ++ [1]))) (.integer 5) (.integer 0) (.integer 0)] = u ∧
        u.stage = .signed ∧ u.envelope.auth.sponsor? = some c ∧ c.isSigned = true ∧
          outcome (verify CurveLibrary.secp256k1.repaired.scheme) u = (.ok true, u) := by
  have hlibrary : CurveLibrary.secp256k1.repaired.Sound :=
    CurveLibrary.repaired_sound CurveLibrary.length_publicKey_secp256k1
  have hsecret : CurveLibrary.secp256k1.repaired.isSecret (Bytes.zeros 31 ++ [1]) = true := by decide
  obtain ⟨u, c, hu, hstage, hc, hsigned⟩ := after_pendingTransfer hlibrary hsecret rfl
  have hverify := verify_after hlibrary (new_pendingTransfer _) (sponsor_pendingTransfer _)
    (by simp [Call.Genuine, KeyArg.Genuine]) hu (.inl hstage)
  exact ⟨hlibrary, u, c, hu, hstage, hc, hsigned, hverify.1⟩

end Transaction

end StacksWallet
