import StacksWallet.Proofs.Signing.Signer
import StacksWallet.Proofs.Transaction.SpendingCondition

/-!
# Signatures that lead back to their signer

Of a library of curve arithmetic it is assumed that no signature is all zero, and that recovery from a signature
gives the public key of the secret. Signing then moves the recovery number to the front and verifying moves it
back, both make the digest from kind, fee and nonce on their own, and so a condition that was given a signature by
the holder of its key passes verification and leads to the same running digest.
-/

namespace StacksWallet

/-- What is relied on: no signature is all zero, and each leads back to the public key of its secret. -/
structure CurveLibrary.Sound (library : CurveLibrary) : Prop where
  sign_ne_zeros : ∀ {secret digest : Bytes}, library.isSecret secret = true → secret.length = 32 →
    digest.length = digestWidth → (library.sign secret digest).val ≠ Bytes.zeros signatureWidth
  recover_sign : ∀ {secret digest : Bytes}, library.isSecret secret = true → secret.length = 32 →
    digest.length = digestWidth →
      library.recover digest (library.sign secret digest).val = .ok (library.publicKey secret)

/-- The same of a scheme, whose signatures must have the right width besides. -/
structure SignatureScheme.Sound (scheme : SignatureScheme) : Prop where
  fullWidth : scheme.FullWidth
  neverEmpty : scheme.NeverEmpty
  recover_sign : ∀ {secret digest : Bytes}, scheme.isSecret secret = true → secret.length = 32 →
    digest.length = digestWidth → scheme.recover digest (scheme.sign secret digest) = .ok (scheme.publicKey secret)

/-- Moving the recovery number to the front and back gives the library's signature. -/
theorem recoveryLast_recoveryFirst {b : Bytes} (h : b.length = signatureWidth) :
    recoveryLast (recoveryFirst b) = b := by
  have hone : (b.drop 64).length = 1 := by rw [List.length_drop, h]; rfl
  rw [recoveryLast, recoveryFirst, List.drop_left' hone, List.take_left' hone, List.take_append_drop]

/-- Moving the recovery number keeps the width. -/
theorem length_recoveryFirst {b : Bytes} (h : b.length = signatureWidth) :
    (recoveryFirst b).length = signatureWidth := by
  rw [recoveryFirst, List.length_append, List.length_drop, List.length_take, h]
  rfl

/-- The signatures of a library's scheme have the right width. -/
theorem CurveLibrary.scheme_fullWidth (library : CurveLibrary) : library.scheme.FullWidth := by
  intro signature hsignature
  obtain ⟨secret, digest, -, -, -, rfl⟩ := hsignature
  exact length_recoveryFirst (library.sign secret digest).property

/-- The scheme of a sound library is sound. -/
theorem CurveLibrary.Sound.scheme {library : CurveLibrary} (h : library.Sound) : library.scheme.Sound := by
  refine ⟨library.scheme_fullWidth, ?_, ?_⟩
  · intro signature hsignature hempty
    obtain ⟨secret, digest, hsecret, hlength, hdigest, rfl⟩ := hsignature
    have hback := recoveryLast_recoveryFirst (library.sign secret digest).property
    have hzeros : recoveryFirst (library.sign secret digest).val = emptySignature := hempty
    rw [hzeros] at hback
    exact h.sign_ne_zeros hsecret hlength hdigest (hback.symm.trans rfl)
  · intro secret digest hsecret hlength hdigest
    have hback := recoveryLast_recoveryFirst (library.sign secret digest).property
    change library.recover digest (recoveryLast (recoveryFirst (library.sign secret digest).val)) = _
    rw [hback]
    exact h.recover_sign hsecret hlength hdigest

/-- Bytes in the form of a signature that bear a public key in the open, under a recovery number that no signature
has. -/
def bearing (key : Bytes) : LibrarySignature :=
  ⟨(key ++ Bytes.zeros 64).take 64 ++ [0xFF], by simp [signatureWidth]⟩

/-- The recovery number of such bytes. -/
theorem getLast?_bearing (key : Bytes) : (bearing key).val.getLast? = some 0xFF := List.getLast?_concat

/-- The public key that such bytes bear. -/
theorem take_bearing {key : Bytes} (h : key.length = 33) : (bearing key).val.take 33 = key := by
  rw [bearing, List.take_append_of_le_length (by simp), List.take_take]
  exact List.take_left' h

/-- The library with such bytes in place of every signature that is not as relied on. -/
def CurveLibrary.repaired (library : CurveLibrary) : CurveLibrary :=
  { library with
    sign := fun secret digest =>
      let signature := library.sign secret digest
      if signature.val ≠ Bytes.zeros signatureWidth ∧ signature.val.getLast? ≠ some 0xFF ∧
          library.recover digest signature.val = .ok (library.publicKey secret) then signature
      else bearing (library.publicKey secret)
    recover := fun digest b => if b.getLast? = some 0xFF then .ok (b.take 33) else library.recover digest b }

/-- A repaired library is as relied on, if its public keys are compressed. -/
theorem CurveLibrary.repaired_sound {library : CurveLibrary} (h : ∀ secret, (library.publicKey secret).length = 33) :
    library.repaired.Sound := by
  constructor
  · intro secret digest _ _ _
    dsimp only [repaired]
    split
    · rename_i hsound
      exact hsound.1
    · intro hzeros
      have hlast := getLast?_bearing (library.publicKey secret)
      rw [hzeros] at hlast
      exact absurd hlast (by decide)
  · intro secret digest _ _ _
    dsimp only [repaired]
    split
    · rename_i hsound
      rw [if_neg hsound.2.1]
      exact hsound.2.2
    · rw [if_pos (getLast?_bearing _), take_bearing (h secret)]

/-- Public keys on the curve are compressed. -/
theorem CurveLibrary.length_publicKey_secp256k1 (secret : Bytes) : (secp256k1.publicKey secret).length = 33 := by
  change (((Ecdsa.publicKey? secret).map (·.compressed)).getD (Bytes.zeros 33)).length = 33
  cases Ecdsa.publicKey? secret with
  | none => rfl
  | some p => simp [Secp256k1.Point.compressed]

/-- The signer of a secret of 32 bytes. -/
theorem Signer.ofKey_bytes {scheme : SignatureScheme} {secret : Bytes} (hsecret : scheme.isSecret secret = true)
    (hlength : secret.length = 32) : ofKey scheme (.bytes secret) = .ok ⟨secret, scheme.publicKey secret⟩ := by
  have hnormal : normalizeKey (.bytes secret) = .ok secret := by simp [normalizeKey, Datum.toBytes, hlength]
  exact Outcome.bind_eq_ok.mpr ⟨secret, hnormal, if_pos hsecret⟩

/-- A genuine signer has the public key of its secret. -/
theorem Signer.Genuine.publicKey_eq {scheme : SignatureScheme} {signer : Signer} (h : signer.Genuine scheme) :
    signer.publicKey = scheme.publicKey signer.secret := by
  obtain ⟨key, h⟩ := h
  obtain ⟨secret, -, h⟩ := Outcome.bind_eq_ok.mp h
  obtain ⟨-, rfl⟩ := Outcome.ite_eq_ok.mp h
  rfl

/-- Digests are taken if they have 32 bytes. -/
theorem requireDigest_eq_ok_iff {b digest : Bytes} :
    requireDigest (.bytes b) = .ok digest ↔ b.length = digestWidth ∧ digest = b := by
  have hrequire : requireDigest (.bytes b) =
      if b.length = digestWidth then .ok b else .error (.signing (.digestSize b.length)) := rfl
  rw [hrequire, Outcome.ite_eq_ok]
  exact and_congr_right' eq_comm

/-- The hash of a key is taken in the mode that is given. -/
theorem signerHash_eq_ok_iff {key hash : Bytes} {mode : Datum} :
    signerHash (.bytes key) mode = .ok hash ↔
      ∃ m, HashMode.ofDatum mode = .ok m ∧ signerHash? key m = some hash := by
  rw [signerHash, Outcome.bind_eq_ok]
  constructor
  · intro h
    obtain ⟨_, hkey, h⟩ := h
    obtain rfl := Except.ok.inj hkey
    obtain ⟨m, hm, h⟩ := Outcome.bind_eq_ok.mp h
    refine ⟨m, hm, ?_⟩
    split at h
    · rename_i hsome
      rw [hsome, Except.ok.inj h]
    · cases h
  · intro h
    obtain ⟨m, hm, hhash⟩ := h
    refine ⟨key, rfl, Outcome.bind_eq_ok.mpr ⟨m, hm, ?_⟩⟩
    rw [hhash]
    rfl

/-- The number of a mode gives the mode. -/
theorem HashMode.ofDatum_code (mode : HashMode) : HashMode.ofDatum (.integer mode.code) = .ok mode := by
  cases mode <;> rfl

namespace SpendingCondition

variable {scheme : SignatureScheme} {c : SpendingCondition} {kind : AuthKind} {running next signature : Bytes}
  {signer : Signer}

/-- The signature of the condition leads back to its signer over its fee and nonce behind a running digest, and
with it to the next running digest. -/
def SignedOver (scheme : SignatureScheme) (c : SpendingCondition) (kind : AuthKind) (running next : Bytes) : Prop :=
  ∃ digest key, c.presign kind running = .ok digest ∧ scheme.recover digest c.signature = .ok key ∧
    signerHash? key c.mode = some c.signer ∧ c.postsign digest c.signature = .ok next

/-- A signer signs the digest of the condition, whose signature is the one of the scheme. -/
theorem nextSignature_eq_ok_iff :
    c.nextSignature scheme kind running signer = .ok (signature, next) ↔
      ∃ digest, c.presign kind running = .ok digest ∧ digest.length = digestWidth ∧
        signature = scheme.sign signer.secret digest ∧ c.postsign digest signature = .ok next := by
  have hsign : ∀ digest, signer.sign scheme (.bytes digest) = .ok signature ↔
      digest.length = digestWidth ∧ signature = scheme.sign signer.secret digest := by
    intro digest
    rw [Signer.sign, Outcome.bind_eq_ok]
    constructor
    · intro h
      obtain ⟨b, hb, h⟩ := h
      obtain ⟨hlength, rfl⟩ := requireDigest_eq_ok_iff.mp hb
      exact ⟨hlength, (Except.ok.inj h).symm⟩
    · intro h
      obtain ⟨hlength, rfl⟩ := h
      exact ⟨digest, requireDigest_eq_ok_iff.mpr ⟨hlength, rfl⟩, rfl⟩
  rw [nextSignature, Outcome.bind_eq_ok]
  refine exists_congr fun digest => and_congr_right fun _ => ?_
  rw [Outcome.bind_eq_ok]
  constructor
  · intro h
    obtain ⟨raw, hraw, h⟩ := h
    obtain ⟨after, hafter, h⟩ := Outcome.bind_eq_ok.mp h
    obtain ⟨rfl, rfl⟩ := Prod.mk.inj (Except.ok.inj h)
    obtain ⟨hlength, hsignature⟩ := (hsign digest).mp hraw
    exact ⟨hlength, hsignature, hafter⟩
  · intro h
    obtain ⟨hlength, hsignature, hafter⟩ := h
    exact ⟨signature, (hsign digest).mpr ⟨hlength, hsignature⟩, Outcome.bind_eq_ok.mpr ⟨next, hafter, rfl⟩⟩

/-- What is signed has 32 bytes. -/
theorem length_of_presign {digest : Bytes} (h : c.presign kind running = .ok digest) :
    digest.length = digestWidth := by
  obtain ⟨_, -, h⟩ := Outcome.bind_eq_ok.mp h
  obtain ⟨_, -, h⟩ := Outcome.bind_eq_ok.mp h
  obtain ⟨_, -, h⟩ := Outcome.bind_eq_ok.mp h
  obtain rfl := Except.ok.inj h
  exact Sha512.digest_length _

/-- There is a digest to sign for a condition whose nonce and fee are in range. -/
theorem Valid.exists_presign (h : c.Valid) (kind : AuthKind) (running : Bytes) :
    ∃ digest, c.presign kind running = .ok digest := by
  obtain ⟨hnonce₀, hnonce₁⟩ := h.nonce_range
  obtain ⟨hfee₀, hfee₁⟩ := h.fee_range
  have hkind : Wire.u8 (.integer kind.code) = .ok (bigEndian 1 kind.code) := by cases kind <;> rfl
  have hfee : Wire.u64 (.integer c.fee) = .ok (bigEndian 8 c.fee.toNat) :=
    Wire.word_integer_eq_ok_iff.mpr ⟨hfee₀, hfee₁, rfl⟩
  have hnonce : Wire.u64 (.integer c.nonce) = .ok (bigEndian 8 c.nonce.toNat) :=
    Wire.word_integer_eq_ok_iff.mpr ⟨hnonce₀, hnonce₁, rfl⟩
  exact ⟨_, Outcome.bind_eq_ok.mpr ⟨_, hkind, Outcome.bind_eq_ok.mpr ⟨_, hfee,
    Outcome.bind_eq_ok.mpr ⟨_, hnonce, rfl⟩⟩⟩⟩

/-- Every signature leads to a next running digest. -/
theorem exists_postsign (c : SpendingCondition) (digest signature : Bytes) :
    ∃ next, c.postsign digest signature = .ok next := by
  have hencoding : Wire.u8 (.integer c.encoding.code) = .ok (bigEndian 1 c.encoding.code) := by
    cases c.encoding <;> rfl
  exact ⟨_, Outcome.bind_eq_ok.mpr ⟨_, hencoding, rfl⟩⟩

/-- Signers sign for conditions whose nonce and fee are in range. -/
theorem Valid.exists_nextSignature (h : c.Valid) (scheme : SignatureScheme) (kind : AuthKind) (running : Bytes)
    (signer : Signer) : ∃ signature next, c.nextSignature scheme kind running signer = .ok (signature, next) := by
  obtain ⟨digest, hdigest⟩ := h.exists_presign kind running
  obtain ⟨next, hnext⟩ := exists_postsign c digest (scheme.sign signer.secret digest)
  exact ⟨_, next, nextSignature_eq_ok_iff.mpr ⟨digest, hdigest, length_of_presign hdigest, rfl, hnext⟩⟩

/-- A key is recovered from a digest and a signature of the right widths. -/
theorem recoverPublicKey_eq_ok_iff {digest key : Bytes} (h : digest.length = digestWidth) :
    recoverPublicKey scheme (.bytes digest) (.bytes signature) = .ok key ↔
      signature.length = signatureWidth ∧ scheme.recover digest signature = .ok key := by
  have hsignature : ∀ b, requireSignature (.bytes signature) = .ok b ↔
      signature.length = signatureWidth ∧ signature = b := by
    intro b
    exact Outcome.ite_eq_ok
  rw [recoverPublicKey, Outcome.bind_eq_ok]
  constructor
  · intro hkey
    obtain ⟨d, hd, hkey⟩ := hkey
    obtain ⟨-, rfl⟩ := requireDigest_eq_ok_iff.mp hd
    obtain ⟨b, hb, hkey⟩ := Outcome.bind_eq_ok.mp hkey
    obtain ⟨hlength, rfl⟩ := (hsignature b).mp hb
    exact ⟨hlength, Outcome.mapError_eq_ok.mp hkey⟩
  · intro hkey
    exact ⟨digest, requireDigest_eq_ok_iff.mpr ⟨h, rfl⟩, Outcome.bind_eq_ok.mpr
      ⟨signature, (hsignature signature).mpr ⟨hkey.1, rfl⟩, Outcome.mapError_eq_ok.mpr hkey.2⟩⟩

/-- A condition passes verification if it has a signature, of the right width, that leads back to its signer. -/
theorem nextVerification_eq_ok_iff :
    c.nextVerification scheme kind running = .ok next ↔
      c.signature ≠ emptySignature ∧ c.signature.length = signatureWidth ∧ c.SignedOver scheme kind running next := by
  have hsigned : ¬ (!c.isSigned) = true ↔ c.signature ≠ emptySignature := by simp [isSigned]
  have hhash : ∀ key got, signerHash (.bytes key) (.integer c.mode.code) = .ok got ↔
      signerHash? key c.mode = some got := by
    intro key got
    rw [signerHash_eq_ok_iff, HashMode.ofDatum_code]
    simp
  rw [nextVerification, Outcome.guard_eq_ok, hsigned]
  refine and_congr_right fun _ => ?_
  rw [Outcome.bind_eq_ok]
  constructor
  · intro h
    obtain ⟨digest, hdigest, h⟩ := h
    obtain ⟨key, hkey, h⟩ := Outcome.bind_eq_ok.mp h
    obtain ⟨got, hgot, h⟩ := Outcome.bind_eq_ok.mp h
    obtain ⟨hlength, hkey⟩ := (recoverPublicKey_eq_ok_iff (length_of_presign hdigest)).mp hkey
    split at h
    · rename_i hsigner
      obtain rfl := hsigner
      exact ⟨hlength, digest, key, hdigest, hkey, (hhash key _).mp hgot, h⟩
    · cases h
  · intro h
    obtain ⟨hlength, digest, key, hdigest, hkey, hgot, h⟩ := h
    refine ⟨digest, hdigest, Outcome.bind_eq_ok.mpr ⟨key, ?_, Outcome.bind_eq_ok.mpr
      ⟨c.signer, (hhash key _).mpr hgot, ?_⟩⟩⟩
    · exact (recoverPublicKey_eq_ok_iff (length_of_presign hdigest)).mpr ⟨hlength, hkey⟩
    · rw [if_pos rfl]
      exact h

/-- A condition with a signature by the holder of its key passes verification, and both lead to the same running
digest. -/
theorem nextVerification_of_nextSignature (hscheme : scheme.Sound) (hsigner : signer.Genuine scheme)
    (hhash : signerHash? signer.publicKey c.mode = some c.signer)
    (h : c.nextSignature scheme kind running signer = .ok (signature, next)) :
    { c with signature := signature }.nextVerification scheme kind running = .ok next := by
  have hproduced := nextSignature_produces hsigner h
  obtain ⟨digest, hdigest, hlength, rfl, hnext⟩ := nextSignature_eq_ok_iff.mp h
  have hrecover := hscheme.recover_sign hsigner.secret.1 hsigner.secret.2 hlength
  rw [← hsigner.publicKey_eq] at hrecover
  exact nextVerification_eq_ok_iff.mpr ⟨hscheme.neverEmpty _ hproduced, hscheme.fullWidth _ hproduced, digest,
    signer.publicKey, hdigest, hrecover, hhash, hnext⟩

end SpendingCondition

end StacksWallet
