import StacksWallet.Proofs.Signing.Recovery

/-!
# The verdict on a signature

Verification recovers the public key from a signature and compares it with the one that is given. All that can go wrong
on the way to the recovered key counts as a signature by nobody: a digest or a signature of the wrong width, a bad
recovery number, scalars that are no signature. A given key that is none is looked at only afterwards, and it is not
told apart by the verdict: the fault of its reading comes out in place of a verdict.

Of the library nothing is assumed here but that its failures are reported as such. Which keys it recovers and which
bytes it takes for a key is left open.
-/

namespace StacksWallet

variable {scheme : SignatureScheme} {digest signature publicKey key : Bytes} {fault : Fault}

/-- Signatures are taken if they have 65 bytes. -/
theorem requireSignature_bytes (b : Bytes) :
    requireSignature (.bytes b) =
      if b.length = signatureWidth then .ok b else .error (.signing (.signatureSize b.length)) := rfl

/-- A key is recovered if digest and signature have their widths and the scheme finds one. -/
theorem recoverPublicKey_bytes_eq_ok_iff :
    recoverPublicKey scheme (.bytes digest) (.bytes signature) = .ok key ↔
      digest.length = digestWidth ∧ signature.length = signatureWidth ∧ scheme.recover digest signature = .ok key := by
  constructor
  · intro h
    obtain ⟨_, hdigest, -⟩ := Outcome.bind_eq_ok.mp h
    have hlength := (requireDigest_eq_ok_iff.mp hdigest).1
    exact ⟨hlength, (SpendingCondition.recoverPublicKey_eq_ok_iff hlength).mp h⟩
  · intro h
    exact (SpendingCondition.recoverPublicKey_eq_ok_iff h.1).mpr h.2

/-- Each failure to recover a key is one of signing: the digest's width comes first, then the signature's, and then
what the scheme finds wrong. -/
theorem recoverPublicKey_bytes_eq_error_iff :
    recoverPublicKey scheme (.bytes digest) (.bytes signature) = .error fault ↔
      ∃ flaw, fault = .signing flaw ∧
        ((digest.length ≠ digestWidth ∧ flaw = .digestSize digest.length) ∨
          (digest.length = digestWidth ∧ signature.length ≠ signatureWidth ∧
            flaw = .signatureSize signature.length) ∨
          (digest.length = digestWidth ∧ signature.length = signatureWidth ∧
            ∃ cause, scheme.recover digest signature = .error cause ∧ flaw = .recovery cause)) := by
  have hrequire : requireDigest (.bytes digest) =
      if digest.length = digestWidth then .ok digest else .error (.signing (.digestSize digest.length)) := rfl
  rw [recoverPublicKey, hrequire]
  by_cases hdigest : digest.length = digestWidth
  · rw [if_pos hdigest]
    change (requireSignature (.bytes signature) >>= _) = _ ↔ _
    rw [requireSignature_bytes]
    by_cases hsignature : signature.length = signatureWidth
    · rw [if_pos hsignature]
      change Except.mapError _ _ = _ ↔ _
      rw [Outcome.mapError_eq_error]
      simp only [hdigest, hsignature, ne_eq, not_true_eq_false, false_and, true_and, false_or]
      constructor
      · intro h
        obtain ⟨cause, hcause, rfl⟩ := h
        exact ⟨_, rfl, cause, hcause, rfl⟩
      · intro h
        obtain ⟨_, rfl, cause, hcause, rfl⟩ := h
        exact ⟨cause, hcause, rfl⟩
    · rw [if_neg hsignature]
      change Except.error _ = _ ↔ _
      simp [hdigest, hsignature, eq_comm]
  · rw [if_neg hdigest]
    change Except.error _ = _ ↔ _
    simp [hdigest, eq_comm]

/-- Reading a key gives its compressed form, or refuses it. -/
theorem compressKey_bytes (scheme : SignatureScheme) (publicKey : Bytes) :
    compressKey scheme (.bytes publicKey) =
      match scheme.compress? publicKey with
      | some given => .ok given
      | none => .error (.argument .publicKey) := rfl

/-- A recovered key is compared with the given one, if that is a key. -/
theorem verifySignature_of_recovered (h : recoverPublicKey scheme (.bytes digest) (.bytes signature) = .ok key) :
    verifySignature scheme (.bytes digest) (.bytes signature) (.bytes publicKey) =
      match scheme.compress? publicKey with
      | some given => .ok (key == given)
      | none => .error (.argument .publicKey) := by
  rw [verifySignature, h]
  dsimp only
  rw [compressKey_bytes]
  cases scheme.compress? publicKey <;> rfl

/-- A signature without a key is by nobody, whatever is given as a key. -/
theorem verifySignature_of_unrecovered
    (h : recoverPublicKey scheme (.bytes digest) (.bytes signature) = .error fault) :
    verifySignature scheme (.bytes digest) (.bytes signature) (.bytes publicKey) = .ok false := by
  obtain ⟨flaw, rfl, -⟩ := recoverPublicKey_bytes_eq_error_iff.mp h
  rw [verifySignature, h]

/-- The verdict is positive if the key that is recovered is the one that is given. -/
theorem verifySignature_eq_true_iff :
    verifySignature scheme (.bytes digest) (.bytes signature) (.bytes publicKey) = .ok true ↔
      ∃ key, recoverPublicKey scheme (.bytes digest) (.bytes signature) = .ok key ∧
        scheme.compress? publicKey = some key := by
  cases hrecover : recoverPublicKey scheme (.bytes digest) (.bytes signature) with
  | error fault => simp [verifySignature_of_unrecovered hrecover]
  | ok key =>
    rw [verifySignature_of_recovered hrecover]
    cases scheme.compress? publicKey with
    | none => simp
    | some given =>
      rw [Except.ok.injEq, beq_iff_eq]
      constructor
      · intro h
        exact ⟨key, rfl, congrArg some h.symm⟩
      · intro h
        obtain ⟨_, hkey, hgiven⟩ := h
        exact (Except.ok.inj hkey).trans (Option.some.inj hgiven).symm

/-- There is no verdict if a key is recovered and none is given, and the fault says that none is given. -/
theorem verifySignature_eq_error_iff :
    verifySignature scheme (.bytes digest) (.bytes signature) (.bytes publicKey) = .error fault ↔
      fault = .argument .publicKey ∧
        (∃ key, recoverPublicKey scheme (.bytes digest) (.bytes signature) = .ok key) ∧
          scheme.compress? publicKey = none := by
  cases hrecover : recoverPublicKey scheme (.bytes digest) (.bytes signature) with
  | error fault => simp [verifySignature_of_unrecovered hrecover]
  | ok key =>
    rw [verifySignature_of_recovered hrecover]
    cases scheme.compress? publicKey with
    | none => simp [eq_comm]
    | some given => simp

/-- There is a verdict, and it is positive exactly if the key that is recovered is the one that is given. -/
def Judged (scheme : SignatureScheme) (digest signature publicKey : Bytes) : Prop :=
  ∃ verdict, verifySignature scheme (.bytes digest) (.bytes signature) (.bytes publicKey) = .ok verdict ∧
    (verdict = true ↔ ∃ key, recoverPublicKey scheme (.bytes digest) (.bytes signature) = .ok key ∧
      scheme.compress? publicKey = some key)

/-- Over any library and for bytes of any length, the verdict is as it should be unless a key is recovered and none is
given. Then, and only then, there is a fault in place of a verdict. A key is recovered if digest and signature have
their widths and the library finds one with the recovery number behind the signature; else there is a fault of signing,
which verification turns into the verdict that the signature does not hold. -/
theorem judged_iff (library : CurveLibrary) (digest signature publicKey : Bytes) :
    (Judged library.scheme digest signature publicKey ↔
      ((∃ key, recoverPublicKey library.scheme (.bytes digest) (.bytes signature) = .ok key) →
        ∃ key, library.compress? publicKey = some key)) ∧
    (∀ fault, verifySignature library.scheme (.bytes digest) (.bytes signature) (.bytes publicKey) = .error fault ↔
      fault = .argument .publicKey ∧
        (∃ key, recoverPublicKey library.scheme (.bytes digest) (.bytes signature) = .ok key) ∧
          library.compress? publicKey = none) ∧
    (∀ key, recoverPublicKey library.scheme (.bytes digest) (.bytes signature) = .ok key ↔
      digest.length = digestWidth ∧ signature.length = signatureWidth ∧
        library.recover digest (recoveryLast signature) = .ok key) ∧
    ((∃ key, recoverPublicKey library.scheme (.bytes digest) (.bytes signature) = .ok key) ∨
      (∃ flaw, recoverPublicKey library.scheme (.bytes digest) (.bytes signature) = .error (.signing flaw)) ∧
        verifySignature library.scheme (.bytes digest) (.bytes signature) (.bytes publicKey) = .ok false) := by
  have herror : ∀ fault, verifySignature library.scheme (.bytes digest) (.bytes signature) (.bytes publicKey) =
      .error fault ↔ fault = .argument .publicKey ∧
        (∃ key, recoverPublicKey library.scheme (.bytes digest) (.bytes signature) = .ok key) ∧
          library.compress? publicKey = none := fun fault => verifySignature_eq_error_iff
  refine ⟨⟨?_, ?_⟩, herror, fun key => recoverPublicKey_bytes_eq_ok_iff, ?_⟩
  · intro h hkey
    obtain ⟨verdict, hverdict, -⟩ := h
    by_contra hnone
    have hfault := (herror _).mpr ⟨rfl, hkey, Option.eq_none_iff_forall_ne_some.mpr (not_exists.mp hnone)⟩
    cases hverdict.symm.trans hfault
  · intro h
    cases hverify : verifySignature library.scheme (.bytes digest) (.bytes signature) (.bytes publicKey) with
    | error fault =>
      obtain ⟨-, hkey, hnone⟩ := (herror fault).mp hverify
      obtain ⟨key, hsome⟩ := h hkey
      cases hnone.symm.trans hsome
    | ok verdict =>
      refine ⟨verdict, hverify, ?_⟩
      rw [← verifySignature_eq_true_iff, hverify, Except.ok.injEq]
  · cases hrecover : recoverPublicKey library.scheme (.bytes digest) (.bytes signature) with
    | ok key => exact .inl ⟨key, rfl⟩
    | error fault =>
      obtain ⟨flaw, rfl, -⟩ := recoverPublicKey_bytes_eq_error_iff.mp hrecover
      exact .inr ⟨⟨flaw, rfl⟩, verifySignature_of_unrecovered hrecover⟩

/-- The signature of the digest zero under the secret one with the nonce one: both of its scalars are the abscissa of
the generator. -/
def generatorSignature : Bytes :=
  0 :: bigEndian 32 Secp256k1.generator.x ++ bigEndian 32 Secp256k1.generator.x

/-- From this signature the generator is recovered, which is the public key of the secret one. With a single byte in
place of the key there is no verdict but a fault. -/
theorem generatorSignature_not_judged :
    recoverPublicKey .secp256k1 (.bytes (Bytes.zeros 32)) (.bytes generatorSignature) =
        .ok Secp256k1.generator.compressed ∧
      verifySignature .secp256k1 (.bytes (Bytes.zeros 32)) (.bytes generatorSignature) (.bytes [2]) =
        .error (.argument .publicKey) ∧
      ¬ Judged .secp256k1 (Bytes.zeros 32) generatorSignature [2] := by
  have hfound : (SignatureScheme.secp256k1.recover (Bytes.zeros 32) generatorSignature).toOption =
      some Secp256k1.generator.compressed := by decide +kernel
  have hrecover : recoverPublicKey .secp256k1 (.bytes (Bytes.zeros 32)) (.bytes generatorSignature) =
      .ok Secp256k1.generator.compressed :=
    recoverPublicKey_bytes_eq_ok_iff.mpr ⟨rfl, rfl, Outcome.toOption_eq_some_iff.mp hfound⟩
  have hfault : verifySignature .secp256k1 (.bytes (Bytes.zeros 32)) (.bytes generatorSignature) (.bytes [2]) =
      .error (.argument .publicKey) := verifySignature_of_recovered hrecover
  refine ⟨hrecover, hfault, fun h => ?_⟩
  obtain ⟨verdict, hverdict, -⟩ := h
  cases hfault.symm.trans hverdict

end StacksWallet
