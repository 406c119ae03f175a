import StacksWallet.Proofs.Outcome
import StacksWallet.Transaction.Basic

/-!
# Signatures that a scheme produces

Signers are made from keys, which are 32 bytes that the scheme takes as a secret, and they sign digests of 32
bytes only. What is assumed of a scheme is assumed of the signatures that come about in this way.
-/

namespace StacksWallet

namespace SignatureScheme

/-- The scheme produces the signature, for some secret and some digest of the right sizes. -/
def Produces (scheme : SignatureScheme) (signature : Bytes) : Prop :=
  ∃ secret digest : Bytes, scheme.isSecret secret = true ∧ secret.length = 32 ∧ digest.length = digestWidth ∧
    signature = scheme.sign secret digest

/-- The signatures of the scheme have 65 bytes. -/
def FullWidth (scheme : SignatureScheme) : Prop :=
  ∀ signature, scheme.Produces signature → signature.length = signatureWidth

/-- No signature of the scheme is all zero. -/
def NeverEmpty (scheme : SignatureScheme) : Prop := ∀ signature, scheme.Produces signature → signature ≠ emptySignature

end SignatureScheme

/-- The signer was made from a key. -/
def Signer.Genuine (scheme : SignatureScheme) (signer : Signer) : Prop := ∃ key, ofKey scheme key = .ok signer

/-- The key is not yet a signer, or the signer was made from a key. -/
def KeyArg.Genuine (scheme : SignatureScheme) (key : KeyArg) : Prop :=
  ∀ signer, key = .of signer → signer.Genuine scheme

/-- A key that is no signer yet is genuine. -/
theorem KeyArg.Genuine.plain (scheme : SignatureScheme) (d : Datum) : KeyArg.Genuine scheme (.plain d) := nofun

/-- A genuine signer is a genuine key. -/
theorem Signer.Genuine.key {scheme : SignatureScheme} {signer : Signer} (h : signer.Genuine scheme) :
    KeyArg.Genuine scheme (.of signer) := by
  intro other hother
  obtain rfl := Arg.of.inj hother
  exact h

/-- The signer of a genuine key is genuine. -/
theorem KeyArg.Genuine.signer {scheme : SignatureScheme} {key : KeyArg} {signer : Signer} (hkey : key.Genuine scheme)
    (h : Transaction.signerOf scheme key = .ok signer) : signer.Genuine scheme := by
  cases key with
  | of other => exact hkey signer (congrArg Arg.of (Except.ok.inj h))
  | plain d => exact ⟨d, h⟩

/-- Keys have 32 bytes. -/
theorem length_of_normalizeKey {key : Datum} {secret : Bytes} (h : normalizeKey key = .ok secret) :
    secret.length = 32 := by
  unfold normalizeKey at h
  split at h
  · cases h
  · obtain ⟨hlength, rfl⟩ := Outcome.ite_eq_ok.mp h
    exact hlength

/-- The secret of a genuine signer is one of the scheme. -/
theorem Signer.Genuine.secret {scheme : SignatureScheme} {signer : Signer} (h : signer.Genuine scheme) :
    scheme.isSecret signer.secret = true ∧ signer.secret.length = 32 := by
  obtain ⟨key, h⟩ := h
  obtain ⟨secret, hsecret, h⟩ := Outcome.bind_eq_ok.mp h
  obtain ⟨hvalid, rfl⟩ := Outcome.ite_eq_ok.mp h
  exact ⟨hvalid, length_of_normalizeKey hsecret⟩

/-- What a genuine signer signs with is produced by the scheme. -/
theorem Signer.Genuine.produces {scheme : SignatureScheme} {signer : Signer} (h : signer.Genuine scheme)
    {digest : Datum} {signature : Bytes} (hsign : signer.sign scheme digest = .ok signature) :
    scheme.Produces signature := by
  obtain ⟨b, hb, hsign⟩ := Outcome.bind_eq_ok.mp hsign
  obtain ⟨raw, -, hb⟩ := Outcome.bind_eq_ok.mp hb
  obtain ⟨hlength, rfl⟩ := Outcome.ite_eq_ok.mp hb
  exact ⟨signer.secret, raw, h.secret.1, h.secret.2, hlength, (Except.ok.inj hsign).symm⟩

/-- The next signature of a genuine signer is produced by the scheme. -/
theorem SpendingCondition.nextSignature_produces {scheme : SignatureScheme} {c : SpendingCondition} {kind : AuthKind}
    {running signature next : Bytes} {signer : Signer} (hsigner : signer.Genuine scheme)
    (h : c.nextSignature scheme kind running signer = .ok (signature, next)) : scheme.Produces signature := by
  obtain ⟨presign, -, h⟩ := Outcome.bind_eq_ok.mp h
  obtain ⟨raw, hsign, h⟩ := Outcome.bind_eq_ok.mp h
  obtain ⟨_, -, h⟩ := Outcome.bind_eq_ok.mp h
  obtain ⟨rfl, -⟩ := Prod.mk.inj (Except.ok.inj h)
  exact hsigner.produces hsign

end StacksWallet
