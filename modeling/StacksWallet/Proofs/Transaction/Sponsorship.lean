import StacksWallet.Proofs.Transaction.Verification

/-!
# Sponsors

A sponsor signs behind the origin. What the sponsor's signature is made over, the transaction with its sponsor blanked
out and the signature of the origin, is the same whoever sponsored before. So of several sponsors only the last one is
left, and nothing tells that there were others. The signature of the origin is checked on the way: a transaction
passes verification right after it was sponsored, wherever it came from and whatever it has been through.
-/

namespace StacksWallet.Transaction

variable {scheme : SignatureScheme} {t u : Transaction} {key : KeyArg} {fee nonce mode : Datum} {c : SpendingCondition}

/-- The transaction with a sponsor attached, for which the bytes are still to be made. -/
def sponsoredBy (t : Transaction) (c : SpendingCondition) : Transaction :=
  { t.withSponsor c with stage := .signed, cached? := none }

/-- The condition of a sponsor who signs behind a signature of the origin that holds. -/
def sponsorship (scheme : SignatureScheme) (t : Transaction) (key : KeyArg) (fee nonce mode : Datum) :
    Except Fault SpendingCondition := do
  let signer ← signerOf scheme key
  let condition ← SpendingCondition.ofPublicKey (.bytes signer.publicKey) nonce fee mode
  let running ← t.initialDigest
  let middle ← t.envelope.auth.origin.nextVerification scheme .standard running
  let (signature, _) ← condition.nextSignature scheme .sponsored middle signer
  return { condition with signature := signature }

/-- A sponsor can be attached: there is a place for one, and the origin has signed. -/
structure Sponsorable (t : Transaction) : Prop where
  sponsored : t.envelope.auth.isSponsored = true
  stage : t.stage ∈ signedStages

/-- Sponsoring attaches the condition of the sponsor, or it fails and changes nothing. -/
theorem Sponsorable.outcome_sponsor (h : t.Sponsorable) :
    outcome (sponsor scheme key fee nonce mode) t =
      concluded t t.sponsoredBy (sponsorship scheme t key fee nonce mode) := by
  have hguard : ¬ (!t.envelope.auth.isSponsored) = true := by simp [h.sponsored]
  rw [sponsor, outcome_get_bind]
  refine (outcome_guard hguard).trans ?_
  rw [outcome_require_bind h.stage]
  exact outcome_lift_concluded fun signer => outcome_lift_concluded fun condition => outcome_lift_concluded fun running =>
    outcome_lift_concluded fun middle => outcome_lift_concluded fun signed => rfl

/-- Where no sponsor can be attached, sponsoring fails and changes nothing. -/
theorem outcome_sponsor_refused (scheme : SignatureScheme) (key : KeyArg) (fee nonce mode : Datum)
    (h : ¬ t.Sponsorable) : ∃ fault, outcome (sponsor scheme key fee nonce mode) t = (.error fault, t) := by
  rw [sponsor, outcome_get_bind]
  by_cases hsponsored : t.envelope.auth.isSponsored = true
  · have hguard : ¬ (!t.envelope.auth.isSponsored) = true := by simp [hsponsored]
    rw [outcome_guard hguard, outcome_require_refused fun hstage => h ⟨hsponsored, hstage⟩]
    exact ⟨_, rfl⟩
  · have hguard : (!t.envelope.auth.isSponsored) = true := by simpa using hsponsored
    rw [if_pos hguard]
    exact ⟨_, rfl⟩

/-- Sponsoring succeeds if a sponsor can be attached and the condition of this one is made. -/
theorem outcome_sponsor_eq_ok_iff :
    outcome (sponsor scheme key fee nonce mode) t = (.ok (), u) ↔
      t.Sponsorable ∧ ∃ c, sponsorship scheme t key fee nonce mode = .ok c ∧ u = t.sponsoredBy c := by
  by_cases ht : t.Sponsorable
  · rw [ht.outcome_sponsor, concluded_eq_ok_iff, and_iff_right ht]
  · obtain ⟨fault, hfault⟩ := outcome_sponsor_refused scheme key fee nonce mode ht
    rw [hfault]
    simp [ht]

/-- A transaction with a sponsor attached has the blank that it had before. -/
theorem Sponsorable.blank_sponsoredBy (h : t.Sponsorable) (c : SpendingCondition) :
    (t.sponsoredBy c).envelope.blank = t.envelope.blank := by
  obtain ⟨old, hold⟩ := Option.isSome_iff_exists.mp h.sponsored
  simp [sponsoredBy, withSponsor, Envelope.blank, Authorization.blank, hold]

/-- Attaching a sponsor leaves the digest as it is that the origin signs. -/
theorem Sponsorable.initialDigest_sponsoredBy (h : t.Sponsorable) (c : SpendingCondition) :
    (t.sponsoredBy c).initialDigest = t.initialDigest :=
  Envelope.initialDigest_congr (h.blank_sponsoredBy c)

/-- Another sponsor can be attached in place of the one there is. -/
theorem sponsorable_sponsoredBy (t : Transaction) (c : SpendingCondition) : (t.sponsoredBy c).Sponsorable :=
  ⟨rfl, mem_signedStages_iff.mpr (.inl rfl)⟩

/-- The condition of a sponsor does not depend on who sponsored before. -/
theorem Sponsorable.sponsorship_sponsoredBy (h : t.Sponsorable) (c : SpendingCondition) :
    sponsorship scheme (t.sponsoredBy c) key fee nonce mode = sponsorship scheme t key fee nonce mode := by
  rw [sponsorship, sponsorship, h.initialDigest_sponsoredBy]
  rfl

/-- A call to sponsor leads to a transaction with a sponsor attached, or leaves it as it is. -/
theorem after_sponsor (scheme : SignatureScheme) (t : Transaction) (key : KeyArg) (fee nonce mode : Datum) :
    (outcome (sponsor scheme key fee nonce mode) t).2 = t ∨
      t.Sponsorable ∧ ∃ c, (outcome (sponsor scheme key fee nonce mode) t).2 = t.sponsoredBy c := by
  rcases hcall : outcome (sponsor scheme key fee nonce mode) t with ⟨fault | ⟨⟩, u⟩
  · exact .inl ((does_sponsor key fee nonce mode).failure hcall)
  · obtain ⟨ht, c, -, hu⟩ := outcome_sponsor_eq_ok_iff.mp hcall
    exact .inr ⟨ht, c, hu⟩

/-- A transaction with two sponsors attached one after the other has the second one only. -/
theorem sponsoredBy_sponsoredBy (t : Transaction) (c c' : SpendingCondition) :
    (t.sponsoredBy c).sponsoredBy c' = t.sponsoredBy c' := rfl

/-- A call to sponsor touches neither the origin nor the digest that the origin signs. -/
theorem origin_after_sponsor (scheme : SignatureScheme) (t : Transaction) (key : KeyArg) (fee nonce mode : Datum) :
    (outcome (sponsor scheme key fee nonce mode) t).2.envelope.auth.origin = t.envelope.auth.origin ∧
      (outcome (sponsor scheme key fee nonce mode) t).2.initialDigest = t.initialDigest := by
  rcases after_sponsor scheme t key fee nonce mode with hu | ⟨ht, c, hu⟩
  · rw [hu]
    exact ⟨rfl, rfl⟩
  · rw [hu]
    exact ⟨rfl, ht.initialDigest_sponsoredBy c⟩

/-- Sponsoring again does what it would have done at first, and it fails as it would have done. -/
theorem Sponsorable.outcome_sponsor_sponsoredBy (h : t.Sponsorable) (c : SpendingCondition) :
    (outcome (sponsor scheme key fee nonce mode) (t.sponsoredBy c)).1 = (outcome (sponsor scheme key fee nonce mode) t).1 ∧
      ∀ u, outcome (sponsor scheme key fee nonce mode) (t.sponsoredBy c) = (.ok (), u) ↔
        outcome (sponsor scheme key fee nonce mode) t = (.ok (), u) := by
  rw [h.outcome_sponsor, (sponsorable_sponsoredBy t c).outcome_sponsor, h.sponsorship_sponsoredBy]
  cases sponsorship scheme t key fee nonce mode with
  | error fault => exact ⟨rfl, fun u => ⟨nofun, nofun⟩⟩
  | ok c' =>
    rw [concluded, concluded, sponsoredBy_sponsoredBy]
    exact ⟨rfl, fun u => Iff.rfl⟩

/-- The last sponsor holds. After any other call to sponsor, one that fails included, a sponsor is attached exactly when
this would have been done without that call, and the transaction is the same then, with its stage and without bytes;
otherwise the fault is the same. Neither call touches the origin or the digest that the origin signs. -/
theorem sponsor_after_sponsor (scheme : SignatureScheme) (t : Transaction) (key key' : KeyArg)
    (fee fee' nonce nonce' mode mode' : Datum) :
    ∃ u v, (outcome (sponsor scheme key fee nonce mode) t).2 = u ∧
      (outcome (sponsor scheme key' fee' nonce' mode') u).2 = v ∧
      (outcome (sponsor scheme key' fee' nonce' mode') u).1 = (outcome (sponsor scheme key' fee' nonce' mode') t).1 ∧
      (∀ w, outcome (sponsor scheme key' fee' nonce' mode') u = (.ok (), w) ↔
        outcome (sponsor scheme key' fee' nonce' mode') t = (.ok (), w)) ∧
      u.envelope.auth.origin = t.envelope.auth.origin ∧ u.initialDigest = t.initialDigest ∧
      v.envelope.auth.origin = t.envelope.auth.origin ∧ v.initialDigest = t.initialDigest := by
  obtain ⟨u, hu⟩ : ∃ u, (outcome (sponsor scheme key fee nonce mode) t).2 = u := ⟨_, rfl⟩
  obtain ⟨horigin, hdigest⟩ := origin_after_sponsor scheme t key fee nonce mode
  rw [hu] at horigin hdigest
  obtain ⟨horigin', hdigest'⟩ := origin_after_sponsor scheme u key' fee' nonce' mode'
  have hlast : (outcome (sponsor scheme key' fee' nonce' mode') u).1 =
      (outcome (sponsor scheme key' fee' nonce' mode') t).1 ∧
        ∀ w, outcome (sponsor scheme key' fee' nonce' mode') u = (.ok (), w) ↔
          outcome (sponsor scheme key' fee' nonce' mode') t = (.ok (), w) := by
    rcases after_sponsor scheme t key fee nonce mode with hstay | ⟨ht, c, hchange⟩
    · rw [← hu, hstay]
      exact ⟨rfl, fun _ => Iff.rfl⟩
    · rw [← hu, hchange]
      exact ht.outcome_sponsor_sponsoredBy c
  exact ⟨u, _, hu, rfl, hlast.1, hlast.2, horigin, hdigest, horigin'.trans horigin, hdigest'.trans hdigest⟩

/-- The condition of a sponsor passes verification behind the origin, whose signature was checked for it. -/
theorem nextVerification_of_sponsorship (hscheme : scheme.Sound) (hkey : key.Genuine scheme)
    (h : sponsorship scheme t key fee nonce mode = .ok c) :
    ∃ running middle last, t.initialDigest = .ok running ∧
      t.envelope.auth.origin.nextVerification scheme .standard running = .ok middle ∧
        c.nextVerification scheme .sponsored middle = .ok last := by
  obtain ⟨signer, hsigner, h⟩ := Outcome.bind_eq_ok.mp h
  obtain ⟨condition, hcondition, h⟩ := Outcome.bind_eq_ok.mp h
  obtain ⟨running, hrunning, h⟩ := Outcome.bind_eq_ok.mp h
  obtain ⟨middle, hmiddle, h⟩ := Outcome.bind_eq_ok.mp h
  obtain ⟨⟨signature, last⟩, hsignature, h⟩ := Outcome.bind_eq_ok.mp h
  obtain rfl := Except.ok.inj h
  have hhash := SpendingCondition.signerHash_of_ofPublicKey hcondition
  exact ⟨running, middle, last, hrunning, hmiddle,
    SpendingCondition.nextVerification_of_nextSignature hscheme (hkey.signer hsigner) hhash hsignature⟩

/-- Whatever transaction is sponsored, one that was read from any bytes and has been through any calls included, it
passes verification right afterwards. The signature of its origin leads back to the origin, and that of the sponsor
behind it to the sponsor. -/
theorem verify_after_sponsor {library : CurveLibrary} (hlibrary : library.Sound) (hkey : key.Genuine library.scheme)
    (h : outcome (sponsor library.scheme key fee nonce mode) t = (.ok (), u)) :
    outcome (verify library.scheme) u = (.ok true, u) ∧
      ∃ c running middle last, u.envelope.auth = ⟨t.envelope.auth.origin, some c⟩ ∧ t.initialDigest = .ok running ∧
        t.envelope.auth.origin.SignedOver library.scheme .standard running middle ∧
          c.SignedOver library.scheme .sponsored middle last := by
  obtain ⟨ht, c, hc, rfl⟩ := outcome_sponsor_eq_ok_iff.mp h
  obtain ⟨running, middle, last, hrunning, hmiddle, hlast⟩ := nextVerification_of_sponsorship hlibrary.scheme hkey hc
  have hverifies : (t.sponsoredBy c).Verifies library.scheme := by
    refine ⟨running, middle, (ht.initialDigest_sponsoredBy c).trans hrunning, hmiddle, fun c' hc' _ => ⟨last, ?_⟩⟩
    obtain rfl := Option.some.inj hc'
    exact hlast
  refine ⟨outcome_verify (sponsorable_sponsoredBy t c).stage hverifies, c, running, middle, last, rfl, hrunning, ?_, ?_⟩
  · exact (SpendingCondition.nextVerification_eq_ok_iff.mp hmiddle).2.2
  · exact (SpendingCondition.nextVerification_eq_ok_iff.mp hlast).2.2

/-- A transaction that passes verification has a signature of its origin. -/
theorem Verifies.signature_ne (h : t.Verifies scheme) : t.envelope.auth.origin.signature ≠ emptySignature := by
  obtain ⟨running, middle, -, hmiddle, -⟩ := h
  exact (SpendingCondition.nextVerification_eq_ok_iff.mp hmiddle).1

/-- Bytes are read with any other valid authorization in them as well. -/
theorem exists_deserialize {e e' : Envelope} {b : Bytes} (hsettled : e.Settled) (hb : e.encode = .ok b)
    (hauth : e'.auth.Valid) (h : e'.blank = e.blank) : ∃ b', deserialize (.bytes b') = .ok (ofEnvelope e') := by
  have hretains := Envelope.blank_eq_iff.mp h
  obtain ⟨conditions, payload, hconditions, hpayload, -⟩ := (Envelope.encode_eq_ok_iff hsettled.auth).mp hb
  rw [← hretains.conditions] at hconditions
  rw [← hretains.payload] at hpayload
  have hsettled' : e'.Settled :=
    ⟨hauth, hretains.conditions ▸ hsettled.conditions, hretains.payload ▸ hsettled.payload⟩
  have hencode := (Envelope.encode_eq_ok_iff hauth).mpr ⟨conditions, payload, hconditions, hpayload, rfl⟩
  exact ⟨_, deserialize_eq_ok_iff.mpr ⟨_, rfl, e', hsettled', hencode, rfl⟩⟩

/-- The transfer can be signed and sponsored with any secret whose public key it is from, and then be read back from its
bytes. -/
theorem exists_deserialize_pendingTransfer {library : CurveLibrary} (hlibrary : library.Sound) {secret : Bytes}
    (hsecret : library.isSecret secret = true) (hlength : secret.length = 32) :
    ∃ b t old, deserialize (.bytes b) = .ok t ∧ t.stage = .signed ∧ t.Verifies library.scheme ∧
      t.envelope.auth.sponsor? = some old ∧ old.isSigned = true := by
  let start := pendingTransfer (library.publicKey secret)
  let calls : List Call := [.sign (.plain (.bytes secret)),
    .sponsor (.plain (.bytes secret)) (.integer 5) (.integer 0) (.integer 0)]
  have hcalls : ∀ c ∈ calls, c.Genuine library.scheme := by simp [calls, Call.Genuine, KeyArg.Genuine]
  obtain ⟨t, old, ht, hstage, hold, hsigned⟩ := after_pendingTransfer hlibrary hsecret hlength
  have hvalid : t.envelope.auth.Valid := by
    rw [← ht]
    exact after_induction (P := fun t => t.envelope.auth.Valid)
      (fun _ _ hchange => hchange.valid hlibrary.scheme.fullWidth) hcalls (valid_pendingTransfer _)
  have hblank : t.envelope.blank = start.envelope.blank := by
    rw [← ht]
    exact after_induction (P := fun t => t.envelope.blank = start.envelope.blank)
      (fun _ _ hchange h => hchange.blank_eq.trans h) hcalls rfl
  have hbacked : t.Backed library.scheme := by
    rw [← ht]
    exact after_induction (fun _ _ hchange => hchange.backed hlibrary.scheme) hcalls
      (backed_of_new (new_pendingTransfer _) (sponsor_pendingTransfer _))
  -- What is read has the envelope of the transaction, and so its signatures hold as well.
  have hverifies : (ofEnvelope t.envelope).Verifies library.scheme :=
    hbacked.signed (mem_signedStages_iff.mpr (.inl hstage))
  obtain ⟨b, hb⟩ := encode_pendingTransfer (library.publicKey secret)
  have hsettled : start.envelope.Settled :=
    ⟨valid_pendingTransfer _, fun _ hpc => absurd hpc List.not_mem_nil, trivial⟩
  obtain ⟨b', hread⟩ := exists_deserialize hsettled hb hvalid hblank
  have hsignature := hverifies.signature_ne
  exact ⟨b', _, old, hread, (stage_ofEnvelope _).trans (if_neg hsignature), hverifies, hold, hsigned⟩

/-- What was read back can be sponsored again with the secret. -/
theorem exists_sponsor_deserialize_pendingTransfer {library : CurveLibrary} (hlibrary : library.Sound) {secret : Bytes}
    (hsecret : library.isSecret secret = true) (hlength : secret.length = 32) :
    ∃ b t old u, deserialize (.bytes b) = .ok t ∧ t.envelope.auth.sponsor? = some old ∧ old.isSigned = true ∧
      outcome (sponsor library.scheme (.plain (.bytes secret)) (.integer 9) (.integer 0) (.integer 0)) t =
        (.ok (), u) := by
  obtain ⟨b, t, old, hread, hstage, hverifies, hold, hsigned⟩ :=
    exists_deserialize_pendingTransfer hlibrary hsecret hlength
  have hsigner : signerOf library.scheme (.plain (.bytes secret)) = .ok ⟨secret, library.publicKey secret⟩ :=
    Signer.ofKey_bytes hsecret hlength
  have hcondition := SpendingCondition.ofPublicKey_account (library.publicKey secret) 9 (by decide)
  obtain ⟨c, u, hu, -⟩ := exists_sponsor hlibrary.scheme.neverEmpty (mem_signedStages_iff.mpr (.inl hstage))
    (Option.isSome_of_eq_some hold) hverifies (.plain _ _) hsigner hcondition
  exact ⟨b, t, old, u, hread, hold, hsigned, hu⟩

/-- The transfer is signed and sponsored with the secret one, read back from its bytes and sponsored again at another
fee, and verification finds that both signatures hold. -/
theorem verify_after_sponsor_pendingTransfer :
    CurveLibrary.secp256k1.repaired.Sound ∧ ∃ b t old u, deserialize (.bytes b) = .ok t ∧
      t.envelope.auth.sponsor? = some old ∧ old.isSigned = true ∧
        outcome (sponsor CurveLibrary.secp256k1.repaired.scheme (.plain (.bytes (Bytes.zeros 31 ++ [1]))) (.integer 9)
          (.integer 0) (.integer 0)) t = (.ok (), u) ∧
        outcome (verify CurveLibrary.secp256k1.repaired.scheme) u = (.ok true, u) := by
  have hlibrary : CurveLibrary.secp256k1.repaired.Sound :=
    CurveLibrary.repaired_sound CurveLibrary.length_publicKey_secp256k1
  have hsecret : CurveLibrary.secp256k1.repaired.isSecret (Bytes.zeros 31 ++ [1]) = true := by decide
  obtain ⟨b, t, old, u, hread, hold, hsigned, hu⟩ :=
    exists_sponsor_deserialize_pendingTransfer hlibrary hsecret rfl
  exact ⟨hlibrary, b, t, old, u, hread, hold, hsigned, hu, (verify_after_sponsor hlibrary (.plain _ _) hu).1⟩

end StacksWallet.Transaction
