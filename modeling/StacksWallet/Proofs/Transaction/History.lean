import StacksWallet.Proofs.Transaction.Verification

/-!
# Transactions that start again

A transaction that is cleared starts again, and nothing is left of what it went through. Whenever it is unsigned, it
is the transaction that is newly made of the same parts at the nonce and the fee that it has come to. So no call can
tell the two apart, and signing leads to the same bytes, the same identifier and the same verdict on both.
-/

namespace StacksWallet

namespace Envelope

/-- An envelope of some fields is made with any other authorization as well. -/
theorem make_of_make {version chainId : Datum} {auth : Authorization} {payload : PayloadArg}
    {anchor conditionMode : Datum} {conditions : List (Arg PostCondition)} {e : Envelope}
    (h : make version chainId (.of auth) payload anchor conditionMode conditions = .ok e) (auth' : Authorization) :
    make version chainId (.of auth') payload anchor conditionMode conditions = .ok { e with auth := auth' } := by
  obtain ⟨v, hversion, h⟩ := Outcome.bind_eq_ok.mp h
  obtain ⟨id, hchain, h⟩ := Outcome.bind_eq_ok.mp h
  obtain ⟨_, -, h⟩ := Outcome.bind_eq_ok.mp h
  obtain ⟨p, hpayload, h⟩ := Outcome.bind_eq_ok.mp h
  obtain ⟨a, hanchor, h⟩ := Outcome.bind_eq_ok.mp h
  obtain ⟨m, hmode, h⟩ := Outcome.bind_eq_ok.mp h
  obtain ⟨pcs, hconditions, h⟩ := Outcome.bind_eq_ok.mp h
  obtain rfl := Except.ok.inj h
  simp only [make, hversion, hchain, hpayload, hanchor, hmode, hconditions]
  rfl

end Envelope

namespace Transaction

variable {scheme : SignatureScheme} {t u : Transaction}

/-- There are no signatures, no sponsor and no bytes. -/
structure Untouched (t : Transaction) : Prop where
  stage : t.stage = .unsigned
  signature : t.envelope.auth.origin.signature = emptySignature
  sponsor : ∀ c, t.envelope.auth.sponsor? = some c → c = .sentinel
  cached : t.cached? = none

/-- Another origin without a signature leaves the transaction untouched. -/
theorem Untouched.withOrigin {origin : SpendingCondition} (h : t.Untouched)
    (horigin : origin.signature = t.envelope.auth.origin.signature) : (t.withOrigin origin).Untouched :=
  ⟨h.stage, horigin.trans h.signature, h.sponsor, h.cached⟩

/-- What the digest starts from has the same sponsor as an untouched transaction. -/
theorem Untouched.blank_sponsor (h : t.Untouched) : t.envelope.blank.auth.sponsor? = t.envelope.auth.sponsor? := by
  change t.envelope.auth.sponsor?.map (fun _ => SpendingCondition.sentinel) = _
  cases hc : t.envelope.auth.sponsor? with
  | none => rfl
  | some c =>
    rw [h.sponsor c hc]
    rfl

/-- Untouched transactions of the same parts differ in nonce and fee only. -/
theorem Untouched.eq_withOrigin (ht : t.Untouched) (hu : u.Untouched) (h : u.envelope.blank = t.envelope.blank) :
    u = t.withOrigin { t.envelope.auth.origin with nonce := u.nonce, fee := u.fee } := by
  -- The blank leaves out what is signed or set later, and on an untouched transaction only nonce and fee are.
  have hsponsor : u.envelope.auth.sponsor? = t.envelope.auth.sponsor? := by
    rw [← hu.blank_sponsor, h, ht.blank_sponsor]
  have hretains := Envelope.blank_eq_iff.mp h
  have horigin : u.envelope.auth.origin = { t.envelope.auth.origin with nonce := u.nonce, fee := u.fee } := by
    rw [SpendingCondition.mk.injEq]
    exact ⟨hretains.mode, hretains.signer, rfl, rfl, hretains.encoding, hu.signature.trans ht.signature.symm⟩
  have hauth : u.envelope.auth = ⟨u.envelope.auth.origin, u.envelope.auth.sponsor?⟩ := rfl
  have henvelope : u.envelope = { t.envelope with auth := u.envelope.auth } := by
    rw [Envelope.mk.injEq]
    exact ⟨hretains.version, hretains.chainId, rfl, hretains.anchor, hretains.conditionMode, hretains.conditions,
      hretains.payload⟩
  rw [hauth, horigin, hsponsor] at henvelope
  rw [Transaction.mk.injEq]
  exact ⟨henvelope, hu.stage.trans ht.stage.symm, hu.cached.trans ht.cached.symm⟩

/-- A transaction that changes is untouched whenever it is unsigned. -/
theorem Change.untouched (h : Change scheme t u) (ht : t.stage = .unsigned → t.Untouched) :
    u.stage = .unsigned → u.Untouched := by
  cases h with
  | stay => exact ht
  | nonce hstage horigin | fee hstage horigin =>
    exact fun _ => (ht hstage).withOrigin (SpendingCondition.signature_of_make horigin)
  | sign | sponsor | serialize => nofun
  | clear horigin =>
    -- The only way back to the unsigned stage.
    refine fun _ => ⟨rfl, SpendingCondition.signature_of_make horigin, fun c hc => ?_, rfl⟩
    obtain ⟨_, -, rfl⟩ := Option.map_eq_some_iff.mp hc
    rfl

section New

variable {version : TransactionVersion} {chainId : Nat} {auth : Authorization} {payload : PayloadArg}
  {anchor conditionMode : Datum} {conditions : List (Arg PostCondition)}

/-- A new transaction without a sponsor is untouched. -/
theorem untouched_of_new (h : Transaction.new version chainId auth payload anchor conditionMode conditions = .ok t)
    (hsponsor : ∀ c, auth.sponsor? = some c → c = .sentinel) : t.Untouched ∧ t.envelope.auth = auth := by
  obtain ⟨hempty, e, he, rfl⟩ := new_eq_ok_iff.mp h
  obtain rfl := Arg.of.inj (envelope_of_make he).1
  exact ⟨⟨rfl, hempty, hsponsor, rfl⟩, rfl⟩

/-- A transaction is also new with any other origin that has not signed. -/
theorem new_withOrigin (h : Transaction.new version chainId auth payload anchor conditionMode conditions = .ok t)
    {origin : SpendingCondition} (horigin : origin.signature = emptySignature) :
    Transaction.new version chainId { auth with origin := origin } payload anchor conditionMode conditions =
      .ok (t.withOrigin origin) := by
  obtain ⟨-, e, he, rfl⟩ := new_eq_ok_iff.mp h
  obtain rfl := Arg.of.inj (envelope_of_make he).1
  exact new_eq_ok_iff.mpr ⟨horigin, _, Envelope.make_of_make he _, rfl⟩

/-- Signing does not depend on what happened before. Whenever a transaction that began without a sponsor is unsigned,
it is the new one of the same parts at the nonce and the fee that it has come to. A key signs both or none, and
whatever is asked of them then gets the same answers. -/
theorem new_of_after (hnew : Transaction.new version chainId auth payload anchor conditionMode conditions = .ok t)
    (hsponsor : ∀ c, auth.sponsor? = some c → c = .sentinel) {calls : List Call}
    (hcalls : ∀ c ∈ calls, c.Genuine scheme) (hu : after scheme t calls = u) (hstage : u.stage = .unsigned) :
    ∃ fresh,
      Transaction.new version chainId { auth with origin := { auth.origin with nonce := u.nonce, fee := u.fee } }
          payload anchor conditionMode conditions = .ok fresh ∧
        fresh = u ∧
          ∀ (key : KeyArg) (later : List Call),
            replies scheme u (.sign key :: later) = replies scheme fresh (.sign key :: later) := by
  obtain ⟨ht, rfl⟩ := untouched_of_new hnew hsponsor
  have huntouched : u.stage = .unsigned → u.Untouched := by
    rw [← hu]
    exact after_induction (P := fun t => t.stage = .unsigned → t.Untouched) (fun _ _ hchange => hchange.untouched)
      hcalls fun _ => ht
  have hblank : u.envelope.blank = t.envelope.blank := by
    rw [← hu]
    exact after_induction (P := fun u => u.envelope.blank = t.envelope.blank)
      (fun _ _ hchange h => hchange.blank_eq.trans h) hcalls rfl
  have hsame := ht.eq_withOrigin (huntouched hstage) hblank
  refine ⟨_, new_withOrigin hnew ht.signature, hsame.symm, fun key later => ?_⟩
  rw [← hsame]

end New

/-- A transaction with a valid origin can be cleared. -/
theorem exists_clearSignatures (horigin : t.envelope.auth.origin.Valid) :
    ∃ t', outcome clearSignatures t = (.ok (), t') ∧ t'.stage = .unsigned ∧ t'.envelope.auth.origin.Valid := by
  have hlength : emptySignature.length = signatureWidth := rfl
  have hwith := horigin.withSignature_eq hlength
  refine ⟨t.clearedWith { t.envelope.auth.origin with signature := emptySignature }, ?_, rfl, ?_⟩
  · rw [outcome_clearSignatures, hwith]
  · exact { horigin with signature_length := hlength }

/-- An unsigned transaction with a valid origin takes any other nonce. -/
theorem exists_setNonce {n : Int} (hstage : t.stage = .unsigned) (horigin : t.envelope.auth.origin.Valid)
    (hn : 0 ≤ n ∧ n < wordCount 8) :
    ∃ t', outcome (setNonce (.integer n)) t = (.ok (), t') ∧ t'.stage = .unsigned ∧ t'.nonce = n := by
  have hwith : t.envelope.auth.origin.withNonce (.integer n) = .ok { t.envelope.auth.origin with nonce := n } :=
    SpendingCondition.make_eq_ok_iff.mpr ⟨{ horigin with nonce_range := hn }, rfl, rfl, rfl, rfl, rfl, rfl⟩
  refine ⟨t.withOrigin { t.envelope.auth.origin with nonce := n }, ?_, hstage, rfl⟩
  rw [setNonce, outcome_require_bind (List.mem_singleton.mpr hstage), outcome_get_bind]
  exact outcome_lift_bind hwith

/-- The transfer is signed and sponsored, cleared again and given another nonce. By then it is the new one at that
nonce. -/
theorem new_of_after_pendingTransfer :
    ∃ u fresh, after CurveLibrary.secp256k1.repaired.scheme
          (pendingTransfer (CurveLibrary.secp256k1.repaired.publicKey (Bytes.zeros 31 ++ [1])))
          ([.sign (.plain (.bytes (Bytes.zeros 31 ++ [1]))),
            .sponsor (.plain (.bytes (Bytes.zeros 31 ++ [1]))) (.integer 5) (.integer 0) (.integer 0)] ++
            [.clearSignatures, .setNonce (.integer 7)]) = u ∧
        u.stage = .unsigned ∧ u.nonce = 7 ∧
          Transaction.new .mainnet 1
            ⟨{ SpendingCondition.account (CurveLibrary.secp256k1.repaired.publicKey (Bytes.zeros 31 ++ [1])) 0 with
              nonce := u.nonce, fee := u.fee }, some .sentinel⟩
            (.of Envelope.blankTransfer.payload) (.integer 3) (.integer 2) [] = .ok fresh ∧ fresh = u := by
  have hlibrary : CurveLibrary.secp256k1.repaired.Sound :=
    CurveLibrary.repaired_sound CurveLibrary.length_publicKey_secp256k1
  have hsecret : CurveLibrary.secp256k1.repaired.isSecret (Bytes.zeros 31 ++ [1]) = true := by decide
  obtain ⟨signed, c, hsigned, -⟩ := after_pendingTransfer hlibrary hsecret rfl
  have hvalid : signed.envelope.auth.Valid := by
    rw [← hsigned]
    exact after_induction (P := fun t => t.envelope.auth.Valid) (fun _ _ h => h.valid hlibrary.scheme.fullWidth)
      (by simp [Call.Genuine, KeyArg.Genuine]) (valid_pendingTransfer _)
  obtain ⟨cleared, hcleared, hstage, horigin⟩ := exists_clearSignatures hvalid.origin
  have hseven : (0 : Int) ≤ 7 ∧ (7 : Int) < wordCount 8 := by decide
  obtain ⟨u, hset, hunsigned, hnonce⟩ := exists_setNonce hstage horigin hseven
  have hu : after CurveLibrary.secp256k1.repaired.scheme signed [.clearSignatures, .setNonce (.integer 7)] = u := by
    rw [after_cons (outcome_bind_eq_ok.mpr ⟨(), cleared, hcleared, rfl⟩),
      after_cons (outcome_bind_eq_ok.mpr ⟨(), u, hset, rfl⟩), after]
  rw [← hsigned, ← after_append] at hu
  obtain ⟨fresh, hnew, hfresh, -⟩ := new_of_after (new_pendingTransfer _) (fun c hc => (Option.some.inj hc).symm)
    (by simp [Call.Genuine, KeyArg.Genuine]) hu hunsigned
  exact ⟨u, fresh, hu, hunsigned, hnonce, hnew, hfresh⟩

end Transaction

end StacksWallet
