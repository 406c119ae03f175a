import StacksWallet.Proofs.Transaction.Transfer

/-!
# Building with a public key

A builder takes a compressed public key, as bytes or as a hexadecimal text of them, and uses nothing of it but its hash,
which becomes the signer in the origin's condition. So with the same other parts it takes every such key if it takes
one of them.
-/

namespace StacksWallet

/-- Another authorization makes another envelope of the same other fields. -/
theorem Envelope.make_of_auth {version chainId : Datum} {auth auth' : Authorization} {payload : PayloadArg}
    {anchor conditionMode : Datum} {conditions : List (Arg PostCondition)} {e : Envelope}
    (h : make version chainId (.of auth) payload anchor conditionMode conditions = .ok e) :
    make version chainId (.of auth') payload anchor conditionMode conditions = .ok { e with auth := auth' } := by
  obtain ⟨_, hversion, h⟩ := Outcome.bind_eq_ok.mp h
  obtain ⟨_, hchain, h⟩ := Outcome.bind_eq_ok.mp h
  obtain ⟨_, -, h⟩ := Outcome.bind_eq_ok.mp h
  obtain ⟨_, hpayload, h⟩ := Outcome.bind_eq_ok.mp h
  obtain ⟨_, hanchor, h⟩ := Outcome.bind_eq_ok.mp h
  obtain ⟨_, hmode, h⟩ := Outcome.bind_eq_ok.mp h
  obtain ⟨_, hconditions, h⟩ := Outcome.bind_eq_ok.mp h
  obtain rfl := Except.ok.inj h
  rw [make, hversion, hchain, hpayload, hanchor, hmode, hconditions]
  rfl

namespace Transaction

variable {scheme : SignatureScheme} {o : Order} {d d' : Datum} {payload : Except Fault Payload} {t : Transaction}
  {key : Bytes}

/-- A public key is taken if its bytes have the form of a compressed one. -/
theorem requirePublicKey_eq_ok_iff : requirePublicKey d = .ok key ↔ d.toBytes = .ok key ∧ IsCompressed key := by
  unfold requirePublicKey
  cases d.toBytes with
  | error flaw => exact ⟨nofun, fun h => nomatch h.1⟩
  | ok b =>
    have hform : (b.length = 33 && (b.head? == some 2 || b.head? == some 3)) = true ↔ IsCompressed b := by
      simp [IsCompressed]
    dsimp only
    rw [Outcome.ite_eq_ok, hform]
    constructor
    · intro h
      obtain ⟨hkey, rfl⟩ := h
      exact ⟨rfl, hkey⟩
    · intro h
      obtain ⟨hb, hkey⟩ := h
      obtain rfl := Except.ok.inj hb
      exact ⟨hkey, rfl⟩

namespace Order

/-- The order with a public key, whose account is the hash of the key itself. -/
def ofKey (o : Order) (key : Datum) : Order :=
  { o with publicKey := key, senderKey := .plain .absent, hashMode := .integer HashMode.p2pkh.code }

/-- The authorization of an order by an origin. -/
def auth (o : Order) (origin : SpendingCondition) : Authorization :=
  if o.sponsored then .sponsored origin none else .standard origin

/-- Whoever pays, the origin is the one that was given. -/
theorem origin_auth (origin : SpendingCondition) : (o.auth origin).origin = origin := by
  unfold auth
  split <;> rfl

/-- The origin's key is the public key, if it is taken. -/
theorem originKey_ofKey : (o.ofKey d).originKey none = .ok key ↔ requirePublicKey d = .ok key := by
  change (if d = .absent then _ else _) = _ ↔ _
  split
  · rename_i hd
    obtain rfl := hd
    exact ⟨nofun, nofun⟩
  · rfl

/-- With a public key the transaction is new, with the hash of the key as the origin's signer. -/
theorem build_ofKey_eq_ok_iff :
    (o.ofKey d).build scheme payload = .ok t ↔ ∃ key origin p, requirePublicKey d = .ok key ∧
      SpendingCondition.make .p2pkh (keyHash key).val o.nonce o.fee .compressed emptySignature = .ok origin ∧
        payload = .ok p ∧ Transaction.new o.network.version o.network.chainId (o.auth origin) (.of p) o.anchor
          o.conditionMode o.conditions = .ok t := by
  have hfinish : ∀ origin p, (o.ofKey d).finish scheme none origin p = .ok t ↔
      Transaction.new o.network.version o.network.chainId (o.auth origin) (.of p) o.anchor o.conditionMode
        o.conditions = .ok t := by
    intro origin p
    rw [finish, Outcome.bind_eq_ok]
    constructor
    · intro h
      obtain ⟨_, hnew, h⟩ := h
      obtain rfl := Except.ok.inj h
      exact hnew
    · intro h
      exact ⟨t, h, rfl⟩
  constructor
  · intro h
    obtain ⟨_, hnone, h⟩ := Outcome.bind_eq_ok.mp h
    obtain rfl := Except.ok.inj hnone
    obtain ⟨origin, horigin, h⟩ := Outcome.bind_eq_ok.mp h
    obtain ⟨key, hkey, horigin⟩ := Outcome.bind_eq_ok.mp horigin
    obtain ⟨p, hp, h⟩ := Outcome.bind_eq_ok.mp h
    exact ⟨key, origin, p, originKey_ofKey.mp hkey, horigin, hp, (hfinish origin p).mp h⟩
  · intro h
    obtain ⟨key, origin, p, hkey, horigin, hp, h⟩ := h
    exact Outcome.bind_eq_ok.mpr ⟨none, rfl, Outcome.bind_eq_ok.mpr
      ⟨origin, Outcome.bind_eq_ok.mpr ⟨key, originKey_ofKey.mpr hkey, horigin⟩, Outcome.bind_eq_ok.mpr
        ⟨p, hp, (hfinish origin p).mpr h⟩⟩⟩

/-- The origin of what is built is the account of the key. -/
theorem origin_of_build (h : (o.ofKey d).build scheme payload = .ok t) :
    ∃ key, requirePublicKey d = .ok key ∧ t.envelope.auth.origin.mode = .p2pkh ∧
      t.envelope.auth.origin.signer = (keyHash key).val := by
  obtain ⟨key, origin, p, hkey, horigin, -, h⟩ := build_ofKey_eq_ok_iff.mp h
  obtain ⟨-, e, he, rfl⟩ := new_eq_ok_iff.mp h
  have hauth : o.auth origin = e.auth := Arg.of.inj (envelope_of_make he).1
  obtain ⟨-, -, -, hmode, hsigner, -, -⟩ := SpendingCondition.make_eq_ok_iff.mp horigin
  refine ⟨key, hkey, ?_, ?_⟩
  · rw [← hauth, origin_auth, hmode]
  · rw [← hauth, origin_auth, hsigner]

/-- Where one key is taken, every other datum is that is a compressed public key. -/
theorem exists_build_iff (h : (o.ofKey d).build scheme payload = .ok t) :
    (∃ t', (o.ofKey d').build scheme payload = .ok t') ↔ ∃ key, requirePublicKey d' = .ok key := by
  constructor
  · intro h'
    obtain ⟨t', h'⟩ := h'
    obtain ⟨key, hkey, -, -⟩ := origin_of_build h'
    exact ⟨key, hkey⟩
  · intro h'
    obtain ⟨key', hkey'⟩ := h'
    obtain ⟨key, origin, p, -, horigin, hp, h⟩ := build_ofKey_eq_ok_iff.mp h
    obtain ⟨hempty, e, he, rfl⟩ := new_eq_ok_iff.mp h
    obtain ⟨hvalid, hnonce, hfee, hmode, -, hencoding, hsignature⟩ := SpendingCondition.make_eq_ok_iff.mp horigin
    have hvalid' : { origin with signer := (keyHash key').val }.Valid :=
      { hvalid with signer_length := (keyHash key').property }
    have horigin' := SpendingCondition.make_eq_ok_iff.mpr ⟨hvalid', hnonce, hfee, hmode, rfl, hencoding, hsignature⟩
    refine ⟨_, build_ofKey_eq_ok_iff.mpr ⟨key', _, p, hkey', horigin', hp, new_eq_ok_iff.mpr
      ⟨?_, _, Envelope.make_of_auth he, rfl⟩⟩⟩
    rw [origin_auth]
    exact hsignature

end Order

end Transaction

end StacksWallet
