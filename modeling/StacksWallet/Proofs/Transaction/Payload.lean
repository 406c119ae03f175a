import StacksWallet.Proofs.PostCondition.Spelling
import StacksWallet.Transaction.Payload

/-!
# What the reader of payloads accepts

A transfer is read from its recipient, amount and padded memo. A call is read from the version and hash of the
contract's address, two names, and the arguments behind their count; its arguments are in canonical form and
not too deep. Both are read from exactly the bytes that they are written as.
-/

namespace StacksWallet

namespace Value

/-- A value takes at least one byte. -/
theorem encode_ne_nil (v : Value) : v.encode ≠ .ok [] := by
  intro h
  exact v.canonical.bytes_ne_nil (encode_eq_ok_iff.mp h).2.symm

/-- Principals are settled. -/
theorem settled_principal (p : Principal) : (principal p).Settled := ⟨nofun, Nat.zero_le _⟩

/-- The principal that a value is. -/
theorem principal?_eq_some_iff {v : Value} {p : Principal} : v.principal? = .some p ↔ v = principal p := by
  cases v <;> simp [principal?]

end Value

/-- A memo is its own padding. -/
theorem Memo.ofBytes_eq_ok_iff {b : Bytes} (hb : b.length = memoWidth) {m : Memo} : ofBytes b = .ok m ↔ b = m.val := by
  rw [ofBytes, dif_pos hb.le, Except.ok.injEq, Subtype.ext_iff]
  simp [hb, Bytes.zeros]

/-- A memo is made of its bytes. -/
theorem Memo.ofDatum_bytes (m : Memo) : ofDatum (.bytes m.val) = .ok m := by
  have hm : ofBytes m.val = .ok m := (ofBytes_eq_ok_iff m.property).mpr rfl
  change (ofBytes m.val).mapError Fault.invalid = .ok m
  rw [hm]
  rfl

namespace Payload

/-- A transfer is made of its memo, its recipient and its amount, which are looked at in this order. -/
theorem makeTransfer_eq (recipient : Arg Value) (amount memo : Datum) :
    makeTransfer recipient amount memo = do
      let m ← Memo.ofDatum memo
      let p ← recipientOf recipient
      let a ← Amount.ofDatum "amount" amount
      return transfer p a m := by
  unfold makeTransfer ofTransfer
  simp only [Memo.ofDatum_bytes]
  rfl

/-- A transfer is made if its parts are. -/
theorem makeTransfer_eq_ok_iff {recipient : Arg Value} {amount memo : Datum} {payload : Payload} :
    makeTransfer recipient amount memo = .ok payload ↔
      ∃ m p a, Memo.ofDatum memo = .ok m ∧ recipientOf recipient = .ok p ∧ Amount.ofDatum "amount" amount = .ok a ∧
        payload = transfer p a m := by
  rw [makeTransfer_eq, Outcome.bind_eq_ok]
  constructor
  · intro h
    obtain ⟨m, hm, h⟩ := h
    obtain ⟨p, hp, h⟩ := Outcome.bind_eq_ok.mp h
    obtain ⟨a, ha, h⟩ := Outcome.bind_eq_ok.mp h
    exact ⟨m, p, a, hm, hp, ha, (Except.ok.inj h).symm⟩
  · intro h
    obtain ⟨m, p, a, hm, hp, ha, rfl⟩ := h
    exact ⟨m, hm, Outcome.bind_eq_ok.mpr ⟨p, hp, Outcome.bind_eq_ok.mpr ⟨a, ha, rfl⟩⟩⟩

/-- An address is made from what an account is made from. -/
theorem addressRead_eq_ok_iff {version : Nat} {hash : Bytes} {a : Address} :
    addressRead version hash = .ok a ↔ ∃ n : Fin 32, a.version = .whole n ∧ version = n.val ∧ a.hash.val = hash := by
  rw [← Principal.accountRead_eq_ok_iff]
  unfold addressRead Principal.accountRead
  cases below? 32 (version : Int) with
  | none => exact ⟨nofun, nofun⟩
  | some n =>
    cases Hash160.ofBytes? hash with
    | none => exact ⟨nofun, nofun⟩
    | some hash' => exact ⟨fun h => congrArg _ (Except.ok.inj h), fun h => congrArg _ (Except.ok.inj h)⟩

/-- Whether the payload is one that is read: the arguments of a call are settled. -/
def Settled : Payload → Prop
  | transfer .. => True
  | call _ _ _ arguments => ∀ v ∈ arguments, v.Settled

/-- The form of a transfer. -/
theorem encode_transfer {p : Principal} {a : Amount} {m : Memo} {b : Bytes} :
    (transfer p a m).encode = .ok b ↔ ∃ recipient, (Value.principal p).encode = .ok recipient ∧
      b = 0 :: (recipient ++ (a.bytes ++ m.val)) := by
  rw [encode, Outcome.bind_eq_ok]
  constructor
  · intro h
    obtain ⟨recipient, hrecipient, h⟩ := h
    obtain rfl := Except.ok.inj h
    exact ⟨recipient, hrecipient, by simp⟩
  · intro h
    obtain ⟨recipient, hrecipient, rfl⟩ := h
    exact ⟨recipient, hrecipient, congrArg Except.ok (by simp)⟩

/-- The form of a call. -/
theorem encode_call {address : Address} {contract function : Name} {arguments : List Value} {b : Bytes} :
    (call address contract function arguments).encode = .ok b ↔ ∃ n c, address.version = .whole n ∧
      arguments.length < wordCount 4 ∧ Value.encodeAll arguments = .ok c ∧
        b = 2 :: UInt8.ofNat n.val :: (address.hash.val ++ (contract.encode ++ (function.encode ++
          (bigEndian 4 arguments.length ++ c)))) := by
  rw [encode, Outcome.bind_eq_ok]
  constructor
  · intro h
    obtain ⟨version, hversion, h⟩ := h
    obtain ⟨count, hcount, h⟩ := Outcome.bind_eq_ok.mp h
    obtain ⟨c, hc, h⟩ := Outcome.bind_eq_ok.mp h
    obtain ⟨hlength, rfl⟩ := Wire.size_eq_ok_iff.mp hcount
    obtain rfl := Except.ok.inj h
    cases haddress : address.version with
    | whole n =>
      rw [haddress] at hversion
      obtain rfl := Except.ok.inj hversion
      exact ⟨n, c, rfl, hlength, hc, by simp⟩
    | real | numeral =>
      rw [haddress] at hversion
      cases hversion
  · intro h
    obtain ⟨n, c, hversion, hlength, hc, rfl⟩ := h
    rw [hversion]
    exact ⟨_, rfl, Outcome.bind_eq_ok.mpr ⟨_, Wire.size_eq_ok_iff.mpr ⟨hlength, rfl⟩,
      Outcome.bind_eq_ok.mpr ⟨c, hc, congrArg Except.ok (by simp)⟩⟩⟩

/-- The number of a payload's kind. -/
def kindCode : Payload → Nat
  | transfer .. => 0
  | call .. => 2

/-- The first byte of a payload is the number of its kind. -/
theorem head_of_encode {p : Payload} {b : Bytes} (h : p.encode = .ok b) : ∃ c, b = UInt8.ofNat p.kindCode :: c := by
  cases p with
  | transfer =>
    obtain ⟨_, -, rfl⟩ := encode_transfer.mp h
    exact ⟨_, rfl⟩
  | call =>
    obtain ⟨_, _, -, -, -, rfl⟩ := encode_call.mp h
    exact ⟨_, rfl⟩

/-- A payload takes at least one byte. -/
theorem encode_ne_nil (p : Payload) : p.encode ≠ .ok [] := by
  intro h
  obtain ⟨c, hc⟩ := head_of_encode h
  cases hc

/-- The end of a transfer: the memo with its padding. -/
theorem reads_memo (recipient : Principal) (amount : Amount) :
    (do let raw ← Reader.take memoWidth
        match Memo.ofBytes raw with
        | .ok memo => return transfer recipient amount memo
        | .error flaw => throw (.invalid flaw) : Reader Payload).Reads
      (fun p b _ => ∃ m : Memo, p = transfer recipient amount m ∧ b = m.val) := by
  refine ((Reader.reads_take memoWidth).bind_written (t := fun raw p b _ =>
    (∃ m : Memo, raw = m.val ∧ p = transfer recipient amount m) ∧ b = []) fun raw hraw => ?_).congr fun p b after => ?_
  · have hlength : raw.length = memoWidth := Int.ofNat_inj.mp hraw
    cases hmemo : Memo.ofBytes raw with
    | error flaw =>
      refine (Reader.reads_throw _).congr fun p b after => ⟨False.elim, fun h => ?_⟩
      obtain ⟨⟨m, hm, -⟩, -⟩ := h
      rw [(Memo.ofBytes_eq_ok_iff hlength).mpr hm] at hmemo
      cases hmemo
    | ok memo =>
      obtain rfl := (Memo.ofBytes_eq_ok_iff hlength).mp hmemo
      refine (Reader.reads_pure _).congr fun p b after => ?_
      constructor
      · intro h
        exact ⟨⟨memo, rfl, h.1⟩, h.2⟩
      · intro h
        obtain ⟨⟨m, hm, hp⟩, hb⟩ := h
        exact ⟨Subtype.ext hm ▸ hp, hb⟩
  · constructor
    · intro h
      obtain ⟨_, _, -, rfl, ⟨m, rfl, rfl⟩, rfl⟩ := h
      exact ⟨m, rfl, List.append_nil _⟩
    · intro h
      obtain ⟨m, rfl, rfl⟩ := h
      exact ⟨m.val, [], Int.ofNat_inj.mpr m.property, (List.append_nil _).symm, ⟨m, rfl, rfl⟩, rfl⟩

/-- What follows the kind of a transfer. -/
theorem reads_transfer (guarded : Bool) (start : Int) :
    (do match (← Value.read guarded).principal? with
        | none => Reader.malformed (start + 1) .recipientKind
        | some recipient =>
          let amount ← Amount.read "amount"
          let raw ← Reader.take memoWidth
          match Memo.ofBytes raw with
          | .ok memo => return transfer recipient amount memo
          | .error flaw => throw (.invalid flaw) : Reader Payload).Reads
      (fun p b _ => ∃ r a m recipient, p = transfer r a m ∧ (Value.principal r).encode = .ok recipient ∧
        b = recipient ++ (a.bytes ++ m.val)) := by
  refine ((Value.reads guarded).bind (t := fun v p b _ => ∃ (r : Principal) (a : Amount) (m : Memo),
    v = .principal r ∧ p = transfer r a m ∧ b = a.bytes ++ m.val) fun v => ?_).congr fun p b after => ?_
  · cases hv : v.principal? with
    | none =>
      refine (Reader.reads_malformed _ _).congr fun p b after => ⟨False.elim, fun h => ?_⟩
      obtain ⟨r, _, _, hr, -⟩ := h
      rw [Value.principal?_eq_some_iff.mpr hr] at hv
      cases hv
    | some r =>
      obtain rfl := Value.principal?_eq_some_iff.mp hv
      refine ((Amount.reads _).bind_written fun amount _ => reads_memo r amount).congr fun p b after => ?_
      constructor
      · intro h
        obtain ⟨a, _, -, rfl, m, rfl, rfl⟩ := h
        exact ⟨r, a, m, rfl, rfl, rfl⟩
      · intro h
        obtain ⟨_, a, m, hr, rfl, rfl⟩ := h
        obtain rfl := Value.principal.inj hr
        exact ⟨a, m.val, trivial, rfl, m, rfl, rfl⟩
  · constructor
    · intro h
      obtain ⟨_, recipient, _, rfl, ⟨-, hrecipient⟩, r, a, m, rfl, rfl, rfl⟩ := h
      exact ⟨r, a, m, recipient, rfl, hrecipient, rfl⟩
    · intro h
      obtain ⟨r, a, m, recipient, rfl, hrecipient, rfl⟩ := h
      exact ⟨.principal r, recipient, _, rfl, ⟨Value.settled_principal r, hrecipient⟩, r, a, m, rfl, rfl, rfl⟩

/-- The end of a call: the arguments behind their count. -/
theorem reads_arguments (guarded : Bool) (make : List Value → Payload) :
    (do let n ← Reader.count guarded .arguments
        return make (← Reader.times (Value.read guarded) n) : Reader Payload).Reads
      (fun p b _ => ∃ vs c, p = make vs ∧ (∀ v ∈ vs, v.Settled) ∧ vs.length < wordCount 4 ∧
        Value.encodeAll vs = .ok c ∧ b = bigEndian 4 vs.length ++ c) := by
  have hcons : ∀ (v : Value) (rest : List Value), Value.encodeAll (v :: rest) = do
      let b ← v.encode
      return b ++ (← Value.encodeAll rest) := fun _ _ => rfl
  have hlist := (Reader.reads_list guarded .arguments (Value.reads guarded) Value.encode_ne_nil rfl hcons).bind
    fun vs => Reader.reads_pure (make vs)
  rw [bind_assoc] at hlist
  refine hlist.congr fun p b after => ?_
  constructor
  · intro h
    obtain ⟨vs, _, _, rfl, ⟨hvs, hlength, c, hc, rfl⟩, rfl, rfl⟩ := h
    exact ⟨vs, c, rfl, hvs, hlength, hc, List.append_nil _⟩
  · intro h
    obtain ⟨vs, c, rfl, hvs, hlength, hc, rfl⟩ := h
    exact ⟨vs, _, [], (List.append_nil _).symm, ⟨hvs, hlength, c, hc, rfl⟩, rfl, rfl⟩

/-- What follows the kind of a call. -/
theorem reads_call (guarded : Bool) (start : Int) :
    (do let version ← Reader.u8
        let hash ← Reader.take 20
        let address ← Reader.require (start + 1) .contractAddress (addressRead version hash)
        let contract ← Name.read .contract
        let function ← Name.read .function
        let n ← Reader.count guarded .arguments
        return call address contract function (← Reader.times (Value.read guarded) n) : Reader Payload).Reads
      (fun p b _ => p.Settled ∧ p.encode = .ok (2 :: b) ∧ p.kindCode = 2) := by
  refine (Reader.reads_account fun version hash => (Reader.reads_require (start + 1) .contractAddress
    (addressRead version hash)).bind fun address => (Name.reads .contract).bind_written fun contract _ =>
      (Name.reads .function).bind_written fun function _ =>
        reads_arguments guarded (call address contract function)).congr fun p b after => ?_
  constructor
  · intro h
    obtain ⟨_, _, _, -, -, rfl, address, _, _, rfl, ⟨haddress, rfl⟩, contract, _, -, rfl, function, _, -, rfl, vs, c,
      rfl, hvs, hlength, hc, rfl⟩ := h
    obtain ⟨n, hversion, rfl, rfl⟩ := addressRead_eq_ok_iff.mp haddress
    exact ⟨hvs, encode_call.mpr ⟨n, c, hversion, hlength, hc, rfl⟩, rfl⟩
  · intro h
    obtain ⟨hsettled, hencode, hkind⟩ := h
    cases p with
    | transfer => cases hkind
    | call address contract function vs =>
      obtain ⟨n, c, hversion, hlength, hc, hb⟩ := encode_call.mp hencode
      obtain rfl := (List.cons.inj hb).2
      exact ⟨n.val, address.hash.val, _, by omega, address.hash.property, rfl, address, [], _, rfl,
        ⟨addressRead_eq_ok_iff.mpr ⟨n, hversion, rfl, rfl⟩, rfl⟩, contract, _, trivial, rfl, function, _, trivial, rfl,
        vs, c, rfl, hsettled, hlength, hc, rfl⟩

/-- Payloads are read from what they are written as. -/
theorem reads (guarded : Bool) : (read guarded).Reads (.encoded Settled encode) := by
  refine Reader.reads_position fun start => Reader.reads_tagged (fun p _ h => p.encode_ne_nil h.2) fun tag htag => ?_
  have hhead : ∀ {p : Payload} {b : Bytes}, p.encode = .ok (UInt8.ofNat tag :: b) → tag = p.kindCode := by
    intro p b h
    obtain ⟨_, hc⟩ := head_of_encode h
    exact Bytes.byte_inj htag (by cases p <;> simp [kindCode, wordCount]) (List.cons.inj hc).1
  rcases (by omega : tag = 0 ∨ tag = 2 ∨ tag ≠ 0 ∧ tag ≠ 2) with rfl | rfl | ⟨hzero, htwo⟩
  · rw [if_pos rfl]
    refine (reads_transfer guarded start).congr fun p b after => ?_
    constructor
    · intro h
      obtain ⟨r, a, m, recipient, rfl, hrecipient, rfl⟩ := h
      exact ⟨trivial, encode_transfer.mpr ⟨recipient, hrecipient, rfl⟩⟩
    · intro h
      cases p with
      | transfer r a m =>
        obtain ⟨recipient, hrecipient, hb⟩ := encode_transfer.mp h.2
        exact ⟨r, a, m, recipient, rfl, hrecipient, (List.cons.inj hb).2⟩
      | call => cases hhead h.2
  · rw [if_neg (by decide), if_pos rfl]
    exact (reads_call guarded start).congr fun p b after =>
      ⟨fun h => ⟨h.1, h.2.1⟩, fun h => ⟨h.1, h.2, (hhead h.2).symm⟩⟩
  · rw [if_neg hzero, if_neg htwo]
    refine (Reader.reads_malformed start _).congr fun p b after => ⟨False.elim, fun h => ?_⟩
    have hkind := hhead h.2
    cases p with
    | transfer => exact hzero hkind
    | call => exact htwo hkind

end Payload

end StacksWallet
