import StacksWallet.PostCondition.Codec
import StacksWallet.Proofs.Clarity.RoundTrip
import StacksWallet.Proofs.Wire.Encoded
import StacksWallet.Proofs.Wire.Field

/-!
# What the reader of post-conditions accepts

A condition is read from exactly the bytes that it is written as, provided that its token is in canonical form
and not too deep, and that the version of its asset is an integer. Conditions that are read are of this kind;
others are written as one of them is.
-/

namespace StacksWallet

namespace Principal

/-- A principal is written if its version is a whole number. -/
theorem encode_eq_ok_iff {p : Principal} {b : Bytes} : p.encode = .ok b ↔ p.flaw? = none ∧ b = p.bytes := by
  rw [encode]
  cases p.flaw? with
  | none => simp [eq_comm]
  | some fault => simp

end Principal

namespace Holder

/-- The forms of a holder: the origin is one byte, a principal is tagged by its kind. -/
theorem encode_eq_ok_iff {h : Holder} {b : Bytes} :
    h.encode = .ok b ↔ h = origin ∧ b = [1] ∨
      ∃ p, h = principal p ∧ p.flaw? = none ∧ b = (if p.contract?.isSome then 3 else 2) :: p.bytes := by
  cases h with
  | origin =>
    rw [encode, Except.ok.injEq, eq_comm]
    exact ⟨fun hb => .inl ⟨rfl, hb⟩, fun h => (h.resolve_right nofun).2⟩
  | principal p =>
    rw [encode, Outcome.map_eq_ok]
    simp only [Principal.encode_eq_ok_iff, reduceCtorEq, false_and, false_or, principal.injEq]
    constructor
    · intro h
      obtain ⟨_, ⟨hflaw, rfl⟩, rfl⟩ := h
      exact ⟨p, rfl, hflaw, rfl⟩
    · intro h
      obtain ⟨_, rfl, hflaw, rfl⟩ := h
      exact ⟨_, ⟨hflaw, rfl⟩, rfl⟩

/-- The principal of a condition is read behind its tag, which says whether it is a contract. -/
theorem reads_principal (start : Int) (tag : Nat) :
    (do let version ← Reader.u8
        let hash ← Reader.take 20
        let contract? ← if tag = 3 then some <$> Name.read .contract else pure none
        let account ← Reader.require start .value (Principal.accountRead version hash)
        return principal ⟨account, contract?⟩ : Reader Holder).Reads (fun h b _ =>
      ∃ p, h = principal p ∧ p.flaw? = none ∧ (tag = 3 ↔ p.contract?.isSome) ∧ b = p.bytes) := by
  have haccount : ∀ (version : Nat) (hash : Bytes) (contract? : Option Name),
      (do let account ← Reader.require start .value (Principal.accountRead version hash)
          return principal ⟨account, contract?⟩ : Reader Holder).Reads (fun h b _ =>
        ∃ a, (Principal.accountRead version hash = .ok a ∧ b = []) ∧ h = principal ⟨a, contract?⟩) := by
    intro version hash contract?
    refine ((Reader.reads_require start .value (Principal.accountRead version hash)).bind fun account =>
      Reader.reads_pure (principal ⟨account, contract?⟩)).congr fun h b after => ?_
    constructor
    · intro hh
      obtain ⟨a, _, _, rfl, ⟨ha, rfl⟩, rfl, rfl⟩ := hh
      exact ⟨a, ⟨ha, rfl⟩, rfl⟩
    · intro hh
      obtain ⟨a, ⟨ha, rfl⟩, rfl⟩ := hh
      exact ⟨a, [], [], rfl, ⟨ha, rfl⟩, rfl, rfl⟩
  by_cases htag : tag = 3
  · simp only [htag, ↓reduceIte, bind_map_left]
    refine (Reader.reads_account fun version hash =>
      (Name.reads .contract).bind_written fun name _ => haccount version hash (some name)).congr fun h b after => ?_
    constructor
    · intro hh
      obtain ⟨_, _, _, -, -, rfl, name, _, -, rfl, ⟨version, hash⟩, ⟨ha, rfl⟩, rfl⟩ := hh
      obtain ⟨n, hversion, rfl, rfl⟩ := Principal.accountRead_eq_ok_iff.mp ha
      obtain rfl : version = .whole n := hversion
      exact ⟨_, rfl, rfl, by simp, by rw [Principal.bytes_whole, List.append_nil]; rfl⟩
    · intro hh
      obtain ⟨⟨⟨version, hash⟩, contract?⟩, rfl, hflaw, hcontract, rfl⟩ := hh
      obtain ⟨n, hversion⟩ := (Principal.flaw?_eq_none_iff _).mp hflaw
      obtain rfl : version = .whole n := hversion
      obtain ⟨name, rfl⟩ := Option.isSome_iff_exists.mp (hcontract.mp trivial)
      exact ⟨n.val, hash.val, name.encode, by omega, hash.property, rfl, name, [], trivial,
        (List.append_nil _).symm, _, ⟨Principal.accountRead_eq_ok_iff.mpr ⟨n, rfl, rfl, rfl⟩, rfl⟩, rfl⟩
  · simp only [htag, ↓reduceIte, pure_bind]
    refine (Reader.reads_account fun version hash => haccount version hash none).congr fun h b after => ?_
    constructor
    · intro hh
      obtain ⟨_, _, _, -, -, rfl, ⟨version, hash⟩, ⟨ha, rfl⟩, rfl⟩ := hh
      obtain ⟨n, hversion, rfl, rfl⟩ := Principal.accountRead_eq_ok_iff.mp ha
      obtain rfl : version = .whole n := hversion
      exact ⟨_, rfl, rfl, by simp, rfl⟩
    · intro hh
      obtain ⟨⟨⟨version, hash⟩, contract?⟩, rfl, hflaw, hcontract, rfl⟩ := hh
      obtain ⟨n, hversion⟩ := (Principal.flaw?_eq_none_iff _).mp hflaw
      obtain rfl : version = .whole n := hversion
      obtain rfl : contract? = none := by simpa using hcontract
      exact ⟨n.val, hash.val, [], by omega, hash.property, rfl, _,
        ⟨Principal.accountRead_eq_ok_iff.mpr ⟨n, rfl, rfl, rfl⟩, rfl⟩, rfl⟩

/-- Holders are read from what they are written as. -/
theorem reads : read.Reads (.encoded (fun _ => True) encode) := by
  refine (Reader.reads_position fun start => Reader.reads_u8.bind_written (t := fun tag h b _ =>
    tag = 1 ∧ h = origin ∧ b = [] ∨ ∃ p, h = principal p ∧ p.flaw? = none ∧
      tag = (if p.contract?.isSome then 3 else 2) ∧ b = p.bytes) fun tag _ => ?_).congr fun h b after => ?_
  · split
    · rename_i htag
      refine (Reader.reads_pure origin).congr fun h b after => ⟨fun hh => .inl ⟨htag, hh⟩, fun hh => ?_⟩
      rcases hh with ⟨-, hh⟩ | ⟨p, -, -, hp, -⟩
      · exact hh
      · split at hp <;> omega
    · rename_i horigin
      split
      · rename_i htag
        have hcode : ∀ p : Principal,
            (tag = 3 ↔ p.contract?.isSome) ↔ tag = (if p.contract?.isSome then 3 else 2) := by
          simp only [Bool.or_eq_true, decide_eq_true_eq] at htag
          intro p
          by_cases hp : p.contract?.isSome = true
          · simp [hp]
          · rw [if_neg hp]
            constructor
            · intro h
              exact htag.resolve_right fun h₃ => hp (h.mp h₃)
            · intro h₂
              exact ⟨fun h₃ => by omega, fun h => absurd h hp⟩
        refine (reads_principal start tag).congr fun h b after => ?_
        simp only [hcode, horigin, false_and, false_or]
      · rename_i htag
        simp only [Bool.or_eq_true, decide_eq_true_eq] at htag
        refine (Reader.reads_malformed start _).congr fun h b after => ⟨False.elim, fun hh => ?_⟩
        rcases hh with ⟨hh, -⟩ | ⟨p, -, -, hp, -⟩
        · exact horigin hh
        · split at hp <;> omega
  · rw [Spelling.encoded, encode_eq_ok_iff]
    constructor
    · intro hh
      obtain ⟨tag, c, -, rfl, ⟨rfl, rfl, rfl⟩ | ⟨p, rfl, hflaw, rfl, rfl⟩⟩ := hh
      · exact ⟨trivial, .inl ⟨rfl, rfl⟩⟩
      · refine ⟨trivial, .inr ⟨p, rfl, hflaw, ?_⟩⟩
        split <;> rfl
    · intro hh
      obtain ⟨-, ⟨rfl, rfl⟩ | ⟨p, rfl, hflaw, rfl⟩⟩ := hh
      · exact ⟨1, [], by decide, rfl, .inl ⟨rfl, rfl, rfl⟩⟩
      · refine ⟨_, p.bytes, ?_, ?_, .inr ⟨p, rfl, hflaw, rfl, rfl⟩⟩
        · split <;> decide
        · split <;> rfl

end Holder

namespace Asset

/-- The forms of an asset: the version as a byte, then the parts that name the token. -/
theorem encode_eq_ok_iff {a : Asset} {b : Bytes} :
    a.encode = .ok b ↔ ∃ n : Nat, n < wordCount 1 ∧ Wire.whole? a.version = some (n : Int) ∧
      b = bigEndian 1 n ++ (a.hash.val ++ (a.contract.encode ++ a.name.encode)) := by
  rw [encode, Outcome.bind_eq_ok]
  constructor
  · intro h
    obtain ⟨version, hversion, h⟩ := h
    obtain ⟨n, hn, hwhole, rfl⟩ := Wire.u8_eq_ok_iff.mp hversion
    refine ⟨n, hn, hwhole, ?_⟩
    rw [← Except.ok.inj h, List.append_assoc, List.append_assoc]
  · intro h
    obtain ⟨n, hn, hwhole, rfl⟩ := h
    refine ⟨_, Wire.u8_eq_ok_iff.mpr ⟨n, hn, hwhole, rfl⟩, ?_⟩
    rw [← List.append_assoc, ← List.append_assoc]
    rfl

/-- Whether the version is an integer. -/
def Settled (a : Asset) : Prop := ∃ n : Int, a.version = .integer n

/-- Assets are read from what they are written as, with an integer as their version. -/
theorem reads : read.Reads (.encoded Settled encode) := by
  refine (Reader.reads_account (t := fun (version : Nat) hash (a : Asset) b _ =>
    a.version = .integer version ∧ hash = a.hash.val ∧ b = a.contract.encode ++ a.name.encode)
    fun version hash => ?_).congr fun a b after => ?_
  · refine ((Name.reads .contract).bind_written fun contract _ => (Name.reads .asset).bind_written
      (t := fun name (a : Asset) b _ => (∃ hash', hash = Subtype.val hash' ∧
        a = ⟨.integer version, hash', contract, name⟩) ∧ b = []) fun name _ => ?_).congr fun a b after => ?_
    · cases hhash : Hash160.ofBytes? hash with
      | none =>
        refine (Reader.reads_throw _).congr fun a b after => ⟨False.elim, fun h => ?_⟩
        obtain ⟨⟨hash', hh, -⟩, -⟩ := h
        rw [Hash160.ofBytes?_eq_some_iff.mpr hh] at hhash
        cases hhash
      | some hash' =>
        obtain rfl := Hash160.ofBytes?_eq_some_iff.mp hhash
        refine (Reader.reads_pure _).congr fun a b after => ?_
        constructor
        · intro h
          exact ⟨⟨hash', rfl, h.1⟩, h.2⟩
        · intro h
          obtain ⟨⟨other, hother, ha⟩, hb⟩ := h
          exact ⟨Subtype.ext hother ▸ ha, hb⟩
    · constructor
      · intro h
        obtain ⟨contract, _, -, rfl, name, _, -, rfl, ⟨hash', rfl, rfl⟩, rfl⟩ := h
        exact ⟨rfl, rfl, by rw [List.append_nil]⟩
      · intro h
        obtain ⟨_, hash', contract, name⟩ := a
        obtain ⟨rfl, rfl, rfl⟩ := h
        exact ⟨contract, name.encode, trivial, rfl, name, [], trivial, (List.append_nil _).symm,
          ⟨hash', rfl, rfl⟩, rfl⟩
  · rw [Spelling.encoded, encode_eq_ok_iff]
    constructor
    · intro h
      obtain ⟨version, hash, _, hversion, -, rfl, ha, rfl, rfl⟩ := h
      exact ⟨⟨version, ha⟩, version, hversion, by rw [ha, Wire.whole?], by simp [bigEndian, wordCount]⟩
    · intro h
      obtain ⟨⟨m, hm⟩, n, hn, hwhole, rfl⟩ := h
      rw [hm, Wire.whole?, Option.some.injEq] at hwhole
      subst hwhole
      exact ⟨n, a.hash.val, _, hn, a.hash.property, by simp [bigEndian, wordCount], hm, rfl, rfl⟩

end Asset

/-- Amount comparisons are found by their numbers. -/
theorem AmountCode.ofCode?_eq_some_iff {n : Int} {c : AmountCode} : ofCode? n = some c ↔ n = c.code :=
  find?_code_eq_some_iff (fun a b => by cases a <;> cases b <;> decide) (by cases c <;> decide)

/-- Ownership codes are found by their numbers. -/
theorem OwnershipCode.ofCode?_eq_some_iff {n : Int} {c : OwnershipCode} : ofCode? n = some c ↔ n = c.code :=
  find?_code_eq_some_iff (fun a b => by cases a <;> cases b <;> decide) (by cases c <;> decide)

namespace PostCondition

/-- Codes are read from the bytes of their numbers. -/
theorem reads_readCode {α : Type} {ofArg : CodeArg → Except ConditionFlaw α} {code : α → Nat}
    (hofArg : ∀ (n : Nat) a, ofArg (.plain (.integer n)) = .ok a ↔ n = code a) (hcode : ∀ a, code a < wordCount 1) :
    (readCode ofArg).Reads (.written (fun _ => True) fun a => codeByte (code a)) := by
  refine (Reader.reads_position fun start => Reader.reads_u8.bind_written fun n _ =>
    Reader.reads_require start .condition (ofArg (.plain (.integer n)))).congr fun a b after => ?_
  simp only [hofArg]
  constructor
  · intro h
    obtain ⟨_, _, -, rfl, rfl, rfl⟩ := h
    exact ⟨trivial, by simp [bigEndian, wordCount, codeByte]⟩
  · intro h
    obtain ⟨-, rfl⟩ := h
    exact ⟨code a, [], hcode a, by simp [bigEndian, wordCount, codeByte], rfl, rfl⟩

/-- Amount comparisons are read from the bytes of their numbers. -/
theorem reads_amountCode :
    (readCode AmountCode.ofArg).Reads (.written (fun _ => True) fun c => codeByte c.code) := by
  refine reads_readCode (fun n c => ?_) fun c => by cases c <;> decide
  rw [← Int.ofNat_inj, ← AmountCode.ofCode?_eq_some_iff, AmountCode.ofArg, Datum.integral?, Option.bind_some]
  cases AmountCode.ofCode? n <;> simp

/-- Ownership codes are read from the bytes of their numbers. -/
theorem reads_ownershipCode :
    (readCode OwnershipCode.ofArg).Reads (.written (fun _ => True) fun c => codeByte c.code) := by
  refine reads_readCode (fun n c => ?_) fun c => by cases c <;> decide
  rw [← Int.ofNat_inj, ← OwnershipCode.ofCode?_eq_some_iff, OwnershipCode.ofArg, Datum.integral?, Option.bind_some]
  cases OwnershipCode.ofCode? n <;> simp

/-- Whether the condition is one that is read: its token is settled, and so is its asset. -/
def Settled : PostCondition → Prop
  | native .. => True
  | fungible _ asset _ _ => asset.Settled
  | nonFungible _ asset token _ => asset.Settled ∧ token.Settled

/-- The form of a limit on the native token. -/
theorem encode_native {h : Holder} {c : AmountCode} {a : Amount} {b : Bytes} :
    (native h c a).encode = .ok b ↔ ∃ holder, h.encode = .ok holder ∧
      b = 0 :: (holder ++ (codeByte c.code ++ a.bytes)) := by
  rw [encode, Outcome.bind_eq_ok]
  constructor
  · intro hb
    obtain ⟨holder, hholder, hb⟩ := hb
    obtain rfl := Except.ok.inj hb
    exact ⟨holder, hholder, by simp⟩
  · intro hb
    obtain ⟨holder, hholder, rfl⟩ := hb
    exact ⟨holder, hholder, congrArg Except.ok (by simp)⟩

/-- The form of a limit on a fungible token. -/
theorem encode_fungible {h : Holder} {s : Asset} {c : AmountCode} {a : Amount} {b : Bytes} :
    (fungible h s c a).encode = .ok b ↔ ∃ holder asset, h.encode = .ok holder ∧ s.encode = .ok asset ∧
      b = 1 :: (holder ++ (asset ++ (codeByte c.code ++ a.bytes))) := by
  rw [encode, Outcome.bind_eq_ok]
  constructor
  · intro hb
    obtain ⟨holder, hholder, hb⟩ := hb
    obtain ⟨asset, hasset, hb⟩ := Outcome.bind_eq_ok.mp hb
    obtain rfl := Except.ok.inj hb
    exact ⟨holder, asset, hholder, hasset, by simp⟩
  · intro hb
    obtain ⟨holder, asset, hholder, hasset, rfl⟩ := hb
    exact ⟨holder, hholder, Outcome.bind_eq_ok.mpr ⟨asset, hasset, congrArg Except.ok (by simp)⟩⟩

/-- The form of a limit on one token. -/
theorem encode_nonFungible {h : Holder} {s : Asset} {t : Value} {c : OwnershipCode} {b : Bytes} :
    (nonFungible h s t c).encode = .ok b ↔ ∃ holder asset token, h.encode = .ok holder ∧ s.encode = .ok asset ∧
      t.encode = .ok token ∧ b = 2 :: (holder ++ (asset ++ (token ++ codeByte c.code))) := by
  rw [encode, Outcome.bind_eq_ok]
  constructor
  · intro hb
    obtain ⟨holder, hholder, hb⟩ := hb
    obtain ⟨asset, hasset, hb⟩ := Outcome.bind_eq_ok.mp hb
    obtain ⟨token, htoken, hb⟩ := Outcome.bind_eq_ok.mp hb
    obtain rfl := Except.ok.inj hb
    exact ⟨holder, asset, token, hholder, hasset, htoken, by simp⟩
  · intro hb
    obtain ⟨holder, asset, token, hholder, hasset, htoken, rfl⟩ := hb
    exact ⟨holder, hholder, Outcome.bind_eq_ok.mpr ⟨asset, hasset, Outcome.bind_eq_ok.mpr
      ⟨token, htoken, congrArg Except.ok (by simp)⟩⟩⟩

/-- The number of a condition's kind. -/
def kindCode : PostCondition → Nat
  | native .. => 0
  | fungible .. => 1
  | nonFungible .. => 2

/-- There are three kinds of conditions. -/
theorem kindCode_le (pc : PostCondition) : pc.kindCode ≤ 2 := by
  cases pc <;> simp [kindCode]

/-- The first byte of a condition is the number of its kind. -/
theorem head_of_encode {pc : PostCondition} {b : Bytes} (h : pc.encode = .ok b) :
    ∃ c, b = UInt8.ofNat pc.kindCode :: c := by
  cases pc with
  | native =>
    obtain ⟨_, -, rfl⟩ := encode_native.mp h
    exact ⟨_, rfl⟩
  | fungible =>
    obtain ⟨_, _, -, -, rfl⟩ := encode_fungible.mp h
    exact ⟨_, rfl⟩
  | nonFungible =>
    obtain ⟨_, _, _, -, -, -, rfl⟩ := encode_nonFungible.mp h
    exact ⟨_, rfl⟩

/-- A condition takes at least one byte. -/
theorem encode_ne_nil (pc : PostCondition) : pc.encode ≠ .ok [] := by
  intro h
  obtain ⟨c, hc⟩ := head_of_encode h
  cases hc

/-- A code and an amount, which end the limits on amounts. -/
theorem reads_limit (make : AmountCode → Amount → PostCondition) :
    (do let code ← readCode AmountCode.ofArg
        return make code (← Amount.read "amount") : Reader PostCondition).Reads
      (fun pc b _ => ∃ c a, pc = make c a ∧ b = codeByte c.code ++ a.bytes) := by
  refine (reads_amountCode.bind_written fun code _ => (Amount.reads _).map_written (make code)).congr
    fun pc b after => ?_
  constructor
  · intro h
    obtain ⟨code, _, -, rfl, amount, -, rfl, rfl⟩ := h
    exact ⟨code, amount, rfl, rfl⟩
  · intro h
    obtain ⟨code, amount, rfl, rfl⟩ := h
    exact ⟨code, amount.bytes, trivial, rfl, amount, trivial, rfl, rfl⟩

/-- A token and a code, which end the limits on one token. -/
theorem reads_ownership (guarded : Bool) (holder : Holder) (asset : Asset) :
    (do let token ← Value.read guarded
        return nonFungible holder asset token (← readCode OwnershipCode.ofArg) : Reader PostCondition).Reads
      (fun pc b _ => ∃ t c token, pc = nonFungible holder asset t c ∧ t.Settled ∧ t.encode = .ok token ∧
        b = token ++ codeByte c.code) := by
  refine ((Value.reads guarded).bind fun token =>
    reads_ownershipCode.map_written (nonFungible holder asset token)).congr fun pc b after => ?_
  constructor
  · intro h
    obtain ⟨t, token, _, rfl, ⟨ht, htoken⟩, code, -, rfl, rfl⟩ := h
    exact ⟨t, code, token, rfl, ht, htoken, rfl⟩
  · intro h
    obtain ⟨t, code, token, rfl, ht, htoken, rfl⟩ := h
    exact ⟨t, token, _, rfl, ⟨ht, htoken⟩, code, trivial, rfl, rfl⟩

/-- Conditions are read from what they are written as. -/
theorem reads (guarded : Bool) : (read guarded).Reads (.encoded Settled encode) := by
  refine Reader.reads_position fun start => Reader.reads_tagged (fun pc _ h => pc.encode_ne_nil h.2) fun tag htag => ?_
  have hhead : ∀ {pc : PostCondition} {b : Bytes}, pc.encode = .ok (UInt8.ofNat tag :: b) → tag = pc.kindCode := by
    intro pc b h
    obtain ⟨_, hc⟩ := head_of_encode h
    exact Bytes.byte_inj htag (pc.kindCode_le.trans_lt (by decide)) (List.cons.inj hc).1
  rcases (by omega : tag = 0 ∨ tag = 1 ∨ tag = 2 ∨ 2 < tag) with rfl | rfl | rfl | hlarge
  · rw [if_neg (by decide)]
    refine (Holder.reads.bind fun holder => reads_limit (native holder)).congr fun pc b after => ?_
    constructor
    · intro h
      obtain ⟨holder, b₁, _, rfl, ⟨-, hholder⟩, code, amount, rfl, rfl⟩ := h
      exact ⟨trivial, encode_native.mpr ⟨b₁, hholder, rfl⟩⟩
    · intro h
      cases pc with
      | native holder code amount =>
        obtain ⟨b₁, hholder, hb⟩ := encode_native.mp h.2
        exact ⟨holder, b₁, _, (List.cons.inj hb).2, ⟨trivial, hholder⟩, code, amount, rfl, rfl⟩
      | fungible => nomatch hhead h.2
      | nonFungible => nomatch hhead h.2
  · rw [if_neg (by decide)]
    refine (Holder.reads.bind fun holder => Asset.reads.bind fun asset => reads_limit (fungible holder asset)).congr
      fun pc b after => ?_
    constructor
    · intro h
      obtain ⟨holder, b₁, _, rfl, ⟨-, hholder⟩, asset, b₂, _, rfl, ⟨hsettled, hasset⟩, code, amount, rfl, rfl⟩ := h
      exact ⟨hsettled, encode_fungible.mpr ⟨b₁, b₂, hholder, hasset, rfl⟩⟩
    · intro h
      cases pc with
      | native => nomatch hhead h.2
      | fungible holder asset code amount =>
        obtain ⟨b₁, b₂, hholder, hasset, hb⟩ := encode_fungible.mp h.2
        exact ⟨holder, b₁, _, (List.cons.inj hb).2, ⟨trivial, hholder⟩, asset, b₂, _, rfl, ⟨h.1, hasset⟩, code,
          amount, rfl, rfl⟩
      | nonFungible => nomatch hhead h.2
  · rw [if_neg (by decide)]
    refine (Holder.reads.bind fun holder => Asset.reads.bind fun asset =>
      reads_ownership guarded holder asset).congr fun pc b after => ?_
    constructor
    · intro h
      obtain ⟨holder, b₁, _, rfl, ⟨-, hholder⟩, asset, b₂, _, rfl, ⟨hsettled, hasset⟩, t, code, b₃, rfl, ht, htoken,
        rfl⟩ := h
      exact ⟨⟨hsettled, ht⟩, encode_nonFungible.mpr ⟨b₁, b₂, b₃, hholder, hasset, htoken, rfl⟩⟩
    · intro h
      cases pc with
      | native => nomatch hhead h.2
      | fungible => nomatch hhead h.2
      | nonFungible holder asset token code =>
        obtain ⟨b₁, b₂, b₃, hholder, hasset, htoken, hb⟩ := encode_nonFungible.mp h.2
        exact ⟨holder, b₁, _, (List.cons.inj hb).2, ⟨trivial, hholder⟩, asset, b₂, _, rfl, ⟨h.1.1, hasset⟩, token,
          code, b₃, rfl, h.1.2, htoken, rfl⟩
  · rw [if_pos hlarge]
    refine (Reader.reads_malformed start _).congr fun pc b after => ⟨False.elim, fun h => ?_⟩
    have hkind := pc.kindCode_le
    have htag' := hhead h.2
    omega

/-- Lists of conditions are read from what they are written as. -/
theorem reads_readAll (guarded : Bool) :
    (readAll guarded).Reads (.encoded (fun pcs => ∀ pc ∈ pcs, pc.Settled) encodeAll) := by
  have hcons : ∀ (pc : PostCondition) (rest : List PostCondition), encodeEach (pc :: rest) = do
      let b ← pc.encode
      return b ++ (← encodeEach rest) := fun _ _ => rfl
  refine (Reader.reads_list guarded .postConditions (reads guarded) encode_ne_nil rfl hcons).congr
    fun pcs b after => ?_
  rw [Spelling.encoded, encodeAll, Outcome.bind_eq_ok]
  constructor
  · intro h
    obtain ⟨hpcs, hcount, c, hc, rfl⟩ := h
    exact ⟨hpcs, _, Wire.size_eq_ok_iff.mpr ⟨hcount, rfl⟩, Outcome.bind_eq_ok.mpr ⟨c, hc, rfl⟩⟩
  · intro h
    obtain ⟨hpcs, _, hsize, h⟩ := h
    obtain ⟨hcount, rfl⟩ := Wire.size_eq_ok_iff.mp hsize
    obtain ⟨c, hc, h⟩ := Outcome.bind_eq_ok.mp h
    exact ⟨hpcs, hcount, c, hc, (Except.ok.inj h).symm⟩

end PostCondition

end StacksWallet
