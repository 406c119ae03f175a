import StacksWallet.Proofs.Clarity.Principal
import StacksWallet.Proofs.Clarity.Rearrangement
import StacksWallet.Proofs.PostCondition.AssetText
import StacksWallet.Proofs.PostCondition.Encodable
import StacksWallet.Proofs.PostCondition.RoundTrip
import StacksWallet.Proofs.Transaction.PayloadRoundTrip
import StacksWallet.Proofs.Transaction.Reading
import StacksWallet.Proofs.Wire.Report

/-!
# The versions of what is read

Each principal that is read, whether it holds, receives, is called or is nested in a value, has the version that stands
in front of its hash, and no version from 32 on is let in. So it has a text, which spells it again.

The version of an asset is let in whatever it is. It is one byte, and an asset with a version from 32 on has no text,
although it is written again as it was read.
-/

namespace StacksWallet

/-- The principal has a whole version, and its bytes stand among others. -/
structure Principal.StandsIn (p : Principal) (b : Bytes) : Prop where
  whole : p.account.version.Whole
  bytes_infix : p.bytes <:+: b

/-- The asset has the version of a byte, and behind this byte its other bytes stand among others. -/
def Asset.StandsIn (a : Asset) (b : Bytes) : Prop :=
  ∃ x : UInt8, a.version = .integer x.toNat ∧ x :: (a.hash.val ++ (a.contract.encode ++ a.name.encode)) <:+: b

/-- More bytes hold what fewer of them do. -/
theorem Principal.StandsIn.mono {p : Principal} {b b' : Bytes} (h : p.StandsIn b) (hb : b <:+: b') : p.StandsIn b' :=
  ⟨h.whole, h.bytes_infix.trans hb⟩

/-- More bytes hold what fewer of them do. -/
theorem Asset.StandsIn.mono {a : Asset} {b b' : Bytes} (h : a.StandsIn b) (hb : b <:+: b') : a.StandsIn b' := by
  obtain ⟨x, hversion, hinside⟩ := h
  exact ⟨x, hversion, hinside.trans hb⟩

namespace Value

/-- The principals in a value, on every level. -/
def principals (v : Value) : List Principal := v.parts.filterMap principal?

/-- The principals in a value that is written stand in its bytes. -/
theorem standsIn_of_mem_principals {v : Value} {b : Bytes} (hv : v.Distinct) (hb : v.encode = .ok b) {p : Principal}
    (hp : p ∈ v.principals) : p.StandsIn b := by
  obtain ⟨w, hw, hwp⟩ := List.mem_filterMap.mp hp
  obtain rfl := principal?_eq_some_iff.mp hwp
  obtain ⟨-, -, part, hpart, hinside⟩ := encode_of_mem_parts hv hb hw
  obtain ⟨hflaw, rfl⟩ := encode_eq_ok_iff.mp hpart
  have hbytes : p.bytes <:+: (principal p).canonical.bytes := (List.suffix_cons _ _).isInfix
  exact ⟨(Principal.flaw?_eq_none_iff p).mp hflaw, hbytes.trans hinside⟩

/-- The principals in values that are written one after the other stand in the bytes of all of them. -/
theorem standsIn_of_mem_arguments {vs : List Value} {b : Bytes} (hvs : ∀ v ∈ vs, v.Distinct)
    (hb : encodeAll vs = .ok b) {p : Principal} (hp : p ∈ vs.flatMap principals) : p.StandsIn b := by
  obtain ⟨v, hv, hp⟩ := List.mem_flatMap.mp hp
  obtain ⟨part, hpart, hinside⟩ := Spelling.infix_of_encodeAll encode encodeAll (fun _ _ => rfl) hb hv
  exact (standsIn_of_mem_principals (hvs v hv) hpart hp).mono hinside

end Value

namespace Holder

/-- The principal of a holder, if it is one. -/
def principals : Holder → List Principal
  | origin => []
  | principal p => [p]

/-- The principal of a holder that is written stands in its bytes. -/
theorem standsIn_of_mem_principals {h : Holder} {b : Bytes} (hb : h.encode = .ok b) {p : Principal}
    (hp : p ∈ h.principals) : p.StandsIn b := by
  rcases encode_eq_ok_iff.mp hb with ⟨rfl, -⟩ | ⟨q, rfl, hflaw, rfl⟩
  · cases hp
  · obtain rfl := List.mem_singleton.mp hp
    exact ⟨(Principal.flaw?_eq_none_iff p).mp hflaw, (List.suffix_cons _ _).isInfix⟩

end Holder

namespace Asset

/-- An asset with an integer as its version stands in its bytes. -/
theorem standsIn_of_encode {a : Asset} {b : Bytes} (ha : a.Settled) (hb : a.encode = .ok b) : a.StandsIn b := by
  obtain ⟨n, hn, hwhole, rfl⟩ := encode_eq_ok_iff.mp hb
  obtain ⟨m, hm⟩ := ha
  have hmn : m = n := by
    rw [hm] at hwhole
    exact Option.some.inj hwhole
  have hbyte : (UInt8.ofNat n).toNat = n := by
    rw [UInt8.toNat_ofNat']
    exact Nat.mod_eq_of_lt hn
  refine ⟨UInt8.ofNat n, by rw [hm, hmn, hbyte], ?_⟩
  rw [Reader.bigEndian_one]
  exact List.infix_rfl

/-- A byte from 32 on is reported as a version that no principal has. -/
theorem text_of_byte {a : Asset} {x : UInt8} (h : a.version = .integer x.toNat) (hx : 32 ≤ x.toNat) :
    a.text = .error (.invalid (.versionRange (.integer x.toNat))) := by
  have hlt : (x.toNat : Int).natAbs < wordCount 4 := by
    have := x.toNat_lt
    rw [Int.natAbs_natCast]
    exact this.trans (by decide)
  have hbelow : below? 32 (x.toNat : Int) = none := below?_eq_none_iff.mpr (.inr (by omega))
  have hversion : Principal.versionOf (.integer x.toNat) = .error (.invalid (.versionRange (.integer x.toNat))) := by
    unfold Principal.versionOf
    simp only [Wire.whole?, hbelow, Fault.showing, Reader.isShowable_of_lt hlt, if_true]
  have haccount : Principal.accountOf a.version (.bytes a.hash.val) =
      .error (.invalid (.versionRange (.integer x.toNat))) := by
    rw [h]
    exact Outcome.bind_eq_error.mpr (.inl hversion)
  exact Outcome.bind_eq_error.mpr (.inl (Outcome.bind_eq_error.mpr (.inl haccount)))

/-- An asset that stands in some bytes has a text if its byte is below 32. -/
theorem exists_text_iff {a : Asset} {x : UInt8} (h : a.version = .integer x.toNat) :
    (∃ t, a.text = .ok t) ↔ x.toNat < 32 := by
  constructor
  · intro htext
    obtain ⟨t, ht⟩ := htext
    by_contra hx
    cases ht.symm.trans (text_of_byte h (Nat.not_lt.mp hx))
  · intro hx
    have hwhole : Wire.whole? a.version = some ((⟨x.toNat, hx⟩ : Fin 32).val : Int) := by rw [h, Wire.whole?]
    exact ⟨_, text_of_whole hwhole⟩

end Asset

namespace PostCondition

/-- The principals of a condition: its holder, and those in its token. -/
def principals (pc : PostCondition) : List Principal := pc.holder.principals ++ pc.tokens.flatMap Value.principals

/-- The asset of a condition, if it has one. -/
def assets : PostCondition → List Asset
  | native .. => []
  | fungible _ asset _ _ => [asset]
  | nonFungible _ asset _ _ => [asset]

/-- The principals of a condition that is written stand in its bytes. -/
theorem standsIn_of_mem_principals {pc : PostCondition} {b : Bytes} (hsettled : pc.Settled) (hb : pc.encode = .ok b)
    {p : Principal} (hp : p ∈ pc.principals) : p.StandsIn b := by
  have hholder {holder behind : Bytes} {tag : UInt8} (h : pc.holder.encode = .ok holder)
      (hp : p ∈ pc.holder.principals) : p.StandsIn (tag :: (holder ++ behind)) :=
    (Holder.standsIn_of_mem_principals h hp).mono ⟨[tag], behind, by simp⟩
  rcases List.mem_append.mp hp with hp | hp
  · cases pc with
    | native holder code amount =>
      obtain ⟨h, hh, rfl⟩ := encode_native.mp hb
      exact hholder hh hp
    | fungible holder asset code amount =>
      obtain ⟨h, a, hh, -, rfl⟩ := encode_fungible.mp hb
      exact hholder hh hp
    | nonFungible holder asset token code =>
      obtain ⟨h, a, t, hh, -, -, rfl⟩ := encode_nonFungible.mp hb
      exact hholder hh hp
  · cases pc with
    | native | fungible => cases hp
    | nonFungible holder asset token code =>
      obtain ⟨h, a, t, -, -, ht, rfl⟩ := encode_nonFungible.mp hb
      rw [tokens, List.flatMap_singleton] at hp
      exact (Value.standsIn_of_mem_principals hsettled.2.ordered.distinct ht hp).mono
        ⟨2 :: (h ++ a), codeByte code.code, by simp⟩

/-- The asset of a condition that is written stands in its bytes. -/
theorem standsIn_of_mem_assets {pc : PostCondition} {b : Bytes} (hsettled : pc.Settled) (hb : pc.encode = .ok b)
    {a : Asset} (ha : a ∈ pc.assets) : a.StandsIn b := by
  have hinside {holder asset behind : Bytes} {tag : UInt8} : asset <:+: tag :: (holder ++ (asset ++ behind)) :=
    ⟨tag :: holder, behind, by simp⟩
  cases pc with
  | native => cases ha
  | fungible holder asset code amount =>
    obtain ⟨h, s, -, hs, rfl⟩ := encode_fungible.mp hb
    obtain rfl := List.mem_singleton.mp ha
    exact (Asset.standsIn_of_encode hsettled hs).mono hinside
  | nonFungible holder asset token code =>
    obtain ⟨h, s, t, -, hs, -, rfl⟩ := encode_nonFungible.mp hb
    obtain rfl := List.mem_singleton.mp ha
    exact (Asset.standsIn_of_encode hsettled.1 hs).mono hinside

end PostCondition

namespace Payload

/-- The principals of a payload: the recipient, or the contract that is called and those in the arguments. -/
def principals : Payload → List Principal
  | transfer recipient _ _ => [recipient]
  | call address contract _ arguments => ⟨address, some contract⟩ :: arguments.flatMap Value.principals

/-- The principals of a payload that is written stand in its bytes. -/
theorem standsIn_of_mem_principals {payload : Payload} {b : Bytes} (hsettled : payload.Settled)
    (hb : payload.encode = .ok b) {p : Principal} (hp : p ∈ payload.principals) : p.StandsIn b := by
  cases payload with
  | transfer recipient amount memo =>
    obtain ⟨r, hr, rfl⟩ := encode_transfer.mp hb
    obtain rfl := List.mem_singleton.mp hp
    have hself : p ∈ (Value.principal p).principals := List.mem_singleton.mpr rfl
    exact (Value.standsIn_of_mem_principals (Value.settled_principal p).ordered.distinct hr hself).mono
      ⟨[0], amount.bytes ++ memo.val, by simp⟩
  | call address contract function arguments =>
    obtain ⟨n, c, hversion, -, hc, rfl⟩ := encode_call.mp hb
    rcases List.mem_cons.mp hp with rfl | hp
    · refine ⟨⟨n, hversion⟩, [2], function.encode ++ (bigEndian 4 arguments.length ++ c), ?_⟩
      simp [Principal.bytes, hversion, Version.toFin]
    · refine (Value.standsIn_of_mem_arguments (fun v hv => (hsettled v hv).ordered.distinct) hc hp).mono ?_
      exact ⟨2 :: UInt8.ofNat n.val :: (address.hash.val ++ (contract.encode ++ (function.encode ++
        bigEndian 4 arguments.length))), [], by simp⟩

end Payload

namespace Envelope

/-- The principals of an envelope: those of its conditions and of its payload. -/
def principals (e : Envelope) : List Principal :=
  e.conditions.flatMap PostCondition.principals ++ e.payload.principals

/-- The assets of an envelope, which are those of its conditions. -/
def assets (e : Envelope) : List Asset := e.conditions.flatMap PostCondition.assets

/-- The conditions and the payload of an envelope have their own bytes among those of the envelope. -/
theorem infix_of_encode {e : Envelope} {b : Bytes} (hauth : e.auth.Valid) (hb : e.encode = .ok b) :
    (∀ pc ∈ e.conditions, ∃ part, pc.encode = .ok part ∧ part <:+: b) ∧
      ∃ part, e.payload.encode = .ok part ∧ part <:+: b := by
  obtain ⟨conditions, payload, hconditions, hpayload, rfl⟩ := (encode_eq_ok_iff hauth).mp hb
  obtain ⟨-, c, hc, rfl⟩ := PostCondition.encodeAll_eq_ok_iff.mp hconditions
  constructor
  · intro pc hpc
    obtain ⟨part, hpart, hinside⟩ :=
      Spelling.infix_of_encodeAll PostCondition.encode PostCondition.encodeEach (fun _ _ => rfl) hc hpc
    refine ⟨part, hpart, hinside.trans ⟨UInt8.ofNat e.version.code :: (bigEndian 4 e.chainId.val ++ (e.auth.form ++
      UInt8.ofNat e.anchor.code :: UInt8.ofNat e.conditionMode.code :: bigEndian 4 e.conditions.length)), payload, ?_⟩⟩
    simp
  · refine ⟨payload, hpayload, UInt8.ofNat e.version.code :: (bigEndian 4 e.chainId.val ++ (e.auth.form ++
      UInt8.ofNat e.anchor.code :: UInt8.ofNat e.conditionMode.code :: (bigEndian 4 e.conditions.length ++ c))), [], ?_⟩
    simp

/-- The principals of an envelope that is written stand in its bytes. -/
theorem standsIn_of_mem_principals {e : Envelope} {b : Bytes} (hsettled : e.Settled) (hb : e.encode = .ok b)
    {p : Principal} (hp : p ∈ e.principals) : p.StandsIn b := by
  obtain ⟨hconditions, payload, hpayload, hinside⟩ := infix_of_encode hsettled.auth hb
  rcases List.mem_append.mp hp with hp | hp
  · obtain ⟨pc, hpc, hp⟩ := List.mem_flatMap.mp hp
    obtain ⟨part, hpart, hinside⟩ := hconditions pc hpc
    exact (PostCondition.standsIn_of_mem_principals (hsettled.conditions pc hpc) hpart hp).mono hinside
  · exact (Payload.standsIn_of_mem_principals hsettled.payload hpayload hp).mono hinside

/-- The assets of an envelope that is written stand in its bytes. -/
theorem standsIn_of_mem_assets {e : Envelope} {b : Bytes} (hsettled : e.Settled) (hb : e.encode = .ok b) {a : Asset}
    (ha : a ∈ e.assets) : a.StandsIn b := by
  obtain ⟨pc, hpc, ha⟩ := List.mem_flatMap.mp ha
  obtain ⟨part, hpart, hinside⟩ := (infix_of_encode hsettled.auth hb).1 pc hpc
  exact (PostCondition.standsIn_of_mem_assets (hsettled.conditions pc hpc) hpart ha).mono hinside

end Envelope

/-- Which of the principals and assets that were read from some bytes can be shown. -/
structure Legible (principals : List Principal) (assets : List Asset) (b : Bytes) : Prop where
  /-- A principal has a version below 32, which stands in the bytes in front of its hash, and its text spells it. -/
  principal : ∀ p ∈ principals, ∃ n : Fin 32, p.account.version = .whole n ∧
    UInt8.ofNat n.val :: (p.account.hash.val ++ (p.contract?.map Name.encode).getD []) <:+: b ∧
      Principal.parse p.text = .ok p
  /-- An asset has the version of a byte that stands in front of its hash, and a text if this byte is below 32. -/
  asset : ∀ a ∈ assets, ∃ x : UInt8, a.version = .integer x.toNat ∧
    x :: (a.hash.val ++ (a.contract.encode ++ a.name.encode)) <:+: b ∧ ((∃ t, a.text = .ok t) ↔ x.toNat < 32)

/-- What stands in some bytes can be shown as far as its version allows. -/
theorem legible_of_standsIn {principals : List Principal} {assets : List Asset} {b : Bytes}
    (hprincipals : ∀ p ∈ principals, p.StandsIn b) (hassets : ∀ a ∈ assets, a.StandsIn b) :
    Legible principals assets b := by
  constructor
  case principal =>
    intro p hp
    obtain ⟨⟨n, hversion⟩, hinside⟩ := hprincipals p hp
    refine ⟨n, hversion, ?_, Principal.parse_text ⟨n, hversion⟩⟩
    rwa [Principal.bytes, hversion] at hinside
  case asset =>
    intro a ha
    obtain ⟨x, hversion, hinside⟩ := hassets a ha
    exact ⟨x, hversion, hinside, Asset.exists_text_iff hversion⟩

/-- In what is read as a post-condition, a payload or a transaction, all principals have versions below 32 and texts
that spell them. Assets have the version that stands in the bytes, and a text only if it is below 32. -/
theorem principals_legible (b : Bytes) :
    (∀ (offset : Nat) (pc : PostCondition) (n : Int), PostCondition.decode b offset = .ok (pc, n) →
        Legible pc.principals pc.assets ((b.drop offset).take n.toNat)) ∧
      (∀ (offset : Nat) (p : Payload) (n : Int), Payload.decode b offset = .ok (p, n) →
        Legible p.principals [] ((b.drop offset).take n.toNat)) ∧
      ∀ t : Transaction, Transaction.deserialize (.bytes b) = .ok t →
        Legible t.envelope.principals t.envelope.assets b := by
  refine ⟨fun offset pc n h => ?_, fun offset p n h => ?_, fun t h => ?_⟩
  · obtain ⟨hsettled, -, -, hencode⟩ :=
      (PostCondition.reads true).encoded_decodeAt (PostCondition.needsByte_read true) h
    exact legible_of_standsIn (fun _ => PostCondition.standsIn_of_mem_principals hsettled hencode)
      (fun _ => PostCondition.standsIn_of_mem_assets hsettled hencode)
  · obtain ⟨hsettled, -, -, hencode⟩ := (Payload.reads true).encoded_decodeAt (Payload.needsByte_read true) h
    exact legible_of_standsIn (fun _ => Payload.standsIn_of_mem_principals hsettled hencode) (List.forall_mem_nil _)
  · obtain ⟨_, hbytes, e, hsettled, hencode, rfl⟩ := Transaction.deserialize_eq_ok_iff.mp h
    obtain rfl := Except.ok.inj hbytes
    exact legible_of_standsIn (fun _ => Envelope.standsIn_of_mem_principals hsettled hencode)
      (fun _ => Envelope.standsIn_of_mem_assets hsettled hencode)

/-- A contract with a name of one letter. -/
def namedContract : Principal := ⟨⟨.whole ⟨21, by decide⟩, .zero⟩, some ⟨[98], admits_b⟩⟩

/-- A limit that the contract's account puts on one token, which the contract names. -/
def contractLimit : PostCondition :=
  .nonFungible (.principal ⟨namedContract.account, none⟩) ⟨.integer 26, .zero, ⟨[97], admits_a⟩, ⟨[98], admits_b⟩⟩
    (.some (.principal namedContract)) .sent

/-- The bytes of the limit. -/
def contractLimitBytes : Bytes :=
  [2, 2, 21] ++ Bytes.zeros 20 ++ [26] ++ Bytes.zeros 20 ++ [1, 97, 1, 98, 10, 6, 21] ++ Bytes.zeros 20 ++ [1, 98, 16]

/-- The contract that names the token is read from between other bytes, and it is spelled by its text. -/
theorem principals_legible_contractLimit :
    PostCondition.decode ([255] ++ contractLimitBytes ++ [7]) (1 : Nat) =
        .ok (contractLimit, contractLimitBytes.length) ∧
      Principal.parse namedContract.text = .ok namedContract := by
  have hsettled : contractLimit.Settled :=
    ⟨⟨26, rfl⟩, Value.canonical_ordered (v := .some (.principal namedContract)) nofun, by decide⟩
  have hencode : contractLimit.encode = .ok contractLimitBytes := rfl
  have hread : PostCondition.decode ([255] ++ contractLimitBytes ++ [7]) (1 : Nat) = .ok (contractLimit, _) :=
    (PostCondition.reads true).decodeAt_encoded hsettled hencode [255] [7]
  obtain ⟨n, -, -, hparse⟩ := ((principals_legible _).1 _ _ _ hread).principal namedContract (by decide)
  exact ⟨hread, hparse⟩

/-- A limit on an asset of version 200. -/
def farLimit : PostCondition :=
  .fungible .origin ⟨.integer 200, .zero, ⟨[97], admits_a⟩, ⟨[98], admits_b⟩⟩ .equal ⟨1, by decide⟩

/-- The bytes of the limit. -/
def farLimitBytes : Bytes := [1, 1, 200] ++ Bytes.zeros 20 ++ [1, 97, 1, 98, 1, 0, 0, 0, 0, 0, 0, 0, 1]

/-- The limit on an asset of version 200 is read, and written as it was read, but its asset has no text. -/
theorem farLimit_not_legible :
    PostCondition.decode farLimitBytes (0 : Nat) = .ok (farLimit, farLimitBytes.length) ∧
      farLimit.encode = .ok farLimitBytes ∧ ∃ a ∈ farLimit.assets, a.version = .integer 200 ∧
        a.text = .error (.invalid (.versionRange (.integer 200))) := by
  have hsettled : farLimit.Settled := ⟨200, rfl⟩
  have hencode : farLimit.encode = .ok farLimitBytes :=
    PostCondition.encode_fungible.mpr ⟨_, _, rfl, rfl, by decide +kernel⟩
  have hread := (PostCondition.reads true).decodeAt_encoded hsettled hencode [] []
  exact ⟨hread, hencode, _, List.mem_singleton.mpr rfl, rfl, Asset.text_of_byte (x := 200) rfl (by decide)⟩

end StacksWallet
