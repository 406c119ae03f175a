import StacksWallet.Proofs.Address.RoundTrip
import StacksWallet.Proofs.Bytes.Hex
import StacksWallet.Proofs.CommandLine.Arguments
import StacksWallet.Proofs.CommandLine.Report
import StacksWallet.Proofs.Transaction.PublicKey

/-!
# Public keys on the command line

The command that shows the address of a public key and the builders of transactions read the key from a text, but not
in the same way. Where both of them take the text they find the same bytes, and the command shows the hash that the
builders put into the origin's condition. Yet the command takes any bytes, whether they have the form of a key or not,
and it takes any number of blanks between them. The builders have their own ways: a mark with a capital letter, blanks
in front of the mark, and blanks beyond ASCII at both ends.
-/

namespace StacksWallet

namespace Text

/-- Of a text that begins with two characters that are not blank, only the end is stripped. -/
theorem strip_cons_cons {c d : CodePoint} (hc : c.isBlank = false) (hd : d.isBlank = false) (rest : Text) :
    strip (c :: d :: rest) = c :: d :: rest.dropEndWhile CodePoint.isBlank := by
  rw [strip, trim, List.dropWhile_cons_of_neg (by simp [hc])]
  exact dropEndWhile_append_cons hd [c] rest

end Text

namespace CommandLine

open Transaction

/-- The text has at most a small mark, nothing in front of it, and no blanks but those of ASCII. -/
structure Tidy (t : Text) : Prop where
  small : t.strip.startsWith "0X" = false
  front : t.strip.startsWith "0x" = true → t.startsWith "0x" = true
  blanks : ∀ c ∈ t, c.isBlank = true → c.isAsciiBlank = true

variable {t : Text} {b : Bytes}

/-- The command finds the bytes that a text spells, or the text behind its mark. -/
theorem readPublicKey_eq_ok_iff :
    readPublicKey t = .ok b ↔ Hex.Spells (if t.startsWith "0x" then t.drop 2 else t) b := by
  rw [readPublicKey, Outcome.mapError_eq_ok, Hex.pairs_eq_ok_iff]

/-- Behind its mark the text of the command spells what it spells for the builders. -/
theorem spells_of_marked {rest : Text} (h : Hex.Spells rest b) :
    Hex.Spells (Hex.afterMark (Text.strip (48 :: 120 :: rest))) b := by
  obtain ⟨back, hrest, hback⟩ := Text.exists_dropEndWhile CodePoint.isBlank rest
  have hbody : Hex.afterMark (48 :: 120 :: rest.dropEndWhile CodePoint.isBlank) =
      rest.dropEndWhile CodePoint.isBlank := rfl
  rw [Text.strip_cons_cons (by decide) (by decide), hbody]
  rw [hrest] at h
  exact h.of_append_blanks hback

/-- Without a mark it does so too, and there is none within the blanks. -/
theorem spells_of_unmarked (h : Hex.Spells t b) : Hex.Spells t.strip b := by
  obtain ⟨front, back, ht, hfront, hback⟩ := Text.exists_trim CodePoint.isBlank t
  rw [ht] at h
  exact (h.of_blanks_append hfront).of_append_blanks hback

/-- What the command makes of a text, the builders find in it. -/
theorem spells_of_readPublicKey (h : readPublicKey t = .ok b) : Hex.Spells (Hex.afterMark t.strip) b := by
  rw [readPublicKey_eq_ok_iff] at h
  by_cases hmark : t.startsWith "0x" = true
  · rw [if_pos hmark] at h
    obtain ⟨rest, rfl⟩ := Text.startsWith_pair_iff.mp hmark
    exact spells_of_marked h
  · rw [if_neg hmark] at h
    have hstrip := spells_of_unmarked h
    rwa [Hex.afterMark_eq_self (hstrip.startsWith_eq_false rfl) (hstrip.startsWith_eq_false rfl)]

/-- What the command takes is tidy. -/
theorem tidy_of_readPublicKey (h : readPublicKey t = .ok b) : Tidy t := by
  rw [readPublicKey_eq_ok_iff] at h
  by_cases hmark : t.startsWith "0x" = true
  · rw [if_pos hmark] at h
    obtain ⟨rest, rfl⟩ := Text.startsWith_pair_iff.mp hmark
    refine ⟨?_, fun _ => hmark, ?_⟩
    · rw [Text.strip_cons_cons (by decide) (by decide)]
      rfl
    · exact List.forall_mem_cons.mpr ⟨nofun, List.forall_mem_cons.mpr ⟨nofun, fun c hc => (h.ascii c hc).2⟩⟩
  · rw [if_neg hmark] at h
    have hstrip := spells_of_unmarked h
    have hsmall : t.strip.startsWith "0x" = false := hstrip.startsWith_eq_false rfl
    refine ⟨hstrip.startsWith_eq_false rfl, fun hstart => ?_, fun c hc => (h.ascii c hc).2⟩
    cases hsmall.symm.trans hstart

/-- What the builders find in a tidy text, the command finds. -/
theorem readPublicKey_of_tidy (ht : Tidy t) (h : Hex.Spells (Hex.afterMark t.strip) b) : readPublicKey t = .ok b := by
  have hblanks : ∀ u : Text, (∀ c ∈ u, c ∈ t) → (∀ c ∈ u, c.isBlank = true) → Hex.Spells u [] :=
    fun u hmem hblank => .of_blanks fun c hc => ht.blanks c (hmem c hc) (hblank c hc)
  rw [readPublicKey_eq_ok_iff]
  by_cases hmark : t.startsWith "0x" = true
  · rw [if_pos hmark]
    obtain ⟨rest, rfl⟩ := Text.startsWith_pair_iff.mp hmark
    obtain ⟨back, hrest, hback⟩ := Text.exists_dropEndWhile CodePoint.isBlank rest
    rw [Text.strip_cons_cons (by decide) (by decide)] at h
    have hbody : Hex.Spells (Text.dropEndWhile CodePoint.isBlank rest) b := h
    have hmem : ∀ c ∈ back, c ∈ (48 :: 120 :: rest : Text) := by
      intro c hc
      rw [hrest]
      simp [hc]
    have hall := hbody.append (hblanks back hmem hback)
    rwa [← hrest, List.append_nil] at hall
  · rw [if_neg hmark]
    obtain ⟨front, back, hstrip, hfront, hback⟩ := Text.exists_trim CodePoint.isBlank t
    have hsmall : t.strip.startsWith "0x" = false := Bool.eq_false_iff.mpr (mt ht.front hmark)
    rw [Hex.afterMark_eq_self hsmall ht.small] at h
    have hmem : ∀ c, c ∈ front ∨ c ∈ back → c ∈ t := by
      intro c hc
      rw [hstrip]
      simp only [List.mem_append]
      tauto
    have hall := (hblanks front (fun c hc => hmem c (.inl hc)) hfront).append
      (h.append (hblanks back (fun c hc => hmem c (.inr hc)) hback))
    rwa [Text.strip, ← hstrip, List.append_nil] at hall

/-- The command line that shows the address of a public key, with settings in front of it. -/
def addressLine (settings : List (Text × Text)) (key : Text) : List Text :=
  optionArguments settings ++ Text.ofString "address" :: optionArguments [(Text.ofString "--public-key", key)]

/-- What is shown of a public key. -/
def keyMembers (network : Network) (address : Address) (key : Bytes) : List (String × Json) :=
  [("address", .text address.text), ("network", .text network.name), ("public_key", .text (Hex.plain key)),
    ("hash160", .text (Hex.plain address.hash.val))]

variable {scheme : SignatureScheme} {environment : Environment} {settings : List (Text × Text)} {config : Config}
  {network : Network}

/-- The network of a configuration has a version for addresses. -/
theorem addressVersion_lt (h : config.networkOf = .ok network) : network.addressVersion < 32 := by
  obtain ⟨n, hn, h⟩ := Outcome.bind_eq_ok.mp h
  have hversion : n.addressVersion < 32 := by
    unfold Network.ofName at hn
    split at hn
    · rename_i hfound
      obtain rfl := Except.ok.inj hn
      have hmem := List.mem_of_find?_eq_some hfound
      simp only [Network.presets, List.mem_cons, List.not_mem_nil, or_false] at hmem
      obtain rfl | rfl | rfl := hmem <;> decide
    · cases hn
  -- A node of its own is all that a configuration may change about a network.
  split at h
  · obtain rfl := Except.ok.inj h
    unfold Network.withApiUrl
    split <;> exact hversion
  · obtain rfl := Except.ok.inj h
    exact hversion

/-- Any bytes are reported as a public key, with their hash. -/
theorem exists_addressReport (h : config.networkOf = .ok network) (key : Bytes) :
    ∃ address : Address, address.hash = keyHash key ∧
      addressReport network key = .ok (documentLines (keyMembers network address key)) := by
  have hversion := Version.ofDatum_integer ⟨network.addressVersion, addressVersion_lt h⟩
  have hhash : Hash160.ofBytes? (keyHash key).val = some (keyHash key) := Hash160.ofBytes?_eq_some_iff.mpr rfl
  have hmade : Address.ofPublicKey key network.addressVersion = .ok ⟨.whole ⟨_, addressVersion_lt h⟩, keyHash key⟩ := by
    refine Outcome.bind_eq_ok.mpr ⟨_, hversion, ?_⟩
    rw [hhash]
    rfl
  exact ⟨_, rfl, Outcome.bind_eq_ok.mpr ⟨_, hmade, rfl⟩⟩

/-- The command line asks for the address of the public key, whatever text is given as one. -/
theorem read?_addressLine (hsettings : ∀ o ∈ settings, settingsGrammar.takes o.1 = true)
    (hconfig : configOf environment ⟨settings, [], []⟩ = .ok config) (key : Text) :
    Invocation.read? environment (addressLine settings key) = some (.run config (.addressOfPublic key)) := by
  have hname : (Text.ofString "address").toString = "address" := by decide
  have hgrammar : grammarOf? "address" = some (commandGrammar ["--public-key", "--private-key"] []) := rfl
  have hoption : (commandGrammar ["--public-key", "--private-key"] []).takes "--public-key" = true := by decide
  have htakes : ∀ o ∈ [(Text.ofString "--public-key", key)],
      (commandGrammar ["--public-key", "--private-key"] []).takes o.1 = true :=
    List.forall_mem_singleton.mpr hoption
  have hoptions : (commandGrammar ["--public-key", "--private-key"] []).read
      (optionArguments [(Text.ofString "--public-key", key)]) =
        some ⟨[(Text.ofString "--public-key", key)], [], []⟩ := by
    rw [← List.append_nil (optionArguments _), Grammar.read_options htakes, Grammar.read]
    simp [Arguments.ofOperands]
  rw [addressLine, read?_of_options hsettings (by decide) (by decide) hconfig, Invocation.ofRest?, hname, hgrammar]
  change (do
    let a ← (commandGrammar ["--public-key", "--private-key"] []).read
      (optionArguments [(Text.ofString "--public-key", key)])
    if a.has "--help" then some Invocation.help
    else return Invocation.run config (← Command.ofArguments? environment "address" a)) = _
  rw [hoptions]
  rfl

/-- The command succeeds with some lines and does not use the link. -/
def Shows (scheme : SignatureScheme) (environment : Environment) (settings : List (Text × Text)) (key : Text)
    (link : Link) (lines : Text) : Prop :=
  (run scheme environment (addressLine settings key)).run link = (⟨0, lines, none⟩, link)

section Run

variable (hsettings : ∀ o ∈ settings, settingsGrammar.takes o.1 = true)
  (hconfig : configOf environment ⟨settings, [], []⟩ = .ok config) (hnetwork : config.networkOf = .ok network)

include hsettings hconfig hnetwork

/-- The command shows the bytes that it finds in a text. -/
theorem exists_shows {key : Text} {b : Bytes} (h : readPublicKey key = .ok b) (link : Link) :
    ∃ address : Address, address.hash = keyHash b ∧
      Shows scheme environment settings key link (documentLines (keyMembers network address b)) := by
  obtain ⟨address, hhash, hreport⟩ := exists_addressReport hnetwork b
  have hscalar : ∀ m ∈ keyMembers network address b, m.2.Scalar := by
    simp only [keyMembers, List.forall_mem_cons]
    exact ⟨.text _, .text _, .text _, .text _, nofun⟩
  have houtput : ((Command.addressOfPublic key).output scheme config).run.run link =
      (.ok (documentLines (keyMembers network address b)), link) := by
    refine (Outcome.run_lift_bind hnetwork).trans ((Outcome.run_lift_bind h).trans ?_)
    rw [hreport]
    rfl
  refine ⟨address, hhash, ?_⟩
  rw [Shows, run, read?_addressLine hsettings hconfig]
  refine (StateT.run_bind _ _ _).trans ?_
  rw [houtput]
  exact congrArg (·, link) (success_documentLines hscalar)

/-- The command reports a text in which it finds no bytes, and shows nothing. -/
theorem run_of_readPublicKey_ne_ok {key : Text} (h : ∀ b, readPublicKey key ≠ .ok b) (link : Link) :
    ∃ complaint, (run scheme environment (addressLine settings key)).run link = (⟨1, [], some complaint⟩, link) := by
  obtain ⟨fault, hfault⟩ := Outcome.exists_eq_error h
  have hreports : (Command.addressOfPublic key).reports fault = true := by
    obtain ⟨flaw, -, rfl⟩ := Outcome.mapError_eq_error.mp hfault
    rfl
  have houtput : ((Command.addressOfPublic key).output scheme config).run.run link = (.error fault, link) := by
    refine (Outcome.run_lift_bind hnetwork).trans ?_
    rw [hfault]
    rfl
  have hrun : (run scheme environment (addressLine settings key)).run link = (.failure fault, link) := by
    rw [run, read?_addressLine hsettings hconfig]
    refine (StateT.run_bind _ _ _).trans ?_
    rw [houtput]
    exact congrArg (·, link) (if_pos hreports)
  exact ⟨_, hrun⟩

/-- The command shows something if it finds bytes. -/
theorem exists_shows_iff {key : Text} {link : Link} :
    (∃ lines, Shows scheme environment settings key link lines) ↔ ∃ b, readPublicKey key = .ok b := by
  by_cases h : ∃ b, readPublicKey key = .ok b
  · obtain ⟨b, hb⟩ := h
    obtain ⟨address, -, hshows⟩ := exists_shows hsettings hconfig hnetwork hb link
    exact iff_of_true ⟨_, hshows⟩ ⟨b, hb⟩
  · obtain ⟨complaint, hrun⟩ := run_of_readPublicKey_ne_ok hsettings hconfig hnetwork (not_exists.mp h) link
    refine iff_of_false (fun ⟨lines, hshows⟩ => ?_) h
    cases (hrun.symm.trans hshows)

end Run

/-- A transfer is built with a public key that is given as text, and with the other parts of an order. -/
def Builds (scheme : SignatureScheme) (o : Order) (recipient : Arg Value) (amount memo : Datum) (key : Text)
    (t : Transaction) : Prop :=
  ofTransfer scheme (o.ofKey (.text key)) recipient amount memo = .ok t

/-- If the other parts are valid, a transfer is built with a text that is read as a compressed key. -/
theorem exists_builds_iff {o : Order} {recipient : Arg Value} {amount memo d : Datum} {t₀ : Transaction}
    (hvalid : ofTransfer scheme (o.ofKey d) recipient amount memo = .ok t₀) {key : Text} :
    (∃ t, Builds scheme o recipient amount memo key t) ↔ ∃ b, Hex.read key = .ok b ∧ IsCompressed b := by
  refine (Order.exists_build_iff hvalid).trans (exists_congr fun b => ?_)
  rw [requirePublicKey_eq_ok_iff, Datum.toBytes, Outcome.mapError_eq_ok]

/-- Let the settings in front of the command and the other parts of a transfer be valid, so that the transfer is built
with one key or other. A text that the command takes is not taken by the builder if its bytes have not the form of a
compressed key, or there is an odd number of blanks among its figures. A text that the builder takes is not taken by the
command if it is not tidy. Apart from that they take the same texts, and the hash that the command shows is then the
signer in the origin's condition. -/
theorem address_agrees_iff (hsettings : ∀ o ∈ settings, settingsGrammar.takes o.1 = true)
    (hconfig : configOf environment ⟨settings, [], []⟩ = .ok config) (hnetwork : config.networkOf = .ok network)
    {o : Order} {recipient : Arg Value} {amount memo d : Datum} {t₀ : Transaction}
    (hvalid : ofTransfer scheme (o.ofKey d) recipient amount memo = .ok t₀) (key : Text) (link : Link) :
    ((∃ lines, Shows scheme environment settings key link lines) ∧
        (¬ ∃ t, Builds scheme o recipient amount memo key t) ↔
      ∃ b, readPublicKey key = .ok b ∧ ¬ (IsCompressed b ∧ (Hex.afterMark key.strip).length % 2 = 0)) ∧
    ((∃ t, Builds scheme o recipient amount memo key t) ∧
        (¬ ∃ lines, Shows scheme environment settings key link lines) ↔
      (∃ b, Hex.read key = .ok b ∧ IsCompressed b) ∧ ¬ Tidy key) ∧
    ∀ lines t, Shows scheme environment settings key link lines → Builds scheme o recipient amount memo key t →
      t.envelope.auth.origin.mode = .p2pkh ∧ ∃ address b, lines = documentLines (keyMembers network address b) ∧
        address.hash.val = t.envelope.auth.origin.signer := by
  have hshows : (∃ lines, Shows scheme environment settings key link lines) ↔ ∃ b, readPublicKey key = .ok b :=
    exists_shows_iff hsettings hconfig hnetwork
  rw [hshows, exists_builds_iff hvalid]
  refine ⟨⟨fun h => ?_, fun h => ?_⟩, ⟨fun h => ?_, fun h => ?_⟩, fun lines t hlines ht => ?_⟩
  · obtain ⟨⟨b, hb⟩, hnone⟩ := h
    refine ⟨b, hb, fun hform => hnone ⟨b, Hex.read_eq_ok_iff.mpr ⟨hform.2, spells_of_readPublicKey hb⟩, hform.1⟩⟩
  · obtain ⟨b, hb, hform⟩ := h
    refine ⟨⟨b, hb⟩, fun ⟨c, hc, hcompressed⟩ => hform ?_⟩
    obtain ⟨heven, hspells⟩ := Hex.read_eq_ok_iff.mp hc
    obtain rfl := hspells.unique (spells_of_readPublicKey hb)
    exact ⟨hcompressed, heven⟩
  · obtain ⟨⟨b, hb, hcompressed⟩, hnone⟩ := h
    exact ⟨⟨b, hb, hcompressed⟩, fun htidy => hnone ⟨b, readPublicKey_of_tidy htidy (Hex.read_eq_ok_iff.mp hb).2⟩⟩
  · obtain ⟨hb, huntidy⟩ := h
    exact ⟨hb, fun ⟨c, hc⟩ => huntidy (tidy_of_readPublicKey hc)⟩
  · obtain ⟨b, hb⟩ := hshows.mp ⟨lines, hlines⟩
    obtain ⟨address, hhash, hshown⟩ : ∃ address : Address, address.hash = keyHash b ∧
        Shows scheme environment settings key link (documentLines (keyMembers network address b)) :=
      exists_shows hsettings hconfig hnetwork hb link
    obtain rfl : _ = lines := congrArg (·.1.output) (hshown.symm.trans hlines)
    obtain ⟨c, hc, hmode, hsigner⟩ := Order.origin_of_build ht
    rw [requirePublicKey_eq_ok_iff, Datum.toBytes, Outcome.mapError_eq_ok] at hc
    obtain rfl := (Hex.read_eq_ok_iff.mp hc.1).2.unique (spells_of_readPublicKey hb)
    exact ⟨hmode, address, c, rfl, by rw [hhash, hsigner]⟩

/-- Bytes in the form of a compressed key. -/
def someKey : Bytes := 2 :: Bytes.zeros 32

/-- The bytes have that form. -/
theorem isCompressed_someKey : IsCompressed someKey := ⟨rfl, .inl rfl⟩

/-- Without settings there is a configuration, and it has a network. -/
theorem exists_plainConfig :
    ∃ config network, configOf [] ⟨[], [], []⟩ = .ok config ∧ config.networkOf = .ok network := by
  have hsettings : ((configOf [] ⟨[], [], []⟩).bind Config.networkOf).toOption.isSome = true := by decide +kernel
  cases hnetwork : (configOf [] ⟨[], [], []⟩).bind Config.networkOf with
  | error fault =>
    rw [hnetwork] at hsettings
    cases hsettings
  | ok network =>
    obtain ⟨config, hconfig, hnetwork⟩ := Outcome.bind_eq_ok.mp hnetwork
    exact ⟨config, network, hconfig, hnetwork⟩

/-- A transfer to an account is built with the key. -/
theorem exists_transfer_someKey :
    ∃ t, ofTransfer .secp256k1 (({} : Order).ofKey (.bytes someKey)) (.of (.principal ⟨⟨.whole 22, .zero⟩, none⟩))
      (.integer 1) .absent = .ok t := by
  have hnetwork : Network.mainnet ∈ Network.presets := List.mem_cons_self
  exact ⟨_, (ofTransfer_publicKey_eq_ok_iff hnetwork isCompressed_someKey).mpr ⟨_, rfl, rfl⟩⟩

/-- Behind its mark the key is shown, and a transfer is built with it, from the account of the hash that is shown. -/
theorem address_agrees_iff_someKey :
    ∃ config network t₀, configOf [] ⟨[], [], []⟩ = .ok config ∧ config.networkOf = .ok network ∧
      ofTransfer .secp256k1 (({} : Order).ofKey (.bytes someKey)) (.of (.principal ⟨⟨.whole 22, .zero⟩, none⟩))
        (.integer 1) .absent = .ok t₀ ∧
      ∀ link, ∃ lines t, Shows .secp256k1 [] [] (Hex.prefixed someKey) link lines ∧
        Builds .secp256k1 {} (.of (.principal ⟨⟨.whole 22, .zero⟩, none⟩)) (.integer 1) .absent (Hex.prefixed someKey)
          t ∧
          ∃ address b, lines = documentLines (keyMembers network address b) ∧
            address.hash.val = t.envelope.auth.origin.signer := by
  obtain ⟨config, network, hconfig, hnetwork⟩ := exists_plainConfig
  obtain ⟨t₀, hvalid⟩ := exists_transfer_someKey
  have hread : readPublicKey (Hex.prefixed someKey) = .ok someKey := rfl
  refine ⟨config, network, t₀, hconfig, hnetwork, hvalid, fun link => ?_⟩
  obtain ⟨-, -, hagree⟩ :=
    address_agrees_iff (List.forall_mem_nil _) hconfig hnetwork hvalid (Hex.prefixed someKey) link
  obtain ⟨lines, hlines⟩ : ∃ lines, Shows .secp256k1 [] [] (Hex.prefixed someKey) link lines :=
    (exists_shows_iff (List.forall_mem_nil _) hconfig hnetwork).mpr ⟨_, hread⟩
  obtain ⟨t, ht⟩ := (exists_builds_iff hvalid).mpr ⟨someKey, Hex.read_prefixed someKey, isCompressed_someKey⟩
  exact ⟨lines, t, hlines, ht, (hagree lines t hlines ht).2⟩

/-- The command shows an address for a single byte, with which no transfer is built; and transfers are built with a key
behind a large mark, for which no address is shown. -/
theorem address_without_transfer :
    (∃ t, Builds .secp256k1 {} (.of (.principal ⟨⟨.whole 22, .zero⟩, none⟩)) (.integer 1) .absent
      (Hex.plain someKey) t) ∧
      ∀ link, ((∃ lines, Shows .secp256k1 [] [] "00" link lines) ∧
          ¬ ∃ t, Builds .secp256k1 {} (.of (.principal ⟨⟨.whole 22, .zero⟩, none⟩)) (.integer 1) .absent "00" t) ∧
        (∃ t, Builds .secp256k1 {} (.of (.principal ⟨⟨.whole 22, .zero⟩, none⟩)) (.integer 1) .absent
            ("0X" ++ Hex.plain someKey) t) ∧
          ¬ ∃ lines, Shows .secp256k1 [] [] ("0X" ++ Hex.plain someKey) link lines := by
  obtain ⟨config, network, hconfig, hnetwork⟩ := exists_plainConfig
  obtain ⟨t₀, hvalid⟩ := exists_transfer_someKey
  have hshows : ∀ key link, (∃ lines, Shows .secp256k1 [] [] key link lines) ↔ ∃ b, readPublicKey key = .ok b :=
    fun key link => exists_shows_iff (List.forall_mem_nil _) hconfig hnetwork
  have hplain : Hex.read (Hex.plain someKey) = .ok someKey := by rfl
  have hlarge : Hex.read ("0X" ++ Hex.plain someKey) = .ok someKey := by rfl
  have hbyte : Hex.read "00" = .ok [0] := by rfl
  refine ⟨(exists_builds_iff hvalid).mpr ⟨_, hplain, isCompressed_someKey⟩, fun link => ⟨⟨?_, ?_⟩, ?_, ?_⟩⟩
  · exact (hshows "00" link).mpr ⟨[0], rfl⟩
  · rw [exists_builds_iff hvalid]
    intro h
    obtain ⟨b, hb, hcompressed⟩ := h
    obtain rfl := Except.ok.inj (hbyte.symm.trans hb)
    exact absurd hcompressed.1 (by decide)
  · exact (exists_builds_iff hvalid).mpr ⟨_, hlarge, isCompressed_someKey⟩
  · rw [hshows]
    intro h
    obtain ⟨b, hb⟩ := h
    cases hb

end CommandLine

end StacksWallet
