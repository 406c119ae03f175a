import StacksWallet.Proofs.CommandLine.Arguments
import StacksWallet.Proofs.CommandLine.Report
import StacksWallet.Proofs.Transaction.Transfer

/-!
# Transfers on the command line

The command that makes a transfer without handing it in prints what the builders make of the same terms, in one step or
in several. All of them refuse the same terms, though the command may do so while it reads its arguments: an integer
that is too long to be read has no place on the wire.
-/

namespace StacksWallet

open CommandLine Transaction

namespace TransferTerms

/-- The options of the command that makes the transfer. -/
def options (terms : TransferTerms) (figures : Text) : List (Text × Text) :=
  [(Text.ofString "--key", figures), (Text.ofString "--recipient", terms.recipient),
    (Text.ofString "--amount", Text.ofInt terms.amount)] ++
    (terms.memo?.map fun memo => (Text.ofString "--memo", memo)).toList ++
    [(Text.ofString "--nonce", Text.ofInt terms.nonce), (Text.ofString "--fee", Text.ofInt terms.fee)]

/-- The settings in front of the command. -/
def settings (terms : TransferTerms) : List (Text × Text) := [("--network", terms.network.name)]

/-- The command line that makes the transfer with a private key. -/
def commandLine (terms : TransferTerms) (figures : Text) : List Text :=
  optionArguments terms.settings ++ Text.ofString "transfer" :: optionArguments (terms.options figures)

/-- What the command line asks for. -/
def request (terms : TransferTerms) (figures : Text) : TransferRequest :=
  ⟨figures, terms.recipient, terms.amount, terms.memo?, some terms.fee, some terms.nonce, false⟩

/-- The integers have no more digits than are converted. -/
def Short (terms : TransferTerms) : Prop :=
  (Text.ofInt terms.amount).length ≤ maxNumeralDigits ∧ (Text.ofInt terms.fee).length ≤ maxNumeralDigits ∧
    (Text.ofInt terms.nonce).length ≤ maxNumeralDigits

instance (terms : TransferTerms) : Decidable terms.Short := inferInstanceAs (Decidable (_ ∧ _))

/-- What is printed of the transfer. -/
def members (terms : TransferTerms) (b : Bytes) : List (String × Json) :=
  [("txid", .text (identifier b)), ("tx", .text (Hex.prefixed b)), ("nonce", .int terms.nonce), ("fee", .int terms.fee)]

variable {terms : TransferTerms} {figures : Text} {scheme : SignatureScheme} {environment : Environment}
  {config : Config}

/-- Every option has the value that the terms give it, and there is no memo unless the terms have one. -/
theorem value?_options (terms : TransferTerms) (figures : Text) :
    (⟨terms.options figures, [], []⟩ : Arguments).value? "--key" = some figures ∧
      (⟨terms.options figures, [], []⟩ : Arguments).value? "--recipient" = some terms.recipient ∧
      (⟨terms.options figures, [], []⟩ : Arguments).value? "--amount" = some (Text.ofInt terms.amount) ∧
      (⟨terms.options figures, [], []⟩ : Arguments).value? "--memo" = terms.memo? ∧
      (⟨terms.options figures, [], []⟩ : Arguments).value? "--fee" = some (Text.ofInt terms.fee) ∧
      (⟨terms.options figures, [], []⟩ : Arguments).value? "--nonce" = some (Text.ofInt terms.nonce) := by
  cases h : terms.memo? with
  | none =>
    simp only [options, h]
    exact ⟨rfl, rfl, rfl, rfl, rfl, rfl⟩
  | some memo =>
    simp only [options, h]
    exact ⟨rfl, rfl, rfl, rfl, rfl, rfl⟩

/-- The options ask for the transfer, unless an integer is too long to be read. -/
theorem ofArguments?_options :
    TransferRequest.ofArguments? environment ⟨terms.options figures, [], []⟩ =
      if terms.Short then some (terms.request figures) else none := by
  obtain ⟨hkey, hrecipient, hamount, hmemo, hfee, hnonce⟩ := value?_options terms figures
  have hbroadcast : (⟨terms.options figures, [], []⟩ : Arguments).has "--broadcast" = false := rfl
  simp only [TransferRequest.ofArguments?, hkey, hrecipient, hamount, hmemo, hfee, hnonce, hbroadcast, integer?,
    NumberOption.integer?_ofInt, Short, ite_and, ← not_lt, ite_not]
  split_ifs <;> rfl

/-- The grammar of the command. -/
def grammar : Grammar :=
  commandGrammar ["--key", "--recipient", "--amount", "--memo", "--fee", "--nonce"] ["--broadcast"]

/-- The grammar of the command takes its options. -/
theorem takes_options (terms : TransferTerms) (figures : Text) :
    ∀ o ∈ terms.options figures, grammar.takes o.1 = true := by
  cases h : terms.memo? with
  | none =>
    simp only [options, h, Option.map_none, Option.toList_none, List.append_nil, List.cons_append, List.nil_append,
      List.forall_mem_cons]
    exact ⟨by decide, by decide, by decide, by decide, by decide, nofun⟩
  | some memo =>
    simp only [options, h, Option.map_some, Option.toList_some, List.cons_append, List.nil_append,
      List.forall_mem_cons]
    exact ⟨by decide, by decide, by decide, by decide, by decide, by decide, nofun⟩

/-- The options are read as they are. -/
theorem read_options : grammar.read (optionArguments (terms.options figures)) = some ⟨terms.options figures, [], []⟩ := by
  rw [← List.append_nil (optionArguments _), Grammar.read_options (takes_options terms figures), Grammar.read]
  simp [Arguments.ofOperands]

/-- The command line asks for the transfer, unless an integer is too long to be read. -/
theorem read?_commandLine (hconfig : configOf environment ⟨terms.settings, [], []⟩ = .ok config) :
    Invocation.read? environment (terms.commandLine figures) =
      if terms.Short then some (.run config (.transfer (terms.request figures))) else none := by
  have hsettings : ∀ o ∈ terms.settings, settingsGrammar.takes o.1 = true := by
    simp only [settings, List.forall_mem_cons]
    exact ⟨by decide, nofun⟩
  have hname : (Text.ofString "transfer").toString = "transfer" := by decide
  have hgrammar : grammarOf? "transfer" = some grammar := rfl
  rw [commandLine, read?_of_options hsettings (by decide) (by decide) hconfig, Invocation.ofRest?, hname, hgrammar]
  change (do
    let a ← grammar.read (optionArguments (terms.options figures))
    if a.has "--help" then some Invocation.help
    else return Invocation.run config (← Command.ofArguments? environment "transfer" a)) = _
  rw [read_options]
  change (do return Invocation.run config (← (TransferRequest.ofArguments? environment
    ⟨terms.options figures, [], []⟩).map Command.transfer)) = _
  rw [ofArguments?_options]
  split <;> rfl

/-- What is reported of a signed transaction. -/
def reported : Op (List (String × Json)) := do
  let id ← Transaction.id
  let bytes ← toHex
  let t ← get
  return [("txid", .text id), ("tx", .text bytes), ("nonce", .int t.nonce), ("fee", .int t.fee)]

variable {t : Transaction} {members : List (String × Json)}

/-- Of the signed draft of the transfer its bytes are reported, with their identifier, the nonce and the fee. -/
theorem Signs.reported_eq_ok_iff {key : Datum} (h : terms.Signs scheme key t) :
    (outcome reported t).1 = .ok members ↔ ∃ b, t.envelope.encode = .ok b ∧ members = terms.members b := by
  obtain ⟨hstage, hcached, hnonce, hfee⟩ := h.signed
  rw [reported, fst_outcome_bind_eq_ok]
  constructor
  · intro h
    obtain ⟨_, _, hid, h⟩ := h
    obtain ⟨b, hb, rfl, rfl⟩ := (outcome_id_eq_ok_iff hstage hcached).mp hid
    refine ⟨b, hb, (Except.ok.inj h).symm.trans ?_⟩
    rw [TransferTerms.members, ← hnonce, ← hfee]
    rfl
  · intro h
    obtain ⟨b, hb, rfl⟩ := h
    refine ⟨_, _, (outcome_id_eq_ok_iff hstage hcached).mpr ⟨b, hb, rfl, rfl⟩, ?_⟩
    rw [TransferTerms.members, ← hnonce, ← hfee]
    rfl

/-- The report of the transfer on a network, made of the public key, without a node. -/
def offline (terms : TransferTerms) (scheme : SignatureScheme) (figures : Text) (network : Network) :
    Except Fault (List (String × Json)) := do
  let signer ← Signer.ofKey scheme (.text figures)
  let t ← terms.ordered scheme { publicKey := .bytes signer.publicKey, network }
  (outcome (signedReport scheme signer terms.nonce terms.fee) t).1

/-- Of a network only its version and its chain matter to a transfer. -/
theorem ordered_congr {network network' : Network} (hversion : network.version = network'.version)
    (hchain : network.chainId = network'.chainId) (publicKey : Datum) :
    terms.ordered scheme { publicKey, network } = terms.ordered scheme { publicKey, network := network' } := by
  simp only [ordered, ofTransfer, Order.build, Order.finish, hversion, hchain]
  rfl

/-- The report is that of the bytes that the transfer yields. -/
theorem offline_eq_ok_iff (hnetwork : terms.network ∈ Network.presets)
    (hkey : ∀ signer, Signer.ofKey scheme (.text figures) = .ok signer → IsCompressed signer.publicKey)
    {network : Network} (hversion : network.version = terms.network.version)
    (hchain : network.chainId = terms.network.chainId) :
    terms.offline scheme figures network = .ok members ↔
      ∃ b, terms.Yields scheme (.text figures) b ∧ members = terms.members b := by
  have hsteps : terms.offline scheme figures network = .ok members ↔
      ∃ t, terms.Signs scheme (.text figures) t ∧ (outcome reported t).1 = .ok members := by
    rw [← settled_sign_eq_ok_iff hnetwork hkey false .of fun _ _ => rfl, offline, Outcome.bind_eq_ok]
    refine exists_congr fun signer => and_congr_right fun _ => ?_
    rw [ordered_congr hversion hchain, Outcome.bind_eq_ok]
    rfl
  exact hsteps.trans (outcome_of_signs Signs.reported_eq_ok_iff)

/-- Without handing it in, the command reports the transfer and does not use the link. -/
theorem run_transferReport (network : Network) (link : Link) :
    (transferReport scheme config network (terms.request figures)).run link =
      (do return documentLines (← terms.offline scheme figures network), link) := by
  rw [transferReport, offline]
  simp only [request, Bool.false_eq_true, if_false, Option.getD_some, bind_assoc]
  exact Outcome.run_lift_bind_eq fun signer => Outcome.run_lift_bind_eq fun t => Outcome.run_lift_bind_eq fun _ => rfl

/-- The command prints the transfer, or it reports a failure. -/
theorem run_commandLine (scheme : SignatureScheme) (figures : Text) (hnetwork : terms.network ∈ Network.presets)
    (hconfig : configOf environment ⟨terms.settings, [], []⟩ = .ok config) :
    ∃ network : Network, network.version = terms.network.version ∧ network.chainId = terms.network.chainId ∧
      ∀ link, (run scheme environment (terms.commandLine figures)).run link =
        if terms.Short then
          match terms.offline scheme figures network with
          | .ok members => (.success (documentLines members), link)
          | .error fault =>
            (if (Command.transfer (terms.request figures)).reports fault then .failure fault else .silent, link)
        else (.silent, link) := by
  have hname : config.network = terms.network.name := network_of_configOf rfl hconfig
  obtain ⟨network, hfound, hversion, hchain⟩ := Config.exists_networkOf hnetwork hname
  refine ⟨network, hversion, hchain, fun link => ?_⟩
  have houtput : ((Command.transfer (terms.request figures)).output scheme config).run.run link =
      (do return documentLines (← terms.offline scheme figures network), link) :=
    (Outcome.run_lift_bind hfound).trans (run_transferReport network link)
  rw [run, read?_commandLine hconfig]
  by_cases hshort : terms.Short
  · rw [if_pos hshort, if_pos hshort]
    refine (StateT.run_bind _ _ _).trans ?_
    rw [houtput]
    cases terms.offline scheme figures network with
    | ok members => rfl
    | error fault => rfl
  · rw [if_neg hshort, if_neg hshort]
    rfl

/-- What can be signed is short enough to be read. -/
theorem Signs.short {key : Datum} (h : terms.Signs scheme key t) : terms.Short := by
  obtain ⟨_, _, -, hpayload, ⟨hnonce, hfee⟩, -⟩ := h
  obtain ⟨_, -, hpayload⟩ := Outcome.bind_eq_ok.mp hpayload
  obtain ⟨_, -, hpayload⟩ := Outcome.bind_eq_ok.mp hpayload
  obtain ⟨amount, hamount, -⟩ := Outcome.bind_eq_ok.mp hpayload
  have hvalue : terms.amount = amount.val := Datum.integer.inj (Amount.ofDatum_eq_ok_iff.mp hamount)
  have hbelow := amount.isLt
  have hcount : wordCount 8 = 0x1_0000_0000_0000_0000 := by decide
  rw [InWord, hcount] at hnonce hfee
  exact ⟨NumberOption.length_ofInt_le (by omega), NumberOption.length_ofInt_le hfee,
    NumberOption.length_ofInt_le hnonce⟩

/-- Keys that make the same signers yield the same bytes. -/
theorem yields_congr {key key' : Datum}
    (h : ∀ signer, Signer.ofKey scheme key = .ok signer ↔ Signer.ofKey scheme key' = .ok signer) (b : Bytes) :
    terms.Yields scheme key b ↔ terms.Yields scheme key' b := by
  refine exists_congr fun t => and_congr_left' (exists_congr fun signer => exists_congr fun payload => ?_)
  rw [h signer]

section Run

variable (hnetwork : terms.network ∈ Network.presets)
  (hkey : ∀ signer, Signer.ofKey scheme (.text figures) = .ok signer → IsCompressed signer.publicKey)
  (hconfig : configOf environment ⟨terms.settings, [], []⟩ = .ok config)

include hnetwork hkey hconfig

/-- The command prints the bytes that the transfer yields. -/
theorem run_commandLine_of_yields {b : Bytes} (h : terms.Yields scheme (.text figures) b) (link : Link) :
    (run scheme environment (terms.commandLine figures)).run link =
      (⟨0, documentLines (terms.members b), none⟩, link) := by
  obtain ⟨network, hversion, hchain, hrun⟩ := run_commandLine scheme figures hnetwork hconfig
  have hshort : terms.Short := by
    obtain ⟨t, ht, -⟩ := h
    exact ht.short
  have hoffline := (offline_eq_ok_iff hnetwork hkey hversion hchain).mpr ⟨b, h, rfl⟩
  have hscalar : ∀ m ∈ terms.members b, m.2.Scalar := by
    simp only [TransferTerms.members, List.forall_mem_cons]
    exact ⟨.text _, .text _, .int _, .int _, nofun⟩
  rw [hrun, if_pos hshort, hoffline]
  exact congrArg (·, link) (success_documentLines hscalar)

/-- Nothing is printed of a transfer that yields no bytes. -/
theorem run_commandLine_of_not_yields (h : ∀ b, ¬ terms.Yields scheme (.text figures) b) (link : Link) :
    ∃ complaint?, (run scheme environment (terms.commandLine figures)).run link = (⟨1, [], complaint?⟩, link) := by
  obtain ⟨network, hversion, hchain, hrun⟩ := run_commandLine scheme figures hnetwork hconfig
  have hoffline : ∀ members, terms.offline scheme figures network ≠ .ok members := by
    intro members hmembers
    obtain ⟨b, hb, -⟩ := (offline_eq_ok_iff hnetwork hkey hversion hchain).mp hmembers
    exact h b hb
  obtain ⟨fault, hfault⟩ := Outcome.exists_eq_error hoffline
  rw [hrun, hfault]
  split
  · dsimp only
    split
    · exact ⟨_, rfl⟩
    · exact ⟨none, rfl⟩
  · exact ⟨none, rfl⟩

end Run

/-- Three ways to make a transfer agree: with the private key at once; with the public key, nonce and fee set one after
the other, and a signature at last; and on the command line, where nothing is handed in. Either all of them come to the
same bytes, with the same identifier, or all of them fail. The command line has the key in figures; a key in bytes is
the same one if its figures stand for these bytes. The program must start at all, which it does not if the settings of
its environment are refused. -/
theorem ways_agree (hnetwork : terms.network ∈ Network.presets) {key : Datum}
    (hfigures : ∀ b, key.toBytes = .ok b ↔ (Datum.text figures).toBytes = .ok b)
    (hcompressed : ∀ signer, Signer.ofKey scheme key = .ok signer → IsCompressed signer.publicKey)
    (hconfig : configOf environment ⟨terms.settings, [], []⟩ = .ok config) :
    (∃ b, terms.atOnce scheme key = .ok (b, identifier b) ∧
        (∀ feeFirst, terms.stepwise scheme key feeFirst = .ok (b, identifier b)) ∧
        ∀ link, (run scheme environment (terms.commandLine figures)).run link =
          (⟨0, documentLines (terms.members b), none⟩, link)) ∨
      (∃ fault, terms.atOnce scheme key = .error fault) ∧
        (∀ feeFirst, ∃ fault, terms.stepwise scheme key feeFirst = .error fault) ∧
        ∀ link, ∃ complaint?, (run scheme environment (terms.commandLine figures)).run link =
          (⟨1, [], complaint?⟩, link) := by
  have hsigner : ∀ signer, Signer.ofKey scheme key = .ok signer ↔ Signer.ofKey scheme (.text figures) = .ok signer :=
    fun signer => Signer.ofKey_eq_ok_iff_of_toBytes hfigures
  have hcompressed' : ∀ signer, Signer.ofKey scheme (.text figures) = .ok signer → IsCompressed signer.publicKey :=
    fun signer h => hcompressed signer ((hsigner signer).mpr h)
  by_cases h : ∃ b, terms.Yields scheme key b
  · obtain ⟨b, hb⟩ := h
    have hb' := (yields_congr hsigner b).mp hb
    exact .inl ⟨b, (atOnce_eq_ok_iff hnetwork).mpr ⟨b, hb, rfl⟩,
      fun feeFirst => (stepwise_eq_ok_iff hnetwork hcompressed feeFirst).mpr ⟨b, hb, rfl⟩,
      run_commandLine_of_yields hnetwork hcompressed' hconfig hb'⟩
  · have hnone : ∀ b, ¬ terms.Yields scheme key b := not_exists.mp h
    have hnone' : ∀ b, ¬ terms.Yields scheme (.text figures) b :=
      fun b hb => hnone b ((yields_congr hsigner b).mpr hb)
    refine .inr ⟨Outcome.exists_eq_error fun r hr => ?_, fun feeFirst => Outcome.exists_eq_error fun r hr => ?_,
      run_commandLine_of_not_yields hnetwork hcompressed' hconfig hnone'⟩
    · obtain ⟨b, hb, -⟩ := (atOnce_eq_ok_iff hnetwork).mp hr
      exact hnone b hb
    · obtain ⟨b, hb, -⟩ := (stepwise_eq_ok_iff hnetwork hcompressed feeFirst).mp hr
      exact hnone b hb

/-- A small transfer to the account that nobody has a key for. -/
def smallTransfer : TransferTerms := ⟨Network.mainnet, "SP000000000000000000002Q6VF78", 1000, some "memo", 2, 180⟩

/-- The transfer yields some bytes with the secret one. -/
theorem exists_yields_smallTransfer :
    ∃ b, smallTransfer.Yields .secp256k1 (.bytes (Bytes.zeros 31 ++ [1])) b := by
  have hwritten : (smallTransfer.payload.bind Payload.encode).toOption.isSome = true := by decide +kernel
  cases hmade : smallTransfer.payload.bind Payload.encode with
  | error fault =>
    rw [hmade] at hwritten
    cases hwritten
  | ok c =>
    obtain ⟨payload, hpayload, hencode⟩ := Outcome.bind_eq_ok.mp hmade
    have hsecret : SignatureScheme.secp256k1.isSecret (Bytes.zeros 31 ++ [1]) = true := by decide
    exact exists_yields (CurveLibrary.scheme_fullWidth _) (Signer.ofKey_bytes hsecret rfl) hpayload hencode
      ⟨by decide, by decide⟩

/-- All ways to make the transfer with the secret one come to the same bytes. -/
theorem ways_agree_smallTransfer :
    ∃ config b, smallTransfer.network ∈ Network.presets ∧
      configOf [] ⟨smallTransfer.settings, [], []⟩ = .ok config ∧
      smallTransfer.atOnce .secp256k1 (.bytes (Bytes.zeros 31 ++ [1])) = .ok (b, identifier b) ∧
      (∀ feeFirst, smallTransfer.stepwise .secp256k1 (.bytes (Bytes.zeros 31 ++ [1])) feeFirst =
        .ok (b, identifier b)) ∧
      ∀ link, (run .secp256k1 [] (smallTransfer.commandLine (Hex.plain (Bytes.zeros 31 ++ [1])))).run link =
        (⟨0, documentLines (smallTransfer.members b), none⟩, link) := by
  have hsecret : SignatureScheme.secp256k1.isSecret (Bytes.zeros 31 ++ [1]) = true := by decide
  have hnetwork : smallTransfer.network ∈ Network.presets := List.mem_cons_self
  have hfigures : (Datum.text (Hex.plain (Bytes.zeros 31 ++ [1]))).toBytes = .ok (Bytes.zeros 31 ++ [1]) := rfl
  have hlibrary : ∀ secret, SignatureScheme.secp256k1.publicKey secret = CurveLibrary.secp256k1.publicKey secret :=
    fun _ => rfl
  have hpublic : IsCompressed (SignatureScheme.secp256k1.publicKey (Bytes.zeros 31 ++ [1])) := by
    rw [hlibrary]
    exact ⟨CurveLibrary.length_publicKey_secp256k1 _, .inl (by decide +kernel)⟩
  have hcompressed : ∀ signer, Signer.ofKey .secp256k1 (.bytes (Bytes.zeros 31 ++ [1])) = .ok signer →
      IsCompressed signer.publicKey := by
    intro signer hsigner
    rw [← Except.ok.inj ((Signer.ofKey_bytes hsecret rfl).symm.trans hsigner)]
    dsimp only
    exact hpublic
  have hsettings : (configOf [] ⟨smallTransfer.settings, [], []⟩).toOption.isSome = true := by decide +kernel
  cases hconfig : configOf [] ⟨smallTransfer.settings, [], []⟩ with
  | error fault =>
    rw [hconfig] at hsettings
    cases hsettings
  | ok config =>
    rcases ways_agree hnetwork (fun _ => by rw [hfigures]; rfl) hcompressed hconfig with ⟨b, h⟩ | ⟨⟨fault, h⟩, -⟩
    · exact ⟨config, b, hnetwork, rfl, h⟩
    · obtain ⟨b, hb⟩ := exists_yields_smallTransfer
      cases h.symm.trans ((atOnce_eq_ok_iff hnetwork).mpr ⟨b, hb, rfl⟩)

end TransferTerms

end StacksWallet
