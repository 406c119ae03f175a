import StacksWallet.CommandLine.Command
import StacksWallet.Proofs.Outcome

/-!
# Reading a command line

Options that are given as their names, each followed by its value, are read with these values, whatever the values look
like. The network that is named in front of a command is the one that its configuration leads to, with a node of its
own or with another one.
-/

namespace StacksWallet

namespace Config

/-- A configuration has the name of the network that it was made with. -/
theorem network_of_make {t : Text} {apiUrl timeout retries backoff userAgent : Datum} {c : Config}
    (h : make (.text t) apiUrl timeout retries backoff userAgent = .ok c) : c.network = t := by
  obtain ⟨name, hname, h⟩ := Outcome.bind_eq_ok.mp h
  obtain ⟨_, -, rfl⟩ := Outcome.map_eq_ok.mp hname
  obtain ⟨url, -, h⟩ := Outcome.bind_eq_ok.mp h
  obtain ⟨fewer, -, h⟩ := Outcome.bind_eq_ok.mp h
  obtain ⟨-, h⟩ := Outcome.guard_eq_ok.mp h
  obtain ⟨shorter, -, h⟩ := Outcome.bind_eq_ok.mp h
  obtain ⟨-, h⟩ := Outcome.guard_eq_ok.mp h
  obtain rfl := Except.ok.inj h
  rfl

/-- So has a configuration that is made of fields by name. -/
theorem network_of_ofFields {fields : List (Text × Datum)} {t : Text} {c : Config}
    (hlookup : fields.lookup (Text.ofString "network") = some (.text t)) (h : ofFields fields = .ok c) :
    c.network = t := by
  rw [ofFields] at h
  obtain ⟨-, h⟩ := Outcome.guard_eq_ok.mp h
  dsimp only at h
  rw [hlookup] at h
  exact network_of_make h

/-- The network that overrides another one is the one that is meant. -/
theorem network_of_withOverrides {base c : Config} {t : Text} {overrides : List (Text × Datum)}
    (hlookup : overrides.lookup (Text.ofString "network") = some (.text t))
    (h : base.withOverrides overrides = .ok c) : c.network = t := by
  obtain ⟨known, hknown, h⟩ := Outcome.bind_eq_ok.mp h
  obtain ⟨timeout, -, hknown⟩ := Outcome.bind_eq_ok.mp hknown
  obtain ⟨retries, -, hknown⟩ := Outcome.bind_eq_ok.mp hknown
  obtain ⟨backoff, -, hknown⟩ := Outcome.bind_eq_ok.mp hknown
  obtain rfl := Except.ok.inj hknown
  refine network_of_ofFields ?_ h
  rw [List.map_cons]
  dsimp only
  rw [hlookup]
  exact List.lookup_cons_self

/-- A configuration with the name of a known network leads to its version and its chain. -/
theorem exists_networkOf {c : Config} {network : Network} (hnetwork : network ∈ Network.presets)
    (hname : c.network = network.name) :
    ∃ n, c.networkOf = .ok n ∧ n.version = network.version ∧ n.chainId = network.chainId := by
  have hfound : Network.ofName c.network = .ok network := by
    rw [hname]
    simp only [Network.presets, List.mem_cons, List.not_mem_nil, or_false] at hnetwork
    obtain rfl | rfl | rfl := hnetwork <;> rfl
  rw [networkOf, hfound]
  cases c.apiUrl with
  | text url =>
    refine ⟨network.withApiUrl url, rfl, ?_⟩
    rw [Network.withApiUrl]
    split
    · exact ⟨rfl, rfl⟩
    · exact ⟨rfl, rfl⟩
  | _ => exact ⟨network, rfl, rfl, rfl⟩

end Config

namespace CommandLine

/-- The grammar takes the argument behind a name as the value of that option. -/
def Grammar.takes (g : Grammar) (name : Text) : Bool :=
  name != "--" && isOption name && (Text.cut? "=" name).isNone && !isAmong name g.switches && isAmong name g.valued

/-- An option is read with the argument behind it. -/
theorem Grammar.read_option {g : Grammar} {name : Text} (h : g.takes name = true) (value : Text) (rest : List Text) :
    g.read (name :: value :: rest) = (g.read rest).map (·.afterValue name value) := by
  simp only [takes, Bool.and_eq_true, bne_iff_ne, Option.isNone_iff_eq_none, Bool.not_eq_true'] at h
  obtain ⟨⟨⟨⟨hname, hoption⟩, hcut⟩, hswitch⟩, hvalued⟩ := h
  rw [read, if_neg hname, if_pos hoption, hcut]
  dsimp only
  rw [hswitch, hvalued]
  rfl

/-- Options as arguments, each name with its value behind it. -/
def optionArguments (options : List (Text × Text)) : List Text := options.flatMap fun o => [o.1, o.2]

/-- Options are read with their values. -/
theorem Grammar.read_options {g : Grammar} {options : List (Text × Text)} (h : ∀ o ∈ options, g.takes o.1 = true)
    (rest : List Text) :
    g.read (optionArguments options ++ rest) =
      (g.read rest).map fun a => { a with values := options ++ a.values } := by
  induction options with
  | nil => cases h : g.read rest <;> simp [optionArguments, h]
  | cons o options ih =>
    obtain ⟨name, value⟩ := o
    obtain ⟨ho, hoptions⟩ := List.forall_mem_cons.mp h
    change g.read (name :: value :: (optionArguments options ++ rest)) = _
    rw [Grammar.read_option ho, ih hoptions]
    cases g.read rest <;> rfl

/-- What follows the settings begins with the name of a command. -/
theorem read?_of_options {environment : Environment} {settings : List (Text × Text)} {name : Text} {rest : List Text}
    (h : ∀ o ∈ settings, settingsGrammar.takes o.1 = true) (hname : isOption name = false) (hdashes : name ≠ "--")
    {config : Config} (hconfig : configOf environment ⟨settings, [], []⟩ = .ok config) :
    Invocation.read? environment (optionArguments settings ++ name :: rest) =
      Invocation.ofRest? environment config name rest := by
  have hoperands : settingsGrammar.read (name :: rest) = some (.ofOperands (name :: rest)) := by
    rw [Grammar.read.eq_def]
    dsimp only
    rw [if_neg hdashes, hname]
    rfl
  have hread : settingsGrammar.read (optionArguments settings ++ name :: rest) =
      some ⟨settings, [], name :: rest⟩ := by
    rw [Grammar.read_options h, hoperands]
    simp [Arguments.ofOperands]
  rw [Invocation.read?, hread]
  -- The configuration does not depend on what follows the settings.
  change (do Invocation.ofRest? environment (← (configOf environment ⟨settings, [], []⟩).toOption) name rest) = _
  rw [hconfig]
  rfl

/-- The configuration has the network that an option names. -/
theorem network_of_configOf {environment : Environment} {a : Arguments} {config : Config} {t : Text}
    (hvalue : a.value? "--network" = some t) (h : configOf environment a = .ok config) : config.network = t := by
  obtain ⟨timeout, -, h⟩ := Outcome.bind_eq_ok.mp h
  obtain ⟨base, -, h⟩ := Outcome.bind_eq_ok.mp h
  refine Config.network_of_withOverrides ?_ h
  dsimp only
  rw [List.lookup_cons_self, hvalue]
  rfl

end CommandLine

end StacksWallet
