import StacksWallet.Config
import StacksWallet.Proofs.Outcome
import StacksWallet.Proofs.Text.Basic

/-!
# What a configuration keeps

A configuration is checked when it is made, and its URL loses the slashes at its end afterwards. What is left of a URL
may be the scheme alone, with nothing of what must follow it; such a configuration would not pass the check again. The
other fields are kept as they were given, and they are compared with zero only, which a NaN passes too. To make a
configuration again from its fields, the numbers are brought to their kinds first, and it is the same one if that keeps
each of them.
-/

namespace StacksWallet

namespace Config

/-- The schemes, each with its colon. -/
def schemes : List Text := ["http:", "https:"]

/-- A scheme with nothing behind the colon, in letters of either case. -/
def isBareScheme (t : Text) : Bool := schemes.contains t.toAsciiLower

/-- No other character has the slash for its small letter. -/
theorem toAsciiLower_eq_slash_iff {c : CodePoint} : c.toAsciiLower = 47 ↔ c = 47 := by
  have hslash : (47 : CodePoint).val = 47 := rfl
  rw [Fin.ext_iff, Fin.ext_iff, CodePoint.val_toAsciiLower, hslash]
  split <;> omega

/-- Small letters do not change where the slashes at the end begin. -/
theorem toAsciiLower_dropSlashes (t : Text) : (dropSlashes t).toAsciiLower = dropSlashes t.toAsciiLower := by
  have hslash : ((· == 47) ∘ CodePoint.toAsciiLower : CodePoint → Bool) = (· == 47) := by
    funext c
    exact Bool.eq_iff_iff.mpr (by simpa using toAsciiLower_eq_slash_iff)
  have hreverse : (t.map CodePoint.toAsciiLower).reverse = t.reverse.map CodePoint.toAsciiLower := List.map_reverse.symm
  rw [dropSlashes, dropSlashes, Text.dropEndWhile, Text.dropEndWhile, Text.toAsciiLower, Text.toAsciiLower, hreverse,
    List.dropWhile_map, hslash, List.map_reverse]

/-- Slashes are dropped once and for all. -/
theorem dropSlashes_dropSlashes (t : Text) : dropSlashes (dropSlashes t) = dropSlashes t :=
  List.rdropWhile_idempotent _ t

/-- The end of a text loses its slashes, and what stands before it does so only if nothing of it is left. -/
theorem dropSlashes_append (t u : Text) :
    dropSlashes (t ++ u) = if (dropSlashes u).isEmpty then dropSlashes t else t ++ dropSlashes u := by
  rw [dropSlashes, dropSlashes, dropSlashes, Text.dropEndWhile, Text.dropEndWhile, Text.dropEndWhile,
    List.reverse_append, List.dropWhile_append, List.isEmpty_reverse]
  split
  · rfl
  · rw [List.reverse_append, List.reverse_reverse]

/-- A URL begins with a scheme and two slashes behind it. -/
theorem hasScheme_iff {t : Text} : hasScheme t = true ↔ ∃ s ∈ schemes, s ++ [47, 47] <+: t.toAsciiLower := by
  have hhttp : Text.ofString "http://" = Text.ofString "http:" ++ [47, 47] := rfl
  have hhttps : Text.ofString "https://" = Text.ofString "https:" ++ [47, 47] := rfl
  simp only [hasScheme, schemes, Text.startsWith, Bool.or_eq_true, List.isPrefixOf_iff_prefix, hhttp, hhttps,
    List.mem_cons, List.not_mem_nil, or_false, exists_eq_or_imp, exists_eq_left]

/-- Without the slashes at its end, a URL is left with its scheme and more, or with its scheme alone. -/
theorem hasScheme_dropSlashes {t : Text} (h : hasScheme t = true) :
    hasScheme (dropSlashes t) = true ∨ isBareScheme (dropSlashes t) = true := by
  obtain ⟨s, hs, b, hb⟩ := hasScheme_iff.mp h
  have hself : ∀ s ∈ schemes, dropSlashes (s ++ [47, 47]) = s := by decide +kernel
  have hdrop : (dropSlashes t).toAsciiLower =
      if (dropSlashes b).isEmpty then s else s ++ [47, 47] ++ dropSlashes b := by
    rw [toAsciiLower_dropSlashes, ← hb, dropSlashes_append, hself s hs]
  split at hdrop
  · refine .inr ?_
    rw [isBareScheme, hdrop]
    exact List.contains_iff_mem.mpr hs
  · exact .inl (hasScheme_iff.mpr ⟨s, hs, dropSlashes b, hdrop.symm⟩)

/-- A scheme alone is none with slashes behind it. -/
theorem hasScheme_eq_false_of_bare {t : Text} (h : isBareScheme t = true) : hasScheme t = false := by
  have hall : ∀ s ∈ schemes, (schemes.all fun s' => !(s' ++ [47, 47]).isPrefixOf s) = true := by decide +kernel
  rw [isBareScheme, List.contains_iff_mem] at h
  refine Bool.eq_false_iff.mpr fun hscheme => ?_
  obtain ⟨s, hs, hprefix⟩ := hasScheme_iff.mp hscheme
  have hnone := List.all_eq_true.mp (hall _ h) s hs
  rw [List.isPrefixOf_iff_prefix.mpr hprefix] at hnone
  cases hnone

end Config

/-- Zero is a fraction with nothing above the line. -/
theorem Binary64.ratio_of_isZero {x : Binary64} (h : x.isZero = true) : x.ratio.1 = 0 := by
  have hmagnitude : x.magnitude = 0 := beq_iff_eq.mp h
  have hsignificand : x.significand = (0, -1074) := by
    rw [significand, hmagnitude]
    rfl
  rw [ratio, hsignificand]
  rfl

namespace Datum

/-- The number is zero or above. -/
def IsNonNegative : Datum → Prop
  | flag _ => True
  | integer n => 0 ≤ n
  | real x => x.isNaN = false ∧ (x.isZero = true ∨ x.isNegative = false)
  | _ => False

/-- The number is above zero. -/
def IsPositive : Datum → Prop
  | flag b => b = true
  | integer n => 0 < n
  | real x => x.isNaN = false ∧ x.isZero = false ∧ x.isNegative = false
  | _ => False

/-- The datum is a double-precision NaN. -/
def isNaN : Datum → Bool
  | real x => x.isNaN
  | _ => false

/-- The data are the same number, or they are the same. -/
def Equal (a b : Datum) : Prop := (∃ n, a.integral? = some n ∧ b.integral? = some n) ∨ a = b

variable {d : Datum} {x : Binary64} {n : Int}

/-- A number that is not below zero is zero or above, unless it is a NaN. -/
theorem isNonNegative_iff (h : d.isBelowZero = .ok false) : d.IsNonNegative ↔ d.isNaN = false := by
  cases d with
  | absent | text | bytes => cases h
  | flag b => exact ⟨fun _ => rfl, fun _ => trivial⟩
  | integer n =>
    have hn : 0 ≤ n := Int.not_lt.mp (of_decide_eq_false (Except.ok.inj h))
    exact ⟨fun _ => rfl, fun _ => hn⟩
  | real x =>
    have hx : (x.isNonPositive && !x.isZero) = false := Except.ok.inj h
    refine ⟨fun h => h.1, fun hnan => ⟨hnan, ?_⟩⟩
    have hnumber : x.isNaN = false := hnan
    rw [Binary64.isNonPositive, hnumber] at hx
    cases hzero : x.isZero <;> simp_all

/-- A number that is neither zero nor below is above, unless it is a NaN. -/
theorem isPositive_iff (h : d.isAtMostZero = .ok false) : d.IsPositive ↔ d.isNaN = false := by
  cases d with
  | absent | text | bytes => cases h
  | flag b =>
    cases b with
    | false => cases h
    | true => exact ⟨fun _ => rfl, fun _ => rfl⟩
  | integer n =>
    have hn : 0 < n := Int.not_le.mp (of_decide_eq_false (Except.ok.inj h))
    exact ⟨fun _ => rfl, fun _ => hn⟩
  | real x =>
    have hx : x.isNonPositive = false := Except.ok.inj h
    refine ⟨fun h => h.1, fun hnan => ?_⟩
    have hnumber : x.isNaN = false := hnan
    rw [Binary64.isNonPositive, hnumber, Bool.not_false, Bool.and_true, Bool.or_eq_false_iff] at hx
    exact ⟨hnan, hx⟩

/-- An integral number is not above zero if it is zero or below as a double-precision number. -/
theorem integral_nonpos (hx : x.isNonPositive = true) (hn : (real x).integral? = some n) : n ≤ 0 := by
  rw [integral?] at hn
  split at hn
  · cases hn
  · dsimp only at hn
    split at hn
    · obtain rfl := Option.some.inj hn
      rw [Binary64.isNonPositive, Bool.or_eq_true] at hx
      rcases hx with hzero | hnegative
      · rw [Binary64.ratio_of_isZero hzero, Nat.zero_div]
        split <;> decide
      · rw [if_pos (Bool.and_eq_true_iff.mp hnegative).1]
        exact Int.neg_nonpos_of_nonneg (Int.natCast_nonneg _)
    · cases hn

/-- The whole part of a number that is not below zero is not below zero. -/
theorem truncate_nonneg (h : d.isBelowZero = .ok false) (hn : d.truncate = .ok n) : 0 ≤ n := by
  cases d with
  | absent | text | bytes => cases h
  | flag b =>
    obtain rfl := Except.ok.inj hn
    cases b <;> decide
  | integer m =>
    obtain rfl := Except.ok.inj hn
    exact Int.not_lt.mp (of_decide_eq_false (Except.ok.inj h))
  | real x =>
    have hx : (x.isNonPositive && !x.isZero) = false := Except.ok.inj h
    rw [truncate] at hn
    split at hn
    · cases hn
    · rename_i hnumber
      split at hn
      · cases hn
      · obtain rfl := Except.ok.inj hn
        cases hzero : x.isZero with
        | true =>
          rw [Binary64.ratio_of_isZero hzero, Nat.zero_div]
          split <;> decide
        | false =>
          have hpositive : x.isNegative = false := by
            rw [Binary64.isNonPositive, hzero, Bool.eq_false_iff.mpr hnumber] at hx
            simpa using hx
          rw [hpositive]
          exact Int.natCast_nonneg _

/-- A number that is kept as a double-precision number is neither zero nor below if it was not before. -/
theorem isAtMostZero_real (h : d.isAtMostZero = .ok false) (hx : d.toReal = .ok x) (hkept : Equal (.real x) d) :
    (Datum.real x).isAtMostZero = .ok false := by
  cases d with
  | absent | text | bytes => cases h
  | flag b =>
    have hone : (Binary64.ofInt 1).isNonPositive = false := by decide +kernel
    obtain rfl := Except.ok.inj hx
    cases b with
    | false => cases h
    | true => exact congrArg _ hone
  | integer n =>
    have hn : 0 < n := Int.not_le.mp (of_decide_eq_false (Except.ok.inj h))
    rcases hkept with ⟨m, hm, hsame⟩ | hsame
    · obtain rfl := Option.some.inj hsame
      refine congrArg _ (Bool.eq_false_iff.mpr fun hlow => ?_)
      exact absurd (integral_nonpos hlow hm) (Int.not_le.mpr hn)
    · cases hsame
  | real y =>
    obtain rfl := Except.ok.inj hx
    exact h

end Datum

namespace Config

variable {c : Config}

/-- The configurations that are made: from fields, from the environment, and from others with some fields replaced. -/
inductive Made : Config → Prop where
  /-- From fields. -/
  | ofFields {fields : List (Text × Datum)} {c : Config} (h : Config.ofFields fields = .ok c) : Made c
  /-- From the environment. -/
  | ofEnvironment {environment : Environment} {start : Text} {c : Config}
      (h : Config.ofEnvironment environment start = .ok c) : Made c
  /-- From another one. -/
  | withOverrides {base c : Config} {overrides : List (Text × Datum)} (hbase : Made base)
      (h : base.withOverrides overrides = .ok c) : Made c

/-- The URL is a scheme alone. -/
def HasBareUrl (c : Config) : Prop := ∃ t, c.apiUrl = .text t ∧ isBareScheme t = true

/-- The network is known, the URL is vacant or begins with a scheme, and the numbers are within their bounds. -/
structure Valid (c : Config) : Prop where
  network : ∃ n ∈ Network.presets, Network.ofName c.network = .ok n
  apiUrl : c.apiUrl.isVacant = true ∨ ∃ t, c.apiUrl = .text t ∧ hasScheme t = true
  retries : c.retries.IsNonNegative
  timeout : c.timeout.IsPositive

/-- Two configurations are equal, field by field. -/
structure Equal (a b : Config) : Prop where
  network : a.network = b.network
  apiUrl : a.apiUrl.Equal b.apiUrl
  timeout : a.timeout.Equal b.timeout
  retries : a.retries.Equal b.retries
  backoff : a.backoff.Equal b.backoff
  userAgent : a.userAgent.Equal b.userAgent

/-- The configuration that is made again from the fields of one. -/
def rebuilt (c : Config) : Except Fault Config := do ofFields (← c.fields)

/-- A configuration is made again from its fields, and is equal to what it was. -/
def Rebuilds (c : Config) : Prop := ∃ c', c.rebuilt = .ok c' ∧ c'.Equal c

/-- What is taken for a URL. -/
theorem urlOf_eq_ok_iff {d u : Datum} :
    urlOf d = .ok u ↔
      d.isVacant = true ∧ u = d ∨
        d.isVacant = false ∧ ∃ t, d = .text t ∧ hasScheme t = true ∧ u = .text (dropSlashes t) := by
  unfold urlOf
  split
  · rename_i hvacant
    refine ⟨fun h => .inl ⟨hvacant, (Except.ok.inj h).symm⟩, fun h => ?_⟩
    rcases h with ⟨-, rfl⟩ | ⟨hfull, -⟩
    · rfl
    · cases hvacant.symm.trans hfull
  · rename_i hvacant
    have hfull := Bool.eq_false_iff.mpr hvacant
    constructor
    · intro h
      split at h
      · obtain ⟨hscheme, rfl⟩ := Outcome.ite_eq_ok.mp h
        exact .inr ⟨hfull, _, rfl, hscheme, rfl⟩
      · cases h
    · intro h
      rcases h with ⟨h, -⟩ | ⟨-, t, rfl, hscheme, rfl⟩
      · exact absurd h hvacant
      · exact if_pos hscheme

/-- What is checked when a configuration is made. -/
theorem make_eq_ok_iff {network apiUrl timeout retries backoff userAgent : Datum} :
    make network apiUrl timeout retries backoff userAgent = .ok c ↔
      ∃ t n u, network = .text t ∧ Network.ofName t = .ok n ∧ urlOf apiUrl = .ok u ∧ retries.isBelowZero = .ok false ∧
        timeout.isAtMostZero = .ok false ∧ c = ⟨t, u, timeout, retries, backoff, userAgent⟩ := by
  constructor
  · intro h
    obtain ⟨name, hname, h⟩ := Outcome.bind_eq_ok.mp h
    obtain ⟨u, hu, h⟩ := Outcome.bind_eq_ok.mp h
    obtain ⟨fewer, hfewer, h⟩ := Outcome.bind_eq_ok.mp h
    obtain ⟨hretries, h⟩ := Outcome.guard_eq_ok.mp h
    obtain ⟨shorter, hshorter, h⟩ := Outcome.bind_eq_ok.mp h
    obtain ⟨htimeout, h⟩ := Outcome.guard_eq_ok.mp h
    obtain rfl := Bool.eq_false_iff.mpr hretries
    obtain rfl := Bool.eq_false_iff.mpr htimeout
    obtain rfl := Except.ok.inj h
    cases network with
    | text t =>
      obtain ⟨n, hn, rfl⟩ := Outcome.map_eq_ok.mp hname
      exact ⟨_, n, u, rfl, hn, hu, hfewer, hshorter, rfl⟩
    | absent | flag | integer | real | bytes => cases hname
  · intro h
    obtain ⟨t, n, u, rfl, hn, hu, hretries, htimeout, rfl⟩ := h
    refine Outcome.bind_eq_ok.mpr ⟨t, Outcome.map_eq_ok.mpr ⟨n, hn, rfl⟩, Outcome.bind_eq_ok.mpr ⟨u, hu, ?_⟩⟩
    rw [hretries, htimeout]
    rfl

/-- What a configuration that was made has passed. -/
structure Stored (c : Config) : Prop where
  network : ∃ n, Network.ofName c.network = .ok n
  apiUrl : c.apiUrl.isVacant = true ∨ ∃ t, c.apiUrl = .text t ∧ dropSlashes t = t ∧
    (hasScheme t = true ∨ isBareScheme t = true)
  retries : c.retries.isBelowZero = .ok false
  timeout : c.timeout.isAtMostZero = .ok false

/-- What is made is stored so. -/
theorem stored_of_make {network apiUrl timeout retries backoff userAgent : Datum}
    (h : make network apiUrl timeout retries backoff userAgent = .ok c) : c.Stored := by
  obtain ⟨t, n, u, -, hn, hu, hretries, htimeout, rfl⟩ := make_eq_ok_iff.mp h
  refine ⟨⟨n, hn⟩, ?_, hretries, htimeout⟩
  rcases urlOf_eq_ok_iff.mp hu with ⟨hvacant, rfl⟩ | ⟨-, url, -, hscheme, rfl⟩
  · exact .inl hvacant
  · exact .inr ⟨_, rfl, dropSlashes_dropSlashes url, hasScheme_dropSlashes hscheme⟩

/-- Configurations are stored so, however they are made. -/
theorem Made.stored (h : Made c) : c.Stored := by
  have hfields {fields : List (Text × Datum)} {c : Config} (h : Config.ofFields fields = .ok c) : c.Stored :=
    stored_of_make (Outcome.guard_eq_ok.mp (Config.ofFields.eq_1 fields ▸ h)).2
  cases h with
  | ofFields h => exact hfields h
  | ofEnvironment h =>
    obtain ⟨timeout, -, h⟩ := Outcome.bind_eq_ok.mp h
    obtain ⟨retries, -, h⟩ := Outcome.bind_eq_ok.mp h
    obtain ⟨backoff, -, h⟩ := Outcome.bind_eq_ok.mp h
    exact stored_of_make h
  | withOverrides hbase h =>
    obtain ⟨known, -, h⟩ := Outcome.bind_eq_ok.mp h
    exact hfields h

/-- A configuration without replacements is made again from its fields. -/
theorem withOverrides_nil (c : Config) : c.withOverrides [] = c.rebuilt := by
  refine congrArg (c.fields >>= ·) (funext fun known => congrArg ofFields ?_)
  exact List.map_id' known

/-- A configuration is made again from its fields with the numbers brought to their kinds. -/
theorem rebuilt_eq_ok_iff {c' : Config} :
    c.rebuilt = .ok c' ↔
      ∃ x n y, c.timeout.toReal = .ok x ∧ c.retries.truncate = .ok n ∧ c.backoff.toReal = .ok y ∧
        make (.text c.network) c.apiUrl (.real x) (.integer n) (.real y) c.userAgent = .ok c' := by
  constructor
  · intro h
    obtain ⟨known, hknown, h⟩ := Outcome.bind_eq_ok.mp h
    obtain ⟨x, hx, hknown⟩ := Outcome.bind_eq_ok.mp hknown
    obtain ⟨n, hn, hknown⟩ := Outcome.bind_eq_ok.mp hknown
    obtain ⟨y, hy, hknown⟩ := Outcome.bind_eq_ok.mp hknown
    obtain rfl := Except.ok.inj hknown
    exact ⟨x, n, y, hx, hn, hy, h⟩
  · intro h
    obtain ⟨x, n, y, hx, hn, hy, h⟩ := h
    rw [rebuilt, fields, hx, hn, hy]
    exact h

/-- A network with a name is among the known ones. -/
theorem mem_presets_of_ofName {t : Text} {n : Network} (h : Network.ofName t = .ok n) : n ∈ Network.presets := by
  rw [Network.ofName] at h
  split at h
  · rename_i found hfound
    obtain rfl := Except.ok.inj h
    exact List.mem_of_find?_eq_some hfound
  · cases h

/-- A scheme alone is no vacant URL, and none that begins with a scheme. -/
theorem HasBareUrl.refused (h : c.HasBareUrl) :
    c.apiUrl.isVacant = false ∧ ∀ t, c.apiUrl = .text t → hasScheme t = false := by
  obtain ⟨t, ht, hbare⟩ := h
  rw [ht]
  refine ⟨?_, fun t' ht' => Datum.text.inj ht' ▸ hasScheme_eq_false_of_bare hbare⟩
  cases t with
  | nil => cases hbare
  | cons => rfl

/-- A URL that is stored is vacant or begins with a scheme, unless it is a scheme alone. -/
theorem Stored.url_iff (h : c.Stored) :
    (c.apiUrl.isVacant = true ∨ ∃ t, c.apiUrl = .text t ∧ hasScheme t = true) ↔ ¬ c.HasBareUrl := by
  constructor
  · intro hurl hbare
    obtain ⟨hfull, hnone⟩ := hbare.refused
    rcases hurl with hvacant | ⟨t, ht, hscheme⟩
    · cases hfull.symm.trans hvacant
    · cases (hnone t ht).symm.trans hscheme
  · intro hmore
    refine h.apiUrl.imp_right fun ⟨t, ht, _, hscheme⟩ => ⟨t, ht, ?_⟩
    exact hscheme.resolve_right fun hbare => hmore ⟨t, ht, hbare⟩

/-- It is taken again as it is, unless it is a scheme alone. -/
theorem Stored.urlOf_iff (h : c.Stored) {u : Datum} : urlOf c.apiUrl = .ok u ↔ ¬ c.HasBareUrl ∧ u = c.apiUrl := by
  rw [urlOf_eq_ok_iff]
  constructor
  · intro hu
    rcases hu with ⟨hvacant, rfl⟩ | ⟨hfull, t, ht, hscheme, rfl⟩
    · exact ⟨h.url_iff.mp (.inl hvacant), rfl⟩
    · refine ⟨h.url_iff.mp (.inr ⟨t, ht, hscheme⟩), ?_⟩
      rcases h.apiUrl with hvacant | ⟨t', ht', hdrop, -⟩
      · cases hfull.symm.trans hvacant
      · obtain rfl := Datum.text.inj (ht.symm.trans ht')
        rw [hdrop, ht]
  · intro hu
    obtain ⟨hmore, rfl⟩ := hu
    cases hvacant : c.apiUrl.isVacant with
    | true => exact .inl ⟨rfl, rfl⟩
    | false =>
      rcases h.apiUrl with hvacant' | ⟨t, ht, hdrop, hscheme⟩
      · cases hvacant.symm.trans hvacant'
      · refine .inr ⟨rfl, t, ht, hscheme.resolve_right fun hbare => hmore ⟨t, ht, hbare⟩, ?_⟩
        rw [hdrop, ht]

/-- A configuration that is stored is valid unless its URL is a scheme alone or a number is a NaN. -/
theorem Stored.valid_iff (h : c.Stored) :
    c.Valid ↔ ¬ c.HasBareUrl ∧ c.retries.isNaN = false ∧ c.timeout.isNaN = false := by
  rw [← h.url_iff, ← Datum.isNonNegative_iff h.retries, ← Datum.isPositive_iff h.timeout]
  constructor
  · intro hvalid
    exact ⟨hvalid.apiUrl, hvalid.retries, hvalid.timeout⟩
  · intro hfields
    obtain ⟨hurl, hretries, htimeout⟩ := hfields
    obtain ⟨n, hn⟩ := h.network
    exact ⟨⟨n, mem_presets_of_ofName hn, hn⟩, hurl, hretries, htimeout⟩

/-- It is the same one when it is made again, unless its URL is a scheme alone or a number is not kept. -/
theorem Stored.rebuilds_iff (h : c.Stored) :
    c.Rebuilds ↔ ¬ c.HasBareUrl ∧ (∃ x, c.timeout.toReal = .ok x ∧ Datum.Equal (.real x) c.timeout) ∧
      (∃ n, c.retries.truncate = .ok n ∧ Datum.Equal (.integer n) c.retries) ∧
      ∃ y, c.backoff.toReal = .ok y ∧ Datum.Equal (.real y) c.backoff := by
  constructor
  · intro hrebuilds
    obtain ⟨c', hc', hequal⟩ := hrebuilds
    obtain ⟨x, n, y, hx, hn, hy, hmake⟩ := rebuilt_eq_ok_iff.mp hc'
    obtain ⟨_, _, u, _, _, hu, _, _, rfl⟩ := make_eq_ok_iff.mp hmake
    exact ⟨(h.urlOf_iff.mp hu).1, ⟨x, hx, hequal.timeout⟩, ⟨n, hn, hequal.retries⟩, y, hy, hequal.backoff⟩
  · intro hkept
    obtain ⟨hmore, ⟨x, hx, htimeout⟩, ⟨n, hn, hretries⟩, y, hy, hbackoff⟩ := hkept
    obtain ⟨network, hnetwork⟩ := h.network
    have hcount : (Datum.integer n).isBelowZero = .ok false :=
      congrArg _ (decide_eq_false (Int.not_lt.mpr (Datum.truncate_nonneg h.retries hn)))
    have hmake : make (.text c.network) c.apiUrl (.real x) (.integer n) (.real y) c.userAgent =
        .ok ⟨c.network, c.apiUrl, .real x, .integer n, .real y, c.userAgent⟩ :=
      make_eq_ok_iff.mpr ⟨c.network, network, c.apiUrl, rfl, hnetwork, h.urlOf_iff.mpr ⟨hmore, rfl⟩, hcount,
        Datum.isAtMostZero_real h.timeout hx htimeout, rfl⟩
    exact ⟨_, rebuilt_eq_ok_iff.mpr ⟨x, n, y, hx, hn, hy, hmake⟩, rfl, .inr rfl, htimeout, hretries, hbackoff, .inr rfl⟩

/-- The numbers are of the kinds that they are brought to. -/
def HasKinds (c : Config) : Prop := ∃ x n y, c.timeout = .real x ∧ c.retries = .integer n ∧ c.backoff = .real y

/-- The environment gives numbers of these kinds. -/
theorem hasKinds_of_ofEnvironment {environment : Environment} {start : Text}
    (h : ofEnvironment environment start = .ok c) : c.HasKinds := by
  obtain ⟨x, -, h⟩ := Outcome.bind_eq_ok.mp h
  obtain ⟨n, -, h⟩ := Outcome.bind_eq_ok.mp h
  obtain ⟨y, -, h⟩ := Outcome.bind_eq_ok.mp h
  obtain ⟨_, _, _, -, -, -, -, -, rfl⟩ := make_eq_ok_iff.mp h
  exact ⟨x, n, y, rfl, rfl, rfl⟩

/-- Numbers of these kinds are kept. -/
theorem Stored.rebuilds_iff_of_hasKinds (h : c.Stored) (hkinds : c.HasKinds) : c.Rebuilds ↔ ¬ c.HasBareUrl := by
  obtain ⟨x, n, y, hx, hn, hy⟩ := hkinds
  rw [h.rebuilds_iff, hx, hn, hy]
  exact and_iff_left ⟨⟨x, rfl, .inr rfl⟩, ⟨n, rfl, .inr rfl⟩, y, rfl, .inr rfl⟩

/-- A configuration that was made is valid exactly if its URL is not a scheme alone, and neither the number of retries
nor the timeout is a NaN. Made again from its fields, it is the same one exactly if its URL is not a scheme alone, and
the kinds that the numbers are brought to keep each of them, as they do with numbers of these kinds. This is also what
comes of replacing none of its fields. -/
theorem valid_and_rebuilds_iff (h : c.Made) :
    (c.Valid ↔ ¬ c.HasBareUrl ∧ c.retries.isNaN = false ∧ c.timeout.isNaN = false) ∧
      (c.Rebuilds ↔ ¬ c.HasBareUrl ∧ (∃ x, c.timeout.toReal = .ok x ∧ Datum.Equal (.real x) c.timeout) ∧
        (∃ n, c.retries.truncate = .ok n ∧ Datum.Equal (.integer n) c.retries) ∧
        ∃ y, c.backoff.toReal = .ok y ∧ Datum.Equal (.real y) c.backoff) ∧
      (c.HasKinds → (c.Rebuilds ↔ ¬ c.HasBareUrl)) ∧ c.withOverrides [] = c.rebuilt :=
  ⟨h.stored.valid_iff, h.stored.rebuilds_iff, h.stored.rebuilds_iff_of_hasKinds, withOverrides_nil c⟩

/-- Variables that name a node by a URL with a slash at its end, and that say how patient the client is. -/
def patientEnvironment : Environment :=
  [("STACKS_NETWORK", "testnet"), ("STACKS_API_URL", "https://node.test/"), ("STACKS_TIMEOUT", "2.5"),
    ("STACKS_MAX_RETRIES", "7"), ("STACKS_BACKOFF", "1.25")]

/-- What these variables describe. -/
def patientConfig : Config where
  network := "testnet"
  apiUrl := .text "https://node.test"
  timeout := .real (Binary64.ofRatio false 25 10)
  retries := .integer 7
  backoff := .real (Binary64.ofRatio false 125 100)
  userAgent := .text defaultUserAgent

/-- What these variables describe is valid, and it is the same one when it is made again. -/
theorem valid_and_rebuilds_iff_patientConfig :
    ofEnvironment patientEnvironment "STACKS_" = .ok patientConfig ∧ patientConfig.Made ∧ patientConfig.Valid ∧
      patientConfig.Rebuilds := by
  have hread : (ofEnvironment patientEnvironment "STACKS_").toOption = some patientConfig := by decide +kernel
  have hmake := Outcome.toOption_eq_some_iff.mp hread
  have hmade : patientConfig.Made := .ofEnvironment hmake
  have hmore : ¬ patientConfig.HasBareUrl := by
    intro h
    obtain ⟨_, h, hbare⟩ := h
    obtain rfl := Datum.text.inj h
    exact absurd hbare (by decide)
  have htimeout : patientConfig.timeout.isNaN = false := by decide +kernel
  obtain ⟨hvalid, -, hrebuilds, -⟩ := valid_and_rebuilds_iff hmade
  exact ⟨hmake, hmade, hvalid.mpr ⟨hmore, rfl, htimeout⟩, (hrebuilds (hasKinds_of_ofEnvironment hmake)).mpr hmore⟩

/-- A configuration with a URL and with defaults otherwise. -/
def withUrl (d : Datum) : Config where
  network := "mainnet"
  apiUrl := d
  timeout := .real defaultTimeout
  retries := .integer 3
  backoff := .real defaultBackoff
  userAgent := .text defaultUserAgent

/-- The defaults pass the check. -/
theorem ofFields_url {d u : Datum} (h : urlOf d = .ok u) : ofFields [("api_url", d)] = .ok (withUrl u) := by
  have htimeout : (Datum.real defaultTimeout).isAtMostZero = .ok false :=
    congrArg _ (by decide +kernel : defaultTimeout.isNonPositive = false)
  exact make_eq_ok_iff.mpr ⟨"mainnet", .mainnet, u, rfl, rfl, h, rfl, htimeout, rfl⟩

/-- A URL of nothing but a scheme and slashes is stored as the scheme alone, which is not taken again; and a timeout
that is a NaN is taken from the environment. -/
theorem bareUrl_not_rebuilds :
    (ofFields [("api_url", .text "http://")] = .ok (withUrl (.text "http:")) ∧
      ¬ (withUrl (.text "http:")).Valid ∧ ¬ (withUrl (.text "http:")).Rebuilds) ∧
      ∃ c, ofEnvironment [("STACKS_TIMEOUT", "nan")] "STACKS_" = .ok c ∧ ¬ c.Valid := by
  have hfields := ofFields_url (d := .text "http://") (u := .text "http:") rfl
  have hstored := (Made.ofFields hfields).stored
  have hbare : (withUrl (.text "http:")).HasBareUrl := ⟨"http:", rfl, by decide⟩
  refine ⟨⟨hfields, fun h => (hstored.valid_iff.mp h).1 hbare, fun h => (hstored.rebuilds_iff.mp h).1 hbare⟩, ?_⟩
  have hnan : (ofEnvironment [("STACKS_TIMEOUT", "nan")] "STACKS_").toOption.map (·.timeout.isNaN) = some true := by
    decide +kernel
  obtain ⟨c, hc, hnan⟩ := Option.map_eq_some_iff.mp hnan
  have hmade := Outcome.toOption_eq_some_iff.mp hc
  refine ⟨c, hmade, fun h => ?_⟩
  cases ((Made.ofEnvironment hmade).stored.valid_iff.mp h).2.2.symm.trans hnan

end Config

end StacksWallet
