import StacksWallet.Proofs.Clarity.RoundTrip

/-!
# Values that can be written

Two things keep a value from the wire: a count or the size of a string that does not fit into four bytes, and a
principal whose version is not a whole number. Both are looked at part by part, and the order of tuple fields makes
no difference to them.

A version is whole if it was given as an integer. The constructors check its range and keep it as it is: those of
principals take numbers with a fraction too, possibly zero, and that of addresses also takes numerals.
-/

namespace StacksWallet

/-- The version is a whole number, which has a byte. -/
def Version.Whole (v : Version) : Prop := ∃ n, v = .whole n

/-- A version with a fraction, possibly zero, is not whole. -/
theorem Version.not_whole_real (x : Binary64) : ¬ (real x).Whole := by
  intro h
  obtain ⟨_, h⟩ := h
  cases h

/-- The version that an address takes is whole if it was given as an integer. -/
theorem Version.whole_iff_of_ofDatum {d : Datum} {v : Version} (h : Version.ofDatum d = .ok v) :
    v.Whole ↔ ∃ n, Wire.whole? d = some n := by
  obtain ⟨n, htruncate, h⟩ := Outcome.bind_eq_ok.mp h
  cases hn : below? 32 n with
  | none =>
    rw [hn] at h
    cases h
  | some k =>
    rw [hn] at h
    cases d with
    | real | text | bytes =>
      obtain rfl := Except.ok.inj h
      exact ⟨nofun, nofun⟩
    | integer | flag =>
      obtain rfl := Except.ok.inj h
      exact ⟨fun _ => ⟨_, rfl⟩, fun _ => ⟨k, rfl⟩⟩
    | absent => cases htruncate

/-- An address has a whole version if it was given an integer. -/
theorem Address.whole_iff_of_make {version : Datum} {hash : Bytes} {a : Address} (h : make version hash = .ok a) :
    a.version.Whole ↔ ∃ n, Wire.whole? version = some n := by
  obtain ⟨v, hv, h⟩ := Outcome.bind_eq_ok.mp h
  split at h
  · obtain rfl := Except.ok.inj h
    exact Version.whole_iff_of_ofDatum hv
  · cases h

/-- The version that a principal takes is whole unless it was given with a fraction. -/
theorem Principal.whole_iff_of_versionOf {d : Datum} {v : Version} (h : versionOf d = .ok v) :
    v.Whole ↔ ∀ x, d ≠ .real x := by
  unfold versionOf at h
  split at h
  · rename_i x
    obtain ⟨-, rfl⟩ := Outcome.ite_eq_ok.mp h
    exact ⟨fun hwhole => absurd hwhole (Version.not_whole_real x), fun hreal => absurd rfl (hreal x)⟩
  · rename_i hreal
    refine ⟨fun _ => hreal, fun _ => ?_⟩
    split at h
    · cases h
    · split at h
      · obtain rfl := Except.ok.inj h
        exact ⟨_, rfl⟩
      · cases h

/-- An account, with or without a contract, has a whole version unless it was given one with a fraction. -/
theorem Principal.whole_iff_of_accountOf {version hash : Datum} {a : Address} (h : accountOf version hash = .ok a) :
    a.version.Whole ↔ ∀ x, version ≠ .real x := by
  obtain ⟨v, hv, h⟩ := Outcome.bind_eq_ok.mp h
  split at h
  · split at h
    · obtain rfl := Except.ok.inj h
      exact whole_iff_of_versionOf hv
    · cases h
  · cases h

namespace Value

mutual

/-- The value and the values in it, on every level. -/
def parts : Value → List Value
  | some v => some v :: parts v
  | ok v => ok v :: parts v
  | err v => err v :: parts v
  | list items => list items :: itemsParts items
  | tuple fields => tuple fields :: fieldsParts fields
  | v => [v]

/-- Several values and the values in them. -/
def itemsParts : List Value → List Value
  | [] => []
  | v :: rest => parts v ++ itemsParts rest

/-- The values of several fields and the values in them. -/
def fieldsParts : List (Name × Value) → List Value
  | [] => []
  | (_, v) :: rest => parts v ++ fieldsParts rest

end

/-- The parts of several values are those of each of them. -/
theorem forall_itemsParts {P : Value → Prop} {items : List Value} :
    (∀ w ∈ itemsParts items, P w) ↔ ∀ v ∈ items, ∀ w ∈ v.parts, P w := by
  induction items with
  | nil => simp [itemsParts]
  | cons v rest ih => rw [itemsParts, List.forall_mem_append, ih, List.forall_mem_cons]

/-- The parts of several fields are those of each of their values. -/
theorem forall_fieldsParts {P : Value → Prop} {fields : List (Name × Value)} :
    (∀ w ∈ fieldsParts fields, P w) ↔ ∀ f ∈ fields, ∀ w ∈ f.2.parts, P w := by
  induction fields with
  | nil => simp [fieldsParts]
  | cons f rest ih => rw [fieldsParts, List.forall_mem_append, ih, List.forall_mem_cons]

/-- What a value counts in four bytes: the bytes of a string, the items of a list or the fields of a tuple. -/
def extent : Value → Nat
  | ascii t => t.val.length
  | utf8 t => (Utf8.bytes t.val).length
  | list items => items.length
  | tuple fields => fields.length
  | _ => 0

/-- All counts and sizes of strings in the value fit into four bytes. -/
def Bounded (v : Value) : Prop := ∀ w ∈ v.parts, w.extent < wordCount 4

/-- All principals in the value have a whole version. -/
def Versioned (v : Value) : Prop := ∀ p, principal p ∈ v.parts → p.account.version.Whole

/-- A value has no flaw if each of its parts counts in four bytes and has a whole version as far as it has one. -/
theorem flaw?_eq_none_iff {v : Value} : v.flaw? = Option.none ↔
    ∀ w ∈ v.parts, w.extent < wordCount 4 ∧ ∀ p, principal p = w → p.account.version.Whole := by
  induction v with
  | int | uint | bool | none => simp [flaw?, parts, extent, wordCount]
  | buffer b => simp [flaw?_buffer, parts, extent, wordCount]
  | ascii t => simp [flaw?, parts, extent, sizeFlaw?_eq_none_iff]
  | utf8 t => simp [flaw?, parts, extent, sizeFlaw?_eq_none_iff]
  | principal p => simp [flaw?, parts, extent, wordCount, Principal.flaw?_eq_none_iff, Version.Whole]
  | some v ih => simp [flaw?, parts, extent, wordCount, ih]
  | ok v ih => simp [flaw?, parts, extent, wordCount, ih]
  | err v ih => simp [flaw?, parts, extent, wordCount, ih]
  | list items ih =>
    rw [flaw?, Option.or_eq_none_iff, sizeFlaw?_eq_none_iff, itemsFlaw?_eq_none_iff, parts, List.forall_mem_cons,
      forall_itemsParts, forall₂_congr ih]
    simp [extent]
  | tuple fields ih =>
    rw [flaw?, Option.or_eq_none_iff, sizeFlaw?_eq_none_iff, fieldsFlaw?_eq_none_iff, parts, List.forall_mem_cons,
      forall_fieldsParts, forall₂_congr ih]
    simp [extent]

/-- The order of tuple fields makes no difference to what keeps a value from the wire. -/
theorem canonical_flaw?_eq_none_iff {v : Value} : v.canonical.flaw? = Option.none ↔ v.flaw? = Option.none := by
  induction v with
  | int | uint | bool | buffer | ascii | utf8 | principal | none => rfl
  | some v ih => exact ih
  | ok v ih => exact ih
  | err v ih => exact ih
  | list items ih =>
    rw [canonical, canonicalItems_eq, flaw?, flaw?, Option.or_eq_none_iff, Option.or_eq_none_iff, List.length_map,
      itemsFlaw?_eq_none_iff, itemsFlaw?_eq_none_iff, List.forall_mem_map, forall₂_congr ih]
  | tuple fields ih =>
    have hperm := sortFields_perm (fields.map fun f => (f.1, f.2.canonical))
    rw [canonical, canonicalFields_eq, flaw?, flaw?, Option.or_eq_none_iff, Option.or_eq_none_iff, hperm.length_eq,
      List.length_map, fieldsFlaw?_eq_none_iff, fieldsFlaw?_eq_none_iff, forall_congr' fun f => by rw [hperm.mem_iff],
      List.forall_mem_map, forall₂_congr ih]

/-- A value can be written if and only if its counts and sizes fit into four bytes and its principals have whole
versions. -/
theorem exists_encode_iff {v : Value} : (∃ b, v.encode = .ok b) ↔ v.Bounded ∧ v.Versioned := by
  have hflaw : (∃ b, v.encode = .ok b) ↔ v.flaw? = Option.none := by
    simp [encode_eq_ok_iff, canonical_flaw?_eq_none_iff]
  rw [hflaw, flaw?_eq_none_iff]
  constructor
  · intro h
    exact ⟨fun w hw => (h w hw).1, fun p hp => (h _ hp).2 p rfl⟩
  · intro h w hw
    refine ⟨h.1 w hw, fun p hp => h.2 p ?_⟩
    rw [hp]
    exact hw

end Value

end StacksWallet
