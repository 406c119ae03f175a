import StacksWallet.Proofs.Clarity.Encodable

/-!
# The order of tuple fields on the wire

Different names have one order, so fields are sorted into the same sequence wherever they stood before. Moving the
fields of tuples, at any level, changes neither the canonical form of a value nor, with it, what the value equals and
is written as. The bytes of a value contain those of every value in it, on every level, and the names in the bytes of
each tuple ascend strictly.
-/

namespace StacksWallet

section Sorting

variable {α β : Type} {fields fields' : List (Name × α)}

/-- The same fields have one order. -/
theorem eq_of_perm_of_ordered (hperm : fields.Perm fields') (h : fields.Pairwise fun f g => f.1.precedes g.1 = true)
    (h' : fields'.Pairwise fun f g => f.1.precedes g.1 = true) : fields = fields' :=
  List.Perm.eq_of_pairwise (fun _ _ _ _ hfg hgf => absurd rfl (Name.ne_of_precedes (Name.precedes_trans hfg hgf)))
    h h' hperm

/-- Fields of different names are sorted into one sequence, wherever they stood. -/
theorem sortFields_eq_of_perm (hperm : fields.Perm fields') (hnames : (fields.map Prod.fst).Nodup) :
    sortFields fields = sortFields fields' := by
  have hnames' : (fields'.map Prod.fst).Nodup := (hperm.map Prod.fst).nodup_iff.mp hnames
  have hsorted : (sortFields fields).Perm (sortFields fields') :=
    (sortFields_perm fields).trans (hperm.trans (sortFields_perm fields').symm)
  exact eq_of_perm_of_ordered hsorted (sortFields_ordered hnames) (sortFields_ordered hnames')

/-- A field finds its place by its name alone. -/
theorem insertField_map (g : α → β) (f : Name × α) (fields : List (Name × α)) :
    insertField (f.1, g f.2) (fields.map fun k => (k.1, g k.2)) =
      (insertField f fields).map fun k => (k.1, g k.2) := by
  induction fields with
  | nil => rfl
  | cons k rest ih =>
    rw [List.map_cons, insertField, insertField]
    split
    · rw [ih, List.map_cons]
    · rfl

/-- Fields are sorted by their names alone. -/
theorem sortFields_map (g : α → β) (fields : List (Name × α)) :
    sortFields (fields.map fun f => (f.1, g f.2)) = (sortFields fields).map fun f => (f.1, g f.2) := by
  induction fields with
  | nil => rfl
  | cons f rest ih => rw [List.map_cons, sortFields, ih, insertField_map, sortFields]

end Sorting

namespace Value

/-- The canonical form of a tuple has its fields sorted, with the canonical forms of their values. -/
theorem canonical_tuple (fields : List (Name × Value)) :
    (tuple fields).canonical = tuple ((sortFields fields).map fun f => (f.1, f.2.canonical)) := by
  rw [canonical, canonicalFields_eq, sortFields_map]

/-- Values have the same canonical forms, one by one, if only fields inside them are moved. -/
theorem map_canonical_eq {items items' : List Value} (h : List.Forall₂ Rearranges items items')
    (hitems : ∀ v ∈ items, ∀ {w : Value}, v.Rearranges w → v.canonical = w.canonical) :
    items.map canonical = items'.map canonical := by
  induction h with
  | nil => rfl
  | cons hv _ ih =>
    rw [List.forall_mem_cons] at hitems
    rw [List.map_cons, List.map_cons, hitems.1 hv, ih hitems.2]

/-- Moving fields does not change the canonical form of a value. -/
theorem Rearranges.canonical_eq {v w : Value} (h : v.Rearranges w) (hv : v.Distinct) :
    v.canonical = w.canonical := by
  induction v generalizing w with
  | int | uint | bool | buffer | ascii | utf8 | principal | none =>
    cases h
    rfl
  | some v ih =>
    cases h with
    | refl => rfl
    | some h => exact congrArg Value.some (ih h hv)
  | ok v ih =>
    cases h with
    | refl => rfl
    | ok h => exact congrArg Value.ok (ih h hv)
  | err v ih =>
    cases h with
    | refl => rfl
    | err h => exact congrArg Value.err (ih h hv)
  | list items ih =>
    cases h with
    | refl => rfl
    | list h =>
      have hitems := forall_itemsKeyLists.mp hv
      rw [canonical, canonical, canonicalItems_eq, canonicalItems_eq,
        map_canonical_eq h fun v hmem _ hmoved => ih v hmem hmoved (hitems v hmem)]
  | tuple fields ih =>
    cases h with
    | refl => rfl
    | @tuple _ fields' moved hnames h hmoved =>
      obtain ⟨hnodup, hfields⟩ := forall_keyLists_tuple.mp hv
      have hvalues : (fields.map Prod.snd).map canonical = (fields'.map Prod.snd).map canonical :=
        map_canonical_eq h <| List.forall_mem_map.mpr fun f hf _ hmoved => ih f hf hmoved (hfields f hf)
      -- First the values change under the same names, then the fields change their places.
      have hinside : (fields.map fun f => (f.1, f.2.canonical)) = fields'.map fun f => (f.1, f.2.canonical) := by
        rw [List.map_map, List.map_map] at hvalues
        rw [← List.zip_map', ← List.zip_map', hnames]
        exact congrArg _ hvalues
      rw [hnames] at hnodup
      rw [canonical, canonicalFields_eq, hinside, ← canonicalFields_eq, ← canonical, canonical_tuple, canonical_tuple,
        sortFields_eq_of_perm hmoved hnodup]

/-- The values directly in a value. -/
def children : Value → List Value
  | some v | ok v | err v => [v]
  | list items => items
  | tuple fields => fields.map Prod.snd
  | _ => []

/-- What a value hands down to the values directly in it holds of all its parts. -/
theorem forall_parts_of_children {P : Value → Prop} (hstep : ∀ v, P v → ∀ c ∈ v.children, P c) {v : Value} (h : P v) :
    ∀ w ∈ v.parts, P w := by
  have hchildren := hstep v h
  induction v with
  | int | uint | bool | buffer | ascii | utf8 | principal | none => exact List.forall_mem_singleton.mpr h
  | some v ih | ok v ih | err v ih =>
    have hv := List.forall_mem_singleton.mp hchildren
    exact List.forall_mem_cons.mpr ⟨h, ih hv (hstep v hv)⟩
  | list items ih =>
    exact List.forall_mem_cons.mpr
      ⟨h, forall_itemsParts.mpr fun v hv => ih v hv (hchildren v hv) (hstep v (hchildren v hv))⟩
  | tuple fields ih =>
    have hvalues := List.forall_mem_map.mp hchildren
    exact List.forall_mem_cons.mpr
      ⟨h, forall_fieldsParts.mpr fun f hf => ih f hf (hvalues f hf) (hstep f.2 (hvalues f hf))⟩

/-- The tuples in a value that is in another one are in that one. -/
theorem Distinct.of_mem_children {v c : Value} (h : v.Distinct) (hc : c ∈ v.children) : c.Distinct := by
  cases v with
  | int | uint | bool | buffer | ascii | utf8 | principal | none => cases hc
  | some v | ok v | err v =>
    obtain rfl := List.mem_singleton.mp hc
    exact h
  | list items => exact forall_itemsKeyLists.mp h c hc
  | tuple fields =>
    obtain ⟨f, hf, rfl⟩ := List.mem_map.mp hc
    exact (forall_keyLists_tuple.mp h).2 f hf

/-- A value is deeper than the values in it. -/
theorem depth_lt_of_mem_children {v c : Value} (hc : c ∈ v.children) : c.depth < v.depth := by
  cases v with
  | int | uint | bool | buffer | ascii | utf8 | principal | none => cases hc
  | some v | ok v | err v =>
    obtain rfl := List.mem_singleton.mp hc
    exact Nat.lt_succ_self _
  | list items => exact itemsDepth_le_iff.mp (Nat.le_refl _) c hc
  | tuple fields =>
    obtain ⟨f, hf, rfl⟩ := List.mem_map.mp hc
    exact fieldsDepth_le_iff.mp (Nat.le_refl _) f hf

/-- The bytes of one of several things stand among the bytes of all of them. -/
theorem infix_flatMap {α : Type} (f : α → Bytes) {a : α} {as : List α} (ha : a ∈ as) : f a <:+: as.flatMap f :=
  List.infix_of_mem_flatten (List.mem_map_of_mem ha)

/-- The bytes of a value contain those of each value in it. -/
theorem encode_of_mem_children {v c : Value} {b : Bytes} (hb : v.encode = .ok b) (hc : c ∈ v.children) :
    ∃ part, c.encode = .ok part ∧ part <:+: b := by
  obtain ⟨hflaw, rfl⟩ := encode_eq_ok_iff.mp hb
  cases v with
  | int | uint | bool | buffer | ascii | utf8 | principal | none => cases hc
  | some v | ok v | err v =>
    obtain rfl := List.mem_singleton.mp hc
    exact ⟨_, encode_eq_ok_iff.mpr ⟨hflaw, rfl⟩, (List.suffix_cons _ _).isInfix⟩
  | list items =>
    have hmem : c.canonical ∈ items.map canonical := List.mem_map_of_mem hc
    rw [canonical, canonicalItems_eq] at hflaw ⊢
    rw [flaw?, Option.or_eq_none_iff, itemsFlaw?_eq_none_iff] at hflaw
    rw [bytes, itemsBytes_eq]
    refine ⟨_, encode_eq_ok_iff.mpr ⟨hflaw.2 _ hmem, rfl⟩, (infix_flatMap bytes hmem).trans ?_⟩
    exact ((List.suffix_append _ _).trans (List.suffix_cons _ _)).isInfix
  | tuple fields =>
    obtain ⟨f, hf, rfl⟩ := List.mem_map.mp hc
    have hmem : (f.1, f.2.canonical) ∈ (sortFields fields).map fun f => (f.1, f.2.canonical) :=
      List.mem_map_of_mem ((sortFields_perm fields).mem_iff.mpr hf)
    rw [canonical_tuple] at hflaw ⊢
    rw [flaw?, Option.or_eq_none_iff, fieldsFlaw?_eq_none_iff] at hflaw
    rw [bytes, fieldsBytes_eq]
    have hfield : f.2.canonical.bytes <:+: fieldBytes (f.1, f.2.canonical) := (List.suffix_append _ _).isInfix
    refine ⟨_, encode_eq_ok_iff.mpr ⟨hflaw.2 _ hmem, rfl⟩, (hfield.trans (infix_flatMap fieldBytes hmem)).trans ?_⟩
    exact ((List.suffix_append _ _).trans (List.suffix_cons _ _)).isInfix

/-- The parts of a value that has no repeated names and can be written are such values themselves; they are not deeper,
and their bytes stand in those of the value. -/
theorem encode_of_mem_parts {v w : Value} {b : Bytes} (hv : v.Distinct) (hb : v.encode = .ok b) (hw : w ∈ v.parts) :
    w.Distinct ∧ w.depth ≤ v.depth ∧ ∃ part, w.encode = .ok part ∧ part <:+: b := by
  refine forall_parts_of_children (P := fun w => w.Distinct ∧ w.depth ≤ v.depth ∧
    ∃ part, w.encode = .ok part ∧ part <:+: b) ?_ ⟨hv, Nat.le_refl _, b, hb, List.infix_rfl⟩ w hw
  intro u hu c hc
  obtain ⟨hdistinct, hdepth, part, hpart, hinside⟩ := hu
  obtain ⟨smaller, hsmaller, hinsidePart⟩ := encode_of_mem_children hpart hc
  exact ⟨hdistinct.of_mem_children hc, (depth_lt_of_mem_children hc).le.trans hdepth, smaller, hsmaller,
    hinsidePart.trans hinside⟩

/-- Moving fields gives an equal value. -/
theorem Rearranges.equal {v w : Value} (h : v.Rearranges w) (hv : v.Distinct) : v.equal w = true :=
  equal_iff.mpr (h.canonical_eq hv)

/-- Moving fields does not change what a value is written as. -/
theorem Rearranges.encode_eq {v w : Value} (h : v.Rearranges w) (hv : v.Distinct) : v.encode = w.encode := by
  rw [encode, encode, h.canonical_eq hv]

/-- A tuple is written as its fields in the order of their names. -/
theorem encode_tuple {fields : List (Name × Value)} {b : Bytes} (hb : (tuple fields).encode = .ok b) :
    b = 12 :: (bigEndian 4 fields.length ++ (sortFields fields).flatMap fun f => f.1.encode ++ f.2.canonical.bytes) := by
  obtain ⟨-, rfl⟩ := encode_eq_ok_iff.mp hb
  rw [canonical_tuple, bytes, fieldsBytes_eq, List.flatMap_map, List.length_map, (sortFields_perm fields).length_eq]
  rfl

/-- Fields that are moved, at any level, leave what the value equals and is written as; and each tuple in the value,
at any level, stands in its bytes with its fields in the strict order of the bytes of their names, in which they are
read. -/
theorem order_immaterial {v : Value} (hv : v.Constructible) :
    (∀ w, v.Rearranges w → v.equal w = true ∧ v.encode = w.encode) ∧
      ∀ b, v.encode = .ok b → ∀ fields, tuple fields ∈ v.parts →
        (sortFields fields).Perm fields ∧ ((sortFields fields).Pairwise fun f g => f.1.bytes < g.1.bytes) ∧
          ∃ part, part <:+: b ∧ (tuple fields).encode = .ok part ∧
            part = 12 :: (bigEndian 4 fields.length ++
              (sortFields fields).flatMap fun f => f.1.encode ++ f.2.canonical.bytes) ∧
            (v.depth ≤ 32 → ∀ before after, decode (before ++ part ++ after) before.length =
              .ok (tuple ((sortFields fields).map fun f => (f.1, f.2.canonical)), part.length)) := by
  refine ⟨fun w h => ⟨h.equal hv.distinct, h.encode_eq hv.distinct⟩, fun b hb fields hfields => ?_⟩
  obtain ⟨hdistinct, hdepth, part, hpart, hinside⟩ := encode_of_mem_parts hv.distinct hb hfields
  have hordered := sortFields_ordered (forall_keyLists_tuple.mp hdistinct).1
  refine ⟨sortFields_perm fields, hordered.imp Name.precedes_iff_bytes.mp, part, hinside, hpart, encode_tuple hpart, ?_⟩
  intro hlimit before after
  rw [← canonical_tuple]
  exact decode_of_encode hdistinct (hdepth.trans hlimit) hpart before after

/-- A tuple whose fields are out of order, one name being the beginning of the other one. -/
def unsortedFields : List (Name × Value) := [(⟨[97, 98], by decide⟩, bool true), (⟨[97], admits_a⟩, none)]

/-- The tuple inside another one whose fields are out of order, in a list. -/
def unsorted : Value := list [tuple [(⟨[98], admits_b⟩, tuple unsortedFields), (⟨[97], admits_a⟩, uint 1)]]

/-- The fields may be moved on both levels, and the inner tuple is read in order from where its bytes stand. -/
theorem order_immaterial_unsorted :
    unsorted.Constructible ∧ unsorted.Rearranges unsorted.canonical ∧ unsorted.equal unsorted.canonical = true ∧
      unsorted.encode = unsorted.canonical.encode ∧
      unsorted.encode = .ok ([11, 0, 0, 0, 1, 12, 0, 0, 0, 2, 1, 97, 1] ++ bigEndian 16 1 ++
        [1, 98, 12, 0, 0, 0, 2, 1, 97, 9, 2, 97, 98, 3]) ∧
      decode ([255] ++ [12, 0, 0, 0, 2, 1, 97, 9, 2, 97, 98, 3] ++ [7]) 1 =
        .ok (tuple [(⟨[97], by decide⟩, none), (⟨[97, 98], by decide⟩, bool true)], 12) := by
  have hv : unsorted.Constructible := constructible_of_distinct (by unfold Distinct; decide) rfl
  have hmoved : unsorted.Rearranges unsorted.canonical := rearranges_canonical unsorted
  have hpart : tuple unsortedFields ∈ unsorted.parts := .tail _ (.tail _ (.head _))
  obtain ⟨hmoving, hwriting⟩ := order_immaterial hv
  obtain ⟨-, -, part, -, -, rfl, hread⟩ := hwriting _ rfl unsortedFields hpart
  exact ⟨hv, hmoved, (hmoving _ hmoved).1, (hmoving _ hmoved).2, rfl, hread (by decide) [255] [7]⟩

end Value

end StacksWallet
