import Mathlib.Data.List.Forall2
import Mathlib.Data.List.Lex
import Mathlib.Data.List.Perm.Basic
import Mathlib.Order.Fin.Basic
import StacksWallet.Proofs.Clarity.Part
import StacksWallet.Proofs.Clarity.Structure

/-!
# The order of tuple fields

Names are ordered by their bytes. The canonical form of a value rearranges the fields of its tuples, at every
level, into the strict order of their names, which is possible if no tuple has two fields of one name. A value
in order is its own canonical form, so values are equal if they differ in nothing but the order of fields.
-/

namespace StacksWallet

/-- Texts of narrow characters are ordered as their bytes. -/
theorem Text.narrow_lt_narrow_iff {t u : Text} (ht : ∀ c ∈ t, c.val < 256) (hu : ∀ c ∈ u, c.val < 256) :
    narrow t < narrow u ↔ t < u := by
  induction t generalizing u with
  | nil => cases u <;> simp [narrow]
  | cons c t ih =>
    cases u with
    | nil => simp [narrow]
    | cons d u =>
      have hc := ht c List.mem_cons_self
      have hd := hu d List.mem_cons_self
      have hlt : UInt8.ofNat c.val < UInt8.ofNat d.val ↔ c < d := by
        rw [UInt8.lt_iff_toNat_lt, UInt8.toNat_ofNat', UInt8.toNat_ofNat', Nat.mod_eq_of_lt hc, Nat.mod_eq_of_lt hd,
          Fin.lt_def]
      have heq : UInt8.ofNat c.val = UInt8.ofNat d.val ↔ c = d := by
        rw [← UInt8.toNat_inj, UInt8.toNat_ofNat', UInt8.toNat_ofNat', Nat.mod_eq_of_lt hc, Nat.mod_eq_of_lt hd,
          Fin.ext_iff]
      have hrest := ih (fun x hx => ht x (List.mem_cons_of_mem c hx)) fun x hx => hu x (List.mem_cons_of_mem d hx)
      simp only [narrow, List.map_cons, List.cons_lt_cons_iff, hlt, heq] at hrest ⊢
      rw [hrest]

namespace Name

/-- A name comes before another one if its characters do. -/
theorem precedes_iff {a b : Name} : a.precedes b = true ↔ a.text < b.text := decide_eq_true_iff

/-- A name comes before another one if its bytes do. -/
theorem precedes_iff_bytes {a b : Name} : a.precedes b = true ↔ a.bytes < b.bytes := by
  rw [precedes_iff]
  exact (Text.narrow_lt_narrow_iff a.val_lt b.val_lt).symm

/-- A name is known by its characters. -/
theorem eq_of_text {a b : Name} (h : a.text = b.text) : a = b := by
  obtain ⟨t, ha⟩ := a
  obtain ⟨u, hb⟩ := b
  obtain rfl : t = u := h
  rfl

/-- Of two different names, one comes before the other one. -/
theorem precedes_or_precedes {a b : Name} (h : a ≠ b) : a.precedes b = true ∨ b.precedes a = true := by
  rw [precedes_iff, precedes_iff]
  exact lt_or_gt_of_ne fun htext => h (eq_of_text htext)

/-- A name that comes before another one is a different one. -/
theorem ne_of_precedes {a b : Name} (h : a.precedes b = true) : a ≠ b := by
  intro h
  obtain rfl := h
  exact lt_irrefl _ (precedes_iff.mp h)

/-- The order of names carries over. -/
theorem precedes_trans {a b c : Name} (hab : a.precedes b = true) (hbc : b.precedes c = true) :
    a.precedes c = true := precedes_iff.mpr (lt_trans (precedes_iff.mp hab) (precedes_iff.mp hbc))

instance : Trans (fun a b : Name => a.precedes b = true) (fun a b : Name => a.precedes b = true)
    (fun a b : Name => a.precedes b = true) where
  trans := precedes_trans

end Name

/-- The letter a is a name. -/
theorem admits_a : Name.admits [97] = true := by decide

/-- The letter b is a name. -/
theorem admits_b : Name.admits [98] = true := by decide

section Sorting

variable {α : Type}

/-- A field is added to the others. -/
theorem insertField_perm (f : Name × α) (fields : List (Name × α)) : (insertField f fields).Perm (f :: fields) := by
  induction fields with
  | nil => exact List.Perm.refl _
  | cons g rest ih =>
    rw [insertField]
    split
    · exact (ih.cons g).trans (List.Perm.swap f g rest)
    · exact List.Perm.refl _

/-- Sorting keeps the fields. -/
theorem sortFields_perm (fields : List (Name × α)) : (sortFields fields).Perm fields := by
  induction fields with
  | nil => exact List.Perm.refl _
  | cons f rest ih =>
    rw [sortFields]
    exact (insertField_perm f _).trans (ih.cons f)

/-- A field of a new name finds its place among fields in order. -/
theorem insertField_ordered {f : Name × α} {fields : List (Name × α)} (hnew : ∀ g ∈ fields, f.1 ≠ g.1)
    (h : fields.Pairwise fun g k => g.1.precedes k.1 = true) :
    (insertField f fields).Pairwise fun g k => g.1.precedes k.1 = true := by
  induction fields with
  | nil => exact List.pairwise_singleton _ _
  | cons g rest ih =>
    rw [List.pairwise_cons] at h
    rw [List.forall_mem_cons] at hnew
    rw [insertField]
    split
    · rename_i hgf
      refine List.pairwise_cons.mpr ⟨fun k hk => ?_, ih hnew.2 h.2⟩
      rcases List.mem_cons.mp ((insertField_perm f rest).mem_iff.mp hk) with rfl | hk
      · exact hgf
      · exact h.1 k hk
    · rename_i hgf
      have hfg := (Name.precedes_or_precedes hnew.1).resolve_right hgf
      refine List.pairwise_cons.mpr ⟨List.forall_mem_cons.mpr ⟨hfg, fun k hk => ?_⟩, List.pairwise_cons.mpr h⟩
      exact Name.precedes_trans hfg (h.1 k hk)

/-- Fields of different names are brought into order. -/
theorem sortFields_ordered {fields : List (Name × α)} (h : (fields.map Prod.fst).Nodup) :
    (sortFields fields).Pairwise fun f g => f.1.precedes g.1 = true := by
  induction fields with
  | nil => exact List.Pairwise.nil
  | cons f rest ih =>
    rw [List.map_cons, List.nodup_cons] at h
    rw [sortFields]
    refine insertField_ordered (fun g hg hfg => h.1 ?_) (ih h.2)
    rw [hfg]
    exact List.mem_map_of_mem ((sortFields_perm rest).mem_iff.mp hg)

/-- Fields in order stay as they are. -/
theorem sortFields_eq_self {fields : List (Name × α)} (h : fields.Pairwise fun f g => f.1.precedes g.1 = true) :
    sortFields fields = fields := by
  induction fields with
  | nil => rfl
  | cons f rest ih =>
    rw [List.pairwise_cons] at h
    rw [sortFields, ih h.2]
    cases rest with
    | nil => rfl
    | cons g rest =>
      have hfg := h.1 g List.mem_cons_self
      have hgf : ¬ g.1.precedes f.1 = true := fun hgf => Name.ne_of_precedes (Name.precedes_trans hfg hgf) rfl
      rw [insertField, if_neg hgf]

end Sorting

namespace Value

/-- No tuple in the value has two fields of one name. -/
def Distinct (v : Value) : Prop := ∀ keys ∈ v.keyLists, keys.Nodup

/-- The fields of every tuple in the value are in the order of their names. -/
def Ordered (v : Value) : Prop := ∀ keys ∈ v.keyLists, keys.Pairwise fun a b => a.precedes b = true

/-- Names in strict order are different. -/
theorem Ordered.distinct {v : Value} (h : v.Ordered) : v.Distinct := fun keys hkeys =>
  (h keys hkeys).imp Name.ne_of_precedes

/-- A list is in order if its items are. -/
theorem ordered_list_iff {items : List Value} : (list items).Ordered ↔ ∀ v ∈ items, v.Ordered := forall_itemsKeyLists

/-- A tuple is in order if its fields and their values are. -/
theorem ordered_tuple_iff {fields : List (Name × Value)} :
    (tuple fields).Ordered ↔
      (fields.Pairwise fun f g => f.1.precedes g.1 = true) ∧ ∀ f ∈ fields, f.2.Ordered := by
  rw [Ordered, forall_keyLists_tuple, List.pairwise_map]
  rfl

/-- A value in order is its own canonical form. -/
theorem canonical_eq_self {v : Value} (h : v.Ordered) : v.canonical = v := by
  induction v with
  | int | uint | bool | buffer | ascii | utf8 | principal | none => rfl
  | some v ih => rw [canonical, ih h]
  | ok v ih => rw [canonical, ih h]
  | err v ih => rw [canonical, ih h]
  | list items ih =>
    have hitems := ordered_list_iff.mp h
    rw [canonical, canonicalItems_eq, List.map_congr_left fun v hv => ih v hv (hitems v hv), List.map_id']
  | tuple fields ih =>
    have hfields := ordered_tuple_iff.mp h
    have hmap : ∀ f ∈ fields, (f.1, f.2.canonical) = f := fun f hf => by rw [ih f hf (hfields.2 f hf)]
    rw [canonical, canonicalFields_eq, List.map_congr_left hmap, List.map_id', sortFields_eq_self hfields.1]

/-- The canonical form of a value without repeated names is in order. -/
theorem canonical_ordered {v : Value} (h : v.Distinct) : v.canonical.Ordered := by
  induction v with
  | int | uint | bool | buffer | ascii | utf8 | principal | none => exact fun keys hkeys => nomatch hkeys
  | some v ih => exact ih h
  | ok v ih => exact ih h
  | err v ih => exact ih h
  | list items ih =>
    have hitems := forall_itemsKeyLists.mp h
    rw [canonical, canonicalItems_eq, ordered_list_iff, List.forall_mem_map]
    exact fun v hv => ih v hv (hitems v hv)
  | tuple fields ih =>
    have hfields := forall_keyLists_tuple.mp h
    rw [canonical, canonicalFields_eq, ordered_tuple_iff]
    constructor
    · apply sortFields_ordered
      rw [List.map_map]
      exact hfields.1
    · intro f hf
      obtain ⟨g, hg, rfl⟩ := List.mem_map.mp ((sortFields_perm _).mem_iff.mp hf)
      exact ih g hg (hfields.2 g hg)

/-- Two values differ at most in the order of the fields of their tuples. -/
inductive Rearranges : Value → Value → Prop
  /-- Nothing is moved. -/
  | refl (v : Value) : Rearranges v v
  /-- Fields are moved inside a present optional. -/
  | some {v w : Value} (h : Rearranges v w) : Rearranges (.some v) (.some w)
  /-- Fields are moved inside a response of success. -/
  | ok {v w : Value} (h : Rearranges v w) : Rearranges (.ok v) (.ok w)
  /-- Fields are moved inside a response of failure. -/
  | err {v w : Value} (h : Rearranges v w) : Rearranges (.err v) (.err w)
  /-- Fields are moved inside the items of a list, which stay in their order. -/
  | list {items items' : List Value} (h : List.Forall₂ Rearranges items items') :
      Rearranges (.list items) (.list items')
  /-- Fields are moved inside the fields of a tuple, and these fields are then moved themselves. -/
  | tuple {fields fields' moved : List (Name × Value)} (hnames : fields.map Prod.fst = fields'.map Prod.fst)
      (h : List.Forall₂ Rearranges (fields.map Prod.snd) (fields'.map Prod.snd)) (hmoved : fields'.Perm moved) :
      Rearranges (.tuple fields) (.tuple moved)

/-- The canonical form has the fields of the value in another order. -/
theorem rearranges_canonical (v : Value) : v.Rearranges v.canonical := by
  induction v with
  | int | uint | bool | buffer | ascii | utf8 | principal | none => exact .refl _
  | some v ih => exact .some ih
  | ok v ih => exact .ok ih
  | err v ih => exact .err ih
  | list items ih =>
    rw [canonical, canonicalItems_eq]
    exact .list (List.forall₂_map_right_iff.mpr (List.forall₂_same.mpr ih))
  | tuple fields ih =>
    rw [canonical, canonicalFields_eq]
    refine .tuple ?_ ?_ (sortFields_perm _).symm
    · rw [List.map_map]
      rfl
    · rw [List.map_map, List.forall₂_map_left_iff, List.forall₂_map_right_iff]
      exact List.forall₂_same.mpr ih

/-- Sorting fields does not change how deep a value is nested. -/
theorem canonical_depth (v : Value) : v.canonical.depth = v.depth := by
  induction v with
  | int | uint | bool | buffer | ascii | utf8 | principal | none => rfl
  | some v ih => rw [canonical, depth, depth, ih]
  | ok v ih => rw [canonical, depth, depth, ih]
  | err v ih => rw [canonical, depth, depth, ih]
  | list items ih =>
    rw [canonical, canonicalItems_eq, depth, depth]
    apply eq_of_forall_ge_iff
    intro n
    rw [itemsDepth_le_iff, itemsDepth_le_iff, List.forall_mem_map]
    exact forall₂_congr fun v hv => by rw [ih v hv]
  | tuple fields ih =>
    rw [canonical, canonicalFields_eq, depth, depth]
    apply eq_of_forall_ge_iff
    intro n
    have hperm := sortFields_perm (fields.map fun f => (f.1, f.2.canonical))
    rw [fieldsDepth_le_iff, fieldsDepth_le_iff, forall_congr' fun f => by rw [hperm.mem_iff], List.forall_mem_map]
    exact forall₂_congr fun f hf => by rw [ih f hf]

/-- Every value agrees with itself. -/
theorem same_self (v : Value) : v.same v = true := by
  induction v with
  | int | uint | bool | buffer | ascii | utf8 | principal => simp [same]
  | none => rfl
  | some v ih => rwa [same]
  | ok v ih => rwa [same]
  | err v ih => rwa [same]
  | list items ih =>
    rw [same]
    induction items with
    | nil => rfl
    | cons v rest ihRest =>
      rw [List.forall_mem_cons] at ih
      rw [sameItems, ih.1, ihRest ih.2, Bool.and_self]
  | tuple fields ih =>
    rw [same]
    induction fields with
    | nil => rfl
    | cons f rest ihRest =>
      rw [List.forall_mem_cons] at ih
      rw [sameFields, ih.1, ihRest ih.2, beq_self_eq_true, Bool.and_self, Bool.and_self]

/-- Lists that agree are the same list, if items that agree are the same. -/
theorem eq_of_sameItems {items items' : List Value} (hitems : ∀ v ∈ items, ∀ {w : Value}, v.same w = true → v = w)
    (h : sameItems items items' = true) : items = items' := by
  induction items generalizing items' with
  | nil =>
    cases items' with
    | nil => rfl
    | cons => cases h
  | cons v rest ih =>
    cases items' with
    | nil => cases h
    | cons w rest' =>
      rw [sameItems, Bool.and_eq_true] at h
      rw [List.forall_mem_cons] at hitems
      rw [hitems.1 h.1, ih hitems.2 h.2]

/-- Fields that agree are the same fields, if values that agree are the same. -/
theorem eq_of_sameFields {fields fields' : List (Name × Value)}
    (hfields : ∀ f ∈ fields, ∀ {w : Value}, f.2.same w = true → f.2 = w)
    (h : sameFields fields fields' = true) : fields = fields' := by
  induction fields generalizing fields' with
  | nil =>
    cases fields' with
    | nil => rfl
    | cons => cases h
  | cons f rest ih =>
    cases fields' with
    | nil => cases h
    | cons g rest' =>
      rw [sameFields, Bool.and_eq_true, Bool.and_eq_true, beq_iff_eq] at h
      rw [List.forall_mem_cons] at hfields
      rw [Prod.ext h.1.1 (hfields.1 h.1.2), ih hfields.2 h.2]

/-- Values that agree part by part are the same value. -/
theorem eq_of_same {v w : Value} (h : v.same w = true) : v = w := by
  induction v generalizing w with
  | int | uint | bool | buffer | ascii | utf8 | principal | none =>
    cases w <;> simp_all [same, Subtype.ext_iff]
  | some v ih =>
    cases w with
    | some w => exact congrArg some (ih h)
    | _ => cases h
  | ok v ih =>
    cases w with
    | ok w => exact congrArg ok (ih h)
    | _ => cases h
  | err v ih =>
    cases w with
    | err w => exact congrArg err (ih h)
    | _ => cases h
  | list items ih =>
    cases w with
    | list items' => exact congrArg list (eq_of_sameItems ih h)
    | _ => cases h
  | tuple fields ih =>
    cases w with
    | tuple fields' => exact congrArg tuple (eq_of_sameFields ih h)
    | _ => cases h

/-- Values are equal if and only if they have the same canonical form. -/
theorem equal_iff {v w : Value} : v.equal w = true ↔ v.canonical = w.canonical := by
  rw [equal]
  constructor
  · exact eq_of_same
  · intro h
    rw [h]
    exact same_self _

/-- Lists are equal if and only if their items are, one by one. -/
theorem equal_list_iff {items items' : List Value} :
    (list items).equal (list items') = true ↔ List.Forall₂ (fun v w => v.equal w = true) items items' := by
  simp only [equal_iff, canonical, canonicalItems_eq, list.injEq]
  rw [← List.forall₂_eq_eq_eq, List.forall₂_map_left_iff, List.forall₂_map_right_iff]

/-- A value whose canonical form is in order equals that form. -/
theorem canonical_equal {v : Value} (h : v.Distinct) : v.canonical.equal v = true := by
  rw [equal, canonical_eq_self (canonical_ordered h)]
  exact same_self _

end Value

end StacksWallet
