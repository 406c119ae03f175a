import StacksWallet.Clarity.Encoding

/-!
# Induction over values

Values hold lists of values, so that what is computed from a value is computed from lists of values and lists
of fields beside it. Those helpers are the usual operations on lists, and with them a property of all values
follows from what it says of each kind of value. The names in a value are kept tuple by tuple, as properties
of names hold at every level or not at all.
-/

namespace StacksWallet.Value

/-- A property holds of every value if every kind of value takes it over from its parts. -/
@[elab_as_elim, induction_eliminator]
theorem inductionOn {motive : Value → Prop} (int : ∀ n, motive (.int n)) (uint : ∀ n, motive (.uint n))
    (bool : ∀ b, motive (.bool b)) (buffer : ∀ b, motive (.buffer b)) (ascii : ∀ t, motive (.ascii t))
    (utf8 : ∀ t, motive (.utf8 t)) (principal : ∀ p, motive (.principal p)) (none : motive .none)
    (some : ∀ v, motive v → motive (.some v)) (ok : ∀ v, motive v → motive (.ok v))
    (err : ∀ v, motive v → motive (.err v)) (list : ∀ items, (∀ v ∈ items, motive v) → motive (.list items))
    (tuple : ∀ fields, (∀ f ∈ fields, motive f.2) → motive (.tuple fields)) (v : Value) : motive v :=
  Value.rec (motive_1 := motive) (motive_2 := fun items => ∀ v ∈ items, motive v)
    (motive_3 := fun fields => ∀ f ∈ fields, motive f.2) (motive_4 := fun f => motive f.2) int uint bool buffer ascii
    utf8 principal none some ok err list tuple (by simp) (fun _ _ hv hitems => List.forall_mem_cons.mpr ⟨hv, hitems⟩)
    (by simp) (fun _ _ hf hfields => List.forall_mem_cons.mpr ⟨hf, hfields⟩) (fun _ _ hv => hv) v

/-- The canonical forms of several values are taken one by one. -/
theorem canonicalItems_eq (items : List Value) : canonicalItems items = items.map canonical := by
  induction items with
  | nil => rfl
  | cons v rest ih => rw [canonicalItems, ih, List.map_cons]

/-- The canonical forms of fields are taken one by one. -/
theorem canonicalFields_eq (fields : List (Name × Value)) :
    canonicalFields fields = fields.map fun f => (f.1, canonical f.2) := by
  induction fields with
  | nil => rfl
  | cons f rest ih => rw [canonicalFields, ih, List.map_cons]

/-- The bytes of a field. -/
def fieldBytes (f : Name × Value) : Bytes := f.1.encode ++ f.2.bytes

/-- Values are written one by one. -/
theorem itemsBytes_eq (items : List Value) : itemsBytes items = items.flatMap bytes := by
  induction items with
  | nil => rfl
  | cons v rest ih => rw [itemsBytes, ih, List.flatMap_cons]

/-- Fields are written one by one. -/
theorem fieldsBytes_eq (fields : List (Name × Value)) : fieldsBytes fields = fields.flatMap fieldBytes := by
  induction fields with
  | nil => rfl
  | cons f rest ih => rw [fieldsBytes, ih, List.flatMap_cons, fieldBytes, List.append_assoc]

/-- Values can be written if each of them can. -/
theorem itemsFlaw?_eq_none_iff {items : List Value} :
    itemsFlaw? items = Option.none ↔ ∀ v ∈ items, v.flaw? = Option.none := by
  induction items with
  | nil => simp [itemsFlaw?]
  | cons v rest ih => rw [itemsFlaw?, Option.or_eq_none_iff, ih, List.forall_mem_cons]

/-- Fields can be written if each of their values can. -/
theorem fieldsFlaw?_eq_none_iff {fields : List (Name × Value)} :
    fieldsFlaw? fields = Option.none ↔ ∀ f ∈ fields, f.2.flaw? = Option.none := by
  induction fields with
  | nil => simp [fieldsFlaw?]
  | cons f rest ih => rw [fieldsFlaw?, Option.or_eq_none_iff, ih, List.forall_mem_cons]

/-- A size can be written if it has four bytes. -/
theorem sizeFlaw?_eq_none_iff {n : Nat} : sizeFlaw? n = Option.none ↔ n < wordCount 4 := by
  rw [sizeFlaw?]
  split <;> simp_all

/-- A list is as deep as each of its items, and one level more. -/
theorem itemsDepth_le_iff {items : List Value} {n : Nat} : itemsDepth items ≤ n ↔ ∀ v ∈ items, v.depth < n := by
  induction items with
  | nil => simp [itemsDepth]
  | cons v rest ih => rw [itemsDepth, Nat.max_le, ih, List.forall_mem_cons, Nat.succ_le_iff]

/-- A tuple is as deep as each of its fields, and one level more. -/
theorem fieldsDepth_le_iff {fields : List (Name × Value)} {n : Nat} :
    fieldsDepth fields ≤ n ↔ ∀ f ∈ fields, f.2.depth < n := by
  induction fields with
  | nil => simp [fieldsDepth]
  | cons f rest ih => rw [fieldsDepth, Nat.max_le, ih, List.forall_mem_cons, Nat.succ_le_iff]

mutual

/-- The names of the fields of each tuple in a value. -/
def keyLists : Value → List (List Name)
  | some v | ok v | err v => keyLists v
  | list items => itemsKeyLists items
  | tuple fields => fields.map Prod.fst :: fieldsKeyLists fields
  | _ => []

/-- The names of the fields of each tuple in several values. -/
def itemsKeyLists : List Value → List (List Name)
  | [] => []
  | v :: rest => keyLists v ++ itemsKeyLists rest

/-- The names of the fields of each tuple in the values of several fields. -/
def fieldsKeyLists : List (Name × Value) → List (List Name)
  | [] => []
  | (_, v) :: rest => keyLists v ++ fieldsKeyLists rest

end

/-- The names in several values are those in each of them. -/
theorem forall_itemsKeyLists {P : List Name → Prop} {items : List Value} :
    (∀ keys ∈ itemsKeyLists items, P keys) ↔ ∀ v ∈ items, ∀ keys ∈ v.keyLists, P keys := by
  induction items with
  | nil => simp [itemsKeyLists]
  | cons v rest ih => rw [itemsKeyLists, List.forall_mem_append, ih, List.forall_mem_cons]

/-- The names in several fields are those in each of their values. -/
theorem forall_fieldsKeyLists {P : List Name → Prop} {fields : List (Name × Value)} :
    (∀ keys ∈ fieldsKeyLists fields, P keys) ↔ ∀ f ∈ fields, ∀ keys ∈ f.2.keyLists, P keys := by
  induction fields with
  | nil => simp [fieldsKeyLists]
  | cons f rest ih => rw [fieldsKeyLists, List.forall_mem_append, ih, List.forall_mem_cons]

/-- The names in a tuple are those of its fields and those in their values. -/
theorem forall_keyLists_tuple {P : List Name → Prop} {fields : List (Name × Value)} :
    (∀ keys ∈ (tuple fields).keyLists, P keys) ↔
      P (fields.map Prod.fst) ∧ ∀ f ∈ fields, ∀ keys ∈ f.2.keyLists, P keys := by
  rw [keyLists, List.forall_mem_cons, forall_fieldsKeyLists]

end StacksWallet.Value
