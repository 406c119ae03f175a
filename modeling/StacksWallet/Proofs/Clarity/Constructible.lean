import Mathlib.Data.List.Nodup
import StacksWallet.Clarity.Construction
import StacksWallet.Proofs.Clarity.Order
import StacksWallet.Proofs.Outcome

/-!
# Values that can be made

Callers get values from the constructors alone, parts before the whole. What the types of values leave open is
settled there: no tuple has two fields of one name, and versions are in range. Every value that has a form on
the wire can be made.
-/

namespace StacksWallet

/-- The text of a name makes the name. -/
theorem Name.ofText_text (field : Text) (n : Name) : ofText field n.text = .ok n := dif_pos n.isName

namespace Value

/-- The constructors make a value, out of values that they have made before. -/
inductive Constructible : Value → Prop
  /-- A signed integer. -/
  | int {d : Datum} {w : Value} (h : ofInt d = .ok w) : Constructible w
  /-- An unsigned integer. -/
  | uint {d : Datum} {w : Value} (h : ofUInt d = .ok w) : Constructible w
  /-- A truth value. -/
  | bool (b : Bool) : Constructible (.bool b)
  /-- A byte string. -/
  | buffer {d : Datum} {w : Value} (h : ofBuffer d = .ok w) : Constructible w
  /-- An ASCII string. -/
  | ascii {d : Datum} {w : Value} (h : ofAscii d = .ok w) : Constructible w
  /-- A UTF-8 string. -/
  | utf8 {d : Datum} {w : Value} (h : ofUtf8 d = .ok w) : Constructible w
  /-- An account. -/
  | standard {version hash : Datum} {p : Principal} (h : Principal.standard version hash = .ok p) :
      Constructible (.principal p)
  /-- A contract. -/
  | contract {version hash name : Datum} {p : Principal} (h : Principal.contract version hash name = .ok p) :
      Constructible (.principal p)
  /-- The absent optional. -/
  | none : Constructible .none
  /-- The present optional. -/
  | some {v w : Value} (hv : Constructible v) (h : ofSome (.of v) = .ok w) : Constructible w
  /-- A response of success. -/
  | ok {v w : Value} (hv : Constructible v) (h : ofOk (.of v) = .ok w) : Constructible w
  /-- A response of failure. -/
  | err {v w : Value} (hv : Constructible v) (h : ofErr (.of v) = .ok w) : Constructible w
  /-- A list of values. -/
  | list {items : List Value} {w : Value} (hitems : ∀ v ∈ items, Constructible v)
      (h : ofList (items.map .of) = .ok w) : Constructible w
  /-- A tuple of named values. -/
  | tuple {fields : List (Datum × Value)} {w : Value} (hfields : ∀ f ∈ fields, Constructible f.2)
      (h : ofPairs (fields.map fun f => (f.1, .of f.2)) = .ok w) : Constructible w

/-- Values are accepted as items. -/
theorem itemsFrom_of (position : Nat) (items : List Value) : itemsFrom position (items.map .of) = .ok items := by
  induction items generalizing position with
  | nil => rfl
  | cons v rest ih =>
    rw [List.map_cons, itemsFrom, ih]
    rfl

/-- The fields of a tuple are the values that were given, under names of their own. -/
theorem fieldsOnto_spec {done : List (Name × Value)} {fields : List (Datum × Value)} {fs : List (Name × Value)}
    (hdone : (done.map Prod.fst).Nodup) (h : fieldsOnto done (fields.map fun f => (f.1, .of f.2)) = .ok fs) :
    (fs.map Prod.fst).Nodup ∧ fs.map Prod.snd = (done.map Prod.snd).reverse ++ fields.map Prod.snd := by
  induction fields generalizing done with
  | nil =>
    obtain rfl : done.reverse = fs := Except.ok.inj h
    rw [List.map_reverse, List.nodup_reverse, List.map_reverse, List.map_nil, List.append_nil]
    exact ⟨hdone, rfl⟩
  | cons f rest ih =>
    rw [List.map_cons, fieldsOnto, Outcome.bind_eq_ok] at h
    obtain ⟨name, -, h⟩ := h
    obtain ⟨hused, h⟩ := Outcome.guard_eq_ok.mp h
    obtain ⟨v, hv, h⟩ := Outcome.bind_eq_ok.mp h
    obtain rfl : f.2 = v := Except.ok.inj hv
    have hname : name ∉ done.map Prod.fst := by
      simpa using hused
    have hcons : (((name, f.2) :: done).map Prod.fst).Nodup := List.nodup_cons.mpr ⟨hname, hdone⟩
    have hrest := ih hcons h
    rw [List.map_cons, List.reverse_cons, List.append_assoc] at hrest
    exact hrest

/-- Fields of different names are accepted under those names. -/
theorem fieldsOnto_of {done fields : List (Name × Value)}
    (h : ((done.reverse ++ fields).map Prod.fst).Nodup) :
    fieldsOnto done (fields.map fun f => (.text f.1.text, .of f.2)) = .ok (done.reverse ++ fields) := by
  induction fields generalizing done with
  | nil => rw [List.map_nil, fieldsOnto, List.append_nil]
  | cons f rest ih =>
    have hname : Name.ofDatum "tuple key" (.text f.1.text) = .ok f.1 := by
      rw [Name.ofDatum, Name.ofText_text]
      rfl
    have hused : ¬ (done.any fun g => g.1 == f.1) = true := by
      intro hany
      obtain ⟨g, hg, hgf⟩ := List.any_eq_true.mp hany
      rw [List.map_append, List.nodup_append] at h
      have hmem : g.1 ∈ done.reverse.map Prod.fst := List.mem_map_of_mem (List.mem_reverse.mpr hg)
      exact h.2.2 g.1 hmem f.1 List.mem_cons_self (beq_iff_eq.mp hgf)
    rw [← List.singleton_append, ← List.append_assoc, ← List.reverse_cons] at h ⊢
    rw [List.singleton_append, List.map_cons, fieldsOnto, Outcome.bind_eq_ok]
    refine ⟨f.1, hname, Outcome.guard_eq_ok.mpr ⟨hused, Outcome.bind_eq_ok.mpr ⟨f.2, rfl, ih h⟩⟩⟩

/-- What is made from a plain datum has no tuple in it. -/
theorem keyLists_ofDatum {d : Datum} {w : Value}
    (h : ofInt d = .ok w ∨ ofUInt d = .ok w ∨ ofBuffer d = .ok w ∨ ofAscii d = .ok w ∨ ofUtf8 d = .ok w) :
    w.keyLists = [] := by
  rcases h with h | h | h | h | h
  · unfold ofInt at h
    repeat' split at h
    all_goals cases h
    rfl
  · unfold ofUInt at h
    repeat' split at h
    all_goals cases h
    rfl
  · unfold ofBuffer at h
    split at h
    · unfold ofBytes at h
      split at h
      all_goals cases h
      rfl
    · cases h
  · unfold ofAscii at h
    repeat' split at h
    all_goals cases h
    rfl
  · unfold ofUtf8 at h
    repeat' split at h
    all_goals cases h
    rfl

/-- No tuple that can be made has two fields of one name. -/
theorem Constructible.distinct {v : Value} (h : v.Constructible) : v.Distinct := by
  have hleaf : ∀ {w : Value}, w.keyLists = [] → w.Distinct := fun hw keys hkeys => by
    rw [hw] at hkeys
    cases hkeys
  induction h with
  | int h => exact hleaf (keyLists_ofDatum (.inl h))
  | uint h => exact hleaf (keyLists_ofDatum (.inr (.inl h)))
  | bool b => exact hleaf rfl
  | buffer h => exact hleaf (keyLists_ofDatum (.inr (.inr (.inl h))))
  | ascii h => exact hleaf (keyLists_ofDatum (.inr (.inr (.inr (.inl h)))))
  | utf8 h => exact hleaf (keyLists_ofDatum (.inr (.inr (.inr (.inr h)))))
  | standard | contract => exact hleaf rfl
  | none => exact hleaf rfl
  | some hv h ih =>
    cases h
    exact ih
  | ok hv h ih =>
    cases h
    exact ih
  | err hv h ih =>
    cases h
    exact ih
  | @list items w hitems h ih =>
    rw [ofList, itemsFrom_of] at h
    obtain rfl : .list items = w := Except.ok.inj h
    exact forall_itemsKeyLists.mpr ih
  | @tuple fields w hfields h ih =>
    obtain ⟨fs, hfs, rfl⟩ := Outcome.map_eq_ok.mp h
    have hnil : (([] : List (Name × Value)).map Prod.fst).Nodup := List.nodup_nil
    obtain ⟨hnames, hvalues⟩ := fieldsOnto_spec hnil hfs
    refine forall_keyLists_tuple.mpr ⟨hnames, fun f hf => ?_⟩
    have hmem : f.2 ∈ fs.map Prod.snd := List.mem_map_of_mem hf
    rw [hvalues] at hmem
    obtain ⟨g, hg, hgf⟩ := List.mem_map.mp hmem
    rw [← hgf]
    exact ih g hg

/-- An account with a whole version can be made, also where the version is given as a truth value. -/
theorem accountOf_of_whole {d : Datum} {n : Fin 32} (h : Wire.whole? d = Option.some (n.val : Int)) (hash : Hash160) :
    Principal.accountOf d (.bytes hash.val) = .ok ⟨.whole n, hash⟩ := by
  have hversion : Principal.versionOf d = .ok (.whole n) := by
    have hbelow : below? 32 (n.val : Int) = .some n := below?_eq_some_iff.mpr rfl
    unfold Principal.versionOf
    cases d with
    | real x => cases h
    | _ => simp only [h, hbelow]
  have hhash : Hash160.ofBytes? hash.val = .some hash := dif_pos hash.property
  unfold Principal.accountOf
  rw [hversion]
  simp only [hhash]
  rfl

/-- An account with a whole version can be made. -/
theorem accountOf_whole (n : Fin 32) (hash : Hash160) :
    Principal.accountOf (.integer n.val) (.bytes hash.val) = .ok ⟨.whole n, hash⟩ := accountOf_of_whole rfl hash

/-- The principal of an account with a whole version can be made. -/
theorem standard_whole (n : Fin 32) (hash : Hash160) :
    Principal.standard (.integer n.val) (.bytes hash.val) = .ok ⟨⟨.whole n, hash⟩, .none⟩ := by
  rw [Principal.standard, accountOf_whole]
  rfl

/-- The principal of a contract with a whole version can be made. -/
theorem contract_whole (n : Fin 32) (hash : Hash160) (name : Name) :
    Principal.contract (.integer n.val) (.bytes hash.val) (.text name.text) = .ok ⟨⟨.whole n, hash⟩, .some name⟩ := by
  rw [Principal.contract, accountOf_whole, Name.ofDatum, Name.ofText_text]
  rfl

/-- A principal that can be written can be made. -/
theorem constructible_principal {p : Principal} (h : p.flaw? = Option.none) : (principal p).Constructible := by
  obtain ⟨n, hversion⟩ := (Principal.flaw?_eq_none_iff p).mp h
  obtain ⟨⟨version, hash⟩, contract?⟩ := p
  obtain rfl : version = .whole n := hversion
  cases contract? with
  | none => exact .standard (standard_whole n hash)
  | some name => exact .contract (contract_whole n hash name)

/-- A value without repeated names that can be written can be made. -/
theorem constructible_of_distinct {v : Value} (hnames : v.Distinct) (hflaw : v.flaw? = Option.none) :
    v.Constructible := by
  induction v with
  | int n => exact .int (d := .integer n.val) (by rw [ofInt, Int128.ofInt?_eq_some_iff.mpr rfl])
  | uint n => exact .uint (d := .integer n.val) (by rw [ofUInt, below?_eq_some_iff.mpr rfl])
  | bool b => exact .bool b
  | buffer b =>
    have hbytes : ofBytes b.val = .ok (.buffer b) := dif_pos b.property
    exact .buffer (d := .bytes b.val) (by rw [ofBuffer, Datum.toBytes]; simp only [hbytes]; rfl)
  | ascii t => exact .ascii (d := .text t.val) (by rw [ofAscii, dif_pos t.property])
  | utf8 t => exact .utf8 (d := .text t.val) (by rw [ofUtf8, dif_pos t.property])
  | principal p => exact constructible_principal hflaw
  | none => exact .none
  | some v ih => exact .some (ih hnames hflaw) rfl
  | ok v ih => exact .ok (ih hnames hflaw) rfl
  | err v ih => exact .err (ih hnames hflaw) rfl
  | list items ih =>
    have hitems := forall_itemsKeyLists.mp hnames
    rw [flaw?, Option.or_eq_none_iff, itemsFlaw?_eq_none_iff] at hflaw
    refine .list (fun v hv => ih v hv (hitems v hv) (hflaw.2 v hv)) ?_
    rw [ofList, itemsFrom_of]
    rfl
  | tuple fields ih =>
    have hfields := forall_keyLists_tuple.mp hnames
    rw [flaw?, Option.or_eq_none_iff, fieldsFlaw?_eq_none_iff] at hflaw
    have hpairs : fieldsOnto [] (fields.map fun f => (.text f.1.text, .of f.2)) = .ok fields :=
      fieldsOnto_of hfields.1
    have hparts : ∀ g ∈ fields.map fun f => (Datum.text f.1.text, f.2), g.2.Constructible :=
      List.forall_mem_map.mpr fun f hf => ih f hf (hfields.2 f hf) (hflaw.2 f hf)
    refine .tuple hparts ?_
    rw [ofPairs, List.map_map]
    exact Outcome.map_eq_ok.mpr ⟨fields, hpairs, rfl⟩

end Value

end StacksWallet
