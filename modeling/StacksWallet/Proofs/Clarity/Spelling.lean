import StacksWallet.Clarity.Decoding
import StacksWallet.Proofs.Clarity.Order
import StacksWallet.Proofs.Text.Utf8
import StacksWallet.Proofs.Wire.Primitive

/-!
# What the reader of values accepts

A value is read back from its bytes if its tuples are in order, if it can be written at all, and if it is nested
on few enough levels; from other bytes no value is read. Behind each tag stands content of one form, and the
levels are counted down by one for the parts of a value. Guards on counts accept and refuse nothing of their
own, since every item takes a byte and every field takes more.

How a reader reports what it refuses is left open here.
-/

namespace StacksWallet

namespace Tag

/-- A number names a tag if it is the tag's number. -/
theorem ofCode?_eq_some_iff {n : Nat} {tag : Tag} : ofCode? n = some tag ↔ n = tag.code := by
  constructor
  · have hcodes : ∀ i : Fin all.length, i.val = all[i].code := by decide
    intro h
    obtain ⟨hn, rfl⟩ := List.getElem?_eq_some_iff.mp h
    exact hcodes ⟨n, hn⟩
  · intro h
    obtain rfl := h
    cases tag <;> rfl

end Tag

namespace Value

/-- The value can be written as it is, and it is nested on fewer than a number of levels. -/
structure Fits (levels : Nat) (v : Value) : Prop where
  ordered : v.Ordered
  flawless : v.flaw? = .none
  depth_lt : v.depth < levels

/-- What stands behind a tag, for parts that fit. -/
inductive Content (P : Value → Prop) : Tag → Value → Bytes → Prop
  /-- Sixteen bytes. -/
  | int (n : Int128) : Content P .int (.int n) (bigEndianSigned 16 n.val)
  /-- Sixteen bytes. -/
  | uint (n : UInt128) : Content P .uint (.uint n) (bigEndian 16 n.val)
  /-- The bytes after their number. -/
  | buffer (b : Buffer) : Content P .buffer (.buffer b) (sized b.val)
  /-- Nothing. -/
  | boolTrue : Content P .boolTrue (.bool true) []
  /-- Nothing. -/
  | boolFalse : Content P .boolFalse (.bool false) []
  /-- An account. -/
  | standard (p : Principal) (hcontract : p.contract? = .none) (hflaw : p.flaw? = .none) :
      Content P .principalStandard (.principal p) p.bytes
  /-- A contract. -/
  | contract (p : Principal) (hcontract : p.contract? ≠ .none) (hflaw : p.flaw? = .none) :
      Content P .principalContract (.principal p) p.bytes
  /-- The value of the response. -/
  | ok (v : Value) (hv : P v) : Content P .responseOk (.ok v) v.bytes
  /-- The value of the response. -/
  | err (v : Value) (hv : P v) : Content P .responseErr (.err v) v.bytes
  /-- Nothing. -/
  | none : Content P .optionalNone .none []
  /-- The value of the optional. -/
  | some (v : Value) (hv : P v) : Content P .optionalSome (.some v) v.bytes
  /-- The items after their number. -/
  | list (items : List Value) (hcount : items.length < wordCount 4) (hitems : ∀ v ∈ items, P v) :
      Content P .list (.list items) (bigEndian 4 items.length ++ items.flatMap bytes)
  /-- The fields in order after their number. -/
  | tuple (fields : List (Name × Value)) (hcount : fields.length < wordCount 4)
      (hordered : fields.Pairwise fun f g => f.1.precedes g.1 = true) (hfields : ∀ f ∈ fields, P f.2) :
      Content P .tuple (.tuple fields) (bigEndian 4 fields.length ++ fields.flatMap fieldBytes)
  /-- The characters after their number. -/
  | ascii (t : AsciiText) (hsize : t.val.length < wordCount 4) :
      Content P .stringAscii (.ascii t) (sized (Text.narrow t.val))
  /-- The bytes of the characters after their number. -/
  | utf8 (t : Utf8Text) (hsize : (Utf8.bytes t.val).length < wordCount 4) :
      Content P .stringUtf8 (.utf8 t) (sized (Utf8.bytes t.val))

variable {levels : Nat}

/-- What only adds a level to another value fits with one level more. -/
theorem fits_wrapper_iff (v w : Value) (hkeys : w.keyLists = v.keyLists) (hflaw : w.flaw? = v.flaw?)
    (hdepth : w.depth = v.depth + 1) : w.Fits (levels + 1) ↔ v.Fits levels := by
  have hordered : w.Ordered ↔ v.Ordered := by rw [Ordered, Ordered, hkeys]
  constructor
  · intro h
    obtain ⟨ho, hf, hd⟩ := h
    exact ⟨hordered.mp ho, hflaw ▸ hf, by omega⟩
  · intro h
    obtain ⟨ho, hf, hd⟩ := h
    exact ⟨hordered.mpr ho, hflaw ▸ hf, by omega⟩

/-- A list fits with one level more than its items. -/
theorem fits_list_iff {items : List Value} :
    (list items).Fits (levels + 1) ↔ items.length < wordCount 4 ∧ ∀ v ∈ items, v.Fits levels := by
  have hflaw : (list items).flaw? = .none ↔ items.length < wordCount 4 ∧ ∀ v ∈ items, v.flaw? = .none := by
    rw [flaw?, Option.or_eq_none_iff, sizeFlaw?_eq_none_iff, itemsFlaw?_eq_none_iff]
  have hdepth : (list items).depth < levels + 1 ↔ ∀ v ∈ items, v.depth < levels := by
    rw [depth, Nat.lt_succ_iff, itemsDepth_le_iff]
  constructor
  · intro h
    obtain ⟨ho, hf, hd⟩ := h
    rw [ordered_list_iff] at ho
    rw [hflaw] at hf
    rw [hdepth] at hd
    exact ⟨hf.1, fun v hv => ⟨ho v hv, hf.2 v hv, hd v hv⟩⟩
  · intro h
    obtain ⟨hcount, hitems⟩ := h
    exact ⟨ordered_list_iff.mpr fun v hv => (hitems v hv).ordered,
      hflaw.mpr ⟨hcount, fun v hv => (hitems v hv).flawless⟩, hdepth.mpr fun v hv => (hitems v hv).depth_lt⟩

/-- A tuple in order fits with one level more than its fields. -/
theorem fits_tuple_iff {fields : List (Name × Value)} :
    (tuple fields).Fits (levels + 1) ↔ fields.length < wordCount 4 ∧
      (fields.Pairwise fun f g => f.1.precedes g.1 = true) ∧ ∀ f ∈ fields, f.2.Fits levels := by
  have hflaw : (tuple fields).flaw? = .none ↔ fields.length < wordCount 4 ∧ ∀ f ∈ fields, f.2.flaw? = .none := by
    rw [flaw?, Option.or_eq_none_iff, sizeFlaw?_eq_none_iff, fieldsFlaw?_eq_none_iff]
  have hdepth : (tuple fields).depth < levels + 1 ↔ ∀ f ∈ fields, f.2.depth < levels := by
    rw [depth, Nat.lt_succ_iff, fieldsDepth_le_iff]
  constructor
  · intro h
    obtain ⟨ho, hf, hd⟩ := h
    rw [ordered_tuple_iff] at ho
    rw [hflaw] at hf
    rw [hdepth] at hd
    exact ⟨hf.1, ho.1, fun f hfield => ⟨ho.2 f hfield, hf.2 f hfield, hd f hfield⟩⟩
  · intro h
    obtain ⟨hcount, hordered, hfields⟩ := h
    exact ⟨ordered_tuple_iff.mpr ⟨hordered, fun f hf => (hfields f hf).ordered⟩,
      hflaw.mpr ⟨hcount, fun f hf => (hfields f hf).flawless⟩, hdepth.mpr fun f hf => (hfields f hf).depth_lt⟩

/-- A value without parts fits if it can be written. -/
theorem fits_leaf {v : Value} (hkeys : v.keyLists = []) (hflaw : v.flaw? = .none) (hdepth : v.depth = 0) :
    v.Fits (levels + 1) := by
  refine ⟨fun keys h => ?_, hflaw, by omega⟩
  rw [hkeys] at h
  cases h

/-- A buffer has a size of four bytes. -/
theorem flaw?_buffer (b : Buffer) : (buffer b).flaw? = .none :=
  sizeFlaw?_eq_none_iff.mpr (b.property.trans_lt (by decide))

/-- What stands behind a tag belongs to a value that fits. -/
theorem Content.fits {tag : Tag} {v : Value} {c : Bytes} (h : Content (Fits levels) tag v c) :
    v.Fits (levels + 1) := by
  cases h with
  | int | uint | boolTrue | boolFalse | none => exact fits_leaf rfl rfl rfl
  | buffer b => exact fits_leaf rfl (flaw?_buffer b) rfl
  | standard p _ hflaw => exact fits_leaf rfl hflaw rfl
  | contract p _ hflaw => exact fits_leaf rfl hflaw rfl
  | ok v hv => exact (fits_wrapper_iff v (.ok v) rfl rfl rfl).mpr hv
  | err v hv => exact (fits_wrapper_iff v (.err v) rfl rfl rfl).mpr hv
  | some v hv => exact (fits_wrapper_iff v (.some v) rfl rfl rfl).mpr hv
  | list items hcount hitems => exact fits_list_iff.mpr ⟨hcount, hitems⟩
  | tuple fields hcount hordered hfields => exact fits_tuple_iff.mpr ⟨hcount, hordered, hfields⟩
  | ascii t hsize => exact fits_leaf rfl (sizeFlaw?_eq_none_iff.mpr hsize) rfl
  | utf8 t hsize => exact fits_leaf rfl (sizeFlaw?_eq_none_iff.mpr hsize) rfl

/-- A tag and what stands behind it are the bytes of the value. -/
theorem Content.bytes_eq {P : Value → Prop} {tag : Tag} {v : Value} {c : Bytes} (h : Content P tag v c) :
    v.bytes = UInt8.ofNat tag.code :: c := by
  cases h with
  | standard p hcontract => rw [bytes, hcontract]; rfl
  | contract p hcontract => rw [bytes, if_pos (Option.isSome_iff_ne_none.mpr hcontract)]; rfl
  | list items => rw [bytes, itemsBytes_eq]; rfl
  | tuple fields => rw [bytes, fieldsBytes_eq]; rfl
  | _ => rfl

/-- Behind the tag of a value that fits stands the content of the value. -/
theorem Fits.content {v : Value} (h : v.Fits (levels + 1)) : ∃ tag c, Content (Fits levels) tag v c := by
  have hflaw := h.flawless
  cases v with
  | int n => exact ⟨_, _, .int n⟩
  | uint n => exact ⟨_, _, .uint n⟩
  | bool b =>
    cases b with
    | false => exact ⟨_, _, .boolFalse⟩
    | true => exact ⟨_, _, .boolTrue⟩
  | buffer b => exact ⟨_, _, .buffer b⟩
  | ascii t => exact ⟨_, _, .ascii t (sizeFlaw?_eq_none_iff.mp hflaw)⟩
  | utf8 t => exact ⟨_, _, .utf8 t (sizeFlaw?_eq_none_iff.mp hflaw)⟩
  | principal p =>
    by_cases hcontract : p.contract? = .none
    · exact ⟨_, _, .standard p hcontract hflaw⟩
    · exact ⟨_, _, .contract p hcontract hflaw⟩
  | none => exact ⟨_, _, .none⟩
  | some v => exact ⟨_, _, .some v ((fits_wrapper_iff v (.some v) rfl rfl rfl).mp h)⟩
  | ok v => exact ⟨_, _, .ok v ((fits_wrapper_iff v (.ok v) rfl rfl rfl).mp h)⟩
  | err v => exact ⟨_, _, .err v ((fits_wrapper_iff v (.err v) rfl rfl rfl).mp h)⟩
  | list items =>
    obtain ⟨hcount, hitems⟩ := fits_list_iff.mp h
    exact ⟨_, _, .list items hcount hitems⟩
  | tuple fields =>
    obtain ⟨hcount, hordered, hfields⟩ := fits_tuple_iff.mp h
    exact ⟨_, _, .tuple fields hcount hordered hfields⟩

/-- The bytes of a value that fits are its tag and the content behind it. -/
theorem content_iff {v : Value} {b : Bytes} :
    (∃ tag c, Content (Fits levels) tag v c ∧ b = UInt8.ofNat tag.code :: c) ↔
      v.Fits (levels + 1) ∧ b = v.bytes := by
  constructor
  · intro h
    obtain ⟨tag, c, h, rfl⟩ := h
    exact ⟨h.fits, h.bytes_eq.symm⟩
  · intro h
    obtain ⟨h, rfl⟩ := h
    obtain ⟨tag, c, hc⟩ := h.content
    exact ⟨tag, c, hc, hc.bytes_eq⟩

/-- A value has at least one byte. -/
theorem bytes_ne_nil (v : Value) : v.bytes ≠ [] := by
  cases v <;> simp [bytes]

section Content

variable {P : Value → Prop}

/-- Signed integers are made from what sixteen bytes hold. -/
theorem ofInt_integer_eq_ok_iff {n : Int} {v : Value} :
    ofInt (.integer n) = .ok v ↔ ∃ k : Int128, n = k.val ∧ v = int k := by
  rw [ofInt]
  cases hk : Int128.ofInt? n with
  | none =>
    refine ⟨nofun, ?_⟩
    intro h
    obtain ⟨k, hn, -⟩ := h
    rw [Int128.ofInt?_eq_some_iff.mpr hn] at hk
    cases hk
  | some k =>
    obtain rfl := Int128.ofInt?_eq_some_iff.mp hk
    constructor
    · intro h
      obtain ⟨⟩ := h
      exact ⟨k, rfl, rfl⟩
    · intro h
      obtain ⟨l, hkl, rfl⟩ := h
      rw [Subtype.ext hkl]

/-- Unsigned integers are made from what sixteen bytes hold. -/
theorem ofUInt_integer_eq_ok_iff {n : Int} {v : Value} :
    ofUInt (.integer n) = .ok v ↔ ∃ k : UInt128, n = k.val ∧ v = uint k := by
  rw [ofUInt]
  cases hk : below? 0x1_0000_0000_0000_0000_0000_0000_0000_0000 n with
  | none =>
    refine ⟨nofun, ?_⟩
    intro h
    obtain ⟨k, hn, -⟩ := h
    rw [below?_eq_some_iff.mpr hn] at hk
    cases hk
  | some k =>
    obtain rfl := below?_eq_some_iff.mp hk
    constructor
    · intro h
      obtain ⟨⟩ := h
      exact ⟨k, rfl, rfl⟩
    · intro h
      obtain ⟨l, hkl, rfl⟩ := h
      rw [Fin.ext (Int.ofNat_inj.mp hkl)]

/-- The content of signed integers. -/
theorem reads_readInt : readInt.Reads (fun v b _ => Content P .int v b) := by
  refine (Reader.reads_i128.bind_written (t := fun n v b _ => ofInt (.integer n) = .ok v ∧ b = [])
    fun n _ => ?_).congr fun v b after => ?_
  · cases ofInt (.integer n) with
    | error fault => exact (Reader.reads_throw fault).congr fun v b _ => by simp
    | ok w => exact (Reader.reads_pure w).congr fun v b _ => by simp [Spelling.silent, eq_comm]
  · simp only [ofInt_integer_eq_ok_iff]
    constructor
    · intro h
      obtain ⟨_, _, -, rfl, ⟨k, rfl, rfl⟩, rfl⟩ := h
      rw [List.append_nil]
      exact .int k
    · intro h
      cases h with
      | int k =>
        have hrange : -(wordCount 16 : Int) ≤ 2 * k.val ∧ 2 * k.val < wordCount 16 := by
          have hk := k.property
          have hcount : wordCount 16 = 0x1_0000_0000_0000_0000_0000_0000_0000_0000 := by decide
          omega
        exact ⟨k.val, [], hrange, (List.append_nil _).symm, ⟨k, rfl, rfl⟩, rfl⟩

/-- The content of unsigned integers. -/
theorem reads_readUInt : readUInt.Reads (fun v b _ => Content P .uint v b) := by
  refine (Reader.reads_u128.bind_written (t := fun (n : Nat) v b _ => ofUInt (.integer n) = .ok v ∧ b = [])
    fun n _ => ?_).congr fun v b after => ?_
  · cases ofUInt (.integer n) with
    | error fault => exact (Reader.reads_throw fault).congr fun v b _ => by simp
    | ok w => exact (Reader.reads_pure w).congr fun v b _ => by simp [Spelling.silent, eq_comm]
  · simp only [ofUInt_integer_eq_ok_iff]
    constructor
    · intro h
      obtain ⟨n, _, -, rfl, ⟨k, hk, rfl⟩, rfl⟩ := h
      obtain rfl := Int.ofNat_inj.mp hk
      rw [List.append_nil]
      exact .uint k
    · intro h
      cases h with
      | uint k =>
        have hcount : 0x1_0000_0000_0000_0000_0000_0000_0000_0000 = wordCount 16 := by decide
        exact ⟨k.val, [], k.isLt.trans_eq hcount, (List.append_nil _).symm, ⟨k, rfl, rfl⟩, rfl⟩

/-- The content of buffers. -/
theorem reads_readBuffer : readBuffer.Reads (fun v b _ => Content P .buffer v b) := by
  refine (Reader.reads_position fun start =>
    Reader.reads_longBytes.bind_written fun a _ => Reader.reads_require start .value (ofBytes a)).congr
    fun v b after => ?_
  constructor
  · intro h
    obtain ⟨a, _, -, rfl, hv, rfl⟩ := h
    rw [List.append_nil]
    unfold ofBytes at hv
    split at hv
    · rename_i ha
      obtain rfl := Except.ok.inj hv
      exact .buffer ⟨a, ha⟩
    · cases hv
  · intro h
    cases h with
    | buffer a =>
      exact ⟨a.val, [], a.property.trans_lt (by decide), (List.append_nil _).symm, dif_pos a.property, rfl⟩

/-- The content of ASCII strings. -/
theorem reads_readAscii : readAscii.Reads (fun v b _ => Content P .stringAscii v b) := by
  have hcont : ∀ (start : Int) (raw : Bytes),
      (if h : ((Text.widen raw).all fun c => isPlain c.val) = true then pure (ascii ⟨Text.widen raw, h⟩)
        else Reader.malformed start .notAscii : Reader Value).Reads
        (fun v b _ => ∃ h, Spelling.silent (ascii ⟨Text.widen raw, h⟩) v b []) := fun start raw =>
    Reader.reads_dite (fun h => Reader.reads_pure _) (Reader.reads_malformed _ _)
  refine (Reader.reads_position fun start =>
    Reader.reads_longBytes.bind_written fun raw _ => hcont start raw).congr fun v b after => ?_
  constructor
  · intro h
    obtain ⟨raw, _, hraw, rfl, h, rfl, rfl⟩ := h
    have hlength : (Text.widen raw).length = raw.length := List.length_map _
    have hcontent := Content.ascii (P := P) ⟨Text.widen raw, h⟩ (by rwa [hlength])
    rw [List.append_nil]
    rwa [Text.narrow_widen] at hcontent
  · intro h
    cases h with
    | ascii t hsize =>
      have ht : ∀ c ∈ t.val, c.val < 256 := by
        intro c hc
        have hplain := List.all_eq_true.mp t.property c hc
        simp only [isPlain, Bool.or_eq_true, Bool.and_eq_true, decide_eq_true_eq, beq_iff_eq] at hplain
        omega
      have hlength : (Text.narrow t.val).length = t.val.length := List.length_map _
      refine ⟨Text.narrow t.val, [], by rwa [hlength], (List.append_nil _).symm, ?_, ?_, rfl⟩
      · rw [Text.widen_narrow ht]
        exact t.property
      · simp only [Text.widen_narrow ht]

/-- The content of UTF-8 strings. -/
theorem reads_readUtf8 : readUtf8.Reads (fun v b _ => Content P .stringUtf8 v b) := by
  have hcont : ∀ t : Text,
      (if h : (t.all fun c => !c.isSurrogate) = true then pure (utf8 ⟨t, h⟩)
        else throw (.invalid .utf8Unencodable) : Reader Value).Reads
        (fun v b _ => ∃ h, Spelling.silent (utf8 ⟨t, h⟩) v b []) := fun t =>
    Reader.reads_dite (fun h => Reader.reads_pure _) (Reader.reads_throw _)
  refine (Reader.reads_position fun start => Reader.reads_longBytes.bind_written fun raw _ =>
    (Reader.reads_require start .notUtf8 (Utf8.decode raw)).bind fun t => hcont t).congr fun v b after => ?_
  constructor
  · intro h
    obtain ⟨raw, _, hraw, rfl, t, _, _, rfl, ⟨ht, rfl⟩, h, rfl, rfl⟩ := h
    obtain ⟨-, rfl⟩ := Utf8.decode_eq_ok_iff.mp ht
    rw [List.append_nil, List.append_nil]
    exact .utf8 ⟨t, h⟩ hraw
  · intro h
    cases h with
    | utf8 t hsize =>
      exact ⟨Utf8.bytes t.val, [], hsize, (List.append_nil _).symm, t.val, [], [], rfl,
        ⟨Utf8.decode_eq_ok_iff.mpr ⟨t.property, rfl⟩, rfl⟩, t.property, rfl, rfl⟩

/-- Fields are read while their names come in order, onto those already read. -/
theorem reads_readFieldsOnto {inner : Reader Value} (hinner : inner.Reads (.written P bytes)) (n : Nat)
    (previous : Option Name) (done : List (Name × Value)) :
    (readFieldsOnto inner previous done n).Reads (fun fields b _ =>
      ∃ more, fields = done.reverse ++ more ∧ more.length = n ∧ (∀ f ∈ more, P f.2) ∧
        (previous.toList ++ more.map Prod.fst).IsChain (fun k l => k.precedes l = true) ∧
        b = more.flatMap fieldBytes) := by
  induction n generalizing previous done with
  | zero =>
    refine (Reader.reads_pure done.reverse).congr fun fields b after => ?_
    constructor
    · intro h
      obtain ⟨rfl, rfl⟩ := h
      refine ⟨[], (List.append_nil _).symm, rfl, by simp, ?_, rfl⟩
      cases previous <;> simp
    · intro h
      obtain ⟨more, rfl, hlength, -, -, rfl⟩ := h
      obtain rfl := List.length_eq_zero_iff.mp hlength
      exact ⟨List.append_nil _, rfl⟩
  | succ n ih =>
    rw [readFieldsOnto]
    refine (Reader.reads_position fun start => (Name.reads .tupleKey).bind_written fun key _ =>
      Reader.reads_guard (p := (previous.any fun earlier => !earlier.precedes key) = true) fun _ =>
        hinner.bind_written fun v _ => ih (Option.some key) ((key, v) :: done)).congr fun fields b after => ?_
    have hchain : ∀ (key : Name) (keys : List Name),
        ¬ (previous.any fun earlier => !earlier.precedes key) = true ∧
            ((Option.some key).toList ++ keys).IsChain (fun k l => k.precedes l = true) ↔
          (previous.toList ++ key :: keys).IsChain (fun k l => k.precedes l = true) := by
      intro key keys
      cases previous <;> simp [List.isChain_cons_cons]
    constructor
    · intro h
      obtain ⟨key, _, -, rfl, hnext, v, _, hv, rfl, more, rfl, rfl, hmore, hkeys, rfl⟩ := h
      refine ⟨(key, v) :: more, ?_, rfl, List.forall_mem_cons.mpr ⟨hv, hmore⟩, (hchain key _).mp ⟨hnext, hkeys⟩, ?_⟩
      · rw [List.reverse_cons, List.append_assoc, List.singleton_append]
      · rw [List.flatMap_cons, fieldBytes, List.append_assoc]
    · intro h
      obtain ⟨_ | ⟨⟨key, v⟩, more⟩, rfl, hlength, hmore, hkeys, rfl⟩ := h
      · cases hlength
      · obtain ⟨hv, hmore⟩ := List.forall_mem_cons.mp hmore
        obtain ⟨hnext, hkeys⟩ := (hchain key _).mpr hkeys
        refine ⟨key, v.bytes ++ more.flatMap fieldBytes, trivial, ?_, hnext, v, _, hv, rfl, more, ?_,
          Nat.succ.inj hlength, hmore, hkeys, rfl⟩
        · rw [List.flatMap_cons, fieldBytes, List.append_assoc]
        · rw [List.reverse_cons, List.append_assoc, List.singleton_append]

/-- Parts that take a byte each are no more than their bytes. -/
theorem length_le_flatMap {α : Type} {form : α → Bytes} (hform : ∀ a, form a ≠ []) (as : List α) :
    as.length ≤ (as.flatMap form).length := by
  induction as with
  | nil => simp
  | cons a rest ih =>
    have ha := List.length_pos_iff.mpr (hform a)
    rw [List.flatMap_cons, List.length_append, List.length_cons]
    omega

/-- A field has at least one byte. -/
theorem fieldBytes_ne_nil (f : Name × Value) : fieldBytes f ≠ [] :=
  List.append_ne_nil_of_left_ne_nil f.1.encode_ne_nil _

/-- Items are read behind their number. -/
theorem reads_items {inner : Reader Value} (hinner : inner.Reads (.written P bytes)) (guarded : Bool) :
    (readContent guarded inner .list).Reads (fun v b _ => Content P .list v b) := by
  refine (Reader.reads_counted guarded .listItems (fun n => (Reader.reads_times hinner n).bind fun items =>
    Reader.reads_pure (list items)) ?_).congr fun v b after => ⟨?_, ?_⟩
  · intro n _ _ after h
    obtain ⟨items, b₁, _, rfl, ⟨rfl, hitems⟩, rfl, rfl⟩ := h
    rw [List.append_nil]
    obtain ⟨-, rfl⟩ := Spelling.each_written.mp hitems
    exact length_le_flatMap bytes_ne_nil items
  · intro h
    obtain ⟨n, _, hn, rfl, items, _, _, rfl, ⟨rfl, hitems⟩, rfl, rfl⟩ := h
    obtain ⟨hparts, rfl⟩ := Spelling.each_written.mp hitems
    rw [List.append_nil]
    exact .list items hn hparts
  · intro h
    cases h with
    | list items hcount hitems =>
      exact ⟨items.length, _, hcount, rfl, items, _, [], (List.append_nil _).symm,
        ⟨rfl, Spelling.each_written.mpr ⟨hitems, rfl⟩⟩, rfl, rfl⟩

/-- Fields are read behind their number, if their names come in order. -/
theorem reads_fields {inner : Reader Value} (hinner : inner.Reads (.written P bytes)) (guarded : Bool) :
    (readContent guarded inner .tuple).Reads (fun v b _ => Content P .tuple v b) := by
  refine (Reader.reads_counted guarded .tupleFields (fun n =>
    (reads_readFieldsOnto hinner n Option.none []).bind fun fields =>
      Reader.reads_pure (tuple fields)) ?_).congr fun v b after => ⟨?_, ?_⟩
  · intro n _ _ after h
    obtain ⟨_, _, _, rfl, ⟨more, -, rfl, -, -, rfl⟩, rfl, rfl⟩ := h
    rw [List.append_nil]
    exact length_le_flatMap fieldBytes_ne_nil _
  · intro h
    obtain ⟨n, _, hn, rfl, _, _, _, rfl, ⟨fields, rfl, rfl, hfields, hkeys, rfl⟩, rfl, rfl⟩ := h
    rw [List.append_nil]
    exact .tuple _ hn (List.pairwise_map.mp (List.isChain_iff_pairwise.mp hkeys)) hfields
  · intro h
    cases h with
    | tuple fields hcount hordered hfields =>
      have hkeys : (fields.map Prod.fst).IsChain fun k l => k.precedes l = true :=
        List.isChain_iff_pairwise.mpr (List.pairwise_map.mpr hordered)
      exact ⟨fields.length, _, hcount, rfl, fields, _, [], (List.append_nil _).symm,
        ⟨fields, rfl, rfl, hfields, hkeys, rfl⟩, rfl, rfl⟩

/-- Every tag is followed by its own content. -/
theorem reads_readContent {inner : Reader Value} (hinner : inner.Reads (.written P bytes)) (guarded : Bool)
    (tag : Tag) : (readContent guarded inner tag).Reads (fun v b _ => Content P tag v b) := by
  cases tag with
  | int => exact reads_readInt
  | uint => exact reads_readUInt
  | buffer => exact reads_readBuffer
  | stringAscii => exact reads_readAscii
  | stringUtf8 => exact reads_readUtf8
  | list => exact reads_items hinner guarded
  | tuple => exact reads_fields hinner guarded
  | boolTrue =>
    refine (Reader.reads_pure (bool true)).congr fun v b after => ⟨?_, ?_⟩
    · intro h
      obtain ⟨rfl, rfl⟩ := h
      exact .boolTrue
    · intro h
      cases h
      exact ⟨rfl, rfl⟩
  | boolFalse =>
    refine (Reader.reads_pure (bool false)).congr fun v b after => ⟨?_, ?_⟩
    · intro h
      obtain ⟨rfl, rfl⟩ := h
      exact .boolFalse
    · intro h
      cases h
      exact ⟨rfl, rfl⟩
  | optionalNone =>
    refine (Reader.reads_pure none).congr fun v b after => ⟨?_, ?_⟩
    · intro h
      obtain ⟨rfl, rfl⟩ := h
      exact .none
    · intro h
      cases h
      exact ⟨rfl, rfl⟩
  | principalStandard =>
    refine (Principal.reads_readStandard.map_written principal).congr fun v b after => ⟨?_, ?_⟩
    · intro h
      obtain ⟨p, ⟨hcontract, hflaw⟩, rfl, rfl⟩ := h
      exact .standard p hcontract hflaw
    · intro h
      cases h with
      | standard p hcontract hflaw => exact ⟨p, ⟨hcontract, hflaw⟩, rfl, rfl⟩
  | principalContract =>
    refine (Principal.reads_readContract.map_written principal).congr fun v b after => ⟨?_, ?_⟩
    · intro h
      obtain ⟨p, ⟨hcontract, hflaw⟩, rfl, rfl⟩ := h
      exact .contract p hcontract hflaw
    · intro h
      cases h with
      | contract p hcontract hflaw => exact ⟨p, ⟨hcontract, hflaw⟩, rfl, rfl⟩
  | responseOk =>
    refine (hinner.map_written ok).congr fun v b after => ⟨?_, ?_⟩
    · intro h
      obtain ⟨w, hw, rfl, rfl⟩ := h
      exact .ok w hw
    · intro h
      cases h with
      | ok w hw => exact ⟨w, hw, rfl, rfl⟩
  | responseErr =>
    refine (hinner.map_written err).congr fun v b after => ⟨?_, ?_⟩
    · intro h
      obtain ⟨w, hw, rfl, rfl⟩ := h
      exact .err w hw
    · intro h
      cases h with
      | err w hw => exact ⟨w, hw, rfl, rfl⟩
  | optionalSome =>
    refine (hinner.map_written some).congr fun v b after => ⟨?_, ?_⟩
    · intro h
      obtain ⟨w, hw, rfl, rfl⟩ := h
      exact .some w hw
    · intro h
      cases h with
      | some w hw => exact ⟨w, hw, rfl, rfl⟩

end Content

/-- A reader of a number of levels reads the values that fit into them, each from its one form. -/
theorem reads_readWithin (guarded : Bool) (levels : Nat) :
    (readWithin guarded levels).Reads (.written (Fits levels) bytes) := by
  induction levels with
  | zero =>
    refine (Reader.reads_position fun start => Reader.reads_malformed start _).congr fun v b after => ?_
    exact ⟨False.elim, fun h => absurd h.1.depth_lt (Nat.not_lt_zero _)⟩
  | succ levels ih =>
    refine (Reader.reads_position fun start => Reader.reads_u8.bind_written
      (t := fun n v b _ => ∃ tag : Tag, n = tag.code ∧ Content (Fits levels) tag v b) fun n _ => ?_).congr
      fun v b after => ?_
    · cases hn : Tag.ofCode? n with
      | none =>
        refine (Reader.reads_malformed start _).congr fun v b after => ⟨False.elim, ?_⟩
        intro h
        obtain ⟨tag, htag, -⟩ := h
        rw [Tag.ofCode?_eq_some_iff.mpr htag] at hn
        cases hn
      | some tag =>
        obtain rfl := Tag.ofCode?_eq_some_iff.mp hn
        refine (reads_readContent ih guarded tag).congr fun v b after => ⟨fun h => ⟨tag, rfl, h⟩, ?_⟩
        intro h
        obtain ⟨other, hcode, h⟩ := h
        rw [Tag.ofCode?_eq_some_iff.mpr hcode] at hn
        obtain rfl := Option.some.inj hn
        exact h
    · rw [Spelling.written, ← content_iff]
      constructor
      · intro h
        obtain ⟨_, c, -, rfl, tag, rfl, h⟩ := h
        exact ⟨tag, c, h, by simp [bigEndian, wordCount]⟩
      · intro h
        obtain ⟨tag, c, h, rfl⟩ := h
        have hcode : tag.code < wordCount 1 := by cases tag <;> decide
        exact ⟨tag.code, c, hcode, by simp [bigEndian, wordCount], tag, rfl, h⟩

end Value

end StacksWallet
