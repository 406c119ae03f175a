import StacksWallet.Proofs.Clarity.Literal
import StacksWallet.Proofs.Clarity.Order

/-!
# What the texts of values tell apart

The text of a value is told from what follows it by a space or a closing parenthesis, or else by its own quotation marks
and parentheses. The guards in strings make sure that no string ends early. Names have no guards: the name of a contract
with a space or a closing parenthesis in it, or the name of a field with a space, can read like the end of one value and
the beginning of another. Without such names, values with the same text are the same, up to the fractions of versions,
which no text shows.
-/

namespace StacksWallet

/-- Spaces and closing parentheses end the word in front of them. -/
def CodePoint.isBreak (c : CodePoint) : Bool := c == 32 || c == 41

namespace Text

/-- A text that can stand behind a word: it is empty, or it begins with a space or a closing parenthesis. -/
def Breaks (t : Text) : Prop := ∀ c, t.head? = some c → c.isBreak = true

/-- A closing parenthesis can stand behind a word, with anything behind it. -/
theorem breaks_parenthesis (t : Text) : Breaks (41 :: t) := fun _ hc => Option.some.inj hc ▸ rfl

end Text

namespace Value

/-- A guarded character does not begin with a quotation mark. -/
theorem guard_append_ne (c : CodePoint) (u r : Text) : guard c ++ u ≠ 34 :: r := by
  intro h
  unfold guard at h
  split at h
  · nomatch (List.cons.inj h).1
  · rename_i hplain
    obtain rfl := (List.cons.inj h).1
    exact hplain rfl

/-- A guarded character is told from what follows it. -/
theorem guard_append_inj {c c' : CodePoint} {u u' : Text} (h : guard c ++ u = guard c' ++ u') : c = c' ∧ u = u' := by
  unfold guard at h
  split at h <;> split at h
  · obtain ⟨-, h⟩ := List.cons.inj h
    exact List.cons.inj h
  · -- Only a guard begins with a backslash.
    rename_i hplain
    obtain rfl := (List.cons.inj h).1
    exact absurd rfl hplain
  · rename_i hplain _
    obtain rfl := (List.cons.inj h).1
    exact absurd rfl hplain
  · exact List.cons.inj h

/-- A guarded text ends at the first quotation mark without a guard. -/
theorem guarded_append_inj {t t' r r' : Text} (h : guarded t ++ 34 :: r = guarded t' ++ 34 :: r') :
    t = t' ∧ r = r' := by
  induction t generalizing t' with
  | nil =>
    cases t' with
    | nil => exact ⟨rfl, (List.cons.inj h).2⟩
    | cons c' rest' =>
      rw [guarded_cons, List.append_assoc] at h
      exact (guard_append_ne _ _ _ h.symm).elim
  | cons c rest ih =>
    rw [guarded_cons, List.append_assoc] at h
    cases t' with
    | nil => exact (guard_append_ne _ _ _ h).elim
    | cons c' rest' =>
      rw [guarded_cons, List.append_assoc] at h
      obtain ⟨rfl, hrest⟩ := guard_append_inj h
      obtain ⟨rfl, hafter⟩ := ih hrest
      exact ⟨rfl, hafter⟩

/-- A string ends at its own quotation mark, whatever follows it. -/
theorem quote_append_inj {t t' r r' : Text} (h : quote t ++ r = quote t' ++ r') : t = t' ∧ r = r' := by
  rw [quote_eq, quote_eq, List.cons_append, List.cons_append, List.append_assoc, List.append_assoc] at h
  exact guarded_append_inj (List.cons.inj h).2

/-- The form of a value's text. -/
inductive Shape where
  /-- A word without spaces and parentheses. -/
  | word
  /-- An ASCII string. -/
  | ascii
  /-- A UTF-8 string. -/
  | utf8
  /-- An address and perhaps a name. -/
  | principal
  /-- A present optional. -/
  | some
  /-- A response of success. -/
  | ok
  /-- A response of failure. -/
  | err
  /-- A list. -/
  | list
  /-- A tuple. -/
  | tuple

/-- The form of the text that a value has. -/
def shape : Value → Shape
  | int _ | uint _ | bool _ | buffer _ | none => .word
  | ascii _ => .ascii
  | utf8 _ => .utf8
  | principal _ => .principal
  | some _ => .some
  | ok _ => .ok
  | err _ => .err
  | list _ => .list
  | tuple _ => .tuple

/-- The form that two characters at the front of a text announce. -/
def Shape.ofText (t : Text) : Shape :=
  if t.head? = .some 34 then ascii
  else if t.head? = .some 83 then principal
  else if t.head? = .some 117 then if t[1]? = .some 34 then utf8 else word
  else if t.head? = .some 40 then
    if t[1]? = .some 115 then some
    else if t[1]? = .some 111 then ok
    else if t[1]? = .some 101 then err
    else if t[1]? = .some 108 then list
    else tuple
  else word

/-- A sign or a digit announces a word. -/
theorem ofText_of_digit {c : CodePoint} (hc : c = 45 ∨ c.isAsciiDigit = true) (t : Text) :
    Shape.ofText (c :: t) = .word := by
  have hne (d : CodePoint) (hd : (d == 45 || d.isAsciiDigit) = false) : c ≠ d := by
    rintro rfl
    rw [Bool.or_eq_false_iff, beq_eq_false_iff_ne, Bool.eq_false_iff] at hd
    exact hc.elim hd.1 hd.2
  simp [Shape.ofText, hne 34 rfl, hne 83 rfl, hne 117 rfl, hne 40 rfl]

/-- A digit behind a letter u announces a word. -/
theorem ofText_of_u_digit {c : CodePoint} (hc : c.isAsciiDigit = true) (t : Text) :
    Shape.ofText (117 :: c :: t) = .word := by
  have hquote : c ≠ 34 := by
    rintro rfl
    nomatch hc
  simp [Shape.ofText, hquote]

/-- The text of a value announces its form, whatever follows it. -/
theorem ofText_append (v : Value) (r : Text) : Shape.ofText (v.text ++ r) = v.shape := by
  cases v with
  | int n =>
    have hchars := Text.sign_or_digit_of_mem_ofInt n.val
    have hsome : Text.ofInt n.val ≠ [] := by
      rw [Text.ofInt_eq]
      exact List.append_ne_nil_of_right_ne_nil _ (Text.digits_of_ofNat _).1
    obtain ⟨c, rest, hcons⟩ := List.exists_cons_of_ne_nil hsome
    rw [text, hcons]
    exact ofText_of_digit (hchars c (hcons ▸ List.mem_cons_self)) _
  | uint n =>
    obtain ⟨hsome, hdigits⟩ := Text.digits_of_ofNat n.val
    obtain ⟨c, rest, hcons⟩ := List.exists_cons_of_ne_nil hsome
    rw [text, hcons]
    exact ofText_of_u_digit (hdigits c (hcons ▸ List.mem_cons_self)) _
  | bool b => cases b <;> rfl
  | principal p =>
    obtain ⟨account, contract?⟩ := p
    cases contract? <;> rfl
  | buffer | ascii | utf8 | none | some | ok | err | list | tuple => rfl

/-- Values whose texts begin in the same way have the same form. -/
theorem shape_eq_of_append {v w : Value} {r r' : Text} (h : v.text ++ r = w.text ++ r') : w.shape = v.shape := by
  rw [← ofText_append v r, h, ofText_append]

/-- Words have neither spaces nor parentheses, and they are read as what they stand for. -/
theorem text_of_word {v : Value} (h : v.shape = .word) :
    (∀ c ∈ v.text, c.isBreak = false) ∧ ofLiteral v.text = .ok v ∧ v.truncated = v := by
  have hdigit {c : CodePoint} (hc : c.isAsciiDigit = true) : c.isBreak = false := by
    refine Bool.eq_false_iff.mpr fun hbreak => ?_
    rcases (Bool.or_eq_true _ _).mp hbreak with hbreak | hbreak
    · nomatch beq_iff_eq.mp hbreak ▸ hc
    · nomatch beq_iff_eq.mp hbreak ▸ hc
  have hword {t : Text} (ht : (t.all fun c => !c.isBreak) = true) : ∀ c ∈ t, c.isBreak = false := fun c hc =>
    (Bool.not_eq_true' _).mp (List.all_eq_true.mp ht c hc)
  cases v with
  | int n =>
    refine ⟨fun c hc => ?_, ofLiteral_int n, rfl⟩
    rcases Text.sign_or_digit_of_mem_ofInt n.val c hc with rfl | hc
    · rfl
    · exact hdigit hc
  | uint n =>
    refine ⟨fun c hc => ?_, ofLiteral_uint n, rfl⟩
    rcases List.mem_cons.mp hc with rfl | hc
    · rfl
    · exact hdigit ((Text.digits_of_ofNat n.val).2 c hc)
  | bool b => exact ⟨hword (by cases b <;> rfl), ofLiteral_word.1 b, rfl⟩
  | buffer b =>
    refine ⟨fun c hc => ?_, ofLiteral_buffer b, rfl⟩
    have hfigure : ∀ d : Fin 16, (figure d.val).isBreak = false := by decide
    rcases List.mem_append.mp hc with hmark | hc
    · exact hword (t := "0x") rfl c hmark
    · obtain ⟨d, hd, rfl⟩ := Hex.exists_figure_of_mem_plain hc
      exact hfigure ⟨d, hd⟩
  | none => exact ⟨hword rfl, ofLiteral_word.2, rfl⟩
  | ascii | utf8 | principal | some | ok | err | list | tuple => nomatch h

/-- Words that stand at the front of a text are the same there. -/
theorem word_append_inj {v w : Value} {r r' : Text} (hv : v.shape = .word) (hw : w.shape = .word) (hr : r.Breaks)
    (hr' : r'.Breaks) (h : v.text ++ r = w.text ++ r') : v.truncated = w.truncated ∧ r = r' := by
  obtain ⟨hvchars, hvread, hvwhole⟩ := text_of_word hv
  obtain ⟨hwchars, hwread, hwwhole⟩ := text_of_word hw
  obtain ⟨htext, hrest⟩ := Text.append_inj_of_stop hvchars hwchars hr hr' h
  rw [htext, hwread] at hvread
  rw [hvwhole, hwwhole]
  exact ⟨(Except.ok.inj hvread).symm, hrest⟩

/-- Whether a value can be told from what stands around it: no name of a contract in it has a space or a closing
parenthesis, and no name of a field a space. -/
structure Enclosed (v : Value) : Prop where
  contracts : ∀ w ∈ v.parts, ∀ p ∈ w.principal?, ∀ name ∈ p.contract?, ∀ c ∈ name.text, c.isBreak = false
  fields : ∀ keys ∈ v.keyLists, ∀ key ∈ keys, (32 : CodePoint) ∉ key.text

/-- The parts of an enclosed list are enclosed. -/
theorem Enclosed.of_list {items : List Value} (h : (list items).Enclosed) : ∀ v ∈ items, v.Enclosed := fun v hv =>
  ⟨forall_itemsParts.mp (fun w hw => h.contracts w (List.mem_cons_of_mem _ hw)) v hv,
    forall_itemsKeyLists.mp h.fields v hv⟩

/-- The parts of an enclosed tuple are enclosed, and their names have no spaces. -/
theorem Enclosed.of_tuple {fields : List (Name × Value)} (h : (tuple fields).Enclosed) :
    ∀ f ∈ fields, (32 : CodePoint) ∉ f.1.text ∧ f.2.Enclosed := fun f hf =>
  ⟨(forall_keyLists_tuple.mp h.fields).1 f.1 (List.mem_map_of_mem hf),
    forall_fieldsParts.mp (fun w hw => h.contracts w (List.mem_cons_of_mem _ hw)) f hf,
    (forall_keyLists_tuple.mp h.fields).2 f hf⟩

/-- The part of an enclosed optional or response is enclosed. -/
theorem Enclosed.of_wrapped {v : Value} (h : (some v).Enclosed ∨ (ok v).Enclosed ∨ (err v).Enclosed) : v.Enclosed := by
  rcases h with h | h | h
  all_goals exact ⟨fun w hw => h.contracts w (List.mem_cons_of_mem _ hw), h.fields⟩

/-- The text of an enclosed principal is a word. -/
theorem isBreak_of_mem_principal {p : Principal} (h : (principal p).Enclosed) :
    ∀ c ∈ (principal p).text, c.isBreak = false := by
  have haddress : ∀ c ∈ p.account.text, c.isBreak = false := fun c hc => by
    have hall : (C32.alphabet.all fun c => !c.isBreak) = true := by decide +kernel
    exact (Bool.not_eq_true' _).mp (List.all_eq_true.mp hall c (Address.mem_alphabet_of_mem_text _ c hc))
  obtain ⟨account, contract?⟩ := p
  cases contract? with
  | none => exact haddress
  | some name =>
    have hname : ∀ c ∈ name.text, c.isBreak = false := h.contracts _ List.mem_cons_self _ rfl name rfl
    intro c hc
    rcases List.mem_append.mp hc with hc | hc
    · rcases List.mem_append.mp hc with hc | hc
      · exact haddress c hc
      · obtain rfl : c = 46 := List.mem_singleton.mp hc
        rfl
    · exact hname c hc

/-- Principals with the same text are the same, up to the fractions of their versions. -/
theorem principal_text_inj {p q : Principal} (h : (principal p).text = (principal q).text) :
    (principal p).truncated = (principal q).truncated := by
  have hparse := (Principal.parse_text_truncated p).symm.trans
    ((congrArg Principal.parse h).trans (Principal.parse_text_truncated q))
  exact congrArg principal (Except.ok.inj hparse)

/-- What stands between the same opening and a parenthesis is compared from its front on. -/
theorem wrapped_append_inj {s t t' r r' : Text} (h : s ++ t ++ ")" ++ r = s ++ t' ++ ")" ++ r') :
    t ++ 41 :: r = t' ++ 41 :: r' := by
  simp only [List.append_assoc] at h
  exact List.append_cancel_left h

/-- Whether the text of a value is told from those of others where it stands at the front of a text. -/
def Separable (v : Value) : Prop :=
  ∀ {w : Value} {r r' : Text}, v.Enclosed → w.Enclosed → r.Breaks → r'.Breaks → v.text ++ r = w.text ++ r' →
    v.truncated = w.truncated ∧ r = r'

/-- The texts of items are told from each other if those of each item are. -/
theorem itemsText_append_inj {items items' : List Value} {r r' : Text} (hitems : ∀ v ∈ items, v.Separable)
    (henclosed : ∀ v ∈ items, v.Enclosed) (henclosed' : ∀ v ∈ items', v.Enclosed)
    (h : itemsText items ++ 41 :: r = itemsText items' ++ 41 :: r') :
    items.map truncated = items'.map truncated ∧ r = r' := by
  induction items generalizing items' with
  | nil =>
    cases items' with
    | nil => exact ⟨rfl, (List.cons.inj h).2⟩
    | cons w rest' => nomatch (List.cons.inj h).1
  | cons v rest ih =>
    cases items' with
    | nil => nomatch (List.cons.inj h).1
    | cons w rest' =>
      rw [List.forall_mem_cons] at hitems henclosed henclosed'
      have hbreaks (items : List Value) (r : Text) : (itemsText items ++ 41 :: r).Breaks := by
        cases items with
        | nil => exact Text.breaks_parenthesis r
        | cons v rest => exact fun _ hc => Option.some.inj hc ▸ rfl
      have hfront : v.text ++ (itemsText rest ++ 41 :: r) = w.text ++ (itemsText rest' ++ 41 :: r') := by
        rw [itemsText, itemsText, List.append_assoc, List.append_assoc, List.append_assoc, List.append_assoc] at h
        exact List.append_cancel_left h
      obtain ⟨hvalue, hrest⟩ := hitems.1 henclosed.1 henclosed'.1 (hbreaks rest r) (hbreaks rest' r') hfront
      obtain ⟨hvalues, hafter⟩ := ih hitems.2 henclosed.2 henclosed'.2 hrest
      rw [List.map_cons, List.map_cons, hvalue, hvalues]
      exact ⟨rfl, hafter⟩

/-- The texts of fields are told from each other if those of each value in them are. -/
theorem fieldsText_append_inj {fields fields' : List (Name × Value)} {r r' : Text}
    (hfields : ∀ f ∈ fields, f.2.Separable) (henclosed : ∀ f ∈ fields, (32 : CodePoint) ∉ f.1.text ∧ f.2.Enclosed)
    (henclosed' : ∀ f ∈ fields', (32 : CodePoint) ∉ f.1.text ∧ f.2.Enclosed)
    (h : fieldsText fields ++ 41 :: r = fieldsText fields' ++ 41 :: r') :
    (fields.map fun f => (f.1, f.2.truncated)) = (fields'.map fun f => (f.1, f.2.truncated)) ∧ r = r' := by
  induction fields generalizing fields' with
  | nil =>
    cases fields' with
    | nil => exact ⟨rfl, (List.cons.inj h).2⟩
    | cons g rest' => nomatch (List.cons.inj h).1
  | cons f rest ih =>
    cases fields' with
    | nil => nomatch (List.cons.inj h).1
    | cons g rest' =>
      obtain ⟨key, v⟩ := f
      obtain ⟨key', w⟩ := g
      rw [List.forall_mem_cons] at hfields henclosed henclosed'
      have hfront : key.text ++ 32 :: (v.text ++ 41 :: (fieldsText rest ++ 41 :: r)) =
          key'.text ++ 32 :: (w.text ++ 41 :: (fieldsText rest' ++ 41 :: r')) := by
        simp only [fieldsText, List.append_assoc] at h
        exact List.append_cancel_left h
      have hspace {key : Name} (hkey : (32 : CodePoint) ∉ key.text) : ∀ c ∈ key.text, (c == 32) = false := fun c hc =>
        beq_false_of_ne fun h => hkey (h ▸ hc)
      have hstop (t : Text) : ∀ c, (32 :: t).head? = Option.some c → (c == 32) = true := fun c hc =>
        beq_iff_eq.mpr (Option.some.inj hc).symm
      obtain ⟨hkey, hvalues⟩ :=
        Text.append_inj_of_stop (hspace henclosed.1.1) (hspace henclosed'.1.1) (hstop _) (hstop _) hfront
      obtain ⟨hvalue, hclosed⟩ := hfields.1 henclosed.1.2 henclosed'.1.2 (Text.breaks_parenthesis _)
        (Text.breaks_parenthesis _) (List.cons.inj hvalues).2
      obtain ⟨hrest, hafter⟩ := ih hfields.2 henclosed.2 henclosed'.2 (List.cons.inj hclosed).2
      rw [List.map_cons, List.map_cons, hrest, Name.eq_of_text hkey, hvalue]
      exact ⟨rfl, hafter⟩

/-- The text of an optional or a response is told from others of its kind if the text of its part is. -/
theorem Separable.wrapped (wrap : Value → Value) {s : Text} (htext : ∀ v, (wrap v).text = s ++ v.text ++ ")")
    (htruncated : ∀ v, (wrap v).truncated = wrap v.truncated) (hpart : ∀ {v}, (wrap v).Enclosed → v.Enclosed)
    {v w : Value} {r r' : Text} (hseparable : v.Separable) (hv : (wrap v).Enclosed) (hw : (wrap w).Enclosed)
    (h : (wrap v).text ++ r = (wrap w).text ++ r') : (wrap v).truncated = (wrap w).truncated ∧ r = r' := by
  rw [htext, htext] at h
  obtain ⟨hvalue, hrest⟩ := hseparable (hpart hv) (hpart hw) (Text.breaks_parenthesis r) (Text.breaks_parenthesis r')
    (wrapped_append_inj h)
  rw [htruncated, htruncated, hvalue]
  exact ⟨rfl, (List.cons.inj hrest).2⟩

/-- The text of an enclosed value is told from that of any other one, whatever follows the two. -/
theorem separable (v : Value) : v.Separable := by
  -- The other value has the same form, so it is of the same kind, or both are words.
  induction v with
  | int | uint | bool | buffer | none =>
    intro w r r' _ _ hr hr' h
    exact word_append_inj rfl (shape_eq_of_append h) hr hr' h
  | ascii t =>
    intro w r r' _ _ _ _ h
    have hshape := shape_eq_of_append h
    cases w with
    | ascii t' =>
      obtain ⟨htext, hrest⟩ := quote_append_inj h
      exact ⟨congrArg ascii (Subtype.ext htext), hrest⟩
    | _ => cases hshape
  | utf8 t =>
    intro w r r' _ _ _ _ h
    have hshape := shape_eq_of_append h
    cases w with
    | utf8 t' =>
      obtain ⟨htext, hrest⟩ := quote_append_inj (List.cons.inj h).2
      exact ⟨congrArg utf8 (Subtype.ext htext), hrest⟩
    | _ => cases hshape
  | principal p =>
    intro w r r' hv hw hr hr' h
    have hshape := shape_eq_of_append h
    cases w with
    | principal q =>
      obtain ⟨htext, hrest⟩ :=
        Text.append_inj_of_stop (isBreak_of_mem_principal hv) (isBreak_of_mem_principal hw) hr hr' h
      exact ⟨principal_text_inj htext, hrest⟩
    | _ => cases hshape
  | some v ih =>
    intro w r r' hv hw _ _ h
    have hshape := shape_eq_of_append h
    cases w with
    | some w => exact ih.wrapped some (fun _ => rfl) (fun _ => rfl) (fun h => .of_wrapped (.inl h)) hv hw h
    | _ => cases hshape
  | ok v ih =>
    intro w r r' hv hw _ _ h
    have hshape := shape_eq_of_append h
    cases w with
    | ok w => exact ih.wrapped ok (fun _ => rfl) (fun _ => rfl) (fun h => .of_wrapped (.inr (.inl h))) hv hw h
    | _ => cases hshape
  | err v ih =>
    intro w r r' hv hw _ _ h
    have hshape := shape_eq_of_append h
    cases w with
    | err w => exact ih.wrapped err (fun _ => rfl) (fun _ => rfl) (fun h => .of_wrapped (.inr (.inr h))) hv hw h
    | _ => cases hshape
  | list items ih =>
    intro w r r' hv hw _ _ h
    have hshape := shape_eq_of_append h
    cases w with
    | list items' =>
      obtain ⟨hitems, hrest⟩ := itemsText_append_inj ih hv.of_list hw.of_list (wrapped_append_inj h)
      rw [truncated, truncated, truncatedItems_eq, truncatedItems_eq, hitems]
      exact ⟨rfl, hrest⟩
    | _ => cases hshape
  | tuple fields ih =>
    intro w r r' hv hw _ _ h
    have hshape := shape_eq_of_append h
    cases w with
    | tuple fields' =>
      obtain ⟨hfields, hrest⟩ := fieldsText_append_inj ih hv.of_tuple hw.of_tuple (wrapped_append_inj h)
      rw [truncated, truncated, truncatedFields_eq, truncatedFields_eq, hfields]
      exact ⟨rfl, hrest⟩
    | _ => cases hshape

/-- Fractions of versions are not shown. -/
theorem text_truncated (v : Value) : v.truncated.text = v.text := by
  induction v with
  | int | uint | bool | buffer | ascii | utf8 | none => rfl
  | principal p =>
    obtain ⟨account, contract?⟩ := p
    cases contract? <;> rfl
  | some v ih => rw [truncated, text, text, ih]
  | ok v ih => rw [truncated, text, text, ih]
  | err v ih => rw [truncated, text, text, ih]
  | list items ih =>
    have hitems : itemsText (items.map truncated) = itemsText items := by
      induction items with
      | nil => rfl
      | cons v rest hrest =>
        rw [List.forall_mem_cons] at ih
        rw [List.map_cons, itemsText, itemsText, ih.1, hrest ih.2]
    rw [truncated, truncatedItems_eq, text, text, hitems]
  | tuple fields ih =>
    have hfields : fieldsText (fields.map fun f => (f.1, f.2.truncated)) = fieldsText fields := by
      induction fields with
      | nil => rfl
      | cons f rest hrest =>
        rw [List.forall_mem_cons] at ih
        rw [List.map_cons, fieldsText, fieldsText, ih.1, hrest ih.2]
    rw [truncated, truncatedFields_eq, text, text, hfields]

/-- Whether a value can be told from its text: it is an optional or a response of such a value, a principal of any name,
or enclosed. -/
def Delimited : Value → Prop
  | some v | ok v | err v => Delimited v
  | principal _ => True
  | v => v.Enclosed

/-- Delimited values with the same text are the same, up to the fractions of versions. -/
theorem truncated_eq_of_text_eq {v w : Value} (hv : v.Delimited) (hw : w.Delimited) (h : v.text = w.text) :
    v.truncated = w.truncated := by
  have hnil : Text.Breaks [] := nofun
  have happend {v w : Value} (h : v.text = w.text) : v.text ++ [] = w.text ++ [] := congrArg (· ++ []) h
  -- Optionals and responses are opened on both sides; below them the whole texts are compared again.
  induction v generalizing w with
  | int | uint | bool | buffer | none =>
    exact (word_append_inj rfl (shape_eq_of_append (happend h)) hnil hnil (happend h)).1
  | principal p =>
    have hshape := shape_eq_of_append (happend h)
    cases w with
    | principal q => exact principal_text_inj h
    | _ => cases hshape
  | some v ih =>
    have hshape := shape_eq_of_append (happend h)
    cases w with
    | some w => exact congrArg some (ih hv hw (List.append_cancel_right (wrapped_append_inj (happend h))))
    | _ => cases hshape
  | ok v ih =>
    have hshape := shape_eq_of_append (happend h)
    cases w with
    | ok w => exact congrArg ok (ih hv hw (List.append_cancel_right (wrapped_append_inj (happend h))))
    | _ => cases hshape
  | err v ih =>
    have hshape := shape_eq_of_append (happend h)
    cases w with
    | err w => exact congrArg err (ih hv hw (List.append_cancel_right (wrapped_append_inj (happend h))))
    | _ => cases hshape
  | ascii t =>
    have hshape := shape_eq_of_append (happend h)
    cases w with
    | ascii t' => exact (separable _ hv hw hnil hnil (happend h)).1
    | _ => cases hshape
  | utf8 t =>
    have hshape := shape_eq_of_append (happend h)
    cases w with
    | utf8 t' => exact (separable _ hv hw hnil hnil (happend h)).1
    | _ => cases hshape
  | list items =>
    have hshape := shape_eq_of_append (happend h)
    cases w with
    | list items' => exact (separable _ hv hw hnil hnil (happend h)).1
    | _ => cases hshape
  | tuple fields =>
    have hshape := shape_eq_of_append (happend h)
    cases w with
    | tuple fields' => exact (separable _ hv hw hnil hnil (happend h)).1
    | _ => cases hshape

/-- Two values have the same text if and only if they are the same up to the fractions of versions, provided that in
lists and tuples no name of a contract has a space or a closing parenthesis and no name of a field has a space. -/
theorem texts_unambiguous {v w : Value} (hv : v.Delimited) (hw : w.Delimited) :
    (v.text = w.text ↔ v.truncated = w.truncated) ∧ (v.Versioned → w.Versioned → v.text = w.text → v = w) := by
  have hsame : v.text = w.text ↔ v.truncated = w.truncated :=
    ⟨truncated_eq_of_text_eq hv hw, fun h => by rw [← text_truncated v, h, text_truncated]⟩
  refine ⟨hsame, fun hversioned hversioned' h => ?_⟩
  rw [← truncated_eq_self hversioned, ← truncated_eq_self hversioned']
  exact hsame.mp h

/-- A tuple with one string, in which the end of this string and the beginning of another field are imitated. -/
def imitatingTuple : Value := tuple [(⟨"a)", by decide⟩, ascii ⟨"x\") (b \"y", by decide⟩)]

/-- The tuple with two strings that is imitated. -/
def imitatedTuple : Value :=
  tuple [(⟨"a)", by decide⟩, ascii ⟨"x", by decide⟩), (⟨"b", admits_b⟩, ascii ⟨"y", by decide⟩)]

/-- The guards in the string make the difference. A closing parenthesis in the name of a field does no harm. -/
theorem imitation_distinguished :
    imitatingTuple.Delimited ∧ imitatedTuple.Delimited ∧ imitatingTuple.text ≠ imitatedTuple.text := by
  have himitating : imitatingTuple.Enclosed := ⟨by decide, by decide⟩
  have himitated : imitatedTuple.Enclosed := ⟨by decide, by decide⟩
  refine ⟨himitating, himitated, fun h => ?_⟩
  have hsame := (texts_unambiguous (v := imitatingTuple) (w := imitatedTuple) himitating himitated).1.mp h
  nomatch (List.cons.inj (Value.tuple.inj hsame)).2

/-- Two values that can be made and are not equal, but have the same text. -/
structure Mistakable (v w : Value) : Prop where
  made : v.Constructible ∧ w.Constructible
  text : v.text = w.text
  differ : v.equal w = false

/-- A contract of one account. -/
def contractOf (t : Text) (h : Name.admits t = true) : Value :=
  principal ⟨⟨.whole ⟨22, Principal.single_lt⟩, .zero⟩, .some ⟨t, h⟩⟩

/-- A list of a contract and the absent optional. -/
def twoItems : Value := list [contractOf "a" admits_a, none]

/-- A list of one contract whose name has a space. -/
def oneItem : Value := list [contractOf "a none" (by decide)]

/-- A list of a list of two contracts, the first of which has a parenthesis at the end of its name. -/
def innerPair : Value := list [list [contractOf "a)" (by decide), contractOf "b" admits_b]]

/-- A list of a list and a contract, which has a parenthesis at the end of its name. -/
def outerPair : Value := list [list [contractOf "a" admits_a], contractOf "b)" (by decide)]

/-- A tuple of two fields. -/
def twoFields : Value := tuple [(⟨"a", admits_a⟩, none), (⟨"b", admits_b⟩, none)]

/-- A tuple of one field whose name has spaces. -/
def oneField : Value := tuple [(⟨"a none) (b", by decide⟩, none)]

/-- A list of one item can look like a list of two, a contract can look like an item of another list, and a tuple of one
field can look like a tuple of two. -/
theorem names_mistakable :
    twoItems.Mistakable oneItem ∧ innerPair.Mistakable outerPair ∧ twoFields.Mistakable oneField := by
  have hdistinct {v : Value} (h : ∀ keys ∈ v.keyLists, keys.Nodup) : v.Distinct := h
  refine ⟨⟨⟨?_, ?_⟩, by decide +kernel, by decide⟩, ⟨⟨?_, ?_⟩, by decide +kernel, by decide⟩,
    ⟨⟨?_, ?_⟩, by decide +kernel, by decide⟩⟩
  all_goals exact constructible_of_distinct (hdistinct (by decide)) rfl

end Value

end StacksWallet
