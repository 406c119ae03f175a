import StacksWallet.Bytes.Hex
import StacksWallet.Proofs.Text.Basic

/-!
# Bytes as figures and back

Bytes that were written as pairs of figures are read again from these, with the mark `0x` in front of them or without
it. There is nothing but figures in such a text, so that neither its ends nor the places between the pairs are blank.

More texts than these are read. Blanks of ASCII may stand around the pairs, though not within them, and which bytes a
text then spells is said by one rule for each of the things that may stand at its front.
-/

namespace StacksWallet.Hex

/-- The figures of the numbers below sixteen are read as these numbers. -/
theorem hexValue?_figure {d : Nat} (h : d < 16) : hexValue? (figure d) = some d := by
  have hall : ∀ d : Fin 16, hexValue? (figure d.val) = some d.val := by decide
  exact hall ⟨d, h⟩

/-- Figures are ASCII and not blank. -/
theorem figure_visible {d : Nat} (h : d < 16) :
    (figure d).isAscii = true ∧ (figure d).isBlank = false ∧ (figure d).isAsciiBlank = false := by
  have hall : ∀ d : Fin 16, (figure d.val).isAscii = true ∧ (figure d.val).isBlank = false ∧
      (figure d.val).isAsciiBlank = false := by decide
  exact hall ⟨d, h⟩

/-- The halves of a byte are below sixteen and make up the byte. -/
theorem halves (x : UInt8) :
    x.toNat / 16 < 16 ∧ x.toNat % 16 < 16 ∧ UInt8.ofNat (x.toNat / 16 * 16 + x.toNat % 16) = x := by
  have hx := x.toNat_lt
  refine ⟨by omega, by omega, ?_⟩
  rw [Nat.div_add_mod', UInt8.ofNat_toNat]

/-- What bytes are written with are the figures of numbers below sixteen. -/
theorem exists_figure_of_mem_plain {b : Bytes} {c : CodePoint} (h : c ∈ plain b) : ∃ d < 16, c = figure d := by
  obtain ⟨x, -, hc⟩ := List.mem_flatMap.mp h
  obtain ⟨hhigh, hlow, -⟩ := halves x
  rcases List.mem_cons.mp hc with rfl | hc
  · exact ⟨_, hhigh, rfl⟩
  · exact ⟨_, hlow, List.mem_singleton.mp hc⟩

/-- There are two figures for each byte. -/
theorem length_plain (b : Bytes) : (plain b).length = 2 * b.length := by
  induction b with
  | nil => rfl
  | cons x rest ih =>
    have hstep : plain (x :: rest) = ofByte x ++ plain rest := List.flatMap_cons
    rw [hstep, List.length_append, ih, List.length_cons, ofByte, List.length_cons, List.length_singleton]
    omega

/-- The pairs of figures are read byte by byte. -/
theorem pairsOnto_plain (done : Bytes) (position : Nat) (b : Bytes) :
    pairsOnto done position (plain b) = .ok (done.reverse ++ b) := by
  induction b generalizing done position with
  | nil => rw [List.append_nil]; rfl
  | cons x rest ih =>
    obtain ⟨hhigh, hlow, hbyte⟩ := halves x
    have hstep : plain (x :: rest) = figure (x.toNat / 16) :: figure (x.toNat % 16) :: plain rest := List.flatMap_cons
    have hround : pairsOnto done position (plain (x :: rest)) =
        pairsOnto (UInt8.ofNat (x.toNat / 16 * 16 + x.toNat % 16) :: done) (position + 2) (plain rest) := by
      simp [hstep, pairsOnto, figure_visible hhigh, hexValue?_figure hhigh, hexValue?_figure hlow]
    rw [hround, hbyte, ih, List.reverse_cons, List.append_assoc, List.singleton_append]

/-- Bytes are read again from their figures. -/
theorem pairs_plain (b : Bytes) : pairs (plain b) = .ok b := by
  have hascii : (plain b).findIdx? (fun c => !c.isAscii) = none := by
    refine List.findIdx?_eq_none_iff.mpr fun c hc => ?_
    obtain ⟨d, hd, rfl⟩ := exists_figure_of_mem_plain hc
    rw [(figure_visible hd).1]
    rfl
  rw [pairs, hascii]
  exact pairsOnto_plain [] 0 b

/-- Nothing in bytes behind `0x` is blank. -/
theorem isBlank_of_mem_prefixed {b : Bytes} {c : CodePoint} (h : c ∈ prefixed b) : c.isBlank = false := by
  rcases List.mem_append.mp h with hmark | hc
  · have hall : (("0x" : Text).all fun c => !c.isBlank) = true := rfl
    exact (Bool.not_eq_true' _).mp (List.all_eq_true.mp hall c hmark)
  · obtain ⟨d, hd, rfl⟩ := exists_figure_of_mem_plain hc
    exact (figure_visible hd).2.1

/-- Bytes are read again from their figures behind `0x`. -/
theorem read_prefixed (b : Bytes) : read (prefixed b) = .ok b := by
  have hstrip : Text.strip (prefixed b) = prefixed b := Text.trim_eq_self fun _ hc => isBlank_of_mem_prefixed hc
  have hbody : afterMark (prefixed b) = plain b := rfl
  have heven : ¬ (plain b).length % 2 = 1 := by
    rw [length_plain]
    omega
  rw [read, hstrip, hbody, if_neg heven, pairs_plain]

/-- The text spells the bytes: it is made of pairs of figures, with blanks of ASCII around them. -/
inductive Spells : Text → Bytes → Prop where
  /-- Nothing. -/
  | nil : Spells [] []
  /-- A blank in front. -/
  | blank {c : CodePoint} {t : Text} {b : Bytes} (hc : c.isAsciiBlank = true) (h : Spells t b) : Spells (c :: t) b
  /-- A pair in front. -/
  | pair {c d : CodePoint} {t : Text} {high low : Nat} {b : Bytes} (hhigh : hexValue? c = some high)
      (hlow : hexValue? d = some low) (h : Spells t b) : Spells (c :: d :: t) (UInt8.ofNat (high * 16 + low) :: b)

/-- What has a value as a figure is ASCII and not blank. -/
theorem visible_of_hexValue? {c : CodePoint} {n : Nat} (h : hexValue? c = some n) :
    c.isAscii = true ∧ c.isBlank = false ∧ c.isAsciiBlank = false := by
  have hrange : 48 ≤ c.val ∧ c.val ≤ 102 := by
    unfold hexValue? at h
    split at h
    · simp_all; omega
    · split at h
      · simp_all; omega
      · split at h
        · simp_all; omega
        · cases h
  refine ⟨decide_eq_true (by omega), CodePoint.isBlank_eq_false (by omega), ?_⟩
  simp only [CodePoint.isAsciiBlank, Bool.or_eq_false_iff, Bool.and_eq_false_imp, decide_eq_true_eq,
    decide_eq_false_iff_not, beq_eq_false_iff_ne, ne_eq, Fin.ext_iff]
  omega

/-- A blank of ASCII is ASCII and blank. -/
theorem blank_of_isAsciiBlank {c : CodePoint} (h : c.isAsciiBlank = true) : c.isAscii = true ∧ c.isBlank = true := by
  simp only [CodePoint.isAsciiBlank, Bool.or_eq_true, Bool.and_eq_true, decide_eq_true_eq, beq_iff_eq] at h
  have hrange : c.val < 128 := by
    rcases h with h | rfl
    · omega
    · decide
  refine ⟨decide_eq_true hrange, ?_⟩
  rcases h with h | rfl
  · simp [CodePoint.isBlank, CodePoint.isWhiteSpace, h]
  · decide

/-- The reader finds the bytes that a text spells. -/
theorem pairsOnto_eq_ok_iff {done : Bytes} {position : Nat} {t : Text} {b : Bytes} :
    pairsOnto done position t = .ok b ↔ ∃ c, Spells t c ∧ b = done.reverse ++ c := by
  fun_induction pairsOnto done position t generalizing b with
  | case1 done position =>
    constructor
    · intro h
      exact ⟨[], .nil, by simpa using (Except.ok.inj h).symm⟩
    · intro h
      obtain ⟨c, hc, rfl⟩ := h
      cases hc
      simp
  | case2 done position c rest hblank ih =>
    rw [ih]
    refine exists_congr fun b' => and_congr_left' ⟨.blank hblank, fun h => ?_⟩
    cases h with
    | blank _ h => exact h
    | pair hhigh => exact absurd hblank (by simp [visible_of_hexValue? hhigh])
  | case3 done position c rest hblank hnone =>
    refine ⟨nofun, fun ⟨_, h, _⟩ => ?_⟩
    cases h with
    | blank h => exact absurd h hblank
    | pair hhigh => cases hnone.symm.trans hhigh
  | case4 done position c hblank _ hhigh =>
    refine ⟨nofun, fun ⟨_, h, _⟩ => ?_⟩
    cases h with
    | blank h => exact absurd h hblank
  | case5 done position c hblank _ d rest hhigh hnone =>
    refine ⟨nofun, fun ⟨_, h, _⟩ => ?_⟩
    cases h with
    | blank h => exact absurd h hblank
    | pair _ hlow => cases hnone.symm.trans hlow
  | case6 done position c hblank high d rest hhigh low hlow ih =>
    rw [ih]
    constructor
    · intro h
      obtain ⟨b', hb', rfl⟩ := h
      exact ⟨_, .pair hhigh hlow hb', by simp⟩
    · intro h
      obtain ⟨_, h, rfl⟩ := h
      cases h with
      | blank h => exact absurd h hblank
      | pair hhigh' hlow' h =>
        obtain rfl := Option.some.inj (hhigh.symm.trans hhigh')
        obtain rfl := Option.some.inj (hlow.symm.trans hlow')
        exact ⟨_, h, by simp⟩

namespace Spells

variable {t u : Text} {b c : Bytes}

/-- Every character is ASCII, and it is a blank of ASCII if it is blank at all. -/
theorem ascii (h : Spells t b) : ∀ c ∈ t, c.isAscii = true ∧ (c.isBlank = true → c.isAsciiBlank = true) := by
  induction h with
  | nil => nofun
  | blank hc _ ih => exact List.forall_mem_cons.mpr ⟨⟨(blank_of_isAsciiBlank hc).1, fun _ => hc⟩, ih⟩
  | pair hhigh hlow _ ih =>
    obtain ⟨hascii, hvisible, -⟩ := visible_of_hexValue? hhigh
    obtain ⟨hascii', hvisible', -⟩ := visible_of_hexValue? hlow
    refine List.forall_mem_cons.mpr ⟨⟨hascii, fun h => ?_⟩, List.forall_mem_cons.mpr ⟨⟨hascii', fun h => ?_⟩, ih⟩⟩
    · cases hvisible.symm.trans h
    · cases hvisible'.symm.trans h

/-- Texts one behind the other spell their bytes one behind the other. -/
theorem append (ht : Spells t b) (hu : Spells u c) : Spells (t ++ u) (b ++ c) := by
  induction ht with
  | nil => exact hu
  | blank hc _ ih => exact .blank hc ih
  | pair hhigh hlow _ ih => exact .pair hhigh hlow ih

/-- Blanks of ASCII spell nothing. -/
theorem of_blanks (ht : ∀ c ∈ t, c.isAsciiBlank = true) : Spells t [] := by
  induction t with
  | nil => exact .nil
  | cons c rest ih =>
    obtain ⟨hc, hrest⟩ := List.forall_mem_cons.mp ht
    exact .blank hc (ih hrest)

/-- A blank in front may be left out. -/
theorem of_cons {x : CodePoint} (hx : x.isBlank = true) (h : Spells (x :: t) b) : Spells t b := by
  cases h with
  | blank _ h => exact h
  | pair hhigh => cases (visible_of_hexValue? hhigh).2.1.symm.trans hx

/-- Blanks in front may be left out. -/
theorem of_blanks_append (ht : ∀ x ∈ t, x.isBlank = true) (h : Spells (t ++ u) b) : Spells u b := by
  induction t with
  | nil => exact h
  | cons x rest ih =>
    obtain ⟨hx, hrest⟩ := List.forall_mem_cons.mp ht
    exact ih hrest (of_cons hx h)

/-- Blanks at the end may be left out. -/
theorem of_append_blanks (hu : ∀ x ∈ u, x.isBlank = true) (h : Spells (t ++ u) b) : Spells t b := by
  -- The rules take one or two characters, so the induction is on the rules and not on the text.
  generalize hall : t ++ u = all at h
  have hnothing : ∀ {b}, Spells u b → Spells [] b := fun h => of_blanks_append hu (by rwa [List.append_nil])
  induction h generalizing t with
  | nil =>
    obtain ⟨rfl, -⟩ := List.append_eq_nil_iff.mp hall
    exact .nil
  | blank hc h ih =>
    cases t with
    | nil =>
      obtain rfl : u = _ := hall
      exact hnothing (.blank hc h)
    | cons x rest =>
      obtain ⟨rfl, hrest⟩ := List.cons.inj hall
      exact .blank hc (ih hrest)
  | pair hhigh hlow h ih =>
    match t with
    | [] =>
      obtain rfl : u = _ := hall
      exact hnothing (.pair hhigh hlow h)
    | [x] =>
      obtain ⟨rfl, rfl⟩ := List.cons.inj hall
      cases (visible_of_hexValue? hlow).2.1.symm.trans (hu _ List.mem_cons_self)
    | x :: y :: rest =>
      obtain ⟨rfl, htail⟩ := List.cons.inj hall
      obtain ⟨rfl, hrest⟩ := List.cons.inj htail
      exact .pair hhigh hlow (ih hrest)

/-- What stands behind a figure is a figure. -/
theorem second {x y : CodePoint} {n : Nat} (hx : hexValue? x = some n) (h : Spells (x :: y :: t) b) :
    ∃ m, hexValue? y = some m := by
  cases h with
  | blank hc => cases (visible_of_hexValue? hx).2.2.symm.trans hc
  | pair _ hlow => exact ⟨_, hlow⟩

/-- A text that spells bytes begins with no mark. -/
theorem startsWith_eq_false (h : Spells t b) {d : CodePoint} (hd : hexValue? d = none) :
    t.startsWith [48, d] = false := by
  have hzero : hexValue? 48 = some 0 := rfl
  refine Bool.eq_false_iff.mpr fun hstart => ?_
  obtain ⟨rest, rfl⟩ := Text.startsWith_pair_iff.mp hstart
  obtain ⟨n, hn⟩ := h.second hzero
  cases hd.symm.trans hn

end Spells

/-- Nothing is taken off a text that begins with no mark. -/
theorem afterMark_eq_self {t : Text} (hsmall : t.startsWith "0x" = false) (hlarge : t.startsWith "0X" = false) :
    afterMark t = t := by
  rw [afterMark, hsmall, hlarge]
  rfl

/-- Pairs are read as the bytes that they spell. -/
theorem pairs_eq_ok_iff {t : Text} {b : Bytes} : pairs t = .ok b ↔ Spells t b := by
  have honto : pairsOnto [] 0 t = .ok b ↔ Spells t b := by simp [pairsOnto_eq_ok_iff]
  rw [pairs]
  cases hfind : t.findIdx? fun c => !c.isAscii with
  | none => exact honto
  | some position =>
    refine ⟨nofun, fun h => ?_⟩
    have hnone : t.findIdx? (fun c => !c.isAscii) = none := by
      simpa [List.findIdx?_eq_none_iff] using fun c hc => (h.ascii c hc).1
    cases hnone.symm.trans hfind

/-- A text spells the same bytes only. -/
theorem Spells.unique {t : Text} {b c : Bytes} (hb : Spells t b) (hc : Spells t c) : b = c :=
  Except.ok.inj ((pairs_eq_ok_iff.mpr hb).symm.trans (pairs_eq_ok_iff.mpr hc))

/-- A text that is read as bytes has an even length without the blanks around it and without its mark, and the rest
spells the bytes. -/
theorem read_eq_ok_iff {t : Text} {b : Bytes} :
    read t = .ok b ↔ (afterMark t.strip).length % 2 = 0 ∧ Spells (afterMark t.strip) b := by
  rw [read, ← pairs_eq_ok_iff]
  split
  · rename_i h
    exact ⟨nofun, fun heven => by omega⟩
  · rename_i h
    exact (and_iff_right (by omega)).symm

end StacksWallet.Hex
