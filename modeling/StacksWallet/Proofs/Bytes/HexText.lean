import StacksWallet.Datum.Coercion
import StacksWallet.Proofs.Bytes.Hex
import StacksWallet.Proofs.Number.Digits

/-!
# Hexadecimal texts and their bytes

Bytes are written in small letters, and they are read again whatever letters are made capital. Of the other texts that
are read, none stands for bytes of its own choice: in small letters, and without the blanks, the mark and what surrounds
them, the text is what its bytes are written as. Which texts these are is said by the pieces between the blanks. Each of
them has nothing but figures, and an even number of these; and the blanks are counted with the figures in the length of
the whole, which must be even as well.
-/

namespace StacksWallet.Hex

/-- Bytes as they are written, with the mark or without it. -/
def written (marked : Bool) (b : Bytes) : Text := if marked then prefixed b else plain b

/-- A character has a value if its small letter is the figure of that value. -/
theorem hexValue?_eq_some_iff {c : CodePoint} {n : Nat} :
    hexValue? c = some n ↔ n < 16 ∧ c.toAsciiLower = figure n := by
  have hfigure : n < 16 → (c.toAsciiLower = figure n ↔
      (if 65 ≤ c.val ∧ c.val ≤ 90 then c.val + 32 else c.val) = if n < 10 then 48 + n else 87 + n) := by
    intro hn
    rw [Fin.ext_iff, CodePoint.val_toAsciiLower, val_figure_of_lt hn]
  rw [and_congr_right hfigure, hexValue?]
  simp only [Bool.and_eq_true, decide_eq_true_eq]
  constructor
  · intro h
    split at h
    · obtain rfl := Option.some.inj h
      exact ⟨by omega, by split <;> split <;> omega⟩
    · split at h
      · obtain rfl := Option.some.inj h
        exact ⟨by omega, by split <;> split <;> omega⟩
      · split at h
        · obtain rfl := Option.some.inj h
          exact ⟨by omega, by split <;> split <;> omega⟩
        · cases h
  · intro h
    obtain ⟨hn, h⟩ := h
    by_cases hdigit : n < 10
    · have hc : c.val = 48 + n := by
        rw [if_pos hdigit] at h
        split at h <;> omega
      rw [if_pos (by omega), hc, Nat.add_sub_cancel_left]
    · have hc : c.val = 87 + n ∨ c.val = 55 + n := by
        rw [if_neg hdigit] at h
        split at h <;> omega
      rcases hc with hc | hc
      · rw [if_neg (by omega), if_pos (by omega), hc, Nat.add_sub_cancel_left]
      · rw [if_neg (by omega), if_neg (by omega), if_pos (by omega), hc, Nat.add_sub_cancel_left]

/-- Bytes are written figure by figure. -/
theorem plain_cons (x : UInt8) (b : Bytes) :
    plain (x :: b) = figure (x.toNat / 16) :: figure (x.toNat % 16) :: plain b := List.flatMap_cons

/-- The byte of two values is written with their figures. -/
theorem plain_pair {high low : Nat} (hhigh : high < 16) (hlow : low < 16) (b : Bytes) :
    plain (UInt8.ofNat (high * 16 + low) :: b) = figure high :: figure low :: plain b := by
  have hbyte : (UInt8.ofNat (high * 16 + low)).toNat = high * 16 + low := by
    rw [UInt8.toNat_ofNat']
    omega
  rw [plain_cons, hbyte, show (high * 16 + low) / 16 = high by omega, show (high * 16 + low) % 16 = low by omega]

/-- Whatever letters are capital, the text spells the bytes. -/
theorem spells_of_toAsciiLower {t : Text} {b : Bytes} (h : t.toAsciiLower = plain b) : Spells t b := by
  induction b generalizing t with
  | nil =>
    obtain rfl := List.map_eq_nil_iff.mp h
    exact .nil
  | cons x b ih =>
    rw [plain_cons] at h
    obtain ⟨c, t', rfl, hc, h⟩ := List.map_eq_cons_iff.mp h
    obtain ⟨d, rest, rfl, hd, h⟩ := List.map_eq_cons_iff.mp h
    obtain ⟨hhigh, hlow, hbyte⟩ := halves x
    have hpair := Spells.pair (hexValue?_eq_some_iff.mpr ⟨hhigh, hc⟩) (hexValue?_eq_some_iff.mpr ⟨hlow, hd⟩) (ih h)
    rwa [hbyte] at hpair

/-- What bytes a text spells, is told by its small letters without the blanks. -/
theorem Spells.plain_eq {t : Text} {b : Bytes} (h : Spells t b) :
    plain b = Text.toAsciiLower (t.filter fun c => !c.isAsciiBlank) := by
  induction h with
  | nil => rfl
  | blank hc _ ih => rwa [List.filter_cons_of_neg (by simpa using hc)]
  | pair hhigh hlow _ ih =>
    obtain ⟨hhigh', hc⟩ := hexValue?_eq_some_iff.mp hhigh
    obtain ⟨hlow', hd⟩ := hexValue?_eq_some_iff.mp hlow
    rw [plain_pair hhigh' hlow', ih, List.filter_cons_of_pos (by simp [visible_of_hexValue? hhigh]),
      List.filter_cons_of_pos (by simp [visible_of_hexValue? hlow]), ← hc, ← hd]
    rfl

/-- Bytes are told apart by their figures. -/
theorem plain_injective : Function.Injective plain := by
  intro b c h
  exact Except.ok.inj ((pairs_plain b).symm.trans ((congrArg pairs h).trans (pairs_plain c)))

/-- Each piece between the blanks has figures only, and an even number of them. -/
def Paired (t : Text) : Prop :=
  ∀ piece ∈ t.splitOnP CodePoint.isAsciiBlank, piece.length % 2 = 0 ∧ ∀ c ∈ piece, (hexValue? c).isSome = true

/-- The empty text has one piece, which is empty. -/
theorem paired_nil : Paired [] := by
  rw [Paired, List.splitOnP_nil, List.forall_mem_singleton]
  exact ⟨rfl, List.forall_mem_nil _⟩

/-- A blank in front makes an empty piece. -/
theorem paired_blank_iff {c : CodePoint} (hc : c.isAsciiBlank = true) (t : Text) : Paired (c :: t) ↔ Paired t := by
  rw [Paired, List.splitOnP_cons_eq_if_modifyHead, if_pos hc, List.forall_mem_cons]
  exact and_iff_right ⟨rfl, List.forall_mem_nil _⟩

/-- Two characters in front are figures of the first piece. -/
theorem paired_pair_iff {c d : CodePoint} (hc : c.isAsciiBlank = false) (hd : d.isAsciiBlank = false) (t : Text) :
    Paired (c :: d :: t) ↔ (hexValue? c).isSome = true ∧ (hexValue? d).isSome = true ∧ Paired t := by
  rw [Paired, Paired, List.splitOnP_cons_eq_if_modifyHead, if_neg (by simp [hc]),
    List.splitOnP_cons_eq_if_modifyHead, if_neg (by simp [hd])]
  cases hpieces : t.splitOnP CodePoint.isAsciiBlank with
  | nil => exact absurd hpieces (List.splitOnP_ne_nil _ _)
  | cons piece pieces =>
    have heven : (piece.length + 1 + 1) % 2 = 0 ↔ piece.length % 2 = 0 := by omega
    simp only [List.modifyHead_cons, List.forall_mem_cons, List.length_cons, heven]
    tauto

/-- One figure in front of a blank or of the end is too few. -/
theorem not_paired_single {c : CodePoint} (hc : c.isAsciiBlank = false) {t : Text}
    (ht : ∀ d, t.head? = some d → d.isAsciiBlank = true) : ¬ Paired (c :: t) := by
  rw [Paired, List.splitOnP_cons_eq_if_modifyHead, if_neg (by simp [hc])]
  intro h
  cases t with
  | nil =>
    rw [List.splitOnP_nil] at h
    cases (h [c] List.mem_cons_self).1
  | cons d t =>
    rw [List.splitOnP_cons_eq_if_modifyHead, if_pos (ht d rfl)] at h
    cases (h [c] List.mem_cons_self).1

/-- A text with whole pairs between the blanks spells some bytes. -/
theorem exists_spells : ∀ t : Text, Paired t → ∃ b, Spells t b
  | [], _ => ⟨[], .nil⟩
  | [c], h => by
    cases hc : c.isAsciiBlank with
    | true => exact ⟨[], .blank hc .nil⟩
    | false => exact absurd h (not_paired_single hc nofun)
  | c :: d :: t, h => by
    cases hc : c.isAsciiBlank with
    | true =>
      obtain ⟨b, hb⟩ := exists_spells (d :: t) ((paired_blank_iff hc _).mp h)
      exact ⟨b, .blank hc hb⟩
    | false =>
      cases hd : d.isAsciiBlank with
      | true => exact absurd h (not_paired_single hc fun x hx => Option.some.inj hx ▸ hd)
      | false =>
        obtain ⟨hhigh, hlow, ht⟩ := (paired_pair_iff hc hd t).mp h
        obtain ⟨high, hhigh⟩ := Option.isSome_iff_exists.mp hhigh
        obtain ⟨low, hlow⟩ := Option.isSome_iff_exists.mp hlow
        obtain ⟨b, hb⟩ := exists_spells t ht
        exact ⟨_, .pair hhigh hlow hb⟩

/-- And only such a text does. -/
theorem Spells.paired {t : Text} {b : Bytes} (h : Spells t b) : Paired t := by
  induction h with
  | nil => exact paired_nil
  | blank hc _ ih => exact (paired_blank_iff hc _).mpr ih
  | pair hhigh hlow _ ih =>
    refine (paired_pair_iff (visible_of_hexValue? hhigh).2.2 (visible_of_hexValue? hlow).2.2 _).mpr ⟨?_, ?_, ih⟩
    · exact Option.isSome_iff_exists.mpr ⟨_, hhigh⟩
    · exact Option.isSome_iff_exists.mpr ⟨_, hlow⟩

/-- A text spells the bytes that its figures write, if there are whole pairs of these between the blanks. -/
theorem spells_iff {t : Text} {b : Bytes} :
    Spells t b ↔ Paired t ∧ plain b = Text.toAsciiLower (t.filter fun c => !c.isAsciiBlank) := by
  constructor
  · intro h
    exact ⟨h.paired, h.plain_eq⟩
  · intro h
    obtain ⟨c, hc⟩ := exists_spells t h.1
    obtain rfl := plain_injective (h.2.trans hc.plain_eq.symm)
    exact hc

/-- Nothing in bytes as they are written is blank. -/
theorem isBlank_of_mem_written {marked : Bool} {b : Bytes} {c : CodePoint} (h : c ∈ written marked b) :
    c.isBlank = false := by
  cases marked with
  | true => exact isBlank_of_mem_prefixed h
  | false =>
    obtain ⟨d, hd, rfl⟩ := exists_figure_of_mem_plain h
    exact (figure_visible hd).2.1

/-- Behind the mark, if there is one, a text spells the bytes that it is written for, whatever letters are capital. -/
theorem afterMark_of_toAsciiLower {t : Text} {marked : Bool} {b : Bytes} (h : t.toAsciiLower = written marked b) :
    (afterMark t).toAsciiLower = plain b := by
  cases marked with
  | false =>
    have hspells := spells_of_toAsciiLower h
    rwa [afterMark_eq_self (hspells.startsWith_eq_false rfl) (hspells.startsWith_eq_false rfl)]
  | true =>
    have hmark : t.toAsciiLower = 48 :: 120 :: plain b := h
    obtain ⟨c, t', rfl, hc, hrest⟩ := List.map_eq_cons_iff.mp hmark
    obtain ⟨d, rest, rfl, hd, hfigures⟩ := List.map_eq_cons_iff.mp hrest
    have hc' := congrArg Fin.val hc
    have hd' := congrArg Fin.val hd
    rw [CodePoint.val_toAsciiLower] at hc' hd'
    obtain rfl : c = 48 := by
      refine Fin.ext ?_
      change c.val = 48
      change _ = 48 at hc'
      split at hc' <;> omega
    obtain rfl | rfl : d = 120 ∨ d = 88 := by
      rw [Fin.ext_iff, Fin.ext_iff]
      change d.val = 120 ∨ d.val = 88
      change _ = 120 at hd'
      split at hd' <;> omega
    · exact hfigures
    · exact hfigures

/-- Bytes are read again from what they are written as, whatever letters are capital. -/
theorem read_of_toAsciiLower {t : Text} {marked : Bool} {b : Bytes} (h : t.toAsciiLower = written marked b) :
    read t = .ok b := by
  have hstrip : t.strip = t := by
    refine Text.trim_eq_self fun c hc => ?_
    have hlower : c.toAsciiLower ∈ written marked b := h ▸ List.mem_map_of_mem hc
    exact CodePoint.isBlank_of_toAsciiLower (isBlank_of_mem_written hlower)
  have hbody := afterMark_of_toAsciiLower h
  have hlength : (afterMark t).length = 2 * b.length := by
    rw [← length_plain, ← hbody, Text.toAsciiLower, List.length_map]
  rw [read_eq_ok_iff, hstrip]
  exact ⟨by omega, spells_of_toAsciiLower hbody⟩

/-- Bytes are read again from what they are written as, with the mark or without it, whatever letters are capital. A
text is read as some bytes if, stripped and without its mark, it is of even length, has whole pairs of figures between
the blanks, and is in small letters without the blanks what these bytes are written as. Any other text is refused as an
argument. -/
theorem read_correspondence :
    (∀ (b : Bytes) (marked : Bool) (t : Text), t.toAsciiLower = written marked b → read t = .ok b) ∧
      (∀ (t : Text) (b : Bytes), read t = .ok b ↔ (afterMark t.strip).length % 2 = 0 ∧ Paired (afterMark t.strip) ∧
        plain b = Text.toAsciiLower ((afterMark t.strip).filter fun c => !c.isAsciiBlank)) ∧
      ∀ t : Text, (∃ b, read t = .ok b ∧ (Datum.text t).requireBytes = .ok b) ∨
        ∃ flaw, read t = .error flaw ∧ (Datum.text t).requireBytes = .error (.argument (.hex flaw)) := by
  refine ⟨fun b marked t h => read_of_toAsciiLower h, fun t b => ?_, fun t => ?_⟩
  · rw [read_eq_ok_iff, spells_iff]
  · have hrequire : (Datum.text t).requireBytes = ((read t).mapError .hex).mapError ByteSourceFlaw.toFault := rfl
    rw [hrequire]
    cases read t with
    | ok b => exact .inl ⟨b, rfl, rfl⟩
    | error flaw => exact .inr ⟨flaw, rfl, rfl⟩

/-- Letters of both kinds are read behind a small mark. So are pairs with two blanks between them behind a large one, in
the midst of other blanks, and the bytes are then written without any of these. -/
theorem read_correspondence_capitals :
    read "0xaB0C" = .ok [0xab, 0x0c] ∧ read "\t0XaB  0c\u2003" = .ok [0xab, 0x0c] ∧
      plain [0xab, 0x0c] = Text.toAsciiLower "aB0c" := by
  have hlower : Text.toAsciiLower "0xaB0C" = written true [0xab, 0x0c] := by decide +kernel
  have hread : read "\t0XaB  0c\u2003" = .ok [0xab, 0x0c] := by decide +kernel
  have hbody : afterMark (Text.strip "\t0XaB  0c\u2003") = "aB  0c" := by decide +kernel
  have hnormal := ((read_correspondence.2.1 _ _).mp hread).2.2
  rw [hbody] at hnormal
  exact ⟨read_correspondence.1 _ true _ hlower, hread, hnormal⟩

end StacksWallet.Hex
