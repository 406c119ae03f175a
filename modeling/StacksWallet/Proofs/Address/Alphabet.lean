import StacksWallet.Proofs.Address.RoundTrip
import StacksWallet.Proofs.Text.UpperCase

/-!
# The characters that stand for figures

Digits and letters of ASCII are read as figures, in either case and apart from the letter U, because I, L and O are
taken for one and zero. The reader writes a text in capitals before it looks at the characters, and it does so with all
letters there are. So ten letters beyond ASCII are read as well, namely the folded ones: the capitals of the sharp s
are two S, and those of the dotless i are the I that is taken for a one. Nothing else is read.

The texts of addresses go through this reader too, and some with folded letters are taken for valid ones.
-/

namespace StacksWallet

namespace C32

/-- A digit, or a letter of ASCII in either case but not the letter U. -/
def isFigureLike (c : CodePoint) : Bool :=
  c.isAsciiDigit || (65 ≤ c.val && c.val ≤ 90 && c.val != 85) || (97 ≤ c.val && c.val ≤ 122 && c.val != 117)

/-- Digits and letters are characters of ASCII. -/
theorem isAscii_of_isFigureLike {c : CodePoint} (h : isFigureLike c = true) : c.isAscii = true := by
  simp only [isFigureLike, CodePoint.isAsciiDigit, Bool.or_eq_true, Bool.and_eq_true, decide_eq_true_eq] at h
  rw [CodePoint.isAscii, decide_eq_true_eq]
  omega

/-- The first character that is not a figure. -/
def firstForeign? (t : Text) : Option CodePoint := t.find? fun c => !alphabet.contains c

/-- A character has a number if it is a figure. -/
theorem value?_isSome_iff {c : CodePoint} : (∃ d, value? c = some d) ↔ c ∈ alphabet := by
  rw [mem_alphabet_iff]
  exact exists_congr fun d => value?_eq_some_iff

/-- A number is not continued by a text exactly at the first character that is not a figure. -/
theorem valueFrom_eq_error_iff {n : Nat} {t : Text} {c : CodePoint} :
    valueFrom n t = .error c ↔ firstForeign? t = some c := by
  induction t generalizing n with
  | nil => exact ⟨nofun, nofun⟩
  | cons d rest ih =>
    rw [valueFrom, firstForeign?, List.find?_cons]
    by_cases hd : d ∈ alphabet
    · obtain ⟨m, hm⟩ := value?_isSome_iff.mpr hd
      rw [hm, List.contains_iff_mem.mpr hd]
      exact ih
    · have hnone : value? d = none :=
        Option.eq_none_iff_forall_ne_some.mpr fun m hm => hd (value?_isSome_iff.mp ⟨m, hm⟩)
      rw [hnone, Bool.eq_false_iff.mpr (mt List.contains_iff_mem.mp hd)]
      exact ⟨fun h => congrArg some (Except.error.inj h), fun h => congrArg Except.error (Option.some.inj h)⟩

/-- A text is not read exactly if its normal form has a character that is not a figure. The first one is reported. -/
theorem decode_eq_error_iff {t : Text} {fault : Fault} :
    decode t = .error fault ↔
      ∃ c, firstForeign? (normalize t) = some c ∧ fault = .address (some t) (.badCharacter c) := by
  unfold decode
  dsimp only
  constructor
  · intro h
    split at h
    · cases h
    · rename_i c hc
      exact ⟨c, valueFrom_eq_error_iff.mp hc, (Except.error.inj h).symm⟩
  · intro h
    obtain ⟨c, hc, rfl⟩ := h
    rw [valueFrom_eq_error_iff.mpr hc]

/-- A text is read if its normal form is made of figures. -/
theorem exists_decode_iff {t : Text} : (∃ b, decode t = .ok b) ↔ ∀ c ∈ normalize t, c ∈ alphabet := by
  rw [forall_mem_alphabet_iff]
  constructor
  · intro h
    obtain ⟨b, hb⟩ := h
    obtain ⟨ds, hlt, hds, -⟩ := decode_eq_ok.mp hb
    exact ⟨ds, hlt, hds⟩
  · intro h
    obtain ⟨ds, hlt, hds⟩ := h
    exact ⟨_, decode_eq_ok.mpr ⟨ds, hlt, hds, rfl⟩⟩

/-- Figures are characters of ASCII. -/
theorem isAscii_of_mem_alphabet {c : CodePoint} (h : c ∈ alphabet) : c.isAscii = true := by
  have hall : alphabet.all CodePoint.isAscii = true := by decide +kernel
  exact List.all_eq_true.mp hall c h

/-- A character is not in ASCII if what it is taken for is not. -/
theorem isAscii_of_canonical {c : CodePoint} (h : (canonical c).isAscii = true) : c.isAscii = true := by
  rw [canonical] at h
  split at h
  · rename_i hc
    rw [hc]
    rfl
  · split at h
    · rename_i hc
      rcases (Bool.or_eq_true _ _).mp hc with hc | hc
      · rw [of_decide_eq_true hc]
        rfl
      · rw [of_decide_eq_true hc]
        rfl
    · exact h

/-- The normal form of a text is put together from those of its characters. -/
theorem forall_mem_normalize_iff {t : Text} {p : CodePoint → Prop} :
    (∀ d ∈ normalize t, p d) ↔ ∀ c ∈ t, ∀ d ∈ normalize [c], p d := by
  induction t with
  | nil => exact ⟨fun _ => List.forall_mem_nil _, fun _ => List.forall_mem_nil _⟩
  | cons c rest ih =>
    rw [Address.normalize_cons, List.forall_mem_append, List.forall_mem_cons, ih]

set_option maxRecDepth 4000 in
/-- Of the characters of ASCII, digits and letters without the U stand for figures. -/
theorem figures_iff_of_isAscii {c : CodePoint} (hc : c.isAscii = true) :
    (∀ d ∈ normalize [c], d ∈ alphabet) ↔ isFigureLike c = true := by
  have hall : ((List.range 128).all fun n =>
      (normalize [CodePoint.ofNat n]).all alphabet.contains == isFigureLike (CodePoint.ofNat n)) = true := by
    decide +kernel
  have hself : CodePoint.ofNat c.val = c := by rw [CodePoint.ofNat, dif_pos c.isLt]
  have hsame := eq_of_beq (List.all_eq_true.mp hall c.val (List.mem_range.mpr (of_decide_eq_true hc)))
  rw [hself] at hsame
  rw [← hsame, List.all_eq_true]
  exact forall₂_congr fun d _ => List.contains_iff_mem.symm

/-- What a character is taken for is its capital form with the look-alikes replaced. -/
theorem normalize_singleton (c : CodePoint) : normalize [c] = c.upper.map canonical := by
  rw [normalize, Text.upper, List.flatMap_singleton]

/-- The folded letters stand for figures. -/
theorem figures_of_mem_folded {c d : CodePoint} (hc : c ∈ CodePoint.foldedLetters) (hd : d ∈ normalize [c]) :
    d ∈ alphabet := by
  have hall : (CodePoint.foldedLetters.all fun c => (normalize [c]).all alphabet.contains) = true := by decide +kernel
  exact List.contains_iff_mem.mp (List.all_eq_true.mp (List.all_eq_true.mp hall c hc) d hd)

/-- The characters that stand for figures are digits and letters of ASCII without the U, and the folded letters. -/
theorem figures_iff {c : CodePoint} :
    (∀ d ∈ normalize [c], d ∈ alphabet) ↔ isFigureLike c = true ∨ c ∈ CodePoint.foldedLetters := by
  constructor
  · intro h
    by_cases hc : c.isAscii = true
    · exact .inl ((figures_iff_of_isAscii hc).mp h)
    · refine .inr (CodePoint.mem_folded_of_upper hc fun d hd => isAscii_of_canonical ?_)
      rw [normalize_singleton] at h
      exact isAscii_of_mem_alphabet (List.forall_mem_map.mp h d hd)
  · rintro (hc | hc)
    · exact (figures_iff_of_isAscii (isAscii_of_isFigureLike hc)).mpr hc
    · exact fun d hd => figures_of_mem_folded hc hd

/-- A text is read if all its characters stand for figures. -/
theorem exists_decode_iff_forall {t : Text} :
    (∃ b, decode t = .ok b) ↔ ∀ c ∈ t, isFigureLike c = true ∨ c ∈ CodePoint.foldedLetters := by
  rw [exists_decode_iff, forall_mem_normalize_iff]
  exact forall₂_congr fun c _ => figures_iff

end C32

namespace Address

/-- A text without an account in it is reported as no address. -/
theorem address_of_unrender {t : Text} {fault : Fault} (h : unrender t = .error fault) :
    ∃ given flaw, fault = .address given flaw := by
  unfold unrender at h
  split at h
  · split at h
    · exact ⟨_, _, (Except.error.inj h).symm⟩
    · split at h
      · exact ⟨_, _, (Except.error.inj h).symm⟩
      · rcases Outcome.bind_eq_error.mp h with h | ⟨decoded, -, h⟩
        · obtain ⟨c, -, rfl⟩ := C32.decode_eq_error_iff.mp h
          exact ⟨_, _, rfl⟩
        · split at h
          · exact ⟨_, _, (Except.error.inj h).symm⟩
          · dsimp only at h
            split at h
            · cases h
            · exact ⟨_, _, (Except.error.inj h).symm⟩
  · exact ⟨_, _, (Except.error.inj h).symm⟩

/-- A text that is not read as version and hash is reported as no address. -/
theorem address_of_parseParts {t : Text} {fault : Fault} (h : parseParts t = .error fault) :
    ∃ given flaw, fault = .address given flaw := by
  rcases Outcome.bind_eq_error.mp h with h | ⟨⟨version, data⟩, -, h⟩
  · exact address_of_unrender h
  · dsimp only at h
    split at h
    · cases h
    · exact ⟨_, _, (Except.error.inj h).symm⟩

/-- All characters of an address stand for figures, the letter at its front included. -/
theorem exists_decode_of_parseParts {t : Text} {version : Fin 32} {hash : Hash160}
    (h : parseParts t = .ok (version, hash)) : ∃ b, C32.decode t = .ok b := by
  obtain ⟨-, hnormal⟩ := parseParts_eq_ok_iff.mp h
  rw [C32.exists_decode_iff, hnormal, render_eq, List.forall_mem_cons, List.forall_mem_cons]
  exact ⟨by decide, C32.mem_alphabet_iff.mpr ⟨version, rfl⟩, C32.mem_alphabet_of_mem_encode _⟩

/-- A text is valid if it is read as version and hash. -/
theorem isValid_text_iff {t : Text} : isValid (.text t) = true ↔ ∃ parts, parseParts t = .ok parts := by
  have htext : isValid (.text t) = (parseParts t).isOk := rfl
  rw [htext]
  cases parseParts t with
  | error fault => exact ⟨nofun, nofun⟩
  | ok parts => exact ⟨fun _ => ⟨parts, rfl⟩, fun _ => rfl⟩

/-- A text is read as figures exactly if each of its characters is a digit or letter of ASCII other than the U, or one
of the ten folded letters. With any other character in it, it is neither figures nor an address, and the report names
the first character that is no figure after all were turned into capitals. -/
theorem figures_alone_are_read (t : Text) :
    ((∃ b, C32.decode t = .ok b) ↔ ∀ c ∈ t, C32.isFigureLike c = true ∨ c ∈ CodePoint.foldedLetters) ∧
      ∀ c ∈ t, C32.isFigureLike c = false → c ∉ CodePoint.foldedLetters →
        (∃ d, C32.firstForeign? (C32.normalize t) = some d ∧
          C32.decode t = .error (.address (some t) (.badCharacter d))) ∧
        (∃ given flaw, parseParts t = .error (.address given flaw)) ∧ isValid (.text t) = false := by
  refine ⟨C32.exists_decode_iff_forall, fun c hc hfigure hfolded => ?_⟩
  have hnone : ∀ b, C32.decode t ≠ .ok b := by
    intro b hb
    rcases C32.exists_decode_iff_forall.mp ⟨b, hb⟩ c hc with h | h
    · exact Bool.eq_false_iff.mp hfigure h
    · exact hfolded h
  have hparts : ∀ parts, parseParts t ≠ .ok parts := by
    intro parts hread
    obtain ⟨b, hb⟩ := exists_decode_of_parseParts hread
    exact hnone b hb
  obtain ⟨fault, hdecode⟩ := Outcome.exists_eq_error hnone
  obtain ⟨d, hd, rfl⟩ := C32.decode_eq_error_iff.mp hdecode
  obtain ⟨fault, hparse⟩ := Outcome.exists_eq_error hparts
  obtain ⟨given, flaw, rfl⟩ := address_of_parseParts hparse
  refine ⟨⟨d, hd, hdecode⟩, ⟨given, flaw, hparse⟩, Bool.eq_false_iff.mpr fun hvalid => ?_⟩
  obtain ⟨parts, hread⟩ := isValid_text_iff.mp hvalid
  exact hparts parts hread

/-- The letter U is not a figure, and it is the one that is reported. -/
theorem letter_u_is_not_read :
    C32.decode ("7U" : Text) = .error (.address (some ("7U" : Text)) (.badCharacter 85)) ∧
      isValid (.text ("7U" : Text)) = false := by
  obtain ⟨⟨d, hd, hdecode⟩, -, hvalid⟩ := (figures_alone_are_read "7U").2 85 (by decide) (by decide) (by decide)
  have hfirst : C32.firstForeign? (C32.normalize "7U") = some 85 := by decide +kernel
  obtain rfl := Option.some.inj (hd.symm.trans hfirst)
  exact ⟨hdecode, hvalid⟩

/-- The sharp s is read as the bytes of two letters S, and an address with a long s for its version is valid. -/
theorem folded_letters_are_read :
    (C32.decode [0xDF] = .ok [3, 57] ∧ C32.isFigureLike 0xDF = false) ∧
      isValid (.text (83 :: 0x17F :: C32.encode (Bytes.zeros 20 ++ checksumOf 25 (Bytes.zeros 20)))) = true ∧
        C32.isFigureLike 0x17F = false := by
  have hsharp : C32.decode [0xDF] = .ok [3, 57] := C32.decode_eq_ok_iff.mpr (by decide +kernel)
  have hlong : C32.normalize [0x17F] = [C32.symbol 25] := by decide +kernel
  refine ⟨⟨hsharp, by decide⟩, isValid_text_iff.mpr ⟨(25, .zero), parseParts_eq_ok_iff.mpr ⟨?_, ?_⟩⟩, by decide⟩
  · exact ⟨83, 0x17F, _, _, rfl, .inl rfl, hlong⟩
  · exact (normalize_eq_render_iff (.inl rfl) hlong).mpr ⟨rfl, C32.normalize_encode _⟩

end Address

end StacksWallet
