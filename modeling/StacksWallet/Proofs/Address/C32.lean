import Mathlib.Data.Set.Function
import StacksWallet.Address.C32
import StacksWallet.Proofs.Number.Digits

/-!
# Bytes and their figures

A text is read as bytes if and only if its normal form is what these bytes are written as: each byte string has one
text in normal form, and each text of figures in normal form is that of one byte string. The number of leading zeros
goes over from bytes to figures and back, and the number behind them changes its base.

Which characters other than figures may stand for figures is not settled here: they are those of which the normal form
makes figures.
-/

namespace StacksWallet.C32

/-- The figure of a number is the one at its place in the alphabet. -/
theorem symbol_eq_getElem {n : Nat} (hn : n < alphabet.length) : symbol n = alphabet[n] := by
  rw [symbol, List.getD_eq_getElem?_getD, List.getElem?_eq_getElem hn, Option.getD_some]

/-- Numbers and figures belong to each other. -/
theorem value?_eq_some_iff {c : CodePoint} {d : Fin 32} : value? c = some d ↔ c = symbol d.val := by
  constructor
  · intro h
    obtain ⟨n, hn, h⟩ := Option.bind_eq_some_iff.mp h
    split at h
    · rename_i hlt
      obtain rfl := Option.some.inj h
      obtain ⟨hindex, hc, -⟩ := List.findIdx?_eq_some_iff_getElem.mp hn
      exact (eq_of_beq hc).symm.trans (symbol_eq_getElem hindex).symm
    · cases h
  · intro h
    obtain rfl := h
    revert d
    decide

/-- As many elements at the front have a property as their images have one that says the same. -/
theorem length_takeWhile_map {α β : Type} {f : α → β} {p : β → Bool} {q : α → Bool} {l : List α}
    (h : ∀ a ∈ l, p (f a) = q a) : ((l.map f).takeWhile p).length = (l.takeWhile q).length := by
  induction l with
  | nil => rfl
  | cons a rest ih =>
    obtain ⟨ha, hrest⟩ := List.forall_mem_cons.mp h
    rw [List.map_cons, List.takeWhile_cons, List.takeWhile_cons, ha]
    cases q a with
    | false => rfl
    | true => exact congrArg (· + 1) (ih hrest)

/-- Figures begin with as many zeros as their numbers do. -/
theorem zeros_map_symbol {ds : List Nat} (h : ∀ d ∈ ds, d < 32) :
    ((ds.map symbol).takeWhile (· == 48)).length = (ds.takeWhile (· == 0)).length := by
  have hzero : ∀ d : Fin 32, (symbol d.val == 48) = (d.val == 0) := by decide
  exact length_takeWhile_map fun d hd => hzero ⟨d, h d hd⟩

/-- Bytes begin with as many zeros as their numbers do. -/
theorem zeros_map_toNat (b : Bytes) :
    ((b.map UInt8.toNat).takeWhile (· == 0)).length = (b.takeWhile (· == 0)).length := by
  refine length_takeWhile_map fun x _ => ?_
  rw [Bool.eq_iff_iff, beq_iff_eq, beq_iff_eq, ← UInt8.toNat_inj]
  rfl

/-- Bytes are figures in base 256. -/
theorem ofDigits_map_toNat (b : Bytes) : ofDigits 256 (b.map UInt8.toNat) = b.toNat := by
  rw [ofDigits, List.foldl_map, Bytes.toNat]

/-- The figures of bytes are those of their numbers in base 32. -/
theorem encode_eq (b : Bytes) : encode b = (rebase 256 32 (b.map UInt8.toNat)).map symbol := by
  rw [encode, rebase, List.map_append, List.map_replicate, zeros_map_toNat, ofDigits_map_toNat]
  rfl

/-- A number is continued by figures if they are the figures of numbers. -/
theorem valueFrom_eq_ok_iff {figures : Text} {n m : Nat} :
    valueFrom n figures = .ok m ↔ ∃ ds : List Nat, (∀ d ∈ ds, d < 32) ∧ figures = ds.map symbol ∧
      m = ds.foldl (fun n d => n * 32 + d) n := by
  induction figures generalizing n with
  | nil =>
    constructor
    · intro h
      exact ⟨[], List.forall_mem_nil _, rfl, (Except.ok.inj h).symm⟩
    · intro h
      obtain ⟨ds, -, hds, rfl⟩ := h
      rw [List.map_eq_nil_iff.mp hds.symm]
      rfl
  | cons c rest ih =>
    rw [valueFrom]
    constructor
    · intro h
      cases hc : value? c with
      | none =>
        rw [hc] at h
        cases h
      | some d =>
        rw [hc] at h
        obtain ⟨ds, hlt, rfl, rfl⟩ := ih.mp h
        rw [value?_eq_some_iff.mp hc]
        exact ⟨d.val :: ds, List.forall_mem_cons.mpr ⟨d.isLt, hlt⟩, rfl, rfl⟩
    · intro h
      obtain ⟨ds, hlt, hds, rfl⟩ := h
      obtain ⟨d, ds, rfl, rfl, rfl⟩ := List.map_eq_cons_iff.mp hds.symm
      obtain ⟨hd, hlt⟩ := List.forall_mem_cons.mp hlt
      have hc : value? (symbol d) = some ⟨d, hd⟩ := value?_eq_some_iff.mpr rfl
      rw [hc]
      exact ih.mpr ⟨ds, hlt, rfl, rfl⟩

/-- A text is read if its normal form is made of figures, and then as their numbers in base 256. -/
theorem decode_eq_ok {t : Text} {b : Bytes} :
    decode t = .ok b ↔ ∃ ds : List Nat, (∀ d ∈ ds, d < 32) ∧ normalize t = ds.map symbol ∧
      b = (rebase 32 256 ds).map UInt8.ofNat := by
  have hbytes : ∀ {ds : List Nat}, (∀ d ∈ ds, d < 32) →
      Bytes.zeros ((ds.map symbol).takeWhile (· == 48)).length ++
        (digits 256 (ds.foldl (fun n d => n * 32 + d) 0)).map UInt8.ofNat = (rebase 32 256 ds).map UInt8.ofNat := by
    intro ds hlt
    rw [rebase, List.map_append, List.map_replicate, zeros_map_symbol hlt]
    rfl
  unfold decode
  dsimp only
  constructor
  · intro h
    split at h
    · rename_i n hn
      obtain ⟨ds, hlt, hds, rfl⟩ := valueFrom_eq_ok_iff.mp hn
      rw [hds] at h
      exact ⟨ds, hlt, hds, (Except.ok.inj h).symm.trans (hbytes hlt)⟩
    · cases h
  · intro h
    obtain ⟨ds, hlt, hds, rfl⟩ := h
    rw [valueFrom_eq_ok_iff.mpr ⟨ds, hlt, hds, rfl⟩]
    dsimp only
    rw [hds, hbytes hlt]

/-- A text is read as the bytes that are written as its normal form. -/
theorem decode_eq_ok_iff {t : Text} {b : Bytes} : decode t = .ok b ↔ normalize t = encode b := by
  rw [decode_eq_ok, encode_eq]
  constructor
  · intro h
    obtain ⟨ds, hlt, hds, rfl⟩ := h
    have hnumbers : ((rebase 32 256 ds).map UInt8.ofNat).map UInt8.toNat = rebase 32 256 ds := by
      rw [List.map_map]
      refine (List.map_congr_left fun d hd => ?_).trans (List.map_id _)
      have hd : d < 256 := lt_of_mem_rebase (by decide) hd
      simpa using Nat.mod_eq_of_lt hd
    rw [hds, hnumbers, rebase_rebase_self (by decide) (by decide) hlt]
  · intro h
    have hlt : ∀ d ∈ b.map UInt8.toNat, d < 256 := List.forall_mem_map.mpr fun x _ => x.toNat_lt
    refine ⟨_, fun d hd => lt_of_mem_rebase (by decide) hd, h, ?_⟩
    rw [rebase_rebase_self (by decide) (by decide) hlt, List.map_map]
    exact ((List.map_congr_left fun x _ => UInt8.ofNat_toNat).trans (List.map_id _)).symm

/-- Normal forms are found piece by piece. -/
theorem normalize_append (t u : Text) : normalize (t ++ u) = normalize t ++ normalize u := by
  rw [normalize, Text.upper, List.flatMap_append, List.map_append]
  rfl

/-- A figure is in normal form. -/
theorem normalize_symbol : ∀ d : Fin 32, normalize [symbol d.val] = [symbol d.val] := by decide

/-- Figures are in normal form. -/
theorem normalize_map_symbol {ds : List Nat} (h : ∀ d ∈ ds, d < 32) : normalize (ds.map symbol) = ds.map symbol := by
  induction ds with
  | nil => rfl
  | cons d rest ih =>
    obtain ⟨hd, hrest⟩ := List.forall_mem_cons.mp h
    have hcons : (d :: rest).map symbol = [symbol d] ++ rest.map symbol := rfl
    rw [hcons, normalize_append, ih hrest, normalize_symbol ⟨d, hd⟩]

/-- What bytes are written as is in normal form. -/
theorem normalize_encode (b : Bytes) : normalize (encode b) = encode b := by
  rw [encode_eq]
  exact normalize_map_symbol fun d hd => lt_of_mem_rebase (by decide) hd

/-- Only no bytes at all are written as nothing. -/
theorem encode_ne_nil {b : Bytes} (h : b ≠ []) : encode b ≠ [] := by
  intro hnil
  have hread : decode [] = .ok b := decode_eq_ok_iff.mpr hnil.symm
  have hnone : decode [] = .ok [] := by
    rw [decode_eq_ok]
    exact ⟨[], List.forall_mem_nil _, rfl, by simp [rebase, ofDigits, digits_eq]⟩
  exact h (Except.ok.inj (hread.symm.trans hnone))

/-- A character is a figure if it is that of a number below 32. -/
theorem mem_alphabet_iff {c : CodePoint} : c ∈ alphabet ↔ ∃ d : Fin 32, c = symbol d.val := by
  have hlength : alphabet.length = 32 := by decide
  rw [List.mem_iff_getElem]
  constructor
  · intro h
    obtain ⟨n, hn, rfl⟩ := h
    exact ⟨⟨n, by omega⟩, (symbol_eq_getElem hn).symm⟩
  · intro h
    obtain ⟨d, rfl⟩ := h
    have hd : d.val < alphabet.length := by omega
    exact ⟨d.val, hd, (symbol_eq_getElem hd).symm⟩

/-- A text is made of figures if they are those of numbers below 32. -/
theorem forall_mem_alphabet_iff {t : Text} :
    (∀ c ∈ t, c ∈ alphabet) ↔ ∃ ds : List Nat, (∀ d ∈ ds, d < 32) ∧ t = ds.map symbol := by
  constructor
  · intro h
    induction t with
    | nil => exact ⟨[], List.forall_mem_nil _, rfl⟩
    | cons c rest ih =>
      obtain ⟨hc, hrest⟩ := List.forall_mem_cons.mp h
      obtain ⟨d, rfl⟩ := mem_alphabet_iff.mp hc
      obtain ⟨ds, hds, rfl⟩ := ih hrest
      exact ⟨d.val :: ds, List.forall_mem_cons.mpr ⟨d.isLt, hds⟩, rfl⟩
  · intro h
    obtain ⟨ds, hds, rfl⟩ := h
    exact List.forall_mem_map.mpr fun d hd => mem_alphabet_iff.mpr ⟨⟨d, hds d hd⟩, rfl⟩

/-- Bytes are written in figures. -/
theorem mem_alphabet_of_mem_encode (b : Bytes) : ∀ c ∈ encode b, c ∈ alphabet := by
  rw [forall_mem_alphabet_iff, encode_eq]
  exact ⟨_, fun d hd => lt_of_mem_rebase (by decide) hd, rfl⟩

/-- What bytes are written as is read as these bytes. -/
theorem decode_of_encode (b : Bytes) : decode (encode b) = .ok b := decode_eq_ok_iff.mpr (normalize_encode b)

/-- Figures begin with as many zeros as their bytes do. -/
theorem zeros_encode (b : Bytes) :
    ((encode b).takeWhile (· == 48)).length = (b.takeWhile (· == 0)).length := by
  rw [encode_eq, zeros_map_symbol fun d hd => lt_of_mem_rebase (by decide) hd, rebase,
    List.takeWhile_append_of_pos (by simp), takeWhile_digits (by decide), List.append_nil, List.length_replicate,
    zeros_map_toNat]

/-- Figures spell the number of their bytes. -/
theorem valueFrom_encode (b : Bytes) : valueFrom 0 (encode b) = .ok b.toNat := by
  have hnumber : ofDigits 32 (rebase 256 32 (b.map UInt8.toNat)) = b.toNat := by
    rw [rebase, ofDigits_zeros_append, ofDigits_digits (by decide), ofDigits_map_toNat]
  rw [encode_eq, valueFrom_eq_ok_iff]
  exact ⟨_, fun d hd => lt_of_mem_rebase (by decide) hd, rfl, hnumber.symm⟩

/-- Different byte strings are written as different texts of figures, and every text of figures is written for one. -/
theorem encode_bijOn : Set.BijOn encode Set.univ {t : Text | ∀ c ∈ t, c ∈ alphabet} := by
  refine ⟨fun b _ => mem_alphabet_of_mem_encode b, fun b _ b' _ h => ?_, fun t ht => ?_⟩
  · have hread : decode (encode b) = .ok b' := h ▸ decode_of_encode b'
    exact Except.ok.inj ((decode_of_encode b).symm.trans hread)
  · obtain ⟨ds, hlt, rfl⟩ := forall_mem_alphabet_iff.mp ht
    have hread : decode (ds.map symbol) = .ok _ := decode_eq_ok.mpr ⟨ds, hlt, normalize_map_symbol hlt, rfl⟩
    exact ⟨_, trivial, (decode_eq_ok_iff.mp hread).symm.trans (normalize_map_symbol hlt)⟩

/-- Bytes and texts of figures correspond one to one: leading zeros go over one by one, and behind them stands the same
number. What bytes are written as is read as these bytes; and of any text that is read, the bytes are written as its
capitals, with zero for O and one for I and L. -/
theorem bytes_correspond :
    Set.BijOn encode Set.univ {t : Text | ∀ c ∈ t, c ∈ alphabet} ∧
      (∀ b : Bytes, decode (encode b) = .ok b ∧
        ((encode b).takeWhile (· == 48)).length = (b.takeWhile (· == 0)).length ∧
          valueFrom 0 (encode b) = .ok b.toNat) ∧
      ∀ (t : Text) (b : Bytes), decode t = .ok b →
        encode b = t.upper.map fun c => if c = 79 then 48 else if c = 73 ∨ c = 76 then 49 else c := by
  refine ⟨encode_bijOn, fun b => ⟨decode_of_encode b, zeros_encode b, valueFrom_encode b⟩, fun t b h => ?_⟩
  have hnormal : normalize t = encode b := decode_eq_ok_iff.mp h
  rw [← hnormal, normalize]
  refine List.map_congr_left fun c _ => ?_
  simp only [canonical, Bool.or_eq_true, decide_eq_true_eq]

/-- Small letters and look-alikes behind two zeros are read as two zero bytes and a number, which are written with the
capitals and figures that were meant. -/
theorem bytes_correspond_lookalikes :
    decode ("oOiLz9" : Text) = .ok [0, 0, 135, 233] ∧ encode [0, 0, 135, 233] = ("0011Z9" : Text) := by
  have hread : decode ("oOiLz9" : Text) = .ok [0, 0, 135, 233] := decode_eq_ok_iff.mpr (by decide +kernel)
  exact ⟨hread, (bytes_correspond.2.2 _ _ hread).trans (by decide)⟩

end StacksWallet.C32
