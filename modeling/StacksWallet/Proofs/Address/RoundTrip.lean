import StacksWallet.Address.Basic
import StacksWallet.Proofs.Address.C32
import StacksWallet.Proofs.Outcome

/-!
# Addresses and their texts

Version and hash of an account have one text in normal form, which is the one that they are written as. Other texts
are read as the same account only by way of that one: the case of their letters and their look-alikes do not count.
A letter may also stand for several, as the sharp s does for two, so texts of different lengths may be the same
address. Only the first two characters must each stand alone, and the first one must be the letter S itself.
-/

namespace StacksWallet

/-- A whole number below 32 is a version. -/
theorem Version.ofDatum_integer (n : Fin 32) : ofDatum (.integer n.val) = .ok (.whole n) := by
  have hbelow : below? 32 (n.val : Int) = some n := below?_eq_some_iff.mpr rfl
  refine Outcome.bind_eq_ok.mpr ⟨n.val, rfl, ?_⟩
  rw [hbelow]
  rfl

namespace Address

/-- The text begins with the letter S in either case, and with a character that stands for one figure. -/
def Opens (t : Text) : Prop :=
  ∃ s v rest d, t = s :: v :: rest ∧ (s = 83 ∨ s = 115) ∧ C32.normalize [v] = [d]

/-- Normal forms are found character by character. -/
theorem normalize_cons (c : CodePoint) (t : Text) : C32.normalize (c :: t) = C32.normalize [c] ++ C32.normalize t :=
  C32.normalize_append [c] t

/-- A version's character is one that stands for its figure. -/
theorem versionOf?_eq_some_iff {c : CodePoint} {version : Fin 32} :
    versionOf? c = some version ↔ C32.normalize [c] = [C32.symbol version.val] := by
  unfold versionOf?
  split
  · rename_i d hd
    rw [hd, C32.value?_eq_some_iff, List.cons.injEq, and_iff_left rfl]
  · rename_i hmany
    exact ⟨nofun, fun h => absurd h (hmany _)⟩

/-- Data behind which their checksum stands are told from it. -/
theorem checked_iff {version : Nat} {decoded data : Bytes} :
    ¬ decoded.length < 4 ∧ checksumOf version (decoded.take (decoded.length - 4)) = decoded.drop (decoded.length - 4) ∧
        decoded.take (decoded.length - 4) = data ↔
      decoded = data ++ checksumOf version data := by
  constructor
  · intro h
    obtain ⟨-, hcheck, rfl⟩ := h
    rw [hcheck, List.take_append_drop]
  · intro h
    obtain rfl := h
    have hlength : (data ++ checksumOf version data).length - 4 = data.length := by simp [checksumOf]
    rw [hlength, List.take_left, List.drop_left]
    exact ⟨by simp [checksumOf], rfl, rfl⟩

/-- The test at the beginning lets a text through if the letter is an S and something stands behind the version. -/
theorem start_iff {s : CodePoint} {rest : Text} :
    ¬ (rest.isEmpty || !(s == 83 || s == 115)) = true ↔ rest ≠ [] ∧ (s = 83 ∨ s = 115) := by
  rw [Bool.not_eq_true, Bool.or_eq_false_iff, List.isEmpty_eq_false_iff, Bool.not_eq_false', Bool.or_eq_true,
    beq_iff_eq, beq_iff_eq]

/-- The small and the capital letter S are the two that an address may begin with. -/
theorem normalize_opening {s : CodePoint} (h : s = 83 ∨ s = 115) : C32.normalize [s] = [83] := by
  obtain rfl | rfl := h <;> decide

/-- What is rendered is the letter S, the figure of the version, and the figures of the data and their checksum. -/
theorem render_eq (version : Fin 32) (data : Bytes) :
    render version data = 83 :: C32.symbol version.val :: C32.encode (data ++ checksumOf version.val data) := rfl

/-- The figures behind the version are never missing, because the checksum always has some. -/
theorem figures_ne_nil (version : Fin 32) (data : Bytes) :
    C32.encode (data ++ checksumOf version.val data) ≠ [] := by
  refine C32.encode_ne_nil fun hnil => ?_
  have hlength := congrArg List.length hnil
  simp [checksumOf] at hlength

/-- The normal form of a text that opens as an address does has the letter and one figure at its front. -/
theorem normalize_eq_render_iff {s v : CodePoint} {rest : Text} {d : CodePoint} {version : Fin 32} {data : Bytes}
    (hs : s = 83 ∨ s = 115) (hv : C32.normalize [v] = [d]) :
    C32.normalize (s :: v :: rest) = render version data ↔
      d = C32.symbol version.val ∧ C32.normalize rest = C32.encode (data ++ checksumOf version.val data) := by
  have hsplit : C32.normalize (s :: v :: rest) = 83 :: d :: C32.normalize rest := by
    rw [normalize_cons, normalize_opening hs, normalize_cons v, hv]
    rfl
  rw [hsplit, render_eq, List.cons.injEq, List.cons.injEq, and_iff_right rfl]

/-- A text of at least two characters is read if each of its pieces is: the letter, the version, and the figures
behind it as data with their checksum. -/
theorem unrender_cons_iff {s v : CodePoint} {rest : Text} {version : Fin 32} {data : Bytes} :
    unrender (s :: v :: rest) = .ok (version, data) ↔
      (rest ≠ [] ∧ (s = 83 ∨ s = 115)) ∧ versionOf? v = some version ∧
        C32.decode rest = .ok (data ++ checksumOf version.val data) := by
  rw [← start_iff, unrender]
  split
  · rename_i hstart
    exact ⟨nofun, fun h => absurd hstart h.1⟩
  · rename_i hstart
    rw [and_iff_right hstart]
    cases hversion : versionOf? v with
    | none => exact ⟨nofun, fun h => nomatch h.1⟩
    | some read =>
      constructor
      · intro h
        obtain ⟨decoded, hdecoded, h⟩ := Outcome.bind_eq_ok.mp h
        obtain ⟨hlong, h⟩ := Outcome.guard_eq_ok.mp h
        obtain ⟨hcheck, hpair⟩ := Outcome.ite_eq_ok.mp h
        obtain ⟨rfl, hdata⟩ := Prod.mk.inj hpair
        exact ⟨rfl, checked_iff.mp ⟨hlong, hcheck, hdata⟩ ▸ hdecoded⟩
      · intro h
        obtain ⟨hsome, hdecoded⟩ := h
        obtain rfl := Option.some.inj hsome
        obtain ⟨hlong, hcheck, hdata⟩ := checked_iff.mpr (Eq.refl (data ++ checksumOf read.val data))
        refine Outcome.bind_eq_ok.mpr ⟨_, hdecoded, Outcome.guard_eq_ok.mpr ⟨hlong, ?_⟩⟩
        refine Outcome.ite_eq_ok.mpr ⟨hcheck, ?_⟩
        rw [hdata]

/-- A text is read as version and data if it opens as an address does and its normal form is the text of these. -/
theorem unrender_eq_ok_iff {t : Text} {version : Fin 32} {data : Bytes} :
    unrender t = .ok (version, data) ↔ Opens t ∧ C32.normalize t = render version data := by
  constructor
  · intro h
    match t with
    | [] => nomatch h
    | [_] => nomatch h
    | s :: v :: rest =>
      obtain ⟨⟨-, hs⟩, hversion, hdecoded⟩ := unrender_cons_iff.mp h
      have hv := versionOf?_eq_some_iff.mp hversion
      have hrest := C32.decode_eq_ok_iff.mp hdecoded
      exact ⟨⟨s, v, rest, _, rfl, hs, hv⟩, (normalize_eq_render_iff hs hv).mpr ⟨rfl, hrest⟩⟩
  · intro h
    obtain ⟨⟨s, v, rest, d, rfl, hs, hv⟩, hnormal⟩ := h
    obtain ⟨rfl, hrest⟩ := (normalize_eq_render_iff hs hv).mp hnormal
    -- The checksum alone has figures, so that the text is long enough.
    have hbehind : rest ≠ [] := by
      intro hnil
      obtain rfl := hnil
      exact figures_ne_nil version data hrest.symm
    exact unrender_cons_iff.mpr ⟨⟨hbehind, hs⟩, versionOf?_eq_some_iff.mpr hv, C32.decode_eq_ok_iff.mpr hrest⟩

/-- The text of an account opens as an address does. -/
theorem opens_render (version : Fin 32) (data : Bytes) : Opens (render version data) :=
  ⟨83, C32.symbol version.val, _, C32.symbol version.val, rfl, .inl rfl, C32.normalize_symbol version⟩

/-- The text of an account is in normal form. -/
theorem normalize_render (version : Fin 32) (data : Bytes) :
    C32.normalize (render version data) = render version data :=
  (normalize_eq_render_iff (.inl rfl) (C32.normalize_symbol version)).mpr ⟨rfl, C32.normalize_encode _⟩

/-- A text is read as an account if it opens as an address does and its normal form is the address of the account. -/
theorem parseParts_eq_ok_iff {t : Text} {version : Fin 32} {hash : Hash160} :
    parseParts t = .ok (version, hash) ↔ Opens t ∧ C32.normalize t = render version hash.val := by
  rw [← unrender_eq_ok_iff]
  constructor
  · intro h
    obtain ⟨⟨read, data⟩, hread, h⟩ := Outcome.bind_eq_ok.mp h
    dsimp only at h
    split at h
    · rename_i found hfound
      obtain ⟨rfl, rfl⟩ := Prod.mk.inj (Except.ok.inj h)
      rw [hread, Hash160.ofBytes?_eq_some_iff.mp hfound]
    · cases h
  · intro h
    refine Outcome.bind_eq_ok.mpr ⟨_, h, ?_⟩
    dsimp only
    rw [Hash160.ofBytes?_eq_some_iff.mpr rfl]
    rfl

/-- The address of an account is what is rendered for it. -/
theorem derive_eq_render (version : Fin 32) (hash : Hash160) :
    derive (.bytes hash.val) (.integer version.val) = .ok (render version hash.val) := by
  have hlength : hash.val.length = 20 := hash.property
  refine Outcome.bind_eq_ok.mpr ⟨hash.val, rfl, ?_⟩
  rw [if_pos hlength, renderGiven, Version.ofDatum_integer]
  rfl

/-- Each account has one address, and a text is read as the account exactly if it is a spelling of that address. -/
theorem parse_derive (version : Fin 32) (hash : Hash160) :
    ∃ a, derive (.bytes hash.val) (.integer version.val) = .ok a ∧ C32.normalize a = a ∧
      parseParts a = .ok (version, hash) ∧
      ∀ t, parseParts t = .ok (version, hash) ↔ Opens t ∧ C32.normalize t = a := by
  refine ⟨_, derive_eq_render version hash, normalize_render version hash.val, ?_, fun t => parseParts_eq_ok_iff⟩
  exact parseParts_eq_ok_iff.mpr ⟨opens_render version hash.val, normalize_render version hash.val⟩

end Address

end StacksWallet
