import StacksWallet.Node.Service
import StacksWallet.Proofs.Address.Alphabet
import StacksWallet.Proofs.Bytes.Word
import StacksWallet.Proofs.Outcome
import StacksWallet.Proofs.Text.Utf8

/-!
# Paths that a node can be asked for

A path becomes a target if its characters are visible, none of them begins another part of a URL, and all of them have
a form in bytes. Escapes make it longer, but not without bound. So the path of an account is a target for every valid
address, however its letters are written, and it is found at every node whose own URL leaves room for it.
-/

namespace StacksWallet

namespace Url

/-- The character is visible, begins no other part of a URL, and has a form in bytes. -/
def isPlain (c : CodePoint) : Bool :=
  0x20 ≤ c.val && c.val != 0x7F && c.val != 35 && c.val != 63 && !c.isSurrogate

/-- What a plain character is not. -/
theorem isPlain_iff {c : CodePoint} :
    isPlain c = true ↔
      0x20 ≤ c.val ∧ c.val ≠ 0x7F ∧ c.val ≠ 35 ∧ c.val ≠ 63 ∧ c.isSurrogate = false := by
  simp only [isPlain, Bool.and_eq_true, decide_eq_true_eq, bne_iff_ne, Bool.not_eq_true', and_assoc]

/-- A code point has at most four bytes. -/
theorem length_encodeOne_le (c : CodePoint) : (Utf8.encodeOne c).length ≤ 4 := by
  unfold Utf8.encodeOne
  dsimp only
  split
  · exact Nat.le_of_ble_eq_true rfl
  · split
    · exact Nat.le_of_ble_eq_true rfl
    · split
      · exact Nat.le_of_ble_eq_true rfl
      · exact Nat.le_of_ble_eq_true rfl

/-- Each byte is escaped in three characters. -/
theorem length_escape (b : Bytes) : (b.flatMap escapeByte).length = 3 * b.length := by
  induction b with
  | nil => rfl
  | cons x rest ih =>
    rw [List.flatMap_cons, List.length_append, ih, List.length_cons]
    exact (Nat.add_comm 3 _).trans (Nat.mul_succ 3 _).symm

/-- A text with a form in bytes can be escaped, in at most twelve characters for each of its own. -/
theorem exists_escape (part : Part) {t : Text} (h : ∀ c ∈ t, c.isSurrogate = false) :
    ∃ e, part.escape t = .ok e ∧ e.length ≤ 12 * t.length := by
  induction t with
  | nil => exact ⟨[], rfl, Nat.zero_le _⟩
  | cons c rest ih =>
    obtain ⟨hc, hrest⟩ := List.forall_mem_cons.mp h
    obtain ⟨e, he, hlength⟩ := ih hrest
    have hencode : Utf8.encode [c] = .ok (Utf8.encodeOne c) :=
      Utf8.encode_eq_ok_iff.mpr ⟨List.forall_mem_singleton.mpr hc, (List.flatMap_singleton _ _).symm⟩
    have hsize := length_encodeOne_le c
    rw [Part.escape, hencode, he]
    split
    · refine ⟨[c] ++ e, rfl, ?_⟩
      rw [List.length_append, List.length_singleton, List.length_cons]
      omega
    · refine ⟨(Utf8.encodeOne c).flatMap escapeByte ++ e, rfl, ?_⟩
      rw [List.length_append, List.length_cons, length_escape]
      omega

/-- A text is cut into what stands before the first of some marks, and the rest. -/
theorem splitAt_append (marks : List CodePoint) (t : Text) : (splitAt marks t).1 ++ (splitAt marks t).2 = t := by
  rw [splitAt, List.span_eq_takeWhile_dropWhile]
  exact List.takeWhile_append_dropWhile

/-- Before a mark that does not occur is the whole text. -/
theorem splitAfter_of_not_mem {mark : CodePoint} {t : Text} (h : mark ∉ t) : splitAfter mark t = (t, none) := by
  have hother : ∀ c ∈ t, (!([mark].contains c)) = true := by
    intro c hc
    have hne : ¬ c = mark := fun heq => h (heq ▸ hc)
    simp [hne]
  have hspan : splitAt [mark] t = (t, []) := by
    rw [splitAt, List.span_eq_takeWhile_dropWhile, List.takeWhile_eq_self_iff.mpr hother,
      List.dropWhile_eq_nil_iff.mpr hother]
  rw [splitAfter, hspan]

/-- The parts before and behind a mark are no longer than the text. -/
theorem length_splitAfter_le (mark : CodePoint) (t : Text) :
    (splitAfter mark t).1.length ≤ t.length ∧ ((splitAfter mark t).2.getD []).length ≤ t.length := by
  have hlength := congrArg List.length (splitAt_append [mark] t)
  rw [List.length_append] at hlength
  rw [splitAfter]
  split
  · rename_i before _ after hsplit
    rw [hsplit, List.length_cons] at hlength
    dsimp only [Option.getD_some] at hlength ⊢
    exact ⟨by omega, by omega⟩
  · rename_i before hsplit
    rw [hsplit] at hlength
    dsimp only at hlength ⊢
    exact ⟨by omega, Nat.zero_le _⟩

/-- A short text is short enough. -/
theorem requireShort_of_le {t : Text} (h : t.length ≤ maxLength) : requireShort t = .ok () := if_neg (Nat.not_lt.mpr h)

/-- A short text of plain characters names a target. -/
theorem exists_targetOf {t : Text} (h : ∀ c ∈ t, isPlain c = true) (hlength : t.length ≤ maxLength) :
    ∃ path, targetOf t = .ok ⟨path, none⟩ ∧ path.length ≤ 12 * t.length := by
  obtain ⟨path, hpath, hsize⟩ := exists_escape .path fun c hc => (isPlain_iff.mp (h c hc)).2.2.2.2
  have hvisible : ¬ (t.any fun c => c.val < 0x20 || c == 0x7F) = true := by
    intro hany
    obtain ⟨c, hc, hhidden⟩ := List.any_eq_true.mp hany
    obtain ⟨hlow, hdelete, -⟩ := isPlain_iff.mp (h c hc)
    rcases (Bool.or_eq_true _ _).mp hhidden with hhidden | hhidden
    · exact absurd (of_decide_eq_true hhidden) (Nat.not_lt.mpr hlow)
    · exact hdelete (congrArg Fin.val (beq_iff_eq.mp hhidden))
  have hparts : partsOf t = .ok (path, none, none) := by
    rw [partsOf, splitAfter_of_not_mem fun hmem => absurd (h 35 hmem) (by decide)]
    dsimp only
    rw [splitAfter_of_not_mem fun hmem => absurd (h 63 hmem) (by decide), hpath]
    rfl
  refine ⟨path, ?_, hsize⟩
  rw [targetOf, requireVisible, requireShort_of_le hlength, hparts]
  dsimp only
  rw [if_neg hvisible]
  rfl

/-- A path and a query are joined by one character. -/
theorem length_joinQuery_le (path : Text) (query? : Option Text) :
    (joinQuery path query?).length ≤ path.length + (query?.getD []).length + 1 := by
  cases query? with
  | none => exact Nat.le_succ _
  | some query =>
    have hmark : (Text.ofString "?").length = 1 := rfl
    rw [joinQuery, List.length_append, List.length_append, hmark, Option.getD_some]
    omega

/-- A target is found at every node whose URL leaves room for it. -/
theorem exists_resolve {root : Url} {path : Text}
    (h : root.path.length + (root.query?.getD []).length + path.length + 4 ≤ maxLength) :
    ∃ url, root.resolve ⟨path, none⟩ = .ok url := by
  rw [resolve]
  generalize hown : joinQuery (if root.path.isEmpty then "/" else root.path) root.query? = own
  have hslash : (Text.ofString "/").length = 1 := rfl
  have hownLength : own.length ≤ root.path.length + (root.query?.getD []).length + 2 := by
    have hjoin := length_joinQuery_le (if root.path.isEmpty then "/" else root.path) root.query?
    rw [hown] at hjoin
    split at hjoin
    · omega
    · omega
  generalize hdirectory : (if own.endsWith "/" then own else own ++ "/" : Text) = directory
  have hdirectoryLength : directory.length ≤ own.length + 1 := by
    rw [← hdirectory]
    split
    · exact Nat.le_succ _
    · rw [List.length_append, hslash]
  have hbehind : ((joinQuery path none).dropWhile (· == 47)).length ≤ path.length :=
    (List.dropWhile_suffix _).length_le
  dsimp only
  obtain ⟨hpath, hquery⟩ := length_splitAfter_le 63 (directory ++ (joinQuery path none).dropWhile (· == 47))
  rw [List.length_append] at hpath hquery
  generalize splitAfter 63 (directory ++ (joinQuery path none).dropWhile (· == 47)) = parts at hpath hquery
  rw [requireShort_of_le (hpath.trans (by omega)), requireShort_of_le (hquery.trans (by omega))]
  exact ⟨_, rfl⟩

end Url

/-- A character has a capital form. -/
theorem CodePoint.upper_ne_nil (c : CodePoint) : c.upper ≠ [] := by
  rw [CodePoint.upper]
  split
  · split <;> exact List.cons_ne_nil _ _
  · split
    · rename_i expansion hlookup
      have hall : (capitalExpansions.all fun p => !p.2.isEmpty) = true := by decide +kernel
      obtain ⟨front, behind, hentries, -⟩ := List.lookup_eq_some_iff.mp hlookup
      have hmem : (c.val, expansion) ∈ capitalExpansions := by
        rw [hentries]
        exact List.mem_append_right front List.mem_cons_self
      have hentry := List.all_eq_true.mp hall _ hmem
      intro hnil
      rw [hnil] at hentry
      cases hentry
    · split <;> exact List.cons_ne_nil _ _

namespace C32

/-- Characters that stand for figures are plain. -/
theorem isPlain_of_figure {c : CodePoint} (h : isFigureLike c = true ∨ c ∈ CodePoint.foldedLetters) :
    Url.isPlain c = true := by
  rcases h with h | h
  · simp only [isFigureLike, CodePoint.isAsciiDigit, Bool.or_eq_true, Bool.and_eq_true, decide_eq_true_eq] at h
    refine Url.isPlain_iff.mpr ⟨?_, ?_, ?_, ?_, Utf8.isSurrogate_eq_false_iff.mpr ?_⟩
    all_goals omega
  · have hall : CodePoint.foldedLetters.all Url.isPlain = true := by decide +kernel
    exact List.all_eq_true.mp hall c h

/-- The normal form of a text has a character for each of its own. -/
theorem length_le_normalize (t : Text) : t.length ≤ (normalize t).length := by
  induction t with
  | nil => exact Nat.zero_le _
  | cons c rest ih =>
    have hpos : 0 < (normalize [c]).length := by
      rw [normalize_singleton, List.length_map]
      exact List.length_pos_of_ne_nil c.upper_ne_nil
    rw [Address.normalize_cons, List.length_append, List.length_cons]
    omega

/-- Bytes have at most three figures each. -/
theorem length_encode_le (b : Bytes) : (encode b).length ≤ 3 * b.length := by
  have hzeros : (b.takeWhile (· == 0)).length ≤ b.length := (List.takeWhile_prefix _).length_le
  have hdigits : (digits 32 b.toNat).length ≤ 2 * b.length := by
    rw [digits_eq (by decide), List.length_reverse, Nat.digits_length_le_iff (by decide)]
    calc b.toNat < wordCount b.length := b.toNat_lt
      _ = 256 ^ b.length := Nat.pow_eq
      _ ≤ 1024 ^ b.length := Nat.pow_le_pow_left (by decide) _
      _ = 32 ^ (2 * b.length) := Nat.pow_mul 32 2 b.length ▸ rfl
  rw [encode, List.length_append, List.length_replicate, List.length_map]
  omega

end C32

namespace Address

/-- An address is not longer than the figures of its bytes. -/
theorem length_le_of_parseParts {t : Text} {version : Fin 32} {hash : Hash160}
    (h : parseParts t = .ok (version, hash)) : t.length ≤ 74 := by
  obtain ⟨-, hnormal⟩ := parseParts_eq_ok_iff.mp h
  have hbytes : (hash.val ++ checksumOf version.val hash.val).length = 24 := by
    have hhash : hash.val.length = 20 := hash.property
    simp [checksumOf, hhash]
  have hfigures := C32.length_encode_le (hash.val ++ checksumOf version.val hash.val)
  have hlength := C32.length_le_normalize t
  rw [hnormal, render_eq, List.length_cons, List.length_cons] at hlength
  omega

end Address

namespace Client

/-- The client's own URL leaves room for paths. -/
def Roomy (c : Client) : Prop := c.root.path.length + (c.root.query?.getD []).length + 2048 ≤ Url.maxLength

/-- The path of every account is found at the node. -/
theorem exists_urlOf_account {c : Client} (hroom : c.Roomy) {t : Text} {version : Fin 32} {hash : Hash160}
    (h : Address.parseParts t = .ok (version, hash)) : ∃ url, c.urlOf (accountPath t) = .ok url := by
  have hlength : (accountPath t).length ≤ 87 := by
    have haddress := Address.length_le_of_parseParts h
    have hfront : (Text.ofString "/v2/accounts/").length = 13 := rfl
    rw [accountPath, List.length_append, hfront]
    omega
  have hplain : ∀ c ∈ accountPath t, Url.isPlain c = true := by
    have hfront : (Text.ofString "/v2/accounts/").all Url.isPlain = true := by decide +kernel
    have hread := C32.exists_decode_iff_forall.mp (Address.exists_decode_of_parseParts h)
    exact List.forall_mem_append.mpr ⟨List.all_eq_true.mp hfront, fun c hc => C32.isPlain_of_figure (hread c hc)⟩
  have hmax : Url.maxLength = 65536 := rfl
  obtain ⟨path, hpath, hsize⟩ := Url.exists_targetOf hplain (by omega)
  rw [urlOf, hpath]
  rw [Roomy] at hroom
  exact Url.exists_resolve (by omega)

end Client

end StacksWallet
