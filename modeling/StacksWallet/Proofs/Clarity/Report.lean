import StacksWallet.Proofs.Clarity.Spelling
import StacksWallet.Proofs.Wire.Report

/-!
# Where values fail to be read

Names, principals and values report every flaw at a place in the bytes. The constructors that check what was read
either report at the place where it stood, or have nothing left to refuse: numbers of sixteen bytes are in range,
hashes have their size, and decoded text has no surrogates.
-/

namespace StacksWallet

variable {size : Nat}

/-- Names report where they start. -/
theorem Name.reports_read (what : NameKind) : (read what).Reports size fun _ => True := by
  refine Reader.reports_position fun start hstart => Reader.reports_shortBytes.bind fun raw _ => ?_
  dsimp only
  split
  · exact Reader.reports_pure trivial
  · exact Reader.reports_malformed hstart

namespace Principal

/-- Accounts report behind their hash. -/
theorem reports_readStandard : readStandard.Reports size fun _ => True :=
  Reader.reports_u8.bind fun version _ => (Reader.reports_take (by decide)).bind fun hash _ =>
    Reader.reports_position fun _ hhere => (Reader.reports_require hhere _ _).map _

/-- Contracts report behind their name. -/
theorem reports_readContract : readContract.Reports size fun _ => True :=
  Reader.reports_u8.bind fun version _ => (Reader.reports_take (by decide)).bind fun hash _ =>
    (Name.reports_read _).bind fun name _ =>
      Reader.reports_position fun _ hhere => (Reader.reports_require hhere _ _).map _

end Principal

namespace Value

/-- Signed integers of sixteen bytes are in range. -/
theorem reports_readInt : readInt.Reports size fun _ => True := by
  refine Reader.reports_i128.bind fun n hn => ?_
  have hcount : wordCount 16 = 0x1_0000_0000_0000_0000_0000_0000_0000_0000 := by decide
  have hv : ofInt (.integer n) = .ok (.int ⟨n, by omega⟩) := ofInt_integer_eq_ok_iff.mpr ⟨_, rfl, rfl⟩
  rw [hv]
  exact Reader.reports_pure trivial

/-- Unsigned integers of sixteen bytes are in range. -/
theorem reports_readUInt : readUInt.Reports size fun _ => True := by
  refine Reader.reports_u128.bind fun n hn => ?_
  have hv : ofUInt (.integer n) = .ok (.uint ⟨n, hn⟩) := ofUInt_integer_eq_ok_iff.mpr ⟨_, rfl, rfl⟩
  rw [hv]
  exact Reader.reports_pure trivial

/-- Buffers report where they start. -/
theorem reports_readBuffer : readBuffer.Reports size fun _ => True := by
  refine Reader.reports_position fun start hstart => Reader.reports_longBytes.bind fun b _ => ?_
  exact (Reader.reports_require hstart _ _).imp fun _ _ => trivial

/-- ASCII strings report where they start. -/
theorem reports_readAscii : readAscii.Reports size fun _ => True := by
  refine Reader.reports_position fun start hstart => Reader.reports_longBytes.bind fun raw _ => ?_
  dsimp only
  split
  · exact Reader.reports_pure trivial
  · exact Reader.reports_malformed hstart

/-- UTF-8 strings report where they start. What is decoded has no surrogates. -/
theorem reports_readUtf8 : readUtf8.Reports size fun _ => True := by
  refine Reader.reports_position fun start hstart => Reader.reports_longBytes.bind fun raw _ =>
    (Reader.reports_require hstart _ _).bind fun t ht => ?_
  rw [dif_pos (Utf8.decode_eq_ok_iff.mp ht).1]
  exact Reader.reports_pure trivial

/-- Fields report as their names and values do, or where a name starts that is out of order. -/
theorem reports_readFieldsOnto {inner : Reader Value} (hinner : inner.Reports size fun _ => True) (n : Nat)
    (previous : Option Name) (done : List (Name × Value)) :
    (readFieldsOnto inner previous done n).Reports size fun _ => True := by
  induction n generalizing previous done with
  | zero => exact Reader.reports_pure trivial
  | succ n ih =>
    exact Reader.reports_position fun start hstart => (Name.reports_read _).bind fun key _ =>
      Reader.reports_guard hstart fun _ => hinner.bind fun v _ => ih _ _

/-- The content of every kind of value reports a place, if the values in it do. -/
theorem reports_readContent {inner : Reader Value} (hinner : inner.Reports size fun _ => True) (guarded : Bool)
    (tag : Tag) : (readContent guarded inner tag).Reports size fun _ => True := by
  cases tag with
  | int => exact reports_readInt
  | uint => exact reports_readUInt
  | buffer => exact reports_readBuffer
  | boolTrue | boolFalse | optionalNone => exact Reader.reports_pure trivial
  | principalStandard => exact Principal.reports_readStandard.map principal
  | principalContract => exact Principal.reports_readContract.map principal
  | responseOk | responseErr | optionalSome => exact hinner.map _
  | list => exact (Reader.reports_count guarded .listItems).bind fun n _ => (Reader.reports_times hinner n).map list
  | tuple =>
    exact (Reader.reports_count guarded .tupleFields).bind fun n _ => (reports_readFieldsOnto hinner n _ _).map tuple
  | stringAscii => exact reports_readAscii
  | stringUtf8 => exact reports_readUtf8

/-- Values report a place on every level, also on the one that is too deep. -/
theorem reports_readWithin (guarded : Bool) (levels : Nat) :
    (readWithin guarded levels).Reports size fun _ => True := by
  induction levels with
  | zero => exact Reader.reports_position fun here hhere => Reader.reports_malformed hhere
  | succ levels ih =>
    refine Reader.reports_tagged fun start n hstart _ => ?_
    cases Tag.ofCode? n with
    | none => exact Reader.reports_malformed hstart
    | some tag => exact reports_readContent ih guarded tag

end Value

end StacksWallet
