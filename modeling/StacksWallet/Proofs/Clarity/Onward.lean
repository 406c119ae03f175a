import StacksWallet.Clarity.Decoding
import StacksWallet.Proofs.Wire.Onward

/-!
# Values are read onward

Names, principals and values are read from what lies ahead of the position, on every level of nesting. A tag, a key or
a length is looked at once, where it stands, and nothing that was passed is looked at again.
-/

namespace StacksWallet

/-- Names are read onward. -/
theorem Name.onward_read (what : NameKind) : (read what).Onward := by
  refine Reader.onward_position.bind fun start => Reader.onward_shortBytes.bind fun raw => ?_
  dsimp only
  split
  · exact Reader.onward_pure _
  · exact Reader.onward_malformed _ _

namespace Principal

/-- Accounts are read onward. -/
theorem onward_readStandard : readStandard.Onward :=
  Reader.onward_u8.bind fun _ => (Reader.onward_take 20).bind fun _ =>
    Reader.onward_position.bind fun _ => (Reader.onward_require _ _ _).map _

/-- Contracts are read onward. -/
theorem onward_readContract : readContract.Onward :=
  Reader.onward_u8.bind fun _ => (Reader.onward_take 20).bind fun _ => (Name.onward_read _).bind fun _ =>
    Reader.onward_position.bind fun _ => (Reader.onward_require _ _ _).map _

end Principal

namespace Value

/-- Signed integers are read onward. -/
theorem onward_readInt : readInt.Onward := by
  refine Reader.onward_i128.bind fun n => ?_
  cases ofInt (.integer n) with
  | ok v => exact Reader.onward_pure v
  | error fault => exact Reader.onward_throw fault

/-- Unsigned integers are read onward. -/
theorem onward_readUInt : readUInt.Onward := by
  refine Reader.onward_u128.bind fun n => ?_
  cases ofUInt (.integer n) with
  | ok v => exact Reader.onward_pure v
  | error fault => exact Reader.onward_throw fault

/-- Buffers are read onward. -/
theorem onward_readBuffer : readBuffer.Onward :=
  Reader.onward_position.bind fun _ => Reader.onward_longBytes.bind fun _ => Reader.onward_require _ _ _

/-- ASCII strings are read onward. -/
theorem onward_readAscii : readAscii.Onward := by
  refine Reader.onward_position.bind fun start => Reader.onward_longBytes.bind fun raw => ?_
  dsimp only
  split
  · exact Reader.onward_pure _
  · exact Reader.onward_malformed _ _

/-- UTF-8 strings are read onward. -/
theorem onward_readUtf8 : readUtf8.Onward := by
  refine Reader.onward_position.bind fun start => Reader.onward_longBytes.bind fun raw =>
    (Reader.onward_require _ _ _).bind fun t => ?_
  split
  · exact Reader.onward_pure _
  · exact Reader.onward_throw _

/-- Fields are read onward, if the values in them are. -/
theorem onward_readFieldsOnto {inner : Reader Value} (hinner : inner.Onward) (n : Nat) (previous : Option Name)
    (done : List (Name × Value)) : (readFieldsOnto inner previous done n).Onward := by
  induction n generalizing previous done with
  | zero => exact Reader.onward_pure _
  | succ n ih =>
    exact Reader.onward_position.bind fun start => (Name.onward_read _).bind fun key =>
      Reader.onward_guard (hinner.bind fun v => ih _ _)

/-- The content of every kind of value is read onward, if the values in it are. -/
theorem onward_readContent {inner : Reader Value} (hinner : inner.Onward) (guarded : Bool) (tag : Tag) :
    (readContent guarded inner tag).Onward := by
  cases tag with
  | int => exact onward_readInt
  | uint => exact onward_readUInt
  | buffer => exact onward_readBuffer
  | boolTrue | boolFalse | optionalNone => exact Reader.onward_pure _
  | principalStandard => exact Principal.onward_readStandard.map principal
  | principalContract => exact Principal.onward_readContract.map principal
  | responseOk | responseErr | optionalSome => exact hinner.map _
  | list => exact (Reader.onward_count guarded .listItems).bind fun n => (Reader.onward_times hinner n).map list
  | tuple =>
    exact (Reader.onward_count guarded .tupleFields).bind fun n => (onward_readFieldsOnto hinner n _ _).map tuple
  | stringAscii => exact onward_readAscii
  | stringUtf8 => exact onward_readUtf8

/-- Values are read onward on every level. -/
theorem onward_readWithin (guarded : Bool) (levels : Nat) : (readWithin guarded levels).Onward := by
  induction levels with
  | zero => exact Reader.onward_position.bind fun _ => Reader.onward_malformed _ _
  | succ levels ih =>
    refine Reader.onward_position.bind fun start => Reader.onward_u8.bind fun n => ?_
    cases Tag.ofCode? n with
    | none => exact Reader.onward_malformed _ _
    | some tag => exact onward_readContent ih guarded tag

end Value

end StacksWallet
