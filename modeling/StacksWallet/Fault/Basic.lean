import StacksWallet.Curve.Ecdsa
import StacksWallet.Datum
import StacksWallet.Json.Basic
import StacksWallet.PostCondition.Code
import StacksWallet.Signing.HashMode
import StacksWallet.Text.Utf8
import StacksWallet.Transaction.Stage

/-!
# Faults

Everything that can go wrong, as causes. A fault says which rule was broken and by what; its wording is in
one place, `Fault.message`. Faults of bytes on the wire carry the offset where they were found, faults of
values the field they concern, faults of addresses the text that was read.
-/

namespace StacksWallet

/-- What a one-byte tag selects. -/
inductive TagKind where
  /-- The kind of a value. -/
  | value
  /-- The kind of a post-condition. -/
  | postCondition
  /-- The kind of a post-condition's principal. -/
  | conditionPrincipal
  /-- The kind of a payload. -/
  | payload
  /-- The hash mode of a spending condition. -/
  | hashMode
  /-- The key encoding of a spending condition. -/
  | keyEncoding
  /-- The kind of an authorization. -/
  | authorization
  /-- The version of a transaction. -/
  | version
deriving DecidableEq

/-- What a count announces. -/
inductive CountKind where
  /-- The items of a list. -/
  | listItems
  /-- The fields of a tuple. -/
  | tupleFields
  /-- The arguments of a call. -/
  | arguments
  /-- The conditions of a transaction. -/
  | postConditions
deriving DecidableEq

/-- What a name on the wire names. -/
inductive NameKind where
  /-- A contract. -/
  | contract
  /-- A function. -/
  | function
  /-- An asset. -/
  | asset
  /-- A field of a tuple. -/
  | tupleKey
deriving DecidableEq

/-- A set of numbers that stand for alternatives. -/
inductive CodeSet where
  /-- How an account's hash is derived. -/
  | hashMode
  /-- How a key is serialized. -/
  | keyEncoding
  /-- Where a transaction may be anchored. -/
  | anchorMode
  /-- What happens to assets that no condition mentions. -/
  | postConditionMode
deriving DecidableEq

/-- Why a text is no address, or a hash and a version make none. -/
inductive AddressFlaw where
  /-- A foreign character. -/
  | badCharacter (c : CodePoint)
  /-- A version whose whole part is not below 32. -/
  | versionRange (given : Datum)
  /-- Something other than text. -/
  | notText (kind : String)
  /-- The leading letter is missing. -/
  | badStart
  /-- The second character is no version. -/
  | badVersionCharacter (c : CodePoint)
  /-- No room for the checksum. -/
  | tooShort
  /-- The checksum does not belong to the rest. -/
  | checksumMismatch
  /-- A public-key hash of the wrong size. -/
  | keyHashSize (size : Nat)
  /-- A decoded hash of the wrong size. -/
  | decodedSize (size : Nat)
  /-- A given hash of the wrong size. -/
  | hashSize (size : Nat)
deriving DecidableEq

/-- Why a code does not suit a post-condition. -/
inductive ConditionFlaw where
  /-- An ownership code where amounts are compared. -/
  | ownershipForAmount (code : OwnershipCode)
  /-- An amount comparison where ownership is asked. -/
  | amountForOwnership (code : AmountCode)
  /-- No amount comparison. -/
  | notAmount (given : Datum)
  /-- No ownership code. -/
  | notOwnership (given : Datum)
deriving DecidableEq

/-- Why a value cannot be made. -/
inductive ValueFlaw where
  /-- A signed integer from something else. -/
  | intKind
  /-- An unsigned integer from something else. -/
  | uintKind
  /-- A signed integer beyond 128 bits. -/
  | intRange (n : Int)
  /-- An unsigned integer beyond 128 bits. -/
  | uintRange (n : Int)
  /-- A buffer from something that yields no bytes. -/
  | bufferSource (flaw : ByteSourceFlaw)
  /-- A buffer beyond its limit. -/
  | bufferSize (size : Nat)
  /-- An ASCII string from something else. -/
  | asciiKind
  /-- An ASCII string with characters beyond ASCII. -/
  | asciiForeign (t : Text)
  /-- An ASCII string with control characters. -/
  | asciiUnprintable (t : Text)
  /-- A UTF-8 string from something else. -/
  | utf8Kind
  /-- A UTF-8 string with surrogates. -/
  | utf8Unencodable
  /-- A principal's version beyond its range. -/
  | versionRange (given : Datum)
  /-- A principal's hash of the wrong size. -/
  | hashSize
  /-- A name from something else. -/
  | nameKind (field : Text) (kind : String)
  /-- A name with characters beyond ASCII. -/
  | nameForeign (field : Text) (t : Text)
  /-- A name that is empty or too long. -/
  | nameSize (field : Text) (size : Nat)
  /-- A part of a value that is no value. -/
  | notAValue (field : Text) (kind : String)
  /-- Something other than a value to encode. -/
  | notEncodable (kind : String)
  /-- Two tuple fields of one name. -/
  | duplicateKey (key : Text)
  /-- An asset's hash of the wrong size. -/
  | assetHashSize
  /-- An asset identifier without its two separators. -/
  | assetForm (t : Text)
  /-- Something other than an asset. -/
  | assetKind
  /-- Something other than a value as the token of a condition. -/
  | tokenKind
  /-- Something other than a principal in a condition. -/
  | conditionPrincipalKind (kind : String)
  /-- Something other than a principal to encode. -/
  | unsupportedPrincipal (kind : String)
  /-- A number that does not fit 64 bits. -/
  | notU64 (field : Text) (given : Datum)
  /-- Something other than a post-condition among them. -/
  | notPostCondition (index : Nat) (kind : String)
  /-- A memo from something else. -/
  | memoKind (kind : String)
  /-- A memo that is too long. -/
  | memoSize (size : Nat)
  /-- Something other than a principal as recipient. -/
  | recipientKind
  /-- Something other than an address as a contract's. -/
  | contractAddressKind
  /-- Something other than a value among the arguments. -/
  | argumentKind (index : Nat) (kind : String)
  /-- Something other than a payload to encode. -/
  | unsupportedPayload (kind : String)
  /-- Something other than a payload in a transaction. -/
  | payloadKind (kind : String)
  /-- A hash mode of several keys. -/
  | notSingleKey (mode : HashMode)
  /-- A number that is no mode or encoding of a spending condition. -/
  | conditionCode (codes : CodeSet) (given : Datum)
  /-- A signer of the wrong size. -/
  | signerSize
  /-- A signature of the wrong size. -/
  | signatureSize
  /-- A field of a transaction with a number that stands for nothing. -/
  | notACode (field : Text) (given : Datum)
  /-- A chain number that does not fit 32 bits. -/
  | chainId (given : Datum)
  /-- Something other than an authorization. -/
  | authKind
  /-- A new transaction that is signed already. -/
  | alreadySigned
  /-- A public key from something that yields no bytes. -/
  | publicKeySource (flaw : ByteSourceFlaw)
  /-- A public key that is not compressed. -/
  | publicKeyForm
  /-- No key at all. -/
  | keyMissing
deriving DecidableEq

/-- What trailing bytes come after. -/
inductive WholeKind where
  /-- A value. -/
  | value
  /-- A transaction. -/
  | transaction
deriving DecidableEq

/-- Why bytes break the wire format. -/
inductive WireFlaw where
  /-- Fewer bytes are left than are wanted. -/
  | truncated (wanted remaining : Int)
  /-- A length prefix runs past the end. -/
  | lengthBeyondEnd (length : Nat) (remaining : Int)
  /-- A count announces more elements than bytes are left. -/
  | countBeyondEnd (what : CountKind) (count : Nat) (remaining : Int)
  /-- A tag that selects nothing. -/
  | unknownTag (what : TagKind) (tag : Nat)
  /-- Values inside values beyond the limit. -/
  | tooDeep
  /-- A name that is empty, too long or beyond ASCII. -/
  | badName (what : NameKind) (raw : Bytes)
  /-- A tuple key that does not come after the one before it. -/
  | keyOrder (key : Text)
  /-- An ASCII string with other bytes. -/
  | notAscii
  /-- A UTF-8 string with other bytes. -/
  | notUtf8 (flaw : Utf8Flaw)
  /-- A value that cannot be made. -/
  | value (flaw : ValueFlaw)
  /-- A code that does not suit its post-condition. -/
  | condition (flaw : ConditionFlaw)
  /-- The address of a called contract. -/
  | contractAddress (flaw : AddressFlaw)
  /-- A transfer to something other than a principal. -/
  | recipientKind
  /-- A spending condition of several keys. -/
  | severalKeys
  /-- A mode's number that stands for nothing. -/
  | badMode (codes : CodeSet) (given : Nat)
  /-- Bytes are left over. -/
  | trailing (what : WholeKind) (count : Int)
  /-- A value's text is not hexadecimal. -/
  | valueSource (flaw : ByteSourceFlaw)
  /-- A transaction's text is not hexadecimal. -/
  | transactionSource (flaw : ByteSourceFlaw)
deriving DecidableEq

/-- Why signing or checking a signature fails. -/
inductive SigningFlaw where
  /-- A private key from something that yields no bytes. -/
  | keySource (flaw : ByteSourceFlaw)
  /-- A private key of the wrong size. -/
  | keySize (size : Nat)
  /-- A private key that is zero or beyond the group order. -/
  | keyRange
  /-- A digest of the wrong size. -/
  | digestSize (size : Nat)
  /-- A signature of the wrong size. -/
  | signatureSize (size : Nat)
  /-- A signature from something that yields no bytes. -/
  | signatureSource (flaw : ByteSourceFlaw)
  /-- No public key can be recovered. -/
  | recovery (flaw : Ecdsa.RecoveryFlaw)
  /-- There is no signature to check. -/
  | missing
  /-- The signature is by another signer. -/
  | otherSigner (expected got : Bytes)
  /-- The private key is another signer's. -/
  | otherKey (expected got : Bytes)
deriving DecidableEq

/-- Why an operation is not allowed in the stage of a transaction. -/
inductive StageFlaw where
  /-- The operation belongs to other stages. -/
  | notNow (act : Act) (stage : Stage)
  /-- A sponsor for a transaction without a place for one. -/
  | notSponsored (stage : Stage)
deriving DecidableEq

/-- Why plain data are refused as arguments. -/
inductive ArgumentFlaw where
  /-- A number beyond 32 bits. -/
  | u32Range (given : Datum)
  /-- A number beyond 64 bits. -/
  | u64Range (given : Datum)
  /-- Too many bytes for a length of one byte. -/
  | shortPrefix (size : Nat)
  /-- No hexadecimal text. -/
  | hex (flaw : HexFlaw)
  /-- No pairs of hexadecimal figures. -/
  | pairs (flaw : HexFlaw)
  /-- No integer. -/
  | notAnInteger (t : Text)
  /-- A number that is infinite or none where only finite ones can be written. -/
  | notFinite
  /-- An integer with too many digits. -/
  | tooManyDigits (count : Nat)
  /-- An integer that is too long to be shown. -/
  | unshowable
  /-- No number. -/
  | notANumber (t : Text)
  /-- A number without an integral part. -/
  | notIntegral
  /-- No literal of a value. -/
  | notALiteral (t : Text)
  /-- A number that is none of a set of codes. -/
  | notACode (codes : CodeSet) (given : Datum)
  /-- No public key. -/
  | publicKey
  /-- No network of that name. -/
  | unknownNetwork (name : Text)
  /-- No URL of a node. -/
  | apiUrl (url : Text)
  /-- A negative number of retries. -/
  | retries
  /-- A timeout that is not positive. -/
  | timeout
  /-- A wait of no number of seconds. -/
  | waitNotANumber
  /-- A wait that would end before it began. -/
  | negativeWait
deriving DecidableEq

/-- Why a number does not fit. -/
inductive OverflowFlaw where
  /-- Too large for its width. -/
  | tooBig
  /-- Negative where signs have no place. -/
  | negative
  /-- An integer beyond the range of double-precision numbers. -/
  | beyondReal
  /-- A power beyond the range of double-precision numbers. -/
  | powerRange
  /-- An infinity where an integer is asked. -/
  | infinite
  /-- A wait beyond what a clock counts. -/
  | waitRange
deriving DecidableEq

/-- Why a number cannot be packed into bytes or unpacked from them. -/
inductive PackingFlaw where
  /-- Beyond one byte. -/
  | byteRange
  /-- Beyond a machine word. -/
  | wordRange
  /-- No integer. -/
  | notAnInteger
  /-- Too few bytes. -/
  | bufferSize (width : Nat)
deriving DecidableEq

/-- Why a node's answer is no success. -/
inductive NodeFlaw where
  /-- Every attempt failed. -/
  | exhausted (attempts : Int)
  /-- The node refused, for a reason. -/
  | refused (reason : Text)
  /-- The node refused a transaction, for a reason. -/
  | rejected (reason : Text)
  /-- The answer is no JSON. -/
  | notJson
  /-- An account without a nonce. -/
  | accountForm
  /-- A fee rate that is no integer. -/
  | feeRateForm
  /-- An answer to a read-only call that is no object. -/
  | readOnlyForm
  /-- A read-only call that failed, for a reason. -/
  | readOnlyFailed (reason : Text)
  /-- A result that cannot be decoded, for a reason. -/
  | undecodable (reason : Text)

/-- What a caller learns of a node's answer that is no success. -/
structure NodeFailure where
  /-- The cause. -/
  flaw : NodeFlaw
  /-- The status of the answer. -/
  status : Option Nat := none
  /-- What was asked. -/
  url : Option Text := none
  /-- The answer, as far as it could be read. -/
  body : Json := .null

/-- A fault. -/
inductive Fault where
  /-- Bytes break the wire format, at an offset if one is known. -/
  | malformed (offset : Option Int) (flaw : WireFlaw)
  /-- A value cannot be made. -/
  | invalid (flaw : ValueFlaw)
  /-- An address is refused; `given` is the text that was read. -/
  | address (given : Option Text) (flaw : AddressFlaw)
  /-- A code does not suit its post-condition. -/
  | condition (flaw : ConditionFlaw)
  /-- A signature cannot be made or does not hold. -/
  | signing (flaw : SigningFlaw)
  /-- An operation is not allowed now. -/
  | stage (flaw : StageFlaw)
  /-- A node's answer is no success. -/
  | node (failure : NodeFailure)
  /-- Plain data are refused. -/
  | argument (flaw : ArgumentFlaw)
  /-- A number does not fit. -/
  | overflow (flaw : OverflowFlaw)
  /-- A number cannot be packed. -/
  | packing (flaw : PackingFlaw)
  /-- A text has code points that an encoding has no bytes for. -/
  | unencodable (run : UnencodableRun)
  /-- A key that is not there. -/
  | missingKey (key : Datum)
  /-- A datum of a kind that the operation cannot use. -/
  | mistyped
  /-- A datum that lacks the operation asked of it. -/
  | inapplicable
  /-- The first of no elements. -/
  | emptyRead
  /-- A URL that nothing can be asked of. -/
  | badUrl
  /-- A failure of the transport that is not tried again, by its name. -/
  | transport (name : Text)
  /-- A wait that the system does not begin. -/
  | unscheduled

/-- Whether a fault is one of the domain's own, which commands report and the network client tells apart. -/
def Fault.isReported : Fault → Bool
  | .malformed .. | .invalid _ | .address .. | .condition _ | .signing _ | .stage _ | .node _ => true
  | _ => false

/-- Whether a fault refuses plain data. -/
def Fault.isRefusal : Fault → Bool
  | .argument _ | .unencodable _ => true
  | _ => false

/-- The fault of a datum that its wording shows. If the datum cannot be shown, that is its fault. -/
def Fault.showing (given : Datum) (fault : Fault) : Fault := if given.isShowable then fault else .argument .unshowable

/-- The fault of a code that does not suit its condition. -/
def ConditionFlaw.toFault (flaw : ConditionFlaw) : Fault :=
  match flaw with
  | notAmount given | notOwnership given => .showing given (.condition flaw)
  | _ => .condition flaw

end StacksWallet
