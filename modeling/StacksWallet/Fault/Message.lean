import StacksWallet.Fault.Basic

/-!
# The wording of faults

Each cause has one wording. A message names the class of the fault, then where it was found, then the cause;
faults of plain arguments have the cause alone.
-/

namespace StacksWallet

/-- The text of a number between other texts. -/
def numeral (n : Int) : Text := Text.ofInt n

/-- The wording before an unknown tag. -/
def TagKind.phrase : TagKind → String
  | value => "unknown clarity type tag"
  | postCondition => "unknown post-condition type"
  | conditionPrincipal => "unknown post-condition principal tag"
  | payload => "unsupported payload type"
  | hashMode => "unknown hash mode"
  | keyEncoding => "unknown key encoding"
  | authorization => "unknown authorization type"
  | version => "unknown transaction version"

/-- The name of a count. -/
def CountKind.phrase : CountKind → String
  | listItems => "list count"
  | tupleFields => "tuple count"
  | arguments => "argument count"
  | postConditions => "post-condition count"

/-- The name of a name. -/
def NameKind.phrase : NameKind → String
  | contract => "contract name"
  | function => "function name"
  | asset => "asset name"
  | tupleKey => "tuple key"

/-- The name of a set of codes. -/
def CodeSet.phrase : CodeSet → String
  | hashMode => "HashMode"
  | keyEncoding => "PubKeyEncoding"
  | anchorMode => "AnchorMode"
  | postConditionMode => "PostConditionMode"

/-- The name of what trailing bytes come after. -/
def WholeKind.phrase : WholeKind → String
  | value => "value"
  | transaction => "transaction"

/-- That an integer is too long to be shown. -/
def unshowableMessage : String :=
  "Exceeds the limit (4300 digits) for integer string conversion; " ++
    "use sys.set_int_max_str_digits() to increase the limit"

/-- That a number is none of a set of codes, as far as it can be shown. -/
def CodeSet.refusal (codes : CodeSet) (given : Datum) : Text :=
  if given.isShowable then given.shown ++ " is not a valid " ++ codes.phrase else unshowableMessage

namespace HexFlaw

/-- Wording for pairs of figures. -/
def pairsMessage : HexFlaw → Text
  | oddLength => "hex string must have even length"
  | badDigit position => "non-hexadecimal number found in fromhex() arg at position " ++ Text.ofNat position

/-- Wording for a text that should be hexadecimal. -/
def message : HexFlaw → Text
  | oddLength => "hex string must have even length"
  | badDigit position => "invalid hex string: " ++ pairsMessage (badDigit position)

end HexFlaw

/-- Wording for data that yield no bytes. -/
def ByteSourceFlaw.message : ByteSourceFlaw → Text
  | hex flaw => flaw.message
  | notText => "from_hex expects a string"
  | unsupported kind => "Unsupported type for ensure_bytes: <class '" ++ (kind : Text) ++ "'>"

namespace AddressFlaw

/-- Wording of the cause. -/
def cause : AddressFlaw → Text
  | badCharacter c => "invalid c32 character " ++ Text.quoted [c]
  | versionRange given => "version must be in [0, 32), got " ++ given.shown
  | notText kind => "address must be a string, got " ++ (kind : Text)
  | badStart => "address must start with 'S'"
  | badVersionCharacter c => "invalid version character " ++ Text.quoted [c]
  | tooShort => "address too short to carry a checksum"
  | checksumMismatch => "checksum mismatch"
  | keyHashSize size => "public-key hash must be 20 bytes, got " ++ Text.ofNat size
  | decodedSize size => "decoded hash must be 20 bytes, got " ++ Text.ofNat size
  | hashSize size => "hash160 must be 20 bytes, got " ++ Text.ofNat size

/-- The whole wording. -/
def message (given : Option Text) (flaw : AddressFlaw) : Text :=
  let which : Text :=
    match given with
    | some t => " addr=" ++ t.quoted
    | none => ""
  "InvalidAddress" ++ which ++ ": " ++ flaw.cause

end AddressFlaw

/-- Wording of the cause. -/
def ConditionFlaw.cause : ConditionFlaw → Text
  | ownershipForAmount code => (code.name : Text) ++ " is a non-fungible code; expected an amount comparison"
  | amountForOwnership code => (code.name : Text) ++ " is an amount comparison; expected SENT or NOT_SENT"
  | notAmount given => "not a fungible condition code: " ++ given.shown
  | notOwnership given => "not a non-fungible condition code: " ++ given.shown

namespace ValueFlaw

/-- The field that the fault concerns, empty where there is none. -/
def field : ValueFlaw → Text
  | intKind | intRange _ => "int"
  | uintKind | uintRange _ => "uint"
  | bufferSource _ | bufferSize _ => "buffer"
  | asciiKind | asciiForeign _ | asciiUnprintable _ => "string-ascii"
  | utf8Kind | utf8Unencodable => "string-utf8"
  | versionRange _ => "version"
  | hashSize => "hash160"
  | nameKind field _ | nameForeign field _ | nameSize field _ | notAValue field _ | notU64 field _
  | notACode field _ => field
  | notEncodable _ | unsupportedPayload _ => ""
  | duplicateKey _ => "tuple key"
  | assetHashSize | assetForm _ | assetKind => "asset"
  | tokenKind => "asset_value"
  | conditionPrincipalKind _ | unsupportedPrincipal _ => "principal"
  | notPostCondition .. => "post_conditions"
  | memoKind _ | memoSize _ => "memo"
  | recipientKind => "recipient"
  | contractAddressKind => "contract_address"
  | argumentKind .. => "function_args"
  | payloadKind _ => "payload"
  | notSingleKey _ => "hash_mode"
  | conditionCode .. => "spending_condition"
  | signerSize => "signer"
  | signatureSize => "signature"
  | chainId _ => "chain_id"
  | authKind | alreadySigned => "auth"
  | publicKeySource _ | publicKeyForm | keyMissing => "public_key"

/-- Wording of the cause. -/
def cause : ValueFlaw → Text
  | intKind => "int value must be an int"
  | uintKind => "uint value must be an int"
  | intRange n => "int out of i128 range: " ++ numeral n
  | uintRange n => "uint out of u128 range: " ++ numeral n
  | bufferSource flaw => "buffer data: " ++ flaw.message
  | bufferSize size => "buffer exceeds 1048576 bytes: " ++ Text.ofNat size
  | asciiKind => "string-ascii data must be str"
  | asciiForeign t => "string-ascii contains non-ASCII characters: " ++ t.quoted
  | asciiUnprintable t => "string-ascii contains unprintable characters: " ++ t.quoted
  | utf8Kind => "string-utf8 data must be str"
  | utf8Unencodable => "string-utf8 is not encodable"
  | versionRange given => "address version out of range: " ++ given.shown
  | hashSize => "hash160 must be 20 bytes"
  | nameKind field kind => field ++ " must be a string, got " ++ (kind : Text)
  | nameForeign field t => field ++ " must be ASCII: " ++ t.quoted
  | nameSize field size => field ++ " must be 1..128 bytes, got " ++ Text.ofNat size
  | notAValue field kind => field ++ " must be a ClarityValue, got " ++ (kind : Text)
  | notEncodable kind => "expected a ClarityValue, got " ++ (kind : Text)
  | duplicateKey key => "duplicate tuple key " ++ key.quoted
  | assetHashSize => "asset contract hash160 must be 20 bytes"
  | assetForm t => "asset identifier must look like ADDR.contract::asset, got " ++ t.quoted
  | assetKind => "asset must be an AssetInfo"
  | tokenKind => "asset_value must be a ClarityValue"
  | conditionPrincipalKind kind =>
    "post-condition principal must be ORIGIN or a principal value, got " ++ (kind : Text)
  | unsupportedPrincipal kind => "unsupported principal " ++ (kind : Text)
  | notU64 field given => field ++ " must be a u64, got " ++ given.shown
  | notPostCondition index kind =>
    "post_conditions[" ++ Text.ofNat index ++ "] is not a post-condition: " ++ (kind : Text)
  | memoKind kind => "memo must be str or bytes, got " ++ (kind : Text)
  | memoSize size => "memo exceeds 34 bytes: " ++ Text.ofNat size
  | recipientKind => "recipient must be a principal"
  | contractAddressKind => "contract_address must be an Address"
  | argumentKind index kind =>
    "function_args[" ++ Text.ofNat index ++ "] must be a ClarityValue, got " ++ (kind : Text)
  | unsupportedPayload kind | payloadKind kind => "unsupported payload " ++ (kind : Text)
  | notSingleKey mode => "hash mode " ++ (mode.name : Text) ++ " is not single-sig"
  | conditionCode codes given => codes.refusal given
  | signerSize => "signer must be a 20-byte hash160"
  | signatureSize => "signature must be 65 bytes"
  | notACode field given => "invalid " ++ field ++ ": " ++ given.shown
  | chainId given => "chain_id must be a u32, got " ++ given.shown
  | authKind => "auth must be an Authorization"
  | alreadySigned => "a new transaction must start unsigned"
  | publicKeySource flaw => "invalid public key: " ++ flaw.message
  | publicKeyForm => "public key must be 33-byte compressed secp256k1"
  | keyMissing => "either public_key or sender_key is required"

end ValueFlaw

/-- Wording of the cause. -/
def WireFlaw.cause : WireFlaw → Text
  | truncated wanted remaining =>
    "truncated input: wanted " ++ numeral wanted ++ " bytes, " ++ numeral remaining ++ " remaining"
  | lengthBeyondEnd length remaining =>
    "length prefix " ++ Text.ofNat length ++ " exceeds remaining " ++ numeral remaining ++ " bytes"
  | countBeyondEnd what count remaining =>
    (what.phrase : Text) ++ " " ++ Text.ofNat count ++ " exceeds remaining " ++ numeral remaining ++ " bytes"
  | unknownTag what tag => (what.phrase : Text) ++ " 0x" ++ Text.hexPadded 2 tag
  | tooDeep => "value nested deeper than 32 levels"
  | badName what raw => "invalid " ++ (what.phrase : Text) ++ ": " ++ Bytes.quoted raw
  | keyOrder key => "tuple keys not strictly ascending at " ++ key.quoted
  | notAscii => "string-ascii contains non-ASCII bytes"
  | notUtf8 flaw => "string-utf8 is not valid UTF-8: " ++ (flaw.reason : Text)
  | value flaw => flaw.cause
  | condition flaw => flaw.cause
  | contractAddress flaw => "invalid contract address: " ++ AddressFlaw.message none flaw
  | recipientKind => "token transfer recipient is not a principal"
  | severalKeys => "multisig spending conditions are not supported"
  | badMode codes given => codes.refusal (.integer given)
  | trailing what count => numeral count ++ " trailing bytes after " ++ (what.phrase : Text)
  | valueSource flaw => "invalid hex: " ++ flaw.message
  | transactionSource flaw => "invalid transaction bytes: " ++ flaw.message

/-- Wording of a failed recovery. -/
def recoveryMessage : Ecdsa.RecoveryFlaw → String
  | .recoveryNumber => "Invalid recovery id."
  | .unparsable => "Failed to parse recoverable signature."
  | .unrecoverable => "failed to recover ECDSA public key"

/-- The two hashes of a mismatch. -/
def mismatch (expected got : Bytes) : Text := " expected=" ++ Hex.prefixed expected ++ " got=" ++ Hex.prefixed got

/-- Wording of the cause. -/
def SigningFlaw.cause : SigningFlaw → Text
  | keySource flaw => "private key is not valid hex/bytes: " ++ flaw.message
  | keySize size => "private key must be 32 bytes (or 33 with 0x01 suffix), got " ++ Text.ofNat size
  | keyRange =>
    "invalid secp256k1 private key: Secret scalar must be greater than 0 and less than " ++
      Text.ofNat Secp256k1.order ++ "."
  | digestSize size => "digest must be 32 bytes, got " ++ Text.ofNat size
  | signatureSize size => "signature must be 65 bytes, got " ++ Text.ofNat size
  | signatureSource flaw => "public key recovery failed: " ++ flaw.message
  | recovery flaw => "public key recovery failed: " ++ (recoveryMessage flaw : Text)
  | missing => "spending condition carries no signature"
  | otherSigner expected got => "recovered signer does not match spending condition" ++ mismatch expected got
  | otherKey expected got => "private key does not match the transaction origin" ++ mismatch expected got

/-- The whole wording. -/
def StageFlaw.message : StageFlaw → Text
  | notNow act stage =>
    "SerializationStateError [op=" ++ (act.name : Text) ++ ", state=" ++ (stage.name : Text) ++ "]: cannot " ++
      (act.name : Text) ++ " a " ++ (stage.name : Text) ++ " transaction"
  | notSponsored stage =>
    "SerializationStateError [op=sponsor, state=" ++ (stage.name : Text) ++ "]: transaction is not sponsored"

/-- The whole wording. -/
def ArgumentFlaw.message : ArgumentFlaw → Text
  | u32Range given => "u32 out of range: " ++ given.shown
  | u64Range given => "u64 out of range: " ++ given.shown
  | shortPrefix size => "payload too long for a 1-byte length prefix: " ++ Text.ofNat size
  | hex flaw => flaw.message
  | pairs flaw => flaw.pairsMessage
  | notAnInteger t => "invalid literal for int() with base 10: " ++ t.quoted
  | tooManyDigits count =>
    "Exceeds the limit (4300 digits) for integer string conversion: value has " ++ Text.ofNat count ++
      " digits; use sys.set_int_max_str_digits() to increase the limit"
  | notFinite => "Out of range float values are not JSON compliant"
  | unshowable => unshowableMessage
  | notANumber t => "could not convert string to float: " ++ t.quoted
  | notIntegral => "cannot convert float NaN to integer"
  | notALiteral t => "unrecognised Clarity literal: " ++ t.quoted
  | notACode codes given => codes.refusal given
  | publicKey => "The public key could not be parsed or is invalid."
  | unknownNetwork name =>
    "unknown network " ++ name.quoted ++ "; expected one of ['mainnet', 'mocknet', 'testnet']"
  | apiUrl url => "API URL must start with http:// or https://, got: " ++ url.quoted
  | retries => "max_retries must be >= 0"
  | timeout => "request_timeout must be > 0"
  | waitNotANumber => "Invalid value NaN (not a number)"
  | negativeWait => "sleep length must be non-negative"

/-- The whole wording. -/
def OverflowFlaw.message : OverflowFlaw → String
  | tooBig => "int too big to convert"
  | negative => "can't convert negative int to unsigned"
  | beyondReal => "int too large to convert to float"
  | powerRange => "(34, 'Numerical result out of range')"
  | infinite => "cannot convert float infinity to integer"
  | waitRange => "timestamp out of range for platform time_t"

/-- The whole wording. -/
def PackingFlaw.message : PackingFlaw → Text
  | byteRange => "ubyte format requires 0 <= number <= 255"
  | wordRange => "argument out of range"
  | notAnInteger => "required argument is not an integer"
  | bufferSize width => "unpack requires a buffer of " ++ Text.ofNat width ++ " bytes"

/-- Wording of code points that cannot be encoded. -/
def UnencodableRun.message (run : UnencodableRun) : Text :=
  let which : Text :=
    if run.count = 1 then "character '" ++ run.first.numericEscape ++ "' in position " ++ Text.ofNat run.position
    else "characters in position " ++ Text.ofNat run.position ++ "-" ++ Text.ofNat (run.position + run.count - 1)
  "'" ++ (run.charset.name : Text) ++ "' codec can't encode " ++ which ++ ": " ++ (run.charset.reason : Text)

/-- Wording of the cause. -/
def NodeFlaw.cause : NodeFlaw → Text
  | exhausted attempts => "request failed after " ++ numeral attempts ++ " attempts"
  | refused reason => reason
  | rejected reason => "transaction rejected: " ++ reason
  | notJson => "non-JSON response"
  | accountForm => "malformed account response"
  | feeRateForm => "malformed fee rate response"
  | readOnlyForm => "malformed read-only response"
  | readOnlyFailed reason => "read-only call failed: " ++ reason
  | undecodable reason => "undecodable read-only result: " ++ reason

/-- The whole wording, with status, URL and body where they are known. -/
def NodeFailure.message (failure : NodeFailure) : Text :=
  let status : Text :=
    match failure.status with
    | some n => " http=" ++ Text.ofNat n
    | none => ""
  let url : Text :=
    match failure.url with
    | some u => if u.isEmpty then "" else " url=" ++ u
    | none => ""
  let body : Text :=
    match failure.body with
    | .null => ""
    | v => " body=" ++ v.shown
  "ApiError: " ++ failure.flaw.cause ++ status ++ url ++ body

/-- Wording of a fault. -/
def Fault.message : Fault → Text
  | .malformed offset flaw =>
    let position : Text :=
      match offset with
      | some n => " @" ++ numeral n
      | none => ""
    "MalformedValue" ++ position ++ ": " ++ flaw.cause
  | .invalid flaw =>
    let concerned : Text := if flaw.field.isEmpty then "" else " [" ++ flaw.field ++ "]"
    "InvalidValue" ++ concerned ++ ": " ++ flaw.cause
  | .address given flaw => AddressFlaw.message given flaw
  | .condition flaw => "InvalidPostCondition: " ++ flaw.cause
  | .signing flaw => "SigningError: " ++ flaw.cause
  | .stage flaw => flaw.message
  | .node failure => failure.message
  | .argument flaw => flaw.message
  | .overflow flaw => flaw.message
  | .packing flaw => flaw.message
  | .unencodable run => run.message
  | .missingKey key => key.shown
  | .mistyped => "unsuitable argument"
  | .inapplicable => "argument lacks the operation"
  | .emptyRead => "index out of range"
  | .badUrl => "invalid URL"
  | .transport name => name
  | .unscheduled => "[Errno 22] Invalid argument"

end StacksWallet
