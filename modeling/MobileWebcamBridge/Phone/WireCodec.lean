import MobileWebcamBridge.Lib.Bytes
import MobileWebcamBridge.Lib.Unicode
import MobileWebcamBridge.Phone.ClientAuthorization

/-!
# The bytes of `Wire.kt`

Kotlin's `Byte`, `Short`, `Int` and `Long` are the signed fixed-width integers, a `String` is a list
of UTF-16 units, and `none` is an exception. The payload values are those of the message model,
whose fields are the numbers the source reads with `and 0xff`, `and 0xffff` and `and 0xffffffff`;
writing keeps the low bytes of a field, as `toByte`, `toShort` and `toInt` do.
-/

set_option autoImplicit false

namespace MobileWebcamBridge
namespace WireCodec

open Bytes Unicode Wire

/-- The length of an `AMB1` header. -/
def HEADER_SIZE : ℕ := 24
/-- The largest payload of any frame. -/
def MAX_PAYLOAD : ℕ := 16 * 1024 * 1024
/-- The largest control payload. -/
def MAX_CONTROL_PAYLOAD : ℕ := 16 * 1024
/-- The most modes of a capability list. -/
def MAX_QUALITY_MODES : ℕ := 256
/-- The length of a mode in the list. -/
def QUALITY_MODE_BYTES : ℕ := 12
/-- The version of the authorization messages. -/
def CLIENT_AUTH_VERSION : UInt8 := 2
/-- The length of a proof with an empty label. -/
def CLIENT_AUTH_MIN_BYTES : ℕ := 1 + CLIENT_PUBLIC_KEY_BYTES + 1 + SIGNATURE_BYTES
/-- The length of a proof with the longest label. -/
def CLIENT_AUTH_MAX_BYTES : ℕ := CLIENT_AUTH_MIN_BYTES + MAX_CLIENT_LABEL
/-- The version of the pairing details. -/
def PAIRING_INFO_VERSION : UInt8 := 1
/-- The most addresses of a phone. -/
def MAX_PAIRING_ADDRESSES : ℕ := 4
/-- The length of the certificate's fingerprint. -/
def FINGERPRINT_BYTES : ℕ := 32
/-- The length of the access key. -/
def ACCESS_KEY_BYTES : ℕ := 16

/-- `TYPE_*`. -/
def typeByte : FrameType → Int8
  | .hello => 0x01
  | .helloAck => 0x02
  | .ping => 0x03
  | .pong => 0x04
  | .qualityCapabilities => 0x05
  | .prepareQuality => 0x06
  | .qualityResult => 0x07
  | .paused => 0x08
  | .commitQuality => 0x09
  | .clientChallenge => 0x0a
  | .clientAuth => 0x0b
  | .clientAuthResult => 0x0c
  | .pairingInfo => 0x0d
  | .hostHello => 0x0e
  | .videoConfig => 0x10
  | .videoAu => 0x11
  | .videoIdrRequest => 0x12
  | .stats => 0x20
  | .error => 0x7f

/-- The byte of a permission. -/
def permissionByte : Permission → UInt8
  | .ready => 0
  | .pending => 1
  | .unavailable => 2

/-- The byte of a verdict. -/
def resultByte : ResultStatus → UInt8
  | .switching => 0
  | .rejected => 1
  | .applied => 2
  | .staged => 3

/-- The byte of an outcome. -/
def authStatusByte : AuthStatus → UInt8
  | .authorized => 0
  | .pending => 1
  | .rejected => 2

/-- The byte of a reason. -/
def authReasonByte : AuthReason → UInt8
  | .none => 0
  | .unknown => 1
  | .revoked => 2
  | .expired => 3
  | .tooMany => 4
  | .badSignature => 5

/-- `payload[i]`, which the source reads only below the length. -/
def byteAt (payload : List UInt8) (i : ℕ) : UInt8 := payload.getD i 0

/-! ## Labels -/

section label

variable (P : Platform)

/-- `Char.isWhitespace` of one unit; half of a pair is not white space. -/
def isBlankUnit (u : UInt16) : Bool := !isSurrogate u && P.isWhitespace (Char.ofNat u.toNat)

/-- `labelScalarsAreSafe` of text whose code points are `scalars`. -/
def labelScalarsAreSafe (scalars : List Char) : Bool := scalars.all P.scalarIsSafe

/-- The text of a label that is neither blank nor unsafe. -/
def strictLabel (bytes : List UInt8) : Option (List UInt16) :=
  match fromUtf8 bytes with
  | none => none
  | some scalars =>
    if bytes.length ≤ MAX_CLIENT_LABEL ∧ (utf16 scalars).all (isBlankUnit P) = false ∧
        labelScalarsAreSafe P scalars = true then
      some (utf16 scalars)
    else none

/-- `label.toByteArray(Charsets.UTF_8)`. -/
def labelText (label : List UInt16) : List UInt8 := utf8 (fromUtf16 label)

/-- Zeros over the cable, a fingerprint over Wi-Fi. -/
def requirePhoneBinding (transport : ℤ) (binding : List UInt8) : Bool :=
  binding.length == PHONE_BINDING_BYTES &&
    if transport = 0 then binding.all (· == 0) else binding.any (· != 0)

/-- The transcript the phone verifies. -/
def clientAuthMessage (transport : ℤ) (phoneBinding nonce publicKey : List UInt8)
    (label : List UInt16) : Option (List UInt8) :=
  if (transport = 0 ∨ transport = 1) ∧ requirePhoneBinding transport phoneBinding = true ∧
      nonce.length = NONCE_BYTES ∧ publicKey.length = CLIENT_PUBLIC_KEY_BYTES ∧
      byteAt publicKey 0 = 4 ∧ strictLabel P (labelText label) = some label then
    some (authDomain ++ ([UInt8.ofInt transport] ++ (phoneBinding ++ (nonce ++ (publicKey ++
      ([UInt8.ofNat (labelText label).length] ++ labelText label))))))
  else none

/-- A proof as it is decoded. -/
structure ClientAuth where
  publicKey : List UInt8
  label : List UInt16
  signature : List UInt8
deriving DecidableEq, Repr

/-- The proof from its bytes, each length checked first. -/
def decodeClientAuth (payload : List UInt8) : Option ClientAuth :=
  let offset := 1 + CLIENT_PUBLIC_KEY_BYTES
  let labelLength := (byteAt payload offset).toNat
  if (CLIENT_AUTH_MIN_BYTES ≤ payload.length ∧ payload.length ≤ CLIENT_AUTH_MAX_BYTES) ∧
      byteAt payload 0 = CLIENT_AUTH_VERSION ∧ labelLength ≤ MAX_CLIENT_LABEL ∧
      payload.length = CLIENT_AUTH_MIN_BYTES + labelLength ∧
      byteAt (slice payload 1 offset) 0 = 4 then
    match strictLabel P (slice payload (offset + 1) (offset + 1 + labelLength)) with
    | none => none
    | some label =>
      some {
        publicKey := slice payload 1 offset
        label
        signature := slice payload (payload.length - SIGNATURE_BYTES) payload.length }
  else none

end label

/-! ## Payloads the phone sends -/

/-- `encodeClientChallenge`, after its checks. -/
def challengeBytes (c : ClientChallenge) : List UInt8 :=
  [CLIENT_AUTH_VERSION, transportByte c.transport] ++ (c.phoneBinding ++ c.nonce)

/-- `encodeClientAuthResult`, after its checks. -/
def authResultBytes (r : ClientAuthResult) : List UInt8 :=
  [authStatusByte r.status, authReasonByte r.reason] ++ toLE 4 r.expiresAtUnixSeconds.toNat

/-- The bytes of a mode. -/
def modeBytes (mode : QualityMode) : List UInt8 :=
  toLE 2 mode.width ++ (toLE 2 mode.height ++ (toLE 2 mode.targetFps ++ (toLE 2 0 ++
    toLE 4 mode.bitrate)))

/-- The bytes of a capability list. -/
def capabilitiesBytes (c : Capabilities) : List UInt8 :=
  [UInt8.ofNat c.extensionVersion, permissionByte c.permission] ++ (toLE 2 c.catalogRevision ++
    (toLE 4 c.streamEpoch ++ (toLE 2 c.modes.length ++ c.modes.flatMap modeBytes)))

/-- The bytes of a list that is not too long. -/
def encodeCapabilities (c : Capabilities) : Option (List UInt8) :=
  if c.modes.length ≤ MAX_QUALITY_MODES ∧ (capabilitiesBytes c).length ≤ MAX_CONTROL_PAYLOAD then
    some (capabilitiesBytes c)
  else none

/-- The bytes of a verdict. -/
def encodeQualityResult (r : QualityResult) : List UInt8 :=
  toLE 4 r.requestId ++ ([resultByte r.status, UInt8.ofNat r.reason] ++ (toLE 2 r.appliedWidth ++
    (toLE 2 r.appliedHeight ++ (toLE 2 r.appliedFps ++ toLE 2 0))))

/-- The bytes of a request and its epoch. -/
def encodeEpoch (e : Epoch) : List UInt8 := toLE 4 e.requestId ++ toLE 4 e.streamEpoch

/-- `VideoWire.encodeConfig`, after its checks: codec and NAL format are both 1. -/
def configBytes (c : VideoConfig) : List UInt8 :=
  toLE 2 c.width ++ (toLE 2 c.height ++ (toLE 2 c.fps ++ (toLE 2 0 ++ (toLE 4 c.bitrate ++
    ([1, 1] ++ toLE 2 0)))))

/-- The bytes of a payload that passed the checks of its encoder. -/
def payloadBytes : Payload → List UInt8
  | .raw bytes => bytes
  | .capabilities value => capabilitiesBytes value
  | .qualityResult value => encodeQualityResult value
  | .epoch value => encodeEpoch value
  | .videoConfig value => configBytes value
  | .clientChallenge value => challengeBytes value
  | .clientAuthResult value => authResultBytes value

/-! ## Pairing details -/

/-- `Character.isDigit` and `Character.digit`. -/
structure Digits where
  isDigit : UInt16 → Bool
  digit : ℕ → UInt16 → Option ℕ

section pairing

variable (P : Platform) (D : Digits)

/-- `trim()`. -/
def trim (text : List UInt16) : List UInt16 :=
  ((text.dropWhile (isBlankUnit P)).reverse.dropWhile (isBlankUnit P)).reverse

/-- The digits of `toIntOrNull`, most significant first. -/
def digitsToNat (radix : ℕ) (text : List UInt16) : Option ℕ :=
  text.foldl (fun acc u => acc.bind fun n => (D.digit radix u).map fun d => n * radix + d) (some 0)

/-- `toIntOrNull` of at most three characters, where nothing overflows. -/
def toIntOrNull (text : List UInt16) : Option ℤ :=
  match text with
  | [] => none
  | sign :: digits =>
    if sign.toNat < 0x30 then
      if digits = [] then none
      else if sign = 0x2d then (digitsToNat D 10 digits).map fun n => -(n : ℤ)
      else if sign = 0x2b then (digitsToNat D 10 digits).map fun n => (n : ℤ)
      else none
    else (digitsToNat D 10 text).map fun n => (n : ℤ)

/-- One of the four parts. -/
def parsePart (part : List UInt16) : Option UInt8 :=
  if part = [] ∨ part.length > 3 ∨ (part.length > 1 ∧ part.head? = some 0x30) then none
  else
    match toIntOrNull D part with
    | none => none
    | some value => if 0 ≤ value ∧ value ≤ 255 then some (UInt8.ofInt value) else none

/-- The address of a dotted text. -/
def parseIpv4 (text : List UInt16) : Option (UInt8 × UInt8 × UInt8 × UInt8) :=
  match ((trim P text).splitOn 0x2e).map (parsePart D) with
  | [some a, some b, some c, some d] => some (a, b, c, d)
  | _ => none

/-- The test of `hexBytes` on one character. -/
def isHexUnit (u : UInt16) : Bool :=
  D.isDigit u || decide (0x61 ≤ u.toNat ∧ u.toNat ≤ 0x66) ||
  decide (0x41 ≤ u.toNat ∧ u.toNat ≤ 0x46)

/-- `substring(i * 2, i * 2 + 2).toInt(16).toByte()`. -/
def hexByte (pair : List UInt16) : Option UInt8 := (digitsToNat D 16 pair).map UInt8.ofNat

/-- The bytes of a hexadecimal text of the right length. -/
def hexBytes (text : List UInt16) (bytes : ℕ) : Option (List UInt8) :=
  if (trim P text).length = bytes * 2 ∧ (trim P text).all (isHexUnit D) = true then
    (chunks 2 (trim P text)).mapM (hexByte D)
  else none

/-- The four bytes of an address. -/
def addressBytes (address : UInt8 × UInt8 × UInt8 × UInt8) : List UInt8 :=
  [address.1, address.2.1, address.2.2.1, address.2.2.2]

/-- The bytes of the pairing details; an address that is none is left out. -/
def encodePairingInfo (addresses : List (List UInt16)) (fingerprint key : List UInt16) :
    Option (List UInt8) :=
  let parsed := (addresses.filterMap (parseIpv4 P D)).take MAX_PAIRING_ADDRESSES
  if parsed = [] then none
  else
    match hexBytes P D fingerprint FINGERPRINT_BYTES, hexBytes P D key ACCESS_KEY_BYTES with
    | some fingerprintBytes, some keyBytes =>
      some ([PAIRING_INFO_VERSION, UInt8.ofNat parsed.length] ++ (parsed.flatMap addressBytes ++
        (fingerprintBytes ++ keyBytes)))
    | _, _ => none

end pairing

/-! ## Payloads the phone reads -/

/-- The request from its bytes. -/
def decodePrepareQuality (payload : List UInt8) : Option PrepareQuality :=
  if payload.length = 14 then
    some {
      requestId := ofLE (slice payload 0 4)
      catalogRevision := ofLE (slice payload 4 6)
      width := ofLE (slice payload 6 8)
      height := ofLE (slice payload 8 10)
      targetFps := ofLE (slice payload 10 12) }
  else none

/-- The request and the epoch from their bytes. -/
def decodeEpoch (payload : List UInt8) : Option Epoch :=
  if payload.length = 8 then
    some { requestId := ofLE (slice payload 0 4), streamEpoch := ofLE (slice payload 4 8) }
  else none

/-! ## Frames -/

/-- A header with the signed fields of the source. -/
structure Header where
  type : Int8
  flags : Int16
  sequence : Int32
  payloadLength : Int32
  ptsUs : Int64
deriving DecidableEq

/-- `MAGIC` in little-endian order. -/
def magic : List UInt8 := toLE 4 0x31424d41

/-- The bytes `writeFrame` puts before the payload. -/
def headerBytes (h : Header) (payloadSize : ℕ) : List UInt8 :=
  magic ++ ([1, h.type.toUInt8] ++ (toLE 2 h.flags.toUInt16.toNat ++
    (toLE 4 h.sequence.toUInt32.toNat ++ (toLE 4 payloadSize ++ toLE 8 h.ptsUs.toUInt64.toNat))))

/-- The bytes of a frame, if its payload is as long as the header says. -/
def writeFrame (h : Header) (payload : List UInt8) : Option (List UInt8) :=
  if (payload.length : ℤ) = h.payloadLength.toInt ∧ payload.length ≤ MAX_PAYLOAD then
    some (headerBytes h payload.length ++ payload)
  else none

/-- `readExact`: the bytes and what is left; `none` when the stream ends. -/
def readExact (input : List UInt8) (n : ℕ) : Option (List UInt8 × List UInt8) :=
  if n ≤ input.length then some (input.take n, input.drop n) else none

/-- The header fields, as `ByteBuffer` reads them. -/
def readHeader (b : List UInt8) : Header where
  type := (byteAt b 5).toInt8
  flags := (UInt16.ofNat (ofLE (slice b 6 8))).toInt16
  sequence := (UInt32.ofNat (ofLE (slice b 8 12))).toInt32
  payloadLength := (UInt32.ofNat (ofLE (slice b 12 16))).toInt32
  ptsUs := (UInt64.ofNat (ofLE (slice b 16 24))).toInt64

/-- `readFrame`; `payloadBounds` gives the permitted lengths, or throws. -/
def readFrame (input : List UInt8) (maxPayloadLength : ℕ) (payloadBounds : Int8 → Option (ℕ × ℕ)) :
    Option ((Header × List UInt8) × List UInt8) :=
  match readExact input HEADER_SIZE with
  | none => none
  | some (b, rest) =>
    let header := readHeader b
    let length := header.payloadLength.toInt
    if slice b 0 4 = magic ∧ byteAt b 4 = 1 ∧ 0 ≤ length ∧ length ≤ maxPayloadLength then
      match payloadBounds header.type with
      | none => none
      | some (least, most) =>
        if (least : ℤ) ≤ length ∧ length ≤ most then
          (readExact rest length.toNat).map fun (payload, rest) => ((header, payload), rest)
        else none
    else none

/-- The lengths `readHostFrame` permits. -/
def hostPayloadBounds (type : Int8) : Option (ℕ × ℕ) :=
  if type = typeByte .ping then some (8, 8)
  else if type = typeByte .hostHello then some (0, 0)
  else if type = typeByte .videoIdrRequest then some (0, 0)
  else if type = typeByte .prepareQuality then some (14, 14)
  else if type = typeByte .commitQuality then some (8, 8)
  else if type = typeByte .clientAuth then some (CLIENT_AUTH_MIN_BYTES, CLIENT_AUTH_MAX_BYTES)
  else none

/-- A frame of the PC from the bytes that have arrived. -/
def readHostFrame (input : List UInt8) : Option ((Header × List UInt8) × List UInt8) :=
  readFrame input CLIENT_AUTH_MAX_BYTES hostPayloadBounds

end WireCodec
end MobileWebcamBridge
