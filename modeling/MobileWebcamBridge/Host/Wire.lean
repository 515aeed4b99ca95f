import MobileWebcamBridge.Lib.Bytes
import MobileWebcamBridge.Lib.Unicode

/-!
# `wire.rs`: the PC's codecs

The fields have the widths of the source. A codec that can fail gives an `Error` with the source's
text; a failed assertion is an error of its own kind, so that "encodes" means that no assertion
failed. What the third-party Unicode tables decide is a parameter of the label check.
-/

set_option autoImplicit false

namespace MobileWebcamBridge
namespace HostWire

open Bytes Unicode

/-- The kinds of `io::Error` that the codecs report. -/
inductive ErrorKind
  | invalidData | invalidInput | other
  /-- A failed assertion. -/
  | panic
deriving DecidableEq, Repr

/-- An error of a codec: its kind and the source's text. -/
structure Error where
  kind : ErrorKind
  message : String
deriving DecidableEq, Repr

/-- The result of a codec. -/
abbrev Result (α : Type) := Except Error α

/-- The length of an `AMB1` header. -/
def HEADER_SIZE : ℕ := 24
/-- The largest payload of any frame. -/
def MAX_PAYLOAD : ℕ := 16 * 1024 * 1024
/-- The phone's greeting. -/
def HELLO : UInt8 := 0x01
/-- The answer to a greeting. -/
def HELLO_ACK : UInt8 := 0x02
/-- A keep-alive of either side. -/
def PING : UInt8 := 0x03
/-- The answer to a keep-alive. -/
def PONG : UInt8 := 0x04
/-- The modes the phone offers. -/
def QUALITY_CAPABILITIES : UInt8 := 0x05
/-- The PC asks for a mode. -/
def PREPARE_QUALITY : UInt8 := 0x06
/-- The phone's verdict on a request. -/
def QUALITY_RESULT : UInt8 := 0x07
/-- The old capture has stopped, and video of it will not follow. -/
def PAUSED : UInt8 := 0x08
/-- The PC has dropped the old video and lets the capture of its request begin. -/
def COMMIT_QUALITY : UInt8 := 0x09
/-- The phone asks a PC to prove possession of its key. -/
def CLIENT_CHALLENGE : UInt8 := 0x0a
/-- The PC's proof. -/
def CLIENT_AUTH : UInt8 := 0x0b
/-- The phone's outcome of an authorization. -/
def CLIENT_AUTH_RESULT : UInt8 := 0x0c
/-- The Wi-Fi pairing details, handed to the PC over the cable. -/
def PAIRING_INFO : UInt8 := 0x0d
/-- A PC is here and asks for a fresh exchange. -/
def HOST_HELLO : UInt8 := 0x0e
/-- The size and rate of the video that follows. -/
def VIDEO_CONFIG : UInt8 := 0x10
/-- One access unit. -/
def VIDEO_AU : UInt8 := 0x11
/-- The PC asks for a keyframe. -/
def IDR_REQUEST : UInt8 := 0x12

/-- The flag of a unit that starts with an IDR picture. -/
def KEYFRAME : UInt16 := 1
/-- The flag of a unit that carries its parameter sets. -/
def CONFIG_INCLUDED : UInt16 := 2
/-- The flag of a unit whose predecessor was dropped. -/
def DISCONTINUITY : UInt16 := 4

/-- The camera may be used. -/
def PERMISSION_READY : UInt8 := 0
/-- The user has not answered for the camera yet. -/
def PERMISSION_PENDING : UInt8 := 1
/-- The camera may not be used. -/
def PERMISSION_UNAVAILABLE : UInt8 := 2

/-- The request is accepted and the old capture stops. -/
def RESULT_SWITCHING : UInt8 := 0
/-- The request is refused. -/
def RESULT_REJECTED : UInt8 := 1
/-- The mode of the request is captured. -/
def RESULT_APPLIED : UInt8 := 2
/-- The mode is kept for the next start of the camera. -/
def RESULT_STAGED : UInt8 := 3

/-- The PC is approved. -/
def AUTH_AUTHORIZED : UInt8 := 0
/-- The user has to approve the PC. -/
def AUTH_PENDING : UInt8 := 1
/-- The PC is refused. -/
def AUTH_REJECTED : UInt8 := 2
/-- No reason, as for a PC that is not refused. -/
def AUTH_REASON_NONE : UInt8 := 0
/-- The PC is not known to the phone. -/
def AUTH_REASON_UNKNOWN : UInt8 := 1
/-- The PC's approval was revoked. -/
def AUTH_REASON_REVOKED : UInt8 := 2
/-- The PC's approval has expired. -/
def AUTH_REASON_EXPIRED : UInt8 := 3
/-- The phone has no room for another PC. -/
def AUTH_REASON_TOO_MANY : UInt8 := 4
/-- The PC's proof does not verify. -/
def AUTH_REASON_BAD_SIGNATURE : UInt8 := 5

/-- The longest label of a PC, in bytes. -/
def MAX_CLIENT_LABEL : ℕ := 32
/-- The length of a signature, `r` and `s`. -/
def SIGNATURE_BYTES : ℕ := 64
/-- The length of a challenge's nonce. -/
def NONCE_BYTES : ℕ := 32
/-- The largest control payload; the counted list of modes must fit inside. -/
def MAX_CONTROL_PAYLOAD : ℕ := 16 * 1024
/-- The most modes of a capability list. -/
def MAX_QUALITY_MODES : ℕ := 256
/-- The length of a mode in the list. -/
def QUALITY_MODE_BYTES : ℕ := 12

/-- `from_le_bytes` and `to_le_bytes`. -/
def u16 (bytes : List UInt8) : UInt16 := UInt16.ofNat (ofLE bytes)
/-- A little-endian number of four bytes. -/
def u32 (bytes : List UInt8) : UInt32 := UInt32.ofNat (ofLE bytes)
/-- A little-endian number of eight bytes. -/
def u64 (bytes : List UInt8) : UInt64 := UInt64.ofNat (ofLE bytes)

/-- The two bytes of a number, least first. -/
def le16 (v : UInt16) : List UInt8 := toLE 2 v.toNat
/-- The four bytes of a number, least first. -/
def le32 (v : UInt32) : List UInt8 := toLE 4 v.toNat
/-- The eight bytes of a number, least first. -/
def le64 (v : UInt64) : List UInt8 := toLE 8 v.toNat

/-- `payload[i]`, which the source reads only below the length. -/
def byteAt (payload : List UInt8) (i : ℕ) : UInt8 := payload.getD i 0

/-- An error for bytes that are no message. -/
def invalid (message : String) : Error := ⟨.invalidData, message⟩

/-! ## Quality payloads -/

/-- A mode the phone can capture. -/
structure QualityMode where
  width : UInt16
  height : UInt16
  targetFps : UInt16
  bitrate : UInt32
deriving DecidableEq, Repr

/-- The payload of `QUALITY_CAPABILITIES`. -/
structure Capabilities where
  extensionVersion : UInt8
  permission : UInt8
  catalogRevision : UInt16
  streamEpoch : UInt32
  modes : List QualityMode
deriving DecidableEq, Repr

/-- The payload of `PREPARE_QUALITY`. -/
structure PrepareQuality where
  requestId : UInt32
  catalogRevision : UInt16
  width : UInt16
  height : UInt16
  targetFps : UInt16
deriving DecidableEq, Repr

/-- The payload of `QUALITY_RESULT`. -/
structure QualityResult where
  requestId : UInt32
  status : UInt8
  reason : UInt8
  appliedWidth : UInt16
  appliedHeight : UInt16
  appliedFps : UInt16
deriving DecidableEq, Repr

/-- The payload of `PAUSED` and `COMMIT_QUALITY`. -/
structure Epoch where
  requestId : UInt32
  streamEpoch : UInt32
deriving DecidableEq, Repr

/-- A mode from its twelve bytes; the two reserved ones are not read. -/
def QualityMode.decode (chunk : List UInt8) : QualityMode where
  width := u16 (slice chunk 0 2)
  height := u16 (slice chunk 2 4)
  targetFps := u16 (slice chunk 4 6)
  bitrate := u32 (slice chunk 8 12)

/-- The twelve bytes of a mode, the reserved ones zero. -/
def QualityMode.encode (mode : QualityMode) : List UInt8 :=
  le16 mode.width ++ (le16 mode.height ++ (le16 mode.targetFps ++ (le16 0 ++ le32 mode.bitrate)))

/-- The length is checked against the count before a mode is read. -/
def Capabilities.decode (payload : List UInt8) : Result Capabilities :=
  if payload.length < 10 then .error (invalid "quality capabilities payload is truncated")
  else
    let modeCount := (u16 (slice payload 8 10)).toNat
    if modeCount > MAX_QUALITY_MODES then
      .error (invalid "quality capability list exceeds 256 modes")
    else if payload.length ≠ 10 + modeCount * QUALITY_MODE_BYTES then
      .error (invalid "quality capabilities length does not match the mode count")
    else if payload.length > MAX_CONTROL_PAYLOAD then
      .error (invalid "quality capabilities payload exceeds the control limit")
    else
      .ok {
        extensionVersion := byteAt payload 0
        permission := byteAt payload 1
        catalogRevision := u16 (slice payload 2 4)
        streamEpoch := u32 (slice payload 4 8)
        modes := (chunks QUALITY_MODE_BYTES (payload.drop 10)).map QualityMode.decode }

/-- The bytes `Capabilities.encode` collects. -/
def Capabilities.bytes (c : Capabilities) : List UInt8 :=
  [c.extensionVersion, c.permission] ++ (le16 c.catalogRevision ++ (le32 c.streamEpoch ++
    (le16 (UInt16.ofNat c.modes.length) ++ c.modes.flatMap QualityMode.encode)))

/-- Refuses a list that is too long for a control payload. -/
def Capabilities.encode (c : Capabilities) : Result (List UInt8) :=
  if c.modes.length > MAX_QUALITY_MODES then
    .error (invalid "quality capability list exceeds 256 modes")
  else if c.bytes.length > MAX_CONTROL_PAYLOAD then
    .error (invalid "quality capabilities payload exceeds the control limit")
  else .ok c.bytes

/-- The length of the payload. -/
def PrepareQuality.BYTES : ℕ := 14

/-- The request from its bytes; the reserved ones are not read. -/
def PrepareQuality.decode (payload : List UInt8) : Result PrepareQuality :=
  if payload.length ≠ PrepareQuality.BYTES then
    .error (invalid "prepare quality payload must be 14 bytes")
  else
    .ok {
      requestId := u32 (slice payload 0 4)
      catalogRevision := u16 (slice payload 4 6)
      width := u16 (slice payload 6 8)
      height := u16 (slice payload 8 10)
      targetFps := u16 (slice payload 10 12) }

/-- The bytes of the request, the reserved ones zero. -/
def PrepareQuality.encode (p : PrepareQuality) : List UInt8 :=
  le32 p.requestId ++ (le16 p.catalogRevision ++ (le16 p.width ++ (le16 p.height ++
    (le16 p.targetFps ++ le16 0))))

/-- The length of the payload. -/
def QualityResult.BYTES : ℕ := 14

/-- The verdict from its bytes; the reserved ones are not read. -/
def QualityResult.decode (payload : List UInt8) : Result QualityResult :=
  if payload.length ≠ QualityResult.BYTES then
    .error (invalid "quality result payload must be 14 bytes")
  else
    .ok {
      requestId := u32 (slice payload 0 4)
      status := byteAt payload 4
      reason := byteAt payload 5
      appliedWidth := u16 (slice payload 6 8)
      appliedHeight := u16 (slice payload 8 10)
      appliedFps := u16 (slice payload 10 12) }

/-- The bytes of the verdict, the reserved ones zero. -/
def QualityResult.encode (r : QualityResult) : List UInt8 :=
  le32 r.requestId ++ ([r.status, r.reason] ++ (le16 r.appliedWidth ++ (le16 r.appliedHeight ++
    (le16 r.appliedFps ++ le16 0))))

/-- The length of the payload. -/
def Epoch.BYTES : ℕ := 8

/-- The request and the epoch from their bytes. -/
def Epoch.decode (payload : List UInt8) : Result Epoch :=
  if payload.length ≠ Epoch.BYTES then .error (invalid "epoch payload must be 8 bytes")
  else .ok { requestId := u32 (slice payload 0 4), streamEpoch := u32 (slice payload 4 8) }

/-- The bytes of the request and the epoch. -/
def Epoch.encode (e : Epoch) : List UInt8 := le32 e.requestId ++ le32 e.streamEpoch

/-! ## Authorization payloads -/

/-- The version of the authorization messages. -/
def CLIENT_AUTH_VERSION : UInt8 := 2
/-- The length of an uncompressed point. -/
def CLIENT_PUBLIC_KEY_BYTES : ℕ := 65
/-- The length of a certificate's fingerprint. -/
def PHONE_BINDING_BYTES : ℕ := 32
/-- The transport byte of the cable. -/
def AUTH_USB : UInt8 := 0
/-- The transport byte of Wi-Fi. -/
def AUTH_LAN : UInt8 := 1
/-- The length of a proof with an empty label. -/
def CLIENT_AUTH_MIN_BYTES : ℕ := 1 + CLIENT_PUBLIC_KEY_BYTES + 1 + SIGNATURE_BYTES
/-- The length of a proof with the longest label. -/
def CLIENT_AUTH_MAX_BYTES : ℕ := CLIENT_AUTH_MIN_BYTES + MAX_CLIENT_LABEL

/-- Whether the byte names a transport. -/
def validTransport (transport : UInt8) : Bool := transport == AUTH_USB || transport == AUTH_LAN

/-- Zeros over the cable, a fingerprint over Wi-Fi. -/
def validPhoneBinding (transport : UInt8) (binding : List UInt8) : Bool :=
  binding.length == PHONE_BINDING_BYTES &&
    if transport == AUTH_USB then binding.all (· == 0) else binding.any (· != 0)

/-- `char::is_whitespace`: the Unicode property `White_Space`. -/
def isWhitespace (c : Char) : Bool :=
  decide ((0x09 ≤ c.toNat ∧ c.toNat ≤ 0x0d) ∨ c.toNat = 0x20 ∨ c.toNat = 0x85 ∨ c.toNat = 0xa0 ∨
    c.toNat = 0x1680 ∨ (0x2000 ≤ c.toNat ∧ c.toNat ≤ 0x200a) ∨ c.toNat = 0x2028 ∨
    c.toNat = 0x2029 ∨ c.toNat = 0x202f ∨ c.toNat = 0x205f ∨ c.toNat = 0x3000)

/-- `unsafeScalar`: the general category is control, format, or a line or paragraph separator.
A text is empty after `trim` when it is all white space. -/
def validLabel (unsafeScalar : Char → Bool) (label : List Char) : Bool :=
  !label.all isWhitespace && decide ((utf8 label).length ≤ MAX_CLIENT_LABEL) &&
    !label.any unsafeScalar

/-- `b"AMB1 PC authorization\0v2\0"`. -/
def authDomain : List UInt8 :=
  [0x41, 0x4d, 0x42, 0x31, 0x20, 0x50, 0x43, 0x20, 0x61, 0x75, 0x74, 0x68, 0x6f, 0x72, 0x69, 0x7a,
    0x61, 0x74, 0x69, 0x6f, 0x6e, 0x00, 0x76, 0x32, 0x00]

/-- The transcript a PC signs: the transport, the phone's binding, the nonce, the point and the
label behind a domain separator. -/
def clientAuthMessage (unsafeScalar : Char → Bool) (transport : UInt8)
    (phoneBinding nonce publicKey : List UInt8) (label : List Char) : Result (List UInt8) :=
  if !validTransport transport || !validPhoneBinding transport phoneBinding ||
      nonce.length != NONCE_BYTES || publicKey.length != CLIENT_PUBLIC_KEY_BYTES ||
      byteAt publicKey 0 != 4 || !validLabel unsafeScalar label then
    .error (invalid "invalid authorization transcript fields")
  else
    .ok (authDomain ++ ([transport] ++ (phoneBinding ++ (nonce ++ (publicKey ++
      ([UInt8.ofNat (utf8 label).length] ++ utf8 label))))))

/-- The payload of `CLIENT_CHALLENGE`. -/
structure ClientChallenge where
  version : UInt8
  transport : UInt8
  phoneBinding : List UInt8
  nonce : List UInt8
deriving DecidableEq, Repr

/-- The challenge from its bytes, each field checked. -/
def ClientChallenge.decode (payload : List UInt8) : Result ClientChallenge :=
  if payload.length ≠ 2 + PHONE_BINDING_BYTES + NONCE_BYTES then
    .error (invalid "client challenge payload must be 66 bytes")
  else if byteAt payload 0 != CLIENT_AUTH_VERSION || !validTransport (byteAt payload 1) then
    .error (invalid "unsupported client challenge version or transport")
  else if !validPhoneBinding (byteAt payload 1) (slice payload 2 (2 + PHONE_BINDING_BYTES)) then
    .error (invalid "invalid phone certificate binding")
  else
    .ok {
      version := byteAt payload 0
      transport := byteAt payload 1
      phoneBinding := slice payload 2 (2 + PHONE_BINDING_BYTES)
      nonce := payload.drop (2 + PHONE_BINDING_BYTES) }

/-- The bytes of the challenge; a field that the decoder would refuse fails an assertion. -/
def ClientChallenge.encode (c : ClientChallenge) : Result (List UInt8) :=
  if c.version ≠ CLIENT_AUTH_VERSION then .error ⟨.panic, "assertion `left == right` failed"⟩
  else if !validTransport c.transport then
    .error ⟨.panic, "assertion failed: valid_transport(self.transport)"⟩
  else if !validPhoneBinding c.transport c.phoneBinding then
    .error ⟨.panic, "assertion failed: valid_phone_binding(self.transport, &self.phone_binding)"⟩
  else if c.nonce.length ≠ NONCE_BYTES then .error ⟨.panic, "assertion `left == right` failed"⟩
  else .ok ([c.version, c.transport] ++ (c.phoneBinding ++ c.nonce))

/-- The payload of `CLIENT_AUTH`. -/
structure ClientAuth where
  version : UInt8
  publicKey : List UInt8
  label : List Char
  signature : List UInt8
deriving DecidableEq, Repr

/-- The proof from its bytes; the counted label is checked against the length first. -/
def ClientAuth.decode (unsafeScalar : Char → Bool) (payload : List UInt8) : Result ClientAuth :=
  let offset := 1 + CLIENT_PUBLIC_KEY_BYTES
  let labelLength := (byteAt payload offset).toNat
  if ¬ (CLIENT_AUTH_MIN_BYTES ≤ payload.length ∧ payload.length ≤ CLIENT_AUTH_MAX_BYTES) then
    .error (invalid "invalid client auth length")
  else if byteAt payload 0 ≠ CLIENT_AUTH_VERSION then
    .error (invalid "unsupported client auth version")
  else if labelLength > MAX_CLIENT_LABEL then
    .error (invalid "client label exceeds the limit")
  else if payload.length ≠ CLIENT_AUTH_MIN_BYTES + labelLength then
    .error (invalid "client auth length does not match its label")
  else
    match fromUtf8 (slice payload (offset + 1) (offset + 1 + labelLength)) with
    | none => .error (invalid "client label is not valid UTF-8")
    | some label =>
      if !validLabel unsafeScalar label || byteAt payload 1 != 4 then
        .error (invalid "invalid client point or label")
      else
        .ok {
          version := byteAt payload 0
          publicKey := slice payload 1 offset
          label
          signature := payload.drop (payload.length - SIGNATURE_BYTES) }

/-- The bytes of the proof; a field that the decoder would refuse fails an assertion. -/
def ClientAuth.encode (unsafeScalar : Char → Bool) (a : ClientAuth) : Result (List UInt8) :=
  if a.version ≠ CLIENT_AUTH_VERSION then .error ⟨.panic, "assertion `left == right` failed"⟩
  else if a.publicKey.length ≠ CLIENT_PUBLIC_KEY_BYTES then
    .error ⟨.panic, "assertion `left == right` failed"⟩
  else if byteAt a.publicKey 0 ≠ 4 then .error ⟨.panic, "assertion `left == right` failed"⟩
  else if a.signature.length ≠ SIGNATURE_BYTES then
    .error ⟨.panic, "assertion `left == right` failed"⟩
  else if !validLabel unsafeScalar a.label then
    .error ⟨.panic, "assertion failed: valid_label(&self.label)"⟩
  else
    .ok ([a.version] ++ (a.publicKey ++ ([UInt8.ofNat (utf8 a.label).length] ++
      (utf8 a.label ++ a.signature))))

/-- The payload of `CLIENT_AUTH_RESULT`. -/
structure ClientAuthResult where
  status : UInt8
  reason : UInt8
  expiresAtUnixSeconds : UInt32
deriving DecidableEq, Repr

/-- The length of the payload. -/
def ClientAuthResult.BYTES : ℕ := 6

/-- The test of `validate`. -/
def ClientAuthResult.valid (r : ClientAuthResult) : Bool :=
  if r.status = AUTH_AUTHORIZED then
    r.reason == AUTH_REASON_NONE && decide (0 < r.expiresAtUnixSeconds)
  else if r.status = AUTH_PENDING then
    r.reason == AUTH_REASON_NONE && r.expiresAtUnixSeconds == 0
  else if r.status = AUTH_REJECTED then
    decide (AUTH_REASON_UNKNOWN ≤ r.reason ∧ r.reason ≤ AUTH_REASON_BAD_SIGNATURE) &&
      (r.reason == AUTH_REASON_EXPIRED || r.expiresAtUnixSeconds == 0)
  else false

/-- The outcome from its bytes, refused where status, reason and expiry do not fit together. -/
def ClientAuthResult.decode (payload : List UInt8) : Result ClientAuthResult :=
  if payload.length ≠ ClientAuthResult.BYTES then
    .error (invalid "client auth result payload must be 6 bytes")
  else
    let result : ClientAuthResult :=
      { status := byteAt payload 0, reason := byteAt payload 1
        expiresAtUnixSeconds := u32 (slice payload 2 6) }
    if result.valid then .ok result else .error (invalid "invalid client authorization outcome")

/-- The bytes of an outcome that is valid; any other fails an assertion. -/
def ClientAuthResult.encode (r : ClientAuthResult) : Result (List UInt8) :=
  if r.valid then .ok ([r.status, r.reason] ++ le32 r.expiresAtUnixSeconds)
  else .error ⟨.panic, "valid authorization outcome"⟩

/-! ## Pairing details -/

/-- The payload of `PAIRING_INFO`, with the two secrets as hexadecimal text. -/
structure PairingInfo where
  addresses : List (UInt8 × UInt8 × UInt8 × UInt8)
  fingerprint : List Char
  key : List Char
deriving DecidableEq, Repr

namespace PairingInfo

/-- The version of the payload. -/
def VERSION : UInt8 := 1
/-- The most addresses of a phone. -/
def MAX_ADDRESSES : ℕ := 4
/-- The length of the access key. -/
def KEY_BYTES : ℕ := 16
/-- The length of the certificate's fingerprint. -/
def FINGERPRINT_BYTES : ℕ := 32

/-- Whether a payload of the length has one to four addresses and nothing over. -/
def fits (length : ℕ) : Bool :=
  if length < 2 + 4 + FINGERPRINT_BYTES + KEY_BYTES then false
  else
    let count := (length - (2 + FINGERPRINT_BYTES + KEY_BYTES)) / 4
    decide (1 ≤ count ∧ count ≤ MAX_ADDRESSES) &&
      length == 2 + count * 4 + FINGERPRINT_BYTES + KEY_BYTES

/-- `format!("{byte:02x}")` of every byte. -/
def hex (bytes : List UInt8) : List Char :=
  bytes.flatMap fun b => [Nat.digitChar (b.toNat / 16), Nat.digitChar (b.toNat % 16)]

/-- The details from their bytes, each length checked. -/
def decode (payload : List UInt8) : Result PairingInfo :=
  let count := (byteAt payload 1).toNat
  if payload.length < 2 then .error ⟨.other, "pairing info is too short"⟩
  else if byteAt payload 0 ≠ VERSION then .error ⟨.other, "unexpected pairing info version"⟩
  else if ¬ (1 ≤ count ∧ count ≤ MAX_ADDRESSES) then
    .error ⟨.other, "pairing info carries an unusable address count"⟩
  else if payload.length ≠ 2 + count * 4 + FINGERPRINT_BYTES + KEY_BYTES then
    .error ⟨.other, "pairing info has trailing or missing bytes"⟩
  else
    let fingerprintAt := 2 + count * 4
    let keyAt := fingerprintAt + FINGERPRINT_BYTES
    .ok {
      addresses := (List.range count).map fun index =>
        let a := 2 + index * 4
        (byteAt payload a, byteAt payload (a + 1), byteAt payload (a + 2), byteAt payload (a + 3))
      fingerprint := hex (slice payload fingerprintAt keyAt)
      key := hex (payload.drop keyAt) }

end PairingInfo

/-! ## `video.rs`: the payload of a `VIDEO_CONFIG` -/

/-- What the receiver uses of a `VIDEO_CONFIG`. -/
structure VideoConfig where
  width : UInt32
  height : UInt32
  fps : UInt32
deriving DecidableEq, Repr

/-- The config from its sixteen bytes, in the bounds the decoder takes. -/
def VideoConfig.parse (bytes : List UInt8) : Result VideoConfig :=
  if bytes.length ≠ 16 ∨ byteAt bytes 12 ≠ 1 ∨ byteAt bytes 13 ≠ 1 then
    .error ⟨.other, "invalid VIDEO_CONFIG"⟩
  else
    let c : VideoConfig :=
      { width := (u16 (slice bytes 0 2)).toUInt32, height := (u16 (slice bytes 2 4)).toUInt32
        fps := (u16 (slice bytes 4 6)).toUInt32 }
    if c.width = 0 ∨ c.height = 0 ∨ c.fps = 0 ∨ 8192 < c.width ∨ 8192 < c.height ∨
        33554432 < c.width.toNat * c.height.toNat then
      .error ⟨.other, "invalid VIDEO_CONFIG dimensions or rate"⟩
    else .ok c

/-! ## Header and frame -/

/-- An `AMB1` header without its constant fields. -/
structure Header where
  kind : UInt8
  flags : UInt16
  sequence : UInt32
  payloadLen : UInt32
  ptsUs : UInt64
deriving DecidableEq, Repr

/-- The type-specific limits of `validate_payload_size`. -/
def payloadSizeOk (kind : UInt8) (length : ℕ) : Bool :=
  if kind = CLIENT_CHALLENGE then length == 2 + PHONE_BINDING_BYTES + NONCE_BYTES
  else if kind = CLIENT_AUTH then
    decide (CLIENT_AUTH_MIN_BYTES ≤ length ∧ length ≤ CLIENT_AUTH_MAX_BYTES)
  else if kind = CLIENT_AUTH_RESULT then length == ClientAuthResult.BYTES
  else if kind = PAIRING_INFO then PairingInfo.fits length
  else if kind = QUALITY_CAPABILITIES then decide (1 ≤ length ∧ length ≤ MAX_CONTROL_PAYLOAD)
  else if kind = PREPARE_QUALITY ∨ kind = QUALITY_RESULT then length == 14
  else if kind = PAUSED ∨ kind = COMMIT_QUALITY ∨ kind = PING ∨ kind = PONG then length == 8
  else if kind = HOST_HELLO then length == 0
  else if kind = VIDEO_CONFIG then length == 16
  else if kind = IDR_REQUEST ∨ kind = HELLO_ACK then length == 0
  else if kind = HELLO then length == 0 || length == 16
  else true

/-- The check of `payload_size_ok`, as an error. -/
def Header.validatePayloadSize (h : Header) : Result Unit :=
  if payloadSizeOk h.kind h.payloadLen.toNat then .ok ()
  else .error (invalid "invalid type-specific AMB1 payload length")

/-- `b"AMB1"`. -/
def magic : List UInt8 := [0x41, 0x4d, 0x42, 0x31]

/-- The header from its bytes, with the two bounds on its payload. -/
def Header.decode (bytes : List UInt8) : Result Header :=
  if bytes.length ≠ HEADER_SIZE ∨ slice bytes 0 4 ≠ magic ∨ byteAt bytes 4 ≠ 1 then
    .error ⟨.invalidData, "invalid AMB1 header"⟩
  else
    let header : Header :=
      { kind := byteAt bytes 5, flags := u16 (slice bytes 6 8), sequence := u32 (slice bytes 8 12)
        payloadLen := u32 (slice bytes 12 16), ptsUs := u64 (slice bytes 16 24) }
    if header.payloadLen.toNat > MAX_PAYLOAD then
      .error ⟨.invalidData, "AMB1 payload exceeds 16 MiB"⟩
    else
      match header.validatePayloadSize with
      | .error e => .error e
      | .ok () => .ok header

/-- The bytes of the header, with the same two bounds. -/
def Header.encode (h : Header) : Result (List UInt8) :=
  if h.payloadLen.toNat > MAX_PAYLOAD then .error ⟨.invalidInput, "AMB1 payload exceeds 16 MiB"⟩
  else
    match h.validatePayloadSize with
    | .error e => .error e
    | .ok () =>
      .ok (magic ++ ([1, h.kind] ++ (le16 h.flags ++ (le32 h.sequence ++ (le32 h.payloadLen ++
        le64 h.ptsUs)))))

/-- A header and its payload. -/
structure Frame where
  header : Header
  payload : List UInt8
deriving DecidableEq, Repr

/-- A frame without flags and time stamp, as the PC sends them. -/
def Frame.new (kind : UInt8) (sequence : UInt32) (payload : List UInt8) : Result Frame :=
  if 2 ^ 32 ≤ payload.length then .error ⟨.invalidInput, "payload overflow"⟩
  else
    let header : Header :=
      { kind, flags := 0, sequence, payloadLen := UInt32.ofNat payload.length, ptsUs := 0 }
    match header.encode with
    | .error e => .error e
    | .ok _ => .ok { header, payload }

end HostWire
end MobileWebcamBridge
