import Mathlib.Data.Int.Notation
import Mathlib.Data.Nat.Notation
import Mathlib.Tactic.Common

/-!
# The AMB1 messages

The frames both sides exchange, as the values `Wire.kt` and `wire.rs` build and decode: the
message types, the header fields a reader looks at, and one payload constructor for each
payload shape. Fields of the payloads are the unsigned values both languages read; the byte
layout is not part of this module.
-/

namespace MobileWebcamBridge
namespace Wire

/-- `TYPE_*`. -/
inductive FrameType
  | hello | helloAck | ping | pong
  | qualityCapabilities | prepareQuality | qualityResult | paused | commitQuality
  | clientChallenge | clientAuth | clientAuthResult | pairingInfo | hostHello
  | videoConfig | videoAu | videoIdrRequest
  | stats | error
deriving DecidableEq, Repr

/-- The three `VIDEO_FLAG_*` bits of a header. -/
structure VideoFlags where
  keyframe : Bool := false
  configIncluded : Bool := false
  discontinuity : Bool := false
deriving DecidableEq, Repr

/-- The header fields; the payload length is the payload's own. -/
structure Header where
  type : FrameType
  flags : VideoFlags := {}
  sequence : ℕ
  ptsUs : ℤ := 0
deriving DecidableEq, Repr

/-- Camera permission / feature state advertised with the capability list. -/
inductive Permission
  | ready | pending | unavailable
deriving DecidableEq, Repr

/-- A mode the phone can capture. -/
structure QualityMode where
  width : ℕ
  height : ℕ
  targetFps : ℕ
  bitrate : ℕ
deriving DecidableEq, Repr

/-- The payload of `QUALITY_CAPABILITIES`. -/
structure Capabilities where
  extensionVersion : ℕ
  permission : Permission
  catalogRevision : ℕ
  streamEpoch : ℕ
  modes : List QualityMode
deriving DecidableEq, Repr

/-- The payload of `PREPARE_QUALITY`. -/
structure PrepareQuality where
  requestId : ℕ
  catalogRevision : ℕ
  width : ℕ
  height : ℕ
  targetFps : ℕ
deriving DecidableEq, Repr

/-- `RESULT_*`, the states of a `QUALITY_RESULT`. -/
inductive ResultStatus
  | switching | rejected | applied | staged
deriving DecidableEq, Repr

/-- The payload of `QUALITY_RESULT`. -/
structure QualityResult where
  requestId : ℕ
  status : ResultStatus
  reason : ℕ
  appliedWidth : ℕ
  appliedHeight : ℕ
  appliedFps : ℕ
deriving DecidableEq, Repr

/-- `PAUSED` and `COMMIT_QUALITY` share this shape. -/
structure Epoch where
  requestId : ℕ
  streamEpoch : ℕ
deriving DecidableEq, Repr

/-- A command of the PC. -/
inductive HostCommand
  | prepare (request : PrepareQuality)
  | commit (epoch : Epoch)
deriving DecidableEq, Repr

/-- The payload of `VIDEO_CONFIG`. -/
structure VideoConfig where
  width : ℕ
  height : ℕ
  fps : ℕ
  bitrate : ℕ
deriving DecidableEq, Repr

/-- `AUTH_USB` and `AUTH_LAN`. -/
inductive AuthTransport
  | usb | lan
deriving DecidableEq, Repr

/-- The payload of `CLIENT_CHALLENGE`. -/
structure ClientChallenge where
  transport : AuthTransport
  phoneBinding : List UInt8
  nonce : List UInt8
deriving DecidableEq, Repr

/-- `AUTH_AUTHORIZED`, `AUTH_PENDING`, `AUTH_REJECTED`. -/
inductive AuthStatus
  | authorized | pending | rejected
deriving DecidableEq, Repr

/-- `AUTH_REASON_*`. -/
inductive AuthReason
  | none | unknown | revoked | expired | tooMany | badSignature
deriving DecidableEq, Repr

/-- The payload of `CLIENT_AUTH_RESULT`. -/
structure ClientAuthResult where
  status : AuthStatus
  reason : AuthReason
  expiresAtUnixSeconds : ℤ
deriving DecidableEq, Repr

/-- The payload of `CLIENT_AUTH`. -/
structure ClientAuth where
  publicKey : List UInt8
  label : List Char
  signature : List UInt8
deriving DecidableEq, Repr

/-- One constructor for each payload shape a phone frame carries. -/
inductive Payload
  | raw (bytes : List UInt8)
  | capabilities (value : Capabilities)
  | qualityResult (value : QualityResult)
  | epoch (value : Epoch)
  | videoConfig (value : VideoConfig)
  | clientChallenge (value : ClientChallenge)
  | clientAuthResult (value : ClientAuthResult)
deriving DecidableEq, Repr

/-! ### Authorization payloads -/

/-- The length of a client ID. -/
def CLIENT_ID_BYTES : ℕ := 16
/-- The length of a signature. -/
def SIGNATURE_BYTES : ℕ := 64
/-- The length of a challenge's nonce. -/
def NONCE_BYTES : ℕ := 32
/-- The longest label of a PC, in bytes. -/
def MAX_CLIENT_LABEL : ℕ := 32
/-- The length of an uncompressed point. -/
def CLIENT_PUBLIC_KEY_BYTES : ℕ := 65
/-- The length of a certificate's fingerprint. -/
def PHONE_BINDING_BYTES : ℕ := 32

/-- `requirePhoneBinding`. -/
def phoneBindingValid (transport : AuthTransport) (binding : List UInt8) : Bool :=
  binding.length == PHONE_BINDING_BYTES &&
    match transport with
    | .usb => binding.all (· == 0)
    | .lan => binding.any (· != 0)

/-- `encodeClientChallenge`, its payload left structured; `none` is a failed `require`. -/
def encodeClientChallenge (challenge : ClientChallenge) : Option Payload :=
  if phoneBindingValid challenge.transport challenge.phoneBinding &&
      challenge.nonce.length == NONCE_BYTES then
    some (.clientChallenge challenge)
  else none

/-- `validateAuthResult`. -/
def authResultValid (result : ClientAuthResult) : Bool :=
  decide (0 ≤ result.expiresAtUnixSeconds ∧ result.expiresAtUnixSeconds ≤ 0xffffffff) &&
    match result.status with
    | .authorized => decide (result.reason = .none ∧ 0 < result.expiresAtUnixSeconds)
    | .pending => decide (result.reason = .none ∧ result.expiresAtUnixSeconds = 0)
    | .rejected =>
      decide (result.reason ≠ .none ∧ (result.reason = .expired ∨ result.expiresAtUnixSeconds = 0))

/-- `encodeClientAuthResult`; `none` is a failed `require`. -/
def encodeClientAuthResult (result : ClientAuthResult) : Option Payload :=
  if authResultValid result then some (.clientAuthResult result) else none

/-- The UTF-8 bytes of a label. -/
def labelBytes (label : List Char) : List UInt8 := label.flatMap String.utf8EncodeChar

end Wire

/-! ## `VideoWire` -/

namespace VideoWire

/-- `H264Encoder.CodecConfig`. -/
structure CodecConfig where
  csd0 : Option (List UInt8)
  csd1 : Option (List UInt8)
deriving DecidableEq, Repr

/-- `H264Encoder.AccessUnit`. -/
structure AccessUnit where
  data : List UInt8
  presentationTimeUs : ℤ
  keyFrame : Bool
  codecConfig : Bool
deriving DecidableEq, Repr

/-- The two parameter sets, one behind the other. -/
def joinCodecConfig (config : CodecConfig) : List UInt8 :=
  config.csd0.getD [] ++ config.csd1.getD []

/-- The payload of a `VIDEO_CONFIG`; `none` is a failed `require`. -/
def encodeConfig (width height fps bitrate : ℕ) : Option Wire.VideoConfig :=
  if 1 ≤ width ∧ width ≤ 0xffff ∧ 1 ≤ height ∧ height ≤ 0xffff ∧ 1 ≤ fps ∧ fps ≤ 0xffff ∧
      0 < bitrate then
    some { width, height, fps, bitrate }
  else none

end VideoWire
end MobileWebcamBridge
