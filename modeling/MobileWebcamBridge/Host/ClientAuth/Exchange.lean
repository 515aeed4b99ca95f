import MobileWebcamBridge.Host.ClientAuth

/-!
# `client_auth.rs`: the PC's half of the authorization exchange

`exchange` is a value of type `Exchange` between its operations: a turn of the polling loop
(`poll`, `receive`), the proof (`prove`) and the call of `on_pending` (`notified`). What the
platform decides (the clock, the stop flag, the signature, whether an operation of the transport
fails) is an input of the operation that reads it.
-/

set_option autoImplicit false

namespace MobileWebcamBridge
namespace HostAuth

open HostWire

/-- What the module takes from the platform. -/
structure Pc where
  /-- The general category of a scalar is control, format, or a line or paragraph separator. -/
  unsafeScalar : Char → Bool
  /-- The text of `io_budget`'s error for a budget that is spent. -/
  spent : String

/-- How the PC reached the phone, with the certificate it saw over Wi-Fi. -/
inductive Route
  | usb
  | lan (phoneSha256 : Vector UInt8 PHONE_BINDING_BYTES)
deriving DecidableEq, Repr

namespace Route

/-- The transport byte of a route. -/
def transport : Route → UInt8
  | usb => AUTH_USB
  | lan _ => AUTH_LAN

/-- USB has no attestation of the phone; its binding is zero. -/
def phoneBinding : Route → List UInt8
  | usb => List.replicate PHONE_BINDING_BYTES 0
  | lan phoneSha256 => phoneSha256.toList

end Route

/-- How an exchange ends. -/
inductive Outcome
  | authorized (expiresAtUnixSeconds : UInt32)
  | rejected (reason : String)
deriving DecidableEq, Repr

/-- The text shown for a reason the phone gives. -/
def reasonText (reason : UInt8) : String :=
  if reason = AUTH_REASON_UNKNOWN then "this PC is not known to the phone"
  else if reason = AUTH_REASON_REVOKED then "this PC's access was revoked on the phone"
  else if reason = AUTH_REASON_EXPIRED then "this PC's authorization expired on the phone"
  else if reason = AUTH_REASON_TOO_MANY then "the phone already authorizes too many PCs"
  else if reason = AUTH_REASON_BAD_SIGNATURE then "the phone rejected this PC's signature"
  else "the phone rejected this PC"

/-- What `exchange` reads of a received frame. -/
structure Received where
  kind : UInt8
  payload : List UInt8
deriving DecidableEq, Repr

/-- Where `exchange` stands: before the challenge, before the proof, in the loop (with its flag
`pending`), or in `on_pending`. -/
inductive Phase
  | challenge
  | proof (challenge : ClientChallenge)
  | outcome (pending : Bool)
  | notifying
deriving DecidableEq, Repr

/-- One `exchange`: what it was called with, its deadline and where it stands. -/
structure Exchange where
  route : Route
  /-- `identity.public_key()`. -/
  publicKey : List UInt8
  deadline : ℕ
  phase : Phase
deriving DecidableEq, Repr

/-- What an operation of `exchange` comes to: it goes on, or it returns; an error is its text. -/
inductive Next
  | goesOn (exchange : Exchange)
  | returns (result : Except String Outcome)
deriving Repr

/-- A second of the clock, which counts nanoseconds. -/
def SECOND : ℕ := 1000000000

/-- The first check of a challenge, its decoder, and the two bindings. -/
def Route.accept (route : Route) (frame : Received) : Except String ClientChallenge :=
  if frame.kind ≠ CLIENT_CHALLENGE then
    .error "phone does not support required per-PC authorization v2"
  else
    match ClientChallenge.decode frame.payload with
    | .error e => .error e.message
    | .ok challenge =>
      if challenge.transport ≠ route.transport then
        .error "authorization transport binding mismatch"
      else if challenge.phoneBinding ≠ route.phoneBinding then
        .error "authorization phone certificate binding mismatch"
      else .ok challenge

/-- One turn of the loop on a frame: an outcome ends the exchange, `none` is the one
`AUTH_PENDING`. -/
def answer (pending : Bool) (frame : Received) : Except String (Option Outcome) :=
  if frame.kind ≠ CLIENT_AUTH_RESULT then
    .error "expected authorization outcome before capabilities/media"
  else
    match ClientAuthResult.decode frame.payload with
    | .error e => .error e.message
    | .ok result =>
      if result.status = AUTH_AUTHORIZED then .ok (some (.authorized result.expiresAtUnixSeconds))
      else if result.status = AUTH_REJECTED then .ok (some (.rejected (reasonText result.reason)))
      else if result.status = AUTH_PENDING ∧ pending = false then .ok none
      else .error "repeated pending authorization outcome"

namespace Exchange

/-- `exchange` is called at `now`. -/
def start (route : Route) (publicKey : List UInt8) (now timeout : ℕ) : Exchange where
  route := route
  publicKey := publicKey
  deadline := now + timeout
  phase := .challenge

/-- Whether the exchange is in `receive_until`. -/
def receives (x : Exchange) : Bool :=
  match x.phase with
  | .challenge | .outcome _ => true
  | .proof _ | .notifying => false

/-- The tests before a poll: the stop flag, and the deadline at `now`. -/
def refuses (x : Exchange) (pc : Pc) (stop : Bool) (now : ℕ) : Option String :=
  if stop then some "authorization stopped" else if x.deadline ≤ now then some pc.spent else none

/-- A frame has been received; `now` is the clock a pending outcome sets the deadline from. -/
def receive (x : Exchange) (frame : Received) (now : ℕ) : Next :=
  match x.phase with
  | .challenge =>
    match x.route.accept frame with
    | .error e => .returns (.error e)
    | .ok challenge => .goesOn { x with phase := .proof challenge }
  | .outcome pending =>
    match answer pending frame with
    | .error e => .returns (.error e)
    | .ok (some outcome) => .returns (.ok outcome)
    | .ok none => .goesOn { x with phase := .notifying, deadline := now + 60 * SECOND }
  | .proof _ | .notifying => .goesOn x

/-- The transcript of the proof. -/
def message (x : Exchange) (pc : Pc) (challenge : ClientChallenge) (label : List Char) :
    HostWire.Result (List UInt8) :=
  clientAuthMessage pc.unsafeScalar x.route.transport x.route.phoneBinding challenge.nonce
    x.publicKey label

/-- The payload of the proof; its frame always fits. -/
def proof (x : Exchange) (pc : Pc) (label : List Char) (signature : Vector UInt8 SIGNATURE_BYTES) :
    HostWire.Result (List UInt8) :=
  match ClientAuth.encode pc.unsafeScalar
      { version := CLIENT_AUTH_VERSION, publicKey := x.publicKey, label
        signature := signature.toList } with
  | .error e => .error e
  | .ok payload =>
    match Frame.new CLIENT_AUTH 0 payload with
    | .error e => .error e
    | .ok frame => .ok frame.payload

/-- The proof: the transcript if it is signed, the payload if it is handed to `transport.send`, and
how it ends. `now` is read just before the send. -/
def prove (x : Exchange) (pc : Pc) (challenge : ClientChallenge)
    (environment : List (Option (List Char)))
    (signature : Except String (Vector UInt8 SIGNATURE_BYTES)) (now : ℕ)
    (sending : Except String Unit) : Option (List UInt8) × Option (List UInt8) × Next :=
  let label := proposedLabel environment
  match x.message pc challenge label with
  | .error e => (none, none, .returns (.error e.message))
  | .ok message =>
    match signature with
    | .error e => (none, none, .returns (.error e))
    | .ok signature =>
      match x.proof pc label signature with
      | .error e => (some message, none, .returns (.error e.message))
      | .ok payload =>
        if x.deadline ≤ now then (some message, none, .returns (.error pc.spent))
        else
          match sending with
          | .error e => (some message, some payload, .returns (.error e))
          | .ok () => (some message, some payload, .goesOn { x with phase := .outcome false })

/-- After `on_pending`. -/
def notified (x : Exchange) (result : Except String Unit) : Next :=
  match result with
  | .error e => .returns (.error e)
  | .ok () => .goesOn { x with phase := .outcome true }

end Exchange

end HostAuth
end MobileWebcamBridge
