import MobileWebcamBridge.Host.ReceiveStream
import MobileWebcamBridge.Phone.FramedOutbound
import MobileWebcamBridge.Phone.PhoneQualityController
import MobileWebcamBridge.Phone.WireCodec

/-!
# A PC that receives and a phone that streams

One authorized session, from the PC's `receive_stream` to the phone's quality controller, its one
outbound writer and the threads that use it. Both lines deliver in order. What the phone's user and
camera do, the capture's threads and the transport are free: a capture begins while there is no
camera bridge, closes at any time, and starts or fails while there is one. The handlers of
`MainActivity` run one after another on the UI thread, each to the end of its calls to the writer.
A session that ends, by an error or a lost authorization, is the end of the exchange.
-/

set_option autoImplicit false

namespace MobileWebcamBridge
namespace QualityAgreement

open Wire
open HostVideo (Stream)
open PhoneQualityController (Environment Effect Entry)

/-- Both sides, and the frames between them. -/
structure State where
  host : Stream
  /-- Frames on their way to the phone's UI thread. -/
  sent : List HostWire.Frame
  phone : PhoneQualityController
  /-- `cameraBridge` is not null. -/
  bridge : Bool
  threads : FramedOutbound.Threads
  /-- Frames on their way to the PC. -/
  wire : List FramedOutbound.Frame

/-- What the PC's loop, the lines, the controller and the writer do. -/
inductive Event
  | host (note : HostVideo.Note)
  | read (frame : FramedOutbound.Frame)
  | phone (entry : Entry)
  | out (event : FramedOutbound.Event)

/-- A step of either side. -/
inductive Label
  /-- The PC's loop, but for what it reads from the phone. -/
  | host (input : HostVideo.Input)
  | receive (now : ℕ)
  /-- The UI thread takes the next frame from the PC. -/
  | command (env : Environment)
  | call (env : Environment) (call : PhoneQualityController.Call)
  /-- The end of `startCamera`: a camera bridge is installed and begins its capture. -/
  | begin
  /-- `stopCamera`, but for the cancel that may follow it. -/
  | stop
  /-- Another thread tears the capture down (`onCaptureCancelled`). -/
  | teardown
  /-- `refreshQualityCapabilities`. -/
  | refresh (permission : Permission) (revision : ℕ) (modes : List QualityMode)
  /-- The thread that grants the authorization announces the list. -/
  | grant (permission : Permission) (revision : ℕ) (modes : List QualityMode)
  | outbound (label : FramedOutbound.Label)

/-! ## The two lines -/

/-- The flag bits of a header. -/
def flagBits (flags : VideoFlags) : UInt16 :=
  (if flags.keyframe then HostWire.KEYFRAME else 0) |||
    (if flags.configIncluded then HostWire.CONFIG_INCLUDED else 0) |||
    (if flags.discontinuity then HostWire.DISCONTINUITY else 0)

/-- A frame of the phone, as the PC reads it. -/
def onLine (frame : FramedOutbound.Frame) : HostWire.Frame where
  header :=
    { kind := (WireCodec.typeByte frame.header.type).toUInt8
      flags := flagBits frame.header.flags
      sequence := UInt32.ofNat frame.header.sequence
      payloadLen := UInt32.ofNat (WireCodec.payloadBytes frame.payload).length
      ptsUs := UInt64.ofInt frame.header.ptsUs }
  payload := WireCodec.payloadBytes frame.payload

/-- What the phone's dispatcher hands to the UI thread, if the frame is a quality command. -/
def command (frame : HostWire.Frame) : Option HostCommand :=
  if frame.header.kind = HostWire.PREPARE_QUALITY then
    (WireCodec.decodePrepareQuality frame.payload).map .prepare
  else if frame.header.kind = HostWire.COMMIT_QUALITY then
    (WireCodec.decodeEpoch frame.payload).map .commit
  else none

/-- The frame the PC sends. -/
def sentFrame : HostVideo.Note → Option HostWire.Frame
  | .sent frame => some frame
  | _ => none

/-- The frame the phone writes. -/
def written : FramedOutbound.Event → Option FramedOutbound.Frame
  | .wrote frame => some frame
  | _ => none

/-! ## Steps -/

/-- The calls to the writer that carry an effect of the controller out. -/
def calls (bridge : Bool) : Effect → List FramedOutbound.Call
  | .stopCapture _ => if bridge then [.stopVideo] else []
  | .pauseQuality epoch => [.pauseQuality epoch]
  | .sendQualityResult result => [.sendQualityResult result]
  -- the capture begins once the camera is resolved
  | .startCapture _ | .noPreparedMode => []

/-- The effect closes the camera. -/
def stops : Effect → Bool
  | .stopCapture _ => true
  | _ => false

namespace State

/-- The list that is announced now. -/
def capabilities (s : State) (permission : Permission) (revision : ℕ) (modes : List QualityMode) :
    Capabilities where
  extensionVersion := 1
  permission
  catalogRevision := revision
  streamEpoch := s.phone.machine.epoch
  modes

/-- A step of the writer's threads. -/
def threadStep (s : State) (label : FramedOutbound.Label) : Option (State × List Event) :=
  match FramedOutbound.step s.threads label with
  | none => none
  | some (threads, es) =>
    some ({ s with threads, wire := s.wire ++ es.filterMap written }, es.map .out)

/-- A step of the PC's loop, whose frames go to the phone. -/
def hostStep (s : State) (input : HostVideo.Input) : Option (State × List Event) :=
  match s.host.step input with
  | none => none
  | some (host, notes) =>
    some ({ s with host, sent := s.sent ++ notes.filterMap sentFrame }, notes.map .host)

/-- A call of the controller on the UI thread, and what it does to the writer and the camera. -/
def turn (s : State) (env : Environment) (call : PhoneQualityController.Call) :
    Option (State × List Event) :=
  let env := { env with streaming := s.bridge }
  let (phone, effects) := s.phone.call env call
  match ({ s with phone, bridge := s.bridge && !effects.any stops } : State).threadStep
      (.ui (effects.flatMap (calls s.bridge))) with
  | none => none
  | some (s', es) =>
    some (s', .phone { before := s.phone, env, call, after := phone, effects } :: es)

end State

/-- The calls of the controller that `MainActivity` makes of its own. -/
def permits (bridge : Bool) : PhoneQualityController.Call → Bool
  | .handle _ => false
  | .captureStarted .. | .captureFailed => bridge
  | .captureRequested | .tick _ | .cancel => true

/-- The calls other threads of the phone make of their own. -/
def spawns : FramedOutbound.Label → Bool
  | .start | .ui _ => false
  | .spawn (.sendCapabilities _) | .spawn .close => false
  | _ => true

/-- One step of the two sides. -/
def step (s : State) : Label → Option (State × List Event)
  | .host (.frame ..) => none
  | .host input => s.hostStep input
  | .receive now =>
    match s.wire with
    | [] => none
    | frame :: rest =>
      match ({ s with wire := rest } : State).hostStep (.frame now (onLine frame)) with
      | none => none
      | some (s', es) => some (s', .read frame :: es)
  | .command env =>
    match s.sent with
    | [] => none
    | frame :: rest =>
      match command frame with
      | none => some ({ s with sent := rest }, [])
      | some command => ({ s with sent := rest } : State).turn env (.handle command)
  | .call env call => if permits s.bridge call then s.turn env call else none
  | .begin =>
    if s.bridge then none
    else ({ s with bridge := true } : State).threadStep (.ui [.beginCapture])
  | .stop =>
    if s.bridge then ({ s with bridge := false } : State).threadStep (.ui [.stopVideo]) else none
  | .teardown => ({ s with bridge := false } : State).threadStep (.spawn .stopVideo)
  | .refresh permission revision modes =>
    s.threadStep (.ui [.sendCapabilities (s.capabilities permission revision modes)])
  | .grant permission revision modes =>
    s.threadStep (.spawn (.sendCapabilities (s.capabilities permission revision modes)))
  | .outbound label => if spawns label then s.threadStep label else none

/-- The session, once its writer runs. -/
def system : EventSystem State Label Event where
  start s := ∃ capacity o startingEpoch, FramedOutbound.new capacity = some o ∧
    startingEpoch ≤ 0xffffffff ∧
    s =
      { host := .init
        sent := []
        phone := .new startingEpoch
        bridge := false
        threads :=
          { out := { o with running := true }, ui := [], others := [], writer := .acquire }
        wire := [] }
  step := step

end QualityAgreement
end MobileWebcamBridge
