import MobileWebcamBridge.Host.Control
import MobileWebcamBridge.Host.Quality
import MobileWebcamBridge.Lib.EventSystem

/-!
# `video.rs`: the loop of `receive_stream`

One pass of the loop is a few steps: the stop flag, the quality request, the deadline, one frame
from the phone and, after an access unit, one step for each picture the decoder yields. The
transport, the decoder and the sink are the environment's: any of them may fail wherever it is
used (`abort`), and a decoder yields pictures of the units it was given, at any time after them; the
flush on `DISCONTINUITY` only takes pictures away.
The preview, the pixels and the transform of a picture are left out, as none of the loop's variables
depends on them.
-/

set_option autoImplicit false

namespace MobileWebcamBridge
namespace HostVideo

open HostWire
open HostControl (Event Stats showAddress)
open HostQuality (Mode Tuple Switch Action)

/-- An access unit as the receiver reads it. -/
structure AccessUnit where
  flags : UInt16
  ptsUs : UInt64
  payload : List UInt8
deriving DecidableEq, Repr

/-- The unit starts with an IDR picture. -/
def AccessUnit.keyframe (au : AccessUnit) : Bool := au.flags &&& KEYFRAME != 0

/-- The unit carries its parameter sets. -/
def AccessUnit.configIncluded (au : AccessUnit) : Bool := au.flags &&& CONFIG_INCLUDED != 0

/-- A decoded frame, with the units it was decoded from. -/
structure Picture where
  width : UInt32
  height : UInt32
  source : List AccessUnit
deriving DecidableEq, Repr

/-- Where the loop stands. -/
inductive Point
  | opening
  | loop
  | request
  | deadline
  | receive
  | decode (c : VideoConfig)
  | returned (result : Except String Unit)

/-- The variables of the loop. `decoder` is the units given to the open decoder, and `output` the
config the sink was opened for. -/
structure Stream where
  point : Point
  switch : Switch
  modes : List Mode
  catalogRevision : UInt16
  advertised : Bool
  permission : UInt8
  config : Option VideoConfig
  output : Option VideoConfig
  decoder : Option (List AccessUnit)
  lastPts : UInt64
  started : Bool
  decoded : ℕ
  submitted : ℕ

/-- What the loop shows. -/
inductive Note
  | taken (request : Tuple)
  | acted (action : Action)
  | event (event : Event)
  | sent (frame : Frame)
  /-- Everything of the old capture is dropped. -/
  | released
  | configured (c : VideoConfig)
  | given (au : AccessUnit)
  | skipped (au : AccessUnit)
  | submitted (picture : Picture) (width height : UInt32)
  /-- The switch is fed `OutputReady`. -/
  | ready
  | returned (result : Except String Unit)

/-- What the environment hands the loop. -/
inductive Input
  | opened
  | check (stop : Bool)
  | request (now : ℕ) (request : Option Tuple)
  | deadline (now : ℕ)
  | quiet                                                 -- no frame within the poll
  | frame (now : ℕ) (frame : Frame)
  | picture (now : ℕ) (picture : Picture) (active due : Bool) (decoder : String)
  | drained                                               -- no more pictures, or the stop flag
  | stopped (now : ℕ)
  | abort (error : String)

namespace Stream

/-- The loop before its session is open. -/
def init : Stream where
  point := .opening
  switch := .default
  modes := []
  catalogRevision := 0
  advertised := false
  permission := PERMISSION_UNAVAILABLE
  config := none
  output := none
  decoder := some []
  lastPts := 0
  started := false
  decoded := 0
  submitted := 0

/-- The loop returns. -/
def finish (s : Stream) (result : Except String Unit) : Stream × List Note :=
  ({ s with point := .returned result }, [.returned result])

/-- A frame built by `Frame::new`, which the loop never makes too long. -/
def framed (kind : UInt8) (sequence : UInt32) (payload : List UInt8) : List Note :=
  match Frame.new kind sequence payload with
  | .ok frame => [.sent frame]
  | .error _ => []

/-- The frames an action sends. -/
def frames : Action → List Note
  | .sendPrepareQuality requestId revision width height fps =>
    framed PREPARE_QUALITY 0
      (PrepareQuality.encode
        { requestId, catalogRevision := revision, width, height, targetFps := fps })
  | .sendCommitQuality requestId epoch =>
    framed COMMIT_QUALITY 0 (Epoch.encode { requestId, streamEpoch := epoch })
  | _ => []

/-- Why a request is refused before the switch sees it. -/
def rejection (s : Stream) (request : Tuple) : Option String :=
  if !s.advertised then some "the phone has not advertised its capabilities yet"
  else if s.permission != PERMISSION_READY then
    some "camera permission or camera availability is not ready"
  else if !s.modes.any (fun mode => mode.tuple == request) then
    some "the requested quality is not in the advertised camera modes"
  else none

/-- The GUI's apply request. -/
def takeRequest (s : Stream) (now : ℕ) : Option Tuple → Stream × List Note
  | none => ({ s with point := .deadline }, [])
  | some (width, height, fps) =>
    match s.rejection (width, height, fps) with
    | some reason =>
      ({ s with point := .loop },
        [.taken (width, height, fps), .event (.qualityFailed reason false)])
    | none =>
      let (switch, actions) := s.switch.step now (.prepare s.catalogRevision width height fps)
      ({ s with switch, point := .deadline },
        .taken (width, height, fps) :: actions.map .acted ++ actions.flatMap frames)

/-- The events of an expired deadline, and whether it ends the loop. -/
def reportExpiry : List Action → List Note × Bool
  | [] => ([], false)
  | .reportFailed reason :: rest =>
    let (notes, failed) := reportExpiry rest
    (.event (.qualityFailed reason true) :: notes, failed)
  | .stopCapture :: _ => ([], true)
  | .closeConnection :: _ => ([], true)
  | _ :: rest => reportExpiry rest

/-- The apply deadline. -/
def expire (s : Stream) (now : ℕ) : Stream × List Note :=
  if s.switch.busy then
    let (switch, actions) := s.switch.step now .deadlineExceeded
    let s := { s with switch }
    let (events, failed) := reportExpiry actions
    let acted := actions.map .acted
    if failed then
      let (s, notes) := s.finish (.error "the apply deadline expired")
      (s, acted ++ events ++ notes)
    else ({ s with point := .receive }, acted ++ events)
  else ({ s with point := .receive }, [])

/-- The events of `report_quality`, and whether it fails. -/
def reportQuality (terminal : Bool) : List Action → List Note × Bool
  | [] => ([], false)
  | .reportApplied width height fps :: rest =>
    let (notes, failed) := reportQuality terminal rest
    (.event (.qualityApplied width height fps) :: notes, failed)
  | .reportFailed reason :: rest =>
    let (notes, failed) := reportQuality terminal rest
    (.event (.qualityFailed reason terminal) :: notes, failed)
  | .stopCapture :: _ => ([], true)
  | .closeConnection :: _ => ([], true)
  | _ :: rest => reportQuality terminal rest

/-- What the window is told of some actions, and whether they end the session. -/
def report (actions : List Action) : List Note × Bool :=
  reportQuality (actions.contains .closeConnection) actions

/-- The phone's writer fenced old media before its reply: all old resources go. -/
def release (s : Stream) : Stream :=
  { s with
    output := none
    decoder := none
    config := none
    started := false
    decoded := 0
    submitted := 0
    lastPts := 0 }

/-- What is sent once the switch has answered the phone. -/
def commitFrames : Action → List Note
  | .sendCommitQuality requestId epoch => frames (.sendCommitQuality requestId epoch)
  | _ => []

/-- The actions in their order. -/
def carryOut (s : Stream) : List Action → Stream × List Note
  | [] => (s, [])
  | action :: rest =>
    let (s, notes) :=
      if action = .releaseOutputs then (s.release, [.released, .event .waiting])
      else (s, commitFrames action)
    let (s, later) := s.carryOut rest
    (s, notes ++ later)

/-- A frame of the quality control plane. -/
def control (s : Stream) (now : ℕ) (e : HostQuality.Event) : Stream × List Note :=
  let wasStaged := s.switch.staged
  let (switch, actions) := s.switch.step now e
  let s := { s with switch }
  let (events, failed) := report actions
  let acted := actions.map .acted
  if failed then
    let (s, notes) := s.finish (.error "quality apply failed")
    (s, acted ++ events ++ notes)
  else
    let (s, notes) := s.carryOut actions
    let progress :=
      if actions.contains .releaseOutputs || switch.staged != wasStaged then
        [.event (.qualityProgress switch.staged)]
      else []
    ({ s with point := .loop }, acted ++ events ++ notes ++ progress)

/-- `VIDEO_CONFIG`. -/
def configure (s : Stream) (now : ℕ) (next : VideoConfig) : Stream × List Note :=
  if s.switch.awaitingVideo then
    let wasStaged := s.switch.staged
    let (switch, actions) := s.switch.step now
      (.videoConfig next.width.toUInt16 next.height.toUInt16 next.fps.toUInt16)
    let s := { s with switch }
    let (events, failed) := report actions
    let acted := actions.map .acted
    if failed then
      let (s, notes) := s.finish (.error "quality apply failed")
      (s, acted ++ events ++ notes)
    else
      let progress := if wasStaged then [.event (.qualityProgress false)] else []
      ({ s with config := some next, point := .loop },
        acted ++ events ++ progress ++ [Note.configured next])
  else if s.config.any (· ≠ next) then
    s.finish (.error "VIDEO_CONFIG changed during active output")
  else ({ s with config := some next, point := .loop }, [.configured next])

/-- `VIDEO_AU`, up to the decode loop. -/
def accessUnit (s : Stream) (au : AccessUnit) : Stream × List Note :=
  if au.payload = [] then ({ s with point := .loop }, [])
  else
    match s.config with
    | none => ({ s with point := .loop }, [.skipped au])
    | some c =>
      if !s.started && (!au.keyframe || !au.configIncluded) then
        ({ s with point := .loop }, [.skipped au])
      else if s.started && decide (au.ptsUs ≤ s.lastPts) then
        s.finish (.error "non-monotonic VIDEO_AU PTS")
      else
        ({ s with
            decoder := some (s.decoder.getD [] ++ [au])
            lastPts := au.ptsUs
            point := .decode c },
          [.given au])

/-- The event of a quality frame; `none` is a status that is passed over. -/
def resultEvent (r : QualityResult) : Option HostQuality.Event :=
  if r.status = RESULT_SWITCHING ∨ r.status = RESULT_STAGED then
    some (.prepareAccepted r.requestId (decide (r.status = RESULT_SWITCHING)))
  else if r.status = RESULT_REJECTED then some (.rejected r.requestId r.reason)
  else if r.status = RESULT_APPLIED then
    some (.captureStarted r.requestId r.appliedWidth r.appliedHeight r.appliedFps)
  else none

/-- A mode as the list of the window has it. -/
def modeOf (mode : QualityMode) : Mode := ⟨mode.width, mode.height, mode.targetFps, mode.bitrate⟩

/-- One frame from the phone. -/
def incoming (s : Stream) (now : ℕ) (frame : Frame) : Stream × List Note :=
  if frame.header.kind = PAIRING_INFO then
    match PairingInfo.decode frame.payload with
    | .error e => s.finish (.error e.message)
    | .ok info =>
      ({ s with point := .loop },
        [.event (.pairingInfo (info.addresses.map showAddress) info.fingerprint info.key)])
  else if frame.header.kind = QUALITY_CAPABILITIES then
    if frame.payload.head? ≠ some 1 then ({ s with point := .loop }, [])
    else
      match Capabilities.decode frame.payload with
      | .error e => s.finish (.error e.message)
      | .ok caps =>
        let modes := (caps.modes.map modeOf).filter Mode.usable
        ({ s with
            switch := (s.switch.step now (.epochObserved caps.streamEpoch)).1
            catalogRevision := caps.catalogRevision
            advertised := true
            permission := caps.permission
            modes
            point := .loop },
          [.event (.qualityCapabilities caps.permission caps.catalogRevision caps.streamEpoch
            modes)])
  else if frame.header.kind = QUALITY_RESULT then
    match QualityResult.decode frame.payload with
    | .error e => s.finish (.error e.message)
    | .ok result =>
      match resultEvent result with
      | none => ({ s with point := .loop }, [])
      | some e => s.control now e
  else if frame.header.kind = PAUSED then
    match Epoch.decode frame.payload with
    | .error e => s.finish (.error e.message)
    | .ok paused => s.control now (.paused paused.requestId paused.streamEpoch)
  else if frame.header.kind = VIDEO_CONFIG then
    match VideoConfig.parse frame.payload with
    | .error e => s.finish (.error e.message)
    | .ok next => s.configure now next
  else if frame.header.kind = VIDEO_AU then
    s.accessUnit ⟨frame.header.flags, frame.header.ptsUs, frame.payload⟩
  else ({ s with point := .loop }, [])

/-- The picture goes to the sink, and the switch hears of it. -/
def submit (s : Stream) (c : VideoConfig) (now : ℕ) (picture : Picture) :
    Stream × List Note × Bool :=
  let (switch, actions) := s.switch.step now .outputReady
  let (events, failed) := report actions
  ({ s with submitted := s.submitted + 1, switch },
    .submitted picture c.width c.height :: .ready :: (actions.map .acted ++ events), failed)

/-- One picture of the decode loop. `active` is what the sink's `ready` tells, `due` whether a
second has passed since the last statistics. -/
def draw (s : Stream) (c : VideoConfig) (now : ℕ) (picture : Picture) (active due : Bool)
    (decoder : String) : Stream × List Note :=
  if picture.width ≠ c.width ∨ picture.height ≠ c.height then
    s.finish (.error "decoded dimensions do not match VIDEO_CONFIG")
  else if c.width % 2 ≠ 0 then s.finish (.error "YUYV output width must be even")
  else
    let s :=
      { s with decoded := s.decoded + 1, started := true, output := some (s.output.getD c) }
    let (s, notes, failed) := if active then s.submit c now picture else (s, [], false)
    if failed then
      let (s, last) := s.finish (.error "quality apply failed")
      (s, notes ++ last)
    else
      let stats : Stats :=
        { decoded := s.decoded, submitted := s.submitted, active, width := c.width
          height := c.height, targetFps := c.fps, decoder }
      (s, notes ++ if due then [.event (.stats stats)] else [])

/-- After the loop. -/
def leave (s : Stream) (now : ℕ) : Stream × List Note :=
  let (switch, actions) := s.switch.step now .userStop
  let events := actions.filterMap fun
    | .reportFailed reason => some (.event (.qualityFailed reason false))
    | _ => none
  let (s, notes) := { s with switch }.finish (.ok ())
  (s, actions.map .acted ++ events ++ notes)

/-- One input of the loop, where it waits for one of its kind. -/
def step (s : Stream) : Input → Option (Stream × List Note)
  | .opened =>
    match s.point with
    | .opening => some ({ s with point := .loop }, framed IDR_REQUEST 2 [] ++ [Note.event .waiting])
    | _ => none
  | .check stop =>
    match s.point, stop with
    | .loop, false => some ({ s with point := .request }, [])
    | _, _ => none
  | .stopped now =>
    match s.point with
    | .loop => some (s.leave now)
    | _ => none
  | .request now request =>
    match s.point with
    | .request => some (s.takeRequest now request)
    | _ => none
  | .deadline now =>
    match s.point with
    | .deadline => some (s.expire now)
    | _ => none
  | .quiet =>
    match s.point with
    | .receive => some ({ s with point := .loop }, [])
    | _ => none
  | .frame now frame =>
    match s.point with
    | .receive => some (s.incoming now frame)
    | _ => none
  | .picture now picture active due decoder =>
    match s.point with
    | .decode c =>
      if picture.source.all (s.decoder.getD []).contains then
        some (s.draw c now picture active due decoder)
      else none
    | _ => none
  | .drained =>
    match s.point with
    | .decode _ => some ({ s with point := .loop }, [])
    | _ => none
  | .abort error =>
    match s.point with
    | .returned _ => none
    | _ => some (s.finish (.error error))

/-- What a step does, with the point it waits at. -/
inductive Moved (s : Stream) : Input → Stream → List Note → Prop
  | opened : s.point = .opening →
      Moved s .opened { s with point := .loop } (framed IDR_REQUEST 2 [] ++ [Note.event .waiting])
  | check : s.point = .loop → Moved s (.check false) { s with point := .request } []
  | stopped (now : ℕ) : s.point = .loop → Moved s (.stopped now) (s.leave now).1 (s.leave now).2
  | request (now : ℕ) (request : Option Tuple) : s.point = .request →
      Moved s (.request now request) (s.takeRequest now request).1 (s.takeRequest now request).2
  | deadline (now : ℕ) : s.point = .deadline →
      Moved s (.deadline now) (s.expire now).1 (s.expire now).2
  | quiet : s.point = .receive → Moved s .quiet { s with point := .loop } []
  | frame (now : ℕ) (frame : Frame) : s.point = .receive →
      Moved s (.frame now frame) (s.incoming now frame).1 (s.incoming now frame).2
  | picture {c : VideoConfig} (now : ℕ) (picture : Picture) (active due : Bool)
      (decoder : String) : s.point = .decode c →
      (∀ au ∈ picture.source, au ∈ s.decoder.getD []) →
      Moved s (.picture now picture active due decoder)
        (s.draw c now picture active due decoder).1 (s.draw c now picture active due decoder).2
  | drained {c : VideoConfig} : s.point = .decode c → Moved s .drained { s with point := .loop } []
  | abort (error : String) :
      Moved s (.abort error) (s.finish (.error error)).1 (s.finish (.error error)).2

/-- Every step moves the loop in one of the ways. -/
theorem moved_of_step {s s' : Stream} {i : Input} {notes : List Note}
    (h : s.step i = some (s', notes)) : Moved s i s' notes := by
  cases i with
  | opened =>
    simp only [step] at h
    split at h
    · next hpoint =>
      obtain ⟨rfl, rfl⟩ := Prod.mk.inj (Option.some.inj h)
      exact .opened hpoint
    · cases h
  | check stop =>
    simp only [step] at h
    split at h
    · next hpoint =>
      obtain ⟨rfl, rfl⟩ := Prod.mk.inj (Option.some.inj h)
      exact .check hpoint
    · cases h
  | stopped now =>
    simp only [step] at h
    split at h
    · next hpoint =>
      obtain ⟨rfl, rfl⟩ := Prod.mk.inj (Option.some.inj h)
      exact .stopped now hpoint
    · cases h
  | request now request =>
    simp only [step] at h
    split at h
    · next hpoint =>
      obtain ⟨rfl, rfl⟩ := Prod.mk.inj (Option.some.inj h)
      exact .request now request hpoint
    · cases h
  | deadline now =>
    simp only [step] at h
    split at h
    · next hpoint =>
      obtain ⟨rfl, rfl⟩ := Prod.mk.inj (Option.some.inj h)
      exact .deadline now hpoint
    · cases h
  | quiet =>
    simp only [step] at h
    split at h
    · next hpoint =>
      obtain ⟨rfl, rfl⟩ := Prod.mk.inj (Option.some.inj h)
      exact .quiet hpoint
    · cases h
  | frame now frame =>
    simp only [step] at h
    split at h
    · next hpoint =>
      obtain ⟨rfl, rfl⟩ := Prod.mk.inj (Option.some.inj h)
      exact .frame now frame hpoint
    · cases h
  | picture now picture active due decoder =>
    simp only [step] at h
    split at h
    · next c hpoint =>
      split at h
      · next hsource =>
        obtain ⟨rfl, rfl⟩ := Prod.mk.inj (Option.some.inj h)
        refine .picture now picture active due decoder hpoint ?_
        simpa [List.all_eq_true] using hsource
      · cases h
    · cases h
  | drained =>
    simp only [step] at h
    split at h
    · next hpoint =>
      obtain ⟨rfl, rfl⟩ := Prod.mk.inj (Option.some.inj h)
      exact .drained hpoint
    · cases h
  | abort error =>
    simp only [step] at h
    split at h
    · cases h
    · obtain ⟨rfl, rfl⟩ := Prod.mk.inj (Option.some.inj h)
      exact .abort error

/-- A step that reads a frame is what the loop makes of the frame. -/
theorem incoming_of_step {s s' : Stream} {now : ℕ} {frame : Frame} {notes : List Note}
    (h : s.step (.frame now frame) = some (s', notes)) : s.incoming now frame = (s', notes) := by
  cases moved_of_step h with
  | frame => rfl

/-- The loop, with any environment. -/
def received : EventSystem Stream Input Note where
  start s := s = .init
  step := step

end Stream

end HostVideo
end MobileWebcamBridge
