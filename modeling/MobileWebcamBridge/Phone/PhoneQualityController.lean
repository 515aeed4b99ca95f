import MobileWebcamBridge.Lib.EventSystem
import MobileWebcamBridge.Phone.QualitySwitch

/-!
# `PhoneQualityController`

The controller looks a request up in the modes the phone offers, steps the machine and executes its
actions. `system` runs any sequence of its entry points: what the phone answers to the controller's
questions (`Environment`) is free at every call. A history is a list of `Entry`s, each call with the
controller before and after it and what was executed.
-/

set_option autoImplicit false

namespace MobileWebcamBridge

open Wire QualitySwitch

/-- `CaptureModes.CaptureMode`. -/
structure CaptureMode where
  cameraId : String
  codecName : String
  width : ℕ
  height : ℕ
  targetFps : ℕ
  bitrate : ℕ
deriving DecidableEq, Repr

/-- The machine, and the mode of the request it has accepted. -/
structure PhoneQualityController where
  machine : Machine
  preparedMode : Option CaptureMode
  preparedId : ℕ
deriving DecidableEq, Repr

namespace PhoneQualityController

/-- What the constructor's functions return during a call. -/
structure Environment where
  revision : ℕ
  modes : List CaptureMode
  permissionReady : Bool
  foreground : Bool
  streaming : Bool
  deviceModes : List CaptureMode
  nowMillis : ℤ
deriving DecidableEq, Repr

/-- What the controller does to the session and the camera. -/
inductive Effect
  | stopCapture (clearStartRequest : Bool)
  | pauseQuality (epoch : Epoch)
  | startCapture (mode : CaptureMode)
  | sendQualityResult (result : QualityResult)
  /-- The failed `requireNotNull`, which throws. -/
  | noPreparedMode
deriving DecidableEq, Repr

/-- No request was handled yet. -/
def new (startingEpoch : ℕ) : PhoneQualityController :=
  { machine := .new startingEpoch, preparedMode := none, preparedId := 0 }

/-- The actions of the machine, carried out in their order. -/
def execute (c : PhoneQualityController) : List Action → List Effect
  | [] => []
  | .stopCapture :: actions => .stopCapture (c.machine.phase == .failed) :: c.execute actions
  | .sendPaused requestId epoch :: actions =>
    .pauseQuality { requestId, streamEpoch := epoch } :: c.execute actions
  | .startCapture .. :: actions =>
    match c.preparedMode with
    | some mode => .startCapture mode :: c.execute actions
    | none => [.noPreparedMode]
  | .sendQualityResult requestId status reason width height fps :: actions =>
    .sendQualityResult
      { requestId, status, reason
        appliedWidth := width, appliedHeight := height, appliedFps := fps } :: c.execute actions

/-- The mode is of the size and rate of the request. -/
def asks (request : PrepareQuality) (mode : CaptureMode) : Bool :=
  mode.width == request.width && mode.height == request.height &&
    mode.targetFps == request.targetFps

/-- The mode a request asks for, if the phone offers it. -/
def Environment.mode (env : Environment) (request : PrepareQuality) : Option CaptureMode :=
  env.modes.find? (asks request)

/-- Why a request is refused, or no reason. -/
def Environment.reason (env : Environment) (request : PrepareQuality) : ℕ :=
  if !env.permissionReady then REASON_PERMISSION
  else if !env.foreground then REASON_FOREGROUND
  else if request.catalogRevision ≠ env.revision then REASON_STALE_REVISION
  else if (env.mode request).isNone && env.deviceModes.any (asks request) then REASON_EDITION
  else if (env.mode request).isNone then REASON_UNSUPPORTED_MODE
  else 0

/-- The event a `Prepare` command becomes. -/
def Environment.prepare (env : Environment) (request : PrepareQuality) : Prepare where
  requestId := request.requestId
  revision := request.catalogRevision
  width := request.width
  height := request.height
  fps := request.targetFps
  verdict := if env.reason request = 0 then .accept else .reject (env.reason request)
  streaming := env.streaming

/-- The actions that say a request was taken. -/
def takes : Action → Bool
  | .sendPaused .. => true
  | .sendQualityResult _ status .. => status == .staged
  | .startCapture .. | .stopCapture => false

/-- The user stops. -/
def cancel (c : PhoneQualityController) (env : Environment) :
    PhoneQualityController × List Effect :=
  let (machine, actions) := c.machine.step env.nowMillis .userStop
  let c := { c with machine }
  ({ c with preparedMode := none }, c.execute actions)

/-- Steps the machine and executes what it asks for. -/
def run (c : PhoneQualityController) (nowMs : ℤ) (event : QualitySwitch.Event) :
    PhoneQualityController × List Effect :=
  let (machine, actions) := c.machine.step nowMs event
  let c := { c with machine }
  (c, c.execute actions)

/-- A command of the PC. -/
def handle (c : PhoneQualityController) (env : Environment) :
    HostCommand → PhoneQualityController × List Effect
  | .prepare request =>
    let (machine, actions) := c.machine.step env.nowMillis (.prepare (env.prepare request))
    let c := { c with machine }
    let c :=
      if request.requestId ≠ c.preparedId ∧ (env.mode request).isSome ∧ actions.any takes then
        { c with preparedId := request.requestId, preparedMode := env.mode request }
      else c
    (c, c.execute actions)
  | .commit epoch =>
    if !env.foreground || !env.permissionReady then c.cancel env
    else c.run env.nowMillis (.commit epoch.requestId epoch.streamEpoch)

/-! ## Calls -/

/-- The calls of the controller. -/
inductive Call
  | handle (command : HostCommand)
  | captureRequested
  | captureStarted (width height fps : ℕ)
  | captureFailed
  /-- `tick` reads the clock a second time for the event. -/
  | tick (again : ℤ)
  | cancel
deriving DecidableEq, Repr

/-- One call. -/
def call (c : PhoneQualityController) (env : Environment) :
    Call → PhoneQualityController × List Effect
  | .handle command => c.handle env command
  | .captureRequested => c.run env.nowMillis .beginStagedCapture
  | .captureStarted width height fps => c.run env.nowMillis (.captureStarted width height fps)
  | .captureFailed => c.run env.nowMillis .captureFailed
  | .tick again => c.run env.nowMillis (.deadlineExceeded again)
  | .cancel => c.cancel env

/-- One call of a history. -/
structure Entry where
  before : PhoneQualityController
  env : Environment
  call : Call
  after : PhoneQualityController
  effects : List Effect
deriving DecidableEq, Repr

/-- Any sequence of calls on a new controller. -/
def system : EventSystem PhoneQualityController (Environment × Call) Entry where
  start c := ∃ startingEpoch, c = new startingEpoch
  step c i := some ((c.call i.1 i.2).1,
    [{ before := c, env := i.1, call := i.2, after := (c.call i.1 i.2).1
       effects := (c.call i.1 i.2).2 }])

/-! ## What a history says -/

/-- The request a call made the machine take, with the mode it was looked up as. -/
def Entry.accepted? (e : Entry) : Option (PrepareQuality × Option CaptureMode) :=
  match e.call with
  | .handle (.prepare request) =>
    if e.before.machine.phase.busy = false ∧
        (e.after.machine.phase = .prepared ∨ e.after.machine.phase = .staged) then
      some (request, e.env.mode request)
    else none
  | _ => none

/-- The last request the phone accepted. -/
def lastAccepted (tr : List Entry) : Option (PrepareQuality × Option CaptureMode) :=
  (tr.filterMap Entry.accepted?).getLast?

/-- The request id under which a call started the capture. -/
def Entry.started? (e : Entry) : Option ℕ :=
  match e.call with
  | .handle (.commit epoch) =>
    if e.effects.any fun effect => effect matches .startCapture _ then some epoch.requestId
    else none
  | _ => none

end PhoneQualityController
end MobileWebcamBridge
