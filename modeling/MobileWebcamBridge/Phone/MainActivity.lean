import MobileWebcamBridge.Lib.EventSystem
import MobileWebcamBridge.Phone.PhoneQualityController

/-!
# `MainActivity`: when the camera starts

The part of the Activity that decides about the capture: its session, its bridge, the start request,
the resume flag and the quality controller. Every handler runs to its end on the UI thread, and
`system` runs any sequence of them, with any answers of the phone (`Environment`), between
authorizations that come and go on other threads. What only changes a text, a button or a delay is
left out.
-/

set_option autoImplicit false

namespace MobileWebcamBridge

open Wire QualitySwitch

/-- The cable or Wi-Fi. -/
inductive ConnectionMode
  | usb | lan
deriving DecidableEq, Repr

namespace MainActivity

/-- A session's `clientAuthorization`. -/
inductive Authorization
  | requested | authorized | ended
deriving DecidableEq, Repr

/-- A `CameraBridgeController`. -/
structure Bridge where
  id : ℕ
  session : ℕ
deriving DecidableEq, Repr

end MainActivity

open MainActivity in
/-- The fields that decide about the camera. -/
structure MainActivity where
  connectionMode : ConnectionMode
  /-- Whether there is an owner. -/
  authorizationOwner : Bool
  lanServer : Option ℕ
  /-- How many servers have been made. -/
  lanServers : ℕ
  sessions : List Authorization
  session : Option ℕ
  qualityController : Option PhoneQualityController
  cameraBridge : Option Bridge
  /-- How many bridges have been made. -/
  bridges : ℕ
  cameraStartRequested : Bool
  foreground : Bool
  resumeCaptureWhenAuthorized : Bool
deriving DecidableEq, Repr

namespace MainActivity

/-- What the phone answers while a handler runs. -/
structure Environment where
  revision : ℕ
  modes : List CaptureMode
  deviceModes : List CaptureMode
  nowMillis : ℤ
  /-- `checkSelfPermission` of the camera. -/
  permission : Bool
  /-- The published modes of the camera it finds, if it finds one. -/
  published : Option (List CaptureMode)
  /-- Which of the modes that match `autoPreferred` takes. -/
  preferred : ℕ
  /-- The session lets the capture begin, and nothing has closed the bridge. -/
  permitted : Bool
  /-- The camera session starts, rather than throwing. -/
  starts : Bool
  startingEpoch : ℕ
  /-- An accessory is attached that the app may use. -/
  accessory : Bool
  permissionRequested : Bool
  /-- `readerHandover.refuseWhileReading`. -/
  reading : Bool
  /-- `closeAndAwait` of the session before. -/
  stops : Bool
  opens : Bool
  serverStarts : Bool
  /-- `ClientStore.clear` succeeds, and a new owner can be made then. -/
  clears : Bool
  creates : Bool
deriving DecidableEq, Repr

/-- A capture that was begun. -/
structure Capture where
  bridge : ℕ
  session : ℕ
  mode : CaptureMode
deriving DecidableEq, Repr

/-- What the user does, and what becomes of the connections. -/
inductive Event
  /-- The camera button, with the session it was pressed on. -/
  | startPressed (session : Option ℕ)
  | stopPressed
  /-- The Stop of the notification. -/
  | stopNotified
  | permissionDenied
  /-- The connections start afresh, in either mode. -/
  | modeChanged
  | connectionsStopped
  | retried
  /-- An error of the connection for which `ReconnectPolicy.shouldResume` is false. -/
  | refused
  /-- The session has gone, or its authorization has. -/
  | dropped
  | bound (session : ℕ)
  | authorized (session : ℕ)
  | resumed (session : ℕ)
  | began (capture : Capture)
deriving DecidableEq, Repr

/-- The session is authorized. -/
def isAuthorized (s : MainActivity) (sid : ℕ) : Bool := s.sessions[sid]? == some .authorized

/-- The session loses its authorization for good. -/
def endAuthorization (s : MainActivity) (sid : ℕ) : MainActivity :=
  { s with sessions := s.sessions.set sid .ended }

/-! ## The camera and the quality controller -/

/-- `stopCamera` up to the quality controller. -/
def closeCamera (s : MainActivity) (clearStartRequest : Bool) : MainActivity :=
  { s with
    cameraStartRequested := s.cameraStartRequested && !clearStartRequest
    cameraBridge := none }

/-- What the quality controller asks of its surroundings. -/
def Environment.quality (env : Environment) (s : MainActivity) :
    PhoneQualityController.Environment where
  revision := env.revision
  modes := env.modes
  permissionReady := env.permission
  foreground := s.foreground
  streaming := s.cameraBridge.isSome
  deviceModes := env.deviceModes
  nowMillis := env.nowMillis

/-- What an effect that starts no capture does here; its replies go out through the session. -/
def perform (s : MainActivity) : PhoneQualityController.Effect → MainActivity
  | .stopCapture clearStartRequest => s.closeCamera clearStartRequest
  | .pauseQuality _ | .sendQualityResult _ | .noPreparedMode | .startCapture _ => s

/-- A call of the quality controller, if there is one, other than `handle`: no other starts a
capture. -/
def notify (s : MainActivity) (env : Environment) (call : PhoneQualityController.Call) :
    MainActivity :=
  match s.qualityController with
  | none => s
  | some c =>
    let (c', effects) := c.call (env.quality s) call
    effects.foldl perform { s with qualityController := some c' }

/-- The camera stops, and the PC is told. -/
def stopCamera (s : MainActivity) (env : Environment) : MainActivity :=
  (s.closeCamera true).notify env .cancel

/-- `CaptureModes.resolve`: an explicit request matches exactly. -/
def Environment.resolve (env : Environment) (requested : Option CaptureMode) :
    Option CaptureMode :=
  env.published.bind fun modes =>
    let matched := modes.filter fun mode => requested.all fun r =>
      mode.width == r.width && mode.height == r.height && mode.targetFps == r.targetFps
    matched[env.preferred % matched.length]?

/-- What `startCamera` does once it has a mode. -/
def startBridge (s : MainActivity) (env : Environment) (sid : ℕ) (mode : CaptureMode) :
    MainActivity × List Event :=
  let capture : Capture := { bridge := s.bridges, session := sid, mode }
  let s := { s with
    cameraBridge := some { id := s.bridges, session := sid }
    bridges := s.bridges + 1 }
  if !env.permitted then ((s.notify env .captureFailed).stopCamera env, [])
  else if !env.starts then ((s.notify env .captureFailed).stopCamera env, [.began capture])
  else (s, [.began capture])

/-- The camera starts, if everything allows it; the wish for it may stay. -/
def startCamera (s : MainActivity) (env : Environment) (requestedMode : Option CaptureMode) :
    MainActivity × List Event :=
  if !s.cameraStartRequested || s.cameraBridge.isSome || !s.foreground then (s, [])
  else
    match s.session with
    | none => ({ s with cameraStartRequested := false }, [])
    | some sid =>
      if !s.isAuthorized sid then ({ s with cameraStartRequested := false }, [])
      -- the permission is asked for, and `permissionResult` comes back to it
      else if !env.permission then (s, [])
      else
        let s := s.notify env .captureRequested
        match env.resolve requestedMode with
        | none => (s.stopCamera env, [])
        | some mode => s.startBridge env sid mode

/-- The default of `startCamera`. -/
def stagedMode (s : MainActivity) : Option CaptureMode :=
  s.qualityController.bind fun c => if c.machine.phase = .staged then c.preparedMode else none

/-! ## Connections -/

/-- A drop no longer leads to a start. -/
def clearReconnect (s : MainActivity) : MainActivity :=
  { s with resumeCaptureWhenAuthorized := false }

/-- The session and its camera are closed. -/
def closeSession (s : MainActivity) : MainActivity :=
  let closed := ({ s with session := none, qualityController := none }).closeCamera true
  match s.session with
  | some sid => closed.endAuthorization sid
  | none => closed

/-- Call while the camera is still up. -/
def noteUnexpectedDrop (s : MainActivity) (shouldResume : Bool) : MainActivity :=
  let capturing := s.cameraBridge.isSome || s.cameraStartRequested
  if capturing && shouldResume then { s with resumeCaptureWhenAuthorized := true }
  else if !shouldResume then s.clearReconnect
  else s

/-- Both kinds of connection are closed. -/
def stopConnections (s : MainActivity) : MainActivity :=
  { s.clearReconnect.closeSession with lanServer := none }

/-- The list of PCs cannot be used. -/
def authorizationStorageFailed (s : MainActivity) : MainActivity :=
  { s.stopConnections with authorizationOwner := false }

/-- The Activity goes. -/
def onDestroy (s : MainActivity) : MainActivity :=
  { s.stopConnections with authorizationOwner := false }

/-- A session gets its controller. -/
def bindQualitySession (s : MainActivity) (env : Environment) (sid : ℕ) :
    MainActivity × List Event :=
  ({ s with session := some sid, qualityController := some (.new env.startingEpoch) },
    [.bound sid])

/-- A session over the cable opens. -/
def openAccessory (s : MainActivity) (env : Environment) : MainActivity × List Event :=
  if s.connectionMode ≠ .usb ∨ s.authorizationOwner = false ∨ env.reading then (s, [])
  else
    let s := s.closeSession
    if !env.stops || !env.opens then (s, [])
    else
      ({ s with sessions := s.sessions ++ [.requested] } : MainActivity).bindQualitySession env
        s.sessions.length

/-- An accessory that is attached is opened. -/
def discoverUsb (s : MainActivity) (env : Environment) : MainActivity × List Event :=
  if s.authorizationOwner = false ∨ s.connectionMode ≠ .usb ∨ s.session.isSome then (s, [])
  else if env.accessory then s.openAccessory env
  else (s, [])

/-- The user changes to the cable. -/
def startUsbMode (s : MainActivity) (env : Environment) : MainActivity × List Event :=
  if s.authorizationOwner = false then (s, [])
  else if s.connectionMode = .usb ∧
      (s.session.isSome ∨ env.permissionRequested ∨ s.cameraStartRequested) then (s, [])
  else
    let s := (s.clearReconnect.stopCamera env).closeSession
    let (s, events) := ({ s with lanServer := none, connectionMode := .usb } :
      MainActivity).discoverUsb env
    (s, .modeChanged :: events)

/-- The user changes to Wi-Fi, or comes back to it. -/
def startLanMode (s : MainActivity) (env : Environment) (keepResume : Bool) :
    MainActivity × List Event :=
  if s.authorizationOwner = false then (s, [])
  else if s.connectionMode = .lan ∧ s.lanServer.isSome then (s, [])
  else
    let s' := ((if keepResume then s else s.clearReconnect).stopCamera env).closeSession
    ({ s' with
        connectionMode := .lan
        lanServer := if env.serverStarts then some s.lanServers else none
        lanServers := s.lanServers + 1 },
      [if keepResume then .retried else .modeChanged])

/-! ## Handlers -/

/-- The handlers and callbacks of the UI thread. -/
inductive Call
  | cameraButton
  | usbButton
  | lanButton
  | retryConnection
  /-- `onResume`; `stop` says whether the intent carries the process's own stop token. -/
  | resume (stop : Bool)
  | pause
  | newIntent (stop attached : Bool)
  | permissionResult (granted : Bool)
  | rediscover
  /-- The answer to the request for the USB permission. -/
  | usbPermission
  /-- `onError` of a USB session, with what `ReconnectPolicy.shouldResume` says of the error. -/
  | usbError (sid : ℕ) (shouldResume : Bool)
  /-- `onSession` of a server. -/
  | lanSession (server sid : ℕ) (connected isActive : Bool)
  | lanError (server : ℕ) (shouldResume : Bool)
  | authorizationChanged (sid : ℕ)
  | qualityCommand (sid : ℕ) (command : HostCommand)
  | qualityDeadline (again : ℤ)
  | cameraStarted (bridge width height fps : ℕ)
  | cameraError (bridge : ℕ)
  | storageFailed
  /-- The second press of the storage action. -/
  | resetStorage
  | rotateKey
  | approvalFailed
  | destroy
deriving DecidableEq, Repr

/-- The Stop of the notification. -/
def stopIntent (s : MainActivity) (env : Environment) : MainActivity × List Event :=
  (s.stopCamera env, [.stopNotified])

/-- Start and Stop. -/
def cameraButton (s : MainActivity) (env : Environment) : MainActivity × List Event :=
  if s.cameraStartRequested then (s.clearReconnect.stopCamera env, [.stopPressed])
  else
    let (s', events) :=
      ({ s with cameraStartRequested := true } : MainActivity).startCamera env s.stagedMode
    (s', .startPressed s.session :: events)

/-- A session was authorized, or has lost it. -/
def onAuthorizationChanged (s : MainActivity) (env : Environment) (sid : ℕ) :
    MainActivity × List Event :=
  if s.session ≠ some sid then (s, [])
  else if s.isAuthorized sid then
    if s.resumeCaptureWhenAuthorized then
      let (s', events) := ({ s with
        resumeCaptureWhenAuthorized := false, cameraStartRequested := true } :
          MainActivity).startCamera env s.stagedMode
      (s', .resumed sid :: events)
    else (s, [])
  else
    let capturing := s.cameraBridge.isSome || s.cameraStartRequested
    (({ s with
        resumeCaptureWhenAuthorized := s.resumeCaptureWhenAuthorized || capturing } :
          MainActivity).stopCamera env, [.dropped])

/-- The controller's `startCapture`. -/
def startCapture (s : MainActivity) (env : Environment) (mode : CaptureMode) :
    MainActivity × List Event :=
  ({ s with cameraStartRequested := true } : MainActivity).startCamera env (some mode)

/-- The effects of `handle`, in their order. -/
def performAll (env : Environment) :
    MainActivity → List PhoneQualityController.Effect → MainActivity × List Event
  | s, [] => (s, [])
  | s, .startCapture mode :: effects =>
    let (s, events) := s.startCapture env mode
    let (s, more) := performAll env s effects
    (s, events ++ more)
  | s, effect :: effects => performAll env (s.perform effect) effects

/-- A command of the PC for the session shown. -/
def onQualityCommand (s : MainActivity) (env : Environment) (sid : ℕ) (command : HostCommand) :
    MainActivity × List Event :=
  if s.session ≠ some sid ∨ s.isAuthorized sid = false then (s, [])
  else
    match s.qualityController with
    | none => (s, [])
    | some c =>
      let (c', effects) := c.call (env.quality s) (.handle command)
      performAll env { s with qualityController := some c' } effects

/-- The session over the cable has failed. -/
def onUsbError (s : MainActivity) (sid : ℕ) (shouldResume : Bool) : MainActivity × List Event :=
  if s.session ≠ some sid then (s, [])
  else if !shouldResume then
    (({ s with resumeCaptureWhenAuthorized := false } : MainActivity).closeSession, [.refused])
  else ((s.noteUnexpectedDrop shouldResume).closeSession, [.dropped])

/-- A session over Wi-Fi has come or gone. -/
def onLanSession (s : MainActivity) (env : Environment) (server sid : ℕ)
    (connected isActive : Bool) : MainActivity × List Event :=
  if s.lanServer ≠ some server then (if connected then s.endAuthorization sid else s, [])
  else if !connected then
    -- only the currently displayed session may clear the UI
    if s.session = some sid then
      ({ (s.noteUnexpectedDrop true).stopCamera env with session := none }, [.dropped])
    else (s, [])
  -- a late connect event is ignored once that client has disconnected
  else if isActive ∧ sid < s.sessions.length then s.closeSession.bindQualitySession env sid
  else (s, [])

/-- The Wi-Fi listener has failed. -/
def onLanError (s : MainActivity) (server : ℕ) (shouldResume : Bool) :
    MainActivity × List Event :=
  if s.lanServer ≠ some server ∨ shouldResume then (s, [])
  else ({ s with resumeCaptureWhenAuthorized := false }, [.refused])

/-- The user has answered for the camera. -/
def onRequestPermissionsResult (s : MainActivity) (env : Environment) (granted : Bool) :
    MainActivity × List Event :=
  if !s.cameraStartRequested then (s, [])
  else if granted then s.startCamera env s.stagedMode
  else (s.clearReconnect.stopCamera env, [.permissionDenied])

/-- The app is shown. -/
def onResume (s : MainActivity) (env : Environment) (stop : Bool) : MainActivity × List Event :=
  let s := { s with foreground := true }
  if stop then s.stopIntent env
  else
    let (s, events) := if s.cameraStartRequested then s.startCamera env s.stagedMode else (s, [])
    let (s, more) := s.discoverUsb env
    (s, events ++ more)

/-- The list of PCs is erased. -/
def resetStorage (s : MainActivity) (env : Environment) : MainActivity × List Event :=
  if !env.clears then (s, [])
  else if !env.creates then (s.authorizationStorageFailed, [.connectionsStopped])
  else
    let s := { s with authorizationOwner := true }
    if s.connectionMode = .lan then s.startLanMode env false else s.startUsbMode env

/-- One handler of the UI thread. -/
def handle (s : MainActivity) (env : Environment) : Call → MainActivity × List Event
  | .cameraButton => s.cameraButton env
  | .usbButton => s.startUsbMode env
  | .lanButton => s.startLanMode env false
  | .retryConnection =>
    if s.connectionMode = .usb then s.discoverUsb env
    else ({ s with lanServer := none } : MainActivity).startLanMode env true
  | .resume stop => s.onResume env stop
  | .pause => ({ s with foreground := false }, [])
  | .newIntent stop attached =>
    if stop then s.stopIntent env else if attached then s.discoverUsb env else (s, [])
  | .permissionResult granted => s.onRequestPermissionsResult env granted
  | .rediscover => s.discoverUsb env
  | .usbPermission =>
    if env.permissionRequested && env.accessory then s.openAccessory env else (s, [])
  | .usbError sid shouldResume => s.onUsbError sid shouldResume
  | .lanSession server sid connected isActive => s.onLanSession env server sid connected isActive
  | .lanError server shouldResume => s.onLanError server shouldResume
  | .authorizationChanged sid => s.onAuthorizationChanged env sid
  | .qualityCommand sid command => s.onQualityCommand env sid command
  | .qualityDeadline again => (s.notify env (.tick again), [])
  | .cameraStarted bridge width height fps =>
    if s.cameraBridge.any fun b => b.id == bridge && s.session == some b.session then
      (s.notify env (.captureStarted width height fps), [])
    else (s, [])
  | .cameraError bridge =>
    if s.cameraBridge.any fun b => b.id == bridge then
      ((s.notify env .captureFailed).stopCamera env, [])
    else (s, [])
  | .storageFailed => (s.authorizationStorageFailed, [.connectionsStopped])
  | .resetStorage => s.resetStorage env
  | .rotateKey => ({ s with lanServer := none } : MainActivity).startLanMode env false
  | .approvalFailed => (s.stopConnections, [.connectionsStopped])
  | .destroy => (s.onDestroy, [.connectionsStopped])

/-! ## Runs -/

/-- A handler, or a change of a session from outside. -/
inductive Label
  | handle (env : Environment) (call : Call)
  /-- The server has a new session. -/
  | connect
  /-- The session is authorized, at most once. -/
  | authorize (sid : ℕ)
  | endAuthorization (sid : ℕ)
  /-- The teardown thread takes the bridge. -/
  | teardown
deriving DecidableEq, Repr

/-- One handler or one change. -/
def step (s : MainActivity) : Label → Option (MainActivity × List Event)
  | .handle env call => some (s.handle env call)
  | .connect => some ({ s with sessions := s.sessions ++ [Authorization.requested] }, [])
  | .authorize sid =>
    if s.sessions[sid]? = some .requested then
      some ({ s with sessions := s.sessions.set sid .authorized }, [.authorized sid])
    else none
  | .endAuthorization sid => some (s.endAuthorization sid, [])
  | .teardown => some ({ s with cameraBridge := none }, [])

/-- After `onCreate`, in either mode. -/
def created (connectionMode : ConnectionMode) : MainActivity :=
  { connectionMode, authorizationOwner := true
    lanServer := if connectionMode = .lan then some 0 else none
    lanServers := 1, sessions := [], session := none, qualityController := none
    cameraBridge := none, bridges := 0, cameraStartRequested := false, foreground := false
    resumeCaptureWhenAuthorized := false }

/-- The Activity from its creation. -/
def system : EventSystem MainActivity Label Event where
  start s := ∃ connectionMode, s = created connectionMode
  step := step

end MainActivity
end MobileWebcamBridge
