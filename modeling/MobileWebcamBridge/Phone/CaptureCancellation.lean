import MobileWebcamBridge.Lib.EventSystem

/-!
# `CaptureCancellation.kt`: the teardown of a capture whose authorization ended

`CameraBridgeController` serialises its start and its close, `MainActivity` installs and detaches
the bridge on the UI thread, and the teardown thread tests the owner, detaches and closes. `system`
interleaves the two threads with sessions that gain and lose their authorization at any moment.
-/

set_option autoImplicit false

namespace MobileWebcamBridge
namespace CaptureCancellation

/-- An `AuthorizedMediaSession`, as its capture sees it. -/
structure Session where
  isAuthorized : Bool
  /-- Its authorization has ended and does not come back. -/
  ended : Bool
  captureCancelled : Bool
deriving DecidableEq, Repr

/-- How far `start` of a bridge has come. -/
inductive Phase
  | created
  /-- `start` holds the `lifecycle` lock. -/
  | starting
  | running
  /-- `start` has thrown. -/
  | failed
deriving DecidableEq, Repr

/-- A `CameraBridgeController`. -/
structure Bridge where
  session : ℕ
  phase : Phase
  closed : Bool
deriving DecidableEq, Repr

/-- What is left to do in a call on the UI thread, one shared access at a time. -/
inductive Op
  /-- `closeSession` takes the session out of its field. -/
  | closeSession
  /-- `closeMedia` raises its cancellation, unless it has. -/
  | cancelCapture (sid : ℕ)
  | endAuthorization (sid : ℕ)
  | clear
  | assign (sid : ℕ)
  /-- `stopCamera` takes the bridge out of its field. -/
  | detach
  | close (bridge : ℕ)
  /-- The checks of `startCamera`, and whether it finds a camera and a mode. -/
  | check (camera : Bool)
  | install (sid : ℕ)
  | start (bridge : ℕ)
  | started (bridge : ℕ)
deriving DecidableEq, Repr

/-- The teardown thread. -/
inductive Worker
  | idle
  /-- The session was the owner when it was asked. -/
  | owned (sid : ℕ)
  | closing (sid bridge : ℕ)
deriving DecidableEq, Repr

/-- The sessions, the bridges, and what the UI thread and the teardown thread have to do. -/
structure Activity where
  sessions : List Session
  bridges : List Bridge
  session : Option ℕ
  installedBridge : Option ℕ
  ui : List Op
  jobs : List ℕ
  worker : Worker

/-- What the teardown thread does. -/
inductive Event
  /-- The cancellation that the session raised has closed the bridge. -/
  | tornDown (sid bridge : ℕ)
deriving DecidableEq, Repr

/-- What the UI thread is called for. -/
inductive Call
  | stopCamera
  | closeSession
  /-- A new session takes the place of the one before. -/
  | opened (sid : ℕ)
  /-- `LanServer` reports that the session is gone. -/
  | dropped (sid : ℕ)
  | startCamera (camera : Bool)
deriving DecidableEq, Repr

/-- A change of a session, a call, or a step of a thread. -/
inductive Label
  | connect
  | grant (sid : ℕ)
  | endAuthorization (sid : ℕ)
  | cancelCapture (sid : ℕ)
  | call (call : Call)
  /-- The next access of the UI thread; a camera session that is started starts or throws. -/
  | ui (starts : Bool)
  | worker
deriving DecidableEq, Repr

/-- The session is authorized. -/
def Activity.isAuthorized (s : Activity) (sid : ℕ) : Bool :=
  match s.sessions[sid]? with
  | some session => session.isAuthorized
  | none => false

/-- One bridge is changed. -/
def Activity.setBridge (s : Activity) (b : ℕ) (f : Bridge → Bridge) : Activity :=
  { s with bridges := s.bridges.modify b f }

/-- `cancel` of the capture, once a session. -/
def Activity.cancelCapture (s : Activity) (sid : ℕ) : Activity :=
  match s.sessions[sid]? with
  | some session =>
    if session.captureCancelled then s
    else { s with
      sessions := s.sessions.modify sid fun session => { session with captureCancelled := true }
      jobs := s.jobs ++ [sid] }
  | none => s

/-- The session loses its authorization for good. -/
def Activity.endAuthorization (s : Activity) (sid : ℕ) : Activity :=
  { s with
    sessions := s.sessions.modify sid
      fun session => { session with isAuthorized := false, ended := true } }

/-- `close` of a bridge waits for the lock its `start` holds. -/
def Activity.close (s : Activity) (b : ℕ) : Option Activity :=
  match s.bridges[b]? with
  | some { phase := .starting, .. } | none => none
  | some _ => some (s.setBridge b fun bridge => { bridge with closed := true })

/-- The steps of a call. -/
def Call.program (s : Activity) : Call → List Op
  | .stopCamera => [.detach]
  | .closeSession => [.closeSession]
  | .opened sid => [.closeSession, .assign sid]
  | .dropped sid => if s.session = some sid then [.detach, .clear] else []
  | .startCamera camera => [.check camera]

/-- The next access of the UI thread. -/
def Activity.run (s : Activity) (starts : Bool) : Op → List Op → Option Activity
  | .closeSession, rest =>
    match s.session with
    | some sid =>
      some { s with
        session := none, ui := .detach :: .cancelCapture sid :: .endAuthorization sid :: rest }
    | none => some { s with ui := .detach :: rest }
  | .cancelCapture sid, rest => some { s.cancelCapture sid with ui := rest }
  | .endAuthorization sid, rest => some { s.endAuthorization sid with ui := rest }
  | .clear, rest => some { s with session := none, ui := rest }
  | .assign sid, rest => some { s with session := some sid, ui := rest }
  | .detach, rest =>
    match s.installedBridge with
    | some b => some { s with installedBridge := none, ui := .close b :: rest }
    | none => some { s with ui := rest }
  | .close b, rest => (s.close b).map fun s => { s with ui := rest }
  | .check camera, rest =>
    if s.installedBridge.isSome then some { s with ui := rest }
    else
      match s.session with
      | none => some { s with ui := rest }
      | some sid =>
        if !s.isAuthorized sid then some { s with ui := rest }
        else if !camera then some { s with ui := .detach :: rest }
        else some { s with ui := .install sid :: rest }
  | .install sid, rest =>
    some { s with
      bridges := s.bridges ++ [{ session := sid, phase := .created, closed := false }]
      installedBridge := some s.bridges.length
      ui := .start s.bridges.length :: rest }
  | .start b, rest =>
    match s.bridges[b]? with
    | none => none
    | some bridge =>
      if bridge.closed || !s.isAuthorized bridge.session then
        some { s.setBridge b fun bridge => { bridge with phase := .failed } with
          ui := .detach :: rest }
      else
        some { s.setBridge b fun bridge => { bridge with phase := .starting } with
          ui := .started b :: rest }
  | .started b, rest =>
    if starts then
      some { s.setBridge b fun bridge => { bridge with phase := .running } with ui := rest }
    else
      some { s.setBridge b fun bridge => { bridge with phase := .failed } with
        ui := .detach :: rest }

/-- The next access of the teardown thread. -/
def Activity.teardown (s : Activity) : Option (Activity × List Event) :=
  match s.worker with
  | .idle =>
    match s.jobs with
    | [] => none
    | sid :: jobs =>
      if s.session = some sid then some ({ s with jobs, worker := .owned sid }, [])
      else some ({ s with jobs }, [])
  | .owned sid =>
    match s.installedBridge with
    | some b => some ({ s with installedBridge := none, worker := .closing sid b }, [])
    | none => some ({ s with worker := .idle }, [])
  | .closing sid b =>
    (s.close b).map fun s => ({ s with worker := .idle }, [.tornDown sid b])

/-- One step of the Activity. -/
def step (s : Activity) : Label → Option (Activity × List Event)
  | .connect =>
    some ({ s with
      sessions := s.sessions ++
        [{ isAuthorized := false, ended := false, captureCancelled := false }] }, [])
  | .grant sid =>
    match s.sessions[sid]? with
    | some session =>
      if session.ended then none
      else some ({ s with
        sessions := s.sessions.modify sid fun session =>
          { session with isAuthorized := true } }, [])
    | none => none
  | .endAuthorization sid => some (s.endAuthorization sid, [])
  | .cancelCapture sid => some (s.cancelCapture sid, [])
  | .call call =>
    match s.ui with
    | [] => some ({ s with ui := call.program s }, [])
    | _ => none
  | .ui starts =>
    match s.ui with
    | [] => none
    | op :: rest => (s.run starts op rest).map fun s => (s, [])
  | .worker => s.teardown

/-- Nothing was opened yet. -/
def fresh : Activity :=
  { sessions := [], bridges := [], session := none, installedBridge := none, ui := [], jobs := [],
    worker := .idle }

/-- The Activity from its start. -/
def system : EventSystem Activity Label Event where
  start s := s = fresh
  step := step

end CaptureCancellation
end MobileWebcamBridge
