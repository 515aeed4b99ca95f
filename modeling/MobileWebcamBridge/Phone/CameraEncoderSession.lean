import MobileWebcamBridge.Lib.EventSystem

/-!
# `CameraEncoderSession.kt`: one camera, its capture session and its encoder

Camera2 calls back on the camera thread while another thread closes the session. `system`
interleaves the two, one access to shared state at a time. `CameraBridgeController` holds its
`lifecycle` lock over `start`, so `start` is one step and no `close` from outside comes before it.

A device or a capture session throws on every call after its `close`; closing either ends the
repeating request.
-/

set_option autoImplicit false

namespace MobileWebcamBridge
namespace CameraEncoderSession

/-- What comes next in a call of `close`. -/
inductive Close
  | compareAndSet
  | stopRepeating
  | abortCaptures
  | closeSession
  | clearSession
  | closeCamera
  | clearCamera
  | closeEncoder
  | clearEncoder
  | removeCallbacks
  | quitSafely
  | join
  | returned
deriving DecidableEq, Repr

/-- What Camera2 reports. -/
inductive Callback
  | onOpened
  | onDisconnected
  | onError
  | onConfigured
  | onConfigureFailed
deriving DecidableEq, Repr

/-- What comes next on the camera thread. -/
inductive Thread
  | idle
  /-- The first statement of a callback. -/
  | entered (callback : Callback)
  /-- `onOpened` has found `closed` false and asks `authorized`. -/
  | openedAuthorized
  | assignCamera
  | createCaptureSession
  /-- `onConfigured` has found `closed` false and asks `authorized`. -/
  | configuredAuthorized
  | assignSession
  | createCaptureRequest
  | setRepeatingRequest
  | onCameraStarted
  /-- `listener.onCameraError` in the `catch` of `onConfigured`. -/
  | onCameraError
  | closeDevice (retest : Bool)
  | closeSession (retest : Bool)
  /-- `if (!closed.get()) close()` -/
  | retest
  | closing (close : Close)
deriving DecidableEq, Repr

/-- A session between its controller, the camera thread and Camera2. -/
structure Session where
  started : Bool
  closed : Bool
  /-- Whether the field holds the device. -/
  camera : Bool
  captureSession : Bool
  encoder : Bool
  encoderOpen : Bool
  /-- `openCamera` has been called. -/
  requested : Bool
  delivered : List Callback
  deviceClosed : Bool
  /-- `createCaptureSession` has returned. -/
  created : Bool
  sessionClosed : Bool
  repeating : Bool
  callbacksRemoved : Bool
  quit : Bool
  thread : Thread
  /-- The thread that calls `close` from outside. -/
  closer : Option Close
deriving DecidableEq, Repr

/-- How `start` ends. -/
inductive Outcome
  /-- It throws before the encoder runs. -/
  | failed
  /-- `openCamera` throws. -/
  | refused
  | opening
deriving DecidableEq, Repr

/-- The steps of the three threads. -/
inductive Label
  | start (outcome : Outcome)
  | deliver (callback : Callback)
  /-- The next statement of the camera thread; `ok` is the answer of `authorized`, and false where
  the statement's call throws. -/
  | camera (ok : Bool)
  | close
  /-- The next statement of the other thread's `close`. -/
  | closer (ok : Bool)
deriving DecidableEq, Repr

namespace Session

/-- The device is closed, and its repeating request with it. -/
def closeDevice (s : Session) : Session := { s with deviceClosed := true, repeating := false }

/-- The capture session is closed. -/
def closeCaptureSession (s : Session) : Session :=
  { s with sessionClosed := true, repeating := false }

/-- One statement of `close`. -/
def closeStep (s : Session) (ok : Bool) : Close → Session × Close
  | .compareAndSet =>
    if s.closed then (s, .returned) else ({ s with closed := true }, .stopRepeating)
  | .stopRepeating =>
    (if s.captureSession && ok then { s with repeating := false } else s, .abortCaptures)
  | .abortCaptures => (s, .closeSession)
  | .closeSession => (if s.captureSession then s.closeCaptureSession else s, .clearSession)
  | .clearSession => ({ s with captureSession := false }, .closeCamera)
  | .closeCamera => (if s.camera then s.closeDevice else s, .clearCamera)
  | .clearCamera => ({ s with camera := false }, .closeEncoder)
  | .closeEncoder => (if s.encoder then { s with encoderOpen := false } else s, .clearEncoder)
  | .clearEncoder => ({ s with encoder := false }, .removeCallbacks)
  | .removeCallbacks => ({ s with callbacksRemoved := true }, .quitSafely)
  | .quitSafely => ({ s with quit := true }, .join)
  -- The camera thread does not wait for itself, and the other thread waits a second at most.
  | .join => (s, .returned)
  | .returned => (s, .returned)

/-- The callback returns. -/
def finish (s : Session) : Session := { s with thread := .idle }

/-- The camera thread calls `close`. -/
def callClose (s : Session) : Session := { s with thread := .closing .compareAndSet }

/-- One statement of the camera thread. -/
def cameraStep (s : Session) (ok : Bool) : Option Session :=
  match s.thread with
  | .idle => none
  | .entered .onOpened =>
    some { s with thread := if s.closed then .closeDevice true else .openedAuthorized }
  | .openedAuthorized => some { s with thread := if ok then .assignCamera else .closeDevice true }
  | .assignCamera => some { s with camera := true, thread := .createCaptureSession }
  | .createCaptureSession =>
    -- What it throws is not caught: the callback ends by it.
    some { s.finish with created := s.created || (ok && !s.deviceClosed) }
  | .entered .onDisconnected | .entered .onError =>
    some { s with thread := .closeDevice false }
  | .closeDevice retest =>
    some { s.closeDevice with thread := if retest then .retest else .closing .compareAndSet }
  | .entered .onConfigured =>
    some { s with thread := if s.closed then .closeSession true else .configuredAuthorized }
  | .configuredAuthorized =>
    some { s with thread := if ok then .assignSession else .closeSession true }
  | .assignSession => some { s with captureSession := true, thread := .createCaptureRequest }
  | .createCaptureRequest =>
    some { s with
      thread := if ok && !s.deviceClosed then .setRepeatingRequest else .onCameraError }
  | .setRepeatingRequest =>
    if ok && !s.deviceClosed && !s.sessionClosed then
      some { s with repeating := true, thread := .onCameraStarted }
    else some { s with thread := .onCameraError }
  | .onCameraStarted => some (if ok then s.finish else { s with thread := .onCameraError })
  | .onCameraError => some s.callClose
  | .entered .onConfigureFailed => some { s with thread := .closeSession false }
  | .closeSession retest =>
    some { s.closeCaptureSession with
      thread := if retest then .retest else .closing .compareAndSet }
  | .retest => some (if s.closed then s.finish else s.callClose)
  | .closing close =>
    match s.closeStep ok close with
    | (s, .returned) => some s.finish
    | (s, close) => some { s with thread := .closing close }

/-- Camera2 delivers each callback at most once, and a `Handler` nothing once its messages are
removed and its thread has quit. -/
def delivers (s : Session) (callback : Callback) : Bool :=
  s.requested && s.thread == .idle && !(s.callbacksRemoved && s.quit) &&
    !s.delivered.contains callback &&
    (match callback with
      | .onOpened | .onDisconnected | .onError => true
      | .onConfigured | .onConfigureFailed => s.created)

/-- What `start` has done when it returns or throws. -/
def start (s : Session) : Outcome → Session
  | .failed => { s with started := true, closer := some .compareAndSet }
  | .refused =>
    { s with
      started := true, encoder := true, encoderOpen := true, requested := true,
      closer := some .compareAndSet }
  | .opening =>
    { s with started := true, encoder := true, encoderOpen := true, requested := true }

end Session

/-- One statement, one callback, or one wait that ends. -/
def step (s : Session) : Label → Option (Session × List Empty)
  | .start outcome => if s.started then none else some (s.start outcome, [])
  | .deliver callback =>
    if s.delivers callback then
      some ({ s with delivered := callback :: s.delivered, thread := .entered callback }, [])
    else none
  | .camera ok => (s.cameraStep ok).map fun s => (s, [])
  | .close =>
    if s.started && s.closer.isNone then some ({ s with closer := some .compareAndSet }, [])
    else none
  | .closer ok =>
    match s.closer with
    | none | some .returned => none
    | some close =>
      match s.closeStep ok close with
      | (s, next) => some ({ s with closer := some next }, [])

/-- A session that has been constructed. -/
def fresh : Session :=
  { started := false, closed := false, camera := false, captureSession := false, encoder := false,
    encoderOpen := false, requested := false, delivered := [], deviceClosed := false,
    created := false, sessionClosed := false, repeating := false, callbacksRemoved := false,
    quit := false, thread := .idle, closer := none }

/-- A session from its construction. -/
def system : EventSystem Session Label Empty where
  start s := s = fresh
  step := step

end CameraEncoderSession
end MobileWebcamBridge
