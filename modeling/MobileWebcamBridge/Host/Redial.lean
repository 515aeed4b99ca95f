import MobileWebcamBridge.Host.ClientAuth.Exchange
import MobileWebcamBridge.Host.Session
import MobileWebcamBridge.Lib.EventSystem
import MobileWebcamBridge.Lib.Text

/-!
# `gui.rs`: when the loop dials by itself

The part of `App` that decides on a dial. Of the session it has what the loop sees, the state and
whether a worker or the setup helper runs; what `poll` makes of it is handed in, and so are the
device lists, the clock and the outcome of `connect`. A frame is `logic`, step by step, and a pass
of `ui`, which takes at most one press. Times are milliseconds.
-/

set_option autoImplicit false

namespace MobileWebcamBridge
namespace HostRedial

open HostSession (State)
open HostControl (DeviceId)

/-! ## The texts -/

/-- `str::to_lowercase`, of which only what it does to ASCII counts. -/
structure Lowercase where
  toLowercase : List Char → List Char
  ascii : ∀ text, (∀ c ∈ text, c.toNat < 128) → toLowercase text = text.map Char.toLower

/-- What the worker reports of an error. -/
def describeReceiveFailure (message : String) : String :=
  String.ofList
    ((Text.replace "incomplete frame deadline expired".toList
      "incomplete AMB1 frame deadline expired".toList message.toList).take 2048)

/-- The message of a refusal, from the wire code to the session's state. -/
def refusal (reason : UInt8) : String := describeReceiveFailure (HostAuth.reasonText reason)

/-- The phrases of errors that another attempt will not get over. -/
def HOPELESS : List String :=
  ["fingerprint", "access key", "explicit recovery", "pairing", "not authorized", "unauthorized",
    "v4l2loopback", "host setup is not included", "setup request failed", "access denied", "winusb",
    "does not support android open accessory"]

section

variable (L : Lowercase)

/-- None of the phrases occurs in the error. -/
def autoRetryIsUseful (error : String) : Bool :=
  !HOPELESS.any fun needle => Text.contains needle.toList (L.toLowercase error.toList)

/-- The error asks for the cable. -/
def wantsReplug (error : String) : Bool :=
  Text.contains "unplug".toList (L.toLowercase error.toList) ||
    Text.contains "selected usb device disconnected".toList (L.toLowercase error.toList) ||
    Text.contains "physical port".toList (L.toLowercase error.toList)

end

/-! ## The plan -/

/-- The most automatic attempts after a failure. -/
def AUTO_RETRY_LIMIT : ℕ := 8

/-- Where `saturating_add` stops. -/
def U32_MAX : ℕ := 4294967295

/-- In seconds. -/
def autoRetryDelay (attempt : ℕ) : ℕ :=
  match attempt with
  | 0 | 1 => 2
  | 2 => 4
  | 3 => 8
  | _ => 15

/-- What a plan is made from. -/
structure RetryInput where
  suppressed : Bool
  pendingOrLive : Bool
  retries : ℕ
  usb : Bool
  deviceAbsent : Bool
  error : String

/-- What to do about a failure. -/
inductive RetryPlan
  | ignore
  | stop
  | exhausted
  | waitForDevice
  | dial (attempt delaySecs : ℕ)
deriving DecidableEq, Repr

/-- Whether a phone that is listed may be dialled, or has to be seen gone first. -/
def usbMayDial (waitForDevice absent absentSeen : Bool) : Bool :=
  if absent then false else if waitForDevice && !absentSeen then false else true

/-- The plan for a failure. -/
def planRetry (L : Lowercase) (input : RetryInput) : RetryPlan :=
  if !input.pendingOrLive then .ignore
  else if input.suppressed || !autoRetryIsUseful L input.error then .stop
  else if input.usb && (input.deviceAbsent || wantsReplug L input.error) then .waitForDevice
  else
    let attempt := min (input.retries + 1) U32_MAX
    if AUTO_RETRY_LIMIT < attempt then .exhausted else .dial attempt (autoRetryDelay attempt)

/-! ## The loop -/

/-- `settings.transport`, which `validate` holds to these two. -/
inductive Transport
  | usb
  | lan
deriving DecidableEq, Repr

/-- The session as the loop sees it. -/
structure Link where
  running : Bool
  state : State
deriving DecidableEq, Repr

/-- A device of a list: what `reconcile_selection` reads of it. -/
structure Candidate where
  id : DeviceId
  suggested : Bool
deriving DecidableEq, Repr

/-- The fields of the window that decide when it dials. -/
structure App where
  transport : Transport
  session : Link
  selected : Option DeviceId
  selectionLost : Bool
  autoConnectAttempted : Bool
  autoRetry : Option ℕ
  autoRetries : ℕ
  autoRetrySuppressed : Bool
  autoAttemptPending : Bool
  recoverFromDrop : Bool
  usbWaitForDevice : Bool
  usbAbsentSeen : Bool
  pendingSwitchToLan : Bool
deriving DecidableEq, Repr

/-- What a run tells: a refusal, an automatic dial, and what the user does. -/
inductive Event
  | refused (reason : UInt8)
  | dialled
  | connectPressed
  | transportSwitched
deriving DecidableEq, Repr

/-- What a call of `auto_connect` finds: the clock, whether the pairing is complete, and the error
of `connect`, if there is one. -/
structure Outside where
  now : ℕ
  paired : Bool
  error : Option String
deriving DecidableEq, Repr

/-- The session after `connect`. -/
def Link.connect (error : Option String) : Link :=
  match error with
  | none => ⟨true, .connecting⟩
  | some error => ⟨false, .failed error⟩

/-- `Session::stop`, as far as dialling can tell. -/
def Link.stop (l : Link) : Link := if l.running then { l with state := .stopping } else l

namespace App

/-- `self.selected.is_none() || self.selection_lost`. -/
def absent (a : App) : Bool := a.selected.isNone || a.selectionLost

/-- The end of `auto_connect`. -/
def dial (o : Outside) (a : App) : App × List Event :=
  ({ a with
      autoAttemptPending := true
      session := Link.connect o.error
      autoRetry := if o.error = none then none else a.autoRetry },
    [.dialled])

/-- A dial that the user did not ask for. -/
def autoConnect (o : Outside) (a : App) : App × List Event :=
  if a.session.running then (a, [])
  else
    match a.transport with
    | .usb =>
      if !a.usbWaitForDevice && a.autoRetries == 0 then (a, [])
      else
        let absent := a.absent
        let a := { a with usbAbsentSeen := absent || a.usbAbsentSeen }
        if !usbMayDial a.usbWaitForDevice absent a.usbAbsentSeen then
          ({ a with
              usbWaitForDevice := absent || a.usbWaitForDevice
              autoRetry :=
                if a.autoRetrySuppressed then a.autoRetry
                else some (o.now + 1000 * autoRetryDelay 1) },
            [])
        else dial o { a with usbWaitForDevice := false, usbAbsentSeen := false }
    | .lan => if o.paired then dial o a else (a, [])

/-- A failure is planned for: a timer, the wait for a device, or nothing. -/
def armRetry (L : Lowercase) (now : ℕ) (error : String) (a : App) : App :=
  match planRetry L
    { suppressed := a.autoRetrySuppressed
      pendingOrLive := true
      retries := a.autoRetries
      usb := a.transport == .usb
      deviceAbsent := a.absent
      error } with
  | .ignore => a
  | .stop => { a with autoRetry := none, usbWaitForDevice := false, usbAbsentSeen := false }
  | .exhausted =>
    { a with
      autoRetry := none
      usbWaitForDevice := false
      usbAbsentSeen := false
      autoRetries := AUTO_RETRY_LIMIT + 1 }
  | .waitForDevice =>
    { a with
      usbWaitForDevice := true
      usbAbsentSeen := a.absent || a.usbAbsentSeen
      autoRetry := some (now + 1000 * autoRetryDelay 1) }
  | .dial attempt delaySecs =>
    { a with
      usbWaitForDevice := false
      usbAbsentSeen := false
      autoRetries := attempt
      autoRetry := some (now + 1000 * delaySecs) }

/-- The beginning of `logic`: what the session reports. -/
def observe (L : Lowercase) (now : ℕ) (a : App) : App :=
  match a.session.state with
  | .waiting | .streaming =>
    { a with
      autoAttemptPending := false
      autoRetries := 0
      autoRetry := none
      recoverFromDrop := true
      usbWaitForDevice := false
      usbAbsentSeen := false }
  | .connecting | .approvalPending _ =>
    { a with autoAttemptPending := false, recoverFromDrop := true, autoRetry := none }
  | .failed error =>
    if a.autoAttemptPending || a.recoverFromDrop then
      armRetry L now error { a with autoAttemptPending := false, recoverFromDrop := false }
    else a
  | _ => a

/-- The switch to Wi-Fi that waits for the session to stop. -/
def switch (o : Outside) (a : App) : App × List Event :=
  if a.pendingSwitchToLan && !a.session.running then
    autoConnect o
      { a with
        pendingSwitchToLan := false
        transport := .lan
        autoRetries := 0
        autoRetrySuppressed := false }
  else (a, [])

/-- The attempt of a launch, and the timer. -/
def retry (o : Outside) (a : App) : App × List Event :=
  if !a.autoConnectAttempted then autoConnect o { a with autoConnectAttempted := true }
  else
    match a.autoRetry with
    | some time => if time ≤ o.now then autoConnect o { a with autoRetry := none } else (a, [])
    | none => (a, [])

/-- `reconcile_selection`. -/
def reconcileSelection (devices : List Candidate) (a : App) : App :=
  let suggested := devices.filter (·.suggested)
  match a.selected with
  | some current =>
    if devices.any (·.id = current) then { a with selectionLost := false }
    else
      match devices.find? fun c => c.id.bus = current.bus ∧ c.id.ports = current.ports with
      | some samePort => { a with selected := some samePort.id, selectionLost := false }
      | none =>
        match suggested with
        | [only] =>
          if a.selectionLost then { a with selected := some only.id, selectionLost := false }
          else { a with selectionLost := true }
        | _ => { a with selectionLost := true }
  | none =>
    match suggested with
    | [only] => if a.selectionLost then a else { a with selected := some only.id }
    | _ => a

/-- A device list at the end of `logic`. -/
def devices (list : List Candidate) (o : Outside) (a : App) : App × List Event :=
  let a := a.reconcileSelection list
  if a.usbWaitForDevice && a.selected.isSome && !a.selectionLost && !a.session.running &&
      !a.autoRetrySuppressed then
    autoConnect o a
  else (a, [])

end App

/-! ## The session -/

/-- An attempt that goes on, or the stream. -/
def live : State → Bool
  | .connecting | .approvalPending _ | .waiting | .streaming => true
  | _ => false

/-- What `poll` may come to, and whether a worker still runs after it. -/
inductive Report
  | quiet
  | shows (state : State)
  /-- The worker's error event of a rejected authorization. -/
  | refused (reason : UInt8) (running : Bool)
  | failed (message : String) (running : Bool)
  | ended (running : Bool)
deriving DecidableEq, Repr

/-- `none` is what a session does not do: without a worker or a helper nothing changes, and one that
has failed or is stopping starts nothing. -/
def Link.poll (l : Link) : Report → Option Link
  | .quiet => some l
  | .shows state => if l.running && live l.state && live state then some ⟨true, state⟩ else none
  | .refused reason running =>
    if l.running && live l.state then some ⟨running, .failed (refusal reason)⟩ else none
  | .failed message running => if l.running then some ⟨running, .failed message⟩ else none
  | .ended running =>
    if l.running then
      match l.state with
      | .failed message => some ⟨running, .failed message⟩
      | _ => some (if running then ⟨true, .stopping⟩ else ⟨false, .idle⟩)
    else none

/-- What `poll` tells of a report. -/
def Report.events : Report → List Event
  | .refused reason _ => [.refused reason]
  | _ => []

/-! ## The user -/

/-- What the user may press. -/
inductive Press
  | switchToWifi
  | transport (mode : Transport)
  | choose (id : DeviceId)
  | connect (paired : Bool) (error : Option String)
  | disconnect
  /-- With what `replace_stored` comes to. -/
  | replaceKey (error : Option String)
deriving DecidableEq, Repr

namespace App

/-- `none` is a button that is not shown or not enabled. -/
def press (a : App) : Press → Option (App × List Event)
  | .switchToWifi =>
    some ({ a with session := a.session.stop, pendingSwitchToLan := true }, [.transportSwitched])
  | .transport mode =>
    if a.session.running then none
    else
      some ({ a with transport := mode, session := { a.session with state := .idle } },
        if mode = a.transport then [] else [.transportSwitched])
  | .choose id =>
    if a.session.running then none
    else some ({ a with selected := some id, selectionLost := false }, [])
  | .connect paired error =>
    let allowed := match a.transport with
      | .lan => paired
      | .usb => !a.absent
    if a.session.running || !allowed then none
    else
      some
        ({ a with
            autoRetrySuppressed := false
            autoRetries := 0
            autoAttemptPending := true
            usbWaitForDevice := false
            usbAbsentSeen := false
            recoverFromDrop := false
            session := Link.connect error },
          [.connectPressed])
  | .disconnect =>
    if a.session.running then
      some
        ({ a with
            autoRetry := none
            autoRetrySuppressed := true
            recoverFromDrop := false
            usbWaitForDevice := false
            usbAbsentSeen := false
            autoAttemptPending := false
            session := a.session.stop },
          [])
    else none
  | .replaceKey error =>
    match a.session.state with
    | .failed message =>
      if Text.contains "explicit recovery required".toList message.toList then
        some ({ a with session := { a.session with state := error.elim .idle .failed } }, [])
      else none
    | _ => none

end App

/-! ## The frames -/

/-- The next step of the frame. -/
inductive Phase
  | observe
  | switch
  | retry
  | poll
  | rest
deriving DecidableEq, Repr

/-- The steps of a frame. -/
inductive Label
  | observe (now : ℕ)
  | switch (o : Outside)
  | retry (o : Outside)
  | poll (report : Report)
  | devices (list : List Candidate) (o : Outside)
  | ui (press : Option Press)
deriving DecidableEq, Repr

/-- The window, and where in the frame it is. -/
structure Gui where
  phase : Phase
  app : App
deriving DecidableEq, Repr

/-- One step of the frame, in the order of `logic` and `ui`. -/
def Gui.step (L : Lowercase) (g : Gui) : Label → Option (Gui × List Event)
  | .observe now => if g.phase = .observe then some (⟨.switch, g.app.observe L now⟩, []) else none
  | .switch o =>
    if g.phase = .switch then some (⟨.retry, (g.app.switch o).1⟩, (g.app.switch o).2) else none
  | .retry o =>
    if g.phase = .retry then some (⟨.poll, (g.app.retry o).1⟩, (g.app.retry o).2) else none
  | .poll report =>
    if g.phase = .poll then
      (g.app.session.poll report).map fun session =>
        (⟨.rest, { g.app with session }⟩, report.events)
    else none
  | .devices list o =>
    if g.phase = .rest then some (⟨.rest, (g.app.devices list o).1⟩, (g.app.devices list o).2)
    else none
  | .ui none => if g.phase = .rest then some (⟨.observe, g.app⟩, []) else none
  | .ui (some press) =>
    if g.phase = .rest then (g.app.press press).map fun p => (⟨.observe, p.1⟩, p.2) else none

/-- `App` as `build` leaves it. -/
def launched (transport : Transport) : App where
  transport := transport
  session := ⟨false, .idle⟩
  selected := none
  selectionLost := false
  autoConnectAttempted := false
  autoRetry := none
  autoRetries := 0
  autoRetrySuppressed := false
  autoAttemptPending := false
  recoverFromDrop := false
  usbWaitForDevice := false
  usbAbsentSeen := false
  pendingSwitchToLan := false

/-- The frames of a window from its launch. -/
def system (L : Lowercase) : EventSystem Gui Label Event where
  start g := ∃ transport, g = ⟨.observe, launched transport⟩
  step := Gui.step L

end HostRedial
end MobileWebcamBridge
