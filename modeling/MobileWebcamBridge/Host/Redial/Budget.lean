import MobileWebcamBridge.Host.Redial
import MobileWebcamBridge.Lib.Trace

/-!
# What the automatic dials are paid from

A run of the loop told in notes: the plans it arms, the waits, the dials and the device lists. The
ledger is what of the notes so far decides on the next one.
-/

set_option autoImplicit false

namespace MobileWebcamBridge
namespace HostRedial

open HostSession (State)

/-- What a step does about the budget of attempts. -/
inductive Note
  /-- A frame that sees the stream, a press of Connect, or the switch to Wi-Fi. -/
  | reset
  | armed (attempt : ℕ)
  /-- A failure after the eighth plan, and not one that the loop waits out. -/
  | exhausted
  /-- The loop goes on waiting for a phone, with `auto_retries` before and after. -/
  | waits (before after : ℕ)
  | dialled (transport : Transport)
  /-- A press of Connect. -/
  | connected (transport : Transport)
  | listed (absent : Bool)
  /-- A press of Disconnect. -/
  | stopped
  /-- A press of the button that switches to Wi-Fi. -/
  | switching
deriving DecidableEq, Repr

namespace Note

end Note

/-! ## The notes of a step -/

namespace App

/-- A call of `auto_connect`. -/
def connectNotes (o : Outside) (a : App) : List Note :=
  if a.session.running then []
  else
    match a.transport with
    | .usb =>
      if !a.usbWaitForDevice && a.autoRetries == 0 then []
      else if usbMayDial a.usbWaitForDevice a.absent (a.absent || a.usbAbsentSeen) then
        [.dialled .usb]
      else [.waits a.autoRetries (a.autoConnect o).1.autoRetries]
    | .lan => if o.paired then [.dialled .lan] else []

/-- The notes of `observe`. -/
def observeNotes (L : Lowercase) (now : ℕ) (a : App) : List Note :=
  match a.session.state with
  | .waiting | .streaming => [.reset]
  | .failed error =>
    if a.autoAttemptPending || a.recoverFromDrop then
      match planRetry L
        { suppressed := a.autoRetrySuppressed
          pendingOrLive := true
          retries := a.autoRetries
          usb := a.transport == .usb
          deviceAbsent := a.absent
          error } with
      | .dial attempt _ => [.armed attempt]
      | .exhausted => [.exhausted]
      | .stop => if AUTO_RETRY_LIMIT ≤ a.autoRetries then [.exhausted] else []
      | .waitForDevice => [.waits a.autoRetries (a.observe L now).autoRetries]
      | .ignore => []
    else []
  | _ => []

/-- The notes of the deferred switch to Wi-Fi. -/
def switchNotes (o : Outside) (a : App) : List Note :=
  if a.pendingSwitchToLan && !a.session.running then
    .reset :: connectNotes o
      { a with
        pendingSwitchToLan := false
        transport := .lan
        autoRetries := 0
        autoRetrySuppressed := false }
  else []

/-- The notes of the timer. -/
def retryNotes (o : Outside) (a : App) : List Note :=
  if !a.autoConnectAttempted then connectNotes o { a with autoConnectAttempted := true }
  else
    match a.autoRetry with
    | some time => if time ≤ o.now then connectNotes o { a with autoRetry := none } else []
    | none => []

/-- The notes of a device list. -/
def devicesNotes (list : List Candidate) (o : Outside) (a : App) : List Note :=
  let a := a.reconcileSelection list
  .listed a.absent ::
    if a.usbWaitForDevice && a.selected.isSome && !a.selectionLost && !a.session.running &&
        !a.autoRetrySuppressed then
      connectNotes o a
    else []

/-- The notes of a press. -/
def pressNotes (a : App) : Press → List Note
  | .switchToWifi => [.switching]
  | .connect _ _ => [.reset, .connected a.transport]
  | .disconnect => [.stopped]
  | .transport _ | .choose _ | .replaceKey _ => []

end App

/-- The notes of a step of the frame. -/
def Gui.notes (L : Lowercase) (g : Gui) : Label → List Note
  | .observe now => g.app.observeNotes L now
  | .switch o => g.app.switchNotes o
  | .retry o => g.app.retryNotes o
  | .poll _ => []
  | .devices list o => g.app.devicesNotes list o
  | .ui none => []
  | .ui (some press) => g.app.pressNotes press

/-- The loop, telling notes. -/
def noted (L : Lowercase) : EventSystem Gui Label Note where
  start := (system L).start
  step g l := (g.step L l).map fun p => (p.1, g.notes L l)

/-! ## What is claimed of a run -/

/-- What is left of the notes so far. -/
structure Ledger where
  /-- The plans since the last reset. -/
  plans : ℕ
  /-- There was a failure after the eighth plan since the last reset. -/
  exhausted : Bool
  /-- A plan was armed since the last dial. -/
  paid : Bool
  /-- A list was without the selected phone since the last dial. -/
  left : Bool
  /-- The same since the last dial over USB. -/
  leftUsb : Bool
  /-- There was a dial over Wi-Fi since the last one over USB. -/
  wifi : Bool
  /-- Disconnect was pressed, and neither Connect nor the switch since. -/
  stopped : Bool

namespace Ledger

/-- No note so far. -/
def empty : Ledger where
  plans := 0
  exhausted := false
  paid := false
  left := false
  leftUsb := false
  wifi := false
  stopped := false

/-- A dial uses up what allowed it. -/
def dial (l : Ledger) : Transport → Ledger
  | .usb => { l with paid := false, left := false, leftUsb := false, wifi := false }
  | .lan => { l with paid := false, left := false, wifi := true }

/-- One note more. -/
def after (l : Ledger) : Note → Ledger
  | .reset => { l with plans := 0, exhausted := false }
  | .armed _ => { l with plans := l.plans + 1, paid := true }
  | .exhausted => { l with exhausted := true }
  | .waits _ _ => l
  | .dialled transport => l.dial transport
  | .connected transport => { l.dial transport with stopped := false }
  | .listed absent => { l with left := l.left || absent, leftUsb := l.leftUsb || absent }
  | .stopped => { l with stopped := true }
  | .switching => { l with stopped := false }

/-- Whether a note is one that the ledger has a payment for. -/
def Allows (l : Ledger) : Note → Prop
  | .armed _ => l.plans < AUTO_RETRY_LIMIT
  | .exhausted => l.plans = AUTO_RETRY_LIMIT
  | .waits before after => after = before
  | .dialled transport =>
    l.exhausted = false ∧ l.stopped = false ∧
      (transport = .usb → l.paid = true ∨ l.left = true)
  | _ => True

end Ledger

/-- The ledger of a run. -/
def ledger (tr : List Note) : Ledger := tr.foldl Ledger.after .empty

/-- Every note was allowed when it was made. -/
def Covered (tr : List Note) : Prop := Trace.Each (fun x e => (ledger x).Allows e) tr

variable {tr x y : List Note} {l : Ledger}

/-- The ledger of two parts. -/
theorem ledger_append (x y : List Note) : ledger (x ++ y) = y.foldl Ledger.after (ledger x) :=
  List.foldl_append

end HostRedial
end MobileWebcamBridge
