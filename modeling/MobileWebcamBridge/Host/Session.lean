import MobileWebcamBridge.Host.Control
import MobileWebcamBridge.Host.Quality.Client

/-!
# `session.rs`: the GUI's side of a worker

The session as `start` leaves it with a worker running; the setup helper that Linux may run in
its place and the capture fixture are left out. The thread that reads the worker's events and the
thread that writes its commands share `events`, `pending` and `stopFlag` with it. `poll` is
`drain`, which handles one event after another, and then `settle`. Times are milliseconds.
-/

set_option autoImplicit false

namespace MobileWebcamBridge
namespace HostSession

open HostControl
open HostQuality hiding Event

/-- What the window shows of its session. -/
inductive State
  | idle
  | connecting
  | approvalPending (clientId : List Char)
  | waiting
  | streaming
  | stopping
  | failed (message : String)
deriving DecidableEq, Repr

/-- The session has failed. -/
def State.isFailed : State → Bool
  | .failed _ => true
  | _ => false

/-- The one-slot commands that wait for the writer. -/
structure Pending where
  quality : Option Command
  transform : Option Command

/-- The next command for the worker: a request before a transform. -/
def Pending.take (p : Pending) : Pending × Option Command :=
  match p.quality with
  | some command => ({ p with quality := none }, some command)
  | none => ({ p with transform := none }, p.transform)

/-- What `Child::try_wait` tells. -/
inductive Waited
  | exited (success : Bool) (status : String)
  | running
  | failed (error : String)
deriving DecidableEq, Repr

/-- The fields of a session that its calls read and write. -/
structure Session where
  child : Bool
  events : Bool
  stopFlag : Bool
  pending : Pending
  deadline : Option ℕ
  qualityDeadline : Option ℕ
  writer : Bool
  pairingInfo : Option HostWire.PairingInfo
  state : State
  stats : Option Stats
  statsAt : Option ℕ
  usbPermission : Option DeviceId
  quality : Client

/-- `Ipv4Addr::from_str` of one of the four numbers: one to three digits, no leading zero. -/
def parseOctet (digits : List Char) : Option UInt8 :=
  if digits = [] ∨ 3 < digits.length ∨ (digits.head? = some '0' ∧ 1 < digits.length) then none
  else
    match digits.foldlM (HostSettings.pushDigit 255) 0 with
    | .ok n => some (UInt8.ofNat n)
    | .error _ => none

/-- `Ipv4Addr::from_str`. -/
def parseIpv4 (address : List Char) : Option (UInt8 × UInt8 × UInt8 × UInt8) :=
  match (address.splitOn '.').mapM parseOctet with
  | some [a, b, c, d] => some (a, b, c, d)
  | _ => none

/-- `apply_expiry`. -/
def applyExpiry (now : ℕ) : ℕ := now + APPLY_DEADLINE_MS

/-- Frames have gone to an application. -/
def live (stats : Stats) : Bool := stats.active && decide (0 < stats.submitted)

/-- Frames of the capture before may have the size of the one under way: statistics tell what is
applied only while no request waits for its result. -/
def labelled (client : Client) (stats : Stats) : Client :=
  if live stats && client.pending.isNone then
    { client with
      applied := some (stats.width.toUInt16, stats.height.toUInt16, stats.targetFps.toUInt16) }
  else client

namespace Session

variable (aspectError : Mode → ℚ)

/-- A session without a worker. -/
def new : Session where
  child := false
  events := false
  stopFlag := false
  pending := ⟨none, none⟩
  deadline := none
  qualityDeadline := none
  writer := false
  pairingInfo := none
  state := .idle
  stats := none
  statsAt := none
  usbPermission := none
  quality := .new .default

/-- What `start` leaves once the worker is spawned. -/
def start (s : Session) (settings : HostSettings.Settings) : Session :=
  { s with
    stopFlag := false
    pending := ⟨none, none⟩
    stats := none
    statsAt := none
    usbPermission := none
    quality := .new ⟨settings.qualityWidth, settings.qualityHeight, settings.qualityFps⟩
    qualityDeadline := none
    writer := true
    child := true
    events := true
    state := .connecting }

/-- `queue_quality`, before it unparks the writer. -/
def queueQuality (s : Session) (mode : Mode) : Session :=
  { s with
    pending :=
      { s.pending with quality := some (.prepareQuality mode.width mode.height mode.fps) } }

/-- With what it returns, the mode it queued. -/
def prepareQuality (s : Session) (now : ℕ) (width height fps : UInt16) :
    Session × Bool × Option Mode :=
  let wish : Wish := ⟨width, height, fps⟩
  if !s.child || s.state == .stopping || s.state.isFailed || s.quality.pending.isSome ||
      !s.quality.ready || (s.quality.resolve aspectError wish).isNone then
    (s, false, none)
  else
    match s.quality.begin aspectError wish with
    | (quality, none) => ({ s with quality }, true, none)
    | (quality, some mode) =>
      ({ s with quality, qualityDeadline := some (applyExpiry now) }.queueQuality mode, true,
        some mode)

/-- `transform`, before it unparks the writer. -/
def transform (s : Session) (settings : HostSettings.Settings) : Session :=
  if s.child then
    { s with
      pending :=
        { s.pending with
          transform :=
            some (.transform settings.rotation settings.mirror settings.verticalFlip) } }
  else s

/-- `stop`, before it unparks the writer. -/
def stop (s : Session) (now : ℕ) : Session :=
  let s :=
    { s with
      qualityDeadline := none
      quality := { s.quality with pending := none, staged := false } }
  if s.child then { s with stopFlag := true, deadline := some (now + 1000), state := .stopping }
  else s

/-- The details of a pairing event that parse. -/
def parsePairing (addresses : List (List Char)) (fingerprint key : List Char) :
    Option HostWire.PairingInfo :=
  let parsed := addresses.filterMap parseIpv4
  if parsed ≠ [] ∧ HostSettings.isHex fingerprint 32 = true ∧ HostSettings.isHex key 16 = true then
    some { addresses := parsed, fingerprint, key }
  else none

/-- One event of the loop in `poll` while the session is not stopping, with `finished` and the
mode it queued. -/
def act (s : Session) (now : ℕ) (finished : Bool) (event : Event) :
    Session × Bool × Option Mode :=
  match event with
  | .pairingInfo addresses fingerprint key =>
    match parsePairing addresses fingerprint key with
    | some info => ({ s with pairingInfo := some info }, finished, none)
    | none => (s, finished, none)
  | .connecting => ({ s with state := .connecting }, finished, none)
  | .waiting => ({ s with state := .waiting }, finished, none)
  | .authorizationPending clientId =>
    if clientId.length = 32 ∧ clientId.all HostSettings.isHexDigit = true then
      ({ s with state := .approvalPending clientId }, finished, none)
    else ({ s with state := .failed "receiver reported an invalid PC ID" }, true, none)
  | .stats stats =>
    ({ s with
        quality := labelled s.quality stats
        state := if live stats then .streaming else .waiting
        stats := some stats
        statsAt := some now },
      finished, none)
  | .error message => ({ s with state := .failed message }, finished, none)
  | .usbPermission device => ({ s with usbPermission := some device }, finished, none)
  | .qualityCapabilities permission _ _ modes =>
    match s.quality.advertise aspectError permission modes with
    | (quality, none) => ({ s with quality }, finished, none)
    | (quality, some mode) =>
      ({ s with quality, qualityDeadline := some (applyExpiry now) }.queueQuality mode, finished,
        some mode)
  | .qualityProgress staged =>
    let quality := s.quality.progress staged
    let qualityDeadline :=
      if staged then none
      else if s.quality.staged && quality.pending.isSome then some (applyExpiry now)
      else s.qualityDeadline
    ({ s with quality, qualityDeadline }, finished, none)
  | .qualityApplied width height fps =>
    match s.quality.confirmed width height fps with
    | (quality, true) => ({ s with quality, qualityDeadline := none }, finished, none)
    | (quality, false) =>
      ({ s with
          quality
          qualityDeadline := none
          state := .failed "receiver confirmed an unexpected quality" },
        true, none)
  | .qualityFailed reason terminal =>
    let s := { s with quality := s.quality.failed reason, qualityDeadline := none }
    if terminal then ({ s with state := .failed reason }, true, none) else (s, finished, none)
  | .stopped => (s, true, none)

/-- One event of the loop in `poll`. -/
def handle (s : Session) (now : ℕ) (finished : Bool) (event : Event) :
    Session × Bool × Option Mode :=
  if event = .stopped then (s, true, none)
  else if s.state = .stopping ∨ finished = true then (s, finished, none)
  else s.act aspectError now finished event

/-- The loop of `poll`, with the modes it queued. -/
def drain (s : Session) (finished : Bool) : List (ℕ × Event) → Session × Bool × List Mode
  | [] => (s, finished, [])
  | (now, event) :: rest =>
    let (s, finished, queued) := s.handle aspectError now finished event
    let (s, finished, later) := s.drain finished rest
    (s, finished, queued.toList ++ later)

/-- The stream counts as waiting once its statistics are three seconds old. -/
def refresh (s : Session) (now : ℕ) : Session :=
  if s.state = .streaming ∧ s.statsAt.any (fun time => time + 3000 ≤ now) = true then
    { s with state := .waiting }
  else s

/-- The parent's own watch over an apply. -/
def expire (s : Session) (now : ℕ) (finished : Bool) : Session × Bool :=
  if s.qualityDeadline.any (· ≤ now) then
    ({ s with
        qualityDeadline := none
        quality := s.quality.failed "the quality apply deadline expired"
        state := .failed "the quality apply deadline expired" },
      true)
  else (s, finished)

/-- The worker has exited, or there is none. -/
def reaped (s : Session) (waited : Waited) : Bool := !s.child || waited matches .exited _ _

/-- The state once the worker was waited on. -/
def judged (s : Session) (waited : Waited) : State :=
  match s.child, waited with
  | true, .exited false status =>
    if s.state.isFailed ∨ s.state = .stopping then s.state
    else .failed s!"receiver exited ({status})"
  | true, .failed error => .failed error
  | _, _ => s.state

/-- The wait on the worker, and the end of a session that is finished; whether it was killed. -/
def reap (s : Session) (now : ℕ) (finished : Bool) (waited : Waited) : Session × Bool :=
  let overdue := s.deadline.any (· ≤ now)
  let finished := finished || overdue || s.child && waited != .running
  let reaped := s.reaped waited
  let s := { s with state := s.judged waited }
  if finished then
    let s :=
      { s with
        qualityDeadline := none
        quality := s.quality.disconnected
        stopFlag := true
        writer := false
        events := false }
    if reaped then
      ({ s with
          child := false
          deadline := none
          state := if s.state.isFailed then s.state else .idle },
        overdue && s.child)
    else
      ({ s with
          deadline := some (now + 100)
          state := if s.state.isFailed then s.state else .stopping },
        true)
  else (s, overdue && s.child)

/-- What `poll` does after its loop. -/
def settle (s : Session) (now : ℕ) (finished : Bool) (waited : Waited) : Session × Bool :=
  let (s, finished) := (s.refresh now).expire now finished
  s.reap now finished waited

/-- With the modes it queued, and whether it killed the worker. -/
def poll (s : Session) (received : List (ℕ × Event)) (now : ℕ) (waited : Waited) :
    Session × List Mode × Bool :=
  let (s, finished, queued) := s.drain aspectError false (if s.events then received else [])
  let (s, killed) := s.settle now finished waited
  (s, queued, killed)

end Session

end HostSession
end MobileWebcamBridge
