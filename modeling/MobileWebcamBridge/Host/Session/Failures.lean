import MobileWebcamBridge.Host.Session.Watchdog

/-!
# Which failure a session shows

The session with the thread that reads the worker's lines, the channel between them, and the setup
helper that Linux may run in the worker's place. `poll` is taken apart: one step for each event it
receives, then the staleness of the stream, the apply deadline, and the wait on the worker
(`exec_poll` puts them together again). Every value `state` takes is shown, so that a failure that
is replaced within one `poll` shows as well.
-/

set_option autoImplicit false

namespace MobileWebcamBridge
namespace HostSession

open HostControl Trace
open HostQuality hiding Event

/-! ## The reader thread -/

/-- What `control::read` makes of the worker's output. -/
inductive Line
  | event (event : Event)
  | malformed (error : String)             -- also a line that is too long or cut short
  | closed

/-- The thread that reads the worker's events. -/
structure Reader where
  running : Bool
  stopped : Bool
deriving DecidableEq

/-- What the thread sends after its loop. -/
def epilogue (stopped : Bool) : List Event :=
  (if stopped then [] else [.error "Receiver stopped unexpectedly"]) ++ [Event.stopped]

/-- One turn of the loop, with what it sends. -/
def Reader.read (r : Reader) : Line → Reader × List Event
  | .event event => ({ r with stopped := r.stopped || event == .stopped }, [event])
  | .malformed error => ({ r with running := false }, .error error :: epilogue r.stopped)
  | .closed => ({ r with running := false }, epilogue r.stopped)

/-! ## The session and what runs beside it -/

/-- Where `poll` stands. -/
inductive Place
  | outside
  | receiving (finished : Bool)
  | expiring (finished : Bool)
  | reaping (finished : Bool)
deriving DecidableEq

/-- `Auxiliary`: the session to start when the helper is done. -/
structure Auxiliary where
  restart : Option (HostSettings.Settings × Option DeviceId × Bool)

/-- The session with the reader and the channel before it. -/
structure Front where
  session : Session
  auxiliary : Option Auxiliary
  reader : Reader
  /-- What is sent and not yet received; its bound of 32 events only delays the reader. -/
  channel : List Event
  place : Place

/-- What the window sees. -/
inductive Shown
  /-- `start` or `stop` is called, or the helper is run in the place of `start`. -/
  | asked
  | became (state : State)
deriving DecidableEq

namespace Front

/-- Nothing was started yet. -/
def new : Front := ⟨.new, none, ⟨false, false⟩, [], .outside⟩

/-- `running`. -/
def running (f : Front) : Bool := f.auxiliary.isSome || f.session.child

/-- The session is replaced. -/
def put (f : Front) (s : Session) : Front := { f with session := s }

/-- `start` with no worker running; `spawned` tells whether the process and its pipes are there. -/
def start (f : Front) (settings : HostSettings.Settings) (spawned : Bool) : Front :=
  let s := f.session.start settings
  if spawned then { f with session := s, reader := ⟨true, false⟩, channel := [] }
  else
    f.put { s with
      writer := f.session.writer
      child := f.session.child
      events := f.session.events
      state := f.session.state }

/-- `auxiliary`, once the helper is spawned. -/
def launch (f : Front) (auxiliary : Auxiliary) : Front :=
  { f with
    session := { f.session with usbPermission := none, state := .connecting }
    auxiliary := some auxiliary }

/-- `Session::stop`; over the helper it only asks the helper to end. -/
def stop (f : Front) (now : ℕ) : Front :=
  match f.auxiliary with
  | none => f.put (f.session.stop now)
  | some _ =>
    { f with
      session := { f.session with
        qualityDeadline := none
        quality := { f.session.quality with pending := none, staged := false }
        state := .stopping }
      auxiliary := some ⟨none⟩ }

/-- The start of a session that waited for the helper. `identity` is the device after the switch,
`spawned` the outcome of `start`. -/
def restart (f : Front) (settings : HostSettings.Settings) (device : Option DeviceId)
    (switched : Bool) (identity : Except String DeviceId) (spawned : Except String Unit) :
    Front × List Shown :=
  let found : Except String (Option DeviceId) :=
    if switched then
      match device with
      | none => .error "missing switched USB device"
      | some _ => identity.map some
    else .ok device
  match found, spawned with
  | .error error, _ => (f.put { f.session with state := .failed error }, [])
  | .ok _, .ok _ => (f.start settings true, [.asked])
  | .ok _, .error error =>
    ((f.start settings false).put { (f.start settings false).session with state := .failed error },
      [.asked])

/-- The first branch of `poll`: the helper runs, and `diagnostics` is what it wrote. -/
def pollHelper (f : Front) (auxiliary : Auxiliary) (waited : Waited) (diagnostics : String)
    (identity : Except String DeviceId) (spawned : Except String Unit) : Front × List Shown :=
  let rest : Front := { f with auxiliary := none }
  match waited with
  | .exited success status =>
    if success ∨ f.session.state = .stopping then
      let idle := rest.put { f.session with state := .idle }
      match auxiliary.restart with
      | none => (idle, [])
      | some (settings, device, switched) =>
        let (f, es) := idle.restart settings device switched identity spawned
        (f, .became .idle :: es)
    else
      (rest.put { f.session with
        state := .failed s!"USB/setup request failed ({status}): {diagnostics}" }, [])
  | .failed error => (rest.put { f.session with state := .failed error }, [])
  | .running => (f, [])

/-- A call of the window, a line of the worker, or a part of `poll`. -/
inductive Label
  | start (settings : HostSettings.Settings) (spawned : Bool)
  | launch (auxiliary : Auxiliary)
  | stop (now : ℕ)
  | prepareQuality (now : ℕ) (width height fps : UInt16)
  | transform (settings : HostSettings.Settings)
  /-- The reader thread, at any time. -/
  | read (line : Line)
  | pollHelper (waited : Waited) (diagnostics : String) (identity : Except String DeviceId)
      (spawned : Except String Unit)
  | poll
  | receive (now : ℕ)
  | refresh (now : ℕ)
  | expire (now : ℕ)
  | reap (now : ℕ) (waited : Waited)

/-- A call, or a step of `poll`, that leaves the session with this state. -/
def shows (f : Front) (es : List Shown) : Option (Front × List Shown) :=
  some (f, es ++ [Shown.became f.session.state])

variable (aspectError : Mode → ℚ)

/-- `prepare_quality`, which counts the helper as running. -/
def prepareQuality (f : Front) (now : ℕ) (width height fps : UInt16) : Front :=
  let s := ({ f.session with child := f.running }.prepareQuality aspectError now width height fps).1
  f.put { s with child := f.session.child }

/-- `transform`. -/
def transform (f : Front) (settings : HostSettings.Settings) : Front :=
  match f.auxiliary with
  | none => f.put (f.session.transform settings)
  | some ⟨none⟩ => f
  | some ⟨some (waiting, device, switched)⟩ =>
    let waiting :=
      { waiting with
        rotation := settings.rotation
        mirror := settings.mirror
        verticalFlip := settings.verticalFlip }
    { f with auxiliary := some ⟨some (waiting, device, switched)⟩ }

/-- One step of `poll` while it has no helper to wait for. -/
def pollStep (f : Front) : Label → Option (Front × List Shown)
  | .receive now =>
    match f.place, f.channel with
    | .receiving finished, event :: rest =>
      if f.session.events then
        let (s, finished, _) := f.session.handle aspectError now finished event
        shows { f with session := s, channel := rest, place := .receiving finished } []
      else none
    | _, _ => none
  | .refresh now =>
    match f.place with
    | .receiving finished =>
      if f.session.events = false ∨ f.channel = [] then
        shows { f with session := f.session.refresh now, place := .expiring finished } []
      else none
    | _ => none
  | .expire now =>
    match f.place with
    | .expiring finished =>
      let (s, finished) := f.session.expire now finished
      shows { f with session := s, place := .reaping finished } []
    | _ => none
  | .reap now waited =>
    match f.place with
    | .reaping finished =>
      shows { f with session := (f.session.reap now finished waited).1, place := .outside } []
    | _ => none
  | _ => none

/-- One call, one line, or one part of `poll`. -/
def step (f : Front) (l : Label) : Option (Front × List Shown) :=
  match l with
  | .read line =>
    if f.reader.running then
      let (reader, sent) := f.reader.read line
      some ({ f with reader, channel := f.channel ++ sent }, [])
    else none
  | .receive _ | .refresh _ | .expire _ | .reap _ _ => f.pollStep aspectError l
  | l =>
    -- the thread of the GUI makes one call at a time
    if f.place ≠ .outside then none
    else
      match l with
      | .start settings spawned =>
        if f.running then none else shows (f.start settings spawned) [.asked]
      | .launch auxiliary => if f.running then none else shows (f.launch auxiliary) [.asked]
      | .stop now => shows (f.stop now) [.asked]
      | .prepareQuality now width height fps =>
        shows (f.prepareQuality aspectError now width height fps) []
      | .transform settings => shows (f.transform settings) []
      | .pollHelper waited diagnostics identity spawned =>
        match f.auxiliary with
        | none => none
        | some auxiliary =>
          let (f, es) := f.pollHelper auxiliary waited diagnostics identity spawned
          shows f es
      | .poll =>
        if f.auxiliary.isSome then none else some ({ f with place := .receiving false }, [])
      | _ => none

/-- Every order of the GUI's calls, of the steps of `poll` and of the worker's lines. -/
def system : EventSystem Front Label Shown where
  start f := f = new
  step := step aspectError

/-! ## `poll` put together -/

variable {aspectError} {f f' : Front} {tr es : List Shown}

/-- The loop receives what is in the channel, one event after another. -/
theorem exec_receive (aspectError : Mode → ℚ) (received : List (ℕ × Event)) :
    ∀ (f : Front) (finished : Bool),
    f.place = .receiving finished → f.session.events = true →
    f.channel = received.map Prod.snd → ∃ shown,
      (system aspectError).exec f (received.map fun p => .receive p.1) = some
        ({ f with
            session := (f.session.drain aspectError finished received).1
            channel := []
            place := .receiving (f.session.drain aspectError finished received).2.1 }, shown) := by
  induction received with
  | nil =>
    intro f finished hplace hevents hchannel
    refine ⟨[], ?_⟩
    obtain ⟨session, auxiliary, reader, channel, place⟩ := f
    obtain rfl : channel = [] := hchannel
    obtain rfl : place = .receiving finished := hplace
    rfl
  | cons p rest ih =>
    intro f finished hplace hevents hchannel
    let h := f.session.handle aspectError p.1 finished p.2
    have hkept : h.1.events = f.session.events := Session.events_handle f.session p.1 finished p.2
    have hstep : step aspectError f (.receive p.1) = shows
        { f with session := h.1, channel := rest.map Prod.snd, place := .receiving h.2.1 } [] := by
      show f.pollStep aspectError (.receive p.1) = _
      unfold pollStep
      rw [hplace, hchannel, List.map_cons]
      dsimp only
      rw [if_pos hevents]
    obtain ⟨shown, hexec⟩ := ih
      { f with session := h.1, channel := rest.map Prod.snd, place := .receiving h.2.1 } h.2.1 rfl
      (hkept.trans hevents) rfl
    exact ⟨_, EventSystem.exec_cons hstep hexec⟩

/-- The steps of one `poll` do what `Session.poll` does. -/
theorem exec_poll (received : List (ℕ × Event)) (now : ℕ) (waited : Waited)
    (hplace : f.place = .outside) (hhelper : f.auxiliary = none) (hevents : f.session.events = true)
    (hchannel : f.channel = received.map Prod.snd) : ∃ shown,
      (system aspectError).exec f (.poll :: (received.map (fun p => .receive p.1) ++
        [.refresh now, .expire now, .reap now waited])) = some
          ({ f with session := (f.session.poll aspectError received now waited).1, channel := [] },
            shown) := by
  let g : Front := { f with place := .receiving false }
  have hbegin : step aspectError f .poll = some (g, []) := by
    unfold step
    simp [hplace, hhelper, g]
  obtain ⟨shown, hloop⟩ := exec_receive aspectError received g false rfl hevents hchannel
  -- the tail of `poll`, from the state the loop leaves
  let d := f.session.drain aspectError false received
  let expired := (d.1.refresh now).expire now d.2.1
  let looped : Front := { g with session := d.1, channel := [], place := .receiving d.2.1 }
  let refreshed : Front :=
    { g with session := d.1.refresh now, channel := [], place := .expiring d.2.1 }
  let judged : Front := { g with session := expired.1, channel := [], place := .reaping expired.2 }
  let left : Front :=
    { g with
      session := (expired.1.reap now expired.2 waited).1
      channel := []
      place := .outside }
  have hrefresh : (system aspectError).step looped (.refresh now) =
      some (refreshed, [.became refreshed.session.state]) := by
    show looped.pollStep aspectError (.refresh now) = _
    unfold pollStep
    exact if_pos (.inr rfl)
  have hexpire : (system aspectError).step refreshed (.expire now) =
      some (judged, [.became judged.session.state]) := rfl
  have hreap : (system aspectError).step judged (.reap now waited) =
      some (left, [.became left.session.state]) := rfl
  have hdone : (system aspectError).exec left [] = some (left, []) := rfl
  have htail := EventSystem.exec_cons hrefresh (EventSystem.exec_cons hexpire
    (EventSystem.exec_cons hreap hdone))
  have hleft : left =
      { f with session := (f.session.poll aspectError received now waited).1, channel := [] } := by
    simp only [Session.poll, hevents, if_true, left, g, ← hplace]
    rfl
  exact ⟨_, hleft ▸ EventSystem.exec_cons hbegin (EventSystem.exec_append hloop htail)⟩

/-! ## The first failure stands -/

/-- A state that is shown after a failure, with no call of `start` or `stop` in between, is that
failure. -/
def Stands (x : List Shown) : Shown → Prop
  | .asked => True
  | .became state =>
    ∀ z message w, x = z ++ .became (.failed message) :: w → .asked ∉ w → state = .failed message

/-- The event reports a state. -/
def reports (client : Client) : Event → Bool
  | .connecting | .waiting | .authorizationPending _ | .stats _ | .error _ => true
  | .qualityApplied width height fps => !(client.confirmed width height fps).2
  | .qualityFailed _ terminal => terminal
  | _ => false

/-- An event that reports nothing leaves the state alone. -/
theorem act_state {s : Session} {event : Event} (h : reports s.quality event = false) (now : ℕ)
    (finished : Bool) : (s.act aspectError now finished event).1.state = s.state := by
  cases event with
  | connecting | waiting | authorizationPending | stats | error => cases h
  | pairingInfo addresses fingerprint key =>
    unfold Session.act
    dsimp only
    split <;> rfl
  | qualityCapabilities permission revision epoch modes =>
    unfold Session.act
    dsimp only
    split <;> rfl
  | qualityApplied width height fps =>
    simp only [reports, Bool.not_eq_false'] at h
    unfold Session.act
    dsimp only
    split
    · rfl
    · next hq =>
      rw [hq] at h
      cases h
  | qualityFailed reason terminal =>
    obtain rfl : terminal = false := h
    rfl
  | usbPermission | qualityProgress | stopped => rfl

/-- Nothing replaces a failure: while one is shown, no event that is acted on reports a state, no
apply deadline is over and the wait on the worker does not fail. -/
def Heeded (_ : List Shown) (f : Front) : Label → Prop
  | .receive _ =>
    match f.place, f.channel with
    | .receiving false, event :: _ =>
      f.session.state.isFailed = true → reports f.session.quality event = false
    | _, _ => True
  | .expire now => f.session.state.isFailed = true → f.session.overdue now = false
  | .reap _ (.failed _) => f.session.state.isFailed = true → f.session.child = false
  | _ => True

instance (tr : List Shown) (f : Front) (l : Label) : Decidable (Heeded tr f l) := by
  unfold Heeded
  split
  · split <;> infer_instance
  all_goals infer_instance

/-- A failure stands, unless the event reports another. -/
theorem handle_failed {s : Session} {message : String} (hstate : s.state = .failed message)
    {finished : Bool} {event : Event} (h : finished = false → reports s.quality event = false)
    (now : ℕ) : (s.handle aspectError now finished event).1.state = .failed message := by
  unfold Session.handle
  split
  · exact hstate
  split
  · exact hstate
  · next hlive =>
    rw [not_or, Bool.not_eq_true] at hlive
    rw [act_state (h hlive.2) now finished, hstate]

/-- A failure is not refreshed away. -/
theorem refresh_failed {s : Session} {message : String} (hstate : s.state = .failed message)
    (now : ℕ) : (s.refresh now).state = .failed message := by
  unfold Session.refresh
  rw [if_neg (by simp [hstate])]
  exact hstate

/-- A failure stands before the deadline of a request. -/
theorem expire_failed {s : Session} {message : String}
    (hstate : s.state = .failed message) {now : ℕ}
    (h : s.overdue now = false) (finished : Bool) :
    (s.expire now finished).1.state = .failed message := by
  have hover : ¬ s.qualityDeadline.any (· ≤ now) = true := by
    rw [Bool.not_eq_true]
    exact h
  unfold Session.expire
  rw [if_neg hover]
  exact hstate

/-- A failure stands, unless the wait for the worker fails. -/
theorem reap_failed {s : Session} {message : String} (hstate : s.state = .failed message)
    {waited : Waited} (h : ∀ error, waited = .failed error → s.child = false) (now : ℕ)
    (finished : Bool) : (s.reap now finished waited).1.state = .failed message := by
  have hjudged : s.judged waited = .failed message := by
    unfold Session.judged
    split
    · rw [if_pos (.inl (by rw [hstate]; rfl)), hstate]
    · next error hchild =>
      rw [h error rfl] at hchild
      cases hchild
    · exact hstate
  unfold Session.reap
  dsimp only
  rw [hjudged]
  split
  · split <;> rfl
  · rfl

/-- While the helper runs, no failure is shown and no worker is polled. -/
structure Aside (f : Front) : Prop where
  state : f.auxiliary.isSome = true → f.session.state.isFailed = false
  place : f.auxiliary.isSome = true → f.place = .outside

theorem Aside.of_none (h : f.auxiliary = none) : Aside f :=
  ⟨fun hsome => by simp [h] at hsome, fun hsome => by simp [h] at hsome⟩

/-- A failure stands in what was shown and in the state. -/
structure Standing (tr : List Shown) (f : Front) : Prop where
  each : Each Stands tr
  /-- The failure that stands is the state. -/
  current : ∀ z message w, tr = z ++ Shown.became (.failed message) :: w → .asked ∉ w →
    f.session.state = .failed message
  aside : Aside f

/-- A step that shows the state once and keeps a failure. -/
theorem Standing.became (h : Standing tr f)
    (hkeep : ∀ message, f.session.state = .failed message → f'.session.state = .failed message)
    (haside : Aside f') :
    Standing (tr ++ [Shown.became f'.session.state]) f' := by
  refine ⟨h.each.append (each_cons.mpr ⟨?_, each_nil⟩), ?_, haside⟩
  · rw [List.append_nil]
    intro z message w hz hw
    exact hkeep message (h.current z message w hz hw)
  · intro z message w hz hw
    rcases concat_eq hz with ⟨-, hlast⟩ | ⟨w', hbefore, rfl⟩
    · exact Shown.became.inj hlast
    · exact hkeep message (h.current z message w' hbefore fun hmem =>
        hw (List.mem_append_left _ hmem))

/-- A call of `start` or `stop`, and whatever state it shows. -/
theorem Standing.asked (h : Standing tr f) (haside : Aside f') :
    Standing (tr ++ [Shown.asked, .became f'.session.state]) f' := by
  have hasked : Each Stands (tr ++ [Shown.asked]) :=
    h.each.append (each_cons.mpr ⟨trivial, each_nil⟩)
  have hnone {z w : List Shown} {message : String}
      (hz : tr ++ [Shown.asked] = z ++ Shown.became (.failed message) :: w) : .asked ∈ w := by
    rcases concat_eq hz with ⟨-, hlast⟩ | ⟨w', -, rfl⟩
    · cases hlast
    · exact List.mem_append_right _ (List.mem_singleton_self _)
  have hsplit : tr ++ [Shown.asked, .became f'.session.state] =
      (tr ++ [Shown.asked]) ++ [Shown.became f'.session.state] := by
    rw [List.append_assoc]
    rfl
  rw [hsplit]
  refine ⟨hasked.append (each_cons.mpr ⟨?_, each_nil⟩), ?_, haside⟩
  · rw [List.append_nil]
    intro z message w hz hw
    exact absurd (hnone hz) hw
  · intro z message w hz hw
    rcases concat_eq hz with ⟨-, hlast⟩ | ⟨w', hbefore, rfl⟩
    · exact Shown.became.inj hlast
    · exact absurd (List.mem_append_left _ (hnone hbefore)) hw

/-- Nothing is shown and the state is as it was. -/
theorem Standing.same (h : Standing tr f) (hstate : f'.session.state = f.session.state)
    (haside : Aside f') : Standing (tr ++ []) f' := by
  rw [List.append_nil]
  exact ⟨h.each, fun z message w hz hw => hstate.trans (h.current z message w hz hw), haside⟩

/-- A request leaves the state alone. -/
theorem prepareQuality_state (aspectError : Mode → ℚ) (f : Front) (now : ℕ)
    (width height fps : UInt16) :
    (f.prepareQuality aspectError now width height fps).session.state = f.session.state := by
  unfold prepareQuality Session.prepareQuality
  dsimp only [put]
  split
  · rfl
  · split <;> rfl

/-- A transform leaves the state alone. -/
theorem transform_state (f : Front) (settings : HostSettings.Settings) :
    (f.transform settings).session.state = f.session.state ∧
      (f.transform settings).auxiliary.isSome = f.auxiliary.isSome ∧
      (f.transform settings).place = f.place := by
  obtain ⟨s, auxiliary, reader, channel, place⟩ := f
  rcases auxiliary with _ | ⟨_ | ⟨waiting, device, switched⟩⟩
  · show (s.transform settings).state = s.state ∧ _
    unfold Session.transform
    split <;> exact ⟨rfl, rfl, rfl⟩
  · exact ⟨rfl, rfl, rfl⟩
  · exact ⟨rfl, rfl, rfl⟩

theorem start_auxiliary (f : Front) (settings : HostSettings.Settings) (spawned : Bool) :
    (f.start settings spawned).auxiliary = f.auxiliary := by
  unfold start
  cases spawned <;> rfl

/-- The session that waited for the helper is started, or shows why it is not. -/
theorem Standing.restart (h : Standing tr f) (hidle : f.session.state = .idle)
    (hnone : f.auxiliary = none) (settings : HostSettings.Settings) (device : Option DeviceId)
    (switched : Bool) (identity : Except String DeviceId) (spawned : Except String Unit) :
    Standing (tr ++ ((f.restart settings device switched identity spawned).2 ++
      [.became (f.restart settings device switched identity spawned).1.session.state]))
      (f.restart settings device switched identity spawned).1 := by
  unfold Front.restart
  dsimp only
  split
  · refine h.became (fun message hstate => ?_) (.of_none hnone)
    rw [hidle] at hstate
    cases hstate
  · exact h.asked (.of_none ((start_auxiliary f settings true).trans hnone))
  · exact h.asked (.of_none ((start_auxiliary f settings false).trans hnone))

/-- The helper is waited for: a failure is not replaced, because none is shown. -/
theorem Standing.pollHelper (h : Standing tr f) {auxiliary : Auxiliary}
    (hsome : f.auxiliary = some auxiliary) (waited : Waited) (diagnostics : String)
    (identity : Except String DeviceId) (spawned : Except String Unit) :
    Standing (tr ++ ((f.pollHelper auxiliary waited diagnostics identity spawned).2 ++
      [.became (f.pollHelper auxiliary waited diagnostics identity spawned).1.session.state]))
      (f.pollHelper auxiliary waited diagnostics identity spawned).1 := by
  have hlive := h.aside.state (by rw [hsome]; rfl)
  have hvacuous {state : State} (message : String) (hstate : f.session.state = .failed message) :
      state = .failed message := by
    rw [hstate] at hlive
    cases hlive
  unfold Front.pollHelper
  dsimp only
  split
  · split
    · let idle : Front := { f with auxiliary := none, session := { f.session with state := .idle } }
      have hidle : Standing (tr ++ [Shown.became idle.session.state]) idle :=
        h.became hvacuous (.of_none rfl)
      split
      · exact hidle
      · next settings device switched _ =>
        have hrestart := hidle.restart rfl rfl settings device switched identity spawned
        rw [List.append_assoc] at hrestart
        exact hrestart
    · exact h.became hvacuous (.of_none rfl)
  · exact h.became hvacuous (.of_none rfl)
  · exact h.became (fun message hstate => hstate) h.aside

/-- A part of `poll` leaves the failure that stands. -/
theorem Standing.pollStep {l : Label} (h : Standing tr f) (hheeded : Heeded tr f l)
    (hs : f.pollStep aspectError l = some (f', es)) : Standing (tr ++ es) f' := by
  -- `poll` is inside its second branch, so there is no helper
  have hnone (hplace : f.place ≠ .outside) : f.auxiliary = none := by
    cases hauxiliary : f.auxiliary with
    | none => rfl
    | some auxiliary => exact absurd (h.aside.place (by rw [hauxiliary]; rfl)) hplace
  cases l with
  | receive now =>
    simp only [Front.pollStep] at hs
    split at hs
    · next finished event rest hplace hchannel =>
      split at hs
      · obtain ⟨rfl, rfl⟩ := Prod.mk.inj (Option.some.inj hs)
        refine h.became (fun message hstate => handle_failed hstate (fun hfinished => ?_) now)
          (.of_none (hnone (by rw [hplace]; nofun)))
        subst hfinished
        simp only [Heeded, hplace, hchannel] at hheeded
        exact hheeded (by rw [hstate]; rfl)
      · cases hs
    · cases hs
  | refresh now =>
    simp only [Front.pollStep] at hs
    split at hs
    · next finished hplace =>
      split at hs
      · obtain ⟨rfl, rfl⟩ := Prod.mk.inj (Option.some.inj hs)
        exact h.became (fun message hstate => refresh_failed hstate now)
          (.of_none (hnone (by rw [hplace]; nofun)))
      · cases hs
    · cases hs
  | expire now =>
    simp only [Front.pollStep] at hs
    split at hs
    · next finished hplace =>
      obtain ⟨rfl, rfl⟩ := Prod.mk.inj (Option.some.inj hs)
      refine h.became (fun message hstate => ?_) (.of_none (hnone (by rw [hplace]; nofun)))
      exact expire_failed hstate (hheeded (by rw [hstate]; rfl)) finished
    · cases hs
  | reap now waited =>
    simp only [Front.pollStep] at hs
    split at hs
    · next finished hplace =>
      obtain ⟨rfl, rfl⟩ := Prod.mk.inj (Option.some.inj hs)
      refine h.became (fun message hstate => ?_) (.of_none (hnone (by rw [hplace]; nofun)))
      refine reap_failed hstate (fun error hwaited => ?_) now finished
      subst hwaited
      exact hheeded (by rw [hstate]; rfl)
    · cases hs
  | _ => cases hs

theorem not_running (h : ¬ f.running = true) : f.auxiliary = none := by
  cases hauxiliary : f.auxiliary with
  | none => rfl
  | some auxiliary => exact absurd (by simp [running, hauxiliary]) h

/-- A stop is asked for, and may change the state. -/
theorem Standing.stop (h : Standing tr f) (houtside : f.place = .outside) (now : ℕ) :
    Standing (tr ++ [Shown.asked, .became (f.stop now).session.state]) (f.stop now) := by
  cases hauxiliary : f.auxiliary with
  | none =>
    have hstop : f.stop now = f.put (f.session.stop now) := by
      unfold Front.stop
      rw [hauxiliary]
    rw [hstop]
    exact h.asked (.of_none hauxiliary)
  | some auxiliary =>
    have hstop : (f.stop now).session.state = .stopping ∧ (f.stop now).place = f.place := by
      unfold Front.stop
      rw [hauxiliary]
      exact ⟨rfl, rfl⟩
    exact h.asked ⟨fun _ => by rw [hstop.1]; rfl, fun _ => hstop.2.trans houtside⟩

/-- Every heeded step leaves the failure that stands. -/
theorem Standing.step {l : Label} (h : Standing tr f) (hheeded : Heeded tr f l)
    (hs : Front.step aspectError f l = some (f', es)) : Standing (tr ++ es) f' := by
  cases l with
  | read line =>
    simp only [Front.step] at hs
    split at hs
    · obtain ⟨rfl, rfl⟩ := Prod.mk.inj (Option.some.inj hs)
      exact h.same rfl ⟨h.aside.state, h.aside.place⟩
    · cases hs
  | receive now =>
    -- the four sections of `poll` keep it for one reason
    have hpoll : f.pollStep aspectError (.receive now) = some (f', es) := hs
    exact h.pollStep hheeded hpoll
  | refresh now =>
    have hpoll : f.pollStep aspectError (.refresh now) = some (f', es) := hs
    exact h.pollStep hheeded hpoll
  | expire now =>
    have hpoll : f.pollStep aspectError (.expire now) = some (f', es) := hs
    exact h.pollStep hheeded hpoll
  | reap now waited =>
    have hpoll : f.pollStep aspectError (.reap now waited) = some (f', es) := hs
    exact h.pollStep hheeded hpoll
  | start settings spawned =>
    simp only [Front.step] at hs
    split at hs
    · cases hs
    split at hs
    · cases hs
    · next hidle =>
      obtain ⟨rfl, rfl⟩ := Prod.mk.inj (Option.some.inj hs)
      exact h.asked (.of_none ((start_auxiliary f settings spawned).trans (not_running hidle)))
  | launch auxiliary =>
    simp only [Front.step] at hs
    split at hs
    · cases hs
    next houtside =>
    split at hs
    · cases hs
    · obtain ⟨rfl, rfl⟩ := Prod.mk.inj (Option.some.inj hs)
      exact h.asked ⟨fun _ => rfl, fun _ => not_not.mp houtside⟩
  | stop now =>
    simp only [Front.step] at hs
    split at hs
    · cases hs
    next houtside =>
    obtain ⟨rfl, rfl⟩ := Prod.mk.inj (Option.some.inj hs)
    exact h.stop (not_not.mp houtside) now
  | prepareQuality now width height fps =>
    simp only [Front.step] at hs
    split at hs
    · cases hs
    obtain ⟨rfl, rfl⟩ := Prod.mk.inj (Option.some.inj hs)
    -- neither changes the state of the session
    have hstate := prepareQuality_state aspectError f now width height fps
    refine h.became (fun message hfailed => hstate.trans hfailed) ⟨fun hsome => ?_, h.aside.place⟩
    rw [hstate]
    exact h.aside.state hsome
  | transform settings =>
    simp only [Front.step] at hs
    split at hs
    · cases hs
    obtain ⟨rfl, rfl⟩ := Prod.mk.inj (Option.some.inj hs)
    obtain ⟨hstate, hsame, hplace⟩ := transform_state f settings
    refine h.became (fun message hfailed => hstate.trans hfailed) ⟨fun hsome => ?_, fun hsome => ?_⟩
    · rw [hstate]
      exact h.aside.state (hsame ▸ hsome)
    · rw [hplace]
      exact h.aside.place (hsame ▸ hsome)
  | pollHelper waited diagnostics identity spawned =>
    simp only [Front.step] at hs
    split at hs
    · cases hs
    split at hs
    · cases hs
    · next auxiliary hsome =>
      obtain ⟨rfl, rfl⟩ := Prod.mk.inj (Option.some.inj hs)
      exact h.pollHelper hsome waited diagnostics identity spawned
  | poll =>
    simp only [Front.step] at hs
    split at hs
    · cases hs
    split at hs
    · cases hs
    · next hnone =>
      obtain ⟨rfl, rfl⟩ := Prod.mk.inj (Option.some.inj hs)
      exact h.same rfl (.of_none (by simpa using hnone))

/-- In a run in which nothing replaces a failure, every state that is shown after a failure, up to
the next `start` or `stop`, is that failure. -/
theorem first_failure_stands (h : (system aspectError).Under Heeded tr f) : Each Stands tr := by
  refine (h.invariant (P := Standing) ?_ ?_).each
  · intro f hstart
    obtain rfl : f = new := hstart
    exact ⟨each_nil, fun z message w hz => by simp at hz, .of_none rfl⟩
  · intro tr f l f' es _ hheeded hi hs
    exact hi.step hheeded hs

/-- The worker reports its failure, and ends as it should. -/
def reported : List Label :=
  [.start HostSettings.Settings.default true, .read (.event (.error "no USB device")),
    .read (.event .stopped), .read .closed, .poll, .receive 0, .receive 0, .receive 0, .refresh 0,
    .expire 0, .reap 0 (.exited false "exit status: 1")]

/-- A worker's failure stands when the worker ends. -/
theorem first_failure_stands_reported :
    ((system fun _ => 0).final new reported).session.state = .failed "no USB device" ∧
      Each Stands ((system fun _ => 0).trace new reported) := by
  have hrun : (system fun _ => 0).Under Heeded ((system fun _ => 0).trace new reported)
      ((system fun _ => 0).final new reported) :=
    EventSystem.under_trace reported rfl (by decide +kernel) (by decide +kernel)
  exact ⟨by decide +kernel, first_failure_stands hrun⟩

/-- The worker writes a line that is not a message. -/
def garbled : List Label :=
  [.start HostSettings.Settings.default true,
    .read (.malformed "expected value at line 1 column 1"),
    .poll, .receive 0, .receive 0]

/-- The reader's report of the line is replaced by its report that the worker did not say
`stopped`. -/
theorem failure_replaced : ¬ ∀ tr f, (system fun _ => 0).Reaches tr f → Each Stands tr := by
  intro h
  have hrun := h _ _ (EventSystem.reaches_trace (M := system fun _ => 0) garbled (s := new) rfl
    (by decide +kernel))
  have htrace : (system fun _ => 0).trace new garbled =
      [Shown.asked, .became .connecting] ++
        .became (.failed "expected value at line 1 column 1") ::
          ([] ++ [Shown.became (.failed "Receiver stopped unexpectedly")]) := by decide +kernel
  rw [htrace] at hrun
  have hstands := hrun _ (.became (.failed "Receiver stopped unexpectedly")) []
    (List.append_assoc _ [_] _).symm
  have hsame := hstands [.asked, .became .connecting] "expected value at line 1 column 1" [] rfl
    (by simp)
  exact absurd hsame (by decide)

end Front
end HostSession
end MobileWebcamBridge
