import MobileWebcamBridge.Host.Session.Watchdog

/-!
# After `stop`

Nothing the worker says after `stop` is acted on, the worker is killed once its time is over, and
the session comes to rest with no worker, no events and no deadline.
-/

set_option autoImplicit false

namespace MobileWebcamBridge
namespace HostSession
namespace Session

open HostControl
open HostQuality hiding Event

variable {aspectError : Mode → ℚ} {s s₀ : Session} {tr : List Note}

/-- The calls up to the next `start`, with no other `stop`. -/
def Later : List Note → Session → Call → Prop
  | _, _, .start _ => False
  | _, _, .stop _ => False
  | _, _, _ => True

instance (tr : List Note) (s : Session) (c : Call) : Decidable (Later tr s c) := by
  cases c <;> unfold Later <;> infer_instance

/-! ## A finished loop -/

/-- After the end of a worker its events are passed over. -/
theorem handle_finished (s : Session) (now : ℕ) (event : Event) :
    s.handle aspectError now true event = (s, true, none) := by
  unfold Session.handle
  split
  · rfl
  · rw [if_pos (.inr rfl)]

theorem drain_finished (s : Session) (received : List (ℕ × Event)) :
    s.drain aspectError true received = (s, true, []) := by
  induction received with
  | nil => rfl
  | cons p rest ih =>
    simp only [drain, handle_finished, ih]
    rfl

/-- Events come in one poll or in two. -/
theorem drain_append (received later : List (ℕ × Event)) : ∀ (s : Session) (finished : Bool),
    s.drain aspectError finished (received ++ later) =
      (((s.drain aspectError finished received).1.drain aspectError
          (s.drain aspectError finished received).2.1 later).1,
        ((s.drain aspectError finished received).1.drain aspectError
          (s.drain aspectError finished received).2.1 later).2.1,
        (s.drain aspectError finished received).2.2 ++
          ((s.drain aspectError finished received).1.drain aspectError
            (s.drain aspectError finished received).2.1 later).2.2) := by
  induction received with
  | nil =>
    intro s finished
    rfl
  | cons p rest ih =>
    intro s finished
    simp only [List.cons_append, drain, ih, List.append_assoc]

/-- Once an event has set `finished`, the rest of the loop does nothing. -/
theorem drain_of_finished {finished : Bool} {received : List (ℕ × Event)}
    (h : (s.drain aspectError finished received).2.1 = true) (later : List (ℕ × Event)) :
    s.drain aspectError finished (received ++ later) = s.drain aspectError finished received := by
  rw [drain_append, h, drain_finished]
  simp only [List.append_nil]
  rw [← h]

/-! ## A stopping session -/

variable (aspectError) in
/-- A session that stops passes every event over. -/
theorem handle_stopping (h : s.state = .stopping) (now : ℕ) (finished : Bool) (event : Event) :
    (s.handle aspectError now finished event).1 = s ∧
      (s.handle aspectError now finished event).2.2 = none ∧
      handled aspectError s now finished event = [] := by
  rcases handle_cases aspectError s now finished event with
    ⟨hsame, hqueued, hdeaf⟩ | ⟨-, hstate, -⟩
  · exact ⟨hsame, hqueued, by simp [handled, hqueued, hdeaf]⟩
  · exact absurd h hstate

/-- So for all events of a poll. -/
theorem drain_stopping (h : s.state = .stopping) (received : List (ℕ × Event)) :
    ∀ finished, (s.drain aspectError finished received).1 = s ∧
      drained aspectError s finished received = [] := by
  induction received with
  | nil =>
    intro finished
    exact ⟨rfl, rfl⟩
  | cons p rest ih =>
    intro finished
    obtain ⟨now, event⟩ := p
    obtain ⟨hsame, -, hnotes⟩ := handle_stopping aspectError h now finished event
    obtain ⟨hrest, hdrained⟩ := ih (s.handle aspectError now finished event).2.1
    simp only [drain, drained, hsame, hnotes, hdrained]
    exact ⟨hrest, rfl⟩

/-- Where a session that was stopped may stand. -/
structure Stopped (s₀ : Session) (tr : List Note) (s : Session) : Prop where
  state : s.state = .stopping ∧ s.child = true ∨ s.state = .idle ∧ s.child = false ∨
    ∃ error, s.state = .failed error ∧ .waitFailed error ∈ tr
  quiet : ∀ mode, .advertised mode ∉ tr ∧ .begun mode ∉ tr
  pending : s.quality.pending = none
  watch : s.qualityDeadline = none
  applied : s.quality.applied = s₀.quality.applied ∨ s.quality.applied = none
  pairing : s.pairingInfo = s₀.pairingInfo
  listening : s.events = true → s.state = .stopping
  deadline : s.child = true → s.deadline.isSome = true
  gone : s.child = false → s.events = false ∧ s.deadline = none

/-- A stop leaves the session stopping. -/
theorem stopped_stop (h : s₀.child = true) (now : ℕ) : Stopped s₀ [] (s₀.stop now) := by
  have hstop : s₀.stop now =
      { s₀ with
        qualityDeadline := none
        quality := { s₀.quality with pending := none, staged := false }
        stopFlag := true
        deadline := some (now + 1000)
        state := .stopping } := by
    simp [Session.stop, h]
  rw [hstop]
  refine ⟨.inl ⟨rfl, h⟩, by simp, rfl, rfl, .inl rfl, rfl, fun _ => rfl, fun _ => rfl, ?_⟩
  intro hgone
  cases h.symm.trans hgone

/-- A wait that fails is all that the notes of a stopped session tell. -/
theorem mem_waitNotes {note : Note} {child : Bool} {waited : Waited}
    (h : note ∈ waitNotes child waited) : ∃ error, note = .waitFailed error := by
  unfold waitNotes at h
  split at h
  · exact ⟨_, List.mem_singleton.mp h⟩
  · cases h

theorem Stopped.note (h : Stopped s₀ tr s) (child : Bool) (waited : Waited) :
    Stopped s₀ (tr ++ waitNotes child waited) s := by
  refine ⟨?_, ?_, h.pending, h.watch, h.applied, h.pairing, h.listening, h.deadline, h.gone⟩
  · rcases h.state with hs | hs | ⟨error, hs, hnote⟩
    · exact .inl hs
    · exact .inr (.inl hs)
    · exact .inr (.inr ⟨error, hs, List.mem_append_left _ hnote⟩)
  · intro mode
    constructor
    · intro hm
      rcases List.mem_append.mp hm with hm | hm
      · exact (h.quiet mode).1 hm
      · obtain ⟨_, hne⟩ := mem_waitNotes hm
        cases hne
    · intro hm
      rcases List.mem_append.mp hm with hm | hm
      · exact (h.quiet mode).2 hm
      · obtain ⟨_, hne⟩ := mem_waitNotes hm
        cases hne

/-- A closed session stands where it may: it was stopping, or the wait on the worker failed. -/
theorem Stopped.closed {now : ℕ} {waited : Waited} {quality : Client} {state : State}
    (h : Stopped s₀ tr s) (hends : s.EndsIn waited state) :
    Stopped s₀ (tr ++ waitNotes s.child waited) (s.closed now waited quality state) := by
  have hnote := h.note s.child waited
  refine ⟨?_, hnote.quiet, rfl, rfl, .inr rfl, h.pairing, (fun he => by cases he), ?_, ?_⟩
  · rcases hends with hstate | ⟨message, hstate, hwhy⟩
    · cases hreaped : s.reaped waited with
      | true => exact .inr (.inl ⟨by simp [Session.closed, hstate, hreaped], by
          simp [Session.closed, hreaped]⟩)
      | false => exact .inl ⟨by simp [Session.closed, hstate, hreaped], by
          simp [Session.closed, hreaped]⟩
    · right
      right
      refine ⟨message, hstate, ?_⟩
      rcases hwhy with hs | ⟨hchild, hwaited⟩ | ⟨hchild, hfailed, hstopping⟩
      · rcases hnote.state with ht | ht | ⟨error, ht, hmem⟩
        · cases hs.symm.trans ht.1
        · cases hs.symm.trans ht.1
        · obtain rfl := State.failed.inj (hs.symm.trans ht)
          exact hmem
      · rw [hchild, hwaited]
        simp [waitNotes]
      · -- a session that was stopped and is neither stopping nor failed has no worker
        rcases h.state with ht | ht | ⟨error, ht, -⟩
        · exact absurd ht.1 hstopping
        · cases hchild.symm.trans ht.2
        · rw [ht] at hfailed
          cases hfailed
  · intro hchild
    simp only [Session.closed, Bool.not_eq_true'] at hchild
    simp [Session.closed, hchild]
  · intro hchild
    simp only [Session.closed, Bool.not_eq_false'] at hchild
    simp [Session.closed, hchild]

/-- The end of a poll keeps it stopping, or ends it. -/
theorem Stopped.settle (h : Stopped s₀ tr s) (now : ℕ) (finished : Bool) (waited : Waited) :
    Stopped s₀ (tr ++ waitNotes s.child waited) (s.settle now finished waited).1 := by
  rcases settle_cases s now finished waited with ⟨hsettle, -⟩ |
    ⟨quality, state, hsettle, -, hends, -⟩
  · rw [hsettle]
    rcases refresh_cases s now with hr | ⟨hstreaming, -⟩
    · rw [hr]
      exact h.note s.child waited
    · rcases h.state with hs | hs | ⟨error, hs, -⟩
      · cases hstreaming.symm.trans hs.1
      · cases hstreaming.symm.trans hs.1
      · cases hstreaming.symm.trans hs
  · rw [hsettle]
    rcases hends with hover | hends
    · simp [overdue, h.watch] at hover
    · exact h.closed hends

/-- The events of a poll do nothing. -/
theorem Stopped.drain (h : Stopped s₀ tr s) (received : List (ℕ × Event)) :
    (s.drain aspectError false (if s.events then received else [])).1 = s ∧
      drained aspectError s false (if s.events then received else []) = [] := by
  cases hevents : s.events with
  | true => exact drain_stopping (h.listening hevents) received false
  | false => exact ⟨rfl, rfl⟩

/-- A poll keeps it stopping, or ends it. -/
theorem Stopped.poll (h : Stopped s₀ tr s) (received : List (ℕ × Event)) (now : ℕ)
    (waited : Waited) : Stopped s₀
      (tr ++ (drained aspectError s false (if s.events then received else []) ++
        waitNotes s.child waited))
      (s.poll aspectError received now waited).1 := by
  obtain ⟨hsame, hnotes⟩ := h.drain received
  rw [hnotes, List.nil_append]
  have hsettled := h.settle now
    (s.drain aspectError false (if s.events then received else [])).2.1 waited
  simpa only [Session.poll, hsame] using hsettled

/-- No wish is taken once the session was stopped. -/
theorem Stopped.prepareQuality (h : Stopped s₀ tr s) (now : ℕ) (width height fps : UInt16) :
    s.prepareQuality aspectError now width height fps = (s, false, none) := by
  have hgate : (!s.child || s.state == .stopping || s.state.isFailed || s.quality.pending.isSome ||
      !s.quality.ready || (s.quality.resolve aspectError ⟨width, height, fps⟩).isNone) = true := by
    rcases h.state with hs | hs | ⟨error, hs, -⟩
    · simp [hs.1]
    · simp [hs.2]
    · simp [hs, State.isFailed]
  simp only [Session.prepareQuality, hgate]
  rfl

/-- Every later call keeps it stopping, or ends it. -/
theorem Stopped.call {c : Call} {s' : Session} {notes : List Note} (h : Stopped s₀ tr s)
    (hlater : Later tr s c) (hcall : call aspectError s c = some (s', notes)) :
    Stopped s₀ (tr ++ notes) s' := by
  cases c with
  | start settings => cases hlater
  | stop now => cases hlater
  | prepareQuality now width height fps =>
    obtain ⟨rfl, rfl⟩ := by simpa [HostSession.call, h.prepareQuality] using hcall
    rwa [List.append_nil]
  | transform settings =>
    obtain ⟨rfl, rfl⟩ := by simpa [HostSession.call] using hcall
    rw [List.append_nil]
    unfold Session.transform
    split
    · exact ⟨h.state, h.quiet, h.pending, h.watch, h.applied, h.pairing, h.listening, h.deadline,
        h.gone⟩
    · exact h
  | poll received now waited =>
    obtain ⟨rfl, rfl⟩ := by simpa [HostSession.call] using hcall
    exact h.poll received now waited

/-- So in every later run. -/
theorem stopped_of_under {now : ℕ} (hchild : s₀.child = true)
    (h : (calls aspectError (· = s₀.stop now)).Under Later tr s) : Stopped s₀ tr s := by
  refine h.invariant (fun s hs => ?_) fun tr s c s' notes _ hlater hstopped hstep =>
    hstopped.call hlater hstep
  obtain rfl := hs
  exact stopped_stop hchild now

/-- A worker that has outlived its time is killed, and one that has exited is gone. -/
theorem poll_ends (hchild : s.child = true) (received : List (ℕ × Event)) (now : ℕ)
    (waited : Waited)
    (hsame : (s.drain aspectError false (if s.events then received else [])).1 = s) :
    (s.deadline.any (· ≤ now) = true → (s.poll aspectError received now waited).2.2 = true) ∧
      (s.reaped waited = true → (s.poll aspectError received now waited).1.child = false) := by
  simp only [Session.poll, hsame]
  rcases settle_cases s now (s.drain aspectError false (if s.events then received else [])).2.1
    waited with ⟨-, -, -, hdue, hrunning⟩ | ⟨quality, state, hsettle, -, -, hkilled⟩
  · constructor
    · intro hover
      cases hdue.symm.trans hover
    · intro hreaped
      simp [reaped, hchild, hrunning hchild] at hreaped
  · constructor
    · exact hkilled hchild
    · intro hreaped
      rw [hsettle]
      simp [Session.closed, hreaped]

/-- After `stop` nothing the worker says is acted on, a worker that outlives its time is killed, and
a session without a worker is idle, or failed because it could not be waited on. -/
theorem stop_final {now : ℕ} (hchild : s₀.child = true)
    (h : (calls aspectError (· = s₀.stop now)).Under Later tr s) :
    (s.state = .stopping ∨ s.state = .idle ∨
        ∃ error, s.state = .failed error ∧ .waitFailed error ∈ tr) ∧
      (∀ mode, .advertised mode ∉ tr ∧ .begun mode ∉ tr) ∧
      (s.quality.applied = s₀.quality.applied ∨ s.quality.applied = none) ∧
      s.pairingInfo = s₀.pairingInfo ∧
      (s.child = true → s.deadline.isSome = true ∧ ∀ received now waited,
        (s.deadline.any (· ≤ now) = true → (s.poll aspectError received now waited).2.2 = true) ∧
        (s.reaped waited = true → (s.poll aspectError received now waited).1.child = false)) ∧
      (s.child = false → s.state ≠ .stopping ∧ s.events = false ∧ s.deadline = none) ∧
      (∀ (t : Session) finished received later,
        (t.drain aspectError finished received).2.1 = true →
        t.drain aspectError finished (received ++ later) =
          t.drain aspectError finished received) := by
  have hstopped := stopped_of_under hchild h
  refine ⟨?_, hstopped.quiet, hstopped.applied, hstopped.pairing, ?_, ?_, ?_⟩
  · rcases hstopped.state with hs | hs | hs
    · exact .inl hs.1
    · exact .inr (.inl hs.1)
    · exact .inr (.inr hs)
  · intro hlive
    exact ⟨hstopped.deadline hlive, fun received now waited =>
      poll_ends hlive received now waited (hstopped.drain received).1⟩
  · intro hgone
    obtain ⟨hevents, hdeadline⟩ := hstopped.gone hgone
    refine ⟨fun hs => ?_, hevents, hdeadline⟩
    rcases hstopped.state with ht | ht | ⟨error, ht, -⟩
    · cases hgone.symm.trans ht.2
    · cases hs.symm.trans ht.1
    · cases hs.symm.trans ht
  · intro t finished received later hfinished
    exact drain_of_finished hfinished later

/-- The worker goes on talking after `stop`, and exits. -/
def farewell : List Call :=
  [.poll [(5, .waiting), (6, .qualityCapabilities HostWire.PERMISSION_READY 1 41 [hd])] 20 .running,
    .poll [(30, .stopped), (31, .connecting)] 31 .running,
    .poll [] 40 (.exited true "exit status: 0")]

/-- A worker that says farewell is reaped. -/
theorem stop_final_farewell :
    ((calls (fun _ => 0) (· = (deskFinal desk).stop 4)).final ((deskFinal desk).stop 4)
      farewell).state ≠ .stopping := by
  have hmeets : (calls (fun _ => 0) (· = (deskFinal desk).stop 4)).Under Later
      ((calls (fun _ => 0) (· = (deskFinal desk).stop 4)).trace ((deskFinal desk).stop 4) farewell)
      ((calls (fun _ => 0) (· = (deskFinal desk).stop 4)).final ((deskFinal desk).stop 4)
        farewell) :=
    EventSystem.under_trace farewell rfl (by decide +kernel) (by decide +kernel)
  exact ((stop_final (by decide +kernel) hmeets).2.2.2.2.2.1 (by decide +kernel)).1

end Session
end HostSession
end MobileWebcamBridge
