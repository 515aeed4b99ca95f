import MobileWebcamBridge.Host.Session
import MobileWebcamBridge.Lib.EventSystem
import MobileWebcamBridge.Lib.Trace

/-!
# The GUI's session over whole runs

The calls of the GUI's thread, one after another, with whatever the worker says and however long
it lives. What `poll` does after its loop is said once, by `settle_cases`.
-/

set_option autoImplicit false

namespace MobileWebcamBridge
namespace HostSession

open HostControl
open HostQuality hiding Event

/-- What a call shows of the quality transaction. -/
inductive Note
  | born                                   -- `start` makes a new client
  | advertised (mode : Mode)               -- an advertisement started a request
  | begun (mode : Mode)                    -- the user started one
  | answered                               -- a result of a request was acted on
  | waitFailed (error : String)            -- waiting on the child failed
deriving DecidableEq, Repr

/-- The worker's word on a request, as far as the session acts on it. -/
def Session.answers (s : Session) (finished : Bool) : Event → Bool
  | .qualityApplied _ _ _ => !(decide (s.state = .stopping) || finished)
  | .qualityFailed _ _ => !(decide (s.state = .stopping) || finished)
  | _ => false

/-- A call of the GUI's thread. -/
inductive Call
  | start (settings : HostSettings.Settings)
  | prepareQuality (now : ℕ) (width height fps : UInt16)
  | transform (settings : HostSettings.Settings)
  | stop (now : ℕ)
  | poll (received : List (ℕ × Event)) (now : ℕ) (waited : Waited)

section
variable (aspectError : Mode → ℚ)

/-- What one event of the loop shows. -/
def handled (s : Session) (now : ℕ) (finished : Bool) (event : Event) : List Note :=
  (if s.answers finished event then [.answered] else []) ++
    (s.handle aspectError now finished event).2.2.toList.map .advertised

/-- What the loop of `poll` shows. -/
def drained (s : Session) (finished : Bool) : List (ℕ × Event) → List Note
  | [] => []
  | (now, event) :: rest =>
    let (s', finished', _) := s.handle aspectError now finished event
    handled aspectError s now finished event ++ drained s' finished' rest

/-- A failed wait for the worker. -/
def waitNotes : Bool → Waited → List Note
  | true, .failed error => [.waitFailed error]
  | _, _ => []

/-- One call of the window on its session. -/
def call (s : Session) : Call → Option (Session × List Note)
  | .start settings => if s.child then none else some (s.start settings, [.born])
  | .prepareQuality now width height fps =>
    let (s', _, queued) := s.prepareQuality aspectError now width height fps
    some (s', queued.toList.map .begun)
  | .transform settings => some (s.transform settings, [])
  | .stop now => some (s.stop now, [])
  | .poll received now waited =>
    some ((s.poll aspectError received now waited).1,
      drained aspectError s false (if s.events then received else []) ++ waitNotes s.child waited)

/-- The session from a state the GUI may start it in. -/
def calls (fresh : Session → Prop) : EventSystem Session Call Note where
  start := fresh
  step := call aspectError

end

/-! ## What `poll` does after its loop -/

namespace Session

variable {s : Session} {now : ℕ} {finished : Bool} {waited : Waited}

/-- The session as `settle` closes it. -/
def closed (s : Session) (now : ℕ) (waited : Waited) (quality : Client) (state : State) : Session :=
  { s with
    qualityDeadline := none
    quality := quality.disconnected
    stopFlag := true
    writer := false
    events := false
    child := !s.reaped waited
    deadline := if s.reaped waited then none else some (now + 100)
    state }

/-- Where a session that is closed may stand, and why it stands as failed. -/
def EndsIn (s : Session) (waited : Waited) (state : State) : Prop :=
  state = (if s.reaped waited then .idle else .stopping) ∨
    ∃ message, state = .failed message ∧
      (s.state = .failed message ∨ (s.child = true ∧ waited = .failed message) ∨
        (s.child = true ∧ s.state.isFailed = false ∧ s.state ≠ .stopping))

/-- A worker's end is judged a failure only where none stood. -/
theorem judged_cases (s : Session) (waited : Waited) :
    s.judged waited = s.state ∨
      ∃ message, s.judged waited = .failed message ∧ s.child = true ∧
        (waited = .failed message ∨ (s.state.isFailed = false ∧ s.state ≠ .stopping)) := by
  unfold judged
  split
  · next status hchild =>
    split
    · exact .inl rfl
    · next h =>
      obtain ⟨hfailed, hstopping⟩ := not_or.mp h
      exact .inr ⟨_, rfl, hchild, .inr ⟨by simpa using hfailed, hstopping⟩⟩
  · next error hchild => exact .inr ⟨error, rfl, hchild, .inl rfl⟩
  · exact .inl rfl

theorem endsIn_judged (s : Session) (waited : Waited) :
    s.EndsIn waited (if (s.judged waited).isFailed then s.judged waited
      else if s.reaped waited then .idle else .stopping) := by
  by_cases hfailed : (s.judged waited).isFailed = true
  · rw [if_pos hfailed]
    right
    rcases judged_cases s waited with hsame | ⟨message, hmessage, hchild, hwhy⟩
    · rw [hsame] at hfailed ⊢
      obtain ⟨message, hmessage⟩ : ∃ message, s.state = .failed message := by
        cases hs : s.state <;> simp [hs, State.isFailed] at hfailed ⊢
      exact ⟨message, hmessage, .inl hmessage⟩
    · rcases hwhy with hwaited | hlive
      · exact ⟨message, hmessage, .inr (.inl ⟨hchild, hwaited⟩)⟩
      · exact ⟨message, hmessage, .inr (.inr ⟨hchild, hlive⟩)⟩
  · rw [if_neg hfailed]
    exact .inl rfl

theorem judged_of_running {s : Session} {waited : Waited}
    (h : s.child = true → waited = .running) : s.judged waited = s.state := by
  unfold judged
  split
  · next hchild => cases h hchild
  · next hchild => cases h hchild
  · rfl

/-- Nothing is reaped, or the session is closed. -/
theorem reap_cases (s : Session) (now : ℕ) (finished : Bool) (waited : Waited) :
    (s.reap now finished waited = (s, false) ∧ finished = false ∧
      s.deadline.any (· ≤ now) = false ∧ (s.child = true → waited = .running)) ∨
    ∃ state, (s.reap now finished waited).1 = s.closed now waited s.quality state ∧
      s.EndsIn waited state ∧
      (s.child = true → s.deadline.any (· ≤ now) = true →
        (s.reap now finished waited).2 = true) := by
  by_cases hfinished :
      (finished || s.deadline.any (· ≤ now) || s.child && waited != .running) = true
  · right
    refine ⟨_, ?_, endsIn_judged s waited, ?_⟩
    · simp only [reap, hfinished, if_true, closed]
      cases hreaped : s.reaped waited
      · have hchild : s.child = true := by
          unfold reaped at hreaped
          simpa using (Bool.or_eq_false_iff.mp hreaped).1
        simp [hchild]
      · simp
    · intro hchild hoverdue
      unfold reap
      dsimp only
      rw [if_pos hfinished]
      split <;> simp [hchild, hoverdue]
  · left
    have hidle := hfinished
    simp only [Bool.or_eq_true, not_or, Bool.and_eq_true, not_and, bne_iff_ne, ne_eq, not_not,
      Bool.not_eq_true] at hidle
    obtain ⟨⟨hrest, hdue⟩, hrunning⟩ := hidle
    refine ⟨?_, hrest, hdue, hrunning⟩
    unfold reap
    dsimp only
    rw [if_neg hfinished, judged_of_running hrunning, hdue]
    rfl

/-- A stream without pictures goes back to waiting. -/
theorem refresh_cases (s : Session) (now : ℕ) :
    s.refresh now = s ∨ (s.state = .streaming ∧ s.refresh now = { s with state := .waiting }) := by
  unfold refresh
  split
  · next h => exact .inr ⟨h.1, rfl⟩
  · exact .inl rfl

/-- The apply deadline of the GUI is over. -/
def overdue (s : Session) (now : ℕ) : Bool := s.qualityDeadline.any (· ≤ now)

/-- After its loop, `poll` leaves the session as it is but for a stale stream, or closes it. -/
theorem settle_cases (s : Session) (now : ℕ) (finished : Bool) (waited : Waited) :
    (s.settle now finished waited = (s.refresh now, false) ∧ finished = false ∧
      s.overdue now = false ∧ s.deadline.any (· ≤ now) = false ∧
      (s.child = true → waited = .running)) ∨
    ∃ quality state, (s.settle now finished waited).1 = s.closed now waited quality state ∧
      (quality = s.quality ∨ ∃ reason, quality = s.quality.failed reason) ∧
      (s.overdue now = true ∨ s.EndsIn waited state) ∧
      (s.child = true → s.deadline.any (· ≤ now) = true →
        (s.settle now finished waited).2 = true) := by
  -- `refresh` touches the state alone
  have hsame : (s.refresh now).child = s.child ∧ (s.refresh now).deadline = s.deadline ∧
      (s.refresh now).qualityDeadline = s.qualityDeadline ∧
      (s.refresh now).quality = s.quality := by
    rcases refresh_cases s now with h | ⟨-, h⟩
    · rw [h]
      exact ⟨rfl, rfl, rfl, rfl⟩
    · rw [h]
      exact ⟨rfl, rfl, rfl, rfl⟩
  obtain ⟨hchild, hdeadline, hquality, hclient⟩ := hsame
  have hclosed (q : Client) (state : State) :
      (s.refresh now).closed now waited q state = s.closed now waited q state := by
    rcases refresh_cases s now with h | ⟨-, h⟩
    · rw [h]
    · rw [h]
      rfl
  have hends {state : State} (h : (s.refresh now).EndsIn waited state) : s.EndsIn waited state := by
    rcases refresh_cases s now with hr | ⟨hstreaming, hr⟩
    · rwa [hr] at h
    rw [hr] at h
    rcases h with h | ⟨message, hmessage, hwhy⟩
    · exact .inl h
    · refine .inr ⟨message, hmessage, ?_⟩
      rcases hwhy with h | h | h
      · cases h
      · exact .inr (.inl h)
      · exact .inr (.inr ⟨h.1, by simp [hstreaming, State.isFailed]⟩)
  -- the deadline of an apply comes before the child's own
  by_cases hover : s.overdue now = true
  · right
    have hexpire : (s.refresh now).expire now finished =
        ({ s.refresh now with
            qualityDeadline := none
            quality := (s.refresh now).quality.failed "the quality apply deadline expired"
            state := .failed "the quality apply deadline expired" }, true) := by
      unfold expire
      rw [hquality]
      exact if_pos hover
    simp only [settle, hexpire]
    rcases reap_cases { s.refresh now with
      qualityDeadline := none
      quality := (s.refresh now).quality.failed "the quality apply deadline expired"
      state := .failed "the quality apply deadline expired" } now true waited with
      ⟨-, hf, -⟩ | ⟨state, hreap, -, hkilled⟩
    · cases hf
    · refine ⟨_, state, hreap.trans (hclosed _ _), .inr ⟨_, by rw [hclient]⟩, .inl hover, ?_⟩
      rw [← hchild, ← hdeadline]
      exact hkilled
  · have hexpire : (s.refresh now).expire now finished = (s.refresh now, finished) := by
      unfold expire
      rw [hquality]
      exact if_neg hover
    simp only [settle, hexpire]
    rcases reap_cases (s.refresh now) now finished waited with
      ⟨hreap, hf, hdue, hrunning⟩ | ⟨state, hreap, hstate, hkilled⟩
    · rw [hdeadline] at hdue
      rw [hchild] at hrunning
      exact .inl ⟨hreap, hf, by simpa using hover, hdue, hrunning⟩
    · rw [hchild, hdeadline] at hkilled
      exact .inr ⟨_, state, hreap.trans (hclosed _ _), .inl hclient, .inr (hends hstate), hkilled⟩

end Session
end HostSession
end MobileWebcamBridge
