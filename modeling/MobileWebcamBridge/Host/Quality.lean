import MobileWebcamBridge.Host.Preference

/-!
# `quality.rs`: the PC's quality switch

One capture switch of a connection, from the `PREPARE_QUALITY` it sends to the decoded and
submitted frame that applies it. `Switch.Moves` says once what each event can do.
-/

set_option autoImplicit false

namespace MobileWebcamBridge
namespace HostQuality

/-- How long a request may take. -/
def APPLY_DEADLINE_MS : ℕ := 5000

/-- The phases of a switch. -/
inductive Phase
  | idle
  | preparing
  | staged
  | switching
  | awaitingOutput
  | applied
  | failed
deriving DecidableEq, Repr

/-- What the switch is told. -/
inductive Event
  | epochObserved (epoch : UInt32)
  | prepare (revision width height fps : UInt16)
  | prepareAccepted (requestId : UInt32) (streaming : Bool)
  | rejected (requestId : UInt32) (reason : UInt8)
  | paused (requestId epoch : UInt32)
  | videoConfig (width height fps : UInt16)
  | captureStarted (requestId : UInt32) (width height fps : UInt16)
  | outputReady
  | deadlineExceeded
  | userStop
deriving DecidableEq, Repr

/-- What the switch asks of its caller. -/
inductive Action
  | sendPrepareQuality (requestId : UInt32) (revision width height fps : UInt16)
  | sendCommitQuality (requestId epoch : UInt32)
  | releaseOutputs
  | reportApplied (width height fps : UInt16)
  | reportFailed (reason : String)
  | stopCapture
  | closeConnection
deriving DecidableEq, Repr

/-- `quality::Switch`. -/
structure Switch where
  phase : Phase
  requestId : UInt32
  epoch : Option UInt32
  requested : Option Tuple
  applied : Option Tuple
  deadlineMs : Option ℕ
  nextRequestId : UInt32
deriving DecidableEq, Repr

/-- `u32::checked_add(1)`. -/
def checkedSucc (n : UInt32) : Option UInt32 := if n.toNat + 1 < 2 ^ 32 then some (n + 1) else none

/-- The text shown for a reason of the phone. -/
def rejectionReason (reason : UInt8) : String :=
  if reason = 1 then "camera permission is not granted"
  else if reason = 2 then "the phone left the foreground"
  else if reason = 3 then "the mode is not supported by the phone"
  else if reason = 4 then "the capability list changed; refresh the quality list"
  else if reason = 5 then "another quality apply is already in flight"
  else if reason = 6 then "the apply deadline expired"
  else if reason = 7 then "camera capture could not start"
  else if reason = 8 then "this edition does not allow that quality"
  else "the phone rejected the apply"

namespace Switch

/-- A switch that no request has reached. -/
def default : Switch where
  phase := .idle
  requestId := 0
  epoch := none
  requested := none
  applied := none
  deadlineMs := none
  nextRequestId := 1

/-- A request is under way. -/
def busy (s : Switch) : Bool :=
  s.phase == .preparing || s.phase == .switching || s.phase == .awaitingOutput

/-- The mode waits for the next start of the camera. -/
def staged (s : Switch) : Bool := s.phase == .staged

/-- The config of the requested mode is still to come. -/
def awaitingVideo (s : Switch) : Bool :=
  s.phase == .switching || s.phase == .staged || s.phase == .awaitingOutput

/-- The phases in which the switch takes a new request. -/
def settled (s : Switch) : Bool := s.phase == .idle || s.phase == .applied || s.phase == .failed

/-- A request for a mode, if none is under way. -/
def prepare (s : Switch) (now : ℕ) (revision width height fps : UInt16) : Switch × Option Action :=
  if !s.settled || width == 0 || height == 0 || fps == 0 then (s, none)
  else
    match checkedSucc s.nextRequestId with
    -- `checked_add(1)?` leaves with no action before anything is written
    | none => (s, none)
    | some next =>
      ({ s with
          nextRequestId := next
          phase := .preparing
          requestId := s.nextRequestId
          requested := some (width, height, fps)
          deadlineMs := some (now + APPLY_DEADLINE_MS) },
        some (.sendPrepareQuality s.nextRequestId revision width height fps))

/-- A request that fails ends the session. -/
def fail (s : Switch) (reason : String) : Switch × List Action :=
  ({ s with phase := .failed, deadlineMs := none },
    [.reportFailed reason, .stopCapture, .closeConnection])

/-- `Switch::step`. -/
def step (s : Switch) (now : ℕ) : Event → Switch × List Action
  | .epochObserved epoch => if s.settled then ({ s with epoch := some epoch }, []) else (s, [])
  | .prepare revision width height fps =>
    let (s', action) := s.prepare now revision width height fps
    (s', action.toList)
  | .prepareAccepted requestId streaming =>
    if requestId ≠ s.requestId then (s, [])
    else if s.phase = .preparing ∧ streaming = false then
      ({ s with phase := .staged, deadlineMs := none }, [.releaseOutputs])
    else if s.phase = .staged ∧ streaming = true then
      ({ s with phase := .switching, deadlineMs := some (now + APPLY_DEADLINE_MS) }, [])
    else (s, [])
  | .rejected requestId reason =>
    if requestId ≠ s.requestId ∨ (s.busy || s.staged) = false then (s, [])
    else if s.phase = .switching ∨ s.phase = .awaitingOutput then s.fail (rejectionReason reason)
    else
      ({ s with phase := .failed, deadlineMs := none }, [.reportFailed (rejectionReason reason)])
  | .paused requestId epoch =>
    if requestId ≠ s.requestId ∨ s.phase ≠ .preparing ∨ s.epoch.any (· != epoch) then (s, [])
    else
      match checkedSucc epoch with
      | none => s.fail "the video epoch overflowed"
      | some next =>
        ({ s with phase := .switching, epoch := some next },
          [.releaseOutputs, .sendCommitQuality requestId next])
  | .videoConfig width height fps =>
    if s.awaitingVideo = false then (s, [])
    else if s.requested ≠ some (width, height, fps) then
      s.fail "the new mode did not match the request"
    else if s.phase = .staged then
      ({ s with phase := .awaitingOutput, deadlineMs := some (now + APPLY_DEADLINE_MS) }, [])
    else ({ s with phase := .awaitingOutput }, [])
  | .captureStarted requestId width height fps =>
    if requestId ≠ s.requestId ∨ s.awaitingVideo = false then (s, [])
    else if s.requested ≠ some (width, height, fps) then
      s.fail "the new mode did not match the request"
    else if s.phase = .staged then
      ({ s with phase := .switching, deadlineMs := some (now + APPLY_DEADLINE_MS) }, [])
    else (s, [])
  | .outputReady =>
    if s.phase ≠ .awaitingOutput then (s, [])
    else
      match s.requested with
      | none => (s, [])
      | some (width, height, fps) =>
        ({ s with phase := .applied, applied := s.requested, deadlineMs := none },
          [.reportApplied width height fps])
  | .deadlineExceeded =>
    if s.busy && s.deadlineMs.any (· ≤ now) then s.fail "the apply deadline expired" else (s, [])
  | .userStop =>
    if (s.busy || s.staged) = false then (s, [])
    else
      ({ s with phase := .failed, deadlineMs := none },
        [.reportFailed "the apply was stopped", .stopCapture])

/-! ## What an event can do -/

/-- A request is under way: from the prepare that was taken to its result. -/
def active (s : Switch) : Bool := s.busy || s.staged

/-- Settled is not active. -/
theorem settled_eq (s : Switch) : s.settled = !s.active := by
  unfold settled active busy staged
  cases s.phase <;> rfl

/-- All that a step can do, with what it found. -/
inductive Moves (s : Switch) (now : ℕ) : Event → Switch → List Action → Prop
  | still (e : Event) : Moves s now e s []
  | observed (epoch : UInt32) :
      s.active = false → Moves s now (.epochObserved epoch) { s with epoch := some epoch } []
  | prepared {revision width height fps : UInt16} {next : UInt32} :
      s.active = false → checkedSucc s.nextRequestId = some next →
      Moves s now (.prepare revision width height fps)
        { s with
          nextRequestId := next
          phase := .preparing
          requestId := s.nextRequestId
          requested := some (width, height, fps)
          deadlineMs := some (now + APPLY_DEADLINE_MS) }
        [.sendPrepareQuality s.nextRequestId revision width height fps]
  | staged :
      s.phase = .preparing →
      Moves s now (.prepareAccepted s.requestId false)
        { s with phase := .staged, deadlineMs := none } [.releaseOutputs]
  | left {e : Event} :
      s.phase = .staged →
      Moves s now e { s with phase := .switching, deadlineMs := some (now + APPLY_DEADLINE_MS) } []
  | rejected {reason : UInt8} :
      s.phase = .preparing ∨ s.phase = .staged →
      Moves s now (.rejected s.requestId reason) { s with phase := .failed, deadlineMs := none }
        [.reportFailed (rejectionReason reason)]
  | closed {e : Event} (reason : String) :
      s.active = true →
      (∀ id r, e = .rejected id r → s.phase ≠ .preparing ∧ s.phase ≠ .staged) →
      Moves s now e { s with phase := .failed, deadlineMs := none }
        [.reportFailed reason, .stopCapture, .closeConnection]
  | released {epoch next : UInt32} :
      s.phase = .preparing → s.epoch = none ∨ s.epoch = some epoch → checkedSucc epoch = some next →
      Moves s now (.paused s.requestId epoch) { s with phase := .switching, epoch := some next }
        [.releaseOutputs, .sendCommitQuality s.requestId next]
  | configured {width height fps : UInt16} :
      s.awaitingVideo = true → s.requested = some (width, height, fps) →
      Moves s now (.videoConfig width height fps)
        { s with
          phase := .awaitingOutput
          deadlineMs :=
            if s.phase = .staged then some (now + APPLY_DEADLINE_MS) else s.deadlineMs } []
  | ready {width height fps : UInt16} :
      s.phase = .awaitingOutput → s.requested = some (width, height, fps) →
      Moves s now .outputReady
        { s with phase := .applied, applied := s.requested, deadlineMs := none }
        [.reportApplied width height fps]
  | stopped :
      s.active = true →
      Moves s now .userStop { s with phase := .failed, deadlineMs := none }
        [.reportFailed "the apply was stopped", .stopCapture]

/-- A switch that awaits video is active. -/
theorem active_of_awaitingVideo {s : Switch} (h : s.awaitingVideo = true) : s.active = true := by
  unfold awaitingVideo at h
  unfold active busy staged
  revert h
  cases s.phase <;> decide

theorem awaitingVideo_of_staged {s : Switch} (h : s.phase = .staged) : s.awaitingVideo = true := by
  simp [awaitingVideo, h]

/-- Every step is one of the moves. -/
theorem step_moves (s : Switch) (now : ℕ) (e : Event) :
    Moves s now e (s.step now e).1 (s.step now e).2 := by
  cases e with
  | epochObserved epoch =>
    simp only [step]
    split
    · next h => exact .observed epoch (by simpa [settled_eq] using h)
    · exact .still _
  | prepare revision width height fps =>
    simp only [step, prepare]
    split
    · exact .still _
    next h =>
    have hsettled : s.active = false := by
      simp only [settled_eq] at h
      by_contra hactive
      simp [hactive] at h
    split
    · exact .still _
    · next next hnext => exact .prepared hsettled hnext
  | prepareAccepted requestId streaming =>
    simp only [step]
    split
    · exact .still _
    next hid =>
    obtain rfl := not_not.mp hid
    split
    · next h =>
      obtain ⟨hphase, rfl⟩ := h
      exact .staged hphase
    split
    · next h => exact .left h.1
    · exact .still _
  | rejected requestId reason =>
    simp only [step]
    split
    · exact .still _
    next h =>
    obtain ⟨hid, hactive⟩ := not_or.mp h
    obtain rfl := not_not.mp hid
    have hactive : s.active = true := by simpa only [active, Bool.not_eq_false] using hactive
    split
    · next hafter =>
      refine .closed _ hactive fun id r _ => ?_
      rcases hafter with h | h <;> simp [h]
    · next hafter =>
      -- what is active and past no boundary is preparing or staged
      have hbefore : s.phase = .preparing ∨ s.phase = .staged := by
        revert hactive hafter
        unfold active busy staged
        cases s.phase <;> simp
      exact .rejected hbefore
  | paused requestId epoch =>
    simp only [step]
    split
    · exact .still _
    next h =>
    obtain ⟨hid, h⟩ := not_or.mp h
    obtain ⟨hphase, hepoch⟩ := not_or.mp h
    obtain rfl := not_not.mp hid
    have hphase : s.phase = .preparing := not_not.mp hphase
    have hepoch : s.epoch = none ∨ s.epoch = some epoch := by
      revert hepoch
      cases s.epoch <;> simp
    split
    · exact .closed _ (by simp [active, busy, hphase]) (fun _ _ he => by cases he)
    · next hnext => exact .released hphase hepoch hnext
  | videoConfig width height fps =>
    simp only [step]
    split
    · exact .still _
    next h =>
    have hawaiting : s.awaitingVideo = true := by simpa using h
    split
    · exact .closed _ (active_of_awaitingVideo hawaiting) (fun _ _ he => by cases he)
    next hrequested =>
    have hmoves : Moves s now (.videoConfig width height fps) _ [] :=
      .configured hawaiting (not_not.mp hrequested)
    split
    · next hphase => simpa only [hphase, if_true] using hmoves
    · next hphase => simpa only [hphase, if_false] using hmoves
  | captureStarted requestId width height fps =>
    simp only [step]
    split
    · exact .still _
    next h =>
    have hawaiting : s.awaitingVideo = true := by
      by_contra hother
      exact h (.inr (by simpa using hother))
    split
    · exact .closed _ (active_of_awaitingVideo hawaiting) (fun _ _ he => by cases he)
    split
    · next hphase => exact .left hphase
    · exact .still _
  | outputReady =>
    simp only [step]
    split
    · exact .still _
    next h =>
    have hphase : s.phase = .awaitingOutput := not_not.mp h
    split
    · exact .still _
    · next width height fps hrequested => exact .ready hphase hrequested
  | deadlineExceeded =>
    simp only [step]
    split
    · next h =>
      have hbusy : s.busy = true := (Bool.and_eq_true _ _ ▸ h).1
      exact .closed _ (by simp [active, hbusy]) (fun _ _ he => by cases he)
    · exact .still _
  | userStop =>
    simp only [step]
    split
    · exact .still _
    next h =>
    have hactive : s.active = true := by simpa only [active, Bool.not_eq_false] using h
    exact .stopped hactive

/-- A request of a real size and rate is taken as long as there is an id for it. -/
theorem prepare_of_spare {s : Switch} (now : ℕ) (revision : UInt16) {width height fps : UInt16}
    (hsettled : s.active = false) (hwidth : width ≠ 0) (hheight : height ≠ 0) (hfps : fps ≠ 0)
    (hspare : s.nextRequestId.toNat + 1 < 2 ^ 32) :
    s.step now (.prepare revision width height fps) =
      ({ s with
          nextRequestId := s.nextRequestId + 1
          phase := .preparing
          requestId := s.nextRequestId
          requested := some (width, height, fps)
          deadlineMs := some (now + APPLY_DEADLINE_MS) },
        [.sendPrepareQuality s.nextRequestId revision width height fps]) := by
  have hgate : (!s.settled || width == 0 || height == 0 || fps == 0) = false := by
    simp [settled_eq, hsettled, hwidth, hheight, hfps]
  have hnext : checkedSucc s.nextRequestId = some (s.nextRequestId + 1) := if_pos hspare
  simp only [step, prepare, hgate, hnext]
  rfl

end Switch

end HostQuality
end MobileWebcamBridge
