import MobileWebcamBridge.Wire

/-!
# `QualitySwitch`: the phone's quality machine

`Machine.step` is the source's, event by event. `Moves` is the one case analysis of a step: what an
event does in the phase it meets, with the replies it gives. Everything said of the machine over a
run is read off `Moves`.
-/

set_option autoImplicit false

namespace MobileWebcamBridge

open Wire

namespace QualitySwitch

/-- How long an accepted request may take. -/
def PREPARED_DEADLINE_MS : ℤ := 5000
/-- The camera may not be used. -/
def REASON_PERMISSION : ℕ := 1
/-- The app is not shown. -/
def REASON_FOREGROUND : ℕ := 2
/-- The camera has no such mode. -/
def REASON_UNSUPPORTED_MODE : ℕ := 3
/-- The PC's list of modes is not the current one. -/
def REASON_STALE_REVISION : ℕ := 4
/-- A request is under way. -/
def REASON_BUSY : ℕ := 5
/-- The request took too long. -/
def REASON_DEADLINE : ℕ := 6
/-- The capture of the mode has failed. -/
def REASON_CAPTURE_FAILED : ℕ := 7
/-- The edition has no such mode. -/
def REASON_EDITION : ℕ := 8

/-- The phases of a request. -/
inductive Phase
  | idle | prepared | staged | starting | applied | failed
deriving DecidableEq, Repr

/-- The phases in which another request is refused as busy. -/
def Phase.busy : Phase → Bool
  | .prepared | .staged | .starting => true
  | .idle | .applied | .failed => false

/-- Whether the request is accepted. -/
inductive Verdict
  | accept
  | reject (reason : ℕ)
deriving DecidableEq, Repr

/-- The fields of `Event.Prepare`. -/
structure Prepare where
  requestId : ℕ
  revision : ℕ
  width : ℕ
  height : ℕ
  fps : ℕ
  verdict : Verdict
  streaming : Bool
deriving DecidableEq, Repr

/-- What the machine is told. -/
inductive Event
  | prepare (request : Prepare)
  | commit (requestId epoch : ℕ)
  | captureStarted (width height fps : ℕ)
  | deadlineExceeded (nowMs : ℤ)
  | beginStagedCapture
  | captureFailed
  | userStop
deriving DecidableEq, Repr

/-- What the machine asks of its caller. -/
inductive Action
  | sendQualityResult (requestId : ℕ) (status : ResultStatus) (reason width height fps : ℕ)
  | sendPaused (requestId epoch : ℕ)
  | startCapture (width height fps : ℕ)
  | stopCapture
deriving DecidableEq, Repr

/-- A reply, as opposed to something done to the camera. -/
def Action.isReply : Action → Bool
  | .sendQualityResult .. | .sendPaused .. => true
  | .startCapture .. | .stopCapture => false

/-- The phone's half of a quality change. -/
structure Machine where
  phase : Phase
  stagedWidth : ℕ
  stagedHeight : ℕ
  stagedFps : ℕ
  epoch : ℕ
  lastRequestId : ℕ
  deadlineMs : Option ℤ
  lastReply : List Action
deriving DecidableEq, Repr

namespace Machine

/-- No request was made yet. -/
def new (startingEpoch : ℕ) : Machine :=
  { phase := .idle, stagedWidth := 0, stagedHeight := 0, stagedFps := 0, epoch := startingEpoch
    lastRequestId := 0, deadlineMs := none, lastReply := [] }

/-- An answer that is kept for a repeated request. -/
def reply (m : Machine) (action : Action) : Machine × List Action :=
  ({ m with lastReply := [action] }, [action])

/-- The request fails, and the capture stops. -/
def fail (m : Machine) (reason : ℕ) : Machine × List Action :=
  let m := { m with
    phase := .failed, deadlineMs := none, stagedWidth := 0, stagedHeight := 0, stagedFps := 0 }
  let (m, actions) := m.reply (.sendQualityResult m.lastRequestId .rejected reason 0 0 0)
  (m, .stopCapture :: actions)

/-- A request: a repeated one is answered again, and an older one not at all. -/
def prepare (m : Machine) (nowMs : ℤ) (event : Prepare) : Machine × List Action :=
  if event.requestId = m.lastRequestId ∧ m.lastRequestId ≠ 0 then (m, m.lastReply)
  else if ¬ (1 ≤ event.requestId ∧ event.requestId ≤ 0xffffffff) ∨
      event.requestId < m.lastRequestId then (m, [])
  else if m.phase = .prepared ∨ m.phase = .starting ∨ m.phase = .staged then
    (m, [.sendQualityResult event.requestId .rejected REASON_BUSY 0 0 0])
  else
    let m := { m with lastRequestId := event.requestId }
    match event.verdict with
    | .reject reason => m.reply (.sendQualityResult event.requestId .rejected reason 0 0 0)
    | .accept =>
      let m := { m with
        stagedWidth := event.width, stagedHeight := event.height, stagedFps := event.fps }
      if event.streaming then
        let paused := Action.sendPaused event.requestId m.epoch
        ({ m with
            phase := .prepared
            deadlineMs := some (nowMs + PREPARED_DEADLINE_MS)
            lastReply := [paused] }, [.stopCapture, paused])
      else
        { m with phase := .staged, deadlineMs := none }.reply
          (.sendQualityResult event.requestId .staged 0 0 0 0)

/-- `Machine.step`. -/
def step (m : Machine) (nowMs : ℤ) : Event → Machine × List Action
  | .prepare event => m.prepare nowMs event
  | .commit requestId epoch =>
    if m.phase ≠ .prepared ∨ requestId ≠ m.lastRequestId ∨ epoch ≠ m.epoch + 1 ∨
        epoch > 0xffffffff then (m, [])
    else
      ({ m with phase := .starting, epoch := epoch },
        [.startCapture m.stagedWidth m.stagedHeight m.stagedFps])
  | .captureStarted width height fps =>
    if m.phase ≠ .starting ∧ m.phase ≠ .staged then (m, [])
    else if width ≠ m.stagedWidth ∨ height ≠ m.stagedHeight ∨ fps ≠ m.stagedFps then
      m.fail REASON_UNSUPPORTED_MODE
    else
      { m with phase := .applied, deadlineMs := none }.reply
        (.sendQualityResult m.lastRequestId .applied 0 width height fps)
  -- the event's own clock value is not looked at
  | .deadlineExceeded _ =>
    if m.deadlineMs.any (fun deadline => nowMs ≥ deadline) ∧
        (m.phase = .prepared ∨ m.phase = .starting) then m.fail REASON_DEADLINE
    else (m, [])
  | .beginStagedCapture =>
    if m.phase ≠ .staged then (m, [])
    else
      { m with phase := .starting, deadlineMs := some (nowMs + PREPARED_DEADLINE_MS) }.reply
        (.sendQualityResult m.lastRequestId .switching 0 0 0 0)
  | .captureFailed =>
    if m.phase = .prepared ∨ m.phase = .staged ∨ m.phase = .starting then
      m.fail REASON_CAPTURE_FAILED
    else (m, [])
  | .userStop =>
    if m.phase = .prepared ∨ m.phase = .staged ∨ m.phase = .starting then m.fail REASON_FOREGROUND
    else (m, [])

/-- What a step of the machine can do. -/
inductive Moves (m : Machine) (nowMs : ℤ) : Event → Machine → List Action → Prop
  | still (e : Event) : Moves m nowMs e m []
  | replayed {r : Prepare} :
      r.requestId = m.lastRequestId → Moves m nowMs (.prepare r) m m.lastReply
  | busy {r : Prepare} : m.phase.busy = true →
      Moves m nowMs (.prepare r) m [.sendQualityResult r.requestId .rejected REASON_BUSY 0 0 0]
  | refused {r : Prepare} {reason : ℕ} :
      m.lastRequestId < r.requestId → m.phase.busy = false → r.verdict = .reject reason →
      Moves m nowMs (.prepare r)
        { m with
          lastRequestId := r.requestId
          lastReply := [.sendQualityResult r.requestId .rejected reason 0 0 0] }
        [.sendQualityResult r.requestId .rejected reason 0 0 0]
  | prepared {r : Prepare} :
      m.lastRequestId < r.requestId → m.phase.busy = false → r.verdict = .accept →
      r.streaming = true →
      Moves m nowMs (.prepare r)
        { m with
          lastRequestId := r.requestId
          stagedWidth := r.width
          stagedHeight := r.height
          stagedFps := r.fps
          phase := .prepared
          deadlineMs := some (nowMs + PREPARED_DEADLINE_MS)
          lastReply := [.sendPaused r.requestId m.epoch] }
        [.stopCapture, .sendPaused r.requestId m.epoch]
  | staged {r : Prepare} :
      m.lastRequestId < r.requestId → m.phase.busy = false → r.verdict = .accept →
      r.streaming = false →
      Moves m nowMs (.prepare r)
        { m with
          lastRequestId := r.requestId
          stagedWidth := r.width
          stagedHeight := r.height
          stagedFps := r.fps
          phase := .staged
          deadlineMs := none
          lastReply := [.sendQualityResult r.requestId .staged 0 0 0 0] }
        [.sendQualityResult r.requestId .staged 0 0 0 0]
  | committed : m.phase = .prepared →
      Moves m nowMs (.commit m.lastRequestId (m.epoch + 1))
        { m with phase := .starting, epoch := m.epoch + 1 }
        [.startCapture m.stagedWidth m.stagedHeight m.stagedFps]
  | applied : m.phase = .starting ∨ m.phase = .staged →
      Moves m nowMs (.captureStarted m.stagedWidth m.stagedHeight m.stagedFps)
        { m with
          phase := .applied
          deadlineMs := none
          lastReply := [.sendQualityResult m.lastRequestId .applied 0 m.stagedWidth m.stagedHeight
            m.stagedFps] }
        [.sendQualityResult m.lastRequestId .applied 0 m.stagedWidth m.stagedHeight m.stagedFps]
  | begun : m.phase = .staged →
      Moves m nowMs .beginStagedCapture
        { m with
          phase := .starting
          deadlineMs := some (nowMs + PREPARED_DEADLINE_MS)
          lastReply := [.sendQualityResult m.lastRequestId .switching 0 0 0 0] }
        [.sendQualityResult m.lastRequestId .switching 0 0 0 0]
  | failed {e : Event} (reason : ℕ) : m.phase.busy = true → (∀ r, e ≠ .prepare r) →
      Moves m nowMs e (m.fail reason).1 (m.fail reason).2

theorem busy_iff {phase : Phase} :
    phase.busy = true ↔ phase = .prepared ∨ phase = .starting ∨ phase = .staged := by
  cases phase <;> simp [Phase.busy]

theorem prepare_moves (m : Machine) (nowMs : ℤ) (r : Prepare) :
    Moves m nowMs (.prepare r) (m.prepare nowMs r).1 (m.prepare nowMs r).2 := by
  unfold prepare
  split
  · next hlast => exact .replayed hlast.1
  next hlast =>
  split
  · exact .still _
  next hid =>
  simp only [not_or, Decidable.not_not, Nat.not_lt] at hid
  have hnew : m.lastRequestId < r.requestId := by
    rcases Nat.lt_or_eq_of_le hid.2 with hlt | heq
    · exact hlt
    · exfalso
      apply hlast
      refine ⟨heq.symm, ?_⟩
      omega
  split
  · next hbusy => exact .busy (busy_iff.mpr hbusy)
  next hbusy =>
  have hfree : m.phase.busy = false := by
    rw [← Bool.not_eq_true, busy_iff]
    exact hbusy
  dsimp only
  split
  · next reason hverdict => exact .refused hnew hfree hverdict
  · next hverdict =>
    split
    · next hstreaming => exact .prepared hnew hfree hverdict hstreaming
    · next hstreaming => exact .staged hnew hfree hverdict (by simpa using hstreaming)

theorem step_moves (m : Machine) (nowMs : ℤ) (e : Event) :
    Moves m nowMs e (m.step nowMs e).1 (m.step nowMs e).2 := by
  cases e with
  | prepare r => exact prepare_moves m nowMs r
  | commit requestId epoch =>
    simp only [step]
    split
    · exact .still _
    · next hcommit =>
      simp only [not_or, Decidable.not_not] at hcommit
      obtain ⟨hphase, rfl, rfl, -⟩ := hcommit
      exact .committed hphase
  | captureStarted width height fps =>
    simp only [step]
    split
    · exact .still _
    next hphase =>
    have hon : m.phase = .starting ∨ m.phase = .staged := by
      by_contra hneither
      exact hphase (not_or.mp hneither)
    split
    · refine .failed _ (busy_iff.mpr ?_) nofun
      exact hon.elim (fun h => .inr (.inl h)) fun h => .inr (.inr h)
    · next hsize =>
      simp only [not_or, Decidable.not_not] at hsize
      obtain ⟨rfl, rfl, rfl⟩ := hsize
      exact .applied hon
  | deadlineExceeded now =>
    simp only [step]
    split
    · next hdue =>
      refine .failed _ (busy_iff.mpr ?_) nofun
      exact hdue.2.elim .inl fun h => .inr (.inl h)
    · exact .still _
  | beginStagedCapture =>
    simp only [step]
    split
    · exact .still _
    · next hphase => exact .begun (Decidable.not_not.mp hphase)
  | captureFailed | userStop =>
    simp only [step]
    split
    · next hphase =>
      refine .failed _ (busy_iff.mpr ?_) nofun
      exact hphase.elim .inl fun h => .inr h.symm
    · exact .still _

/-! ## What holds in every run -/

/-- A deadline stands exactly while a request is prepared or starting. -/
structure Sound (m : Machine) : Prop where
  deadline : m.deadlineMs.isSome = true ↔ m.phase = .prepared ∨ m.phase = .starting
  replies : ∀ a ∈ m.lastReply, a.isReply = true

theorem sound_new (startingEpoch : ℕ) : (new startingEpoch).Sound :=
  ⟨by simp [new], by simp [new]⟩

theorem Sound.moves {m m' : Machine} {nowMs : ℤ} {e : Event} {actions : List Action} (h : m.Sound)
    (hm : Moves m nowMs e m' actions) : m'.Sound := by
  have hreply (a : Action) (ha : a.isReply = true) : ∀ b ∈ [a], b.isReply = true := by
    intro b hb
    rw [List.mem_singleton.mp hb]
    exact ha
  cases hm with
  | still | replayed | busy => exact h
  | refused _ hfree => exact ⟨h.deadline, hreply _ rfl⟩
  | prepared => exact ⟨by simp, hreply _ rfl⟩
  | staged => exact ⟨by simp, hreply _ rfl⟩
  | committed hphase =>
    refine ⟨?_, h.replies⟩
    have hset := h.deadline.mpr (.inl hphase)
    simp [hset]
  | applied => exact ⟨by simp, hreply _ rfl⟩
  | begun => exact ⟨by simp, hreply _ rfl⟩
  | failed => exact ⟨by simp [fail, reply], hreply _ rfl⟩

/-- The capture is started by the commit of the prepared request alone. -/
theorem Moves.starts {m m' : Machine} {nowMs : ℤ} {e : Event} {actions : List Action}
    (hm : Moves m nowMs e m' actions) (h : m.Sound) {width height fps : ℕ}
    (hmem : .startCapture width height fps ∈ actions) :
    m.phase = .prepared ∧ e = .commit m.lastRequestId (m.epoch + 1) ∧ m'.phase = .starting := by
  cases hm with
  | committed hphase => exact ⟨hphase, rfl, rfl⟩
  | replayed =>
    have := h.replies _ hmem
    cases this
  | still => cases hmem
  | busy | refused | staged | applied | begun => cases List.mem_singleton.mp hmem
  | prepared | failed =>
    rcases List.mem_cons.mp hmem with heq | hmem
    · cases heq
    · cases List.mem_singleton.mp hmem

/-- A deadline that is not running lets nothing happen. -/
theorem tick_still {m : Machine} (h : ¬ (m.phase = .prepared ∨ m.phase = .starting)) (nowMs : ℤ)
    (now : ℤ) : m.step nowMs (.deadlineExceeded now) = (m, []) := by
  simp [step, h]

end Machine

end QualitySwitch
end MobileWebcamBridge
