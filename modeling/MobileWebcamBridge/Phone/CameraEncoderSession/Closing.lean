import MobileWebcamBridge.Phone.CameraEncoderSession

/-!
# A closed camera session holds no camera

`close` tests and sets `closed` once, so its statements run once, and `progress` counts how many of
them have. `Sound` says what each of them leaves behind. The gap is in `onOpened`: it assigns
`camera` after it has found `closed` false, and a `close` that reads the field in between leaves the
device open. `closed_session_holds_nothing` says that this is the only gap.
-/

set_option autoImplicit false

namespace MobileWebcamBridge
namespace CameraEncoderSession

variable {s s' : Session} {p : ℕ} {t t' : Thread} {ok : Bool}

/-- How many statements of `close` come before this one. -/
def Close.rank : Close → ℕ
  | .compareAndSet | .returned => 0
  | .stopRepeating => 1
  | .abortCaptures => 2
  | .closeSession => 3
  | .clearSession => 4
  | .closeCamera => 5
  | .clearCamera => 6
  | .closeEncoder => 7
  | .clearEncoder => 8
  | .removeCallbacks => 9
  | .quitSafely => 10
  | .join => 11

/-- How far the camera thread is from the end of its `close`. -/
def Thread.rank : Thread → ℕ
  | .closing c => c.rank
  | _ => 0

/-- How far `close` has come, whichever thread runs it. -/
def Session.progress (s : Session) : ℕ :=
  max ((s.closer.map Close.rank).getD 0) (max s.thread.rank (if s.quit then 11 else 0))

/-- `close` has returned, and so has the callback that was running. -/
def Session.Quiet (s : Session) : Prop := s.closer = some .returned ∧ s.thread = .idle

/-- What `close` promises. -/
structure Session.Released (s : Session) : Prop where
  device : .onOpened ∈ s.delivered → s.deviceClosed = true
  repeating : s.repeating = false
  encoder : s.encoderOpen = false

/-- `onOpened` has found `closed` false and has not assigned `camera`. -/
def Thread.assigning : Thread → Bool
  | .openedAuthorized | .assignCamera => true
  | _ => false

/-- `onOpened` holds the device, and the field does not. -/
def Thread.holding : Thread → Bool
  | .entered .onOpened | .closeDevice _ => true
  | t => t.assigning

/-- Only a device that was handed over brings the thread here. -/
def Thread.handed : Thread → Bool
  | .entered .onOpened | .createCaptureSession | .entered .onConfigured | .configuredAuthorized
  | .assignSession | .createCaptureRequest | .setRepeatingRequest => true
  | t => t.assigning

/-- `close` does not read `camera` while `onOpened` is about to assign it. -/
def InTime (_ : List Empty) (s : Session) : Label → Prop
  | .closer _ => s.closer = some .closeCamera → s.thread.assigning = false
  | _ => True

instance (tr : List Empty) (s : Session) (label : Label) : Decidable (InTime tr s label) := by
  cases label <;> (unfold InTime; infer_instance)

/-! ## What holds in every run -/

/-- `p` statements of `close` have run, and the camera thread is at `t`. -/
structure Sound (s : Session) (p : ℕ) (t : Thread) : Prop where
  started : s.started = true
  closed : s.closed = true ↔ 1 ≤ p
  quit : s.quit = true ↔ 11 ≤ p
  removed : 10 ≤ p → s.callbacksRemoved = true
  encoder : s.encoderOpen = true → s.encoder = true ∧ p < 8
  repeating : s.repeating = true → s.deviceClosed = false
  handed : t.handed = true ∨ s.created = true ∨ s.camera = true ∨ s.repeating = true →
    .onOpened ∈ s.delivered
  vacant : t = .entered .onOpened ∨ t.assigning = true → s.camera = false
  fresh : s.deviceClosed = true →
    s.closed = true ∨ t = .retest ∨ t = .closing .compareAndSet
  early : t.assigning = true → s.deviceClosed = false

/-- The thread goes on, past the part of `onOpened` that holds the device. -/
theorem Sound.move (h : Sound s p t) (hassigning : t'.assigning = false)
    (hentered : t' ≠ .entered .onOpened)
    (hdelivered : t'.handed = true → .onOpened ∈ s.delivered)
    (hfresh : s.deviceClosed = true →
      s.closed = true ∨ t' = .retest ∨ t' = .closing .compareAndSet) : Sound s p t' :=
  { h with
    handed := by
      intro hor
      rcases hor with ht | hrest
      · exact hdelivered ht
      · exact h.handed (.inr hrest)
    vacant := by
      intro hor
      simp [hassigning, hentered] at hor
    fresh := hfresh
    early := by
      intro ht
      simp [hassigning] at ht }

/-- The invariant takes the place of the threads apart from the state. -/
theorem Sound.onThread (h : Sound s p t) (place : Thread) :
    Sound { s with thread := place } p t :=
  { h with }

/-- The other closer may be anywhere. -/
theorem Sound.onCloser (h : Sound s p t) (place : Option Close) :
    Sound { s with closer := place } p t :=
  { h with }

/-- The session is closed once either closer has begun. -/
theorem Sound.closed_max (h : Sound s p t) (hp : 1 ≤ p) (q : ℕ) :
    s.closed = true ↔ 1 ≤ max p q := by
  rw [h.closed]
  omega

/-- The thread quits once either closer got there. -/
theorem Sound.quit_max {q : ℕ} (h : Sound s p t) (hq : q ≤ 10) :
    s.quit = true ↔ 11 ≤ max p q := by
  rw [h.quit]
  omega

/-- The next statement of `close`, where this one changes nothing that the invariant counts. -/
theorem Sound.advance {q : ℕ} (h : Sound s p t) (hp : 1 ≤ p) (hq : q ≤ 7) : Sound s (max p q) t :=
  { h with
    closed := h.closed_max hp q
    quit := h.quit_max (Nat.le_trans hq (by decide))
    removed := by
      intro hr
      apply h.removed
      omega
    encoder := by
      intro hopen
      obtain ⟨hencoder, hlt⟩ := h.encoder hopen
      exact ⟨hencoder, by omega⟩ }

theorem Sound.stopped (h : Sound s p t) : Sound { s with repeating := false } p t :=
  { h with
    repeating := by
      intro hrepeating
      cases hrepeating
    handed := by
      intro hor
      apply h.handed
      grind }

/-- The first statement of `close`, of which one closer gets through. -/
theorem Sound.compareAndSet (h : Sound s p t) :
    Sound (s.closeStep ok .compareAndSet).1
      (max p (s.closeStep ok .compareAndSet).2.rank) t := by
  have hclosed := h.closed
  unfold Session.closeStep
  by_cases hset : s.closed = true
  · rw [if_pos hset]
    exact h.advance (hclosed.mp hset) (Nat.zero_le 7)
  · rw [if_neg hset]
    have hp : p = 0 := by
      rw [hclosed] at hset
      omega
    subst hp
    show Sound { s with closed := true } 1 t
    exact { h with
      closed := by simp
      quit := by simpa using h.quit
      removed := by simp
      encoder := by
        intro hopen
        exact ⟨(h.encoder hopen).1, by decide⟩
      fresh := fun _ => .inl rfl }

/-- What a statement of `close` leaves behind. -/
theorem Sound.closeStep {c : Close} (h : Sound s p t) (hc : c.rank ≤ p) (ok : Bool) :
    Sound (s.closeStep ok c).1 (max p (s.closeStep ok c).2.rank) t := by
  -- past the first statement `closed` is set
  have hpos (hrank : 1 ≤ c.rank) : 1 ≤ p := Nat.le_trans hrank hc
  cases c with
  | compareAndSet => exact h.compareAndSet
  | stopRepeating =>
    show Sound (if (s.captureSession && ok) = true then _ else s) (max p 2) t
    split
    · exact h.stopped.advance hc (by decide)
    · exact h.advance hc (by decide)
  | abortCaptures =>
    show Sound s (max p 3) t
    exact h.advance (hpos (by decide)) (by decide)
  | closeSession =>
    show Sound (if s.captureSession = true then _ else s) (max p 4) t
    have hadvanced := h.stopped.advance (hpos (by decide)) (show 4 ≤ 7 by decide)
    split
    · exact { hadvanced with }
    · exact h.advance (hpos (by decide)) (by decide)
  | clearSession =>
    have hadvanced := h.advance (hpos (by decide)) (show 5 ≤ 7 by decide)
    exact { hadvanced with }
  | closeCamera =>
    show Sound (if s.camera = true then _ else s) (max p 6) t
    have hp : 1 ≤ p := hpos (by decide)
    have hadvanced := h.stopped.advance hp (show 6 ≤ 7 by decide)
    split
    · next hcamera =>
      exact { hadvanced with
        repeating := by
          intro hrepeating
          cases hrepeating
        fresh := fun _ => .inl (h.closed.mpr hp)
        early := fun ht => absurd (h.vacant (.inr ht)) (by simp [hcamera]) }
    · exact h.advance hp (by decide)
  | clearCamera =>
    have hadvanced := h.advance (hpos (by decide)) (show 7 ≤ 7 by decide)
    show Sound { s with camera := false } (max p 7) t
    exact { hadvanced with
      handed := by
        intro hor
        apply h.handed
        grind
      vacant := fun _ => rfl }
  | closeEncoder =>
    show Sound (if s.encoder = true then _ else s) (max p 8) t
    have hp : 1 ≤ p := hpos (by decide)
    have hremoved : 10 ≤ max p 8 → s.callbacksRemoved = true := by
      intro hr
      apply h.removed
      omega
    split
    · exact { h with
        closed := h.closed_max hp 8
        quit := h.quit_max (by decide)
        removed := hremoved
        encoder := by
          intro hopen
          cases hopen }
    · next hencoder =>
      exact { h with
        closed := h.closed_max hp 8
        quit := h.quit_max (by decide)
        removed := hremoved
        encoder := fun hopen => absurd (h.encoder hopen).1 hencoder }
  | clearEncoder =>
    show Sound { s with encoder := false } (max p 9) t
    have hp : 8 ≤ p := hc
    exact { h with
      closed := h.closed_max (by omega) 9
      quit := h.quit_max (by decide)
      removed := by
        intro hr
        apply h.removed
        omega
      encoder := by
        intro hopen
        have hlt := (h.encoder hopen).2
        omega }
  | removeCallbacks =>
    show Sound { s with callbacksRemoved := true } (max p 10) t
    have hp : 9 ≤ p := hc
    exact { h with
      closed := h.closed_max (by omega) 10
      quit := h.quit_max (by decide)
      removed := fun _ => rfl
      encoder := by
        intro hopen
        have hlt := (h.encoder hopen).2
        omega }
  | quitSafely =>
    show Sound { s with quit := true } (max p 11) t
    have hp : 10 ≤ p := hc
    exact { h with
      closed := h.closed_max (by omega) 11
      quit := by
        have hle : 11 ≤ max p 11 := by omega
        simp [hle]
      removed := fun _ => h.removed hp
      encoder := by
        intro hopen
        have hlt := (h.encoder hopen).2
        omega }
  | join =>
    show Sound s (max p 0) t
    rw [Nat.max_zero]
    exact h
  | returned =>
    show Sound s (max p 0) t
    rw [Nat.max_zero]
    exact h

/-- A device is closed only after `close` has begun, or in the test that finds it so. -/
theorem Sound.deviceClosed (h : Sound s p t) (hretest : t ≠ .retest)
    (hclose : t ≠ .closing .compareAndSet) (hdevice : s.deviceClosed = true) : s.closed = true := by
  rcases h.fresh hdevice with hclosed | hthread | hthread
  · exact hclosed
  · exact absurd hthread hretest
  · exact absurd hthread hclose

/-- The camera thread is further on. -/
theorem Sound.later (h : Sound s p t) (hretest : t ≠ .retest) (hclose : t ≠ .closing .compareAndSet)
    (hassigning : t'.assigning = false) (hentered : t' ≠ .entered .onOpened)
    (hdelivered : t'.handed = true → .onOpened ∈ s.delivered) : Sound s p t' :=
  h.move hassigning hentered hdelivered
    fun hdevice => .inl (h.deviceClosed hretest hclose hdevice)

/-- `onOpened` finds `closed` set or clear. -/
theorem Sound.testOpened (h : Sound s p (.entered .onOpened)) :
    Sound s p (if s.closed = true then .closeDevice true else .openedAuthorized) := by
  have hfresh := h.deviceClosed (by decide) (by decide)
  split
  · exact h.later (by decide) (by decide) rfl (by decide) fun hh => by cases hh
  · next hopen =>
    have hdevice : s.deviceClosed = false := by
      by_contra hd
      apply hopen
      apply hfresh
      simpa using hd
    exact { h with
      handed := fun _ => h.handed (.inl rfl)
      vacant := fun _ => h.vacant (.inl rfl)
      fresh := fun hd => .inl (hfresh hd)
      early := fun _ => hdevice }

/-- `onOpened` asks `authorized`. -/
theorem Sound.askOpened (h : Sound s p .openedAuthorized) :
    Sound s p (if ok = true then .assignCamera else .closeDevice true) := by
  split
  · exact { h with
      handed := fun _ => h.handed (.inl rfl)
      vacant := fun _ => h.vacant (.inr rfl)
      fresh := fun hd => .inl (h.deviceClosed (by decide) (by decide) hd)
      early := fun _ => h.early rfl }
  · exact h.later (by decide) (by decide) rfl (by decide) fun hh => by cases hh

/-- The device is assigned. -/
theorem Sound.assignCamera (h : Sound s p .assignCamera) :
    Sound { s with camera := true } p .createCaptureSession := by
  have hdelivered : .onOpened ∈ s.delivered := h.handed (.inl rfl)
  have hmoved : Sound s p .createCaptureSession :=
    h.later (by decide) (by decide) rfl (by decide) fun _ => hdelivered
  exact { hmoved with
    handed := fun _ => hdelivered
    vacant := by
      intro hor
      simp [Thread.assigning] at hor }

/-- A callback that has closed the device goes on to close the session. -/
theorem Sound.closeDevice {retest : Bool} (h : Sound s p (.closeDevice retest)) :
    Sound s.closeDevice p (if retest = true then .retest else .closing .compareAndSet) := by
  have hplain : Sound { s with repeating := false } p .idle :=
    h.stopped.later (by simp) (by simp) rfl (by decide) fun hh => by cases hh
  split
  · exact { hplain with
      repeating := by
        intro hrepeating
        cases hrepeating
      vacant := by
        intro hor
        simp [Thread.assigning] at hor
      fresh := fun _ => .inr (.inl rfl)
      early := by
        intro ht
        cases ht }
  · exact { hplain with
      repeating := by
        intro hrepeating
        cases hrepeating
      vacant := by
        intro hor
        simp [Thread.assigning] at hor
      fresh := fun _ => .inr (.inr rfl)
      early := by
        intro ht
        cases ht }

/-- The request is repeated on an open device. -/
theorem Sound.repeat (h : Sound s p .setRepeatingRequest) (hdevice : s.deviceClosed = false) :
    Sound { s with repeating := true } p .onCameraStarted := by
  have hdelivered : .onOpened ∈ s.delivered := h.handed (.inl rfl)
  have hmoved : Sound s p .onCameraStarted :=
    h.later (by decide) (by decide) rfl (by decide) fun _ => hdelivered
  exact { hmoved with
    repeating := fun _ => hdevice
    handed := fun _ => hdelivered }

theorem Sound.closeCaptureSession (h : Sound s p t) : Sound s.closeCaptureSession p t :=
  { h.stopped with }

/-- A statement of the camera thread, outside `close`. -/
theorem Sound.cameraStep (h : Sound s p s.thread) (hstep : s.cameraStep ok = some s')
    (hclose : ∀ c, s.thread ≠ .closing c) : Sound s' p s'.thread := by
  unfold Session.cameraStep at hstep
  cases hthread : s.thread with
  | idle => simp [hthread] at hstep
  | closing c => exact absurd hthread (hclose c)
  | entered callback =>
    rw [hthread] at h hstep
    cases callback with
    | onOpened =>
      obtain rfl := Option.some.inj hstep
      exact h.testOpened.onThread _
    | onConfigured =>
      obtain rfl := Option.some.inj hstep
      apply Sound.onThread
      show Sound s p (if s.closed = true then _ else _)
      split
      · exact h.later (by decide) (by decide) rfl (by decide) fun hh => by cases hh
      · exact h.later (by decide) (by decide) rfl (by decide) fun _ => h.handed (.inl rfl)
    | onDisconnected | onError | onConfigureFailed =>
      obtain rfl := Option.some.inj hstep
      apply Sound.onThread
      -- the three failures go straight to `onCameraError`
      apply h.later (by decide) (by decide) rfl
      · simp
      · intro hh
        cases hh
  | openedAuthorized =>
    rw [hthread] at h hstep
    obtain rfl := Option.some.inj hstep
    exact h.askOpened.onThread _
  | assignCamera =>
    rw [hthread] at h hstep
    obtain rfl := Option.some.inj hstep
    exact h.assignCamera.onThread _
  | createCaptureSession =>
    rw [hthread] at h hstep
    obtain rfl := Option.some.inj hstep
    have hmoved : Sound s p .idle :=
      h.later (by decide) (by decide) rfl (by decide) fun hh => by cases hh
    exact { hmoved with handed := fun _ => h.handed (.inl rfl) }
  | closeDevice retest =>
    rw [hthread] at h hstep
    obtain rfl := Option.some.inj hstep
    exact h.closeDevice.onThread _
  | configuredAuthorized =>
    rw [hthread] at h hstep
    obtain rfl := Option.some.inj hstep
    apply Sound.onThread
    show Sound s p (if ok = true then _ else _)
    split
    · exact h.later (by decide) (by decide) rfl (by decide) fun _ => h.handed (.inl rfl)
    · exact h.later (by decide) (by decide) rfl (by decide) fun hh => by cases hh
  | assignSession =>
    rw [hthread] at h hstep
    obtain rfl := Option.some.inj hstep
    have hmoved : Sound s p .createCaptureRequest :=
      h.later (by decide) (by decide) rfl (by decide) fun _ => h.handed (.inl rfl)
    exact { hmoved with }
  | createCaptureRequest =>
    rw [hthread] at h hstep
    obtain rfl := Option.some.inj hstep
    apply Sound.onThread
    show Sound s p (if (ok && !s.deviceClosed) = true then _ else _)
    split
    · exact h.later (by decide) (by decide) rfl (by decide) fun _ => h.handed (.inl rfl)
    · exact h.later (by decide) (by decide) rfl (by decide) fun hh => by cases hh
  | setRepeatingRequest =>
    rw [hthread] at h hstep
    dsimp only at hstep
    split at hstep
    · next hok =>
      obtain rfl := Option.some.inj hstep
      -- the request goes out only while the device is open
      have hdevice : s.deviceClosed = false := by
        simp only [Bool.and_eq_true, Bool.not_eq_true'] at hok
        exact hok.1.2
      exact (h.repeat hdevice).onThread _
    · obtain rfl := Option.some.inj hstep
      apply Sound.onThread
      show Sound s p .onCameraError
      exact h.later (by decide) (by decide) rfl (by decide) fun hh => by cases hh
  | onCameraStarted =>
    rw [hthread] at h hstep
    obtain rfl := Option.some.inj hstep
    split
    · apply Sound.onThread
      show Sound s p .idle
      exact h.later (by decide) (by decide) rfl (by decide) fun hh => by cases hh
    · apply Sound.onThread
      show Sound s p .onCameraError
      exact h.later (by decide) (by decide) rfl (by decide) fun hh => by cases hh
  | onCameraError =>
    rw [hthread] at h hstep
    obtain rfl := Option.some.inj hstep
    apply Sound.onThread
    show Sound s p (.closing .compareAndSet)
    exact h.later (by decide) (by decide) rfl (by decide) fun hh => by cases hh
  | closeSession retest =>
    rw [hthread] at h hstep
    obtain rfl := Option.some.inj hstep
    apply Sound.onThread
    show Sound s.closeCaptureSession p (if retest = true then _ else _)
    split
    · exact h.closeCaptureSession.later (by simp) (by simp) rfl (by decide) fun hh => by cases hh
    · exact h.closeCaptureSession.later (by simp) (by simp) rfl (by decide) fun hh => by cases hh
  | retest =>
    rw [hthread] at h hstep
    obtain rfl := Option.some.inj hstep
    split
    · next hclosed =>
      apply Sound.onThread
      show Sound s p .idle
      exact h.move rfl (by decide) (fun hh => by cases hh) fun _ => .inl hclosed
    · apply Sound.onThread
      show Sound s p (.closing .compareAndSet)
      exact h.move rfl (by decide) (fun hh => by cases hh) fun _ => .inr (.inr rfl)

/-! ## Progress -/

/-- A statement of `close` moves nobody. -/
@[simp] theorem closer_closeStep (s : Session) (ok : Bool) (c : Close) :
    (s.closeStep ok c).1.closer = s.closer := by
  cases c <;> (unfold Session.closeStep; dsimp only; try split) <;> rfl

/-- A statement of `close` moves nobody. -/
@[simp] theorem thread_closeStep (s : Session) (ok : Bool) (c : Close) :
    (s.closeStep ok c).1.thread = s.thread := by
  cases c <;> (unfold Session.closeStep; dsimp only; try split) <;> rfl

theorem quit_closeStep (s : Session) (ok : Bool) {c : Close} (hc : c ≠ .quitSafely) :
    (s.closeStep ok c).1.quit = s.quit := by
  cases c with
  | quitSafely => exact absurd rfl hc
  | _ => (unfold Session.closeStep; dsimp only; try split) <;> rfl

/-- Every statement but the wait leads on. -/
theorem rank_le (s : Session) (ok : Bool) {c : Close} (hc : c ≠ .join) :
    c.rank ≤ (s.closeStep ok c).2.rank := by
  cases c with
  | join => exact absurd rfl hc
  | compareAndSet | returned => exact Nat.zero_le _
  | _ => exact Nat.le_succ _

/-- Once the next statement is counted, this one need not be. -/
theorem rank_closeStep {c : Close} (h : Sound s p t) (hc : c.rank ≤ p) (ok : Bool) :
    max (s.closeStep ok c).2.rank (if (s.closeStep ok c).1.quit = true then 11 else 0) =
      max (max c.rank (if s.quit = true then 11 else 0)) (s.closeStep ok c).2.rank := by
  by_cases hjoin : c = .join
  · subst hjoin
    have hquit : s.quit = true := h.quit.mpr hc
    show max 0 (if s.quit = true then 11 else 0) = max (max 11 (if s.quit = true then 11 else 0)) 0
    rw [if_pos hquit]
    rfl
  · have hle := rank_le s ok hjoin
    by_cases hquits : c = .quitSafely
    · subst hquits
      show max 11 11 = max (max 10 _) 11
      split <;> rfl
    · rw [quit_closeStep s ok hquits]
      omega

/-- What a callback leaves alone outside `close`, with the device where it does not hold it. -/
theorem cameraStep_frame (hstep : s.cameraStep ok = some s') (hclose : ∀ c, s.thread ≠ .closing c) :
    s'.closer = s.closer ∧ s'.quit = s.quit ∧ s'.delivered = s.delivered ∧ s'.thread.rank = 0 ∧
      (s.thread.holding = false →
        s'.deviceClosed = s.deviceClosed ∧ s'.camera = s.camera ∧ s'.thread.assigning = false) := by
  unfold Session.cameraStep at hstep
  cases hthread : s.thread with
  | idle => simp [hthread] at hstep
  | closing c => exact absurd hthread (hclose c)
  | setRepeatingRequest =>
    rw [hthread] at hstep
    dsimp only at hstep
    split at hstep
    all_goals
      obtain rfl := Option.some.inj hstep
      exact ⟨rfl, rfl, rfl, rfl, fun _ => ⟨rfl, rfl, rfl⟩⟩
  | entered callback =>
    rw [hthread] at hstep
    cases callback with
    | onOpened =>
      obtain rfl := Option.some.inj hstep
      dsimp only
      split <;> exact ⟨rfl, rfl, rfl, rfl, fun hholding => by cases hholding⟩
    | onConfigured =>
      obtain rfl := Option.some.inj hstep
      dsimp only
      split <;> exact ⟨rfl, rfl, rfl, rfl, fun _ => ⟨rfl, rfl, rfl⟩⟩
    | _ =>
      obtain rfl := Option.some.inj hstep
      exact ⟨rfl, rfl, rfl, rfl, fun _ => ⟨rfl, rfl, rfl⟩⟩
  | openedAuthorized | closeDevice _ =>
    rw [hthread] at hstep
    obtain rfl := Option.some.inj hstep
    dsimp only
    split <;> exact ⟨rfl, rfl, rfl, rfl, fun hholding => by cases hholding⟩
  | assignCamera =>
    rw [hthread] at hstep
    obtain rfl := Option.some.inj hstep
    exact ⟨rfl, rfl, rfl, rfl, fun hholding => by cases hholding⟩
  | createCaptureSession | assignSession | onCameraError =>
    rw [hthread] at hstep
    obtain rfl := Option.some.inj hstep
    exact ⟨rfl, rfl, rfl, rfl, fun _ => ⟨rfl, rfl, rfl⟩⟩
  | configuredAuthorized | createCaptureRequest | closeSession _ =>
    rw [hthread] at hstep
    obtain rfl := Option.some.inj hstep
    dsimp only
    split <;> exact ⟨rfl, rfl, rfl, rfl, fun _ => ⟨rfl, rfl, rfl⟩⟩
  | onCameraStarted | retest =>
    rw [hthread] at hstep
    obtain rfl := Option.some.inj hstep
    split <;> exact ⟨rfl, rfl, rfl, rfl, fun _ => ⟨rfl, rfl, rfl⟩⟩

/-- The camera thread inside `close`. -/
theorem cameraStep_closing {c : Close} (hthread : s.thread = .closing c) (ok : Bool) :
    ∃ place, (place = .idle ∨ place = .closing (s.closeStep ok c).2) ∧
      place.rank = (s.closeStep ok c).2.rank ∧
      s.cameraStep ok = some { (s.closeStep ok c).1 with thread := place } := by
  unfold Session.cameraStep
  rw [hthread]
  dsimp only
  split
  · next returned heq =>
    rw [heq]
    exact ⟨.idle, .inl rfl, rfl, rfl⟩
  · next hne heq =>
    rw [heq]
    exact ⟨_, .inr rfl, rfl, rfl⟩

/-- What a step is. -/
theorem step_cases {label : Label} {es : List Empty} (hstep : step s label = some (s', es)) :
    (∃ outcome, label = .start outcome ∧ s.started = false ∧ s' = s.start outcome) ∨
    (∃ callback, label = .deliver callback ∧ s.delivers callback = true ∧
      s' = { s with delivered := callback :: s.delivered, thread := .entered callback }) ∨
    (∃ ok, label = .camera ok ∧ s.cameraStep ok = some s') ∨
    (label = .close ∧ s.closer = none ∧ s' = { s with closer := some .compareAndSet }) ∨
    ∃ ok c, label = .closer ok ∧ s.closer = some c ∧ c ≠ .returned ∧
      s' = { (s.closeStep ok c).1 with closer := some (s.closeStep ok c).2 } := by
  cases label with
  | start outcome =>
    simp only [step] at hstep
    split at hstep
    · cases hstep
    · next hstarted =>
      cases hstep
      exact .inl ⟨outcome, rfl, by simpa using hstarted, rfl⟩
  | deliver callback =>
    simp only [step] at hstep
    split at hstep
    · next hdelivers =>
      cases hstep
      exact .inr (.inl ⟨callback, rfl, hdelivers, rfl⟩)
    · cases hstep
  | camera ok =>
    simp only [step, Option.map_eq_some_iff] at hstep
    obtain ⟨s'', hcamera, heq⟩ := hstep
    cases heq
    exact .inr (.inr (.inl ⟨ok, rfl, hcamera⟩))
  | close =>
    simp only [step] at hstep
    split at hstep
    · next hfree =>
      cases hstep
      rw [Bool.and_eq_true, Option.isNone_iff_eq_none] at hfree
      exact .inr (.inr (.inr (.inl ⟨rfl, hfree.2, rfl⟩)))
    · cases hstep
  | closer ok =>
    simp only [step] at hstep
    split at hstep
    · cases hstep
    · cases hstep
    · next c hreturned hcloser =>
      cases hstep
      exact .inr (.inr (.inr (.inr ⟨ok, c, rfl, hcloser, hreturned, rfl⟩)))

theorem rank_le_progress {c : Close} (hcloser : s.closer = some c) : c.rank ≤ s.progress := by
  unfold Session.progress
  rw [hcloser]
  exact Nat.le_max_left _ _

theorem rank_thread_le (s : Session) : s.thread.rank ≤ s.progress := by
  unfold Session.progress
  omega

theorem progress_of_frame (hcloser : s'.closer = s.closer) (hquit : s'.quit = s.quit)
    (hrank : s.thread.rank = 0) (hrank' : s'.thread.rank = 0) : s'.progress = s.progress := by
  unfold Session.progress
  rw [hcloser, hquit, hrank, hrank']

/-- How far the closers are, after one of the camera thread. -/
theorem progress_closing {c : Close} (h : Sound s s.progress s.thread)
    (hthread : s.thread = .closing c) {place : Thread}
    (hplace : place.rank = (s.closeStep ok c).2.rank) :
    ({ (s.closeStep ok c).1 with thread := place } : Session).progress =
      max s.progress (s.closeStep ok c).2.rank := by
  have hrank : s.thread.rank = c.rank := by rw [hthread]; rfl
  have hle : c.rank ≤ s.progress := hrank ▸ rank_thread_le s
  have hnext := rank_closeStep h hle ok
  unfold Session.progress
  dsimp only
  rw [closer_closeStep, hplace, hrank]
  omega

/-- How far the closers are, after one of the other thread. -/
theorem progress_closer {c : Close} (h : Sound s s.progress s.thread)
    (hcloser : s.closer = some c) :
    ({ (s.closeStep ok c).1 with closer := some (s.closeStep ok c).2 } : Session).progress =
      max s.progress (s.closeStep ok c).2.rank := by
  have hnext := rank_closeStep h (rank_le_progress hcloser) ok
  unfold Session.progress
  dsimp only
  rw [thread_closeStep, hcloser]
  show max (Close.rank _) _ = max (max c.rank _) _
  omega

/-- A callback is delivered. -/
theorem Sound.deliver {callback : Callback} (h : Sound s p s.thread)
    (hdelivers : s.delivers callback = true) :
    s.thread = .idle ∧
      Sound { s with delivered := callback :: s.delivered, thread := .entered callback } p
        (.entered callback) := by
  simp only [Session.delivers, Bool.and_eq_true, beq_iff_eq, Bool.not_eq_true'] at hdelivers
  obtain ⟨⟨⟨⟨-, hidle⟩, -⟩, hnew⟩, hcreated⟩ := hdelivers
  rw [hidle] at h
  have hfresh := h.deviceClosed (by decide) (by decide)
  refine ⟨hidle, { h with
    handed := ?_
    vacant := ?_
    fresh := fun hdevice => .inl (hfresh hdevice)
    early := fun ht => by cases ht }⟩
  · intro hor
    rcases hor with hhanded | hrest
    · cases callback with
      | onOpened => exact List.mem_cons_self
      | onConfigured => exact List.mem_cons_of_mem _ (h.handed (.inr (.inl hcreated)))
      | _ => cases hhanded
    · exact List.mem_cons_of_mem _ (h.handed (.inr hrest))
  · intro hor
    cases callback with
    | onOpened =>
      -- A field that holds the device is from the one `onOpened` there is.
      show s.camera = false
      by_contra hcamera
      have hdelivered : .onOpened ∈ s.delivered := h.handed (by simp [hcamera])
      simp [hdelivered] at hnew
    | _ => simp [Thread.assigning] at hor

/-- A device that is closed is so after `close` has begun. -/
theorem Sound.closed_after {c : Close} (h : Sound s p (.closing c)) (hc : c.rank ≤ p)
    (hdevice : (s.closeStep ok c).1.deviceClosed = true) : (s.closeStep ok c).1.closed = true := by
  cases c with
  | compareAndSet =>
    show (if s.closed = true then (s, Close.returned) else (_, _)).1.closed = true
    split
    · assumption
    · rfl
  | returned => exact h.deviceClosed (by decide) (by decide) hdevice
  | _ =>
    apply (h.closeStep hc ok).closed.mpr
    exact Nat.le_trans (Nat.le_trans (by decide) hc) (Nat.le_max_left _ _)

/-- The steps after `start`, and the progress of `close` in each. -/
theorem moves {label : Label} {es : List Empty} (h : Sound s s.progress s.thread)
    (hstep : step s label = some (s', es)) :
    (∃ callback, s.delivers callback = true ∧ s'.progress = s.progress ∧
      s' = { s with delivered := callback :: s.delivered, thread := .entered callback }) ∨
    (∃ ok, (∀ c, s.thread ≠ .closing c) ∧ s'.progress = s.progress ∧
      s.cameraStep ok = some s') ∨
    (∃ ok c place, s.thread = .closing c ∧
      (place = .idle ∨ place = .closing (s.closeStep ok c).2) ∧
      s'.progress = max s.progress (s.closeStep ok c).2.rank ∧
      s' = { (s.closeStep ok c).1 with thread := place }) ∨
    (s'.progress = s.progress ∧ s.closer = none ∧
      s' = { s with closer := some .compareAndSet }) ∨
    ∃ ok c, label = .closer ok ∧ s.closer = some c ∧ c ≠ .returned ∧
      s'.progress = max s.progress (s.closeStep ok c).2.rank ∧
      s' = { (s.closeStep ok c).1 with closer := some (s.closeStep ok c).2 } := by
  rcases step_cases hstep with ⟨outcome, -, hstarted, -⟩ | ⟨callback, -, hdelivers, rfl⟩ |
    ⟨ok, -, hcamera⟩ | ⟨-, hcloser, rfl⟩ | ⟨ok, c, hlabel, hcloser, hreturned, rfl⟩
  · rw [h.started] at hstarted
    cases hstarted
  · have hrank : s.thread.rank = 0 := by
      rw [(h.deliver hdelivers).1]
      rfl
    exact .inl ⟨callback, hdelivers, progress_of_frame rfl rfl hrank rfl, rfl⟩
  · by_cases hclose : ∃ c, s.thread = .closing c
    · obtain ⟨c, hthread⟩ := hclose
      obtain ⟨place, hplace, hrank, hnext⟩ := cameraStep_closing hthread ok
      obtain rfl := Option.some.inj (hnext.symm.trans hcamera)
      exact .inr (.inr (.inl
        ⟨ok, c, place, hthread, hplace, progress_closing h hthread hrank, rfl⟩))
    · rw [not_exists] at hclose
      obtain ⟨hcloser, hquit, -, hrank, -⟩ := cameraStep_frame hcamera hclose
      have hrank₀ : s.thread.rank = 0 := by
        unfold Thread.rank
        split
        · next c hthread => exact absurd hthread (hclose c)
        · rfl
      exact .inr (.inl ⟨ok, hclose, progress_of_frame hcloser hquit hrank₀ hrank, hcamera⟩)
  · refine .inr (.inr (.inr (.inl ⟨?_, hcloser, rfl⟩)))
    unfold Session.progress
    rw [hcloser]
    rfl
  · exact .inr (.inr (.inr (.inr
      ⟨ok, c, hlabel, hcloser, hreturned, progress_closer h hcloser, rfl⟩)))

theorem rank_closing {c : Close} (hthread : s.thread = .closing c) : c.rank ≤ s.progress := by
  have hle := rank_thread_le s
  rw [hthread] at hle
  exact hle

/-- Each step keeps the invariant at the progress it makes. -/
theorem Sound.step {label : Label} {es : List Empty} (h : Sound s s.progress s.thread)
    (hstep : step s label = some (s', es)) : Sound s' s'.progress s'.thread := by
  rcases moves h hstep with ⟨callback, hdelivers, hprogress, rfl⟩ |
    ⟨ok, hclose, hprogress, hcamera⟩ | ⟨ok, c, place, hthread, hplace, hprogress, rfl⟩ |
    ⟨hprogress, -, rfl⟩ | ⟨ok, c, -, hcloser, -, hprogress, rfl⟩
  · rw [hprogress]
    exact (h.deliver hdelivers).2
  · rw [hprogress]
    exact h.cameraStep hcamera hclose
  · rw [hprogress]
    have hle := rank_closing hthread
    rw [hthread] at h
    apply Sound.onThread
    apply (h.closeStep hle ok).move
    · rcases hplace with rfl | rfl <;> rfl
    · rcases hplace with rfl | rfl <;> simp
    · intro hhanded
      rcases hplace with rfl | rfl <;> cases hhanded
    · intro hdevice
      exact .inl (h.closed_after hle hdevice)
  · rw [hprogress]
    exact h.onCloser _
  · rw [hprogress]
    have hnext := h.closeStep (rank_le_progress hcloser) ok
    show Sound _ _ (s.closeStep ok c).1.thread
    rw [thread_closeStep]
    exact hnext.onCloser _

/-- The invariant holds when `start` has returned. -/
theorem sound_start (outcome : Outcome) :
    Sound (fresh.start outcome) (fresh.start outcome).progress (fresh.start outcome).thread := by
  cases outcome <;>
  exact
    { started := rfl
      closed := by decide
      quit := by decide
      removed := by decide
      encoder := by decide
      repeating := by decide
      handed := by decide
      vacant := by decide
      fresh := by decide
      early := by decide }

/-- `start` comes first. -/
theorem step_fresh {label : Label} {es : List Empty} (hstep : step fresh label = some (s', es)) :
    ∃ outcome, s' = fresh.start outcome := by
  rcases step_cases hstep with ⟨outcome, -, -, hs⟩ | ⟨callback, -, hdelivers, -⟩ |
    ⟨ok, -, hcamera⟩ | ⟨rfl, -, -⟩ | ⟨ok, c, -, hcloser, -⟩
  · exact ⟨outcome, hs⟩
  · cases hdelivers
  · cases hcamera
  · cases hstep
  · cases hcloser

/-- The invariant holds in every run. -/
theorem sound_of_reaches {tr : List Empty} (hr : system.Reaches tr s) :
    s = fresh ∨ Sound s s.progress s.thread := by
  apply EventSystem.Under.invariant (P := fun _ s => s = fresh ∨ Sound s s.progress s.thread)
    _ _ hr
  · intro s hs
    exact .inl hs
  · intro _ s label s' es _ _ h hstep
    rcases h with rfl | h
    · obtain ⟨outcome, rfl⟩ := step_fresh hstep
      exact .inr (sound_start outcome)
    · exact .inr (h.step hstep)

/-! ## A run in which the camera is read in time -/

/-- The device is closed, or the field or `onOpened` holds it. -/
structure Kept (s : Session) (p : ℕ) (t : Thread) : Prop where
  device : .onOpened ∈ s.delivered →
    s.deviceClosed = true ∨ (s.camera = true ∧ p < 6) ∨ t.holding = true
  pending : t.assigning = true → p < 6

@[simp] theorem delivered_closeStep (s : Session) (ok : Bool) (c : Close) :
    (s.closeStep ok c).1.delivered = s.delivered := by
  cases c <;> (unfold Session.closeStep; dsimp only; try split) <;> rfl

/-- The statements of `close` that are not about the camera. -/
theorem device_closeStep (s : Session) (ok : Bool) {c : Close} (hclose : c ≠ .closeCamera)
    (hclear : c ≠ .clearCamera) :
    (s.closeStep ok c).1.deviceClosed = s.deviceClosed ∧
      (s.closeStep ok c).1.camera = s.camera := by
  cases c with
  | closeCamera => exact absurd rfl hclose
  | clearCamera => exact absurd rfl hclear
  | _ => (unfold Session.closeStep; dsimp only; try split) <;> exact ⟨rfl, rfl⟩

theorem rank_next_le (s : Session) (ok : Bool) (c : Close) :
    (s.closeStep ok c).2.rank ≤ c.rank + 1 := by
  cases c with
  | compareAndSet =>
    show (if s.closed = true then (s, Close.returned) else (_, .stopRepeating)).2.rank ≤ 1
    split
    · exact Nat.zero_le _
    · exact Nat.le_refl _
  | join | returned => exact Nat.zero_le _
  | _ => exact Nat.le_refl _

/-- A statement of `close` keeps the device known. -/
theorem Kept.closeStep {c : Close} (h : Kept s p t) (hc : c.rank ≤ p)
    (hintime : c = .closeCamera → t.assigning = false) (ok : Bool) :
    Kept (s.closeStep ok c).1 (max p (s.closeStep ok c).2.rank) t := by
  by_cases hclose : c = .closeCamera
  · subst hclose
    have hassigning := hintime rfl
    show Kept (if s.camera = true then s.closeDevice else s) (max p 6) t
    split
    · exact ⟨fun _ => .inl rfl, fun ht => absurd ht (by simp [hassigning])⟩
    · next hcamera =>
      refine ⟨fun hdelivered => ?_, fun ht => absurd ht (by simp [hassigning])⟩
      rcases h.device hdelivered with hdevice | ⟨hfield, -⟩ | hholding
      · exact .inl hdevice
      · exact absurd hfield hcamera
      · exact .inr (.inr hholding)
  · by_cases hclear : c = .clearCamera
    · subst hclear
      have hp : 6 ≤ p := hc
      show Kept { s with camera := false } (max p 7) t
      refine ⟨fun hdelivered => ?_, fun ht => ?_⟩
      · rcases h.device hdelivered with hdevice | ⟨-, hlt⟩ | hholding
        · exact .inl hdevice
        · omega
        · exact .inr (.inr hholding)
      · have hlt := h.pending ht
        omega
    · obtain ⟨hdevice, hcamera⟩ := device_closeStep s ok hclose hclear
      have hnext := rank_next_le s ok c
      -- `closeCamera` is the statement that comes to six.
      have hrank : c.rank ≠ 5 := by
        intro hrank
        apply hclose
        cases c with
        | closeCamera => rfl
        | _ => cases hrank
      refine ⟨?_, fun ht => ?_⟩
      · rw [delivered_closeStep, hdevice, hcamera]
        intro hdelivered
        rcases h.device hdelivered with hdevice | ⟨hfield, hlt⟩ | hholding
        · exact .inl hdevice
        · exact .inr (.inl ⟨hfield, by omega⟩)
        · exact .inr (.inr hholding)
      · have hlt := h.pending ht
        omega

/-- The thread goes on from where it does not hold the device. -/
theorem Kept.move (h : Kept s p t) (hholding : t.holding = false)
    (hassigning : t'.assigning = false) : Kept s p t' := by
  refine ⟨fun hdelivered => ?_, fun ht => absurd ht (by simp [hassigning])⟩
  rcases h.device hdelivered with hdevice | hfield | ht
  · exact .inl hdevice
  · exact .inr (.inl hfield)
  · simp [hholding] at ht

/-- Only three fields count. -/
theorem Kept.of_fields (h : Kept s p t) (hdelivered : s'.delivered = s.delivered)
    (hdevice : s'.deviceClosed = s.deviceClosed) (hcamera : s'.camera = s.camera) :
    Kept s' p t :=
  ⟨by rw [hdelivered, hdevice, hcamera]; exact h.device, h.pending⟩

/-- The test in `onOpened`. -/
theorem Kept.testOpened (hsound : Sound s p (.entered .onOpened)) :
    Kept s p (if s.closed = true then .closeDevice true else .openedAuthorized) := by
  split
  · exact ⟨fun _ => .inr (.inr rfl), fun ht => by cases ht⟩
  · next hopen =>
    refine ⟨fun _ => .inr (.inr rfl), fun _ => ?_⟩
    -- `close` has not begun.
    rw [hsound.closed] at hopen
    omega

/-- The question whether the session is authorized. -/
theorem Kept.askOpened (h : Kept s p .openedAuthorized) :
    Kept s p (if ok = true then .assignCamera else .closeDevice true) := by
  split
  · exact ⟨fun _ => .inr (.inr rfl), fun _ => h.pending rfl⟩
  · exact ⟨fun _ => .inr (.inr rfl), fun ht => by cases ht⟩

/-- A statement of the camera thread, outside `close`. -/
theorem Kept.cameraStep (h : Kept s p s.thread) (hsound : Sound s p s.thread)
    (hstep : s.cameraStep ok = some s') (hclose : ∀ c, s.thread ≠ .closing c) :
    Kept s' p s'.thread := by
  by_cases hholding : s.thread.holding = false
  · obtain ⟨-, -, hdelivered, -, hrest⟩ := cameraStep_frame hstep hclose
    obtain ⟨hdevice, hcamera, hassigning⟩ := hrest hholding
    exact (h.move hholding hassigning).of_fields hdelivered hdevice hcamera
  · unfold Session.cameraStep at hstep
    cases hthread : s.thread with
    | entered callback =>
      cases callback with
      | onOpened =>
        rw [hthread] at hsound hstep
        obtain rfl := Option.some.inj hstep
        exact (Kept.testOpened hsound).of_fields rfl rfl rfl
      | _ => simp [hthread, Thread.holding, Thread.assigning] at hholding
    | openedAuthorized =>
      rw [hthread] at h hstep
      obtain rfl := Option.some.inj hstep
      exact h.askOpened.of_fields rfl rfl rfl
    | assignCamera =>
      rw [hthread] at h hstep
      obtain rfl := Option.some.inj hstep
      exact ⟨fun _ => .inr (.inl ⟨rfl, h.pending rfl⟩), fun ht => by cases ht⟩
    | closeDevice retest =>
      rw [hthread] at hstep
      obtain rfl := Option.some.inj hstep
      refine ⟨fun _ => .inl rfl, fun ht => ?_⟩
      dsimp only at ht
      split at ht <;> cases ht
    | _ => simp [hthread, Thread.holding, Thread.assigning] at hholding

/-- Every step in time keeps the device known. -/
theorem Kept.step {label : Label} {es tr : List Empty} (h : Kept s s.progress s.thread)
    (hsound : Sound s s.progress s.thread) (hintime : InTime tr s label)
    (hstep : step s label = some (s', es)) : Kept s' s'.progress s'.thread := by
  rcases moves hsound hstep with ⟨callback, hdelivers, hprogress, rfl⟩ |
    ⟨ok, hclose, hprogress, hcamera⟩ | ⟨ok, c, place, hthread, hplace, hprogress, rfl⟩ |
    ⟨hprogress, -, rfl⟩ | ⟨ok, c, rfl, hcloser, -, hprogress, rfl⟩
  · rw [hprogress]
    have hidle := (hsound.deliver hdelivers).1
    refine ⟨fun hdelivered => ?_, fun ht => by cases ht⟩
    rcases List.mem_cons.mp hdelivered with rfl | hbefore
    · exact .inr (.inr rfl)
    · rw [hidle] at h
      rcases h.device hbefore with hdevice | hfield | hholding
      · exact .inl hdevice
      · exact .inr (.inl hfield)
      · cases hholding
  · rw [hprogress]
    exact h.cameraStep hsound hcamera hclose
  · rw [hprogress]
    rw [hthread] at h
    have hassigning : place.assigning = false := by
      rcases hplace with rfl | rfl <;> rfl
    have hnext := h.closeStep (rank_closing hthread) (fun _ => rfl) ok
    exact (hnext.move rfl hassigning).of_fields rfl rfl rfl
  · rw [hprogress]
    exact h.of_fields rfl rfl rfl
  · rw [hprogress]
    have hnext := h.closeStep (rank_le_progress hcloser) (fun hc => hintime (hc ▸ hcloser)) ok
    show Kept _ _ (s.closeStep ok c).1.thread
    rw [thread_closeStep]
    exact hnext.of_fields rfl rfl rfl

/-- So does every run in time. -/
theorem kept_of_under {tr : List Empty} (hr : system.Under InTime tr s) :
    Kept s s.progress s.thread := by
  apply EventSystem.Under.invariant (P := fun _ s => Kept s s.progress s.thread) _ _ hr
  · intro s hs
    subst hs
    exact ⟨fun hdelivered => (by cases hdelivered), fun ht => by cases ht⟩
  · intro tr s label s' es hr hintime h hstep
    rcases sound_of_reaches hr.reaches with rfl | hsound
    · obtain ⟨outcome, rfl⟩ := step_fresh hstep
      cases outcome <;>
        exact ⟨fun hdelivered => (by cases hdelivered), fun ht => by cases ht⟩
    · exact h.step hsound hintime hstep

/-! ## The end of `close` -/

/-- A closer that returns has begun. -/
theorem next_returned {c : Close} (h : Sound s p t) (hc : c.rank ≤ p) (hne : c ≠ .returned)
    (hnext : (s.closeStep ok c).2 = .returned) : 1 ≤ p := by
  cases c with
  | compareAndSet =>
    have hset : (if s.closed = true then (s, Close.returned) else (_, .stopRepeating)).2 =
        .returned := hnext
    split at hset
    · next hclosed => exact h.closed.mp hclosed
    · cases hset
  | join => exact Nat.le_trans (by decide) hc
  | returned => exact absurd rfl hne
  | _ => cases hnext

/-- A `close` that has returned has closed the session, or another one had. -/
theorem returned_progress {tr : List Empty} (hr : system.Reaches tr s)
    (hreturned : s.closer = some .returned) : 1 ≤ s.progress := by
  revert hreturned
  apply EventSystem.Under.invariant (P := fun _ s => s.closer = some .returned → 1 ≤ s.progress)
    _ _ hr
  · intro s hs hreturned
    subst hs
    cases hreturned
  · intro tr s label s' es hr _ h hstep hreturned
    rcases sound_of_reaches hr with rfl | hsound
    · obtain ⟨outcome, rfl⟩ := step_fresh hstep
      cases outcome <;> cases hreturned
    · rcases moves hsound hstep with ⟨callback, -, hprogress, rfl⟩ |
        ⟨ok, hclose, hprogress, hcamera⟩ | ⟨ok, c, place, -, -, hprogress, rfl⟩ |
        ⟨-, -, rfl⟩ | ⟨ok, c, -, hcloser, hne, hprogress, rfl⟩
      · exact hprogress ▸ h hreturned
      · have hcloser := (cameraStep_frame hcamera hclose).1
        exact hprogress ▸ h (hcloser ▸ hreturned)
      · rw [hprogress]
        have hbefore : s.closer = some .returned := (closer_closeStep s ok c).symm.trans hreturned
        have hle := h hbefore
        omega
      · cases hreturned
      · rw [hprogress]
        have hle := next_returned hsound (rank_le_progress hcloser) hne (Option.some.inj hreturned)
        omega

/-- Where `close` has returned and no callback runs, every statement of `close` has run. -/
theorem quiet_progress {tr : List Empty} (hr : system.Reaches tr s) (hquiet : s.Quiet) :
    11 ≤ s.progress := by
  have hpos := returned_progress hr hquiet.1
  revert hpos
  unfold Session.progress
  rw [hquiet.1, hquiet.2]
  show 1 ≤ max 0 (max 0 _) → 11 ≤ max 0 (max 0 _)
  split <;> omega

/-- What is quiet is released. -/
theorem released {tr : List Empty} (hr : system.Under InTime tr s) (hquiet : s.Quiet) :
    s.Released := by
  rcases sound_of_reaches hr.reaches with rfl | hsound
  · cases hquiet.1
  · have hdone := quiet_progress hr.reaches hquiet
    have hdevice (hdelivered : .onOpened ∈ s.delivered) : s.deviceClosed = true := by
      rcases (kept_of_under hr).device hdelivered with hdevice | ⟨-, hlt⟩ | hholding
      · exact hdevice
      · omega
      · rw [hquiet.2] at hholding
        cases hholding
    refine ⟨hdevice, ?_, ?_⟩
    · by_contra hrepeating
      have hrepeats : s.repeating = true := by simpa using hrepeating
      have hopen := hsound.repeating hrepeats
      rw [hdevice (hsound.handed (by simp [hrepeats]))] at hopen
      cases hopen
    · by_contra hopen
      have hlt := (hsound.encoder (by simpa using hopen)).2
      omega

/-! ## The gap -/

/-- What is left of `close` once it has read `camera` too early, and of `onOpened`. -/
def rest (place : Thread) : List Label :=
  List.replicate 6 (Label.closer true) ++
    (if place = .openedAuthorized then [.camera true, .camera true, .camera false]
    else [.camera true, .camera false])

/-- A `close` that reads `camera` while `onOpened` is about to assign it may leave
the device open. -/
theorem leaks (h : Sound s p s.thread) (hcloser : s.closer = some .closeCamera)
    (hassigning : s.thread.assigning = true) (ok : Bool) :
    ∃ s' t, step s (.closer ok) = some (s', []) ∧
      system.exec s' (rest s.thread) = some (t, []) ∧ t.Quiet ∧ ¬t.Released := by
  have hcamera := h.vacant (.inr hassigning)
  have hdevice := h.early hassigning
  have hdelivered : s.thread.handed = true → .onOpened ∈ s.delivered := fun hh => h.handed (.inl hh)
  obtain ⟨started, closed, camera, captureSession, encoder, encoderOpen, requested, delivered,
    deviceClosed, created, sessionClosed, repeating, callbacksRemoved, quit, thread, closer⟩ := s
  dsimp only at hcloser hassigning hcamera hdevice hdelivered ⊢
  subst hcloser hcamera hdevice
  have hopen (t : Session) (hdevice : t.deviceClosed = false) (hmem : .onOpened ∈ t.delivered) :
      ¬t.Released := by
    intro hreleased
    rw [hreleased.device hmem] at hdevice
    cases hdevice
  cases thread with
  | openedAuthorized =>
    cases encoder <;>
    exact ⟨_, _, rfl, rfl, ⟨rfl, rfl⟩, hopen _ rfl (hdelivered rfl)⟩
  | assignCamera =>
    cases encoder <;>
    exact ⟨_, _, rfl, rfl, ⟨rfl, rfl⟩, hopen _ rfl (hdelivered rfl)⟩
  | _ => cases hassigning

/-- A session that `close` has left, with no callback running, holds no camera, where `close` read
the field in time; and wherever it reads the field too early, some run from there
leaks the device. -/
theorem closed_session_holds_nothing {tr : List Empty} (hr : system.Reaches tr s) :
    (system.Under InTime tr s → s.Quiet → s.Released) ∧
    ∀ label, ¬InTime tr s label →
      ∃ s' labels t, step s label = some (s', []) ∧ system.exec s' labels = some (t, []) ∧
        t.Quiet ∧ ¬t.Released := by
  refine ⟨fun htime hquiet => released htime hquiet, fun label hlate => ?_⟩
  cases label with
  | closer ok =>
    simp only [InTime, not_forall] at hlate
    obtain ⟨hcloser, hassigning⟩ := hlate
    rcases sound_of_reaches hr with rfl | hsound
    · cases hcloser
    · obtain ⟨s', t, hstep, hexec, hquiet, hheld⟩ :=
        leaks hsound hcloser (by simpa using hassigning) ok
      exact ⟨s', _, t, hstep, hexec, hquiet, hheld⟩
  | _ => exact absurd trivial hlate

/-- `close` after the device and its capture session are there. -/
def inTime : List Label :=
  [Label.start .opening, .deliver .onOpened] ++ List.replicate 4 (Label.camera true) ++
    [Label.deliver .onConfigured] ++ List.replicate 6 (Label.camera true) ++ [Label.close] ++
    List.replicate 12 (Label.closer true)

/-- A session that captured is released. -/
theorem closed_after_capture :
    system.Under InTime (system.trace fresh inTime) (system.final fresh inTime) ∧
      (system.final fresh inTime).Released := by
  have hrun : system.Under InTime (system.trace fresh inTime) (system.final fresh inTime) :=
    EventSystem.under_trace inTime rfl (by decide) (by decide)
  exact ⟨hrun, (closed_session_holds_nothing hrun.reaches).1 hrun ⟨by decide, by decide⟩⟩

/-- `close` between the test of `closed` and the assignment of `camera`. -/
def tooEarly : List Label :=
  [Label.start .opening, .deliver .onOpened, .camera true, .close] ++
    List.replicate 12 (Label.closer true) ++ [Label.camera true, .camera true, .camera true]

/-- A device is left open. -/
theorem device_left_open :
    ¬∀ tr s, system.Reaches tr s → s.Quiet → s.Released := by
  intro h
  have hrun : system.Reaches (system.trace fresh tooEarly) (system.final fresh tooEarly) :=
    EventSystem.reaches_trace tooEarly rfl (by decide)
  have hreleased := h _ _ hrun ⟨by decide, by decide⟩
  have hdevice : (system.final fresh tooEarly).deviceClosed = true := hreleased.device (by decide)
  exact absurd hdevice (by decide)

end CameraEncoderSession
end MobileWebcamBridge
