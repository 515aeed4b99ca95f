import MobileWebcamBridge.Lib.Trace
import MobileWebcamBridge.Phone.FramedOutbound

/-!
# What the threads of a `FramedOutbound` can do

* `Moved`, the one case analysis of a step of `system`, and `Under.tasks`, the induction rule it
  gives: an invariant of the history, the writer's state and the writer thread has to be checked
  for each task and each move of the writer thread, never for a thread's program;
* `SoundProgram`, what every thread's program satisfies: a queued control frame is a
  `VIDEO_CONFIG` exactly when it carries a token, and a reply frame is enqueued after its fence.
-/

set_option autoImplicit false

namespace MobileWebcamBridge
namespace FramedOutbound

open Wire VideoWire

variable {ok : List Event → Threads → Label → Prop} {tr : List Event} {s s' : Threads}
variable {i : Label} {es : List Event} {o : FramedOutbound}

/-! ## The case analysis of a step -/

/-- The label `i` runs the task `t`, and `ts` is the rest of that thread's program. -/
inductive Runs (s : Threads) : Label → Task → List Task → Prop
  | ui {t : Task} {ts : List Task} : s.ui = t :: ts → Runs s .uiStep t ts
  | other {j : ℕ} {t : Task} {ts : List Task} :
      s.others[j]? = some (t :: ts) → Runs s (.step j) t ts

/-- The thread programs after a task ran. -/
def resume (s : Threads) (o : FramedOutbound) (program : List Task) : Label → Threads
  | .step j => { s with out := o, others := s.others.set j program }
  | _ => { s with out := o, ui := program }

/-- What a step does, thread by thread. -/
inductive Moved (s : Threads) : Label → Threads → List Event → Prop
  | start : s.writer = .unstarted →
      Moved s .start { s with out := { s.out with running := true }, writer := .acquire } []
  | ui (calls : List Call) : s.ui = [] →
      Moved s (.ui calls) { s with ui := calls.flatMap Call.tasks } []
  | spawn (call : Call) : call.uiOnly = false →
      Moved s (.spawn call) { s with others := s.others ++ [call.tasks] } []
  | task {i : Label} {t : Task} {ts : List Task} : Runs s i t ts →
      Moved s i (resume s (s.out.runTask t).1 ((s.out.runTask t).2.1 ++ ts) i) (s.out.runTask t).2.2
  | acquire : s.writer = .acquire → s.out.wake ≠ 0 →
      Moved s .writerStep { s with
        out := { s.out with wake := s.out.wake - 1 }
        writer := if s.out.running then .take else .stopped } []
  | take (f : Frame) : s.writer = .take → s.out.dequeue.2 = some f →
      Moved s .writerStep { s with out := s.out.dequeue.1, writer := .write f } []
  | idle : s.writer = .take → s.out.dequeue.2 = none →
      Moved s .writerStep { s with writer := loopTest s.out } []
  | write (f : Frame) : s.writer = .write f →
      Moved s .writerStep { s with writer := loopTest s.out } [.wrote f]
  | throws (f : Frame) : s.writer = .write f →
      Moved s .writerThrows
        { s with out := { s.out with running := false }, writer := .stopped }
        (if s.out.running then [.writerFailed] else [])

theorem dequeue_none (h : o.dequeue.2 = none) : o.dequeue.1 = o := by
  unfold dequeue at *
  split at h <;> simp_all

theorem moved_writer (h : writerStep s = some (s', es)) : Moved s .writerStep s' es := by
  unfold writerStep at h
  split at h
  · cases h
  · cases h
  · next hw =>
    split at h
    · cases h
    · next hk =>
      simp only [Option.some.injEq, Prod.mk.injEq] at h
      obtain ⟨rfl, rfl⟩ := h
      exact .acquire hw hk
  · next hw =>
    cases hd : s.out.dequeue with
    | mk o f =>
      cases f with
      | some f =>
        simp only [hd, Option.some.injEq, Prod.mk.injEq] at h
        obtain ⟨rfl, rfl⟩ := h
        have := Moved.take (s := s) f hw (by rw [hd])
        rwa [hd] at this
      | none =>
        have ho : o = s.out := by rw [← dequeue_none (o := s.out) (by rw [hd]), hd]
        simp only [hd, Option.some.injEq, Prod.mk.injEq] at h
        obtain ⟨rfl, rfl⟩ := h
        have := Moved.idle (s := s) hw (by rw [hd])
        rw [← ho] at this
        rwa [ho] at this ⊢
  · next f hw =>
    simp only [Option.some.injEq, Prod.mk.injEq] at h
    obtain ⟨rfl, rfl⟩ := h
    exact .write f hw

/-- Every step moves the threads in one of the ways. -/
theorem moved_of_step (h : step s i = some (s', es)) : Moved s i s' es := by
  cases i with
  | start =>
    simp only [step] at h
    split at h
    · next hw =>
      simp only [Option.some.injEq, Prod.mk.injEq] at h
      obtain ⟨rfl, rfl⟩ := h
      exact .start hw
    · cases h
  | ui calls =>
    simp only [step] at h
    split at h
    · next hu =>
      simp only [Option.some.injEq, Prod.mk.injEq] at h
      obtain ⟨rfl, rfl⟩ := h
      exact .ui calls hu
    · cases h
  | uiStep =>
    simp only [step] at h
    split at h
    · cases h
    · next t ts hu =>
      simp only [Option.some.injEq, Prod.mk.injEq] at h
      obtain ⟨rfl, rfl⟩ := h
      exact .task (i := .uiStep) (.ui hu)
  | spawn call =>
    simp only [step] at h
    split at h
    · cases h
    · next hc =>
      simp only [Option.some.injEq, Prod.mk.injEq] at h
      obtain ⟨rfl, rfl⟩ := h
      exact .spawn call (by simpa using hc)
  | step j =>
    simp only [step] at h
    split at h
    · next t ts hj =>
      simp only [Option.some.injEq, Prod.mk.injEq] at h
      obtain ⟨rfl, rfl⟩ := h
      exact .task (i := .step j) (.other hj)
    · cases h
  | writerStep => exact moved_writer h
  | writerThrows =>
    simp only [step] at h
    split at h
    · next f hw =>
      simp only [Option.some.injEq, Prod.mk.injEq] at h
      obtain ⟨rfl, rfl⟩ := h
      exact .throws f hw
    · cases h

@[simp] theorem resume_out (s : Threads) (o : FramedOutbound) (p : List Task) (i : Label) :
    (resume s o p i).out = o := by cases i <;> rfl

@[simp] theorem resume_writer (s : Threads) (o : FramedOutbound) (p : List Task) (i : Label) :
    (resume s o p i).writer = s.writer := by cases i <;> rfl

/-! ## The induction rule -/

/-- Between two frames the loop stops only when the writer does not run. -/
def Writer.Between (o : FramedOutbound) (w : Writer) : Prop :=
  w.hand = [] ∧ w ≠ .unstarted ∧ (w = .stopped → o.running = false)

theorem between_loopTest (o : FramedOutbound) : (loopTest o).Between o := by
  unfold loopTest
  split
  · exact ⟨rfl, by simp, by simp⟩
  · next hr => exact ⟨rfl, by simp, fun _ => by simpa using hr⟩

/-- What has to be checked of an invariant that reads no thread's program. -/
theorem Under.tasks {P : List Event → FramedOutbound → Writer → Prop}
    (new : ∀ c o, FramedOutbound.new c = some o → P [] o .unstarted)
    (start : ∀ tr o, P tr o .unstarted → P tr { o with running := true } .acquire)
    (loop : ∀ tr o w w', w.hand = [] → w ≠ .unstarted → w ≠ .stopped → w'.Between o →
      P tr o w → P tr o w')
    (wake : ∀ tr (o : FramedOutbound) w n, P tr o w → P tr { o with wake := n } w)
    (task : ∀ tr s i t ts, system.Under ok tr s → ok tr s i → Runs s i t ts →
      P tr s.out s.writer → P (tr ++ (s.out.runTask t).2.2) (s.out.runTask t).1 s.writer)
    (take : ∀ tr (o : FramedOutbound) f, o.dequeue.2 = some f → P tr o .take →
      P tr o.dequeue.1 (.write f))
    (write : ∀ tr (o : FramedOutbound) f w, w.Between o → P tr o (.write f) →
      P (tr ++ [Event.wrote f]) o w)
    (throws : ∀ tr (o : FramedOutbound) f es, (∀ e ∈ es, e = .writerFailed) → P tr o (.write f) →
      P (tr ++ es) { o with running := false } .stopped)
    (h : system.Under ok tr s) : P tr s.out s.writer := by
  refine h.invariant (P := fun tr s => P tr s.out s.writer) ?_ ?_
  · rintro s ⟨c, o, hn, rfl⟩
    exact new c o hn
  · intro tr s i s' es hr hok hp hs
    cases moved_of_step hs with
    | start hw =>
      rw [List.append_nil]
      exact start _ _ (hw ▸ hp)
    | ui | spawn => rwa [List.append_nil]
    | task ht =>
      rw [resume_out, resume_writer]
      exact task _ _ _ _ _ hr hok ht hp
    | acquire hw hk =>
      rw [List.append_nil]
      refine wake _ _ _ (s.out.wake - 1) (loop tr s.out s.writer _ ?_ ?_ ?_ ?_ hp)
      · rw [hw]; rfl
      · rw [hw]; simp
      · rw [hw]; simp
      · split
        · exact ⟨rfl, by simp, by simp⟩
        · next hr => exact ⟨rfl, by simp, fun _ => by simpa using hr⟩
    | take f hw hd =>
      rw [List.append_nil]
      exact take _ _ f hd (hw ▸ hp)
    | idle hw hd =>
      rw [List.append_nil]
      exact loop tr s.out s.writer _ (by rw [hw]; rfl) (by rw [hw]; simp) (by rw [hw]; simp)
        (between_loopTest _) hp
    | write f hw => exact write _ _ f _ (between_loopTest _) (hw ▸ hp)
    | throws f hw => exact throws _ _ f _ (by split <;> simp) (hw ▸ hp)

/-! ## What the blocks do -/

/-- A token is accepted while running, with video on, and only the current one. -/
theorem accepts_iff {t : ℕ} :
    o.accepts t = true ↔ o.running = true ∧ o.videoEnabled = true ∧ t = o.generation := by
  simp [accepts, and_assoc]

/-- Past the test, the token presented is the current one. -/
theorem stamped_of_accepts {f : Frame} {token : Option ℕ}
    (h : ∀ t, token = some t → o.accepts t = true) :
    o.stamped f token = { f with token := o.generation } := by
  cases token with
  | none => rfl
  | some t =>
    obtain ⟨-, -, rfl⟩ := accepts_iff.mp (h t rfl)
    rfl

/-- A control frame is refused, finds the queue full or is queued with the current token. -/
theorem enqueueControl_cases (o : FramedOutbound) (f : Frame) (token : Option ℕ) :
    o.enqueueControl f token = (o, .refused) ∨
    (o.running = true ∧ o.controlQueue.length ≥ MAX_CONTROL_FRAMES ∧
      o.enqueueControl f token = (o, .full)) ∨
    (o.running = true ∧ (∀ t, token = some t → o.accepts t = true) ∧
      o.controlQueue.length < MAX_CONTROL_FRAMES ∧
      o.enqueueControl f token =
        ({ o with controlQueue := o.controlQueue ++ [{ f with token := o.generation }] },
          .admitted)) := by
  unfold enqueueControl
  split
  · exact .inl rfl
  · next hr =>
    simp only [Bool.or_eq_true, not_or, Bool.not_eq_false, Bool.not_eq_true, Option.any_eq_false,
      Bool.not_eq_eq_eq_not, Bool.not_true] at hr
    split
    · next hl => exact .inr (.inl ⟨hr.1, hl, rfl⟩)
    · next hl =>
      have ha (t : ℕ) (ht : token = some t) : o.accepts t = true := by simpa using hr.2 t ht
      exact .inr (.inr ⟨hr.1, ha, by omega, by rw [stamped_of_accepts ha]⟩)

/-- A recovery does nothing, or drops what is queued. -/
theorem recover_cases (o : FramedOutbound) :
    o.recover = none ∨
    (o.running = true ∧ o.videoEnabled = true ∧
      o.recover = some ({ o with
        droppedVideoFrames := o.droppedVideoFrames + o.videoQueue.length
        videoQueue := []
        recovering := true }, o.latestVideoConfig)) := by
  by_cases h : (o.videoEnabled && o.running) = true
  · have := (Bool.and_eq_true _ _).mp h
    exact .inr ⟨this.2, this.1, by simp [recover, this]⟩
  · exact .inl (by simp only [recover, h]; rfl)

/-- What `offerUnit` does with a unit whose token it accepts: the token is the current one. -/
inductive Offer (o : FramedOutbound) (unit : AccessUnit) :
    FramedOutbound × List Event × Bool → Prop
  | unconfigured : o.latestVideoConfig = none →
      Offer o unit ({ o with offered := o.offered + 1 },
        [.offered o.generation o.offered unit, .lost o.generation o.offered .unconfigured], false)
  | skipped : o.recovering = true → unit.keyFrame = false →
      Offer o unit (
        { o with offered := o.offered + 1, droppedVideoFrames := o.droppedVideoFrames + 1 },
        [.offered o.generation o.offered unit, .lost o.generation o.offered .recovering], false)
  | queued : o.latestVideoConfig ≠ none → (o.recovering = true → unit.keyFrame = true) →
      Offer o unit (queueUnit { o with offered := o.offered + 1 } unit o.generation o.offered,
        [.offered o.generation o.offered unit], false)
  | replaced : o.latestVideoConfig ≠ none → unit.keyFrame = true →
      Offer o unit (
        ((makeRoom { o with offered := o.offered + 1 } unit).queueUnit unit o.generation
          o.offered),
        .offered o.generation o.offered unit :: o.lostQueued .overflow, true)
  | overflowed : unit.keyFrame = false →
      Offer o unit (makeRoom { o with offered := o.offered + 1 } unit,
        .offered o.generation o.offered unit :: .lost o.generation o.offered .overflow ::
          o.lostQueued .overflow, true)

/-- A unit is refused, or its token was accepted. -/
theorem offer_cases (o : FramedOutbound) (unit : AccessUnit) (token : ℕ) :
    o.offerUnit unit token = (o, [], false) ∨
    (o.accepts token = true ∧ Offer o unit (o.offerUnit unit token)) := by
  by_cases ha : o.accepts token = true
  swap
  · exact .inl (by simp [offerUnit, ha])
  refine .inr ⟨ha, ?_⟩
  obtain ⟨-, -, rfl⟩ := accepts_iff.mp ha
  simp only [offerUnit, ha, Bool.not_true, Bool.false_eq_true, if_false]
  split
  · next hc => exact .unconfigured (by simpa using hc)
  next hc =>
  split
  · next hr =>
    simp only [Bool.and_eq_true, Bool.not_eq_true'] at hr
    exact .skipped hr.1 hr.2
  next hr =>
  simp only [Bool.and_eq_true, Bool.not_eq_true', not_and, Bool.not_eq_false] at hr
  split
  · exact .queued (by simpa using hc) hr
  split
  · next hk => exact .replaced (by simpa using hc) hk
  · next hk => exact .overflowed (by simpa using hk)

/-! ## What a task does to the control queue -/

theorem offerUnit_keeps (o : FramedOutbound) (unit : AccessUnit) (token : ℕ) :
    (o.offerUnit unit token).1.controlQueue = o.controlQueue ∧
      (o.offerUnit unit token).1.running = o.running := by
  rcases offer_cases o unit token with h | ⟨-, h⟩
  · rw [h]
    exact ⟨rfl, rfl⟩
  · generalize o.offerUnit unit token = r at h ⊢
    cases h <;> exact ⟨rfl, rfl⟩

/-- A section filters the control queue, appends to it or empties it. -/
theorem control_of_task (o : FramedOutbound) (t : Task) :
    (∃ keep : Frame → Bool, (∀ g, g.isVideoConfig = false → keep g = true) ∧
      (o.runTask t).1.controlQueue = o.controlQueue.filter keep) ∨
    (∃ f token, t = .enqueue f token ∧
      (o.running = true ∧ ∀ n, token = some n → o.accepts n = true) ∧
      (o.runTask t).1.controlQueue = o.controlQueue ++ [{ f with token := o.generation }]) ∨
    (t = .clear ∧ (o.runTask t).1.controlQueue = []) := by
  have hsame (h : (o.runTask t).1.controlQueue = o.controlQueue) :
      ∃ keep : Frame → Bool, (∀ g, g.isVideoConfig = false → keep g = true) ∧
        (o.runTask t).1.controlQueue = o.controlQueue.filter keep :=
    ⟨fun _ => true, fun _ _ => rfl, by simp [h]⟩
  have hcleared (h : (o.runTask t).1.controlQueue = o.clearVideo.controlQueue) :
      ∃ keep : Frame → Bool, (∀ g, g.isVideoConfig = false → keep g = true) ∧
        (o.runTask t).1.controlQueue = o.controlQueue.filter keep :=
    ⟨fun g => !g.isVideoConfig, fun g hg => by simp [hg], h⟩
  cases t with
  | beginCapture | stopVideo => exact .inl (hcleared rfl)
  | fence key =>
    by_cases hk : o.lastFence = some key
    · exact .inl (hsame (by simp [runTask, fenceOnce, hk]))
    · exact .inl (hcleared (by simp [runTask, fenceOnce, hk, stopVideo]))
  | setCodecConfig config token =>
    apply Or.inl
    apply hsame
    simp only [runTask, setCodecConfig]
    split <;> rfl
  | keepVideoConfig config token =>
    apply Or.inl
    apply hsame
    simp only [runTask, keepVideoConfig]
    split
    · next o' h =>
      split at h
      · rw [Option.some.injEq] at h
        rw [← h]
      · cases h
    · rfl
  | offerUnit unit token =>
    apply Or.inl
    apply hsame
    exact (offerUnit_keeps o unit token).1
  | recover =>
    apply Or.inl
    apply hsame
    simp only [runTask]
    rcases recover_cases o with h | ⟨-, -, h⟩ <;> rw [h]
    cases o.latestVideoConfig <;> rfl
  | enqueue f token =>
    simp only [runTask]
    rcases enqueueControl_cases o f token with h | ⟨-, -, h⟩ | ⟨hr, ha, -, h⟩
    · exact .inl (hsame (by simp only [runTask, h]))
    · exact .inl (hsame (by simp only [runTask, h]))
    · exact .inr (.inl ⟨f, token, rfl, ⟨hr, ha⟩, by simp only [h]⟩)
  | clear => exact .inr (.inr ⟨rfl, rfl⟩)
  | number | guard | release | overflow | needIdr | halt => exact .inl (hsame rfl)

/-! ## What a task does to the picture units -/

/-- An event about a picture unit or the codec config prepended to it, or a written frame. -/
def Event.aboutUnits : Event → Bool
  | .offered .. | .lost .. | .codecConfigSet .. | .wrote _ => true
  | _ => false

/-- None of the events is about an access unit. -/
def Unrelated (es : List Event) : Prop := ∀ e ∈ es, e.aboutUnits = false

/-- The fields `sendAccessUnit` reads, but for the `VIDEO_CONFIG`, are those of `o`. -/
structure SameUnits (o o' : FramedOutbound) : Prop where
  running : o'.running = true → o.running = true
  generation : o'.generation = o.generation
  videoEnabled : o'.videoEnabled = o.videoEnabled
  videoQueue : o'.videoQueue = o.videoQueue
  latestCodecConfig : o'.latestCodecConfig = o.latestCodecConfig
  recovering : o'.recovering = o.recovering
  offered : o'.offered = o.offered

/-- No video until the next capture. -/
structure Silenced (o o' : FramedOutbound) : Prop where
  running : o'.running = true → o.running = true
  generation : o'.generation = o.generation
  videoEnabled : o'.videoEnabled = false
  videoQueue : o'.videoQueue = []
  latestCodecConfig : o'.latestCodecConfig = []
  offered : o'.offered = o.offered

/-- What a task does to the units. -/
inductive Effect (o : FramedOutbound) : Task → FramedOutbound → List Event → Prop
  | keep {t : Task} {o' : FramedOutbound} {es : List Event} :
      SameUnits o o' → Unrelated es → Effect o t o' es
  | began : Effect o .beginCapture o.beginCapture
      (o.lostQueued .cleared ++ [Event.began (o.generation + 1)])
  | silenced {t : Task} {o' : FramedOutbound} {es : List Event} :
      Silenced o o' → Unrelated es → Effect o t o' (o.lostQueued .cleared ++ es)
  | configured (config : CodecConfig) (token : ℕ) : o.accepts token = true →
      Effect o (.setCodecConfig config token)
        { o with latestCodecConfig := joinCodecConfig config }
        [.codecConfigSet o.generation (joinCodecConfig config)]
  | offered (unit : AccessUnit) (token : ℕ) {r : FramedOutbound × List Event × Bool} :
      o.accepts token = true → Offer o unit r → Effect o (.offerUnit unit token) r.1 r.2.1
  | recovered : o.running = true → o.videoEnabled = true →
      Effect o .recover { o with
        droppedVideoFrames := o.droppedVideoFrames + o.videoQueue.length
        videoQueue := []
        recovering := true } (o.lostQueued .recovery)

/-- Every section has its effect. -/
theorem effect (o : FramedOutbound) (t : Task) :
    Effect o t (o.runTask t).1 (o.runTask t).2.2 := by
  have hkeep (o' : FramedOutbound) (es : List Event) (hs : SameUnits o o') (he : Unrelated es) :
      Effect o t o' es := .keep hs he
  have hnil : Unrelated [] := by simp [Unrelated]
  cases t with
  | beginCapture => exact .began
  | stopVideo =>
    simp only [runTask]
    rw [← List.append_nil (o.lostQueued .cleared)]
    exact .silenced ⟨id, rfl, rfl, rfl, rfl, rfl⟩ hnil
  | fence k =>
    have hfenced : Unrelated [.fenced k] := by simp [Unrelated, Event.aboutUnits]
    simp only [runTask, fenceOnce]
    split
    · exact hkeep _ _ ⟨id, rfl, rfl, rfl, rfl, rfl, rfl⟩ hfenced
    · exact .silenced ⟨id, rfl, rfl, rfl, rfl, rfl⟩ hfenced
  | setCodecConfig c n =>
    simp only [runTask, setCodecConfig]
    split
    · next ha =>
      obtain ⟨-, -, rfl⟩ := accepts_iff.mp ha
      exact .configured c _ ha
    · exact hkeep _ _ ⟨id, rfl, rfl, rfl, rfl, rfl, rfl⟩ hnil
  | keepVideoConfig c n =>
    simp only [runTask, keepVideoConfig]
    by_cases ha : o.accepts n = true <;> simp only [ha] <;>
      exact hkeep _ _ ⟨id, rfl, rfl, rfl, rfl, rfl, rfl⟩ (by simp [Unrelated, Event.aboutUnits])
  | offerUnit u n =>
    simp only [runTask]
    rcases offer_cases o u n with hr | ⟨ha, hr⟩
    · rw [hr]
      exact hkeep _ _ ⟨id, rfl, rfl, rfl, rfl, rfl, rfl⟩ hnil
    · exact .offered u n ha hr
  | recover =>
    simp only [runTask]
    rcases recover_cases o with hc | ⟨hr, hv, hc⟩ <;> simp only [hc]
    · exact hkeep _ _ ⟨id, rfl, rfl, rfl, rfl, rfl, rfl⟩ hnil
    · cases hc' : o.latestVideoConfig <;> simpa [hc'] using Effect.recovered hr hv
  | enqueue f n =>
    have hadmitted (f : Frame) : Unrelated [.admitted f] := by simp [Unrelated, Event.aboutUnits]
    simp only [runTask]
    rcases enqueueControl_cases o f n with hr | ⟨-, -, hr⟩ | ⟨-, -, -, hr⟩ <;> simp only [hr]
    · exact hkeep _ _ ⟨id, rfl, rfl, rfl, rfl, rfl, rfl⟩ hnil
    · exact hkeep _ _ ⟨id, rfl, rfl, rfl, rfl, rfl, rfl⟩ hnil
    · exact hkeep _ _ ⟨id, rfl, rfl, rfl, rfl, rfl, rfl⟩ (hadmitted _)
  | number f n | guard f n | release => exact hkeep _ _ ⟨id, rfl, rfl, rfl, rfl, rfl, rfl⟩ hnil
  | overflow =>
    simp only [runTask]
    exact hkeep _ _ ⟨id, rfl, rfl, rfl, rfl, rfl, rfl⟩
      (by split <;> simp [Unrelated, Event.aboutUnits])
  | needIdr =>
    simp only [runTask]
    exact hkeep _ _ ⟨id, rfl, rfl, rfl, rfl, rfl, rfl⟩ (by simp [Unrelated, Event.aboutUnits])
  | halt => exact hkeep _ _ ⟨nofun, rfl, rfl, rfl, rfl, rfl, rfl⟩ hnil
  | clear =>
    simp only [runTask]
    rw [← List.append_nil (o.lostQueued .cleared)]
    exact .silenced ⟨id, rfl, rfl, rfl, rfl, rfl⟩ hnil

theorem Effect.not_wrote {t : Task} {o' : FramedOutbound} (h : Effect o t o' es) (f : Frame) :
    .wrote f ∉ es := by
  have hlost (l : Loss) : .wrote f ∉ o.lostQueued l := by simp [lostQueued]
  cases h with
  | keep _ he => exact fun hf => by cases he _ hf
  | silenced _ he =>
    intro hf
    rcases List.mem_append.mp hf with hf | hf
    · exact hlost _ hf
    · cases he _ hf
  | began => simp [hlost]
  | configured => simp
  | offered _ _ _ hr => cases hr <;> simp [hlost]
  | recovered => exact hlost _

/-! ## Sound programs -/

/-- A frame on its way into the control queue. -/
def Frame.SoundFor (tr : List Event) (f : Frame) (token : Option ℕ) : Prop :=
  f.isAccessUnit = false ∧ f.isVideoConfig = token.isSome ∧
    ∀ k, f.fenceKey = some k → .fenced k ∈ tr

/-- The frame of the task is what its token's capture was given. -/
def Task.Sound (tr : List Event) : Task → Prop
  | .number f token | .guard f token | .enqueue f token => f.SoundFor tr token
  | _ => True

/-- The tasks of the UI thread alone. -/
def Task.uiOnly : Task → Bool
  | .beginCapture | .fence _ => true
  | _ => false

/-- The history once a task of the UI program has run, as far as fences go. -/
def Task.fences (tr : List Event) : Task → List Event
  | .fence k => tr ++ [Event.fenced k]
  | _ => tr

/-- Each task is sound once the fences before it have run. -/
def SoundProgram : List Event → List Task → Prop
  | _, [] => True
  | tr, t :: ts => t.Sound tr ∧ SoundProgram (t.fences tr) ts

theorem Frame.SoundFor.mono {tr' : List Event} {f : Frame} {token : Option ℕ} (h : tr ⊆ tr')
    (hf : f.SoundFor tr token) : f.SoundFor tr' token :=
  ⟨hf.1, hf.2.1, fun k hk => h (hf.2.2 k hk)⟩

theorem Task.Sound.mono {tr' : List Event} {t : Task} (h : tr ⊆ tr') (ht : t.Sound tr) :
    t.Sound tr' := by
  cases t <;> first | trivial | exact Frame.SoundFor.mono h ht

theorem Task.fences_mono {tr' : List Event} (t : Task) (h : tr ⊆ tr') :
    t.fences tr ⊆ t.fences tr' := by
  have happ (k) : tr ++ [Event.fenced k] ⊆ tr' ++ [Event.fenced k] :=
    List.append_subset.mpr ⟨List.subset_append_of_subset_left _ h, List.subset_append_right _ _⟩
  cases t <;> first | exact h | exact happ _

theorem Task.subset_fences (t : Task) (tr : List Event) : tr ⊆ t.fences tr := by
  cases t <;> first | exact List.Subset.refl _ | exact List.subset_append_left _ _

theorem SoundProgram.mono {ts : List Task} : ∀ {tr tr' : List Event}, tr ⊆ tr' →
    SoundProgram tr ts → SoundProgram tr' ts := by
  induction ts with
  | nil => intros; trivial
  | cons t ts ih => exact fun h hp => ⟨hp.1.mono h, ih (t.fences_mono h) hp.2⟩

theorem SoundProgram.append {ts us : List Task} : ∀ {tr : List Event}, SoundProgram tr ts →
    SoundProgram tr us → SoundProgram tr (ts ++ us) := by
  induction ts with
  | nil => exact fun _ h => h
  | cons t ts ih => exact fun hp hu => ⟨hp.1, ih hp.2 (hu.mono (t.subset_fences _))⟩

/-- A control frame of a type that is neither video nor a reply is sound anywhere. -/
theorem soundFor_plain {f : Frame} (tr : List Event) (hv : f.isVideo = false)
    (hk : f.fenceKey = none) : f.SoundFor tr none := by
  simp only [Frame.isVideo, Bool.or_eq_false_iff] at hv
  exact ⟨hv.2, by simpa using hv.1, by simp [hk]⟩

/-- Every call of the source is a sound program. -/
theorem sound_call (call : Call) (tr : List Event) : SoundProgram tr call.tasks := by
  cases call with
  | beginCapture | stopVideo | setCodecConfig | forceRecovery | close =>
    simp [Call.tasks, SoundProgram, Task.Sound]
  | pauseQuality e =>
    refine ⟨trivial, ⟨rfl, rfl, ?_⟩, trivial⟩
    rintro k hk
    simp only [controlFrame, Frame.fenceKey, Option.some.injEq] at hk
    simp [Task.fences, hk]
  | sendQualityResult r =>
    by_cases hs : r.status = .staged
    · simp only [Call.tasks, hs, if_true, List.singleton_append]
      refine ⟨trivial, ⟨rfl, rfl, ?_⟩, trivial⟩
      rintro k hk
      simp only [controlFrame, Frame.fenceKey, hs, if_true, Option.some.injEq] at hk
      simp [Task.fences, hk]
    · simp only [Call.tasks, hs, if_false, List.nil_append]
      exact ⟨soundFor_plain tr rfl (by simp [controlFrame, Frame.fenceKey, hs]), trivial⟩
  | sendCapabilities c => exact ⟨soundFor_plain tr rfl rfl, trivial⟩
  | sendPairingInfo p => exact ⟨soundFor_plain tr rfl rfl, trivial⟩
  | sendAuthorization type p =>
    simp only [Call.tasks]
    split
    · next h =>
      rcases h with rfl | rfl <;> exact ⟨soundFor_plain tr rfl (by cases p <;> rfl), trivial⟩
    · trivial
  | sendPong request p => exact ⟨soundFor_plain tr rfl rfl, trivial⟩
  | sendVideoConfig w h f b token =>
    simp only [Call.tasks]
    split <;> simp [SoundProgram, Task.Sound]
  | sendAccessUnit unit token =>
    simp only [Call.tasks]
    split <;> simp [SoundProgram, Task.Sound]

theorem sound_calls (calls : List Call) (tr : List Event) :
    SoundProgram tr (calls.flatMap Call.tasks) := by
  induction calls with
  | nil => trivial
  | cons c cs ih => exact (sound_call c tr).append ih

/-- What a task leaves to do is sound. -/
theorem sound_more (o : FramedOutbound) {t : Task} (h : t.Sound tr) :
    SoundProgram tr (o.runTask t).2.1 := by
  have hconfig (c : VideoConfig) (n : ℕ) : SoundProgram tr [enqueueVideoConfig c n, .needIdr] :=
    ⟨⟨rfl, rfl, by rintro k ⟨⟩⟩, trivial, trivial⟩
  cases t with
  | keepVideoConfig c n => simp only [runTask]; split <;> first | exact hconfig c n | trivial
  | recover =>
    simp only [runTask]; split <;> first | exact hconfig _ _ | exact ⟨trivial, trivial⟩ | trivial
  | offerUnit u n => simp only [runTask]; split <;> first | exact ⟨trivial, trivial⟩ | trivial
  | number f n => exact ⟨h, trivial⟩
  | guard f n => simp only [runTask]; split <;> first | exact ⟨h, trivial⟩ | trivial
  | enqueue f n => simp only [runTask]; split <;> first | exact ⟨trivial, trivial⟩ | trivial
  | beginCapture | stopVideo | fence | setCodecConfig | release | overflow | needIdr | halt
  | clear => trivial

/-- Every program is sound, and only the UI thread fences and begins captures. -/
structure Programs (tr : List Event) (s : Threads) : Prop where
  ui : SoundProgram tr s.ui
  others : ∀ p ∈ s.others, SoundProgram tr p ∧ ∀ t ∈ p, t.uiOnly = false

theorem more_not_uiOnly (o : FramedOutbound) (t : Task) :
    ∀ u ∈ (o.runTask t).2.1, u.uiOnly = false := by
  cases t <;> simp only [runTask] <;> (try split) <;> simp [Task.uiOnly, enqueueVideoConfig]

theorem call_not_uiOnly {call : Call} (h : call.uiOnly = false) :
    ∀ u ∈ call.tasks, u.uiOnly = false := by
  cases call <;> simp only [Call.uiOnly, Bool.true_eq_false] at h <;>
    simp only [Call.tasks, sendControl] <;> (try split) <;> simp [Task.uiOnly]

/-- A task runs after the fence it relies on, which is then in the history. -/
theorem fences_subset (o : FramedOutbound) (t : Task) (tr : List Event) :
    t.fences tr ⊆ tr ++ (o.runTask t).2.2 := by
  cases t <;> first
    | exact List.subset_append_left _ _
    | (simp only [Task.fences, runTask]
       exact List.append_subset.mpr ⟨List.subset_append_left _ _, by simp⟩)

/-- So the programs are sound in every run. -/
theorem programs (h : system.Under ok tr s) : Programs tr s := by
  refine h.invariant ?_ ?_
  · rintro s ⟨c, o, -, rfl⟩
    exact ⟨trivial, by simp [idle]⟩
  · intro tr s i s' es _ _ hp hs
    cases moved_of_step hs with
    | start | acquire | take | idle =>
      rw [List.append_nil]
      exact ⟨hp.ui, hp.others⟩
    | write | throws =>
      exact ⟨hp.ui.mono (List.subset_append_left _ _), fun p h =>
        ⟨(hp.others p h).1.mono (List.subset_append_left _ _), (hp.others p h).2⟩⟩
    | ui calls _ =>
      rw [List.append_nil]
      exact ⟨sound_calls calls tr, hp.others⟩
    | spawn call hc =>
      rw [List.append_nil]
      refine ⟨hp.ui, fun p h => ?_⟩
      rcases List.mem_append.mp h with h | h
      · exact hp.others p h
      · rw [List.mem_singleton.mp h]
        exact ⟨sound_call call tr, call_not_uiOnly hc⟩
    | @task _ t ts ht =>
      have hsub := List.subset_append_left tr (s.out.runTask t).2.2
      cases ht with
      | ui hu =>
        have hui := hp.ui
        rw [hu] at hui
        refine ⟨?_, fun p h => ⟨(hp.others p h).1.mono hsub, (hp.others p h).2⟩⟩
        exact ((sound_more _ hui.1).mono hsub).append (hui.2.mono (fences_subset _ _ _))
      | other hj =>
        refine ⟨hp.ui.mono hsub, fun p h => ?_⟩
        rcases List.mem_or_eq_of_mem_set h with h | rfl
        · exact ⟨(hp.others p h).1.mono hsub, (hp.others p h).2⟩
        · have ho := hp.others _ (List.mem_of_getElem? hj)
          refine ⟨((sound_more _ ho.1.1).mono hsub).append (ho.1.2.mono (fences_subset _ _ _)), ?_⟩
          intro u hu
          rcases List.mem_append.mp hu with hu | hu
          · exact more_not_uiOnly _ _ u hu
          · exact ho.2 u (List.mem_cons_of_mem _ hu)

/-- The task a step runs is sound, and it is the UI thread's own if it may be. -/
theorem sound_of_runs (h : system.Under ok tr s) {t : Task} {ts : List Task} (ht : Runs s i t ts) :
    t.Sound tr := by
  have hp := programs h
  cases ht with
  | ui hu => exact (hu ▸ hp.ui : SoundProgram tr (t :: ts)).1
  | other hj => exact (hp.others _ (List.mem_of_getElem? hj)).1.1

end FramedOutbound
end MobileWebcamBridge
