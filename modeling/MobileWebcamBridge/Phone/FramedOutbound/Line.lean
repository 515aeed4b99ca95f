import MobileWebcamBridge.Phone.FramedOutbound.Fence
import MobileWebcamBridge.Phone.PhoneAuthorization.Results

/-!
# Authorization frames on the line

The frames written, in hand and in the control queue form the `line`, until the writer thread has
stopped; picture units wait behind it. A writer is `Sealed` while it has carried authorization
frames only and nobody is about to give it another one, and `Released` once the outcome that
authorizes is on the line, or once it has stopped. A released writer stays released whatever its
threads do, with every other frame behind that outcome.
-/

set_option autoImplicit false

namespace MobileWebcamBridge
namespace FramedOutbound

open Wire VideoWire Trace

variable {tr es : List Event} {s s' : Threads} {l : Label} {o : FramedOutbound} {t : Task}

/-- A frame of the authorization exchange. -/
def Frame.isAuthorization (f : Frame) : Bool :=
  f.header.type == .clientChallenge || f.header.type == .clientAuthResult

/-- The outcome that authorizes. -/
def Frame.authorizes (f : Frame) : Bool := PhoneAuthorization.authorizes (f.header.type, f.payload)

/-- What the writer thread will still write before any picture unit. -/
def coming (s : Threads) : List Frame :=
  if s.writer = .stopped then [] else s.writer.hand ++ s.out.controlQueue

/-- The frames written, and those on their way to be. -/
def line (tr : List Event) (s : Threads) : List Frame := written tr ++ coming s

/-- Every other frame comes after the outcome that authorizes. -/
def Authorized (x : List Frame) (f : Frame) : Prop :=
  f.isAuthorization = false → ∃ g ∈ x, g.authorizes = true

/-- The outcome is on the line, or the started writer has stopped. -/
def Ready (tr : List Event) (s : Threads) : Prop :=
  (∃ g ∈ line tr s, g.authorizes = true) ∨ (s.out.running = false ∧ s.writer ≠ .unstarted)

/-- The outcome that authorizes is on the line, ahead of everything else. -/
structure Released (tr : List Event) (s : Threads) : Prop where
  ready : Ready tr s
  gated : Each Authorized (line tr s)
  video : s.writer ≠ .stopped → s.out.videoQueue ≠ [] → ∃ g ∈ line tr s, g.authorizes = true

/-- A task on its way to queueing something other than an authorization frame. -/
def Task.releases : Task → Bool
  | .beginCapture | .fence _ | .setCodecConfig .. | .keepVideoConfig .. | .offerUnit .. | .recover
  | .overflow => true
  | .number f token | .guard f token | .enqueue f token => !f.isAuthorization || token.isSome
  | .stopVideo | .release | .needIdr | .halt | .clear => false

/-- A task on its way to queueing an authorization frame. -/
def Task.authorization : Task → Bool
  | .number f _ | .guard f _ | .enqueue f _ => f.isAuthorization
  | _ => false

/-- Nothing but authorization frames is on the line. -/
structure Sealed (tr : List Event) (s : Threads) : Prop where
  ui : s.ui = []
  others : ∀ p ∈ s.others, ∀ t ∈ p, t.releases = false
  frames : ∀ f ∈ line tr s, f.isAuthorization = true
  video : s.out.videoQueue = []
  steady : s.out.controlOverflowed = false

/-- A writer's queues are cleared for good only after it was halted. -/
def Closes (s : Threads) (p : List Task) : Prop :=
  p = Call.close.tasks ∨ (.clear ∈ p → s.out.running = false)

/-- Only a thread that closes clears the queues, and only of a writer that was started. -/
structure Closing (s : Threads) : Prop where
  ui : .clear ∉ s.ui
  others : ∀ p ∈ s.others, Closes s p
  started : ∀ p ∈ s.others, .clear ∈ p → s.writer ≠ .unstarted

/-! ## What a task does to the queues -/

/-- A section empties the video queue, leaves it or offers a unit to it. -/
theorem video_of_task (o : FramedOutbound) (t : Task) :
    (o.runTask t).1.videoQueue = [] ∨ (o.runTask t).1.videoQueue = o.videoQueue ∨
      (∃ unit token, t = .offerUnit unit token ∧ o.running = true) := by
  cases t with
  | beginCapture | stopVideo | clear => exact .inl rfl
  | fence key =>
    simp only [runTask, fenceOnce]
    split
    · exact .inr (.inl rfl)
    · exact .inl rfl
  | setCodecConfig config token =>
    simp only [runTask, setCodecConfig]
    split <;> exact .inr (.inl rfl)
  | keepVideoConfig config token =>
    simp only [runTask, keepVideoConfig]
    split
    · next o' h =>
      split at h
      · rw [Option.some.injEq] at h
        exact .inr (.inl (by rw [← h]))
      · cases h
    · exact .inr (.inl rfl)
  | offerUnit unit token =>
    rcases offer_cases o unit token with h | ⟨ha, -⟩
    · exact .inr (.inl (by simp only [runTask, h]))
    · exact .inr (.inr ⟨unit, token, rfl, (accepts_iff.mp ha).1⟩)
  | recover =>
    simp only [runTask]
    rcases recover_cases o with h | ⟨-, -, h⟩ <;> rw [h]
    · exact .inr (.inl rfl)
    · apply Or.inl
      cases o.latestVideoConfig <;> rfl
  | enqueue f token =>
    simp only [runTask]
    rcases enqueueControl_cases o f token with h | ⟨-, -, h⟩ | ⟨-, -, -, h⟩ <;> rw [h] <;>
      exact .inr (.inl rfl)
  | number | guard | release | overflow | needIdr | halt => exact .inr (.inl rfl)

theorem running_of_task (o : FramedOutbound) (t : Task) :
    (o.runTask t).1.running = if t = .halt then false else o.running := by
  cases t with
  | fence key =>
    simp only [runTask, fenceOnce]
    split <;> rfl
  | setCodecConfig config token =>
    simp only [runTask, setCodecConfig]
    split <;> rfl
  | keepVideoConfig config token =>
    simp only [runTask, keepVideoConfig]
    split
    · next o' h =>
      split at h
      · rw [Option.some.injEq] at h
        rw [← h]
        rfl
      · cases h
    · rfl
  | offerUnit unit token => exact (offerUnit_keeps o unit token).2
  | recover =>
    simp only [runTask]
    rcases recover_cases o with h | ⟨-, -, h⟩ <;> rw [h]
    · rfl
    · cases o.latestVideoConfig <;> rfl
  | enqueue f token =>
    simp only [runTask]
    rcases enqueueControl_cases o f token with h | ⟨-, -, h⟩ | ⟨-, -, -, h⟩ <;> rw [h] <;> rfl
  | _ => rfl

/-! ## A released writer -/

theorem isAuthorization_of_authorizes {f : Frame} (h : f.authorizes = true) :
    f.isAuthorization = true ∧ f.isVideoConfig = false := by
  unfold Frame.authorizes PhoneAuthorization.authorizes at h
  split at h
  · next hm =>
    have htype := congrArg Prod.fst hm
    simp only at htype
    simp [Frame.isAuthorization, Frame.isVideoConfig, htype]
  · cases h

/-- Taking frames that do not authorize off the end of the line. -/
theorem authorized_filter {u q : List Frame} {keep : Frame → Bool} (h : Each Authorized (u ++ q))
    (hkeep : ∀ g : Frame, g.authorizes = true → keep g = true) :
    Each Authorized (u ++ q.filter keep) := by
  intro x f y hx hf
  rcases List.append_eq_append_iff.mp hx with ⟨c, rfl, hc⟩ | ⟨c, rfl, hc⟩
  · -- the frame is in the filtered part: look at its place in the whole one
    obtain ⟨q₁, q₂, rfl, rfl, hq₂⟩ := List.filter_eq_append_iff.mp hc
    obtain ⟨m₁, m₂, rfl, hdropped, -, -⟩ := List.filter_eq_cons_iff.mp hq₂
    obtain ⟨g, hg, hauth⟩ := h (u ++ (q₁ ++ m₁)) f m₂ (by simp) hf
    refine ⟨g, ?_, hauth⟩
    simp only [List.mem_append] at hg ⊢
    rcases hg with hg | hg | hg
    · exact .inl hg
    · exact .inr (List.mem_filter.mpr ⟨hg, hkeep g hauth⟩)
    · exact absurd (hkeep g hauth) (hdropped g hg)
  · cases c with
    | nil =>
      rw [List.nil_append] at hc
      obtain ⟨q₁, q₂, rfl, hdropped, -, -⟩ := List.filter_eq_cons_iff.mp hc.symm
      obtain ⟨g, hg, hauth⟩ := h (x ++ q₁) f q₂ (by simp) hf
      refine ⟨g, ?_, hauth⟩
      rcases List.mem_append.mp hg with hg | hg
      · exact hg
      · exact absurd (hkeep g hauth) (hdropped g hg)
    | cons e c =>
      obtain ⟨rfl, -⟩ := List.cons.inj hc
      exact h x f (c ++ q) (by simp) hf

/-- A stopped writer thread writes nothing more. -/
theorem released_stopped (h : Each Authorized (written tr)) (hw : s.writer = .stopped)
    (hr : s.out.running = false) : Released tr s := by
  have hline : line tr s = written tr := by simp [line, coming, hw]
  refine ⟨.inr ⟨hr, by rw [hw]; decide⟩, ?_, fun hn => absurd hw hn⟩
  rw [hline]
  exact h

/-- Nothing about the line changes. -/
theorem Released.same (h : Released tr s) (hline : line (tr ++ es) s' = line tr s)
    (hvideo : s'.writer ≠ .stopped → s'.out.videoQueue ≠ [] → ∃ g ∈ line tr s, g.authorizes = true)
    (hrun : s'.out.running = s.out.running ∨ (s'.out.running = false ∧ s'.writer ≠ .unstarted) ∨
      s.writer = .unstarted)
    (hw : s.writer ≠ .unstarted → s'.writer ≠ .unstarted) : Released (tr ++ es) s' := by
  refine ⟨?_, ?_, ?_⟩
  · rcases h.ready with hg | ⟨hr, hw'⟩
    · rw [Ready, hline]
      exact .inl hg
    · rcases hrun with hrun | hrun | hrun
      · exact .inr ⟨hrun.trans hr, hw hw'⟩
      · exact .inr hrun
      · exact absurd hrun hw'
  · rw [hline]
    exact h.gated
  · rw [hline]
    exact hvideo

theorem coming_of_ne (h : s.writer ≠ .stopped) :
    coming s = s.writer.hand ++ s.out.controlQueue := by
  simp [coming, h]

theorem mem_coming {f : Frame} (hf : f ∈ coming s) :
    s.writer ≠ .stopped ∧ (f ∈ s.writer.hand ∨ f ∈ s.out.controlQueue) := by
  unfold coming at hf
  split at hf
  · cases hf
  · next h => exact ⟨h, List.mem_append.mp hf⟩

/-- What a task adds to the control queue of a released writer is behind the outcome. -/
theorem Released.control (h : Released tr s) {u : List Frame}
    (hline : line tr s = u ++ s.out.controlQueue) (t : Task) :
    Each Authorized (u ++ (s.out.runTask t).1.controlQueue) ∧
      ((∃ g ∈ line tr s, g.authorizes = true) →
        t = .clear ∨ ∃ g ∈ u ++ (s.out.runTask t).1.controlQueue, g.authorizes = true) := by
  have hready := h.ready
  have hgated := h.gated
  rw [hline] at hgated ⊢
  rw [Ready, hline] at hready
  rcases control_of_task s.out t with ⟨keep, hkeep, hq⟩ | ⟨f, token, rfl, ⟨hr, -⟩, hq⟩ |
    ⟨rfl, hq⟩ <;> rw [hq]
  · have hauth (g : Frame) (hg : g.authorizes = true) : keep g = true :=
      hkeep g (isAuthorization_of_authorizes hg).2
    refine ⟨authorized_filter hgated hauth, fun ⟨g, hg, hga⟩ => .inr ⟨g, ?_, hga⟩⟩
    rcases List.mem_append.mp hg with hg | hg
    · exact List.mem_append_left _ hg
    · exact List.mem_append_right _ (List.mem_filter.mpr ⟨hg, hauth g hga⟩)
  · -- a frame is queued only while the writer runs
    obtain ⟨g, hg, hga⟩ : ∃ g ∈ u ++ s.out.controlQueue, g.authorizes = true := by
      rcases hready with hg | ⟨hr', -⟩
      · exact hg
      · rw [hr] at hr'
        cases hr'
    rw [← List.append_assoc]
    refine ⟨hgated.append (each_cons.mpr ⟨fun _ => ⟨g, by simpa using hg, hga⟩, each_nil⟩),
      fun _ => .inr ⟨g, List.mem_append_left _ hg, hga⟩⟩
  · rw [List.append_nil]
    exact ⟨hgated.of_append, fun _ => .inl rfl⟩

/-- A section keeps what was released. -/
theorem Released.task (h : Released tr s) (t : Task)
    (hclear : t = .clear → s.out.running = false ∧ s.writer ≠ .unstarted)
    (hout : s'.out = (s.out.runTask t).1) (hw : s'.writer = s.writer) :
    Released (tr ++ (s.out.runTask t).2.2) s' := by
  have hwritten : written (tr ++ (s.out.runTask t).2.2) = written tr :=
    written_of_no_write (effect s.out t).not_wrote
  have hrunning := running_of_task s.out t
  have hstays (hr : s.out.running = false) : s'.out.running = false := by
    rw [hout, hrunning, hr, ite_self]
  by_cases hs : s.writer = .stopped
  · -- the line is what was written
    have hline : line (tr ++ (s.out.runTask t).2.2) s' = line tr s := by
      simp [line, coming, hw, hs, hwritten]
    refine ⟨?_, ?_, fun hn => absurd (hw.trans hs) hn⟩
    · rw [Ready, hline]
      rcases h.ready with hg | ⟨hr, hw'⟩
      · exact .inl hg
      · exact .inr ⟨hstays hr, hw ▸ hw'⟩
    · rw [hline]
      exact h.gated
  · have hline : line tr s = (written tr ++ s.writer.hand) ++ s.out.controlQueue := by
      rw [line, coming_of_ne hs, List.append_assoc]
    have hline' : line (tr ++ (s.out.runTask t).2.2) s' =
        (written tr ++ s.writer.hand) ++ (s.out.runTask t).1.controlQueue := by
      rw [line, coming_of_ne (by rwa [hw]), hwritten, hw, hout, List.append_assoc]
    obtain ⟨hgated, hkeep⟩ := h.control hline t
    refine ⟨?_, ?_, fun _ hv => ?_⟩
    · rcases h.ready with hg | ⟨hr, hw'⟩
      · rcases hkeep hg with ht | hg'
        · obtain ⟨hr, hw'⟩ := hclear ht
          exact .inr ⟨hstays hr, by rwa [hw]⟩
        · rw [Ready, hline']
          exact .inl hg'
      · exact .inr ⟨hstays hr, by rwa [hw]⟩
    · rw [hline']
      exact hgated
    · rw [hline']
      have hgoal (hg : ∃ g ∈ line tr s, g.authorizes = true) (hn : t ≠ .clear) :=
        (hkeep hg).resolve_left hn
      rw [hout] at hv
      rcases video_of_task s.out t with hnil | hsame | ⟨unit, token, ht, hr⟩
      · exact absurd hnil hv
      · apply hgoal
        · exact h.video hs (by rwa [← hsame])
        · rintro rfl
          exact hv rfl
      · apply hgoal
        · rcases h.ready with hg | ⟨hr', -⟩
          · exact hg
          · rw [hr] at hr'
            cases hr'
        · rw [ht]
          simp

/-- The writer thread takes a control frame, or a picture unit when there is none. -/
theorem Released.take (h : Released tr s) {f : Frame} (hw : s.writer = .take)
    (hd : s.out.dequeue.2 = some f) :
    Released tr { s with out := s.out.dequeue.1, writer := .write f } := by
  have hcoming : coming s = s.out.controlQueue := by simp [coming, hw, Writer.hand]
  rcases dequeue_some hd with ⟨fs, hc, hout⟩ | ⟨fs, hc, hv, hout⟩ <;> rw [hout]
  · have hline : line tr { s with out := { s.out with controlQueue := fs }, writer := .write f } =
        line tr s := by
      simp [line, coming, hw, hc, Writer.hand]
    have :
        Released (tr ++ [])
          { s with out := { s.out with controlQueue := fs }, writer := .write f } :=
      h.same (by rw [List.append_nil]; exact hline) (fun _ =>
        h.video (by rw [hw]; decide)) (.inl rfl)
      (fun _ => by simp)
    rwa [List.append_nil] at this
  · -- no control frame is left, so the outcome is written or the writer is stopped
    obtain ⟨g, hg, hga⟩ := h.video (by rw [hw]; decide) (by rw [hv]; simp)
    have hline : line tr { s with out := { s.out with videoQueue := fs }, writer := .write f } =
        line tr s ++ [f] := by
      simp [line, coming, hw, hc, Writer.hand]
    have hg' : g ∈ line tr s ++ [f] := List.mem_append_left _ hg
    refine ⟨.inl ⟨g, by rw [hline]; exact hg', hga⟩, ?_,
      fun _ _ => ⟨g, by rw [hline]; exact hg', hga⟩⟩
    rw [hline]
    apply h.gated.append
    exact each_cons.mpr ⟨fun _ => ⟨g, by simpa using hg, hga⟩, each_nil⟩

/-- Whatever its threads do, a released writer stays released. -/
theorem Released.step (h : Released tr s) (hc : Closing s) (hs : step s l = some (s', es)) :
    Released (tr ++ es) s' := by
  cases moved_of_step hs with
  | start hw =>
    apply h.same
    · simp [line, coming, hw, Writer.hand]
    · exact fun _ => h.video (by rw [hw]; decide)
    · exact .inr (.inr hw)
    · exact fun hn => absurd hw hn
  | ui calls hui => exact h.same (by simp [line, coming]) h.video (.inl rfl) id
  | spawn call hcall => exact h.same (by simp [line, coming]) h.video (.inl rfl) id
  | @task _ t ts hruns =>
    refine h.task t (fun ht => ?_) (resume_out ..) (resume_writer ..)
    subst ht
    cases hruns with
    | ui hui => exact absurd (hui ▸ List.mem_cons_self) hc.ui
    | @other j _ ts hj =>
      have hmem : .clear :: ts ∈ s.others := List.mem_of_getElem? hj
      refine ⟨?_, hc.started _ hmem List.mem_cons_self⟩
      -- only `close` clears, and it has halted the writer before
      rcases hc.others _ hmem with hclose | hrun
      · cases hclose
      · exact hrun List.mem_cons_self
  | acquire hw hk =>
    -- the loop goes on, or it ends and what is queued is never sent
    by_cases hr : s.out.running = true
    · apply h.same
      · simp [line, coming, hw, hr, Writer.hand]
      · exact fun _ => h.video (by rw [hw]; decide)
      · exact .inl rfl
      · intro _
        simp [hr]
    · rw [List.append_nil]
      have hgated := h.gated
      rw [line] at hgated
      apply released_stopped hgated.of_append
      · simp [hr]
      · simpa using hr
  | take f hw hd =>
    rw [List.append_nil]
    exact h.take hw hd
  | idle hw hd =>
    rw [List.append_nil]
    have hgated := h.gated
    rw [line] at hgated
    unfold loopTest
    by_cases hr : s.out.running = true
    · have hsame : Released (tr ++ []) { s with writer := .acquire } := h.same
        (by simp [line, coming, hw, Writer.hand]) (fun _ => h.video (by rw [hw]; decide)) (.inl rfl)
        (fun _ => by simp)
      rw [List.append_nil] at hsame
      simpa [hr] using hsame
    · apply released_stopped hgated.of_append
      · simp [hr]
      · simpa using hr
  | write f hw =>
    have hgated := h.gated
    have hline : line tr s = (written tr ++ [f]) ++ s.out.controlQueue := by
      simp [line, coming, hw, Writer.hand]
    have hwritten : written (tr ++ [Event.wrote f]) = written tr ++ [f] := by
      rw [written_append]
      rfl
    unfold loopTest
    by_cases hr : s.out.running = true
    · apply h.same
      · rw [hline, line, hwritten]
        simp [coming, hr, Writer.hand]
      · exact fun _ => h.video (by rw [hw]; simp)
      · exact .inl rfl
      · intro _
        simp [hr]
    · rw [hline] at hgated
      apply released_stopped
      · rw [hwritten]
        exact hgated.of_append
      · simp [hr]
      · simpa using hr
  | throws f hw =>
    have hgated := h.gated
    rw [line] at hgated
    apply released_stopped
    · rw [written_of_no_write]
      · exact hgated.of_append
      · split <;> simp
    · rfl
    · rfl

/-! ## A sealed writer -/

/-- What is sealed was released. -/
theorem Sealed.released (h : Sealed tr s) (hready : Ready tr s) : Released tr s := by
  refine ⟨hready, ?_, fun _ hv => absurd h.video hv⟩
  apply each_of_forall
  intro x f hf hn
  rw [h.frames f hf] at hn
  cases hn

/-- What a sealed thread's task leaves to do, when the control queue has room. -/
theorem sealed_more (o : FramedOutbound) {t : Task} (ht : t.releases = false)
    (hroom : o.controlQueue.length < MAX_CONTROL_FRAMES) :
    ∀ u ∈ (o.runTask t).2.1, u.releases = false := by
  cases t with
  | number f token =>
    simp only [Task.releases] at ht
    simpa [runTask, Task.releases, Frame.isAuthorization] using ht
  | guard f token =>
    simp only [Task.releases] at ht
    simp only [runTask]
    split
    · simp
    · simpa [Task.releases] using ht
  | enqueue f token =>
    simp only [runTask]
    rcases enqueueControl_cases o f token with h | ⟨-, hfull, -⟩ | ⟨-, -, -, h⟩
    · rw [h]
      simp
    · omega
    · rw [h]
      simp [Task.releases]
  | stopVideo | release | needIdr | halt | clear => simp [runTask]
  | _ => cases ht

/-- A section that releases nothing keeps the seal. -/
theorem Sealed.task (h : Sealed tr s) {t : Task} (ht : t.releases = false)
    (hout : s'.out = (s.out.runTask t).1) (hw : s'.writer = s.writer) (hui : s'.ui = [])
    (hothers : ∀ p ∈ s'.others, ∀ u ∈ p, u.releases = false) :
    Sealed (tr ++ (s.out.runTask t).2.2) s' := by
  have hwritten : written (tr ++ (s.out.runTask t).2.2) = written tr :=
    written_of_no_write (effect s.out t).not_wrote
  refine ⟨hui, hothers, fun f hf => ?_, ?_, ?_⟩
  · rw [line, hwritten] at hf
    rcases List.mem_append.mp hf with hf | hf
    · apply h.frames
      rw [line]
      exact List.mem_append_left _ hf
    · by_cases hs : s.writer = .stopped
      · rw [coming, hw, if_pos hs] at hf
        cases hf
      · rw [coming_of_ne (by rwa [hw]), hw, hout] at hf
        have hold (hf : f ∈ s.writer.hand ++ s.out.controlQueue) : f.isAuthorization = true := by
          apply h.frames
          rw [line, coming_of_ne hs]
          exact List.mem_append_right _ hf
        rcases List.mem_append.mp hf with hf | hf
        · exact hold (List.mem_append_left _ hf)
        · rcases control_of_task s.out t with ⟨keep, -, hq⟩ | ⟨g, token, rfl, -, hq⟩ | ⟨-, hq⟩ <;>
            rw [hq] at hf
          · exact hold (List.mem_append_right _ (List.mem_filter.mp hf).1)
          · rcases List.mem_append.mp hf with hf | hf
            · exact hold (List.mem_append_right _ hf)
            · rw [List.mem_singleton] at hf
              simp only [Task.releases, Bool.or_eq_false_iff, Bool.not_eq_false'] at ht
              rw [hf]
              exact ht.1
          · cases hf
  · rw [hout]
    rcases video_of_task s.out t with hv | hv | ⟨unit, token, rfl, -⟩
    · exact hv
    · exact hv.trans h.video
    · cases ht
  · rw [hout]
    have hsteady := h.steady
    cases t with
    | enqueue f token =>
      simp only [runTask]
      rcases enqueueControl_cases s.out f token with hq | ⟨-, -, hq⟩ | ⟨-, -, -, hq⟩ <;> rw [hq] <;>
        exact hsteady
    | number | guard | stopVideo | release | needIdr | halt | clear => exact hsteady
    | _ => cases ht

/-- A sealed writer stays sealed while nobody enters it but to send an outcome or to close it. -/
theorem Sealed.step (h : Sealed tr s) (hroom : s.out.controlQueue.length < MAX_CONTROL_FRAMES)
    (hui : ∀ calls, l ≠ .ui calls)
    (hspawn : ∀ call, l = .spawn call → ∀ t ∈ call.tasks, t.releases = false)
    (hs : step s l = some (s', es)) : Sealed (tr ++ es) s' := by
  -- all that is on its way is an outcome, and what is queued is on its way
  have hcoming (f : Frame) (hf : f ∈ coming s) : f.isAuthorization = true :=
    h.frames f (by rw [line]; exact List.mem_append_right _ hf)
  have hwritten (f : Frame) (hf : f ∈ written tr) : f.isAuthorization = true :=
    h.frames f (by rw [line]; exact List.mem_append_left _ hf)
  have hqueued (hw : s.writer ≠ .stopped) (f : Frame) (hf : f ∈ s.out.controlQueue) :
      f.isAuthorization = true := by
    apply hcoming
    rw [coming_of_ne hw]
    exact List.mem_append_right _ hf
  cases moved_of_step hs with
  | start hw =>
    rw [List.append_nil]
    refine ⟨h.ui, h.others, fun f hf => ?_, h.video, h.steady⟩
    apply h.frames
    simpa [line, coming, hw, Writer.hand] using hf
  | ui calls => exact absurd rfl (hui calls)
  | spawn call hcall =>
    rw [List.append_nil]
    refine ⟨h.ui, fun p hp => ?_, h.frames, h.video, h.steady⟩
    rcases List.mem_append.mp hp with hp | hp
    · exact h.others p hp
    · rw [List.mem_singleton.mp hp]
      exact hspawn call rfl
  | @task _ t ts hruns =>
    cases hruns with
    | ui hq =>
      rw [h.ui] at hq
      cases hq
    | @other j _ ts hj =>
      have hmem : t :: ts ∈ s.others := List.mem_of_getElem? hj
      have ht := h.others _ hmem t List.mem_cons_self
      refine h.task ht (resume_out ..) (resume_writer ..) h.ui fun p hp => ?_
      -- the thread that ran leaves the rest of its own program
      rcases List.mem_or_eq_of_mem_set hp with hp | rfl
      · exact h.others p hp
      · intro u hu
        rcases List.mem_append.mp hu with hu | hu
        · exact sealed_more s.out ht hroom u hu
        · exact h.others _ hmem u (List.mem_cons_of_mem _ hu)
  | acquire hw hk =>
    rw [List.append_nil]
    refine ⟨h.ui, h.others, fun f hf => ?_, h.video, h.steady⟩
    rw [line] at hf
    rcases List.mem_append.mp hf with hf | hf
    · exact hwritten f hf
    · rcases (mem_coming hf).2 with hf | hf
      · simp only at hf
        split at hf <;> cases hf
      · exact hqueued (by rw [hw]; decide) f hf
  | take f hw hd =>
    rw [List.append_nil]
    rcases dequeue_some hd with ⟨fs, hc, hout⟩ | ⟨fs, -, hv, -⟩
    · rw [hout]
      refine ⟨h.ui, h.others, fun g hg => ?_, h.video, h.steady⟩
      apply h.frames
      simpa [line, coming, hw, hc, Writer.hand] using hg
    -- no unit is queued while the writer is sealed
    · rw [h.video] at hv
      cases hv
  | idle hw hd =>
    rw [List.append_nil]
    refine ⟨h.ui, h.others, fun f hf => ?_, h.video, h.steady⟩
    rw [line] at hf
    rcases List.mem_append.mp hf with hf | hf
    · exact hwritten f hf
    · rcases (mem_coming hf).2 with hf | hf
      · rw [loopTest_hand] at hf
        cases hf
      · exact hqueued (by rw [hw]; decide) f hf
  | write f hw =>
    refine ⟨h.ui, h.others, fun g hg => ?_, h.video, h.steady⟩
    rw [line, written_append, List.append_assoc] at hg
    rcases List.mem_append.mp hg with hg | hg
    · exact hwritten g hg
    · rcases List.mem_append.mp hg with hg | hg
      · obtain rfl : g = f := List.mem_singleton.mp hg
        apply hcoming
        simp [coming, hw]
      · rcases (mem_coming hg).2 with hg | hg
        · rw [loopTest_hand] at hg
          cases hg
        · exact hqueued (by rw [hw]; simp) g hg
  | throws f hw =>
    refine ⟨h.ui, h.others, fun g hg => ?_, h.video, h.steady⟩
    rw [line, written_of_no_write (by split <;> simp)] at hg
    simp only [coming, if_true, List.append_nil] at hg
    exact hwritten g hg

/-! ## Closing -/

theorem clear_of_tasks {call : Call} (h : .clear ∈ call.tasks) : call = .close := by
  cases call <;> simp only [Call.tasks, sendControl] at h <;> (try split at h) <;> simp at h ⊢

theorem clear_not_more (o : FramedOutbound) (t : Task) : .clear ∉ (o.runTask t).2.1 := by
  cases t <;> simp only [runTask] <;> (try split) <;> simp [enqueueVideoConfig]

/-- Running ends for good. -/
theorem Closes.mono {p : List Task} (h : Closes s p)
    (hr : s.out.running = false → s'.out.running = false) :
    Closes s' p := by
  rcases h with h | h
  · exact .inl h
  · exact .inr fun hp => hr (h hp)

/-- The thread runs the head of a program that may close the writer. -/
theorem Closes.task {t : Task} {ts : List Task} (h : Closes s (t :: ts))
    (hout : s'.out = (s.out.runTask t).1) : Closes s' ((s.out.runTask t).2.1 ++ ts) := by
  apply Or.inr
  intro hp
  have hts : .clear ∈ ts := (List.mem_append.mp hp).resolve_left (clear_not_more s.out t)
  rw [hout, running_of_task]
  rcases h with h | h
  · rw [Call.tasks, List.cons.injEq] at h
    rw [if_pos h.1]
  · rw [h (List.mem_cons_of_mem _ hts), ite_self]

/-- A started writer that is only closed by the source's own call. -/
theorem Closing.step (h : Closing s) (hui : ∀ calls, l = .ui calls → .close ∉ calls)
    (hspawn : l = .spawn .close → s.writer ≠ .unstarted) (hs : step s l = some (s', es)) :
    Closing s' := by
  cases moved_of_step hs with
  | start hw =>
    have hnone (p : List Task) (hp : p ∈ s.others) : .clear ∉ p :=
      fun hclear => h.started p hp hclear hw
    exact ⟨h.ui, fun p hp => .inr fun hclear => absurd hclear (hnone p hp), fun p hp _ => by simp⟩
  | ui calls _ =>
    refine ⟨fun hclear => ?_, h.others, h.started⟩
    obtain ⟨call, hcall, hmem⟩ := List.mem_flatMap.mp hclear
    exact hui calls rfl (clear_of_tasks hmem ▸ hcall)
  | spawn call hcall =>
    refine ⟨h.ui, fun p hp => ?_, fun p hp hclear => ?_⟩ <;>
      rcases List.mem_append.mp hp with hp | hp
    · exact h.others p hp
    · rw [List.mem_singleton.mp hp]
      by_cases hclose : call = .close
      · exact .inl (by rw [hclose])
      · exact .inr fun hmem => absurd (clear_of_tasks hmem) hclose
    · exact h.started p hp hclear
    · rw [List.mem_singleton.mp hp] at hclear
      exact hspawn (by rw [clear_of_tasks hclear])
  | @task _ t ts hruns =>
    have hstays (hr : s.out.running = false) : (s.out.runTask t).1.running = false := by
      rw [running_of_task, hr, ite_self]
    cases hruns with
    | ui hq =>
      have hts : .clear ∉ ts := fun hclear => h.ui (hq ▸ List.mem_cons_of_mem _ hclear)
      refine ⟨fun hclear => ?_, fun p hp => (h.others p hp).mono hstays, h.started⟩
      exact (List.mem_append.mp hclear).elim (clear_not_more s.out t) hts
    | @other j _ ts hj =>
      have hmem : t :: ts ∈ s.others := List.mem_of_getElem? hj
      refine ⟨h.ui, fun p hp => ?_, fun p hp hclear => ?_⟩ <;>
        rcases List.mem_or_eq_of_mem_set hp with hp | rfl
      · exact (h.others p hp).mono hstays
      · exact (h.others _ hmem).task rfl
      · exact h.started p hp hclear
      · have hts := (List.mem_append.mp hclear).resolve_left (clear_not_more s.out t)
        exact h.started _ hmem (List.mem_cons_of_mem _ hts)
  | acquire hw hk =>
    refine ⟨h.ui, h.others, fun p hp _ => ?_⟩
    simp only
    split <;> simp
  | take f hw hd =>
    have hstays (hr : s.out.running = false) : s.out.dequeue.1.running = false := by
      rcases dequeue_some hd with ⟨fs, -, hout⟩ | ⟨fs, -, -, hout⟩ <;> rw [hout] <;> exact hr
    exact ⟨h.ui, fun p hp => (h.others p hp).mono hstays, fun p hp _ => by simp⟩
  | idle hw hd | write f hw =>
    refine ⟨h.ui, h.others, fun p hp _ => ?_⟩
    simp only [loopTest]
    split <;> simp
  | throws f hw =>
    exact ⟨h.ui, fun p hp => (h.others p hp).mono fun _ => rfl, fun p hp _ => by simp⟩

end FramedOutbound
end MobileWebcamBridge
