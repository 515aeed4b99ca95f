import MobileWebcamBridge.Phone.FramedOutbound.Conservation

/-!
# `VIDEO_CONFIG` before its access units

`sendVideoConfig` keeps the config in one block and queues its frame in another, and
`sendAccessUnit` asks only whether a config is kept. An access unit can thus be queued, taken and
written before the config of its capture is in the control queue, or without it when the control
queue is full. `Configured` is the condition that the writer never takes such a unit.
-/

set_option autoImplicit false

namespace MobileWebcamBridge
namespace FramedOutbound

open Wire VideoWire Trace

variable {ok : List Event → Threads → Label → Prop} {tr es : List Event} {s s' : Threads}
variable {o : FramedOutbound} {t : Task}

/-- A `VIDEO_CONFIG` of the unit's capture comes before the unit. -/
def ConfigBefore (x : List Frame) (f : Frame) : Prop :=
  f.isAccessUnit = true → ∃ c ∈ x, c.isVideoConfig = true ∧ c.token = f.token

/-- On the wire every access unit follows a `VIDEO_CONFIG` of its capture. -/
def ConfigFirst (tr : List Event) : Prop := Each ConfigBefore (written tr)

/-- When the writer takes an access unit, a `VIDEO_CONFIG` of the current capture has been admitted
to the control queue. -/
def Configured (tr : List Event) (s : Threads) (i : Label) : Prop :=
  i = .writerStep → s.writer = .take → s.out.controlQueue = [] → s.out.videoQueue ≠ [] →
    ∃ c ∈ admitted tr, c.isVideoConfig = true ∧ c.token = s.out.generation

instance (tr : List Event) (s : Threads) (i : Label) : Decidable (Configured tr s i) :=
  inferInstanceAs (Decidable (_ → _ → _ → _ → _))

/-! ## Where an admitted `VIDEO_CONFIG` is -/

/-- A task queues what it admits, or it ends the capture. -/
theorem capture_of_task (o : FramedOutbound) (t : Task) :
    ((o.runTask t).1.generation = o.generation ∧ (o.runTask t).1.videoEnabled = o.videoEnabled ∧
      (o.runTask t).1.controlQueue = o.controlQueue ++ admitted (o.runTask t).2.2 ∧
      ∀ c ∈ admitted (o.runTask t).2.2, c.token = o.generation) ∨
    (admitted (o.runTask t).2.2 = [] ∧ (o.runTask t).1.controlQueue ⊆ o.controlQueue ∧
      ((o.runTask t).1.generation = o.generation + 1 ∨
        (o.runTask t).1.generation = o.generation ∧ (o.runTask t).1.videoEnabled = false)) := by
  -- only `enqueue` admits a control frame
  have hsame (hne : ∀ f token, t ≠ .enqueue f token)
      (hg : (o.runTask t).1.generation = o.generation)
      (hv : (o.runTask t).1.videoEnabled = o.videoEnabled)
      (hc : (o.runTask t).1.controlQueue = o.controlQueue) :
      (o.runTask t).1.generation = o.generation ∧ (o.runTask t).1.videoEnabled = o.videoEnabled ∧
        (o.runTask t).1.controlQueue = o.controlQueue ++ admitted (o.runTask t).2.2 ∧
        ∀ c ∈ admitted (o.runTask t).2.2, c.token = o.generation := by
    rw [admitted_of_ne o hne, List.append_nil]
    exact ⟨hg, hv, hc, fun _ hmem => absurd hmem List.not_mem_nil⟩
  have hnone (hne : ∀ f token, t ≠ .enqueue f token) : admitted (o.runTask t).2.2 = [] :=
    admitted_of_ne o hne
  cases t with
  | beginCapture =>
    exact .inr ⟨hnone (by simp), List.filter_subset_self _, .inl rfl⟩
  | stopVideo =>
    exact .inr ⟨hnone (by simp), List.filter_subset_self _, .inr ⟨rfl, rfl⟩⟩
  | clear => exact .inr ⟨hnone (by simp), List.nil_subset _, .inr ⟨rfl, rfl⟩⟩
  | fence key =>
    -- a fence that is replayed changes nothing
    by_cases hk : o.lastFence = some key
    · refine .inl (hsame (by simp) ?_ ?_ ?_) <;> simp [runTask, fenceOnce, hk]
    · refine .inr ⟨hnone (by simp), ?_, .inr ?_⟩
      · simp only [runTask, fenceOnce, hk, if_false]
        exact List.filter_subset_self _
      · simp [runTask, fenceOnce, hk, stopVideo, clearVideo]
  | setCodecConfig config token =>
    refine .inl (hsame (by simp) ?_ ?_ ?_) <;> simp only [runTask, setCodecConfig] <;> split <;> rfl
  | keepVideoConfig config token =>
    by_cases ha : o.accepts token = true
    · refine .inl (hsame (by simp) ?_ ?_ ?_) <;> simp only [runTask, keepVideoConfig, ha, if_true]
    · refine .inl (hsame (by simp) ?_ ?_ ?_) <;>
        simp only [runTask, keepVideoConfig, ha, Bool.false_eq_true, if_false]
  | offerUnit unit token =>
    refine .inl (hsame (by simp) ?_ ?_ (offerUnit_keeps o unit token).1)
    · simp only [runTask]
      rcases offer_cases o unit token with hr | ⟨-, hr⟩
      · rw [hr]
      · generalize o.offerUnit unit token = r at hr ⊢
        cases hr <;> rfl
    · simp only [runTask]
      rcases offer_cases o unit token with hr | ⟨-, hr⟩
      · rw [hr]
      · generalize o.offerUnit unit token = r at hr ⊢
        cases hr <;> rfl
  | recover =>
    refine .inl (hsame (by simp) ?_ ?_ ?_) <;> simp only [runTask] <;>
      rcases recover_cases o with hr | ⟨-, -, hr⟩ <;> rw [hr] <;> cases o.latestVideoConfig <;> rfl
  | enqueue f token =>
    apply Or.inl
    simp only [runTask]
    rcases enqueueControl_cases o f token with hr | ⟨-, -, hr⟩ | ⟨-, ha, -, hr⟩
    · rw [hr]
      exact ⟨rfl, rfl, (List.append_nil _).symm, fun _ hmem => absurd hmem List.not_mem_nil⟩
    · rw [hr]
      exact ⟨rfl, rfl, (List.append_nil _).symm, fun _ hmem => absurd hmem List.not_mem_nil⟩
    · rw [hr, stamped_of_accepts ha]
      refine ⟨rfl, rfl, rfl, fun c hc => ?_⟩
      rw [List.mem_singleton.mp hc]
  | _ => exact .inl (hsame (by simp) rfl rfl rfl)

/-- What was admitted is written, queued or in hand, while it is of the running capture. -/
structure Announced (tr : List Event) (s : Threads) : Prop where
  known : ∀ f ∈ announced tr s, f.isAccessUnit = false → f ∈ admitted tr
  begun : ∀ c ∈ admitted tr, c.token ≤ s.out.generation
  kept : s.writer ≠ .stopped → s.out.videoEnabled = true → ∀ c ∈ admitted tr,
    c.isVideoConfig = true → c.token = s.out.generation → c ∈ announced tr s

/-- A section of a program keeps what is announced. -/
theorem Announced.task (h : Announced tr s) (t : Task)
    (hout : s'.out = (s.out.runTask t).1) (hw : s'.writer = s.writer) :
    Announced (tr ++ (s.out.runTask t).2.2) s' := by
  have hwritten : written (tr ++ (s.out.runTask t).2.2) = written tr :=
    written_of_no_write (effect s.out t).not_wrote
  have hline : announced (tr ++ (s.out.runTask t).2.2) s' =
      written tr ++ (s.writer.hand ++ (s.out.runTask t).1.controlQueue) := by
    rw [announced, hwritten, hw, hout]
  rcases capture_of_task s.out t with ⟨hg, hv, hc, hnew⟩ | ⟨hnone, hc, hends⟩
  · have hgrows : announced (tr ++ (s.out.runTask t).2.2) s' =
        announced tr s ++ admitted (s.out.runTask t).2.2 := by
      rw [hline, hc, announced]
      simp only [List.append_assoc]
    refine ⟨fun f hf hunit => ?_, fun c hmem => ?_, fun hrun hon c hmem hconfig hgen => ?_⟩
    · rw [hgrows] at hf
      rw [admitted_append]
      rcases List.mem_append.mp hf with hf | hf
      · exact List.mem_append_left _ (h.known f hf hunit)
      · exact List.mem_append_right _ hf
    · rw [hout, hg]
      rw [admitted_append] at hmem
      rcases List.mem_append.mp hmem with hmem | hmem
      · exact h.begun c hmem
      · exact Nat.le_of_eq (hnew c hmem)
    · rw [hgrows]
      rw [admitted_append] at hmem
      rcases List.mem_append.mp hmem with hmem | hmem
      · rw [hout, hv] at hon
        rw [hout, hg] at hgen
        exact List.mem_append_left _ (h.kept (hw ▸ hrun) hon c hmem hconfig hgen)
      · exact List.mem_append_right _ hmem
  · have hadmitted : admitted (tr ++ (s.out.runTask t).2.2) = admitted tr := by
      rw [admitted_append, hnone, List.append_nil]
    refine ⟨fun f hf hunit => ?_, fun c hmem => ?_, fun hrun hon c hmem hconfig hgen => ?_⟩
    · rw [hadmitted]
      apply h.known f _ hunit
      rw [hline] at hf
      simp only [announced, List.mem_append] at hf ⊢
      rcases hf with hf | hf | hf
      · exact .inl hf
      · exact .inr (.inl hf)
      · exact .inr (.inr (hc hf))
    · rw [hadmitted] at hmem
      have := h.begun c hmem
      rw [hout]
      omega
    · -- no `VIDEO_CONFIG` of the new capture has been admitted yet, and a stopped one takes none
      rw [hadmitted] at hmem
      have := h.begun c hmem
      rw [hout] at hon hgen
      rcases hends with hg | ⟨-, hoff⟩
      · omega
      · rw [hoff] at hon
        cases hon

/-- The writer moves frames along; those it adds are access units. -/
theorem Announced.writer (h : Announced tr s) (hadmitted : admitted es = [])
    (hg : s'.out.generation = s.out.generation) (hv : s'.out.videoEnabled = s.out.videoEnabled)
    (hback : ∀ f ∈ announced (tr ++ es) s', f.isAccessUnit = false → f ∈ announced tr s)
    (hon : s'.writer ≠ .stopped → s.writer ≠ .stopped ∧ announced tr s ⊆ announced (tr ++ es) s') :
    Announced (tr ++ es) s' := by
  have hsame : admitted (tr ++ es) = admitted tr := by
    rw [admitted_append, hadmitted, List.append_nil]
  refine ⟨fun f hf hunit => ?_, fun c hmem => ?_, fun hrun hen c hmem hconfig hgen => ?_⟩
  · rw [hsame]
    exact h.known f (hback f hf hunit) hunit
  · rw [hg]
    exact h.begun c (hsame ▸ hmem)
  · obtain ⟨hw, hsub⟩ := hon hrun
    rw [hv] at hen
    rw [hg] at hgen
    exact hsub (h.kept hw hen c (hsame ▸ hmem) hconfig hgen)

/-- Two lines of the same frames. -/
theorem Announced.same (h : Announced tr s) (hadmitted : admitted es = [])
    (hg : s'.out.generation = s.out.generation) (hv : s'.out.videoEnabled = s.out.videoEnabled)
    (hline : announced (tr ++ es) s' = announced tr s) (hw : s.writer ≠ .stopped) :
    Announced (tr ++ es) s' := by
  refine h.writer hadmitted hg hv (fun f hf _ => hline ▸ hf) fun _ => ⟨hw, ?_⟩
  rw [hline]
  exact List.Subset.refl _

/-- So it holds in every run. -/
theorem announced_reaches (h : system.Under ok tr s) : Announced tr s := by
  refine h.invariant (P := fun tr s => Announced tr s) ?_ ?_
  · rintro s ⟨c, o, ho, rfl⟩
    unfold new at ho
    split at ho
    · obtain rfl := Option.some.inj ho
      exact ⟨fun f hf => absurd hf List.not_mem_nil, fun c hc => absurd hc List.not_mem_nil,
        fun _ _ c hc => absurd hc List.not_mem_nil⟩
    · cases ho
  · intro tr s l s' es hr _ ih hs
    have hordered := ordered hr
    cases moved_of_step hs with
    | start hw =>
      refine ih.same rfl rfl rfl ?_ (by simp [hw])
      simp [announced, hw, Writer.hand]
    | ui calls _ | spawn call _ =>
      rw [List.append_nil]
      exact ⟨ih.known, ih.begun, ih.kept⟩
    | task hruns => exact ih.task _ (resume_out ..) (resume_writer ..)
    | acquire hw _ =>
      refine ih.same rfl rfl rfl ?_ (by simp [hw])
      by_cases hrun : s.out.running = true
      · simp [announced, hw, hrun, Writer.hand]
      · simp [announced, hw, hrun, Writer.hand]
    | take f hw hd =>
      have hne : s.writer ≠ .stopped := by simp [hw]
      rcases dequeue_some hd with ⟨fs, hc, hd⟩ | ⟨fs, hc, hv, hd⟩
      · rw [hd]
        refine ih.same rfl rfl rfl ?_ hne
        simp [announced, hw, hc, Writer.hand]
      · rw [hd]
        -- what leaves the video queue is a unit, and announces nothing
        have hunit : f.isAccessUnit = true := (hordered.video f (hv ▸ List.mem_cons_self)).1
        refine ih.writer rfl rfl rfl (fun g hg hother => ?_) fun _ => ⟨hne, fun g hg => ?_⟩
        · rw [announced, hc] at hg
          simp only [announced, List.append_nil, List.mem_append] at hg ⊢
          rcases hg with hg | hg
          · exact .inl hg
          · obtain rfl : g = f := List.mem_singleton.mp hg
            rw [hunit] at hother
            cases hother
        · simp only [announced, hw, hc, Writer.hand, List.append_nil, List.mem_append] at hg ⊢
          exact .inl hg
    | idle hw _ =>
      refine ih.same rfl rfl rfl ?_ (by simp [hw])
      simp only [announced, loopTest_hand, hw, List.append_nil]
      rfl
    | write f hw =>
      refine ih.same rfl rfl rfl ?_ (by simp [hw])
      have hwrote : written [.wrote f] = [f] := rfl
      simp only [announced, loopTest_hand, hw, written_append, hwrote, Writer.hand_write,
        List.append_assoc, List.nil_append]
    | throws f hw =>
      refine ih.writer (by split <;> rfl) rfl rfl (fun g hg _ => ?_) fun hrun => absurd rfl hrun
      rw [announced, written_of_no_write (by split <;> simp)] at hg
      simp only [announced, Writer.hand, List.nil_append, List.mem_append] at hg ⊢
      exact hg.imp_right .inr

/-! ## The condition -/

/-- In a run that is configured whenever the writer takes a unit, the units in its hand and on the
wire come after their config. -/
theorem configFirst_hand (h : system.Under Configured tr s) :
    Each ConfigBefore (written tr ++ s.writer.hand) := by
  refine h.invariant (P := fun tr s => Each ConfigBefore (written tr ++ s.writer.hand)) ?_ ?_
  · rintro s ⟨c, o, ho, rfl⟩
    exact each_nil
  · intro tr s l s' es hr hok ih hs
    have hordered := ordered hr
    have hannounced := announced_reaches hr
    cases moved_of_step hs with
    | start hw =>
      rw [hw] at ih
      rwa [List.append_nil]
    | ui calls _ | spawn call _ => rwa [List.append_nil]
    | @task _ t ts hruns =>
      rw [resume_writer, written_of_no_write (effect s.out t).not_wrote]
      exact ih
    | acquire hw _ =>
      rw [hw] at ih
      rw [List.append_nil]
      by_cases hrun : s.out.running = true
      · simpa [hrun, Writer.hand] using ih
      · simpa [hrun, Writer.hand] using ih
    | take f hw hd =>
      rw [hw] at ih
      rw [List.append_nil]
      refine Each.append ih.of_append (each_cons.mpr ⟨fun hunit => ?_, each_nil⟩)
      rcases dequeue_some hd with ⟨fs, hc, -⟩ | ⟨fs, hc, hv, -⟩
      · have hcontrol := (hordered.control f (hc ▸ List.mem_cons_self)).1
        rw [hunit] at hcontrol
        cases hcontrol
      · -- the control queue is empty, so the admitted config is on the wire
        obtain ⟨-, hgen, hon⟩ := hordered.video f (hv ▸ List.mem_cons_self)
        obtain ⟨c, hadmitted, hconfig, hcapture⟩ := hok rfl hw hc (by rw [hv]; simp)
        have hplace := hannounced.kept (by simp [hw]) hon c hadmitted hconfig hcapture
        refine ⟨c, ?_, hconfig, hcapture.trans hgen.symm⟩
        simpa [announced, hw, hc, Writer.hand] using hplace
    | idle hw _ =>
      rw [hw] at ih
      rw [List.append_nil, loopTest_hand]
      exact ih
    | write f hw =>
      rw [hw] at ih
      rw [loopTest_hand, written_append, List.append_nil]
      exact ih
    | throws f hw =>
      rw [written_of_no_write (by split <;> simp)]
      show Each ConfigBefore (written tr ++ [])
      rw [List.append_nil]
      exact ih.of_append

/-- When the condition fails, the writer may go on to write a unit before its config. -/
theorem unconfigured_write (h : system.Reaches tr s) (hcond : ¬ Configured tr s .writerStep) :
    ∃ f s', system.exec s [.writerStep, .writerStep] = some (s', [.wrote f]) ∧
      ¬ ConfigFirst (tr ++ [Event.wrote f]) := by
  simp only [Configured, forall_const, Classical.not_imp] at hcond
  obtain ⟨hw, hc, hv, hnone⟩ := hcond
  obtain ⟨f, fs, hv⟩ := List.exists_cons_of_ne_nil hv
  obtain ⟨hunit, hgen, -⟩ := (ordered h).video f (hv ▸ List.mem_cons_self)
  have hd : s.out.dequeue = ({ s.out with videoQueue := fs }, some f) := by
    simp [dequeue, hc, hv]
  have htake : step s .writerStep =
      some ({ s with out := { s.out with videoQueue := fs }, writer := .write f }, []) := by
    simp [step, writerStep, hw, hd]
  refine ⟨f, { s with
    out := { s.out with videoQueue := fs }
    writer := loopTest { s.out with videoQueue := fs } }, ?_, fun hfirst => ?_⟩
  · simp only [EventSystem.exec, system, htake]
    rfl
  · have hwrote : written (tr ++ [Event.wrote f]) = written tr ++ f :: [] := by
      rw [written_append]
      rfl
    obtain ⟨c, hmem, hconfig, hcapture⟩ := hfirst _ _ _ hwrote hunit
    have hother : c.isAccessUnit = false := by
      simp only [Frame.isVideoConfig, Frame.isAccessUnit, beq_iff_eq] at hconfig ⊢
      rw [hconfig]
      rfl
    exact hnone ⟨c, (announced_reaches h).known c (List.mem_append_left _ hmem) hother, hconfig,
      hcapture.trans hgen⟩

/-- **`VIDEO_CONFIG` first.** In a run that is configured whenever the writer takes an access unit,
every unit on the wire follows a `VIDEO_CONFIG` of its capture; and wherever the condition fails,
the run can go on to break this. -/
theorem config_first (tr : List Event) (s : Threads) :
    (system.Under Configured tr s → ConfigFirst tr) ∧
    (system.Reaches tr s → ¬ Configured tr s .writerStep →
      ∃ f s', system.exec s [.writerStep, .writerStep] = some (s', [.wrote f]) ∧
        ¬ ConfigFirst (tr ++ [.wrote f])) :=
  ⟨fun h => (configFirst_hand h).of_append, unconfigured_write⟩

/-- The config is queued, and then a keyframe is offered. -/
def configuredCapture : List Label :=
  [Label.start, .ui [.beginCapture], .uiStep, .spawn (.sendVideoConfig 64 32 30 100000 1)] ++
    List.replicate 6 (Label.step 0) ++ [Label.spawn (.sendAccessUnit (keyframe 0) 1), .step 1] ++
    List.replicate 6 Label.writerStep

/-- The config sent before the units, and the run in which a unit is taken between the two
sections. -/
theorem config_first_configured :
    ConfigFirst (system.trace fresh configuredCapture) ∧
    ∃ f s', system.exec (system.final fresh betweenAcquireAndBlock) [.writerStep, .writerStep] =
        some (s', [.wrote f]) ∧
      ¬ ConfigFirst (system.trace fresh betweenAcquireAndBlock ++ [.wrote f]) := by
  refine ⟨?_, ?_⟩
  · refine (config_first _ (system.final fresh configuredCapture)).1 ?_
    exact EventSystem.under_trace (M := system) configuredCapture start_fresh (by decide +kernel)
      (by decide +kernel)
  · refine (config_first _ (system.final fresh betweenAcquireAndBlock)).2 ?_ (by decide +kernel)
    exact EventSystem.reaches_trace (M := system) betweenAcquireAndBlock start_fresh
      (by decide +kernel)

/-- The keyframe is written while `sendVideoConfig` has yet to queue its frame. -/
def overtaken : List Label :=
  betweenAcquireAndBlock ++ [Label.writerStep, .writerStep] ++ List.replicate 5 (Label.step 0) ++
    List.replicate 3 Label.writerStep

/-- That keyframe. -/
def overtakingFrame : Frame :=
  { header := { type := .videoAu, sequence := 1, flags := { keyframe := true } }
    payload := .raw [0], token := 1 }

/-- The config it overtakes. -/
def overtakenConfig : Frame :=
  { header := { type := .videoConfig, sequence := 2 }
    payload := .videoConfig ⟨64, 32, 30, 100000⟩, token := 1 }

/-- A unit taken between the acquire and the block is written before its VIDEO_CONFIG. -/
theorem unit_overtakes_config : ∃ tr s, system.Reaches tr s ∧ ¬ ConfigFirst tr := by
  refine ⟨system.trace fresh overtaken, _,
    EventSystem.reaches_trace overtaken start_fresh (by decide +kernel), fun h => ?_⟩
  have hline : written (system.trace fresh overtaken) =
      [] ++ overtakingFrame :: [overtakenConfig] := by
    decide +kernel
  obtain ⟨c, hc, -⟩ := h [] overtakingFrame [overtakenConfig] hline rfl
  cases hc

end FramedOutbound
end MobileWebcamBridge
