import MobileWebcamBridge.Phone.FramedOutbound.Fence

/-!
# Which capture a `VIDEO_CONFIG` is of

`sendVideoConfig` keeps a config in one block and queues its frame in a later one, and
`forceRecovery` queues whatever config is kept by then, under the generation current then. Since
a new capture forgets the kept config, the config of every `VIDEO_CONFIG` frame was kept under the
token the frame was queued with.
-/

set_option autoImplicit false

namespace MobileWebcamBridge
namespace FramedOutbound

open Wire VideoWire

variable {ok : List Event → Threads → Label → Prop} {tr es : List Event} {s : Threads}
variable {o : FramedOutbound} {t : Task}

/-- The frame carries a config kept under the token. -/
def Frame.Keeps (tr : List Event) (f : Frame) (token : ℕ) : Prop :=
  ∃ config, f.payload = .videoConfig config ∧ .configKept token config ∈ tr

/-- A frame on its way into the control queue with a token. -/
def Task.Keeps (tr : List Event) : Task → Prop
  | .number f (some n) | .guard f (some n) | .enqueue f (some n) => f.Keeps tr n
  | _ => True

/-- The config kept is of the current capture. -/
def KeptNow (tr : List Event) (o : FramedOutbound) : Prop :=
  ∀ config, o.latestVideoConfig = some config → .configKept o.generation config ∈ tr

/-- The frames written, held or in the control queue. -/
def announced (tr : List Event) (s : Threads) : List Frame :=
  written tr ++ (s.writer.hand ++ s.out.controlQueue)

/-- Every config on its way was presented with the token it goes by. -/
structure KeptConfigs (tr : List Event) (s : Threads) : Prop where
  latest : KeptNow tr s.out
  ui : ∀ t ∈ s.ui, t.Keeps tr
  others : ∀ p ∈ s.others, ∀ t ∈ p, t.Keeps tr
  frames : ∀ f ∈ announced tr s, f.isVideoConfig = true → f.Keeps tr f.token

theorem Frame.Keeps.append {f : Frame} {n : ℕ} (h : f.Keeps tr n) (es : List Event) :
    f.Keeps (tr ++ es) n := by
  obtain ⟨config, hp, hmem⟩ := h
  exact ⟨config, hp, List.mem_append_left _ hmem⟩

theorem Task.Keeps.append (h : t.Keeps tr) (es : List Event) : t.Keeps (tr ++ es) := by
  cases t with
  | number f token | guard f token | enqueue f token =>
    cases token with
    | none => trivial
    | some n => exact Frame.Keeps.append h es
  | _ => trivial

/-- A call enters with no frame that carries a token. -/
theorem keeps_call (call : Call) (tr : List Event) : ∀ t ∈ call.tasks, t.Keeps tr := by
  cases call with
  | sendQualityResult r | sendAuthorization type p | sendVideoConfig w h f b token
  | sendAccessUnit unit token =>
    simp only [Call.tasks, sendControl]
    split <;> simp [Task.Keeps]
  | _ => simp [Call.tasks, sendControl, Task.Keeps]

/-! ## One task -/

theorem KeptNow.same {p : FramedOutbound} (h : KeptNow tr o) (hg : p.generation = o.generation)
    (hc : p.latestVideoConfig = o.latestVideoConfig) : KeptNow (tr ++ es) p := by
  intro config hconfig
  rw [hg]
  exact List.mem_append_left _ (h config (hc ▸ hconfig))

/-- A new capture and a fence forget the config; `sendVideoConfig` keeps one of its own capture. -/
theorem KeptNow.runTask (h : KeptNow tr o) (t : Task) :
    KeptNow (tr ++ (o.runTask t).2.2) (o.runTask t).1 := by
  have hforgets (p : FramedOutbound) (es : List Event) (hp : p.latestVideoConfig = none) :
      KeptNow (tr ++ es) p := by
    intro config hconfig
    rw [hp] at hconfig
    cases hconfig
  cases t with
  | beginCapture | stopVideo | clear => exact hforgets _ _ rfl
  | fence key =>
    simp only [FramedOutbound.runTask, fenceOnce]
    split
    · exact h.same rfl rfl
    · exact hforgets _ _ rfl
  | setCodecConfig config token =>
    simp only [FramedOutbound.runTask, FramedOutbound.setCodecConfig]
    split <;> exact h.same rfl rfl
  | keepVideoConfig config token =>
    simp only [FramedOutbound.runTask, FramedOutbound.keepVideoConfig]
    by_cases ha : o.accepts token = true
    · obtain ⟨-, -, rfl⟩ := accepts_iff.mp ha
      simp only [ha, if_true]
      intro kept hkept
      obtain rfl : config = kept := Option.some.inj hkept
      simp
    · simp only [ha, Bool.false_eq_true, if_false]
      exact h.same rfl rfl
  | offerUnit unit token =>
    simp only [FramedOutbound.runTask]
    rcases offer_cases o unit token with hr | ⟨-, hr⟩
    · rw [hr]
      exact h.same rfl rfl
    · generalize o.offerUnit unit token = r at hr ⊢
      cases hr <;> exact h.same rfl rfl
  | recover =>
    simp only [FramedOutbound.runTask]
    rcases recover_cases o with hr | ⟨-, -, hr⟩ <;> simp only [hr]
    · exact h.same rfl rfl
    · cases hc : o.latestVideoConfig <;> exact h.same rfl hc.symm
  | enqueue f token =>
    simp only [FramedOutbound.runTask]
    rcases enqueueControl_cases o f token with hr | ⟨-, -, hr⟩ | ⟨-, -, -, hr⟩ <;>
      simp only [hr] <;>
      exact h.same rfl rfl
  | number | guard | release | overflow | needIdr | halt => exact h.same rfl rfl

/-- What a task leaves to do carries a config kept under its token. -/
theorem keeps_more (h : KeptNow tr o) (ht : t.Keeps tr) :
    ∀ u ∈ (o.runTask t).2.1, u.Keeps (tr ++ (o.runTask t).2.2) := by
  cases t with
  | keepVideoConfig config token =>
    simp only [runTask, keepVideoConfig]
    by_cases ha : o.accepts token = true
    · simp [ha, enqueueVideoConfig, Task.Keeps, Frame.Keeps, controlFrame]
    · simp [ha]
  | recover =>
    simp only [runTask]
    rcases recover_cases o with hr | ⟨-, -, hr⟩ <;> simp only [hr]
    · simp
    · cases hc : o.latestVideoConfig with
      | none => simp [Task.Keeps]
      | some config =>
        have := h config hc
        simp [enqueueVideoConfig, Task.Keeps, Frame.Keeps, controlFrame, this]
  | offerUnit unit token =>
    simp only [runTask]
    split <;> simp [Task.Keeps]
  | number f token =>
    cases token with
    | none => simp [runTask, Task.Keeps]
    | some n =>
      obtain ⟨config, hp, hmem⟩ := ht
      simp [runTask, Task.Keeps, Frame.Keeps, hp, hmem]
  | guard f token =>
    intro u hu
    simp only [runTask] at hu ⊢
    split at hu
    · cases hu
    · rw [List.mem_singleton.mp hu, List.append_nil]
      cases token <;> exact ht
  | enqueue f token =>
    simp only [runTask]
    split <;> simp [Task.Keeps]
  | beginCapture | stopVideo | fence | setCodecConfig | release | overflow | needIdr | halt
  | clear => simp [runTask]

/-- A `VIDEO_CONFIG` in the control queue was there before, or its token is the current one. -/
theorem keeps_queue (ht : t.Sound tr) (hk : t.Keeps tr)
    (h : ∀ f ∈ o.controlQueue, f.isVideoConfig = true → f.Keeps tr f.token) :
    ∀ f ∈ (o.runTask t).1.controlQueue, f.isVideoConfig = true → f.Keeps tr f.token := by
  intro f hf hconfig
  rcases control_of_task o t with ⟨keep, -, hq⟩ | ⟨g, token, rfl, ⟨-, ha⟩, hq⟩ | ⟨-, hq⟩
  · rw [hq] at hf
    exact h f (List.mem_filter.mp hf).1 hconfig
  · rw [hq] at hf
    rcases List.mem_append.mp hf with hf | hf
    · exact h f hf hconfig
    · obtain rfl := List.mem_singleton.mp hf
      have hsome : token.isSome = true := ht.2.1.symm.trans hconfig
      obtain ⟨n, rfl⟩ := Option.isSome_iff_exists.mp hsome
      obtain ⟨-, -, rfl⟩ := accepts_iff.mp (ha n rfl)
      exact hk
  · rw [hq] at hf
    cases hf

/-! ## Every run -/

/-- The writer thread moves frames along; those it adds are access units. -/
theorem KeptConfigs.writer {s' : Threads} (h : KeptConfigs tr s)
    (hout : s'.out.generation = s.out.generation ∧
      s'.out.latestVideoConfig = s.out.latestVideoConfig)
    (hui : s'.ui = s.ui) (hothers : s'.others = s.others)
    (hback : ∀ f ∈ announced (tr ++ es) s', f.isVideoConfig = true → f ∈ announced tr s) :
    KeptConfigs (tr ++ es) s' := by
  refine ⟨h.latest.same hout.1 hout.2, ?_, ?_, fun f hf hc => ?_⟩
  · rw [hui]
    exact fun t ht => (h.ui t ht).append es
  · rw [hothers]
    exact fun p hp t ht => (h.others p hp t ht).append es
  · exact (h.frames f (hback f hf hc) hc).append es

/-- A section of a program keeps the configs. -/
theorem KeptConfigs.task {s' : Threads} (h : KeptConfigs tr s) {i : Label} {ts : List Task}
    (hr : system.Under ok tr s) (ht : Runs s i t ts)
    (hs' : s' = resume s (s.out.runTask t).1 ((s.out.runTask t).2.1 ++ ts) i) :
    KeptConfigs (tr ++ (s.out.runTask t).2.2) s' := by
  have hwritten : written (tr ++ (s.out.runTask t).2.2) = written tr :=
    written_of_no_write (effect s.out t).not_wrote
  have hkeeps : ∀ u ∈ t :: ts, u.Keeps tr := by
    cases ht with
    | ui hu => exact fun u hmem => h.ui u (hu ▸ hmem)
    | other hj => exact h.others _ (List.mem_of_getElem? hj)
  have ht' : t.Keeps tr := hkeeps t List.mem_cons_self
  have hprogram : ∀ u ∈ (s.out.runTask t).2.1 ++ ts, u.Keeps (tr ++ (s.out.runTask t).2.2) := by
    intro u hu
    rcases List.mem_append.mp hu with hu | hu
    · exact keeps_more h.latest ht' u hu
    · exact (hkeeps u (List.mem_cons_of_mem _ hu)).append _
  have hold : ∀ p ∈ s.others, ∀ u ∈ p, u.Keeps (tr ++ (s.out.runTask t).2.2) :=
    fun p hp u hu => (h.others p hp u hu).append _
  subst hs'
  refine ⟨?_, ?_, ?_, fun f hf hc => ?_⟩
  · rw [resume_out]
    exact h.latest.runTask t
  · cases ht with
    | ui => exact hprogram
    | other => exact fun u hu => (h.ui u hu).append _
  · cases ht with
    | ui => exact hold
    | other hj =>
      intro p hp
      rcases List.mem_or_eq_of_mem_set hp with hp | rfl
      · exact hold p hp
      · exact hprogram
  · rw [announced, hwritten, resume_writer, resume_out, ← List.append_assoc] at hf
    rcases List.mem_append.mp hf with hf | hf
    · refine (h.frames f ?_ hc).append _
      rw [announced, ← List.append_assoc]
      exact List.mem_append_left _ hf
    · have hqueue : ∀ g ∈ s.out.controlQueue, g.isVideoConfig = true → g.Keeps tr g.token :=
        fun g hg => h.frames g (List.mem_append_right _ (List.mem_append_right _ hg))
      exact (keeps_queue (sound_of_runs hr ht) ht' hqueue f hf hc).append _

/-- **Every `VIDEO_CONFIG` carries a config of its own capture.** -/
theorem kept_configs (h : system.Under ok tr s) : KeptConfigs tr s := by
  refine h.invariant ?_ ?_
  · rintro s ⟨c, o, ho, rfl⟩
    unfold new at ho
    split at ho
    · obtain rfl := Option.some.inj ho
      exact ⟨by simp [KeptNow, idle], by simp [idle], by simp [idle],
        fun f hf => absurd hf List.not_mem_nil⟩
    · cases ho
  · intro tr s i s' es hr _ ih hs
    cases moved_of_step hs with
    | start hw =>
      refine ih.writer ⟨rfl, rfl⟩ rfl rfl fun f hf _ => ?_
      simpa [announced, hw, Writer.hand] using hf
    | ui calls _ =>
      refine ⟨ih.latest.same rfl rfl, fun t ht => ?_, ?_, ?_⟩
      · obtain ⟨call, -, ht⟩ := List.mem_flatMap.mp ht
        exact keeps_call call _ t ht
      · rw [List.append_nil]
        exact ih.others
      · rw [List.append_nil]
        exact ih.frames
    | spawn call _ =>
      rw [List.append_nil]
      refine ⟨ih.latest, ih.ui, fun p hp => ?_, ih.frames⟩
      rcases List.mem_append.mp hp with hp | hp
      · exact ih.others p hp
      · rw [List.mem_singleton.mp hp]
        exact keeps_call call tr
    | task ht => exact ih.task hr ht rfl
    | acquire hw _ =>
      refine ih.writer ⟨rfl, rfl⟩ rfl rfl fun f hf _ => ?_
      by_cases hrun : s.out.running = true
      · simpa [announced, hw, hrun, Writer.hand] using hf
      · simpa [announced, hw, hrun, Writer.hand] using hf
    | take f hw hd =>
      rcases dequeue_some hd with ⟨fs, hc, hd⟩ | ⟨fs, hc, hv, hd⟩ <;> rw [hd]
      · refine ih.writer ⟨rfl, rfl⟩ rfl rfl fun g hg _ => ?_
        simpa [announced, hw, hc, Writer.hand] using hg
      -- a frame of the video queue is a unit, so it carries no config
      · have hunit : f.isVideoConfig = false := by
          have := ((ordered hr).video f (hv ▸ List.mem_cons_self)).1
          simp only [Frame.isAccessUnit, beq_iff_eq] at this
          simp [Frame.isVideoConfig, this]
        refine ih.writer ⟨rfl, rfl⟩ rfl rfl fun g hg hconfig => ?_
        simp only [announced, hc, Writer.hand, List.append_nil, List.mem_append,
          List.mem_singleton] at hg ⊢
        rcases hg with hg | rfl
        · exact .inl hg
        · rw [hunit] at hconfig
          cases hconfig
    | idle hw _ =>
      refine ih.writer ⟨rfl, rfl⟩ rfl rfl fun f hf _ => ?_
      simp only [announced, loopTest_hand, hw, List.append_nil] at hf ⊢
      exact hf
    | write f hw =>
      refine ih.writer ⟨rfl, rfl⟩ rfl rfl fun g hg _ => ?_
      have hwrote : written [.wrote f] = [f] := rfl
      simpa [announced, loopTest_hand, hw, written_append, hwrote] using hg
    | throws f hw =>
      refine ih.writer ⟨rfl, rfl⟩ rfl rfl fun g hg _ => ?_
      rw [announced, written_of_no_write (by split <;> simp)] at hg
      simp only [announced, Writer.hand, List.nil_append, List.mem_append] at hg ⊢
      exact hg.imp_right .inr

end FramedOutbound
end MobileWebcamBridge
