import MobileWebcamBridge.Phone.FramedOutbound.ConfigFirst

/-!
# Schedules on which the config is in time

`Configured` looks at what has been admitted when the writer takes a unit. `InTime` says it of the
schedule: no unit is taken between the two blocks of a `sendVideoConfig`, and no `VIDEO_CONFIG` of
the running capture is refused. `sendAccessUnit` queues nothing while no config is kept, so on such
a schedule a unit finds its config admitted.
-/

set_option autoImplicit false

namespace MobileWebcamBridge
namespace FramedOutbound

open Wire VideoWire

variable {tr es : List Event} {s s' : Threads} {i : Label} {o : FramedOutbound} {t : Task}
variable {ts : List Task} {g : ℕ}

/-! ## The condition -/

/-- A task that has yet to queue a `VIDEO_CONFIG` of the capture. -/
def Task.configures (g : ℕ) : Task → Bool
  | .number _ token | .guard _ token | .enqueue _ token => token == some g
  | _ => false

/-- A `sendVideoConfig` or a `forceRecovery` is between its two blocks. -/
def BetweenBlocks (s : Threads) : Prop :=
  ∃ p ∈ s.ui :: s.others, ∃ t ∈ p, t.configures s.out.generation = true

instance (s : Threads) : Decidable (BetweenBlocks s) := by unfold BetweenBlocks; infer_instance

/-- The task gives up a `VIDEO_CONFIG` of the running capture. -/
def Task.givesUp (o : FramedOutbound) : Task → Bool
  | .guard _ (some n) =>
    o.videoEnabled && n == o.generation && (!o.running || o.controlOverflowed)
  | .enqueue f (some n) =>
    o.videoEnabled && n == o.generation && (o.enqueueControl f (some n)).2 != .admitted
  | _ => false

/-- No unit is taken between the two blocks, and no config is given up. -/
def InTime (_ : List Event) (s : Threads) (i : Label) : Prop :=
  (i = .writerStep → s.writer = .take → s.out.controlQueue = [] → s.out.videoQueue ≠ [] →
    ¬ BetweenBlocks s) ∧
  (s.writer ≠ .stopped → (s.task? i).any (Task.givesUp s.out) = false)

/-! ## One task -/

/-- A unit is queued only while a config is kept. -/
def UnitsConfigured (o : FramedOutbound) : Prop :=
  o.videoQueue ≠ [] → o.latestVideoConfig ≠ none

/-- No section queues a unit without a config. -/
theorem UnitsConfigured.runTask (h : UnitsConfigured o) (t : Task) :
    UnitsConfigured (o.runTask t).1 := by
  have hempty (p : FramedOutbound) (hp : p.videoQueue = []) : UnitsConfigured p :=
    fun hne => absurd hp hne
  cases t with
  | beginCapture | stopVideo | clear => exact hempty _ rfl
  | fence key =>
    simp only [FramedOutbound.runTask, fenceOnce]
    split
    · exact h
    · exact hempty _ rfl
  | setCodecConfig config token =>
    simp only [FramedOutbound.runTask, FramedOutbound.setCodecConfig]
    split <;> exact h
  | keepVideoConfig config token =>
    simp only [FramedOutbound.runTask, FramedOutbound.keepVideoConfig]
    by_cases ha : o.accepts token = true
    · simp only [ha, if_true]
      exact fun _ => by simp
    · simp only [ha, Bool.false_eq_true, if_false]
      exact h
  | offerUnit unit token =>
    simp only [FramedOutbound.runTask]
    rcases offer_cases o unit token with hr | ⟨-, hr⟩
    · rw [hr]
      exact h
    · generalize o.offerUnit unit token = r at hr ⊢
      cases hr with
      | unconfigured | skipped => exact h
      | queued hc => exact fun _ => hc
      | replaced hc => exact fun _ => hc
      | overflowed => exact hempty _ rfl
  | recover =>
    simp only [FramedOutbound.runTask]
    rcases recover_cases o with hr | ⟨-, -, hr⟩ <;> simp only [hr]
    · exact h
    · cases o.latestVideoConfig <;> exact hempty _ rfl
  | enqueue f token =>
    simp only [FramedOutbound.runTask]
    rcases enqueueControl_cases o f token with hr | ⟨-, -, hr⟩ | ⟨-, -, -, hr⟩ <;>
      simp only [hr] <;>
      exact h
  | number | guard | release | overflow | needIdr | halt => exact h

/-- A config still kept after a task was kept before it, or is what the task keeps. -/
theorem kept_before (h : (o.runTask t).1.latestVideoConfig ≠ none) :
    (o.runTask t).1.generation = o.generation ∧
    (o.runTask t).1.videoEnabled = o.videoEnabled ∧
    (o.latestVideoConfig ≠ none ∨ (o.videoEnabled = true ∧
      ∃ u ∈ (o.runTask t).2.1, u.configures o.generation = true)) := by
  cases t with
  | beginCapture | stopVideo | clear => exact absurd rfl h
  | fence key =>
    simp only [runTask, fenceOnce] at h ⊢
    split at h
    · next hk => simp only [hk, if_true]; exact ⟨trivial, trivial, .inl h⟩
    · exact absurd rfl h
  | setCodecConfig config token =>
    simp only [runTask, setCodecConfig] at h ⊢
    split at h <;> split <;> exact ⟨rfl, rfl, .inl h⟩
  | keepVideoConfig config token =>
    by_cases ha : o.accepts token = true
    · obtain ⟨-, hv, rfl⟩ := accepts_iff.mp ha
      simp only [runTask, keepVideoConfig, ha, if_true]
      refine ⟨trivial, trivial, .inr ⟨hv, _, List.mem_cons_self, ?_⟩⟩
      simp [enqueueVideoConfig, Task.configures]
    · simp only [runTask, keepVideoConfig, ha, Bool.false_eq_true, if_false] at h ⊢
      exact ⟨trivial, trivial, .inl h⟩
  | offerUnit unit token =>
    simp only [runTask] at h ⊢
    rcases offer_cases o unit token with hr | ⟨-, hr⟩
    · rw [hr] at h ⊢
      exact ⟨rfl, rfl, .inl h⟩
    · generalize o.offerUnit unit token = r at hr h ⊢
      cases hr <;> exact ⟨rfl, rfl, .inl h⟩
  | recover =>
    simp only [runTask] at h ⊢
    rcases recover_cases o with hr | ⟨-, -, hr⟩ <;> simp only [hr] at h ⊢
    · exact ⟨trivial, trivial, .inl h⟩
    · cases hc : o.latestVideoConfig with
      | none => simp [hc] at h
      | some config => simp
  | enqueue f token =>
    simp only [runTask] at h ⊢
    rcases enqueueControl_cases o f token with hr | ⟨-, -, hr⟩ | ⟨-, -, -, hr⟩ <;>
      simp only [hr] at h ⊢ <;> exact ⟨trivial, trivial, .inl h⟩
  | number | guard | release | overflow | needIdr | halt => exact ⟨rfl, rfl, .inl h⟩

/-- What is about to queue a config of the running capture goes on with it, or has it admitted. -/
theorem goes_on (hc : t.configures o.generation = true) (hv : o.videoEnabled = true)
    (hkept : t.givesUp o = false) (ht : t.Sound tr) :
    (∃ u ∈ (o.runTask t).2.1, u.configures o.generation = true) ∨
    ∃ c ∈ admitted (o.runTask t).2.2, c.isVideoConfig = true ∧ c.token = o.generation := by
  cases t with
  | number f token =>
    obtain rfl : token = some o.generation := by simpa [Task.configures] using hc
    exact .inl ⟨_, List.mem_cons_self, hc⟩
  | guard f token =>
    obtain rfl : token = some o.generation := by simpa [Task.configures] using hc
    have hpass : (!o.running || o.controlOverflowed) = false := by
      simpa [Task.givesUp, hv] using hkept
    simp only [runTask, hpass, Bool.false_eq_true, if_false]
    exact .inl ⟨_, List.mem_singleton.mpr rfl, hc⟩
  | enqueue f token =>
    obtain rfl : token = some o.generation := by simpa [Task.configures] using hc
    have hadmitted : (o.enqueueControl f (some o.generation)).2 = .admitted := by
      simpa [Task.givesUp, hv] using hkept
    rcases enqueueControl_cases o f (some o.generation) with hr | ⟨-, -, hr⟩ | ⟨-, -, -, hr⟩
    · rw [hr] at hadmitted
      cases hadmitted
    · rw [hr] at hadmitted
      cases hadmitted
    · refine .inr ⟨o.stamped f (some o.generation), ?_, ht.2.1, rfl⟩
      simp [runTask, hr, admitted, Event.admitted?]
  | _ => cases hc

/-! ## The programs -/

theorem mem_programs (ht : Runs s i t ts) (o : FramedOutbound) (program : List Task) :
    program ∈ (resume s o program i).ui :: (resume s o program i).others := by
  cases ht with
  | ui => exact List.mem_cons_self
  | other hj =>
    refine List.mem_cons_of_mem _ (List.mem_set ?_ _)
    exact (List.getElem?_eq_some_iff.mp hj).1

theorem program_stays (ht : Runs s i t ts) (o : FramedOutbound) (program : List Task)
    {p : List Task} (hp : p ∈ s.ui :: s.others) :
    p = t :: ts ∨ p ∈ (resume s o program i).ui :: (resume s o program i).others := by
  cases ht with
  | ui hu =>
    rcases List.mem_cons.mp hp with rfl | hp
    · exact .inl hu
    · exact .inr (List.mem_cons_of_mem _ hp)
  | @other j _ _ hj =>
    rcases List.mem_cons.mp hp with rfl | hp
    · exact .inr List.mem_cons_self
    · obtain ⟨k, hk⟩ := List.mem_iff_getElem?.mp hp
      by_cases hjk : j = k
      · subst hjk
        exact .inl (Option.some.inj (hk.symm.trans hj))
      · refine .inr (List.mem_cons_of_mem _ (List.mem_of_getElem? (i := k) ?_))
        exact (List.getElem?_set_ne hjk).trans hk

/-- Another thread, or the rest of this one, is still between the blocks. -/
theorem BetweenBlocks.runs (h : BetweenBlocks s) (ht : Runs s i t ts) (more : List Task)
    (hg : o.generation = s.out.generation) :
    t.configures s.out.generation = true ∨ BetweenBlocks (resume s o (more ++ ts) i) := by
  obtain ⟨p, hp, u, hu, hc⟩ := h
  rcases program_stays ht o (more ++ ts) hp with rfl | hp
  · rcases List.mem_cons.mp hu with rfl | hu
    · exact .inl hc
    · refine .inr ⟨_, mem_programs ht o _, u, List.mem_append_right _ hu, ?_⟩
      rw [resume_out, hg]
      exact hc
  · refine .inr ⟨p, hp, u, hu, ?_⟩
    rw [resume_out, hg]
    exact hc

/-! ## Every run -/

/-- A kept config is of the running capture, and is admitted or about to be. -/
structure ConfigKnown (tr : List Event) (s : Threads) : Prop where
  units : UnitsConfigured s.out
  enabled : s.out.latestVideoConfig ≠ none → s.out.videoEnabled = true
  config : s.writer ≠ .stopped → s.out.latestVideoConfig ≠ none →
    BetweenBlocks s ∨ ∃ c ∈ admitted tr, c.isVideoConfig = true ∧ c.token = s.out.generation

/-- A step that leaves the programs and the capture alone. -/
theorem ConfigKnown.same (h : ConfigKnown tr s) (hunits : UnitsConfigured s'.out)
    (hg : s'.out.generation = s.out.generation) (hv : s'.out.videoEnabled = s.out.videoEnabled)
    (hc : s'.out.latestVideoConfig = s.out.latestVideoConfig)
    (hw : s'.writer ≠ .stopped → s.writer ≠ .stopped)
    (hp : s.ui :: s.others ⊆ s'.ui :: s'.others) : ConfigKnown (tr ++ es) s' := by
  refine ⟨hunits, fun hkept => ?_, fun hrun hkept => ?_⟩
  · rw [hv]
    exact h.enabled (hc ▸ hkept)
  · rcases h.config (hw hrun) (hc ▸ hkept) with ⟨p, hmem, t, ht, hconf⟩ | ⟨c, hmem, hconf, htok⟩
    · exact .inl ⟨p, hp hmem, t, ht, by rw [hg]; exact hconf⟩
    · refine .inr ⟨c, ?_, hconf, by rw [hg]; exact htok⟩
      rw [admitted_append]
      exact List.mem_append_left _ hmem

/-- A section keeps that the config is known. -/
theorem ConfigKnown.task (h : ConfigKnown tr s) (ht : Runs s i t ts) (hsound : t.Sound tr)
    (hkept : s.writer ≠ .stopped → t.givesUp s.out = false) :
    ConfigKnown (tr ++ (s.out.runTask t).2.2)
      (resume s (s.out.runTask t).1 ((s.out.runTask t).2.1 ++ ts) i) := by
  refine ⟨?_, fun hlatest => ?_, fun hrun hlatest => ?_⟩
  · rw [resume_out]
    exact h.units.runTask t
  · rw [resume_out] at hlatest ⊢
    obtain ⟨-, hv, hbefore⟩ := kept_before hlatest
    rw [hv]
    rcases hbefore with hbefore | ⟨henabled, -⟩
    · exact h.enabled hbefore
    · exact henabled
  · rw [resume_writer] at hrun
    rw [resume_out] at hlatest
    obtain ⟨hg, -, hbefore⟩ := kept_before hlatest
    have hmore (u : Task) (hu : u ∈ (s.out.runTask t).2.1)
        (hc : u.configures s.out.generation = true) :
        BetweenBlocks (resume s (s.out.runTask t).1 ((s.out.runTask t).2.1 ++ ts) i) := by
      refine ⟨_, mem_programs ht _ _, u, List.mem_append_left _ hu, ?_⟩
      rw [resume_out, hg]
      exact hc
    rw [resume_out, hg, admitted_append]
    rcases hbefore with hbefore | ⟨-, u, hu, hc⟩
    swap
    · exact .inl (hmore u hu hc)
    rcases h.config hrun hbefore with hbetween | ⟨c, hmem, hconf, htok⟩
    · rcases hbetween.runs ht (s.out.runTask t).2.1 hg with hc | hbetween
      · rcases goes_on hc (h.enabled hbefore) (hkept hrun) hsound with ⟨u, hu, hc⟩ | ⟨c, hmem, hc⟩
        · exact .inl (hmore u hu hc)
        · exact .inr ⟨c, List.mem_append_right _ hmem, hc⟩
      · exact .inl hbetween
    · exact .inr ⟨c, List.mem_append_left _ hmem, hconf, htok⟩

/-- In time, the config of every unit ahead is known. -/
theorem config_known (h : system.Under InTime tr s) : ConfigKnown tr s := by
  refine h.invariant ?_ ?_
  · rintro s ⟨c, o, ho, rfl⟩
    unfold new at ho
    split at ho
    · obtain rfl := Option.some.inj ho
      exact ⟨fun hne => absurd rfl hne, fun hne => absurd rfl hne, fun _ hne => absurd rfl hne⟩
    · cases ho
  · intro tr s i s' es hr hok ih hs
    cases moved_of_step hs with
    | start hw => exact ih.same ih.units rfl rfl rfl (by simp [hw]) (List.Subset.refl _)
    | ui calls hu =>
      refine ⟨ih.units, ih.enabled, fun hrun hkept => ?_⟩
      rw [List.append_nil]
      rcases ih.config hrun hkept with ⟨p, hp, t, ht, hc⟩ | hadmitted
      · rw [hu] at hp
        rcases List.mem_cons.mp hp with rfl | hp
        · cases ht
        · exact .inl ⟨p, List.mem_cons_of_mem _ hp, t, ht, hc⟩
      · exact .inr hadmitted
    | spawn call _ =>
      refine ih.same ih.units rfl rfl rfl id fun p hp => ?_
      rcases List.mem_cons.mp hp with rfl | hp
      · exact List.mem_cons_self
      · exact List.mem_cons_of_mem _ (List.mem_append_left _ hp)
    | task ht =>
      refine ih.task ht (sound_of_runs hr ht) fun hrun => ?_
      simpa [task?_of_runs ht] using hok.2 hrun
    | acquire hw _ =>
      exact ih.same ih.units rfl rfl rfl (by simp [hw]) (List.Subset.refl _)
    | take f hw hd =>
      rcases dequeue_some hd with ⟨fs, hc, hd⟩ | ⟨fs, hc, hv, hd⟩ <;> rw [hd]
      · exact ih.same ih.units rfl rfl rfl (by simp [hw]) (List.Subset.refl _)
      · exact ih.same (fun _ => ih.units (by simp [hv])) rfl rfl rfl (by simp [hw])
          (List.Subset.refl _)
    | idle hw _ => exact ih.same ih.units rfl rfl rfl (by simp [hw]) (List.Subset.refl _)
    | write f hw => exact ih.same ih.units rfl rfl rfl (by simp [hw]) (List.Subset.refl _)
    | throws f hw =>
      exact ih.same ih.units rfl rfl rfl (fun hne => absurd rfl hne) (List.Subset.refl _)

/-- **A config that is in time comes first.** When no unit is taken between the two blocks of a
`sendVideoConfig` and no `VIDEO_CONFIG` of the running capture is refused, every unit on the wire
follows a `VIDEO_CONFIG` of its capture. -/
theorem configFirst_inTime (h : system.Under InTime tr s) : ConfigFirst tr := by
  have hconfigured : system.Under Configured tr s := by
    refine h.exchange fun tr s i hr hok hi hw hc hv => ?_
    have hknown := config_known hr
    rcases hknown.config (by simp [hw]) (hknown.units hv) with hbetween | hadmitted
    · exact absurd hbetween (hok.1 hi hw hc hv)
    · exact hadmitted
  exact (configFirst_hand hconfigured).of_append

instance (tr : List Event) (s : Threads) (i : Label) : Decidable (InTime tr s i) := by
  unfold InTime
  infer_instance

example : ConfigFirst (system.trace fresh configuredCapture) :=
  configFirst_inTime (s := system.final fresh configuredCapture)
    (EventSystem.under_trace (M := system) configuredCapture start_fresh (by decide +kernel)
      (by decide +kernel))

end FramedOutbound
end MobileWebcamBridge
