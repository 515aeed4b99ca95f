import MobileWebcamBridge.Phone.FramedOutbound.Kept
import MobileWebcamBridge.Phone.FramedOutbound.Units

/-!
# Replaying a reply

A duplicate request replays the reply to it. `Replaying k` is what holds while the UI thread is
inside a call that replays the latest reply, whatever the other threads do in between; a step of
the call then touches neither the video queue nor the capture token.
-/

set_option autoImplicit false

namespace MobileWebcamBridge
namespace FramedOutbound

open Wire VideoWire Trace

variable {tr es : List Event} {s s' : Threads} {o : FramedOutbound} {t : Task} {i : Label}
variable {k : FrameType × ℕ}

/-- The key a call fences under. -/
def Call.replyKey : Call → Option (FrameType × ℕ)
  | .pauseQuality e => some (.paused, e.requestId)
  | .sendQualityResult r => if r.status = .staged then some (.qualityResult, r.requestId) else none
  | _ => none

/-- The tasks of a call that replies under the key. -/
def Task.replies (k : FrameType × ℕ) : Task → Prop
  | .fence k' => k' = k
  | .number .. | .guard .. | .enqueue .. | .release | .overflow => True
  | _ => False

/-- The UI thread replays the reply that was fenced last. -/
structure Replaying (k : FrameType × ℕ) (s : Threads) : Prop where
  lastFence : s.out.lastFence = some k
  ui : ∀ t ∈ s.ui, t.replies k
  others : ∀ p ∈ s.others, ∀ t ∈ p, t.uiOnly = false

theorem replies_tasks {call : Call} (h : call.replyKey = some k) :
    ∀ t ∈ call.tasks, t.replies k := by
  cases call with
  | pauseQuality e =>
    simp only [Call.replyKey, Option.some.injEq] at h
    simp [Call.tasks, sendControl, Task.replies, h]
  | sendQualityResult r =>
    simp only [Call.replyKey] at h
    split at h
    · next hs =>
      simp only [Option.some.injEq] at h
      simp [Call.tasks, sendControl, Task.replies, hs, h]
    · cases h
  | _ => cases h

theorem replies_more (o : FramedOutbound) (h : t.replies k) :
    ∀ u ∈ (o.runTask t).2.1, u.replies k := by
  cases t with
  | fence | number | release | overflow => simp [runTask, Task.replies]
  | guard f n =>
    simp only [runTask]
    split <;> simp [Task.replies]
  | enqueue f n =>
    simp only [runTask]
    split <;> simp [Task.replies]
  | _ => cases h

/-- Only the UI thread fences. -/
theorem lastFence_runTask (h : t.uiOnly = false ∨ (t.replies k ∧ o.lastFence = some k)) :
    (o.runTask t).1.lastFence = o.lastFence := by
  cases t with
  | fence k' =>
    rcases h with h | ⟨h, hl⟩
    · cases h
    · have hk : k' = k := h
      simp [runTask, fenceOnce, hl, hk]
  | beginCapture =>
    rcases h with h | h
    · cases h
    · exact h.1.elim
  | setCodecConfig c n =>
    simp only [runTask, setCodecConfig]
    split <;> rfl
  | keepVideoConfig c n =>
    simp only [runTask, keepVideoConfig]
    by_cases ha : o.accepts n = true <;> simp only [ha] <;> rfl
  | offerUnit u n =>
    simp only [runTask]
    rcases offer_cases o u n with hr | ⟨-, hr⟩
    · rw [hr]
    · generalize o.offerUnit u n = r at hr ⊢
      cases hr <;> rfl
  | recover =>
    simp only [runTask]
    rcases recover_cases o with hc | ⟨-, -, hc⟩ <;> simp only [hc]
    cases o.latestVideoConfig <;> rfl
  | enqueue f n =>
    simp only [runTask]
    rcases enqueueControl_cases o f n with hr | ⟨-, -, hr⟩ | ⟨-, -, -, hr⟩ <;> simp only [hr]
  | stopVideo | number | guard | release | overflow | needIdr | halt | clear => rfl

/-- While the reply is replayed a step leaves the UI's program to it. -/
theorem Replaying.step (h : Replaying k s) (hi : ∀ calls, i ≠ .ui calls)
    (hs : step s i = some (s', es)) : Replaying k s' := by
  cases moved_of_step hs with
  | start | acquire | idle | write | throws => exact ⟨h.lastFence, h.ui, h.others⟩
  | ui calls => exact absurd rfl (hi calls)
  | spawn call hc =>
    refine ⟨h.lastFence, h.ui, fun p hp => ?_⟩
    rcases List.mem_append.mp hp with hp | hp
    · exact h.others p hp
    · rw [List.mem_singleton.mp hp]
      exact call_not_uiOnly hc
  | take f hw hd =>
    refine ⟨?_, h.ui, h.others⟩
    rcases dequeue_some hd with ⟨_, _, hd⟩ | ⟨_, _, _, hd⟩ <;> (rw [hd]; exact h.lastFence)
  | @task _ t ts ht =>
    cases ht with
    | ui hu =>
      have ht := h.ui
      rw [hu] at ht
      refine ⟨?_, fun u hu => ?_, h.others⟩
      · exact (lastFence_runTask (.inr ⟨ht _ List.mem_cons_self, h.lastFence⟩)).trans h.lastFence
      · rcases List.mem_append.mp hu with hu | hu
        · exact replies_more _ (ht _ List.mem_cons_self) u hu
        · exact ht u (List.mem_cons_of_mem _ hu)
    | other hj =>
      have ho := h.others _ (List.mem_of_getElem? hj)
      refine ⟨?_, h.ui, fun p hp => ?_⟩
      · exact (lastFence_runTask (k := k) (.inl (ho _ List.mem_cons_self))).trans h.lastFence
      · rcases List.mem_or_eq_of_mem_set hp with hp | rfl
        · exact h.others p hp
        · intro u hu
          rcases List.mem_append.mp hu with hu | hu
          · exact more_not_uiOnly _ _ u hu
          · exact ho u (List.mem_cons_of_mem _ hu)

/-- And so does a run without a call of the UI. -/
theorem Replaying.exec {schedule : List Label} (h : Replaying k s)
    (hi : ∀ calls, .ui calls ∉ schedule) (he : system.exec s schedule = some (s', es)) :
    Replaying k s' := by
  refine EventSystem.exec_preserves (M := system) (fun s i s' es hmem h hs => ?_) h he
  exact h.step (fun calls hc => hi calls (hc ▸ hmem)) hs

/-- The step drops nothing from the queues and keeps every token as it was. -/
def Spares (o o' : FramedOutbound) (es : List Event) : Prop :=
  o'.videoQueue = o.videoQueue ∧ o.controlQueue <+: o'.controlQueue ∧
    (∀ token, o'.accepts token = o.accepts token) ∧ ∀ g n l, .lost g n l ∉ es

theorem spares_runTask (h : t.replies k) (hl : o.lastFence = some k) :
    Spares o (o.runTask t).1 (o.runTask t).2.2 := by
  cases t with
  | fence k' =>
    have hk : k' = k := h
    simp [Spares, runTask, fenceOnce, hl, hk]
  | number | guard | release => exact ⟨rfl, List.prefix_refl _, fun _ => rfl, by simp [runTask]⟩
  | overflow =>
    refine ⟨rfl, List.prefix_refl _, fun _ => rfl, ?_⟩
    simp only [runTask]
    split <;> simp
  | enqueue f n =>
    simp only [runTask]
    rcases enqueueControl_cases o f n with hr | ⟨-, -, hr⟩ | ⟨-, -, -, hr⟩ <;> simp only [hr]
    · exact ⟨rfl, List.prefix_refl _, fun _ => rfl, by simp⟩
    · exact ⟨rfl, List.prefix_refl _, fun _ => rfl, by simp⟩
    · exact ⟨rfl, List.prefix_append _ _, fun _ => rfl, by simp⟩
  | _ => cases h

/-- Inside a call that replays the latest reply, the UI thread drops nothing and
refuses no token. -/
theorem replay_spares (hr : system.Reaches tr s) (hk : lastFenced tr = some k) {call : Call}
    (hc : call.replyKey = some k) {schedule : List Label} (hi : ∀ calls, .ui calls ∉ schedule)
    {s₁ s₂ : Threads} {es₁ es₂ : List Event}
    (h₁ : system.exec s (.ui [call] :: schedule) = some (s₁, es₁))
    (h₂ : step s₁ .uiStep = some (s₂, es₂)) : Spares s₁.out s₂.out es₂ := by
  have h₀ : Replaying k { s with ui := call.tasks } :=
    ⟨(ordered hr).last.symm.trans hk, replies_tasks hc, fun p hp t ht =>
      ((programs hr).others p hp).2 t ht⟩
  have h : Replaying k s₁ := by
    simp only [EventSystem.exec, system, step] at h₁
    split at h₁
    · cases h₁
    next s' es hs =>
    split at hs
    · simp only [List.flatMap_cons, List.flatMap_nil, List.append_nil, Option.some.injEq,
        Prod.mk.injEq] at hs
      split at h₁
      · cases h₁
      next t fs he =>
      simp only [Option.some.injEq, Prod.mk.injEq] at h₁
      rw [← h₁.1]
      exact h₀.exec hi (by rw [hs.1]; exact he)
    · cases hs
  cases moved_of_step h₂ with
  | @task _ t ts ht =>
    cases ht with
    | ui hu =>
      have ht : t.replies k := h.ui t (by rw [hu]; exact List.mem_cons_self)
      exact spares_runTask ht h.lastFence

/-! ## The capture-generation fence -/

/-- What a video frame carries was presented with the frame's token: a config kept with it, or the
data of a unit offered with it behind no codec config or, in a keyframe, one set with it. -/
structure Frame.Presented (tr : List Event) (f : Frame) : Prop where
  config : f.isVideoConfig = true → f.Keeps tr f.token
  unit : f.isAccessUnit = true → ∃ unit config,
    .offered f.token f.serial unit ∈ tr ∧ f.payload = .raw (config ++ unit.data) ∧
    (config = [] ∨ (unit.keyFrame = true ∧ .codecConfigSet f.token config ∈ tr))

/-- What was written was presented with a token that was current. -/
theorem presented {ok : List Event → Threads → Label → Prop} (hr : system.Under ok tr s) {f : Frame}
    (hf : f ∈ written tr) : f.Presented tr := by
  refine ⟨(kept_configs hr).frames f (List.mem_append_left _ hf), fun ha => ?_⟩
  have hmem : f ∈ unitsOf f.token (written tr) := by simp [unitsOf, hf, ha]
  obtain ⟨⟨n, u⟩, hnu, hserial, -, -, config, hd, -, hc⟩ :=
    (written_units hr f.token).exists_mem hmem
  exact ⟨u, config, hserial ▸ mem_offeredUnits.mp hnu, hd, hc⟩

/-- **The fence.** In every run, the token of a frame or an event being the one
its caller presented:
* a video frame written behind a reply was queued with a token begun after that reply's fence, and
  begun once;
* the config, the unit and the codec config that a written video frame carries were presented with
  its token;
* replaying the latest reply, with any steps of the other threads in between, drops no queued
  frame and leaves every capture token as acceptable as it was. -/
theorem capture_generation_fence (hr : system.Reaches tr s) :
    (∀ a f b v k, tr = a ++ .wrote f :: b → f.fenceKey = some k → .wrote v ∈ b →
      v.isVideo = true →
      Precedes tr (.fenced k) (.began v.token) ∧ tr.count (.began v.token) = 1) ∧
    (∀ f, .wrote f ∈ tr → f.Presented tr) ∧
    (∀ k call schedule s₁ es₁ s₂ es₂, lastFenced tr = some k → call.replyKey = some k →
      (∀ calls, .ui calls ∉ schedule) →
      system.exec s (.ui [call] :: schedule) = some (s₁, es₁) →
      step s₁ .uiStep = some (s₂, es₂) → Spares s₁.out s₂.out es₂) := by
  refine ⟨fun a f b v k htr hf hv hvideo => ?_, fun f hf => presented hr (mem_written.mpr hf), ?_⟩
  · have h := ordered hr
    have hline : written tr = written a ++ f :: written b := by
      rw [htr, written_append]
      rfl
    have hfollows : Follows tr f v := by
      have hp := h.follows
      rw [pipeline, hline, List.append_assoc, List.cons_append] at hp
      have hp := (List.pairwise_append.mp hp).2.1
      exact (List.pairwise_cons.mp hp).1 v (List.mem_append_left _ (mem_written.mpr hv))
    have hprec := hfollows.2 k hf hvideo
    refine ⟨hprec, Nat.le_antisymm (h.once _) ?_⟩
    exact List.one_le_count_iff.mpr hprec.mem_right
  · exact fun k call schedule s₁ es₁ s₂ es₂ hk hc hi h₁ h₂ => replay_spares hr hk hc hi h₁ h₂

/-- A writer with the default capacity, before `start()`. -/
def fresh : Threads := idle {
  videoCapacity := 2, running := false, sequence := 1, controlQueue := [], videoQueue := []
  controlOverflowed := false, wake := 0, generation := 0, videoEnabled := false
  latestCodecConfig := [], latestVideoConfig := none, recovering := false
  lastFence := none, droppedVideoFrames := 0, offered := 0 }

theorem start_fresh : system.start fresh := ⟨2, _, rfl, rfl⟩

/-- A pause between two captures: the second capture's `VIDEO_CONFIG` follows `PAUSED`. -/
def recaptured : List Label :=
  [Label.start, .ui [.beginCapture, .pauseQuality ⟨1, 0⟩, .beginCapture]] ++
    List.replicate 7 Label.uiStep ++ [Label.spawn (.sendVideoConfig 64 32 30 100000 2)] ++
    List.replicate 5 (Label.step 0) ++ List.replicate 6 Label.writerStep

/-- The fence of the first capture stands before the second begins. -/
theorem capture_generation_fence_recaptured :
    Precedes (system.trace fresh recaptured) (.fenced (.paused, 1)) (.began 2) ∧
    (system.trace fresh recaptured).count (.began 2) = 1 := by
  have hr := EventSystem.reaches_trace (M := system) recaptured start_fresh (by decide)
  exact (capture_generation_fence hr).1 ((system.trace fresh recaptured).take 6)
    { header := { type := .paused, sequence := 1 }, payload := .epoch ⟨1, 0⟩, token := 1 }
    ((system.trace fresh recaptured).drop 7)
    { header := { type := .videoConfig, sequence := 2 }
      payload := .videoConfig ⟨64, 32, 30, 100000⟩, token := 2 }
    (.paused, 1) (by decide) rfl (by decide) rfl

end FramedOutbound
end MobileWebcamBridge
