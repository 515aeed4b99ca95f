import MobileWebcamBridge.Phone.FramedOutbound.Programs

/-!
# The capture-generation fence

The frames a `FramedOutbound` has written, holds and has queued form one `pipeline`, in the order
in which the peer sees them if nothing more is queued. `Ordered` is the invariant of the
pipeline: generations never decrease along it, and a video frame behind a `PAUSED` or staged
reply is of a generation begun after that reply's fence.
-/

set_option autoImplicit false

namespace MobileWebcamBridge
namespace FramedOutbound

open Wire VideoWire Trace

variable {tr es : List Event} {o p : FramedOutbound} {w v : Writer}

/-! ## The pipeline -/

/-- The frame that is written. -/
def Event.written? : Event → Option Frame
  | .wrote f => some f
  | _ => none

/-- The frames on the wire. -/
def written (tr : List Event) : List Frame := tr.filterMap Event.written?

/-- The frames that are still to be written, in the order of the writer. -/
def queued (o : FramedOutbound) (w : Writer) : List Frame :=
  w.hand ++ o.controlQueue ++ o.videoQueue

/-- The frames written and to be written. -/
def pipeline (tr : List Event) (o : FramedOutbound) (w : Writer) : List Frame :=
  written tr ++ queued o w

/-- The reply that stops the video. -/
def Event.fenced? : Event → Option (FrameType × ℕ)
  | .fenced k => some k
  | _ => none

/-- The key of the latest reply. -/
def lastFenced (tr : List Event) : Option (FrameType × ℕ) := (tr.filterMap Event.fenced?).getLast?

/-- Nothing begins a generation or fences. -/
def Calm (es : List Event) : Prop := (∀ t, .began t ∉ es) ∧ ∀ k, .fenced k ∉ es

/-- Nothing is written either. -/
def Quiet (es : List Event) : Prop := Calm es ∧ ∀ f, .wrote f ∉ es

theorem mem_written {f : Frame} : f ∈ written tr ↔ .wrote f ∈ tr := by
  simp only [written, List.mem_filterMap]
  constructor
  · rintro ⟨e, he, hf⟩
    cases e <;> simp only [Event.written?, reduceCtorEq, Option.some.injEq] at hf
    exact hf ▸ he
  · exact fun h => ⟨_, h, rfl⟩

theorem written_append (tr es : List Event) : written (tr ++ es) = written tr ++ written es :=
  List.filterMap_append

theorem written_quiet (h : Quiet es) : written es = [] := by
  rw [written, List.filterMap_eq_nil_iff]
  intro e he
  cases e <;> first | rfl | exact absurd he (h.2 _)

theorem written_of_no_write (h : ∀ f, .wrote f ∉ es) : written (tr ++ es) = written tr := by
  have hnil : written es = [] := by
    rw [List.eq_nil_iff_forall_not_mem]
    intro f hf
    exact h f (mem_written.mp hf)
  rw [written_append, hnil, List.append_nil]

theorem loopTest_hand (o : FramedOutbound) : (loopTest o).hand = [] := by
  unfold loopTest
  split <;> rfl

/-- Events without a fence leave the last one. -/
theorem lastFenced_calm (tr : List Event) (h : Calm es) :
    lastFenced (tr ++ es) = lastFenced tr := by
  have : es.filterMap Event.fenced? = [] := by
    rw [List.filterMap_eq_nil_iff]
    intro e he
    cases e <;> first | rfl | exact absurd he (h.2 _)
  rw [lastFenced, List.filterMap_append, this, List.append_nil, lastFenced]

theorem lastFenced_append (tr : List Event) (k : FrameType × ℕ) :
    lastFenced (tr ++ [Event.fenced k]) = some k := by
  simp [lastFenced, Event.fenced?]

theorem mem_of_lastFenced {k : FrameType × ℕ} (h : lastFenced tr = some k) : .fenced k ∈ tr := by
  obtain ⟨e, he, hk⟩ := List.mem_filterMap.mp (List.mem_of_getLast? h)
  cases e <;> simp only [Event.fenced?, reduceCtorEq, Option.some.injEq] at hk
  exact hk ▸ he

theorem Quiet.calm (h : Quiet es) : Calm es := h.1

theorem quiet_nil : Quiet [] := by simp [Quiet, Calm]

theorem quiet_lostQueued (o : FramedOutbound) (l : Loss) : Quiet (o.lostQueued l) := by
  simp [Quiet, Calm, lostQueued]

/-- The writer thread takes a frame from the front of the queues. -/
theorem dequeue_some {f : Frame} (h : o.dequeue.2 = some f) :
    (∃ fs, o.controlQueue = f :: fs ∧ o.dequeue.1 = { o with controlQueue := fs }) ∨
    (∃ fs, o.controlQueue = [] ∧ o.videoQueue = f :: fs ∧
      o.dequeue.1 = { o with videoQueue := fs }) := by
  unfold dequeue at h ⊢
  split at h
  · next x xs hc =>
    cases h
    exact .inl ⟨xs, hc, rfl⟩
  · next x xs hc hv =>
    cases h
    exact .inr ⟨xs, hc, hv, rfl⟩
  · cases h

theorem pipeline_take (tr : List Event) {f : Frame} (h : o.dequeue.2 = some f) :
    pipeline tr o.dequeue.1 (.write f) = pipeline tr o .take := by
  rcases dequeue_some h with ⟨fs, hc, hd⟩ | ⟨fs, hc, hv, hd⟩ <;> rw [hd]
  · simp [pipeline, queued, hc, Writer.hand]
  · simp [pipeline, queued, hc, hv, Writer.hand]

theorem pipeline_wrote {f : Frame} (hw : w.hand = []) :
    pipeline (tr ++ [Event.wrote f]) o w = pipeline tr o (.write f) := by
  simp [pipeline, queued, hw, written, Event.written?]

/-- The frame in hand is lost with the connection. -/
theorem pipeline_throws {f : Frame} (h : ∀ e ∈ es, e = .writerFailed) (r : Bool) :
    (pipeline (tr ++ es) { o with running := r } .stopped).Sublist (pipeline tr o (.write f)) := by
  have hes : written es = [] := by
    rw [List.eq_nil_iff_forall_not_mem]
    exact fun f hf => by cases h _ (mem_written.mp hf)
  simp [pipeline, queued, written_append, hes, Writer.hand]

/-! ## The invariant -/

/-- What holds of an earlier and a later frame of the pipeline. -/
def Follows (tr : List Event) (x y : Frame) : Prop :=
  x.token ≤ y.token ∧
    ∀ k, x.fenceKey = some k → y.isVideo = true → Precedes tr (.fenced k) (.began y.token)

theorem Follows.append {x y : Frame} (h : Follows tr x y) (es : List Event) :
    Follows (tr ++ es) x y :=
  ⟨h.1, fun k hk hy => (h.2 k hk hy).append_right es⟩

/-- What the pipeline says of captures and fences. -/
structure Ordered (tr : List Event) (o : FramedOutbound) (w : Writer) : Prop where
  last : lastFenced tr = o.lastFence
  began : ∀ t, .began t ∈ tr ↔ 1 ≤ t ∧ t ≤ o.generation
  once : ∀ t, tr.count (.began t) ≤ 1
  video : ∀ f ∈ o.videoQueue,
    f.isAccessUnit = true ∧ f.token = o.generation ∧ o.videoEnabled = true
  control : ∀ f ∈ o.controlQueue, f.isAccessUnit = false ∧
    (f.isVideoConfig = true → f.token = o.generation ∧ o.videoEnabled = true)
  live : o.videoEnabled = true →
    1 ≤ o.generation ∧ ∀ k, .fenced k ∈ tr → Precedes tr (.fenced k) (.began o.generation)
  follows : (pipeline tr o w).Pairwise (Follows tr)
  bound : ∀ f ∈ pipeline tr o w, f.token ≤ o.generation
  keyed : ∀ f ∈ pipeline tr o w, ∀ k, f.fenceKey = some k → .fenced k ∈ tr

/-- No video frame is queued while video is disabled. -/
theorem Ordered.disabled (h : Ordered tr o w) (hv : o.videoEnabled = false) :
    o.videoQueue = [] ∧ ∀ f ∈ o.controlQueue, f.isVideo = false := by
  constructor
  · refine List.eq_nil_iff_forall_not_mem.mpr fun f hf => ?_
    exact absurd (h.video f hf).2.2 (by simp [hv])
  · intro f hf
    have := h.control f hf
    simp only [Frame.isVideo, Bool.or_eq_false_iff]
    refine ⟨?_, this.1⟩
    by_contra hc
    exact absurd (this.2 (by simpa using hc)).2 (by simp [hv])

/-- Frames leave the queues, and the pipeline gains none. -/
theorem Ordered.sublist (h : Ordered tr o w) (hq : Calm es) (hg : p.generation = o.generation)
    (hl : p.lastFence = o.lastFence)
    (hsub : (pipeline (tr ++ es) p v).Sublist (pipeline tr o w))
    (hc : p.controlQueue.Sublist o.controlQueue) (hv : p.videoQueue.Sublist o.videoQueue)
    (he : p.videoEnabled = o.videoEnabled ∨ (p.videoEnabled = false ∧ p.videoQueue = [] ∧
      ∀ f ∈ p.controlQueue, f.isVideoConfig = false)) :
    Ordered (tr ++ es) p v := by
  refine ⟨by rw [lastFenced_calm tr hq, h.last, hl], fun t => ?_, fun t => ?_, fun f hf => ?_,
    fun f hf => ?_, fun hv' => ?_, ?_, ?_, ?_⟩
  · rw [List.mem_append, hg, ← h.began t]
    exact or_iff_left (hq.1 t)
  · rw [List.count_append, List.count_eq_zero.mpr (hq.1 t)]
    exact h.once t
  · rcases he with he | he
    · rw [hg, he]
      exact h.video f (hv.subset hf)
    · rw [he.2.1] at hf
      cases hf
  · have := h.control f (hc.subset hf)
    refine ⟨this.1, fun hf' => ?_⟩
    rcases he with he | he
    · rw [hg, he]
      exact this.2 hf'
    · rw [he.2.2 f hf] at hf'
      cases hf'
  · rcases he with he | he
    · rw [he] at hv'
      rw [hg]
      refine ⟨(h.live hv').1, fun k hk => ?_⟩
      rcases List.mem_append.mp hk with hk | hk
      · exact ((h.live hv').2 k hk).append_right es
      · exact absurd hk (hq.2 k)
    · rw [he.1] at hv'
      cases hv'
  · exact (h.follows.sublist hsub).imp fun hf => hf.append es
  · intro f hf
    rw [hg]
    exact h.bound f (hsub.subset hf)
  · exact fun f hf k hk => List.mem_append_left _ (h.keyed f (hsub.subset hf) k hk)

/-- Dropping queued frames keeps the order. -/
theorem Ordered.drop (h : Ordered tr o w) (hq : Quiet es) (hg : p.generation = o.generation)
    (hl : p.lastFence = o.lastFence) (hc : p.controlQueue.Sublist o.controlQueue)
    (hv : p.videoQueue.Sublist o.videoQueue) (hw : v.hand.Sublist w.hand)
    (he : p.videoEnabled = o.videoEnabled ∨ (p.videoEnabled = false ∧ p.videoQueue = [] ∧
      ∀ f ∈ p.controlQueue, f.isVideoConfig = false)) :
    Ordered (tr ++ es) p v := by
  refine h.sublist hq.calm hg hl ?_ hc hv he
  simp only [pipeline, queued, written_append, written_quiet hq, List.append_nil]
  exact (List.Sublist.refl _).append ((hw.append hc).append hv)

/-- Queues, generation and `videoEnabled` untouched. -/
theorem Ordered.same (h : Ordered tr o w) (hq : Quiet es) (hg : p.generation = o.generation)
    (hc : p.controlQueue = o.controlQueue) (hv : p.videoQueue = o.videoQueue)
    (he : p.videoEnabled = o.videoEnabled) (hl : p.lastFence = o.lastFence) :
    Ordered (tr ++ es) p w :=
  h.drop hq hg hl (hc ▸ List.Sublist.refl _) (hv ▸ List.Sublist.refl _)
    (List.Sublist.refl _) (.inl he)

/-- Stopping the video keeps the order. -/
theorem Ordered.stopVideo (h : Ordered tr o w) (hq : Quiet es) :
    Ordered (tr ++ es) o.stopVideo w := by
  refine h.drop hq rfl rfl List.filter_sublist (List.nil_sublist _) (List.Sublist.refl _)
    (.inr ⟨rfl, rfl, fun f hf => ?_⟩)
  simpa using (List.mem_filter.mp hf).2

/-- The reply's fence, once video is disabled or the key was fenced before. -/
theorem Ordered.fenced (h : Ordered tr o w) {k : FrameType × ℕ}
    (hk : o.videoEnabled = false ∨ .fenced k ∈ tr) :
    Ordered (tr ++ [Event.fenced k]) { o with lastFence := some k } w := by
  have hp : pipeline (tr ++ [Event.fenced k]) { o with lastFence := some k } w =
      pipeline tr o w := by
    simp [pipeline, queued, written, Event.written?]
  refine ⟨lastFenced_append tr k, fun t => ?_, fun t => ?_, h.video, h.control,
    fun hv => ⟨(h.live hv).1, fun k' hk' => ?_⟩, ?_, ?_, ?_⟩
  · simpa using h.began t
  · simpa [List.count_append] using h.once t
  · rcases List.mem_append.mp hk' with hk' | hk'
    · exact ((h.live hv).2 k' hk').append_right _
    · simp only [List.mem_singleton, Event.fenced.injEq] at hk'
      subst hk'
      rcases hk with hd | hk
      · rw [hd] at hv
        cases hv
      · exact ((h.live hv).2 k' hk).append_right _
  · rw [hp]
    exact h.follows.imp fun hf => hf.append _
  · rw [hp]
    exact h.bound
  · rw [hp]
    exact fun f hf k hk => List.mem_append_left _ (h.keyed f hf k hk)

/-- A new capture keeps the order. -/
theorem Ordered.beginCapture (h : Ordered tr o w) :
    Ordered (tr ++ [Event.began (o.generation + 1)]) o.beginCapture w := by
  have hs := h.stopVideo quiet_nil
  rw [List.append_nil] at hs
  have hd := hs.disabled rfl
  have hp : pipeline (tr ++ [Event.began (o.generation + 1)]) o.beginCapture w
      = pipeline tr o.stopVideo w := by
    simp [pipeline, queued, written, Event.written?, FramedOutbound.beginCapture,
      FramedOutbound.stopVideo]
  have hfresh : .began (o.generation + 1) ∉ tr := by
    rw [h.began]
    omega
  have hlast : lastFenced (tr ++ [Event.began (o.generation + 1)]) = lastFenced tr := by
    simp [lastFenced, Event.fenced?]
  refine ⟨hlast.trans h.last, fun t => ?_, fun t => ?_, fun f hf => ?_, fun f hf => ?_,
    fun _ => ⟨?_, fun k hk => ?_⟩, ?_, ?_, ?_⟩
  · simp only [List.mem_append, h.began, List.mem_singleton, Event.began.injEq,
      FramedOutbound.beginCapture]
    omega
  · rw [List.count_append]
    by_cases ht : t = o.generation + 1
    · subst ht
      rw [List.count_eq_zero.mpr hfresh]
      simp
    · have : List.count (Event.began t) [.began (o.generation + 1)] = 0 := by
        simp [List.count_eq_zero, ht]
      rw [this]
      exact h.once t
  · exact absurd (hd.1 ▸ hf : f ∈ []) (by simp)
  · have := hd.2 f hf
    simp only [Frame.isVideo, Bool.or_eq_false_iff] at this
    exact ⟨this.2, fun hc => by rw [this.1] at hc; cases hc⟩
  · exact Nat.le_add_left 1 o.generation
  · simp only [List.mem_append, List.mem_singleton, reduceCtorEq, or_false] at hk
    exact precedes_of_mem hk (List.mem_singleton.mpr rfl)
  · rw [hp]
    exact hs.follows.imp fun hf => hf.append _
  · rw [hp]
    exact fun f hf => Nat.le_succ_of_le (hs.bound f hf)
  · rw [hp]
    exact fun f hf k hk => List.mem_append_left _ (hs.keyed f hf k hk)

/-- A control frame goes behind every frame but the queued access units. -/
theorem Ordered.enqueue (h : Ordered tr o w) {f : Frame} {token : Option ℕ}
    (hf : f.SoundFor tr token)
    (hg : f.token = o.generation) (ht : ∀ t, token = some t → o.accepts t = true)
    (hq : Quiet es) :
    Ordered (tr ++ es) { o with controlQueue := o.controlQueue ++ [f] } w := by
  have hvideo : f.isVideoConfig = true → o.videoEnabled = true := by
    intro hc
    rw [hf.2.1, Option.isSome_iff_exists] at hc
    obtain ⟨t, hc⟩ := hc
    have := ht t hc
    simp only [accepts, Bool.and_eq_true] at this
    exact this.1.2
  -- the frame lands between the control queue and the video queue
  have hp : pipeline tr { o with controlQueue := o.controlQueue ++ [f] } w
      = (written tr ++ w.hand ++ o.controlQueue) ++ (f :: o.videoQueue) := by
    simp [pipeline, queued]
  have hold : pipeline tr o w = (written tr ++ w.hand ++ o.controlQueue) ++ o.videoQueue := by
    simp [pipeline, queued]
  have hpair := h.follows
  rw [hold, List.pairwise_append] at hpair
  have hmem : ∀ x ∈ pipeline tr { o with controlQueue := o.controlQueue ++ [f] } w,
      x = f ∨ x ∈ pipeline tr o w := by
    intro x hx
    rw [hp] at hx
    rw [hold]
    simp only [List.mem_append, List.mem_cons] at hx ⊢
    tauto
  have hkey (x : Frame) (hx : x ∈ pipeline tr o w) : Follows tr x f := by
    refine ⟨hg ▸ h.bound x hx, fun k hk hy => ?_⟩
    simp only [Frame.isVideo, hf.1, Bool.or_false] at hy
    rw [hg]
    exact (h.live (hvideo hy)).2 k (h.keyed x hx k hk)
  have hnew : Ordered tr { o with controlQueue := o.controlQueue ++ [f] } w := by
    refine ⟨h.last, h.began, h.once, h.video, fun x hx => ?_, h.live, ?_, fun x hx => ?_,
      fun x hx => ?_⟩
    · rcases List.mem_append.mp hx with hx | hx
      · exact h.control x hx
      · rw [List.mem_singleton.mp hx]
        exact ⟨hf.1, fun hc => ⟨hg, hvideo hc⟩⟩
    · rw [hp, List.pairwise_append, List.pairwise_cons]
      refine ⟨hpair.1, ⟨fun y hy => ?_, hpair.2.1⟩, fun x hx y hy => ?_⟩
      · obtain ⟨-, hyg, hye⟩ := h.video y hy
        refine ⟨Nat.le_of_eq (hg.trans hyg.symm), fun k hk _ => ?_⟩
        rw [hyg]
        exact (h.live hye).2 k (hf.2.2 k hk)
      · rcases List.mem_cons.mp hy with rfl | hy
        · exact hkey x (hold ▸ List.mem_append_left _ hx)
        · exact hpair.2.2 x hx y hy
    · rcases hmem x hx with rfl | hx
      · exact Nat.le_of_eq hg
      · exact h.bound x hx
    · rcases hmem x hx with rfl | hx
      · exact hf.2.2
      · exact h.keyed x hx
  exact hnew.same hq rfl rfl rfl rfl rfl

/-- A picture unit goes behind everything. -/
theorem Ordered.queueUnit (h : Ordered tr o w) (hv : o.videoEnabled = true) (unit : AccessUnit)
    (serial : ℕ) : Ordered tr (o.queueUnit unit o.generation serial) w := by
  have hp : pipeline tr (o.queueUnit unit o.generation serial) w
      = pipeline tr o w ++ [o.unitFrame unit o.generation serial] := by
    simp [pipeline, queued, FramedOutbound.queueUnit]
  have hkey : (o.unitFrame unit o.generation serial).fenceKey = none := rfl
  refine ⟨h.last, h.began, h.once, fun f hf => ?_, h.control, h.live, ?_, fun f hf => ?_,
    fun f hf => ?_⟩
  · rcases List.mem_append.mp hf with hf | hf
    · exact h.video f hf
    · rw [List.mem_singleton.mp hf]
      exact ⟨rfl, rfl, hv⟩
  · rw [hp, List.pairwise_append]
    refine ⟨h.follows, List.pairwise_singleton _ _, fun x hx y hy => ?_⟩
    rw [List.mem_singleton.mp hy]
    exact ⟨h.bound x hx, fun k hk _ => (h.live hv).2 k (h.keyed x hx k hk)⟩
  · rw [hp] at hf
    rcases List.mem_append.mp hf with hf | hf
    · exact h.bound f hf
    · rw [List.mem_singleton.mp hf]
      exact Nat.le_refl _
  · rw [hp] at hf
    rcases List.mem_append.mp hf with hf | hf
    · exact h.keyed f hf
    · rw [List.mem_singleton.mp hf, hkey]
      rintro k ⟨⟩

/-- Offering a unit keeps the order. -/
theorem Ordered.offerUnit (h : Ordered tr o w) (unit : AccessUnit) (token : ℕ) :
    Ordered (tr ++ (o.offerUnit unit token).2.1) (o.offerUnit unit token).1 w := by
  rcases offer_cases o unit token with hr | ⟨ha, hr⟩
  · simpa [hr] using h
  have hv := (accepts_iff.mp ha).2.1
  have hroom (es : List Event) (hq : Quiet es) :
      Ordered (tr ++ es) (makeRoom { o with offered := o.offered + 1 } unit) w :=
    h.drop hq rfl rfl (List.Sublist.refl _) (List.nil_sublist _) (List.Sublist.refl _) (.inl rfl)
  have hoffered (es : List Event) (hq : Quiet es) :
      Quiet (.offered o.generation o.offered unit :: es) := by simpa [Quiet, Calm] using hq
  have hlost (l : Loss) (es : List Event) (hq : Quiet es) :
      Quiet (.lost o.generation o.offered l :: es) := by simpa [Quiet, Calm] using hq
  generalize o.offerUnit unit token = r at hr ⊢
  cases hr with
  | unconfigured | skipped =>
    exact h.same (hoffered _ (hlost _ _ quiet_nil)) rfl rfl rfl rfl rfl
  | queued =>
    have := h.same (p := { o with offered := o.offered + 1 }) (hoffered _ quiet_nil)
      rfl rfl rfl rfl rfl
    exact this.queueUnit hv _ _
  | replaced => exact (hroom _ (hoffered _ (quiet_lostQueued o _))).queueUnit hv _ _
  | overflowed => exact hroom _ (hoffered _ (hlost _ _ (quiet_lostQueued o _)))

/-! ## Every task and every move of the writer thread keeps it -/

/-- Every section keeps the order. -/
theorem Ordered.runTask (h : Ordered tr o w) {t : Task} (ht : t.Sound tr) :
    Ordered (tr ++ (o.runTask t).2.2) (o.runTask t).1 w := by
  -- most sections touch neither queue, and not the generation
  have hsame (p : FramedOutbound) (es : List Event) (hq : Quiet es)
      (ho : p.generation = o.generation ∧ p.controlQueue = o.controlQueue ∧
        p.videoQueue = o.videoQueue ∧ p.videoEnabled = o.videoEnabled ∧
        p.lastFence = o.lastFence) : Ordered (tr ++ es) p w :=
    h.same hq ho.1 ho.2.1 ho.2.2.1 ho.2.2.2.1 ho.2.2.2.2
  cases t with
  | beginCapture =>
    simp only [FramedOutbound.runTask]
    rw [← List.append_assoc]
    exact (hsame o _ (quiet_lostQueued o .cleared) ⟨rfl, rfl, rfl, rfl, rfl⟩).beginCapture
  | stopVideo => exact h.stopVideo (quiet_lostQueued _ _)
  | fence k =>
    simp only [FramedOutbound.runTask, fenceOnce]
    split
    · next hk =>
      -- a fence that is replayed was queued before
      have := h.fenced (.inr (mem_of_lastFenced (h.last.trans hk)))
      rwa [← hk] at this
    · rw [← List.append_assoc]
      exact (h.stopVideo (quiet_lostQueued _ _)).fenced (.inl rfl)
  | setCodecConfig c n =>
    simp only [FramedOutbound.runTask, FramedOutbound.setCodecConfig]
    split <;> exact hsame _ _ (by simp [Quiet, Calm]) ⟨rfl, rfl, rfl, rfl, rfl⟩
  | keepVideoConfig c n =>
    simp only [FramedOutbound.runTask, FramedOutbound.keepVideoConfig]
    by_cases ha : o.accepts n = true <;> simp only [ha] <;>
      exact hsame _ _ (by simp [Quiet, Calm]) ⟨rfl, rfl, rfl, rfl, rfl⟩
  | offerUnit u n => exact h.offerUnit u n
  | recover =>
    have hr := h.drop (v := w)
      (p := { o with
        droppedVideoFrames := o.droppedVideoFrames + o.videoQueue.length
        videoQueue := []
        recovering := true })
      (quiet_lostQueued o .recovery) rfl rfl (List.Sublist.refl _) (List.nil_sublist _)
      (List.Sublist.refl _) (.inl rfl)
    simp only [FramedOutbound.runTask]
    rcases recover_cases o with hc | ⟨-, -, hc⟩ <;> simp only [hc]
    · exact hsame _ _ quiet_nil ⟨rfl, rfl, rfl, rfl, rfl⟩
    · cases hc' : o.latestVideoConfig <;> simpa [hc'] using hr
  | number f n => exact hsame _ _ quiet_nil ⟨rfl, rfl, rfl, rfl, rfl⟩
  | guard f n => exact hsame _ _ quiet_nil ⟨rfl, rfl, rfl, rfl, rfl⟩
  | enqueue f n =>
    simp only [FramedOutbound.runTask]
    rcases enqueueControl_cases o f n with hr | ⟨-, -, hr⟩ | ⟨-, ha, -, hr⟩ <;> simp only [hr]
    · exact hsame _ _ quiet_nil ⟨rfl, rfl, rfl, rfl, rfl⟩
    · exact hsame _ _ quiet_nil ⟨rfl, rfl, rfl, rfl, rfl⟩
    · refine Ordered.enqueue h (f := { f with token := o.generation }) ht rfl ha ?_
      simp [Quiet, Calm]
  | release => exact hsame _ _ quiet_nil ⟨rfl, rfl, rfl, rfl, rfl⟩
  | overflow =>
    simp only [FramedOutbound.runTask]
    exact hsame _ _ (by split <;> simp [Quiet, Calm]) ⟨rfl, rfl, rfl, rfl, rfl⟩
  | needIdr =>
    simp only [FramedOutbound.runTask]
    exact hsame _ _ (by simp [Quiet, Calm]) ⟨rfl, rfl, rfl, rfl, rfl⟩
  | halt => exact hsame _ _ quiet_nil ⟨rfl, rfl, rfl, rfl, rfl⟩
  | clear =>
    refine h.drop (quiet_lostQueued o .cleared) rfl rfl (List.nil_sublist _) (List.nil_sublist _)
      (List.Sublist.refl _) (.inr ⟨rfl, rfl, ?_⟩)
    rintro f ⟨⟩

/-- A frame taken keeps its place. -/
theorem Ordered.take {f : Frame} (h : Ordered tr o .take) (hd : o.dequeue.2 = some f) :
    Ordered tr o.dequeue.1 (.write f) := by
  have hp := pipeline_take tr hd
  suffices Ordered (tr ++ []) o.dequeue.1 (.write f) by simpa using this
  rcases dequeue_some hd with ⟨fs, hc, hd⟩ | ⟨fs, hc, hv, hd⟩ <;> rw [hd] at hp ⊢
  · refine h.sublist quiet_nil.calm rfl rfl ?_ ?_ (List.Sublist.refl _) (.inl rfl)
    · rw [List.append_nil, hp]
    · simp [hc]
  · refine h.sublist quiet_nil.calm rfl rfl ?_ (List.Sublist.refl _) ?_ (.inl rfl)
    · rw [List.append_nil, hp]
    · simp [hv]

/-- A frame written leaves the pipeline at its front. -/
theorem Ordered.wrote {f : Frame} (h : Ordered tr o (.write f)) (hw : w.hand = []) :
    Ordered (tr ++ [Event.wrote f]) o w := by
  refine h.sublist (by simp [Calm]) rfl rfl ?_ (List.Sublist.refl _)
    (List.Sublist.refl _) (.inl rfl)
  rw [pipeline_wrote hw]

/-- A new queue is in order. -/
theorem Ordered.new {c : ℕ} (h : FramedOutbound.new c = some o) : Ordered [] o .unstarted := by
  unfold FramedOutbound.new at h
  split at h
  · simp only [Option.some.injEq] at h
    subst h
    refine ⟨rfl, ?_, ?_, ?_, ?_, ?_, ?_, ?_, ?_⟩ <;>
      simp [pipeline, queued, written, Writer.hand]
    omega
  · cases h

variable {ok : List Event → Threads → Label → Prop} {s : Threads}

/-- **The pipeline is ordered in every reachable state.** -/
theorem ordered (h : system.Under ok tr s) : Ordered tr s.out s.writer := by
  refine Under.tasks (fun c o => Ordered.new) ?_ ?_ ?_ ?_ ?_ ?_ ?_ h
  · intro tr o h
    have := h.drop (p := { o with running := true }) (v := .acquire) quiet_nil rfl rfl
      (List.Sublist.refl _) (List.Sublist.refl _) (List.Sublist.refl _) (.inl rfl)
    simpa using this
  · intro tr o w v hw _ _ hw' h
    have := h.drop (p := o) (v := v) quiet_nil rfl rfl
      (List.Sublist.refl _) (List.Sublist.refl _) (by rw [hw, hw'.1]) (.inl rfl)
    simpa using this
  · intro tr o w n h
    have := h.same (p := { o with wake := n }) quiet_nil rfl rfl rfl rfl rfl
    simpa using this
  · exact fun tr s i t ts hr _ ht h => h.runTask (sound_of_runs hr ht)
  · exact fun tr o f hd h => h.take hd
  · exact fun tr o f w hw h => h.wrote hw.1
  · intro tr o f es hes h
    refine h.sublist ⟨fun t ht => ?_, fun k hk => ?_⟩ rfl rfl (pipeline_throws hes false)
      (List.Sublist.refl _) (List.Sublist.refl _) (.inl rfl)
    · cases hes _ ht
    · cases hes _ hk

end FramedOutbound
end MobileWebcamBridge
