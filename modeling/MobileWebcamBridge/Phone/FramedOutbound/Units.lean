import MobileWebcamBridge.Lib.Subsequence
import MobileWebcamBridge.Phone.FramedOutbound.Fence

/-!
# The picture units of a capture

`unitLine` is the access units among the frames of the pipeline. `Units` relates it to the units
offered: the line of each generation is a subsequence of what was offered to it, and an access
unit carries the offered unit's own data, behind a codec config of its own generation or none.
-/

set_option autoImplicit false

namespace MobileWebcamBridge
namespace FramedOutbound

open Wire VideoWire Trace

variable {ok : List Event → Threads → Label → Prop} {tr es : List Event} {s : Threads}
variable {o p : FramedOutbound} {w v : Writer} {t : Task} {line : List Frame} {g : ℕ}

/-! ## Offered units and the line of access units -/

/-- The unit offered to the capture, with its number. -/
def Event.offeredTo? (g : ℕ) : Event → Option (ℕ × AccessUnit)
  | .offered g' n u => if g' = g then some (n, u) else none
  | _ => none

/-- The units offered to a generation, with their positions. -/
def offeredUnits (tr : List Event) (g : ℕ) : List (ℕ × AccessUnit) :=
  tr.filterMap (Event.offeredTo? g)

/-- The access units of one generation. -/
def unitsOf (g : ℕ) (fs : List Frame) : List Frame :=
  fs.filter fun f => f.isAccessUnit && f.token == g

/-- The access units written or in the writer's hand. -/
def ahead (tr : List Event) (w : Writer) : List Frame :=
  (written tr ++ w.hand).filter Frame.isAccessUnit

/-- The units of the pipeline. -/
def unitLine (tr : List Event) (o : FramedOutbound) (w : Writer) : List Frame :=
  (pipeline tr o w).filter Frame.isAccessUnit

theorem unitsOf_unitLine : unitsOf g (unitLine tr o w) = unitsOf g (pipeline tr o w) := by
  rw [unitsOf, unitLine, List.filter_filter]
  exact List.filter_congr fun f _ => by cases f.isAccessUnit <;> simp

/-- The line of units is what is ahead and what is queued. -/
theorem unitLine_eq (h : Ordered tr o w) : unitLine tr o w = ahead tr w ++ o.videoQueue := by
  have hc : o.controlQueue.filter Frame.isAccessUnit = [] := by
    rw [List.filter_eq_nil_iff]
    exact fun f hf => by simp [(h.control f hf).1]
  have hv : o.videoQueue.filter Frame.isAccessUnit = o.videoQueue := by
    rw [List.filter_eq_self]
    exact fun f hf => (h.video f hf).1
  simp [unitLine, ahead, pipeline, queued, hc, hv]

theorem unrelated_offered (h : Unrelated es) : offeredUnits es g = [] := by
  rw [offeredUnits, List.filterMap_eq_nil_iff]
  intro e he
  have := h e he
  cases e <;> first | rfl | cases this

theorem offeredUnits_append (tr es : List Event) :
    offeredUnits (tr ++ es) g = offeredUnits tr g ++ offeredUnits es g := List.filterMap_append

theorem offeredUnits_lost (o : FramedOutbound) (l : Loss) :
    offeredUnits (o.lostQueued l) g = [] := by
  simp [offeredUnits, lostQueued, Event.offeredTo?]

/-- A section changes only the queued part of it. -/
theorem unitLine_runTask (h : Ordered tr o w) (ht : t.Sound tr) :
    unitLine (tr ++ (o.runTask t).2.2) (o.runTask t).1 w
      = ahead tr w ++ (o.runTask t).1.videoQueue := by
  have hw : written (o.runTask t).2.2 = [] := by
    rw [List.eq_nil_iff_forall_not_mem]
    exact fun f hf => (effect o t).not_wrote f (mem_written.mp hf)
  rw [unitLine_eq (h.runTask ht), ahead, written_append, hw, List.append_nil, ahead]

/-! ## Units carry what was offered -/

/-- The access unit `f` is the unit `u` offered at position `n`. -/
def Carries (tr : List Event) (f : Frame) (nu : ℕ × AccessUnit) : Prop :=
  f.serial = nu.1 ∧ f.header.ptsUs = nu.2.presentationTimeUs ∧
    f.header.flags.keyframe = nu.2.keyFrame ∧
    ∃ config, f.payload = .raw (config ++ nu.2.data) ∧
      f.header.flags.configIncluded = !config.isEmpty ∧
      (config = [] ∨ (nu.2.keyFrame = true ∧ .codecConfigSet f.token config ∈ tr))

theorem Carries.append {f : Frame} {nu : ℕ × AccessUnit} (h : Carries tr f nu) (es : List Event) :
    Carries (tr ++ es) f nu := by
  obtain ⟨hn, hp, hk, config, hd, hi, hc⟩ := h
  exact ⟨hn, hp, hk, config, hd, hi, hc.imp_right fun h => ⟨h.1, List.mem_append_left _ h.2⟩⟩

/-- The units of a line are offered ones, in their order. -/
structure Units (tr : List Event) (o : FramedOutbound) (line : List Frame) : Prop where
  numbered : ∀ g, (offeredUnits tr g).map Prod.fst = List.range (offeredUnits tr g).length
  offered : (offeredUnits tr o.generation).length = o.offered
  later : ∀ g, o.generation < g → offeredUnits tr g = []
  config : o.latestCodecConfig = [] ∨ .codecConfigSet o.generation o.latestCodecConfig ∈ tr
  carried : ∀ g, (unitsOf g line).SublistForall₂ (Carries tr) (offeredUnits tr g)

theorem unitsOf_append (g : ℕ) (fs fs' : List Frame) :
    unitsOf g (fs ++ fs') = unitsOf g fs ++ unitsOf g fs' := List.filter_append ..

/-- Frames leave the line, and nothing is offered. -/
theorem Units.sublist (h : Units tr o line) {line' : List Frame} (hl : line'.Sublist line)
    (he : ∀ g, offeredUnits es g = []) (hg : p.generation = o.generation)
    (ho : p.offered = o.offered)
    (hc : p.latestCodecConfig = [] ∨ p.latestCodecConfig = o.latestCodecConfig ∨
      .codecConfigSet o.generation p.latestCodecConfig ∈ es) : Units (tr ++ es) p line' := by
  have hsame (g : ℕ) : offeredUnits (tr ++ es) g = offeredUnits tr g := by
    rw [offeredUnits_append, he, List.append_nil]
  refine ⟨fun g => ?_, ?_, fun g h' => ?_, ?_, fun g => ?_⟩
  · rw [hsame]
    exact h.numbered g
  · rw [hsame, hg, ho]
    exact h.offered
  · rw [hsame]
    exact h.later g (hg ▸ h')
  · rw [hg]
    rcases hc with hc | hc | hc
    · exact .inl hc
    · rw [hc]
      exact h.config.imp_right (List.mem_append_left _)
    · exact .inr (List.mem_append_right _ hc)
  · rw [hsame]
    exact ((h.carried g).of_sublist (hl.filter _)).imp fun f nu hf => hf.append es

/-- The frame `sendAccessUnit` queues carries the unit. -/
theorem carries_unitFrame (hc : o.latestCodecConfig = [] ∨
    .codecConfigSet o.generation o.latestCodecConfig ∈ tr) (unit : AccessUnit) (n : ℕ) :
    Carries tr (o.unitFrame unit o.generation n) (n, unit) := by
  refine ⟨rfl, rfl, rfl, if unit.keyFrame then o.latestCodecConfig else [], ?_, ?_, ?_⟩
  · cases hk : unit.keyFrame <;> simp [unitFrame, hk]
  · cases hk : unit.keyFrame <;> simp [unitFrame, hk]
  · cases hk : unit.keyFrame
    · exact .inl rfl
    · exact hc.imp_right fun hc => ⟨rfl, hc⟩

/-- One unit is offered; the line grows by a frame that carries it, or not at all. -/
theorem Units.offer (h : Units tr o line) (unit : AccessUnit) {line' fs : List Frame}
    {e : List Event}
    (hl : line'.Sublist line) (he : ∀ g, offeredUnits e g = []) (hg : p.generation = o.generation)
    (ho : p.offered = o.offered + 1) (hc : p.latestCodecConfig = o.latestCodecConfig)
    (hfs : fs = [] ∨ ∃ f, fs = [f] ∧ f.token = o.generation ∧ Carries tr f (o.offered, unit)) :
    Units (tr ++ Event.offered o.generation o.offered unit :: e) p (line' ++ fs) := by
  have hstep (g : ℕ) : offeredUnits (tr ++ Event.offered o.generation o.offered unit :: e) g =
      offeredUnits tr g ++ (if o.generation = g then [(o.offered, unit)] else []) := by
    rw [offeredUnits_append]
    congr 1
    have := he g
    simp only [offeredUnits] at this ⊢
    simp only [List.filterMap_cons, Event.offeredTo?, this]
    split <;> simp_all
  -- of what was queued at most something is lost
  have hline (g : ℕ) : (unitsOf g line').SublistForall₂ (Carries tr) (offeredUnits tr g) :=
    (h.carried g).of_sublist (hl.filter _)
  refine ⟨fun g => ?_, ?_, fun g h' => ?_, ?_, fun g => ?_⟩
  · rw [hstep]
    split
    · next hg =>
      subst hg
      rw [List.map_append, h.numbered, List.length_append, List.length_singleton, List.range_succ,
        h.offered]
      rfl
    · rw [List.append_nil]
      exact h.numbered g
  · rw [hg, hstep, if_pos rfl, List.length_append, h.offered, ho]
    rfl
  · rw [hg] at h'
    rw [hstep, if_neg (Nat.ne_of_lt h'), List.append_nil]
    exact h.later g h'
  · rw [hg, hc]
    exact h.config.imp_right (List.mem_append_left _)
  · rw [hstep, unitsOf_append]
    refine List.SublistForall₂.imp (fun f nu hf => Carries.append hf _) ?_
    -- the units of other captures are as they were
    by_cases hgg : o.generation = g
    · subst hgg
      rw [if_pos rfl]
      rcases hfs with rfl | ⟨f, rfl, hf, hcar⟩
      · simpa [unitsOf] using (hline _).append_right _
      · by_cases ha : f.isAccessUnit = true
        · have hone : unitsOf o.generation [f] = [f] := by simp [unitsOf, hf, ha]
          rw [hone]
          exact (hline _).snoc hcar
        · have hnone : unitsOf o.generation [f] = [] := by simp [unitsOf, ha]
          rw [hnone, List.append_nil]
          exact (hline _).append_right _
    · have hnone : unitsOf g fs = [] := by
        rcases hfs with rfl | ⟨f, rfl, hf, -⟩
        · rfl
        · simp [unitsOf, hf, hgg]
      rw [if_neg hgg, hnone, List.append_nil, List.append_nil]
      exact hline g

/-- A new generation, to which nothing has been offered. -/
theorem Units.began (h : Units tr o line) {line' : List Frame} (hl : line'.Sublist line)
    (he : ∀ g, offeredUnits es g = []) : Units (tr ++ es) o.beginCapture line' := by
  have hs := h.sublist (p := { o with latestCodecConfig := [] }) hl he rfl rfl (.inl rfl)
  have hnew := hs.later (o.generation + 1) (Nat.lt_succ_self _)
  refine ⟨hs.numbered, ?_, fun g hg => hs.later g (Nat.lt_of_succ_lt hg), .inl rfl, hs.carried⟩
  exact (congrArg List.length hnew).trans rfl

/-- What a task does keeps the line carrying what was offered. -/
theorem Units.effect {before : List Frame} (he : Effect o t p es)
    (h : Units tr o (before ++ o.videoQueue)) : Units (tr ++ es) p (before ++ p.videoQueue) := by
  -- giving up the queue leaves what is ahead of it
  have hcleared : (before ++ []).Sublist (before ++ o.videoQueue) :=
    (List.Sublist.refl _).append (List.nil_sublist _)
  cases he with
  | keep hs hu =>
    rw [hs.videoQueue]
    exact h.sublist (List.Sublist.refl _) (fun g => unrelated_offered hu) hs.generation hs.offered
      (.inr (.inl hs.latestCodecConfig))
  | began =>
    refine h.began hcleared fun g => ?_
    rw [offeredUnits_append, offeredUnits_lost]
    rfl
  | silenced hs hu =>
    rw [hs.videoQueue]
    refine h.sublist hcleared (fun g => ?_) hs.generation hs.offered (.inl hs.latestCodecConfig)
    rw [offeredUnits_append, offeredUnits_lost, unrelated_offered hu]
    rfl
  | configured config token =>
    exact h.sublist (List.Sublist.refl _) (fun g => rfl) rfl rfl
      (.inr (.inr (List.mem_singleton.mpr rfl)))
  | offered unit token _ hr =>
    have hlost (l : Loss) (g : ℕ) : offeredUnits [.lost o.generation o.offered l] g = [] := rfl
    have hframe (p : FramedOutbound) (hg : p.generation = o.generation)
        (hc : p.latestCodecConfig = o.latestCodecConfig) :
        Carries tr (p.unitFrame unit o.generation o.offered) (o.offered, unit) := by
      rw [← hg]
      refine carries_unitFrame ?_ unit o.offered
      rw [hg, hc]
      exact h.config
    cases hr with
    | unconfigured =>
      have := h.offer unit (p := { o with offered := o.offered + 1 })
        (List.Sublist.refl _) (hlost .unconfigured) rfl rfl rfl (.inl rfl)
      rwa [List.append_nil] at this
    | skipped =>
      have := h.offer unit (p := { o with
          offered := o.offered + 1, droppedVideoFrames := o.droppedVideoFrames + 1 })
        (List.Sublist.refl _) (hlost .recovering) rfl rfl rfl (.inl rfl)
      rwa [List.append_nil] at this
    | queued =>
      have := h.offer unit (p := FramedOutbound.queueUnit { o with offered := o.offered + 1 } unit
        o.generation o.offered) (List.Sublist.refl _) (e := []) (fun g => rfl) rfl rfl rfl
        (.inr ⟨_, rfl, rfl, hframe { o with offered := o.offered + 1 } rfl rfl⟩)
      rwa [List.append_assoc] at this
    | replaced =>
      have := h.offer unit (p := FramedOutbound.queueUnit
        (makeRoom { o with offered := o.offered + 1 } unit) unit o.generation o.offered) hcleared
        (fun g => offeredUnits_lost o .overflow) rfl rfl rfl
        (.inr ⟨_, rfl, rfl, hframe (makeRoom { o with offered := o.offered + 1 } unit) rfl rfl⟩)
      rwa [List.append_assoc] at this
    | overflowed =>
      have := h.offer unit (p := makeRoom { o with offered := o.offered + 1 } unit)
        hcleared (e := .lost o.generation o.offered .overflow :: o.lostQueued .overflow)
        (fun g => offeredUnits_lost o .overflow) rfl rfl rfl (.inl rfl)
      rwa [List.append_nil] at this
  | recovered =>
    exact h.sublist hcleared (fun g => offeredUnits_lost o .recovery) rfl rfl (.inr (.inl rfl))

/-- The writer thread only takes frames off the line. -/
theorem Units.writer (h : Units tr o (unitLine tr o w)) {c q : List Frame} {r : Bool} {n : ℕ}
    (ho : p = { o with controlQueue := c, videoQueue := q, running := r, wake := n })
    (hp : (pipeline (tr ++ es) p v).Sublist (pipeline tr o w))
    (he : ∀ g, offeredUnits es g = []) : Units (tr ++ es) p (unitLine (tr ++ es) p v) := by
  subst ho
  exact h.sublist (hp.filter _) he rfl rfl (.inr (.inl rfl))

/-- In every run the line carries the units offered. -/
theorem units (h : system.Under ok tr s) : Units tr s.out (unitLine tr s.out s.writer) := by
  have hnil (g : ℕ) : offeredUnits [] g = [] := rfl
  refine Under.tasks (P := fun tr o w => Units tr o (unitLine tr o w)) ?_ ?_ ?_ ?_ ?_ ?_ ?_ ?_ h
  · intro c o ho
    unfold new at ho
    split at ho
    · simp only [Option.some.injEq] at ho
      subst ho
      exact ⟨fun g => rfl, rfl, fun g _ => rfl, .inl rfl, fun g => .nil⟩
    · cases ho
  · intro tr o h
    simpa using h.writer (v := .acquire) rfl (by simp [pipeline, queued, Writer.hand]) hnil
  · intro tr o w v hw _ _ hw' h
    simpa using h.writer (v := v) rfl (by simp [pipeline, queued, hw, hw'.1]) hnil
  · intro tr o w n h
    simpa using h.writer (p := { o with wake := n }) (v := w) rfl
      (by simp [pipeline, queued]) hnil
  · intro tr s i t ts hr _ ht h
    have ho := ordered hr
    rw [unitLine_runTask ho (sound_of_runs hr ht)]
    rw [unitLine_eq ho] at h
    exact h.effect (FramedOutbound.effect s.out t)
  · intro tr o f hd h
    have hp := pipeline_take tr hd
    rcases dequeue_some hd with ⟨fs, -, hd⟩ | ⟨fs, -, -, hd⟩ <;> rw [hd] at hp ⊢
    · simpa using h.writer (v := .write f) rfl (by rw [List.append_nil, hp]) hnil
    · simpa using h.writer (v := .write f) rfl (by rw [List.append_nil, hp]) hnil
  · intro tr o f w hw h
    exact h.writer rfl (by rw [pipeline_wrote hw.1]) fun g => rfl
  · intro tr o f es hes h
    refine h.writer (p := { o with running := false }) rfl (pipeline_throws hes false) fun g => ?_
    rw [offeredUnits, List.filterMap_eq_nil_iff]
    exact fun e he => by rw [hes e he]; rfl

/-- What was written of a generation is a subsequence of what was offered to it. -/
theorem written_units (h : system.Under ok tr s) (g : ℕ) :
    (unitsOf g (written tr)).SublistForall₂ (Carries tr) (offeredUnits tr g) := by
  refine ((units h).carried g).of_sublist ?_
  rw [unitsOf_unitLine]
  exact (List.sublist_append_left _ _).filter _

theorem mem_offeredUnits {n : ℕ} {u : AccessUnit} :
    (n, u) ∈ offeredUnits tr g ↔ .offered g n u ∈ tr := by
  rw [offeredUnits, List.mem_filterMap]
  constructor
  · rintro ⟨e, he, h⟩
    cases e <;> simp only [Event.offeredTo?, reduceCtorEq] at h
    split at h
    · next hg =>
      simp only [Option.some.injEq, Prod.mk.injEq] at h
      obtain ⟨rfl, rfl⟩ := h
      exact hg ▸ he
    · cases h
  · exact fun h => ⟨_, h, by simp [Event.offeredTo?]⟩

end FramedOutbound
end MobileWebcamBridge
