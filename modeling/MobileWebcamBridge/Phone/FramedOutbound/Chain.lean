import MobileWebcamBridge.Phone.FramedOutbound.Replay

/-!
# The H.264 dependency chain

`sendAccessUnit` raises `recovering` when it drops a unit on overflow and keeps it raised until a
keyframe, but a unit refused for want of a `VIDEO_CONFIG` raises nothing: a P-frame offered right
after the config arrives is queued although its reference was never sent. `Anchored` is the
condition that this does not happen; under it the chain on the wire is never broken.
-/

set_option autoImplicit false

namespace MobileWebcamBridge
namespace FramedOutbound

open Wire VideoWire Trace

variable {tr es : List Event} {s s' : Threads} {o p : FramedOutbound} {w v : Writer} {t : Task}
variable {line before : List Frame} {g m : ℕ} {i : Label}
variable {ok : List Event → Threads → Label → Prop}

/-! ## The property -/

/-- A loss the next keyframe has to announce. -/
def Loss.announced : Loss → Bool
  | .overflow | .recovery | .recovering => true
  | .unconfigured | .cleared => false

/-- Every unit of the generation on the line was offered before the unit at `m`. -/
def Gap (line : List Frame) (g m : ℕ) : Prop := ∀ x ∈ line, x.token = g → x.serial < m

/-- The access unit `y` may follow `before`: if a unit was skipped in between, `y` is a keyframe,
and it carries `DISCONTINUITY` if the loss has to be announced. -/
def Links (tr : List Event) (before : List Frame) (y : Frame) : Prop :=
  ∀ m < y.serial, Gap before y.token m →
    y.header.flags.keyframe = true ∧
    ∀ l : Loss, l.announced = true → .lost y.token m l ∈ tr →
      y.header.flags.discontinuity = true

/-- Every unit of the line is linked to what comes before it. -/
def Linked (tr : List Event) (line : List Frame) : Prop :=
  ∀ a y b, line = a ++ y :: b → Links tr a y

/-- The access units on the wire, all generations. -/
def writtenUnits (tr : List Event) : List Frame := (written tr).filter Frame.isAccessUnit

/-- Per generation the written units are a subsequence of the units offered, the unit after a
skipped one is a keyframe that announces the loss, and a P-frame follows its predecessor. -/
structure Unbroken (tr : List Event) : Prop where
  subsequence : ∀ g, (unitsOf g (written tr)).SublistForall₂ (Carries tr) (offeredUnits tr g)
  linked : Linked tr (writtenUnits tr)
  predecessor : ∀ a y b, writtenUnits tr = a ++ y :: b → y.header.flags.keyframe = false →
    y.serial = 0 ∨ ∃ x ∈ a, x.token = y.token ∧ x.serial + 1 = y.serial

/-! ## The condition -/

/-- The task a label runs. -/
def Threads.task? (s : Threads) : Label → Option Task
  | .uiStep => s.ui.head?
  | .step j => s.others[j]?.bind List.head?
  | _ => none

theorem task?_of_runs {ts : List Task} (h : Runs s i t ts) : s.task? i = some t := by
  cases h with
  | ui hu => simp [Threads.task?, hu]
  | other hj => simp [Threads.task?, hj]

/-- The unit is a P-frame about to be queued right behind a unit refused for want of a config. -/
def Orphan (tr : List Event) (o : FramedOutbound) (unit : AccessUnit) (token : ℕ) : Prop :=
  o.accepts token = true ∧ o.latestVideoConfig ≠ none ∧ o.recovering = false ∧
    unit.keyFrame = false ∧ 0 < o.offered ∧
    .lost o.generation (o.offered - 1) .unconfigured ∈ tr

instance (tr : List Event) (o : FramedOutbound) (unit : AccessUnit) (token : ℕ) :
    Decidable (Orphan tr o unit token) := by unfold Orphan; infer_instance

/-- No step queues an orphan. -/
def Anchored (tr : List Event) (s : Threads) (i : Label) : Prop :=
  match s.task? i with
  | some (.offerUnit unit token) => ¬ Orphan tr s.out unit token
  | _ => True

instance (tr : List Event) (s : Threads) (i : Label) : Decidable (Anchored tr s i) := by
  unfold Anchored
  split <;> infer_instance

/-- A run that anchors offers no orphan. -/
theorem Anchored.not_orphan (h : Anchored tr s i) {unit : AccessUnit} {token : ℕ} {ts : List Task}
    (hr : Runs s i (.offerUnit unit token) ts) : ¬ Orphan tr s.out unit token := by
  simpa [Anchored, task?_of_runs hr] using h

/-! ## The invariant -/

/-- The line is linked, and so will be a unit at its end. -/
structure Chained (tr : List Event) (o : FramedOutbound) (line : List Frame) : Prop where
  linked : Linked tr line
  /-- Units skipped behind the end of the line. -/
  tail : o.videoEnabled = true → ∀ m < o.offered, Gap line o.generation m →
    o.recovering = true ∨ (.lost o.generation m .unconfigured ∈ tr ∧
      ∀ l : Loss, l.announced = true → .lost o.generation m l ∉ tr)
  lost : ∀ g m l, .lost g m l ∈ tr → g ≤ o.generation ∧ (g = o.generation → m < o.offered)

/-- The line of one generation is in the order of offers, and all of it has been offered. -/
structure Sorted (o : FramedOutbound) (line : List Frame) : Prop where
  order : line.Pairwise fun x y => x.token = y.token → x.serial < y.serial
  offered : ∀ x ∈ line, x.token = o.generation → x.serial < o.offered

theorem Units.sorted (h : Units tr o line) (ha : ∀ f ∈ line, f.isAccessUnit = true) :
    Sorted o line := by
  have hasc (g : ℕ) : (offeredUnits tr g).Pairwise fun p q => p.1 < q.1 := by
    have := List.pairwise_lt_range (n := (offeredUnits tr g).length)
    rw [← h.numbered g, List.pairwise_map] at this
    exact this
  have hof (g : ℕ) : (unitsOf g line).Pairwise fun x y => x.serial < y.serial :=
    (h.carried g).pairwise (fun h h' hq => by rw [h.1, h'.1]; exact hq) (hasc g)
  constructor
  · rw [List.pairwise_iff_forall_sublist]
    intro x y hxy hg
    have hx := hxy.subset List.mem_cons_self
    have hy := hxy.subset (List.mem_cons_of_mem _ List.mem_cons_self)
    have hsub := hxy.filter fun f => f.isAccessUnit && f.token == y.token
    have hkeep : [x, y].filter (fun f => f.isAccessUnit && f.token == y.token) = [x, y] := by
      simp [ha x hx, ha y hy, hg]
    rw [hkeep] at hsub
    exact List.pairwise_iff_forall_sublist.mp (hof y.token) hsub
  · intro x hx hg
    have hmem : x ∈ unitsOf o.generation line := by simp [unitsOf, hx, ha x hx, hg]
    obtain ⟨nu, hnu, hc⟩ := (h.carried o.generation).exists_mem hmem
    have hn : nu.1 ∈ (offeredUnits tr o.generation).map Prod.fst := List.mem_map_of_mem hnu
    rw [h.numbered, List.mem_range, h.offered, ← hc.1] at hn
    exact hn

/-- The links of a line are those of its beginning. -/
theorem Linked.of_initial (h : Linked tr line) (hb : before <+: line) : Linked tr before := by
  obtain ⟨rest, rfl⟩ := hb
  exact fun a y b hab => h a y (b ++ rest) (by simp [hab])

/-- Losses at or behind the end of the line do not touch it. -/
theorem Linked.append (h : Linked tr line)
    (he : ∀ g m l, l.announced = true → .lost g m l ∈ es →
      ∀ y ∈ line, y.token = g → y.serial ≤ m) : Linked (tr ++ es) line := by
  intro a y b hab m hm hg
  have hy : y ∈ line := by simp [hab]
  refine ⟨(h a y b hab m hm hg).1, fun l hl hlost => ?_⟩
  rcases List.mem_append.mp hlost with hlost | hlost
  · exact (h a y b hab m hm hg).2 l hl hlost
  · exact absurd (he _ m l hl hlost y hy rfl) (by omega)

/-- One more access unit at the end of the line. -/
theorem Linked.snoc {y : Frame} (h : Linked tr line) (hy : Links tr line y) :
    Linked tr (line ++ [y]) := by
  intro a z b hab
  rcases List.eq_nil_or_concat b with rfl | ⟨c, e, rfl⟩
  · obtain ⟨rfl, hz⟩ := List.append_inj' hab rfl
    simp only [List.cons.injEq, and_true] at hz
    exact hz ▸ hy
  · have hab : line ++ [y] = (a ++ z :: c) ++ [e] := by simp [hab]
    exact h a z c (List.append_inj' hab rfl).1

theorem not_announced_unrelated (hu : Unrelated es) (g m : ℕ) (l : Loss) : .lost g m l ∉ es :=
  fun h => by cases hu _ h

theorem mem_lostQueued {l l' : Loss} :
    .lost g m l' ∈ o.lostQueued l ↔
      l' = l ∧ ∃ f ∈ o.videoQueue, f.token = g ∧ f.serial = m := by
  simp only [lostQueued, List.mem_map, Event.lost.injEq]
  constructor
  · rintro ⟨f, hf, hg, hm, hl⟩
    exact ⟨hl.symm, f, hf, hg, hm⟩
  · rintro ⟨rfl, f, hf, hg, hm⟩
    exact ⟨f, hf, hg, hm, rfl⟩

/-- The losses a task can announce, given the order of the line. -/
structure Queued (o : FramedOutbound) (before : List Frame) : Prop where
  sorted : Sorted o (before ++ o.videoQueue)
  generation : ∀ f ∈ o.videoQueue, f.token = o.generation

/-- Clearing the queue adds losses behind what is left of the line only. -/
theorem Queued.behind (h : Queued o before) {l l' : Loss} (hl : .lost g m l' ∈ o.lostQueued l) :
    g = o.generation ∧ m < o.offered ∧ ∀ y ∈ before, y.token = g → y.serial ≤ m := by
  obtain ⟨-, f, hf, rfl, rfl⟩ := mem_lostQueued.mp hl
  have hg := h.generation f hf
  refine ⟨hg, h.sorted.offered f (List.mem_append_right _ hf) hg, fun y hy hyf => ?_⟩
  exact Nat.le_of_lt ((List.pairwise_append.mp h.sorted.order).2.2 y hy f hf hyf)

theorem Queued.unit (h : Queued o before) :
    ∀ y ∈ before, y.token = o.generation → y.serial ≤ o.offered := fun y hy hg =>
  Nat.le_of_lt (h.sorted.offered y (List.mem_append_left _ hy) hg)

/-- `recovering` is raised behind everything that is left. -/
theorem Chained.recover (h : Chained tr o line) (hb : before <+: line)
    (hg : p.generation = o.generation)
    (hn : o.offered ≤ p.offered) (hv : p.videoEnabled = true → p.recovering = true)
    (he : ∀ g m l, .lost g m l ∈ es → g = o.generation ∧ m < p.offered ∧
      ∀ y ∈ before, y.token = g → y.serial ≤ m) :
    Chained (tr ++ es) p before := by
  refine ⟨(h.linked.of_initial hb).append fun g m l _ hl => (he g m l hl).2.2,
    fun hv' _ _ _ => .inl (hv hv'),
    fun g m l hl => ?_⟩
  rw [hg]
  rcases List.mem_append.mp hl with hl | hl
  · exact ⟨(h.lost g m l hl).1, fun hg => Nat.lt_of_lt_of_le ((h.lost g m l hl).2 hg) hn⟩
  · exact ⟨Nat.le_of_eq (he g m l hl).1, fun _ => (he g m l hl).2.1⟩

/-- The line and what lies behind it stay as they are. -/
theorem Chained.same {e : List Event} (h : Chained tr o line) (hg : p.generation = o.generation)
    (hn : p.offered = o.offered) (hv : p.videoEnabled = o.videoEnabled)
    (hr : p.recovering = o.recovering) (he : ∀ g m l, .lost g m l ∉ e) :
    Chained (tr ++ e) p line := by
  refine ⟨?_, fun hv' m hm hgap => ?_, fun g m l hl => ?_⟩
  · exact h.linked.append fun g m l _ hl => absurd hl (he g m l)
  · rw [hv] at hv'
    rw [hn] at hm
    rw [hg] at hgap ⊢
    rw [hr]
    refine (h.tail hv' m hm hgap).imp_right fun hu =>
      ⟨List.mem_append_left _ hu.1, fun l hl hlost => ?_⟩
    rcases List.mem_append.mp hlost with hlost | hlost
    · exact hu.2 l hl hlost
    · exact he _ _ _ hlost
  · rw [hg, hn]
    rcases List.mem_append.mp hl with hl | hl
    · exact h.lost g m l hl
    · exact absurd hl (he g m l)

/-- A unit refused for want of a `VIDEO_CONFIG`. -/
theorem Chained.refuse (h : Chained tr o line) (unit : AccessUnit) :
    Chained (tr ++ [Event.offered o.generation o.offered unit,
      .lost o.generation o.offered .unconfigured])
      { o with offered := o.offered + 1 } line := by
  have hnew {g m : ℕ} {l : Loss} (hl : .lost g m l ∈ [Event.offered o.generation o.offered unit,
      .lost o.generation o.offered .unconfigured]) :
      g = o.generation ∧ m = o.offered ∧ l = .unconfigured := by simpa using hl
  refine ⟨?_, fun hv m hm hgap => ?_, fun g m l hl => ?_⟩
  · refine h.linked.append fun g m l hl he => ?_
    obtain ⟨-, -, rfl⟩ := hnew he
    cases hl
  · rcases Nat.lt_succ_iff_lt_or_eq.mp hm with hm | rfl
    · refine (h.tail hv m hm hgap).imp_right fun hu =>
        ⟨List.mem_append_left _ hu.1, fun l hl hlost => ?_⟩
      rcases List.mem_append.mp hlost with hlost | hlost
      · exact hu.2 l hl hlost
      · exact absurd (hnew hlost).2.1 (Nat.ne_of_lt hm)
    · refine .inr ⟨by simp, fun l hl hlost => ?_⟩
      rcases List.mem_append.mp hlost with hlost | hlost
      · exact absurd ((h.lost _ _ _ hlost).2 rfl) (Nat.lt_irrefl _)
      · obtain ⟨-, -, rfl⟩ := hnew hlost
        cases hl
  · rcases List.mem_append.mp hl with hl | hl
    · exact ⟨(h.lost g m l hl).1, fun hg => Nat.lt_succ_of_lt ((h.lost g m l hl).2 hg)⟩
    · obtain ⟨rfl, rfl, -⟩ := hnew hl
      exact ⟨Nat.le_refl _, fun _ => Nat.lt_succ_self _⟩

/-- A unit joins the line with nothing skipped before it, or as the keyframe the loss needs. -/
theorem Chained.queue (h : Chained tr o line) (hv : o.videoEnabled = true) {unit : AccessUnit}
    {token : ℕ} (ha : o.accepts token = true) (hc : o.latestVideoConfig ≠ none)
    (hr : o.recovering = true → unit.keyFrame = true) (hok : ¬ Orphan tr o unit token) :
    Chained (tr ++ [Event.offered o.generation o.offered unit])
      (FramedOutbound.queueUnit { o with offered := o.offered + 1 } unit o.generation o.offered)
      (line ++
        [FramedOutbound.unitFrame { o with offered := o.offered + 1 } unit o.generation
          o.offered]) := by
  have hnew {g m : ℕ} {l : Loss} : .lost g m l ∉ [Event.offered o.generation o.offered unit] := by
    simp
  have hlinks : Links tr line
      (FramedOutbound.unitFrame { o with offered := o.offered + 1 } unit o.generation
        o.offered) := by
    intro m hm hgap
    have htail := h.tail hv m hm hgap
    cases hrec : o.recovering with
    | true =>
      have hk := hr hrec
      exact ⟨hk, fun _ _ _ => by simp [unitFrame, hk]⟩
    | false =>
      have hlast : Gap line o.generation (o.offered - 1) := fun x hx hg => by
        have := hgap x hx hg
        have hm : m < o.offered := hm
        omega
      have hm : m < o.offered := hm
      have hpred := h.tail hv (o.offered - 1) (by omega) hlast
      rw [hrec] at htail hpred
      refine ⟨?_, fun l hl hlost => absurd hlost ((htail.resolve_left Bool.false_ne_true).2 l hl)⟩
      -- a P-frame here would be an orphan
      by_contra hk
      exact hok ⟨ha, hc, hrec,
        Bool.eq_false_iff.mpr hk, by omega, (hpred.resolve_left Bool.false_ne_true).1⟩
  refine ⟨?_, fun _ m hm hgap => ?_, fun g m l hl => ?_⟩
  · exact (h.linked.snoc hlinks).append fun g m l _ hl => absurd hl hnew
  · have := hgap _ (List.mem_append_right _ (List.mem_singleton.mpr rfl)) rfl
    have hm : m < o.offered + 1 := hm
    have : o.offered < m := this
    omega
  · rcases List.mem_append.mp hl with hl | hl
    · exact ⟨(h.lost g m l hl).1, fun hg => Nat.lt_succ_of_lt ((h.lost g m l hl).2 hg)⟩
    · exact absurd hl hnew

/-- A keyframe that announces the loss joins what is left of the line. -/
theorem Chained.announce {y : Frame} (h : Chained tr o before) (hg : y.token = o.generation)
    (hs : y.serial + 1 = o.offered) (hk : y.header.flags.keyframe = true)
    (hd : y.header.flags.discontinuity = true) (ho : p.generation = o.generation)
    (hn : p.offered = o.offered) : Chained tr p (before ++ [y]) := by
  refine ⟨h.linked.snoc fun _ _ _ => ⟨hk, fun _ _ _ => hd⟩, fun _ m hm hgap => ?_,
    fun g m l hl => ?_⟩
  · have := hgap y (List.mem_append_right _ (List.mem_singleton.mpr rfl)) (hg.trans ho.symm)
    omega
  · rw [ho, hn]
    exact h.lost g m l hl

/-- What a section does keeps the chain. -/
theorem Chained.effect (he : Effect o t p es) (hq : Queued o before)
    (hok : ∀ unit token, t = .offerUnit unit token → ¬ Orphan tr o unit token)
    (h : Chained tr o (before ++ o.videoQueue)) :
    Chained (tr ++ es) p (before ++ p.videoQueue) := by
  cases he with
  | keep hs hu =>
    rw [hs.videoQueue]
    exact h.same hs.generation hs.offered hs.videoEnabled hs.recovering (not_announced_unrelated hu)
  | began =>
    -- a new capture: what was queued belongs to the capture before
    have hb (g m l) (hl : .lost g m l ∈ o.lostQueued .cleared ++ [Event.began (o.generation + 1)]) :
        .lost g m l ∈ o.lostQueued .cleared := by simpa using hl
    simp only [beginCapture, clearVideo, List.append_nil]
    refine ⟨(h.linked.of_initial (List.prefix_append _ _)).append fun g m l _ hl =>
      (hq.behind (hb g m l hl)).2.2, fun _ m hm => absurd hm (Nat.not_lt_zero m),
      fun g m l hl => ?_⟩
    have hg : g ≤ o.generation := by
      rcases List.mem_append.mp hl with hl | hl
      · exact (h.lost g m l hl).1
      · exact Nat.le_of_eq (hq.behind (hb g m l hl)).1
    exact ⟨Nat.le_succ_of_le hg, fun he => by simp only at he; omega⟩
  | silenced hs hu =>
    rw [hs.videoQueue, List.append_nil]
    refine h.recover (List.prefix_append _ _) hs.generation (Nat.le_of_eq hs.offered.symm)
      (fun hv => ?_) fun g m l hl => ?_
    · rw [hs.videoEnabled] at hv
      cases hv
    · rw [hs.offered]
      rcases List.mem_append.mp hl with hl | hl
      · exact hq.behind hl
      · exact absurd hl (not_announced_unrelated hu g m l)
  | configured config token => exact h.same rfl rfl rfl rfl (by simp)
  | offered unit token ha hr =>
    -- a unit that is queued follows the last one, unless something was lost between them
    have hv := (accepts_iff.mp ha).2.1
    cases hr with
    | unconfigured => exact h.refuse unit
    | skipped hrec =>
      refine h.recover List.prefix_rfl rfl (Nat.le_succ _)
        (fun _ => hrec) fun g m l hl => ?_
      have hl : g = o.generation ∧ m = o.offered ∧ l = .recovering := by simpa using hl
      obtain ⟨rfl, rfl, rfl⟩ := hl
      exact ⟨rfl, Nat.lt_succ_self _, fun y hy hg => Nat.le_of_lt (hq.sorted.offered y hy hg)⟩
    | queued hc hrec =>
      have := h.queue hv ha hc hrec (hok unit token rfl)
      rwa [List.append_assoc] at this
    | replaced _ hk =>
      -- the keyframe that overflows the queue is the first after the gap it makes
      have hroom : Chained
          (tr ++ Event.offered o.generation o.offered unit :: o.lostQueued .overflow)
          (makeRoom { o with offered := o.offered + 1 } unit) before := by
        refine h.recover (List.prefix_append _ _) rfl (Nat.le_succ _)
          (fun _ => rfl) fun g m l hl => ?_
        have hl : .lost g m l ∈ o.lostQueued .overflow := by simpa using hl
        have := hq.behind hl
        exact ⟨this.1, Nat.lt_succ_of_lt this.2.1, this.2.2⟩
      exact hroom.announce rfl rfl hk (by simp [unitFrame, makeRoom, hk]) rfl rfl
    | overflowed =>
      simp only [makeRoom, List.append_nil]
      refine h.recover (List.prefix_append _ _) rfl (Nat.le_succ _)
        (fun _ => rfl) fun g m l hl => ?_
      have hl : (g = o.generation ∧ m = o.offered) ∨ .lost g m l ∈ o.lostQueued .overflow := by
        rcases List.mem_cons.mp hl with hl | hl
        · cases hl
        · rcases List.mem_cons.mp hl with hl | hl
          · cases hl
            exact .inl ⟨rfl, rfl⟩
          · exact .inr hl
      rcases hl with ⟨rfl, rfl⟩ | hl
      · exact ⟨rfl, Nat.lt_succ_self _, hq.unit⟩
      · have := hq.behind hl
        exact ⟨this.1, Nat.lt_succ_of_lt this.2.1, this.2.2⟩
  | recovered =>
    rw [List.append_nil]
    exact h.recover (List.prefix_append _ _) rfl (Nat.le_refl _) (fun _ => rfl) fun g m l hl =>
      hq.behind hl

/-! ## Every run -/

/-- The units of the line stand in the order of their numbers. -/
theorem sorted (h : system.Under ok tr s) : Sorted s.out (unitLine tr s.out s.writer) :=
  (units h).sorted fun _ hf => (List.mem_filter.mp hf).2

/-- What is ahead of the queue was offered before it. -/
theorem queued_ahead (h : system.Under ok tr s) : Queued s.out (ahead tr s.writer) :=
  ⟨unitLine_eq (ordered h) ▸ sorted h, fun f hf => ((ordered h).video f hf).2.1⟩

theorem writtenUnits_append (tr es : List Event) :
    writtenUnits (tr ++ es) = writtenUnits tr ++ writtenUnits es := by
  simp [writtenUnits, written_append]

theorem writtenUnits_runTask (o : FramedOutbound) (t : Task) :
    writtenUnits (o.runTask t).2.2 = [] := by
  have : written (o.runTask t).2.2 = [] :=
    List.eq_nil_iff_forall_not_mem.mpr fun f hf => (effect o t).not_wrote f (mem_written.mp hf)
  simp [writtenUnits, this]

theorem writtenUnits_initial (tr : List Event) (o : FramedOutbound) (w : Writer) :
    writtenUnits tr <+: unitLine tr o w := by
  rw [unitLine, pipeline, List.filter_append]
  exact List.prefix_append _ _

/-- Once the writer does not run, no loss needs announcing. -/
theorem runTask_stopped (hr : o.running = false) (t : Task) :
    ∀ g m l, l.announced = true → .lost g m l ∉ (o.runTask t).2.2 := by
  have hcleared (g m l) (hl : l.announced = true) : .lost g m l ∉ o.lostQueued .cleared := by
    intro h
    obtain ⟨rfl, -⟩ := mem_lostQueued.mp h
    cases hl
  have he := effect o t
  generalize (o.runTask t).1 = q, (o.runTask t).2.2 = es at he ⊢
  cases he with
  | keep _ hu => exact fun g m l _ => not_announced_unrelated hu g m l
  | began => simpa using hcleared
  | silenced _ hu =>
    intro g m l hl h
    rcases List.mem_append.mp h with h | h
    · exact hcleared g m l hl h
    · exact not_announced_unrelated hu g m l h
  | configured => simp
  | offered unit token ha => simp [accepts, hr] at ha
  | recovered hr' => simp [hr] at hr'

theorem running_runTask (o : FramedOutbound) (t : Task) (h : (o.runTask t).1.running = true) :
    o.running = true := by
  have he := effect o t
  generalize (o.runTask t).1 = p, (o.runTask t).2.2 = es at he h
  cases he with
  | keep hs => exact hs.running h
  | silenced hs => exact hs.running h
  | offered _ _ ha => exact (accepts_iff.mp ha).1
  | began | configured => exact h
  | recovered hr => exact hr

/-- The invariant while the writer thread lives, and what is left of it once it is gone. -/
structure Survives (tr : List Event) (o : FramedOutbound) (w : Writer) : Prop where
  written : Linked tr (writtenUnits tr)
  stopped : w = .stopped → o.running = false
  chained : w ≠ .stopped → Chained tr o (unitLine tr o w)

/-- A chain survives the writer that stops. -/
theorem Chained.survives (h : Chained tr o (unitLine tr o w))
    (hs : w = .stopped → o.running = false) :
    Survives tr o w :=
  ⟨h.linked.of_initial (writtenUnits_initial tr o w), hs, fun _ => h⟩

/-- The writer thread moves without losing a frame. -/
theorem Survives.writer (h : Survives tr o w) (hw : w ≠ .stopped) {c q : List Frame} {r : Bool}
    {n : ℕ} (ho : p = { o with controlQueue := c, videoQueue := q, running := r, wake := n })
    (hp : pipeline tr p v = pipeline tr o w) (hs : v = .stopped → p.running = false) :
    Survives tr p v := by
  have hc := (h.chained hw).same (o := o) (p := p) (e := []) (by rw [ho]) (by rw [ho]) (by rw [ho])
    (by rw [ho]) (by simp)
  rw [List.append_nil, unitLine, ← hp] at hc
  exact hc.survives hs

/-- So the chain holds in every run that anchors. -/
theorem survives (h : system.Under Anchored tr s) : Survives tr s.out s.writer := by
  refine Under.tasks ?_ ?_ ?_ ?_ ?_ ?_ ?_ ?_ h
  · intro c o ho
    unfold new at ho
    split at ho
    · simp only [Option.some.injEq] at ho
      subst ho
      refine Chained.survives ⟨?_, fun hv => absurd hv Bool.false_ne_true, by simp⟩
        fun hw => absurd hw (by decide)
      simp [Linked, unitLine, pipeline, queued, written, Writer.hand]
    · cases ho
  · exact fun tr o h => h.writer (by decide) rfl rfl fun hw => absurd hw (by decide)
  · intro tr o w v hw _ hns hv h
    exact h.writer hns rfl (by simp [pipeline, queued, hw, hv.1]) hv.2.2
  · intro tr o w n h
    by_cases hw : w = .stopped
    · exact ⟨h.written, h.stopped, fun h => absurd hw h⟩
    · exact h.writer hw rfl rfl h.stopped
  · intro tr s i t ts hr hok ht h
    have ho := ordered hr
    by_cases hw : s.writer = .stopped
    -- the writer has stopped: nothing is written, and nothing that was is called lost
    · have hrun := h.stopped hw
      refine ⟨?_, fun _ => ?_, fun hns => absurd hw hns⟩
      · rw [writtenUnits_append, writtenUnits_runTask, List.append_nil]
        exact h.written.append fun g m l hl hlost => absurd hlost (runTask_stopped hrun t g m l hl)
      · by_contra hrun'
        rw [running_runTask s.out t (by simpa using hrun')] at hrun
        cases hrun
    -- the section changes the queued end of the line only
    · have hc := h.chained hw
      rw [unitLine_eq ho] at hc
      refine Chained.survives ?_ fun h => absurd h hw
      rw [unitLine_runTask ho (sound_of_runs hr ht)]
      exact hc.effect (effect s.out t) (queued_ahead hr) fun unit token hto =>
        hok.not_orphan (hto ▸ ht)
  · intro tr o f hd h
    have hp := pipeline_take tr hd
    rcases dequeue_some hd with ⟨fs, -, hd⟩ | ⟨fs, -, -, hd⟩ <;> rw [hd] at hp ⊢
    · exact h.writer (by decide) rfl hp fun hw => absurd hw (by simp)
    · exact h.writer (by decide) rfl hp fun hw => absurd hw (by simp)
  · intro tr o f w hw h
    have hc := (h.chained (by simp)).same (p := o) (e := [.wrote f]) rfl rfl rfl rfl (by simp)
    rw [unitLine, ← pipeline_wrote hw.1] at hc
    exact hc.survives hw.2.2
  · intro tr o f es hes h
    have hlost (g m l) : .lost g m l ∉ es := fun h => by cases hes _ h
    have hnone : writtenUnits es = [] := by
      rw [writtenUnits, List.filter_eq_nil_iff]
      exact fun x hx => by cases hes _ (mem_written.mp hx)
    refine ⟨?_, fun _ => rfl, fun hw => absurd rfl hw⟩
    rw [writtenUnits_append, hnone, List.append_nil]
    exact h.written.append fun g m l _ hl => absurd hl (hlost g m l)

/-- The units written stand in the order in which they were offered. -/
theorem sorted_written (h : system.Under ok tr s) :
    (writtenUnits tr).Pairwise fun x y => x.token = y.token → x.serial < y.serial :=
  (sorted h).order.sublist (writtenUnits_initial tr s.out s.writer).sublist

/-- A P-frame that no gap precedes follows its predecessor. -/
theorem Linked.predecessor {a b : List Frame} {y : Frame} (h : Linked tr line)
    (hs : line.Pairwise fun x y => x.token = y.token → x.serial < y.serial)
    (hab : line = a ++ y :: b) (hk : y.header.flags.keyframe = false) :
    y.serial = 0 ∨ ∃ x ∈ a, x.token = y.token ∧ x.serial + 1 = y.serial := by
  refine or_iff_not_imp_left.mpr fun h0 => ?_
  by_contra hno
  have hgap : Gap a y.token (y.serial - 1) := by
    intro x hx hg
    rw [hab] at hs
    have hlt := (List.pairwise_append.mp hs).2.2 x hx y List.mem_cons_self hg
    have hne : x.serial + 1 ≠ y.serial := fun he => hno ⟨x, hx, hg, he⟩
    omega
  have := (h a y b hab (y.serial - 1) (by omega) hgap).1
  rw [hk] at this
  cases this

/-- **The chain.** In a run that queues no orphan, the wire carries a subsequence of the offered
units in which no unit refers to one that was skipped. -/
theorem unbroken_of_anchored (h : system.Under Anchored tr s) : Unbroken tr :=
  ⟨written_units h, (survives h).written, fun _ _ _ hab hk =>
    (survives h).written.predecessor (sorted_written h) hab hk⟩

/-- A keyframe of one byte. -/
def keyframe (n : UInt8) : AccessUnit := ⟨[n], 0, true, false⟩
/-- A dependent unit of one byte. -/
def pFrame (n : UInt8) : AccessUnit := ⟨[n], 0, false, false⟩

/-- Two units fill the queue, the third overflows it, the fourth is skipped, the fifth recovers. -/
def overflowed : List Label :=
  [Label.start, .ui [.beginCapture], .uiStep, .spawn (.sendVideoConfig 64 32 30 100000 1), .step 0,
    .spawn (.sendAccessUnit (keyframe 0) 1), .step 1,
    .spawn (.sendAccessUnit (pFrame 1) 1), .step 2,
    .spawn (.sendAccessUnit (pFrame 2) 1), .step 3, .spawn (.sendAccessUnit (pFrame 3) 1), .step 4,
    .spawn (.sendAccessUnit (keyframe 4) 1), .step 5] ++ List.replicate 3 Label.writerStep

/-- A queue that overflowed is anchored again at the next keyframe. -/
theorem unbroken_of_anchored_overflowed : Unbroken (system.trace fresh overflowed) :=
  unbroken_of_anchored
    (EventSystem.under_trace (M := system) overflowed start_fresh (by decide +kernel)
      (by decide +kernel))

/-- The keyframe comes before the `VIDEO_CONFIG` and is refused; the P-frame after it is sent. -/
def unconfiguredKeyframe : List Label :=
  [Label.start, .ui [.beginCapture], .uiStep, .spawn (.sendAccessUnit (keyframe 0) 1), .step 0,
    .spawn (.sendVideoConfig 64 32 30 100000 1)] ++ List.replicate 6 (Label.step 1) ++
    [Label.spawn (.sendAccessUnit (pFrame 1) 1), .step 2] ++ List.replicate 6 Label.writerStep

/-- That P-frame on the wire. -/
def orphanFrame : Frame :=
  { header := { type := .videoAu, sequence := 2 }, payload := .raw [1], token := 1, serial := 1 }

/-- It is written with no keyframe before it. -/
theorem orphan_on_the_wire : ∃ tr s, system.Reaches tr s ∧ ¬ Unbroken tr := by
  refine ⟨system.trace fresh unconfiguredKeyframe, _,
    EventSystem.reaches_trace unconfiguredKeyframe start_fresh (by decide +kernel), fun h => ?_⟩
  have hline :
      writtenUnits (system.trace fresh unconfiguredKeyframe) = [] ++ orphanFrame :: [] := by
    decide +kernel
  have hgap : Gap [] orphanFrame.token 0 := by simp [Gap]
  have hkey := (h.linked [] orphanFrame [] hline 0 (by decide) hgap).1
  cases hkey

end FramedOutbound
end MobileWebcamBridge
