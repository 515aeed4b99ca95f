import Mathlib.Tactic.Common
import Mathlib.Tactic.Ring
import Mathlib.Data.List.Basic

/-!
# Systems that step and emit events

A machine is driven one label at a time: a label names which party moves and what its
environment hands it. A step is disabled (`none`) or yields the next state together with the
events it emits, so the history of a run is the run's own output and never a field of the
state.

Two things live here:

* `EventSystem.Under`, the states reached by runs whose every step meets a side condition,
  with its one induction rule `Under.invariant`;
* `EventSystem.exec`, the same runs computed from a list of labels, which is how a concrete
  schedule is evaluated.
-/

universe u v w

/-- A machine with states `σ`, labels `ι` and emitted events `ε`. -/
structure EventSystem (σ : Type u) (ι : Type v) (ε : Type w) where
  start : σ → Prop
  step : σ → ι → Option (σ × List ε)

namespace EventSystem

variable {σ : Type u} {ι : Type v} {ε : Type w} {M : EventSystem σ ι ε}
variable {ok ok' : List ε → σ → ι → Prop}

/-- `M.Under ok tr s`: a run whose every step meets `ok` (a condition on the history, the
state before the step and the label) emits `tr` and ends in `s`. -/
inductive Under (M : EventSystem σ ι ε) (ok : List ε → σ → ι → Prop) : List ε → σ → Prop
  | start {s : σ} : M.start s → Under M ok [] s
  | step {tr : List ε} {s s' : σ} {i : ι} {es : List ε} :
      Under M ok tr s → ok tr s i → M.step s i = some (s', es) → Under M ok (tr ++ es) s'

/-- No side condition. -/
def always : List ε → σ → ι → Prop := fun _ _ _ => True

/-- `M.Reaches tr s`: some run emits `tr` and ends in `s`. -/
abbrev Reaches (M : EventSystem σ ι ε) : List ε → σ → Prop := M.Under always

/-- A weaker condition. -/
theorem Under.mono (h : ∀ tr s i, ok tr s i → ok' tr s i) {tr : List ε} {s : σ}
    (hr : M.Under ok tr s) : M.Under ok' tr s := by
  induction hr with
  | start h0 => exact .start h0
  | step _ hok hs ih => exact .step ih (h _ _ _ hok) hs

/-- A condition may be exchanged for one that holds wherever such a run gets to. -/
theorem Under.exchange (h : ∀ tr s i, M.Under ok tr s → ok tr s i → ok' tr s i) {tr : List ε}
    {s : σ} (hr : M.Under ok tr s) : M.Under ok' tr s := by
  induction hr with
  | start h0 => exact .start h0
  | step hr hok hs ih => exact .step ih (h _ _ _ hr hok) hs

/-- A run under a side condition is a run. -/
theorem Under.reaches {tr : List ε} {s : σ} (hr : M.Under ok tr s) : M.Reaches tr s :=
  hr.mono fun _ _ _ _ => trivial

/-- **The invariant rule.** What the start states satisfy and every permitted step preserves
holds wherever such a run gets to. -/
theorem Under.invariant {P : List ε → σ → Prop} (h0 : ∀ s, M.start s → P [] s)
    (hstep : ∀ tr s i s' es, M.Under ok tr s → ok tr s i → P tr s →
      M.step s i = some (s', es) → P (tr ++ es) s')
    {tr : List ε} {s : σ} (hr : M.Under ok tr s) : P tr s := by
  induction hr with
  | start h => exact h0 _ h
  | step hr hok hs ih => exact hstep _ _ _ _ _ hr hok ih hs

/-! ## Schedules -/

/-- Runs a schedule, collecting what it emits; `none` as soon as a step is disabled. -/
def exec (M : EventSystem σ ι ε) : σ → List ι → Option (σ × List ε)
  | s, [] => some (s, [])
  | s, i :: is =>
    match M.step s i with
    | none => none
    | some (s', es) =>
      match M.exec s' is with
      | none => none
      | some (t, fs) => some (t, es ++ fs)

/-- A run from its first step. -/
theorem exec_cons {s s' t : σ} {i : ι} {is : List ι} {es fs : List ε}
    (hstep : M.step s i = some (s', es)) (hrest : M.exec s' is = some (t, fs)) :
    M.exec s (i :: is) = some (t, es ++ fs) := by
  simp only [exec, hstep, hrest]

/-- One schedule after another. -/
theorem exec_append {s s' t : σ} {is js : List ι} {es fs : List ε} (h : M.exec s is = some (s', es))
    (h' : M.exec s' js = some (t, fs)) : M.exec s (is ++ js) = some (t, es ++ fs) := by
  induction is generalizing s es with
  | nil =>
    obtain ⟨rfl, rfl⟩ := Prod.mk.inj (Option.some.inj h)
    exact h'
  | cons i is ih =>
    simp only [exec] at h
    split at h
    · cases h
    split at h
    · cases h
    · next hstep _ _ _ hrest =>
      obtain ⟨rfl, rfl⟩ := Prod.mk.inj (Option.some.inj h)
      rw [List.append_assoc]
      exact exec_cons hstep (ih hrest)

/-- Whether every step of a schedule meets a side condition. -/
def meets (M : EventSystem σ ι ε) (ok : List ε → σ → ι → Prop)
    [∀ tr s i, Decidable (ok tr s i)] : List ε → σ → List ι → Bool
  | _, _, [] => true
  | tr, s, i :: is =>
    match M.step s i with
    | none => false
    | some (s', es) => decide (ok tr s i) && M.meets ok (tr ++ es) s' is

/-- Going on with a run whose steps meet the condition. -/
theorem Under.exec [∀ tr s i, Decidable (ok tr s i)] {is : List ι} :
    ∀ {tr : List ε} {s t : σ} {es : List ε}, M.Under ok tr s → M.meets ok tr s is = true →
      M.exec s is = some (t, es) → M.Under ok (tr ++ es) t := by
  induction is with
  | nil =>
    intro tr s t es hr _ he
    simp only [EventSystem.exec, Option.some.injEq, Prod.mk.injEq] at he
    obtain ⟨rfl, rfl⟩ := he
    simpa using hr
  | cons i is ih =>
    intro tr s t es hr hm he
    simp only [EventSystem.exec] at he
    simp only [meets] at hm
    cases hs : M.step s i with
    | none => simp [hs] at he
    | some p =>
      obtain ⟨s', es'⟩ := p
      simp only [hs, Bool.and_eq_true, decide_eq_true_eq] at he hm
      cases he' : M.exec s' is with
      | none => simp [he'] at he
      | some q =>
        obtain ⟨t', fs⟩ := q
        simp only [he', Option.some.injEq, Prod.mk.injEq] at he
        obtain ⟨rfl, rfl⟩ := he
        rw [← List.append_assoc]
        exact ih (.step hr hm.1 hs) hm.2 he'

/-- What every step of a schedule preserves, the schedule preserves. -/
theorem exec_preserves {P : σ → Prop} {is : List ι}
    (hstep : ∀ s i s' es, i ∈ is → P s → M.step s i = some (s', es) → P s') :
    ∀ {s t : σ} {es : List ε}, P s → M.exec s is = some (t, es) → P t := by
  induction is with
  | nil =>
    intro s t es hp he
    simp only [exec, Option.some.injEq, Prod.mk.injEq] at he
    exact he.1 ▸ hp
  | cons i is ih =>
    intro s t es hp he
    simp only [exec] at he
    cases hs : M.step s i with
    | none => simp [hs] at he
    | some p =>
      simp only [hs] at he
      cases he' : M.exec p.1 is with
      | none => simp [he'] at he
      | some q =>
        simp only [he', Option.some.injEq, Prod.mk.injEq] at he
        rw [← he.1]
        have hp' := hstep s i p.1 p.2 List.mem_cons_self hp hs
        exact ih (fun s j s' es hj => hstep s j s' es (List.mem_cons_of_mem _ hj)) hp' he'

instance (tr : List ε) (s : σ) (i : ι) : Decidable (always tr s i) := .isTrue trivial

/-- Every run meets no condition. -/
theorem meets_always {is : List ι} : ∀ {tr : List ε} {s : σ}, (M.exec s is).isSome →
    M.meets always tr s is = true := by
  induction is with
  | nil => intros; rfl
  | cons i is ih =>
    intro tr s h
    simp only [EventSystem.exec] at h
    simp only [meets]
    cases hs : M.step s i with
    | none => simp [hs] at h
    | some p =>
      simp only [hs] at h ⊢
      cases he : M.exec p.1 is with
      | none => simp [he] at h
      | some q =>
        rw [Bool.and_eq_true]
        exact ⟨decide_eq_true trivial, ih (by simp [he])⟩

/-- A schedule that runs from a start state is a run. -/
theorem reaches_of_exec {s t : σ} {is : List ι} {es : List ε} (h0 : M.start s)
    (he : M.exec s is = some (t, es)) : M.Reaches es t := by
  simpa using (Under.start h0).exec (meets_always (by simp [he])) he

/-- The state a schedule ends in, if it runs. -/
def final (M : EventSystem σ ι ε) (s : σ) (is : List ι) : σ := (M.exec s is).elim s Prod.fst

/-- What a schedule emits, if it runs. -/
def trace (M : EventSystem σ ι ε) (s : σ) (is : List ι) : List ε := (M.exec s is).elim [] Prod.snd

/-- What a script reaches. -/
theorem reaches_trace (is : List ι) {s : σ} (h0 : M.start s) (h : (M.exec s is).isSome) :
    M.Reaches (M.trace s is) (M.final s is) := by
  obtain ⟨⟨t, es⟩, he⟩ := Option.isSome_iff_exists.mp h
  simp only [trace, final, he]
  exact reaches_of_exec h0 he

/-- What a script reaches, when its steps meet the condition. -/
theorem under_trace [∀ tr s i, Decidable (ok tr s i)] (is : List ι) {s : σ} (h0 : M.start s)
    (h : (M.exec s is).isSome) (hok : M.meets ok [] s is = true) :
    M.Under ok (M.trace s is) (M.final s is) := by
  obtain ⟨⟨t, es⟩, he⟩ := Option.isSome_iff_exists.mp h
  simp only [trace, final, he]
  simpa using (Under.start h0).exec hok he

end EventSystem
