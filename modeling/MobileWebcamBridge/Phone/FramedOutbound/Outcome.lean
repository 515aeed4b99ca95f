import MobileWebcamBridge.Phone.FramedOutbound.Conservation
import MobileWebcamBridge.Phone.FramedOutbound.Line

/-!
# The outcome on its way to the line

What a sealed writer carries is counted: authorization frames queued, and those that a thread is
about to queue. While fewer than the queue holds are carried no frame finds it full, so the thread
that `Bears` the outcome that authorizes brings it to the line, or finds the writer halted.
-/

set_option autoImplicit false

namespace MobileWebcamBridge
namespace FramedOutbound

open Wire VideoWire

variable {tr es : List Event} {s s' : Threads} {l : Label} {t : Task}

/-- Authorization frames in the queue, and those on their way to it. -/
def Threads.carried (s : Threads) : ℕ :=
  s.out.controlQueue.length + (s.others.map fun p => p.countP Task.authorization).sum

/-- A task that brings the outcome that authorizes to the queue. -/
def Task.authorizes : Task → Bool
  | .number f none | .guard f none | .enqueue f none => f.authorizes
  | _ => false

/-- All that the thread still has to do is to queue the outcome that authorizes. -/
def Bears (s : Threads) (i : ℕ) : Prop := ∃ t, s.others[i]? = some [t] ∧ t.authorizes = true

theorem sum_map_set {α : Type} (f : α → ℕ) {xs : List α} {x : α} (y : α) : ∀ {j : ℕ},
    xs[j]? = some x → ((xs.set j y).map f).sum + f x = (xs.map f).sum + f y := by
  induction xs with
  | nil =>
    intro j h
    cases h
  | cons z xs ih =>
    intro j h
    cases j with
    | zero =>
      obtain rfl := Option.some.inj h
      simp only [List.set_cons_zero, List.map_cons, List.sum_cons]
      omega
    | succ j =>
      have := ih (j := j) h
      simp only [List.set_cons_succ, List.map_cons, List.sum_cons]
      omega

/-- Running a task of a sealed writer queues at most the frame the task was for. -/
theorem carried_task (o : FramedOutbound) (ht : t.releases = false)
    (hroom : o.controlQueue.length < MAX_CONTROL_FRAMES) :
    (o.runTask t).1.controlQueue.length + (o.runTask t).2.1.countP Task.authorization ≤
      o.controlQueue.length + (if t.authorization then 1 else 0) := by
  cases t with
  | number f token =>
    simp [runTask, Task.authorization, Frame.isAuthorization]
  | guard f token =>
    simp only [runTask]
    split
    · simp
    · simp only [List.countP_cons, List.countP_nil, Nat.zero_add]
      exact Nat.le_refl _
  | enqueue f token =>
    simp only [Task.releases, Bool.or_eq_false_iff, Bool.not_eq_false'] at ht
    simp only [runTask, Task.authorization, ht.1, if_true]
    rcases enqueueControl_cases o f token with h | ⟨-, hfull, -⟩ | ⟨-, -, -, h⟩
    · rw [h]
      simp
    · omega
    · rw [h]
      simp [Task.authorization]
  | stopVideo =>
    simp only [runTask, List.countP_nil, Nat.add_zero]
    have := List.length_filter_le (fun f : Frame => !f.isVideoConfig) o.controlQueue
    exact Nat.le_add_right_of_le this
  | clear => simp [runTask]
  | release | needIdr | halt => simp [runTask]
  | _ => cases ht

/-- A sealed writer carries no more after a step in which no call is entered. -/
theorem Sealed.carried_le (h : Sealed tr s) (hroom : s.out.controlQueue.length < MAX_CONTROL_FRAMES)
    (hspawn : ∀ call, l ≠ .spawn call) (hs : FramedOutbound.step s l = some (s', es)) :
    s'.carried ≤ s.carried := by
  unfold Threads.carried
  cases moved_of_step hs with
  | start | ui | idle | write | throws | acquire => exact Nat.le_refl _
  | spawn call => exact absurd rfl (hspawn call)
  | @task _ t ts hruns =>
    cases hruns with
    | ui hq =>
      rw [h.ui] at hq
      cases hq
    | @other j _ ts hj =>
      have ht := h.others _ (List.mem_of_getElem? hj) t List.mem_cons_self
      have htask := carried_task s.out ht hroom
      have hsum :=
        sum_map_set (fun p => p.countP Task.authorization) ((s.out.runTask t).2.1 ++ ts) hj
      simp only [resume, List.countP_append, List.countP_cons] at hsum ⊢
      omega
  | take f hw hd =>
    rcases dequeue_some hd with ⟨fs, hc, hout⟩ | ⟨fs, -, -, hout⟩ <;> rw [hout]
    · rw [hc, List.length_cons]
      exact Nat.add_le_add_right (Nat.le_succ _) _

theorem carried_spawn {call : Call} (hs : step s (.spawn call) = some (s', es)) :
    s'.carried = s.carried + call.tasks.countP Task.authorization := by
  cases moved_of_step hs with
  | spawn call _ =>
    simp only [Threads.carried, List.map_append, List.sum_append, List.map_cons, List.map_nil,
      List.sum_cons, List.sum_nil]
    omega
  | task hruns => cases hruns

theorem started_step (hw : s.writer ≠ .unstarted) (hs : step s l = some (s', es)) :
    s'.writer ≠ .unstarted := fun h => hw ((moved_of_step hs).unstarted h).1

/-- The thread that bears the outcome goes on bearing it, until it is on the line. -/
theorem Bears.step {i : ℕ} (h : Bears s i) (hsealed : Sealed tr s)
    (hroom : s.out.controlQueue.length < MAX_CONTROL_FRAMES) (hstarted : s.writer ≠ .unstarted)
    (hhalted : s.writer = .stopped → s.out.running = false)
    (hs : FramedOutbound.step s l = some (s', es)) :
    Bears s' i ∨ Ready (tr ++ es) s' := by
  obtain ⟨t, hi, ht⟩ := h
  cases moved_of_step hs with
  | start | ui | idle | write | throws | acquire | take => exact .inl ⟨t, hi, ht⟩
  | spawn call =>
    refine .inl ⟨t, ?_, ht⟩
    rw [List.getElem?_append_left (List.getElem?_eq_some_iff.mp hi).1]
    exact hi
  | @task _ u ts hruns =>
    cases hruns with
    | ui hq =>
      rw [hsealed.ui] at hq
      cases hq
    | @other j _ ts hj =>
      by_cases hij : j = i
      · subst hij
        rw [hi, Option.some.injEq, List.cons.injEq] at hj
        obtain ⟨rfl, rfl⟩ := hj
        have hlt := (List.getElem?_eq_some_iff.mp hi).1
        have hat (p : List Task) : (s.others.set j p)[j]? = some p := by
          rw [List.getElem?_set_self hlt]
        -- a halted writer's line is over
        have hhalt (hr : s.out.running = false) :
            Ready (tr ++ (s.out.runTask t).2.2)
              (resume s (s.out.runTask t).1 ((s.out.runTask t).2.1 ++ []) (.step j)) := by
          refine .inr ⟨?_, ?_⟩
          · rw [resume_out, running_of_task, hr, ite_self]
          · rw [resume_writer]
            exact hstarted
        cases t with
        | number f token =>
          cases token with
          | none => exact .inl ⟨_, hat _, ht⟩
          | some token => cases ht
        | guard f token =>
          cases token with
          | some token => cases ht
          | none =>
            by_cases hr : s.out.running = true
            · refine .inl ⟨.enqueue f none, ?_, ht⟩
              simp only [resume, runTask, hr, hsealed.steady, Bool.not_true, Bool.or_false,
                Bool.false_eq_true, if_false]
              exact hat _
            · exact .inr (hhalt (by simpa using hr))
        | enqueue f token =>
          cases token with
          | some token => cases ht
          | none =>
            by_cases hr : s.out.running = true
            · have hq : s.out.enqueueControl f none =
                  ({ s.out with
                    controlQueue := s.out.controlQueue ++ [{ f with token := s.out.generation }] },
                    .admitted) := by
                unfold enqueueControl
                rw [if_neg (by simp [hr]), if_neg (by omega)]
                rfl
              have hne : s.writer ≠ .stopped := by
                intro hstopped
                rw [hhalted hstopped] at hr
                cases hr
              refine .inr (.inl ⟨{ f with token := s.out.generation }, ?_, ht⟩)
              rw [line, coming_of_ne (by rwa [resume_writer])]
              simp [runTask, hq]
            · exact .inr (hhalt (by simpa using hr))
        | _ => cases ht
      · refine .inl ⟨t, ?_, ht⟩
        simp only [resume]
        rw [List.getElem?_set_ne hij]
        exact hi

end FramedOutbound
end MobileWebcamBridge
