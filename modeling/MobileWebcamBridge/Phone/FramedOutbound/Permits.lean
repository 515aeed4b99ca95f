import Mathlib.Data.List.Chain
import MobileWebcamBridge.Phone.FramedOutbound.Chain
import MobileWebcamBridge.Phone.FramedOutbound.Line

/-!
# Bounds and permits of the frame writer

The queues are bounded, and for every queued frame there is a permit: in the semaphore, owed by the
call that queued the frame, or in the hands of a writer between `acquire` and its block.
-/

set_option autoImplicit false

namespace MobileWebcamBridge
namespace FramedOutbound

open Wire VideoWire

variable {ok : List Event → Threads → Label → Prop} {tr es : List Event} {s s' : Threads}
variable {o : FramedOutbound} {t : Task} {p : List Task}

/-! ## The bounds -/

/-- The queues keep to their capacities. -/
structure Bounded (o : FramedOutbound) : Prop where
  capacity : 1 ≤ o.videoCapacity
  video : o.videoQueue.length ≤ o.videoCapacity
  control : o.controlQueue.length ≤ MAX_CONTROL_FRAMES

/-- Offering a unit stays within the capacity. -/
theorem offerUnit_bound (h : Bounded o) (unit : AccessUnit) (token : ℕ) :
    (o.offerUnit unit token).1.videoQueue.length ≤ o.videoCapacity ∧
      (o.offerUnit unit token).1.videoCapacity = o.videoCapacity := by
  have hcapacity := h.capacity
  have hvideo := h.video
  unfold offerUnit
  split
  · exact ⟨hvideo, rfl⟩
  dsimp only
  split
  · exact ⟨hvideo, rfl⟩
  split
  · exact ⟨hvideo, rfl⟩
  split
  · next hroom =>
    refine ⟨?_, rfl⟩
    simp only [queueUnit, List.length_append, List.length_singleton]
    exact hroom
  split
  · refine ⟨?_, rfl⟩
    simpa [queueUnit, makeRoom] using hcapacity
  · exact ⟨Nat.zero_le _, rfl⟩

theorem capacity_of_task (o : FramedOutbound) (t : Task) :
    (o.runTask t).1.videoCapacity = o.videoCapacity := by
  cases t with
  | fence key =>
    simp only [runTask, fenceOnce]
    split <;> rfl
  | setCodecConfig config token =>
    simp only [runTask, setCodecConfig]
    split <;> rfl
  | keepVideoConfig config token =>
    simp only [runTask, keepVideoConfig]
    by_cases ha : o.accepts token = true
    · simp only [ha, if_true]
    · simp only [ha, Bool.false_eq_true, if_false]
  | offerUnit unit token =>
    show (o.offerUnit unit token).1.videoCapacity = o.videoCapacity
    rcases offer_cases o unit token with hr | ⟨-, hr⟩
    · rw [hr]
    · generalize o.offerUnit unit token = r at hr ⊢
      cases hr <;> rfl
  | recover =>
    simp only [runTask]
    rcases recover_cases o with hr | ⟨-, -, hr⟩
    · rw [hr]
    · rw [hr]
      cases o.latestVideoConfig <;> rfl
  | enqueue f token =>
    simp only [runTask]
    rcases enqueueControl_cases o f token with hr | ⟨-, -, hr⟩ | ⟨-, -, -, hr⟩ <;> rw [hr]
  | _ => rfl

/-- Every section stays within it. -/
theorem Bounded.task (h : Bounded o) (t : Task) : Bounded (o.runTask t).1 where
  capacity := by
    rw [capacity_of_task]
    exact h.capacity
  video := by
    rw [capacity_of_task]
    rcases video_of_task o t with hv | hv | ⟨unit, token, rfl, -⟩
    · rw [hv]
      exact Nat.zero_le _
    · rw [hv]
      exact h.video
    · exact (offerUnit_bound h unit token).1
  control := by
    rcases control_of_task o t with ⟨keep, -, hc⟩ | ⟨f, token, rfl, -, -⟩ | ⟨-, hc⟩
    · rw [hc]
      exact Nat.le_trans (List.length_filter_le _ _) h.control
    · simp only [runTask]
      rcases enqueueControl_cases o f token with hr | ⟨-, -, hr⟩ | ⟨-, -, hroom, hr⟩
      · rw [hr]
        exact h.control
      · rw [hr]
        exact h.control
      · rw [hr]
        simp only [List.length_append, List.length_singleton]
        omega
    · rw [hc]
      exact Nat.zero_le _

/-- So the queues are bounded in every run. -/
theorem bounded (h : system.Under ok tr s) : Bounded s.out := by
  refine Under.tasks (P := fun _ o _ => Bounded o) ?_ ?_ ?_ ?_ ?_ ?_ ?_ ?_ h
  · intro c o ho
    unfold new at ho
    split at ho
    · next hc =>
      obtain rfl := Option.some.inj ho
      exact ⟨hc, Nat.zero_le _, Nat.zero_le _⟩
    · cases ho
  · exact fun _ _ h => ⟨h.capacity, h.video, h.control⟩
  · exact fun _ _ _ _ _ _ _ _ h => h
  · exact fun _ _ _ _ h => ⟨h.capacity, h.video, h.control⟩
  · exact fun _ _ _ t _ _ _ _ h => h.task t
  · intro tr o f hd h
    have hcontrol := h.control
    have hvideo := h.video
    rcases dequeue_some hd with ⟨fs, hc, hd⟩ | ⟨fs, -, hv, hd⟩
    · rw [hc, List.length_cons] at hcontrol
      rw [hd]
      exact ⟨h.capacity, hvideo, by dsimp only; omega⟩
    · rw [hv, List.length_cons] at hvideo
      rw [hd]
      exact ⟨h.capacity, by dsimp only; omega, hcontrol⟩
  · exact fun _ _ _ _ _ h => h
  · exact fun _ _ _ _ _ h => ⟨h.capacity, h.video, h.control⟩

/-! ## The permits -/

/-- The release a call owes for the frame it queued; the release of `close` is owed for none. -/
def owes : List Task → ℕ
  | .release :: .clear :: _ => 0
  | .release :: _ => 1
  | _ => 0

/-- The permits that all threads still owe. -/
def Threads.owed (s : Threads) : ℕ := owes s.ui + (s.others.map owes).sum

/-- The permit of a writer between `acquire` and its block. -/
def Writer.taken : Writer → ℕ
  | .take => 1
  | _ => 0

/-- `clear` is only ever the end of a `close`. -/
def Tidy (p : List Task) : Prop := p.IsChain fun t u => u = .clear → t = .release

theorem owes_of_ne {ts : List Task} (h : t ≠ .release) : owes (t :: ts) = 0 := by
  unfold owes
  split
  · next heq =>
    obtain ⟨rfl, -⟩ := List.cons.inj heq
    exact absurd rfl h
  · next heq =>
    obtain ⟨rfl, -⟩ := List.cons.inj heq
    exact absurd rfl h
  · rfl

theorem owes_release {ts : List Task} (h : ts.head? ≠ some .clear) : owes (.release :: ts) = 1 := by
  unfold owes
  split
  · next heq =>
    obtain ⟨-, rfl⟩ := List.cons.inj heq
    exact absurd rfl h
  · rfl
  · next _ hother => exact absurd rfl (hother ts)

theorem owes_le (p : List Task) : owes p ≤ 1 := by
  unfold owes
  split <;> omega

/-- What is queued, what is released and what is still owed, task by task. -/
theorem supply_of_task (o : FramedOutbound) (t : Task) :
    (t = .release ∧ (o.runTask t).1 = { o with wake := o.wake + 1 } ∧ (o.runTask t).2.1 = []) ∨
    (t ≠ .release ∧ (o.runTask t).2.1 = [.release] ∧ (o.runTask t).1.wake = o.wake ∧
      (o.runTask t).1.videoQueue = o.videoQueue ∧
      (o.runTask t).1.controlQueue.length = o.controlQueue.length + 1) ∨
    (t ≠ .release ∧
      (o.runTask t).1.controlQueue.length + (o.runTask t).1.videoQueue.length + o.wake ≤
        o.controlQueue.length + o.videoQueue.length + (o.runTask t).1.wake) := by
  -- the control queue only shrinks, except for one frame whose permit is still owed
  have hfilter (keep : Frame → Bool) :
      (o.controlQueue.filter keep).length ≤ o.controlQueue.length := List.length_filter_le _ _
  cases t with
  | release => exact .inl ⟨rfl, rfl, rfl⟩
  | beginCapture | stopVideo =>
    refine .inr (.inr ⟨by simp, ?_⟩)
    have := hfilter fun f => !f.isVideoConfig
    simp only [runTask, beginCapture, stopVideo, clearVideo, List.length_nil]
    omega
  | clear =>
    refine .inr (.inr ⟨by simp, ?_⟩)
    simp only [runTask, clearVideo, List.length_nil]
    omega
  | fence key =>
    refine .inr (.inr ⟨by simp, ?_⟩)
    have := hfilter fun f => !f.isVideoConfig
    simp only [runTask, fenceOnce]
    split
    · exact Nat.le_refl _
    · simp only [stopVideo, clearVideo, List.length_nil]
      omega
  | setCodecConfig config token =>
    refine .inr (.inr ⟨by simp, ?_⟩)
    simp only [runTask, setCodecConfig]
    split <;> exact Nat.le_refl _
  | keepVideoConfig config token =>
    refine .inr (.inr ⟨by simp, ?_⟩)
    simp only [runTask, keepVideoConfig]
    by_cases ha : o.accepts token = true
    · simp only [ha, if_true]
      exact Nat.le_refl _
    · simp only [ha, Bool.false_eq_true, if_false]
      exact Nat.le_refl _
  | offerUnit unit token =>
    refine .inr (.inr ⟨by simp, ?_⟩)
    simp only [runTask]
    rcases offer_cases o unit token with hr | ⟨-, hr⟩
    · rw [hr]
    generalize o.offerUnit unit token = r at hr ⊢
    cases hr with
    | queued =>
      simp only [queueUnit, List.length_append, List.length_singleton]
      omega
    | replaced =>
      simp only [queueUnit, makeRoom, List.length_append, List.length_singleton, List.length_nil]
      omega
    | overflowed =>
      simp only [makeRoom, List.length_nil]
      omega
    | unconfigured => exact Nat.le_refl _
    | skipped => exact Nat.le_refl _
  | recover =>
    refine .inr (.inr ⟨by simp, ?_⟩)
    simp only [runTask]
    rcases recover_cases o with hr | ⟨-, -, hr⟩
    · rw [hr]
    · rw [hr]
      cases o.latestVideoConfig <;> simp
  | enqueue f token =>
    simp only [runTask]
    rcases enqueueControl_cases o f token with hr | ⟨-, -, hr⟩ | ⟨-, -, -, hr⟩
    · rw [hr]
      exact .inr (.inr ⟨by simp, Nat.le_refl _⟩)
    · rw [hr]
      exact .inr (.inr ⟨by simp, Nat.le_refl _⟩)
    · rw [hr]
      exact .inr (.inl ⟨by simp, rfl, rfl, rfl, by simp⟩)
  | _ => exact .inr (.inr ⟨by simp, Nat.le_refl _⟩)

theorem tidy_call (call : Call) : Tidy call.tasks := by
  cases call <;> simp only [Call.tasks, sendControl] <;> (try split) <;> simp [Tidy]

theorem tidy_calls (calls : List Call) : Tidy (calls.flatMap Call.tasks) := by
  induction calls with
  | nil => exact List.isChain_nil
  | cons call rest ih =>
    rw [List.flatMap_cons]
    refine List.isChain_append.mpr ⟨tidy_call call, ih, fun t _ u hu hclear => ?_⟩
    -- no call begins with its `clear`
    exfalso
    rw [hclear] at hu
    clear ih hclear
    induction rest with
    | nil => cases hu
    | cons call rest ih =>
      rw [List.flatMap_cons] at hu
      revert hu
      cases call <;> simp only [Call.tasks, sendControl] <;> (try split) <;> simp <;> exact ih

theorem Tidy.resume {ts : List Task} (h : Tidy (t :: ts)) (o : FramedOutbound) :
    Tidy ((o.runTask t).2.1 ++ ts) := by
  have hts : Tidy ts := List.IsChain.of_cons h
  have hmore : Tidy (o.runTask t).2.1 := by
    cases t <;> simp only [runTask] <;> (try split) <;> simp [Tidy, enqueueVideoConfig]
  refine List.isChain_append.mpr ⟨hmore, hts, fun u hu v hv hclear => ?_⟩
  have hhead : t = .release := (List.isChain_cons.mp h).1 v hv hclear
  rw [hhead] at hu
  cases hu

/-- A task of a program keeps the permits up with the queues. -/
theorem owes_task {ts : List Task} (h : Tidy (t :: ts)) (o : FramedOutbound) :
    (o.runTask t).1.controlQueue.length + (o.runTask t).1.videoQueue.length +
        (o.wake + owes (t :: ts)) ≤
      o.controlQueue.length + o.videoQueue.length +
        ((o.runTask t).1.wake + owes ((o.runTask t).2.1 ++ ts)) := by
  rcases supply_of_task o t with ⟨rfl, hout, hmore⟩ | ⟨hne, hmore, hwake, hv, hc⟩ | ⟨hne, hle⟩
  · rw [hout, hmore]
    have := owes_le (.release :: ts)
    dsimp only
    omega
  · have hhead : ts.head? ≠ some .clear := fun hclear =>
      hne ((List.isChain_cons.mp h).1 .clear hclear rfl)
    have hone : owes ([Task.release] ++ ts) = 1 := owes_release hhead
    rw [hmore, hwake, hv, hc, hone, owes_of_ne hne]
    omega
  · rw [owes_of_ne hne]
    omega

theorem sum_owes_set {others : List (List Task)} {q : List Task} (q' : List Task) : ∀ {j : ℕ},
    others[j]? = some q →
    ((others.set j q').map owes).sum + owes q = (others.map owes).sum + owes q' := by
  induction others with
  | nil =>
    intro j h
    cases h
  | cons p others ih =>
    intro j h
    cases j with
    | zero =>
      obtain rfl := Option.some.inj h
      simp only [List.set_cons_zero, List.map_cons, List.sum_cons]
      omega
    | succ j =>
      have := ih (j := j) h
      simp only [List.set_cons_succ, List.map_cons, List.sum_cons]
      omega

/-- Every queued frame has its permit, given or owed. -/
structure Supplied (s : Threads) : Prop where
  ui : Tidy s.ui
  others : ∀ q ∈ s.others, Tidy q
  enough : s.writer ≠ .stopped →
    s.out.controlQueue.length + s.out.videoQueue.length ≤ s.out.wake + s.owed + s.writer.taken

theorem owes_call (call : Call) : owes call.tasks = 0 := by
  cases call <;> simp only [Call.tasks, sendControl] <;> (try split) <;> rfl

theorem owes_calls (calls : List Call) : owes (calls.flatMap Call.tasks) = 0 := by
  induction calls with
  | nil => rfl
  | cons call rest ih =>
    rw [List.flatMap_cons]
    cases call <;> simp only [Call.tasks, sendControl] <;> (try split) <;> first | rfl | exact ih

theorem Supplied.writer (h : Supplied s) (hui : s'.ui = s.ui) (hothers : s'.others = s.others)
    (henough : s'.writer ≠ .stopped → s'.out.controlQueue.length + s'.out.videoQueue.length ≤
      s'.out.wake + s.owed + s'.writer.taken) : Supplied s' := by
  have howed : s'.owed = s.owed := by rw [Threads.owed, Threads.owed, hui, hothers]
  refine ⟨hui ▸ h.ui, hothers ▸ h.others, fun hw => ?_⟩
  rw [howed]
  exact henough hw

theorem taken_loopTest (o : FramedOutbound) : (loopTest o).taken = 0 := by
  unfold loopTest
  split <;> rfl

/-- A step keeps a permit for every frame queued. -/
theorem Supplied.step {l : Label} (h : Supplied s) (hs : step s l = some (s', es)) :
    Supplied s' := by
  cases moved_of_step hs with
  | start hw =>
    refine h.writer rfl rfl fun _ => ?_
    have := h.enough (by rw [hw]; nofun)
    rwa [hw] at this
  | ui calls hui =>
    refine ⟨tidy_calls calls, h.others, fun hw => ?_⟩
    have := h.enough hw
    simp only [Threads.owed, hui] at this
    simp only [Threads.owed, owes_calls]
    exact this
  | spawn call _ =>
    refine ⟨h.ui, fun q hq => ?_, fun hw => ?_⟩
    · rcases List.mem_append.mp hq with hq | hq
      · exact h.others q hq
      · rw [List.mem_singleton.mp hq]
        exact tidy_call call
    · have := h.enough hw
      simpa [Threads.owed, owes_call] using this
  | @task _ t ts hruns =>
    cases hruns with
    | ui hq =>
      have htidy : Tidy (t :: ts) := hq ▸ h.ui
      refine ⟨htidy.resume s.out, h.others, fun hw => ?_⟩
      have henough := h.enough hw
      have htask := owes_task htidy s.out
      simp only [Threads.owed, resume, hq] at henough ⊢
      omega
    | @other j _ _ hj =>
      have htidy : Tidy (t :: ts) := h.others _ (List.mem_of_getElem? hj)
      refine ⟨h.ui, fun q hq => ?_, fun hw => ?_⟩
      · rcases List.mem_or_eq_of_mem_set hq with hq | rfl
        · exact h.others q hq
        · exact htidy.resume s.out
      · have henough := h.enough hw
        have htask := owes_task htidy s.out
        have hsum := sum_owes_set ((s.out.runTask t).2.1 ++ ts) hj
        simp only [Threads.owed, resume] at henough ⊢
        omega
  | acquire hw hk =>
    refine h.writer rfl rfl fun hstopped => ?_
    have henough := h.enough (by rw [hw]; nofun)
    rw [hw] at henough
    by_cases hr : s.out.running = true
    · simp only [hr, if_true, Writer.taken] at henough ⊢
      omega
    · simp [hr] at hstopped
  | take f hw hd =>
    refine h.writer rfl rfl fun _ => ?_
    have henough := h.enough (by rw [hw]; nofun)
    rw [hw] at henough
    rcases dequeue_some hd with ⟨fs, hc, hd⟩ | ⟨fs, -, hv, hd⟩
    · rw [hc, List.length_cons] at henough
      rw [hd]
      simp only [Writer.taken] at henough ⊢
      omega
    · rw [hv, List.length_cons] at henough
      rw [hd]
      simp only [Writer.taken] at henough ⊢
      omega
  | idle hw hd =>
    refine h.writer rfl rfl fun _ => ?_
    -- a block that finds both queues empty has no frame to owe a permit for
    have hempty : s.out.controlQueue = [] ∧ s.out.videoQueue = [] := by
      unfold dequeue at hd
      split at hd
      · cases hd
      · cases hd
      · next hc hv => exact ⟨hc, hv⟩
    rw [hempty.1, hempty.2]
    exact Nat.zero_le _
  | write f hw =>
    refine h.writer rfl rfl fun _ => ?_
    have henough := h.enough (by rw [hw]; nofun)
    rw [hw] at henough
    rwa [taken_loopTest]
  | throws f hw => exact h.writer rfl rfl fun hstopped => absurd rfl hstopped

/-- So there is one in every run. -/
theorem supplied (h : system.Under ok tr s) : Supplied s := by
  refine h.invariant (P := fun _ s => Supplied s) ?_ ?_
  · rintro s ⟨c, o, ho, rfl⟩
    unfold new at ho
    split at ho
    · obtain rfl := Option.some.inj ho
      exact ⟨List.isChain_nil, nofun, fun _ => Nat.zero_le _⟩
    · cases ho
  · exact fun _ _ _ _ _ _ _ ih hs => ih.step hs

/-- A sleeping writer with something to write is about to be woken. -/
theorem Supplied.awake (h : Supplied s) (hw : s.writer = .acquire)
    (hqueued : s.out.controlQueue ≠ [] ∨ s.out.videoQueue ≠ []) :
    s.out.wake ≠ 0 ∨ ∃ i, s.task? i = some .release := by
  have henough := h.enough (by rw [hw]; nofun)
  rw [hw] at henough
  have hlen : 0 < s.out.controlQueue.length + s.out.videoQueue.length := by
    rcases hqueued with hc | hv
    · have := List.length_pos_of_ne_nil hc
      omega
    · have := List.length_pos_of_ne_nil hv
      omega
  have hhead {q : List Task} (hq : owes q ≠ 0) : q.head? = some .release := by
    cases q with
    | nil => exact absurd rfl hq
    | cons t ts =>
      by_cases ht : t = .release
      · rw [ht]
        rfl
      · exact absurd (owes_of_ne ht) hq
  by_cases hwake : s.out.wake = 0
  swap
  · exact .inl hwake
  refine .inr ?_
  simp only [Writer.taken, Threads.owed] at henough
  by_cases hui : owes s.ui = 0
  · have hsum : (s.others.map owes).sum ≠ 0 := by omega
    obtain ⟨q, hq, hne⟩ : ∃ q ∈ s.others, owes q ≠ 0 := by
      by_contra hnone
      apply hsum
      rw [List.sum_eq_zero_iff_forall_eq_nat]
      intro k hk
      obtain ⟨q, hq, rfl⟩ := List.mem_map.mp hk
      by_contra hne
      exact hnone ⟨q, hq, hne⟩
    obtain ⟨j, hj⟩ := List.getElem?_of_mem hq
    exact ⟨.step j, by simp [Threads.task?, hj, hhead hne]⟩
  · exact ⟨.uiStep, hhead hui⟩

end FramedOutbound
end MobileWebcamBridge
