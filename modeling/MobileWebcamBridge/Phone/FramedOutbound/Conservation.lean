import Mathlib.Data.List.Nodup
import MobileWebcamBridge.Phone.FramedOutbound.Permits

/-!
# What the frame writer conserves

A picture unit that was taken in is in one place: written, held, queued or counted as dropped, or it
is the frame whose write threw. Control frames are written in the order they were admitted, and none
is skipped unless `start()` comes between the two blocks of a `close()`.
-/

set_option autoImplicit false

namespace MobileWebcamBridge
namespace FramedOutbound

open Wire VideoWire

variable {ok : List Event → Threads → Label → Prop} {tr es : List Event} {s s' : Threads}
variable {o p : FramedOutbound} {t : Task} {g n : ℕ}

/-! ## The places of a unit -/

/-- The access unit that was offered to generation `g` in position `n`. -/
def Frame.isUnit (g n : ℕ) (f : Frame) : Bool :=
  f.isAccessUnit && f.token == g && f.serial == n

/-- The unit is offered. -/
def Event.offers (g n : ℕ) : Event → Bool
  | .offered g' n' _ => g' == g && n' == n
  | _ => false

/-- The unit is dropped. -/
def Event.loses (g n : ℕ) : Event → Bool
  | .lost g' n' _ => g' == g && n' == n
  | _ => false

/-- A loss that is counted; the source does not count a unit it refuses for want of a config. -/
def Event.drops : Event → Bool
  | .lost _ _ loss => loss != .unconfigured
  | _ => false

/-- How often the unit is written, in the writer's hand, queued or counted as dropped. -/
def places (tr : List Event) (s : Threads) (g n : ℕ) : ℕ :=
  (written tr).countP (Frame.isUnit g n) + s.writer.hand.countP (Frame.isUnit g n) +
    s.out.videoQueue.countP (Frame.isUnit g n) + tr.countP fun e => e.drops && e.loses g n

/-- Giving up the queue loses each unit in it once. -/
theorem countP_lostQueued (hv : ∀ f ∈ o.videoQueue, f.isAccessUnit = true) (loss : Loss) (g n : ℕ) :
    (o.lostQueued loss).countP (Event.loses g n) = o.videoQueue.countP (Frame.isUnit g n) := by
  rw [lostQueued, List.countP_map]
  apply List.countP_congr
  intro f hf
  simp [Event.loses, Frame.isUnit, hv f hf]

theorem countP_lostQueued_offers (o : FramedOutbound) (loss : Loss) (g n : ℕ) :
    (o.lostQueued loss).countP (Event.offers g n) = 0 := by
  rw [List.countP_eq_zero]
  intro e he
  obtain ⟨f, -, rfl⟩ := List.mem_map.mp he
  exact Bool.false_ne_true

/-- And counts each as a drop, unless the config is missing. -/
theorem countP_lostQueued_drops (o : FramedOutbound) (loss : Loss) (h : loss ≠ .unconfigured) :
    (o.lostQueued loss).countP Event.drops = o.videoQueue.length := by
  have hlength : (o.lostQueued loss).length = o.videoQueue.length := List.length_map _
  rw [← hlength, List.countP_eq_length]
  intro e he
  obtain ⟨f, -, rfl⟩ := List.mem_map.mp he
  simpa [Event.drops] using h

theorem Unrelated.countP (h : Unrelated es) {q : Event → Bool}
    (hq : ∀ e : Event, e.aboutUnits = false → q e = false) : es.countP q = 0 := by
  rw [List.countP_eq_zero]
  intro e he
  rw [hq e (h e he)]
  exact Bool.false_ne_true

theorem offers_of_unrelated {e : Event} (h : e.aboutUnits = false) : e.offers g n = false := by
  cases e <;> first | rfl | cases h

theorem loses_of_unrelated {e : Event} (h : e.aboutUnits = false) : e.loses g n = false := by
  cases e <;> first | rfl | cases h

/-- A task takes a unit in and puts it in the queue, or lets it go, or moves it out of the queue. -/
theorem Effect.balance (h : Effect o t p es) (hv : ∀ f ∈ o.videoQueue, f.isAccessUnit = true)
    (g n : ℕ) :
    p.videoQueue.countP (Frame.isUnit g n) + es.countP (Event.loses g n) =
      o.videoQueue.countP (Frame.isUnit g n) + es.countP (Event.offers g n) := by
  have hlost (loss : Loss) := countP_lostQueued hv loss g n
  have hoffers (loss : Loss) := countP_lostQueued_offers o loss g n
  -- a unit that is queued, or lost on its way in, is counted once on both sides
  have hframe (p : FramedOutbound) (unit : AccessUnit) (k : ℕ) :
      [p.unitFrame unit p.generation k].countP (Frame.isUnit g n) =
        [Event.offered p.generation k unit].countP (Event.offers g n) := by
    simp [Frame.isUnit, Frame.isAccessUnit, unitFrame, Event.offers, List.countP_cons]
  have hgone (unit : AccessUnit) (loss : Loss) :
      [Event.lost o.generation o.offered loss].countP (Event.loses g n) =
        [Event.offered o.generation o.offered unit].countP (Event.offers g n) := by
    simp [Event.loses, Event.offers, List.countP_cons]
  cases h with
  | keep hs hu =>
    rw [hs.videoQueue, hu.countP fun _ => loses_of_unrelated,
      hu.countP fun _ => offers_of_unrelated]
  | began =>
    rw [List.countP_append, List.countP_append, hlost, hoffers]
    show 0 + (_ + 0) = _ + (0 + 0)
    omega
  | silenced hs hu =>
    rw [hs.videoQueue, List.countP_append, List.countP_append, hlost, hoffers,
      hu.countP fun _ => loses_of_unrelated, hu.countP fun _ => offers_of_unrelated]
    simp
  | configured => rfl
  | offered unit token _ hr =>
    have hoffered (es : List Event) :
        (Event.offered o.generation o.offered unit :: es).countP (Event.offers g n) =
          [Event.offered o.generation o.offered unit].countP (Event.offers g n) +
            es.countP (Event.offers g n) := @List.countP_append _ _ [_] _
    have hnone (es : List Event) :
        (Event.offered o.generation o.offered unit :: es).countP (Event.loses g n) =
          es.countP (Event.loses g n) := List.countP_cons_of_neg (by simp [Event.loses])
    cases hr with
    | unconfigured =>
      rw [hoffered, hnone, hgone unit]
      rfl
    | skipped =>
      rw [hoffered, hnone, hgone unit]
      rfl
    | queued =>
      simp only [queueUnit, List.countP_append, hframe]
      rw [hoffered, hnone]
      simp only [List.countP_nil]
      omega
    | replaced =>
      simp only [queueUnit, makeRoom, List.countP_append, hframe]
      rw [hoffered (o.lostQueued .overflow), hnone, hlost, hoffers]
      simp only [List.countP_nil]
      omega
    | overflowed =>
      -- the queue and the unit that overflows it are lost together
      have hsplit (loss : Loss) (q : Event → Bool) :
          (Event.lost o.generation o.offered loss :: o.lostQueued loss).countP q =
            [Event.lost o.generation o.offered loss].countP q + (o.lostQueued loss).countP q :=
        @List.countP_append _ _ [_] _
      rw [hoffered, hnone, hsplit, hsplit, hgone unit, hlost, hoffers]
      simp only [makeRoom, List.countP_nil]
      show _ = _ + (_ + (0 + 0))
      omega
  | recovered =>
    rw [hlost, hoffers]
    simp

/-- `droppedVideoFrames` grows by what the task drops. -/
theorem dropped_of_task (o : FramedOutbound) (t : Task) :
    (o.runTask t).1.droppedVideoFrames =
      o.droppedVideoFrames + (o.runTask t).2.2.countP Event.drops := by
  have hcleared := countP_lostQueued_drops o .cleared (by decide)
  cases t with
  | beginCapture =>
    show o.droppedVideoFrames + o.videoQueue.length = _
    simp only [runTask, List.countP_append, hcleared]
    rfl
  | stopVideo | clear =>
    show o.droppedVideoFrames + o.videoQueue.length = _
    simp only [runTask, hcleared]
  | fence key =>
    simp only [runTask, fenceOnce]
    split
    · rfl
    · show o.droppedVideoFrames + o.videoQueue.length = _
      simp only [List.countP_append, hcleared]
      rfl
  | setCodecConfig config token =>
    simp only [runTask, setCodecConfig]
    split <;> rfl
  | keepVideoConfig config token =>
    simp only [runTask, keepVideoConfig]
    by_cases ha : o.accepts token = true
    · simp only [ha, if_true]
      rfl
    · simp only [ha, Bool.false_eq_true, if_false]
      rfl
  | offerUnit unit token =>
    have hover := countP_lostQueued_drops o .overflow (by decide)
    simp only [runTask]
    rcases offer_cases o unit token with hr | ⟨-, hr⟩
    · rw [hr]
      rfl
    generalize o.offerUnit unit token = r at hr ⊢
    cases hr with
    | unconfigured | skipped | queued => rfl
    | replaced _ hk =>
      simp only [queueUnit, makeRoom, hk, if_true, List.countP_cons, hover, Event.drops]
      simp
    | overflowed hk =>
      simp only [makeRoom, hk, List.countP_cons, hover, Event.drops]
      simp
      omega
  | recover =>
    simp only [runTask]
    rcases recover_cases o with hr | ⟨-, -, hr⟩
    · rw [hr]
      rfl
    · rw [hr]
      have hrecovery := countP_lostQueued_drops o .recovery (by decide)
      cases o.latestVideoConfig <;> simp only [hrecovery]
  | enqueue f token =>
    simp only [runTask]
    rcases enqueueControl_cases o f token with hr | ⟨-, -, hr⟩ | ⟨-, -, -, hr⟩ <;> rw [hr] <;> rfl
  | overflow =>
    simp only [runTask]
    split <;> rfl
  | _ => rfl

/-- The counter holds the units dropped. -/
theorem dropped (h : system.Under ok tr s) : s.out.droppedVideoFrames = tr.countP Event.drops := by
  refine Under.tasks (P := fun tr o _ => o.droppedVideoFrames = tr.countP Event.drops)
    ?_ ?_ ?_ ?_ ?_ ?_ ?_ ?_ h
  · intro c o ho
    unfold new at ho
    split at ho
    · obtain rfl := Option.some.inj ho
      rfl
    · cases ho
  · exact fun _ _ h => h
  · exact fun _ _ _ _ _ _ _ _ h => h
  · exact fun _ _ _ _ h => h
  · intro tr s i t ts _ _ _ h
    rw [dropped_of_task, h, List.countP_append]
  · intro tr o f hd h
    rcases dequeue_some hd with ⟨fs, -, hd⟩ | ⟨fs, -, -, hd⟩
    · rw [hd]
      exact h
    · rw [hd]
      exact h
  · intro tr o f w _ h
    rw [h, List.countP_append]
    rfl
  · intro tr o f es hes h
    have hnone : es.countP Event.drops = 0 := by
      rw [List.countP_eq_zero]
      intro e he
      rw [hes e he]
      exact Bool.false_ne_true
    rw [List.countP_append, hnone]
    exact h

/-- A unit that was taken in is in one place, in the frame whose write threw, or lost. -/
structure Balanced (tr : List Event) (s : Threads) (thrown : Option Frame) : Prop where
  stopped : thrown.isSome = true → s.writer = .stopped
  units : ∀ g n, (written tr).countP (Frame.isUnit g n) + s.writer.hand.countP (Frame.isUnit g n) +
      s.out.videoQueue.countP (Frame.isUnit g n) + tr.countP (Event.loses g n) +
      thrown.toList.countP (Frame.isUnit g n) = tr.countP (Event.offers g n)

/-- A step of the writer that moves no frame keeps the balance. -/
theorem Balanced.writer {thrown : Option Frame} (h : Balanced tr s thrown)
    (hw : s.writer ≠ .stopped) (hhand : s'.writer.hand = s.writer.hand)
    (hvideo : s'.out.videoQueue = s.out.videoQueue) : Balanced (tr ++ []) s' thrown := by
  rw [List.append_nil]
  refine ⟨fun hs => absurd (h.stopped hs) hw, ?_⟩
  rw [hhand, hvideo]
  exact h.units

/-- A block takes from the head of a queue, and no unit waits in the control queue. -/
theorem countP_dequeue {f : Frame} (hcontrol : ∀ f ∈ o.controlQueue, f.isAccessUnit = false)
    (hd : o.dequeue.2 = some f) (g n : ℕ) :
    [f].countP (Frame.isUnit g n) + o.dequeue.1.videoQueue.countP (Frame.isUnit g n) =
      o.videoQueue.countP (Frame.isUnit g n) := by
  rcases dequeue_some hd with ⟨fs, hc, hd⟩ | ⟨fs, -, hv, hd⟩
  · have hf : f.isUnit g n = false := by
      simp [Frame.isUnit, hcontrol f (hc ▸ List.mem_cons_self)]
    rw [hd, List.countP_singleton, hf]
    exact Nat.zero_add _
  · rw [hd, hv]
    exact List.countP_append.symm

/-- In every run the units balance, up to one that a write threw. -/
theorem balanced (h : system.Under ok tr s) : ∃ thrown : Option Frame,
    Balanced tr s thrown ∧ (thrown.isSome = true → ∃ tr s, ok tr s .writerThrows) := by
  refine h.invariant (P := fun tr s => ∃ thrown : Option Frame,
    Balanced tr s thrown ∧ (thrown.isSome = true → ∃ tr s, ok tr s .writerThrows)) ?_ ?_
  · rintro s ⟨c, o, ho, rfl⟩
    unfold new at ho
    split at ho
    · obtain rfl := Option.some.inj ho
      exact ⟨none, ⟨fun hw => absurd hw (by decide), fun _ _ => rfl⟩,
        fun hsome => absurd hsome Bool.false_ne_true⟩
    · cases ho
  · rintro tr s l s' es hr hok ⟨thrown, ih, hthrown⟩ hs
    have hordered := ordered hr
    cases moved_of_step hs with
    | start hw =>
      refine ⟨thrown, ih.writer (by simp [hw]) ?_ rfl, hthrown⟩
      rw [hw]
      rfl
    | ui calls _ =>
      rw [List.append_nil]
      exact ⟨thrown, ⟨ih.stopped, ih.units⟩, hthrown⟩
    | spawn call _ =>
      rw [List.append_nil]
      exact ⟨thrown, ⟨ih.stopped, ih.units⟩, hthrown⟩
    | @task _ t ts hruns =>
      refine ⟨thrown, ⟨?_, fun g n => ?_⟩, hthrown⟩
      · rw [resume_writer]
        exact ih.stopped
      · have heffect := effect s.out t
        have hbalance := heffect.balance (fun f hf => (hordered.video f hf).1) g n
        have hunits := ih.units g n
        rw [resume_writer, resume_out, written_of_no_write heffect.not_wrote, List.countP_append,
          List.countP_append]
        omega
    | acquire hw _ =>
      refine ⟨thrown, ih.writer (by simp [hw]) ?_ rfl, hthrown⟩
      rw [hw]
      dsimp only
      split <;> rfl
    | take f hw hd =>
      refine ⟨thrown, ⟨fun hstopped => ?_, fun g n => ?_⟩, hthrown⟩
      · have := ih.stopped hstopped
        rw [hw] at this
        cases this
      · have hunits := ih.units g n
        have htake := countP_dequeue (fun f hf => (hordered.control f hf).1) hd g n
        rw [hw] at hunits
        simp only [Writer.hand, List.countP_nil, List.append_nil] at hunits ⊢
        omega
    | idle hw _ =>
      refine ⟨thrown, ih.writer (by simp [hw]) ?_ rfl, hthrown⟩
      rw [hw, loopTest_hand]
      rfl
    | write f hw =>
      refine ⟨thrown, ⟨fun hstopped => ?_, fun g n => ?_⟩, hthrown⟩
      · have := ih.stopped hstopped
        rw [hw] at this
        cases this
      · have hunits := ih.units g n
        have hwrote : written [.wrote f] = [f] := rfl
        rw [hw, Writer.hand_write] at hunits
        rw [loopTest_hand, written_append, hwrote, List.countP_append, List.countP_append,
          List.countP_append]
        show _ + List.countP _ [] + _ + (_ + 0) + _ = _ + 0
        rw [List.countP_nil]
        omega
    | throws f hw =>
      -- the frame in hand is the one the balance now names
      refine ⟨some f, ⟨fun _ => rfl, fun g n => ?_⟩, fun _ => ⟨tr, s, hok⟩⟩
      have hunits := ih.units g n
      have hnone : thrown = none := by
        by_contra hsome
        have := ih.stopped (Option.isSome_iff_ne_none.mpr hsome)
        rw [hw] at this
        cases this
      have hevents (q : Event → Bool) (hq : q .writerFailed = false) :
          (if s.out.running then [Event.writerFailed] else []).countP q = 0 := by
        split
        · rw [List.countP_singleton, hq]
          rfl
        · rfl
      rw [hw, hnone] at hunits
      rw [written_of_no_write (by split <;> simp), List.countP_append, List.countP_append,
        hevents _ rfl, hevents _ rfl]
      simp only [Writer.hand, Option.toList, List.countP_nil] at hunits ⊢
      omega

theorem countP_offers (tr : List Event) (g n : ℕ) :
    tr.countP (Event.offers g n) = ((offeredUnits tr g).map Prod.fst).count n := by
  rw [List.count, List.countP_map, offeredUnits, List.countP_filterMap]
  apply List.countP_congr
  intro e _
  cases e with
  | offered g' n' unit => by_cases hg : g' = g <;> simp [Event.offers, Event.offeredTo?, hg]
  | _ => simp [Event.offers, Event.offeredTo?]

/-- A position is offered once. -/
theorem offered_once (h : system.Under ok tr s) {unit : AccessUnit} (hu : .offered g n unit ∈ tr) :
    tr.countP (Event.offers g n) = 1 := by
  have hpos : 0 < tr.countP (Event.offers g n) :=
    List.countP_pos_iff.mpr ⟨_, hu, by simp [Event.offers]⟩
  have hle : tr.countP (Event.offers g n) ≤ 1 := by
    rw [countP_offers, (units h).numbered g]
    exact List.nodup_iff_count_le_one.mp List.nodup_range n
  omega

/-- A unit that was configured is lost only to a drop. -/
theorem lost_of_configured (h : .lost g n .unconfigured ∉ tr) :
    tr.countP (Event.loses g n) = tr.countP fun e => e.drops && e.loses g n := by
  apply List.countP_congr
  intro e he
  cases e with
  | lost g' n' loss =>
    simp only [Event.loses, Event.drops, Bool.and_eq_true, beq_iff_eq, bne_iff_ne]
    constructor
    · rintro ⟨rfl, rfl⟩
      exact ⟨fun hloss => h (hloss ▸ he), rfl, rfl⟩
    · exact fun hboth => hboth.2
  | _ => simp [Event.loses]

/-- A balanced unit is in exactly one place. -/
theorem Balanced.places {thrown : Option Frame} (h : Balanced tr s thrown)
    (hr : system.Under ok tr s) {unit : AccessUnit} (hu : .offered g n unit ∈ tr)
    (hconfig : .lost g n .unconfigured ∉ tr) :
    places tr s g n + thrown.toList.countP (Frame.isUnit g n) = 1 := by
  have hunits := h.units g n
  rw [offered_once hr hu, lost_of_configured hconfig] at hunits
  exact hunits

/-! ## The order of control frames -/

/-- The control frame that is admitted. -/
def Event.admitted? : Event → Option Frame
  | .admitted f => some f
  | _ => none

/-- The frames the control queue took, in order. -/
def admitted (tr : List Event) : List Frame := tr.filterMap Event.admitted?

/-- The control frames other than `VIDEO_CONFIG`. -/
def controls (fs : List Frame) : List Frame := fs.filter fun f => !f.isVideo

/-- `start()` does not come between the two blocks of a `close()`. -/
def ClearsHalted (_ : List Event) (s : Threads) (i : Label) : Prop :=
  s.task? i = some .clear → s.out.running = false

instance (tr : List Event) (s : Threads) (i : Label) : Decidable (ClearsHalted tr s i) :=
  inferInstanceAs (Decidable (_ → _))

theorem admitted_append (tr es : List Event) : admitted (tr ++ es) = admitted tr ++ admitted es :=
  List.filterMap_append

theorem controls_append (fs gs : List Frame) : controls (fs ++ gs) = controls fs ++ controls gs :=
  List.filter_append ..

theorem controls_filter {fs : List Frame} {keep : Frame → Bool}
    (hkeep : ∀ f : Frame, f.isVideoConfig = false → keep f = true) :
    controls (fs.filter keep) = controls fs := by
  rw [controls, List.filter_filter]
  apply List.filter_congr
  intro f _
  cases hf : f.isVideo
  · have hconfig : f.isVideoConfig = false := (Bool.or_eq_false_iff.mp hf).1
    simp [hkeep f hconfig]
  · rfl

theorem admitted_lostQueued (o : FramedOutbound) (loss : Loss) :
    admitted (o.lostQueued loss) = [] := by
  rw [admitted, List.filterMap_eq_nil_iff]
  intro e he
  obtain ⟨f, -, rfl⟩ := List.mem_map.mp he
  rfl

/-- Only `enqueueControl` admits. -/
theorem admitted_of_ne (o : FramedOutbound) (ht : ∀ f token, t ≠ .enqueue f token) :
    admitted (o.runTask t).2.2 = [] := by
  have hlost (loss : Loss) := admitted_lostQueued o loss
  cases t with
  | beginCapture =>
    simp only [runTask, admitted_append, hlost]
    rfl
  | stopVideo | clear => exact hlost .cleared
  | fence key =>
    simp only [runTask, admitted_append]
    split
    · rfl
    · rw [hlost]
      rfl
  | setCodecConfig config token =>
    simp only [runTask, setCodecConfig]
    split <;> rfl
  | keepVideoConfig config token =>
    simp only [runTask]
    split <;> rfl
  | offerUnit unit token =>
    simp only [runTask]
    rcases offer_cases o unit token with hr | ⟨-, hr⟩
    · rw [hr]
      rfl
    generalize o.offerUnit unit token = r at hr ⊢
    cases hr with
    | unconfigured | skipped | queued => rfl
    | replaced => exact hlost .overflow
    | overflowed => exact hlost .overflow
  | recover =>
    simp only [runTask]
    split
    · exact hlost .recovery
    · exact hlost .recovery
    · rfl
  | enqueue f token => exact absurd rfl (ht f token)
  | overflow =>
    simp only [runTask]
    split <;> rfl
  | _ => rfl

/-- The control queue grows by what it admits and loses nothing else than `VIDEO_CONFIG`s. -/
theorem controls_of_task (o : FramedOutbound) (ht : t ≠ .clear) :
    controls (o.runTask t).1.controlQueue =
      controls o.controlQueue ++ controls (admitted (o.runTask t).2.2) := by
  by_cases henqueue : ∃ f token, t = .enqueue f token
  · obtain ⟨f, token, rfl⟩ := henqueue
    simp only [runTask]
    rcases enqueueControl_cases o f token with hr | ⟨-, -, hr⟩ | ⟨-, ha, -, hr⟩
    · rw [hr]
      exact (List.append_nil _).symm
    · rw [hr]
      exact (List.append_nil _).symm
    · rw [hr, stamped_of_accepts ha]
      exact controls_append _ _
  · have hne (f : Frame) (token : Option ℕ) : t ≠ .enqueue f token :=
      fun h => henqueue ⟨f, token, h⟩
    rw [admitted_of_ne o hne]
    rcases control_of_task o t with ⟨keep, hkeep, hq⟩ | ⟨f, token, h, -⟩ | ⟨h, -⟩
    · rw [hq, controls_filter hkeep]
      exact (List.append_nil _).symm
    · exact absurd h (hne f token)
    · exact absurd h ht

theorem admitted_of_halted (h : o.running = false) (t : Task) :
    admitted (o.runTask t).2.2 = [] := by
  by_cases henqueue : ∃ f token, t = .enqueue f token
  · obtain ⟨f, token, rfl⟩ := henqueue
    have hrefused : o.enqueueControl f token = (o, .refused) := by simp [enqueueControl, h]
    simp only [runTask, hrefused]
    rfl
  · exact admitted_of_ne o fun f token ht => henqueue ⟨f, token, ht⟩

/-- The control frames on the line. -/
def controlLine (tr : List Event) (s : Threads) : List Frame := controls (line tr s)

/-- While the writer lives the control line is written, in hand and queued. -/
theorem controlLine_of_ne (h : s.writer ≠ .stopped) : controlLine tr s =
    controls (written tr) ++ (controls s.writer.hand ++ controls s.out.controlQueue) := by
  rw [controlLine, line, coming_of_ne h, controls_append, controls_append]

variable (tr) in
/-- Nothing but `clear` and a writer that stops takes a control frame off the line. -/
theorem Moved.controlLine {l : Label} (h : Moved s l s' es)
    (hvideo : ∀ f ∈ s.out.videoQueue, f.isAccessUnit = true)
    (hstopped : s.writer = .stopped → s.out.running = false) :
    controlLine (tr ++ es) s' = controlLine tr s ++ controls (admitted es) ∨
      (controlLine (tr ++ es) s' <+: controlLine tr s ∧ admitted es = [] ∧
        (s.task? l = some .clear ∨ s'.writer = .stopped)) := by
  have hstops (hw : s.writer ≠ .stopped) (hw' : s'.writer = .stopped)
      (hwritten : controls (written (tr ++ es)) <+:
        controls (written tr) ++ controls s.writer.hand) :
      FramedOutbound.controlLine (tr ++ es) s' <+: FramedOutbound.controlLine tr s := by
    have hline : FramedOutbound.controlLine (tr ++ es) s' = controls (written (tr ++ es)) := by
      simp [FramedOutbound.controlLine, line, coming, hw']
    rw [hline, controlLine_of_ne hw, ← List.append_assoc]
    exact hwritten.trans (List.prefix_append _ _)
  have hstays (hw : s.writer ≠ .stopped) (hw' : s'.writer ≠ .stopped)
      (heq : controls (written (tr ++ es)) ++
          (controls s'.writer.hand ++ controls s'.out.controlQueue) =
        controls (written tr) ++ (controls s.writer.hand ++ controls s.out.controlQueue) ++
          controls (admitted es)) :
      FramedOutbound.controlLine (tr ++ es) s' =
        FramedOutbound.controlLine tr s ++ controls (admitted es) := by
    rw [controlLine_of_ne hw, controlLine_of_ne hw', heq]
  cases h with
  | start hw =>
    refine .inl (hstays (by simp [hw]) (by simp) ?_)
    rw [hw, List.append_nil]
    exact (List.append_nil _).symm
  | ui calls _ =>
    rw [List.append_nil]
    exact .inl (List.append_nil _).symm
  | spawn call _ =>
    rw [List.append_nil]
    exact .inl (List.append_nil _).symm
  | @task _ t ts hruns =>
    have hwritten : written (tr ++ (s.out.runTask t).2.2) = written tr :=
      written_of_no_write (effect s.out t).not_wrote
    by_cases hw : s.writer = .stopped
    · -- the line of a stopped writer is what it wrote, and nothing is admitted any more
      refine .inr ⟨?_, admitted_of_halted (hstopped hw) t, .inr (by rw [resume_writer, hw])⟩
      have hline : line (tr ++ (s.out.runTask t).2.2)
          (resume s (s.out.runTask t).1 ((s.out.runTask t).2.1 ++ ts) l) = line tr s := by
        simp [line, coming, hw, hwritten]
      simp only [FramedOutbound.controlLine, hline]
      exact List.prefix_rfl
    by_cases ht : t = .clear
    · subst ht
      have hnone : admitted (s.out.runTask .clear).2.2 = [] := admitted_lostQueued s.out .cleared
      refine .inr ⟨?_, hnone, .inl (task?_of_runs hruns)⟩
      rw [controlLine_of_ne hw, controlLine_of_ne (by rwa [resume_writer]), resume_writer, hwritten,
        resume_out]
      have hempty : controls (s.out.runTask .clear).1.controlQueue = [] := rfl
      rw [hempty, List.append_nil, ← List.append_assoc]
      exact List.prefix_append _ _
    · refine .inl (hstays hw (by rwa [resume_writer]) ?_)
      rw [resume_writer, resume_out, hwritten, controls_of_task s.out ht]
      simp only [List.append_assoc]
  | acquire hw hk =>
    by_cases hr : s.out.running = true
    · refine .inl (hstays (by simp [hw]) (by simp [hr]) ?_)
      rw [hw, List.append_nil]
      simp only [hr, if_true]
      exact (List.append_nil _).symm
    · refine .inr ⟨hstops (by simp [hw]) (by simp [hr]) ?_, rfl, .inr (by simp [hr])⟩
      rw [List.append_nil]
      exact List.prefix_append _ _
  | take f hw hd =>
    refine .inl (hstays (by simp [hw]) (by simp) ?_)
    rw [hw, List.append_nil]
    show _ = _ ++ ([] ++ _) ++ []
    rw [List.append_nil, List.nil_append]
    rcases dequeue_some hd with ⟨fs, hc, hd⟩ | ⟨fs, -, hv, hd⟩
    · rw [hd, hc, Writer.hand_write, ← controls_append]
      rfl
    · have hunit : controls [f] = [] := by
        simp [controls, Frame.isVideo, hvideo f (hv ▸ List.mem_cons_self)]
      rw [hd, Writer.hand_write, hunit]
      rfl
  | idle hw hd =>
    have hne : s.writer ≠ .stopped := by simp [hw]
    by_cases hr : s.out.running = true
    · refine .inl (hstays hne (by simp [loopTest, hr]) ?_)
      rw [hw, loopTest_hand, List.append_nil]
      exact (List.append_nil _).symm
    · refine .inr ⟨hstops hne (by simp [loopTest, hr]) ?_, rfl, .inr (by simp [loopTest, hr])⟩
      rw [List.append_nil]
      exact List.prefix_append _ _
  | write f hw =>
    have hne : s.writer ≠ .stopped := by simp [hw]
    have hwrote :
        controls (written (tr ++ [Event.wrote f])) = controls (written tr) ++ controls [f] := by
      rw [written_append, controls_append]
      rfl
    by_cases hr : s.out.running = true
    · refine .inl (hstays hne (by simp [loopTest, hr]) ?_)
      rw [hw, loopTest_hand, Writer.hand_write, hwrote, List.append_assoc]
      exact (List.append_nil _).symm
    · refine .inr ⟨hstops hne (by simp [loopTest, hr]) ?_, rfl, .inr (by simp [loopTest, hr])⟩
      rw [hwrote, hw]
      exact List.prefix_rfl
  | throws f hw =>
    refine .inr ⟨hstops (by simp [hw]) rfl ?_, by split <;> rfl, .inr rfl⟩
    rw [written_of_no_write (by split <;> simp)]
    exact List.prefix_append _ _

/-- The writer stops only after the halt. -/
theorem halted_of_stopped (h : system.Under ok tr s) :
    s.writer = .stopped → s.out.running = false := by
  refine Under.tasks (P := fun _ o w => w = .stopped → o.running = false) ?_ ?_ ?_ ?_ ?_ ?_ ?_ ?_ h
  · exact fun _ _ _ hw => nomatch hw
  · exact fun _ _ _ hw => nomatch hw
  · exact fun _ _ _ _ _ _ _ hw _ => hw.2.2
  · exact fun _ _ _ _ h => h
  · intro tr s i t ts _ _ _ h hw
    rw [running_of_task, h hw, ite_self]
  · exact fun _ _ _ _ _ hw => nomatch hw
  · exact fun _ _ _ _ hw _ => hw.2.2
  · exact fun _ _ _ _ _ _ _ => rfl

/-- Control frames come in the order of their admission. -/
theorem controlLine_sublist (h : system.Under ok tr s) :
    (controlLine tr s).Sublist (controls (admitted tr)) := by
  refine h.invariant (P := fun tr s => (controlLine tr s).Sublist (controls (admitted tr))) ?_ ?_
  · rintro s ⟨c, o, ho, rfl⟩
    unfold new at ho
    split at ho
    · obtain rfl := Option.some.inj ho
      exact List.Sublist.refl _
    · cases ho
  · intro tr s l s' es hr _ ih hs
    rw [admitted_append, controls_append]
    rcases (moved_of_step hs).controlLine tr (fun f hf => ((ordered hr).video f hf).1)
      (halted_of_stopped hr) with heq | ⟨hcut, hnone, -⟩
    · rw [heq]
      exact ih.append (List.Sublist.refl _)
    · rw [hnone]
      exact (hcut.sublist.trans ih).trans (List.sublist_append_left _ _)

/-- No admitted control frame is missing from the line of a writer that runs. -/
structure Unskipped (tr : List Event) (s : Threads) : Prop where
  ahead : controlLine tr s <+: controls (admitted tr)
  whole : s.out.running = true → controlLine tr s = controls (admitted tr)
  unstarted : s.writer = .unstarted → s.out.running = false ∧ controls (admitted tr) = []

theorem Moved.running {l : Label} (h : Moved s l s' es) (hr : s'.out.running = true) :
    s.out.running = true ∨ (l = .start ∧ s.writer = .unstarted) := by
  cases h with
  | start hw => exact .inr ⟨rfl, hw⟩
  | @task _ t ts _ =>
    rw [resume_out, running_of_task] at hr
    split at hr
    · cases hr
    · exact .inl hr
  | take f hw hd =>
    rcases dequeue_some hd with ⟨fs, -, hd⟩ | ⟨fs, -, -, hd⟩
    · rw [hd] at hr
      exact .inl hr
    · rw [hd] at hr
      exact .inl hr
  | throws f hw => cases hr
  | _ => exact .inl hr

/-- A step that admits something is taken while the writer runs. -/
theorem Moved.admitted {l : Label} (h : Moved s l s' es) (hr : s.out.running = false) :
    admitted es = [] := by
  cases h with
  | @task _ t ts _ => exact admitted_of_halted hr t
  | throws f hw => split <;> rfl
  | _ => rfl

theorem Moved.unstarted {l : Label} (h : Moved s l s' es) (hw : s'.writer = .unstarted) :
    s.writer = .unstarted ∧ l ≠ .start := by
  cases h with
  | @task _ t ts hruns =>
    rw [resume_writer] at hw
    cases hruns <;> exact ⟨hw, nofun⟩
  | start | take | throws => cases hw
  | acquire =>
    revert hw
    dsimp only
    split <;> nofun
  | idle | write =>
    revert hw
    dsimp only [loopTest]
    split <;> nofun
  | _ => exact ⟨hw, nofun⟩

/-- In every run that clears after the halt no control frame is skipped. -/
theorem unskipped (h : system.Under ClearsHalted tr s) : Unskipped tr s := by
  refine h.invariant (P := fun tr s => Unskipped tr s) ?_ ?_
  · rintro s ⟨c, o, ho, rfl⟩
    unfold new at ho
    split at ho
    · obtain rfl := Option.some.inj ho
      exact ⟨List.prefix_rfl, fun _ => rfl, fun _ => ⟨rfl, rfl⟩⟩
    · cases ho
  · intro tr s l s' es hr hok ih hs
    have hmoved := moved_of_step hs
    have hstopped := halted_of_stopped (hr.step hok hs)
    -- an unstarted writer has admitted nothing, so its line is empty
    have hline : s.out.running = true ∨ (l = .start ∧ s.writer = .unstarted) →
        controlLine tr s = controls (admitted tr) := by
      rintro (hrun | ⟨-, hw⟩)
      · exact ih.whole hrun
      · have hahead := ih.ahead
        rw [(ih.unstarted hw).2] at hahead ⊢
        exact List.prefix_nil.mp hahead
    have hcases := hmoved.controlLine tr (fun f hf => ((ordered hr).video f hf).1)
      (halted_of_stopped hr)
    refine ⟨?_, fun hrun => ?_, fun hw => ?_⟩
    · rw [admitted_append, controls_append]
      rcases hcases with heq | ⟨hcut, hnone, -⟩
      · rw [heq]
        by_cases hrun : s.out.running = true
        · simp only [ih.whole hrun]
          exact List.prefix_rfl
        · have hnone : controls [] = [] := rfl
          rw [hmoved.admitted (by simpa using hrun), hnone, List.append_nil, List.append_nil]
          exact ih.ahead
      · rw [hnone]
        exact (hcut.trans ih.ahead).trans (List.prefix_append _ _)
    · rw [admitted_append, controls_append, ← hline (hmoved.running hrun)]
      rcases hcases with heq | ⟨-, -, hclear | hw⟩
      · exact heq
      · -- a queue is cleared after the writer was halted, and a clear does not start it
        rcases hmoved.running hrun with hbefore | ⟨rfl, -⟩
        · rw [hok hclear] at hbefore
          cases hbefore
        · cases hclear
      · rw [hstopped hw] at hrun
        cases hrun
    · obtain ⟨hbefore, hlabel⟩ := hmoved.unstarted hw
      obtain ⟨hhalted, hnone⟩ := ih.unstarted hbefore
      refine ⟨?_, ?_⟩
      · by_contra hrun
        rcases hmoved.running (by simpa using hrun) with hrunning | ⟨rfl, -⟩
        · rw [hhalted] at hrunning
          cases hrunning
        · exact hlabel rfl
      · rw [admitted_append, controls_append, hnone, hmoved.admitted hhalted]
        rfl

/-- **What the frame writer conserves.** -/
theorem writer_conserves (h : system.Reaches tr s) :
    s.out.videoQueue.length ≤ s.out.videoCapacity ∧
    s.out.controlQueue.length ≤ MAX_CONTROL_FRAMES ∧
    (s.writer ≠ .stopped →
      s.out.controlQueue.length + s.out.videoQueue.length ≤ s.out.wake + s.owed + s.writer.taken) ∧
    (s.writer = .acquire → s.out.controlQueue ≠ [] ∨ s.out.videoQueue ≠ [] →
      s.out.wake ≠ 0 ∨ ∃ i, s.task? i = some .release) ∧
    s.out.droppedVideoFrames = tr.countP Event.drops ∧
    (∃ thrown : Option Frame, (thrown.isSome = true → s.writer = .stopped) ∧
      ∀ g n unit, .offered g n unit ∈ tr → .lost g n .unconfigured ∉ tr →
        places tr s g n + thrown.toList.countP (Frame.isUnit g n) = 1) ∧
    (system.Under (fun _ _ i => i ≠ .writerThrows) tr s →
      ∀ g n unit, .offered g n unit ∈ tr → .lost g n .unconfigured ∉ tr → places tr s g n = 1) ∧
    (controls (written tr)).Sublist (controls (admitted tr)) ∧
    (system.Under ClearsHalted tr s → controls (written tr) <+: controls (admitted tr)) := by
  have hbounded := bounded h
  have hsupplied := supplied h
  have hwritten : controls (written tr) <+: controlLine tr s := by
    rw [controlLine, line, controls_append]
    exact List.prefix_append _ _
  refine ⟨hbounded.video, hbounded.control, hsupplied.enough, hsupplied.awake,
    dropped h, ?_, ?_, ?_, ?_⟩
  · obtain ⟨thrown, hbalanced, -⟩ := balanced h
    exact ⟨thrown, hbalanced.stopped, fun g n unit hu hconfig => hbalanced.places h hu hconfig⟩
  · intro hno g n unit hu hconfig
    obtain ⟨thrown, hbalanced, hthrown⟩ := balanced hno
    have hnone : thrown = none := by
      by_contra hsome
      obtain ⟨_, _, hthrows⟩ := hthrown (Option.isSome_iff_ne_none.mpr hsome)
      exact hthrows rfl
    have hplaces := hbalanced.places h hu hconfig
    rw [hnone] at hplaces
    exact hplaces
  · exact hwritten.sublist.trans (controlLine_sublist h)
  · exact fun hhalted => hwritten.trans (unskipped hhalted).ahead

/-- After an overflow the keyframe is in one place and the drops are counted. -/
theorem writer_conserves_overflowed :
    (system.final fresh overflowed).out.droppedVideoFrames =
        (system.trace fresh overflowed).countP Event.drops ∧
      places (system.trace fresh overflowed) (system.final fresh overflowed) 1 1 = 1 ∧
      controls (written (system.trace fresh overflowed)) <+:
        controls (admitted (system.trace fresh overflowed)) := by
  have hall := writer_conserves
    (EventSystem.reaches_trace (M := system) overflowed start_fresh (by decide +kernel))
  obtain ⟨-, -, -, -, hdropped, -, hplaces, -, hcut⟩ := hall
  refine ⟨hdropped, hplaces ?_ 1 1 (pFrame 1) (by decide +kernel) (by decide +kernel), hcut ?_⟩
  · exact EventSystem.under_trace (M := system) overflowed start_fresh (by decide +kernel)
      (by decide +kernel)
  · exact EventSystem.under_trace (M := system) overflowed start_fresh (by decide +kernel)
      (by decide +kernel)

/-- The writer has taken the permit of a unit and has not come to its block. -/
def betweenAcquireAndBlock : List Label :=
  [.start, .ui [.beginCapture], .uiStep, .spawn (.sendVideoConfig 64 32 30 100000 1), .step 0,
    .spawn (.sendAccessUnit (keyframe 0) 1), .step 1, .writerStep]

/-- The write of that unit throws. -/
def unitThrown : List Label := betweenAcquireAndBlock ++ [Label.writerStep, .writerThrows]

/-- The answer to a keep-alive. -/
def pong (n : UInt8) : Call := .sendPong { type := .ping, sequence := n.toNat } [n]

/-- `start()` between the blocks of a `close()`, whose second block then clears a queued frame. -/
def closedAcrossStart : List Label :=
  [Label.spawn .close, .step 0, .start, .spawn (pong 1), .step 1, .step 1, .step 1, .step 0,
    .step 0, .spawn (pong 2), .step 2, .step 2, .step 2] ++ List.replicate 3 Label.writerStep

/-- A permit in hand, a write that threw and a half-done close, each as a run. -/
theorem permit_in_hand :
    (∃ tr s, system.Reaches tr s ∧ s.out.running = true ∧ s.writer ≠ .stopped ∧
      s.out.wake + s.owed < s.out.controlQueue.length + s.out.videoQueue.length) ∧
    (∃ tr s, system.Reaches tr s ∧ .offered 1 0 (keyframe 0) ∈ tr ∧
      .lost 1 0 .unconfigured ∉ tr ∧ places tr s 1 0 = 0) ∧
    (∃ tr s, system.Reaches tr s ∧ .overflowed ∉ tr ∧
      ¬ controls (written tr) <+: controls (admitted tr)) := by
  refine ⟨?_, ?_, ?_⟩
  · exact ⟨_, _, EventSystem.reaches_trace (M := system) betweenAcquireAndBlock start_fresh
      (by decide +kernel), by decide +kernel⟩
  · exact ⟨_, _, EventSystem.reaches_trace (M := system) unitThrown start_fresh
      (by decide +kernel), by decide +kernel⟩
  · exact ⟨_, _, EventSystem.reaches_trace (M := system) closedAcrossStart start_fresh
      (by decide +kernel), by decide +kernel⟩

end FramedOutbound
end MobileWebcamBridge
