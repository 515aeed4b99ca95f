import MobileWebcamBridge.Phone.FramedOutbound.Replay
import MobileWebcamBridge.QualityAgreement.Refines

/-!
# What a run of the session is to its parts

A run of the session is a run of the phone's writer and its threads, the PC reads what that writer
wrote, in order, and what the PC's loop carries out is what its switch asked for.
-/

set_option autoImplicit false

namespace MobileWebcamBridge
namespace QualityAgreement

open Wire
open HostVideo (Stream)
open HostQuality (Switch Action)

/-! ## The writer and the line -/

/-- The writer's event, if it is one. -/
def Event.out? : Event → Option FramedOutbound.Event
  | .out e => some e
  | _ => none

/-- The frame that the PC reads. -/
def Event.read? : Event → Option FramedOutbound.Frame
  | .read f => some f
  | _ => none

/-- What the phone's writer shows. -/
def outs (tr : List Event) : List FramedOutbound.Event := tr.filterMap Event.out?

/-- What the PC has read. -/
def reads (tr : List Event) : List FramedOutbound.Frame := tr.filterMap Event.read?

variable {s s' : State} {es tr : List Event}

theorem outs_append (tr es : List Event) : outs (tr ++ es) = outs tr ++ outs es :=
  List.filterMap_append

theorem reads_append (tr es : List Event) : reads (tr ++ es) = reads tr ++ reads es :=
  List.filterMap_append

theorem outs_host (ns : List HostVideo.Note) : outs (ns.map .host) = [] := by
  rw [outs, List.filterMap_map]
  exact List.filterMap_eq_nil_iff.mpr fun _ _ => rfl

theorem reads_host (ns : List HostVideo.Note) : reads (ns.map .host) = [] := by
  rw [reads, List.filterMap_map]
  exact List.filterMap_eq_nil_iff.mpr fun _ _ => rfl

theorem outs_out (fs : List FramedOutbound.Event) : outs (fs.map .out) = fs := by
  rw [outs, List.filterMap_map]
  exact List.filterMap_some

theorem reads_out (fs : List FramedOutbound.Event) : reads (fs.map .out) = [] := by
  rw [reads, List.filterMap_map]
  exact List.filterMap_eq_nil_iff.mpr fun _ _ => rfl

theorem written_eq (fs : List FramedOutbound.Event) :
    fs.filterMap written = FramedOutbound.written fs := by
  apply List.filterMap_congr
  intro e _
  cases e <;> rfl

/-- What a step is to the writer and to the line. -/
structure OnLine (s s' : State) (es : List Event) : Prop where
  line : reads es ++ s'.wire = s.wire ++ FramedOutbound.written (outs es)
  threads : (s'.threads = s.threads ∧ outs es = []) ∨
    ∃ label, FramedOutbound.step s.threads label = some (s'.threads, outs es)

theorem threadStep_line {label : FramedOutbound.Label} (h : s.threadStep label = some (s', es)) :
    OnLine s s' es := by
  obtain ⟨threads, fs, hstep, rfl, rfl⟩ := threadStep_some h
  refine ⟨?_, .inr ⟨label, ?_⟩⟩
  · rw [reads_out, outs_out, ← written_eq]
    rfl
  · rw [outs_out]
    exact hstep

theorem hostStep_line {input : HostVideo.Input} (h : s.hostStep input = some (s', es)) :
    OnLine s s' es := by
  obtain ⟨host, ns, -, rfl, rfl⟩ := hostStep_some h
  refine ⟨?_, .inl ⟨rfl, outs_host ns⟩⟩
  rw [reads_host, outs_host]
  exact (List.append_nil _).symm

theorem turn_line {env : PhoneQualityController.Environment} {call : PhoneQualityController.Call}
    (h : s.turn env call = some (s', es)) : OnLine s s' es := by
  unfold State.turn at h
  dsimp only at h
  split at h
  · cases h
  next t fs hthread =>
  obtain ⟨rfl, rfl⟩ := Prod.mk.inj (Option.some.inj h)
  have hline := threadStep_line hthread
  exact ⟨hline.line, hline.threads⟩

theorem step_line {i : Label} (hs : step s i = some (s', es)) : OnLine s s' es := by
  cases moved_of_step hs with
  | host _ hstep => exact hostStep_line hstep
  | receive hwire hstep =>
    have hline := hostStep_line hstep
    refine ⟨?_, hline.threads⟩
    rw [hwire]
    show _ :: (reads _ ++ _) = _ :: _ ++ FramedOutbound.written (outs _)
    rw [hline.line]
    rfl
  | ignored => exact ⟨(List.append_nil _).symm, .inl ⟨rfl, rfl⟩⟩
  | command _ _ hturn =>
    have hline := turn_line hturn
    exact ⟨hline.line, hline.threads⟩
  | call _ hturn => exact turn_line hturn
  | begin _ hthread | stop _ hthread | teardown hthread =>
    have hline := threadStep_line hthread
    exact ⟨hline.line, hline.threads⟩
  | refresh hthread | grant hthread | outbound _ hthread => exact threadStep_line hthread

/-- What a step is to the PC: a step of its loop, a frame of the line, or nothing. -/
inductive AtHost (s s' : State) (es : List Event) : Label → Prop
  | own {input : HostVideo.Input} {ns : List HostVideo.Note} : (∀ now f, input ≠ .frame now f) →
      s.host.step input = some (s'.host, ns) → es = ns.map .host → AtHost s s' es (.host input)
  | read {now : ℕ} {frame : FramedOutbound.Frame} {rest : List FramedOutbound.Frame}
      {ns : List HostVideo.Note} : s.wire = frame :: rest →
      s.host.step (.frame now (onLine frame)) = some (s'.host, ns) →
      es = .read frame :: ns.map .host → AtHost s s' es (.receive now)
  | other {i : Label} : s'.host = s.host → (∀ note, .host note ∉ es) → reads es = [] →
      AtHost s s' es i

theorem threadStep_host {t : State} {label : FramedOutbound.Label} {i : Label}
    (h : t.threadStep label = some (s', es)) (hhost : t.host = s.host) : AtHost s s' es i := by
  obtain ⟨threads, fs, -, rfl, rfl⟩ := threadStep_some h
  exact .other hhost (by simp) (reads_out fs)

theorem turn_host {t : State} {env : PhoneQualityController.Environment}
    {call : PhoneQualityController.Call} {i : Label} (h : t.turn env call = some (s', es))
    (hhost : t.host = s.host) : AtHost s s' es i := by
  unfold State.turn at h
  dsimp only at h
  split at h
  · cases h
  next u fs hthread =>
  obtain ⟨rfl, rfl⟩ := Prod.mk.inj (Option.some.inj h)
  obtain ⟨threads, gs, -, rfl, rfl⟩ := threadStep_some hthread
  exact .other hhost (by simp) (reads_out gs)

theorem step_host {i : Label} (hs : step s i = some (s', es)) : AtHost s s' es i := by
  cases moved_of_step hs with
  | host hframe hstep =>
    obtain ⟨host, ns, hhost, rfl, rfl⟩ := hostStep_some hstep
    exact .own hframe hhost rfl
  | receive hwire hstep =>
    obtain ⟨host, ns, hhost, rfl, rfl⟩ := hostStep_some hstep
    exact .read hwire hhost rfl
  | ignored => exact .other rfl (by simp) rfl
  | command _ _ hturn | call _ hturn => exact turn_host hturn rfl
  | begin _ hthread | stop _ hthread | teardown hthread | refresh hthread | grant hthread
  | outbound _ hthread => exact threadStep_host hthread rfl

section run

variable {ok : List Event → State → Label → Prop}

/-- The writer and its threads run. -/
theorem outbound_reaches (h : system.Under ok tr s) :
    FramedOutbound.system.Reaches (outs tr) s.threads := by
  refine h.invariant (P := fun tr s => FramedOutbound.system.Reaches (outs tr) s.threads) ?_ ?_
  · rintro s ⟨capacity, o, startingEpoch, hnew, -, rfl⟩
    have hidle : FramedOutbound.system.Reaches [] (FramedOutbound.idle o) :=
      .start ⟨capacity, o, hnew, rfl⟩
    have hstep : FramedOutbound.system.step (FramedOutbound.idle o) .start =
        some
          ({ out := { o with running := true }, ui := [], others := [], writer := .acquire }, []) :=
      rfl
    exact hidle.step trivial hstep
  · intro tr s i s' es _ _ ih hs
    rw [outs_append]
    rcases (step_line hs).threads with ⟨hthreads, hnone⟩ | ⟨label, hstep⟩
    · rw [hthreads, hnone, List.append_nil]
      exact ih
    · exact ih.step trivial hstep

/-- What has been read and what is on the line is what was written, in order. -/
theorem line_fifo (h : system.Under ok tr s) :
    reads tr ++ s.wire = FramedOutbound.written (outs tr) := by
  refine h.invariant (P := fun tr s => reads tr ++ s.wire = FramedOutbound.written (outs tr)) ?_ ?_
  · rintro s ⟨capacity, o, startingEpoch, -, -, rfl⟩
    rfl
  · intro tr s i s' es _ _ ih hs
    rw [outs_append, reads_append, FramedOutbound.written_append, ← ih, List.append_assoc,
      (step_line hs).line, List.append_assoc]

/-- Video read behind a reply was queued with a token begun after that reply's fence. -/
theorem read_follows (h : system.Under ok tr s) {x y : List FramedOutbound.Frame}
    {f v : FramedOutbound.Frame} {key : FrameType × ℕ} (hreads : reads tr = x ++ y) (hf : f ∈ x)
    (hv : v ∈ y) (hkey : f.fenceKey = some key) (hvideo : v.isVideo = true) :
    Trace.Precedes (outs tr) (.fenced key) (.began v.token) := by
  have hfollows := (FramedOutbound.ordered (outbound_reaches h)).follows
  rw [FramedOutbound.pipeline, ← line_fifo h, hreads] at hfollows
  have hpairs := (List.pairwise_append.mp (List.pairwise_append.mp hfollows).1).1
  exact ((List.pairwise_append.mp hpairs).2.2 f hf v hv).2 key hkey hvideo

/-- What a frame of video carries was presented with the frame's token. -/
theorem read_presented (h : system.Under ok tr s) {f : FramedOutbound.Frame} (hf : f ∈ reads tr) :
    f.Presented (outs tr) := by
  apply FramedOutbound.presented (outbound_reaches h)
  rw [← line_fifo h]
  exact List.mem_append_left _ hf

end run

end QualityAgreement
end MobileWebcamBridge
