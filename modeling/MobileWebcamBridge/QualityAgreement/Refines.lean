import MobileWebcamBridge.QualityAgreement.Flow
import MobileWebcamBridge.QualityAgreement.Reading

/-!
# The session refines the exchange

`State.view` forgets all but the two machines and the signals between them. Every step of a session
that is still open is one move of the exchange, so what every move keeps holds in
every such session.
-/

set_option autoImplicit false

namespace MobileWebcamBridge
namespace QualityAgreement

open Wire Signal
open HostVideo (Stream)
open PhoneQualityController (Environment Effect Entry)
open QualitySwitch (Machine)

namespace State

/-- What the session says about its exchange. -/
def view (s : State) : Exchange where
  pc := s.host.switch
  advertised := s.host.advertised
  commands := s.sent.filterMap command
  phone := s.phone.machine
  bridge := s.bridge
  flow := QualityAgreement.flow s.wire s.threads
  elsewhere := QualityAgreement.elsewhere s.threads
  fenced := s.threads.out.lastFence

/-- Neither side has ended the session, and the phone has dropped no control frame. -/
structure Open (s : State) : Prop where
  host : Running s.host
  whole : Whole s.threads

end State

instance (s : Stream) : Decidable (Running s) :=
  decidable_of_iff ((s.point matches .returned _) = false) (by
    unfold Running
    cases s.point <;> simp)

instance (t : FramedOutbound.Threads) : Decidable (Whole t) :=
  decidable_of_iff (t.out.running = true ∧ t.out.controlOverflowed = false ∧ .overflow ∉ t.ui)
    ⟨fun h => ⟨h.1, h.2.1, h.2.2⟩, fun h => ⟨h.running, h.steady, h.ui⟩⟩

instance (s : State) : Decidable s.Open :=
  decidable_of_iff (Running s.host ∧ Whole s.threads) ⟨fun h => ⟨h.1, h.2⟩,
    fun h => ⟨h.host, h.whole⟩⟩

/-- What a history says of the phone's requests. -/
def noted : Event → List Note
  | .phone entry => turned entry.before.machine entry.after.machine
  | _ => []

/-- What a run of the session says about its exchange. -/
def notes (tr : List Event) : List Note := tr.flatMap noted

/-- A capture is begun by nothing but the request it is for, and a command is handled when the list
that the grant announces has been queued. -/
def Orderly : List Event → State → Label → Prop
  | _, s, .begin => waits s.phone.machine = false
  | _, s, .command _ => elsewhere s.threads = []
  | _, _, _ => True

instance : (tr : List Event) → (s : State) → (i : Label) → Decidable (Orderly tr s i)
  | _, s, .begin => inferInstanceAs (Decidable (waits s.phone.machine = false))
  | _, s, .command _ => inferInstanceAs (Decidable (elsewhere s.threads = []))
  | _, _, .host _ | _, _, .receive _ | _, _, .call .. | _, _, .stop | _, _, .teardown
  | _, _, .refresh .. | _, _, .grant .. | _, _, .outbound _ => .isTrue trivial

variable {s s' : State} {es : List Event} {tr : List Event}

/-! ## A session that is open was open -/

theorem running_before {host host' : Stream} {i : HostVideo.Input} {ns : List HostVideo.Note}
    (h : host.step i = some (host', ns)) : Running host := by
  intro result hpoint
  cases i with
  | check stop => cases stop <;> simp [Stream.step, hpoint] at h
  | _ => simp [Stream.step, hpoint] at h

theorem steady_before {o : FramedOutbound} {t : FramedOutbound.Task}
    (h : (o.runTask t).1.controlOverflowed = false) :
    o.controlOverflowed = false ∧ t ≠ .overflow := by
  cases t with
  | beginCapture | stopVideo | number | guard | release | needIdr | halt | clear =>
    exact ⟨h, by simp⟩
  | overflow => cases h
  | fence key =>
    refine ⟨?_, by simp⟩
    simp only [FramedOutbound.runTask, FramedOutbound.fenceOnce] at h
    split at h <;> exact h
  | setCodecConfig config token =>
    refine ⟨?_, by simp⟩
    simp only [FramedOutbound.runTask, FramedOutbound.setCodecConfig] at h
    split at h <;> exact h
  | keepVideoConfig config token =>
    refine ⟨?_, by simp⟩
    simp only [FramedOutbound.runTask, FramedOutbound.keepVideoConfig] at h
    by_cases haccepts : o.accepts token = true <;> simp only [haccepts] at h <;> exact h
  | offerUnit unit token =>
    refine ⟨?_, by simp⟩
    simp only [FramedOutbound.runTask] at h
    rcases FramedOutbound.offer_cases o unit token with hr | ⟨-, hr⟩
    · rw [hr] at h
      exact h
    · generalize o.offerUnit unit token = r at h hr
      cases hr <;> exact h
  | recover =>
    refine ⟨?_, by simp⟩
    simp only [FramedOutbound.runTask] at h
    rcases FramedOutbound.recover_cases o with hr | ⟨-, -, hr⟩ <;> rw [hr] at h
    · exact h
    · cases hconfig : o.latestVideoConfig <;> simp only [hconfig] at h <;> exact h
  | enqueue f token =>
    refine ⟨?_, by simp⟩
    rcases FramedOutbound.enqueueControl_cases o f token with hr | ⟨-, -, hr⟩ | ⟨-, -, -, hr⟩ <;>
      simp only [FramedOutbound.runTask, hr] at h <;> exact h

theorem whole_before {t t' : FramedOutbound.Threads} {i : FramedOutbound.Label}
    {fs : List FramedOutbound.Event} (hs : FramedOutbound.step t i = some (t', fs))
    (hi : i ≠ .start) (h : Whole t') : Whole t := by
  cases FramedOutbound.moved_of_step hs with
  | start => exact absurd rfl hi
  | ui calls hnone => exact ⟨h.running, h.steady, by simp [hnone]⟩
  | spawn | acquire | idle | write => exact ⟨h.running, h.steady, h.ui⟩
  | take f hw hd =>
    rcases FramedOutbound.dequeue_some hd with ⟨fs, -, hout⟩ | ⟨fs, -, -, hout⟩ <;>
      exact ⟨by simpa [hout] using h.running, by simpa [hout] using h.steady, h.ui⟩
  | throws => exact absurd h.running (by simp)
  | @task _ u us hruns =>
    have hrunning : t.out.running = true := by
      have hafter := h.running
      rw [FramedOutbound.resume_out, FramedOutbound.running_of_task] at hafter
      split at hafter
      · cases hafter
      · exact hafter
    obtain ⟨hsteady, hne⟩ := steady_before (t := u) (by
      have hafter := h.steady
      rwa [FramedOutbound.resume_out] at hafter)
    refine ⟨hrunning, hsteady, ?_⟩
    cases hruns with
    | other hj => exact h.ui
    | ui hui =>
      rw [hui]
      intro hmem
      rcases List.mem_cons.mp hmem with heq | hmem
      · exact hne heq.symm
      · exact h.ui (List.mem_append_right _ hmem)

/-! ## Calls of the controller -/

/-- The event of the machine that a call is. -/
def eventOf (env : Environment) : PhoneQualityController.Call → QualitySwitch.Event
  | .handle (.prepare request) => .prepare (env.prepare request)
  | .handle (.commit epoch) =>
    if !env.foreground || !env.permissionReady then .userStop
    else .commit epoch.requestId epoch.streamEpoch
  | .captureRequested => .beginStagedCapture
  | .captureStarted width height fps => .captureStarted width height fps
  | .captureFailed => .captureFailed
  | .tick again => .deadlineExceeded again
  | .cancel => .userStop

/-- A call steps the machine once, and executes what it asks for. -/
theorem call_steps (c : PhoneQualityController) (env : Environment)
    (call : PhoneQualityController.Call) :
    (c.call env call).1.machine = (c.machine.step env.nowMillis (eventOf env call)).1 ∧
      ∃ c' : PhoneQualityController,
        (c.call env call).2 = c'.execute (c.machine.step env.nowMillis (eventOf env call)).2 := by
  cases call with
  | captureRequested | captureStarted | captureFailed | tick | cancel => exact ⟨rfl, _, rfl⟩
  | handle command =>
    cases command with
    | prepare request =>
      refine ⟨?_, _, rfl⟩
      simp only [PhoneQualityController.call, PhoneQualityController.handle, eventOf]
      split <;> rfl
    | commit epoch =>
      simp only [PhoneQualityController.call, PhoneQualityController.handle, eventOf]
      split
      · exact ⟨rfl, _, rfl⟩
      · exact ⟨rfl, _, rfl⟩

/-- The tasks of the calls that carry actions out. -/
def carried (c : PhoneQualityController) (bridge : Bool) (actions : List QualitySwitch.Action) :
    List FramedOutbound.Task :=
  ((c.execute actions).flatMap (calls bridge)).flatMap FramedOutbound.Call.tasks

/-- The effects of actions are their replies in order, each behind its fence, and the stop. -/
structure Carried (c : PhoneQualityController) (bridge : Bool)
    (actions : List QualitySwitch.Action) : Prop where
  replies : (carried c bridge actions).flatMap taskSignals = replies actions
  stops : (c.execute actions).any stops = actions.contains .stopCapture
  ui : ∀ t ∈ carried c bridge actions, ofUi t = true

theorem carried_nil (c : PhoneQualityController) (bridge : Bool) : Carried c bridge [] :=
  ⟨rfl, rfl, by simp [carried, PhoneQualityController.execute]⟩

/-- A commit starts the capture, and that is all. -/
theorem carried_start (c : PhoneQualityController) (bridge : Bool) (width height fps : ℕ) :
    Carried c bridge [.startCapture width height fps] := by
  have hexecute : (∃ mode, c.execute [.startCapture width height fps] = [.startCapture mode]) ∨
      c.execute [.startCapture width height fps] = [.noPreparedMode] := by
    simp only [PhoneQualityController.execute]
    split
    · exact .inl ⟨_, rfl⟩
    · exact .inr rfl
  have hnone : carried c bridge [.startCapture width height fps] = [] := by
    unfold carried
    rcases hexecute with ⟨mode, h⟩ | h <;> rw [h] <;> rfl
  refine ⟨?_, ?_, ?_⟩
  · rw [hnone]
    rfl
  · rcases hexecute with ⟨mode, h⟩ | h <;> rw [h] <;> rfl
  · rw [hnone]
    simp

theorem carried_cons (c : PhoneQualityController) (bridge : Bool) {action : QualitySwitch.Action}
    {actions : List QualitySwitch.Action} (h : Carried c bridge actions)
    (hstart : ∀ width height fps, action ≠ .startCapture width height fps) :
    Carried c bridge (action :: actions) := by
  cases action with
  | startCapture width height fps => exact absurd rfl (hstart width height fps)
  | stopCapture =>
    have htasks : carried c bridge (.stopCapture :: actions) =
        (if bridge then [.stopVideo] else []) ++ carried c bridge actions := by
      cases bridge <;> rfl
    refine ⟨?_, by simp [PhoneQualityController.execute, stops], ?_⟩
    · rw [htasks, List.flatMap_append, h.replies]
      cases bridge <;> rfl
    · rw [htasks]
      intro t ht
      rcases List.mem_append.mp ht with ht | ht
      · cases bridge with
        | false => cases ht
        | true =>
          rw [List.mem_singleton.mp ht]
          rfl
      · exact h.ui t ht
  | sendPaused id epoch =>
    have hpaused : carried c bridge (.sendPaused id epoch :: actions) =
        [.fence (.paused, id), .number (FramedOutbound.controlFrame .paused
          (.epoch { requestId := id, streamEpoch := epoch })) none] ++
            carried c bridge actions := rfl
    refine ⟨?_, ?_, ?_⟩
    · rw [hpaused, List.flatMap_append, h.replies]
      rfl
    · have hstops := h.stops
      simp only [PhoneQualityController.execute, List.any_cons, hstops, List.contains_cons]
      rfl
    · rw [hpaused]
      intro t ht
      rcases List.mem_append.mp ht with ht | ht
      · simp only [List.mem_cons, List.not_mem_nil, or_false] at ht
        rcases ht with rfl | rfl <;> rfl
      · exact h.ui t ht
  | sendQualityResult id status reason width height fps =>
    have hresult :
        carried c bridge (.sendQualityResult id status reason width height fps :: actions) =
        FramedOutbound.Call.tasks (.sendQualityResult
          { requestId := id, status, reason
            appliedWidth := width, appliedHeight := height, appliedFps := fps }) ++
          carried c bridge actions := rfl
    refine ⟨?_, ?_, ?_⟩
    · rw [hresult, List.flatMap_append, h.replies]
      cases status <;> rfl
    · have hstops := h.stops
      simp only [PhoneQualityController.execute, List.any_cons, hstops, List.contains_cons]
      rfl
    · rw [hresult]
      intro t ht
      rcases List.mem_append.mp ht with ht | ht
      · cases status <;>
          simp [FramedOutbound.Call.tasks, FramedOutbound.sendControl] at ht <;>
          rcases ht with rfl | rfl <;> rfl
      · exact h.ui t ht

/-- Replies and stops, in any order. -/
theorem carried_replies (c : PhoneQualityController) (bridge : Bool)
    {actions : List QualitySwitch.Action}
    (h : ∀ a ∈ actions, ∀ width height fps, a ≠ .startCapture width height fps) :
    Carried c bridge actions := by
  induction actions with
  | nil => exact carried_nil c bridge
  | cons a actions ih =>
    exact carried_cons c bridge (ih fun b hb => h b (List.mem_cons_of_mem _ hb))
      (h a List.mem_cons_self)

/-- What a step of the machine asks for is carried out. -/
theorem carried_step (c : PhoneQualityController) (bridge : Bool) {m : Machine} (hm : m.Sound)
    (now : ℤ) (e : QualitySwitch.Event) : Carried c bridge (m.step now e).2 := by
  have hmoves := Machine.step_moves m now e
  generalize m.step now e = r at hmoves ⊢
  obtain ⟨m', actions⟩ := r
  dsimp only at hmoves ⊢
  cases hmoves with
  | committed => exact carried_start c bridge _ _ _
  | replayed =>
    apply carried_replies
    intro a ha width height fps heq
    have hreply := hm.replies a ha
    rw [heq] at hreply
    cases hreply
  | _ =>
    apply carried_replies
    intro a ha width height fps heq
    rw [heq] at ha
    simp [Machine.fail, Machine.reply] at ha

/-! ## One step -/

/-- What a session keeps besides the agreement. -/
structure Kept (s : State) : Prop where
  shaped : Shaped s.wire s.threads
  sound : s.phone.machine.Sound

/-- The UI thread enters calls. -/
theorem ui_step {t t' : FramedOutbound.Threads} {cs : List FramedOutbound.Call}
    {fs : List FramedOutbound.Event} {wire : List FramedOutbound.Frame}
    (hs : FramedOutbound.step t (.ui cs) = some (t', fs)) (h : Shaped wire t)
    (hcalls : ∀ u ∈ cs.flatMap FramedOutbound.Call.tasks, ofUi u = true) :
    Shaped wire t' ∧ fs = [] ∧ t'.out = t.out ∧ (flow wire t).filter isFence = [] ∧
      flow wire t' = flow wire t ++ (cs.flatMap FramedOutbound.Call.tasks).flatMap taskSignals ∧
      elsewhere t' = elsewhere t := by
  cases FramedOutbound.moved_of_step hs with
  | task hruns => cases hruns
  | ui _ hnone =>
    refine ⟨⟨h.frames, h.video, hcalls, h.others⟩, rfl, rfl, ?_, ?_, rfl⟩
    · rw [flow, hnone, List.filter_append, List.filter_append, unfenced_signals, unfenced_gates]
      rfl
    · simp only [flow, queued, hnone, List.flatMap_nil, List.append_nil, List.append_assoc]

theorem spawn_step {t t' : FramedOutbound.Threads} {c : FramedOutbound.Call}
    {fs : List FramedOutbound.Event} {wire : List FramedOutbound.Frame}
    (hs : FramedOutbound.step t (.spawn c) = some (t', fs)) (h : Shaped wire t)
    (hclose : c ≠ .close) :
    Shaped wire t' ∧ fs = [] ∧ t'.out = t.out ∧ flow wire t' = flow wire t ∧
      elsewhere t' = elsewhere t ++ c.tasks.flatMap taskEpochs := by
  cases FramedOutbound.moved_of_step hs with
  | task hruns => cases hruns
  | spawn _ hui =>
    refine ⟨⟨h.frames, h.video, h.ui, ?_⟩, rfl, rfl, rfl, ?_⟩
    · intro p hp
      rcases List.mem_append.mp hp with hp | hp
      · exact h.others p hp
      · rw [List.mem_singleton.mp hp]
        exact others_of_call hui hclose
    · simp [elsewhere]

/-- A step of the threads, under the name of the session. -/
theorem threadStep_some {label : FramedOutbound.Label} (h : s.threadStep label = some (s', es)) :
    ∃ threads fs, FramedOutbound.step s.threads label = some (threads, fs) ∧
      s' = { s with threads, wire := s.wire ++ fs.filterMap written } ∧ es = fs.map .out := by
  unfold State.threadStep at h
  split at h
  · cases h
  · next threads fs hs =>
    obtain ⟨rfl, rfl⟩ := Prod.mk.inj (Option.some.inj h)
    exact ⟨threads, fs, hs, rfl, rfl⟩

theorem notes_out (fs : List FramedOutbound.Event) : notes (fs.map .out) = [] := by
  induction fs with
  | nil => rfl
  | cons f fs ih => exact ih

theorem notes_host (ns : List HostVideo.Note) : notes (ns.map .host) = [] := by
  induction ns with
  | nil => rfl
  | cons n ns ih => exact ih

/-- A call of the controller is a turn of the exchange. -/
theorem turn_view {env : Environment} {call : PhoneQualityController.Call}
    (h : s.turn env call = some (s', es)) (hkept : Kept s) :
    Kept s' ∧ s.view.Unfenced ∧ s'.host = s.host ∧
      s'.view = s.view.turn (s.phone.machine.step env.nowMillis
        (eventOf { env with streaming := s.bridge } call)) ∧
      notes es = turned s.phone.machine (s.phone.machine.step env.nowMillis
        (eventOf { env with streaming := s.bridge } call)).1 := by
  obtain ⟨hmachine, c', heffects⟩ := call_steps s.phone { env with streaming := s.bridge } call
  have hcarried := carried_step c' s.bridge hkept.sound env.nowMillis
    (eventOf { env with streaming := s.bridge } call)
  have hsound := hkept.sound.moves (Machine.step_moves s.phone.machine env.nowMillis
    (eventOf { env with streaming := s.bridge } call))
  unfold State.turn at h
  dsimp only at h
  generalize s.phone.call { env with streaming := s.bridge } call = r at h hmachine heffects
  generalize s.phone.machine.step env.nowMillis
    (eventOf { env with streaming := s.bridge } call) = m at hmachine heffects hcarried hsound ⊢
  split at h
  · cases h
  next t fs hthread =>
  obtain ⟨rfl, rfl⟩ := Prod.mk.inj (Option.some.inj h)
  obtain ⟨threads, fs', hstep, rfl, rfl⟩ := threadStep_some hthread
  dsimp only at hstep
  rw [heffects] at hstep
  obtain ⟨hshaped, rfl, hout, hclear, hflow, helsewhere⟩ :=
    ui_step hstep hkept.shaped hcarried.ui
  refine ⟨⟨?_, ?_⟩, hclear, rfl, ?_, ?_⟩
  · simpa using hshaped
  · show r.1.machine.Sound
    rw [hmachine]
    exact hsound
  · have hreplies := hcarried.replies
    unfold carried at hreplies
    rw [hreplies] at hflow
    simp only [State.view, Exchange.turn, hmachine, heffects, hcarried.stops, hflow,
      helsewhere, hout, List.filterMap_nil, List.append_nil]
  · show turned s.phone.machine r.1.machine ++ notes ([].map .out) = _
    rw [hmachine, notes_out, List.append_nil]

theorem hostStep_some {i : HostVideo.Input} (h : s.hostStep i = some (s', es)) :
    ∃ host ns, s.host.step i = some (host, ns) ∧
      s' = { s with host, sent := s.sent ++ ns.filterMap sentFrame } ∧ es = ns.map .host := by
  unfold State.hostStep at h
  split at h
  · cases h
  · next host ns hs =>
    obtain ⟨rfl, rfl⟩ := Prod.mk.inj (Option.some.inj h)
    exact ⟨host, ns, hs, rfl, rfl⟩

theorem commands_sent (sent : List HostWire.Frame) (ns : List HostVideo.Note) :
    (sent ++ ns.filterMap sentFrame).filterMap command =
      sent.filterMap command ++ commanded ns := by
  rw [List.filterMap_append]
  rfl

/-- The loop's own steps. -/
theorem host_moves {i : HostVideo.Input} (h : s.hostStep i = some (s', es))
    (hframe : ∀ now f, i ≠ .frame now f) (hopen : s'.Open) :
    Moves s.view s'.view (notes es) := by
  obtain ⟨host, ns, hs, rfl, rfl⟩ := hostStep_some h
  rw [notes_host]
  cases own_step hs hframe hopen.host with
  | passed hpassed =>
    have hview : State.view { s with host, sent := s.sent ++ ns.filterMap sentFrame } = s.view := by
      simp only [State.view, commands_sent, hpassed.switch, hpassed.advertised, hpassed.commands,
        List.append_nil]
    rw [hview]
    exact .still
  | @asked now width height fps next hadvertised hidle hnext hswitch hkept hcommands =>
    have hmoves :=
      @Moves.asks s.view now s.host.catalogRevision width height fps next hadvertised hidle
      hnext
    simp only [State.view, commands_sent, hswitch, hkept, hcommands] at hmoves ⊢
    exact hmoves
  | @shown now hswitch hkept hcommands =>
    have hmoves := @Moves.shows s.view now
    simp only [State.view, commands_sent, hswitch, hkept, hcommands, List.append_nil] at hmoves ⊢
    exact hmoves

theorem hears_plain {x : Signal} {e : HostQuality.Event} (h : Hears x e) :
    x.isFence = false ∧ x ≠ .gate := by
  cases h <;> exact ⟨rfl, by simp⟩

/-- A frame of the phone. -/
theorem receive_moves {now : ℕ} {frame : FramedOutbound.Frame} {rest : List FramedOutbound.Frame}
    (hwire : s.wire = frame :: rest)
    (h : ({ s with wire := rest } : State).hostStep (.frame now (onLine frame)) = some (s', es))
    (hkept : Kept s) (hopen : s'.Open) :
    Moves s.view s'.view (notes es) := by
  obtain ⟨host, ns, hs, rfl, rfl⟩ := hostStep_some h
  rw [notes_host]
  have hincoming : s.host.incoming now (onLine frame) = (host, ns) := Stream.incoming_of_step hs
  have hformed : formed frame = true := by
    apply hkept.shaped.frames
    rw [hwire]
    exact List.mem_cons_self
  have htaken : Taken s.host now _ _ _ := incoming_taken hformed (by
    rw [hincoming]
    exact hopen.host)
  have hflow : flow s.wire s.threads = signals frame ++ flow rest s.threads := by
    rw [flow, hwire, List.cons_append, List.flatMap_cons, List.append_assoc]
    rfl
  rw [hincoming] at htaken
  dsimp only at htaken
  generalize signals frame = xs at htaken hflow
  cases htaken with
  | passed hpassed =>
    have hview :
        State.view { s with host, sent := s.sent ++ ns.filterMap sentFrame, wire := rest } =
        s.view := by
      simp only [State.view, commands_sent, hpassed.switch, hpassed.advertised, hpassed.commands,
        List.append_nil, hflow, List.nil_append]
    rw [hview]
    exact .still
  | @heard _ _ x e hhears hheard hadvertised =>
    obtain ⟨hfence, hgate⟩ := hears_plain hhears
    have hmoves :=
      @Moves.reads s.view x (flow rest s.threads) e now hflow hfence hgate hhears hheard.kept
    have hview :
        State.view { s with host, sent := s.sent ++ ns.filterMap sentFrame, wire := rest } =
        s.view.read x (flow rest s.threads) now e := by
      simp only [State.view, commands_sent, hheard.switch, hheard.commands, hadvertised]
      rfl
    rw [hview]
    exact hmoves

/-- The UI thread takes a command. -/
theorem command_moves {env : Environment} {frame : HostWire.Frame} {rest : List HostWire.Frame}
    {c : HostCommand} (hsent : s.sent = frame :: rest) (hcommand : command frame = some c)
    (h : ({ s with sent := rest } : State).turn env (.handle c) = some (s', es)) (hkept : Kept s)
    (hnone : elsewhere s.threads = []) :
    Kept s' ∧ s'.host = s.host ∧ Moves s.view s'.view (notes es) := by
  have hcommands : s.view.commands = c :: rest.filterMap command := by
    show s.sent.filterMap command = _
    rw [hsent, List.filterMap_cons_some hcommand]
  obtain ⟨hkept', hclear, hhost, hview, hnotes⟩ := turn_view h ⟨hkept.shaped, hkept.sound⟩
  refine ⟨hkept', hhost, ?_⟩
  rw [hview, hnotes]
  cases c with
  | prepare request => exact Moves.prepares (v := s.view) hcommands hclear
  | commit epoch =>
    refine Moves.commits (v := s.view) hcommands hclear hnone ?_
    simp only [eventOf]
    split
    · exact .inr rfl
    · exact .inl rfl

/-- A call of its own of the phone. -/
theorem call_moves {env : Environment} {call : PhoneQualityController.Call}
    (hpermits : permits s.bridge call = true) (h : s.turn env call = some (s', es))
    (hkept : Kept s) : Kept s' ∧ s'.host = s.host ∧ Moves s.view s'.view (notes es) := by
  obtain ⟨hkept', hclear, hhost, hview, hnotes⟩ := turn_view h hkept
  refine ⟨hkept', hhost, ?_⟩
  rw [hview, hnotes]
  refine Moves.turns (v := s.view) hclear ?_ ?_
  · cases call with
    | handle command => cases hpermits
    | _ => rfl
  · intro width height fps hevent
    cases call with
    | handle command => cases hpermits
    | captureStarted => exact hpermits
    | _ => cases hevent

/-- Calls of the UI thread that the controller has no part in. -/
theorem ui_moves {cs : List FramedOutbound.Call} {bridge : Bool}
    (h : ({ s with bridge } : State).threadStep (.ui cs) = some (s', es)) (hkept : Kept s)
    (hcalls : ∀ u ∈ cs.flatMap FramedOutbound.Call.tasks, ofUi u = true) :
    Kept s' ∧ notes es = [] ∧ s.view.Unfenced ∧
      s'.view = { s.view with
        bridge
        flow := s.view.flow ++ (cs.flatMap FramedOutbound.Call.tasks).flatMap taskSignals } := by
  obtain ⟨threads, fs, hstep, rfl, rfl⟩ := threadStep_some h
  obtain ⟨hshaped, rfl, hout, hclear, hflow, helsewhere⟩ := ui_step hstep hkept.shaped hcalls
  refine ⟨⟨?_, hkept.sound⟩, rfl, hclear, ?_⟩
  · simpa using hshaped
  · simp only [State.view, List.filterMap_nil, List.append_nil, hflow, helsewhere, hout]

theorem spawn_moves {c : FramedOutbound.Call} {bridge : Bool}
    (h : ({ s with bridge } : State).threadStep (.spawn c) = some (s', es)) (hkept : Kept s)
    (hclose : c ≠ .close) :
    Kept s' ∧ notes es = [] ∧
      s'.view = { s.view with
        bridge
        elsewhere := s.view.elsewhere ++ c.tasks.flatMap taskEpochs } := by
  obtain ⟨threads, fs, hstep, rfl, rfl⟩ := threadStep_some h
  obtain ⟨hshaped, rfl, hout, hflow, helsewhere⟩ := spawn_step hstep hkept.shaped hclose
  refine ⟨⟨?_, hkept.sound⟩, rfl, ?_⟩
  · simpa using hshaped
  · simp only [State.view, List.filterMap_nil, List.append_nil, hflow, helsewhere, hout]

theorem thread_open {label : FramedOutbound.Label} (h : s.threadStep label = some (s', es))
    (hlabel : label ≠ .start) (hopen : s'.Open) : s.Open := by
  obtain ⟨threads, fs, hstep, rfl, -⟩ := threadStep_some h
  exact ⟨hopen.host, whole_before hstep hlabel hopen.whole⟩

theorem turn_open {env : Environment} {call : PhoneQualityController.Call}
    (h : s.turn env call = some (s', es)) (hopen : s'.Open) : s.Open := by
  unfold State.turn at h
  dsimp only at h
  split at h
  · cases h
  next t fs hthread =>
  obtain ⟨rfl, -⟩ := Prod.mk.inj (Option.some.inj h)
  have hbefore := thread_open hthread (by simp) hopen
  exact ⟨hbefore.host, hbefore.whole⟩

/-- What a step of the two sides is. -/
inductive Moved (s : State) : Label → State → List Event → Prop
  | host {input : HostVideo.Input} {s' : State} {es : List Event} :
      (∀ now f, input ≠ .frame now f) → s.hostStep input = some (s', es) →
      Moved s (.host input) s' es
  | receive {now : ℕ} {frame : FramedOutbound.Frame} {rest : List FramedOutbound.Frame}
      {s' : State} {es : List Event} : s.wire = frame :: rest →
      ({ s with wire := rest } : State).hostStep (.frame now (onLine frame)) = some (s', es) →
      Moved s (.receive now) s' (.read frame :: es)
  | ignored {env : Environment} {frame : HostWire.Frame} {rest : List HostWire.Frame} :
      s.sent = frame :: rest → command frame = none →
      Moved s (.command env) { s with sent := rest } []
  | command {env : Environment} {frame : HostWire.Frame} {rest : List HostWire.Frame}
      {c : HostCommand} {s' : State} {es : List Event} :
      s.sent = frame :: rest → command frame = some c →
      ({ s with sent := rest } : State).turn env (.handle c) = some (s', es) →
      Moved s (.command env) s' es
  | call {env : Environment} {call : PhoneQualityController.Call} {s' : State}
      {es : List Event} : permits s.bridge call = true → s.turn env call = some (s', es) →
      Moved s (.call env call) s' es
  | begin {s' : State} {es : List Event} : s.bridge = false →
      ({ s with bridge := true } : State).threadStep (.ui [.beginCapture]) = some (s', es) →
      Moved s .begin s' es
  | stop {s' : State} {es : List Event} : s.bridge = true →
      ({ s with bridge := false } : State).threadStep (.ui [.stopVideo]) = some (s', es) →
      Moved s .stop s' es
  | teardown {s' : State} {es : List Event} :
      ({ s with bridge := false } : State).threadStep (.spawn .stopVideo) = some (s', es) →
      Moved s .teardown s' es
  | refresh {permission : Permission} {revision : ℕ} {modes : List QualityMode} {s' : State}
      {es : List Event} :
      s.threadStep (.ui [.sendCapabilities (s.capabilities permission revision modes)]) =
        some (s', es) → Moved s (.refresh permission revision modes) s' es
  | grant {permission : Permission} {revision : ℕ} {modes : List QualityMode} {s' : State}
      {es : List Event} :
      s.threadStep (.spawn (.sendCapabilities (s.capabilities permission revision modes))) =
        some (s', es) → Moved s (.grant permission revision modes) s' es
  | outbound {label : FramedOutbound.Label} {s' : State} {es : List Event} :
      spawns label = true → s.threadStep label = some (s', es) → Moved s (.outbound label) s' es

/-- Every step is one of these. -/
theorem moved_of_step {i : Label} (hs : step s i = some (s', es)) : Moved s i s' es := by
  cases i with
  | host input =>
    cases input with
    | frame now f => cases hs
    | _ => exact .host (by simp) hs
  | receive now =>
    simp only [step] at hs
    split at hs
    · cases hs
    next frame rest hwire =>
    split at hs
    · cases hs
    next hstep =>
    obtain ⟨rfl, rfl⟩ := Prod.mk.inj (Option.some.inj hs)
    exact .receive hwire hstep
  | command env =>
    simp only [step] at hs
    split at hs
    · cases hs
    next frame rest hsent =>
    split at hs
    · next hcommand =>
      obtain ⟨rfl, rfl⟩ := Prod.mk.inj (Option.some.inj hs)
      exact .ignored hsent hcommand
    · next hcommand => exact .command hsent hcommand hs
  | call env call =>
    simp only [step] at hs
    split at hs
    · next hpermits => exact .call hpermits hs
    · cases hs
  | begin =>
    simp only [step] at hs
    split at hs
    · cases hs
    · next hbridge => exact .begin (Bool.eq_false_of_not_eq_true hbridge) hs
  | stop =>
    simp only [step] at hs
    split at hs
    · next hbridge => exact .stop hbridge hs
    · cases hs
  | teardown => exact .teardown hs
  | refresh => exact .refresh hs
  | grant => exact .grant hs
  | outbound label =>
    simp only [step] at hs
    split at hs
    · next hspawns => exact .outbound hspawns hs
    · cases hs

theorem host_open {t : State} {input : HostVideo.Input} (h : t.hostStep input = some (s', es))
    (hopen : s'.Open) : t.Open := by
  obtain ⟨host, ns, hstep, rfl, -⟩ := hostStep_some h
  exact ⟨running_before hstep, hopen.whole⟩

/-- A session that is over does not open again. -/
theorem step_open {i : Label} (hs : step s i = some (s', es)) (hopen : s'.Open) : s.Open := by
  cases moved_of_step hs with
  | host _ hstep => exact host_open hstep hopen
  | receive _ hstep =>
    have hbefore := host_open hstep hopen
    exact ⟨hbefore.host, hbefore.whole⟩
  | ignored => exact ⟨hopen.host, hopen.whole⟩
  | command _ _ hturn =>
    have hbefore := turn_open hturn hopen
    exact ⟨hbefore.host, hbefore.whole⟩
  | call _ hturn => exact turn_open hturn hopen
  | begin _ hthread | stop _ hthread | teardown hthread =>
    have hbefore := thread_open hthread (by simp) hopen
    exact ⟨hbefore.host, hbefore.whole⟩
  | refresh hthread | grant hthread => exact thread_open hthread (by simp) hopen
  | outbound hspawns hthread =>
    refine thread_open hthread ?_ hopen
    intro heq
    rw [heq] at hspawns
    cases hspawns

/-- **The refinement.** A step of an orderly session that is still open is one move. -/
theorem step_moves {i : Label} (hs : step s i = some (s', es)) (horderly : Orderly tr s i)
    (hkept : Kept s) (hopen : s'.Open) : Kept s' ∧ Moves s.view s'.view (notes es) := by
  -- what is open after the step was open before it
  have hbefore := step_open hs hopen
  cases moved_of_step hs with
  | host hframe hstep =>
    have hmoves := host_moves hstep hframe hopen
    obtain ⟨host, ns, hhost, rfl, -⟩ := hostStep_some hstep
    exact ⟨⟨hkept.shaped, hkept.sound⟩, hmoves⟩
  | receive hwire hstep =>
    have hmoves := receive_moves hwire hstep hkept hopen
    obtain ⟨host, ns, hhost, rfl, -⟩ := hostStep_some hstep
    refine ⟨⟨⟨?_, hkept.shaped.video, hkept.shaped.ui, hkept.shaped.others⟩, hkept.sound⟩, hmoves⟩
    intro f hf
    apply hkept.shaped.frames
    rw [hwire]
    exact List.mem_cons_of_mem _ hf
  | @ignored _ frame rest hsent hcommand =>
    refine ⟨⟨hkept.shaped, hkept.sound⟩, ?_⟩
    -- a frame that is no command is not in the view
    have hview : State.view { s with sent := rest } = s.view := by
      simp only [State.view, hsent, List.filterMap_cons_none hcommand]
    rw [hview]
    exact .still
  | command hsent hcommand hturn =>
    obtain ⟨hkept', -, hmoves⟩ := command_moves hsent hcommand hturn hkept horderly
    exact ⟨hkept', hmoves⟩
  | call hpermits hturn =>
    obtain ⟨hkept', -, hmoves⟩ := call_moves hpermits hturn hkept
    exact ⟨hkept', hmoves⟩
  | begin hbridge hthread =>
    obtain ⟨hkept', hnotes, hclear, hview⟩ := ui_moves hthread hkept (by decide)
    refine ⟨hkept', ?_⟩
    rw [hnotes, hview]
    exact Moves.begins (v := s.view) hclear hbridge horderly
  | stop _ hthread =>
    obtain ⟨hkept', hnotes, hclear, hview⟩ := ui_moves hthread hkept (by decide)
    have hsignals : ([FramedOutbound.Call.stopVideo].flatMap FramedOutbound.Call.tasks).flatMap
        taskSignals = [] := rfl
    refine ⟨hkept', ?_⟩
    rw [hnotes, hview, hsignals, List.append_nil]
    exact Moves.closes (v := s.view)
  | teardown hthread =>
    obtain ⟨hkept', hnotes, hview⟩ := spawn_moves hthread hkept (by simp)
    have hepochs : FramedOutbound.Call.stopVideo.tasks.flatMap taskEpochs = [] := rfl
    refine ⟨hkept', ?_⟩
    rw [hnotes, hview, hepochs, List.append_nil]
    exact Moves.closes (v := s.view)
  | @refresh permission revision modes _ _ hthread =>
    have hcalls (u : FramedOutbound.Task) (hu : u ∈ [FramedOutbound.Call.sendCapabilities
        (s.capabilities permission revision modes)].flatMap FramedOutbound.Call.tasks) :
        ofUi u = true := by
      rw [List.mem_singleton.mp hu]
      rfl
    have hthread' : ({ s with bridge := s.bridge } : State).threadStep (.ui [.sendCapabilities
        (s.capabilities permission revision modes)]) = some (s', es) := hthread
    obtain ⟨hkept', hnotes, hclear, hview⟩ := ui_moves hthread' hkept hcalls
    refine ⟨hkept', ?_⟩
    rw [hnotes, hview]
    exact Moves.announces (v := s.view) hclear
  | @grant permission revision modes _ _ hthread =>
    have hthread' : ({ s with bridge := s.bridge } : State).threadStep (.spawn (.sendCapabilities
        (s.capabilities permission revision modes))) = some (s', es) := hthread
    obtain ⟨hkept', hnotes, hview⟩ := spawn_moves hthread' hkept (by simp)
    refine ⟨hkept', ?_⟩
    rw [hnotes, hview]
    exact Moves.grants (v := s.view)
  | outbound hspawns hthread =>
    obtain ⟨threads, fs, hstep, rfl, rfl⟩ := threadStep_some hthread
    obtain ⟨hshaped, hmoves⟩ := thread_step (v := s.view) hkept.shaped hbefore.whole hstep hspawns
      hopen.whole
    refine ⟨⟨hshaped, hkept.sound⟩, ?_⟩
    rw [notes_out]
    exact hmoves

/-! ## Every run -/

/-- What an open session has. -/
structure Refined (tr : List Event) (s : State) : Prop where
  kept : Kept s
  agreed : Agreed (notes tr) s.view

theorem refined_start (h : system.start s) : Refined [] s := by
  obtain ⟨capacity, o, startingEpoch, hnew, hepoch, rfl⟩ := h
  obtain rfl : o = _ := by
    unfold FramedOutbound.new at hnew
    split at hnew
    · exact (Option.some.inj hnew).symm
    · cases hnew
  refine ⟨⟨⟨?_, ?_, ?_, ?_⟩, QualitySwitch.Machine.sound_new startingEpoch⟩, ⟨?_, ?_⟩⟩
  · intro f hf
    cases hf
  · intro f hf
    cases hf
  · intro t ht
    cases ht
  · intro p hp
    cases hp
  · exact
      { next := rfl, last := Nat.le_refl 0, range := hepoch
        within := by
          intro x hx
          cases hx
        elsewhere := by
          intro e he
          cases he
        known := by
          intro hadvertised
          cases hadvertised
        asked := fun hphase => absurd rfl hphase
        shut := fun _ => rfl
        fenced := by
          intro key hkey
          cases hkey
        fence := by
          intro key hkey
          cases hkey
        single := Nat.zero_le 1 }
  · refine .settled rfl ⟨rfl, rfl, ⟨?_, .inl rfl⟩⟩
    intro x hx
    cases hx

/-- The agreement holds wherever an orderly session gets to, as long as it is open. -/
theorem refined (h : system.Under Orderly tr s) (hopen : s.Open) : Refined tr s := by
  have hinv : s.Open → Refined tr s := by
    refine h.invariant (P := fun tr s => s.Open → Refined tr s) ?_ ?_
    · intro s hs _
      exact refined_start hs
    · intro tr s i s' es _ horderly ih hs hopen'
      have hstep : step s i = some (s', es) := hs
      obtain ⟨hkept, hagreed⟩ := ih (step_open hstep hopen')
      obtain ⟨hkept', hmoves⟩ := step_moves hstep horderly hkept hopen'
      refine ⟨hkept', ?_⟩
      show Agreed ((tr ++ es).flatMap noted) _
      rw [List.flatMap_append]
      exact hagreed.moves hmoves
  exact hinv hopen

end QualityAgreement
end MobileWebcamBridge
