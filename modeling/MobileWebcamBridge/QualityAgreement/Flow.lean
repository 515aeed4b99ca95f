import MobileWebcamBridge.Phone.FramedOutbound.Line
import MobileWebcamBridge.QualityAgreement.Loop

/-!
# The writer's threads as moves of the exchange

`flow` reads the signals in flight off the line, the writer's hand, its control queue and the
program of the UI thread, with the gate behind the queue while video is enabled. A step of the
threads that drops no frame is one move of an exchange with that flow.
-/

set_option autoImplicit false

namespace MobileWebcamBridge
namespace QualityAgreement

open Wire Signal
open FramedOutbound (Task Threads Frame Runs Moved moved_of_step resume MAX_CONTROL_FRAMES)

/-! ## The signals of the threads -/

/-- The epoch of a capability frame. -/
def Signal.epoch? : Signal → Option ℕ
  | .capabilities epoch => some epoch
  | _ => none

/-- What the UI thread still has to queue or to do. -/
def taskSignals : Task → List Signal
  | .beginCapture => [.gate]
  | .fence key => [.fence key]
  | .number f _ | .guard f _ | .enqueue f _ => signals f
  | _ => []

/-- The epochs that a task of another thread has yet to announce. -/
def taskEpochs : Task → List ℕ
  | .number f _ | .guard f _ | .enqueue f _ => (signals f).filterMap Signal.epoch?
  | _ => []

/-- The frames that the writer holds, in the order it writes them. -/
def queued (s : Threads) : List Frame := s.writer.hand ++ s.out.controlQueue

/-- The gate stands behind the queue while video is enabled. -/
def gates (enabled : Bool) : List Signal := if enabled then [.gate] else []

/-- The signals on their way to the PC. -/
def flow (wire : List Frame) (s : Threads) : List Signal :=
  (wire ++ queued s).flatMap signals ++ (gates s.out.videoEnabled ++ s.ui.flatMap taskSignals)

/-- The epochs of the capability frames that other threads will queue. -/
def elsewhere (s : Threads) : List ℕ := s.others.flatMap fun p => p.flatMap taskEpochs

/-- The exchange with the signals of these threads. -/
def Exchange.onto (v : Exchange) (wire : List Frame) (s : Threads) : Exchange :=
  { v with
    flow := QualityAgreement.flow wire s
    elsewhere := QualityAgreement.elsewhere s
    fenced := s.out.lastFence }

/-- What the UI thread may have to do: a frame it queues is no video. -/
def ofUi : Task → Bool
  | .beginCapture | .stopVideo | .fence _ | .release | .overflow => true
  | .number f none | .guard f none | .enqueue f none =>
    formed f && (f.header.type == .paused || f.header.type == .qualityResult ||
      f.header.type == .qualityCapabilities)
  | _ => false

/-- What another thread may have to do: no reply, and video under a token alone. -/
def ofOthers : Task → Bool
  | .beginCapture | .fence _ | .halt | .clear => false
  | .number f token | .guard f token | .enqueue f token =>
    formed f && f.header.type != .paused && f.header.type != .qualityResult &&
      (f.header.type == .videoConfig) == token.isSome
  | _ => true

/-- The frames and the programs of a session. -/
structure Shaped (wire : List Frame) (s : Threads) : Prop where
  frames : ∀ f ∈ wire ++ queued s, formed f = true
  video : ∀ f ∈ s.out.videoQueue, f.header.type = .videoAu
  ui : ∀ t ∈ s.ui, ofUi t = true
  others : ∀ p ∈ s.others, ∀ t ∈ p, ofOthers t = true

/-- The writer runs, and no control frame was dropped. -/
structure Whole (s : Threads) : Prop where
  running : s.out.running = true
  steady : s.out.controlOverflowed = false
  ui : .overflow ∉ s.ui

variable {wire : List Frame} {s s' : Threads} {t : Task} {ts : List Task} {f : Frame} {epoch : ℕ}

/-! ## Frames -/

theorem signals_numbered (f : Frame) (sequence : ℕ) :
    signals { f with header := { f.header with sequence } } = signals f := rfl

theorem signals_queued (f : Frame) (token : ℕ) :
    signals { f with token } = signals f := rfl

theorem signals_unit (h : f.header.type = .videoAu) : signals f = [] := by
  simp only [signals, h]

theorem signals_config (h : f.header.type = .videoConfig) : signals f = [.video] := by
  simp only [signals, h]

/-- A frame of the UI thread is one signal at most, and neither video nor a fence. -/
theorem signals_ui (h : f.header.type = .paused ∨ f.header.type = .qualityResult ∨
    f.header.type = .qualityCapabilities) :
    signals f = [] ∨ ∃ x, signals f = [x] ∧ x.isVideo = false ∧ x.isFence = false := by
  unfold signals
  split
  · split
    · exact .inr ⟨_, rfl, rfl, rfl⟩
    · exact .inl rfl
  · exact .inr ⟨_, rfl, rfl, rfl⟩
  · exact .inr ⟨_, rfl, rfl, rfl⟩
  · next hconfig =>
    rw [hconfig] at h
    simp at h
  · exact .inl rfl

/-- A frame of another thread that is no video is nothing, or a list of capabilities. -/
theorem signals_others (hpaused : f.header.type ≠ .paused)
    (hresult : f.header.type ≠ .qualityResult) (hconfig : f.header.type ≠ .videoConfig) :
    signals f = [] ∨ ∃ e, signals f = [.capabilities e] := by
  unfold signals
  split
  · split
    · exact .inr ⟨_, rfl⟩
    · exact .inl rfl
  · next h _ => exact absurd h hresult
  · next h _ => exact absurd h hpaused
  · next h => exact absurd h hconfig
  · exact .inl rfl

/-! ## What the writer's moves do to the signals -/

/-- Dropping queued `VIDEO_CONFIG`s. -/
theorem shift_filter (q : List Frame) :
    Shift epoch (q.flatMap signals) ((q.filter fun f => !f.isVideoConfig).flatMap signals) := by
  induction q with
  | nil => exact .nil
  | cons f q ih =>
    rw [List.flatMap_cons]
    by_cases hconfig : f.isVideoConfig = true
    · rw [List.filter_cons_of_neg (by simp [hconfig]),
        signals_config (by simpa [FramedOutbound.Frame.isVideoConfig] using hconfig)]
      exact .drop rfl ih
    · rw [List.filter_cons_of_pos (by simp [hconfig]), List.flatMap_cons]
      exact (Shift.refl _).append ih

/-- The gate shuts. -/
theorem shift_gates (enabled : Bool) : Shift epoch (gates enabled) [] := by
  cases enabled with
  | false => exact .nil
  | true => exact .drop rfl .nil

/-- All video is dropped, up to what the writer has taken. -/
theorem shift_cleared (wire : List Frame) (s : Threads) (enabled : Bool) :
    Shift epoch ((wire ++ queued s).flatMap signals ++ gates enabled)
      ((wire ++ (s.writer.hand ++ s.out.controlQueue.filter fun f => !f.isVideoConfig)).flatMap
        signals) := by
  have hgates : Shift epoch (gates enabled) [] := shift_gates enabled
  simp only [queued, List.flatMap_append]
  rw [← List.append_nil (List.flatMap signals (List.filter _ s.out.controlQueue))]
  rw [List.append_assoc, List.append_assoc]
  exact (Shift.refl _).append ((Shift.refl _).append ((shift_filter _).append hgates))

/-- A control frame is queued in front of the gate. -/
theorem shift_queued (enabled : Bool) (h : signals f = [] ∨
    ∃ x, signals f = [x] ∧ x.isVideo = false ∧ x.isFence = false) :
    Shift epoch (gates enabled ++ signals f) (signals f ++ gates enabled) := by
  rcases h with h | ⟨x, h, hvideo, hfence⟩
  · rw [h, List.append_nil]
    exact .refl _
  · rw [h]
    cases enabled with
    | false => exact .refl _
    | true => exact .queue hvideo hfence .nil

/-! ## Tasks of the UI thread -/

section tasks

variable {v : Exchange} {o : FramedOutbound}

/-- The threads behind a task of the UI thread. -/
theorem flow_ui (wire : List Frame) (s : Threads) (h : s.ui = t :: ts) :
    flow wire s = ((wire ++ queued s).flatMap signals ++ gates s.out.videoEnabled) ++
      (taskSignals t ++ ts.flatMap taskSignals) := by
  simp only [flow, h, List.flatMap_cons, List.append_assoc]

/-- The moves of a task that only rearranges the signals. -/
theorem moves_shift {s' : Threads} (h : Shift v.phone.epoch (flow wire s) (flow wire s'))
    (hsub : elsewhere s' ⊆ elsewhere s) (hfence : s'.out.lastFence = s.out.lastFence) :
    Moves (v.onto wire s) (v.onto wire s') [] := by
  have hmoves := Moves.shifts (v := v.onto wire s) h hsub
  simp only [Exchange.onto, hfence] at hmoves ⊢
  exact hmoves

theorem moves_same {s' : Threads} (h : flow wire s' = flow wire s)
    (hsub : elsewhere s' ⊆ elsewhere s) (hfence : s'.out.lastFence = s.out.lastFence) :
    Moves (v.onto wire s) (v.onto wire s') [] := by
  refine moves_shift ?_ hsub hfence
  rw [h]
  exact .refl _

/-- A capture begins: what is queued of the one before is dropped, and the gate opens. -/
theorem moves_begin (h : s.ui = .beginCapture :: ts) :
    Moves (v.onto wire s)
      (v.onto wire { s with out := s.out.beginCapture, ui := ts }) [] := by
  refine moves_shift ?_ (List.Subset.refl _) rfl
  rw [flow_ui wire s h]
  have hcleared : Shift v.phone.epoch _ _ := (shift_cleared wire s s.out.videoEnabled).append
    (.refl (taskSignals .beginCapture ++ ts.flatMap taskSignals))
  exact hcleared

theorem moves_stop (h : s.ui = .stopVideo :: ts) :
    Moves (v.onto wire s) (v.onto wire { s with out := s.out.stopVideo, ui := ts }) [] := by
  refine moves_shift ?_ (List.Subset.refl _) rfl
  rw [flow_ui wire s h]
  have hcleared : Shift v.phone.epoch _ _ := (shift_cleared wire s s.out.videoEnabled).append
    (.refl (taskSignals .stopVideo ++ ts.flatMap taskSignals))
  exact hcleared

/-- No fence is among what the writer has. -/
theorem unfenced_signals (q : List Frame) : (q.flatMap signals).filter isFence = [] := by
  rw [List.filter_eq_nil_iff]
  intro x hx
  obtain ⟨f, -, hx⟩ := List.mem_flatMap.mp hx
  unfold signals at hx
  split at hx
  · split at hx
    · rw [List.mem_singleton.mp hx]
      simp [isFence]
    · cases hx
  · rw [List.mem_singleton.mp hx]
    simp [isFence]
  · rw [List.mem_singleton.mp hx]
    simp [isFence]
  · rw [List.mem_singleton.mp hx]
    simp [isFence]
  · cases hx

theorem unfenced_gates (enabled : Bool) : (gates enabled).filter isFence = [] := by
  cases enabled <;> rfl

/-- No gate is among what the writer has. -/
theorem gate_not_signals (q : List Frame) : .gate ∉ q.flatMap signals := by
  intro hgate
  obtain ⟨f, -, hgate⟩ := List.mem_flatMap.mp hgate
  unfold signals at hgate
  split at hgate
  · split at hgate <;> simp at hgate
  · simp at hgate
  · simp at hgate
  · simp at hgate
  · simp at hgate

/-- A reply's fence: a new one drops the video before it and shuts the gate. -/
theorem moves_fence {key : FrameType × ℕ} (h : s.ui = .fence key :: ts) :
    Moves (v.onto wire s) (v.onto wire { s with out := s.out.fenceOnce key, ui := ts }) [] := by
  have hflow := flow_ui wire s h
  have hbefore : ((wire ++ queued s).flatMap signals ++ gates s.out.videoEnabled).filter isFence =
      [] := by
    rw [List.filter_append, unfenced_signals, unfenced_gates]
    rfl
  by_cases hagain : s.out.lastFence = some key
  · -- the same reply again: nothing is dropped
    have hsame : s.out.fenceOnce key = s.out := by simp [FramedOutbound.fenceOnce, hagain]
    have hmoves := Moves.fences (v := v.onto wire s) hflow hbefore
      (fun hnew => absurd hagain hnew) (.refl _)
    rw [hsame]
    simp only [Exchange.onto, hagain] at hmoves ⊢
    have hafter : flow wire { s with ui := ts } =
        ((wire ++ queued s).flatMap signals ++ gates s.out.videoEnabled) ++
          ts.flatMap taskSignals := by
      simp only [flow, queued, List.append_assoc]
    rw [hafter]
    exact hmoves
  · have hnew : s.out.fenceOnce key = { s.out.stopVideo with lastFence := some key } := by
      simp [FramedOutbound.fenceOnce, hagain]
    have hcleared : Shift v.phone.epoch _ _ := shift_cleared wire s s.out.videoEnabled
    have hmoves := Moves.fences (v := v.onto wire s) hflow hbefore
      (fun _ => gate_not_signals _) hcleared
    rw [hnew]
    exact hmoves

/-- What the UI thread may queue. -/
theorem ofUi_frame {token : Option ℕ} (h : ofUi (.enqueue f token) = true) :
    token = none ∧ formed f = true ∧ (f.header.type = .paused ∨ f.header.type = .qualityResult ∨
      f.header.type = .qualityCapabilities) := by
  cases token with
  | some token => cases h
  | none =>
    simp only [ofUi, Bool.and_eq_true, Bool.or_eq_true, beq_iff_eq, or_assoc] at h
    exact ⟨rfl, h.1, h.2⟩

/-- A control frame that finds room is queued in front of the gate. -/
theorem moves_enqueue {token : Option ℕ} (hui : s.ui = .enqueue f token :: ts)
    (hf : ofUi (.enqueue f token) = true) (more : List Task)
    (hmore : more.flatMap taskSignals = []) :
    Moves (v.onto wire s)
      (v.onto wire { s with
        out := { s.out with
          controlQueue := s.out.controlQueue ++ [{ f with token := s.out.generation }] }
        ui := more ++ ts }) [] := by
  obtain ⟨-, -, htype⟩ := ofUi_frame hf
  refine moves_shift ?_ (List.Subset.refl _) rfl
  have hqueued : Shift v.phone.epoch _ _ := shift_queued s.out.videoEnabled (signals_ui htype)
  have hafter : flow wire { s with
      out := { s.out with
        controlQueue := s.out.controlQueue ++ [{ f with token := s.out.generation }] }
      ui := more ++ ts } = (wire ++ queued s).flatMap signals ++
        ((signals f ++ gates s.out.videoEnabled) ++ ts.flatMap taskSignals) := by
    simp only [flow, queued, List.flatMap_append, hmore, List.flatMap_cons, List.flatMap_nil,
      List.append_nil, List.nil_append, List.append_assoc, signals_queued]
  rw [flow_ui wire s hui, hafter, List.append_assoc, ← List.append_assoc (gates _)]
  exact (Shift.refl _).append (hqueued.append (.refl _))

/-- Only a writer that does not run refuses a frame without a token. -/
theorem refused_not (hrunning : o.running = true) (h : o.enqueueControl f none = (o, .refused)) :
    False := by
  have hadmission := congrArg Prod.snd h
  unfold FramedOutbound.enqueueControl at hadmission
  rw [if_neg (by simp [hrunning])] at hadmission
  split at hadmission <;> cases hadmission

/-- A task of the UI thread is a move, unless it drops its frame. -/
theorem moves_ui (hshaped : Shaped wire s) (hui : s.ui = t :: ts) (hwhole : Whole s)
    (hafter : Whole { s with out := (s.out.runTask t).1, ui := (s.out.runTask t).2.1 ++ ts }) :
    Moves (v.onto wire s)
      (v.onto wire { s with out := (s.out.runTask t).1, ui := (s.out.runTask t).2.1 ++ ts })
        [] := by
  have hof := hshaped.ui t (by rw [hui]; exact List.mem_cons_self)
  have hflow := flow_ui wire s hui
  cases t with
  | beginCapture => exact moves_begin hui
  | stopVideo => exact moves_stop hui
  | fence key => exact moves_fence hui
  | release =>
    refine moves_same ?_ (List.Subset.refl _) rfl
    rw [hflow]
    simp only [flow, queued, FramedOutbound.runTask, taskSignals, List.nil_append,
      List.append_assoc]
  | overflow => exact absurd hafter.steady (by simp [FramedOutbound.runTask])
  | number g token =>
    refine moves_same ?_ (List.Subset.refl _) rfl
    rw [hflow]
    simp only [flow, queued, FramedOutbound.runTask, List.cons_append, List.nil_append,
      List.flatMap_cons, taskSignals, signals_numbered, List.append_assoc]
  | guard g token =>
    have hpass : (!s.out.running || s.out.controlOverflowed) = false := by
      simp [hwhole.running, hwhole.steady]
    refine moves_same ?_ (List.Subset.refl _) rfl
    rw [hflow]
    simp only [flow, queued, FramedOutbound.runTask, hpass, Bool.false_eq_true, if_false,
      List.cons_append, List.nil_append, List.flatMap_cons, taskSignals, List.append_assoc]
  | enqueue g token =>
    obtain ⟨rfl, -, -⟩ := ofUi_frame hof
    rcases FramedOutbound.enqueueControl_cases s.out g none with hr | ⟨-, hfull, hr⟩ |
      ⟨-, -, -, hr⟩
    · exact (refused_not hwhole.running hr).elim
    · exfalso
      apply hafter.ui
      simp [FramedOutbound.runTask, hr]
    · have hmoves : Moves (v.onto wire s) _ [] := moves_enqueue hui hof [.release] rfl
      simp only [FramedOutbound.runTask, hr] at hmoves ⊢
      exact hmoves
  | setCodecConfig | keepVideoConfig | offerUnit | recover | needIdr | halt | clear => cases hof

/-! ## Tasks of other threads -/

theorem elsewhere_set {j : ℕ} {more : List Task} (hj : s.others[j]? = some (t :: ts))
    (hmore : more.flatMap taskEpochs ⊆ taskEpochs t) :
    (s.others.set j (more ++ ts)).flatMap (fun p => p.flatMap taskEpochs) ⊆ elsewhere s := by
  intro e he
  obtain ⟨p, hp, he⟩ := List.mem_flatMap.mp he
  rcases List.mem_or_eq_of_mem_set hp with hp | rfl
  · exact List.mem_flatMap.mpr ⟨p, hp, he⟩
  · refine List.mem_flatMap.mpr ⟨t :: ts, List.mem_of_getElem? hj, ?_⟩
    rw [List.flatMap_append] at he
    rw [List.flatMap_cons]
    rcases List.mem_append.mp he with he | he
    · exact List.mem_append_left _ (hmore he)
    · exact List.mem_append_right _ he

theorem ofOthers_frame {token : Option ℕ} (h : ofOthers (.enqueue f token) = true) :
    formed f = true ∧ f.header.type ≠ .paused ∧ f.header.type ≠ .qualityResult ∧
      (f.header.type = .videoConfig ↔ token.isSome = true) := by
  simp only [ofOthers, Bool.and_eq_true, bne_iff_ne, ne_eq, beq_iff_eq, and_assoc] at h
  obtain ⟨hformed, hpaused, hresult, hconfig⟩ := h
  refine ⟨hformed, hpaused, hresult, ?_⟩
  rw [← hconfig, beq_iff_eq]

/-- What another thread queues: video at the gate, or a list of capabilities. -/
theorem moves_enqueue_others {token : Option ℕ} {j : ℕ} {others : List (List Task)}
    (hj : s.others[j]? = some (.enqueue f token :: ts))
    (hf : ofOthers (.enqueue f token) = true)
    (haccepts : ∀ n, token = some n → s.out.accepts n = true)
    (hsub : others.flatMap (fun p => p.flatMap taskEpochs) ⊆ elsewhere s) :
    Moves (v.onto wire s)
      (v.onto wire { s with
        out := { s.out with
          controlQueue := s.out.controlQueue ++ [{ f with token := s.out.generation }] }
        others }) [] := by
  obtain ⟨-, hpaused, hresult, hconfig⟩ := ofOthers_frame hf
  have hafter : flow wire { s with
      out := { s.out with
        controlQueue := s.out.controlQueue ++ [{ f with token := s.out.generation }] }
      others } = (wire ++ queued s).flatMap signals ++
        (signals f ++ (gates s.out.videoEnabled ++ s.ui.flatMap taskSignals)) := by
    simp only [flow, queued, List.flatMap_append, List.flatMap_cons, List.flatMap_nil,
      List.append_nil, List.append_assoc, signals_queued]
  cases token with
  | some n =>
    have htype : f.header.type = .videoConfig := hconfig.mpr rfl
    have henabled : s.out.videoEnabled = true :=
      (FramedOutbound.accepts_iff.mp (haccepts n rfl)).2.1
    refine moves_shift ?_ hsub rfl
    rw [hafter, signals_config htype, flow, henabled]
    exact (Shift.refl _).append (.config (.refl _))
  | none =>
    have htype : f.header.type ≠ .videoConfig := fun h => by simpa using hconfig.mp h
    rcases signals_others hpaused hresult htype with hnone | ⟨e, hcaps⟩
    · refine moves_same ?_ hsub rfl
      rw [hafter, hnone]
      rfl
    · have hmem : e ∈ elsewhere s := by
        refine List.mem_flatMap.mpr ⟨_, List.mem_of_getElem? hj, ?_⟩
        rw [List.flatMap_cons]
        apply List.mem_append_left
        simp [taskEpochs, hcaps, Signal.epoch?]
      have hmoves := Moves.lands (v := v.onto wire s) rfl hmem hsub
      have hsignals : flow wire { s with
          out := { s.out with
            controlQueue := s.out.controlQueue ++ [{ f with token := s.out.generation }] }
          others } = (wire ++ queued s).flatMap signals ++
            .capabilities e :: (gates s.out.videoEnabled ++ s.ui.flatMap taskSignals) := by
        rw [hafter, hcaps]
        rfl
      simp only [Exchange.onto, hsignals]
      exact hmoves

/-- A task that says nothing changes nothing that the exchange sees. -/
theorem moves_quiet {j : ℕ} {more : List Task} {o' : FramedOutbound}
    (hj : s.others[j]? = some (t :: ts)) (hmore : more.flatMap taskEpochs ⊆ taskEpochs t)
    (hqueue : o'.controlQueue = s.out.controlQueue)
    (henabled : o'.videoEnabled = s.out.videoEnabled) (hfence : o'.lastFence = s.out.lastFence) :
    Moves (v.onto wire s)
      (v.onto wire { s with out := o', others := s.others.set j (more ++ ts) }) [] := by
  refine moves_same ?_ (elsewhere_set hj hmore) hfence
  simp only [flow, queued, hqueue, henabled]

/-- Units alone are in the video queue. -/
def Units (o : FramedOutbound) : Prop := ∀ f ∈ o.videoQueue, f.header.type = .videoAu

/-- A task that neither queues a control frame nor clears one. -/
structure Keeps (o : FramedOutbound) (t : Task) (r : FramedOutbound × List Task) : Prop where
  queue : r.1.controlQueue = o.controlQueue
  enabled : r.1.videoEnabled = o.videoEnabled
  fence : r.1.lastFence = o.lastFence
  epochs : r.2.flatMap taskEpochs ⊆ taskEpochs t
  more : ∀ u ∈ r.2, ofOthers u = true
  units : Units o → Units r.1

theorem keeps_one {t u : Task} {o' : FramedOutbound} (hqueue : o'.controlQueue = o.controlQueue)
    (henabled : o'.videoEnabled = o.videoEnabled) (hfence : o'.lastFence = o.lastFence)
    (hepochs : taskEpochs u = taskEpochs t) (hof : ofOthers u = true)
    (hunits : Units o → Units o') :
    Keeps o t (o', [u]) := by
  refine ⟨hqueue, henabled, hfence, ?_, ?_, hunits⟩
  · rw [List.flatMap_cons, List.flatMap_nil, List.append_nil, hepochs]
    exact List.Subset.refl _
  · intro w hw
    rw [List.mem_singleton.mp hw]
    exact hof

theorem keeps_none {t : Task} {o' : FramedOutbound} (hqueue : o'.controlQueue = o.controlQueue)
    (henabled : o'.videoEnabled = o.videoEnabled) (hfence : o'.lastFence = o.lastFence)
    (hunits : Units o → Units o') : Keeps o t (o', []) := by
  refine ⟨hqueue, henabled, hfence, ?_, ?_, hunits⟩
  · exact List.nil_subset _
  · intro w hw
    cases hw

/-- A `VIDEO_CONFIG` that is about to be queued announces nothing. -/
theorem keeps_config {t : Task} {o' : FramedOutbound} {config : VideoConfig} {token : ℕ}
    (hqueue : o'.controlQueue = o.controlQueue) (henabled : o'.videoEnabled = o.videoEnabled)
    (hfence : o'.lastFence = o.lastFence) (hunits : Units o → Units o') :
    Keeps o t (o', [FramedOutbound.enqueueVideoConfig config token, .needIdr]) := by
  refine ⟨hqueue, henabled, hfence, ?_, ?_, hunits⟩
  · exact List.nil_subset _
  · intro w hw
    simp only [List.mem_cons, List.not_mem_nil, or_false] at hw
    rcases hw with rfl | rfl <;> rfl

theorem units_offer (unit : VideoWire.AccessUnit) (token : ℕ) (h : Units o) :
    Units (o.offerUnit unit token).1 := by
  have hqueue (p : FramedOutbound) (hp : Units p) (token serial : ℕ) :
      Units (p.queueUnit unit token serial) := by
    intro f hf
    rcases List.mem_append.mp hf with hf | hf
    · exact hp f hf
    · rw [List.mem_singleton.mp hf]
      rfl
  have hroom (p : FramedOutbound) : Units (p.makeRoom unit) := by
    intro f hf
    cases hf
  rcases FramedOutbound.offer_cases o unit token with hr | ⟨-, hr⟩
  · rw [hr]
    exact h
  · generalize o.offerUnit unit token = r at hr ⊢
    cases hr with
    | unconfigured | skipped => exact h
    | queued => exact hqueue _ h _ _
    | replaced => exact hqueue _ (hroom _) _ _
    | overflowed => exact hroom _

theorem keeps_of_task (ht : ofOthers t = true) (hstop : t ≠ .stopVideo)
    (hqueue : ∀ f token, t ≠ .enqueue f token) :
    Keeps o t ((o.runTask t).1, (o.runTask t).2.1) := by
  cases t with
  | beginCapture | fence | halt | clear => cases ht
  | stopVideo => exact absurd rfl hstop
  | enqueue f token => exact absurd rfl (hqueue f token)
  | release | overflow | needIdr => exact keeps_none rfl rfl rfl id
  | number f token => exact keeps_one rfl rfl rfl rfl ht id
  | guard f token =>
    simp only [FramedOutbound.runTask]
    split
    · exact keeps_none rfl rfl rfl id
    · exact keeps_one rfl rfl rfl rfl ht id
  | setCodecConfig config token =>
    simp only [FramedOutbound.runTask, FramedOutbound.setCodecConfig]
    split
    · exact keeps_none rfl rfl rfl id
    · exact keeps_none rfl rfl rfl id
  | keepVideoConfig config token =>
    simp only [FramedOutbound.runTask, FramedOutbound.keepVideoConfig]
    by_cases haccepts : o.accepts token = true
    · simp only [haccepts]
      exact keeps_config rfl rfl rfl id
    · simp only [haccepts]
      exact keeps_none rfl rfl rfl id
  | offerUnit unit token =>
    have hunits := units_offer (o := o) unit token
    have hsame : (o.offerUnit unit token).1.controlQueue = o.controlQueue ∧
        (o.offerUnit unit token).1.videoEnabled = o.videoEnabled ∧
        (o.offerUnit unit token).1.lastFence = o.lastFence := by
      rcases FramedOutbound.offer_cases o unit token with hr | ⟨-, hr⟩
      · rw [hr]
        exact ⟨rfl, rfl, rfl⟩
      · generalize o.offerUnit unit token = r at hr ⊢
        cases hr <;> exact ⟨rfl, rfl, rfl⟩
    simp only [FramedOutbound.runTask]
    split
    · exact ⟨hsame.1, hsame.2.1, hsame.2.2, List.nil_subset _, by simp [ofOthers], hunits⟩
    · exact keeps_none hsame.1 hsame.2.1 hsame.2.2 hunits
  | recover =>
    have hempty (p : FramedOutbound) (hp : p.videoQueue = []) : Units p := by
      intro f hf
      rw [hp] at hf
      cases hf
    simp only [FramedOutbound.runTask]
    rcases FramedOutbound.recover_cases o with hr | ⟨-, -, hr⟩ <;> rw [hr]
    · exact keeps_none rfl rfl rfl id
    · cases o.latestVideoConfig with
      | none => exact keeps_one rfl rfl rfl rfl rfl fun _ => hempty _ rfl
      | some config => exact keeps_config rfl rfl rfl fun _ => hempty _ rfl

/-- A task of another thread is a move. -/
theorem moves_others {j : ℕ} (hshaped : Shaped wire s) (hj : s.others[j]? = some (t :: ts)) :
    Moves (v.onto wire s)
      (v.onto wire { s with
        out := (s.out.runTask t).1
        others := s.others.set j ((s.out.runTask t).2.1 ++ ts) }) [] := by
  have hof := hshaped.others _ (List.mem_of_getElem? hj) t List.mem_cons_self
  by_cases hstop : t = .stopVideo
  · subst hstop
    refine moves_shift ?_ (elsewhere_set hj (List.nil_subset _)) rfl
    have hcleared : Shift v.phone.epoch _ _ := (shift_cleared wire s s.out.videoEnabled).append
      (.refl (s.ui.flatMap taskSignals))
    rw [List.append_assoc] at hcleared
    exact hcleared
  by_cases hqueue : ∃ f token, t = .enqueue f token
  · obtain ⟨f, token, rfl⟩ := hqueue
    rcases FramedOutbound.enqueueControl_cases s.out f token with hr | ⟨-, -, hr⟩ |
      ⟨-, haccepts, -, hr⟩ <;> simp only [FramedOutbound.runTask, hr]
    · exact moves_quiet hj (List.nil_subset _) rfl rfl rfl
    · exact moves_quiet hj (List.nil_subset _) rfl rfl rfl
    · exact moves_enqueue_others hj hof haccepts (elsewhere_set hj (List.nil_subset _))
  · have hkeeps := keeps_of_task (o := s.out) hof hstop (fun f token h => hqueue ⟨f, token, h⟩)
    exact moves_quiet hj hkeeps.epochs hkeeps.queue hkeeps.enabled hkeeps.fence

end tasks

/-! ## The shape of a session's threads -/

section shape

variable {o : FramedOutbound} {i : FramedOutbound.Label} {es : List FramedOutbound.Event}

theorem ui_of_task (h : ofUi t = true) :
    (∀ u ∈ (o.runTask t).2.1, ofUi u = true) ∧ (Units o → Units (o.runTask t).1) := by
  have hnil (p : List Task) (hp : p = []) : ∀ u ∈ p, ofUi u = true := by
    intro u hu
    rw [hp] at hu
    cases hu
  have hone {p : List Task} {w : Task} (hp : p = [w]) (hw : ofUi w = true) :
      ∀ u ∈ p, ofUi u = true := by
    intro u hu
    rw [hp] at hu
    rw [List.mem_singleton.mp hu]
    exact hw
  have hempty {p : FramedOutbound} (hp : p.videoQueue = []) : Units p := by
    intro f hf
    rw [hp] at hf
    cases hf
  cases t with
  | beginCapture | stopVideo => exact ⟨hnil _ rfl, fun _ => hempty rfl⟩
  | release | overflow => exact ⟨hnil _ rfl, id⟩
  | fence key =>
    refine ⟨hnil _ rfl, ?_⟩
    simp only [FramedOutbound.runTask, FramedOutbound.fenceOnce]
    split
    · exact id
    · exact fun _ => hempty rfl
  | number f token =>
    cases token with
    | none => exact ⟨hone rfl h, id⟩
    | some token => cases h
  | guard f token =>
    cases token with
    | none =>
      simp only [FramedOutbound.runTask]
      split
      · exact ⟨hnil _ rfl, id⟩
      · exact ⟨hone rfl h, id⟩
    | some token => cases h
  | enqueue f token =>
    rcases FramedOutbound.enqueueControl_cases o f token with hr | ⟨-, -, hr⟩ | ⟨-, -, -, hr⟩ <;>
      simp only [FramedOutbound.runTask, hr]
    · exact ⟨hnil _ rfl, id⟩
    · exact ⟨hone rfl rfl, id⟩
    · exact ⟨hone rfl rfl, id⟩
  | setCodecConfig | keepVideoConfig | offerUnit | recover | needIdr | halt | clear => cases h

theorem others_of_task (h : ofOthers t = true) :
    (∀ u ∈ (o.runTask t).2.1, ofOthers u = true) ∧ (Units o → Units (o.runTask t).1) := by
  by_cases hstop : t = .stopVideo
  · subst hstop
    refine ⟨by simp [FramedOutbound.runTask], ?_⟩
    intro _ f hf
    cases hf
  by_cases hqueue : ∃ f token, t = .enqueue f token
  · obtain ⟨f, token, rfl⟩ := hqueue
    rcases FramedOutbound.enqueueControl_cases o f token with hr | ⟨-, -, hr⟩ | ⟨-, -, -, hr⟩ <;>
      simp only [FramedOutbound.runTask, hr]
    · exact ⟨by simp, id⟩
    · exact ⟨by simp [ofOthers], id⟩
    · exact ⟨by simp [ofOthers], id⟩
  · have hkeeps := keeps_of_task (o := o) h hstop (fun f token h => hqueue ⟨f, token, h⟩)
    exact ⟨hkeeps.more, hkeeps.units⟩

/-- The control queue after a task is made of well-formed frames. -/
theorem formed_of_task (hq : ∀ f ∈ o.controlQueue, formed f = true)
    (ht : ∀ f token, t = .enqueue f token → formed f = true) :
    ∀ f ∈ (o.runTask t).1.controlQueue, formed f = true := by
  intro f hf
  rcases FramedOutbound.control_of_task o t with ⟨keep, -, h⟩ | ⟨g, token, heq, -, h⟩ | ⟨-, h⟩ <;>
    rw [h] at hf
  · exact hq f (List.mem_filter.mp hf).1
  · rcases List.mem_append.mp hf with hf | hf
    · exact hq f hf
    · rw [List.mem_singleton.mp hf]
      exact ht g token heq
  · cases hf

theorem Shaped.task (h : Shaped wire s) (hruns : Runs s i t ts) :
    Shaped wire (resume s (s.out.runTask t).1 ((s.out.runTask t).2.1 ++ ts) i) := by
  have hframe : ∀ f token, t = .enqueue f token → formed f = true := by
    intro f token heq
    subst heq
    cases hruns with
    | ui hui => exact (ofUi_frame (h.ui _ (by rw [hui]; exact List.mem_cons_self))).2.1
    | other hj =>
      exact (ofOthers_frame (h.others _ (List.mem_of_getElem? hj) _ List.mem_cons_self)).1
  have hbefore (f : Frame) (hf : f ∈ s.out.controlQueue) : formed f = true :=
    h.frames f (by simp [queued, hf])
  have hqueue := formed_of_task hbefore hframe
  have hframes : ∀ f ∈ wire ++ (s.writer.hand ++ (s.out.runTask t).1.controlQueue),
      formed f = true := by
    intro f hf
    rcases List.mem_append.mp hf with hf | hf
    · exact h.frames f (List.mem_append_left _ hf)
    rcases List.mem_append.mp hf with hf | hf
    · exact h.frames f (by simp [queued, hf])
    · exact hqueue f hf
  cases hruns with
  | ui hui =>
    have hof := h.ui t (by rw [hui]; exact List.mem_cons_self)
    obtain ⟨hmore, hunits⟩ := ui_of_task (o := s.out) hof
    refine ⟨hframes, hunits h.video, ?_, h.others⟩
    intro u hu
    rcases List.mem_append.mp hu with hu | hu
    · exact hmore u hu
    · exact h.ui u (by rw [hui]; exact List.mem_cons_of_mem _ hu)
  | @other j _ _ hj =>
    have hmem := List.mem_of_getElem? hj
    have hof := h.others _ hmem t List.mem_cons_self
    obtain ⟨hmore, hunits⟩ := others_of_task (o := s.out) hof
    refine ⟨hframes, hunits h.video, h.ui, ?_⟩
    intro p hp u hu
    rcases List.mem_or_eq_of_mem_set hp with hp | rfl
    · exact h.others p hp u hu
    rcases List.mem_append.mp hu with hu | hu
    · exact hmore u hu
    · exact h.others _ hmem u (List.mem_cons_of_mem _ hu)

/-- What another thread may be called to do. -/
theorem others_of_call {call : FramedOutbound.Call} (hui : call.uiOnly = false)
    (hclose : call ≠ .close) : ∀ u ∈ call.tasks, ofOthers u = true := by
  intro u hu
  cases call with
  | beginCapture | pauseQuality | sendQualityResult => cases hui
  | close => exact absurd rfl hclose
  | stopVideo | setCodecConfig | forceRecovery | sendCapabilities | sendPairingInfo | sendPong =>
    rw [List.mem_singleton.mp hu]
    rfl
  | sendAuthorization type payload =>
    simp only [FramedOutbound.Call.tasks] at hu
    split at hu
    · next htype =>
      rw [List.mem_singleton.mp hu]
      rcases htype with rfl | rfl <;> rfl
    · cases hu
  | sendVideoConfig w h f b token =>
    simp only [FramedOutbound.Call.tasks] at hu
    split at hu
    · rw [List.mem_singleton.mp hu]
      rfl
    · cases hu
  | sendAccessUnit unit token =>
    simp only [FramedOutbound.Call.tasks] at hu
    split at hu
    · cases hu
    · rw [List.mem_singleton.mp hu]
      rfl

/-- No call of another thread but the announcement has an epoch to tell. -/
theorem epochs_of_call {call : FramedOutbound.Call} (hui : call.uiOnly = false)
    (hannounce : ∀ c, call ≠ .sendCapabilities c) : call.tasks.flatMap taskEpochs = [] := by
  cases call with
  | beginCapture | pauseQuality | sendQualityResult => cases hui
  | sendCapabilities c => exact absurd rfl (hannounce c)
  | stopVideo | setCodecConfig | forceRecovery | sendPairingInfo | sendPong | close => rfl
  | sendAuthorization type payload =>
    simp only [FramedOutbound.Call.tasks]
    split
    · next htype => rcases htype with rfl | rfl <;> rfl
    · rfl
  | sendVideoConfig | sendAccessUnit =>
    simp only [FramedOutbound.Call.tasks]
    split <;> rfl

/-- What the writer has, and what is on the line, in order. -/
theorem flow_line {wire' : List Frame} (h : (wire' ++ queued s').flatMap signals =
    (wire ++ queued s).flatMap signals) (henabled : s'.out.videoEnabled = s.out.videoEnabled)
    (hui : s'.ui = s.ui) : flow wire' s' = flow wire s := by
  rw [flow, flow, h, henabled, hui]

/-- A step of the writer's threads, and what it writes. -/
theorem thread_step {v : Exchange} (h : Shaped wire s) (hwhole : Whole s)
    (hs : FramedOutbound.step s i = some (s', es)) (hi : spawns i = true) (hwhole' : Whole s') :
    Shaped (wire ++ es.filterMap written) s' ∧
      Moves (v.onto wire s) (v.onto (wire ++ es.filterMap written) s') [] := by
  -- a move of the writer thread that keeps the signals in their order
  have hsame (wire' : List Frame) (s' : Threads) (hframes : ∀ f ∈ wire' ++ queued s',
      formed f = true)
      (hunits : Units s'.out) (hline : (wire' ++ queued s').flatMap signals =
        (wire ++ queued s).flatMap signals) (henabled : s'.out.videoEnabled = s.out.videoEnabled)
      (hfence : s'.out.lastFence = s.out.lastFence) (hui : s'.ui = s.ui)
      (hothers : s'.others = s.others) :
      Shaped wire' s' ∧ Moves (v.onto wire s) (v.onto wire' s') [] := by
    refine ⟨⟨hframes, hunits, by rw [hui]; exact h.ui, by rw [hothers]; exact h.others⟩, ?_⟩
    have heq : v.onto wire' s' = v.onto wire s := by
      simp only [Exchange.onto, flow_line hline henabled hui, elsewhere, hothers, hfence]
    rw [heq]
    exact .still
  cases moved_of_step hs with
  | start | ui => cases hi
  | spawn call hcall =>
    rw [List.filterMap_nil, List.append_nil]
    have hclose : call ≠ .close := by
      intro heq
      rw [heq] at hi
      cases hi
    refine ⟨⟨h.frames, h.video, h.ui, ?_⟩, ?_⟩
    · intro p hp
      rcases List.mem_append.mp hp with hp | hp
      · exact h.others p hp
      · rw [List.mem_singleton.mp hp]
        exact others_of_call hcall hclose
    · refine moves_same rfl ?_ rfl
      intro e he
      simp only [elsewhere, List.flatMap_append, List.flatMap_cons, List.flatMap_nil,
        List.append_nil] at he
      rcases List.mem_append.mp he with he | he
      · exact he
      · rw [epochs_of_call hcall fun c heq => by rw [heq] at hi; cases hi] at he
        cases he
  | @task _ t ts hruns =>
    have hnone : (s.out.runTask t).2.2.filterMap written = [] := by
      rw [List.filterMap_eq_nil_iff]
      intro e he
      cases e with
      | wrote f => exact absurd he ((FramedOutbound.effect s.out t).not_wrote f)
      | _ => rfl
    rw [hnone, List.append_nil]
    refine ⟨h.task hruns, ?_⟩
    cases hruns with
    | ui hui => exact moves_ui h hui hwhole hwhole'
    | other hj => exact moves_others h hj
  | acquire hw =>
    rw [List.filterMap_nil, List.append_nil]
    have hhand : (if s.out.running = true then FramedOutbound.Writer.take
        else .stopped).hand = s.writer.hand := by
      rw [hw]
      split <;> rfl
    refine hsame wire _ ?_ h.video ?_ rfl rfl rfl rfl
    · simp only [queued, hhand]
      exact h.frames
    · simp only [queued, hhand]
  | take f hw hd =>
    rw [List.filterMap_nil, List.append_nil]
    have hhand : s.writer.hand = [] := by rw [hw]; rfl
    rcases FramedOutbound.dequeue_some hd with ⟨fs, hc, hout⟩ | ⟨fs, hc, hv, hout⟩
    · have hline : queued { s with out := s.out.dequeue.1, writer := .write f } = queued s := by
        simp [queued, hout, hc, hhand]
      refine hsame wire _ ?_ ?_ ?_ ?_ ?_ rfl rfl
      · rw [hline]
        exact h.frames
      · show Units s.out.dequeue.1
        rw [hout]
        exact h.video
      · rw [hline]
      · show s.out.dequeue.1.videoEnabled = _
        rw [hout]
      · show s.out.dequeue.1.lastFence = _
        rw [hout]
    · -- a unit says nothing to the switch
      have hunit : f.header.type = .videoAu := h.video f (by rw [hv]; exact List.mem_cons_self)
      have hline : queued { s with out := s.out.dequeue.1, writer := .write f } = f ::
          queued s := by
        simp [queued, hout, hc, hhand]
      refine hsame wire _ ?_ ?_ ?_ ?_ ?_ rfl rfl
      · rw [hline]
        intro g hg
        rcases List.mem_append.mp hg with hg | hg
        · exact h.frames g (List.mem_append_left _ hg)
        rcases List.mem_cons.mp hg with rfl | hg
        · simp only [formed, hunit]
        · exact h.frames g (List.mem_append_right _ hg)
      · show Units s.out.dequeue.1
        rw [hout]
        intro g hg
        exact h.video g (by rw [hv]; exact List.mem_cons_of_mem _ hg)
      · rw [hline, List.flatMap_append, List.flatMap_cons, signals_unit hunit, List.nil_append,
          ← List.flatMap_append]
      · show s.out.dequeue.1.videoEnabled = _
        rw [hout]
      · show s.out.dequeue.1.lastFence = _
        rw [hout]
  | idle hw hd =>
    rw [List.filterMap_nil, List.append_nil]
    have hhand : (FramedOutbound.loopTest s.out).hand = s.writer.hand := by
      rw [hw]
      exact FramedOutbound.loopTest_hand s.out
    refine hsame wire _ ?_ h.video ?_ rfl rfl rfl rfl
    · simp only [queued, hhand]
      exact h.frames
    · simp only [queued, hhand]
  | write f hw =>
    have hline : wire ++ [f] ++ queued { s with writer := FramedOutbound.loopTest s.out } =
        wire ++ queued s := by
      simp [queued, hw, FramedOutbound.loopTest_hand]
    refine hsame (wire ++ [f]) _ ?_ h.video ?_ rfl rfl rfl rfl
    · rw [hline]
      exact h.frames
    · rw [hline]
  | throws => exact absurd hwhole'.running (by simp)

end shape

end QualityAgreement
end MobileWebcamBridge
