import MobileWebcamBridge.Lib.Trace
import MobileWebcamBridge.Phone.PhoneQualityController

/-!
# The phone's side of a quality switch, over a run

The controller and the machine each keep a copy of the request; `Pending` says that while a request
is pending the two agree with each other and with the request accepted last. `Kept` is the
invariant, and `Safe` what a call may do in a history that keeps it.
-/

set_option autoImplicit false

namespace MobileWebcamBridge

open Wire QualitySwitch

namespace PhoneQualityController

variable {tr : List Entry} {c : PhoneQualityController} {env : Environment}

/-! ## Executing actions -/

theorem mem_execute_startCapture {actions : List Action} {mode : CaptureMode}
    (h : .startCapture mode ∈ c.execute actions) :
    c.preparedMode = some mode ∧ ∃ w h f, .startCapture w h f ∈ actions := by
  induction actions with
  | nil => cases h
  | cons a actions ih =>
    cases a with
    | startCapture w h' f =>
      unfold execute at h
      split at h
      · next own hown =>
        rcases List.mem_cons.mp h with heq | hmem
        · cases heq
          exact ⟨hown, w, h', f, List.mem_cons_self⟩
        · obtain ⟨hmode, w', h'', f', hmem⟩ := ih hmem
          exact ⟨hmode, w', h'', f', List.mem_cons_of_mem _ hmem⟩
      · cases List.mem_singleton.mp h
    | _ =>
      obtain ⟨hmode, w', h'', f', hmem⟩ := ih ((List.mem_cons.mp h).resolve_left nofun)
      exact ⟨hmode, w', h'', f', List.mem_cons_of_mem _ hmem⟩

theorem execute_of_replies {actions : List Action} (h : ∀ a ∈ actions, a.isReply = true) :
    (∀ clear, .stopCapture clear ∉ c.execute actions) ∧
      (∀ mode, .startCapture mode ∉ c.execute actions) ∧ .noPreparedMode ∉ c.execute actions := by
  induction actions with
  | nil => simp [execute]
  | cons a actions ih =>
    have hrest := ih fun b hb => h b (List.mem_cons_of_mem _ hb)
    have ha := h a List.mem_cons_self
    cases a with
    | startCapture | stopCapture => cases ha
    | sendQualityResult | sendPaused => simpa [execute] using hrest

/-! ## The invariant -/

theorem lastAccepted_none {e : Entry} (h : e.accepted? = none) :
    lastAccepted (tr ++ [e]) = lastAccepted tr := by
  rw [lastAccepted, List.filterMap_append]
  simp [h, lastAccepted]

theorem lastAccepted_some {e : Entry} {a : PrepareQuality × Option CaptureMode}
    (h : e.accepted? = some a) : lastAccepted (tr ++ [e]) = some a := by
  rw [lastAccepted, List.filterMap_append]
  simp [h]

/-- The ids under which the capture was started. -/
def startedIds (tr : List Entry) : List ℕ := tr.filterMap Entry.started?

/-- While a request is pending, the controller's copy of it is the machine's and the one accepted
last. -/
structure Pending (tr : List Entry) (c : PhoneQualityController) (request : PrepareQuality)
    (mode : CaptureMode) : Prop where
  last : lastAccepted tr = some (request, some mode)
  prepared : c.preparedMode = some mode
  id : c.machine.lastRequestId = request.requestId
  width : c.machine.stagedWidth = request.width
  height : c.machine.stagedHeight = request.height
  fps : c.machine.stagedFps = request.targetFps
  asked : asks request mode = true

/-- What every run of the controller keeps. -/
structure Kept (tr : List Entry) (c : PhoneQualityController) : Prop where
  machine : c.machine.Sound
  id : c.preparedId ≤ c.machine.lastRequestId
  reply : ∀ a ∈ c.machine.lastReply, takes a = true → c.preparedId = c.machine.lastRequestId
  pending : c.machine.phase.busy = true → ∃ request mode, Pending tr c request mode
  accepted : ∀ a, lastAccepted tr = some a → a.1.requestId ≤ c.machine.lastRequestId
  started : ∀ id ∈ startedIds tr, id ≤ c.machine.lastRequestId ∧
    (c.machine.phase = .prepared → id < c.machine.lastRequestId)
  once : (startedIds tr).Nodup

theorem startedIds_append (tr : List Entry) (e : Entry) :
    startedIds (tr ++ [e]) = startedIds tr ++ e.started?.toList := by
  rw [startedIds, List.filterMap_append]
  cases h : e.started? <;> simp [h, startedIds]

theorem kept_new (startingEpoch : ℕ) : Kept [] (new startingEpoch) where
  machine := Machine.sound_new startingEpoch
  id := Nat.le_refl _
  reply := by simp [new, Machine.new]
  pending := by simp [new, Machine.new, Phase.busy]
  accepted := by simp [lastAccepted]
  started := by simp [startedIds]
  once := List.nodup_nil

theorem Pending.same {c' : PhoneQualityController} {request : PrepareQuality} {mode : CaptureMode}
    (h : Pending tr c request mode) {e : Entry} (hacc : e.accepted? = none)
    (hprepared : c'.preparedMode = c.preparedMode)
    (hid : c'.machine.lastRequestId = c.machine.lastRequestId)
    (hwidth : c'.machine.stagedWidth = c.machine.stagedWidth)
    (hheight : c'.machine.stagedHeight = c.machine.stagedHeight)
    (hfps : c'.machine.stagedFps = c.machine.stagedFps) : Pending (tr ++ [e]) c' request mode where
  last := (lastAccepted_none hacc).trans h.last
  prepared := hprepared.trans h.prepared
  id := hid.trans h.id
  width := hwidth.trans h.width
  height := hheight.trans h.height
  fps := hfps.trans h.fps
  asked := h.asked

/-- A call that is not a `Prepare` steps the machine and may forget the mode once nothing is
pending. -/
theorem Kept.moved (h : Kept tr c) {m : Machine} {nowMs : ℤ} {event : QualitySwitch.Event}
    {actions : List Action} (hm : c.machine.Moves nowMs event m actions)
    (hevent : ∀ r, event ≠ .prepare r) {e : Entry} (hacc : e.accepted? = none)
    (hstart : ∀ id, e.started? = some id →
      c.machine.phase = .prepared ∧ m.phase = .starting ∧ id = c.machine.lastRequestId)
    {mode : Option CaptureMode} (hmode : m.phase.busy = true → mode = c.preparedMode) :
    Kept (tr ++ [e]) { c with machine := m, preparedMode := mode } := by
  have hlast : m.lastRequestId = c.machine.lastRequestId := by
    cases hm with
    | replayed | busy | refused | prepared | staged => exact absurd rfl (hevent _)
    | still | committed | applied | begun | failed => rfl
  refine ⟨h.machine.moves hm, hlast ▸ h.id, ?_, fun hbusy => ?_, fun a ha => ?_, fun id hid => ?_,
    ?_⟩
  · rw [hlast]
    intro a ha htakes
    cases hm with
    | replayed | busy | refused | prepared | staged => exact absurd rfl (hevent _)
    | still | committed => exact h.reply a ha htakes
    | applied | begun | failed =>
      rw [List.mem_singleton.mp ha] at htakes
      cases htakes
  · have hprepared := hmode hbusy
    cases hm with
    | replayed | busy | refused | prepared | staged => exact absurd rfl (hevent _)
    | still =>
      obtain ⟨request, own, hpending⟩ := h.pending hbusy
      exact ⟨request, own, hpending.same hacc hprepared rfl rfl rfl rfl⟩
    | committed hphase | begun hphase =>
      obtain ⟨request, own, hpending⟩ := h.pending (by rw [hphase]; rfl)
      exact ⟨request, own, hpending.same hacc hprepared rfl rfl rfl rfl⟩
    | applied | failed => cases hbusy
  · rw [lastAccepted_none hacc] at ha
    exact hlast ▸ h.accepted a ha
  · rw [startedIds_append] at hid
    rw [hlast]
    rcases List.mem_append.mp hid with hid | hid
    · refine ⟨(h.started id hid).1, fun hphase => (h.started id hid).2 ?_⟩
      -- only a `Prepare` leads to `Prepared`
      cases hm with
      | replayed | busy | refused | prepared | staged => exact absurd rfl (hevent _)
      | still => exact hphase
      | committed | applied | begun | failed => cases hphase
    · obtain ⟨-, hphase, rfl⟩ := hstart id (Option.mem_toList.mp hid)
      refine ⟨Nat.le_refl _, fun hprepared => ?_⟩
      rw [hphase] at hprepared
      cases hprepared
  · rw [startedIds_append]
    cases hs : e.started? with
    | none => simpa using h.once
    | some id =>
      obtain ⟨hphase, -, rfl⟩ := hstart id hs
      refine List.nodup_append.mpr ⟨h.once, by simp, fun a ha b hb hab => ?_⟩
      have hlt := (h.started a ha).2 hphase
      rw [hab, List.mem_singleton.mp hb] at hlt
      exact Nat.lt_irrefl _ hlt

/-- What a `Prepare` the machine takes leaves behind. -/
structure Taken (c c' : PhoneQualityController) (env : Environment) (request : PrepareQuality)
    (mode : CaptureMode) : Prop where
  looked : env.mode request = some mode
  mode : c'.preparedMode = some mode
  id : c'.preparedId = request.requestId
  phase : c'.machine.phase = .prepared ∨ c'.machine.phase = .staged
  last : c'.machine.lastRequestId = request.requestId
  width : c'.machine.stagedWidth = request.width
  height : c'.machine.stagedHeight = request.height
  fps : c'.machine.stagedFps = request.targetFps
  sound : c'.machine.Sound

theorem mode_of_accept {request : PrepareQuality} (h : (env.prepare request).verdict = .accept) :
    ∃ mode, env.mode request = some mode := by
  by_cases hnone : (env.mode request).isNone = true
  · exfalso
    have hreason : env.reason request ≠ 0 := by
      unfold Environment.reason
      repeat' split
      all_goals first | exact absurd hnone ‹_› | decide
    simp [Environment.prepare, hreason] at h
  · exact Option.isSome_iff_exists.mp (by simpa [Option.isSome_iff_ne_none] using hnone)

theorem handle_prepare (h : Kept tr c) (env : Environment) (request : PrepareQuality) :
    ((c.handle env (.prepare request)).1 = c ∧
      ∃ actions, (c.handle env (.prepare request)).2 = c.execute actions ∧
        ∀ a ∈ actions, a.isReply = true) ∨
    (c.machine.lastRequestId < request.requestId ∧ c.machine.phase.busy = false ∧
      ∃ mode, Taken c (c.handle env (.prepare request)).1 env request mode) ∨
    (c.machine.lastRequestId < request.requestId ∧ c.machine.phase.busy = false ∧
      ∃ reply, takes reply = false ∧ reply.isReply = true ∧
        (c.handle env (.prepare request)).1 =
          { c with machine := { c.machine with
              lastRequestId := request.requestId, lastReply := [reply] } }) := by
  have hm := Machine.step_moves c.machine env.nowMillis (.prepare (env.prepare request))
  simp only [handle]
  generalize c.machine.step env.nowMillis (.prepare (env.prepare request)) = r at hm ⊢
  obtain ⟨m, actions⟩ := r
  dsimp only at hm ⊢
  cases hm with
  | still => exact .inl ⟨by simp, [], by simp, by simp⟩
  | replayed hid =>
    -- a reply that says taken is the reply to the request the controller prepared last
    have hsame : ¬ (request.requestId ≠ c.preparedId ∧ (env.mode request).isSome = true ∧
        c.machine.lastReply.any takes = true) := by
      rintro ⟨hne, -, hany⟩
      obtain ⟨a, ha, htakes⟩ := List.any_eq_true.mp hany
      exact hne (hid.trans (h.reply a ha htakes).symm)
    rw [if_neg hsame]
    exact .inl ⟨rfl, _, rfl, h.machine.replies⟩
  | busy hbusy =>
    rw [if_neg (by simp [takes])]
    exact .inl ⟨rfl, _, rfl, by simp [Action.isReply]⟩
  | refused hnew hfree hverdict =>
    rw [if_neg (by simp [takes])]
    exact .inr (.inr ⟨hnew, hfree, _, by rfl, by rfl, rfl⟩)
  | prepared hnew hfree hverdict hstreaming =>
    obtain ⟨mode, hmode⟩ := mode_of_accept hverdict
    have hid := h.id
    have hnew' : c.machine.lastRequestId < request.requestId := hnew
    rw [if_pos ⟨by omega, by simp [hmode], by simp [takes]⟩]
    refine .inr (.inl ⟨hnew, hfree, mode, hmode, hmode, rfl, .inl rfl, rfl, rfl, rfl, rfl, ?_⟩)
    exact h.machine.moves (.prepared hnew hfree hverdict hstreaming)
  | staged hnew hfree hverdict hstreaming =>
    obtain ⟨mode, hmode⟩ := mode_of_accept hverdict
    have hid := h.id
    have hnew' : c.machine.lastRequestId < request.requestId := hnew
    rw [if_pos ⟨by omega, by simp [hmode], by simp [takes]⟩]
    refine .inr (.inl ⟨hnew, hfree, mode, hmode, hmode, rfl, .inr rfl, rfl, rfl, rfl, rfl, ?_⟩)
    have hm : c.machine.Moves env.nowMillis (.prepare (env.prepare request)) _ _ :=
      .staged hnew hfree hverdict hstreaming
    exact h.machine.moves hm
  | failed _ _ hevent => exact absurd rfl (hevent _)

/-- The entry a call leaves in the history. -/
def entry (c : PhoneQualityController) (env : Environment) (k : Call) : Entry :=
  { before := c, env, call := k, after := (c.call env k).1, effects := (c.call env k).2 }

theorem Kept.same {e : Entry} (h : Kept tr c) (hacc : e.accepted? = none)
    (hstart : e.started? = none) : Kept (tr ++ [e]) c := by
  have hids : startedIds (tr ++ [e]) = startedIds tr := by
    rw [startedIds_append, hstart]
    exact List.append_nil _
  refine ⟨h.machine, h.id, h.reply, fun hbusy => ?_, fun a ha => ?_, fun id hid => ?_, ?_⟩
  · obtain ⟨request, mode, hpending⟩ := h.pending hbusy
    exact ⟨request, mode, hpending.same hacc rfl rfl rfl rfl rfl⟩
  · rw [lastAccepted_none hacc] at ha
    exact h.accepted a ha
  · rw [hids] at hid
    exact h.started id hid
  · rw [hids]
    exact h.once

theorem Kept.prepare (h : Kept tr c) (env : Environment) (request : PrepareQuality) :
    Kept (tr ++ [c.entry env (.handle (.prepare request))])
      (c.handle env (.prepare request)).1 := by
  have haccepted : (c.entry env (.handle (.prepare request))).accepted? =
      if c.machine.phase.busy = false ∧
        ((c.handle env (.prepare request)).1.machine.phase = .prepared ∨
          (c.handle env (.prepare request)).1.machine.phase = .staged) then
        some (request, env.mode request)
      else none := rfl
  -- ignored or repeated, taken up, or turned down
  rcases handle_prepare h env request with ⟨hsame, -⟩ | ⟨hnew, hfree, mode, htaken⟩ |
      ⟨hnew, hfree, reply, htakes, hisreply, hrefused⟩
  · rw [hsame] at haccepted ⊢
    refine h.same ?_ rfl
    rw [haccepted, if_neg]
    rintro ⟨hfree, hphase | hphase⟩ <;> rw [hphase] at hfree <;> cases hfree
  · have hacc := haccepted.trans (if_pos ⟨hfree, htaken.phase⟩)
    have hids : startedIds (tr ++ [c.entry env (.handle (.prepare request))]) = startedIds tr := by
      rw [startedIds_append]
      exact List.append_nil _
    have hown := htaken.id.trans htaken.last.symm
    refine ⟨htaken.sound, Nat.le_of_eq hown, fun _ _ _ => hown, fun _ => ?_, fun a ha => ?_,
      fun id hid => ?_, ?_⟩
    · refine ⟨request, mode, ?_, htaken.mode, htaken.last, htaken.width, htaken.height, htaken.fps,
        ?_⟩
      · rw [lastAccepted_some hacc, htaken.looked]
      · exact List.find?_some htaken.looked
    · rw [lastAccepted_some hacc] at ha
      obtain rfl := Option.some.inj ha
      exact Nat.le_of_eq htaken.last.symm
    · rw [hids] at hid
      have := (h.started id hid).1
      rw [htaken.last]
      exact ⟨by omega, fun _ => by omega⟩
    · rw [hids]
      exact h.once
  · rw [hrefused] at haccepted ⊢
    have hacc : (c.entry env (.handle (.prepare request))).accepted? = none := by
      rw [haccepted, if_neg]
      rintro ⟨hfree', hphase | hphase⟩ <;> rw [hphase] at hfree' <;> cases hfree'
    have hids : startedIds (tr ++ [c.entry env (.handle (.prepare request))]) = startedIds tr := by
      rw [startedIds_append]
      exact List.append_nil _
    have hid := h.id
    refine ⟨⟨h.machine.deadline, fun a ha => ?_⟩, by dsimp only; omega, fun a ha htake => ?_,
      fun hbusy => ?_, fun a ha => ?_, fun id hmem => ?_, ?_⟩
    · rw [List.mem_singleton.mp ha]
      exact hisreply
    · rw [List.mem_singleton.mp ha, htakes] at htake
      cases htake
    · rw [hfree] at hbusy
      cases hbusy
    · rw [lastAccepted_none hacc] at ha
      have := h.accepted a ha
      dsimp only
      omega
    · rw [hids] at hmem
      have := (h.started id hmem).1
      dsimp only
      exact ⟨by omega, fun _ => by omega⟩
    · rw [hids]
      exact h.once

/-! ## Over a run -/

theorem userStop_free (m : Machine) (nowMs : ℤ) :
    (m.step nowMs .userStop).1.phase.busy = false := by
  simp only [Machine.step]
  split
  · rfl
  · next hphase =>
    cases hp : m.phase <;> simp [hp] at hphase <;> simp [Phase.busy]

theorem Kept.cancel (h : Kept tr c) (env : Environment) {e : Entry} (hacc : e.accepted? = none)
    (hstart : e.started? = none) : Kept (tr ++ [e]) (c.cancel env).1 := by
  have hfree := userStop_free c.machine env.nowMillis
  refine h.moved (Machine.step_moves c.machine env.nowMillis .userStop) nofun hacc ?_ ?_
  · rw [hstart]
    nofun
  · intro hbusy
    rw [hfree] at hbusy
    cases hbusy

/-- The run of an event that starts no capture. -/
theorem Kept.run (h : Kept tr c) (nowMs : ℤ) (event : QualitySwitch.Event)
    (hevent : ∀ r, event ≠ .prepare r) {e : Entry} (hacc : e.accepted? = none)
    (hstart : e.started? = none) : Kept (tr ++ [e]) (c.run nowMs event).1 := by
  refine h.moved (Machine.step_moves c.machine nowMs event) hevent hacc ?_ fun _ => rfl
  rw [hstart]
  nofun

theorem mem_execute_noPreparedMode {actions : List Action}
    (h : .noPreparedMode ∈ c.execute actions) :
    c.preparedMode = none ∧ ∃ w h f, .startCapture w h f ∈ actions := by
  induction actions with
  | nil => cases h
  | cons a actions ih =>
    cases a with
    | startCapture w h' f =>
      unfold execute at h
      split at h
      · obtain ⟨hnone, w', h'', f', hmem⟩ := ih ((List.mem_cons.mp h).resolve_left nofun)
        exact ⟨hnone, w', h'', f', List.mem_cons_of_mem _ hmem⟩
      · next hnone => exact ⟨hnone, w, h', f, List.mem_cons_self⟩
    | _ =>
      obtain ⟨hnone, w', h'', f', hmem⟩ := ih ((List.mem_cons.mp h).resolve_left nofun)
      exact ⟨hnone, w', h'', f', List.mem_cons_of_mem _ hmem⟩

theorem commit_seen {epoch : Epoch} (hseen : ¬ (!env.foreground || !env.permissionReady) = true) :
    c.handle env (.commit epoch) =
      c.run env.nowMillis (.commit epoch.requestId epoch.streamEpoch) := by
  simp only [handle, if_neg hseen]

theorem commit_hidden {epoch : Epoch} (hseen : (!env.foreground || !env.permissionReady) = true) :
    c.handle env (.commit epoch) = c.cancel env := by
  simp only [handle, if_pos hseen]

/-- Each call executes the actions of one step of the machine, that of a `Commit` with the mode it
finds prepared. -/
theorem call_actions (c : PhoneQualityController) (env : Environment) (k : Call) :
    ∃ c' nowMs event, (c.call env k).1.machine = (c.machine.step nowMs event).1 ∧
      (c.call env k).2 = execute c' (c.machine.step nowMs event).2 ∧
      ∀ id epoch, event = .commit id epoch → k = .handle (.commit ⟨id, epoch⟩) ∧
        c'.preparedMode = c.preparedMode := by
  have hrun (event : QualitySwitch.Event) (hevent : ∀ id epoch, event ≠ .commit id epoch) :
      ∃ c' nowMs event', (c.run env.nowMillis event).1.machine = (c.machine.step nowMs event').1 ∧
        (c.run env.nowMillis event).2 = execute c' (c.machine.step nowMs event').2 ∧
        ∀ id epoch, event' = .commit id epoch → k = .handle (.commit ⟨id, epoch⟩) ∧
          c'.preparedMode = c.preparedMode :=
    ⟨(c.run env.nowMillis event).1, env.nowMillis, event, rfl, rfl,
      fun id epoch heq => absurd heq (hevent id epoch)⟩
  have hcancel : ∃ c' nowMs event', (c.cancel env).1.machine = (c.machine.step nowMs event').1 ∧
      (c.cancel env).2 = execute c' (c.machine.step nowMs event').2 ∧
      ∀ id epoch, event' = .commit id epoch → k = .handle (.commit ⟨id, epoch⟩) ∧
        c'.preparedMode = c.preparedMode :=
    ⟨{ c with machine := (c.machine.step env.nowMillis .userStop).1 }, env.nowMillis, .userStop,
      rfl, rfl, nofun⟩
  cases k with
  | handle command =>
    cases command with
    | prepare request =>
      refine ⟨(c.handle env (.prepare request)).1, env.nowMillis, .prepare (env.prepare request),
        ?_, rfl, nofun⟩
      simp only [call, handle]
      split <;> rfl
    | commit e =>
      by_cases hseen : (!env.foreground || !env.permissionReady) = true
      · simp only [call, commit_hidden hseen]
        exact hcancel
      · simp only [call, commit_seen hseen]
        refine ⟨(c.run env.nowMillis (.commit e.requestId e.streamEpoch)).1, env.nowMillis,
          .commit e.requestId e.streamEpoch, rfl, rfl, ?_⟩
        rintro id epoch heq
        obtain ⟨rfl, rfl⟩ := QualitySwitch.Event.commit.inj heq
        exact ⟨rfl, rfl⟩
  | captureRequested => exact hrun .beginStagedCapture nofun
  | captureStarted width height fps => exact hrun (.captureStarted width height fps) nofun
  | captureFailed => exact hrun .captureFailed nofun
  | tick again => exact hrun (.deadlineExceeded again) nofun
  | cancel => exact hcancel

/-- What a call that starts the capture is. -/
theorem starts_of_call (h : Kept tr c) {k : Call} {mode : CaptureMode}
    (hmem : .startCapture mode ∈ (c.call env k).2) :
    k = .handle (.commit ⟨c.machine.lastRequestId, c.machine.epoch + 1⟩) ∧
      c.machine.phase = .prepared ∧ (c.call env k).1.machine.phase = .starting ∧
      c.preparedMode = some mode := by
  obtain ⟨c', nowMs, event, hmachine, heffects, hcommit⟩ := call_actions c env k
  rw [heffects] at hmem
  obtain ⟨hmode, w, h', f, haction⟩ := mem_execute_startCapture hmem
  obtain ⟨hphase, hevent, hafter⟩ :=
    (Machine.step_moves c.machine nowMs event).starts h.machine haction
  obtain ⟨hk, hprepared⟩ := hcommit _ _ hevent
  exact ⟨hk, hphase, hmachine ▸ hafter, hprepared ▸ hmode⟩

/-- The prepared mode is there whenever the capture is started. -/
theorem prepared_of_call (h : Kept tr c) (env : Environment) (k : Call) :
    .noPreparedMode ∉ (c.call env k).2 := by
  intro hmem
  obtain ⟨c', nowMs, event, -, heffects, hcommit⟩ := call_actions c env k
  rw [heffects] at hmem
  obtain ⟨hnone, w, h', f, haction⟩ := mem_execute_noPreparedMode hmem
  obtain ⟨hphase, hevent, -⟩ :=
    (Machine.step_moves c.machine nowMs event).starts h.machine haction
  obtain ⟨-, hprepared⟩ := hcommit _ _ hevent
  obtain ⟨request, mode, hpending⟩ := h.pending (by rw [hphase]; rfl)
  rw [hprepared, hpending.prepared] at hnone
  cases hnone

/-- The id a commit starts the capture under, if it does. -/
theorem started_of_commit (h : Kept tr c) {k : Call} {id : ℕ}
    (hs : (c.entry env k).started? = some id) :
    k = .handle (.commit ⟨c.machine.lastRequestId, c.machine.epoch + 1⟩) ∧
      c.machine.phase = .prepared ∧ (c.call env k).1.machine.phase = .starting ∧
      id = c.machine.lastRequestId := by
  unfold Entry.started? at hs
  split at hs
  · next epoch hk =>
    split at hs
    · next hany =>
      obtain ⟨effect, hmem, heffect⟩ := List.any_eq_true.mp hany
      cases effect with
      | startCapture mode =>
        obtain ⟨hcall, hphase, hafter, -⟩ := starts_of_call h hmem
        have hepoch := HostCommand.commit.inj (Call.handle.inj (hk.symm.trans hcall))
        refine ⟨hcall, hphase, hafter, ?_⟩
        rw [← Option.some.inj hs, hepoch]
      | _ => cases heffect
    · cases hs
  · cases hs

theorem Kept.commit (h : Kept tr c) (env : Environment) (epoch : Epoch) :
    Kept (tr ++ [c.entry env (.handle (.commit epoch))]) (c.handle env (.commit epoch)).1 := by
  have hstart (id : ℕ) (hs : (c.entry env (.handle (.commit epoch))).started? = some id) :=
    started_of_commit h hs
  by_cases hseen : (!env.foreground || !env.permissionReady) = true
  · simp only [call, commit_hidden hseen] at hstart ⊢
    refine h.cancel env rfl (Option.eq_none_iff_forall_ne_some.mpr fun id hs => ?_)
    -- a cancelled switch is not starting
    obtain ⟨-, -, hafter, -⟩ := hstart id hs
    have hfree := userStop_free c.machine env.nowMillis
    have hmachine : (c.cancel env).1.machine = (c.machine.step env.nowMillis .userStop).1 := rfl
    rw [← hmachine, hafter] at hfree
    cases hfree
  · simp only [call, commit_seen hseen] at hstart ⊢
    have hm :=
      Machine.step_moves c.machine env.nowMillis (.commit epoch.requestId epoch.streamEpoch)
    refine h.moved hm nofun ?_ ?_ fun _ => rfl
    · rfl
    intro id hs
    obtain ⟨-, hphase, hafter, hid⟩ := hstart id hs
    exact ⟨hphase, hafter, hid⟩

theorem Kept.call (h : Kept tr c) (env : Environment) (k : Call) :
    Kept (tr ++ [c.entry env k]) (c.call env k).1 := by
  cases k with
  | handle command =>
    cases command with
    | prepare request => exact h.prepare env request
    | commit epoch => exact h.commit env epoch
  | captureRequested => exact h.run env.nowMillis .beginStagedCapture nofun rfl rfl
  | captureStarted width height fps =>
    exact h.run env.nowMillis (.captureStarted width height fps) nofun rfl rfl
  | captureFailed => exact h.run env.nowMillis .captureFailed nofun rfl rfl
  | tick again => exact h.run env.nowMillis (.deadlineExceeded again) nofun rfl rfl
  | cancel => exact h.cancel env rfl rfl

theorem kept (h : system.Reaches tr c) : Kept tr c := by
  refine h.invariant (P := fun tr c => Kept tr c) ?_ ?_
  · rintro c ⟨startingEpoch, rfl⟩
    exact kept_new startingEpoch
  · rintro tr c ⟨env, k⟩ c' es - - ih hs
    obtain ⟨rfl, rfl⟩ := Prod.mk.inj (Option.some.inj hs)
    exact ih.call env k

/-- What the phone may and may not do at one call, after the history `x`. -/
structure Safe (x : List Entry) (e : Entry) : Prop where
  /-- The capture is started for the commit of the accepted request, with its own mode. -/
  starts : ∀ mode, .startCapture mode ∈ e.effects → ∃ request,
    e.call = .handle (.commit ⟨request.requestId, e.before.machine.epoch + 1⟩) ∧
    e.before.machine.phase = .prepared ∧ lastAccepted x = some (request, some mode) ∧
    mode.width = request.width ∧ mode.height = request.height ∧
    mode.targetFps = request.targetFps ∧ e.before.machine.stagedWidth = mode.width ∧
    e.before.machine.stagedHeight = mode.height ∧ e.before.machine.stagedFps = mode.targetFps
  never_throws : .noPreparedMode ∉ e.effects
  repeated : ∀ request, e.call = .handle (.prepare request) →
    request.requestId = e.before.machine.lastRequestId →
    e.after = e.before ∧ (∀ clear, .stopCapture clear ∉ e.effects) ∧
      ∀ mode, .startCapture mode ∉ e.effects
  lower : ∀ request accepted, e.call = .handle (.prepare request) →
    lastAccepted x = some accepted → request.requestId < accepted.1.requestId →
    e.after = e.before ∧ e.effects = []
  others : ∀ epoch, e.call = .handle (.commit epoch) → e.env.foreground = true →
    e.env.permissionReady = true →
    (∀ accepted, lastAccepted x = some accepted → epoch.requestId = accepted.1.requestId →
      epoch.streamEpoch ≠ e.before.machine.epoch + 1) →
    e.after = e.before ∧ e.effects = []
  /-- A commit of any id and epoch cancels while the phone is in the background or lacks the
  permission. -/
  hidden : ∀ epoch, e.call = .handle (.commit epoch) →
    e.env.foreground = false ∨ e.env.permissionReady = false →
    (e.after, e.effects) = e.before.cancel e.env
  tick : ∀ again, e.call = .tick again →
    e.before.machine.phase ≠ .prepared → e.before.machine.phase ≠ .starting →
    e.after = e.before ∧ e.effects = []

theorem asks_iff {request : PrepareQuality} {mode : CaptureMode} :
    asks request mode = true ↔ mode.width = request.width ∧ mode.height = request.height ∧
      mode.targetFps = request.targetFps := by
  simp [asks, and_assoc]

/-- A request below the last one is not looked at. -/
theorem prepare_lower {request : PrepareQuality}
    (hlower : request.requestId < c.machine.lastRequestId) (env : Environment) :
    c.handle env (.prepare request) = (c, []) := by
  have hne : request.requestId ≠ c.machine.lastRequestId := Nat.ne_of_lt hlower
  simp [handle, Machine.step, Machine.prepare, Environment.prepare, hlower, hne, execute]

theorem safe_of_kept (h : Kept tr c) (env : Environment) (k : Call) : Safe tr (c.entry env k) where
  starts := by
    intro mode hmem
    obtain ⟨hk, hphase, -, hmode⟩ := starts_of_call h hmem
    obtain ⟨request, own, hpending⟩ := h.pending (by rw [hphase]; rfl)
    obtain rfl := Option.some.inj (hpending.prepared.symm.trans hmode)
    obtain ⟨hwidth, hheight, hfps⟩ := asks_iff.mp hpending.asked
    refine ⟨request, hpending.id ▸ hk, hphase, hpending.last, hwidth, hheight, hfps, ?_, ?_, ?_⟩
    · exact hpending.width.trans hwidth.symm
    · exact hpending.height.trans hheight.symm
    · exact hpending.fps.trans hfps.symm
  never_throws := prepared_of_call h env k
  repeated := by
    rintro request rfl hid
    have hid' : request.requestId = c.machine.lastRequestId := hid
    rcases handle_prepare h env request with ⟨hsame, actions, heffects, hreplies⟩ | ⟨hnew, -⟩ |
        ⟨hnew, -⟩
    · refine ⟨hsame, ?_, ?_⟩
      · intro clear hmem
        apply (execute_of_replies hreplies).1 clear
        rw [← heffects]
        exact hmem
      · intro mode hmem
        apply (execute_of_replies hreplies).2.1 mode
        rw [← heffects]
        exact hmem
    · omega
    · omega
  lower := by
    rintro request accepted rfl hlast hlower
    have hid := h.accepted accepted hlast
    have hnothing : c.handle env (.prepare request) = (c, []) := prepare_lower (by omega) env
    exact ⟨congrArg Prod.fst hnothing, congrArg Prod.snd hnothing⟩
  others := by
    rintro epoch rfl hforeground hpermission hother
    have hforeground' : env.foreground = true := hforeground
    have hpermission' : env.permissionReady = true := hpermission
    have hstill : c.machine.step env.nowMillis (.commit epoch.requestId epoch.streamEpoch) =
        (c.machine, []) := by
      simp only [Machine.step]
      rw [if_pos]
      by_cases hphase : c.machine.phase = .prepared
      · -- the accepted request is the one prepared, so the id or the epoch is another
        obtain ⟨request, mode, hpending⟩ := h.pending (by rw [hphase]; rfl)
        by_cases hid : epoch.requestId = c.machine.lastRequestId
        · exact .inr (.inr (.inl (hother _ hpending.last (hid.trans hpending.id))))
        · exact .inr (.inl hid)
      · exact .inl hphase
    have hnothing : c.handle env (.commit epoch) = (c, []) := by
      rw [commit_seen (by simp [hforeground', hpermission']), run, hstill]
      rfl
    exact ⟨congrArg Prod.fst hnothing, congrArg Prod.snd hnothing⟩
  hidden := by
    rintro epoch rfl hhidden
    have hseen : (!env.foreground || !env.permissionReady) = true := by
      rcases hhidden with hforeground | hpermission
      · have hforeground' : env.foreground = false := hforeground
        simp [hforeground']
      · have hpermission' : env.permissionReady = false := hpermission
        simp [hpermission']
    exact commit_hidden hseen
  tick := by
    rintro again rfl hprepared hstarting
    have hstill := Machine.tick_still (not_or.mpr ⟨hprepared, hstarting⟩) env.nowMillis again
    have hnothing : c.call env (.tick again) = (c, []) := by
      have hstill' :
          c.machine.step env.nowMillis (.deadlineExceeded again) = (c.machine, []) := hstill
      rw [call, run, hstill']
      rfl
    exact ⟨congrArg Prod.fst hnothing, congrArg Prod.snd hnothing⟩

/-- **The phone's side of a quality switch**, over every sequence of calls. -/
theorem quality_machine_safe (h : system.Reaches tr c) :
    Trace.Each Safe tr ∧ (startedIds tr).Nodup ∧
      (c.machine.deadlineMs.isSome = true ↔
        c.machine.phase = .prepared ∨ c.machine.phase = .starting) := by
  refine ⟨?_, (kept h).once, (kept h).machine.deadline⟩
  refine h.invariant (P := fun tr _ => Trace.Each Safe tr) ?_ ?_
  · exact fun _ _ => Trace.each_nil
  · rintro tr c ⟨env, k⟩ c' es hr - ih hs
    obtain ⟨rfl, rfl⟩ := Prod.mk.inj (Option.some.inj hs)
    refine ih.append (Trace.each_cons.mpr ⟨?_, Trace.each_nil⟩)
    rw [List.append_nil]
    exact safe_of_kept (kept hr) env k

/-- The mode of the run. -/
def camera : CaptureMode :=
  { cameraId := "0", codecName := "avc", width := 1280, height := 720, targetFps := 30
    bitrate := 4000000 }

/-- A phone that streams, in the foreground and with the permission. -/
def live : Environment :=
  { revision := 7, modes := [camera], permissionReady := true, foreground := true, streaming := true
    deviceModes := [camera], nowMillis := 0 }

/-- A request is prepared, repeated, committed and started. -/
def switched : List (Environment × Call) :=
  [(live, .handle (.prepare ⟨1, 7, 1280, 720, 30⟩)),
    (live, .handle (.prepare ⟨1, 7, 1280, 720, 30⟩)), (live, .handle (.commit ⟨1, 41⟩)),
    (live, .captureStarted 1280 720 30)]

/-- One capture is started for it, and every event of the run is safe. -/
theorem quality_machine_safe_switched :
    startedIds (system.trace (new 40) switched) = [1] ∧
      Trace.Each Safe (system.trace (new 40) switched) := by
  refine ⟨by decide +kernel, ?_⟩
  have hstart : system.start (new 40) := ⟨40, rfl⟩
  exact (quality_machine_safe
    (EventSystem.reaches_trace (M := system) switched hstart (by decide +kernel))).1

/-- A commit of another request and epoch, met in the background, ends the prepared one. -/
theorem stray_commit_cancels : ∃ tr c, system.Reaches tr c ∧ c.machine.phase = .prepared ∧
    c.machine.lastRequestId = 1 ∧ c.machine.epoch = 40 ∧
    ((c.call { live with foreground := false } (.handle (.commit ⟨9, 7⟩))).1.machine.phase =
        .failed ∧
      (c.call { live with foreground := false } (.handle (.commit ⟨9, 7⟩))).2 =
        [.stopCapture true, .sendQualityResult ⟨1, .rejected, REASON_FOREGROUND, 0, 0, 0⟩]) := by
  have hstart : system.start (new 40) := ⟨40, rfl⟩
  exact ⟨_, _, EventSystem.reaches_trace (M := system) (switched.take 1) hstart (by decide +kernel),
    by decide +kernel⟩

end PhoneQualityController
end MobileWebcamBridge
