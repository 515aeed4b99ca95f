import MobileWebcamBridge.Host.Quality
import MobileWebcamBridge.Lib.EventSystem
import MobileWebcamBridge.Lib.Trace
import Mathlib.Data.List.Nodup

/-!
# The quality switch over whole runs

Whatever events the switch is fed, and at whatever times: a deadline runs exactly while a request
is busy, a request is reported at most once, it is applied only after a matching `VIDEO_CONFIG`
has followed the release of its outputs, and a failure past the boundary closes the connection.
-/

set_option autoImplicit false

namespace MobileWebcamBridge
namespace HostQuality

open Trace

/-- Whether the action ends a request. -/
def Action.isReport : Action → Bool
  | .reportApplied _ _ _ => true
  | .reportFailed _ => true
  | _ => false

/-- The id of a request that is sent. -/
def Action.prepared : Action → Option UInt32
  | .sendPrepareQuality requestId _ _ _ _ => some requestId
  | _ => none

/-- The request a commit is for. -/
def Action.committed : Action → Option UInt32
  | .sendCommitQuality requestId _ => some requestId
  | _ => none

namespace Switch

/-- One event fed to the switch, and what it did. -/
structure Record where
  now : ℕ
  event : Event
  before : Switch
  after : Switch
  actions : List Action

/-- What one step was given and what it gave. -/
def record (s : Switch) (now : ℕ) (e : Event) : Record :=
  ⟨now, e, s, (s.step now e).1, (s.step now e).2⟩

/-- The switch, fed one event at a time. -/
def fed : EventSystem Switch (ℕ × Event) Record where
  start s := s = .default
  step s l := some ((s.step l.1 l.2).1, [record s l.1 l.2])

/-! ## What a run shows -/

/-- The requests reported, each with its id. -/
def reports (tr : List Record) : List UInt32 :=
  tr.flatMap fun r => (r.actions.filter Action.isReport).map fun _ => r.before.requestId

/-- The requests sent. -/
def prepares (tr : List Record) : List UInt32 :=
  tr.flatMap fun r => r.actions.filterMap Action.prepared

/-- The requests whose boundary is behind: the phone has paused and the commit is sent. -/
def commits (tr : List Record) : List UInt32 :=
  tr.flatMap fun r => r.actions.filterMap Action.committed

/-- The deadline of a busy switch is the one it had, or five seconds from the prepare that was
taken or from the end of the wait for the phone's user. -/
def Timed (r : Record) : Prop :=
  (r.after.deadlineMs.isSome = true →
    r.after.deadlineMs =
      if r.before.busy then r.before.deadlineMs else some (r.now + APPLY_DEADLINE_MS)) ∧
  (r.before.busy = false → r.after.deadlineMs.isSome = true →
    (∃ revision width height fps, r.event = .prepare revision width height fps ∧
      r.after.phase = .preparing) ∨ r.before.staged = true)

/-- A matching config is taken for the request under way. -/
def Configured (requestId : UInt32) (width height fps : UInt16) (r : Record) : Prop :=
  r.event = .videoConfig width height fps ∧ r.before.requestId = requestId ∧
    r.before.requested = some (width, height, fps) ∧ r.after.phase = .awaitingOutput

/-- A matching config was taken, and nothing has been released since. -/
def Shown (x : List Record) (requestId : UInt32) (width height fps : UInt16) : Prop :=
  ∃ y c z, x = y ++ c :: z ∧ Configured requestId width height fps c ∧
    ∀ r ∈ z, .releaseOutputs ∉ r.actions

/-- What is reported applied was asked for, was shown, and came out. -/
def Confirmed (x : List Record) (r : Record) : Prop :=
  ∀ width height fps, .reportApplied width height fps ∈ r.actions →
    r.event = .outputReady ∧ r.before.requested = some (width, height, fps) ∧
      Shown x r.before.requestId width height fps

/-- A failure past the boundary closes the connection, unless the user asked for it; a rejection
before it does not. -/
def Closes (x : List Record) (r : Record) : Prop :=
  (∀ reason, .reportFailed reason ∈ r.actions → r.before.requestId ∈ commits x →
    r.event ≠ .userStop → .closeConnection ∈ r.actions) ∧
  (∀ requestId reason, r.event = .rejected requestId reason →
    r.before.phase = .preparing ∨ r.before.phase = .staged → .closeConnection ∉ r.actions)

/-! ## The invariant -/

/-- No request of the run has an id above the one last sent, only the one under way is not yet
reported, and what is under way stands where its phase says. -/
structure Good (tr : List Record) (s : Switch) : Prop where
  deadline : s.deadlineMs.isSome = s.busy
  next : s.requestId < s.nextRequestId
  sent : ∀ id ∈ prepares tr, id ≤ s.requestId
  reported : ∀ id ∈ reports tr, id ≤ s.requestId
  unreported : s.active = true → s.requestId ∉ reports tr
  once : (reports tr).Nodup
  crossed : ∀ id ∈ commits tr, id ≤ s.requestId
  uncrossed : s.phase = .preparing ∨ s.phase = .staged → s.requestId ∉ commits tr
  shown : s.phase = .awaitingOutput → ∃ width height fps,
    s.requested = some (width, height, fps) ∧ Shown tr s.requestId width height fps

/-- The invariant holds of a new switch. -/
theorem good_default : Good [] default where
  deadline := rfl
  next := by decide
  sent := by simp [prepares]
  reported := by simp [reports]
  unreported := by simp [reports]
  once := by simp [reports]
  crossed := by simp [commits]
  uncrossed := by simp [commits]
  shown h := by cases h

variable {tr : List Record} {r : Record}

theorem reports_append : reports (tr ++ [r]) =
    reports tr ++ (r.actions.filter Action.isReport).map fun _ => r.before.requestId := by
  simp [reports]

theorem prepares_append :
    prepares (tr ++ [r]) = prepares tr ++ r.actions.filterMap Action.prepared := by
  simp [prepares]

theorem commits_append :
    commits (tr ++ [r]) = commits tr ++ r.actions.filterMap Action.committed := by
  simp [commits]

/-- A mode stays shown while no output is released. -/
theorem Shown.append {requestId : UInt32} {width height fps : UInt16}
    (h : Shown tr requestId width height fps) (hr : .releaseOutputs ∉ r.actions) :
    Shown (tr ++ [r]) requestId width height fps := by
  obtain ⟨y, c, z, rfl, hc, hz⟩ := h
  refine ⟨y, c, z ++ [r], by simp, hc, fun q hq => ?_⟩
  rcases List.mem_append.mp hq with hq | hq
  · exact hz q hq
  · rw [List.mem_singleton.mp hq]
    exact hr

/-- An event that neither sends a request nor commits or reports one. -/
theorem Good.quiet (h : Good tr r.before) (hid : r.after.requestId = r.before.requestId)
    (hnext : r.after.nextRequestId = r.before.nextRequestId)
    (hdeadline : r.after.deadlineMs.isSome = r.after.busy)
    (hreports : r.actions.filter Action.isReport = [])
    (hprepares : r.actions.filterMap Action.prepared = [])
    (hcommits : r.actions.filterMap Action.committed = [])
    (hactive : r.after.active = true → r.before.active = true)
    (hbefore : r.after.phase = .preparing ∨ r.after.phase = .staged →
      r.before.phase = .preparing ∨ r.before.phase = .staged)
    (hshown : r.after.phase = .awaitingOutput → ∃ width height fps,
      r.after.requested = some (width, height, fps) ∧
        Shown (tr ++ [r]) r.before.requestId width height fps) :
    Good (tr ++ [r]) r.after := by
  have hreported : reports (tr ++ [r]) = reports tr := by simp [reports_append, hreports]
  have hsent : prepares (tr ++ [r]) = prepares tr := by simp [prepares_append, hprepares]
  have hcrossed : commits (tr ++ [r]) = commits tr := by simp [commits_append, hcommits]
  constructor
  · exact hdeadline
  · rw [hid, hnext]
    exact h.next
  · rw [hsent, hid]
    exact h.sent
  · rw [hreported, hid]
    exact h.reported
  · rw [hreported, hid]
    exact fun ha => h.unreported (hactive ha)
  · rw [hreported]
    exact h.once
  · rw [hcrossed, hid]
    exact h.crossed
  · rw [hcrossed, hid]
    exact fun hp => h.uncrossed (hbefore hp)
  · rw [hid]
    exact hshown

/-- The request under way is reported, and none is under way after it. -/
theorem Good.finish (h : Good tr r.before) (hactive : r.before.active = true)
    (hid : r.after.requestId = r.before.requestId)
    (hnext : r.after.nextRequestId = r.before.nextRequestId)
    (hdeadline : r.after.deadlineMs = none) (hafter : r.after.active = false)
    (hreports : (r.actions.filter Action.isReport).length = 1)
    (hprepares : r.actions.filterMap Action.prepared = [])
    (hcommits : r.actions.filterMap Action.committed = []) :
    Good (tr ++ [r]) r.after := by
  have hreported : reports (tr ++ [r]) = reports tr ++ [r.before.requestId] := by
    obtain ⟨a, ha⟩ := List.length_eq_one_iff.mp hreports
    simp [reports_append, ha]
  have hsent : prepares (tr ++ [r]) = prepares tr := by simp [prepares_append, hprepares]
  have hcrossed : commits (tr ++ [r]) = commits tr := by simp [commits_append, hcommits]
  have hidle : r.after.busy = false ∧ r.after.staged = false := by
    simpa [active] using hafter
  constructor
  · rw [hdeadline, hidle.1]
    rfl
  · rw [hid, hnext]
    exact h.next
  · rw [hsent, hid]
    exact h.sent
  · rw [hreported, hid]
    intro id hmem
    rcases List.mem_append.mp hmem with hmem | hmem
    · exact h.reported id hmem
    · rw [List.mem_singleton.mp hmem]
      exact UInt32.le_refl _
  · intro ha
    rw [hafter] at ha
    cases ha
  · rw [hreported]
    -- the one request that is reported now was under way, so it was not reported before
    apply List.Nodup.append h.once (List.nodup_singleton _)
    rw [List.disjoint_singleton]
    exact h.unreported hactive
  · rw [hcrossed, hid]
    exact h.crossed
  · intro hp
    have : r.after.active = true := by
      rcases hp with hp | hp <;> simp [active, busy, staged, hp]
    rw [hafter] at this
    cases this
  · intro hp
    have : r.after.active = true := by simp [active, busy, hp]
    rw [hafter] at this
    cases this

theorem lt_of_checkedSucc {n m : UInt32} (h : checkedSucc n = some m) : n < m := by
  unfold checkedSucc at h
  split at h
  · next hlt =>
    obtain rfl := Option.some.inj h
    rw [UInt32.lt_iff_toNat_lt, UInt32.toNat_add]
    have hone : (1 : UInt32).toNat = 1 := rfl
    omega
  · cases h

/-- A request is sent, with an id above all before it. -/
theorem Good.prepare (h : Good tr r.before)
    (hid : r.after.requestId = r.before.nextRequestId)
    (hnext : checkedSucc r.before.nextRequestId = some r.after.nextRequestId)
    (hphase : r.after.phase = .preparing) (hdeadline : r.after.deadlineMs.isSome = true)
    (hreports : r.actions.filter Action.isReport = [])
    (hprepares : r.actions.filterMap Action.prepared = [r.before.nextRequestId])
    (hcommits : r.actions.filterMap Action.committed = []) :
    Good (tr ++ [r]) r.after := by
  have hreported : reports (tr ++ [r]) = reports tr := by simp [reports_append, hreports]
  have hsent : prepares (tr ++ [r]) = prepares tr ++ [r.before.nextRequestId] := by
    rw [prepares_append, hprepares]
  have hcrossed : commits (tr ++ [r]) = commits tr := by simp [commits_append, hcommits]
  have hrise {id : UInt32} (hle : id ≤ r.before.requestId) : id < r.after.requestId := by
    rw [hid]
    exact UInt32.lt_of_le_of_lt hle h.next
  constructor
  · simp [hdeadline, busy, hphase]
  · rw [hid]
    exact lt_of_checkedSucc hnext
  · rw [hsent]
    intro id hmem
    rcases List.mem_append.mp hmem with hmem | hmem
    · exact UInt32.le_of_lt (hrise (h.sent id hmem))
    · rw [List.mem_singleton.mp hmem, hid]
      exact UInt32.le_refl _
  · rw [hreported]
    exact fun id hmem => UInt32.le_of_lt (hrise (h.reported id hmem))
  · rw [hreported]
    intro _ hmem
    exact UInt32.lt_irrefl _ (hrise (h.reported _ hmem))
  · rw [hreported]
    exact h.once
  · rw [hcrossed]
    exact fun id hmem => UInt32.le_of_lt (hrise (h.crossed id hmem))
  · rw [hcrossed]
    intro _ hmem
    exact UInt32.lt_irrefl _ (hrise (h.crossed _ hmem))
  · intro hp
    rw [hphase] at hp
    cases hp

/-- The boundary of the request under way is crossed. -/
theorem Good.commit (h : Good tr r.before) (hpreparing : r.before.phase = .preparing)
    (hid : r.after.requestId = r.before.requestId)
    (hnext : r.after.nextRequestId = r.before.nextRequestId)
    (hdeadline : r.after.deadlineMs = r.before.deadlineMs) (hphase : r.after.phase = .switching)
    (hreports : r.actions.filter Action.isReport = [])
    (hprepares : r.actions.filterMap Action.prepared = [])
    (hcommits : r.actions.filterMap Action.committed = [r.before.requestId]) :
    Good (tr ++ [r]) r.after := by
  have hreported : reports (tr ++ [r]) = reports tr := by simp [reports_append, hreports]
  have hsent : prepares (tr ++ [r]) = prepares tr := by simp [prepares_append, hprepares]
  have hcrossed : commits (tr ++ [r]) = commits tr ++ [r.before.requestId] := by
    rw [commits_append, hcommits]
  constructor
  · rw [hdeadline, h.deadline]
    simp [busy, hpreparing, hphase]
  · rw [hid, hnext]
    exact h.next
  · rw [hsent, hid]
    exact h.sent
  · rw [hreported, hid]
    exact h.reported
  · rw [hreported, hid]
    exact fun _ => h.unreported (by simp [active, busy, hpreparing])
  · rw [hreported]
    exact h.once
  · rw [hcrossed, hid]
    intro id hmem
    rcases List.mem_append.mp hmem with hmem | hmem
    · exact h.crossed id hmem
    · rw [List.mem_singleton.mp hmem]
      exact UInt32.le_refl _
  · intro hp
    simp [hphase] at hp
  · intro hp
    simp [hphase] at hp

variable {s s' : Switch} {now : ℕ} {e : Event} {actions : List Action}

/-- What one event preserves. -/
theorem Good.step (h : Good tr s) (hmoves : Moves s now e s' actions) :
    Good (tr ++ [⟨now, e, s, s', actions⟩]) s' := by
  cases hmoves with
  | still =>
    refine h.quiet rfl rfl h.deadline rfl rfl rfl id id fun hp => ?_
    obtain ⟨width, height, fps, hrequested, hshown⟩ := h.shown hp
    exact ⟨width, height, fps, hrequested, hshown.append (by simp)⟩
  | observed epoch hidle =>
    refine h.quiet rfl rfl h.deadline rfl rfl rfl id id fun hp => ?_
    obtain ⟨width, height, fps, hrequested, hshown⟩ := h.shown hp
    exact ⟨width, height, fps, hrequested, hshown.append (by simp)⟩
  | prepared hidle hnext => exact h.prepare rfl hnext rfl rfl rfl rfl rfl
  | staged hphase =>
    refine h.quiet rfl rfl rfl rfl rfl rfl ?_ (fun _ => .inl hphase) (fun hp => by cases hp)
    intro _
    simp [active, busy, hphase]
  | left hphase =>
    refine h.quiet rfl rfl rfl rfl rfl rfl ?_ (fun hp => by simp at hp) (fun hp => by cases hp)
    intro _
    simp [active, Switch.staged, hphase]
  | rejected hbefore =>
    refine h.finish ?_ rfl rfl rfl rfl rfl rfl rfl
    rcases hbefore with hp | hp <;> simp [active, busy, Switch.staged, hp]
  | closed reason hactive _ => exact h.finish hactive rfl rfl rfl rfl rfl rfl rfl
  | released hphase _ _ => exact h.commit hphase rfl rfl rfl rfl rfl rfl rfl
  | @configured width height fps hawaiting hrequested =>
    have hactive := active_of_awaitingVideo hawaiting
    refine h.quiet rfl rfl ?_ rfl rfl rfl (fun _ => hactive) (fun hp => by simp at hp) ?_
    · -- a switch that awaits video is busy, with its deadline, unless the phone's user is
      show Option.isSome (if s.phase = .staged then _ else s.deadlineMs) = true
      split
      · rfl
      · next hphase =>
        rw [h.deadline]
        simpa [active, Switch.staged, hphase] using hactive
    · intro _
      exact ⟨width, height, fps, hrequested, tr, _, [], rfl, ⟨rfl, rfl, hrequested, rfl⟩, by simp⟩
  | ready hphase _ => exact h.finish (by simp [active, busy, hphase]) rfl rfl rfl rfl rfl rfl rfl
  | stopped hactive => exact h.finish hactive rfl rfl rfl rfl rfl rfl rfl

/-- A busy switch has its deadline, and no other has. -/
theorem timed_of_moves (hdeadline : s.deadlineMs.isSome = s.busy)
    (hmoves : Moves s now e s' actions) : Timed ⟨now, e, s, s', actions⟩ := by
  have hkept {t : Switch} (ht : t.deadlineMs = s.deadlineMs) : Timed ⟨now, e, s, t, actions⟩ := by
    constructor
    · intro hsome
      rw [ht, hdeadline] at hsome
      rw [if_pos hsome]
      exact ht
    · intro hidle hsome
      rw [ht, hdeadline, hidle] at hsome
      cases hsome
  have hcleared {t : Switch} (ht : t.deadlineMs = none) : Timed ⟨now, e, s, t, actions⟩ := by
    constructor <;> simp [ht]
  cases hmoves with
  | still => exact hkept rfl
  | observed => exact hkept rfl
  | prepared hidle _ =>
    have hbusy : s.busy = false := by
      have := hidle
      unfold active at this
      exact (Bool.or_eq_false_iff.mp this).1
    exact ⟨fun _ => by simp [hbusy], fun _ _ => .inl ⟨_, _, _, _, rfl, rfl⟩⟩
  | staged => exact hcleared rfl
  | left hphase =>
    have hstaged : s.staged = true := by simp [Switch.staged, hphase]
    exact ⟨fun _ => by simp [busy, hphase], fun _ _ => .inr hstaged⟩
  | rejected => exact hcleared rfl
  | closed => exact hcleared rfl
  | released => exact hkept rfl
  | configured hawaiting _ =>
    by_cases hphase : s.phase = .staged
    · have hstaged : s.staged = true := by simp [Switch.staged, hphase]
      exact ⟨fun _ => by simp [busy, hphase], fun _ _ => .inr hstaged⟩
    · exact hkept (by simp [hphase])
  | ready => exact hcleared rfl
  | stopped => exact hcleared rfl

/-- A mode is reported applied only where it was shown. -/
theorem Good.confirmed (h : Good tr s) (hmoves : Moves s now e s' actions) :
    Confirmed tr ⟨now, e, s, s', actions⟩ := by
  intro width height fps hmem
  cases hmoves with
  | ready hphase hrequested =>
    obtain ⟨width', height', fps', hshownFor, hshown⟩ := h.shown hphase
    simp only [List.mem_singleton, Action.reportApplied.injEq] at hmem
    obtain ⟨rfl, rfl, rfl⟩ := hmem
    obtain ⟨rfl, rfl, rfl⟩ := by simpa using hshownFor.symm.trans hrequested
    exact ⟨rfl, hrequested, hshown⟩
  | _ => simp at hmem

/-- A request is reported once, and its failure ends the session. -/
theorem Good.closes (h : Good tr s) (hmoves : Moves s now e s' actions) :
    Closes tr ⟨now, e, s, s', actions⟩ := by
  constructor
  · intro reason hmem hcrossed hstop
    cases hmoves with
    | rejected hbefore => exact absurd hcrossed (h.uncrossed hbefore)
    | closed => simp
    | stopped => exact absurd rfl hstop
    | _ => simp at hmem
  · intro requestId reason he hbefore
    cases hmoves with
    | closed _ _ hafter =>
      obtain ⟨hpreparing, hstaged⟩ := hafter requestId reason he
      exact absurd hbefore (not_or.mpr ⟨hpreparing, hstaged⟩)
    | _ => simp

/-- The invariant and its three consequences hold in every run. -/
theorem good_of_reaches (h : fed.Reaches tr s) :
    Good tr s ∧ (∀ r ∈ tr, Timed r) ∧ Each Confirmed tr ∧ Each Closes tr := by
  refine h.invariant (P := fun tr s => Good tr s ∧ (∀ r ∈ tr, Timed r) ∧ Each Confirmed tr ∧
    Each Closes tr) ?_ ?_
  · rintro s rfl
    exact ⟨good_default, by simp, each_nil, each_nil⟩
  · rintro tr s ⟨now, e⟩ s' es - - ⟨hgood, htimed, hconfirmed, hcloses⟩ hstep
    obtain ⟨rfl, rfl⟩ := by simpa [fed] using hstep
    have hmoves := step_moves s now e
    refine ⟨hgood.step hmoves, fun r hr => ?_, ?_, ?_⟩
    · rcases List.mem_append.mp hr with hr | hr
      · exact htimed r hr
      · rw [List.mem_singleton.mp hr]
        exact timed_of_moves hgood.deadline hmoves
    · apply hconfirmed.append
      refine each_cons.mpr ⟨?_, each_nil⟩
      rw [List.append_nil]
      exact hgood.confirmed hmoves
    · apply hcloses.append
      refine each_cons.mpr ⟨?_, each_nil⟩
      rw [List.append_nil]
      exact hgood.closes hmoves

/-- After a request has come to its result the next is taken, with an id above all before it. -/
def TakesNext (tr : List Record) (s : Switch) : Prop :=
  ∀ now revision width height fps, s.phase = .applied ∨ s.phase = .failed →
    width ≠ 0 → height ≠ 0 → fps ≠ 0 → s.nextRequestId.toNat < 2 ^ 32 - 1 →
    (s.step now (.prepare revision width height fps)).2 =
        [.sendPrepareQuality s.nextRequestId revision width height fps] ∧
      (s.step now (.prepare revision width height fps)).1.requestId = s.nextRequestId ∧
      ∀ id ∈ prepares tr, id < s.nextRequestId

/-- **The switch.** In every run a deadline stands exactly while a request is under way, a request
is reported once at most, applied only after its mode was shown, a failure ends the session, and a
settled switch takes the next request under the next number. -/
theorem switch_invariant (h : fed.Reaches tr s) :
    s.deadlineMs.isSome = s.busy ∧ (∀ r ∈ tr, Timed r) ∧ (reports tr).Nodup ∧
      Each Confirmed tr ∧ Each Closes tr ∧ TakesNext tr s := by
  obtain ⟨hgood, htimed, hconfirmed, hcloses⟩ := good_of_reaches h
  refine ⟨hgood.deadline, htimed, hgood.once, hconfirmed, hcloses, ?_⟩
  intro now revision width height fps hphase hwidth hheight hfps hspare
  have hidle : s.active = false := by
    rcases hphase with hp | hp <;> simp [active, busy, staged, hp]
  rw [prepare_of_spare now revision hidle hwidth hheight hfps (by omega)]
  exact ⟨rfl, rfl, fun id hid => UInt32.lt_of_le_of_lt (hgood.sent id hid) hgood.next⟩

/-- A request that is applied, and the next. -/
def reapplied : List (ℕ × Event) :=
  [(0, .epochObserved 41), (0, .prepare 7 1280 720 30), (10, .paused 1 41),
    (12, .videoConfig 1280 720 30), (14, .outputReady)]

/-- A mode is applied, and the next request is taken. -/
theorem switch_invariant_reapplied :
    reports (fed.trace .default reapplied) = [1] ∧
      (fed.final .default reapplied).deadlineMs.isSome = false ∧
      ((fed.final .default reapplied).step 15 (.prepare 7 1280 720 30)).2 =
        [.sendPrepareQuality 2 7 1280 720 30] := by
  have hrun : fed.Reaches (fed.trace .default reapplied) (fed.final .default reapplied) :=
    EventSystem.reaches_trace reapplied rfl (by decide)
  obtain ⟨hdeadline, -, -, -, -, hnext⟩ := switch_invariant hrun
  refine ⟨by decide, hdeadline, ?_⟩
  exact (hnext 15 7 1280 720 30 (.inl (by decide)) (by decide) (by decide) (by decide)
    (by decide)).1

end Switch
end HostQuality
end MobileWebcamBridge
