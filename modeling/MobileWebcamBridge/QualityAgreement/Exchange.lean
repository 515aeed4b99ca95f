import MobileWebcamBridge.Host.Quality
import MobileWebcamBridge.Lib.Trace
import MobileWebcamBridge.Phone.QualitySwitch
import MobileWebcamBridge.QualityAgreement.Signals

/-!
# The exchange of the two quality machines

The PC's switch and the phone's machine with the signals between them, and no writer, no threads and
no camera: what each side does on its own is a move, in any order. `Stage` says where one request
stands on both sides and on the line at once, and every move leads from stage to stage.
-/

set_option autoImplicit false

namespace MobileWebcamBridge
namespace QualityAgreement

open Wire Signal Trace
open HostQuality (Switch checkedSucc)
open QualitySwitch (Machine Verdict)

/-- A request between the two machines, without the frames that carry it. -/
structure Exchange where
  pc : Switch
  advertised : Bool
  commands : List HostCommand
  phone : Machine
  /-- The phone has a camera bridge. -/
  bridge : Bool
  flow : List Signal
  /-- Capability frames that another thread of the phone has yet to queue. -/
  elsewhere : List ℕ
  /-- The reply that was fenced last. -/
  fenced : Option (FrameType × ℕ)

/-- A request was accepted, and the capture it waited for is being started. -/
inductive Note
  | accepted (requestId width height fps : ℕ)
  | left (requestId : ℕ)
deriving DecidableEq, Repr

/-- The machine waits for a commit, or for the user's start. -/
def waits (m : Machine) : Bool := m.phase == .prepared || m.phase == .staged

/-- What a step of the machine says of its request. -/
def turned (m m' : Machine) : List Note :=
  if !waits m && waits m' then
    [.accepted m'.lastRequestId m'.stagedWidth m'.stagedHeight m'.stagedFps]
  else if waits m && m'.phase == .starting then [.left m'.lastRequestId]
  else []

/-- The replies among the machine's actions, each fence before its reply. -/
def replies : List QualitySwitch.Action → List Signal
  | [] => []
  | .sendQualityResult id status .. :: actions =>
    (if status = .staged then [.fence (.qualityResult, id)] else []) ++
      .result id status :: replies actions
  | .sendPaused id epoch :: actions =>
    .fence (.paused, id) :: .paused id epoch :: replies actions
  | .startCapture .. :: actions => replies actions
  | .stopCapture :: actions => replies actions

/-- The commit among the switch's actions. -/
def commits (actions : List HostQuality.Action) : List HostCommand :=
  actions.filterMap fun
    | .sendCommitQuality id epoch =>
      some (.commit { requestId := id.toNat, streamEpoch := epoch.toNat })
    | _ => none

/-- What a signal is to the switch. -/
inductive Hears : Signal → HostQuality.Event → Prop
  | capabilities (epoch : ℕ) : Hears (.capabilities epoch) (.epochObserved (UInt32.ofNat epoch))
  | staged (id : ℕ) : Hears (.result id .staged) (.prepareAccepted (UInt32.ofNat id) false)
  | switching (id : ℕ) : Hears (.result id .switching) (.prepareAccepted (UInt32.ofNat id) true)
  | rejected (id : ℕ) (reason : UInt8) :
      Hears (.result id .rejected) (.rejected (UInt32.ofNat id) reason)
  | applied (id : ℕ) (width height fps : UInt16) :
      Hears (.result id .applied) (.captureStarted (UInt32.ofNat id) width height fps)
  | paused (id epoch : ℕ) :
      Hears (.paused id epoch) (.paused (UInt32.ofNat id) (UInt32.ofNat epoch))
  | video (width height fps : UInt16) : Hears .video (.videoConfig width height fps)

namespace Exchange

/-- The request last sent. -/
def id (v : Exchange) : ℕ := v.pc.requestId.toNat

/-- No fence is left to run: the UI thread is free for the next event. -/
def Unfenced (v : Exchange) : Prop := v.flow.filter isFence = []

/-- The machine has stepped. -/
def turn (v : Exchange) (r : Machine × List QualitySwitch.Action) : Exchange :=
  { v with
    phone := r.1
    flow := v.flow ++ replies r.2
    bridge := v.bridge && !r.2.contains .stopCapture }

/-- The PC has taken a signal. -/
def read (v : Exchange) (x : Signal) (rest : List Signal) (now : ℕ) (e : HostQuality.Event) :
    Exchange :=
  { v with
    pc := (v.pc.step now e).1
    advertised := v.advertised || x matches .capabilities _
    commands := v.commands ++ commits (v.pc.step now e).2
    flow := rest }

end Exchange

/-- The events of the phone itself. -/
def ownEvent : QualitySwitch.Event → Bool
  | .prepare _ | .commit .. => false
  | _ => true

/-- What a step of the session does to the exchange. -/
inductive Moves (v : Exchange) : Exchange → List Note → Prop
  | still : Moves v v []
  | asks {now : ℕ} {revision width height fps : UInt16} {next : UInt32} :
      v.advertised = true → v.pc.active = false → checkedSucc v.pc.nextRequestId = some next →
      Moves v
        { v with
          pc :=
            { v.pc with
              nextRequestId := next
              phase := .preparing
              requestId := v.pc.nextRequestId
              requested := some (width, height, fps)
              deadlineMs := some (now + HostQuality.APPLY_DEADLINE_MS) }
          commands := v.commands ++ [HostCommand.prepare
            { requestId := v.pc.nextRequestId.toNat, catalogRevision := revision.toNat
              width := width.toNat, height := height.toNat, targetFps := fps.toNat }] } []
  | reads {x : Signal} {rest : List Signal} {e : HostQuality.Event} {now : ℕ} :
      v.flow = x :: rest → x.isFence = false → x ≠ .gate → Hears x e →
      .closeConnection ∉ (v.pc.step now e).2 →
      Moves v (v.read x rest now e) []
  | shows {now : ℕ} : Moves v { v with pc := (v.pc.step now .outputReady).1 } []
  | prepares {request : PrepareQuality} {rest : List HostCommand} {verdict : Verdict} {now : ℤ} :
      v.commands = .prepare request :: rest → v.Unfenced →
      Moves v
        ({ v with commands := rest }.turn (v.phone.step now (.prepare
          { requestId := request.requestId, revision := request.catalogRevision
            width := request.width, height := request.height, fps := request.targetFps
            verdict, streaming := v.bridge })))
        (turned v.phone (v.phone.step now (.prepare
          { requestId := request.requestId, revision := request.catalogRevision
            width := request.width, height := request.height, fps := request.targetFps
            verdict, streaming := v.bridge })).1)
  | commits {epoch : Epoch} {rest : List HostCommand} {e : QualitySwitch.Event} {now : ℤ} :
      v.commands = .commit epoch :: rest → v.Unfenced → v.elsewhere = [] →
      -- without the permission or in the background, the request is cancelled instead
      e = .commit epoch.requestId epoch.streamEpoch ∨ e = .userStop →
      Moves v ({ v with commands := rest }.turn (v.phone.step now e))
        (turned v.phone (v.phone.step now e).1)
  | turns {e : QualitySwitch.Event} {now : ℤ} :
      v.Unfenced → ownEvent e = true →
      (∀ width height fps, e = .captureStarted width height fps → v.bridge = true) →
      Moves v (v.turn (v.phone.step now e)) (turned v.phone (v.phone.step now e).1)
  | begins : v.Unfenced → v.bridge = false → waits v.phone = false →
      Moves v { v with bridge := true, flow := v.flow ++ [Signal.gate] } []
  | closes : Moves v { v with bridge := false } []
  | announces : v.Unfenced →
      Moves v { v with flow := v.flow ++ [Signal.capabilities v.phone.epoch] } []
  | grants : Moves v { v with elsewhere := v.elsewhere ++ [v.phone.epoch] } []
  | lands {a b : List Signal} {epoch : ℕ} {elsewhere : List ℕ} :
      v.flow = a ++ b → epoch ∈ v.elsewhere → elsewhere ⊆ v.elsewhere →
      Moves v { v with flow := a ++ Signal.capabilities epoch :: b, elsewhere } []
  | shifts {flow : List Signal} {elsewhere : List ℕ} :
      Shift v.phone.epoch v.flow flow → elsewhere ⊆ v.elsewhere →
      Moves v { v with flow, elsewhere } []
  | fences {key : FrameType × ℕ} {a b c : List Signal} :
      v.flow = a ++ Signal.fence key :: b → a.filter isFence = [] →
      (v.fenced ≠ some key → .gate ∉ c) → Shift v.phone.epoch a c →
      Moves v { v with flow := c ++ b, fenced := some key } []

/-! ## What a step of the phone's machine does to the exchange -/

section machine

variable {m : Machine} {now : ℤ} {e : QualitySwitch.Event}

theorem waits_iff : waits m = true ↔ m.phase = .prepared ∨ m.phase = .staged := by
  simp [waits]

theorem not_waits_iff : waits m = false ↔ m.phase ≠ .prepared ∧ m.phase ≠ .staged := by
  simp [waits]

/-- What a step does while the machine does not wait: it says at most one thing of the last request,
and goes on not waiting. -/
structure Turns (m : Machine) (r : Machine × List QualitySwitch.Action) : Prop where
  free : waits r.1 = false
  epoch : r.1.epoch = m.epoch
  last : r.1.lastRequestId = m.lastRequestId
  said : replies r.2 = [] ∨
    ∃ status, status ≠ .staged ∧ replies r.2 = [.result m.lastRequestId status]

theorem Turns.notes {r : Machine × List QualitySwitch.Action} (h : Turns m r)
    (hfree : waits m = false) : turned m r.1 = [] := by
  simp [turned, h.free, hfree]

theorem turns_fail (m : Machine) (reason : ℕ) : Turns m (m.fail reason) where
  free := rfl
  epoch := rfl
  last := rfl
  said := .inr ⟨.rejected, by decide, rfl⟩

theorem turns_still (hfree : waits m = false) : Turns m (m, []) where
  free := hfree
  epoch := rfl
  last := rfl
  said := .inl rfl

/-- A step while the machine does not wait. -/
theorem turns_free (hfree : waits m = false) (he : ∀ r, e ≠ .prepare r) :
    Turns m (m.step now e) := by
  have hmoves := Machine.step_moves m now e
  obtain ⟨hprepared, hstaged⟩ := not_waits_iff.mp hfree
  generalize m.step now e = r at hmoves ⊢
  obtain ⟨m', actions⟩ := r
  dsimp only at hmoves
  cases hmoves with
  | still => exact turns_still hfree
  | replayed | busy | refused | prepared | staged => exact absurd rfl (he _)
  | committed hphase => exact absurd hphase hprepared
  | begun hphase => exact absurd hphase hstaged
  | applied => exact ⟨rfl, rfl, rfl, .inr ⟨.applied, by decide, rfl⟩⟩
  | failed reason => exact turns_fail m reason

variable (now)

/-- What the phone's own events do while the machine waits for a commit. -/
theorem own_prepared (hphase : m.phase = .prepared) (he : ownEvent e = true) :
    m.step now e = (m, []) ∨ ∃ reason, m.step now e = m.fail reason := by
  have hmoves := Machine.step_moves m now e
  generalize m.step now e = r at hmoves ⊢
  obtain ⟨m', actions⟩ := r
  dsimp only at hmoves
  cases hmoves with
  | still => exact .inl rfl
  | replayed | busy | refused | prepared | staged | committed => cases he
  | applied hon =>
    rw [hphase] at hon
    simp at hon
  | begun hstaged =>
    rw [hphase] at hstaged
    cases hstaged
  | failed reason => exact .inr ⟨reason, rfl⟩

/-- And while it waits for the user: no capture has started, as there is no camera bridge. -/
theorem own_staged (he : ownEvent e = true)
    (hcapture : ∀ width height fps, e ≠ .captureStarted width height fps) :
    m.step now e = (m, []) ∨ (∃ reason, m.step now e = m.fail reason) ∨
      ((m.step now e).1.phase = .starting ∧ (m.step now e).1.epoch = m.epoch ∧
        (m.step now e).1.lastRequestId = m.lastRequestId ∧
        (m.step now e).2 = [.sendQualityResult m.lastRequestId .switching 0 0 0 0]) := by
  have hmoves := Machine.step_moves m now e
  generalize m.step now e = r at hmoves ⊢
  obtain ⟨m', actions⟩ := r
  dsimp only at hmoves
  cases hmoves with
  | still => exact .inl rfl
  | replayed | busy | refused | prepared | staged | committed => cases he
  | applied => exact absurd rfl (hcapture _ _ _)
  | begun => exact .inr (.inr ⟨rfl, rfl, rfl, rfl⟩)
  | failed reason => exact .inr (.inl ⟨reason, rfl⟩)

/-- The commit that the machine waits for. -/
theorem commit_prepared (hphase : m.phase = .prepared) (hmax : m.epoch + 1 < 2 ^ 32) :
    m.step now (.commit m.lastRequestId (m.epoch + 1)) =
      ({ m with phase := .starting, epoch := m.epoch + 1 },
        [.startCapture m.stagedWidth m.stagedHeight m.stagedFps]) := by
  have hrange : ¬ m.epoch + 1 > 0xffffffff := by omega
  simp [Machine.step, hphase, hrange]

/-- What a new request leads to. -/
inductive Answers (m : Machine) (r : QualitySwitch.Prepare) :
    Machine × List QualitySwitch.Action → Prop
  | rejected {m' : Machine} {actions : List QualitySwitch.Action} : waits m' = false →
      m'.epoch = m.epoch → m.lastRequestId ≤ m'.lastRequestId → m'.lastRequestId ≤ r.requestId →
      replies actions = [.result r.requestId .rejected] → Answers m r (m', actions)
  | waits {m' : Machine} {actions : List QualitySwitch.Action} {x : Signal}
      (key : FrameType × ℕ) : key.2 = r.requestId →
      (r.streaming = true ∧ m'.phase = .prepared ∧ x = .paused r.requestId m.epoch ∧
          .stopCapture ∈ actions) ∨
        (r.streaming = false ∧ m'.phase = .staged ∧ x = .result r.requestId .staged) →
      m'.epoch = m.epoch → m'.lastRequestId = r.requestId →
      m'.stagedWidth = r.width ∧ m'.stagedHeight = r.height ∧ m'.stagedFps = r.fps →
      replies actions = [.fence key, x] → Answers m r (m', actions)

theorem prepare_ne_nil {r : QualitySwitch.Prepare} (hnew : m.lastRequestId < r.requestId)
    (hmax : r.requestId ≤ 0xffffffff) : (m.prepare now r).2 ≠ [] := by
  have hlast : ¬ (r.requestId = m.lastRequestId ∧ m.lastRequestId ≠ 0) := by omega
  have hrange : ¬ (¬ (1 ≤ r.requestId ∧ r.requestId ≤ 0xffffffff) ∨
      r.requestId < m.lastRequestId) := by omega
  unfold Machine.prepare
  rw [if_neg hlast, if_neg hrange]
  split
  · simp
  dsimp only
  split
  · simp [Machine.reply]
  · split <;> simp [Machine.reply]

/-- A new request is answered: it is never passed over. -/
theorem answers {r : QualitySwitch.Prepare} (hfree : waits m = false)
    (hnew : m.lastRequestId < r.requestId) (hmax : r.requestId ≤ 0xffffffff) :
    Answers m r (m.step now (.prepare r)) := by
  have hmoves : Machine.Moves m now (.prepare r) (m.prepare now r).1 (m.prepare now r).2 :=
    Machine.prepare_moves m now r
  have hsome := prepare_ne_nil now hnew hmax
  show Answers m r (m.prepare now r)
  generalize m.prepare now r = p at hmoves hsome ⊢
  obtain ⟨m', actions⟩ := p
  dsimp only at hmoves
  cases hmoves with
  | still => exact absurd rfl hsome
  | replayed hlast => omega
  | busy => exact .rejected hfree rfl (Nat.le_refl _) (Nat.le_of_lt hnew) rfl
  | refused => exact .rejected hfree rfl (Nat.le_of_lt hnew) (Nat.le_refl _) rfl
  | prepared _ _ _ hstreaming =>
    exact .waits (.paused, r.requestId) rfl (.inl ⟨hstreaming, rfl, rfl, by simp⟩) rfl rfl
      ⟨rfl, rfl, rfl⟩ rfl
  | staged _ _ _ hstreaming =>
    exact .waits (.qualityResult, r.requestId) rfl (.inr ⟨hstreaming, rfl, rfl⟩) rfl rfl
      ⟨rfl, rfl, rfl⟩ rfl
  | failed _ _ he => exact absurd rfl (he r)

end machine

/-! ## What the PC hears -/

section switch

variable {s : Switch} {x : Signal} {e : HostQuality.Event} (now : ℕ)

/-- A signal that is about no active request only ever sets the epoch. -/
theorem heard_inactive (hidle : s.active = false) (he : Hears x e) :
    s.step now e =
      (match x with
        | .capabilities epoch => { s with epoch := some (UInt32.ofNat epoch) }
        | _ => s, []) := by
  have hsettled : s.settled = true := by rw [Switch.settled_eq, hidle]; rfl
  have hphase : s.phase = .idle ∨ s.phase = .applied ∨ s.phase = .failed := by
    simpa [Switch.settled, or_assoc] using hsettled
  rcases hphase with hphase | hphase | hphase <;>
    cases he <;>
    simp [Switch.step, hphase, Switch.busy, Switch.staged, Switch.awaitingVideo, Switch.settled]

/-- A signal about another request changes nothing while one is under way. -/
theorem heard_other (hactive : s.active = true) (he : Hears x e)
    (hother : x.about s.requestId.toNat = false) (hwithin : x.Within s.requestId.toNat)
    (hvideo : x ≠ .video) : s.step now e = (s, []) := by
  have hne (id : ℕ) (hid : id ≤ s.requestId.toNat) (hneq : id ≠ s.requestId.toNat) :
      UInt32.ofNat id ≠ s.requestId := by
    intro h
    have hlt : s.requestId.toNat < 4294967296 := s.requestId.toNat_lt
    have hsmall : id < UInt32.size := by
      show id < 4294967296
      omega
    have hnat := UInt32.toNat_ofNat_of_lt' hsmall
    rw [h] at hnat
    exact hneq hnat.symm
  have hsettled : s.settled = false := by rw [Switch.settled_eq, hactive]; rfl
  cases he with
  | capabilities => simp [Switch.step, hsettled]
  | video => exact absurd rfl hvideo
  | staged id | switching id | rejected id | applied id | paused id =>
    have hid := hne id hwithin (by simpa [about] using hother)
    simp [Switch.step, hid]

/-- What hearing leaves alone. -/
theorem heard_keeps (he : Hears x e) :
    (s.step now e).1.requestId = s.requestId ∧
      (s.step now e).1.nextRequestId = s.nextRequestId ∧
      (s.step now e).1.requested = s.requested ∧
      (s.epoch ≠ none → (s.step now e).1.epoch ≠ none) := by
  have hmoves := Switch.step_moves s now e
  generalize s.step now e = r at hmoves ⊢
  obtain ⟨s', actions⟩ := r
  dsimp only at hmoves
  cases hmoves with
  | prepared => cases he
  | _ => simp_all

end switch

/-! ## Where a request stands -/

/-- What holds whatever the request is. -/
structure Sane (v : Exchange) : Prop where
  next : v.pc.nextRequestId.toNat = v.id + 1
  within : ∀ x ∈ v.flow, x.Within v.id
  last : v.phone.lastRequestId ≤ v.id
  range : v.phone.epoch ≤ 0xffffffff
  elsewhere : ∀ e ∈ v.elsewhere, e = v.phone.epoch
  known : v.advertised = true → v.pc.epoch ≠ none
  asked : v.pc.phase ≠ .idle → v.advertised = true
  shut : waits v.phone = true → v.bridge = false
  fenced : ∀ key, v.fenced = some key → key.2 ≤ v.phone.lastRequestId
  fence : ∀ key, .fence key ∈ v.flow → waits v.phone = true ∧
    key.2 ≤ v.phone.lastRequestId ∧ ∀ k, v.fenced = some k → k.2 < key.2
  single : (v.flow.filter isFence).length ≤ 1

/-- The epochs agree: every capability frame in flight carries the phone's, and so does the PC. -/
structure Level (v : Exchange) : Prop where
  flow : ∀ x ∈ v.flow, x.Carries v.phone.epoch
  pc : v.pc.epoch = none ∨ v.pc.epoch = some (UInt32.ofNat v.phone.epoch)

/-- No command is under way, and the phone waits for none. -/
structure Calm (v : Exchange) : Prop where
  commands : v.commands = []
  free : waits v.phone = false
  level : Level v

/-- The phone accepted the request as it was asked. -/
def Accepted (tr : List Note) (v : Exchange) : Prop :=
  ∃ width height fps, v.pc.requested = some (width, height, fps) ∧
    .accepted v.id width.toNat height.toNat fps.toNat ∈ tr

/-- And then went on to start the capture for it. -/
def Departed (tr : List Note) (v : Exchange) : Prop :=
  ∃ width height fps, v.pc.requested = some (width, height, fps) ∧
    Precedes tr (.accepted v.id width.toNat height.toNat fps.toNat) (.left v.id)

/-- The reply under which the phone waits. -/
inductive Reply (v : Exchange) : Signal → Prop
  | paused : v.phone.phase = .prepared → Reply v (.paused v.id v.phone.epoch)
  | staged : v.phone.phase = .staged → Reply v (.result v.id .staged)

/-- How far a request is, and what is on its way for it. -/
inductive Stage (tr : List Note) (v : Exchange) : Prop
  /-- No request is under way. -/
  | settled : v.pc.active = false → Calm v → Stage tr v
  /-- The prepare is on its way. -/
  | asked {request : PrepareQuality} {width height fps : UInt16} : v.pc.phase = .preparing →
      v.commands = [.prepare request] → request.requestId = v.id →
      v.pc.requested = some (width, height, fps) →
      request.width = width.toNat ∧ request.height = height.toNat ∧ request.targetFps = fps.toNat →
      v.phone.lastRequestId < v.id → waits v.phone = false → Level v → Silent v.id v.flow →
      Stage tr v
  /-- A rejection is on its way. -/
  | refused : v.pc.phase = .preparing → Calm v → First v.id (.result v.id .rejected) v.flow →
      Stage tr v
  /-- The phone waits, and its reply is on its way. -/
  | held {x : Signal} : v.pc.phase = .preparing → v.commands = [] → Reply v x →
      v.phone.lastRequestId = v.id → Level v → Accepted tr v → Held v.id x v.flow → Stage tr v
  /-- The phone gave up behind its `PAUSED`. -/
  | cancelled : v.pc.phase = .preparing → Calm v →
      Next v.id (.paused v.id v.phone.epoch) (Doomed v.id) v.flow → Stage tr v
  /-- The phone went on, or gave up, behind its `STAGED`. -/
  | unstaged : v.pc.phase = .preparing → Calm v → Accepted tr v →
      Next v.id (.result v.id .staged) (fun l => Departed tr v ∨ Doomed v.id l) v.flow → Stage tr v
  /-- Both wait for the phone's user. -/
  | staged : v.pc.phase = .staged → v.commands = [] → v.phone.phase = .staged →
      v.phone.lastRequestId = v.id → Level v → Accepted tr v → Bare v.id v.flow → Stage tr v
  | leaving : v.pc.phase = .staged → Calm v → Accepted tr v →
      Departed tr v ∨ Doomed v.id v.flow → Stage tr v
  /-- The commit is on its way to a phone that waits for it. -/
  | committing : v.pc.phase = .switching →
      v.commands = [.commit { requestId := v.id, streamEpoch := v.phone.epoch + 1 }] →
      v.phone.phase = .prepared → v.phone.lastRequestId = v.id → v.phone.epoch + 1 < 2 ^ 32 →
      v.pc.epoch = some (UInt32.ofNat (v.phone.epoch + 1)) → Accepted tr v → Bare v.id v.flow →
      Stage tr v
  /-- The commit comes too late: a rejection is on its way, and no video before it. -/
  | doomed : v.pc.phase = .switching →
      (∀ c ∈ v.commands, ∃ epoch, c = .commit { requestId := v.id, streamEpoch := epoch }) →
      waits v.phone = false → Doomed v.id v.flow → Stage tr v
  /-- The phone starts the capture. -/
  | switching : v.pc.phase = .switching → v.commands = [] → waits v.phone = false →
      v.pc.epoch = some (UInt32.ofNat v.phone.epoch) → Departed tr v →
      Fresh v.phone.epoch v.flow → Stage tr v
  | awaiting : v.pc.phase = .awaitingOutput → Calm v → Departed tr v → Stage tr v

end QualityAgreement
end MobileWebcamBridge
