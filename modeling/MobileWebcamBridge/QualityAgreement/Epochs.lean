import MobileWebcamBridge.QualityAgreement.Refines

/-!
# The epochs of the two sides

What the stages say of a `PAUSED` that the PC is about to read, of a commit that the phone is about
to handle, and of a session between two requests.
-/

set_option autoImplicit false

namespace MobileWebcamBridge
namespace QualityAgreement

open Wire Signal
open HostVideo (Stream)
open HostQuality (Switch checkedSucc)

variable {tr : List Note} {v : Exchange} {l : List Signal}

/-! ## The exchange -/

/-- A PC that has asked knows an epoch, and it is the phone's. -/
theorem Agreed.known (h : Agreed tr v) (hlevel : Level v) (hphase : v.pc.phase = .preparing) :
    v.pc.epoch = some (UInt32.ofNat v.phone.epoch) := by
  have hasked := h.sane.known (h.sane.asked (by simp [hphase]))
  exact hlevel.pc.resolve_left hasked

/-- The `PAUSED` that a PC waits for carries the epoch of both sides. -/
theorem Agreed.paused {epoch : ℕ} (h : Agreed tr v) (hflow : v.flow = .paused v.id epoch :: l)
    (hphase : v.pc.phase = .preparing) :
    epoch = v.phone.epoch ∧ v.pc.epoch = some (UInt32.ofNat epoch) := by
  have habout : (Signal.paused v.id epoch).about v.id = true := by simp [about]
  cases h.stage with
  | settled hidle => simp [Switch.active, Switch.busy, hphase] at hidle
  | asked _ _ _ _ _ _ _ _ hsilent =>
    rw [hflow] at hsilent
    have hnot := silent_iff.mp hsilent _ List.mem_cons_self
    rw [habout] at hnot
    cases hnot
  | refused _ _ hfirst =>
    rw [hflow] at hfirst
    cases hfirst.head habout
  | held _ _ hreply _ hlevel _ hheld =>
    rw [hflow] at hheld
    obtain ⟨heq, -⟩ := hheld.head habout
    cases hreply with
    | staged => cases heq
    | paused =>
      obtain ⟨-, rfl⟩ := Signal.paused.inj heq
      exact ⟨rfl, h.known hlevel hphase⟩
  | cancelled _ hcalm hnext =>
    rw [hflow] at hnext
    obtain ⟨heq, -⟩ := hnext.head habout
    obtain ⟨-, rfl⟩ := Signal.paused.inj heq
    exact ⟨rfl, h.known hcalm.level hphase⟩
  | unstaged _ _ _ hnext =>
    rw [hflow] at hnext
    cases (hnext.head habout).1
  | staged hother | leaving hother | committing hother | doomed hother | switching hother
  | awaiting hother =>
    rw [hphase] at hother
    cases hother

/-- A commit is for the request under way. The phone waits for it, or has given up and a rejection
that ends the session is on its way. -/
theorem Agreed.commit {epoch : Epoch} {rest : List HostCommand} (h : Agreed tr v)
    (hcommands : v.commands = .commit epoch :: rest) :
    epoch.requestId = v.id ∧ v.pc.phase = .switching ∧
      ((v.phone.phase = .prepared ∧ v.phone.lastRequestId = v.id ∧
          epoch.streamEpoch = v.phone.epoch + 1 ∧ epoch.streamEpoch < 2 ^ 32 ∧
          v.pc.epoch = some (UInt32.ofNat epoch.streamEpoch)) ∨
        (waits v.phone = false ∧ Doomed v.id v.flow)) := by
  have hsome (hnone : v.commands = []) : False := by
    rw [hcommands] at hnone
    cases hnone
  cases h.stage with
  | settled _ hcalm | refused _ hcalm | cancelled _ hcalm | unstaged _ hcalm | leaving _ hcalm
  | awaiting _ hcalm => exact (hsome hcalm.commands).elim
  | held _ hnone | staged _ hnone | switching _ hnone => exact (hsome hnone).elim
  | asked _ hasked =>
    rw [hcommands] at hasked
    cases hasked
  | committing hphase hone hprepared hlast hmax hepoch =>
    rw [hcommands] at hone
    obtain ⟨hcommit, -⟩ := List.cons.inj hone
    obtain rfl := HostCommand.commit.inj hcommit
    exact ⟨rfl, hphase, .inl ⟨hprepared, hlast, rfl, hmax, hepoch⟩⟩
  | doomed hphase hall hfree hdoomed =>
    obtain ⟨e, he⟩ := hall (.commit epoch) (by
      rw [hcommands]
      exact List.mem_cons_self)
    obtain rfl := HostCommand.commit.inj he
    exact ⟨rfl, hphase, .inr ⟨hfree, hdoomed⟩⟩

theorem Agreed.settled (h : Agreed tr v) (hidle : v.pc.active = false) : Calm v := by
  have hactive (hphase : v.pc.phase = .preparing ∨ v.pc.phase = .staged ∨ v.pc.phase = .switching ∨
      v.pc.phase = .awaitingOutput) : False := by
    rcases hphase with hphase | hphase | hphase | hphase <;>
      simp [Switch.active, Switch.busy, Switch.staged, hphase] at hidle
  cases h.stage with
  | settled _ hcalm => exact hcalm
  | asked hphase | refused hphase | held hphase | cancelled hphase | unstaged hphase =>
    exact (hactive (.inl hphase)).elim
  | staged hphase | leaving hphase => exact (hactive (.inr (.inl hphase))).elim
  | committing hphase | doomed hphase | switching hphase =>
    exact (hactive (.inr (.inr (.inl hphase)))).elim
  | awaiting hphase => exact (hactive (.inr (.inr (.inr hphase)))).elim

/-! ## The session -/

/-- What the two sides make of an epoch, wherever the session stands. -/
structure EpochsAgree (s : State) : Prop where
  /-- A `PAUSED` for the request under way carries the phone's epoch, and the commit goes
  to the next. -/
  paused {now : ℕ} {frame : FramedOutbound.Frame} {rest : List FramedOutbound.Frame} {epoch : Epoch}
    {s' : State} {es : List Event} : s.wire = frame :: rest → frame.header.type = .paused →
    frame.payload = .epoch epoch → s.host.switch.phase = .preparing →
    epoch.requestId = s.host.switch.requestId.toNat → epoch.streamEpoch < 0xffffffff →
    step s (.receive now) = some (s', es) →
      epoch.streamEpoch = s.phone.machine.epoch ∧ s'.host.switch.phase = .switching ∧
        s'.host.switch.epoch = some (UInt32.ofNat (epoch.streamEpoch + 1)) ∧
        s'.sent.filterMap command = s.sent.filterMap command ++
          [Wire.HostCommand.commit { epoch with streamEpoch := epoch.streamEpoch + 1 }]
  /-- A commit is accepted, or a rejection is ahead of all video. -/
  commit {frame : HostWire.Frame} {rest : List HostWire.Frame} {epoch : Epoch} :
    s.sent = frame :: rest → command frame = some (.commit epoch) →
      epoch.requestId = s.host.switch.requestId.toNat ∧ s.host.switch.phase = .switching ∧
        ((s.host.switch.epoch = some (UInt32.ofNat epoch.streamEpoch) ∧
            ∀ now, s.phone.machine.step now (.commit epoch.requestId epoch.streamEpoch) =
              ({ s.phone.machine with phase := .starting, epoch := epoch.streamEpoch },
                [.startCapture s.phone.machine.stagedWidth s.phone.machine.stagedHeight
                  s.phone.machine.stagedFps])) ∨
          (waits s.phone.machine = false ∧ Doomed epoch.requestId (flow s.wire s.threads)))
  /-- And that rejection ends the session. -/
  rejected {now : ℕ} {frame : FramedOutbound.Frame} {rest : List FramedOutbound.Frame}
    {result : QualityResult} {s' : State} {es : List Event} : s.wire = frame :: rest →
    frame.header.type = .qualityResult → frame.payload = .qualityResult result →
    result.status = .rejected → result.requestId = s.host.switch.requestId.toNat →
    s.host.switch.phase = .switching → step s (.receive now) = some (s', es) → ¬ Running s'.host
  /-- Between two requests no command is on its way, and the epochs are equal. -/
  settled : s.host.switch.active = false →
    s.sent.filterMap command = [] ∧
      (∀ x ∈ flow s.wire s.threads, x.Carries s.phone.machine.epoch) ∧
      (s.host.advertised = true →
        s.host.switch.epoch = some (UInt32.ofNat s.phone.machine.epoch))

section session

variable {s s' : State} {es : List Event} {now : ℕ}

/-- The loop goes on behind an event of the phone unless its report says otherwise. -/
theorem running_control {host : Stream} {e : HostQuality.Event} :
    Running (host.control now e).1 ↔ (Stream.report (host.switch.step now e).2).2 = false := by
  unfold Stream.control
  dsimp only
  split
  · next hfails =>
    rw [hfails]
    exact ⟨fun hrun => (not_running_finish _ _ hrun).elim, nofun⟩
  · next hgoes => exact ⟨fun _ => Bool.eq_false_of_not_eq_true hgoes, fun _ _ => nofun⟩

theorem checkedSucc_ofNat {n : ℕ} (h : n < 0xffffffff) :
    checkedSucc (UInt32.ofNat n) = some (UInt32.ofNat (n + 1)) := by
  have hsize : n < UInt32.size := by
    show n < 4294967296
    omega
  have hnat := UInt32.toNat_ofNat_of_lt' hsize
  rw [checkedSucc, if_pos (by omega), UInt32.ofNat_add]
  rfl

/-- The PC reads the frame at the head of the line. -/
theorem receive_some {frame : FramedOutbound.Frame} {rest : List FramedOutbound.Frame}
    (hwire : s.wire = frame :: rest) (hs : step s (.receive now) = some (s', es)) :
    s'.host = (s.host.incoming now (onLine frame)).1 ∧
      s'.sent.filterMap command =
        s.sent.filterMap command ++ commanded (s.host.incoming now (onLine frame)).2 := by
  simp only [step, hwire] at hs
  split at hs
  · cases hs
  next hstep =>
  obtain ⟨rfl, -⟩ := Prod.mk.inj (Option.some.inj hs)
  obtain ⟨host, ns, hhost, rfl, -⟩ := hostStep_some hstep
  rw [Stream.incoming_of_step hhost]
  exact ⟨rfl, commands_sent _ _⟩

/-- The switch takes a `PAUSED` that carries its epoch. -/
theorem step_paused {sw : Switch} {epoch : ℕ} (hphase : sw.phase = .preparing)
    (hepoch : sw.epoch = some (UInt32.ofNat epoch)) (hmax : epoch < 0xffffffff) :
    sw.step now (.paused sw.requestId (UInt32.ofNat epoch)) =
      ({ sw with phase := .switching, epoch := some (UInt32.ofNat (epoch + 1)) },
        [.releaseOutputs, .sendCommitQuality sw.requestId (UInt32.ofNat (epoch + 1))]) := by
  have hnext := checkedSucc_ofNat hmax
  generalize UInt32.ofNat epoch = current at hepoch hnext ⊢
  generalize UInt32.ofNat (epoch + 1) = next at hnext ⊢
  simp [Switch.step, hphase, hepoch, hnext]

/-- Under way behind its commit, a request that is rejected ends the loop. -/
theorem step_rejected {sw : Switch} {reason : UInt8} (hphase : sw.phase = .switching) :
    (Stream.report (sw.step now (.rejected sw.requestId reason)).2).2 = true := by
  have hfails : sw.step now (.rejected sw.requestId reason) =
      sw.fail (HostQuality.rejectionReason reason) := by
    simp only [Switch.step]
    rw [if_neg (by simp [Switch.busy, hphase]), if_pos (.inl hphase)]
  rw [hfails]
  rfl

/-- **The epochs agree** in every orderly session that is still open: no `PAUSED` that the PC waits
for is passed over, no commit is lost on a phone that waits for it, and between two requests both
sides are at one epoch. -/
theorem epochs_agree {tr : List Event} (h : system.Under Orderly tr s) (hopen : s.Open) :
    EpochsAgree s := by
  obtain ⟨hkept, hagreed⟩ := refined h hopen
  refine ⟨?_, ?_, ?_, ?_⟩
  · intro now frame rest epoch s' es hwire htype hpayload hphase hid hmax hs
    obtain ⟨hhost, hsent⟩ := receive_some hwire hs
    have hflow : s.view.flow = .paused s.view.id epoch.streamEpoch :: flow rest s.threads := by
      show flow s.wire s.threads = _
      rw [flow, hwire, List.cons_append, List.flatMap_cons, signals_paused htype hpayload, hid,
        List.append_assoc]
      rfl
    obtain ⟨hphone, hpc⟩ := hagreed.paused hflow hphase
    have hstep : s.host.switch.step now _ = _ := step_paused hphase hpc hmax
    have hincoming : s.host.incoming now (onLine frame) = _ := incoming_paused htype hpayload
    rw [hid, UInt32.ofNat_toNat] at hincoming
    obtain ⟨hheard, -⟩ := control_heard _ (running_control.mpr (by rw [hstep]; rfl))
    rw [← hincoming, ← hhost] at hheard
    have hswitch := hheard.switch
    have hcommands := hheard.commands
    rw [hstep] at hswitch hcommands
    refine ⟨hphone, by rw [hswitch], by rw [hswitch], ?_⟩
    rw [hsent, hcommands]
    -- the epoch that is committed does not wrap around
    have hnext : (UInt32.ofNat (epoch.streamEpoch + 1)).toNat = epoch.streamEpoch + 1 := by
      apply UInt32.toNat_ofNat_of_lt'
      show epoch.streamEpoch + 1 < 4294967296
      omega
    simp only [commits, List.filterMap_cons, List.filterMap_nil, hnext, hid]
  · intro frame rest epoch hsent hcommand
    have hcommands : s.view.commands = .commit epoch :: rest.filterMap command := by
      show s.sent.filterMap command = _
      rw [hsent, List.filterMap_cons_some hcommand]
    obtain ⟨hid, hphase, hcases⟩ := hagreed.commit hcommands
    refine ⟨hid, hphase, ?_⟩
    rcases hcases with ⟨hprepared, hlast, hepoch, hmax, hpc⟩ | ⟨hfree, hdoomed⟩
    · refine .inl ⟨hpc, ?_⟩
      intro now
      have hprepared' : s.phone.machine.phase = .prepared := hprepared
      have hepoch' : epoch.streamEpoch = s.phone.machine.epoch + 1 := hepoch
      have hid' : epoch.requestId = s.phone.machine.lastRequestId := hid.trans hlast.symm
      have hstep := commit_prepared now hprepared' (by omega)
      rw [hid', hepoch']
      exact hstep
    · rw [hid]
      exact .inr ⟨hfree, hdoomed⟩
  · intro now frame rest result s' es hwire htype hpayload hstatus hid hphase hs
    obtain ⟨hhost, -⟩ := receive_some hwire hs
    obtain ⟨e, hevent, hhears⟩ := hears_result result
    rw [hhost, incoming_result htype hpayload hevent]
    rw [hstatus] at hhears
    cases hhears with
    | rejected id reason =>
      rw [running_control, hid, UInt32.ofNat_toNat, step_rejected hphase]
      simp
  · intro hidle
    have hcalm := hagreed.settled hidle
    refine ⟨hcalm.commands, hcalm.level.flow, ?_⟩
    intro hadvertised
    exact hcalm.level.pc.resolve_left (hagreed.sane.known hadvertised)

end session

theorem new_first : (FramedOutbound.new 1).isSome = true := rfl

/-- A session whose writer runs. -/
def granted : State where
  host := .init
  sent := []
  phone := .new 0
  bridge := false
  threads :=
    { out := { ((FramedOutbound.new 1).get new_first) with running := true }
      ui := [], others := [], writer := .acquire }
  wire := []

/-- The mode of the run. -/
def offeredMode : CaptureMode :=
  { cameraId := "0", codecName := "avc", width := 1280, height := 720, targetFps := 30
    bitrate := 4000000 }

/-- The phone is in the foreground, and has its camera permission. -/
def ready : PhoneQualityController.Environment where
  revision := 1
  modes := [offeredMode]
  permissionReady := true
  foreground := true
  streaming := true
  deviceModes := [offeredMode]
  nowMillis := 100

/-- Some steps of the phone's writer. -/
def writes (n : ℕ) : List Label := List.replicate n (Label.outbound .writerStep)

/-- A pass of the PC's loop up to its read. -/
def pass (request : Option HostQuality.Tuple) : List Label :=
  [.host (.check false), .host (.request 0 request), .host (.deadline 0)]

/-- The phone tells its modes and streams, the PC asks for one, and the phone pauses. -/
def asking : List Label :=
  [Label.host .opened, .grant .ready 1 [⟨1280, 720, 30, 4000000⟩]] ++
    List.replicate 4 (Label.outbound (.step 0)) ++ writes 3 ++ pass none ++
    [Label.receive 0, .begin, .outbound .uiStep] ++ pass (some (1280, 720, 30)) ++
    [Label.command ready, .command ready] ++ List.replicate 6 (Label.outbound .uiStep) ++ writes 3

theorem start_granted : system.start granted := ⟨1, _, 0, rfl, by decide, rfl⟩

theorem epochs_agree_asking :
    (system.final granted asking).wire.map (·.header.type) = [.paused] ∧
    (system.final granted asking).host.switch.phase = .preparing ∧
    EpochsAgree (system.final granted asking) := by
  refine ⟨by decide +kernel, by decide +kernel, ?_⟩
  refine epochs_agree (EventSystem.under_trace asking start_granted ?_ ?_) ?_
  · decide +kernel
  · decide +kernel
  · decide +kernel

end QualityAgreement
end MobileWebcamBridge
