import MobileWebcamBridge.QualityAgreement
import MobileWebcamBridge.QualityAgreement.Exchange
import MobileWebcamBridge.WireAgreement

/-!
# What the PC's loop tells its switch, and what it sends

A step of `receive_stream` that does not return is a move of the PC in the exchange, or none: a
frame of the phone is one event of the switch, an apply request one prepare, and every other step
leaves the switch alone or tells it that a picture came out.
-/

set_option autoImplicit false

namespace MobileWebcamBridge
namespace QualityAgreement

open Wire Signal Bytes
open HostVideo (Stream)
open HostQuality (Switch Action checkedSucc)

/-- The commands among the loop's notes, as the phone takes them. -/
def commanded (notes : List HostVideo.Note) : List HostCommand :=
  (notes.filterMap sentFrame).filterMap command

/-- The loop has not returned. -/
def Running (s : Stream) : Prop := ∀ result, s.point ≠ .returned result

variable {s : Stream} {notes : List HostVideo.Note} {actions : List Action} {now : ℕ}

/-! ## Frames the PC sends -/

theorem commanded_append (notes notes' : List HostVideo.Note) :
    commanded (notes ++ notes') = commanded notes ++ commanded notes' := by
  simp only [commanded, List.filterMap_append]

theorem commanded_silent (h : ∀ note ∈ notes, sentFrame note = none) : commanded notes = [] := by
  rw [commanded, List.filterMap_eq_nil_iff.mpr h]
  rfl

theorem commanded_framed {kind : UInt8} {payload : List UInt8} (h : HostWire.Fits kind payload)
    (sequence : UInt32) :
    commanded (Stream.framed kind sequence payload) =
      (command
        { header :=
            { kind, flags := 0, sequence, payloadLen := UInt32.ofNat payload.length, ptsUs := 0 }
          payload }).toList := by
  unfold Stream.framed
  rw [HostWire.Frame.new_of_size h.1 h.2]
  show List.filterMap command [_] = _
  cases hcommand : command _ with
  | none => exact List.filterMap_cons_none hcommand
  | some c => exact List.filterMap_cons_some hcommand

theorem commanded_commit (id epoch : UInt32) :
    commanded (Stream.frames (.sendCommitQuality id epoch)) =
      [.commit { requestId := id.toNat, streamEpoch := epoch.toNat }] := by
  let e : HostWire.Epoch := { requestId := id, streamEpoch := epoch }
  have hdecode : WireCodec.decodeEpoch e.encode =
      some { requestId := id.toNat, streamEpoch := epoch.toNat } :=
    WireAgreement.decodeEpoch_encode (P := WireAgreement.asciiPlatform) e
  show commanded (Stream.framed HostWire.COMMIT_QUALITY 0 e.encode) = _
  rw [commanded_framed (HostWire.fits_of_length e.length_encode (by decide) (by decide))]
  simp only [command, hdecode]
  rfl

theorem commanded_prepare (id : UInt32) (revision width height fps : UInt16) :
    commanded (Stream.frames (.sendPrepareQuality id revision width height fps)) =
      [.prepare
        { requestId := id.toNat, catalogRevision := revision.toNat
          width := width.toNat, height := height.toNat, targetFps := fps.toNat }] := by
  let p : HostWire.PrepareQuality :=
    { requestId := id, catalogRevision := revision, width, height, targetFps := fps }
  have hdecode : WireCodec.decodePrepareQuality p.encode = some
      { requestId := id.toNat, catalogRevision := revision.toNat
        width := width.toNat, height := height.toNat, targetFps := fps.toNat } :=
    WireAgreement.decodePrepareQuality_encode (P := WireAgreement.asciiPlatform) p
  show commanded (Stream.framed HostWire.PREPARE_QUALITY 0 p.encode) = _
  rw [commanded_framed (HostWire.fits_of_length p.length_encode (by decide) (by decide))]
  simp only [command, hdecode]
  rfl

theorem commanded_idr : commanded (Stream.framed HostWire.IDR_REQUEST 2 []) = [] := by
  rw [commanded_framed ⟨by decide, by decide⟩]
  rfl

theorem silent_acted : ∀ note ∈ actions.map HostVideo.Note.acted, sentFrame note = none := by
  intro note hnote
  obtain ⟨action, -, rfl⟩ := List.mem_map.mp hnote
  rfl

theorem silent_reportQuality (terminal : Bool) :
    ∀ note ∈ (Stream.reportQuality terminal actions).1, sentFrame note = none := by
  induction actions with
  | nil =>
    intro note hnote
    cases hnote
  | cons action rest ih =>
    intro note hnote
    cases action with
    | reportApplied | reportFailed =>
      rcases List.mem_cons.mp hnote with rfl | hnote
      · rfl
      · exact ih note hnote
    | stopCapture | closeConnection => cases hnote
    | _ => exact ih note hnote

theorem commanded_reported (actions : List Action) :
    commanded (actions.map .acted ++ (Stream.report actions).1) = [] := by
  apply commanded_silent
  intro note hnote
  rcases List.mem_append.mp hnote with hnote | hnote
  · exact silent_acted note hnote
  · exact silent_reportQuality _ note hnote

theorem commanded_event (b : Bool) (event : HostControl.Event) :
    commanded (if b then [.event event] else []) = [] := by
  cases b <;> rfl

/-- Of what the switch asks for, only a commit is a command. -/
theorem carryOut_tells (actions : List Action) : ∀ s : Stream,
    (s.carryOut actions).1.switch = s.switch ∧ (s.carryOut actions).1.advertised = s.advertised ∧
      commanded (s.carryOut actions).2 = commits actions := by
  induction actions with
  | nil =>
    intro s
    exact ⟨rfl, rfl, rfl⟩
  | cons action rest ih =>
    intro s
    by_cases hrelease : action = .releaseOutputs
    · obtain ⟨hswitch, hadvertised, hcommands⟩ := ih s.release
      subst hrelease
      refine ⟨hswitch, hadvertised, ?_⟩
      show commanded ([HostVideo.Note.released, .event .waiting] ++ (s.release.carryOut rest).2) = _
      rw [commanded_append, hcommands]
      rfl
    · obtain ⟨hswitch, hadvertised, hcommands⟩ := ih s
      simp only [Stream.carryOut, hrelease, if_false]
      refine ⟨hswitch, hadvertised, ?_⟩
      rw [commanded_append, hcommands]
      cases action with
      | sendCommitQuality id epoch =>
        have hcommit : commanded (Stream.commitFrames (.sendCommitQuality id epoch)) = _ :=
          commanded_commit id epoch
        rw [hcommit]
        rfl
      | _ => rfl

/-! ## What the loop makes of a frame -/

/-- The switch hears one event, and its commands are sent. -/
structure Heard (s s' : Stream) (now : ℕ) (e : HostQuality.Event) (notes : List HostVideo.Note) :
    Prop where
  switch : s'.switch = (s.switch.step now e).1
  kept : .closeConnection ∉ (s.switch.step now e).2
  commands : commanded notes = commits (s.switch.step now e).2

/-- The switch hears nothing, and nothing is sent. -/
structure Passed (s s' : Stream) (notes : List HostVideo.Note) : Prop where
  switch : s'.switch = s.switch
  advertised : s'.advertised = s.advertised
  commands : commanded notes = []

/-- A switch that closes the connection fails its report. -/
theorem kept_of_report {e : HostQuality.Event}
    (h : (Stream.report (s.switch.step now e).2).2 ≠ true) :
    .closeConnection ∉ (s.switch.step now e).2 := by
  have hmoves := Switch.step_moves s.switch now e
  generalize s.switch.step now e = r at hmoves h ⊢
  obtain ⟨switch, actions⟩ := r
  dsimp only at hmoves h ⊢
  cases hmoves with
  | closed | stopped => exact absurd rfl h
  | _ => simp

theorem not_running_finish (s : Stream) (result : Except String Unit) :
    ¬ Running (s.finish result).1 := fun h => h result rfl

theorem control_heard (e : HostQuality.Event) (hrun : Running (s.control now e).1) :
    Heard s (s.control now e).1 now e (s.control now e).2 ∧
      (s.control now e).1.advertised = s.advertised := by
  unfold Stream.control at hrun ⊢
  dsimp only at hrun ⊢
  split
  · next hfailed =>
    rw [if_pos hfailed] at hrun
    exact absurd hrun (not_running_finish _ _)
  · next hfailed =>
    obtain ⟨hswitch, hadvertised, hcommands⟩ :=
      carryOut_tells (s.switch.step now e).2 { s with switch := (s.switch.step now e).1 }
    refine ⟨⟨hswitch, kept_of_report hfailed, ?_⟩, hadvertised⟩
    rw [commanded_append, commanded_append, commanded_reported, hcommands, commanded_event,
      List.append_nil, List.nil_append]

/-- A `VIDEO_CONFIG` commits to nothing. -/
theorem commits_videoConfig (sw : Switch) (now : ℕ) (width height fps : UInt16) :
    commits (sw.step now (.videoConfig width height fps)).2 = [] := by
  have hmoves := Switch.step_moves sw now (.videoConfig width height fps)
  generalize sw.step now (.videoConfig width height fps) = r at hmoves ⊢
  obtain ⟨sw', actions⟩ := r
  dsimp only at hmoves ⊢
  cases hmoves with
  | _ => rfl

theorem configure_heard {next : HostWire.VideoConfig} (hrun : Running (s.configure now next).1) :
    Heard s (s.configure now next).1 now
      (.videoConfig next.width.toUInt16 next.height.toUInt16 next.fps.toUInt16)
      (s.configure now next).2 ∧ (s.configure now next).1.advertised = s.advertised := by
  unfold Stream.configure at hrun ⊢
  dsimp only at hrun ⊢
  split
  · next hawaiting =>
    rw [if_pos hawaiting] at hrun
    split
    · next hfailed =>
      rw [if_pos hfailed] at hrun
      exact absurd hrun (not_running_finish _ _)
    · next hfailed =>
      refine ⟨⟨rfl, kept_of_report hfailed, ?_⟩, rfl⟩
      rw [commits_videoConfig, commanded_append, commanded_append, commanded_reported,
        commanded_event]
      rfl
  · next hawaiting =>
    rw [if_neg hawaiting] at hrun
    -- a switch that awaits no video passes it over
    have hstill : s.switch.step now
        (.videoConfig next.width.toUInt16 next.height.toUInt16 next.fps.toUInt16) =
          (s.switch, []) := by
      simp only [Switch.step, if_pos (Bool.eq_false_of_not_eq_true hawaiting)]
    split
    · next hchanged =>
      rw [if_pos hchanged] at hrun
      exact absurd hrun (not_running_finish _ _)
    · refine ⟨⟨?_, ?_, ?_⟩, rfl⟩
      · rw [hstill]
      · rw [hstill]
        exact List.not_mem_nil
      · rw [hstill]
        rfl

theorem accessUnit_passed (au : HostVideo.AccessUnit) (hrun : Running (s.accessUnit au).1) :
    Passed s (s.accessUnit au).1 (s.accessUnit au).2 := by
  unfold Stream.accessUnit at hrun ⊢
  split
  · exact ⟨rfl, rfl, rfl⟩
  next hpayload =>
  rw [if_neg hpayload] at hrun
  split
  · exact ⟨rfl, rfl, rfl⟩
  next c hconfig =>
  rw [hconfig] at hrun
  dsimp only at hrun
  split
  · exact ⟨rfl, rfl, rfl⟩
  next hstarted =>
  rw [if_neg hstarted] at hrun
  split
  · next horder =>
    rw [if_pos horder] at hrun
    exact absurd hrun (not_running_finish _ _)
  · exact ⟨rfl, rfl, rfl⟩

/-! ## Frames of the phone -/

/-- What a frame of the phone is to the switch. -/
def signals (f : FramedOutbound.Frame) : List Signal :=
  match f.header.type, f.payload with
  | .qualityCapabilities, .capabilities c =>
    -- a list of another version is passed over
    if UInt8.ofNat c.extensionVersion = 1 then [.capabilities c.streamEpoch] else []
  | .qualityResult, .qualityResult r => [.result r.requestId r.status]
  | .paused, .epoch e => [.paused e.requestId e.streamEpoch]
  | .videoConfig, _ => [.video]
  | _, _ => []

theorem signals_paused {f : FramedOutbound.Frame} {e : Epoch} (htype : f.header.type = .paused)
    (hpayload : f.payload = .epoch e) : signals f = [.paused e.requestId e.streamEpoch] := by
  simp only [signals, htype, hpayload]

theorem signals_result {f : FramedOutbound.Frame} {r : QualityResult}
    (htype : f.header.type = .qualityResult) (hpayload : f.payload = .qualityResult r) :
    signals f = [.result r.requestId r.status] := by
  simp only [signals, htype, hpayload]

/-- A frame of the quality control plane has the payload of its type. -/
def formed (f : FramedOutbound.Frame) : Bool :=
  match f.header.type, f.payload with
  | .qualityCapabilities, .capabilities _ => true
  | .qualityResult, .qualityResult _ => true
  | .paused, .epoch _ => true
  | .qualityCapabilities, _ | .qualityResult, _ | .paused, _ => false
  | _, _ => true

/-- The loop reads a frame with these signals. -/
inductive Taken (s : Stream) (now : ℕ) : List Signal → Stream → List HostVideo.Note → Prop
  | passed {s' : Stream} {notes : List HostVideo.Note} : Passed s s' notes → Taken s now [] s' notes
  | heard {s' : Stream} {notes : List HostVideo.Note} {x : Signal} {e : HostQuality.Event} :
      Hears x e → Heard s s' now e notes →
      s'.advertised = (s.advertised || x matches .capabilities _) → Taken s now [x] s' notes

/-- A number that does not fit wraps, as `putInt` has it. -/
theorem toLE_le32 (n : ℕ) : toLE 4 n = HostWire.le32 (UInt32.ofNat n) := by
  have hlen : (toLE 4 n).length = 4 := length_toLE 4 n
  rw [← toLE_ofLE hlen, ofLE_toLE]
  rfl

theorem toLE_le16 (n : ℕ) : toLE 2 n = HostWire.le16 (UInt16.ofNat n) := by
  have hlen : (toLE 2 n).length = 2 := length_toLE 2 n
  rw [← toLE_ofLE hlen, ofLE_toLE]
  rfl

theorem decode_result (r : QualityResult) :
    HostWire.QualityResult.decode (WireCodec.encodeQualityResult r) = .ok
      { requestId := UInt32.ofNat r.requestId, status := WireCodec.resultByte r.status
        reason := UInt8.ofNat r.reason, appliedWidth := UInt16.ofNat r.appliedWidth
        appliedHeight := UInt16.ofNat r.appliedHeight,
          appliedFps := UInt16.ofNat r.appliedFps } := by
  let v : HostWire.QualityResult :=
    { requestId := UInt32.ofNat r.requestId, status := WireCodec.resultByte r.status
      reason := UInt8.ofNat r.reason, appliedWidth := UInt16.ofNat r.appliedWidth
      appliedHeight := UInt16.ofNat r.appliedHeight, appliedFps := UInt16.ofNat r.appliedFps }
  have hbytes : WireCodec.encodeQualityResult r = v.encode := by
    rw [WireCodec.encodeQualityResult, toLE_le32, toLE_le16, toLE_le16, toLE_le16]
    rfl
  rw [hbytes]
  exact HostWire.QualityResult.round_trips v _ rfl

theorem decode_epoch (e : Epoch) :
    HostWire.Epoch.decode (WireCodec.encodeEpoch e) = .ok
      { requestId := UInt32.ofNat e.requestId, streamEpoch := UInt32.ofNat e.streamEpoch } := by
  let v : HostWire.Epoch :=
    { requestId := UInt32.ofNat e.requestId, streamEpoch := UInt32.ofNat e.streamEpoch }
  have hbytes : WireCodec.encodeEpoch e = v.encode := by
    rw [WireCodec.encodeEpoch, toLE_le32, toLE_le32]
    rfl
  rw [hbytes]
  exact HostWire.Epoch.round_trips v _ rfl

/-- Whatever else a list says, the epoch is the phone's. -/
theorem decode_capabilities {c : Capabilities} {caps : HostWire.Capabilities}
    (h : HostWire.Capabilities.decode (WireCodec.capabilitiesBytes c) = .ok caps) :
    caps.streamEpoch = UInt32.ofNat c.streamEpoch := by
  unfold HostWire.Capabilities.decode at h
  split at h
  · cases h
  dsimp only at h
  split at h
  · cases h
  split at h
  · cases h
  split at h
  · cases h
  · obtain rfl := Except.ok.inj h
    have hslice : slice (WireCodec.capabilitiesBytes c) 4 8 = toLE 4 c.streamEpoch := by
      simp only [WireCodec.capabilitiesBytes, List.cons_append, List.nil_append, slice_cons_succ,
        slice_append_of_le, slice_append_self, length_toLE, Nat.le_refl, Nat.reduceSub]
    show HostWire.u32 (slice _ 4 8) = _
    rw [hslice, toLE_le32]
    exact HostWire.u32_le32 _

/-- A result of the phone is always one the PC acts on. -/
theorem hears_result (r : QualityResult) :
    ∃ e, Stream.resultEvent
      { requestId := UInt32.ofNat r.requestId, status := WireCodec.resultByte r.status
        reason := UInt8.ofNat r.reason, appliedWidth := UInt16.ofNat r.appliedWidth
        appliedHeight := UInt16.ofNat r.appliedHeight
        appliedFps := UInt16.ofNat r.appliedFps } = some e ∧
          Hears (.result r.requestId r.status) e := by
  cases hstatus : r.status with
  | switching => exact ⟨_, rfl, .switching _⟩
  | rejected => exact ⟨_, rfl, .rejected _ _⟩
  | applied => exact ⟨_, rfl, .applied _ _ _ _⟩
  | staged => exact ⟨_, rfl, .staged _⟩

theorem capabilities_taken {f : FramedOutbound.Frame} {c : Capabilities}
    (htype : f.header.type = .qualityCapabilities) (hpayload : f.payload = .capabilities c)
    (hrun : Running (s.incoming now (onLine f)).1) :
    Taken s now (signals f) (s.incoming now (onLine f)).1 (s.incoming now (onLine f)).2 := by
  have hkind : (onLine f).header.kind = HostWire.QUALITY_CAPABILITIES := by
    show (WireCodec.typeByte f.header.type).toUInt8 = _
    rw [htype]
    rfl
  have hbytes : (onLine f).payload = WireCodec.capabilitiesBytes c := by
    show WireCodec.payloadBytes f.payload = _
    rw [hpayload]
    rfl
  have hhead : (WireCodec.capabilitiesBytes c).head? = some (UInt8.ofNat c.extensionVersion) := rfl
  have hsignals : signals f =
      if UInt8.ofNat c.extensionVersion = 1 then [.capabilities c.streamEpoch] else [] := by
    simp only [signals, htype, hpayload]
  have hother : HostWire.QUALITY_CAPABILITIES ≠ HostWire.PAIRING_INFO := by decide
  rw [hsignals]
  unfold Stream.incoming at hrun ⊢
  rw [hkind, hbytes, hhead, if_neg hother, if_pos rfl] at hrun ⊢
  by_cases hversion : UInt8.ofNat c.extensionVersion = 1
  swap
  · rw [if_neg hversion, if_pos (by simpa using hversion)]
    exact .passed ⟨rfl, rfl, rfl⟩
  rw [if_pos hversion]
  rw [if_neg (by simp [hversion])] at hrun ⊢
  split
  · next error herror =>
    rw [herror] at hrun
    exact absurd hrun (not_running_finish _ _)
  · next caps hcaps =>
    have hepoch := decode_capabilities hcaps
    refine .heard (.capabilities c.streamEpoch) ⟨?_, ?_, ?_⟩ (by simp)
    · rw [← hepoch]
    · simp only [Switch.step]
      split <;> simp
    · simp only [Switch.step]
      split <;> rfl

theorem incoming_result {f : FramedOutbound.Frame} {r : QualityResult} {e : HostQuality.Event}
    (htype : f.header.type = .qualityResult) (hpayload : f.payload = .qualityResult r)
    (hevent : Stream.resultEvent
      { requestId := UInt32.ofNat r.requestId, status := WireCodec.resultByte r.status
        reason := UInt8.ofNat r.reason, appliedWidth := UInt16.ofNat r.appliedWidth
        appliedHeight := UInt16.ofNat r.appliedHeight
        appliedFps := UInt16.ofNat r.appliedFps } = some e) :
    s.incoming now (onLine f) = s.control now e := by
  have hkind : (onLine f).header.kind = HostWire.QUALITY_RESULT := by
    show (WireCodec.typeByte f.header.type).toUInt8 = _
    rw [htype]
    rfl
  have hbytes : (onLine f).payload = WireCodec.encodeQualityResult r := by
    show WireCodec.payloadBytes f.payload = _
    rw [hpayload]
    rfl
  unfold Stream.incoming
  rw [hkind, hbytes, decode_result, if_neg (by decide), if_neg (by decide), if_pos rfl]
  simp only [hevent]

theorem result_taken {f : FramedOutbound.Frame} {r : QualityResult}
    (htype : f.header.type = .qualityResult) (hpayload : f.payload = .qualityResult r)
    (hrun : Running (s.incoming now (onLine f)).1) :
    Taken s now (signals f) (s.incoming now (onLine f)).1 (s.incoming now (onLine f)).2 := by
  obtain ⟨e, hevent, hhears⟩ := hears_result r
  rw [incoming_result htype hpayload hevent] at hrun ⊢
  rw [signals_result htype hpayload]
  obtain ⟨hheard, hadvertised⟩ := control_heard e hrun
  exact .heard hhears hheard (by simp [hadvertised])

theorem incoming_paused {f : FramedOutbound.Frame} {e : Epoch} (htype : f.header.type = .paused)
    (hpayload : f.payload = .epoch e) :
    s.incoming now (onLine f) =
      s.control now (.paused (UInt32.ofNat e.requestId) (UInt32.ofNat e.streamEpoch)) := by
  have hkind : (onLine f).header.kind = HostWire.PAUSED := by
    show (WireCodec.typeByte f.header.type).toUInt8 = _
    rw [htype]
    rfl
  have hbytes : (onLine f).payload = WireCodec.encodeEpoch e := by
    show WireCodec.payloadBytes f.payload = _
    rw [hpayload]
    rfl
  unfold Stream.incoming
  rw [hkind, hbytes, decode_epoch, if_neg (by decide), if_neg (by decide), if_neg (by decide),
    if_pos rfl]

theorem paused_taken {f : FramedOutbound.Frame} {e : Epoch}
    (htype : f.header.type = .paused) (hpayload : f.payload = .epoch e)
    (hrun : Running (s.incoming now (onLine f)).1) :
    Taken s now (signals f) (s.incoming now (onLine f)).1 (s.incoming now (onLine f)).2 := by
  rw [incoming_paused htype hpayload] at hrun ⊢
  rw [signals_paused htype hpayload]
  obtain ⟨hheard, hadvertised⟩ := control_heard _ hrun
  exact .heard (.paused _ _) hheard (by simp [hadvertised])

/-- A `VIDEO_CONFIG` that does not end the loop is parsed. -/
theorem incoming_config {f : FramedOutbound.Frame} (htype : f.header.type = .videoConfig)
    (hrun : Running (s.incoming now (onLine f)).1) :
    ∃ next, HostWire.VideoConfig.parse (onLine f).payload = .ok next ∧
      s.incoming now (onLine f) = s.configure now next := by
  have hkind : (onLine f).header.kind = HostWire.VIDEO_CONFIG := by
    show (WireCodec.typeByte f.header.type).toUInt8 = _
    rw [htype]
    rfl
  unfold Stream.incoming at hrun ⊢
  rw [hkind, if_neg (by decide), if_neg (by decide), if_neg (by decide), if_neg (by decide),
    if_pos rfl] at hrun ⊢
  split
  · next error herror =>
    rw [herror] at hrun
    exact absurd hrun (not_running_finish _ _)
  · next next hnext => exact ⟨next, hnext, rfl⟩

theorem config_taken {f : FramedOutbound.Frame} (htype : f.header.type = .videoConfig)
    (hrun : Running (s.incoming now (onLine f)).1) :
    Taken s now (signals f) (s.incoming now (onLine f)).1 (s.incoming now (onLine f)).2 := by
  have hsignals : signals f = [.video] := by simp only [signals, htype]
  obtain ⟨next, -, hnext⟩ := incoming_config htype hrun
  rw [hnext] at hrun ⊢
  rw [hsignals]
  obtain ⟨hheard, hadvertised⟩ := configure_heard hrun
  exact .heard (.video _ _ _) hheard (by simp [hadvertised])

/-- A frame of no quality plane says nothing to the switch. -/
theorem other_taken {f : FramedOutbound.Frame} (hnone : signals f = [])
    (htype : f.header.type ≠ .qualityCapabilities ∧ f.header.type ≠ .qualityResult ∧
      f.header.type ≠ .paused ∧ f.header.type ≠ .videoConfig)
    (hrun : Running (s.incoming now (onLine f)).1) :
    Taken s now (signals f) (s.incoming now (onLine f)).1 (s.incoming now (onLine f)).2 := by
  rw [hnone]
  apply Taken.passed
  obtain ⟨hcaps, hresult, hpaused, hconfig⟩ := htype
  have hkind : (onLine f).header.kind = (WireCodec.typeByte f.header.type).toUInt8 := rfl
  unfold Stream.incoming at hrun ⊢
  rw [hkind] at hrun ⊢
  cases ht : f.header.type with
  | qualityCapabilities => exact absurd ht hcaps
  | qualityResult => exact absurd ht hresult
  | paused => exact absurd ht hpaused
  | videoConfig => exact absurd ht hconfig
  | pairingInfo =>
    rw [ht, if_pos (by decide)] at hrun
    rw [if_pos (by decide)]
    split
    · next error herror =>
      rw [herror] at hrun
      exact absurd hrun (not_running_finish _ _)
    · exact ⟨rfl, rfl, rfl⟩
  | videoAu =>
    rw [ht, if_neg (by decide), if_neg (by decide), if_neg (by decide), if_neg (by decide),
      if_neg (by decide), if_pos (by decide)] at hrun
    rw [if_neg (by decide), if_neg (by decide), if_neg (by decide), if_neg (by decide),
      if_neg (by decide), if_pos (by decide)]
    exact accessUnit_passed _ hrun
  | _ =>
    rw [if_neg (by decide), if_neg (by decide), if_neg (by decide), if_neg (by decide),
      if_neg (by decide), if_neg (by decide)]
    exact ⟨rfl, rfl, rfl⟩

theorem incoming_taken {f : FramedOutbound.Frame} (hformed : formed f = true)
    (hrun : Running (s.incoming now (onLine f)).1) :
    Taken s now (signals f) (s.incoming now (onLine f)).1 (s.incoming now (onLine f)).2 := by
  by_cases hcaps : f.header.type = .qualityCapabilities
  · cases hpayload : f.payload with
    | capabilities c => exact capabilities_taken hcaps hpayload hrun
    | _ => simp [formed, hcaps, hpayload] at hformed
  by_cases hresult : f.header.type = .qualityResult
  · cases hpayload : f.payload with
    | qualityResult r => exact result_taken hresult hpayload hrun
    | _ => simp [formed, hresult, hpayload] at hformed
  by_cases hpaused : f.header.type = .paused
  · cases hpayload : f.payload with
    | epoch e => exact paused_taken hpaused hpayload hrun
    | _ => simp [formed, hpaused, hpayload] at hformed
  by_cases hconfig : f.header.type = .videoConfig
  · exact config_taken hconfig hrun
  · refine other_taken ?_ ⟨hcaps, hresult, hpaused, hconfig⟩ hrun
    unfold signals
    split <;> simp_all

/-! ## Steps of its own -/

/-- A step of the loop that is not a frame of the phone. -/
inductive Own (s s' : Stream) (notes : List HostVideo.Note) : Prop
  | passed : Passed s s' notes → Own s s' notes
  | asked {now : ℕ} {width height fps : UInt16} {next : UInt32} :
      s.advertised = true → s.switch.active = false →
      checkedSucc s.switch.nextRequestId = some next →
      s'.switch =
        { s.switch with
          nextRequestId := next
          phase := .preparing
          requestId := s.switch.nextRequestId
          requested := some (width, height, fps)
          deadlineMs := some (now + HostQuality.APPLY_DEADLINE_MS) } →
      s'.advertised = s.advertised →
      commanded notes = [.prepare
        { requestId := s.switch.nextRequestId.toNat, catalogRevision := s.catalogRevision.toNat
          width := width.toNat, height := height.toNat, targetFps := fps.toNat }] → Own s s' notes
  | shown {now : ℕ} : s'.switch = (s.switch.step now .outputReady).1 →
      s'.advertised = s.advertised → commanded notes = [] → Own s s' notes

/-- A prepare is passed over, or taken. -/
theorem prepare_cases (sw : Switch) (now : ℕ) (revision width height fps : UInt16) :
    sw.step now (.prepare revision width height fps) = (sw, []) ∨
    ∃ next, sw.active = false ∧ checkedSucc sw.nextRequestId = some next ∧
      sw.step now (.prepare revision width height fps) =
        ({ sw with
            nextRequestId := next
            phase := .preparing
            requestId := sw.nextRequestId
            requested := some (width, height, fps)
            deadlineMs := some (now + HostQuality.APPLY_DEADLINE_MS) },
          [.sendPrepareQuality sw.nextRequestId revision width height fps]) := by
  by_cases hgate : (!sw.settled || width == 0 || height == 0 || fps == 0) = true
  · exact .inl (by simp only [Switch.step, Switch.prepare, if_pos hgate]; rfl)
  have hidle : sw.active = false := by
    simp only [Switch.settled_eq] at hgate
    by_contra hactive
    simp [hactive] at hgate
  cases hnext : checkedSucc sw.nextRequestId with
  | none => exact .inl (by simp only [Switch.step, Switch.prepare, if_neg hgate, hnext]; rfl)
  | some next =>
    refine .inr ⟨next, hidle, rfl, ?_⟩
    simp only [Switch.step, Switch.prepare, if_neg hgate, hnext]
    rfl

/-- An apply request is refused, passed over by the switch, or asked for. -/
theorem takeRequest_own (request : Option HostQuality.Tuple) :
    Own s (s.takeRequest now request).1 (s.takeRequest now request).2 := by
  unfold Stream.takeRequest
  split
  · exact .passed ⟨rfl, rfl, rfl⟩
  next width height fps =>
  split
  · exact .passed ⟨rfl, rfl, rfl⟩
  next hrejection =>
  have hadvertised : s.advertised = true := by
    by_contra hnot
    rw [Stream.rejection, if_pos (by simpa using hnot)] at hrejection
    cases hrejection
  rcases prepare_cases s.switch now s.catalogRevision width height fps with
    hstill | ⟨next, hidle, hnext, hstep⟩
  · simp only [hstill]
    exact .passed ⟨rfl, rfl, rfl⟩
  · simp only [hstep]
    refine .asked hadvertised hidle hnext rfl rfl ?_
    rw [List.flatMap_cons, List.flatMap_nil, List.append_nil]
    exact commanded_prepare _ _ _ _ _

/-- A deadline that does not end the loop changes nothing. -/
theorem expire_own (hrun : Running (s.expire now).1) :
    Own s (s.expire now).1 (s.expire now).2 := by
  have hcases : s.switch.step now .deadlineExceeded = (s.switch, []) ∨
      ∃ reason, s.switch.step now .deadlineExceeded = s.switch.fail reason := by
    simp only [Switch.step]
    split
    · exact .inr ⟨_, rfl⟩
    · exact .inl rfl
  unfold Stream.expire at hrun ⊢
  split
  · next hbusy =>
    rw [if_pos hbusy] at hrun
    rcases hcases with hstill | ⟨reason, hfail⟩
    · simp only [hstill]
      exact .passed ⟨rfl, rfl, rfl⟩
    · simp only [hfail] at hrun
      exact absurd hrun (not_running_finish _ _)
  · exact .passed ⟨rfl, rfl, rfl⟩

/-- A picture that comes out reports, and sends nothing. -/
theorem draw_own {c : HostWire.VideoConfig} {picture : HostVideo.Picture} {active due : Bool}
    {decoder : String} (hrun : Running (s.draw c now picture active due decoder).1) :
    Own s (s.draw c now picture active due decoder).1
      (s.draw c now picture active due decoder).2 := by
  unfold Stream.draw at hrun ⊢
  split
  · next hsize =>
    rw [if_pos hsize] at hrun
    exact absurd hrun (not_running_finish _ _)
  next hsize =>
  rw [if_neg hsize] at hrun
  split
  · next heven =>
    rw [if_pos heven] at hrun
    exact absurd hrun (not_running_finish _ _)
  next heven =>
  rw [if_neg heven] at hrun
  cases active with
  | false =>
    refine .passed ⟨rfl, rfl, ?_⟩
    exact commanded_event due _
  | true =>
    simp only [Stream.submit, if_true] at hrun ⊢
    split
    · next hfailed =>
      rw [if_pos hfailed] at hrun
      exact absurd hrun (not_running_finish _ _)
    · refine .shown rfl rfl ?_
      rw [commanded_append, commanded_event, List.append_nil]
      exact commanded_reported _

theorem own_step {i : HostVideo.Input} {s' : Stream} (hs : s.step i = some (s', notes))
    (hframe : ∀ now f, i ≠ .frame now f) (hrun : Running s') : Own s s' notes := by
  cases Stream.moved_of_step hs with
  | frame now f => exact absurd rfl (hframe now f)
  | opened =>
    refine .passed ⟨rfl, rfl, ?_⟩
    rw [commanded_append, commanded_idr]
    rfl
  | check | quiet | drained => exact .passed ⟨rfl, rfl, rfl⟩
  | request now request => exact takeRequest_own request
  | deadline now => exact expire_own hrun
  | picture now picture active due decoder => exact draw_own hrun
  -- the loop has ended
  | stopped now => exact absurd rfl (hrun _)
  | abort error => exact absurd rfl (hrun _)

end QualityAgreement
end MobileWebcamBridge
