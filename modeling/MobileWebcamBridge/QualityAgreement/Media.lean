import MobileWebcamBridge.QualityAgreement.Lines

/-!
# The config and the decoder of the PC's loop

What each step of a loop that does not return does to the config and to the units the decoder was
given, and that the loop carries out nothing but what its switch asked for.
-/

set_option autoImplicit false

namespace MobileWebcamBridge
namespace QualityAgreement

open Wire
open HostVideo (Stream Picture)
open HostQuality (Switch Action)

variable {s s' : Stream} {ns : List HostVideo.Note} {actions : List Action} {now : ℕ}

/-! ## What is carried out -/

/-- The action of a note. -/
def toldOf : HostVideo.Note → Option Action
  | .acted action => some action
  | _ => none

/-- What the switch asked for, among the loop's notes. -/
def told (ns : List HostVideo.Note) : List Action := ns.filterMap toldOf

theorem told_append (ns ms : List HostVideo.Note) : told (ns ++ ms) = told ns ++ told ms :=
  List.filterMap_append

theorem told_acted (actions : List Action) : told (actions.map .acted) = actions := by
  rw [told, List.filterMap_map]
  exact List.filterMap_some

theorem told_none (h : ∀ note ∈ ns, toldOf note = none) : told ns = [] :=
  List.filterMap_eq_nil_iff.mpr h

theorem told_framed (kind : UInt8) (sequence : UInt32) (payload : List UInt8) :
    told (Stream.framed kind sequence payload) = [] := by
  unfold Stream.framed
  split <;> rfl

theorem told_frames (action : Action) : told (Stream.frames action) = [] := by
  cases action with
  | sendPrepareQuality | sendCommitQuality =>
    simp only [Stream.frames]
    exact told_framed _ _ _
  | _ => rfl

theorem told_reportQuality (terminal : Bool) :
    told (Stream.reportQuality terminal actions).1 = [] := by
  induction actions with
  | nil => rfl
  | cons action rest ih =>
    cases action with
    | stopCapture | closeConnection => rfl
    | _ => exact ih

theorem told_report : told (Stream.report actions).1 = [] := told_reportQuality _

theorem told_reportExpiry : told (Stream.reportExpiry actions).1 = [] := by
  induction actions with
  | nil => rfl
  | cons action rest ih =>
    cases action with
    | stopCapture | closeConnection => rfl
    | _ => exact ih

theorem told_carryOut (actions : List Action) : ∀ s : Stream, told (s.carryOut actions).2 = [] := by
  induction actions with
  | nil =>
    intro s
    rfl
  | cons action rest ih =>
    intro s
    by_cases hrelease : action = .releaseOutputs
    · subst hrelease
      show told ([HostVideo.Note.released, .event .waiting] ++ (s.release.carryOut rest).2) = []
      rw [told_append, ih]
      rfl
    · simp only [Stream.carryOut, hrelease, if_false]
      rw [told_append, ih, List.append_nil]
      cases action with
      | sendCommitQuality id epoch => exact told_frames (.sendCommitQuality id epoch)
      | _ => rfl

theorem told_finish (result : Except String Unit) : told (s.finish result).2 = [] := rfl

theorem told_control (e : HostQuality.Event) :
    told (s.control now e).2 = (s.switch.step now e).2 := by
  unfold Stream.control
  dsimp only
  split
  · rw [told_append, told_append, told_acted, told_report, told_finish]
    simp
  · rw [told_append, told_append, told_append, told_acted, told_report, told_carryOut]
    split <;> simp [told, toldOf]

/-- Only a picture that comes out while the switch awaits one reports an applied mode. -/
theorem step_applied {sw : Switch} {e : HostQuality.Event} {width height fps : UInt16}
    (h : .reportApplied width height fps ∈ (sw.step now e).2) :
    e = .outputReady ∧ sw.phase = .awaitingOutput ∧ sw.requested = some (width, height, fps) := by
  have hmoves := Switch.step_moves sw now e
  generalize sw.step now e = r at hmoves h
  obtain ⟨sw', actions⟩ := r
  dsimp only at hmoves h
  cases hmoves with
  | ready hphase hrequested =>
    rw [List.mem_singleton] at h
    obtain ⟨rfl, rfl, rfl⟩ := Action.reportApplied.inj h
    exact ⟨rfl, hphase, hrequested⟩
  | _ => simp at h

/-- The notes tell what the switch asked for at one event, or nothing. -/
inductive Tells (s : Stream) (ns : List HostVideo.Note) (P : HostQuality.Event → Prop) : Prop
  | none : told ns = [] → Tells s ns P
  | event (now : ℕ) (e : HostQuality.Event) : told ns = (s.switch.step now e).2 → P e → Tells s ns P

/-- Any event but a picture that came out. -/
def Other (e : HostQuality.Event) : Prop := e ≠ .outputReady

theorem tells_control (e : HostQuality.Event) (h : Other e) : Tells s (s.control now e).2 Other :=
  .event now e (told_control e) h

theorem tells_finish (result : Except String Unit) : Tells s (s.finish result).2 Other := .none rfl

theorem tells_configure (next : HostWire.VideoConfig) :
    Tells s (s.configure now next).2 Other := by
  unfold Stream.configure
  dsimp only
  split
  · refine .event now (.videoConfig next.width.toUInt16 next.height.toUInt16 next.fps.toUInt16) ?_
      (by simp [Other])
    split
    · rw [told_append, told_append, told_acted, told_report, told_finish]
      simp
    · rw [told_append, told_append, told_append, told_acted, told_report]
      split <;> simp [told, toldOf]
  · split
    · exact .none rfl
    · exact .none rfl

theorem tells_accessUnit (au : HostVideo.AccessUnit) : Tells s (s.accessUnit au).2 Other := by
  unfold Stream.accessUnit
  split
  · exact .none rfl
  split
  · exact .none rfl
  split
  · exact .none rfl
  split
  · exact .none rfl
  · exact .none rfl

theorem other_result {r : HostWire.QualityResult} {e : HostQuality.Event}
    (h : Stream.resultEvent r = some e) : Other e := by
  unfold Stream.resultEvent at h
  intro heq
  rw [heq] at h
  split at h
  · cases h
  split at h
  · cases h
  split at h
  · cases h
  · cases h

theorem tells_incoming (f : HostWire.Frame) : Tells s (s.incoming now f).2 Other := by
  unfold Stream.incoming
  split
  · split <;> exact .none rfl
  split
  · split
    · exact .none rfl
    split <;> exact .none rfl
  split
  · split
    · exact .none rfl
    split
    · exact .none rfl
    · next hevent => exact tells_control _ (other_result hevent)
  split
  · split
    · exact .none rfl
    · exact tells_control _ (by simp [Other])
  split
  · split
    · exact .none rfl
    · exact tells_configure _
  split
  · exact tells_accessUnit _
  · exact .none rfl

theorem tells_takeRequest (request : Option HostQuality.Tuple) :
    Tells s (s.takeRequest now request).2 Other := by
  unfold Stream.takeRequest
  split
  · exact .none rfl
  next width height fps =>
  split
  · exact .none rfl
  refine .event now (.prepare s.catalogRevision width height fps) ?_ (by simp [Other])
  have hframes (actions : List Action) : told (actions.flatMap Stream.frames) = [] := by
    apply told_none
    intro note hnote
    obtain ⟨action, -, hmem⟩ := List.mem_flatMap.mp hnote
    exact List.filterMap_eq_nil_iff.mp (told_frames action) note hmem
  rw [told_append, hframes, List.append_nil]
  exact told_acted _

theorem tells_expire : Tells s (s.expire now).2 Other := by
  unfold Stream.expire
  split
  · refine .event now .deadlineExceeded ?_ (by simp [Other])
    dsimp only
    split
    · rw [told_append, told_append, told_acted, told_reportExpiry, told_finish]
      simp
    · rw [told_append, told_acted, told_reportExpiry, List.append_nil]
  · exact .none rfl

theorem tells_leave : Tells s (s.leave now).2 Other := by
  refine .event now .userStop ?_ (by simp [Other])
  unfold Stream.leave
  rw [told_append, told_append, told_acted, told_finish, List.append_nil]
  refine (congrArg _ (told_none ?_)).trans (List.append_nil _)
  intro note hnote
  obtain ⟨action, -, haction⟩ := List.mem_filterMap.mp hnote
  cases action with
  | reportFailed =>
    obtain rfl := Option.some.inj haction
    rfl
  | _ => cases haction

theorem Tells.not_applied (h : Tells s ns Other) {width height fps : UInt16} :
    .acted (.reportApplied width height fps) ∉ ns := by
  intro hmem
  have htold : .reportApplied width height fps ∈ told ns := List.mem_filterMap.mpr ⟨_, hmem, rfl⟩
  cases h with
  | none hnone =>
    rw [hnone] at htold
    cases htold
  | event now e hevent hother =>
    rw [hevent] at htold
    exact hother (step_applied htold).1

/-- A picture reports what the switch says to it. -/
theorem draw_applied {c : HostWire.VideoConfig} {picture : Picture} {active due : Bool}
    {decoder : String} {width height fps : UInt16}
    (h : .acted (.reportApplied width height fps) ∈ (s.draw c now picture active due decoder).2) :
    s.switch.phase = .awaitingOutput ∧ s.switch.requested = some (width, height, fps) := by
  have htold : .reportApplied width height fps ∈ told (s.draw c now picture active due decoder).2 :=
    List.mem_filterMap.mpr ⟨_, h, rfl⟩
  have hready : .reportApplied width height fps ∈ (s.switch.step now .outputReady).2 := by
    unfold Stream.draw at htold
    split at htold
    · cases htold
    split at htold
    · cases htold
    dsimp only at htold
    cases active with
    | false =>
      simp only [Bool.false_eq_true, if_false, List.nil_append] at htold
      split at htold <;> cases htold
    | true =>
      have hsubmitted (s : Stream) : told (s.submit c now picture).2.1 =
          (s.switch.step now .outputReady).2 := by
        have hnotes :
            (s.submit c now picture).2.1 =
              [HostVideo.Note.submitted picture c.width c.height, .ready] ++
            ((s.switch.step now .outputReady).2.map .acted ++
              (Stream.report (s.switch.step now .outputReady).2).1) := rfl
        rw [hnotes, told_append, told_append, told_acted, told_report, List.append_nil]
        rfl
      simp only [if_true] at htold
      split at htold
      · rw [told_append, told_finish, List.append_nil, hsubmitted] at htold
        exact htold
      · rw [told_append, hsubmitted] at htold
        split at htold <;> simpa [told, toldOf] using htold
  exact (step_applied hready).2

/-- A mode is reported applied when a picture comes out, decoded from what the decoder was given. -/
theorem applied_picture {i : HostVideo.Input} {width height fps : UInt16}
    (hs : s.step i = some (s', ns)) (h : .acted (.reportApplied width height fps) ∈ ns) :
    s.switch.phase = .awaitingOutput ∧ s.switch.requested = some (width, height, fps) ∧
      ∃ now picture active due decoder, i = .picture now picture active due decoder ∧
        ∀ au ∈ picture.source, au ∈ s.decoder.getD [] := by
  -- no other input tells of an applied mode
  have hother (htells : Tells s ns Other) : False := htells.not_applied h
  cases Stream.moved_of_step hs with
  | opened => exact (hother (.none (by rw [told_append, told_framed]; rfl))).elim
  | check | quiet | drained => cases h
  | request now request => exact (hother (tells_takeRequest request)).elim
  | deadline now => exact (hother tells_expire).elim
  | frame now f => exact (hother (tells_incoming f)).elim
  | picture now picture active due decoder hpoint hsource =>
    obtain ⟨hphase, hrequested⟩ := draw_applied h
    exact ⟨hphase, hrequested, now, picture, active, due, decoder, rfl, hsource⟩
  | stopped now => exact (hother tells_leave).elim
  | abort error => exact (hother (tells_finish (.error error))).elim

/-! ## The config and the decoder -/

/-- The unit of a `VIDEO_AU`. -/
def unitOf (f : FramedOutbound.Frame) : HostVideo.AccessUnit :=
  ⟨(onLine f).header.flags, (onLine f).header.ptsUs, (onLine f).payload⟩

/-- Nothing of a capture is left. -/
def Cleared (s : Stream) : Prop := s.config = none ∧ s.decoder = none

/-- The step leaves the config and the decoder alone. -/
def SameMedia (s s' : Stream) : Prop := s'.config = s.config ∧ s'.decoder = s.decoder

theorem SameMedia.cleared (h : SameMedia s s') (hs : Cleared s) : Cleared s' :=
  ⟨h.1.trans hs.1, h.2.trans hs.2⟩

theorem carryOut_same (actions : List Action) (h : .releaseOutputs ∉ actions) :
    ∀ s : Stream, SameMedia s (s.carryOut actions).1 := by
  induction actions with
  | nil =>
    intro s
    exact ⟨rfl, rfl⟩
  | cons action rest ih =>
    intro s
    obtain ⟨hne, hrest⟩ := not_or.mp (fun hor => h (List.mem_cons.mpr hor))
    simp only [Stream.carryOut, Ne.symm hne, if_false]
    exact ih hrest s

theorem carryOut_cleared (actions : List Action) : ∀ s : Stream,
    (Cleared s ∨ .releaseOutputs ∈ actions) → Cleared (s.carryOut actions).1 := by
  induction actions with
  | nil =>
    intro s h
    exact h.resolve_right List.not_mem_nil
  | cons action rest ih =>
    intro s h
    by_cases hrelease : action = .releaseOutputs
    · subst hrelease
      exact ih s.release (.inl ⟨rfl, rfl⟩)
    · simp only [Stream.carryOut, hrelease, if_false]
      apply ih s
      rcases h with h | h
      · exact .inl h
      · exact .inr ((List.mem_cons.mp h).resolve_left (Ne.symm hrelease))

/-- Only a release of the outputs clears. -/
theorem control_media {e : HostQuality.Event} (hrun : Running (s.control now e).1) :
    (.releaseOutputs ∉ (s.switch.step now e).2 → SameMedia s (s.control now e).1) ∧
      (.releaseOutputs ∈ (s.switch.step now e).2 → Cleared (s.control now e).1) := by
  unfold Stream.control at hrun ⊢
  dsimp only at hrun ⊢
  split
  · next hfailed =>
    rw [if_pos hfailed] at hrun
    exact absurd hrun (not_running_finish _ _)
  · exact ⟨fun h => carryOut_same _ h { s with switch := (s.switch.step now e).1 },
      fun h => carryOut_cleared _ { s with switch := (s.switch.step now e).1 } (.inr h)⟩

/-- A frame of the phone, by what the loop does with it. -/
inductive Reads (s : Stream) (now : ℕ) (f : FramedOutbound.Frame) : Prop
  | config {next : HostWire.VideoConfig} : f.header.type = .videoConfig →
      HostWire.VideoConfig.parse (onLine f).payload = .ok next →
      s.incoming now (onLine f) = s.configure now next → Reads s now f
  | unit : f.header.type = .videoAu →
      s.incoming now (onLine f) = s.accessUnit (unitOf f) → Reads s now f
  | result {r : QualityResult} {e : HostQuality.Event} : f.header.type = .qualityResult →
      f.payload = .qualityResult r → Hears (.result r.requestId r.status) e →
      s.incoming now (onLine f) = s.control now e → Reads s now f
  | paused {epoch : Epoch} : f.header.type = .paused → f.payload = .epoch epoch →
      s.incoming now (onLine f) =
        s.control now (.paused (UInt32.ofNat epoch.requestId) (UInt32.ofNat epoch.streamEpoch)) →
      Reads s now f
  | other : (s.incoming now (onLine f)).1.switch.phase = s.switch.phase →
      (s.incoming now (onLine f)).1.switch.requestId = s.switch.requestId →
      (s.incoming now (onLine f)).1.switch.requested = s.switch.requested →
      SameMedia s (s.incoming now (onLine f)).1 → Reads s now f

theorem incoming_reads {f : FramedOutbound.Frame} (hformed : formed f = true)
    (hrun : Running (s.incoming now (onLine f)).1) : Reads s now f := by
  by_cases hconfig : f.header.type = .videoConfig
  · obtain ⟨next, hnext, hincoming⟩ := incoming_config hconfig hrun
    exact .config hconfig hnext hincoming
  by_cases hresult : f.header.type = .qualityResult
  · cases hpayload : f.payload with
    | qualityResult r =>
      obtain ⟨e, hevent, hhears⟩ := hears_result r
      exact .result hresult hpayload hhears (incoming_result hresult hpayload hevent)
    | _ => simp [formed, hresult, hpayload] at hformed
  by_cases hpaused : f.header.type = .paused
  · cases hpayload : f.payload with
    | epoch e => exact .paused hpaused hpayload (incoming_paused hpaused hpayload)
    | _ => simp [formed, hpaused, hpayload] at hformed
  -- the other kinds touch neither the switch nor the media
  have hkind : (onLine f).header.kind = (WireCodec.typeByte f.header.type).toUInt8 := rfl
  by_cases hunit : f.header.type = .videoAu
  · refine .unit hunit ?_
    unfold Stream.incoming
    rw [hkind, hunit, if_neg (by decide), if_neg (by decide), if_neg (by decide),
      if_neg (by decide), if_neg (by decide), if_pos (by decide)]
    rfl
  by_cases hcaps : f.header.type = .qualityCapabilities
  -- an advertisement moves the epoch alone
  · have hswitch (epoch : UInt32) : (s.switch.step now (.epochObserved epoch)).1.phase =
        s.switch.phase ∧ (s.switch.step now (.epochObserved epoch)).1.requestId =
        s.switch.requestId ∧ (s.switch.step now (.epochObserved epoch)).1.requested =
        s.switch.requested := by
      simp only [Switch.step]
      split <;> exact ⟨rfl, rfl, rfl⟩
    have hkept : (s.incoming now (onLine f)).1.switch.phase = s.switch.phase ∧
        (s.incoming now (onLine f)).1.switch.requestId = s.switch.requestId ∧
        (s.incoming now (onLine f)).1.switch.requested = s.switch.requested ∧
        SameMedia s (s.incoming now (onLine f)).1 := by
      unfold Stream.incoming at hrun ⊢
      rw [hkind, hcaps, if_neg (by decide), if_pos (by decide)] at hrun ⊢
      split
      · exact ⟨rfl, rfl, rfl, rfl, rfl⟩
      next hhead =>
      rw [if_neg hhead] at hrun
      split
      · next error herror =>
        rw [herror] at hrun
        exact absurd hrun (not_running_finish _ _)
      · exact ⟨(hswitch _).1, (hswitch _).2.1, (hswitch _).2.2, rfl, rfl⟩
    exact .other hkept.1 hkept.2.1 hkept.2.2.1 hkept.2.2.2
  have hkept : (s.incoming now (onLine f)).1.switch = s.switch ∧
      SameMedia s (s.incoming now (onLine f)).1 := by
    unfold Stream.incoming at hrun ⊢
    rw [hkind] at hrun ⊢
    cases ht : f.header.type with
    | qualityCapabilities => exact absurd ht hcaps
    | qualityResult => exact absurd ht hresult
    | paused => exact absurd ht hpaused
    | videoConfig => exact absurd ht hconfig
    | videoAu => exact absurd ht hunit
    | pairingInfo =>
      rw [ht, if_pos (by decide)] at hrun
      rw [if_pos (by decide)]
      split
      · next error herror =>
        rw [herror] at hrun
        exact absurd hrun (not_running_finish _ _)
      · exact ⟨rfl, rfl, rfl⟩
    | _ =>
      rw [if_neg (by decide), if_neg (by decide), if_neg (by decide), if_neg (by decide),
        if_neg (by decide), if_neg (by decide)]
      exact ⟨rfl, rfl, rfl⟩
  exact .other (by rw [hkept.1]) (by rw [hkept.1]) (by rw [hkept.1]) hkept.2

end QualityAgreement
end MobileWebcamBridge
