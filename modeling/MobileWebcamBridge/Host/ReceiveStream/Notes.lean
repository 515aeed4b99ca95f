import MobileWebcamBridge.Host.ReceiveStream.Output

/-!
# What the notes of `receive_stream` tell

Every unit with a payload is noted given or skipped, in the order received, unless the loop ends on
it. What the switch is fed in a step is one event at most, its actions are the ones noted, and the
event is `OutputReady` exactly where `ready` is noted.
-/

set_option autoImplicit false

namespace MobileWebcamBridge
namespace HostVideo

open HostWire
open HostQuality (Tuple Switch Action)

/-- The unit that a frame from the phone carries, if it has a payload. -/
def Input.unit? : Input → Option AccessUnit
  | .frame _ f =>
    if f.header.kind = VIDEO_AU ∧ f.payload ≠ [] then
      some ⟨f.header.flags, f.header.ptsUs, f.payload⟩
    else none
  | _ => none

namespace Note

/-- The unit whose fate is noted. -/
def unit? : Note → Option AccessUnit
  | .given au => some au
  | .skipped au => some au
  | _ => none

/-- The action of a note. -/
def acted? : Note → Option Action
  | .acted action => some action
  | _ => none

/-- Tells neither of a unit nor of the switch. -/
def quiet : Note → Bool
  | .acted _ => false
  | .given _ => false
  | .skipped _ => false
  | .ready => false
  | _ => true

end Note

/-- What a step tells of the unit it received and of the switch. -/
structure Tells (s : Stream) (received : Option AccessUnit) (s' : Stream) (es : List Note) :
    Prop where
  unit : es.filterMap Note.unit? = received.toList ∨
    es.filterMap Note.unit? = [] ∧ ∃ error, s'.point = .returned (.error error)
  switch : (s'.switch = s.switch ∧ es.filterMap Note.acted? = [] ∧ .ready ∉ es) ∨
    ∃ now e, s.switch.step now e = (s'.switch, es.filterMap Note.acted?) ∧
      (.ready ∈ es ↔ e = .outputReady)

variable {s s' : Stream} {es fs : List Note}

/-! ## Quiet notes -/

/-- Quiet notes give and skip no unit. -/
theorem unit?_quiet (h : ∀ note ∈ es, note.quiet = true) : es.filterMap Note.unit? = [] := by
  apply List.filterMap_eq_nil_iff.mpr
  intro note hn
  have hquiet := h note hn
  cases note <;> first | rfl | cases hquiet

/-- Quiet notes act on nothing. -/
theorem acted?_quiet (h : ∀ note ∈ es, note.quiet = true) : es.filterMap Note.acted? = [] := by
  apply List.filterMap_eq_nil_iff.mpr
  intro note hn
  have hquiet := h note hn
  cases note <;> first | rfl | cases hquiet

/-- Quiet notes show no picture. -/
theorem ready_quiet (h : ∀ note ∈ es, note.quiet = true) : .ready ∉ es := by
  intro hn
  cases h _ hn

theorem quiet_nil : ∀ note ∈ ([] : List Note), note.quiet = true := by
  intro note hn
  cases hn

theorem quiet_append (he : ∀ note ∈ es, note.quiet = true) (hf : ∀ note ∈ fs, note.quiet = true) :
    ∀ note ∈ es ++ fs, note.quiet = true := by
  intro note hn
  rcases List.mem_append.mp hn with hn | hn
  · exact he note hn
  · exact hf note hn

theorem quiet_one {note : Note} (h : note.quiet = true) : ∀ n ∈ [note], n.quiet = true := by
  intro n hn
  rw [List.mem_singleton.mp hn]
  exact h

theorem unit?_acted (actions : List Action) :
    (actions.map Note.acted).filterMap Note.unit? = [] := by
  rw [List.filterMap_map]
  exact List.filterMap_eq_nil_iff.mpr fun _ _ => rfl

theorem acted?_acted (actions : List Action) :
    (actions.map Note.acted).filterMap Note.acted? = actions := by
  rw [List.filterMap_map]
  exact List.filterMap_some

theorem quiet_framed (kind : UInt8) (sequence : UInt32) (payload : List UInt8) :
    ∀ note ∈ Stream.framed kind sequence payload, note.quiet = true := by
  unfold Stream.framed
  split
  · exact quiet_one rfl
  · simp

/-- What an action sends is quiet. -/
theorem quiet_frames (action : Action) : ∀ note ∈ Stream.frames action, note.quiet = true := by
  unfold Stream.frames
  split
  · exact quiet_framed _ _ _
  · exact quiet_framed _ _ _
  · simp

/-- What the window is told is quiet. -/
theorem quiet_reportQuality (terminal : Bool) (actions : List Action) :
    ∀ note ∈ (Stream.reportQuality terminal actions).1, note.quiet = true := by
  induction actions with
  | nil => exact quiet_nil
  | cons action rest ih =>
    cases action with
    | reportApplied width height fps => exact quiet_append (quiet_one rfl) ih
    | reportFailed reason => exact quiet_append (quiet_one rfl) ih
    | stopCapture => exact quiet_nil
    | closeConnection => exact quiet_nil
    | _ => exact ih

theorem quiet_reportExpiry (actions : List Action) :
    ∀ note ∈ (Stream.reportExpiry actions).1, note.quiet = true := by
  induction actions with
  | nil => exact quiet_nil
  | cons action rest ih =>
    cases action with
    | reportFailed reason => exact quiet_append (quiet_one rfl) ih
    | stopCapture => exact quiet_nil
    | closeConnection => exact quiet_nil
    | _ => exact ih

/-- Carrying out the switch's actions tells nothing more of it. -/
theorem carryOut_quiet (actions : List Action) : ∀ s : Stream,
    (s.carryOut actions).1.switch = s.switch ∧
      ∀ note ∈ (s.carryOut actions).2, note.quiet = true := by
  induction actions with
  | nil =>
    intro s
    simp [Stream.carryOut]
  | cons action rest ih =>
    intro s
    unfold Stream.carryOut
    dsimp only
    split
    · exact ⟨(ih s.release).1,
        quiet_append (quiet_append (quiet_one rfl) (quiet_one rfl)) (ih s.release).2⟩
    · refine ⟨(ih s).1, quiet_append ?_ (ih s).2⟩
      show ∀ note ∈ Stream.commitFrames action, note.quiet = true
      unfold Stream.commitFrames
      split
      · exact quiet_frames _
      · simp

/-! ## The steps -/

/-- Quiet notes tell all, where the switch stays. -/
theorem Tells.of_quiet (hes : ∀ note ∈ es, note.quiet = true) (hswitch : s'.switch = s.switch) :
    Tells s none s' es where
  unit := .inl (unit?_quiet hes)
  switch := .inl ⟨hswitch, acted?_quiet hes, ready_quiet hes⟩

/-- The switch is fed an event that is not `OutputReady`. -/
theorem Tells.of_fed (now : ℕ) {e : HostQuality.Event} (es : List Note) (he : e ≠ .outputReady)
    (hes : ∀ note ∈ es, note.quiet = true) (hfs : ∀ note ∈ fs, note.quiet = true)
    (hswitch : s'.switch = (s.switch.step now e).1) :
    Tells s none s' (es ++ ((s.switch.step now e).2.map .acted ++ fs)) := by
  refine ⟨.inl ?_, .inr ⟨now, e, ?_, ?_⟩⟩
  · rw [List.filterMap_append, List.filterMap_append, unit?_quiet hes, unit?_quiet hfs,
      unit?_acted]
    rfl
  · rw [List.filterMap_append, List.filterMap_append, acted?_quiet hes, acted?_quiet hfs,
      acted?_acted, List.nil_append, List.append_nil, hswitch]
  · simp [ready_quiet hes, ready_quiet hfs, he]

/-- A request of the window. -/
theorem tells_takeRequest (s : Stream) (now : ℕ) (request : Option Tuple) :
    Tells s none (s.takeRequest now request).1 (s.takeRequest now request).2 := by
  cases request with
  | none => exact .of_quiet (by simp [Stream.takeRequest]) rfl
  | some request =>
    obtain ⟨width, height, fps⟩ := request
    unfold Stream.takeRequest
    dsimp only
    split
    · exact .of_quiet (quiet_append (quiet_one rfl) (quiet_one rfl)) rfl
    · have hframes : ∀ actions : List Action,
          ∀ note ∈ actions.flatMap Stream.frames, note.quiet = true := by
        intro actions note hn
        obtain ⟨action, -, hn⟩ := List.mem_flatMap.mp hn
        exact quiet_frames action note hn
      exact .of_fed now [.taken (width, height, fps)] (by simp) (quiet_one rfl)
        (hframes _) rfl

/-- A deadline that has passed. -/
theorem tells_expire (s : Stream) (now : ℕ) :
    Tells s none (s.expire now).1 (s.expire now).2 := by
  have hevents := quiet_reportExpiry (s.switch.step now .deadlineExceeded).2
  unfold Stream.expire
  dsimp only
  split
  · split
    · rw [List.append_assoc]
      exact .of_fed now [] (by simp) (by simp) (quiet_append hevents (quiet_one rfl)) rfl
    · exact .of_fed now [] (by simp) (by simp) hevents rfl
  · exact .of_quiet (by simp) rfl

/-- An event of a control frame. -/
theorem tells_control (s : Stream) (now : ℕ) {e : HostQuality.Event} (he : e ≠ .outputReady) :
    Tells s none (s.control now e).1 (s.control now e).2 := by
  have hevents : ∀ note ∈ (Stream.report (s.switch.step now e).2).1, note.quiet = true :=
    quiet_reportQuality _ _
  unfold Stream.control
  dsimp only
  split
  · rw [List.append_assoc]
    exact .of_fed now [] he (by simp) (quiet_append hevents (quiet_one rfl)) rfl
  · have hcarried := carryOut_quiet (s.switch.step now e).2
      { s with switch := (s.switch.step now e).1 }
    rw [List.append_assoc, List.append_assoc]
    refine .of_fed now [] he (by simp)
      (quiet_append hevents (quiet_append hcarried.2 ?_)) hcarried.1
    split
    · exact quiet_one rfl
    · simp

/-- A config. -/
theorem tells_configure (s : Stream) (now : ℕ) (next : VideoConfig) :
    Tells s none (s.configure now next).1 (s.configure now next).2 := by
  have hevents : ∀ actions, ∀ note ∈ (Stream.report actions).1, note.quiet = true :=
    fun _ => quiet_reportQuality _ _
  unfold Stream.configure
  dsimp only
  split
  · split
    · rw [List.append_assoc]
      exact .of_fed now [] (by simp) (by simp) (quiet_append (hevents _) (quiet_one rfl))
        rfl
    · rw [List.append_assoc, List.append_assoc]
      refine .of_fed now [] (by simp) (by simp)
        (quiet_append (hevents _) (quiet_append ?_ (quiet_one rfl))) rfl
      split
      · exact quiet_one rfl
      · simp
  split
  · exact .of_quiet (quiet_one rfl) rfl
  · exact .of_quiet (quiet_one rfl) rfl

/-- A unit with a payload is skipped or given, or the loop ends on it. -/
theorem tells_accessUnit (s : Stream) (au : AccessUnit) :
    Tells s (if au.payload = [] then none else some au) (s.accessUnit au).1
      (s.accessUnit au).2 := by
  unfold Stream.accessUnit
  by_cases hpayload : au.payload = []
  · rw [if_pos hpayload, if_pos hpayload]
    exact .of_quiet (by simp) rfl
  rw [if_neg hpayload, if_neg hpayload]
  split
  · exact ⟨.inl rfl, .inl ⟨rfl, rfl, by simp⟩⟩
  split
  · exact ⟨.inl rfl, .inl ⟨rfl, rfl, by simp⟩⟩
  split
  · exact ⟨.inr ⟨rfl, _, rfl⟩, .inl ⟨rfl, rfl, by simp [Stream.finish]⟩⟩
  · exact ⟨.inl rfl, .inl ⟨rfl, rfl, by simp⟩⟩

/-- No verdict of the phone is `OutputReady`. -/
theorem resultEvent_ne {r : QualityResult} {e : HostQuality.Event}
    (h : Stream.resultEvent r = some e) : e ≠ .outputReady := by
  rintro rfl
  unfold Stream.resultEvent at h
  split at h
  · cases h
  split at h
  · cases h
  split at h
  · cases h
  · cases h

/-- A frame of the phone, with the unit it carries. -/
theorem tells_incoming (s : Stream) (now : ℕ) (frame : Frame) :
    Tells s (Input.frame now frame).unit? (s.incoming now frame).1 (s.incoming now frame).2 := by
  have hother {kind : UInt8} (hkind : frame.header.kind = kind) (hne : kind ≠ VIDEO_AU) :
      (Input.frame now frame).unit? = none :=
    if_neg fun h => hne (hkind.symm.trans h.1)
  unfold Stream.incoming
  split
  · next hkind =>
    rw [hother hkind (by decide)]
    split
    · exact .of_quiet (quiet_one rfl) rfl
    · exact .of_quiet (quiet_one rfl) rfl
  split
  · next hkind =>
    rw [hother hkind (by decide)]
    split
    · exact .of_quiet (by simp) rfl
    split
    · exact .of_quiet (quiet_one rfl) rfl
    · next caps _ =>
      -- the observation of an epoch acts on nothing
      have hnone : (s.switch.step now (.epochObserved caps.streamEpoch)).2 = [] := by
        simp only [Switch.step]
        split <;> rfl
      have htells : Tells s none { s with
          switch := (s.switch.step now (.epochObserved caps.streamEpoch)).1
          catalogRevision := caps.catalogRevision
          advertised := true
          permission := caps.permission
          modes := (caps.modes.map Stream.modeOf).filter HostQuality.Mode.usable
          point := .loop }
          ([] ++ ((s.switch.step now (.epochObserved caps.streamEpoch)).2.map .acted ++
            [.event (.qualityCapabilities caps.permission caps.catalogRevision caps.streamEpoch
              ((caps.modes.map Stream.modeOf).filter HostQuality.Mode.usable))])) :=
        .of_fed now [] (by simp) (by simp) (quiet_one rfl) rfl
      rw [hnone] at htells
      exact htells
  split
  · next hkind =>
    rw [hother hkind (by decide)]
    split
    · exact .of_quiet (quiet_one rfl) rfl
    split
    · exact .of_quiet (by simp) rfl
    · next hevent => exact tells_control s now (resultEvent_ne hevent)
  split
  · next hkind =>
    rw [hother hkind (by decide)]
    split
    · exact .of_quiet (quiet_one rfl) rfl
    · exact tells_control s now (by simp)
  split
  · next hkind =>
    rw [hother hkind (by decide)]
    split
    · exact .of_quiet (quiet_one rfl) rfl
    · exact tells_configure s now _
  split
  · next hkind =>
    have hunit : (Input.frame now frame).unit? = if frame.payload = [] then none else
        some ⟨frame.header.flags, frame.header.ptsUs, frame.payload⟩ := by
      simp [Input.unit?, hkind]
    rw [hunit]
    exact tells_accessUnit s ⟨frame.header.flags, frame.header.ptsUs, frame.payload⟩
  · next hkind =>
    have hnone : (Input.frame now frame).unit? = none := if_neg fun h => hkind h.1
    rw [hnone]
    exact .of_quiet (by simp) rfl

/-- The picture is submitted and the switch is fed `OutputReady`. -/
theorem Tells.of_ready (now : ℕ) (picture : Picture) (width height : UInt32)
    (hes : ∀ note ∈ es, note.quiet = true)
    (hswitch : s'.switch = (s.switch.step now .outputReady).1) :
    Tells s none s' (.submitted picture width height :: .ready ::
      ((s.switch.step now .outputReady).2.map .acted ++ es)) := by
  refine ⟨.inl ?_, .inr ⟨now, .outputReady, ?_, by simp⟩⟩
  · show List.filterMap Note.unit? (_ ++ _) = []
    rw [List.filterMap_append, unit?_acted, unit?_quiet hes]
    rfl
  · show _ = (s'.switch, List.filterMap Note.acted? (_ ++ _))
    rw [List.filterMap_append, acted?_acted, acted?_quiet hes, List.append_nil, hswitch]

/-- A picture of the decoder. -/
theorem tells_draw (s : Stream) (c : VideoConfig) (now : ℕ) (picture : Picture)
    (active due : Bool) (decoder : String) :
    Tells s none (s.draw c now picture active due decoder).1
      (s.draw c now picture active due decoder).2 := by
  have hevents : ∀ actions, ∀ note ∈ (Stream.report actions).1, note.quiet = true :=
    fun _ => quiet_reportQuality _ _
  have hstats : ∀ stats : HostControl.Stats,
      ∀ note ∈ (if due = true then [Note.event (.stats stats)] else []), note.quiet = true := by
    intro stats
    split
    · exact quiet_one rfl
    · simp
  unfold Stream.draw
  split
  · exact .of_quiet (quiet_one rfl) rfl
  split
  · exact .of_quiet (quiet_one rfl) rfl
  cases active with
  | false => exact .of_quiet (hstats _) rfl
  | true =>
    simp only [Stream.submit, if_true]
    split
    · show Tells s none _ (.submitted picture c.width c.height :: .ready ::
        ((_ ++ _) ++ [Note.returned _]))
      rw [List.append_assoc]
      exact .of_ready now picture _ _ (quiet_append (hevents _) (quiet_one rfl)) rfl
    · show Tells s none _ (.submitted picture c.width c.height :: .ready :: ((_ ++ _) ++ _))
      rw [List.append_assoc]
      exact .of_ready now picture _ _ (quiet_append (hevents _) (hstats _)) rfl

/-- The end of the session. -/
theorem tells_leave (s : Stream) (now : ℕ) : Tells s none (s.leave now).1 (s.leave now).2 := by
  unfold Stream.leave
  dsimp only
  rw [List.append_assoc]
  refine .of_fed now [] (by simp) (by simp) (quiet_append ?_ (quiet_one rfl)) rfl
  intro note hn
  obtain ⟨action, -, hn⟩ := List.mem_filterMap.mp hn
  split at hn
  · obtain rfl := Option.some.inj hn
    rfl
  · cases hn

/-- **What a step notes**: the fate of the unit it received, and what the switch was fed. -/
theorem step_tells {i : Input} (h : s.step i = some (s', es)) : Tells s i.unit? s' es := by
  -- only a frame brings a unit, and only a picture can make the output ready
  cases Stream.moved_of_step h with
  | opened => exact .of_quiet (quiet_append (quiet_framed _ _ _) (quiet_one rfl)) rfl
  | check | quiet | drained => exact .of_quiet (by simp) rfl
  | stopped now => exact tells_leave s now
  | request now request => exact tells_takeRequest s now request
  | deadline now => exact tells_expire s now
  | frame now frame => exact tells_incoming s now frame
  | picture now picture active due decoder => exact tells_draw s _ now picture active due decoder
  | abort error => exact .of_quiet (quiet_one rfl) rfl

/-! ## The runs -/

namespace Stream

/-- Nothing follows the end of the loop. -/
theorem step_returned {result : Except String Unit} (h : s.point = .returned result) (i : Input) :
    s.step i = none := by
  unfold step
  rw [h]
  cases i with
  | check stop => cases stop <;> rfl
  | _ => rfl

/-- **No unit goes unnoted.** The units noted as given or skipped are the units received, in their
order, but for one that the loop ends on. -/
theorem units_noted {inputs : List Input} {t : Stream}
    (h : received.exec s inputs = some (t, es)) :
    es.filterMap Note.unit? = inputs.filterMap Input.unit? ∨
      (∃ error, t.point = .returned (.error error)) ∧
        ∃ au, inputs.filterMap Input.unit? = es.filterMap Note.unit? ++ [au] := by
  induction inputs generalizing s es with
  | nil =>
    obtain ⟨rfl, rfl⟩ := Prod.mk.inj (Option.some.inj h)
    exact .inl rfl
  | cons i inputs ih =>
    simp only [EventSystem.exec] at h
    split at h
    · cases h
    next s' es' hstep =>
    split at h
    · cases h
    next t' fs hrest =>
    obtain ⟨rfl, rfl⟩ := Prod.mk.inj (Option.some.inj h)
    have hcons : (i :: inputs).filterMap Input.unit? =
        i.unit?.toList ++ inputs.filterMap Input.unit? := by
      cases hunit : i.unit? with
      | none => exact List.filterMap_cons_none hunit
      | some au => exact List.filterMap_cons_some hunit
    rw [hcons, List.filterMap_append]
    rcases (step_tells hstep).unit with hnoted | ⟨hnone, error, hended⟩
    · rw [hnoted]
      rcases ih hrest with hsame | ⟨hended, au, hlast⟩
      · exact .inl (by rw [hsame])
      · exact .inr ⟨hended, au, by rw [hlast, List.append_assoc]⟩
    · -- the loop has ended, and no input is left
      cases inputs with
      | cons j inputs =>
        have hstop : received.step s' j = none := step_returned hended j
        simp only [EventSystem.exec, hstop] at hrest
        cases hrest
      | nil =>
        obtain ⟨rfl, rfl⟩ := Prod.mk.inj (Option.some.inj hrest)
        rw [hnone]
        cases i.unit? with
        | none => exact .inl rfl
        | some au => exact .inr ⟨⟨error, hended⟩, au, rfl⟩

end Stream

end HostVideo
end MobileWebcamBridge
