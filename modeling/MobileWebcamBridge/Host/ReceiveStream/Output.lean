import MobileWebcamBridge.Host.ReceiveStream
import MobileWebcamBridge.Lib.Trace

/-!
# What `receive_stream` gives its decoder and its sink

An interval is the history since the last release of the outputs, or since the start. Within one,
the decoder starts on a keyframe after the config, picks up on a keyframe after whatever was
skipped, and what the sink is given has the config's dimensions and comes from the interval's units.
-/

set_option autoImplicit false

namespace MobileWebcamBridge
namespace HostVideo

open HostWire Trace
open HostControl (Event Stats)
open HostQuality (Mode Tuple Switch Action)

namespace Note

/-- The config that is put in place. -/
def config? : Note → Option VideoConfig
  | .configured c => some c
  | _ => none

/-- The unit that is given to the decoder. -/
def given? : Note → Option AccessUnit
  | .given au => some au
  | _ => none

/-- What leaves the interval's config and units as they are. -/
def still : Note → Bool
  | .released => false
  | .configured _ => false
  | .given _ => false
  | .skipped _ => false
  | _ => true

/-- What says nothing of the capture at all. -/
def neutral : Note → Bool
  | .submitted _ _ _ => false
  | .ready => false
  | note => note.still

end Note

/-- The notes since the last release. -/
def push (interval : List Note) : Note → List Note
  | .released => []
  | note => interval ++ [note]

/-- The history since the last release. -/
def interval (tr : List Note) : List Note := tr.foldl push []

/-- The configs of an interval. -/
def configs (I : List Note) : List VideoConfig := I.filterMap Note.config?

/-- The units given to the decoder. -/
def givens (I : List Note) : List AccessUnit := I.filterMap Note.given?

/-- Whether a unit was skipped since the last one given. -/
def skippedSince (I : List Note) : Bool :=
  I.foldl (fun b note =>
    match note with
    | .given _ => false
    | .skipped _ => true
    | _ => b) false

/-- A unit may be given, a picture submitted and the switch told, after this interval. -/
def Sound (I : List Note) : Note → Prop
  | .given au =>
    (∃ c, c ∈ configs I) ∧
      (givens I = [] → au.keyframe = true ∧ au.configIncluded = true) ∧
      (∀ b ∈ givens I, b.ptsUs < au.ptsUs) ∧
      (skippedSince I = true → au.keyframe = true)
  | .submitted picture width height =>
    (∃ c, c ∈ configs I) ∧
      (∀ c ∈ configs I, width = c.width ∧ height = c.height ∧ picture.width = c.width ∧
        picture.height = c.height) ∧
      ∀ au ∈ picture.source, au ∈ givens I
  | .ready => ∃ J picture width height, I = J ++ [Note.submitted picture width height]
  | _ => True

/-- The keyframe that the guard on PTS misses: a unit was given, the decoder has not yielded a
picture yet, and the keyframe is no later than that unit. -/
def Stream.Reorders (s : Stream) (frame : Frame) : Prop :=
  let au : AccessUnit := ⟨frame.header.flags, frame.header.ptsUs, frame.payload⟩
  frame.header.kind = VIDEO_AU ∧ au.payload ≠ [] ∧ s.config.isSome = true ∧ s.started = false ∧
    au.keyframe = true ∧ au.configIncluded = true ∧ s.decoder.getD [] ≠ [] ∧ au.ptsUs ≤ s.lastPts

instance (s : Stream) (frame : Frame) : Decidable (s.Reorders frame) := by
  unfold Stream.Reorders
  infer_instance

/-- No frame of the run is such a keyframe. -/
def InOrder : List Note → Stream → Input → Prop
  | _, s, .frame _ frame => s.point matches .receive → ¬ s.Reorders frame
  | _, _, _ => True

instance (tr : List Note) (s : Stream) (i : Input) : Decidable (InOrder tr s i) := by
  cases i <;> unfold InOrder <;> infer_instance

/-! ## The invariant -/

/-- The loop's variables tell the interval. -/
structure Sees (I : List Note) (s : Stream) : Prop where
  configs : ∀ c, c ∈ HostVideo.configs I ↔ s.config = some c
  givens : HostVideo.givens I = s.decoder.getD []
  framed : HostVideo.givens I ≠ [] → s.config.isSome = true
  started : s.started = true → HostVideo.givens I ≠ [] ∧ skippedSince I = false
  pts : ∀ au ∈ HostVideo.givens I, au.ptsUs ≤ s.lastPts
  decode : ∀ c, s.point = .decode c → s.config = some c ∧ HostVideo.givens I ≠ [] ∧
    skippedSince I = false

/-- The size and rate of a config. -/
def tupleOf (c : VideoConfig) : Tuple := (c.width.toUInt16, c.height.toUInt16, c.fps.toUInt16)

/-- A config that came off the wire, sixteen bits a field. -/
def Narrow (c : VideoConfig) : Prop :=
  c.width = c.width.toUInt16.toUInt32 ∧ c.height = c.height.toUInt16.toUInt32 ∧
    c.fps = c.fps.toUInt16.toUInt32

/-- A switch that awaits video has seen no config of the interval but the one it asked for. -/
structure Matched (s : Stream) : Prop where
  narrow : ∀ c, s.config = some c → Narrow c
  awaiting : s.switch.awaitingVideo = true → ∀ c, s.config = some c →
    s.switch.requested = some (tupleOf c)

/-- The notes are sound one after another. -/
def SoundFrom (I : List Note) : List Note → Prop
  | [] => True
  | note :: rest => Sound I note ∧ SoundFrom (push I note) rest

/-- Soundness of a whole is that of its parts. -/
theorem soundFrom_append {es fs : List Note} : ∀ {I : List Note},
    SoundFrom I (es ++ fs) ↔ SoundFrom I es ∧ SoundFrom (es.foldl push I) fs := by
  induction es with
  | nil =>
    intro I
    simp [SoundFrom]
  | cons e es ih =>
    intro I
    simp only [List.cons_append, SoundFrom, ih, List.foldl_cons, and_assoc]

/-- Sound from an interval on is sound at each note. -/
theorem each_of_soundFrom {es : List Note} : ∀ {tr : List Note},
    SoundFrom (interval tr) es → Each (fun x => Sound (interval (tr ++ x))) es := by
  induction es with
  | nil =>
    intro tr _
    exact each_nil
  | cons e es ih =>
    intro tr h
    refine each_cons.mpr ⟨by simpa using h.1, ?_⟩
    have hpush : interval (tr ++ [e]) = push (interval tr) e := by simp [interval]
    have hrest : Each (fun x => Sound (interval (tr ++ [e] ++ x))) es :=
      ih (by rw [hpush]; exact h.2)
    simpa using hrest

variable {I es : List Note} {s s' : Stream}

theorem still_of_neutral {note : Note} (h : note.neutral = true) : note.still = true := by
  cases note with
  | submitted picture width height => cases h
  | ready => cases h
  | _ => exact h

theorem push_still {note : Note} (h : note.still = true) : push I note = I ++ [note] := by
  cases note with
  | released => cases h
  | _ => rfl

theorem sound_neutral {note : Note} (h : note.neutral = true) : Sound I note := by
  cases note with
  | given au => cases h
  | submitted picture width height => cases h
  | ready => cases h
  | _ => trivial

/-- Neutral notes are sound and stay in the interval. -/
theorem neutral_run (h : ∀ note ∈ es, note.neutral = true) : ∀ {I : List Note},
    SoundFrom I es ∧ es.foldl push I = I ++ es := by
  induction es with
  | nil =>
    intro I
    simp [SoundFrom]
  | cons e es ih =>
    intro I
    have he := h e List.mem_cons_self
    obtain ⟨hsound, hpush⟩ := ih (fun note hn => h note (List.mem_cons_of_mem _ hn))
      (I := I ++ [e])
    simp only [SoundFrom, List.foldl_cons, push_still (still_of_neutral he)]
    exact ⟨⟨sound_neutral he, hsound⟩, by rw [hpush]; simp⟩

/-- Still notes put no config in place. -/
theorem configs_still (h : ∀ note ∈ es, note.still = true) : configs (I ++ es) = configs I := by
  have hnone : es.filterMap Note.config? = [] := by
    apply List.filterMap_eq_nil_iff.mpr
    intro note hn
    have := h note hn
    cases note <;> first | rfl | cases this
  simp [configs, hnone]

/-- Still notes give no unit. -/
theorem givens_still (h : ∀ note ∈ es, note.still = true) : givens (I ++ es) = givens I := by
  have hnone : es.filterMap Note.given? = [] := by
    apply List.filterMap_eq_nil_iff.mpr
    intro note hn
    have := h note hn
    cases note <;> first | rfl | cases this
  simp [givens, hnone]

/-- Still notes leave the skipping as it is. -/
theorem skippedSince_still (h : ∀ note ∈ es, note.still = true) : ∀ {I : List Note},
    skippedSince (I ++ es) = skippedSince I := by
  induction es with
  | nil =>
    intro I
    simp
  | cons e es ih =>
    intro I
    have he := h e List.mem_cons_self
    have hrest := ih (fun note hn => h note (List.mem_cons_of_mem _ hn)) (I := I ++ [e])
    rw [List.append_assoc] at hrest
    refine hrest.trans ?_
    cases e with
    | given au => cases he
    | skipped au => cases he
    | _ => simp [skippedSince]

/-- A step that leaves the capture alone. -/
theorem Sees.keep (h : Sees I s) (hes : ∀ note ∈ es, note.still = true)
    (hconfig : s'.config = s.config) (hdecoder : s'.decoder = s.decoder)
    (hstarted : s'.started = true → s.started = true ∨ ∃ c, s.point = .decode c)
    (hpts : s'.lastPts = s.lastPts)
    (hpoint : ∀ c, s'.point = .decode c → s.point = .decode c) : Sees (I ++ es) s' := by
  constructor
  · rw [configs_still hes, hconfig]
    exact h.configs
  · rw [givens_still hes, hdecoder]
    exact h.givens
  · rw [givens_still hes, hconfig]
    exact h.framed
  · rw [givens_still hes, skippedSince_still hes]
    intro hs'
    rcases hstarted hs' with hs | ⟨c, hc⟩
    · exact h.started hs
    · exact (h.decode c hc).2
  · rw [givens_still hes, hpts]
    exact h.pts
  · rw [givens_still hes, skippedSince_still hes, hconfig]
    exact fun c hc => h.decode c (hpoint c hc)

theorem forall_still (hes : ∀ note ∈ es, note.neutral = true) :
    ∀ note ∈ es, note.still = true := fun note hn => still_of_neutral (hes note hn)

/-- What a step shows is sound, and the loop's variables go on telling the interval. -/
def Advances (I : List Note) (es : List Note) (s' : Stream) : Prop :=
  SoundFrom I es ∧ Sees (es.foldl push I) s' ∧ Matched s'

/-- Neutral notes advance, where the loop still sees the interval. -/
theorem Advances.of_neutral (hes : ∀ note ∈ es, note.neutral = true) (h : Sees (I ++ es) s')
    (hmatched : Matched s') : Advances I es s' := by
  obtain ⟨hsound, hpush⟩ := neutral_run (I := I) hes
  exact ⟨hsound, hpush ▸ h, hmatched⟩

/-- One advance behind another. -/
theorem Advances.trans {fs : List Note} (hsound : SoundFrom I es)
    (h : Advances (es.foldl push I) fs s') : Advances I (es ++ fs) s' := by
  refine ⟨soundFrom_append.mpr ⟨hsound, h.1⟩, ?_, h.2.2⟩
  rw [List.foldl_append]
  exact h.2.1

/-- An advance behind neutral notes. -/
theorem Advances.append {fs : List Note} (hes : ∀ note ∈ es, note.neutral = true)
    (h : Advances (I ++ es) fs s') : Advances I (es ++ fs) s' := by
  obtain ⟨hsound, hpush⟩ := neutral_run (I := I) hes
  refine ⟨soundFrom_append.mpr ⟨hsound, ?_⟩, ?_, h.2.2⟩
  · rw [hpush]
    exact h.1
  · rw [List.foldl_append, hpush]
    exact h.2.1

/-! ## The switch -/

/-- Only the reply to a prepare releases the outputs. -/
theorem release_of_moves {sw sw' : Switch} {now : ℕ} {e : HostQuality.Event}
    {actions : List Action} (h : Switch.Moves sw now e sw' actions)
    (hrelease : .releaseOutputs ∉ actions) :
    sw'.awaitingVideo = true → sw.awaitingVideo = true ∧ sw'.requested = sw.requested := by
  intro hawaiting
  cases h with
  | still => exact ⟨hawaiting, rfl⟩
  | observed => exact ⟨hawaiting, rfl⟩
  | prepared => cases hawaiting
  | staged => simp at hrelease
  | left hphase => exact ⟨Switch.awaitingVideo_of_staged hphase, rfl⟩
  | rejected => cases hawaiting
  | closed => cases hawaiting
  | released => simp at hrelease
  | configured hbefore _ => exact ⟨hbefore, rfl⟩
  | ready => cases hawaiting
  | stopped => cases hawaiting

/-- The config still matches, where neither it nor the request changes. -/
theorem Matched.keep (h : Matched s) (hconfig : s'.config = s.config)
    (hswitch : s'.switch.awaitingVideo = true →
      s.switch.awaitingVideo = true ∧ s'.switch.requested = s.switch.requested) : Matched s' where
  narrow := by
    rw [hconfig]
    exact h.narrow
  awaiting ha c hc := by
    obtain ⟨hbefore, hrequested⟩ := hswitch ha
    rw [hrequested]
    exact h.awaiting hbefore c (hconfig ▸ hc)

theorem Matched.none (hconfig : s'.config = none) : Matched s' where
  narrow c hc := by cases hconfig.symm.trans hc
  awaiting _ c hc := by cases hconfig.symm.trans hc

/-- An event that is no reply to a prepare releases nothing. -/
theorem no_release {sw : Switch} {now : ℕ} {e : HostQuality.Event}
    (haccepted : ∀ id streaming, e ≠ .prepareAccepted id streaming)
    (hpaused : ∀ id epoch, e ≠ .paused id epoch) : .releaseOutputs ∉ (sw.step now e).2 := by
  have hmoves := Switch.step_moves sw now e
  generalize (sw.step now e).2 = actions at hmoves
  generalize (sw.step now e).1 = sw' at hmoves
  cases hmoves with
  | staged => exact absurd rfl (haccepted _ _)
  | released => exact absurd rfl (hpaused _ _)
  | _ => simp

/-! ## The steps -/

theorem neutral_nil : ∀ note ∈ ([] : List Note), note.neutral = true := by
  intro note hn
  cases hn

/-- Actions are neutral. -/
theorem neutral_acted (actions : List Action) :
    ∀ note ∈ actions.map Note.acted, note.neutral = true := by
  intro note hn
  obtain ⟨action, -, rfl⟩ := List.mem_map.mp hn
  rfl

theorem neutral_framed (kind : UInt8) (sequence : UInt32) (payload : List UInt8) :
    ∀ note ∈ Stream.framed kind sequence payload, note.neutral = true := by
  intro note hn
  unfold Stream.framed at hn
  split at hn
  · rw [List.mem_singleton.mp hn]
    rfl
  · cases hn

/-- What an action sends is neutral. -/
theorem neutral_frames (action : Action) :
    ∀ note ∈ Stream.frames action, note.neutral = true := by
  unfold Stream.frames
  split
  · exact neutral_framed _ _ _
  · exact neutral_framed _ _ _
  · simp

theorem neutral_commitFrames (action : Action) :
    ∀ note ∈ Stream.commitFrames action, note.neutral = true := by
  unfold Stream.commitFrames
  split
  · exact neutral_frames _
  · simp

/-- What the window is told is neutral. -/
theorem neutral_reportQuality (terminal : Bool) (actions : List Action) :
    ∀ note ∈ (Stream.reportQuality terminal actions).1, note.neutral = true := by
  induction actions with
  | nil => exact neutral_nil
  | cons action rest ih =>
    cases action with
    | reportApplied width height fps =>
      intro note hn
      rcases List.mem_cons.mp hn with rfl | hn
      · rfl
      · exact ih note hn
    | reportFailed reason =>
      intro note hn
      rcases List.mem_cons.mp hn with rfl | hn
      · rfl
      · exact ih note hn
    | stopCapture => exact neutral_nil
    | closeConnection => exact neutral_nil
    | _ => exact ih

theorem neutral_reportExpiry (actions : List Action) :
    ∀ note ∈ (Stream.reportExpiry actions).1, note.neutral = true := by
  induction actions with
  | nil => exact neutral_nil
  | cons action rest ih =>
    cases action with
    | reportFailed reason =>
      intro note hn
      rcases List.mem_cons.mp hn with rfl | hn
      · rfl
      · exact ih note hn
    | stopCapture => exact neutral_nil
    | closeConnection => exact neutral_nil
    | _ => exact ih

theorem forall_append {es fs : List Note} (he : ∀ note ∈ es, note.neutral = true)
    (hf : ∀ note ∈ fs, note.neutral = true) : ∀ note ∈ es ++ fs, note.neutral = true := by
  intro note hn
  rcases List.mem_append.mp hn with hn | hn
  · exact he note hn
  · exact hf note hn

theorem forall_one {note : Note} (h : note.neutral = true) :
    ∀ n ∈ [note], n.neutral = true := by
  intro n hn
  rw [List.mem_singleton.mp hn]
  exact h

/-- A step whose notes are neutral and that leaves the capture and its config alone. -/
theorem advances_keep (h : Sees I s) (hmatched : Matched s)
    (hes : ∀ note ∈ es, note.neutral = true) (hconfig : s'.config = s.config)
    (hdecoder : s'.decoder = s.decoder) (hstarted : s'.started = s.started)
    (hpts : s'.lastPts = s.lastPts) (hpoint : ∀ c, s'.point = .decode c → s.point = .decode c)
    (hswitch : s'.switch.awaitingVideo = true →
      s.switch.awaitingVideo = true ∧ s'.switch.requested = s.switch.requested) :
    Advances I es s' :=
  .of_neutral hes
    (h.keep (forall_still hes) hconfig hdecoder (fun hs => .inl (hstarted ▸ hs)) hpts hpoint)
    (hmatched.keep hconfig hswitch)

variable (hsees : Sees I s) (hmatched : Matched s)
include hsees hmatched

/-- The end of the loop. -/
theorem advances_finish (result : Except String Unit) :
    Advances I (s.finish result).2 (s.finish result).1 :=
  advances_keep hsees hmatched (forall_one rfl) rfl rfl rfl rfl (fun c hc => by cases hc)
    (fun ha => ⟨ha, rfl⟩)

/-- A request of the window. -/
theorem advances_takeRequest (now : ℕ) (request : Option Tuple) :
    Advances I (s.takeRequest now request).2 (s.takeRequest now request).1 := by
  cases request with
  | none =>
    exact advances_keep hsees hmatched (by simp [Stream.takeRequest]) rfl rfl rfl rfl
      (fun c hc => by cases hc) (fun ha => ⟨ha, rfl⟩)
  | some t =>
    obtain ⟨width, height, fps⟩ := t
    simp only [Stream.takeRequest]
    split
    · refine advances_keep hsees hmatched ?_ rfl rfl rfl rfl (fun c hc => by cases hc)
        (fun ha => ⟨ha, rfl⟩)
      intro note hn
      simp only [List.mem_cons, List.not_mem_nil, or_false] at hn
      rcases hn with rfl | rfl
      · rfl
      · rfl
    · have hmoves := Switch.step_moves s.switch now (.prepare s.catalogRevision width height fps)
      refine advances_keep hsees hmatched ?_ rfl rfl rfl rfl (fun c hc => by cases hc)
        (release_of_moves hmoves (no_release (fun _ _ h => by cases h) (fun _ _ h => by cases h)))
      refine forall_append (forall_append (forall_one rfl) (neutral_acted _)) ?_
      intro note hn
      obtain ⟨action, -, hn⟩ := List.mem_flatMap.mp hn
      exact neutral_frames action note hn

/-- A deadline that has passed. -/
theorem advances_expire (now : ℕ) : Advances I (s.expire now).2 (s.expire now).1 := by
  unfold Stream.expire
  split
  · dsimp only
    have hmoves := Switch.step_moves s.switch now .deadlineExceeded
    have hswitch := release_of_moves hmoves
      (no_release (fun _ _ h => by cases h) (fun _ _ h => by cases h))
    have hnotes := forall_append (neutral_acted (s.switch.step now .deadlineExceeded).2)
      (neutral_reportExpiry (s.switch.step now .deadlineExceeded).2)
    split
    · exact advances_keep hsees hmatched (forall_append hnotes (forall_one rfl)) rfl rfl rfl rfl
        (fun c hc => by cases hc) hswitch
    · exact advances_keep hsees hmatched hnotes rfl rfl rfl rfl (fun c hc => by cases hc) hswitch
  · exact advances_keep hsees hmatched (by simp) rfl rfl rfl rfl (fun c hc => by cases hc)
      (fun ha => ⟨ha, rfl⟩)

/-- The end of the session. -/
theorem advances_leave (now : ℕ) : Advances I (s.leave now).2 (s.leave now).1 := by
  have hmoves := Switch.step_moves s.switch now .userStop
  refine advances_keep hsees hmatched ?_ rfl rfl rfl rfl (fun c hc => by cases hc)
    (release_of_moves hmoves (no_release (fun _ _ h => by cases h) (fun _ _ h => by cases h)))
  refine forall_append (forall_append (neutral_acted _) ?_) (forall_one rfl)
  intro note hn
  obtain ⟨action, -, hn⟩ := List.mem_filterMap.mp hn
  split at hn
  · obtain rfl := Option.some.inj hn
    rfl
  · cases hn

omit hsees hmatched

/-- After a release the interval is empty. -/
theorem sees_release (hpoint : ∀ c, s.point ≠ .decode c) : Sees [] s.release where
  configs c := by simp [configs, Stream.release]
  givens := rfl
  framed h := absurd rfl h
  started h := by cases h
  pts au h := by cases h
  decode c hc := absurd hc (hpoint c)

/-- The actions are carried out one by one; a release starts a new interval. -/
theorem carryOut_sees (actions : List Action) : ∀ {I : List Note} {s : Stream}, Sees I s →
    (∀ c, s.point ≠ .decode c) →
    SoundFrom I (s.carryOut actions).2 ∧
      Sees ((s.carryOut actions).2.foldl push I) (s.carryOut actions).1 ∧
      (s.carryOut actions).1 = if .releaseOutputs ∈ actions then s.release else s := by
  induction actions with
  | nil =>
    intro I s h _
    exact ⟨trivial, h, by simp [Stream.carryOut]⟩
  | cons action rest ih =>
    intro I s h hpoint
    by_cases hrelease : action = .releaseOutputs
    · have hreleased : Sees ([] ++ [Note.event .waiting]) s.release :=
        (sees_release hpoint).keep (by simp [Note.still]) rfl rfl .inl rfl (fun _ hc => hc)
      obtain ⟨hsound, hsees, hstate⟩ := ih hreleased hpoint
      simp only [Stream.carryOut, hrelease, if_true]
      refine ⟨⟨trivial, trivial, hsound⟩, hsees, ?_⟩
      rw [hstate]
      simp only [List.mem_cons, true_or, if_true]
      split <;> rfl
    · have hnotes := neutral_commitFrames action
      obtain ⟨hhere, hpush⟩ := neutral_run (I := I) hnotes
      obtain ⟨hsound, hsees, hstate⟩ := ih
        (h.keep (forall_still hnotes) rfl rfl .inl rfl (fun _ hc => hc)) hpoint
      simp only [Stream.carryOut, hrelease, if_false]
      refine ⟨soundFrom_append.mpr ⟨hhere, hpush ▸ hsound⟩, ?_, ?_⟩
      · rw [List.foldl_append, hpush]
        exact hsees
      · rw [hstate]
        have hne : Action.releaseOutputs ≠ action := fun he => hrelease he.symm
        simp [hne]

/-- A report that fails leaves the switch failed. -/
theorem failed_of_report {sw sw' : Switch} {now : ℕ} {e : HostQuality.Event}
    {actions : List Action} (h : Switch.Moves sw now e sw' actions)
    (hfailed : (Stream.report actions).2 = true) : sw'.phase = .failed := by
  cases h with
  | rejected => rfl
  | closed => rfl
  | stopped => rfl
  | _ => cases hfailed

include hsees hmatched

/-- An event of a control frame. -/
theorem advances_control (hpoint : ∀ c, s.point ≠ .decode c) (now : ℕ) (e : HostQuality.Event) :
    Advances I (s.control now e).2 (s.control now e).1 := by
  have hmoves := Switch.step_moves s.switch now e
  unfold Stream.control
  dsimp only
  have hreported := forall_append (neutral_acted (s.switch.step now e).2)
    (neutral_reportQuality ((s.switch.step now e).2.contains .closeConnection)
      (s.switch.step now e).2)
  split
  · next hfailed =>
    -- the failure ends the loop before anything is released
    have hphase := failed_of_report hmoves hfailed
    refine advances_keep hsees hmatched (forall_append hreported (forall_one rfl)) rfl rfl rfl rfl
      (fun c hc => by cases hc) fun hawaiting => ?_
    simp [Stream.finish, Switch.awaitingVideo, hphase] at hawaiting
  · have hanswered : Sees (I ++ _) { s with switch := (s.switch.step now e).1 } :=
      hsees.keep (forall_still hreported) rfl rfl .inl rfl (fun _ hc => hc)
    obtain ⟨hsound, hcarried, hstate⟩ := carryOut_sees (s.switch.step now e).2 hanswered hpoint
    rw [List.append_assoc]
    apply Advances.append hreported
    apply Advances.trans hsound
    have hprogress : ∀ note ∈ (if ((s.switch.step now e).2.contains Action.releaseOutputs ||
        (s.switch.step now e).1.staged != s.switch.staged) = true then
          [Note.event (.qualityProgress (s.switch.step now e).1.staged)] else []),
        note.neutral = true := by
      split
      · exact forall_one rfl
      · simp
    refine .of_neutral hprogress (hcarried.keep (forall_still hprogress) rfl rfl .inl rfl
      (fun c hc => by cases hc)) ?_
    by_cases hrelease : .releaseOutputs ∈ (s.switch.step now e).2
    · rw [if_pos hrelease] at hstate
      exact .none (by rw [hstate]; rfl)
    · rw [if_neg hrelease] at hstate
      rw [hstate]
      exact hmatched.keep rfl (release_of_moves hmoves hrelease)

omit hsees hmatched

/-- The config that was asked for, or the failure of the switch. -/
theorem step_videoConfig {sw : Switch} (now : ℕ) (width height fps : UInt16)
    (h : sw.awaitingVideo = true) :
    (sw.requested = some (width, height, fps) ∧
      (sw.step now (.videoConfig width height fps)).2 = [] ∧
      (sw.step now (.videoConfig width height fps)).1.requested = sw.requested) ∨
    sw.step now (.videoConfig width height fps) =
      sw.fail "the new mode did not match the request" := by
  simp only [Switch.step, h, Bool.true_eq_false, if_false]
  split
  · exact .inr rfl
  next hrequested =>
  refine .inl ⟨not_not.mp hrequested, ?_⟩
  split
  · exact ⟨rfl, rfl⟩
  · exact ⟨rfl, rfl⟩

/-- A config is known by its size and rate. -/
theorem tupleOf_inj {c next : VideoConfig} (hc : Narrow c) (hnext : Narrow next)
    (h : tupleOf c = tupleOf next) : c = next := by
  obtain ⟨width, height, fps⟩ := c
  obtain ⟨width', height', fps'⟩ := next
  simp only [tupleOf, Prod.mk.injEq] at h
  obtain ⟨hwidth, hheight, hfps⟩ := h
  simp only [Narrow] at hc hnext
  rw [VideoConfig.mk.injEq]
  refine ⟨?_, ?_, ?_⟩
  · rw [hc.1, hnext.1, hwidth]
  · rw [hc.2.1, hnext.2.1, hheight]
  · rw [hc.2.2, hnext.2.2, hfps]

/-- A config that is read has numbers of 16 bits. -/
theorem narrow_of_parse {bytes : List UInt8} {c : VideoConfig}
    (h : VideoConfig.parse bytes = .ok c) : Narrow c := by
  unfold VideoConfig.parse at h
  split at h
  · cases h
  dsimp only at h
  split at h
  · cases h
  obtain rfl := Except.ok.inj h
  simp [Narrow]

/-- The first config of an interval, or the same one again. -/
theorem Sees.configure (h : Sees I s) {next : VideoConfig}
    (hsame : ∀ c, s.config = some c → c = next) (sw : Switch) :
    Sees (I ++ [Note.configured next])
      { s with switch := sw, config := some next, point := .loop } := by
  have hgivens : HostVideo.givens (I ++ [Note.configured next]) = HostVideo.givens I := by
    simp [HostVideo.givens, Note.given?]
  have hskipped : skippedSince (I ++ [Note.configured next]) = skippedSince I := by
    simp [skippedSince]
  constructor
  · intro c
    have hconfigs :
        HostVideo.configs (I ++ [Note.configured next]) = HostVideo.configs I ++ [next] := by
      simp [HostVideo.configs, Note.config?]
    rw [hconfigs, List.mem_append, List.mem_singleton, Option.some.injEq, h.configs]
    constructor
    · rintro (hc | rfl)
      · exact (hsame c hc).symm
      · rfl
    · exact fun hc => .inr hc.symm
  · rw [hgivens]
    exact h.givens
  · exact fun _ => rfl
  · rw [hgivens, hskipped]
    exact h.started
  · rw [hgivens]
    exact h.pts
  · exact fun c hc => by cases hc

theorem soundFrom_one {note : Note} (h : Sound I note) : SoundFrom I [note] := ⟨h, trivial⟩

include hsees hmatched

/-- A config. -/
theorem advances_configure (now : ℕ) {next : VideoConfig} (hnext : Narrow next) :
    Advances I (s.configure now next).2 (s.configure now next).1 := by
  unfold Stream.configure
  split
  · next hawaiting =>
    rcases step_videoConfig now next.width.toUInt16
      next.height.toUInt16 next.fps.toUInt16 hawaiting with ⟨hrequested, hnone, hkept⟩ | hfail
    · -- the config is the one that was asked for, and so is any earlier one
      have hsame : ∀ c, s.config = some c → c = next := by
        intro c hc
        have htuple := (hmatched.awaiting hawaiting c hc).symm.trans hrequested
        exact tupleOf_inj (hmatched.narrow c hc) hnext (Option.some.inj htuple)
      generalize s.switch.step now _ = r at hnone hkept ⊢
      obtain ⟨switch, actions⟩ := r
      dsimp only at hnone hkept ⊢
      subst hnone
      have hprogress : ∀ note ∈ (if s.switch.staged = true then
          [Note.event (.qualityProgress false)] else []), note.neutral = true := by
        split
        · exact forall_one rfl
        · simp
      show Advances I ((if s.switch.staged = true then
        [Note.event (.qualityProgress false)] else []) ++ [Note.configured next])
        { s with switch, config := some next, point := .loop }
      apply Advances.append hprogress
      have hstaged := hsees.keep (forall_still hprogress) rfl rfl .inl rfl (fun _ h => h)
      refine ⟨soundFrom_one trivial, hstaged.configure hsame switch, ?_, ?_⟩
      · rintro c hc
        obtain rfl := Option.some.inj hc
        exact hnext
      · rintro - c hc
        obtain rfl := Option.some.inj hc
        rw [hkept]
        exact hrequested
    · rw [hfail]
      have hnotes (reason error : String) : ∀ note ∈ ([.acted (.reportFailed reason),
          .acted .stopCapture, .acted .closeConnection, .event (.qualityFailed reason true),
          .returned (.error error)] : List Note), note.neutral = true := by
        simp [Note.neutral, Note.still]
      exact advances_keep hsees hmatched (hnotes _ _) rfl rfl rfl rfl (fun c hc => by cases hc)
        (fun ha => by cases ha)
  next hawaiting =>
  split
  · exact advances_finish hsees hmatched _
  next hsame =>
  have hsame : ∀ c, s.config = some c → c = next := by
    intro c hc
    simpa [hc] using hsame
  refine ⟨soundFrom_one trivial, hsees.configure hsame s.switch, ?_, ?_⟩
  · rintro c hc
    obtain rfl := Option.some.inj hc
    exact hnext
  · exact fun ha => absurd ha hawaiting

/-- A unit is passed over before the decoder has started. -/
theorem advances_skip (hstarted : s.started = false) (au : AccessUnit) :
    Advances I [.skipped au] { s with point := .loop } := by
  have hgivens : givens (I ++ [Note.skipped au]) = givens I := by simp [givens, Note.given?]
  refine ⟨soundFrom_one trivial, ?_, hmatched.keep rfl (fun ha => ⟨ha, rfl⟩)⟩
  show Sees (I ++ [Note.skipped au]) _
  constructor
  · intro c
    have hconfigs : configs (I ++ [Note.skipped au]) = configs I := by simp [configs, Note.config?]
    rw [hconfigs]
    exact hsees.configs c
  · rw [hgivens]
    exact hsees.givens
  · rw [hgivens]
    exact hsees.framed
  · intro hs
    cases hstarted.symm.trans hs
  · rw [hgivens]
    exact hsees.pts
  · exact fun c hc => by cases hc

/-- A unit that is given to the decoder. -/
theorem advances_give {c : VideoConfig} {au : AccessUnit} (hconfig : s.config = some c)
    (hkeyframe : s.started = false → au.keyframe = true ∧ au.configIncluded = true)
    (hpts : s.decoder.getD [] ≠ [] → s.lastPts < au.ptsUs) :
    Advances I [.given au]
      { s with
          decoder := some (s.decoder.getD [] ++ [au])
          lastPts := au.ptsUs
          point := .decode c } := by
  have hlater : ∀ b ∈ givens I, b.ptsUs < au.ptsUs := by
    intro b hb
    have hne : s.decoder.getD [] ≠ [] := hsees.givens ▸ List.ne_nil_of_mem hb
    exact UInt64.lt_of_le_of_lt (hsees.pts b hb) (hpts hne)
  have hgivens : givens (I ++ [Note.given au]) = givens I ++ [au] := by simp [givens, Note.given?]
  have hskipped : skippedSince (I ++ [Note.given au]) = false := by simp [skippedSince]
  refine ⟨soundFrom_one ⟨⟨c, (hsees.configs c).mpr hconfig⟩, ?_, hlater, ?_⟩, ?_,
    hmatched.keep rfl (fun ha => ⟨ha, rfl⟩)⟩
  · intro hnone
    apply hkeyframe
    by_contra hs
    exact (hsees.started (by simpa using hs)).1 hnone
  · intro hskip
    have hs : s.started = false := by
      by_contra hs
      cases hskip.symm.trans (hsees.started (by simpa using hs)).2
    exact (hkeyframe hs).1
  show Sees (I ++ [Note.given au]) _
  constructor
  · intro b
    have hconfigs : configs (I ++ [Note.given au]) = configs I := by simp [configs, Note.config?]
    rw [hconfigs]
    exact hsees.configs b
  · rw [hgivens, hsees.givens]
    rfl
  · intro _
    rw [hconfig]
    rfl
  · intro _
    exact ⟨by simp [hgivens], hskipped⟩
  · rw [hgivens]
    intro b hb
    rcases List.mem_append.mp hb with hb | hb
    · exact UInt64.le_of_lt (hlater b hb)
    · rw [List.mem_singleton.mp hb]
      exact UInt64.le_refl _
  · intro b hb
    obtain rfl := Point.decode.inj hb
    exact ⟨hconfig, by simp [hgivens], hskipped⟩

theorem advances_loop : Advances I [] { s with point := .loop } :=
  advances_keep hsees hmatched (by simp) rfl rfl rfl rfl (fun c hc => by cases hc)
    (fun ha => ⟨ha, rfl⟩)

/-- A unit, given or skipped. -/
theorem advances_accessUnit (au : AccessUnit)
    (hordered : au.payload ≠ [] → s.config.isSome = true → s.started = false →
      au.keyframe = true → au.configIncluded = true → s.decoder.getD [] ≠ [] →
      s.lastPts < au.ptsUs) :
    Advances I (s.accessUnit au).2 (s.accessUnit au).1 := by
  unfold Stream.accessUnit
  split
  · exact advances_loop hsees hmatched
  next hpayload =>
  split
  · next hconfig =>
    refine advances_skip hsees hmatched ?_ au
    by_contra hs
    have hsome := hsees.framed (hsees.started (by simpa using hs)).1
    rw [hconfig] at hsome
    cases hsome
  next c hconfig =>
  split
  · next hskip =>
    refine advances_skip hsees hmatched ?_ au
    simp only [Bool.and_eq_true, Bool.not_eq_true'] at hskip
    exact hskip.1
  next hkept =>
  split
  · exact advances_finish hsees hmatched _
  next hmonotonic =>
  have hkeyframe : s.started = false → au.keyframe = true ∧ au.configIncluded = true := by
    intro hs
    simpa [hs] using hkept
  refine advances_give hsees hmatched hconfig hkeyframe fun hgiven => ?_
  cases hs : s.started with
  | false =>
    obtain ⟨hkf, hci⟩ := hkeyframe hs
    exact hordered hpayload (by rw [hconfig]; rfl) hs hkf hci hgiven
  | true => simpa [hs, UInt64.not_le] using hmonotonic

/-- A frame of the phone. -/
theorem advances_incoming (hpoint : ∀ c, s.point ≠ .decode c) (now : ℕ) {frame : Frame}
    (hordered : ¬ s.Reorders frame) :
    Advances I (s.incoming now frame).2 (s.incoming now frame).1 := by
  unfold Stream.incoming
  split
  · split
    · exact advances_finish hsees hmatched _
    · exact advances_keep hsees hmatched (forall_one rfl) rfl rfl rfl rfl
        (fun c hc => by cases hc) (fun ha => ⟨ha, rfl⟩)
  split
  · split
    · exact advances_loop hsees hmatched
    split
    · exact advances_finish hsees hmatched _
    · next caps _ =>
      have hmoves := Switch.step_moves s.switch now (.epochObserved caps.streamEpoch)
      exact advances_keep hsees hmatched (forall_one rfl) rfl rfl rfl rfl
        (fun c hc => by cases hc)
        (release_of_moves hmoves (no_release (fun _ _ h => by cases h) (fun _ _ h => by cases h)))
  split
  · split
    · exact advances_finish hsees hmatched _
    split
    · exact advances_loop hsees hmatched
    · exact advances_control hsees hmatched hpoint _ _
  split
  · split
    · exact advances_finish hsees hmatched _
    · exact advances_control hsees hmatched hpoint _ _
  split
  · split
    · exact advances_finish hsees hmatched _
    · next hparse => exact advances_configure hsees hmatched now (narrow_of_parse hparse)
  split
  · next hkind =>
    apply advances_accessUnit hsees hmatched
    intro hpayload hconfig hstarted hkeyframe hincluded hgiven
    by_contra hpts
    exact hordered ⟨hkind, hpayload, hconfig, hstarted, hkeyframe, hincluded, hgiven,
      UInt64.not_lt.mp hpts⟩
  · exact advances_loop hsees hmatched

omit hsees hmatched

/-- The picture is submitted, the switch is told, and whatever it answers is neutral. -/
theorem soundFrom_submit {picture : Picture} {c : VideoConfig} (hsees : Sees I s)
    (hconfig : s.config = some c) (hsource : ∀ au ∈ picture.source, au ∈ s.decoder.getD [])
    (hwidth : picture.width = c.width) (hheight : picture.height = c.height) :
    SoundFrom I [.submitted picture c.width c.height, .ready] := by
  refine ⟨⟨⟨c, (hsees.configs c).mpr hconfig⟩, ?_, ?_⟩, ⟨I, picture, c.width, c.height, rfl⟩,
    trivial⟩
  · intro b hb
    obtain rfl := Option.some.inj (hconfig.symm.trans ((hsees.configs b).mp hb))
    exact ⟨rfl, rfl, hwidth, hheight⟩
  · rw [hsees.givens]
    exact hsource

/-- A picture makes the stream started: the unit it follows was given in this interval. -/
theorem Sees.draw (h : Sees I s) {c : VideoConfig} (hpoint : s.point = .decode c)
    (hes : ∀ note ∈ es, note.still = true) (hconfig : s'.config = s.config)
    (hdecoder : s'.decoder = s.decoder) (hpts : s'.lastPts = s.lastPts)
    (hdecode : ∀ c, s'.point = .decode c → s.point = .decode c) : Sees (I ++ es) s' :=
  h.keep hes hconfig hdecoder (fun _ => .inr ⟨c, hpoint⟩) hpts hdecode

include hsees hmatched

/-- A picture of the decoder. -/
theorem advances_draw {c : VideoConfig} (hpoint : s.point = .decode c) (now : ℕ)
    {picture : Picture} (hsource : ∀ au ∈ picture.source, au ∈ s.decoder.getD [])
    (active due : Bool) (decoder : String) :
    Advances I (s.draw c now picture active due decoder).2
      (s.draw c now picture active due decoder).1 := by
  unfold Stream.draw
  split
  · exact advances_finish hsees hmatched _
  next hsize =>
  obtain ⟨hwidth, hheight⟩ := not_or.mp hsize
  split
  · exact advances_finish hsees hmatched _
  have hmoves := Switch.step_moves s.switch now .outputReady
  have hswitch := release_of_moves hmoves
    (no_release (fun _ _ h => by cases h) (fun _ _ h => by cases h))
  have hsubmit := soundFrom_submit hsees (hsees.decode c hpoint).1 hsource (not_not.mp hwidth)
    (not_not.mp hheight)
  have hreported := forall_append (neutral_acted (s.switch.step now .outputReady).2)
    (neutral_reportQuality ((s.switch.step now .outputReady).2.contains .closeConnection)
      (s.switch.step now .outputReady).2)
  have hstats : ∀ stats : Stats, ∀ note ∈ (if due = true then [Note.event (.stats stats)] else []),
      note.neutral = true := by
    intro stats
    split
    · exact forall_one rfl
    · simp
  cases active with
  | false =>
    refine .of_neutral (hstats _) ?_ (hmatched.keep rfl fun ha => ⟨ha, rfl⟩)
    exact hsees.draw hpoint (forall_still (hstats _)) rfl rfl rfl (fun _ h => h)
  | true =>
    -- the notes of the submission come first in both outcomes
    have hafter : ∀ {fs : List Note} {s' : Stream}, (∀ note ∈ fs, note.neutral = true) →
        s'.config = s.config → s'.decoder = s.decoder → s'.lastPts = s.lastPts →
        (∀ c, s'.point = .decode c → s.point = .decode c) →
        s'.switch = (s.switch.step now .outputReady).1 →
        Advances I ([Note.submitted picture c.width c.height, .ready] ++ fs) s' := by
      intro fs s' hfs hconfig hdecoder hpts hdecode hstep
      obtain ⟨hsound, hpush⟩ := neutral_run
        (I := I ++ [Note.submitted picture c.width c.height, .ready]) hfs
      have hfold : ([.submitted picture c.width c.height, .ready] : List Note).foldl push I =
          I ++ [Note.submitted picture c.width c.height, .ready] := by simp [push]
      apply Advances.trans hsubmit
      rw [hfold]
      refine ⟨hsound, ?_, hmatched.keep hconfig (hstep ▸ hswitch)⟩
      rw [hpush, List.append_assoc]
      apply hsees.draw hpoint ?_ hconfig hdecoder hpts hdecode
      intro note hn
      rcases List.mem_append.mp hn with hn | hn
      · simp only [List.mem_cons, List.not_mem_nil, or_false] at hn
        rcases hn with rfl | rfl
        · rfl
        · rfl
      · exact still_of_neutral (hfs note hn)
    simp only [Stream.submit, if_true]
    split
    · exact hafter (forall_append hreported (forall_one rfl)) rfl rfl rfl (fun c hc => by cases hc)
        rfl
    · exact hafter (forall_append hreported (hstats _)) rfl rfl rfl (fun _ h => h) rfl

omit hsees hmatched

/-- Before the first frame the interval is empty. -/
theorem sees_init : Sees [] Stream.init where
  configs c := by simp [configs, Stream.init]
  givens := rfl
  framed h := absurd rfl h
  started h := by cases h
  pts au h := by cases h
  decode c hc := by cases hc

/-- Every input that meets the condition advances. -/
theorem advances_step {tr : List Note} {i : Input} (hsees : Sees I s) (hmatched : Matched s)
    (hordered : InOrder tr s i) (hstep : s.step i = some (s', es)) : Advances I es s' := by
  cases Stream.moved_of_step hstep with
  | opened =>
    exact advances_keep hsees hmatched (forall_append (neutral_framed _ _ _) (forall_one rfl))
      rfl rfl rfl rfl (fun c hc => by cases hc) (fun ha => ⟨ha, rfl⟩)
  | check =>
    exact advances_keep hsees hmatched (by simp) rfl rfl rfl rfl (fun c hc => by cases hc)
      (fun ha => ⟨ha, rfl⟩)
  | stopped now => exact advances_leave hsees hmatched now
  | request now request => exact advances_takeRequest hsees hmatched now request
  | deadline now => exact advances_expire hsees hmatched now
  | quiet | drained => exact advances_loop hsees hmatched
  | frame now frame hpoint =>
    -- a frame is read before the decode loop, and never within it
    have hnot : ∀ c, s.point ≠ .decode c := fun c hc => by cases hpoint.symm.trans hc
    exact advances_incoming hsees hmatched hnot now (hordered (by rw [hpoint]))
  | picture now picture active due decoder hpoint hsource =>
    exact advances_draw hsees hmatched hpoint now hsource active due decoder
  | abort error => exact advances_finish hsees hmatched _

/-! ## The runs -/

namespace Stream

/-- **What the decoder and the sink are given.** Whatever the phone sends and whenever the decoder
yields its pictures, as long as no keyframe steps back before the first picture. -/
theorem received_sound {tr : List Note} (h : received.Under InOrder tr s) :
    Each (fun x note => Sound (interval x) note) tr := by
  have hinv : Each (fun x note => Sound (interval x) note) tr ∧ Sees (interval tr) s ∧
      Matched s := by
    refine EventSystem.Under.invariant
      (P := fun tr s => Each (fun x note => Sound (interval x) note) tr ∧ Sees (interval tr) s ∧
        Matched s) ?_ ?_ h
    · rintro s rfl
      exact ⟨each_nil, sees_init, .none rfl⟩
    · rintro tr s i s' es _ hordered ⟨heach, hsees, hmatched⟩ hstep
      obtain ⟨hsound, hsees', hmatched'⟩ := advances_step hsees hmatched hordered hstep
      refine ⟨heach.append (each_of_soundFrom hsound), ?_, hmatched'⟩
      simpa [interval] using hsees'
  exact hinv.1

/-- One pass of the loop that receives a frame. -/
def pass (kind : UInt8) (flags : UInt16) (pts : UInt64) (payload : List UInt8) : List Input :=
  [.check false, .request 0 none, .deadline 0,
    .frame 0 ⟨⟨kind, flags, 0, payload.length.toUInt32, pts⟩, payload⟩]

/-- `VIDEO_CONFIG` of 640 × 480 at 30. -/
def configPass : List Input :=
  pass VIDEO_CONFIG 0 0 [0x80, 2, 0xe0, 1, 30, 0, 0, 0, 0, 0, 0, 0, 1, 1, 0, 0]

/-- A keyframe that carries its parameter sets. -/
def keyframeUnit (pts : UInt64) : AccessUnit := ⟨KEYFRAME ||| CONFIG_INCLUDED, pts, [7]⟩

/-- The inputs that bring such a keyframe. -/
def keyframePass (pts : UInt64) : List Input :=
  pass VIDEO_AU (KEYFRAME ||| CONFIG_INCLUDED) pts [7]

/-- A keyframe, its picture, and the unit after it. -/
def steady : List Input :=
  .opened :: configPass ++ keyframePass 10 ++
    [Input.picture 1 ⟨640, 480, [keyframeUnit 10]⟩ true false "software", .drained] ++
    pass VIDEO_AU 0 20 [8]

/-- A unit after a keyframe is given. -/
theorem received_sound_steady :
    Sound (interval ((received.trace init steady).take 6)) (.given ⟨0, 20, [8]⟩) := by
  have hmeets : received.Under InOrder (received.trace init steady) (received.final init steady) :=
    EventSystem.under_trace steady rfl (by decide +kernel) (by decide +kernel)
  exact received_sound hmeets _ _ [] rfl

/-- A second keyframe comes before the first picture, and earlier than the first. -/
def reordered : List Input :=
  .opened :: configPass ++ keyframePass 10 ++ Input.drained :: keyframePass 5

/-- Two keyframes before the first picture are given out of order. -/
theorem received_reorders :
    ¬ ∀ tr s, received.Reaches tr s → Each (fun x note => Sound (interval x) note) tr := by
  intro hall
  have hrun : received.Reaches (received.trace init reordered) (received.final init reordered) :=
    EventSystem.reaches_trace reordered rfl (by decide +kernel)
  have hsound : Sound (interval ((received.trace init reordered).take 4))
      (.given (keyframeUnit 5)) := hall _ _ hrun _ _ [] rfl
  have hlater : (10 : UInt64) < 5 := hsound.2.2.1 (keyframeUnit 10) (by decide +kernel)
  revert hlater
  decide

end Stream

end HostVideo
end MobileWebcamBridge
