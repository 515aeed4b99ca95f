import MobileWebcamBridge.QualityAgreement.Epochs
import MobileWebcamBridge.QualityAgreement.Media

/-!
# A mode that is reported applied

The PC holds nothing of an old capture from the phone's reply on, so the config and the units behind
a report were read behind that reply, and the writer's fence dates them.
-/

set_option autoImplicit false

namespace MobileWebcamBridge
namespace QualityAgreement

open Wire Signal Trace
open HostVideo (Stream Picture)
open HostQuality (Switch Action)

variable {s s' : Stream} {ns : List HostVideo.Note} {now n : ℕ}
  {f : FramedOutbound.Frame} {fs gs : List FramedOutbound.Frame}

/-- The phone's reply to the request has been read: it paused, or it waits for its user. -/
def Replied (n : ℕ) (fs : List FramedOutbound.Frame) : Prop :=
  ∃ f ∈ fs, ∃ key, f.fenceKey = some key ∧ key.2 = n

theorem Replied.append (h : Replied n fs) (gs : List FramedOutbound.Frame) :
    Replied n (fs ++ gs) := by
  obtain ⟨f, hf, hkey⟩ := h
  exact ⟨f, List.mem_append_left _ hf, hkey⟩

/-- A unit that was read. -/
def Among (fs : List FramedOutbound.Frame) (au : HostVideo.AccessUnit) : Prop :=
  ∃ f ∈ fs, f.isAccessUnit = true ∧ unitOf f = au

/-- Behind the reply, a config of the mode that was asked for has been read, and what the decoder
holds came behind that. -/
def Configured (fs : List FramedOutbound.Frame) (s : Stream) : Prop :=
  ∃ x config z, fs = x ++ config :: z ∧ Replied s.switch.requestId.toNat x ∧
    config.isVideoConfig = true ∧
    (∃ c, HostWire.VideoConfig.parse (onLine config).payload = .ok c ∧
      s.switch.requested = some (c.width.toUInt16, c.height.toUInt16, c.fps.toUInt16)) ∧
    ∀ au ∈ s.decoder.getD [], Among z au

/-- What the PC has read of a request that is under way. -/
structure Resumed (fs : List FramedOutbound.Frame) (s : Stream) : Prop where
  cleared : s.switch.phase = .staged ∨ s.switch.phase = .switching →
    Replied s.switch.requestId.toNat fs ∧ Cleared s
  configured : s.switch.phase = .awaitingOutput → Configured fs s

theorem Configured.append (h : Configured fs s) (gs : List FramedOutbound.Frame)
    (hid : s'.switch.requestId = s.switch.requestId)
    (hrequested : s'.switch.requested = s.switch.requested)
    (hdecoder : ∀ au ∈ s'.decoder.getD [], au ∈ s.decoder.getD [] ∨ Among gs au) :
    Configured (fs ++ gs) s' := by
  obtain ⟨x, config, z, rfl, hreplied, hconfig, ⟨c, hc, hmode⟩, hunits⟩ := h
  refine ⟨x, config, z ++ gs, by simp, ?_, hconfig, ⟨c, hc, ?_⟩, ?_⟩
  · rw [hid]
    exact hreplied
  · rw [hrequested]
    exact hmode
  · intro au hau
    rcases hdecoder au hau with hau | ⟨f, hf, hunit⟩
    · obtain ⟨f, hf, hunit⟩ := hunits au hau
      exact ⟨f, List.mem_append_left _ hf, hunit⟩
    · exact ⟨f, List.mem_append_right _ hf, hunit⟩

/-- A step that leaves the request and the capture alone. -/
theorem Resumed.keep (h : Resumed fs s) (gs : List FramedOutbound.Frame)
    (hphase : s'.switch.phase = s.switch.phase) (hid : s'.switch.requestId = s.switch.requestId)
    (hrequested : s'.switch.requested = s.switch.requested) (hmedia : SameMedia s s') :
    Resumed (fs ++ gs) s' := by
  constructor
  · intro hor
    rw [hphase] at hor
    obtain ⟨hreplied, hcleared⟩ := h.cleared hor
    rw [hid]
    exact ⟨hreplied.append gs, hmedia.cleared hcleared⟩
  · intro hawaiting
    rw [hphase] at hawaiting
    refine (h.configured hawaiting).append gs hid hrequested ?_
    intro au hau
    rw [hmedia.2] at hau
    exact .inl hau

/-- In any other phase there is nothing to keep. -/
theorem resumed_of_phase (hstaged : s.switch.phase ≠ .staged)
    (hswitching : s.switch.phase ≠ .switching)
    (hawaiting : s.switch.phase ≠ .awaitingOutput) : Resumed fs s :=
  ⟨fun hor => (hor.elim hstaged hswitching).elim, fun h => absurd h hawaiting⟩

/-- Where no config has been read, the reply is all that is kept. -/
theorem resumed_of_cleared (hawaiting : s.switch.phase ≠ .awaitingOutput)
    (hreplied : Replied s.switch.requestId.toNat fs) (hcleared : Cleared s) : Resumed fs s :=
  ⟨fun _ => ⟨hreplied, hcleared⟩, fun h => absurd h hawaiting⟩

/-- A number on the line, as the PC compares it. -/
theorem toNat_of_within {id : ℕ} {requestId : UInt32} (hid : UInt32.ofNat id = requestId)
    (hwithin : id ≤ requestId.toNat) : id = requestId.toNat := by
  have hlt : requestId.toNat < 4294967296 := requestId.toNat_lt
  rw [← hid]
  refine (UInt32.toNat_ofNat_of_lt' ?_).symm
  show id < 4294967296
  omega

/-! ## One frame -/

/-- The request that a signal answers, in a way that video has to follow. -/
def answered : Signal → Option ℕ
  | .paused id _ => some id
  | .result id .staged => some id
  | _ => none

theorem hears_paused {x : Signal} {e : HostQuality.Event} {id epoch : UInt32} (h : Hears x e)
    (he : e = .paused id epoch) : ∃ n, answered x = some n ∧ UInt32.ofNat n = id := by
  cases h with
  | paused n m => exact ⟨n, rfl, (HostQuality.Event.paused.inj he).1⟩
  | _ => cases he

theorem hears_staged {x : Signal} {e : HostQuality.Event} {id : UInt32} (h : Hears x e)
    (he : e = .prepareAccepted id false) : ∃ n, answered x = some n ∧ UInt32.ofNat n = id := by
  cases h with
  | staged n => exact ⟨n, rfl, (HostQuality.Event.prepareAccepted.inj he).1⟩
  | switching n => simp at he
  | _ => cases he

theorem answered_within {x : Signal} {m : ℕ} (h : x.Within m) (hx : answered x = some n) :
    n ≤ m := by
  cases x with
  | paused id epoch =>
    obtain rfl := Option.some.inj hx
    exact h
  | result id status =>
    cases status with
    | staged =>
      obtain rfl := Option.some.inj hx
      exact h
    | _ => cases hx
  | _ => cases hx

/-- An answer of the phone. -/
theorem Resumed.control (h : Resumed fs s) {e : HostQuality.Event} {x : Signal} (hhears : Hears x e)
    (hwithin : x.Within s.switch.requestId.toNat) (hvideo : x ≠ .video)
    (hkey : ∀ n, answered x = some n → ∃ key, f.fenceKey = some key ∧ key.2 = n)
    (hrun : Running (s.control now e).1) : Resumed (fs ++ [f]) (s.control now e).1 := by
  have hreplied {m : ℕ} {id : UInt32} (hx : answered x = some m) (hid : UInt32.ofNat m = id)
      (hours : id = s.switch.requestId) : Replied s.switch.requestId.toNat (fs ++ [f]) := by
    obtain ⟨key, hf, hm⟩ := hkey m hx
    refine ⟨f, by simp, key, hf, ?_⟩
    rw [hm]
    exact toNat_of_within (hid.trans hours) (answered_within hwithin hx)
  obtain ⟨hsame, hcleared⟩ := control_media hrun
  obtain ⟨⟨hswitch, -, -⟩, -⟩ := control_heard e hrun
  have hmoves := Switch.step_moves s.switch now e
  clear hrun
  generalize (s.control now e).1 = s' at hsame hcleared hswitch ⊢
  generalize s.switch.step now e = r at hsame hcleared hswitch hmoves
  obtain ⟨sw, actions⟩ := r
  dsimp only at hsame hcleared hswitch hmoves
  cases hmoves with
  | still | observed =>
    exact h.keep [f] (by rw [hswitch]) (by rw [hswitch]) (by rw [hswitch]) (hsame (by simp))
  | prepared => cases hhears
  | configured =>
    cases hhears with
    | video => exact absurd rfl hvideo
  | staged hphase =>
    obtain ⟨m, hx, hid⟩ := hears_staged hhears rfl
    refine resumed_of_cleared (by rw [hswitch]; simp) ?_ (hcleared (by simp))
    rw [hswitch]
    exact hreplied hx hid rfl
  | left hphase =>
    obtain ⟨hreply, hnone⟩ := h.cleared (.inl hphase)
    refine resumed_of_cleared (by rw [hswitch]; simp) ?_ ((hsame (by simp)).cleared hnone)
    rw [hswitch]
    exact hreply.append [f]
  | rejected | closed =>
    exact resumed_of_phase (by rw [hswitch]; simp) (by rw [hswitch]; simp) (by rw [hswitch]; simp)
  | released =>
    obtain ⟨m, hx, hid⟩ := hears_paused hhears rfl
    refine resumed_of_cleared (by rw [hswitch]; simp) ?_ (hcleared (by simp))
    rw [hswitch]
    exact hreplied hx hid rfl
  | ready => cases hhears
  | stopped => cases hhears

/-- A config that a switch waits for is of the mode that was asked for. -/
theorem step_config {sw : Switch} {width height fps : UInt16} (hawaiting : sw.awaitingVideo = true)
    (hopen : .closeConnection ∉ (sw.step now (.videoConfig width height fps)).2) :
    sw.requested = some (width, height, fps) ∧
      (sw.step now (.videoConfig width height fps)).1.phase = .awaitingOutput ∧
      (sw.step now (.videoConfig width height fps)).1.requestId = sw.requestId ∧
      (sw.step now (.videoConfig width height fps)).1.requested = sw.requested := by
  by_cases hmode : sw.requested = some (width, height, fps)
  · refine ⟨hmode, ?_⟩
    simp only [Switch.step, hawaiting, hmode]
    by_cases hstaged : sw.phase = .staged <;> simp [hstaged]
  · simp [Switch.step, hawaiting, hmode, Switch.fail] at hopen

theorem configure_decoder (next : HostWire.VideoConfig) :
    (s.configure now next).1.decoder = s.decoder := by
  unfold Stream.configure
  dsimp only
  split
  · split <;> rfl
  · split <;> rfl

theorem awaitingVideo_iff {sw : Switch} : sw.awaitingVideo = true ↔
    (sw.phase = .staged ∨ sw.phase = .switching) ∨ sw.phase = .awaitingOutput := by
  unfold Switch.awaitingVideo
  cases sw.phase <;> simp

/-- A `VIDEO_CONFIG`. -/
theorem Resumed.config (h : Resumed fs s) {next : HostWire.VideoConfig}
    (htype : f.header.type = .videoConfig)
    (hparse : HostWire.VideoConfig.parse (onLine f).payload = .ok next)
    (hrun : Running (s.configure now next).1) : Resumed (fs ++ [f]) (s.configure now next).1 := by
  obtain ⟨⟨hswitch, hopen, -⟩, -⟩ := configure_heard hrun
  have hdecoder : (s.configure now next).1.decoder = s.decoder := configure_decoder next
  by_cases hawaiting : s.switch.awaitingVideo = true
  · obtain ⟨hmode, hphase, hid, hrequested⟩ := step_config hawaiting hopen
    rw [← hswitch] at hphase hid hrequested
    constructor
    · intro hor
      rw [hphase] at hor
      simp at hor
    · intro _
      rcases awaitingVideo_iff.mp hawaiting with hbefore | hbefore
      · -- the first config behind the reply
        obtain ⟨hreplied, -, hnone⟩ := h.cleared hbefore
        refine ⟨fs, f, [], rfl, by rw [hid]; exact hreplied, ?_, ⟨next, hparse, ?_⟩, ?_⟩
        · simp [FramedOutbound.Frame.isVideoConfig, htype]
        · rw [hrequested]
          exact hmode
        · intro au hau
          rw [hdecoder, hnone] at hau
          cases hau
      · refine (h.configured hbefore).append [f] hid hrequested ?_
        intro au hau
        rw [hdecoder] at hau
        exact .inl hau
  · have hstill : (s.configure now next).1.switch = s.switch := by
      rw [hswitch]
      simp only [Switch.step, if_pos (Bool.eq_false_of_not_eq_true hawaiting)]
    have hnot := mt awaitingVideo_iff.mpr hawaiting
    simp only [not_or] at hnot
    exact resumed_of_phase (by rw [hstill]; exact hnot.1.1) (by rw [hstill]; exact hnot.1.2)
      (by rw [hstill]; exact hnot.2)

theorem accessUnit_media (au : HostVideo.AccessUnit) :
    (s.accessUnit au).1.config = s.config ∧
      ((s.accessUnit au).1.decoder = s.decoder ∨
        (s.config ≠ none ∧ (s.accessUnit au).1.decoder = some (s.decoder.getD [] ++ [au]))) := by
  unfold Stream.accessUnit
  split
  · exact ⟨rfl, .inl rfl⟩
  split
  · exact ⟨rfl, .inl rfl⟩
  next c hconfig =>
  split
  · exact ⟨rfl, .inl rfl⟩
  split
  · exact ⟨rfl, .inl rfl⟩
  · exact ⟨rfl, .inr ⟨by simp [hconfig], rfl⟩⟩

/-- A `VIDEO_AU`. -/
theorem Resumed.unit (h : Resumed fs s) (htype : f.header.type = .videoAu)
    (hrun : Running (s.accessUnit (unitOf f)).1) :
    Resumed (fs ++ [f]) (s.accessUnit (unitOf f)).1 := by
  have hswitch := (accessUnit_passed (unitOf f) hrun).switch
  obtain ⟨hconfig, hdecoder⟩ := accessUnit_media (s := s) (unitOf f)
  constructor
  · intro hor
    rw [hswitch] at hor
    obtain ⟨hreplied, hnone⟩ := h.cleared hor
    rw [hswitch]
    refine ⟨hreplied.append [f], hconfig.trans hnone.1, ?_⟩
    rcases hdecoder with hsame | ⟨hsome, -⟩
    · exact hsame.trans hnone.2
    · exact absurd hnone.1 hsome
  · intro hawaiting
    rw [hswitch] at hawaiting
    refine (h.configured hawaiting).append [f] (by rw [hswitch]) (by rw [hswitch]) ?_
    intro au hau
    rcases hdecoder with hsame | ⟨-, hmore⟩
    · rw [hsame] at hau
      exact .inl hau
    · rw [hmore] at hau
      rcases List.mem_append.mp hau with hau | hau
      · exact .inl hau
      · rw [List.mem_singleton] at hau
        exact .inr ⟨f, by simp, by simp [FramedOutbound.Frame.isAccessUnit, htype], hau.symm⟩

/-- The PC reads a frame. -/
theorem Resumed.read (h : Resumed fs s) (hformed : formed f = true)
    (hwithin : ∀ x ∈ signals f, x.Within s.switch.requestId.toNat)
    (hrun : Running (s.incoming now (onLine f)).1) :
    Resumed (fs ++ [f]) (s.incoming now (onLine f)).1 := by
  cases incoming_reads hformed hrun with
  | config htype hparse hincoming =>
    rw [hincoming] at hrun ⊢
    exact h.config htype hparse hrun
  | unit htype hincoming =>
    rw [hincoming] at hrun ⊢
    exact h.unit htype hrun
  | @result r e htype hpayload hhears hincoming =>
    have hsignals := signals_result htype hpayload
    rw [hincoming] at hrun ⊢
    refine h.control hhears (hwithin _ (by simp [hsignals])) (by simp) ?_ hrun
    intro n hn
    cases hstatus : r.status with
    | staged =>
      rw [hstatus] at hn
      obtain rfl := Option.some.inj hn
      refine ⟨(.qualityResult, r.requestId), ?_, rfl⟩
      simp [FramedOutbound.Frame.fenceKey, htype, hpayload, hstatus]
    | _ =>
      rw [hstatus] at hn
      cases hn
  | @paused epoch htype hpayload hincoming =>
    rw [hincoming] at hrun ⊢
    have hsignals := signals_paused htype hpayload
    refine h.control (.paused epoch.requestId epoch.streamEpoch) (hwithin _ (by simp [hsignals]))
      (by simp) ?_ hrun
    intro n hn
    obtain rfl := Option.some.inj hn
    refine ⟨(.paused, epoch.requestId), ?_, rfl⟩
    simp [FramedOutbound.Frame.fenceKey, htype, hpayload]
  | other hphase hid hrequested hmedia => exact h.keep [f] hphase hid hrequested hmedia

/-! ## Steps of the loop's own -/

/-- What the phone did not send changes neither the config nor the decoder. -/
theorem own_media {i : HostVideo.Input} (hs : s.step i = some (s', ns))
    (hframe : ∀ now f, i ≠ .frame now f) (hrun : Running s') : SameMedia s s' := by
  cases Stream.moved_of_step hs with
  | frame now f => exact absurd rfl (hframe now f)
  | opened | check | quiet | drained => exact ⟨rfl, rfl⟩
  | request now request =>
    unfold Stream.takeRequest
    split
    · exact ⟨rfl, rfl⟩
    · split <;> exact ⟨rfl, rfl⟩
  | deadline now =>
    unfold Stream.expire
    split
    · dsimp only
      split <;> exact ⟨rfl, rfl⟩
    · exact ⟨rfl, rfl⟩
  | picture now picture active due decoder =>
    unfold Stream.draw
    split
    · exact ⟨rfl, rfl⟩
    split
    · exact ⟨rfl, rfl⟩
    dsimp only
    cases active with
    | false => exact ⟨rfl, rfl⟩
    | true =>
      simp only [Stream.submit, if_true]
      split <;> exact ⟨rfl, rfl⟩
  -- the loop has ended
  | stopped now => exact absurd rfl (hrun _)
  | abort error => exact absurd rfl (hrun _)

/-- A picture that comes out leaves the switch alone, or ends the request. -/
theorem step_outputReady (sw : Switch) (now : ℕ) :
    (sw.step now .outputReady).1 = sw ∨ (sw.step now .outputReady).1.phase = .applied := by
  simp only [Switch.step]
  split
  · exact .inl rfl
  split
  · exact .inl rfl
  · exact .inr rfl

theorem Resumed.own (h : Resumed fs s) {i : HostVideo.Input} (hs : s.step i = some (s', ns))
    (hframe : ∀ now f, i ≠ .frame now f) (hrun : Running s') : Resumed fs s' := by
  have hmedia := own_media hs hframe hrun
  have hkeep (hswitch : s'.switch = s.switch) : Resumed fs s' := by
    have hkept : Resumed (fs ++ []) s' :=
      h.keep [] (by rw [hswitch]) (by rw [hswitch]) (by rw [hswitch]) hmedia
    rwa [List.append_nil] at hkept
  cases own_step hs hframe hrun with
  | passed hpassed => exact hkeep hpassed.switch
  | asked _ _ _ hswitch =>
    exact resumed_of_phase (by rw [hswitch]; simp) (by rw [hswitch]; simp) (by rw [hswitch]; simp)
  | @shown now hswitch =>
    rcases step_outputReady s.switch now with hsame | hphase
    · exact hkeep (hswitch.trans hsame)
    · rw [← hswitch] at hphase
      exact resumed_of_phase (by rw [hphase]; simp) (by rw [hphase]; simp) (by rw [hphase]; simp)

/-! ## Every run -/

section run

variable {s s' : State} {tr es : List Event}

/-- What an open session's PC has read of its request. -/
theorem resumed (h : system.Under Orderly tr s) (hopen : s.Open) : Resumed (reads tr) s.host := by
  have hinv : s.Open → Resumed (reads tr) s.host := by
    refine h.invariant (P := fun tr s => s.Open → Resumed (reads tr) s.host) ?_ ?_
    · rintro s ⟨capacity, o, startingEpoch, -, -, rfl⟩ _
      exact resumed_of_phase (by simp [Stream.init, Switch.default])
        (by simp [Stream.init, Switch.default]) (by simp [Stream.init, Switch.default])
    · intro tr s i s' es hr _ ih hs hopen'
      have hbefore := step_open hs hopen'
      have hresumed := ih hbefore
      rw [reads_append]
      cases step_host hs with
      | own hframe hhost hes =>
        rw [hes, reads_host, List.append_nil]
        exact hresumed.own hhost hframe hopen'.host
      | @read now frame rest ns hwire hhost hes =>
        obtain ⟨hkept, hagreed⟩ := refined hr hbefore
        have hincoming : (s.host.incoming now (onLine frame)).1 = s'.host :=
          congrArg Prod.fst (Stream.incoming_of_step hhost)
        have hreads : reads es = [frame] := by
          rw [hes]
          show frame :: reads _ = _
          rw [reads_host]
        rw [hreads, ← hincoming]
        refine hresumed.read ?_ ?_ (by rw [hincoming]; exact hopen'.host)
        · apply hkept.shaped.frames
          rw [hwire]
          exact List.mem_cons_self
        · intro x hx
          apply hagreed.sane.within x
          show x ∈ flow s.wire s.threads
          rw [flow, hwire, List.cons_append, List.flatMap_cons]
          exact List.mem_append_left _ (List.mem_append_left _ hx)
      | other hhost _ hreads =>
        rw [hhost, hreads, List.append_nil]
        exact hresumed
  exact hinv hopen

theorem Agreed.departed {tr : List Note} {v : Exchange} (h : Agreed tr v)
    (hphase : v.pc.phase = .awaitingOutput) : Departed tr v := by
  cases h.stage with
  | awaiting _ _ hdeparted => exact hdeparted
  | settled hidle => simp [Switch.active, Switch.busy, hphase] at hidle
  | asked hother | refused hother | held hother | cancelled hother | unstaged hother
  | staged hother | leaving hother | committing hother | doomed hother | switching hother =>
    rw [hphase] at hother
    cases hother

/-- **What a report rests on.** In an orderly session, a mode that the PC reports applied for its
request was accepted by the phone for that request, and the phone then left to start the capture.
Behind the phone's reply the PC has read a config of the mode, behind that every unit the picture
was decoded from. All that video, and what it carries, was presented to the phone's writer with
tokens of captures begun after that reply's fence. -/
theorem applied_agreed {i : Label} {width height fps : UInt16} (h : system.Under Orderly tr s)
    (hs : step s i = some (s', es)) (hopen : s'.Open)
    (happlied : .host (.acted (.reportApplied width height fps)) ∈ es) :
    Precedes (notes tr)
      (.accepted s.host.switch.requestId.toNat width.toNat height.toNat fps.toNat)
      (.left s.host.switch.requestId.toNat) ∧
    ∃ x config z reply key, reads tr = x ++ config :: z ∧ reply ∈ x ∧ reply.fenceKey = some key ∧
      key.2 = s.host.switch.requestId.toNat ∧ config.isVideoConfig = true ∧
      (∃ c, HostWire.VideoConfig.parse (onLine config).payload = .ok c ∧
        (c.width.toUInt16, c.height.toUInt16, c.fps.toUInt16) = (width, height, fps)) ∧
      (∃ now picture active due decoder, i = .host (.picture now picture active due decoder) ∧
        ∀ au ∈ picture.source, Among z au) ∧
      ∀ f ∈ config :: z, f.isVideo = true →
        Precedes (outs tr) (.fenced key) (.began f.token) ∧ f.Presented (outs tr) := by
  have hbefore := step_open hs hopen
  cases step_host hs with
  | other _ hnone => exact absurd happlied (hnone _)
  | read hwire hhost hes =>
    exfalso
    rw [hes] at happlied
    rcases List.mem_cons.mp happlied with happlied | happlied
    · cases happlied
    obtain ⟨note, hnote, heq⟩ := List.mem_map.mp happlied
    obtain rfl := Event.host.inj heq
    obtain ⟨-, -, now, picture, active, due, decoder, hinput, -⟩ := applied_picture hhost hnote
    cases hinput
  | own hframe hhost hes =>
    rw [hes] at happlied
    obtain ⟨note, hnote, heq⟩ := List.mem_map.mp happlied
    obtain rfl := Event.host.inj heq
    obtain ⟨hphase, hrequested, now, picture, active, due, decoder, rfl, hsource⟩ :=
      applied_picture hhost hnote
    obtain ⟨-, hagreed⟩ := refined h hbefore
    obtain ⟨w, v, r, hasked, hprecedes⟩ := hagreed.departed hphase
    obtain ⟨x, config, z, hreads, ⟨reply, hreply, key, hkey, hid⟩, hconfig,
      ⟨c, hc, hmode⟩, hunits⟩ :=
      (resumed h hbefore).configured hphase
    have hasked' : some (width, height, fps) = some (w, v, r) := hrequested.symm.trans hasked
    obtain ⟨rfl, hrest⟩ := Prod.mk.inj (Option.some.inj hasked')
    obtain ⟨rfl, rfl⟩ := Prod.mk.inj hrest
    refine ⟨hprecedes, x, config, z, reply, key, hreads, hreply, hkey, hid, hconfig, ⟨c, hc, ?_⟩,
      ⟨now, picture, active, due, decoder, rfl, fun au hau => hunits au (hsource au hau)⟩, ?_⟩
    · exact Option.some.inj (hmode.symm.trans hrequested)
    · intro f hf hvideo
      have hread : f ∈ reads tr := hreads ▸ List.mem_append_right x hf
      exact ⟨read_follows h hreads hreply hf hkey hvideo, read_presented h hread⟩

end run

/-- The modes that are reported. -/
def reported : Event → Option HostQuality.Tuple
  | .host (.acted (.reportApplied width height fps)) => some (width, height, fps)
  | _ => none

theorem mem_of_reported {es : List Event} {width height fps : UInt16}
    (h : (width, height, fps) ∈ es.filterMap reported) :
    .host (.acted (.reportApplied width height fps)) ∈ es := by
  obtain ⟨e, he, hreported⟩ := List.mem_filterMap.mp h
  unfold reported at hreported
  split at hreported
  · cases hreported
    exact he
  · cases hreported

/-- The pause is answered, and the phone starts the capture again. -/
def resuming : List Label :=
  asking ++ [Label.receive 0, .command ready, .begin, .outbound .uiStep,
    .outbound (.spawn (.setCodecConfig ⟨some [1], some [2]⟩ 2)), .outbound (.step 1),
    .outbound (.spawn (.sendVideoConfig 1280 720 30 4000000 2))] ++
    List.replicate 6 (Label.outbound (.step 2)) ++
    [Label.outbound (.spawn (.sendAccessUnit ⟨[3], 1000, true, false⟩ 2)), .outbound (.step 3)] ++
    writes 6 ++ pass none ++ [Label.receive 0] ++ pass none ++ [Label.receive 0]

/-- The step that shows the keyframe. -/
def shown : Label :=
  .host (.picture 0
    ⟨1280, 720, [⟨HostWire.KEYFRAME ||| HostWire.CONFIG_INCLUDED, 1000, [1, 2, 3]⟩]⟩ true false "")

theorem shown_runs : (step (system.final granted resuming) shown).isSome = true := by decide +kernel

theorem applied_agreed_shown :
    Precedes (notes (system.trace granted resuming)) (.accepted 1 1280 720 30) (.left 1) ∧
    ∃ f ∈ reads (system.trace granted resuming), f.isVideoConfig = true ∧
      ∃ key, key.2 = 1 ∧
        Precedes (outs (system.trace granted resuming)) (.fenced key) (.began f.token) ∧
        f.Presented (outs (system.trace granted resuming)) := by
  have hr : system.Under Orderly (system.trace granted resuming) (system.final granted resuming) :=
    EventSystem.under_trace resuming start_granted (by decide +kernel) (by decide +kernel)
  have hopen : ((step (system.final granted resuming) shown).get shown_runs).1.Open := by
    decide +kernel
  have hreported : (1280, 720, 30) ∈
      ((step (system.final granted resuming) shown).get shown_runs).2.filterMap reported := by
    decide +kernel
  have hid : (system.final granted resuming).host.switch.requestId = 1 := by decide +kernel
  obtain ⟨hprecedes, x, config, z, reply, key, hreads, -, -, hkey, hconfig, -, -, hbegan⟩ :=
    applied_agreed hr (Option.some_get shown_runs).symm hopen (mem_of_reported hreported)
  rw [hid] at hprecedes hkey
  refine ⟨hprecedes, config, by simp [hreads], hconfig, key, hkey, ?_⟩
  apply hbegan config List.mem_cons_self
  simp [FramedOutbound.Frame.isVideo, hconfig]

end QualityAgreement
end MobileWebcamBridge
