import Mathlib.Data.List.Induction
import MobileWebcamBridge.Phone.MainActivity
import MobileWebcamBridge.Phone.PhoneQualityController.Runs

/-!
# The camera starts on the user's word

`Consent` is what the user has asked for, as the events tell it: a Start holds for the session that
it was pressed on; a drop turns it into a wish that the approval of a later session takes up again;
a stop, a denial, a refusal or a change of the connections ends it. `camera_consent` says that the
Activity begins no capture but on an authorized session for which a Start holds. The proof is a
simulation: `Agrees` relates the two, and every handler keeps it.
-/

set_option autoImplicit false

namespace MobileWebcamBridge

open Wire QualitySwitch

namespace PhoneQualityController

variable {c : PhoneQualityController}

theorem sound_of_call (h : c.machine.Sound) (env : Environment) (k : Call) :
    (c.call env k).1.machine.Sound := by
  obtain ⟨_, nowMs, event, hmachine, -, -⟩ := call_actions c env k
  rw [hmachine]
  exact h.moves (Machine.step_moves c.machine nowMs event)

theorem waits_of_moves {m m' : Machine} {nowMs : ℤ} {e : QualitySwitch.Event}
    {actions : List Action} (hm : Machine.Moves m nowMs e m' actions)
    (hphase : m'.phase = .prepared) :
    m.phase = .prepared ∨ ∃ r, e = .prepare r ∧ r.streaming = true := by
  cases hm with
  | still | replayed | busy | refused => exact .inl hphase
  | @prepared r _ _ _ hstreaming => exact .inr ⟨r, rfl, hstreaming⟩
  | staged | committed | applied | begun | failed => cases hphase

/-- Only a request that finds the camera streaming makes the controller wait for a commit. -/
theorem waits_of_call {env : Environment} {k : Call}
    (hphase : (c.call env k).1.machine.phase = .prepared) :
    c.machine.phase = .prepared ∨ (∃ command, k = .handle command) ∧ env.streaming = true := by
  have hrun (event : QualitySwitch.Event) (hevent : ∀ r, event ≠ .prepare r)
      (hstep : (c.machine.step env.nowMillis event).1.phase = .prepared) :
      c.machine.phase = .prepared := by
    rcases waits_of_moves (Machine.step_moves c.machine env.nowMillis event) hstep with h | h
    · exact h
    · obtain ⟨r, heq, -⟩ := h
      exact absurd heq (hevent r)
  cases k with
  | handle command =>
    cases command with
    | prepare request =>
      have hmachine : (c.call env (.handle (.prepare request))).1.machine =
          (c.machine.step env.nowMillis (.prepare (env.prepare request))).1 := by
        simp only [call, handle]
        split <;> rfl
      rw [hmachine] at hphase
      rcases waits_of_moves (Machine.step_moves _ _ _) hphase with h | h
      · exact .inl h
      · obtain ⟨r, heq, hstreaming⟩ := h
        obtain rfl := QualitySwitch.Event.prepare.inj heq
        exact .inr ⟨⟨_, rfl⟩, hstreaming⟩
    | commit e =>
      by_cases hseen : (!env.foreground || !env.permissionReady) = true
      · simp only [call, commit_hidden hseen] at hphase
        exact .inl (hrun .userStop (by simp) hphase)
      · simp only [call, commit_seen hseen] at hphase
        exact .inl (hrun (.commit e.requestId e.streamEpoch) (by simp) hphase)
  | captureRequested => exact .inl (hrun .beginStagedCapture (by simp) hphase)
  | captureStarted width height fps =>
    exact .inl (hrun (.captureStarted width height fps) (by simp) hphase)
  | captureFailed => exact .inl (hrun .captureFailed (by simp) hphase)
  | tick again => exact .inl (hrun (.deadlineExceeded again) (by simp) hphase)
  | cancel => exact .inl (hrun .userStop (by simp) hphase)

theorem starts_waiting (h : c.machine.Sound) {env : Environment} {k : Call} {mode : CaptureMode}
    (hmem : .startCapture mode ∈ (c.call env k).2) : c.machine.phase = .prepared := by
  obtain ⟨c', nowMs, event, -, heffects, -⟩ := call_actions c env k
  rw [heffects] at hmem
  obtain ⟨-, w, h', f, haction⟩ := mem_execute_startCapture hmem
  exact ((Machine.step_moves c.machine nowMs event).starts h haction).1

end PhoneQualityController

namespace MainActivity

/-! ## The user's word -/

/-- What the user has asked for, and what was allowed. -/
structure Consent where
  /-- The session that a Start holds for. -/
  asked : Option ℕ
  /-- A drop has interrupted it. -/
  waiting : Bool
  /-- The sessions that were authorized. -/
  authorized : List ℕ
deriving DecidableEq, Repr

/-- One event more. -/
def Consent.after (u : Consent) : Event → Consent
  | .startPressed session => { u with asked := session }
  | .stopPressed | .permissionDenied | .modeChanged | .connectionsStopped =>
    { u with asked := none, waiting := false }
  | .stopNotified | .retried | .bound _ => { u with asked := none }
  | .refused => { u with waiting := false }
  | .dropped => { u with asked := none, waiting := u.waiting || u.asked.isSome }
  | .authorized session => { u with authorized := session :: u.authorized }
  | .resumed session => if u.waiting then { u with asked := some session, waiting := false } else u
  | .began _ => u

/-- What the user has asked for in a run. -/
def consent (tr : List Event) : Consent :=
  tr.foldl Consent.after { asked := none, waiting := false, authorized := [] }

/-- Every capture begins on the session that a Start holds for, and that was authorized. -/
def Licensed (u : Consent) : List Event → Prop
  | [] => True
  | e :: es => (∀ capture, e = .began capture →
      u.asked = some capture.session ∧ capture.session ∈ u.authorized) ∧
      Licensed (u.after e) es

theorem licensed_append {u : Consent} {es fs : List Event} :
    Licensed u (es ++ fs) ↔ Licensed u es ∧ Licensed (es.foldl Consent.after u) fs := by
  induction es generalizing u with
  | nil => simp [Licensed]
  | cons e es ih => simp [Licensed, ih, and_assoc]

/-! ## The Activity follows it -/

/-- The camera runs, is asked for, or waits for a commit. -/
def Wanted (s : MainActivity) : Prop :=
  s.cameraStartRequested = true ∨ s.cameraBridge.isSome = true ∨
    ∃ c ∈ s.qualityController, c.machine.phase = .prepared

theorem not_wanted {s : MainActivity} (hrequested : s.cameraStartRequested = false)
    (hbridge : s.cameraBridge = none)
    (hfree : ∀ c ∈ s.qualityController, c.machine.phase ≠ .prepared) : ¬ s.Wanted := by
  intro hwanted
  rcases hwanted with hrequested' | hbridge' | ⟨c, hc, hwaits⟩
  · rw [hrequested] at hrequested'
    cases hrequested'
  · rw [hbridge] at hbridge'
    cases hbridge'
  · exact hfree c hc hwaits

/-- The Activity wants the camera only as the user asked. -/
structure Agrees (u : Consent) (s : MainActivity) : Prop where
  asked : s.Wanted → u.asked = s.session
  waiting : s.resumeCaptureWhenAuthorized = true → u.waiting = true
  sound : ∀ c ∈ s.qualityController, c.machine.Sound
  granted : ∀ sid, s.isAuthorized sid = true → sid ∈ u.authorized

/-- What a handler leaves behind, and that its captures were asked for. -/
structure Follows (u : Consent) (r : MainActivity × List Event) : Prop where
  agrees : Agrees (r.2.foldl Consent.after u) r.1
  licensed : Licensed u r.2

variable {u : Consent} {s s' t : MainActivity}

theorem Agrees.follows (h : Agrees u s) : Follows u (s, []) := ⟨h, trivial⟩

theorem Follows.cons {e : Event} {r : MainActivity × List Event} (h : Follows (u.after e) r)
    (he : ∀ capture, e ≠ .began capture) : Follows u (r.1, e :: r.2) :=
  ⟨h.agrees, fun capture heq => absurd heq (he capture), h.licensed⟩

theorem follows_event {e : Event} (he : ∀ capture, e ≠ .began capture)
    (h : Agrees (u.after e) s) : Follows u (s, [e]) := h.follows.cons he

theorem Follows.append {r r' : MainActivity × List Event} (h : Follows u r)
    (h' : Follows (r.2.foldl Consent.after u) r') : Follows u (r'.1, r.2 ++ r'.2) :=
  ⟨by simpa using h'.agrees, licensed_append.mpr ⟨h.licensed, h'.licensed⟩⟩

/-- `s'` wants no more than `s`, on the same session. -/
structure Lessens (s s' : MainActivity) : Prop where
  session : s'.session = s.session
  resume : s'.resumeCaptureWhenAuthorized = s.resumeCaptureWhenAuthorized
  wanted : s'.Wanted → s.Wanted
  sound : (∀ c ∈ s.qualityController, c.machine.Sound) →
    ∀ c ∈ s'.qualityController, c.machine.Sound
  authorized : ∀ sid, s'.isAuthorized sid = true → s.isAuthorized sid = true

theorem Lessens.refl (s : MainActivity) : Lessens s s := ⟨rfl, rfl, id, id, fun _ => id⟩

theorem Lessens.trans (h : Lessens s s') (h' : Lessens s' t) : Lessens s t :=
  ⟨h'.session.trans h.session, h'.resume.trans h.resume, h.wanted ∘ h'.wanted, h'.sound ∘ h.sound,
    fun sid => h.authorized sid ∘ h'.authorized sid⟩

theorem Agrees.lessens (h : Agrees u s) (hless : Lessens s s') : Agrees u s' where
  asked hwanted := (h.asked (hless.wanted hwanted)).trans hless.session.symm
  waiting hresume := h.waiting (hless.resume ▸ hresume)
  sound := hless.sound h.sound
  granted sid hsid := h.granted sid (hless.authorized sid hsid)

/-- Where nothing is wanted, the session does not matter. -/
theorem Agrees.idle (hidle : ¬ s.Wanted)
    (hwaiting : s.resumeCaptureWhenAuthorized = true → u.waiting = true)
    (hsound : ∀ c ∈ s.qualityController, c.machine.Sound)
    (hgranted : ∀ sid, s.isAuthorized sid = true → sid ∈ u.authorized) : Agrees u s :=
  ⟨fun hwanted => absurd hwanted hidle, hwaiting, hsound, hgranted⟩

/-! ## What lessens -/

theorem closeCamera_lessens (s : MainActivity) (clearStartRequest : Bool) :
    Lessens s (s.closeCamera clearStartRequest) where
  session := rfl
  resume := rfl
  wanted := by
    intro hwanted
    rcases hwanted with hrequested | hbridge | hwaits
    · exact .inl (Bool.and_eq_true_iff.mp hrequested).1
    · cases hbridge
    · exact .inr (.inr hwaits)
  sound := id
  authorized _ := id

theorem perform_lessens (s : MainActivity) (effect : PhoneQualityController.Effect) :
    Lessens s (s.perform effect) := by
  cases effect with
  | stopCapture clearStartRequest => exact closeCamera_lessens s clearStartRequest
  | _ => exact .refl s

theorem performed_lessens (effects : List PhoneQualityController.Effect) :
    ∀ s : MainActivity, Lessens s (effects.foldl perform s) := by
  induction effects with
  | nil => exact .refl
  | cons effect effects ih => exact fun s => (perform_lessens s effect).trans (ih _)

theorem notify_lessens (s : MainActivity) (env : Environment)
    (call : PhoneQualityController.Call) (hcall : ∀ command, call ≠ .handle command) :
    Lessens s (s.notify env call) := by
  unfold notify
  split
  · exact .refl s
  · next c hc =>
    have hset : Lessens s { s with qualityController := some (c.call (env.quality s) call).1 } := by
      refine ⟨rfl, rfl, ?_, ?_, fun _ => id⟩
      · intro hwanted
        rcases hwanted with hrequested | hbridge | ⟨c', hc', hwaits⟩
        · exact .inl hrequested
        · exact .inr (.inl hbridge)
        · obtain rfl := Option.mem_some_iff.mp hc'
          rcases PhoneQualityController.waits_of_call hwaits with h | ⟨⟨command, heq⟩, -⟩
          · exact .inr (.inr ⟨c, hc, h⟩)
          · exact absurd heq (hcall command)
      · intro hsound c' hc'
        obtain rfl := Option.mem_some_iff.mp hc'
        exact PhoneQualityController.sound_of_call (hsound c hc) _ _
    exact hset.trans (performed_lessens _ _)

theorem stopCamera_lessens (s : MainActivity) (env : Environment) :
    Lessens s (s.stopCamera env) :=
  (closeCamera_lessens s true).trans (notify_lessens _ env .cancel nofun)

/-! ## What stops -/

theorem performed_idle {effects : List PhoneQualityController.Effect} {s : MainActivity}
    (h : ¬ s.Wanted) : ¬ (effects.foldl perform s).Wanted :=
  fun hwanted => h ((performed_lessens effects s).wanted hwanted)

/-- A camera that was stopped is not wanted. -/
theorem stopCamera_idle (s : MainActivity) (env : Environment) : ¬ (s.stopCamera env).Wanted := by
  unfold stopCamera notify
  split
  · next hnone =>
    refine not_wanted (by simp [closeCamera]) rfl ?_
    intro c hc
    rw [hnone] at hc
    cases hc
  · next c hc =>
    refine performed_idle (not_wanted (by simp [closeCamera]) rfl ?_)
    intro c' hc' hwaits
    obtain rfl := Option.mem_some_iff.mp hc'
    have hfree := PhoneQualityController.userStop_free c.machine
      (env.quality (s.closeCamera true)).nowMillis
    have hbusy : Phase.prepared.busy = false := hwaits ▸ hfree
    cases hbusy

theorem closeSession_idle (s : MainActivity) : ¬ s.closeSession.Wanted := by
  unfold closeSession
  cases s.session with
  | none | some sid =>
    refine not_wanted (by simp [closeCamera, endAuthorization]) rfl ?_
    intro c hc
    cases hc

theorem closeSession_controller (s : MainActivity) : s.closeSession.qualityController = none := by
  unfold closeSession
  cases s.session <;> rfl

theorem closeSession_resume (s : MainActivity) :
    s.closeSession.resumeCaptureWhenAuthorized = s.resumeCaptureWhenAuthorized := by
  unfold closeSession
  cases s.session <;> rfl

theorem endAuthorization_authorized {sid i : ℕ}
    (h : (s.endAuthorization sid).isAuthorized i = true) : s.isAuthorized i = true := by
  unfold endAuthorization isAuthorized at h
  rw [List.getElem?_set] at h
  split at h
  · split at h <;> cases h
  · exact h

theorem closeSession_authorized {i : ℕ} (h : s.closeSession.isAuthorized i = true) :
    s.isAuthorized i = true := by
  unfold closeSession at h
  cases hsession : s.session with
  | none =>
    rw [hsession] at h
    exact h
  | some sid =>
    rw [hsession] at h
    exact endAuthorization_authorized h

/-- A session that has just been made is not authorized. -/
theorem connected_authorized {i : ℕ}
    (h : ({ s with sessions := s.sessions ++ [.requested] } : MainActivity).isAuthorized i = true) :
    s.isAuthorized i = true := by
  unfold isAuthorized at h ⊢
  rw [List.getElem?_append] at h
  split at h
  · exact h
  · rw [List.getElem?_singleton] at h
    split at h <;> cases h

theorem Agrees.stopped (env : Environment) (h : Agrees u s)
    {u' : Consent} (hwaiting : s.resumeCaptureWhenAuthorized = true → u'.waiting = true)
    (hauthorized : u'.authorized = u.authorized) : Agrees u' (s.stopCamera env) := by
  have hstopped := stopCamera_lessens s env
  refine .idle (stopCamera_idle s env) ?_ (hstopped.sound h.sound) ?_
  · intro hresume
    exact hwaiting (hstopped.resume ▸ hresume)
  · rw [hauthorized]
    exact (h.lessens hstopped).granted

/-- Whatever the user has asked for, a closed session wants nothing but the resumption. -/
theorem agrees_closed (hwaiting : s.resumeCaptureWhenAuthorized = true → u.waiting = true)
    (hgranted : ∀ sid, s.isAuthorized sid = true → sid ∈ u.authorized) :
    Agrees u s.closeSession := by
  refine .idle (closeSession_idle s) ?_ ?_ ?_
  · intro hresume
    exact hwaiting (closeSession_resume s ▸ hresume)
  · intro c hc
    rw [closeSession_controller] at hc
    cases hc
  · intro sid hsid
    exact hgranted sid (closeSession_authorized hsid)

/-! ## The camera starts -/

theorem startBridge_follows (h : Agrees u s) (env : Environment) {sid : ℕ} (mode : CaptureMode)
    (hsession : s.session = some sid) (hasked : u.asked = some sid)
    (hauthorized : sid ∈ u.authorized) :
    Follows u (s.startBridge env sid mode) := by
  have hbridge : Agrees u { s with
      cameraBridge := some { id := s.bridges, session := sid }
      bridges := s.bridges + 1 } :=
    ⟨fun _ => hasked.trans hsession.symm, h.waiting, h.sound, h.granted⟩
  have hfailed := (hbridge.lessens (notify_lessens _ env .captureFailed nofun)).lessens
    (stopCamera_lessens _ env)
  have hbegan : Licensed u [.began { bridge := s.bridges, session := sid, mode }] := by
    refine ⟨?_, trivial⟩
    intro capture heq
    obtain rfl := Event.began.inj heq
    exact ⟨hasked, hauthorized⟩
  unfold startBridge
  dsimp only
  split
  · exact hfailed.follows
  split
  · exact ⟨hfailed, hbegan⟩
  · exact ⟨hbridge, hbegan⟩

theorem startCamera_follows (h : Agrees u s) (env : Environment)
    (requestedMode : Option CaptureMode) : Follows u (s.startCamera env requestedMode) := by
  have hcleared : Agrees u { s with cameraStartRequested := false } := by
    refine ⟨fun hwanted => h.asked ?_, h.waiting, h.sound, h.granted⟩
    rcases hwanted with hrequested | hwanted
    · cases hrequested
    · exact .inr hwanted
  unfold startCamera
  split
  · exact h.follows
  next hready =>
  simp only [Bool.or_eq_true, not_or, Bool.not_eq_true] at hready
  -- the start request is what makes the camera wanted, so the Start holds for this session
  have hasked := h.asked (.inl (by simpa using hready.1.1))
  split
  · exact hcleared.follows
  next sid hsession =>
  split
  · exact hcleared.follows
  next hsid =>
  have hauthorized := h.granted sid (by simpa using hsid)
  split
  · exact h.follows
  dsimp only
  have hnotified := notify_lessens s env .captureRequested nofun
  split
  · exact ((h.lessens hnotified).lessens (stopCamera_lessens _ env)).follows
  · exact startBridge_follows (h.lessens hnotified) env _ (hnotified.session.trans hsession)
      (hasked.trans hsession) hauthorized

theorem startCamera_session (s : MainActivity) (env : Environment)
    (requestedMode : Option CaptureMode) :
    (s.startCamera env requestedMode).1.session = s.session := by
  have hnotified := (notify_lessens s env .captureRequested nofun).session
  unfold startCamera startBridge
  split
  · rfl
  split
  · rfl
  split
  · rfl
  split
  · rfl
  dsimp only
  split
  · exact (stopCamera_lessens _ env).session.trans hnotified
  split
  · rw [(stopCamera_lessens _ env).session, (notify_lessens _ env .captureFailed nofun).session]
    exact hnotified
  split
  · rw [(stopCamera_lessens _ env).session, (notify_lessens _ env .captureFailed nofun).session]
    exact hnotified
  · exact hnotified

/-- A capture that begins changes nothing of what the user has asked for. -/
theorem startCamera_consent (s : MainActivity) (env : Environment)
    (requestedMode : Option CaptureMode) (u : Consent) :
    (s.startCamera env requestedMode).2.foldl Consent.after u = u := by
  unfold startCamera startBridge
  repeat' split
  all_goals rfl

/-- The effects of a command start a capture only on a session that a Start holds for. -/
theorem performAll_follows (env : Environment) {effects : List PhoneQualityController.Effect} :
    ∀ {s : MainActivity}, Agrees u s →
      ((∃ mode, .startCapture mode ∈ effects) → u.asked = s.session) →
      Follows u (performAll env s effects) := by
  induction effects with
  | nil => exact fun h _ => h.follows
  | cons effect effects ih =>
    intro s h hasked
    have hrest (hmem : ∃ mode, .startCapture mode ∈ effects) : u.asked = s.session := by
      obtain ⟨mode, hmem⟩ := hmem
      exact hasked ⟨mode, List.mem_cons_of_mem _ hmem⟩
    have hperform := perform_lessens s effect
    cases effect with
    | startCapture mode =>
      have hwanted : Agrees u { s with cameraStartRequested := true } :=
        ⟨fun _ => hasked ⟨mode, List.mem_cons_self⟩, h.waiting, h.sound, h.granted⟩
      have hstart := startCamera_follows hwanted env (some mode)
      have hconsent := startCamera_consent { s with cameraStartRequested := true } env (some mode) u
      have hagrees := hstart.agrees
      rw [hconsent] at hagrees
      have hmore := ih hagrees fun hmem =>
        (hrest hmem).trans (startCamera_session { s with cameraStartRequested := true } env _).symm
      exact hstart.append (hconsent.symm ▸ hmore)
    | _ => exact ih (h.lessens hperform) fun hmem => (hrest hmem).trans hperform.session.symm

theorem onQualityCommand_follows (h : Agrees u s) (env : Environment) (sid : ℕ)
    (command : HostCommand) : Follows u (s.onQualityCommand env sid command) := by
  unfold onQualityCommand
  split
  · exact h.follows
  split
  · exact h.follows
  next c hc =>
  have hsound := h.sound c hc
  show Follows u (performAll env
    { s with qualityController := some (c.call (env.quality s) (.handle command)).1 }
    (c.call (env.quality s) (.handle command)).2)
  -- what waits for a commit was asked for, and so was what the request found streaming
  refine performAll_follows env ⟨?_, h.waiting, ?_, h.granted⟩ ?_
  · intro hwanted
    rcases hwanted with hrequested | hbridge | ⟨c', hc', hwaits⟩
    · exact h.asked (.inl hrequested)
    · exact h.asked (.inr (.inl hbridge))
    · obtain rfl := Option.mem_some_iff.mp hc'
      rcases PhoneQualityController.waits_of_call hwaits with hphase | ⟨-, hstreaming⟩
      · exact h.asked (.inr (.inr ⟨c, hc, hphase⟩))
      · exact h.asked (.inr (.inl hstreaming))
  · intro c' hc'
    obtain rfl := Option.mem_some_iff.mp hc'
    exact PhoneQualityController.sound_of_call hsound _ _
  · intro hstarts
    obtain ⟨mode, hmem⟩ := hstarts
    exact h.asked (.inr (.inr ⟨c, hc, PhoneQualityController.starts_waiting hsound hmem⟩))

/-! ## Handlers -/

theorem endAuthorization_lessens (s : MainActivity) (sid : ℕ) :
    Lessens s (s.endAuthorization sid) :=
  ⟨rfl, rfl, id, id, fun _ => endAuthorization_authorized⟩

theorem bindQualitySession_follows {u : Consent} (hidle : ¬ s.Wanted)
    (hwaiting : s.resumeCaptureWhenAuthorized = true → u.waiting = true)
    (hgranted : ∀ sid, s.isAuthorized sid = true → sid ∈ u.authorized) (env : Environment)
    (sid : ℕ) : Follows u (s.bindQualitySession env sid) := by
  refine follows_event nofun (.idle ?_ hwaiting ?_ hgranted)
  · intro hwanted
    rcases hwanted with hrequested | hbridge | ⟨c, hc, hwaits⟩
    · exact hidle (.inl hrequested)
    · exact hidle (.inr (.inl hbridge))
    · obtain rfl := Option.mem_some_iff.mp hc
      cases hwaits
  · intro c hc
    obtain rfl := Option.mem_some_iff.mp hc
    exact Machine.sound_new env.startingEpoch

theorem openAccessory_follows (h : Agrees u s) (env : Environment) :
    Follows u (s.openAccessory env) := by
  have hclosed : Agrees u s.closeSession := agrees_closed h.waiting h.granted
  unfold openAccessory
  split
  · exact h.follows
  dsimp only
  split
  · exact hclosed.follows
  · refine bindQualitySession_follows ?_ ?_ ?_ env _
    · exact closeSession_idle s
    · exact hclosed.waiting
    · intro sid hsid
      exact hclosed.granted sid (connected_authorized hsid)

theorem discoverUsb_follows (h : Agrees u s) (env : Environment) :
    Follows u (s.discoverUsb env) := by
  unfold discoverUsb
  split
  · exact h.follows
  split
  · exact openAccessory_follows h env
  · exact h.follows

theorem startUsbMode_follows (h : Agrees u s) (env : Environment) :
    Follows u (s.startUsbMode env) := by
  unfold startUsbMode
  split
  · exact h.follows
  split
  · exact h.follows
  · refine (discoverUsb_follows ?_ env).cons nofun
    have hclosed : Agrees (u.after .modeChanged)
        (s.clearReconnect.stopCamera env).closeSession := by
      have hstopped := stopCamera_lessens s.clearReconnect env
      refine agrees_closed ?_ fun sid hsid => h.granted sid (hstopped.authorized sid hsid)
      intro hresume
      rw [hstopped.resume] at hresume
      cases hresume
    exact ⟨hclosed.asked, hclosed.waiting, hclosed.sound, hclosed.granted⟩

theorem startLanMode_follows (h : Agrees u s) (env : Environment) (keepResume : Bool) :
    Follows u (s.startLanMode env keepResume) := by
  unfold startLanMode
  split
  · exact h.follows
  split
  · exact h.follows
  refine follows_event ?_ ?_
  · cases keepResume <;> nofun
  have hclosed : Agrees (u.after (if keepResume then .retried else .modeChanged))
      (((if keepResume then s else s.clearReconnect).stopCamera env).closeSession) := by
    cases keepResume with
    | true =>
      have hstopped := stopCamera_lessens s env
      refine agrees_closed ?_ fun sid hsid => h.granted sid (hstopped.authorized sid hsid)
      intro hresume
      exact h.waiting (hstopped.resume.symm.trans hresume)
    | false =>
      have hstopped := stopCamera_lessens s.clearReconnect env
      refine agrees_closed ?_ fun sid hsid => h.granted sid (hstopped.authorized sid hsid)
      intro hresume
      cases hstopped.resume.symm.trans hresume
  exact ⟨hclosed.asked, hclosed.waiting, hclosed.sound, hclosed.granted⟩

theorem stopIntent_follows (h : Agrees u s) (env : Environment) : Follows u (s.stopIntent env) :=
  follows_event nofun (h.stopped env h.waiting rfl)

theorem stopConnections_agrees (h : Agrees u s) :
    Agrees (u.after .connectionsStopped) s.stopConnections := by
  have hclosed : Agrees (u.after .connectionsStopped) s.clearReconnect.closeSession :=
    agrees_closed nofun h.granted
  exact ⟨hclosed.asked, hclosed.waiting, hclosed.sound, hclosed.granted⟩

theorem stopConnections_follows (h : Agrees u s) :
    Follows u (s.stopConnections, [.connectionsStopped]) :=
  follows_event nofun (stopConnections_agrees h)

theorem authorizationStorageFailed_follows (h : Agrees u s) :
    Follows u (s.authorizationStorageFailed, [.connectionsStopped]) := by
  have hstopped := stopConnections_agrees h
  exact follows_event nofun ⟨hstopped.asked, hstopped.waiting, hstopped.sound, hstopped.granted⟩

theorem cameraButton_follows (h : Agrees u s) (env : Environment) :
    Follows u (s.cameraButton env) := by
  unfold cameraButton
  split
  · have hcleared : Agrees u s.clearReconnect := ⟨h.asked, nofun, h.sound, h.granted⟩
    exact follows_event nofun (hcleared.stopped env nofun rfl)
  · refine (startCamera_follows ?_ env _).cons nofun
    exact ⟨fun _ => rfl, h.waiting, h.sound, h.granted⟩

/-- A drop while the camera is wanted leaves a wish. -/
theorem waiting_of_drop (h : Agrees u s) {sid : ℕ} (hsession : s.session = some sid)
    (hdrop : s.resumeCaptureWhenAuthorized = true ∨ s.cameraBridge.isSome = true ∨
      s.cameraStartRequested = true) : (u.after .dropped).waiting = true := by
  show (u.waiting || u.asked.isSome) = true
  rw [Bool.or_eq_true]
  rcases hdrop with hresume | hcapturing
  · exact .inl (h.waiting hresume)
  · have hwanted : s.Wanted := hcapturing.elim (fun hbridge => .inr (.inl hbridge)) .inl
    rw [h.asked hwanted, hsession]
    exact .inr rfl

theorem onAuthorizationChanged_follows (h : Agrees u s) (env : Environment) (sid : ℕ) :
    Follows u (s.onAuthorizationChanged env sid) := by
  unfold onAuthorizationChanged
  split
  · exact h.follows
  next hsession =>
  have hsession : s.session = some sid := not_not.mp hsession
  split
  · split
    · next hresume =>
      refine (startCamera_follows ?_ env _).cons nofun
      have hresumed : u.after (.resumed sid) = { u with asked := some sid, waiting := false } := by
        simp [Consent.after, h.waiting hresume]
      rw [hresumed]
      exact ⟨fun _ => hsession.symm, nofun, h.sound, h.granted⟩
    · exact h.follows
  · have hstopped := stopCamera_lessens { s with
      resumeCaptureWhenAuthorized :=
        s.resumeCaptureWhenAuthorized || (s.cameraBridge.isSome || s.cameraStartRequested) } env
    refine follows_event nofun (.idle (stopCamera_idle _ env) ?_ (hstopped.sound h.sound)
      fun sid hsid => h.granted sid (hstopped.authorized sid hsid))
    intro hresume
    have hnoted := hstopped.resume.symm.trans hresume
    simp only [Bool.or_eq_true] at hnoted
    exact waiting_of_drop h hsession hnoted

theorem noteUnexpectedDrop_waiting (h : Agrees u s) {sid : ℕ} (hsession : s.session = some sid)
    (hresume : (s.noteUnexpectedDrop true).resumeCaptureWhenAuthorized = true) :
    (u.after .dropped).waiting = true := by
  refine waiting_of_drop h hsession ?_
  unfold noteUnexpectedDrop at hresume
  dsimp only at hresume
  split at hresume
  · next hcapturing =>
    simp only [Bool.and_true, Bool.or_eq_true] at hcapturing
    exact .inr hcapturing
  · exact .inl hresume

theorem noteUnexpectedDrop_keeps (h : Agrees u s) (shouldResume : Bool) :
    (∀ c ∈ (s.noteUnexpectedDrop shouldResume).qualityController, c.machine.Sound) ∧
      ∀ sid, (s.noteUnexpectedDrop shouldResume).isAuthorized sid = true → sid ∈ u.authorized := by
  unfold noteUnexpectedDrop
  dsimp only
  split
  · exact ⟨h.sound, h.granted⟩
  split
  · exact ⟨h.sound, h.granted⟩
  · exact ⟨h.sound, h.granted⟩

theorem onUsbError_follows (h : Agrees u s) (sid : ℕ) (shouldResume : Bool) :
    Follows u (s.onUsbError sid shouldResume) := by
  unfold onUsbError
  split
  · exact h.follows
  next hsession =>
  have hsession : s.session = some sid := not_not.mp hsession
  cases shouldResume with
  | false =>
    have hclosed : Agrees (u.after .refused)
        ({ s with resumeCaptureWhenAuthorized := false } : MainActivity).closeSession :=
      agrees_closed nofun h.granted
    exact follows_event nofun hclosed
  | true =>
    refine follows_event nofun (agrees_closed (noteUnexpectedDrop_waiting h hsession) ?_)
    exact (noteUnexpectedDrop_keeps h true).2

theorem onLanSession_follows (h : Agrees u s) (env : Environment) (server sid : ℕ)
    (connected isActive : Bool) :
    Follows u (s.onLanSession env server sid connected isActive) := by
  unfold onLanSession
  split
  · split
    · exact (h.lessens (endAuthorization_lessens s sid)).follows
    · exact h.follows
  split
  · split
    · next hsession =>
      have hstopped := stopCamera_lessens (s.noteUnexpectedDrop true) env
      obtain ⟨hsound, hgranted⟩ := noteUnexpectedDrop_keeps h true
      refine follows_event nofun (.idle ?_ ?_ (hstopped.sound hsound) ?_)
      · exact stopCamera_idle (s.noteUnexpectedDrop true) env
      · exact fun hresume =>
          noteUnexpectedDrop_waiting h hsession (hstopped.resume.symm.trans hresume)
      · exact fun sid hsid => hgranted sid (hstopped.authorized sid hsid)
    · exact h.follows
  split
  · exact bindQualitySession_follows (closeSession_idle s)
      (fun hresume => h.waiting (closeSession_resume s ▸ hresume))
      (fun sid hsid => h.granted sid (closeSession_authorized hsid)) env sid
  · exact h.follows

theorem onLanError_follows (h : Agrees u s) (server : ℕ) (shouldResume : Bool) :
    Follows u (s.onLanError server shouldResume) := by
  unfold onLanError
  split
  · exact h.follows
  · exact follows_event nofun ⟨h.asked, nofun, h.sound, h.granted⟩

theorem onRequestPermissionsResult_follows (h : Agrees u s) (env : Environment) (granted : Bool) :
    Follows u (s.onRequestPermissionsResult env granted) := by
  unfold onRequestPermissionsResult
  split
  · exact h.follows
  split
  · exact startCamera_follows h env _
  · have hcleared : Agrees u s.clearReconnect := ⟨h.asked, nofun, h.sound, h.granted⟩
    exact follows_event nofun (hcleared.stopped env nofun rfl)

theorem onResume_follows (h : Agrees u s) (env : Environment) (stop : Bool) :
    Follows u (s.onResume env stop) := by
  have hfront : Agrees u { s with foreground := true } := ⟨h.asked, h.waiting, h.sound, h.granted⟩
  unfold onResume
  dsimp only
  split
  · exact stopIntent_follows hfront env
  split
  · have hstart := startCamera_follows hfront env (stagedMode { s with foreground := true })
    exact hstart.append (discoverUsb_follows hstart.agrees env)
  · exact discoverUsb_follows hfront env

theorem resetStorage_follows (h : Agrees u s) (env : Environment) :
    Follows u (s.resetStorage env) := by
  have howned : Agrees u { s with authorizationOwner := true } :=
    ⟨h.asked, h.waiting, h.sound, h.granted⟩
  unfold resetStorage
  split
  · exact h.follows
  split
  · exact authorizationStorageFailed_follows h
  dsimp only
  split
  · exact startLanMode_follows howned env false
  · exact startUsbMode_follows howned env

theorem handle_follows (h : Agrees u s) (env : Environment) (call : Call) :
    Follows u (s.handle env call) := by
  have hclosed : Agrees u { s with lanServer := none } := ⟨h.asked, h.waiting, h.sound, h.granted⟩
  cases call with
  | cameraButton => exact cameraButton_follows h env
  | usbButton => exact startUsbMode_follows h env
  | lanButton => exact startLanMode_follows h env false
  | retryConnection =>
    dsimp only [handle]
    split
    · exact discoverUsb_follows h env
    · exact startLanMode_follows hclosed env true
  | resume stop => exact onResume_follows h env stop
  | pause => exact Agrees.follows ⟨h.asked, h.waiting, h.sound, h.granted⟩
  | newIntent stop attached =>
    dsimp only [handle]
    split
    · exact stopIntent_follows h env
    split
    · exact discoverUsb_follows h env
    · exact h.follows
  | permissionResult granted => exact onRequestPermissionsResult_follows h env granted
  | rediscover => exact discoverUsb_follows h env
  | usbPermission =>
    dsimp only [handle]
    split
    · exact openAccessory_follows h env
    · exact h.follows
  | usbError sid shouldResume => exact onUsbError_follows h sid shouldResume
  | lanSession server sid connected isActive =>
    exact onLanSession_follows h env server sid connected isActive
  | lanError server shouldResume => exact onLanError_follows h server shouldResume
  | authorizationChanged sid => exact onAuthorizationChanged_follows h env sid
  | qualityCommand sid command => exact onQualityCommand_follows h env sid command
  | qualityDeadline again => exact (h.lessens (notify_lessens s env (.tick again) nofun)).follows
  | cameraStarted bridge width height fps =>
    dsimp only [handle]
    split
    · exact (h.lessens (notify_lessens s env (.captureStarted width height fps) nofun)).follows
    · exact h.follows
  | cameraError bridge =>
    dsimp only [handle]
    split
    · have hfailed := h.lessens (notify_lessens s env .captureFailed nofun)
      exact (hfailed.lessens (stopCamera_lessens _ env)).follows
    · exact h.follows
  | storageFailed | destroy => exact authorizationStorageFailed_follows h
  | resetStorage => exact resetStorage_follows h env
  | rotateKey => exact startLanMode_follows hclosed env false
  | approvalFailed => exact stopConnections_follows h

theorem step_follows (h : Agrees u s) {i : Label} {es : List Event}
    (hs : s.step i = some (s', es)) : Follows u (s', es) := by
  cases i with
  | handle env call =>
    rw [← Option.some.inj hs]
    exact handle_follows h env call
  | connect =>
    obtain ⟨rfl, rfl⟩ := Prod.mk.inj (Option.some.inj hs)
    refine Agrees.follows ⟨h.asked, h.waiting, h.sound, ?_⟩
    intro sid hsid
    exact h.granted sid (connected_authorized hsid)
  | authorize sid =>
    dsimp only [step] at hs
    split at hs
    · obtain ⟨rfl, rfl⟩ := Prod.mk.inj (Option.some.inj hs)
      refine follows_event nofun ⟨h.asked, h.waiting, h.sound, ?_⟩
      intro i hi
      by_cases heq : sid = i
      · exact heq ▸ List.mem_cons_self
      · refine List.mem_cons_of_mem _ (h.granted i ?_)
        unfold isAuthorized at hi ⊢
        rwa [List.getElem?_set_ne heq] at hi
    · cases hs
  | endAuthorization sid =>
    obtain ⟨rfl, rfl⟩ := Prod.mk.inj (Option.some.inj hs)
    exact (h.lessens (endAuthorization_lessens s sid)).follows
  | teardown =>
    obtain ⟨rfl, rfl⟩ := Prod.mk.inj (Option.some.inj hs)
    refine Agrees.follows ⟨?_, h.waiting, h.sound, h.granted⟩
    intro hwanted
    rcases hwanted with hrequested | hbridge | hwaits
    · exact h.asked (.inl hrequested)
    · cases hbridge
    · exact h.asked (.inr (.inr hwaits))

/-! ## What the user's word rests on -/

/-- What takes a Start back, whatever came between. -/
def Event.withdraws : Event → Bool
  | .stopPressed | .permissionDenied | .modeChanged | .connectionsStopped => true
  | _ => false

/-- What ends a Start on its session, though the approval of a later one may take it up again. -/
def Event.interrupts : Event → Bool
  | .stopNotified | .retried | .bound _ | .dropped => true
  | _ => false

/-- A Start on session `sid` that was never taken back, with all that came after it. -/
def Stands (tr : List Event) (sid : ℕ) (since : List Event) : Prop :=
  ∃ before, tr = before ++ Event.startPressed (some sid) :: since ∧ ∀ e ∈ since, e.withdraws = false

variable {tr since : List Event}

theorem Stands.extend {sid : ℕ} {e : Event} (h : Stands tr sid since) (he : e.withdraws = false) :
    Stands (tr ++ [e]) sid (since ++ [e]) := by
  obtain ⟨before, rfl, hsince⟩ := h
  refine ⟨before, by simp, ?_⟩
  intro e' he'
  rcases List.mem_append.mp he' with hmem | hmem
  · exact hsince e' hmem
  · rw [List.mem_singleton.mp hmem]
    exact he

/-- Why a Start holds for session `sid`: it was pressed on it, or a drop came between and the
approval of `sid` took it up again. -/
def Holds (tr : List Event) (sid : ℕ) : Prop :=
  ∃ pressed since, Stands tr pressed since ∧
    (pressed = sid ∧ (∀ e ∈ since, e.interrupts = false) ∨
      .dropped ∈ since ∧ .resumed sid ∈ since)

/-- Every Start that holds was pressed, and nothing has ended it. -/
structure Backed (tr : List Event) : Prop where
  asked : ∀ sid, (consent tr).asked = some sid → Holds tr sid
  waiting : (consent tr).waiting = true → ∃ pressed since, Stands tr pressed since ∧
    .dropped ∈ since
  authorized : ∀ sid ∈ (consent tr).authorized, .authorized sid ∈ tr

theorem consent_snoc (tr : List Event) (e : Event) :
    consent (tr ++ [e]) = (consent tr).after e := by
  simp [consent]

theorem Holds.extend {sid : ℕ} {e : Event} (h : Holds tr sid) (he : e.withdraws = false)
    (hgoes : e.interrupts = false) : Holds (tr ++ [e]) sid := by
  obtain ⟨pressed, since, hstands, hwhy⟩ := h
  refine ⟨pressed, since ++ [e], hstands.extend he, ?_⟩
  rcases hwhy with ⟨hpressed, hwhole⟩ | ⟨hdropped, hresumed⟩
  · refine .inl ⟨hpressed, ?_⟩
    intro e' he'
    rcases List.mem_append.mp he' with hmem | hmem
    · exact hwhole e' hmem
    · rw [List.mem_singleton.mp hmem]
      exact hgoes
  · exact .inr ⟨List.mem_append_left _ hdropped, List.mem_append_left _ hresumed⟩

theorem Backed.extend {e : Event} (h : Backed tr) : Backed (tr ++ [e]) := by
  have kwaiting (he : e.withdraws = false) (hwaiting : (consent tr).waiting = true) :
      ∃ pressed since, Stands (tr ++ [e]) pressed since ∧ .dropped ∈ since := by
    obtain ⟨pressed, since, hstands, hdropped⟩ := h.waiting hwaiting
    exact ⟨pressed, since ++ [e], hstands.extend he, List.mem_append_left _ hdropped⟩
  constructor
  · intro sid hasked
    rw [consent_snoc] at hasked
    cases e with
    | startPressed session =>
      obtain rfl : session = some sid := hasked
      exact ⟨sid, [], ⟨tr, rfl, nofun⟩, .inl ⟨rfl, nofun⟩⟩
    | refused | authorized | began => exact (h.asked sid hasked).extend rfl rfl
    | resumed session =>
      simp only [Consent.after] at hasked
      split at hasked
      · next hwaiting =>
        obtain rfl := Option.some.inj hasked
        obtain ⟨pressed, since, hstands, hdropped⟩ := h.waiting hwaiting
        exact ⟨pressed, since ++ [Event.resumed session], hstands.extend rfl,
          .inr ⟨List.mem_append_left _ hdropped, List.mem_append_right _ List.mem_cons_self⟩⟩
      · exact (h.asked sid hasked).extend rfl rfl
    | _ => cases hasked
  · intro hwaiting
    rw [consent_snoc] at hwaiting
    cases e with
    | startPressed | stopNotified | retried | bound | authorized | began =>
      exact kwaiting rfl hwaiting
    | dropped =>
      rcases (Bool.or_eq_true _ _).mp hwaiting with hbefore | hsome
      · exact kwaiting rfl hbefore
      · obtain ⟨sid, hasked⟩ := Option.isSome_iff_exists.mp hsome
        obtain ⟨pressed, since, hstands, -⟩ := h.asked sid hasked
        exact ⟨pressed, since ++ [Event.dropped], hstands.extend rfl,
          List.mem_append_right _ List.mem_cons_self⟩
    | resumed session =>
      simp only [Consent.after] at hwaiting
      split at hwaiting
      · cases hwaiting
      · exact kwaiting rfl hwaiting
    | _ => cases hwaiting
  · -- no event takes an authorization out of the history
    intro sid hsid
    rw [consent_snoc] at hsid
    have kold (hold : sid ∈ (consent tr).authorized) : .authorized sid ∈ tr ++ [e] :=
      List.mem_append_left _ (h.authorized sid hold)
    cases e with
    | authorized session =>
      rcases List.mem_cons.mp hsid with heq | hold
      · exact heq ▸ List.mem_append_right _ List.mem_cons_self
      · exact kold hold
    | resumed session =>
      simp only [Consent.after] at hsid
      split at hsid
      · exact kold hsid
      · exact kold hsid
    | _ => exact kold hsid

theorem backed (tr : List Event) : Backed tr := by
  induction tr using List.reverseRecOn with
  | nil => exact ⟨nofun, nofun, by simp [consent]⟩
  | append_singleton tr e ih => exact ih.extend

/-! ## Every run -/

theorem agrees_created (connectionMode : ConnectionMode) :
    Agrees (consent []) (created connectionMode) := by
  have hnone : ∀ c ∈ (created connectionMode).qualityController, False := by
    intro c hc
    cases hc
  refine .idle (not_wanted rfl rfl fun c hc => (hnone c hc).elim) nofun
    (fun c hc => (hnone c hc).elim) ?_
  simp [isAuthorized, created]

/-- What the handlers keep, every run keeps. -/
theorem licensed (h : system.Reaches tr s) : Agrees (consent tr) s ∧ Licensed (consent []) tr := by
  induction h with
  | start h0 =>
    obtain ⟨connectionMode, rfl⟩ := h0
    exact ⟨agrees_created connectionMode, trivial⟩
  | @step tr s s' i es _ _ hs ih =>
    have hfollows := step_follows ih.1 hs
    refine ⟨?_, licensed_append.mpr ⟨ih.2, hfollows.licensed⟩⟩
    have hagrees := hfollows.agrees
    rwa [consent, ← List.foldl_append] at hagrees

/-- **The camera starts on the user's word.** In every run, a capture begins on the session that a
Start holds for: it was pressed on that session, or on one before it that dropped, so that the
approval of this one took it up again; and no stop by the button, no denial and no change of the
connections has come since. And that session was authorized. -/
theorem camera_consent {before after : List Event} {capture : Capture}
    (h : system.Reaches (before ++ .began capture :: after) s) :
    (consent before).asked = some capture.session ∧ Holds before capture.session ∧
      .authorized capture.session ∈ before := by
  have hlicensed := (licensed_append.mp (licensed h).2).2
  obtain ⟨hasked, hauthorized⟩ := hlicensed.1 capture rfl
  have hbacked := backed before
  exact ⟨hasked, hbacked.asked _ hasked, hbacked.authorized _ hauthorized⟩

/-- The mode of the run. -/
def camera : CaptureMode :=
  { cameraId := "0", codecName := "avc", width := 1280, height := 720, targetFps := 30
    bitrate := 4000000 }

/-- The cable is in, and everything the phone is asked for works. -/
def plugged : Environment where
  revision := 1
  modes := [camera]
  deviceModes := [camera]
  nowMillis := 0
  permission := true
  published := some [camera]
  preferred := 0
  permitted := true
  starts := true
  startingEpoch := 0
  accessory := true
  permissionRequested := false
  reading := false
  stops := true
  opens := true
  serverStarts := true
  clears := true
  creates := true

/-- The PC is approved, Start is pressed, the cable drops out, and the PC is approved again. -/
def reconnected : List Label :=
  [.handle plugged (.resume false), .authorize 0, .handle plugged (.authorizationChanged 0),
    .handle plugged .cameraButton, .handle plugged (.usbError 0 true),
    .handle plugged .rediscover, .authorize 1, .handle plugged (.authorizationChanged 1)]

/-- What such a run emits before its second capture. -/
def reconnecting : List Event :=
  [.bound 0, .authorized 0, .startPressed (some 0), .began ⟨0, 0, camera⟩, .dropped, .bound 1,
    .authorized 1, .resumed 1]

theorem camera_consent_reconnected :
    (consent reconnecting).asked = some 1 ∧ Holds reconnecting 1 ∧
      .authorized 1 ∈ reconnecting := by
  have htrace : system.trace (created .usb) reconnected =
      reconnecting ++ Event.began ⟨1, 1, camera⟩ :: [] := by decide +kernel
  have hr := EventSystem.reaches_trace (M := system) reconnected ⟨.usb, rfl⟩ (by decide +kernel)
  rw [htrace] at hr
  exact camera_consent hr

end MainActivity
end MobileWebcamBridge
