import MobileWebcamBridge.Host.Redial
import MobileWebcamBridge.Lib.Trace

/-!
# After a refusal

The phone's refusals are texts that the loop takes for failures another attempt may get over, so
that a refused PC dials again. It stays quiet when the budget of attempts is spent.
-/

set_option autoImplicit false

namespace MobileWebcamBridge
namespace HostRedial

open HostSession (State)

/-! ## The texts of a refusal -/

/-- The texts of `reason_text`. -/
def refusalTexts : List String :=
  ["this PC is not known to the phone", "this PC's access was revoked on the phone",
    "this PC's authorization expired on the phone", "the phone already authorizes too many PCs",
    "the phone rejected this PC's signature", "the phone rejected this PC"]

/-- The phrases that the loop looks for in a message in lower case. -/
def phrases : List String :=
  HOPELESS ++ ["unplug", "selected usb device disconnected", "physical port"]

/-- The phrases that are looked for in a message as it is. -/
def exactPhrases : List String :=
  ["incomplete frame deadline expired", "explicit recovery required"]

/-- Every reason has one of the six texts. -/
theorem reasonText_mem (reason : UInt8) : HostAuth.reasonText reason ∈ refusalTexts := by
  unfold HostAuth.reasonText refusalTexts
  split_ifs <;> simp

/-- None of the six texts has a phrase that the loop looks for. -/
theorem refusalTexts_plain :
    (refusalTexts.map String.toList).all fun text =>
      (phrases.map String.toList).all (fun phrase =>
        !Text.contains phrase (text.map Char.toLower)) &&
        (exactPhrases.map String.toList).all (fun phrase => !Text.contains phrase text) &&
          text.all (fun c => decide (c.toNat < 128)) && decide (text.length ≤ 2048) := by
  simp only [refusalTexts, phrases, exactPhrases, HOPELESS, List.map_cons, List.map_nil,
    List.cons_append, List.nil_append, String.reduceToList]
  decide

section

variable {L : Lowercase} {reason : UInt8} {phrase : String}

/-- So for the text of every reason. -/
theorem reasonText_plain (reason : UInt8) :
    (∀ phrase ∈ phrases, Text.contains phrase.toList
      ((HostAuth.reasonText reason).toList.map Char.toLower) = false) ∧
    (∀ phrase ∈ exactPhrases,
      Text.contains phrase.toList (HostAuth.reasonText reason).toList = false) ∧
    (∀ c ∈ (HostAuth.reasonText reason).toList, c.toNat < 128) ∧
    (HostAuth.reasonText reason).toList.length ≤ 2048 := by
  have hplain :=
    List.all_eq_true.mp refusalTexts_plain _ (List.mem_map_of_mem (reasonText_mem reason))
  simp only [Bool.and_eq_true, List.all_eq_true, List.forall_mem_map, Bool.not_eq_true',
    decide_eq_true_iff] at hplain
  exact ⟨hplain.1.1.1, hplain.1.1.2, hplain.1.2, hplain.2⟩

/-- The text of a refusal reaches the session as it is. -/
theorem refusal_eq (reason : UInt8) : refusal reason = HostAuth.reasonText reason := by
  obtain ⟨-, hexact, -, hshort⟩ := reasonText_plain reason
  have hreplace := Text.replace_of_not_contains
    (hexact "incomplete frame deadline expired" List.mem_cons_self)
    "incomplete AMB1 frame deadline expired".toList
  rw [refusal, describeReceiveFailure, hreplace, List.take_of_length_le hshort,
    String.ofList_toList]

/-- Whatever the lower case, the phrases do not occur. -/
theorem refusal_lowercase (L : Lowercase) (hphrase : phrase ∈ phrases) :
    Text.contains phrase.toList (L.toLowercase (refusal reason).toList) = false := by
  obtain ⟨hlower, -, hascii, -⟩ := reasonText_plain reason
  rw [refusal_eq, L.ascii _ hascii]
  exact hlower phrase hphrase

/-- The worker's error event is the state of a session that is not stopping. -/
theorem handle_refusal (aspectError : HostQuality.Mode → ℚ) {s : HostSession.Session} (now : ℕ)
    (h : s.state ≠ .stopping) :
    (s.handle aspectError now false (.error (refusal reason))).1.state =
      .failed (refusal reason) := by
  rw [HostSession.Session.handle, if_neg nofun, if_neg]
  · rfl
  · rintro (hstopping | hfinished)
    · exact h hstopping
    · cases hfinished

/-- A refusal counts as a failure that another attempt may get over. -/
theorem autoRetryIsUseful_refusal (L : Lowercase) :
    autoRetryIsUseful L (refusal reason) = true := by
  have hnone : (HOPELESS.any fun needle =>
      Text.contains needle.toList (L.toLowercase (refusal reason).toList)) = false := by
    apply List.any_eq_false.mpr
    intro needle hneedle
    rw [refusal_lowercase L (List.mem_append_left _ hneedle)]
    exact Bool.false_ne_true
  rw [autoRetryIsUseful, hnone]
  rfl

/-- A refusal does not ask for the cable. -/
theorem wantsReplug_refusal (L : Lowercase) : wantsReplug L (refusal reason) = false := by
  have hlast {phrase : String}
      (h : phrase ∈ ["unplug", "selected usb device disconnected", "physical port"]) :
      Text.contains phrase.toList (L.toLowercase (refusal reason).toList) = false :=
    refusal_lowercase L (List.mem_append_right HOPELESS h)
  rw [wantsReplug, hlast (by simp), hlast (by simp), hlast (by simp)]
  rfl

/-- No button to replace the key is shown for a refusal. -/
theorem not_recovery_refusal :
    Text.contains "explicit recovery required".toList (refusal reason).toList = false := by
  rw [refusal_eq]
  exact (reasonText_plain reason).2.1 _ (List.mem_cons_of_mem _ List.mem_cons_self)

end

/-! ## What is claimed of a run -/

/-- After a refusal there is no automatic dial before the user presses Connect or switches the
transport. -/
def Terminal (tr : List Event) : Prop :=
  ∀ x reason y z, tr = x ++ Event.refused reason :: (y ++ Event.dialled :: z) →
    .connectPressed ∈ y ∨ .transportSwitched ∈ y

/-- Whether a refusal stands without a press since. -/
def afterEvent (blocked : Bool) : Event → Bool
  | .refused _ => true
  | .dialled => blocked
  | .connectPressed | .transportSwitched => false

/-- Whether the last of the refusals and of the user's acts is a refusal. -/
def blocked (tr : List Event) : Bool := tr.foldl afterEvent false

theorem blocked_append (x y : List Event) : blocked (x ++ y) = y.foldl afterEvent (blocked x) :=
  List.foldl_append

/-- A run without a dial while it is blocked. -/
def Obeys (tr : List Event) : Prop :=
  Trace.Each (fun x e => e = .dialled → blocked x = false) tr

/-- A refusal stands until a press. -/
theorem foldl_afterEvent {y : List Event} (hconnect : .connectPressed ∉ y)
    (hswitch : .transportSwitched ∉ y) : y.foldl afterEvent true = true := by
  induction y with
  | nil => rfl
  | cons e y ih =>
    have hhead : afterEvent true e = true := by
      cases e with
      | refused reason => rfl
      | dialled => rfl
      | connectPressed => exact absurd List.mem_cons_self hconnect
      | transportSwitched => exact absurd List.mem_cons_self hswitch
    rw [List.foldl_cons, hhead]
    exact ih (mt (List.mem_cons_of_mem _) hconnect) (mt (List.mem_cons_of_mem _) hswitch)

/-- A run that obeys treats refusals as final. -/
theorem Obeys.terminal {tr : List Event} (h : Obeys tr) : Terminal tr := by
  intro x reason y z htr
  by_contra hnone
  obtain ⟨hconnect, hswitch⟩ := not_or.mp hnone
  have hfree := h (x ++ Event.refused reason :: y) .dialled z (by rw [htr]; simp) rfl
  rw [blocked_append, List.foldl_cons] at hfree
  have hblocked : y.foldl afterEvent (afterEvent (blocked x) (.refused reason)) = true :=
    foldl_afterEvent hconnect hswitch
  rw [hblocked] at hfree
  cases hfree

/-! ## The condition -/

/-- Nothing is planned for the next failure: the user has stopped the retries, or the attempts are
spent and the phone, on USB, is there. -/
def App.Spent (a : App) : Prop :=
  a.autoRetrySuppressed = true ∨
    (AUTO_RETRY_LIMIT ≤ a.autoRetries ∧ ¬(a.transport = .usb ∧ a.absent = true))

/-- Whether the loop plans for the failure it is in. -/
def App.plans (a : App) : Bool := a.autoAttemptPending || a.recoverFromDrop

/-- The plan for a refusal is made when nothing is left to plan, and when a refusal arrives neither
a switch to Wi-Fi nor the wait for a device is left over. -/
def Meets (_ : List Event) (g : Gui) : Label → Prop
  | .observe _ =>
    ∀ reason, g.app.session.state = .failed (refusal reason) → g.app.plans = true → g.app.Spent
  | .poll (.refused _ running) =>
    g.app.pendingSwitchToLan = false ∧ (g.app.usbWaitForDevice = false ∨ running = true)
  | _ => True

/-! ## What the steps keep -/

/-- The window has a session that is up. -/
def App.isLive (a : App) : Bool := a.session.running && live a.session.state

/-- What holds between the steps of a frame. -/
structure Sound (g : Gui) : Prop where
  attempted : g.phase = .poll ∨ g.phase = .rest → g.app.autoConnectAttempted = true
  plans : g.app.isLive = true → g.app.plans = true
  timer : g.app.isLive = true → g.phase = .observe ∨ g.app.autoRetry = none

/-- What a call of `auto_connect` does: nothing while a worker runs, and else a dial or none. -/
inductive App.Connects (a : App) : App × List Event → Prop
  | running : a.session.running = true → Connects a (a, [])
  | waits (a' : App) : a.session.running = false → a'.session = a.session →
      a'.autoConnectAttempted = a.autoConnectAttempted → Connects a (a', [])
  | dials (a' : App) : a.session.running = false → a'.plans = true →
      (a'.isLive = true → a'.autoRetry = none) →
      a'.autoConnectAttempted = a.autoConnectAttempted → Connects a (a', [.dialled])

/-- A dial connects. -/
theorem App.dial_connects (o : Outside) {a b : App} (h : a.session.running = false)
    (hattempted : b.autoConnectAttempted = a.autoConnectAttempted) : a.Connects (b.dial o) := by
  apply App.Connects.dials
  · exact h
  · rfl
  · intro hlive
    cases herror : o.error with
    | none => rw [if_pos rfl]
    | some error =>
      rw [herror] at hlive
      cases hlive
  · exact hattempted

/-- `auto_connect` connects or does nothing. -/
theorem App.autoConnect_connects (o : Outside) (a : App) : a.Connects (a.autoConnect o) := by
  unfold App.autoConnect
  by_cases hrunning : a.session.running = true
  · rw [if_pos hrunning]
    exact .running hrunning
  rw [if_neg hrunning]
  rw [Bool.not_eq_true] at hrunning
  cases a.transport with
  | usb =>
    dsimp only
    split
    · exact .waits _ hrunning rfl rfl
    split
    · exact .waits _ hrunning rfl rfl
    · exact App.dial_connects o hrunning rfl
  | lan =>
    dsimp only
    split
    · exact App.dial_connects o hrunning rfl
    · exact .waits _ hrunning rfl rfl

/-- A session that is up has its plan, and no timer. -/
theorem App.Connects.keeps {a : App} {p : App × List Event} (h : a.Connects p)
    (hplans : a.isLive = true → a.plans = true) (htimer : a.isLive = true → a.autoRetry = none) :
    (p.1.isLive = true → p.1.plans = true) ∧ (p.1.isLive = true → p.1.autoRetry = none) := by
  cases h with
  | running _ => exact ⟨hplans, htimer⟩
  | waits a' hrunning hsession _ =>
    have hnot : ¬a'.isLive = true := by
      rw [App.isLive, hsession, hrunning]
      exact Bool.false_ne_true
    exact ⟨fun hlive => absurd hlive hnot, fun hlive => absurd hlive hnot⟩
  | dials a' _ hplans' htimer' _ => exact ⟨fun _ => hplans', htimer'⟩

/-- The first attempt is not made again. -/
theorem App.Connects.attempted {a : App} {p : App × List Event} (h : a.Connects p) :
    p.1.autoConnectAttempted = a.autoConnectAttempted := by
  cases h with
  | running _ => rfl
  | waits a' _ _ hattempted => exact hattempted
  | dials a' _ _ _ hattempted => exact hattempted

theorem App.armRetry_session (L : Lowercase) (now : ℕ) (error : String) (a : App) :
    (a.armRetry L now error).session = a.session := by
  unfold App.armRetry
  split <;> rfl

theorem App.observe_session (L : Lowercase) (now : ℕ) (a : App) :
    (a.observe L now).session = a.session := by
  unfold App.observe
  split
  any_goals rfl
  split
  · exact App.armRetry_session ..
  · rfl

/-- While a session is up its failure is still to be planned for. -/
theorem App.observe_live (L : Lowercase) (now : ℕ) {a : App} (h : a.isLive = true) :
    (a.observe L now).plans = true ∧ (a.observe L now).autoRetry = none := by
  have hlive : live a.session.state = true := (Bool.and_eq_true_iff.mp h).2
  unfold App.observe App.plans
  cases hstate : a.session.state with
  | connecting => exact ⟨Bool.or_true _, rfl⟩
  | approvalPending clientId => exact ⟨Bool.or_true _, rfl⟩
  | waiting => exact ⟨Bool.or_true _, rfl⟩
  | streaming => exact ⟨Bool.or_true _, rfl⟩
  | idle =>
    rw [hstate] at hlive
    cases hlive
  | stopping =>
    rw [hstate] at hlive
    cases hlive
  | failed message =>
    rw [hstate] at hlive
    cases hlive

/-- A list of devices changes the selection only. -/
theorem App.reconcileSelection_eq (list : List Candidate) (a : App) :
    ∃ selected lost,
      a.reconcileSelection list = { a with selected := selected, selectionLost := lost } := by
  unfold App.reconcileSelection
  dsimp only
  split
  · split
    · exact ⟨_, _, rfl⟩
    split
    · exact ⟨_, _, rfl⟩
    split
    · split
      · exact ⟨_, _, rfl⟩
      · exact ⟨_, _, rfl⟩
    · exact ⟨_, _, rfl⟩
  · split
    · split
      · exact ⟨_, _, rfl⟩
      · exact ⟨_, _, rfl⟩
    · exact ⟨_, _, rfl⟩

/-- `poll` starts nothing. -/
theorem Link.poll_live {l l' : Link} {report : Report} (h : l.poll report = some l')
    (hlive : (l'.running && live l'.state) = true) : (l.running && live l.state) = true := by
  cases report with
  | quiet =>
    obtain rfl := Option.some.inj h
    exact hlive
  | shows state =>
    simp only [Link.poll, Option.ite_none_right_eq_some, Bool.and_eq_true] at h
    exact Bool.and_eq_true_iff.mpr h.1.1
  | refused reason running =>
    simp only [Link.poll, Option.ite_none_right_eq_some] at h
    exact h.1
  | failed message running =>
    simp only [Link.poll, Option.ite_none_right_eq_some, Option.some.injEq] at h
    obtain ⟨-, rfl⟩ := h
    exact (Bool.false_ne_true (Bool.and_eq_true_iff.mp hlive).2).elim
  | ended running =>
    simp only [Link.poll, Option.ite_none_right_eq_some] at h
    obtain ⟨-, h⟩ := h
    split at h
    · obtain rfl := Option.some.inj h
      exact (Bool.false_ne_true (Bool.and_eq_true_iff.mp hlive).2).elim
    · obtain rfl := Option.some.inj h
      split at hlive
      · exact (Bool.false_ne_true (Bool.and_eq_true_iff.mp hlive).2).elim
      · exact (Bool.false_ne_true (Bool.and_eq_true_iff.mp hlive).2).elim

/-- No button but Connect leaves an attempt that goes on. -/
theorem App.press_live {a : App} {press : Press} {p : App × List Event} (h : a.press press = some p)
    (hlive : p.1.isLive = true) : p.1.plans = true := by
  cases press with
  | switchToWifi =>
    obtain rfl := Option.some.inj h
    unfold App.isLive Link.stop at hlive
    dsimp only at hlive
    split at hlive
    · exact (Bool.false_ne_true (Bool.and_eq_true_iff.mp hlive).2).elim
    · next hrunning => exact absurd (Bool.and_eq_true_iff.mp hlive).1 hrunning
  | transport mode =>
    simp only [App.press, Option.ite_none_left_eq_some, Option.some.injEq] at h
    obtain ⟨-, rfl⟩ := h
    exact (Bool.false_ne_true (Bool.and_eq_true_iff.mp hlive).2).elim
  | choose id =>
    simp only [App.press, Option.ite_none_left_eq_some, Option.some.injEq] at h
    obtain ⟨hrunning, rfl⟩ := h
    exact absurd (Bool.and_eq_true_iff.mp hlive).1 hrunning
  | connect paired error =>
    simp only [App.press, Option.ite_none_left_eq_some, Option.some.injEq] at h
    obtain ⟨-, rfl⟩ := h
    rfl
  | disconnect =>
    simp only [App.press, Option.ite_none_right_eq_some, Option.some.injEq] at h
    obtain ⟨hrunning, rfl⟩ := h
    unfold App.isLive Link.stop at hlive
    dsimp only at hlive
    rw [if_pos hrunning] at hlive
    exact (Bool.false_ne_true (Bool.and_eq_true_iff.mp hlive).2).elim
  | replaceKey error =>
    simp only [App.press] at h
    split at h
    · simp only [Option.ite_none_right_eq_some, Option.some.injEq] at h
      obtain ⟨-, rfl⟩ := h
      cases error with
      | none => exact (Bool.false_ne_true (Bool.and_eq_true_iff.mp hlive).2).elim
      | some error => exact (Bool.false_ne_true (Bool.and_eq_true_iff.mp hlive).2).elim
    · cases h

section steps

variable {L : Lowercase} {g g' : Gui} {i : Label} {es : List Event}

/-- The deferred switch connects, or nothing was deferred. -/
theorem App.switch_connects (o : Outside) (a : App) :
    a.switch o = (a, []) ∨
      (a.pendingSwitchToLan = true ∧
        ∃ b : App, b.Connects (a.switch o) ∧ b.session.running = false) := by
  unfold App.switch
  split
  · next hswitch =>
    simp only [Bool.and_eq_true, Bool.not_eq_true'] at hswitch
    exact .inr ⟨hswitch.1, _, App.autoConnect_connects o _, hswitch.2⟩
  · exact .inl rfl

/-- The timer and the launch leave the app alone or call `auto_connect`. -/
theorem App.retry_connects (o : Outside) (a : App) :
    (a.autoConnectAttempted = true ∧ a.retry o = (a, [])) ∨
      ∃ b : App, b.Connects (a.retry o) ∧ b.session = a.session ∧ b.plans = a.plans ∧
        b.autoConnectAttempted = true ∧ (a.autoRetry = none → b.autoRetry = none) := by
  unfold App.retry
  by_cases hattempted : a.autoConnectAttempted = true
  · rw [hattempted, Bool.not_true, if_neg Bool.false_ne_true]
    cases hretry : a.autoRetry with
    | none => exact .inl ⟨rfl, rfl⟩
    | some time =>
      dsimp only
      split
      · exact .inr ⟨_, App.autoConnect_connects o _, rfl, rfl, rfl, fun _ => rfl⟩
      · exact .inl ⟨rfl, rfl⟩
  · rw [Bool.not_eq_true] at hattempted
    rw [hattempted, Bool.not_false, if_pos rfl]
    exact .inr ⟨_, App.autoConnect_connects o _, rfl, rfl, rfl, id⟩

/-- A device list connects, or only moves the selection. -/
theorem App.devices_connects (list : List Candidate) (o : Outside) (a : App) :
    ∃ selected lost, a.devices list o =
        ({ a with selected := selected, selectionLost := lost }, []) ∨
      (a.usbWaitForDevice = true ∧ a.session.running = false ∧
        App.Connects { a with selected := selected, selectionLost := lost }
          (a.devices list o)) := by
  obtain ⟨selected, lost, hselection⟩ := a.reconcileSelection_eq list
  refine ⟨selected, lost, ?_⟩
  unfold App.devices
  rw [hselection]
  dsimp only
  split
  · next hwait =>
    simp only [Bool.and_eq_true, Bool.not_eq_true'] at hwait
    exact .inr ⟨hwait.1.1.1.1, hwait.1.2, App.autoConnect_connects o _⟩
  · exact .inl rfl

/-- Every step keeps the window sound. -/
theorem step_sound (hs : Sound g) (hstep : g.step L i = some (g', es)) : Sound g' := by
  cases i with
  | observe now =>
    simp only [Gui.step, Option.ite_none_right_eq_some, Option.some.injEq, Prod.mk.injEq] at hstep
    obtain ⟨-, rfl, -⟩ := hstep
    have hlive (h : (g.app.observe L now).isLive = true) : g.app.isLive = true := by
      rwa [App.isLive, App.observe_session] at h
    refine ⟨(by rintro (h | h) <;> cases h), ?_, ?_⟩
    · exact fun h => (App.observe_live L now (hlive h)).1
    · exact fun h => .inr (App.observe_live L now (hlive h)).2
  | switch o =>
    simp only [Gui.step, Option.ite_none_right_eq_some, Option.some.injEq, Prod.mk.injEq] at hstep
    obtain ⟨hphase, rfl, -⟩ := hstep
    -- past `observe` a live session has no timer
    have htimer (h : g.app.isLive = true) : g.app.autoRetry = none :=
      (hs.timer h).resolve_left (by rw [hphase]; decide)
    have hkeeps : ((g.app.switch o).1.isLive = true → (g.app.switch o).1.plans = true) ∧
        ((g.app.switch o).1.isLive = true → (g.app.switch o).1.autoRetry = none) := by
      obtain heq | ⟨-, b, hconnects, hrunning⟩ := g.app.switch_connects o
      · rw [heq]
        exact ⟨hs.plans, htimer⟩
      -- the switch dials only once nothing runs
      · have hnot (h : b.isLive = true) : False := by
          rw [App.isLive, hrunning] at h
          cases h
        exact hconnects.keeps (fun h => (hnot h).elim) fun h => (hnot h).elim
    exact ⟨(by rintro (h | h) <;> cases h), hkeeps.1, fun h => .inr (hkeeps.2 h)⟩
  | retry o =>
    simp only [Gui.step, Option.ite_none_right_eq_some, Option.some.injEq, Prod.mk.injEq] at hstep
    obtain ⟨hphase, rfl, -⟩ := hstep
    have htimer (h : g.app.isLive = true) : g.app.autoRetry = none :=
      (hs.timer h).resolve_left (by rw [hphase]; decide)
    obtain ⟨hattempted, heq⟩ | ⟨b, hconnects, hsession, hplans, hattempted, hnone⟩ :=
      g.app.retry_connects o
    · rw [heq]
      exact ⟨fun _ => hattempted, hs.plans, fun h => .inr (htimer h)⟩
    · have hlive (h : b.isLive = true) : g.app.isLive = true := by
        rwa [App.isLive, hsession] at h
      have hkeeps := hconnects.keeps (fun h => hplans.trans (hs.plans (hlive h)))
        fun h => hnone (htimer (hlive h))
      exact ⟨fun _ => hconnects.attempted.trans hattempted, hkeeps.1, fun h => .inr (hkeeps.2 h)⟩
  | poll report =>
    simp only [Gui.step, Option.ite_none_right_eq_some, Option.map_eq_some_iff,
      Prod.mk.injEq] at hstep
    obtain ⟨hphase, session, hpoll, rfl, -⟩ := hstep
    have hlive (h : App.isLive { g.app with session } = true) : g.app.isLive = true :=
      Link.poll_live hpoll h
    refine ⟨fun _ => hs.attempted (.inl hphase), fun h => hs.plans (hlive h), fun h => .inr ?_⟩
    exact (hs.timer (hlive h)).resolve_left (by rw [hphase]; decide)
  | devices list o =>
    simp only [Gui.step, Option.ite_none_right_eq_some, Option.some.injEq, Prod.mk.injEq] at hstep
    obtain ⟨hphase, rfl, -⟩ := hstep
    have hattempted := hs.attempted (.inr hphase)
    have htimer (h : g.app.isLive = true) : g.app.autoRetry = none :=
      (hs.timer h).resolve_left (by rw [hphase]; decide)
    obtain ⟨selected, lost, heq | ⟨-, -, hconnects⟩⟩ := g.app.devices_connects list o
    · rw [heq]
      exact ⟨fun _ => hattempted, hs.plans, fun h => .inr (htimer h)⟩
    · have hkeeps := hconnects.keeps hs.plans htimer
      exact ⟨fun _ => hconnects.attempted.trans hattempted, hkeeps.1, fun h => .inr (hkeeps.2 h)⟩
  | ui press =>
    cases press with
    | none =>
      simp only [Gui.step, Option.ite_none_right_eq_some, Option.some.injEq, Prod.mk.injEq] at hstep
      obtain ⟨-, rfl, -⟩ := hstep
      exact ⟨(by rintro (h | h) <;> cases h), hs.plans, fun _ => .inl rfl⟩
    | some press =>
      simp only [Gui.step, Option.ite_none_right_eq_some, Option.map_eq_some_iff, Prod.mk.injEq]
        at hstep
      obtain ⟨-, p, hpress, rfl, -⟩ := hstep
      exact ⟨(by rintro (h | h) <;> cases h), App.press_live hpress, fun _ => .inl rfl⟩

/-! ## The quiet after a refusal -/

/-- Nothing will be planned: the session's failure was taken up, or there is none. -/
def App.Rested (a : App) : Prop :=
  a.usbWaitForDevice = false ∧ live a.session.state = false ∧
    (a.plans = false ∨ (a.session.running = false ∧ a.session.state = .idle))

/-- The refusal is still to be taken up. -/
def App.Fresh (a : App) : Prop :=
  (∃ reason, a.session.state = .failed (refusal reason)) ∧ a.plans = true ∧
    (a.usbWaitForDevice = false ∨ a.session.running = true)

/-- Nothing is left to plan, to wait for or to switch to. -/
structure Quiet (g : Gui) : Prop where
  attempted : g.app.autoConnectAttempted = true
  timer : g.app.autoRetry = none
  pendingSwitch : g.app.pendingSwitchToLan = false
  state : g.app.Rested ∨ (g.app.Fresh ∧ (g.phase = .rest ∨ g.phase = .observe))

/-- The plan for a refusal. -/
theorem App.armRetry_refusal (L : Lowercase) (now : ℕ) (reason : UInt8) (a : App) :
    a.armRetry L now (refusal reason) =
      if a.autoRetrySuppressed = true then
        { a with autoRetry := none, usbWaitForDevice := false, usbAbsentSeen := false }
      else if a.transport = .usb ∧ a.absent = true then
        { a with
          usbWaitForDevice := true
          usbAbsentSeen := a.absent || a.usbAbsentSeen
          autoRetry := some (now + 1000 * autoRetryDelay 1) }
      else if AUTO_RETRY_LIMIT < min (a.autoRetries + 1) U32_MAX then
        { a with
          autoRetry := none
          usbWaitForDevice := false
          usbAbsentSeen := false
          autoRetries := AUTO_RETRY_LIMIT + 1 }
      else
        { a with
          usbWaitForDevice := false
          usbAbsentSeen := false
          autoRetries := min (a.autoRetries + 1) U32_MAX
          autoRetry := some (now + 1000 * autoRetryDelay (min (a.autoRetries + 1) U32_MAX)) } := by
  unfold App.armRetry planRetry
  dsimp only
  rw [autoRetryIsUseful_refusal, wantsReplug_refusal]
  simp only [Bool.not_true, Bool.or_false, Bool.false_eq_true, if_false, Bool.and_eq_true,
    beq_iff_eq]
  by_cases hsuppressed : a.autoRetrySuppressed = true
  · rw [if_pos hsuppressed, if_pos hsuppressed]
  rw [if_neg hsuppressed, if_neg hsuppressed]
  by_cases hgone : a.transport = .usb ∧ a.absent = true
  · rw [if_pos hgone, if_pos hgone]
  rw [if_neg hgone, if_neg hgone]
  by_cases hlimit : AUTO_RETRY_LIMIT < min (a.autoRetries + 1) U32_MAX
  · rw [if_pos hlimit, if_pos hlimit]
  · rw [if_neg hlimit, if_neg hlimit]

/-- When nothing is left to plan, a refusal arms nothing. -/
theorem App.armRetry_spent (L : Lowercase) (now : ℕ) (reason : UInt8) {a : App} (h : a.Spent) :
    ∃ retries, a.armRetry L now (refusal reason) =
      { a with
        autoRetry := none
        usbWaitForDevice := false
        usbAbsentSeen := false
        autoRetries := retries } := by
  rw [App.armRetry_refusal]
  by_cases hsuppressed : a.autoRetrySuppressed = true
  · rw [if_pos hsuppressed]
    exact ⟨_, rfl⟩
  · obtain ⟨hretries, hpresent⟩ := h.resolve_left hsuppressed
    have hlimit : AUTO_RETRY_LIMIT < min (a.autoRetries + 1) U32_MAX := by
      unfold AUTO_RETRY_LIMIT U32_MAX at *
      omega
    rw [if_neg hsuppressed, if_neg hpresent, if_pos hlimit]
    exact ⟨_, rfl⟩

/-- A rested app does not react to what the session reports. -/
theorem App.observe_rested (L : Lowercase) (now : ℕ) {a : App} (h : a.Rested) :
    a.observe L now = a := by
  obtain ⟨-, hlive, hplans⟩ := h
  unfold App.observe
  cases hstate : a.session.state with
  | idle => rfl
  | stopping => rfl
  | failed message =>
    obtain hplans | ⟨-, hidle⟩ := hplans
    · dsimp only
      rw [if_neg]
      rw [show (a.autoAttemptPending || a.recoverFromDrop) = false from hplans]
      exact Bool.false_ne_true
    · rw [hidle] at hstate
      cases hstate
  | connecting =>
    rw [hstate] at hlive
    cases hlive
  | approvalPending clientId =>
    rw [hstate] at hlive
    cases hlive
  | waiting =>
    rw [hstate] at hlive
    cases hlive
  | streaming =>
    rw [hstate] at hlive
    cases hlive

/-- A quiet window plans nothing. -/
theorem quiet_observe {now : ℕ} {tr : List Event} (hq : Quiet g) (hok : Meets tr g (.observe now)) :
    Quiet ⟨.switch, g.app.observe L now⟩ := by
  obtain hrested | ⟨⟨⟨reason, hstate⟩, hplans, -⟩, -⟩ := hq.state
  · rw [App.observe_rested L now hrested]
    exact ⟨hq.attempted, hq.timer, hq.pendingSwitch, .inl hrested⟩
  · have hobserve : g.app.observe L now =
        App.armRetry L now (refusal reason)
          { g.app with autoAttemptPending := false, recoverFromDrop := false } := by
      unfold App.observe
      rw [hstate]
      exact if_pos hplans
    have hspent : App.Spent { g.app with autoAttemptPending := false, recoverFromDrop := false } :=
      hok reason hstate hplans
    obtain ⟨retries, harm⟩ := App.armRetry_spent L now reason hspent
    rw [hobserve, harm]
    refine ⟨hq.attempted, rfl, hq.pendingSwitch, .inl ⟨rfl, ?_, .inl rfl⟩⟩
    show live g.app.session.state = false
    rw [hstate]
    rfl

/-- A session at rest stays at rest. -/
theorem Link.poll_rested {a : App} (h : a.Rested) {report : Report} {session : Link}
    (hpoll : a.session.poll report = some session) :
    App.Rested { a with session } ∧ report.events = [] := by
  obtain ⟨hwait, hlive, hplans⟩ := h
  cases report with
  | quiet =>
    obtain rfl := Option.some.inj hpoll
    exact ⟨⟨hwait, hlive, hplans⟩, rfl⟩
  | shows state =>
    rw [Link.poll, hlive, Bool.and_false, Bool.false_and, if_neg Bool.false_ne_true] at hpoll
    cases hpoll
  | refused reason running =>
    rw [Link.poll, hlive, Bool.and_false, if_neg Bool.false_ne_true] at hpoll
    cases hpoll
  | failed message running =>
    simp only [Link.poll, Option.ite_none_right_eq_some, Option.some.injEq] at hpoll
    obtain ⟨hrunning, rfl⟩ := hpoll
    refine ⟨⟨hwait, rfl, .inl (hplans.resolve_right ?_)⟩, rfl⟩
    rw [hrunning]
    exact fun h => Bool.false_ne_true h.1.symm
  | ended running =>
    simp only [Link.poll, Option.ite_none_right_eq_some] at hpoll
    obtain ⟨hrunning, hpoll⟩ := hpoll
    have hdone : a.plans = false := by
      apply hplans.resolve_right
      rw [hrunning]
      exact fun h => Bool.false_ne_true h.1.symm
    split at hpoll
    · obtain rfl := Option.some.inj hpoll
      exact ⟨⟨hwait, rfl, .inl hdone⟩, rfl⟩
    · obtain rfl := Option.some.inj hpoll
      refine ⟨⟨hwait, ?_, .inl hdone⟩, rfl⟩
      dsimp only
      split <;> rfl

/-- A press leaves the quiet as it is, or the user dials or switches the transport. -/
theorem quiet_press (hq : Quiet g) {press : Press} {p : App × List Event}
    (hpress : g.app.press press = some p) :
    (p.2 = [] ∧ Quiet ⟨.observe, p.1⟩) ∨ p.2 = [.connectPressed] ∨ p.2 = [.transportSwitched] := by
  cases press with
  | switchToWifi =>
    obtain rfl := Option.some.inj hpress
    exact .inr (.inr rfl)
  | connect paired error =>
    simp only [App.press, Option.ite_none_left_eq_some, Option.some.injEq] at hpress
    obtain ⟨-, rfl⟩ := hpress
    exact .inr (.inl rfl)
  | transport mode =>
    simp only [App.press, Option.ite_none_left_eq_some, Option.some.injEq] at hpress
    obtain ⟨hrunning, rfl⟩ := hpress
    rw [Bool.not_eq_true] at hrunning
    dsimp only
    split
    · left
      have hwait : g.app.usbWaitForDevice = false := by
        obtain ⟨hwait, -⟩ | ⟨⟨-, -, hwait⟩, -⟩ := hq.state
        · exact hwait
        · exact hwait.resolve_right (by rw [hrunning]; exact Bool.false_ne_true)
      exact ⟨rfl, hq.attempted, hq.timer, hq.pendingSwitch, .inl ⟨hwait, rfl, .inr ⟨hrunning, rfl⟩⟩⟩
    · exact .inr (.inr rfl)
  | choose device =>
    simp only [App.press, Option.ite_none_left_eq_some, Option.some.injEq] at hpress
    obtain ⟨-, rfl⟩ := hpress
    exact .inl ⟨rfl, hq.attempted, hq.timer, hq.pendingSwitch,
      hq.state.imp id fun h => ⟨h.1, .inr rfl⟩⟩
  | disconnect =>
    simp only [App.press, Option.ite_none_right_eq_some, Option.some.injEq] at hpress
    obtain ⟨hrunning, rfl⟩ := hpress
    have hstop : g.app.session.stop = ⟨true, .stopping⟩ := by
      rw [Link.stop, if_pos hrunning, hrunning]
    refine .inl ⟨rfl, hq.attempted, rfl, hq.pendingSwitch, .inl ⟨rfl, ?_, .inl rfl⟩⟩
    show live g.app.session.stop.state = false
    rw [hstop]
    rfl
  | replaceKey error =>
    simp only [App.press] at hpress
    split at hpress
    · next message hstate =>
      simp only [Option.ite_none_right_eq_some, Option.some.injEq] at hpress
      obtain ⟨hrecovery, rfl⟩ := hpress
      left
      obtain ⟨hwait, -, hplans⟩ | ⟨⟨⟨reason, hrefused⟩, -⟩, -⟩ := hq.state
      · have hdone : g.app.plans = false := by
          apply hplans.resolve_right
          rw [hstate]
          exact fun h => nomatch h.2
        refine ⟨rfl, hq.attempted, hq.timer, hq.pendingSwitch, .inl ⟨hwait, ?_, .inl hdone⟩⟩
        cases error with
        | none => rfl
        | some error => rfl
      · -- the button is not there for a refusal
        obtain rfl : message = refusal reason := by
          rw [hrefused] at hstate
          exact (State.failed.inj hstate).symm
        rw [not_recovery_refusal] at hrecovery
        cases hrecovery
    · cases hpress

/-- A quiet window does nothing until a press. -/
theorem step_quiet {tr : List Event} (hq : Quiet g) (hok : Meets tr g i)
    (hstep : g.step L i = some (g', es)) :
    (es = [] ∧ Quiet g') ∨ es = [.connectPressed] ∨ es = [.transportSwitched] := by
  -- Between the take-up and the next frame the app is rested.
  have hrested (h : g.phase ≠ .rest) (h' : g.phase ≠ .observe) : g.app.Rested :=
    hq.state.resolve_right fun hfresh => hfresh.2.elim h h'
  cases i with
  | observe now =>
    simp only [Gui.step, Option.ite_none_right_eq_some, Option.some.injEq, Prod.mk.injEq] at hstep
    obtain ⟨-, rfl, rfl⟩ := hstep
    exact .inl ⟨rfl, quiet_observe hq hok⟩
  | switch o =>
    simp only [Gui.step, Option.ite_none_right_eq_some, Option.some.injEq, Prod.mk.injEq] at hstep
    obtain ⟨hphase, rfl, rfl⟩ := hstep
    have heq : g.app.switch o = (g.app, []) := by
      refine (g.app.switch_connects o).resolve_right ?_
      rw [hq.pendingSwitch]
      exact fun h => Bool.false_ne_true h.1
    rw [heq]
    exact .inl ⟨rfl, hq.attempted, hq.timer, hq.pendingSwitch,
      .inl (hrested (by rw [hphase]; decide) (by rw [hphase]; decide))⟩
  | retry o =>
    simp only [Gui.step, Option.ite_none_right_eq_some, Option.some.injEq, Prod.mk.injEq] at hstep
    obtain ⟨hphase, rfl, rfl⟩ := hstep
    have heq : g.app.retry o = (g.app, []) := by
      rw [App.retry, hq.attempted, hq.timer]
      rfl
    rw [heq]
    exact .inl ⟨rfl, hq.attempted, hq.timer, hq.pendingSwitch,
      .inl (hrested (by rw [hphase]; decide) (by rw [hphase]; decide))⟩
  | poll report =>
    simp only [Gui.step, Option.ite_none_right_eq_some, Option.map_eq_some_iff,
      Prod.mk.injEq] at hstep
    obtain ⟨hphase, session, hpoll, rfl, rfl⟩ := hstep
    obtain ⟨hafter, hevents⟩ :=
      Link.poll_rested (hrested (by rw [hphase]; decide) (by rw [hphase]; decide)) hpoll
    exact .inl ⟨hevents, hq.attempted, hq.timer, hq.pendingSwitch, .inl hafter⟩
  | devices list o =>
    simp only [Gui.step, Option.ite_none_right_eq_some, Option.some.injEq, Prod.mk.injEq] at hstep
    obtain ⟨hphase, rfl, rfl⟩ := hstep
    obtain ⟨selected, lost, heq | ⟨hwait, hrunning, -⟩⟩ := g.app.devices_connects list o
    · rw [heq]
      exact .inl ⟨rfl, hq.attempted, hq.timer, hq.pendingSwitch,
        hq.state.imp id fun h => ⟨h.1, .inl rfl⟩⟩
    · -- a wait for a device is only left over while the worker runs
      obtain ⟨hnone, -⟩ | ⟨⟨-, -, hleft⟩, -⟩ := hq.state
      · rw [hnone] at hwait
        cases hwait
      · rw [hwait, hrunning] at hleft
        cases hleft <;> contradiction
  | ui press =>
    cases press with
    | none =>
      simp only [Gui.step, Option.ite_none_right_eq_some, Option.some.injEq, Prod.mk.injEq] at hstep
      obtain ⟨-, rfl, rfl⟩ := hstep
      exact .inl ⟨rfl, hq.attempted, hq.timer, hq.pendingSwitch,
        hq.state.imp id fun h => ⟨h.1, .inr rfl⟩⟩
    | some press =>
      simp only [Gui.step, Option.ite_none_right_eq_some, Option.map_eq_some_iff, Prod.mk.injEq]
        at hstep
      obtain ⟨-, p, hpress, rfl, rfl⟩ := hstep
      exact quiet_press hq hpress

/-! ## Runs -/

/-- What a press does. -/
theorem App.press_events {a : App} {press : Press} {p : App × List Event}
    (h : a.press press = some p) :
    p.2 = [] ∨ p.2 = [.connectPressed] ∨ p.2 = [.transportSwitched] := by
  cases press with
  | switchToWifi =>
    obtain rfl := Option.some.inj h
    exact .inr (.inr rfl)
  | transport mode =>
    simp only [App.press, Option.ite_none_left_eq_some, Option.some.injEq] at h
    obtain ⟨-, rfl⟩ := h
    dsimp only
    split
    · exact .inl rfl
    · exact .inr (.inr rfl)
  | choose device =>
    simp only [App.press, Option.ite_none_left_eq_some, Option.some.injEq] at h
    obtain ⟨-, rfl⟩ := h
    exact .inl rfl
  | connect paired error =>
    simp only [App.press, Option.ite_none_left_eq_some, Option.some.injEq] at h
    obtain ⟨-, rfl⟩ := h
    exact .inr (.inl rfl)
  | disconnect =>
    simp only [App.press, Option.ite_none_right_eq_some, Option.some.injEq] at h
    obtain ⟨-, rfl⟩ := h
    exact .inl rfl
  | replaceKey error =>
    simp only [App.press] at h
    split at h
    · simp only [Option.ite_none_right_eq_some, Option.some.injEq] at h
      obtain ⟨-, rfl⟩ := h
      exact .inl rfl
    · cases h

/-- A step tells at most one event, and of a refusal only `poll` does. -/
theorem step_events (hstep : g.step L i = some (g', es)) :
    (∃ reason running, i = .poll (.refused reason running) ∧ es = [.refused reason]) ∨
      es = [] ∨ es = [.dialled] ∨ es = [.connectPressed] ∨ es = [.transportSwitched] := by
  -- a call of `connect` dials, or it does nothing
  have hconnects {a : App} {p : App × List Event} (h : a.Connects p) :
      p.2 = [] ∨ p.2 = [.dialled] := by
    cases h with
    | running _ => exact .inl rfl
    | waits _ _ _ _ => exact .inl rfl
    | dials _ _ _ _ _ => exact .inr rfl
  cases i with
  | observe now =>
    simp only [Gui.step, Option.ite_none_right_eq_some, Option.some.injEq, Prod.mk.injEq] at hstep
    exact .inr (.inl hstep.2.2.symm)
  | switch o =>
    simp only [Gui.step, Option.ite_none_right_eq_some, Option.some.injEq, Prod.mk.injEq] at hstep
    obtain ⟨-, -, rfl⟩ := hstep
    obtain heq | ⟨-, b, hb, -⟩ := g.app.switch_connects o
    · rw [heq]
      exact .inr (.inl rfl)
    · exact .inr ((hconnects hb).imp id .inl)
  | retry o =>
    simp only [Gui.step, Option.ite_none_right_eq_some, Option.some.injEq, Prod.mk.injEq] at hstep
    obtain ⟨-, -, rfl⟩ := hstep
    obtain ⟨-, heq⟩ | ⟨b, hb, -⟩ := g.app.retry_connects o
    · rw [heq]
      exact .inr (.inl rfl)
    · exact .inr ((hconnects hb).imp id .inl)
  | poll report =>
    simp only [Gui.step, Option.ite_none_right_eq_some, Option.map_eq_some_iff,
      Prod.mk.injEq] at hstep
    obtain ⟨-, session, -, -, rfl⟩ := hstep
    cases report with
    | refused reason running => exact .inl ⟨reason, running, rfl, rfl⟩
    | quiet => exact .inr (.inl rfl)
    | shows state => exact .inr (.inl rfl)
    | failed message running => exact .inr (.inl rfl)
    | ended running => exact .inr (.inl rfl)
  | devices list o =>
    simp only [Gui.step, Option.ite_none_right_eq_some, Option.some.injEq, Prod.mk.injEq] at hstep
    obtain ⟨-, -, rfl⟩ := hstep
    obtain ⟨selected, lost, heq | ⟨-, -, hb⟩⟩ := g.app.devices_connects list o
    · rw [heq]
      exact .inr (.inl rfl)
    · exact .inr ((hconnects hb).imp id .inl)
  | ui press =>
    cases press with
    | none =>
      simp only [Gui.step, Option.ite_none_right_eq_some, Option.some.injEq, Prod.mk.injEq] at hstep
      exact .inr (.inl hstep.2.2.symm)
    | some press =>
      simp only [Gui.step, Option.ite_none_right_eq_some, Option.map_eq_some_iff, Prod.mk.injEq]
        at hstep
      obtain ⟨-, p, hpress, -, rfl⟩ := hstep
      exact .inr ((App.press_events hpress).imp id .inr)

/-- A refusal leaves the loop quiet, but for the plan it still makes. -/
theorem quiet_refused {tr : List Event} {reason : UInt8} {running : Bool} (hs : Sound g)
    (hok : Meets tr g (.poll (.refused reason running)))
    (hstep : g.step L (.poll (.refused reason running)) = some (g', es)) : Quiet g' := by
  simp only [Gui.step, Option.ite_none_right_eq_some, Option.map_eq_some_iff, Prod.mk.injEq,
    Link.poll, Option.some.injEq] at hstep
  obtain ⟨hphase, session, ⟨hlive, rfl⟩, rfl, -⟩ := hstep
  have htimer : g.app.autoRetry = none :=
    (hs.timer hlive).resolve_left (by rw [hphase]; decide)
  exact ⟨hs.attempted (.inl hphase), htimer, hok.1,
    .inr ⟨⟨⟨reason, rfl⟩, hs.plans hlive, hok.2⟩, .inl rfl⟩⟩

/-- What a run keeps as long as its steps meet the condition. -/
structure Kept (tr : List Event) (g : Gui) : Prop where
  obeys : Obeys tr
  sound : Sound g
  quiet : blocked tr = true → Quiet g

/-- Every step that meets the condition keeps a refusal final. -/
theorem Kept.step {tr : List Event} (h : Kept tr g) (hok : Meets tr g i)
    (hstep : g.step L i = some (g', es)) : Kept (tr ++ es) g' := by
  have hsound := step_sound h.sound hstep
  -- One event, which is no dial or comes when none is forbidden.
  have hone {e : Event} (he : e = .dialled → blocked tr = false) : Obeys (tr ++ [e]) := by
    apply h.obeys.append
    refine (Trace.each_cons (Q := fun x e => e = .dialled → blocked (tr ++ x) = false)).mpr
      ⟨?_, Trace.each_nil⟩
    rw [List.append_nil]
    exact he
  have hafter (e : Event) : blocked (tr ++ [e]) = afterEvent (blocked tr) e := by
    rw [blocked_append]
    rfl
  obtain ⟨reason, running, rfl, rfl⟩ | hevents := step_events hstep
  · exact ⟨hone nofun, hsound, fun _ => quiet_refused h.sound hok hstep⟩
  cases hblocked : blocked tr with
  | true =>
    obtain ⟨rfl, hquiet⟩ | hpressed := step_quiet (h.quiet hblocked) hok hstep
    · rw [List.append_nil]
      exact ⟨h.obeys, hsound, fun _ => hquiet⟩
    · obtain rfl | rfl := hpressed
      · exact ⟨hone nofun, hsound, fun hb => by rw [hafter] at hb; cases hb⟩
      · exact ⟨hone nofun, hsound, fun hb => by rw [hafter] at hb; cases hb⟩
  | false =>
    obtain rfl | rfl | rfl | rfl := hevents
    · rw [List.append_nil]
      exact ⟨h.obeys, hsound, fun hb => by rw [hblocked] at hb; cases hb⟩
    · exact ⟨hone fun _ => hblocked, hsound, fun hb => by rw [hafter, hblocked] at hb; cases hb⟩
    · exact ⟨hone nofun, hsound, fun hb => by rw [hafter] at hb; cases hb⟩
    · exact ⟨hone nofun, hsound, fun hb => by rw [hafter] at hb; cases hb⟩

/-- In every run of such steps refusals are final. -/
theorem kept {tr : List Event} (h : (system L).Under Meets tr g) : Kept tr g := by
  refine h.invariant (P := Kept) ?_ ?_
  · rintro _ ⟨transport, rfl⟩
    refine ⟨Trace.each_nil, ⟨?_, ?_, ?_⟩, fun hb => nomatch hb⟩
    · rintro (hphase | hphase) <;> cases hphase
    · exact fun hlive => nomatch hlive
    · exact fun hlive => nomatch hlive
  · intro tr g i g' es _ hok hk hstep
    exact hk.step hok hstep

/-- The app that has taken a refusal up, once the worker is gone. -/
def App.armed (L : Lowercase) (a : App) (reason : UInt8) : App :=
  App.armRetry L 0 (refusal reason)
    { a with
      session := ⟨false, .failed (refusal reason)⟩
      autoAttemptPending := false
      recoverFromDrop := false }

/-- The window is sound in every run. -/
theorem sound {tr : List Event} (h : (system L).Reaches tr g) : Sound g := by
  refine h.invariant (P := fun _ g => Sound g) ?_ ?_
  · rintro _ ⟨transport, rfl⟩
    refine ⟨?_, ?_, ?_⟩
    · rintro (hphase | hphase) <;> cases hphase
    · exact fun hlive => nomatch hlive
    · exact fun hlive => nomatch hlive
  · intro tr g i g' es _ _ hs hstep
    exact step_sound hs hstep

end steps

/-! ## The result -/

/-- A lower case that knows ASCII only. -/
def asciiLowercase : Lowercase where
  toLowercase := List.map Char.toLower
  ascii _ _ := rfl

/-- The pairing is complete and `connect` goes well. -/
def reachable (now : ℕ) : Outside := ⟨now, true, none⟩

/-- The app in an attempt over Wi-Fi after so many that failed. -/
def attempt (retries : ℕ) : App :=
  { launched .lan with
    autoConnectAttempted := true
    autoAttemptPending := true
    autoRetries := retries
    session := ⟨true, .connecting⟩ }

/-- The app that has taken up another failure. -/
def timedOut (retries : ℕ) : App :=
  { attempt (retries + 1) with
    autoAttemptPending := false
    autoRetry := some (0 + 1000 * autoRetryDelay (retries + 1))
    session := ⟨false, .failed "timed out"⟩ }

/-- One more step of a run. -/
theorem advance {L : Lowercase} {tr es : List Event} {g g' : Gui} (i : Label)
    (h : (system L).Under Meets tr g) (hok : Meets tr g i) (hstep : g.step L i = some (g', es)) :
    (system L).Under Meets (tr ++ es) g' :=
  h.step hok hstep

end HostRedial
end MobileWebcamBridge
