import MobileWebcamBridge.Host.Redial.Budget
import MobileWebcamBridge.Host.Redial.Refusals
import MobileWebcamBridge.Host.Redial.Selection

/-!
# Every automatic dial is paid for

What the flags of the loop say about the notes so far, and that each step keeps it. Three kinds of
step break it and are left out by `Orderly`: Disconnect while a switch to Wi-Fi is still pending, a
dial over Wi-Fi while the loop waits for a phone on USB, and a press that clears a failure, but not
the timer, before the loop has planned for it.
-/

set_option autoImplicit false

namespace MobileWebcamBridge
namespace HostRedial

open HostSession (State)

/-! ## The condition -/

/-- The session has failed and the next frame will plan for it. -/
def App.unplanned (a : App) : Bool :=
  match a.session.state with
  | .failed _ => a.plans
  | _ => false

/-- A call that dials would dial over Wi-Fi, and the loop waits for a phone on USB. -/
def App.dialsBeside (o : Outside) (a : App) : Bool :=
  a.usbWaitForDevice && a.transport == .lan && o.paired

/-- The launch, or the timer, is due. -/
def App.due (o : Outside) (a : App) : Bool :=
  !a.autoConnectAttempted || a.autoRetry.any fun time => time ≤ o.now

/-- The presses that do not go wrong. -/
def App.pressOrderly (a : App) : Press → Bool
  | .disconnect => !a.pendingSwitchToLan
  | .transport _ | .replaceKey none => !(a.unplanned && a.autoRetry.isSome)
  | .switchToWifi | .choose _ | .connect _ _ | .replaceKey (some _) => true

/-- No dial over Wi-Fi while the loop waits for a phone on USB, no Disconnect while the switch is
pending, and no failure cleared, with the timer set, before it is planned for. -/
def Gui.orderly (g : Gui) : Label → Bool
  | .switch o =>
    !(g.app.pendingSwitchToLan && !g.app.session.running && g.app.usbWaitForDevice && o.paired)
  | .retry o => !(g.app.due o && !g.app.session.running && g.app.dialsBeside o)
  | .devices list o =>
    !(!(g.app.reconcileSelection list).absent && !g.app.autoRetrySuppressed &&
      !g.app.session.running && g.app.dialsBeside o)
  | .ui (some press) => g.app.pressOrderly press
  | .observe _ | .poll _ | .ui none => true

/-- The condition on the step, whatever was noted before. -/
def Orderly (_ : List Note) (g : Gui) (i : Label) : Prop := g.orderly i = true

instance (tr : List Note) (g : Gui) (i : Label) : Decidable (Orderly tr g i) :=
  inferInstanceAs (Decidable (g.orderly i = true))

/-! ## What the flags say -/

/-- Nothing is planned or waited for any more. -/
structure App.Done (a : App) : Prop where
  attempted : a.autoConnectAttempted = true
  timer : a.autoRetry = none
  wait : a.usbWaitForDevice = false
  plans : a.plans = false
  live : live a.session.state = false

/-- The user has stopped the retries. -/
structure App.Halted (a : App) : Prop where
  attempted : a.autoConnectAttempted = true
  suppressed : a.autoRetrySuppressed = true
  timer : a.autoRetry = none
  pending : a.pendingSwitchToLan = false

/-- What the ledger says of the app. -/
structure Books (l : Ledger) (a : App) : Prop where
  early : a.autoConnectAttempted = false →
    a.session = ⟨false, .idle⟩ ∧ a.pendingSwitchToLan = false ∧ a.autoRetries = 0
  live : live a.session.state = true → a.session.running = true
  plans : l.plans = min a.autoRetries AUTO_RETRY_LIMIT
  retries : a.autoRetries ≤ AUTO_RETRY_LIMIT + 1
  exhausted : l.exhausted = true → a.Done
  stopped : l.stopped = true → a.Halted
  lost : a.selectionLost = true → l.leftUsb = true
  left : l.wifi = false → l.left = l.leftUsb
  /-- A session over USB was dialled over USB, with a phone. -/
  session : (a.session.running || a.unplanned) = true → a.transport = .usb →
    l.wifi = false ∧ a.selected.isSome = true
  wait : a.usbWaitForDevice = true → (l.wifi = false ∧ a.selected.isSome = true) ∨ l.paid = true
  seen : a.usbAbsentSeen = true → a.usbWaitForDevice = true ∧ (l.left = true ∨ l.paid = true)
  /-- The timer of a plan is paid for, or set anew by the next frame. -/
  timer : a.autoRetry.isSome = true → a.usbWaitForDevice = false → a.autoRetries ≠ 0 →
    l.paid = true ∨ (a.session.running = false ∧ a.unplanned = true)

/-- What holds between the steps of a frame. -/
structure Stage (g : Gui) : Prop where
  attempted : g.phase = .poll ∨ g.phase = .rest → g.app.autoConnectAttempted = true
  observed : g.phase = .switch ∨ g.phase = .retry → g.app.transport = .usb →
    g.app.unplanned = false

/-- The notes are allowed one after the other. -/
def Covers (l : Ledger) (ns : List Note) : Prop :=
  Trace.Each (fun x e => (x.foldl Ledger.after l).Allows e) ns

variable {L : Lowercase} {tr ns : List Note} {l : Ledger} {a a' : App} {o : Outside} {e : Note}
  {g g' : Gui}

theorem covers_nil : Covers l [] := Trace.each_nil

/-- The first note is allowed, and so are the others after it. -/
theorem covers_cons : Covers l (e :: ns) ↔ l.Allows e ∧ Covers (l.after e) ns := Trace.each_cons

theorem covers_singleton (h : l.Allows e) : Covers l [e] := covers_cons.mpr ⟨h, covers_nil⟩

/-- More notes that the ledger allows. -/
theorem Covered.append (h : Covered tr) (hns : Covers (ledger tr) ns) : Covered (tr ++ ns) := by
  apply Trace.Each.append h
  intro x e y hx
  show (ledger (tr ++ x)).Allows e
  rw [ledger_append]
  exact hns x e y hx

/-- A flag is not both. -/
theorem absurd_flag {p : Prop} {flag : Bool} (htrue : flag = true) (hfalse : flag = false) : p := by
  rw [htrue] at hfalse
  cases hfalse

/-! ## A call of `auto_connect` -/

/-- What a call does, with its notes. -/
inductive App.Calls (o : Outside) (a : App) : App → List Note → Prop
  | nothing : Calls o a a []
  | waits (autoRetry : Option ℕ) : a.session.running = false → a.transport = .usb →
      (a.usbWaitForDevice = true ∨ a.autoRetries ≠ 0) →
      (a.absent = true ∨ a.usbWaitForDevice = true) →
      Calls o a
        { a with
          usbAbsentSeen := a.absent || a.usbAbsentSeen
          usbWaitForDevice := a.absent || a.usbWaitForDevice
          autoRetry := autoRetry }
        [.waits a.autoRetries a.autoRetries]
  | usb : a.session.running = false → a.transport = .usb → a.absent = false →
      (a.usbWaitForDevice = true → a.usbAbsentSeen = true) →
      (a.usbWaitForDevice = true ∨ a.autoRetries ≠ 0) →
      Calls o a (App.dial o { a with usbWaitForDevice := false, usbAbsentSeen := false }).1
        [.dialled .usb]
  | lan : a.session.running = false → a.transport = .lan →
      Calls o a (App.dial o a).1 [.dialled .lan]

/-- What `auto_connect` may do. -/
theorem App.calls (o : Outside) (a : App) : a.Calls o (a.autoConnect o).1 (a.connectNotes o) := by
  unfold App.connectNotes
  by_cases hrunning : a.session.running = true
  · rw [App.autoConnect, if_pos hrunning, if_pos hrunning]
    exact .nothing
  have hrunning' := Bool.eq_false_iff.mpr hrunning
  rw [if_neg hrunning]
  cases htransport : a.transport with
  | lan =>
    rw [App.autoConnect, if_neg hrunning, htransport]
    dsimp only
    split
    · exact .lan hrunning' htransport
    · exact .nothing
  | usb =>
    dsimp only
    by_cases hcold : (!a.usbWaitForDevice && a.autoRetries == 0) = true
    · rw [if_pos hcold, App.autoConnect, if_neg hrunning, htransport]
      dsimp only
      rw [if_pos hcold]
      exact .nothing
    have hwarm : a.usbWaitForDevice = true ∨ a.autoRetries ≠ 0 := by
      by_contra hnone
      obtain ⟨hwait, hretries⟩ := not_or.mp hnone
      apply hcold
      rw [Bool.eq_false_iff.mpr hwait, not_not.mp hretries]
      rfl
    rw [if_neg hcold]
    by_cases hmay : usbMayDial a.usbWaitForDevice a.absent (a.absent || a.usbAbsentSeen) = true
    · have hdial := hmay
      unfold usbMayDial at hdial
      split at hdial
      · cases hdial
      next habsent =>
      have habsent' := Bool.eq_false_iff.mpr habsent
      split at hdial
      · cases hdial
      next hgone =>
      have hcall : (a.autoConnect o).1 =
          (App.dial o { a with usbWaitForDevice := false, usbAbsentSeen := false }).1 := by
        unfold App.autoConnect
        rw [if_neg hrunning, htransport]
        dsimp only
        rw [if_neg hcold, hmay, Bool.not_true, if_neg Bool.false_ne_true]
      rw [if_pos hmay, hcall]
      refine .usb hrunning' htransport habsent' ?_ hwarm
      intro hwait
      rw [habsent', hwait, Bool.false_or, Bool.true_and, Bool.not_eq_true,
        Bool.not_eq_false'] at hgone
      exact hgone
    · have hcall : (a.autoConnect o).1 =
          { a with
            usbAbsentSeen := a.absent || a.usbAbsentSeen
            usbWaitForDevice := a.absent || a.usbWaitForDevice
            autoRetry :=
              if a.autoRetrySuppressed then a.autoRetry
              else some (o.now + 1000 * autoRetryDelay 1) } := by
        unfold App.autoConnect
        rw [if_neg hrunning, htransport]
        dsimp only
        rw [if_neg hcold, Bool.eq_false_iff.mpr hmay, Bool.not_false, if_pos rfl]
      rw [if_neg hmay, hcall]
      refine .waits _ hrunning' htransport hwarm ?_
      unfold usbMayDial at hmay
      split at hmay
      · next habsent => exact .inl habsent
      split at hmay
      · next hgone => exact .inr (Bool.and_eq_true_iff.mp hgone).1
      · exact absurd rfl hmay

/-- It leaves the transport and the first attempt alone. -/
theorem App.Calls.keeps (h : a.Calls o a' ns) :
    a'.autoConnectAttempted = a.autoConnectAttempted ∧ a'.transport = a.transport := by
  cases h with
  | nothing => exact ⟨rfl, rfl⟩
  | waits => exact ⟨rfl, rfl⟩
  | usb => exact ⟨rfl, rfl⟩
  | lan => exact ⟨rfl, rfl⟩

/-- After a dial the session runs, or its failure is planned for next. -/
theorem App.dial_session (o : Outside) (a : App) :
    (App.dial o a).1.autoRetry.isSome = true →
      (App.dial o a).1.session.running = false ∧ (App.dial o a).1.unplanned = true := by
  intro htimer
  unfold App.dial Link.connect App.unplanned at *
  cases herror : o.error with
  | none =>
    rw [herror, if_pos rfl] at htimer
    cases htimer
  | some error => exact ⟨rfl, rfl⟩

theorem Link.connect_live (error : Option String)
    (h : HostRedial.live (Link.connect error).state = true) :
    (Link.connect error).running = true := by
  cases error with
  | none => rfl
  | some error => cases h

/-- A selected phone is absent when it is lost. -/
theorem App.absent_lost (habsent : a.absent = true) (hsome : a.selected.isSome = true) :
    a.selectionLost = true := by
  rcases Bool.or_eq_true_iff.mp habsent with hnone | hlost
  · rw [Option.isNone_iff_eq_none.mp hnone] at hsome
    cases hsome
  · exact hlost

/-- A failure that is planned for at once is not left unplanned. -/
theorem App.unplanned_of_plans (h : a.plans = false) : a.unplanned = false := by
  unfold App.unplanned
  split
  · exact h
  · rfl

theorem App.unplanned_of_live (h : HostRedial.live a.session.state = true) :
    a.unplanned = false := by
  unfold App.unplanned
  split
  · next hstate =>
    rw [hstate] at h
    cases h
  · rfl

/-- A failure that is still to be planned for is no session. -/
theorem App.not_live_of_unplanned (h : a.unplanned = true) :
    HostRedial.live a.session.state = false := by
  by_contra hlive
  rw [App.unplanned_of_live (Bool.not_eq_false _ ▸ hlive)] at h
  cases h

/-- A session that is up was attempted. -/
theorem Books.attempted_of_live (h : Books l a) (hlive : HostRedial.live a.session.state = true) :
    a.autoConnectAttempted = true := by
  by_contra hfalse
  rw [(h.early (Bool.eq_false_iff.mpr hfalse)).1] at hlive
  cases hlive

theorem Books.attempted_of_unplanned (h : Books l a) (hunplanned : a.unplanned = true) :
    a.autoConnectAttempted = true := by
  by_contra hfalse
  rw [App.unplanned, (h.early (Bool.eq_false_iff.mpr hfalse)).1] at hunplanned
  cases hunplanned

/-- A failure that is planned for is not the ninth one already. -/
theorem Books.exhausted_of_unplanned (h : Books l a) (hunplanned : a.unplanned = true) :
    l.exhausted = false := by
  by_contra hexhausted
  have hdone := h.exhausted (Bool.not_eq_false _ ▸ hexhausted)
  rw [App.unplanned_of_plans hdone.plans] at hunplanned
  cases hunplanned

/-- While a session is up the budget is not exhausted. -/
theorem Books.exhausted_of_live (h : Books l a) (hlive : HostRedial.live a.session.state = true) :
    l.exhausted = false := by
  by_contra hexhausted
  have hdone := h.exhausted (Bool.not_eq_false _ ▸ hexhausted)
  cases hdone.live.symm.trans hlive

theorem Books.stopped_of_suppressed (h : Books l a) (hgoing : a.autoRetrySuppressed = false) :
    l.stopped = false := by
  by_contra hstopped
  have hhalted := h.stopped (Bool.not_eq_false _ ▸ hstopped)
  cases hhalted.suppressed.symm.trans hgoing

/-- A session of which the failure, if it has one, is planned for. -/
theorem Books.running (h : Books l a) (hrunning : (a'.session.running || a'.unplanned) = true)
    (hsession : a'.session.running = a.session.running) (hplanned : a'.unplanned = false)
    (husb : a.transport = .usb) :
    l.wifi = false ∧ a.selected.isSome = true := by
  rw [hplanned, Bool.or_false, hsession] at hrunning
  exact h.session (by rw [hrunning]; rfl) husb

/-- A call of `auto_connect` is allowed, and is entered in the books. -/
theorem Books.call (h : Books l a) (hcalls : a.Calls o a' ns)
    (hattempted : a.autoConnectAttempted = true) (hexhausted : l.exhausted = false)
    (hstopped : l.stopped = false) (hwifi : .dialled .lan ∈ ns → a.usbWaitForDevice = false)
    (hpaid : a.transport = .usb → a.session.running = false → a.usbWaitForDevice = false →
      a.autoRetries ≠ 0 → l.paid = true) :
    Covers l ns ∧ Books (ns.foldl Ledger.after l) a' := by
  have hearly {p : Prop} (hfalse : a.autoConnectAttempted = false) : p := by
    rw [hattempted] at hfalse
    cases hfalse
  have hnone {p : Prop} (htrue : l.exhausted = true) : p := by
    rw [hexhausted] at htrue
    cases htrue
  have hgoing {p : Prop} (htrue : l.stopped = true) : p := by
    rw [hstopped] at htrue
    cases htrue
  cases hcalls with
  | nothing => exact ⟨covers_nil, h⟩
  | waits autoRetry hrunning husb hwarm hheld =>
    -- a wait that begins here has a plan's dial to wait with
    have hwait : (l.wifi = false ∧ a.selected.isSome = true) ∨ l.paid = true := by
      cases hwait : a.usbWaitForDevice with
      | true => exact h.wait hwait
      | false =>
        have hretries := hwarm.resolve_left (Bool.eq_false_iff.mp hwait)
        exact .inr (hpaid husb hrunning hwait hretries)
    have hallows : l.Allows (.waits a.autoRetries a.autoRetries) := rfl
    refine ⟨covers_singleton hallows, ?_⟩
    have hheld' : (a.absent || a.usbWaitForDevice) = true := Bool.or_eq_true_iff.mpr hheld
    exact {
      early := hearly
      live := h.live
      plans := h.plans
      retries := h.retries
      exhausted := hnone
      stopped := hgoing
      lost := h.lost
      left := h.left
      session := h.session
      wait := fun _ => hwait
      seen := by
        intro hseen
        refine ⟨hheld', ?_⟩
        rcases Bool.or_eq_true_iff.mp hseen with habsent | hseen
        · rcases hwait with ⟨hwifi, hsome⟩ | hpaid
          · have hlost := App.absent_lost habsent hsome
            exact .inl ((h.left hwifi).trans (h.lost hlost))
          · exact .inr hpaid
        · exact (h.seen hseen).2
      timer := fun _ hfalse => absurd_flag hheld' hfalse }
  | usb hrunning husb habsent hseen hwarm =>
    have hpayment : l.paid = true ∨ l.left = true := by
      cases hwait : a.usbWaitForDevice with
      | true => exact (h.seen (hseen hwait)).2.symm
      | false =>
        have hretries := hwarm.resolve_left (Bool.eq_false_iff.mp hwait)
        exact .inl (hpaid husb hrunning hwait hretries)
    have hallows : l.Allows (.dialled .usb) := ⟨hexhausted, hstopped, fun _ => hpayment⟩
    obtain ⟨hselected, hlost⟩ := Bool.or_eq_false_iff.mp habsent
    refine ⟨covers_singleton hallows, ?_⟩
    exact {
      early := hearly
      live := Link.connect_live o.error
      plans := h.plans
      retries := h.retries
      exhausted := hnone
      stopped := hgoing
      lost := fun hlost' => absurd_flag hlost' hlost
      left := fun _ => rfl
      session := fun _ _ => ⟨rfl, Option.isNone_eq_false_iff.mp hselected⟩
      wait := nofun
      seen := nofun
      timer := fun htimer _ _ => .inr (App.dial_session o _ htimer) }
  | lan hrunning hlan =>
    have hwait : a.usbWaitForDevice = false := hwifi (List.mem_singleton_self _)
    have hallows : l.Allows (.dialled .lan) := ⟨hexhausted, hstopped, nofun⟩
    refine ⟨covers_singleton hallows, ?_⟩
    exact {
      early := hearly
      live := Link.connect_live o.error
      plans := h.plans
      retries := h.retries
      exhausted := hnone
      stopped := hgoing
      lost := h.lost
      left := nofun
      session := fun _ husb => nomatch hlan.symm.trans husb
      wait := fun hwait' => absurd_flag hwait' hwait
      seen := fun hseen => absurd_flag (h.seen hseen).1 hwait
      timer := fun htimer _ _ => .inr (App.dial_session o a htimer) }

/-! ## A frame's look at the session -/

/-- What is planned for a failure. -/
inductive Plans (input : RetryInput) : RetryPlan → Prop
  | stop : Plans input .stop
  | exhausted : input.suppressed = false → AUTO_RETRY_LIMIT ≤ input.retries → Plans input .exhausted
  | waitForDevice : input.suppressed = false → input.usb = true → Plans input .waitForDevice
  | dial (delaySecs : ℕ) : input.suppressed = false → input.retries < AUTO_RETRY_LIMIT →
      Plans input (.dial (input.retries + 1) delaySecs)

/-- What a plan says about its input. -/
theorem planRetry_plans (L : Lowercase) {input : RetryInput} (h : input.pendingOrLive = true) :
    Plans input (planRetry L input) := by
  have hlimit : AUTO_RETRY_LIMIT < U32_MAX := by decide
  unfold planRetry
  rw [h, Bool.not_true, if_neg Bool.false_ne_true]
  split
  · exact .stop
  next hgoing =>
  obtain ⟨hsuppressed, -⟩ := Bool.or_eq_false_iff.mp (Bool.eq_false_iff.mpr hgoing)
  split
  · next hheld => exact .waitForDevice hsuppressed (Bool.and_eq_true_iff.mp hheld).1
  dsimp only
  split
  · next hover =>
    apply Plans.exhausted hsuppressed
    omega
  · next hwithin =>
    have hattempt : min (input.retries + 1) U32_MAX = input.retries + 1 := by omega
    rw [hattempt] at hwithin ⊢
    apply Plans.dial _ hsuppressed
    omega

/-- What the beginning of `logic` does, with its notes. -/
inductive App.Observes (a : App) : App → List Note → Prop
  | streams : a.session.state = .waiting ∨ a.session.state = .streaming →
      Observes a
        { a with
          autoAttemptPending := false
          autoRetries := 0
          autoRetry := none
          recoverFromDrop := true
          usbWaitForDevice := false
          usbAbsentSeen := false }
        [.reset]
  | attempts : HostRedial.live a.session.state = true →
      Observes a
        { a with autoAttemptPending := false, recoverFromDrop := true, autoRetry := none } []
  | stays : a.unplanned = false → Observes a a []
  | stops : a.unplanned = true →
      Observes a
        { a with
          autoAttemptPending := false
          recoverFromDrop := false
          autoRetry := none
          usbWaitForDevice := false
          usbAbsentSeen := false }
        []
  | exhausts (autoRetries : ℕ) : a.unplanned = true → AUTO_RETRY_LIMIT ≤ a.autoRetries →
      autoRetries = a.autoRetries ∨ autoRetries = AUTO_RETRY_LIMIT + 1 →
      Observes a
        { a with
          autoAttemptPending := false
          recoverFromDrop := false
          autoRetry := none
          usbWaitForDevice := false
          usbAbsentSeen := false
          autoRetries := autoRetries }
        [.exhausted]
  | waits (autoRetry : Option ℕ) : a.unplanned = true → a.autoRetrySuppressed = false →
      a.transport = .usb →
      Observes a
        { a with
          autoAttemptPending := false
          recoverFromDrop := false
          usbWaitForDevice := true
          usbAbsentSeen := a.absent || a.usbAbsentSeen
          autoRetry := autoRetry }
        [.waits a.autoRetries a.autoRetries]
  | arms (autoRetry : Option ℕ) : a.unplanned = true → a.autoRetrySuppressed = false →
      a.autoRetries < AUTO_RETRY_LIMIT →
      Observes a
        { a with
          autoAttemptPending := false
          recoverFromDrop := false
          usbWaitForDevice := false
          usbAbsentSeen := false
          autoRetries := a.autoRetries + 1
          autoRetry := autoRetry }
        [.armed (a.autoRetries + 1)]

/-- What `observe` may do. -/
theorem App.observes (L : Lowercase) (now : ℕ) (a : App) :
    a.Observes (a.observe L now) (a.observeNotes L now) := by
  unfold App.observeNotes
  cases hstate : a.session.state with
  | waiting =>
    rw [App.observe, hstate]
    exact .streams (.inl hstate)
  | streaming =>
    rw [App.observe, hstate]
    exact .streams (.inr hstate)
  | connecting =>
    rw [App.observe, hstate]
    exact .attempts (by rw [hstate]; rfl)
  | approvalPending clientId =>
    rw [App.observe, hstate]
    exact .attempts (by rw [hstate]; rfl)
  | idle =>
    rw [App.observe, hstate]
    exact .stays (by rw [App.unplanned, hstate])
  | stopping =>
    rw [App.observe, hstate]
    exact .stays (by rw [App.unplanned, hstate])
  | failed error =>
    by_cases hplans : (a.autoAttemptPending || a.recoverFromDrop) = true
    · have hunplanned : a.unplanned = true := by
        rw [App.unplanned, hstate]
        exact hplans
      have hobserve : a.observe L now =
          App.armRetry L now error
            { a with autoAttemptPending := false, recoverFromDrop := false } := by
        rw [App.observe, hstate]
        exact if_pos hplans
      dsimp only
      rw [if_pos hplans, hobserve]
      have habsent : App.absent { a with autoAttemptPending := false, recoverFromDrop := false } =
          a.absent := rfl
      unfold App.armRetry
      rw [habsent]
      dsimp only
      generalize hplan : planRetry L
        { suppressed := a.autoRetrySuppressed
          pendingOrLive := true
          retries := a.autoRetries
          usb := a.transport == .usb
          deviceAbsent := a.absent
          error } = plan
      have hcases : Plans _ plan := hplan ▸ planRetry_plans L rfl
      cases hcases with
      | stop =>
        dsimp only
        split
        · next hover => exact .exhausts _ hunplanned hover (.inl rfl)
        · exact .stops hunplanned
      | exhausted _ hover => exact .exhausts _ hunplanned hover (.inr rfl)
      | waitForDevice hsuppressed husb =>
        exact .waits _ hunplanned hsuppressed (eq_of_beq husb)
      | dial delaySecs hsuppressed hwithin => exact .arms _ hunplanned hsuppressed hwithin
    · dsimp only
      rw [if_neg hplans, App.observe, hstate]
      dsimp only
      rw [if_neg hplans]
      apply App.Observes.stays
      rw [App.unplanned, hstate]
      exact Bool.eq_false_iff.mpr hplans

/-- `observe` plans within the budget. -/
theorem Books.observes (h : Books l a) (hobserves : a.Observes a' ns) :
    Covers l ns ∧ Books (ns.foldl Ledger.after l) a' ∧ a'.unplanned = false := by
  cases hobserves with
  | streams hstate =>
    have hlive : HostRedial.live a.session.state = true := by
      rcases hstate with hstate | hstate
      · rw [hstate]
        rfl
      · rw [hstate]
        rfl
    have hattempted := h.attempted_of_live hlive
    refine ⟨covers_singleton trivial, ?_, App.unplanned_of_live hlive⟩
    exact {
      early := fun hfalse => absurd_flag hattempted hfalse
      live := h.live
      plans := rfl
      retries := Nat.zero_le _
      exhausted := nofun
      stopped := fun hstopped => { h.stopped hstopped with timer := rfl }
      lost := h.lost
      left := h.left
      session := fun hrunning => h.running hrunning rfl (App.unplanned_of_live hlive)
      wait := nofun
      seen := nofun
      timer := nofun }
  | attempts hlive =>
    have hattempted := h.attempted_of_live hlive
    have hexhausted := h.exhausted_of_live hlive
    refine ⟨covers_nil, ?_, App.unplanned_of_live hlive⟩
    exact {
      early := fun hfalse => absurd_flag hattempted hfalse
      live := h.live
      plans := h.plans
      retries := h.retries
      exhausted := fun htrue => absurd_flag htrue hexhausted
      stopped := fun hstopped => { h.stopped hstopped with timer := rfl }
      lost := h.lost
      left := h.left
      session := fun hrunning => h.running hrunning rfl (App.unplanned_of_live hlive)
      wait := h.wait
      seen := h.seen
      timer := nofun }
  | stays hplanned => exact ⟨covers_nil, h, hplanned⟩
  | stops hunplanned =>
    have hattempted := h.attempted_of_unplanned hunplanned
    have hexhausted := h.exhausted_of_unplanned hunplanned
    refine ⟨covers_nil, ?_, App.unplanned_of_plans rfl⟩
    exact {
      early := fun hfalse => absurd_flag hattempted hfalse
      live := h.live
      plans := h.plans
      retries := h.retries
      exhausted := fun htrue => absurd_flag htrue hexhausted
      stopped := fun hstopped => { h.stopped hstopped with timer := rfl }
      lost := h.lost
      left := h.left
      session := fun hrunning => h.running hrunning rfl (App.unplanned_of_plans rfl)
      wait := nofun
      seen := nofun
      timer := nofun }
  | exhausts autoRetries hunplanned hover hretries =>
    have hattempted := h.attempted_of_unplanned hunplanned
    have hlive := App.not_live_of_unplanned hunplanned
    -- the ledger counts the plans up to the limit, and it has come to it
    have hplans : l.plans = AUTO_RETRY_LIMIT := h.plans.trans (Nat.min_eq_right hover)
    have hallows : l.Allows .exhausted := hplans
    refine ⟨covers_singleton hallows, ?_, App.unplanned_of_plans rfl⟩
    exact {
      early := fun hfalse => absurd_flag hattempted hfalse
      live := h.live
      plans := by
        show l.plans = min autoRetries AUTO_RETRY_LIMIT
        omega
      retries := by
        have hle := h.retries
        show autoRetries ≤ AUTO_RETRY_LIMIT + 1
        omega
      exhausted := fun _ =>
        { attempted := hattempted
          timer := rfl
          wait := rfl
          plans := rfl
          live := hlive }
      stopped := fun hstopped => { h.stopped hstopped with timer := rfl }
      lost := h.lost
      left := h.left
      session := fun hrunning => h.running hrunning rfl (App.unplanned_of_plans rfl)
      wait := nofun
      seen := nofun
      timer := nofun }
  | waits autoRetry hunplanned hgoing husb =>
    have hattempted := h.attempted_of_unplanned hunplanned
    have hexhausted := h.exhausted_of_unplanned hunplanned
    have hstopped := h.stopped_of_suppressed hgoing
    have hsession : l.wifi = false ∧ a.selected.isSome = true :=
      h.session (by rw [hunplanned, Bool.or_true]) husb
    have hallows : l.Allows (.waits a.autoRetries a.autoRetries) := rfl
    refine ⟨covers_singleton hallows, ?_, App.unplanned_of_plans rfl⟩
    exact {
      early := fun hfalse => absurd_flag hattempted hfalse
      live := h.live
      plans := h.plans
      retries := h.retries
      exhausted := fun htrue => absurd_flag htrue hexhausted
      stopped := fun htrue => absurd_flag htrue hstopped
      lost := h.lost
      left := h.left
      session := fun hrunning => h.running hrunning rfl (App.unplanned_of_plans rfl)
      wait := fun _ => .inl hsession
      seen := by
        intro hseen
        refine ⟨rfl, ?_⟩
        -- the phone was missed just now, or in an earlier frame
        rcases Bool.or_eq_true_iff.mp hseen with habsent | hseen
        · have hlost := App.absent_lost habsent hsession.2
          exact .inl ((h.left hsession.1).trans (h.lost hlost))
        · exact (h.seen hseen).2
      timer := nofun }
  | arms autoRetry hunplanned hgoing hwithin =>
    have hattempted := h.attempted_of_unplanned hunplanned
    have hexhausted := h.exhausted_of_unplanned hunplanned
    have hstopped := h.stopped_of_suppressed hgoing
    -- below the limit the counter is the number of plans
    have hplans : l.plans = a.autoRetries := h.plans.trans (Nat.min_eq_left (Nat.le_of_lt hwithin))
    have hallows : l.Allows (.armed (a.autoRetries + 1)) := by
      show l.plans < AUTO_RETRY_LIMIT
      omega
    refine ⟨covers_singleton hallows, ?_, App.unplanned_of_plans rfl⟩
    exact {
      early := fun hfalse => absurd_flag hattempted hfalse
      live := h.live
      plans := by
        show l.plans + 1 = min (a.autoRetries + 1) AUTO_RETRY_LIMIT
        omega
      retries := by
        show a.autoRetries + 1 ≤ AUTO_RETRY_LIMIT + 1
        omega
      exhausted := fun htrue => absurd_flag htrue hexhausted
      stopped := fun htrue => absurd_flag htrue hstopped
      lost := h.lost
      left := h.left
      session := fun hrunning => h.running hrunning rfl (App.unplanned_of_plans rfl)
      wait := nofun
      seen := nofun
      timer := fun _ _ _ => .inl rfl }

/-! ## The steps of a frame -/

/-- So does the deferred switch. -/
theorem Books.switch (h : Books l a)
    (hwifi : .dialled .lan ∈ a.switchNotes o → a.usbWaitForDevice = false) :
    Covers l (a.switchNotes o) ∧ Books ((a.switchNotes o).foldl Ledger.after l) (a.switch o).1 ∧
      ((a.switch o).1 = a ∨ (a.switch o).1.transport = .lan) := by
  unfold App.switchNotes App.switch at *
  split
  · next hfires =>
    rw [if_pos hfires] at hwifi
    have hpending := (Bool.and_eq_true_iff.mp hfires).1
    have hattempted : a.autoConnectAttempted = true := by
      by_contra hfalse
      cases (h.early (Bool.eq_false_iff.mpr hfalse)).2.1.symm.trans hpending
    have hstopped : l.stopped = false := by
      by_contra hstopped
      have hhalted := h.stopped (Bool.not_eq_false _ ▸ hstopped)
      cases hhalted.pending.symm.trans hpending
    have hbooks : Books (l.after .reset)
        { a with
          pendingSwitchToLan := false
          transport := .lan
          autoRetries := 0
          autoRetrySuppressed := false } := {
      early := fun hfalse => absurd_flag hattempted hfalse
      live := h.live
      plans := rfl
      retries := Nat.zero_le _
      exhausted := nofun
      stopped := fun htrue => absurd_flag htrue hstopped
      lost := h.lost
      left := h.left
      session := nofun
      wait := h.wait
      seen := h.seen
      timer := fun _ _ hretries => absurd rfl hretries }
    have hcalls := App.calls o
      { a with
        pendingSwitchToLan := false
        transport := .lan
        autoRetries := 0
        autoRetrySuppressed := false }
    obtain ⟨hcovers, hcalled⟩ := hbooks.call hcalls hattempted rfl hstopped
      (fun hmem => hwifi (List.mem_cons_of_mem _ hmem)) nofun
    exact ⟨covers_cons.mpr ⟨trivial, hcovers⟩, hcalled, .inr hcalls.keeps.2⟩
  · exact ⟨covers_nil, h, .inl rfl⟩

/-- So does the timer. -/
theorem Books.retry (h : Books l a) (hobserved : a.transport = .usb → a.unplanned = false)
    (hwifi : .dialled .lan ∈ a.retryNotes o → a.usbWaitForDevice = false) :
    Covers l (a.retryNotes o) ∧ Books ((a.retryNotes o).foldl Ledger.after l) (a.retry o).1 ∧
      (a.retry o).1.autoConnectAttempted = true := by
  unfold App.retryNotes App.retry at *
  split
  · next hfirst =>
    rw [if_pos hfirst] at hwifi
    -- the dial of the launch, before anything was counted
    have hattempted : a.autoConnectAttempted = false := Bool.not_eq_true' _ ▸ hfirst
    obtain ⟨-, -, hretries⟩ := h.early hattempted
    have hexhausted : l.exhausted = false := by
      by_contra hexhausted
      cases hattempted.symm.trans (h.exhausted (Bool.not_eq_false _ ▸ hexhausted)).attempted
    have hstopped : l.stopped = false := by
      by_contra hstopped
      cases hattempted.symm.trans (h.stopped (Bool.not_eq_false _ ▸ hstopped)).attempted
    have hbooks : Books l { a with autoConnectAttempted := true } := { h with
      early := nofun
      exhausted := fun htrue => absurd_flag htrue hexhausted
      stopped := fun htrue => absurd_flag htrue hstopped }
    have hcalls := App.calls o { a with autoConnectAttempted := true }
    obtain ⟨hcovers, hcalled⟩ := hbooks.call hcalls rfl hexhausted hstopped hwifi
      fun _ _ _ hne => absurd hretries hne
    exact ⟨hcovers, hcalled, hcalls.keeps.1⟩
  · next hfirst =>
    rw [if_neg hfirst] at hwifi
    have hattempted : a.autoConnectAttempted = true := by
      by_contra hfalse
      rw [Bool.eq_false_iff.mpr hfalse] at hfirst
      exact hfirst rfl
    cases htimer : a.autoRetry with
    | none => exact ⟨covers_nil, h, hattempted⟩
    | some time =>
      rw [htimer] at hwifi
      dsimp only at hwifi ⊢
      split
      · next hdue =>
        rw [if_pos hdue] at hwifi
        have hset : a.autoRetry.isSome = true := by rw [htimer]; rfl
        have hexhausted : l.exhausted = false := by
          by_contra hexhausted
          cases htimer.symm.trans (h.exhausted (Bool.not_eq_false _ ▸ hexhausted)).timer
        have hstopped : l.stopped = false := by
          by_contra hstopped
          cases htimer.symm.trans (h.stopped (Bool.not_eq_false _ ▸ hstopped)).timer
        have hbooks : Books l { a with autoRetry := none } := { h with
          exhausted := fun htrue => absurd_flag htrue hexhausted
          stopped := fun htrue => absurd_flag htrue hstopped
          timer := nofun }
        have hcalls := App.calls o { a with autoRetry := none }
        -- the timer that comes due was paid for when it was set
        have hpaid (husb : a.transport = .usb) (_ : a.session.running = false)
            (hwait : a.usbWaitForDevice = false) (hretries : a.autoRetries ≠ 0) :
            l.paid = true := by
          rcases h.timer hset hwait hretries with hpaid | ⟨-, hunplanned⟩
          · exact hpaid
          · cases (hobserved husb).symm.trans hunplanned
        obtain ⟨hcovers, hcalled⟩ :=
          hbooks.call hcalls hattempted hexhausted hstopped hwifi hpaid
        exact ⟨hcovers, hcalled, hcalls.keeps.1.trans hattempted⟩
      · exact ⟨covers_nil, h, hattempted⟩

/-- A session that `poll` finds up was up before. -/
theorem Link.poll_cases {link link' : Link} {report : Report} (h : link.poll report = some link') :
    link' = link ∨
      (link.running = true ∧
        (HostRedial.live link'.state = true →
          link'.running = true ∧ HostRedial.live link.state = true)) := by
  cases report with
  | quiet => exact .inl (Option.some.inj h).symm
  | shows state =>
    simp only [Link.poll, Option.ite_none_right_eq_some, Bool.and_eq_true, Option.some.injEq] at h
    obtain ⟨⟨⟨hrunning, hlive⟩, -⟩, rfl⟩ := h
    exact .inr ⟨hrunning, fun _ => ⟨rfl, hlive⟩⟩
  | refused reason running =>
    simp only [Link.poll, Option.ite_none_right_eq_some, Bool.and_eq_true, Option.some.injEq] at h
    obtain ⟨⟨hrunning, -⟩, rfl⟩ := h
    exact .inr ⟨hrunning, fun htrue => absurd_flag htrue rfl⟩
  | failed message running =>
    simp only [Link.poll, Option.ite_none_right_eq_some, Option.some.injEq] at h
    obtain ⟨hrunning, rfl⟩ := h
    exact .inr ⟨hrunning, fun htrue => absurd_flag htrue rfl⟩
  | ended running =>
    simp only [Link.poll, Option.ite_none_right_eq_some] at h
    obtain ⟨hrunning, h⟩ := h
    refine .inr ⟨hrunning, ?_⟩
    split at h
    · obtain rfl := Option.some.inj h
      exact fun htrue => absurd_flag htrue rfl
    · obtain rfl := Option.some.inj h
      cases running with
      | true => exact fun htrue => absurd_flag htrue rfl
      | false => exact fun htrue => absurd_flag htrue rfl

/-- `poll` leaves the books alone. -/
theorem Books.poll (h : Books l a) (hattempted : a.autoConnectAttempted = true) {report : Report}
    {session : Link} (hpoll : a.session.poll report = some session) :
    Books l { a with session } := by
  rcases Link.poll_cases hpoll with rfl | ⟨hrunning, hlive⟩
  · exact h
  have hrun : (a.session.running || a.unplanned) = true := by rw [hrunning]; rfl
  exact { h with
    early := fun hfalse => absurd_flag hattempted hfalse
    live := fun hstate => (hlive hstate).1
    exhausted := by
      intro hexhausted
      have hdone := h.exhausted hexhausted
      refine { hdone with live := ?_ }
      by_contra hstate
      cases hdone.live.symm.trans (hlive (Bool.not_eq_false _ ▸ hstate)).2
    stopped := fun hstopped => { h.stopped hstopped with }
    session := fun _ => h.session hrun
    timer := by
      intro htimer hwait hretries
      rcases h.timer htimer hwait hretries with hpaid | ⟨hstill, -⟩
      · exact .inl hpaid
      · cases hstill.symm.trans hrunning }

/-- A phone once selected is never unselected. -/
theorem App.reconcileSelection_isSome (list : List Candidate) (h : a.selected.isSome = true) :
    (a.reconcileSelection list).selected.isSome = true := by
  have hcases := reconciles list a
  revert hcases
  generalize (a.reconcileSelection list).selected = selected
  generalize (a.reconcileSelection list).selectionLost = lost
  intro hcases
  cases hcases with
  | empty hnone =>
    rw [hnone] at h
    cases h
  | _ => rfl

/-- A device list is entered in the books. -/
theorem Books.listed (h : Books l a) (list : List Candidate) :
    Books (l.after (.listed (a.reconcileSelection list).absent)) (a.reconcileSelection list) := by
  have hkeeps := fun hsome => App.reconcileSelection_isSome (a := a) list hsome
  revert hkeeps
  obtain ⟨selected, lost, heq⟩ := App.reconcileSelection_eq list a
  rw [heq]
  intro hkeeps
  exact { h with
    exhausted := fun hexhausted => { h.exhausted hexhausted with }
    stopped := fun hstopped => { h.stopped hstopped with }
    lost := fun hlost => by
      show (l.leftUsb || (selected.isNone || lost)) = true
      have hlost' : lost = true := hlost
      rw [hlost', Bool.or_true, Bool.or_true]
    left := fun hwifi => by
      show (l.left || _) = (l.leftUsb || _)
      rw [h.left hwifi]
    session := fun hrunning husb => (h.session hrunning husb).imp_right hkeeps
    wait := fun hwait => (h.wait hwait).imp_left fun hphone => hphone.imp_right hkeeps
    seen := fun hseen => (h.seen hseen).imp_right fun hpaid =>
      hpaid.imp_left fun hleft => by
        show (l.left || _) = true
        rw [hleft, Bool.true_or] }

/-- A device list dials within the budget. -/
theorem Books.devices (h : Books l a) (hattempted : a.autoConnectAttempted = true)
    (list : List Candidate)
    (hwifi : .dialled .lan ∈ a.devicesNotes list o → a.usbWaitForDevice = false) :
    Covers l (a.devicesNotes list o) ∧
      Books ((a.devicesNotes list o).foldl Ledger.after l) (a.devices list o).1 ∧
        (a.devices list o).1.autoConnectAttempted = true := by
  have hbooks := h.listed list
  have hsame : (a.reconcileSelection list).autoConnectAttempted = true ∧
      (a.reconcileSelection list).usbWaitForDevice = a.usbWaitForDevice := by
    obtain ⟨selected, lost, heq⟩ := App.reconcileSelection_eq list a
    rw [heq]
    exact ⟨hattempted, rfl⟩
  unfold App.devicesNotes App.devices at *
  dsimp only at hwifi ⊢
  generalize a.reconcileSelection list = b at *
  split
  · next hfires =>
    rw [if_pos hfires] at hwifi
    simp only [Bool.and_eq_true, Bool.not_eq_true'] at hfires
    obtain ⟨⟨⟨⟨hwait, -⟩, -⟩, -⟩, hgoing⟩ := hfires
    have hexhausted : (l.after (.listed b.absent)).exhausted = false := by
      by_contra hexhausted
      cases (hbooks.exhausted (Bool.not_eq_false _ ▸ hexhausted)).wait.symm.trans hwait
    have hstopped := hbooks.stopped_of_suppressed hgoing
    have hcalls := App.calls o b
    obtain ⟨hcovers, hcalled⟩ := hbooks.call hcalls hsame.1 hexhausted hstopped
      (fun hmem => hsame.2.trans (hwifi (List.mem_cons_of_mem _ hmem)))
      fun _ _ hfalse => absurd_flag hwait hfalse
    exact ⟨covers_cons.mpr ⟨trivial, hcovers⟩, hcalled, hcalls.keeps.1.trans hsame.1⟩
  · exact ⟨covers_singleton trivial, hbooks, hsame.1⟩

/-- A timer runs only after the failure was planned for. -/
theorem App.planned_of_timer (hok : (!(a.unplanned && a.autoRetry.isSome)) = true)
    (htimer : a.autoRetry.isSome = true) : a.unplanned = false := by
  rw [htimer, Bool.and_true] at hok
  exact Bool.not_eq_true' _ ▸ hok

/-- So does a press. -/
theorem Books.press (h : Books l a) (hattempted : a.autoConnectAttempted = true) {press : Press}
    {p : App × List Event} (hok : a.pressOrderly press = true) (hpress : a.press press = some p) :
    Covers l (a.pressNotes press) ∧ Books ((a.pressNotes press).foldl Ledger.after l) p.1 := by
  cases press with
  | switchToWifi =>
    obtain rfl := Option.some.inj hpress
    refine ⟨covers_singleton trivial, ?_⟩
    -- what runs is told to stop, and the switch waits for that
    by_cases hrunning : a.session.running = true
    · have hrun : (a.session.running || a.unplanned) = true := by rw [hrunning]; rfl
      have hstop : a.session.stop = { a.session with state := .stopping } := if_pos hrunning
      rw [hstop]
      exact { h with
        early := fun hfalse => absurd_flag hattempted hfalse
        live := fun htrue => absurd_flag htrue rfl
        exhausted := fun hexhausted => { h.exhausted hexhausted with live := rfl }
        stopped := fun htrue => absurd_flag htrue rfl
        session := fun _ => h.session hrun
        timer := by
          intro htimer hwait hretries
          rcases h.timer htimer hwait hretries with hpaid | ⟨hstill, -⟩
          · exact .inl hpaid
          · cases hstill.symm.trans hrunning }
    · have hstop : a.session.stop = a.session := if_neg hrunning
      rw [hstop]
      exact { h with
        early := fun hfalse => absurd_flag hattempted hfalse
        exhausted := fun hexhausted => { h.exhausted hexhausted with }
        stopped := fun htrue => absurd_flag htrue rfl }
  | transport mode =>
    -- in an orderly run a timer that is left was planned for before the press
    simp only [App.press, Option.ite_none_left_eq_some, Option.some.injEq] at hpress
    obtain ⟨hrunning, rfl⟩ := hpress
    have hplanned := App.planned_of_timer hok
    refine ⟨covers_nil, ?_⟩
    exact { h with
      early := fun hfalse => absurd_flag hattempted hfalse
      live := fun htrue => absurd_flag htrue rfl
      exhausted := fun hexhausted => { h.exhausted hexhausted with live := rfl }
      stopped := fun hstopped => { h.stopped hstopped with }
      session := fun hrun => absurd ((Bool.or_false _).symm.trans hrun) hrunning
      timer := by
        intro htimer hwait hretries
        rcases h.timer htimer hwait hretries with hpaid | ⟨-, hunplanned⟩
        · exact .inl hpaid
        · cases (hplanned htimer).symm.trans hunplanned }
  | choose id =>
    simp only [App.press, Option.ite_none_left_eq_some, Option.some.injEq] at hpress
    obtain ⟨-, rfl⟩ := hpress
    refine ⟨covers_nil, ?_⟩
    exact { h with
      exhausted := fun hexhausted => { h.exhausted hexhausted with }
      stopped := fun hstopped => { h.stopped hstopped with }
      lost := fun htrue => absurd_flag htrue rfl
      session := fun hrun husb => (h.session hrun husb).imp_right fun _ => rfl
      wait := fun hwait => (h.wait hwait).imp_left fun hphone => hphone.imp_right fun _ => rfl }
  | connect paired error =>
    simp only [App.press, Option.ite_none_left_eq_some, Option.some.injEq, Bool.or_eq_true,
      not_or] at hpress
    obtain ⟨⟨-, hallowed⟩, rfl⟩ := hpress
    -- a press of Connect is a reset: the ledger starts anew, and so does the budget
    refine ⟨covers_cons.mpr ⟨trivial, covers_singleton trivial⟩, ?_⟩
    cases htransport : a.transport with
    | lan =>
      have hnotes : a.pressNotes (.connect paired error) = [.reset, .connected .lan] := by
        rw [App.pressNotes, htransport]
      rw [hnotes]
      exact {
        early := fun hfalse => absurd_flag hattempted hfalse
        live := Link.connect_live error
        plans := rfl
        retries := Nat.zero_le _
        exhausted := fun htrue => absurd_flag htrue rfl
        stopped := fun htrue => absurd_flag htrue rfl
        lost := h.lost
        left := fun hfalse => absurd_flag rfl hfalse
        session := fun _ husb => by cases husb
        wait := fun htrue => absurd_flag htrue rfl
        seen := fun htrue => absurd_flag htrue rfl
        timer := fun _ _ hretries => absurd rfl hretries }
    | usb =>
      rw [htransport] at hallowed
      -- over USB the button is there only with a phone
      have habsent : a.absent = false := by
        cases habsent : a.absent with
        | false => rfl
        | true =>
          rw [habsent] at hallowed
          exact absurd rfl hallowed
      obtain ⟨hselected, hlost⟩ := Bool.or_eq_false_iff.mp habsent
      have hnotes : a.pressNotes (.connect paired error) = [.reset, .connected .usb] := by
        rw [App.pressNotes, htransport]
      rw [hnotes]
      exact {
        early := fun hfalse => absurd_flag hattempted hfalse
        live := Link.connect_live error
        plans := rfl
        retries := Nat.zero_le _
        exhausted := fun htrue => absurd_flag htrue rfl
        stopped := fun htrue => absurd_flag htrue rfl
        lost := fun hlost' => absurd_flag hlost' hlost
        left := fun _ => rfl
        session := fun _ _ => ⟨rfl, Option.isNone_eq_false_iff.mp hselected⟩
        wait := fun htrue => absurd_flag htrue rfl
        seen := fun htrue => absurd_flag htrue rfl
        timer := fun _ _ hretries => absurd rfl hretries }
  | disconnect =>
    simp only [App.press, Option.ite_none_right_eq_some, Option.some.injEq] at hpress
    obtain ⟨hrunning, rfl⟩ := hpress
    -- in an orderly run no switch waits, so nothing dials after the press
    have hpending : a.pendingSwitchToLan = false := Bool.not_eq_true' _ ▸ hok
    have hrun : (a.session.running || a.unplanned) = true := by rw [hrunning]; rfl
    have hstop : a.session.stop = { a.session with state := .stopping } := if_pos hrunning
    rw [hstop]
    refine ⟨covers_singleton trivial, ?_⟩
    exact { h with
      early := fun hfalse => absurd_flag hattempted hfalse
      live := fun htrue => absurd_flag htrue rfl
      exhausted := fun hexhausted =>
        { h.exhausted hexhausted with timer := rfl, wait := rfl, plans := rfl, live := rfl }
      stopped := fun _ =>
        { attempted := hattempted, suppressed := rfl, timer := rfl, pending := hpending }
      session := fun _ => h.session hrun
      wait := fun htrue => absurd_flag htrue rfl
      seen := fun htrue => absurd_flag htrue rfl
      timer := fun htrue => absurd_flag htrue rfl }
  | replaceKey error =>
    cases hstate : a.session.state with
    | failed message =>
      simp only [App.press, hstate, Option.ite_none_right_eq_some, Option.some.injEq] at hpress
      obtain ⟨-, rfl⟩ := hpress
      refine ⟨covers_nil, ?_⟩
      cases error with
      | none =>
        have hplanned := App.planned_of_timer hok
        exact { h with
          early := fun hfalse => absurd_flag hattempted hfalse
          live := fun htrue => absurd_flag htrue rfl
          exhausted := fun hexhausted => { h.exhausted hexhausted with live := rfl }
          stopped := fun hstopped => { h.stopped hstopped with }
          session := fun hrun => h.running hrun rfl rfl
          timer := by
            intro htimer hwait hretries
            rcases h.timer htimer hwait hretries with hpaid | ⟨-, hunplanned⟩
            · exact .inl hpaid
            · cases (hplanned htimer).symm.trans hunplanned }
      | some error =>
        have hunplanned : a.unplanned = a.plans := by rw [App.unplanned, hstate]
        exact { h with
          early := fun hfalse => absurd_flag hattempted hfalse
          live := fun htrue => absurd_flag htrue rfl
          exhausted := fun hexhausted => { h.exhausted hexhausted with live := rfl }
          stopped := fun hstopped => { h.stopped hstopped with }
          session := fun hrun => h.session (hunplanned ▸ hrun)
          timer := fun htimer hwait hretries =>
            (h.timer htimer hwait hretries).imp_right (And.imp_right hunplanned.symm.trans) }
    | _ =>
      simp only [App.press, hstate] at hpress
      cases hpress

/-! ## Whole runs -/

/-- A dial over Wi-Fi is of a paired phone, with no session running. -/
theorem App.connectNotes_lan (h : .dialled .lan ∈ a.connectNotes o) :
    a.session.running = false ∧ a.transport = .lan ∧ o.paired = true := by
  unfold App.connectNotes at h
  split at h
  · cases h
  next hrunning =>
  split at h
  · split at h
    · cases h
    split at h
    · cases List.mem_singleton.mp h
    · cases List.mem_singleton.mp h
  · next hlan =>
    split at h
    · next hpaired => exact ⟨Bool.eq_false_iff.mpr hrunning, hlan, hpaired⟩
    · cases h

/-- No dial over Wi-Fi while a phone is waited for on USB. -/
theorem App.dialsBeside_false (hlan : a.transport = .lan) (hpaired : o.paired = true)
    (h : a.dialsBeside o = false) : a.usbWaitForDevice = false := by
  rw [App.dialsBeside, hlan, hpaired, Bool.and_true] at h
  exact (Bool.and_true _).symm.trans h

/-- So for the deferred switch. -/
theorem switch_wifi (hok : g.orderly (.switch o) = true)
    (hmem : .dialled .lan ∈ g.app.switchNotes o) : g.app.usbWaitForDevice = false := by
  unfold App.switchNotes at hmem
  split at hmem
  · next hfires =>
    rcases List.mem_cons.mp hmem with hreset | hmem
    · cases hreset
    obtain ⟨-, -, hpaired⟩ := App.connectNotes_lan hmem
    rw [Gui.orderly, hfires, hpaired, Bool.true_and, Bool.and_true, Bool.not_eq_true'] at hok
    exact hok
  · cases hmem

/-- So for the timer. -/
theorem retry_wifi (hok : g.orderly (.retry o) = true)
    (hmem : .dialled .lan ∈ g.app.retryNotes o) : g.app.usbWaitForDevice = false := by
  have hcall (hdue : g.app.due o = true) (hrunning : g.app.session.running = false)
      (hlan : g.app.transport = .lan) (hpaired : o.paired = true) :
      g.app.usbWaitForDevice = false := by
    rw [Gui.orderly, hdue, hrunning, Bool.not_false, Bool.true_and, Bool.true_and,
      Bool.not_eq_true'] at hok
    exact App.dialsBeside_false hlan hpaired hok
  unfold App.retryNotes at hmem
  split at hmem
  · next hfirst =>
    obtain ⟨hrunning, hlan, hpaired⟩ := App.connectNotes_lan hmem
    exact hcall (Bool.or_eq_true_iff.mpr (.inl hfirst)) hrunning hlan hpaired
  split at hmem
  · next time htimer =>
    split at hmem
    · next hdue =>
      obtain ⟨hrunning, hlan, hpaired⟩ := App.connectNotes_lan hmem
      refine hcall (Bool.or_eq_true_iff.mpr (.inr ?_)) hrunning hlan hpaired
      rw [htimer]
      exact decide_eq_true hdue
    · cases hmem
  · cases hmem

/-- So for a device list. -/
theorem devices_wifi {list : List Candidate} (hok : g.orderly (.devices list o) = true)
    (hmem : .dialled .lan ∈ g.app.devicesNotes list o) : g.app.usbWaitForDevice = false := by
  unfold App.devicesNotes at hmem
  obtain ⟨selected, lost, heq⟩ := App.reconcileSelection_eq list g.app
  rw [heq] at hmem
  rw [Gui.orderly, App.dialsBeside, heq] at hok
  rcases List.mem_cons.mp hmem with hlisted | hmem
  · cases hlisted
  split at hmem
  · next hfires =>
    simp only [Bool.and_eq_true, Bool.not_eq_true'] at hfires
    obtain ⟨⟨⟨⟨-, hsome⟩, hfound⟩, -⟩, hgoing⟩ := hfires
    obtain ⟨hrunning, hlan, hpaired⟩ := App.connectNotes_lan hmem
    have habsent : (selected.isNone || lost) = false :=
      Bool.or_eq_false_iff.mpr ⟨Option.isNone_eq_false_iff.mpr hsome, hfound⟩
    dsimp only [App.absent] at hok hrunning hlan hgoing
    rw [habsent, hgoing, hrunning, hlan, hpaired, Bool.and_true] at hok
    exact (Bool.and_true _).symm.trans (Bool.not_eq_true' _ ▸ hok)
  · cases hmem

/-- What every orderly run keeps. -/
structure Balanced (tr : List Note) (g : Gui) : Prop where
  covered : Covered tr
  books : Books (ledger tr) g.app
  stage : Stage g

theorem stage_frame (a : App) : Stage ⟨.observe, a⟩ where
  attempted hphase := by rcases hphase with hphase | hphase <;> cases hphase
  observed hphase := by rcases hphase with hphase | hphase <;> cases hphase

/-- In the first half of a frame. -/
theorem stage_planned {phase : Phase} (hphase : phase = .switch ∨ phase = .retry)
    (h : a.transport = .usb → a.unplanned = false) : Stage ⟨phase, a⟩ where
  attempted hlate := by
    rcases hphase with rfl | rfl
    · rcases hlate with hlate | hlate <;> cases hlate
    · rcases hlate with hlate | hlate <;> cases hlate
  observed _ := h

/-- In the second half of a frame. -/
theorem stage_attempted {phase : Phase} (hphase : phase = .poll ∨ phase = .rest)
    (h : a.autoConnectAttempted = true) : Stage ⟨phase, a⟩ where
  attempted _ := h
  observed hearly := by
    rcases hphase with rfl | rfl
    · rcases hearly with hearly | hearly <;> cases hearly
    · rcases hearly with hearly | hearly <;> cases hearly

/-- A step of the noted system is one of the window. -/
theorem noted_step {i : Label} (h : (noted L).step g i = some (g', ns)) :
    ∃ es, g.step L i = some (g', es) ∧ ns = g.notes L i := by
  obtain ⟨p, hp, heq⟩ := Option.map_eq_some_iff.mp h
  obtain ⟨rfl, rfl⟩ := Prod.mk.inj heq
  exact ⟨p.2, hp, rfl⟩

/-- Every orderly step keeps the books balanced. -/
theorem Balanced.step {i : Label} (h : Balanced tr g) (hok : g.orderly i = true)
    (hstep : (noted L).step g i = some (g', ns)) : Balanced (tr ++ ns) g' := by
  suffices hkeeps : Covers (ledger tr) ns ∧ Books (ns.foldl Ledger.after (ledger tr)) g'.app ∧
      Stage g' by
    obtain ⟨hcovers, hbooks, hstage⟩ := hkeeps
    exact ⟨h.covered.append hcovers, ledger_append tr ns ▸ hbooks, hstage⟩
  obtain ⟨es, hgui, rfl⟩ := noted_step hstep
  cases i with
  | observe now =>
    simp only [Gui.step, Option.ite_none_right_eq_some, Option.some.injEq, Prod.mk.injEq] at hgui
    obtain ⟨-, rfl, -⟩ := hgui
    obtain ⟨hcovers, hbooks, hplanned⟩ := h.books.observes (App.observes L now g.app)
    exact ⟨hcovers, hbooks, stage_planned (.inl rfl) fun _ => hplanned⟩
  | switch o =>
    simp only [Gui.step, Option.ite_none_right_eq_some, Option.some.injEq, Prod.mk.injEq] at hgui
    obtain ⟨hphase, rfl, -⟩ := hgui
    obtain ⟨hcovers, hbooks, hsame⟩ := h.books.switch (switch_wifi hok)
    refine ⟨hcovers, hbooks, stage_planned (.inr rfl) ?_⟩
    intro husb
    rcases hsame with hsame | hlan
    · rw [hsame] at husb ⊢
      exact h.stage.observed (.inl hphase) husb
    · cases hlan.symm.trans husb
  | retry o =>
    simp only [Gui.step, Option.ite_none_right_eq_some, Option.some.injEq, Prod.mk.injEq] at hgui
    obtain ⟨hphase, rfl, -⟩ := hgui
    obtain ⟨hcovers, hbooks, hattempted⟩ :=
      h.books.retry (h.stage.observed (.inr hphase)) (retry_wifi hok)
    exact ⟨hcovers, hbooks, stage_attempted (.inl rfl) hattempted⟩
  | poll report =>
    simp only [Gui.step, Option.ite_none_right_eq_some, Option.map_eq_some_iff, Prod.mk.injEq]
      at hgui
    obtain ⟨hphase, session, hpoll, rfl, -⟩ := hgui
    have hattempted := h.stage.attempted (.inl hphase)
    exact ⟨covers_nil, h.books.poll hattempted hpoll, stage_attempted (.inr rfl) hattempted⟩
  | devices list o =>
    simp only [Gui.step, Option.ite_none_right_eq_some, Option.some.injEq, Prod.mk.injEq] at hgui
    obtain ⟨hphase, rfl, -⟩ := hgui
    obtain ⟨hcovers, hbooks, hattempted⟩ :=
      h.books.devices (h.stage.attempted (.inr hphase)) list (devices_wifi hok)
    exact ⟨hcovers, hbooks, stage_attempted (.inr rfl) hattempted⟩
  | ui press =>
    cases press with
    | none =>
      simp only [Gui.step, Option.ite_none_right_eq_some, Option.some.injEq, Prod.mk.injEq] at hgui
      obtain ⟨-, rfl, -⟩ := hgui
      exact ⟨covers_nil, h.books, stage_frame g.app⟩
    | some press =>
      simp only [Gui.step, Option.ite_none_right_eq_some, Option.map_eq_some_iff, Prod.mk.injEq]
        at hgui
      obtain ⟨hphase, p, hpress, rfl, -⟩ := hgui
      have hattempted := h.stage.attempted (.inr hphase)
      obtain ⟨hcovers, hbooks⟩ := h.books.press hattempted hok hpress
      exact ⟨hcovers, hbooks, stage_frame p.1⟩

/-- The books are balanced at the launch. -/
theorem balanced_launched (transport : Transport) : Balanced [] ⟨.observe, launched transport⟩ where
  covered := Trace.each_nil
  books :=
    { early := fun _ => ⟨rfl, rfl, rfl⟩
      live := nofun
      plans := rfl
      retries := Nat.zero_le _
      exhausted := nofun
      stopped := nofun
      lost := nofun
      left := fun _ => rfl
      session := nofun
      wait := nofun
      seen := nofun
      timer := nofun }
  stage := stage_frame (launched transport)

/-- The books are balanced in every orderly run. -/
theorem balanced (h : (noted L).Under Orderly tr g) : Balanced tr g := by
  refine h.invariant ?_ ?_
  · rintro _ ⟨transport, rfl⟩
    exact balanced_launched transport
  · intro tr g i g' ns _ hok hbalanced hstep
    exact hbalanced.step hok hstep

/-- A frame with one list of devices at most, and with the error of the dial it leads to. -/
def frame (now : ℕ) (report : Report) (list : Option (List Candidate)) (error : Option String)
    (press : Option Press) : List Label :=
  [Label.observe now, .switch (reachable now), .retry (reachable now), .poll report] ++
    (list.map fun list => .devices list ⟨now, true, error⟩).toList ++ [Label.ui press]

/-- The first phone, listed and free to open. -/
def phone : Candidate := ⟨firstPhone, true⟩

/-- Connect over USB, and an attempt. -/
def connecting (report : Report) (list : Option (List Candidate)) : List Label :=
  frame 0 .quiet (some [phone]) none (some (.connect true none)) ++ frame 0 report list none none

/-- A run over USB with these notes. -/
def Tells (tr : List Note) : Prop :=
  ∃ g, (noted asciiLowercase).Reaches tr g

end HostRedial
end MobileWebcamBridge
