import MobileWebcamBridge.Lib.Trace
import MobileWebcamBridge.MutualAuthorization

/-!
# The history of one exchange

`Legal` is the protocol as the PC may see it: the challenge of its own route, then an outcome, with
one `AUTH_PENDING` allowed before it. `Story` is the history of an exchange that runs, phase by
phase, and `Ending` what ends it. `Conforms` is what follows for any history of an exchange,
whatever frames arrive.
-/

set_option autoImplicit false

namespace MobileWebcamBridge
namespace MutualAuthorization

open HostAuth Wire Trace

variable {P : Platform} {pc : Pc} {wire : ℕ → Bool} {stored : ClientRepository P}
variable {e : ℕ} {route : Route} {publicKey : List UInt8} {phase : Phase}
variable {s s' : State P} {tr es h : List Event}

/-! ## The frames of the protocol -/

/-- The frame is a challenge for the route. -/
structure IsChallenge (route : Route) (frame : Received) (c : HostWire.ClientChallenge) : Prop where
  kind : frame.kind = HostWire.CLIENT_CHALLENGE
  decodes : HostWire.ClientChallenge.decode frame.payload = .ok c
  transport : c.transport = route.transport
  phoneBinding : c.phoneBinding = route.phoneBinding

/-- The frame is an outcome. -/
structure IsOutcome (frame : Received) (r : HostWire.ClientAuthResult) : Prop where
  kind : frame.kind = HostWire.CLIENT_AUTH_RESULT
  decodes : HostWire.ClientAuthResult.decode frame.payload = .ok r

/-- The sequences of frames the protocol allows an exchange to read. -/
inductive Legal (route : Route) : List Received → Prop
  | nothing : Legal route []
  | challenge {f : Received} {c : HostWire.ClientChallenge} :
      IsChallenge route f c → Legal route [f]
  | outcome {f g : Received} {c : HostWire.ClientChallenge} {r : HostWire.ClientAuthResult} :
      IsChallenge route f c → IsOutcome g r → Legal route [f, g]
  | decision {f p g : Received} {c : HostWire.ClientChallenge} {q r : HostWire.ClientAuthResult} :
      IsChallenge route f c → IsOutcome p q → q.status = HostWire.AUTH_PENDING →
      IsOutcome g r → r.status ≠ HostWire.AUTH_PENDING → Legal route [f, p, g]

/-- What the PC accepts is a challenge for its route. -/
theorem accept_ok {frame : Received} {c : HostWire.ClientChallenge}
    (h : route.accept frame = .ok c) : IsChallenge route frame c := by
  unfold Route.accept at h
  split at h
  · cases h
  next hkind =>
  split at h
  · cases h
  next challenge hdecodes =>
  split at h
  · cases h
  next htransport =>
  split at h
  · cases h
  next hbinding =>
  obtain rfl := Except.ok.inj h
  exact ⟨not_not.mp hkind, hdecodes, not_not.mp htransport, not_not.mp hbinding⟩

/-- What the PC refuses is none. -/
theorem accept_error {frame : Received} {error : String} (h : route.accept frame = .error error)
    (c : HostWire.ClientChallenge) : ¬ IsChallenge route frame c := by
  rintro ⟨hkind, hdecodes, htransport, hbinding⟩
  simp [Route.accept, hkind, hdecodes, htransport, hbinding] at h

/-- The decoder admits three statuses. -/
theorem IsOutcome.status {frame : Received} {r : HostWire.ClientAuthResult}
    (h : IsOutcome frame r) :
    r.status = HostWire.AUTH_AUTHORIZED ∨ r.status = HostWire.AUTH_PENDING ∨
      r.status = HostWire.AUTH_REJECTED := by
  have hdecodes := h.decodes
  unfold HostWire.ClientAuthResult.decode at hdecodes
  split at hdecodes
  · cases hdecodes
  dsimp only at hdecodes
  split at hdecodes
  · next hvalid =>
    obtain rfl := Except.ok.inj hdecodes
    unfold HostWire.ClientAuthResult.valid at hvalid
    split at hvalid
    · next hs => exact .inl hs
    split at hvalid
    · next hs => exact .inr (.inl hs)
    split at hvalid
    · next hs => exact .inr (.inr hs)
    · cases hvalid
  · cases hdecodes

/-- A pending outcome is the first; an authorization is the one in the frame. -/
theorem answer_ok {pending : Bool} {frame : Received} {outcome : Option Outcome}
    (h : answer pending frame = .ok outcome) :
    ∃ r, IsOutcome frame r ∧
      (outcome = none → r.status = HostWire.AUTH_PENDING ∧ pending = false) ∧
      (∀ o, outcome = some o → r.status ≠ HostWire.AUTH_PENDING ∧
        ∀ expires, o = .authorized expires →
          r.status = HostWire.AUTH_AUTHORIZED ∧ r.expiresAtUnixSeconds = expires) := by
  unfold answer at h
  split at h
  · cases h
  next hkind =>
  split at h
  · cases h
  next r hdecodes =>
  refine ⟨r, ⟨not_not.mp hkind, hdecodes⟩, ?_⟩
  split at h
  · next hs =>
    obtain rfl := Except.ok.inj h
    refine ⟨by simp, fun o ho => ⟨by rw [hs]; decide, fun expires he => ⟨hs, ?_⟩⟩⟩
    subst he
    simpa using ho
  split at h
  · next hs =>
    obtain rfl := Except.ok.inj h
    refine ⟨by simp, fun o ho => ⟨by rw [hs]; decide, fun expires he => ?_⟩⟩
    subst he
    simp at ho
  split at h
  · next hs =>
    obtain rfl := Except.ok.inj h
    exact ⟨fun _ => hs, by simp⟩
  · cases h

/-- What is refused is not an outcome, or a second pending one. -/
theorem answer_error {pending : Bool} {frame : Received} {error : String}
    (h : answer pending frame = .error error) {r : HostWire.ClientAuthResult}
    (hr : IsOutcome frame r) : r.status = HostWire.AUTH_PENDING ∧ pending = true := by
  simp only [answer, hr.kind, hr.decodes, ne_eq, not_true, if_false] at h
  rcases hr.status with hs | hs | hs
  · simp [hs] at h
  · refine ⟨hs, ?_⟩
    by_contra hp
    rw [Bool.not_eq_true] at hp
    simp [hs, hp, HostWire.AUTH_PENDING, HostWire.AUTH_AUTHORIZED, HostWire.AUTH_REJECTED] at h
  · simp [hs, HostWire.AUTH_AUTHORIZED, HostWire.AUTH_REJECTED] at h

/-! ## The history of an exchange -/

/-- The exchange an event is of. -/
def Event.exchange? : Event → Option ℕ
  | .began e .. | .read e .. | .signed e .. | .pending e | .returned e _ => some e
  | .phone _ | .injected _ => none

/-- The history of the exchange numbered `e`. -/
def about (e : ℕ) (tr : List Event) : List Event := tr.filter fun ev => ev.exchange? == some e

/-- The history of an exchange that runs, by its phase. -/
inductive Story (pc : Pc) (e : ℕ) (route : Route) (publicKey : List UInt8) :
    Phase → List Event → Prop
  | began : Story pc e route publicKey .challenge [.began e route publicKey]
  | challenged {h : List Event} {origin : Option ℕ} {f : Received} {c : HostWire.ClientChallenge} :
      Story pc e route publicKey .challenge h → IsChallenge route f c →
      Story pc e route publicKey (.proof c) (h ++ [Event.read e origin f])
  | proved {h : List Event} {c : HostWire.ClientChallenge} {label : List Char}
      {message : List UInt8} :
      Story pc e route publicKey (.proof c) h →
      HostWire.clientAuthMessage pc.unsafeScalar route.transport route.phoneBinding
        c.nonce publicKey
        label = .ok message →
      Story pc e route publicKey (.outcome false) (h ++ [Event.signed e publicKey message])
  | prompted {h : List Event} {origin : Option ℕ} {f : Received} {r : HostWire.ClientAuthResult} :
      Story pc e route publicKey (.outcome false) h → IsOutcome f r →
      r.status = HostWire.AUTH_PENDING →
      Story pc e route publicKey .notifying (h ++ [Event.read e origin f])
  | notified {h : List Event} :
      Story pc e route publicKey .notifying h →
      Story pc e route publicKey (.outcome true) (h ++ [Event.pending e])

/-- What ends an exchange, by the phase it ends in. -/
inductive Ending (pc : Pc) (e : ℕ) (route : Route) (publicKey : List UInt8) :
    Phase → List Event → Prop
  | failed {phase : Phase} (error : String) :
      Ending pc e route publicKey phase [.returned e (.error error)]
  | mistaken {origin : Option ℕ} {f : Received} {error : String} :
      (∀ c, ¬ IsChallenge route f c) →
      Ending pc e route publicKey .challenge [.read e origin f, .returned e (.error error)]
  | refused {pending : Bool} {origin : Option ℕ} {f : Received} {error : String} :
      (∀ r, IsOutcome f r → r.status = HostWire.AUTH_PENDING ∧ pending = true) →
      Ending pc e route publicKey (.outcome pending) [.read e origin f, .returned e (.error error)]
  | answered {pending : Bool} {origin : Option ℕ} {f : Received} {r : HostWire.ClientAuthResult}
      {outcome : Outcome} :
      IsOutcome f r → r.status ≠ HostWire.AUTH_PENDING →
      (∀ expires, outcome = .authorized expires →
        r.status = HostWire.AUTH_AUTHORIZED ∧ r.expiresAtUnixSeconds = expires) →
      Ending pc e route publicKey (.outcome pending) [.read e origin f, .returned e (.ok outcome)]
  | unsent {c : HostWire.ClientChallenge} {label : List Char} {message : List UInt8}
      {error : String} :
      HostWire.clientAuthMessage pc.unsafeScalar route.transport route.phoneBinding
        c.nonce publicKey
        label = .ok message →
      Ending pc e route publicKey (.proof c)
        [.signed e publicKey message, .returned e (.error error)]
  | unnotified {error : String} :
      Ending pc e route publicKey .notifying [.pending e, .returned e (.error error)]

/-- The history of an exchange that runs, or that has returned. -/
def Told (pc : Pc) (e : ℕ) (route : Route) (publicKey : List UInt8) (h : List Event) : Prop :=
  (∃ phase, Story pc e route publicKey phase h) ∨
    ∃ phase h₀ t, Story pc e route publicKey phase h₀ ∧ Ending pc e route publicKey phase t ∧
      h = h₀ ++ t

/-- A turn continues the story of an exchange, or ends it. -/
theorem Turn.told {x : Exchange} {next : Next} (ht : Turn pc e x es next)
    (hs : Story pc e x.route x.publicKey x.phase h) :
    (∀ x', next = .goesOn x' → x'.route = x.route ∧ x'.publicKey = x.publicKey ∧
      Story pc e x'.route x'.publicKey x'.phase (h ++ es)) ∧
    ∀ result, next = .returns result →
      Ending pc e x.route x.publicKey x.phase (es ++ [Event.returned e result]) := by
  cases ht with
  | idle =>
    refine ⟨?_, by simp⟩
    rintro _ ⟨⟩
    exact ⟨rfl, rfl, by rwa [List.append_nil]⟩
  | failed error =>
    refine ⟨by simp, ?_⟩
    rintro _ ⟨⟩
    exact .failed error
  | @received origin frame now hreceives =>
    -- what a frame does depends on what the PC waits for
    obtain ⟨route, publicKey, deadline, phase⟩ := x
    cases phase with
    | challenge =>
      simp only [Exchange.receive]
      split
      · next error herror =>
        refine ⟨by simp, ?_⟩
        rintro _ ⟨⟩
        exact .mistaken (accept_error herror)
      · next c hc =>
        refine ⟨?_, by simp⟩
        rintro _ ⟨⟩
        exact ⟨rfl, rfl, .challenged hs (accept_ok hc)⟩
    | outcome pending =>
      simp only [Exchange.receive]
      split
      · next error herror =>
        refine ⟨by simp, ?_⟩
        rintro _ ⟨⟩
        exact .refused fun r => answer_error herror
      · next outcome hanswer =>
        obtain ⟨r, hr, -, hdecided⟩ := answer_ok hanswer
        obtain ⟨hnot, hauthorized⟩ := hdecided outcome rfl
        refine ⟨by simp, ?_⟩
        rintro _ ⟨⟩
        exact .answered hr hnot hauthorized
      · next hanswer =>
        obtain ⟨r, hr, hpending, -⟩ := answer_ok hanswer
        obtain ⟨hstatus, rfl⟩ := hpending rfl
        refine ⟨?_, by simp⟩
        rintro _ ⟨⟩
        -- the one outcome after which the PC goes on waiting
        exact ⟨rfl, rfl, .prompted hs hr hstatus⟩
    | proof c => cases hreceives
    | notifying => cases hreceives
  | proved hphase hmessage =>
    rw [hphase] at hs
    refine ⟨?_, by simp⟩
    rintro _ ⟨⟩
    exact ⟨rfl, rfl, .proved hs hmessage⟩
  | unsent hphase hmessage =>
    refine ⟨by simp, ?_⟩
    rintro _ ⟨⟩
    rw [hphase]
    exact .unsent hmessage
  | @notified result hphase =>
    rw [hphase] at hs ⊢
    cases result with
    | error error =>
      refine ⟨by simp [Exchange.notified], ?_⟩
      rintro _ ⟨⟩
      exact .unnotified
    | ok _ =>
      refine ⟨?_, by simp [Exchange.notified]⟩
      rintro _ ⟨⟩
      exact ⟨rfl, rfl, .notified hs⟩

/-! ## Every history is such a story -/

theorem about_append (e : ℕ) (tr es : List Event) : about e (tr ++ es) = about e tr ++ about e es :=
  List.filter_append ..

/-- The events of one exchange. -/
theorem mem_about {ev : Event} : ev ∈ about e tr ↔ ev ∈ tr ∧ ev.exchange? = some e := by
  simp [about]

/-- Events that are of one exchange. -/
def OwnedBy (e : ℕ) (es : List Event) : Prop := ∀ ev ∈ es, ev.exchange? = some e

/-- They are all of it. -/
theorem OwnedBy.about_self (h : OwnedBy e es) : about e es = es := by
  unfold about
  rw [List.filter_eq_self]
  intro ev hev
  rw [h ev hev]
  exact beq_self_eq_true _

/-- None is of another. -/
theorem OwnedBy.about_other (h : OwnedBy e es) {i : ℕ} (hi : i ≠ e) : about i es = [] := by
  rw [about, List.filter_eq_nil_iff]
  intro ev hev
  rw [h ev hev]
  simpa using Ne.symm hi

/-- Events of no exchange. -/
def Apart (es : List Event) : Prop := ∀ ev ∈ es, ev.exchange? = none

/-- Events of no exchange. -/
theorem Apart.about (h : Apart es) (e : ℕ) : about e es = [] := by
  rw [MutualAuthorization.about, List.filter_eq_nil_iff]
  intro ev hev
  rw [h ev hev]
  simp

/-- A turn's events are its exchange's. -/
theorem Turn.owned {x : Exchange} {next : Next} (h : Turn pc e x es next) : OwnedBy e es := by
  cases h <;> simp [OwnedBy, Event.exchange?]

theorem owned_settle (s : State P) (e : ℕ) (next : Next) : OwnedBy e (s.settle e next).2 := by
  cases next <;> simp [OwnedBy, State.settle, Event.exchange?]

theorem apart_phone (es : List PhoneAuthorization.Event) : Apart (es.map .phone) := by
  intro ev hev
  obtain ⟨p, -, rfl⟩ := List.mem_map.mp hev
  rfl

/-- The numbers of the exchanges a history is about, in order. -/
def numbers (tr : List Event) : List ℕ := tr.filterMap Event.exchange?

/-- Every exchange so far has a story, and the numbers do not go back. -/
structure Histories (pc : Pc) (tr : List Event) (s : State P) : Prop where
  running : ∀ e x, s.current = some (e, x) →
    e + 1 = s.begun ∧ Story pc e x.route x.publicKey x.phase (about e tr)
  told : ∀ e < s.begun, ∃ route publicKey, Told pc e route publicKey (about e tr)
  unbegun : ∀ e, s.begun ≤ e → about e tr = []
  ordered : (numbers tr).Pairwise (· ≤ ·)

/-- Every exchange with an event was begun. -/
theorem Histories.lt_begun (h : Histories pc tr s) {i : ℕ} (hi : i ∈ numbers tr) : i < s.begun := by
  by_contra hge
  obtain ⟨ev, hev, hnumber⟩ := List.mem_filterMap.mp hi
  have hmem : ev ∈ about i tr := mem_about.mpr ⟨hev, hnumber⟩
  rw [h.unbegun i (by omega)] at hmem
  cases hmem

/-- Nothing is added to the history of any exchange. -/
theorem Histories.apart (h : Histories pc tr s) (hes : Apart es) (hbegun : s'.begun = s.begun)
    (hcurrent : s'.current = s.current) : Histories pc (tr ++ es) s' := by
  have hsame (i : ℕ) : about i (tr ++ es) = about i tr := by
    rw [about_append, hes.about, List.append_nil]
  have hnumbers : numbers (tr ++ es) = numbers tr := by
    have hnil : numbers es = [] := List.filterMap_eq_nil_iff.mpr hes
    unfold numbers at hnil ⊢
    rw [List.filterMap_append, hnil, List.append_nil]
  refine ⟨fun e x hx => ?_, fun i hi => ?_, fun i hi => ?_, hnumbers ▸ h.ordered⟩
  · rw [hsame, hbegun]
    exact h.running e x (hcurrent ▸ hx)
  · rw [hsame]
    exact h.told i (hbegun ▸ hi)
  · rw [hsame]
    exact h.unbegun i (hbegun ▸ hi)

/-- Events of the last exchange keep the order. -/
theorem Histories.ordered_append (h : Histories pc tr s) (hes : OwnedBy e es)
    (he : s.begun ≤ e + 1) : (numbers (tr ++ es)).Pairwise (· ≤ ·) := by
  have hall : ∀ i ∈ numbers es, i = e := by
    intro i hi
    obtain ⟨ev, hev, hnumber⟩ := List.mem_filterMap.mp hi
    rw [hes ev hev, Option.some.injEq] at hnumber
    exact hnumber.symm
  have hsplit : numbers (tr ++ es) = numbers tr ++ numbers es := List.filterMap_append
  rw [hsplit, List.pairwise_append]
  refine ⟨h.ordered, ?_, fun i hi j hj => ?_⟩
  · apply List.Pairwise.imp_of_mem (R := fun _ _ => True)
    · intro i j hi hj _
      rw [hall i hi, hall j hj]
    · exact List.pairwise_of_forall fun _ _ => trivial
  · have hlt := h.lt_begun hi
    rw [hall j hj]
    omega

/-- An exchange begins. -/
theorem Histories.started (h : Histories pc tr s) {now timeout : ℕ} :
    Histories pc (tr ++ [Event.began s.begun route publicKey])
      { s with
        begun := s.begun + 1
        current := some (s.begun, .start route publicKey now timeout) } := by
  have howned : OwnedBy s.begun [.began s.begun route publicKey] := by
    simp [OwnedBy, Event.exchange?]
  have hnew : about s.begun (tr ++ [Event.began s.begun route publicKey]) =
      [.began s.begun route publicKey] := by
    rw [about_append, h.unbegun _ (Nat.le_refl _), howned.about_self, List.nil_append]
  have hold {i : ℕ} (hi : i ≠ s.begun) :
      about i (tr ++ [Event.began s.begun route publicKey]) = about i tr := by
    rw [about_append, howned.about_other hi, List.append_nil]
  refine ⟨?_, fun i hi => ?_, fun i hi => ?_, h.ordered_append howned (Nat.le_succ _)⟩
  · rintro e x ⟨⟩
    rw [hnew]
    exact ⟨rfl, .began⟩
  · by_cases hlast : i = s.begun
    · subst hlast
      rw [hnew]
      exact ⟨route, publicKey, .inl ⟨_, .began⟩⟩
    · rw [hold hlast]
      exact h.told i (by simp only at hi; omega)
  · simp only at hi
    rw [hold (by omega)]
    exact h.unbegun i (by omega)

/-- An exchange takes a turn. -/
theorem Histories.turned (h : Histories pc tr s) {x : Exchange} {next : Next}
    {toHost : List (Option ℕ × Received)} {toPhone : List (List UInt8)}
    (hcurrent : s.current = some (e, x)) (hturn : Turn pc e x es next) :
    Histories pc (tr ++ (es ++ ({ s with toHost, toPhone }.settle e next).2))
      ({ s with toHost, toPhone }.settle e next).1 := by
  obtain ⟨hbegun, hstory⟩ := h.running e x hcurrent
  obtain ⟨hgoes, hreturns⟩ := hturn.told hstory
  have howned : OwnedBy e (es ++ ({ s with toHost, toPhone }.settle e next).2) := by
    intro ev hev
    rcases List.mem_append.mp hev with hev | hev
    · exact hturn.owned ev hev
    · exact owned_settle _ _ _ ev hev
  have hself := howned.about_self
  have hother {i : ℕ} (hi : i ≠ e) := howned.about_other hi
  have hordered := h.ordered_append howned (by omega)
  have hsame : ({ s with toHost, toPhone }.settle e next).1.begun = s.begun := by
    cases next <;> rfl
  -- the exchange that ran still runs, or has returned
  have hmine : (∀ e' x', ({ s with toHost, toPhone }.settle e next).1.current = some (e', x') →
        e' = e ∧ Story pc e x'.route x'.publicKey x'.phase
          (about e tr ++ (es ++ ({ s with toHost, toPhone }.settle e next).2))) ∧
      Told pc e x.route x.publicKey
        (about e tr ++ (es ++ ({ s with toHost, toPhone }.settle e next).2)) := by
    cases next with
    | goesOn x' =>
      obtain ⟨hroute, hkey, hgoes⟩ := hgoes x' rfl
      simp only [State.settle, List.append_nil]
      refine ⟨?_, .inl ⟨_, hroute ▸ hkey ▸ hgoes⟩⟩
      rintro _ _ ⟨⟩
      exact ⟨rfl, hgoes⟩
    | returns result =>
      refine ⟨(fun _ _ hx => by cases hx), .inr ⟨_, _, _, hstory, hreturns result rfl, rfl⟩⟩
  refine ⟨fun e' x' hx => ?_, fun i hi => ?_, fun i hi => ?_, hordered⟩
  · obtain ⟨rfl, hgoes⟩ := hmine.1 e' x' hx
    rw [about_append, hself, hsame]
    exact ⟨hbegun, hgoes⟩
  · rw [about_append]
    by_cases hlast : i = e
    · subst hlast
      rw [hself]
      exact ⟨_, _, hmine.2⟩
    · rw [hother hlast, List.append_nil]
      exact h.told i (hsame ▸ hi)
  · rw [hsame] at hi
    rw [about_append, hother (by omega), List.append_nil]
    exact h.unbegun i hi

/-- The histories stand in every run. -/
theorem histories (h : (system pc wire stored).Reaches tr s) : Histories pc tr s := by
  refine h.invariant ?_ ?_
  · rintro s rfl
    exact ⟨(fun _ _ hx => by cases hx), (fun _ hi => by cases hi), fun _ _ => rfl,
      List.Pairwise.nil⟩
  · intro tr s l s' es _ _ hi hs
    cases moved_of_step hs with
    | phone _ => exact hi.apart (apart_phone _) rfl rfl
    | injected f => exact hi.apart (by simp [Apart, Event.exchange?]) rfl rfl
    | lost _ => exact hi.apart (by simp [Apart]) rfl rfl
    | started _ => exact hi.started
    | turned hcurrent hturn _ => exact hi.turned hcurrent hturn

/-! ## What such a story says -/

/-- The key and the message of a signature. -/
def Event.signature? : Event → Option (List UInt8 × List UInt8)
  | .signed _ publicKey message => some (publicKey, message)
  | _ => none

/-- The transcripts signed in a history, with the keys. -/
def signatures (h : List Event) : List (List UInt8 × List UInt8) := h.filterMap Event.signature?

/-- How often the user interface was told. -/
def notifications (h : List Event) : ℕ := h.countP fun
  | .pending _ => true
  | _ => false

/-- The frames read in a history. -/
def frames (h : List Event) : List Received := (reads h).map fun r => r.2.2

/-- What an exchange that runs has read, by its phase. -/
def HasRead (e : ℕ) (route : Route) : Phase → List (ℕ × Option ℕ × Received) → Prop
  | .challenge, rs => rs = []
  | .proof _, rs | .outcome false, rs => ∃ o f c, rs = [(e, o, f)] ∧ IsChallenge route f c
  | .notifying, rs | .outcome true, rs =>
    ∃ o f c o' p q, rs = [(e, o, f), (e, o', p)] ∧ IsChallenge route f c ∧ IsOutcome p q ∧
      q.status = HostWire.AUTH_PENDING

/-- How many transcripts are signed by a phase. -/
def signs : Phase → ℕ
  | .challenge | .proof _ => 0
  | .outcome _ | .notifying => 1

/-- How often the user interface is told by a phase. -/
def notifies : Phase → ℕ
  | .outcome true => 1
  | _ => 0

theorem reads_append (tr es : List Event) : reads (tr ++ es) = reads tr ++ reads es :=
  List.filterMap_append

/-- A story says what was read. -/
theorem Story.hasRead (hs : Story pc e route publicKey phase h) :
    HasRead e route phase (reads h) := by
  induction hs with
  | began => rfl
  | @challenged h o f c _ hc ih =>
    have hnil : reads h = [] := ih
    refine ⟨o, f, c, ?_, hc⟩
    rw [reads_append, hnil]
    rfl
  | @proved h c label message _ _ ih =>
    obtain ⟨o, f, c, hr, hc⟩ := ih
    refine ⟨o, f, c, ?_, hc⟩
    rw [reads_append, hr]
    rfl
  | @prompted h o' p q _ hq hpending ih =>
    obtain ⟨o, f, c, hr, hc⟩ := ih
    refine ⟨o, f, c, o', p, q, ?_, hc, hq, hpending⟩
    rw [reads_append, hr]
    rfl
  | @notified h _ ih =>
    obtain ⟨o, f, c, o', p, q, hr, hrest⟩ := ih
    refine ⟨o, f, c, o', p, q, ?_, hrest⟩
    rw [reads_append, hr]
    rfl

/-- A story has its signature when the proof was made. -/
theorem Story.signatures (hs : Story pc e route publicKey phase h) :
    (signatures h).length = signs phase := by
  induction hs <;> simp_all [MutualAuthorization.signatures, Event.signature?, signs]

/-- At most one signature by the end. -/
theorem Ending.signatures {t : List Event} (ht : Ending pc e route publicKey phase t) :
    (signatures t).length + signs phase ≤ 1 := by
  cases ht with
  | @failed phase error =>
    show 0 + signs phase ≤ 1
    unfold signs
    split <;> omega
  | _ => exact Nat.le_of_ble_eq_true rfl

/-- A story has its notice once the PC is told to wait. -/
theorem Story.notifications (hs : Story pc e route publicKey phase h) :
    notifications h = notifies phase := by
  induction hs <;> simp_all [MutualAuthorization.notifications, notifies]

/-- At most one notice by the end. -/
theorem Ending.notifications {t : List Event} (ht : Ending pc e route publicKey phase t) :
    notifications t + notifies phase ≤ 1 := by
  cases ht with
  | @failed phase error =>
    show 0 + notifies phase ≤ 1
    unfold notifies
    split <;> omega
  | @refused pending => cases pending <;> exact Nat.le_of_ble_eq_true rfl
  | @answered pending => cases pending <;> exact Nat.le_of_ble_eq_true rfl
  | _ => exact Nat.le_of_ble_eq_true rfl

/-- What a signature follows: the first frame was the challenge for the exchange's own route, and
the transcript is over its nonce. -/
def Answers (pc : Pc) (e : ℕ) (route : Route) (publicKey : List UInt8) (x : List Event)
    (ev : Event) : Prop :=
  ∀ key message, ev = .signed e key message → key = publicKey ∧
    ∃ origin f c label, x = [.began e route publicKey, .read e origin f] ∧ IsChallenge route f c ∧
      HostWire.clientAuthMessage pc.unsafeScalar route.transport route.phoneBinding
        c.nonce publicKey
        label = .ok message

theorem answers_other {x : List Event} {ev : Event} (h : ev.signature? = none) :
    Answers pc e route publicKey x ev := by
  rintro key message rfl
  cases h

/-- The phase `proof` has one history. -/
theorem Story.before_proof {c : HostWire.ClientChallenge}
    (hs : Story pc e route publicKey (.proof c) h) :
    ∃ origin f, h = [.began e route publicKey, .read e origin f] ∧ IsChallenge route f c := by
  cases hs with
  | @challenged _ origin f _ hs hc =>
    cases hs
    exact ⟨origin, f, rfl, hc⟩

/-- A signature made in the phase `proof`. -/
theorem Story.answers_signed {c : HostWire.ClientChallenge} {label : List Char}
    {message : List UInt8} (hs : Story pc e route publicKey (.proof c) h)
    (hmessage : HostWire.clientAuthMessage pc.unsafeScalar route.transport
      route.phoneBinding c.nonce
      publicKey label = .ok message) :
    Answers pc e route publicKey h (.signed e publicKey message) := by
  rintro _ _ ⟨⟩
  obtain ⟨origin, f, hh, hc⟩ := hs.before_proof
  exact ⟨rfl, origin, f, c, label, hh, hc, hmessage⟩

/-- Everything in a story answers what was read. -/
theorem Story.answers (hs : Story pc e route publicKey phase h) :
    Each (Answers pc e route publicKey) h := by
  induction hs with
  | began =>
    apply each_of_forall
    intro x ev hev
    obtain rfl := List.mem_singleton.mp hev
    exact answers_other rfl
  | proved hs hmessage ih =>
    apply ih.append
    refine each_cons.mpr ⟨?_, each_nil⟩
    rw [List.append_nil]
    exact hs.answers_signed hmessage
  | challenged _ _ ih | prompted _ _ _ ih | notified _ ih =>
    apply ih.append
    apply each_of_forall
    intro x ev hev
    obtain rfl := List.mem_singleton.mp hev
    exact answers_other rfl

/-- So does its end. -/
theorem Ending.answers {t : List Event} (hs : Story pc e route publicKey phase h)
    (ht : Ending pc e route publicKey phase t) :
    Each (fun x => Answers pc e route publicKey (h ++ x)) t := by
  have hrest {t : List Event} (ht : ∀ ev ∈ t, ev.signature? = none) (h : List Event) :
      Each (fun x => Answers pc e route publicKey (h ++ x)) t :=
    each_of_forall fun x ev hev => answers_other (ht ev hev)
  cases ht with
  | unsent hmessage =>
    refine each_cons.mpr ⟨?_, each_of_forall fun x ev hev => ?_⟩
    · rw [List.append_nil]
      exact hs.answers_signed hmessage
    · obtain rfl := List.mem_singleton.mp hev
      exact answers_other rfl
  | _ =>
    apply hrest
    simp [Event.signature?]

/-- A running exchange has not returned. -/
theorem Story.running (hs : Story pc e route publicKey phase h) (result : Except String Outcome) :
    .returned e result ∉ h := by
  induction hs <;> simp_all

/-- The result is the last event. -/
theorem Ending.last {t : List Event} (ht : Ending pc e route publicKey phase t) :
    ∃ t₀ result, t = t₀ ++ [Event.returned e result] ∧ ∀ r, .returned e r ∉ t₀ := by
  cases ht with
  | failed error => exact ⟨[], _, rfl, by simp⟩
  | mistaken | refused | answered | unsent | unnotified => exact ⟨[_], _, rfl, by simp⟩

/-- What was read is in the legal order. -/
theorem HasRead.legal {rs : List (ℕ × Option ℕ × Received)} (h : HasRead e route phase rs) :
    Legal route (rs.map fun r => r.2.2) := by
  match phase, h with
  | .challenge, h =>
    rw [show rs = [] from h]
    exact .nothing
  | .proof _, ⟨o, f, c, hrs, hc⟩ | .outcome false, ⟨o, f, c, hrs, hc⟩ =>
    rw [hrs]
    exact .challenge hc
  | .notifying, ⟨o, f, c, o', p, q, hrs, hc, hq, _⟩
  | .outcome true, ⟨o, f, c, o', p, q, hrs, hc, hq, _⟩ =>
    rw [hrs]
    exact .outcome hc hq

/-- Nothing was read before the challenge. -/
theorem HasRead.unread (h : HasRead e route phase []) : phase = .challenge := by
  match phase, h with
  | .challenge, _ => rfl
  | .proof _, ⟨_, _, _, h, _⟩ | .outcome false, ⟨_, _, _, h, _⟩ => cases h
  | .notifying, ⟨_, _, _, _, _, _, h, _⟩ | .outcome true, ⟨_, _, _, _, _, _, h, _⟩ => cases h

/-- The first frame read was a challenge for the route, if there was one. -/
theorem HasRead.first {rs : List (ℕ × Option ℕ × Received)} (h : HasRead e route phase rs)
    (hne : rs ≠ []) (more : List Received) :
    Legal route (((rs.map fun r => r.2.2) ++ more).take 1) := by
  match phase, h with
  | .challenge, h => exact absurd h hne
  | .proof _, ⟨o, f, c, hrs, hc⟩ | .outcome false, ⟨o, f, c, hrs, hc⟩ =>
    rw [hrs]
    exact .challenge hc
  | .notifying, ⟨o, f, c, o', p, q, hrs, hc, _⟩ | .outcome true, ⟨o, f, c, o', p, q, hrs, hc, _⟩ =>
    rw [hrs]
    exact .challenge hc

theorem frames_append (tr es : List Event) : frames (tr ++ es) = frames tr ++ frames es := by
  unfold frames
  rw [reads_append, List.map_append]

/-- An exchange ends after legal frames, or right after the first frame that is not legal. -/
theorem Ending.legal {t : List Event} (hs : Story pc e route publicKey phase h)
    (ht : Ending pc e route publicKey phase t) :
    Legal route (frames (h ++ t)) ∨
      ∃ origin f error, t = [.read e origin f, .returned e (.error error)] := by
  have hread := hs.hasRead
  have hbefore := hread.legal
  cases ht with
  | failed error =>
    refine .inl ?_
    rw [frames_append]
    show Legal route (frames h ++ [])
    rwa [List.append_nil]
  | unsent hmessage =>
    refine .inl ?_
    rw [frames_append]
    show Legal route (frames h ++ [])
    rwa [List.append_nil]
  | unnotified =>
    refine .inl ?_
    rw [frames_append]
    show Legal route (frames h ++ [])
    rwa [List.append_nil]
  | mistaken _ => exact .inr ⟨_, _, _, rfl⟩
  | refused _ => exact .inr ⟨_, _, _, rfl⟩
  | @answered pending origin g r outcome hr hnot _ =>
    refine .inl ?_
    rw [frames_append, frames]
    cases pending with
    | false =>
      obtain ⟨o, f, c, hrs, hc⟩ := hread
      rw [hrs]
      exact .outcome hc hr
    | true =>
      obtain ⟨o, f, c, o', p, q, hrs, hc, hq, hpending⟩ := hread
      rw [hrs]
      exact .decision hc hq hpending hr hnot

/-- What the PC promises of the history of an exchange. -/
structure Conforms (pc : Pc) (e : ℕ) (route : Route) (publicKey : List UInt8) (h : List Event) :
    Prop where
  signs : (signatures h).length ≤ 1
  answers : Each (Answers pc e route publicKey) h
  notifies : notifications h ≤ 1
  last : ∀ x result y, h = x ++ Event.returned e result :: y → y = []
  illegal : ¬ Legal route (frames h) → ∃ x origin f error,
    h = x ++ [Event.read e origin f, .returned e (.error error)] ∧ Legal route (frames x)
  unproved : ¬ Legal route ((frames h).take 1) → signatures h = []

/-- An exchange that is told conforms. -/
theorem Told.conforms (h : Told pc e route publicKey es) : Conforms pc e route publicKey es := by
  rcases h with ⟨phase, hs⟩ | ⟨phase, h₀, t, hs, ht, rfl⟩
  · have hread := hs.hasRead
    have hlegal : Legal route (frames es) := hread.legal
    refine ⟨?_, hs.answers, ?_, fun x result y hx => ?_, fun hnot => absurd hlegal hnot,
      fun hnot => ?_⟩
    · rw [hs.signatures]
      cases phase <;> simp [MutualAuthorization.signs]
    · rw [hs.notifications]
      unfold MutualAuthorization.notifies
      split <;> omega
    · exact absurd (hx ▸ List.mem_append_right _ List.mem_cons_self) (hs.running result)
    · by_cases hnil : reads es = []
      · rw [frames, hnil] at hnot
        exact absurd .nothing hnot
      · have hfirst := hread.first hnil []
        rw [List.append_nil] at hfirst
        exact absurd hfirst hnot
  · have hread := hs.hasRead
    refine ⟨?_, hs.answers.append (ht.answers hs), ?_, fun x result y hx => ?_, fun hnot => ?_,
      fun hnot => ?_⟩
    · have := ht.signatures
      have := hs.signatures
      unfold signatures at *
      rw [List.filterMap_append, List.length_append]
      omega
    · have := ht.notifications
      have := hs.notifications
      unfold notifications at *
      rw [List.countP_append]
      omega
    · obtain ⟨t₀, r, rfl, hnone⟩ := ht.last
      rw [← List.append_assoc] at hx
      -- a result can only be the one at the end
      rcases List.append_eq_append_iff.mp hx with ⟨c, hc, hend⟩ | ⟨c, hc, hend⟩
      · rcases List.cons_eq_append_iff.mp hend with ⟨-, hy⟩ | ⟨z, -, hz⟩
        · exact (List.cons.inj hy).2
        · simp at hz
      · cases c with
        | nil =>
          simp only [List.nil_append] at hend
          exact (List.cons.inj hend).2
        | cons ev c =>
          obtain ⟨rfl, -⟩ := List.cons.inj hend
          have hmem : .returned e result ∈ h₀ ++ t₀ := by
            rw [hc]
            exact List.mem_append_right _ List.mem_cons_self
          rcases List.mem_append.mp hmem with hmem | hmem
          · exact absurd hmem (hs.running result)
          · exact absurd hmem (hnone result)
    · rcases ht.legal hs with hlegal | ⟨origin, f, error, rfl⟩
      · exact absurd hlegal hnot
      · exact ⟨h₀, origin, f, error, rfl, hread.legal⟩
    · by_cases hnil : reads h₀ = []
      · -- nothing was read before the ending, so nothing was signed
        obtain rfl : phase = .challenge := (hnil ▸ hread).unread
        have hempty : signatures h₀ = [] := List.eq_nil_of_length_eq_zero hs.signatures
        have hnone : signatures t = [] := by cases ht <;> rfl
        unfold signatures at *
        rw [List.filterMap_append, hempty, hnone]
        rfl
      · have hfirst := hread.first hnil (frames t)
        rw [frames_append] at hnot
        exact absurd hfirst hnot

end MutualAuthorization
end MobileWebcamBridge
