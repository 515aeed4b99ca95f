import MobileWebcamBridge.Host.ClientAuth.Exchange
import MobileWebcamBridge.Phone.PhoneAuthorization.Grant
import MobileWebcamBridge.Phone.WireCodec

/-!
# A PC and a phone on one link

The PC runs one `exchange` after another over one end of the link. The phone is one
`PhoneAuthorization`, whose sessions may be on this link or on another. The two channels deliver in
order and may lose frames; what the phone wrote for a session stays in its channel when the session
or the exchange ends, and other parts of the phone write to the same channel.
-/

set_option autoImplicit false

namespace MobileWebcamBridge
namespace MutualAuthorization

open HostAuth Wire

variable {P : Platform}

/-- The phone, the PC's exchange, and the frames between them. -/
structure State (P : Platform) where
  phone : PhoneAuthorization.Threads P
  /-- Frames on their way to the PC, with the phone session each one is of. -/
  toHost : List (Option ℕ × Received)
  /-- Payloads of `CLIENT_AUTH` frames on their way to the phone. -/
  toPhone : List (List UInt8)
  /-- How many exchanges have begun. -/
  begun : ℕ
  /-- The exchange that is running, with its number. -/
  current : Option (ℕ × Exchange)

/-- What happens on either side. -/
inductive Event
  | phone (event : PhoneAuthorization.Event)
  /-- A frame that is not of a session enters the channel to the PC. -/
  | injected (frame : Received)
  | began (e : ℕ) (route : Route) (publicKey : List UInt8)
  | read (e : ℕ) (origin : Option ℕ) (frame : Received)
  | signed (e : ℕ) (publicKey message : List UInt8)
  /-- `on_pending` is called. -/
  | pending (e : ℕ)
  | returned (e : ℕ) (result : Except String Outcome)
deriving DecidableEq

/-- What `poll_receive` comes to. -/
inductive Polled
  /-- A frame arrives, and the clock is then at `now`. -/
  | frame (now : ℕ)
  | nothing
  | failed (error : String)
deriving DecidableEq

/-- A step of the phone, of the channels or of the PC. -/
inductive Label
  | phone (label : PhoneAuthorization.Label)
  /-- The reader of a session of this link takes the next proof. -/
  | deliver (sid : ℕ)
  | inject (frame : Received)
  /-- The frame at a place of the channel to the PC is lost, or read outside an exchange. -/
  | lose (i : ℕ)
  | loseProof (i : ℕ)
  | start (route : Route) (publicKey : List UInt8) (now timeout : ℕ)
  | poll (stop : Bool) (now : ℕ) (polled : Polled)
  | prove (environment : List (Option (List Char)))
      (signature : Except String (Vector UInt8 HostWire.SIGNATURE_BYTES)) (now : ℕ)
      (sending : Except String Unit) (delivered : Bool)
  | notify (result : Except String Unit)
deriving DecidableEq

/-- The frame of a session of this link, as the PC receives it. -/
def onLink (wire : ℕ → Bool) : PhoneAuthorization.Event → Option (Option ℕ × Received)
  | .sent sid type payload =>
    if wire sid then
      some (some sid, ⟨(WireCodec.typeByte type).toUInt8, WireCodec.payloadBytes payload⟩)
    else none
  | _ => none

/-- What `decodeClientAuth` makes of a payload. -/
def decoded (P : Platform) (payload : List UInt8) : Option ClientAuth :=
  (WireCodec.decodeClientAuth P payload).map fun proof =>
    { publicKey := proof.publicKey, label := Unicode.fromUtf16 proof.label
      signature := proof.signature }

/-- Hands a decoded proof to a session of this link, which only its reader does. -/
def presents (wire : ℕ → Bool) : PhoneAuthorization.Label → Bool
  | .call (.receive sid _ (some _)) => wire sid
  | _ => false

namespace State

/-- A step of the phone, whose frames for this link enter the channel. -/
def phoneStep (wire : ℕ → Bool) (s : State P) (label : PhoneAuthorization.Label) :
    Option (State P × List Event) :=
  match PhoneAuthorization.step s.phone label with
  | none => none
  | some (phone, es) =>
    some ({ s with phone, toHost := s.toHost ++ es.filterMap (onLink wire) }, es.map .phone)

/-- The running exchange goes on, or has returned. -/
def settle (s : State P) (e : ℕ) : Next → State P × List Event
  | .goesOn x => ({ s with current := some (e, x) }, [])
  | .returns result => ({ s with current := none }, [.returned e result])

/-- One turn of the loop in `receive_until`, and what the exchange does with a frame. -/
def poll (pc : Pc) (s : State P) (e : ℕ) (x : Exchange) (stop : Bool) (now : ℕ) (polled : Polled) :
    Option (State P × List Event) :=
  match x.refuses pc stop now with
  | some error => some (s.settle e (.returns (.error error)))
  | none =>
    match polled with
    | .failed error => some (s.settle e (.returns (.error error)))
    | .nothing => some (s, [])
    | .frame now =>
      match s.toHost with
      | [] => none
      | (origin, frame) :: rest =>
        let (s, es) := { s with toHost := rest }.settle e (x.receive frame now)
        some (s, .read e origin frame :: es)

end State

open State in
/-- One step of the two sides. -/
def step (pc : Pc) (wire : ℕ → Bool) (s : State P) : Label → Option (State P × List Event)
  | .phone label => if presents wire label then none else s.phoneStep wire label
  | .deliver sid =>
    match s.toPhone with
    | [] => none
    | payload :: rest =>
      if wire sid then
        { s with toPhone := rest }.phoneStep wire
          (.call (.receive sid .clientAuth (decoded P payload)))
      else none
  | .inject frame => some ({ s with toHost := s.toHost ++ [(none, frame)] }, [.injected frame])
  | .lose i => some ({ s with toHost := s.toHost.eraseIdx i }, [])
  | .loseProof i => some ({ s with toPhone := s.toPhone.eraseIdx i }, [])
  | .start route publicKey now timeout =>
    match s.current with
    | some _ => none
    | none =>
      some ({ s with
          begun := s.begun + 1
          current := some (s.begun, .start route publicKey now timeout) },
        [.began s.begun route publicKey])
  | .poll stop now polled =>
    match s.current with
    | none => none
    | some (e, x) => if x.receives then s.poll pc e x stop now polled else none
  | .prove environment signature now sending delivered =>
    match s.current with
    | none => none
    | some (e, x) =>
      match x.phase with
      | .proof challenge =>
        let (message, payload, next) := x.prove pc challenge environment signature now sending
        let (s, es) := { s with
          toPhone := s.toPhone ++ (if delivered then payload.toList else []) }.settle e next
        some (s, message.toList.map (.signed e x.publicKey) ++ es)
      | _ => none
  | .notify result =>
    match s.current with
    | none => none
    | some (e, x) =>
      match x.phase with
      | .notifying =>
        let (s, es) := s.settle e (x.notified result)
        some (s, .pending e :: es)
      | _ => none

/-- Every interleaving of the exchanges of a PC with the calls of a phone, `wire` telling which
sessions of the phone are on the link. -/
def system (pc : Pc) (wire : ℕ → Bool) (stored : ClientRepository P) :
    EventSystem (State P) Label Event where
  start s := s = { phone := PhoneAuthorization.fresh stored, toHost := [], toPhone := []
                   begun := 0, current := none }
  step := step pc wire

/-! ## What a step can do -/

/-- What the exchange numbered `e` does in one step. -/
inductive Turn (pc : Pc) (e : ℕ) (x : Exchange) : List Event → Next → Prop
  | idle : Turn pc e x [] (.goesOn x)
  | failed (error : String) : Turn pc e x [] (.returns (.error error))
  | received {origin : Option ℕ} {frame : Received} {now : ℕ} : x.receives = true →
      Turn pc e x [.read e origin frame] (x.receive frame now)
  | proved {challenge : HostWire.ClientChallenge} {label : List Char} {message : List UInt8} :
      x.phase = .proof challenge → x.message pc challenge label = .ok message →
      Turn pc e x [.signed e x.publicKey message] (.goesOn { x with phase := .outcome false })
  | unsent {challenge : HostWire.ClientChallenge} {label : List Char} {message : List UInt8}
      {error : String} :
      x.phase = .proof challenge → x.message pc challenge label = .ok message →
      Turn pc e x [.signed e x.publicKey message] (.returns (.error error))
  | notified {result : Except String Unit} : x.phase = .notifying →
      Turn pc e x [.pending e] (x.notified result)

/-- The frame a PC reads, with its exchange and the session it is of. -/
def Event.read? : Event → Option (ℕ × Option ℕ × Received)
  | .read e origin frame => some (e, origin, frame)
  | _ => none

/-- The frames the exchanges have read. -/
def reads (tr : List Event) : List (ℕ × Option ℕ × Received) := tr.filterMap Event.read?

/-- What a step does to the phone, the channels and the exchange. -/
inductive Moved (pc : Pc) (wire : ℕ → Bool) (s : State P) : State P → List Event → Prop
  | phone {label : PhoneAuthorization.Label} {phone : PhoneAuthorization.Threads P}
      {es : List PhoneAuthorization.Event} {toPhone : List (List UInt8)} :
      PhoneAuthorization.step s.phone label = some (phone, es) →
      Moved pc wire s
        { s with phone, toPhone, toHost := s.toHost ++ es.filterMap (onLink wire) } (es.map .phone)
  | injected (frame : Received) :
      Moved pc wire s { s with toHost := s.toHost ++ [(none, frame)] } [.injected frame]
  | lost {toHost : List (Option ℕ × Received)} {toPhone : List (List UInt8)} :
      toHost.Sublist s.toHost → Moved pc wire s { s with toHost, toPhone } []
  | started {route : Route} {publicKey : List UInt8} {now timeout : ℕ} : s.current = none →
      Moved pc wire s
        { s with
          begun := s.begun + 1
          current := some (s.begun, .start route publicKey now timeout) }
        [.began s.begun route publicKey]
  | turned {e : ℕ} {x : Exchange} {es : List Event} {next : Next}
      {toHost : List (Option ℕ × Received)} {toPhone : List (List UInt8)} :
      s.current = some (e, x) → Turn pc e x es next → s.toHost = (reads es).map Prod.snd ++ toHost →
      Moved pc wire s ({ s with toHost, toPhone }.settle e next).1
        (es ++ ({ s with toHost, toPhone }.settle e next).2)

variable {pc : Pc} {wire : ℕ → Bool} {s s' : State P} {l : Label} {es : List Event}

/-- A step of the phone moves the system. -/
theorem moved_of_phoneStep {label : PhoneAuthorization.Label} {toPhone : List (List UInt8)}
    (h : { s with toPhone }.phoneStep wire label = some (s', es)) : Moved pc wire s s' es := by
  unfold State.phoneStep at h
  split at h
  · cases h
  · next phone fs hstep =>
    obtain ⟨rfl, rfl⟩ := by simpa using h
    exact .phone hstep

/-- A turn that reads no frame leaves the channel to the PC as it is. -/
theorem moved_silently {e : ℕ} {x : Exchange} {next : Next} (toPhone : List (List UInt8))
    (hcurrent : s.current = some (e, x)) (hturn : Turn pc e x es next) (hreads : reads es = []) :
    Moved pc wire s ({ s with toPhone }.settle e next).1
      (es ++ ({ s with toPhone }.settle e next).2) := by
  have hchannel : s.toHost = (reads es).map Prod.snd ++ s.toHost := by
    rw [hreads]
    rfl
  exact .turned hcurrent hturn hchannel

/-- A poll of the exchange moves the system. -/
theorem moved_of_poll {e : ℕ} {x : Exchange} {stop : Bool} {now : ℕ} {polled : Polled}
    (hcurrent : s.current = some (e, x)) (hreceives : x.receives = true)
    (h : s.poll pc e x stop now polled = some (s', es)) : Moved pc wire s s' es := by
  have hfailed (error : String) (h : s.settle e (.returns (.error error)) = (s', es)) :
      Moved pc wire s s' es := by
    have hmoved : Moved pc wire s _ _ := moved_silently s.toPhone hcurrent (.failed error) rfl
    simpa [h] using hmoved
  unfold State.poll at h
  split at h
  · next error _ => exact hfailed error (Option.some.inj h)
  split at h
  · next error => exact hfailed error (Option.some.inj h)
  · obtain ⟨rfl, rfl⟩ := by simpa using h
    exact .lost (List.Sublist.refl _)
  · next now =>
    split at h
    · cases h
    · next origin frame rest hchannel =>
      obtain ⟨rfl, rfl⟩ := by simpa using h
      exact .turned hcurrent (.received hreceives) hchannel

/-- The proof is signed over the transcript of the challenge, or the exchange ends. -/
theorem turn_of_prove {e : ℕ} {x : Exchange} {challenge : HostWire.ClientChallenge}
    {environment : List (Option (List Char))}
    {signature : Except String (Vector UInt8 HostWire.SIGNATURE_BYTES)} {now : ℕ}
    {sending : Except String Unit} (hphase : x.phase = .proof challenge) :
    Turn pc e x
      ((x.prove pc challenge environment signature now sending).1.toList.map
        (.signed e x.publicKey))
      (x.prove pc challenge environment signature now sending).2.2 := by
  unfold Exchange.prove
  dsimp only
  split
  · exact .failed _
  next message hmessage =>
  split
  · exact .failed _
  split
  · exact .unsent hphase hmessage
  split
  · exact .unsent hphase hmessage
  split
  · exact .unsent hphase hmessage
  · exact .proved hphase hmessage

theorem reads_signed (e : ℕ) (publicKey : List UInt8) (message : Option (List UInt8)) :
    reads (message.toList.map (.signed e publicKey)) = [] := by
  cases message <;> rfl

/-- Every step is one of the moves. -/
theorem moved_of_step (h : step pc wire s l = some (s', es)) : Moved pc wire s s' es := by
  cases l with
  | phone label =>
    simp only [step] at h
    split at h
    · cases h
    · exact moved_of_phoneStep h
  | deliver sid =>
    simp only [step] at h
    split at h
    · cases h
    split at h
    · exact moved_of_phoneStep h
    · cases h
  | inject frame =>
    obtain ⟨rfl, rfl⟩ := by simpa [step] using h
    exact .injected frame
  | lose i =>
    obtain ⟨rfl, rfl⟩ := by simpa [step] using h
    exact .lost (List.eraseIdx_sublist s.toHost i)
  | loseProof i =>
    obtain ⟨rfl, rfl⟩ := by simpa [step] using h
    exact .lost (List.Sublist.refl _)
  | start route publicKey now timeout =>
    simp only [step] at h
    split at h
    · cases h
    · next hcurrent =>
      obtain ⟨rfl, rfl⟩ := by simpa using h
      exact .started hcurrent
  | poll stop now polled =>
    simp only [step] at h
    split at h
    · cases h
    next e x hcurrent =>
    split at h
    · next hreceives => exact moved_of_poll hcurrent hreceives h
    · cases h
  | prove environment signature now sending delivered =>
    simp only [step] at h
    split at h
    · cases h
    next e x hcurrent =>
    split at h
    · next challenge hphase =>
      obtain ⟨rfl, rfl⟩ := by simpa using h
      exact moved_silently _ hcurrent (turn_of_prove hphase) (reads_signed e _ _)
    · cases h
  | notify result =>
    simp only [step] at h
    split at h
    · cases h
    next e x hcurrent =>
    split at h
    · next hphase =>
      obtain ⟨rfl, rfl⟩ := by simpa using h
      exact moved_silently s.toPhone hcurrent (.notified hphase) rfl
    · cases h

end MutualAuthorization
end MobileWebcamBridge
