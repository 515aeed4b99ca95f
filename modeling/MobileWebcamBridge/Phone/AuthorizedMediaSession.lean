import MobileWebcamBridge.Phone.FramedOutbound
import MobileWebcamBridge.Phone.PhoneAuthorization
import MobileWebcamBridge.Phone.SessionControl

/-!
# `AuthorizedMediaSession`: one boundary in front of the outbound writer

A session is the product of the authorization owner and the outbound writer, both with all their
threads. They meet in two places:

* a section of the owner calls back into the session: it sends an outcome, reports a change or
  ends the session. The thread inside the section runs these callbacks before it leaves the lock,
  so `callbacks` is what the lock's holder still has to run, and no other section starts until it
  is empty;
* a call of the session asks `permitted()`, a section of the owner, and goes on to the writer only
  when the answer is yes. The two are separate steps of separate components.

`closeMedia` is its parts, which any thread may run at any time once the writer was started.
-/

set_option autoImplicit false

namespace MobileWebcamBridge

open Wire

namespace PhoneAuthorization

variable {P : Platform}

/-- A thread enters a call and runs its first section at once. -/
def Threads.invoke (s : Threads P) (c : Clock) (call : Call) : Threads P × List Event :=
  let (a, es, more) := s.owner.enter c s.programs.length call
  ({ owner := a, programs := s.programs ++ [more] }, .called s.programs.length call :: es)

/-- The task runs inside the owner's lock. -/
def Task.locked : Task → Bool
  | .stored _ | .write .. => false
  | _ => true

end PhoneAuthorization

namespace AuthorizedMediaSession

/-- What the holder of the owner's lock still has to run. -/
inductive Callback
  | call (call : FramedOutbound.Call)
  | changed
  | closed
deriving DecidableEq, Repr

/-- Where the reader is with the frame it has read. -/
inductive Reader
  | idle
  /-- The frame was read while the session was authorized. -/
  | allowed (frame : HostFrame)
  | refused (frame : HostFrame)
  | ended
deriving DecidableEq, Repr

/-- What the owner, the writer and the reader do. -/
inductive Event
  | auth (e : PhoneAuthorization.Event)
  | out (e : FramedOutbound.Event)
  | acted (action : SessionControl.Action)
deriving DecidableEq, Repr

/-- The callback an event of the owner is for the session. -/
def Callback.of? (sid : ℕ) : PhoneAuthorization.Event → Option Callback
  | .sent i type payload => if i = sid then some (.call (.sendAuthorization type payload)) else none
  | .changed i => if i = sid then some .changed else none
  | .ended i _ => if i = sid then some .closed else none
  | _ => none

/-- The callbacks a section leaves behind for the session. -/
def callbacksOf (gate : Option ℕ) (es : List PhoneAuthorization.Event) : List Callback :=
  match gate with
  | none => []
  | some sid => es.filterMap (Callback.of? sid)

/-- The calls behind `permitted()`. -/
def gated : FramedOutbound.Call → Bool
  | .beginCapture | .pauseQuality _ | .sendQualityResult _ | .sendCapabilities _
  | .sendPairingInfo _
  | .setCodecConfig .. | .sendVideoConfig .. | .sendAccessUnit .. => true
  | _ => false

/-- The steps of a session's threads. -/
inductive Label
  /-- `outbound.start()`. -/
  | startMedia
  | openSession (clock : PhoneAuthorization.Clock) (nonce : List UInt8)
  /-- `gate.start()`. -/
  | challenge (clock : PhoneAuthorization.Clock)
  /-- Any other caller of the owner: the timer, the approval dialog, another session. -/
  | owner (label : PhoneAuthorization.Label)
  /-- A thread that is inside the writer, or the writer thread. -/
  | outbound (label : FramedOutbound.Label)
  /-- A gated call of the UI thread. -/
  | ui (call : FramedOutbound.Call) (clock : PhoneAuthorization.Clock)
  /-- A gated call of another thread. -/
  | producer (call : FramedOutbound.Call) (clock : PhoneAuthorization.Clock)
  | stopVideo
  /-- `clientAuthorization?.close()`. -/
  | closeGate (clock : PhoneAuthorization.Clock)
  | closeOutbound
  /-- The lock's holder runs its next callback; `capabilities` is what the provider returns, and
  `ends` whether the transport was still running. -/
  | callback (clock : PhoneAuthorization.Clock) (capabilities : Option Capabilities) (ends : Bool)
  /-- The reader has read a frame and asks `isAuthorized()`. -/
  | frame (frame : HostFrame) (clock : PhoneAuthorization.Clock)
  | receive (clock : PhoneAuthorization.Clock)
  | dispatch (now : ℤ) (clock : PhoneAuthorization.Clock)
  | readFailed
deriving DecidableEq, Repr

end AuthorizedMediaSession

/-- A session: its owner, its writer, its gate and its reader. -/
structure AuthorizedMediaSession (P : Platform) where
  transport : AuthTransport
  phoneBinding : List UInt8
  auth : PhoneAuthorization.Threads P
  outbound : FramedOutbound.Threads
  control : SessionControl
  gate : Option ℕ
  callbacks : List AuthorizedMediaSession.Callback
  /-- The writer's thread that runs the holder's current call. -/
  calling : Option ℕ
  reader : AuthorizedMediaSession.Reader

namespace AuthorizedMediaSession

variable {P : Platform}

/-- The holder is not inside a call of the writer. -/
def returned (s : AuthorizedMediaSession P) : Bool :=
  s.calling.all fun i => s.outbound.others[i]? == some []

/-- No thread is inside the owner's lock. -/
def unlocked (s : AuthorizedMediaSession P) : Bool := s.callbacks.isEmpty && s.returned

/-- `startMedia` has run. -/
def started (s : AuthorizedMediaSession P) : Bool := s.outbound.writer != .unstarted

/-- After a section of the owner: the callbacks it makes run before those already due. -/
def after (s : AuthorizedMediaSession P)
    (q : PhoneAuthorization.Threads P × List PhoneAuthorization.Event) :
    AuthorizedMediaSession P × List Event :=
  ({ s with auth := q.1, callbacks := callbacksOf s.gate q.2 ++ s.callbacks }, q.2.map .auth)

/-- `permitted()`, inside or outside the lock. -/
def permitted (s : AuthorizedMediaSession P) (c : PhoneAuthorization.Clock) :
    AuthorizedMediaSession P × List Event × Bool :=
  match s.gate with
  | none => (s, [], false)
  | some sid =>
    let (s', es) := s.after (s.auth.invoke c (.isAuthorized sid))
    (s', es, (s.auth.owner.isAuthorized c sid).2.2)

/-- A step of the writer's threads. -/
def drive (s : AuthorizedMediaSession P) (l : FramedOutbound.Label) :
    Option (AuthorizedMediaSession P × List Event) :=
  match FramedOutbound.step s.outbound l with
  | some (o, es) => some ({ s with outbound := o }, es.map .out)
  | none => none

/-- A call behind `permitted()`, entered at `enter`. -/
def pass (s : AuthorizedMediaSession P) (c : PhoneAuthorization.Clock)
    (enter : FramedOutbound.Label) :
    Option (AuthorizedMediaSession P × List Event) :=
  match s.permitted c with
  | (s, es, false) => some (s, es)
  | (s, es, true) => (s.drive enter).map fun (s, es') => (s, es ++ es')

/-- Another call of the session's own on its gate. -/
def onGate (s : AuthorizedMediaSession P) (c : PhoneAuthorization.Clock)
    (call : ℕ → PhoneAuthorization.Call) : Option (AuthorizedMediaSession P × List Event) :=
  match s.gate with
  | none => none
  | some sid => if s.unlocked then some (s.after (s.auth.invoke c (call sid))) else none

/-- `openSession`, which assigns the gate. -/
def openGate (s : AuthorizedMediaSession P) (c : PhoneAuthorization.Clock) (nonce : List UInt8) :
    AuthorizedMediaSession P × List Event :=
  let n := s.auth.owner.sessions.length
  let (auth, es) := s.auth.invoke c (.openSession s.transport s.phoneBinding nonce)
  ({ s with auth, gate := if n < auth.owner.sessions.length then some n else none }, es.map .auth)

/-- The session's state after `receive` has returned or thrown. -/
def afterReceive (s : AuthorizedMediaSession P) : AuthorizedMediaSession P :=
  let closed := (s.gate.bind fun sid => s.auth.owner.sessions[sid]?).all fun g =>
    g.phase == .closed
  { s with reader := if closed then .ended else .idle }

/-- The next callback. -/
def runCallback (s : AuthorizedMediaSession P) (c : PhoneAuthorization.Clock)
    (capabilities : Option Capabilities) (ends : Bool) :
    Option (AuthorizedMediaSession P × List Event) :=
  match s.callbacks with
  | [] => none
  | .call call :: rest =>
    { s with callbacks := rest, calling := some s.outbound.others.length }.drive (.spawn call)
  | .changed :: rest =>
    match { s with callbacks := rest }.permitted c, capabilities with
    | (s, es, true), some caps =>
      some ({ s with callbacks := .call (.sendCapabilities caps) :: s.callbacks }, es)
    | (s, es, _), _ => some (s, es)
  | .closed :: rest =>
    -- the gate's own `close` inside `closeMedia` finds the session closed
    some ({ s with callbacks := (if ends then [.call .stopVideo, .call .close] else []) ++ rest },
      [])

/-- The dispatcher, on a frame that was allowed. -/
def act (s : AuthorizedMediaSession P) (now : ℤ) (c : PhoneAuthorization.Clock)
    (frame : HostFrame) :
    Option (AuthorizedMediaSession P × List Event) :=
  let (control, action) := s.control.dispatch now frame
  let s := { s with control, reader := .idle }
  match action with
  | none => some ({ s with reader := .ended }, [])
  | some none => some (s, [])
  | some (some (.ping request payload)) =>
    (s.drive (.spawn (.sendPong request payload))).map fun (s, es) =>
      (s, .acted (.ping request payload) :: es)
  | some (some .idrRequest) =>
    (s.drive (.spawn .forceRecovery)).map fun (s, es) => (s, .acted .idrRequest :: es)
  | some (some (.quality command)) => some (s, [.acted (.quality command)])
  | some (some .hello) => (s.onGate c .onHostHello).map fun (s, es) => (s, .acted .hello :: es)

/-- Whether another caller of the owner may take its step. -/
def admits (s : AuthorizedMediaSession P) : PhoneAuthorization.Label → Bool
  | .call _ => true
  | .step thread _ _ =>
    s.unlocked || (s.auth.programs[thread]?.bind List.head?).all fun t => !t.locked

/-- The steps of the writer's threads that no call is needed for. -/
def internal : FramedOutbound.Label → Bool
  | .uiStep | .step _ | .writerStep | .writerThrows => true
  | _ => false

/-- One step of the session. -/
def step (s : AuthorizedMediaSession P) : Label → Option (AuthorizedMediaSession P × List Event)
  | .startMedia => s.drive .start
  | .openSession c nonce =>
    if s.started && s.gate.isNone && s.unlocked then some (s.openGate c nonce) else none
  | .challenge c => s.onGate c .start
  | .owner l =>
    if s.admits l then (PhoneAuthorization.step s.auth l).map s.after else none
  | .outbound l => if internal l then s.drive l else none
  | .ui call c => if gated call && s.unlocked then s.pass c (.ui [call]) else none
  | .producer call c => if gated call && s.unlocked then s.pass c (.spawn call) else none
  | .stopVideo => s.drive (.spawn .stopVideo)
  | .closeGate c => s.onGate c .closeSession
  | .closeOutbound => if s.started then s.drive (.spawn .close) else none
  | .callback c capabilities ends => if s.returned then s.runCallback c capabilities ends else none
  | .frame frame c =>
    if s.reader = .idle ∧ s.gate.isSome ∧ s.unlocked then
      match s.permitted c with
      | (s, es, yes) =>
        some ({ s with reader := if yes then .allowed frame else .refused frame }, es)
    else none
  | .receive c =>
    match s.reader with
    | .refused frame =>
      (s.onGate c fun sid => .receive sid frame.header.type frame.proof).map fun (s, es) =>
        (s.afterReceive, es)
    | _ => none
  | .dispatch now c =>
    match s.reader with
    | .allowed frame => s.act now c frame
    | _ => none
  | .readFailed => if s.reader = .idle then some ({ s with reader := .ended }, []) else none

/-- A session that was constructed over an owner, before `startMedia`. -/
def constructed (transport : AuthTransport) (phoneBinding : List UInt8) (now : ℤ)
    (auth : PhoneAuthorization.Threads P) (out : FramedOutbound) : AuthorizedMediaSession P where
  transport := transport
  phoneBinding := phoneBinding
  auth := auth
  outbound := FramedOutbound.idle out
  control := { ping := ⟨now, 0⟩, hello := ⟨now, 0⟩, idr := ⟨now, 0⟩ }
  gate := none
  callbacks := []
  calling := none
  reader := .idle

/-- Every interleaving over one session and the owner of the list read at start. -/
def system (stored : ClientRepository P) : EventSystem (AuthorizedMediaSession P) Label Event where
  start s := ∃ transport phoneBinding now auth capacity out,
    (PhoneAuthorization.system stored).start auth ∧ FramedOutbound.new capacity = some out ∧
      s = constructed transport phoneBinding now auth out
  step := step

end AuthorizedMediaSession
end MobileWebcamBridge
