import MobileWebcamBridge.Lib.EventSystem
import MobileWebcamBridge.Phone.ClientRepository

/-!
# `PhoneAuthorization`: the owner of the one authorized session

The state and its synchronized sections, then the calls as programs of sections. `approve`,
`revoke` and `renew` leave the lock for their durable write, so each of them is several tasks: the
sections, the test of the latching flags in `stored`, and the repository operation.

Every reading of a clock in a section is an input of its own. A callback emits an event; a caller
that asks `isAuthorized` from inside a callback makes the same step right after it.
-/

set_option autoImplicit false

namespace MobileWebcamBridge

open Wire ClientAuthorization

/-! ## State -/

namespace PhoneAuthorization

/-- The phases of a session. -/
inductive Phase
  | new | proof | pending | authorized | denied | closed
deriving DecidableEq, Repr

/-- A session: how the PC came, its challenge, and how far it is. -/
structure Session where
  transport : AuthTransport
  phoneBinding : List UInt8
  nonce : List UInt8
  phase : Phase
  deadline : ℤ
  candidate : Option Client
deriving DecidableEq, Repr

/-- The clock readings of one section, by the place that reads them. -/
structure Clock where
  /-- `nowMillis()` in `tickLocked`. -/
  tick : ℤ
  /-- `nowSeconds()` in `checkAuthorized`. -/
  check : ℤ
  /-- `nowSeconds()` handed to `evaluate` or to the repository. -/
  seconds : ℤ
  /-- `nowMillis()` compared with the cooldown. -/
  millis : ℤ
  /-- `nowMillis()` a deadline or a cooldown is set from. -/
  deadline : ℤ
  /-- `nowMillis()` in `finish`. -/
  finish : ℤ
deriving DecidableEq, Repr

/-- A durable operation. -/
inductive Write
  | approve (client : Client)
  | revoke (id : List UInt8)
  | renew (id : List UInt8)
deriving DecidableEq, Repr

/-- The ID an operation is about. -/
def Write.id : Write → List UInt8
  | .approve client => client.clientId
  | .revoke id | .renew id => id

/-- The calls of the owner. -/
inductive Call
  | openSession (transport : AuthTransport) (phoneBinding nonce : List UInt8)
  | start (sid : ℕ)
  /-- `pending()`, which ticks first. -/
  | pending (sid : ℕ)
  | isAuthorized (sid : ℕ)
  | onHostHello (sid : ℕ)
  | receive (sid : ℕ) (type : FrameType) (proof : Option ClientAuth)
  | approve (sid : ℕ)
  | reject (sid : ℕ)
  | closeSession (sid : ℕ)
  | clients
  | revoke (id : List UInt8)
  | renew (id : List UInt8)
  | tick
  | close
deriving DecidableEq, Repr

/-- What the calls do, for the properties below. -/
inductive Event
  /-- A thread enters its call. -/
  | called (thread : ℕ) (call : Call)
  | opened (sid : ℕ) (transport : AuthTransport) (phoneBinding nonce : List UInt8)
  | sent (sid : ℕ) (type : FrameType) (payload : Payload)
  | changed (sid : ℕ)
  | ended (sid : ℕ) (reason : String)
  | storageFailure
  /-- A proof was decoded in phase `PROOF`. -/
  | proof (sid : ℕ) (proof : ClientAuth)
  /-- The list and the clock reading a proof is evaluated against. -/
  | evaluated (sid : ℕ) (clients : List Client) (now : ℤ)
  /-- The list an approval is granted from, and the approval time it holds for the PC. -/
  | approved (sid : ℕ) (clients : List Client) (approvedAt : ℤ)
  /-- A durable write with the clock reading it was given, and the list it published. -/
  | saved (write : Write) (now : ℤ) (clients : List Client)
  /-- The first section of `revoke` has completed. -/
  | revoked (id : List UInt8)
  /-- The first section of the thread's `approve` has completed. -/
  | approving (thread sid : ℕ) (id : List UInt8)
  /-- `isAuthorized` returns true for a session of the ID. -/
  | reported (sid : ℕ) (id : List UInt8)
deriving DecidableEq, Repr

/-- How long the phone waits for a proof. -/
def PROOF_TIMEOUT_MS : ℤ := 5000
/-- How long the phone waits for the user. -/
def APPROVAL_TIMEOUT_MS : ℤ := 60000
/-- How long no unknown PC is asked about after one was not approved. -/
def UNKNOWN_COOLDOWN_MS : ℤ := 30000
/-- How long a refused session lives for its refusal to arrive. -/
def REJECTION_FLUSH_MS : ℤ := 1000

end PhoneAuthorization

/-- The owner of all sessions, of which the latest is active. -/
structure PhoneAuthorization (P : Platform) where
  repository : ClientRepository P
  active : Option ℕ
  failed : Bool
  closed : Bool
  unknownCooldownUntil : ℤ
  revokedIds : List (List UInt8)
  /-- Every session opened so far; a session is its position. -/
  sessions : List PhoneAuthorization.Session

namespace PhoneAuthorization

variable {P : Platform}

/-- A new owner over a repository. -/
def init (repository : ClientRepository P) : PhoneAuthorization P where
  repository := repository
  active := none
  failed := false
  closed := false
  unknownCooldownUntil := -(2 ^ 63)
  revokedIds := []
  sessions := []

/-- One session is replaced. -/
def put (a : PhoneAuthorization P) (sid : ℕ) (s : Session) : PhoneAuthorization P :=
  { a with sessions := a.sessions.set sid s }

/-! ## Sections -/

/-- The session ends, once. -/
def finish (a : PhoneAuthorization P) (c : Clock) (sid : ℕ) (reason : String) :
    PhoneAuthorization P × List Event :=
  match a.sessions[sid]? with
  | none => (a, [])
  | some s =>
    if s.phase = .closed then (a, [])
    else
      ({ a.put sid { s with phase := .closed } with
          -- disconnecting or abandoning a prompt cannot reset its rate limit
          unknownCooldownUntil :=
            if s.phase = .pending then c.finish + UNKNOWN_COOLDOWN_MS else a.unknownCooldownUntil
          active := if a.active = some sid then none else a.active },
        [.changed sid, .ended sid reason])

/-- The handler of `stored`, and `onStorageFailure`. -/
def storageFailed (a : PhoneAuthorization P) (c : Clock) : PhoneAuthorization P × List Event :=
  let a := { a with failed := true }
  match a.active with
  | none => (a, [.storageFailure])
  | some sid =>
    let (a, es) := a.finish c sid "Authorization storage failed"
    (a, es ++ [Event.storageFailure])

/-- `stored { repository.snapshot() }` inside the lock; `none` is the exception. -/
def storedSnapshot (a : PhoneAuthorization P) (c : Clock) :
    PhoneAuthorization P × List Event × Option (List Client) :=
  if a.failed || a.closed then (a, [], none)
  else
    match a.repository.snapshot with
    | some clients => (a, [], some clients)
    | none =>
      let (a, es) := a.storageFailed c
      (a, es, none)

/-- The stored record still covers the key. -/
def covers (clients : List Client) (key : Client) (now : ℤ) : Bool :=
  match find clients key.clientId with
  | none => false
  | some record =>
    decide (record.publicKey = key.publicKey ∧ record.approvedAtUnixSeconds ≤ now ∧
      now < record.expiresAtUnixSeconds)

/-- Whether the session may act, by the stored list. -/
def checkAuthorized (a : PhoneAuthorization P) (c : Clock) (sid : ℕ) :
    PhoneAuthorization P × List Event × Bool :=
  match a.sessions[sid]? with
  | none => (a, [], false)
  | some s =>
    if s.phase ≠ .authorized ∨ a.active ≠ some sid ∨ a.failed ∨ a.closed then (a, [], false)
    else
      match s.candidate with
      -- `checkNotNull`: an authorized session has a candidate
      | none => (a, [], false)
      | some key =>
        if key.clientId ∈ a.revokedIds then
          let (a, es) := a.finish c sid "PC authorization revoked or expired"
          (a, es, false)
        else
          match a.storedSnapshot c with
          | (a, es, none) => (a, es, false)
          | (a, es, some clients) =>
            if covers clients key c.check then (a, es, true)
            else
              let (a, es') := a.finish c sid "PC authorization revoked or expired"
              (a, es ++ es', false)

/-- `active?.checkAuthorized()`. -/
def checkActive (a : PhoneAuthorization P) (c : Clock) : PhoneAuthorization P × List Event :=
  match a.active with
  | none => (a, [])
  | some sid =>
    let (a, es, _) := a.checkAuthorized c sid
    (a, es)

/-- A deadline that has passed ends its session. -/
def tickLocked (a : PhoneAuthorization P) (c : Clock) (sid : ℕ) :
    PhoneAuthorization P × List Event :=
  match a.sessions[sid]? with
  | none => (a, [])
  | some s =>
    if a.active ≠ some sid ∨ s.phase = .closed then (a, [])
    else if s.phase = .authorized then
      let (a, es, _) := a.checkAuthorized c sid
      (a, es)
    else if c.tick ≥ s.deadline then a.finish c sid "PC authorization deadline expired"
    else (a, [])

/-- `tick`. -/
def tick (a : PhoneAuthorization P) (c : Clock) : PhoneAuthorization P × List Event :=
  if a.failed || a.closed then (a, [])
  else
    match a.active with
    | none => (a, [])
    | some sid => a.tickLocked c sid

/-- `nonce` stands for the bytes `SecureRandom` fills in. -/
def openSession (a : PhoneAuthorization P) (c : Clock) (transport : AuthTransport)
    (phoneBinding nonce : List UInt8) : PhoneAuthorization P × List Event :=
  if a.failed || a.closed || a.active.isSome then (a, [])
  else if (encodeClientChallenge ⟨transport, phoneBinding, List.replicate 32 0⟩).isNone ∨
      nonce.length ≠ NONCE_BYTES then (a, [])
  else
    ({ a with
        active := some a.sessions.length
        sessions := a.sessions ++ [{
          transport, phoneBinding, nonce, phase := .new
          deadline := c.deadline + PROOF_TIMEOUT_MS, candidate := none }] },
      [.opened a.sessions.length transport phoneBinding nonce])

/-- `send` of a payload, then `onChanged`; the failed `require` of an encoder is the exception. -/
def announce (sid : ℕ) (type : FrameType) (payload : Option Payload) : List Event × Bool :=
  match payload with
  | some payload => ([.sent sid type payload, .changed sid], true)
  | none => ([], false)

/-- `Session.start`. -/
def start (a : PhoneAuthorization P) (c : Clock) (sid : ℕ) : PhoneAuthorization P × List Event :=
  match a.sessions[sid]? with
  | none => (a, [])
  | some s =>
    if a.active = some sid ∧ s.phase = .new then
      (a.put sid { s with phase := .proof, deadline := c.deadline + PROOF_TIMEOUT_MS },
        (announce sid .clientChallenge
          (encodeClientChallenge ⟨s.transport, s.phoneBinding, s.nonce⟩)).1)
    else (a, [])

/-- `grant`: whether it returns. -/
def grant (a : PhoneAuthorization P) (sid : ℕ) (s : Session) (expiry : ℤ) :
    PhoneAuthorization P × List Event × Bool :=
  (a.put sid { s with phase := .authorized },
    announce sid .clientAuthResult (encodeClientAuthResult ⟨.authorized, .none, expiry⟩))

/-- `deny`: whether it returns. -/
def deny (a : PhoneAuthorization P) (c : Clock) (sid : ℕ) (s : Session) (reason : AuthReason)
    (expiry : ℤ) : PhoneAuthorization P × List Event × Bool :=
  (a.put sid { s with phase := .denied, deadline := c.deadline + REJECTION_FLUSH_MS },
    announce sid .clientAuthResult (encodeClientAuthResult ⟨.rejected, reason, expiry⟩))

/-- The pending branch of `receive`. -/
def prompt (a : PhoneAuthorization P) (c : Clock) (sid : ℕ) (s : Session) :
    PhoneAuthorization P × List Event × Bool :=
  if c.millis < a.unknownCooldownUntil then a.deny c sid s .unknown 0
  else
    (a.put sid { s with phase := .pending, deadline := c.deadline + APPROVAL_TIMEOUT_MS },
      announce sid .clientAuthResult (encodeClientAuthResult ⟨.pending, .none, 0⟩))

/-- What `receive` does with a verified or refused proof. -/
def respond (a : PhoneAuthorization P) (c : Clock) (sid : ℕ) (s : Session)
    (result : ClientAuthResult) :
    PhoneAuthorization P × List Event × Bool :=
  match result.status with
  | .authorized => a.grant sid s result.expiresAtUnixSeconds
  | .rejected => a.deny c sid s result.reason result.expiresAtUnixSeconds
  | .pending => a.prompt c sid s

/-- The body of `receive`'s `try`; `false` is an exception. `proof` is what the payload decodes
to, if it does. -/
def receiveProof (a : PhoneAuthorization P) (c : Clock) (sid : ℕ) (type : FrameType)
    (proof : Option ClientAuth) : PhoneAuthorization P × List Event × Bool :=
  match a.sessions[sid]? with
  | none => (a, [], false)
  | some s =>
    if ¬ (a.active = some sid ∧ s.phase = .proof) then (a, [], false)
    else if type ≠ .clientAuth then (a, [], false)
    else
      match proof with
      | none => (a, [], false)
      | some proof =>
        let id := deriveClientId P proof.publicKey
        if labelValid P proof.label = false then (a, [.proof sid proof], false)
        else
          match clientAuthMessage P s.transport s.phoneBinding s.nonce proof.publicKey
            proof.label with
          | none => (a, [.proof sid proof], false)
          | some message =>
            match a.storedSnapshot c with
            | (a, es, none) => (a, .proof sid proof :: es, false)
            | (a, es, some clients) =>
              let s := { s with candidate := some ⟨id, proof.publicKey, proof.label, 0, 0⟩ }
              let (a, es', ok) := a.respond c sid s
                (evaluate P id proof.publicKey message proof.signature clients c.seconds)
              (a, .proof sid proof :: es ++ Event.evaluated sid clients c.seconds :: es', ok)

/-- A frame of the session: the one proof, or its end. -/
def receive (a : PhoneAuthorization P) (c : Clock) (sid : ℕ) (type : FrameType)
    (proof : Option ClientAuth) : PhoneAuthorization P × List Event :=
  let (a, es) := a.tickLocked c sid
  match a.receiveProof c sid type proof with
  | (a, es', true) => (a, es ++ es')
  | (a, es', false) =>
    let (a, es'') := a.finish c sid "PC authorization proof rejected"
    (a, es ++ es' ++ es'')

/-- `requireLiveApproval`; `none` is `RequestEnded`. -/
def requireLiveApproval (a : PhoneAuthorization P) (c : Clock) (sid : ℕ) :
    PhoneAuthorization P × List Event × Option Session :=
  let (a, es) := a.tickLocked c sid
  match a.sessions[sid]? with
  | none => (a, es, none)
  | some s => (a, es, if a.active = some sid ∧ s.phase = .pending then some s else none)

/-- The first section of `approve`: the client it proposes. -/
def beginApproval (a : PhoneAuthorization P) (c : Clock) (thread sid : ℕ) :
    PhoneAuthorization P × List Event × Option Client :=
  match a.requireLiveApproval c sid with
  | (a, es, none) => (a, es, none)
  | (a, es, some s) =>
    match s.candidate with
    | none => (a, es, none)
    | some client => (a, es ++ [Event.approving thread sid client.clientId], some client)

/-- The one entry of an ID: `single { it.clientId.contentEquals(id) }`. -/
def single (clients : List Client) (id : List UInt8) : Option Client :=
  match clients.filter fun c => c.clientId == id with
  | [c] => some c
  | _ => none

/-- The last section of `approve`. -/
def completeApproval (a : PhoneAuthorization P) (c : Clock) (sid : ℕ) (proposed : Client) :
    PhoneAuthorization P × List Event :=
  match a.requireLiveApproval c sid with
  | (a, es, none) => (a, es)
  | (a, es, some s) =>
    match a.storedSnapshot c with
    | (a, es', none) => (a, es ++ es')
    | (a, es', some clients) =>
      match single clients proposed.clientId with
      | none => (a, es ++ es')
      | some saved =>
        let a := { a with revokedIds := a.revokedIds.filter fun id => id != proposed.clientId }
        let (a, es'', _) := a.grant sid s saved.expiresAtUnixSeconds
        (a, es ++ es' ++ Event.approved sid clients saved.approvedAtUnixSeconds :: es'')

/-- The user refuses the PC. -/
def reject (a : PhoneAuthorization P) (c : Clock) (sid : ℕ) : PhoneAuthorization P × List Event :=
  match a.requireLiveApproval c sid with
  | (a, es, none) => (a, es)
  | (a, es, some s) =>
    let a := { a with unknownCooldownUntil := c.millis + UNKNOWN_COOLDOWN_MS }
    let (a, es', _) := a.deny c sid s .unknown 0
    (a, es ++ es')

/-- The PC asks for a fresh exchange; a session that has sent its challenge ends. -/
def onHostHello (a : PhoneAuthorization P) (c : Clock) (sid : ℕ) :
    PhoneAuthorization P × List Event :=
  let (a, es) := a.tickLocked c sid
  match a.sessions[sid]? with
  | none => (a, es)
  | some s =>
    if a.active ≠ some sid ∨ s.phase = .new ∨ a.failed ∨ a.closed then (a, es)
    else
      let (a, es') := a.finish c sid "a new host asked for a fresh exchange"
      (a, es ++ es')

/-- `isAuthorized`, which reports for the client of the session. -/
def isAuthorized (a : PhoneAuthorization P) (c : Clock) (sid : ℕ) :
    PhoneAuthorization P × List Event × Bool :=
  let client := (a.sessions[sid]?.bind Session.candidate).map Client.clientId
  let (a, es, yes) := a.checkAuthorized c sid
  (a, es ++ (if yes then client.toList.map (.reported sid) else []), yes)

/-- The first section of `revoke`; `false` is the failed `require`. -/
def beginRevocation (a : PhoneAuthorization P) (c : Clock) (id : List UInt8) :
    PhoneAuthorization P × List Event × Bool :=
  if id.length ≠ CLIENT_ID_BYTES then (a, [], false)
  else
    let (a, es) := { a with revokedIds := id :: a.revokedIds }.checkActive c
    (a, es ++ [Event.revoked id], true)

/-- `PhoneAuthorization.close`. -/
def close (a : PhoneAuthorization P) (c : Clock) : PhoneAuthorization P × List Event :=
  let a := { a with closed := true }
  match a.active with
  | none => (a, [])
  | some sid => a.finish c sid "Phone authorization closed"

/-! ## Calls -/

/-- The operation on the repository. -/
def Write.run (r : ClientRepository P) (now : ℤ) (written : Bool) :
    Write → ClientRepository P × ClientRepository.Outcome
  | .approve client => r.approve client.clientId client.publicKey client.label now written
  | .revoke id => r.revoke id written
  | .renew id => r.renew id now written

/-- The parts of a call, one for each section under the lock. -/
inductive Task
  /-- A call that is one section, or the first section of the call. -/
  | enter (call : Call)
  /-- The test of the flags in `stored`, outside the lock. -/
  | stored (write : Write)
  | write (write : Write) (now : ℤ)
  /-- The handler of `stored`. -/
  | storageFailed
  | completeApproval (sid : ℕ) (proposed : Client)
  /-- `synchronized(lock) { active?.checkAuthorized() }`. -/
  | recheck
deriving DecidableEq, Repr

/-- The program of a call. -/
def Call.tasks : Call → List Task
  | .renew id => [.stored (.renew id), .recheck]
  | call => [.enter call]

/-- Enters a call: its section, its events, and what is left of the call. -/
def enter (a : PhoneAuthorization P) (c : Clock) (thread : ℕ) :
    Call → PhoneAuthorization P × List Event × List Task
  | .openSession transport phoneBinding nonce =>
    let (a, es) := a.openSession c transport phoneBinding nonce
    (a, es, [])
  | .start sid =>
    let (a, es) := a.start c sid
    (a, es, [])
  | .pending sid =>
    let (a, es) := a.tickLocked c sid
    (a, es, [])
  | .isAuthorized sid =>
    let (a, es, _) := a.isAuthorized c sid
    (a, es, [])
  | .onHostHello sid =>
    let (a, es) := a.onHostHello c sid
    (a, es, [])
  | .receive sid type proof =>
    let (a, es) := a.receive c sid type proof
    (a, es, [])
  | .approve sid =>
    match a.beginApproval c thread sid with
    | (a, es, some client) => (a, es, [.stored (.approve client), .completeApproval sid client])
    | (a, es, none) => (a, es, [])
  | .reject sid =>
    let (a, es) := a.reject c sid
    (a, es, [])
  | .closeSession sid =>
    let (a, es) := a.finish c sid "PC disconnected"
    (a, es, [])
  | .clients =>
    let (a, es, _) := a.storedSnapshot c
    (a, es, [])
  | .revoke id =>
    match a.beginRevocation c id with
    | (a, es, true) => (a, es, [.stored (.revoke id), .recheck])
    | (a, es, false) => (a, es, [])
  | .renew _ => (a, [], [])
  | .tick =>
    let (a, es) := a.tick c
    (a, es, [])
  | .close =>
    let (a, es) := a.close c
    (a, es, [])

/-- Runs the head of a thread's program: `ts` is the rest of it. -/
def runTask (a : PhoneAuthorization P) (c : Clock) (written : Bool) (thread : ℕ) (ts : List Task) :
    Task → PhoneAuthorization P × List Event × List Task
  | .enter call =>
    let (a, es, more) := a.enter c thread call
    (a, es, more ++ ts)
  | .stored write =>
    if a.failed || a.closed then (a, [], []) else (a, [], .write write c.seconds :: ts)
  | .write write now =>
    match write.run a.repository now written with
    | (r, .saved) => ({ a with repository := r }, [.saved write now r.clients], ts)
    | (r, .unchanged) => ({ a with repository := r }, [], ts)
    | (r, .threw) => ({ a with repository := r }, [], [.storageFailed])
  | .storageFailed =>
    let (a, es) := a.storageFailed c
    (a, es, [])
  | .completeApproval sid proposed =>
    let (a, es) := a.completeApproval c sid proposed
    (a, es, [])
  | .recheck =>
    let (a, es) := a.checkActive c
    (a, es, ts)

/-! ## The system -/

/-- The owner, and what every thread has yet to do. -/
structure Threads (P : Platform) where
  owner : PhoneAuthorization P
  programs : List (List Task)

/-- A thread enters a call, or takes its next section. -/
inductive Label
  | call (call : Call)
  | step (thread : ℕ) (clock : Clock) (written : Bool)
deriving DecidableEq, Repr

/-- One section of one thread. -/
def step (s : Threads P) : Label → Option (Threads P × List Event)
  | .call call =>
    some ({ s with programs := s.programs ++ [call.tasks] }, [.called s.programs.length call])
  | .step i clock written =>
    match s.programs[i]? with
    | some (t :: ts) =>
      let (a, es, program) := s.owner.runTask clock written i ts t
      some ({ owner := a, programs := s.programs.set i program }, es)
    | _ => none

/-- Every interleaving of any callers over one owner of the list read at start. -/
def system (stored : ClientRepository P) : EventSystem (Threads P) Label Event where
  start s := s = { owner := init { stored with healthy := true }, programs := [] }
  step := step

end PhoneAuthorization
end MobileWebcamBridge
