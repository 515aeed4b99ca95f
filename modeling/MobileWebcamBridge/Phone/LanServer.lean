import MobileWebcamBridge.Lib.EventSystem

/-!
# `LanServer.kt`: the Wi-Fi listener of the phone and its one session

The accept loop hands each socket to one of four handshake threads, which authenticates it and
installs its `LanSession`; a session ends from any thread, and `close` ends the server. `system`
interleaves them one access to shared state at a time, over a server that has started. Sockets and
their sessions are numbered in the order in which they are accepted.
-/

set_option autoImplicit false

namespace MobileWebcamBridge
namespace LanServer

/-- The most handshakes at a time. -/
def MAX_HANDSHAKES : ℕ := 4

/-- What comes next in a call of `LanSession.finish`. -/
inductive Finish
  | closeSocket
  | compareAndSet
  | closeMedia
  | onClosed
deriving DecidableEq, Repr

/-- What comes next in the handshake task of a socket, with `LanSession.start` inside it. -/
inductive Task
  | unqueued
  | queued
  | schedule
  | authenticate
  | testRunning
  /-- The constructor of `LanSession` takes the streams of the socket. -/
  | construct
  | install
  | retestRunning
  | testClosed
  | compareAndSet
  | onStarted
  | startMedia
  | startReader
  /-- `session.close()`, or `finish` in the `catch` of `start`. -/
  | finishing (next : Finish)
  | closeSocket
  | cancelTimer
  | remove
  | release
  | done
  /-- The task was taken out of the queue, or `schedule` threw: its `finally` does not run. -/
  | lost
deriving DecidableEq, Repr

/-- An accepted socket and the session that is made of it. -/
structure Connection where
  closed : Bool
  /-- Whether `unauthenticated` holds the socket. -/
  unauthenticated : Bool
  /-- The deadline is scheduled and not cancelled. -/
  timeout : Bool
  task : Task
  /-- `running` of the session. -/
  running : Bool
  /-- `start` of the session has set `running`, so that other threads know the session. -/
  started : Bool
  /-- The calls of `finish` from other threads. -/
  finishers : List Finish
deriving DecidableEq, Repr

/-- What comes next in the accept loop. -/
inductive Accept
  | testRunning
  | accept
  | testActive (i : ℕ)
  | tryAcquire (i : ℕ)
  | refuse (i : ℕ)
  | add (i : ℕ)
  | execute (i : ℕ)
  | rejectedRemove (i : ℕ)
  | rejectedRelease (i : ℕ)
  | done
deriving DecidableEq, Repr

/-- What comes next in the call of `close`. -/
inductive Closer
  | uncalled
  | compareAndSet
  | takeActive
  | session (i : ℕ) (next : Finish)
  | closeServer
  | iterate
  /-- `unauthenticated.forEach`, with the sockets of its start that it has not come to. -/
  | closePending (left : List ℕ)
  | shutdownWorkers
  | joinAccept
  | shutdownTimer
  | returned
deriving DecidableEq, Repr

/-- The listener, its pool and its connections. -/
structure Server where
  running : Bool
  active : Option ℕ
  /-- The permits that `handshakeSlots` has left. -/
  handshakeSlots : ℕ
  /-- The threads that the pool has created. -/
  workers : ℕ
  serverClosed : Bool
  workersShutdown : Bool
  timerShutdown : Bool
  connections : List Connection
  accept : Accept
  closer : Closer
deriving DecidableEq, Repr

/-- The session of a connection starts. -/
inductive Event
  /-- `LanSession.start` has set `running`. -/
  | started (i : ℕ)
deriving DecidableEq, Repr

/-- The next statement of one of the threads. -/
inductive Label
  /-- The next statement of the accept loop; `accept` throws where `ok` is false. -/
  | accept (ok : Bool)
  /-- A handshake thread takes the task of this socket. -/
  | take (i : ℕ)
  /-- The next statement of the task; what it calls fails where `ok` is false. -/
  | task (i : ℕ) (ok : Bool)
  | deadline (i : ℕ)
  /-- Another thread calls `finish` on a session it knows. -/
  | callFinish (i : ℕ)
  | finish (i : ℕ) (next : Finish)
  | close
  /-- The next statement of `close`; `visit` is the socket that `forEach` comes to. -/
  | closer (visit : Option ℕ)
deriving DecidableEq, Repr

/-- The task has been handed to the pool and has not let go of its slot. -/
def Task.inProgress : Task → Bool
  | .unqueued | .done | .lost => false
  | _ => true

/-- A thread runs the task. -/
def Task.onThread : Task → Bool
  | .queued => false
  | t => t.inProgress

/-- One statement of `finish`, as far as it is about the session. -/
def Connection.finish (c : Connection) : Finish → Connection × Option Finish
  | .closeSocket => ({ c with closed := true }, some .compareAndSet)
  | .compareAndSet =>
    if c.running then ({ c with running := false }, some .closeMedia) else (c, none)
  | .closeMedia => (c, some .onClosed)
  | .onClosed => (c, none)

namespace Server

/-- One connection is changed. -/
def update (s : Server) (i : ℕ) (f : Connection → Connection) : Server :=
  { s with connections := s.connections.modify i f }

/-- The task of a connection goes on. -/
def setTask (s : Server) (i : ℕ) (t : Task) : Server := s.update i fun c => { c with task := t }

/-- `onClosed` takes the session out of `active`, if it is there. -/
def afterFinish (s : Server) (i : ℕ) (next : Finish) : Server :=
  { s with active := if next = .onClosed ∧ s.active = some i then none else s.active }

/-- The number of handshake threads that run a task. -/
def busy (s : Server) : ℕ := s.connections.countP fun c => c.task.onThread

/-- One statement of the accept loop. -/
def acceptStep (s : Server) (ok : Bool) : Option Server :=
  match s.accept with
  | .testRunning => some { s with accept := if s.running then .accept else .done }
  | .accept =>
    if s.serverClosed || !ok then some { s with accept := .done }
    else
      some { s with
        connections := s.connections ++
          [{ closed := false, unauthenticated := false, timeout := false, task := .unqueued,
             running := false, started := false, finishers := [] }]
        accept := .testActive s.connections.length }
  | .testActive i =>
    some { s with accept := if s.active.isSome then .refuse i else .tryAcquire i }
  | .tryAcquire i =>
    if s.handshakeSlots = 0 then some { s with accept := .refuse i }
    else some { s with handshakeSlots := s.handshakeSlots - 1, accept := .add i }
  | .refuse i => some { s.update i fun c => { c with closed := true } with accept := .testRunning }
  | .add i =>
    some { s.update i fun c => { c with unauthenticated := true } with accept := .execute i }
  | .execute i =>
    if s.workersShutdown then some { s with accept := .rejectedRemove i }
    -- The pool creates its threads first, each with its task, and then queues.
    else if s.workers < MAX_HANDSHAKES then
      some { s.setTask i .schedule with workers := s.workers + 1, accept := .testRunning }
    else some { s.setTask i .queued with accept := .testRunning }
  | .rejectedRemove i =>
    some { s.update i fun c => { c with unauthenticated := false } with
      accept := .rejectedRelease i }
  | .rejectedRelease i =>
    some { s with handshakeSlots := s.handshakeSlots + 1, accept := .refuse i }
  | .done => none

/-- One statement of the task of socket `i`, whose connection is `c`. -/
def taskStep (s : Server) (i : ℕ) (c : Connection) (ok : Bool) : Option (Server × List Event) :=
  match c.task with
  | .unqueued | .queued | .done | .lost => none
  | .schedule =>
    if s.timerShutdown then some (s.setTask i .lost, [])
    else some (s.update i fun c => { c with timeout := true, task := .authenticate }, [])
  | .authenticate => some (s.setTask i (if ok then .testRunning else .closeSocket), [])
  | .testRunning => some (s.setTask i (if s.running then .construct else .closeSocket), [])
  | .construct =>
    -- The streams of a closed socket throw, past the handlers of the task.
    some (s.setTask i (if c.closed && !ok then .cancelTimer else .install), [])
  | .install =>
    if s.active = none then some ({ s.setTask i .retestRunning with active := some i }, [])
    else some (s.setTask i .closeSocket, [])
  | .retestRunning =>
    some (s.setTask i (if s.running then .testClosed else .finishing .closeSocket), [])
  | .testClosed => some (s.setTask i (if c.closed then .cancelTimer else .compareAndSet), [])
  | .compareAndSet =>
    if c.running then some (s.setTask i .cancelTimer, [])
    else
      some (s.update i fun c => { c with running := true, started := true, task := .onStarted },
        [.started i])
  | .onStarted => some (s.setTask i (if ok then .startMedia else .finishing .closeSocket), [])
  | .startMedia => some (s.setTask i (if ok then .startReader else .finishing .closeSocket), [])
  | .startReader => some (s.setTask i .cancelTimer, [])
  | .finishing next =>
    let (c', rest) := c.finish next
    some ((s.afterFinish i next).update i fun _ =>
      { c' with task := (rest.map .finishing).getD .cancelTimer }, [])
  | .closeSocket => some (s.update i fun c => { c with closed := true, task := .cancelTimer }, [])
  | .cancelTimer => some (s.update i fun c => { c with timeout := false, task := .remove }, [])
  | .remove => some (s.update i fun c => { c with unauthenticated := false, task := .release }, [])
  | .release => some ({ s.setTask i .done with handshakeSlots := s.handshakeSlots + 1 }, [])

/-- The sockets that `unauthenticated` holds. -/
def pending (s : Server) : List ℕ :=
  (List.range s.connections.length).filter fun i =>
    (s.connections[i]?.map Connection.unauthenticated).getD false

/-- One statement of `close`. -/
def closeStep (s : Server) (visit : Option ℕ) : Option Server :=
  match s.closer with
  | .uncalled | .returned => none
  | .compareAndSet =>
    some (if s.running then { s with running := false, closer := .takeActive }
      else { s with closer := .returned })
  | .takeActive =>
    some { s with
      active := none
      closer := (s.active.map fun i => Closer.session i .closeSocket).getD .closeServer }
  | .session i next =>
    match s.connections[i]? with
    | none => none
    | some c =>
      let (c', rest) := c.finish next
      some { (s.afterFinish i next).update i fun _ => c' with
        closer := (rest.map fun next => Closer.session i next).getD .closeServer }
  | .closeServer => some { s with serverClosed := true, closer := .iterate }
  | .iterate => some { s with closer := .closePending s.pending }
  | .closePending left =>
    -- The iterator comes to each socket of its start, unless it is removed before, and may come to
    -- one that is added later.
    match visit with
    | some i =>
      if left.contains i || s.pending.contains i then
        some { s.update i fun c => { c with closed := true } with
          closer := .closePending (left.erase i) }
      else none
    | none =>
      if left.any s.pending.contains then none else some { s with closer := .shutdownWorkers }
  | .shutdownWorkers =>
    some { s with
      workersShutdown := true
      connections := s.connections.map fun c =>
        if c.task = .queued then { c with task := .lost } else c
      closer := .joinAccept }
  -- `join` waits for half a second at most.
  | .joinAccept => some { s with closer := .shutdownTimer }
  | .shutdownTimer => some { s with timerShutdown := true, closer := .returned }

/-- A statement of `finish` in another thread. -/
def finishStep (s : Server) (i : ℕ) (c : Connection) (next : Finish) : Option Server :=
  if next ∈ c.finishers then
    let (c', rest) := c.finish next
    some ((s.afterFinish i next).update i fun _ =>
      { c' with finishers := c.finishers.erase next ++ rest.toList })
  else none

end Server

/-- One statement of one thread. -/
def step (s : Server) : Label → Option (Server × List Event)
  | .accept ok => (s.acceptStep ok).map fun s => (s, [])
  | .take i =>
    match s.connections[i]? with
    | some { task := .queued, .. } =>
      if s.busy < s.workers && !s.workersShutdown then some (s.setTask i .schedule, []) else none
    | _ => none
  | .task i ok =>
    match s.connections[i]? with
    | some c => s.taskStep i c ok
    | none => none
  | .deadline i =>
    match s.connections[i]? with
    | some { timeout := true, .. } => some (s.update i fun c => { c with closed := true }, [])
    | _ => none
  | .callFinish i =>
    match s.connections[i]? with
    | some { started := true, .. } =>
      some (s.update i fun c => { c with finishers := .closeSocket :: c.finishers }, [])
    | _ => none
  | .finish i next =>
    match s.connections[i]? with
    | some c => (s.finishStep i c next).map fun s => (s, [])
    | none => none
  | .close => if s.closer = .uncalled then some ({ s with closer := .compareAndSet }, []) else none
  | .closer visit => (s.closeStep visit).map fun s => (s, [])

/-- A server whose `start` has returned. -/
def listening : Server :=
  { running := true, active := none, handshakeSlots := MAX_HANDSHAKES, workers := 0,
    serverClosed := false, workersShutdown := false, timerShutdown := false, connections := [],
    accept := .testRunning, closer := .uncalled }

/-- The listener from its start. -/
def system : EventSystem Server Label Event where
  start s := s = listening
  step := step

end LanServer
end MobileWebcamBridge
