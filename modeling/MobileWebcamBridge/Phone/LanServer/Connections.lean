import MobileWebcamBridge.Phone.LanServer

/-!
# What a step makes of one connection

`Fine` is the invariant of one connection and `Good` that of the server. A step moves one connection
at most, and `Good.moved` is what it has to show for that connection; the statements of a handshake
task and those of `finish`, whoever calls it, are shown here.
-/

set_option autoImplicit false

namespace MobileWebcamBridge
namespace LanServer

variable {s s' : Server} {c c' d : Connection} {i j : ℕ} {next : Finish} {ok : Bool}
  {es : List Event} {t : Task}

/-! ## Where a connection is -/

/-- The session runs, or its `start` has come past both tests and may set `running`. -/
def Connection.Candidate (c : Connection) : Prop :=
  c.running = true ∨ c.task = .testClosed ∨ c.task = .compareAndSet

/-- The socket that the accept loop has not passed on. -/
def Accept.socket : Accept → Option ℕ
  | .testActive i | .tryAcquire i | .refuse i | .add i | .execute i | .rejectedRemove i
  | .rejectedRelease i => some i
  | .testRunning | .accept | .done => none

/-- The slots that the accept loop holds. -/
def Accept.slots : Accept → ℕ
  | .add _ | .execute _ | .rejectedRemove _ | .rejectedRelease _ => 1
  | _ => 0

namespace Server

/-- The handshake tasks that are queued or run. -/
def tasks (s : Server) : ℕ := s.connections.countP fun c => c.task.inProgress

/-- The tasks that end without their `finally`. -/
def lost (s : Server) : ℕ := s.connections.countP fun c => c.task = .lost

end Server

/-! ## The invariant -/

/-- The session has not been started. -/
def Task.early : Task → Bool
  | .unqueued | .queued | .schedule | .authenticate | .testRunning | .construct | .install
  | .retestRunning | .testClosed | .compareAndSet => true
  | _ => false

/-- The task is past the start of its session, or without it past the closing of the socket. -/
def Task.late : Task → Bool
  | .onStarted | .startMedia | .startReader | .cancelTimer | .remove | .release | .done => true
  | _ => false

/-- The task has left the session. -/
def Task.past : Task → Bool
  | .cancelTimer | .remove | .release | .done => true
  | _ => false

/-- The task has left the session, or its socket is closed before the test of it. -/
def Connection.Over (c : Connection) : Prop :=
  c.task.past = true ∨ c.closed = true ∧ (c.task = .retestRunning ∨ c.task = .testClosed)

/-- The task leaves the session without a start. -/
structure Dead (c : Connection) : Prop where
  started : c.started = false
  ended : c.Over

/-- The call of `finish` has taken `running`. -/
def Finish.taken : Finish → Bool
  | .closeMedia | .onClosed => true
  | .closeSocket | .compareAndSet => false

/-- What a call of `finish` has come past. -/
structure Reached (next : Finish) (c : Connection) : Prop where
  closed : next ≠ .closeSocket → c.closed = true
  taken : next.taken = true → c.started = true ∧ c.running = false

/-- Why `active` may name the session. -/
def Holds (c : Connection) : Prop :=
  c.Candidate ∨ c.task = .retestRunning ∨
    (∃ next, next.taken = true ∧ (c.task = .finishing next ∨ next ∈ c.finishers)) ∨
    c.closed = true ∧ c.started = false

/-- The invariant of one connection. -/
structure Fine (s : Server) (i : ℕ) (c : Connection) : Prop where
  socket : c.closed = true ∨ s.accept.socket = some i ∨ c.task.inProgress = true ∨
    c.started = true ∨ c.task = .lost
  unqueued : s.accept.socket = some i → c.task = .unqueued
  early : c.task.early = true → c.started = false
  late : c.task.late = true → c.closed = true ∨ c.started = true
  started : c.started = true → c.running = true ∨ c.closed = true
  running : c.running = true → c.started = true
  finishing : ∀ next, c.task = .finishing next → Reached next c
  finishers : ∀ next ∈ c.finishers, c.started = true ∧ Reached next c
  closer : ∀ next, s.closer = .session i next → Reached next c
  lost : c.task = .lost → s.running = false
  holds : s.running = true → s.active = some i → Holds c

/-- What every state of the listener keeps. -/
structure Good (s : Server) : Prop where
  fine : ∀ i c, s.connections[i]? = some c → Fine s i c
  one : ∀ (i j : ℕ) (c d : Connection), s.connections[i]? = some c → s.connections[j]? = some d →
    c.Candidate → d.Candidate → i = j
  installed : ∀ i c, s.connections[i]? = some c → c.Candidate ∨ c.task = .retestRunning →
    s.running = true → s.active = some i
  known : ∀ i, s.accept.socket = some i ∨ s.active = some i ∨ (∃ n, s.closer = .session i n) →
    i < s.connections.length
  closing : s.running = true → s.closer = .uncalled ∨ s.closer = .compareAndSet
  timer : s.timerShutdown = true → s.running = false
  slots : s.handshakeSlots + s.accept.slots + s.tasks + s.lost = MAX_HANDSHAKES

/-! ## Steps that move one connection -/

theorem modify_eq_set {α : Type} {l : List α} {a : α} (f : α → α) (h : l[i]? = some a) :
    l.modify i f = l.set i (f a) := by
  apply List.ext_getElem?
  intro j
  rw [List.getElem?_modify, List.getElem?_set]
  grind

/-- `s'` is `s` after connection `i` has gone from `c` to `c'`. -/
structure Moves (s s' : Server) (i : ℕ) (c c' : Connection) : Prop where
  connection : s.connections[i]? = some c
  connections : s'.connections = s.connections.set i c'
  running : s'.running = s.running
  timer : s'.timerShutdown = s.timerShutdown
  closer : ∀ j next, j ≠ i → s'.closer = .session j next → s.closer = .session j next
  closing : s.running = true → s'.closer = s.closer
  accept : ∀ j, j ≠ i → (s'.accept.socket = some j ↔ s.accept.socket = some j)
  active : s'.active = s.active ∨ s.active = none ∧ s'.active = some i ∨
    s.active = some i ∧ s'.active = none

/-- What moves connection `i` alone leaves the others as they were. -/
theorem Moves.get (hm : Moves s s' i c c') (hj : s'.connections[j]? = some d) :
    j = i ∧ d = c' ∨ j ≠ i ∧ s.connections[j]? = some d := by
  rw [hm.connections, List.getElem?_set] at hj
  have hlt : i < s.connections.length := (List.getElem?_eq_some_iff.mp hm.connection).1
  by_cases hij : i = j
  · rw [if_pos hij, if_pos (hij ▸ hlt)] at hj
    exact .inl ⟨hij.symm, (Option.some.inj hj).symm⟩
  · rw [if_neg hij] at hj
    exact .inr ⟨fun he => hij he.symm, hj⟩

theorem Moves.others (hm : Moves s s' i c c') (hij : j ≠ i) (h : Fine s j d) : Fine s' j d where
  socket := by
    rw [hm.accept j hij]
    exact h.socket
  unqueued hs := h.unqueued ((hm.accept j hij).mp hs)
  early := h.early
  late := h.late
  started := h.started
  running := h.running
  finishing := h.finishing
  finishers := h.finishers
  closer next hn := h.closer next (hm.closer j next hij hn)
  lost hl := by
    rw [hm.running]
    exact h.lost hl
  holds hr ha := by
    rw [hm.running] at hr
    rcases hm.active with hs | ⟨-, hs⟩ | ⟨-, hs⟩
    · exact h.holds hr (hs ▸ ha)
    · exact absurd (Option.some.inj (ha.symm.trans hs)) hij
    · rw [hs] at ha
      cases ha

theorem countP_moved (p : Connection → Bool) (hm : Moves s s' i c c') :
    s'.connections.countP p + (p c).toNat = s.connections.countP p + (p c').toNat := by
  obtain ⟨hlt, he⟩ := List.getElem?_eq_some_iff.mp hm.connection
  have hpos : p c = true → 0 < s.connections.countP p := by
    intro hp
    exact List.countP_pos_iff.mpr ⟨c, List.mem_of_getElem? hm.connection, hp⟩
  rw [hm.connections, List.countP_set hlt, he]
  cases hp : p c <;> cases hp' : p c' <;> simp_all

/-- The slots that a connection holds. -/
def Task.slots (t : Task) : ℕ := t.inProgress.toNat + (decide (t = .lost)).toNat

/-- One connection that moves and stays fine keeps the server good. -/
theorem Good.of_moves (h : Good s) (hm : Moves s s' i c c') (hfine : Fine s' i c')
    (hcandidate : c'.Candidate → c.Candidate ∨ c.task = .retestRunning ∧ s.running = true)
    (hinstalled : c'.Candidate ∨ c'.task = .retestRunning → s.running = true →
      s'.active = some i)
    (hslots : s'.handshakeSlots + s'.accept.slots + c'.task.slots =
      s.handshakeSlots + s.accept.slots + c.task.slots) : Good s' where
  fine j d hj := by
    rcases hm.get hj with ⟨rfl, rfl⟩ | ⟨hij, hj⟩
    · exact hfine
    · exact hm.others hij (h.fine j d hj)
  one := by
    -- A new candidate was the session that `active` names, and so would another be.
    have hnew : ∀ j d, j ≠ i → s.connections[j]? = some d → d.Candidate → ¬c'.Candidate := by
      intro j d hij hj hd hc'
      rcases hcandidate hc' with hc | ⟨hc, hr⟩
      · exact hij (h.one j i d c hj hm.connection hd hc)
      · have hactive := h.installed i c hm.connection (.inr hc) hr
        exact hij (Option.some.inj ((h.installed j d hj (.inl hd) hr).symm.trans hactive))
    intro j k d e hj hk hd he
    rcases hm.get hj with ⟨rfl, rfl⟩ | ⟨hij, hj⟩ <;> rcases hm.get hk with ⟨rfl, rfl⟩ | ⟨hik, hk⟩
    · rfl
    · exact absurd hd (hnew k e hik hk he)
    · exact absurd he (hnew j d hij hj hd)
    · exact h.one j k d e hj hk hd he
  installed j d hj hd hr := by
    rw [hm.running] at hr
    rcases hm.get hj with ⟨rfl, rfl⟩ | ⟨hij, hj⟩
    · exact hinstalled hd hr
    · have hactive := h.installed j d hj hd hr
      rcases hm.active with hs | ⟨hs, -⟩ | ⟨hs, -⟩
      · rw [hs]
        exact hactive
      · rw [hs] at hactive
        cases hactive
      · exact absurd (Option.some.inj (hactive.symm.trans hs)) hij
  known j hj := by
    rw [hm.connections, List.length_set]
    by_cases hij : j = i
    · rw [hij]
      exact (List.getElem?_eq_some_iff.mp hm.connection).1
    · refine h.known j (hj.imp (hm.accept j hij).mp (Or.imp ?_ ?_))
      · intro ha
        rcases hm.active with hs | ⟨-, hs⟩ | ⟨-, hs⟩
        · exact hs ▸ ha
        · exact absurd (Option.some.inj (ha.symm.trans hs)) hij
        · rw [hs] at ha
          cases ha
      · rintro ⟨n, hn⟩
        exact ⟨n, hm.closer j n hij hn⟩
  closing hr := by
    rw [hm.running] at hr
    rw [hm.closing hr]
    exact h.closing hr
  timer ht := by
    rw [hm.running]
    exact h.timer (hm.timer ▸ ht)
  slots := by
    have hsum := h.slots
    have htasks := countP_moved (fun c => c.task.inProgress) hm
    have hlost := countP_moved (fun c => c.task = .lost) hm
    simp only [Server.tasks, Server.lost, Task.slots] at *
    omega

/-- What a step makes of the invariant, and what stays once `close` has begun. -/
structure Goes (s s' : Server) : Prop where
  good : Good s'
  running : s'.running = true → s.running = true
  candidate : s.running = false → ∀ (i : ℕ) (d : Connection), s'.connections[i]? = some d →
    d.Candidate → ∃ c : Connection, s.connections[i]? = some c ∧ c.Candidate
  started : ∀ (i : ℕ) (c : Connection), s.connections[i]? = some c → c.started = true →
    ∃ d : Connection, s'.connections[i]? = some d ∧ d.started = true
  dead : ∀ (i : ℕ) (c : Connection), s.connections[i]? = some c → Dead c → s.active = some i →
    s'.running = true →
      s'.active = some i ∧ ∃ d : Connection, s'.connections[i]? = some d ∧ Dead d

theorem Good.moved (h : Good s) (hm : Moves s s' i c c') (hfine : Fine s' i c')
    (hcandidate : c'.Candidate → c.Candidate ∨ c.task = .retestRunning ∧ s.running = true)
    (hinstalled : c'.Candidate ∨ c'.task = .retestRunning → s.running = true →
      s'.active = some i)
    (hslots : s'.handshakeSlots + s'.accept.slots + c'.task.slots =
      s.handshakeSlots + s.accept.slots + c.task.slots)
    (hstarted : c.started = true → c'.started = true)
    (hdead : Dead c → s.active = some i → s.running = true → s'.active = some i ∧ Dead c') :
    Goes s s' where
  good := h.of_moves hm hfine hcandidate hinstalled hslots
  running hr := hm.running ▸ hr
  candidate hr j d hj hd := by
    rcases hm.get hj with ⟨rfl, rfl⟩ | ⟨-, hj⟩
    · rcases hcandidate hd with hc | ⟨-, hr'⟩
      · exact ⟨c, hm.connection, hc⟩
      · rw [hr] at hr'
        cases hr'
    · exact ⟨d, hj, hd⟩
  started j d hj hd := by
    rw [hm.connections, List.getElem?_set]
    by_cases hij : i = j
    · subst hij
      obtain rfl := Option.some.inj (hm.connection.symm.trans hj)
      have hlt := (List.getElem?_eq_some_iff.mp hj).1
      exact ⟨c', by rw [if_pos rfl, if_pos hlt], hstarted hd⟩
    · exact ⟨d, by rw [if_neg hij, hj], hd⟩
  dead j d hj hd ha hr := by
    rw [hm.connections, List.getElem?_set]
    by_cases hij : i = j
    · subst hij
      obtain rfl := Option.some.inj (hm.connection.symm.trans hj)
      have hlt := (List.getElem?_eq_some_iff.mp hj).1
      obtain ⟨ha', hc'⟩ := hdead hd ha (hm.running ▸ hr)
      exact ⟨ha', c', by rw [if_pos rfl, if_pos hlt], hc'⟩
    · refine ⟨?_, d, by rw [if_neg hij, hj], hd⟩
      rcases hm.active with hs | ⟨hs, -⟩ | ⟨hs, -⟩
      · exact hs.trans ha
      · rw [ha] at hs
        cases hs
      · exact absurd (Option.some.inj (hs.symm.trans ha)) hij

/-- A step of the task, of another thread or of the timer on connection `i`. -/
theorem Moves.of (f : Connection → Connection) (hc : s.connections[i]? = some c)
    (hset : s'.connections = s.connections.modify i f) (hrunning : s'.running = s.running)
    (htimer : s'.timerShutdown = s.timerShutdown) (hcloser : s'.closer = s.closer)
    (haccept : s'.accept = s.accept)
    (hactive : s'.active = s.active ∨ s.active = none ∧ s'.active = some i ∨
      s.active = some i ∧ s'.active = none) : Moves s s' i c (f c) where
  connection := hc
  connections := by rw [hset, modify_eq_set f hc]
  running := hrunning
  timer := htimer
  closer j next _ hn := by rw [← hcloser]; exact hn
  closing _ := hcloser
  accept j _ := by rw [haccept]
  active := hactive

/-- The task goes on and leaves its session as it was. -/
structure Passes (s : Server) (c c' : Connection) : Prop where
  unqueued : c.task ≠ .unqueued
  closed : c.closed = true → c'.closed = true
  running : c'.running = c.running
  started : c'.started = c.started
  finishers : c'.finishers = c.finishers
  early : c'.task.early = true → c.task.early = true
  late : c'.task.late = true → c.task.late = true ∨ c'.closed = true
  gone : c'.task.inProgress = false → c'.task.late = true ∨ c'.task = .lost
  finishing : ∀ next, c'.task = .finishing next → next = .closeSocket
  lost : c'.task = .lost → s.running = false
  candidate : c'.Candidate → c.Candidate ∨ c.task = .retestRunning ∧ s.running = true
  retest : c'.task ≠ .retestRunning
  ended : s.running = true → c.Over → c'.Over
  holds : s.running = true → Holds c → Holds c'

theorem Fine.pass (hf : Fine s i c) (hp : Passes s c c') (hrunning : s'.running = s.running)
    (hactive : s'.active = s.active) (hcloser : s'.closer = s.closer)
    (haccept : s'.accept = s.accept) : Fine s' i c' where
  socket := by
    by_cases hprogress : c'.task.inProgress = true
    · exact .inr (.inr (.inl hprogress))
    · rcases hp.gone (Bool.eq_false_iff.mpr hprogress) with h | h
      · rcases hp.late h with h | h
        · rcases hf.late h with h | h
          · exact .inl (hp.closed h)
          · exact .inr (.inr (.inr (.inl (hp.started ▸ h))))
        · exact .inl h
      · exact .inr (.inr (.inr (.inr h)))
  unqueued hs := absurd (hf.unqueued (haccept ▸ hs)) hp.unqueued
  early he := hp.started ▸ hf.early (hp.early he)
  late hl := by
    rcases hp.late hl with h | h
    · rw [hp.started]
      exact (hf.late h).imp hp.closed id
    · exact .inl h
  started hs := by
    rw [hp.running]
    exact (hf.started (hp.started ▸ hs)).imp id hp.closed
  running hr := hp.started ▸ hf.running (hp.running ▸ hr)
  finishing next hn := by
    obtain rfl := hp.finishing next hn
    exact ⟨fun hne => absurd rfl hne, fun ht => by cases ht⟩
  finishers next hn := by
    have hr := hf.finishers next (hp.finishers ▸ hn)
    refine ⟨hp.started ▸ hr.1, fun hne => hp.closed (hr.2.closed hne), ?_⟩
    rw [hp.started, hp.running]
    exact hr.2.taken
  closer next hn := by
    have hr := hf.closer next (hcloser ▸ hn)
    refine ⟨fun hne => hp.closed (hr.closed hne), ?_⟩
    rw [hp.started, hp.running]
    exact hr.taken
  lost hl := by
    rw [hrunning]
    exact hp.lost hl
  holds hr ha := by
    rw [hrunning] at hr
    exact hp.holds hr (hf.holds hr (hactive ▸ ha))

/-- A task that passes on keeps it. -/
theorem Good.pass (h : Good s) (hc : s.connections[i]? = some c) (f : Connection → Connection)
    (n : ℕ) (hp : Passes s c (f c))
    (hslots : n + (f c).task.slots = s.handshakeSlots + c.task.slots) :
    Goes s { s.update i f with handshakeSlots := n } := by
  refine h.moved (.of f hc rfl rfl rfl rfl rfl (.inl rfl)) ?_ hp.candidate ?_ ?_
    (fun hs => hp.started.trans hs) ?_
  · exact (h.fine i c hc).pass hp rfl rfl rfl rfl
  · intro hd hr
    rcases hd with hd | hd
    · exact h.installed i c hc ((hp.candidate hd).imp id And.left) hr
    · exact absurd hd hp.retest
  · show n + s.accept.slots + (f c).task.slots = s.handshakeSlots + s.accept.slots + c.task.slots
    omega
  · exact fun hd ha hr => ⟨ha, hp.started.trans hd.started, hp.ended hr hd.ended⟩

/-- The tasks whose place says nothing about the session. -/
def Task.plain : Task → Bool
  | .unqueued | .retestRunning | .testClosed | .compareAndSet | .finishing _ => false
  | _ => true

/-- Where a plain task goes. -/
def Task.goes (t t' : Task) : Bool :=
  t.plain && (t'.plain || t' == .finishing .closeSocket) && (t.early || !t'.early) &&
    (t'.inProgress || t'.late || t' == .lost) && (t'.past || !t.past)

theorem Passes.plain {t' : Task} (ht : c.task = t) (ht' : c'.task = t') (hgoes : t.goes t' = true)
    (hclosed : c.closed = true → c'.closed = true) (hrunning : c'.running = c.running)
    (hstarted : c'.started = c.started) (hfinishers : c'.finishers = c.finishers)
    (hlate : t'.late = true → t.late = true ∨ c'.closed = true)
    (hlost : t' = .lost → s.running = false) : Passes s c c' := by
  subst ht ht'
  simp only [Task.goes, Bool.and_eq_true, Bool.or_eq_true, Bool.not_eq_true', beq_iff_eq] at hgoes
  obtain ⟨⟨⟨⟨hplain, hplain'⟩, hearly⟩, hgone⟩, hpast⟩ := hgoes
  -- neither end of the step is one of the tasks that the other rules are about
  have hnot : ∀ t : Task, t.plain = false → c.task ≠ t := by
    intro t ht he
    rw [he, ht] at hplain
    cases hplain
  have hnot' : ∀ t : Task, t.plain = false → t ≠ .finishing .closeSocket → c'.task ≠ t := by
    intro t ht hne he
    rcases hplain' with hx | hx
    · rw [he, ht] at hx
      cases hx
    · exact hne (he.symm.trans hx)
  -- a candidate that is not at its start runs
  have hcandidate : c'.Candidate → c.running = true := by
    rintro (hx | hx | hx)
    · rw [← hrunning]
      exact hx
    · exact absurd hx (hnot' _ rfl (by simp))
    · exact absurd hx (hnot' _ rfl (by simp))
  constructor
  case unqueued => exact hnot _ rfl
  case closed => exact hclosed
  case running => exact hrunning
  case started => exact hstarted
  case finishers => exact hfinishers
  case early =>
    intro hx
    rcases hearly with he | he
    · exact he
    · rw [he] at hx
      cases hx
  case late => exact hlate
  case gone =>
    intro hx
    rcases hgone with (he | he) | he
    · rw [he] at hx
      cases hx
    · exact .inl he
    · exact .inr he
  case finishing =>
    intro next hx
    by_contra hne
    exact hnot' _ rfl (fun he => hne (Task.finishing.inj he)) hx
  case lost => exact hlost
  case candidate => exact fun hx => .inl (.inl (hcandidate hx))
  case retest => exact hnot' _ rfl (by simp)
  case ended =>
    rintro - (hx | ⟨-, hx | hx⟩)
    · rcases hpast with he | he
      · exact .inl he
      · rw [he] at hx
        cases hx
    · exact absurd hx (hnot _ rfl)
    · exact absurd hx (hnot _ rfl)
  case holds =>
    intro _ hholds
    rcases hholds with (hx | hx | hx) | hx | ⟨n, htaken, hx | hx⟩ | hx
    · exact .inl (.inl (hrunning.trans hx))
    · exact absurd hx (hnot _ rfl)
    · exact absurd hx (hnot _ rfl)
    · exact absurd hx (hnot _ rfl)
    · exact absurd hx (hnot _ rfl)
    · exact .inr (.inr (.inl ⟨n, htaken, .inr (hfinishers ▸ hx)⟩))
    · exact .inr (.inr (.inr ⟨hclosed hx.1, hstarted.trans hx.2⟩))

/-- A statement that passes, and leaves the slots as they are. -/
theorem Passes.setTask {t' : Task} (ht : c.task = t) (hgoes : t.goes t' = true)
    (hlate : t'.late = true → t.late = true ∨ c.closed = true)
    (hlost : t' = .lost → s.running = false) : Passes s c { c with task := t' } :=
  .plain ht rfl hgoes id rfl rfl rfl hlate hlost

/-- The second test of the server's `running`. -/
theorem Passes.retested (ht : c.task = .retestRunning) :
    Passes s c { c with task := if s.running then .testClosed else .finishing .closeSocket } := by
  constructor
  case unqueued => rw [ht]; simp
  case closed => exact id
  case running => rfl
  case started => rfl
  case finishers => rfl
  case early => rw [ht]; exact fun _ => rfl
  case late => cases s.running <;> exact fun hx => by cases hx
  case gone => cases s.running <;> exact fun hx => by cases hx
  case finishing => cases s.running <;> rintro next ⟨⟩; rfl
  case lost => cases s.running <;> exact fun hx => by cases hx
  case candidate =>
    cases s.running with
    | true => exact fun _ => .inr ⟨ht, rfl⟩
    | false =>
      rintro (hx | hx | hx)
      · exact .inl (.inl hx)
      all_goals cases hx
  case retest => cases s.running <;> simp
  case ended =>
    rintro hr (hx | ⟨hclosed, -⟩)
    · rw [ht] at hx
      cases hx
    · rw [if_pos hr]
      exact .inr ⟨hclosed, .inr rfl⟩
  case holds =>
    intro hr _
    rw [if_pos hr]
    exact .inl (.inr (.inl rfl))

/-- The test of the socket, before `running` of the session. -/
theorem Passes.tested (hf : Fine s i c) (ht : c.task = .testClosed) :
    Passes s c { c with task := if c.closed then .cancelTimer else .compareAndSet } := by
  constructor
  case unqueued => rw [ht]; simp
  case closed => exact id
  case running => rfl
  case started => rfl
  case finishers => rfl
  case early => rw [ht]; exact fun _ => rfl
  case late =>
    intro hx
    cases hc : c.closed with
    | true => exact .inr rfl
    | false =>
      rw [hc] at hx
      cases hx
  case gone => cases c.closed <;> exact fun hx => by cases hx
  case finishing => cases c.closed <;> exact fun next hx => by cases hx
  case lost => cases c.closed <;> exact fun hx => by cases hx
  case candidate => exact fun _ => .inl (.inr (.inl ht))
  case retest => cases c.closed <;> simp
  case ended =>
    rintro - (hx | ⟨hclosed, -⟩)
    · rw [ht] at hx
      cases hx
    · rw [if_pos hclosed]
      exact .inl rfl
  case holds =>
    intro _ _
    cases hc : c.closed with
    | true => exact .inr (.inr (.inr ⟨rfl, hf.early (by rw [ht]; rfl)⟩))
    | false => exact .inl (.inr (.inr rfl))

/-- The statements of a task: those that pass, `install`, the start and those of `finish`. -/
theorem Good.taskStep_cases (h : Good s) (hc : s.connections[i]? = some c)
    (hstep : s.taskStep i c ok = some (s', es)) :
    (∃ f n, Passes s c (f c) ∧ n + (f c).task.slots = s.handshakeSlots + c.task.slots ∧
      s' = { s.update i f with handshakeSlots := n } ∧ es = []) ∨
    (c.task = .install ∧ s.active = none ∧
      s' = { s.setTask i .retestRunning with active := some i } ∧ es = []) ∨
    (c.task = .compareAndSet ∧ c.running = false ∧
      s' = s.update i (fun c => { c with running := true, started := true, task := .onStarted }) ∧
      es = [.started i]) ∨
    (∃ next, c.task = .finishing next ∧
      s' = (s.afterFinish i next).update i (fun _ => { (c.finish next).1 with
        task := ((c.finish next).2.map .finishing).getD .cancelTimer }) ∧ es = []) := by
  have hf := h.fine i c hc
  -- `install`, the start and `finish` change what others read; the rest pass
  cases ht : c.task <;> simp only [Server.taskStep, ht] at hstep
  case unqueued => cases hstep
  case queued => cases hstep
  case done => cases hstep
  case lost => cases hstep
  case install =>
    split at hstep
    · next hactive =>
      obtain ⟨rfl, rfl⟩ := Prod.mk.inj (Option.some.inj hstep)
      exact .inr (.inl ⟨rfl, hactive, rfl, rfl⟩)
    · obtain ⟨rfl, rfl⟩ := Prod.mk.inj (Option.some.inj hstep)
      exact .inl ⟨_, _, .setTask ht rfl (fun hx => by cases hx) (fun hx => by cases hx),
        rfl, rfl, rfl⟩
  case compareAndSet =>
    split at hstep
    · next hrunning =>
      -- a session that has not started cannot run
      have hs := hf.early (by rw [ht]; rfl)
      rw [hf.running hrunning] at hs
      cases hs
    · next hrunning =>
      obtain ⟨rfl, rfl⟩ := Prod.mk.inj (Option.some.inj hstep)
      exact .inr (.inr (.inl ⟨rfl, Bool.eq_false_iff.mpr hrunning, rfl, rfl⟩))
  case finishing next =>
    obtain ⟨rfl, rfl⟩ := Prod.mk.inj (Option.some.inj hstep)
    exact .inr (.inr (.inr ⟨next, rfl, rfl, rfl⟩))
  all_goals left
  case schedule =>
    split at hstep
    · next htimer =>
      obtain ⟨rfl, rfl⟩ := Prod.mk.inj (Option.some.inj hstep)
      exact ⟨_, _, .setTask ht rfl (fun hx => by cases hx) (fun _ => h.timer htimer), rfl, rfl, rfl⟩
    · obtain ⟨rfl, rfl⟩ := Prod.mk.inj (Option.some.inj hstep)
      exact ⟨_, _, .plain ht rfl rfl id rfl rfl rfl (fun hx => by cases hx) (fun hx => by cases hx),
        rfl, rfl, rfl⟩
  case retestRunning =>
    obtain ⟨rfl, rfl⟩ := Prod.mk.inj (Option.some.inj hstep)
    exact ⟨_, _, .retested ht, by cases s.running <;> rfl, rfl, rfl⟩
  case testClosed =>
    obtain ⟨rfl, rfl⟩ := Prod.mk.inj (Option.some.inj hstep)
    exact ⟨_, _, .tested hf ht, by cases c.closed <;> rfl, rfl, rfl⟩
  case construct =>
    obtain ⟨rfl, rfl⟩ := Prod.mk.inj (Option.some.inj hstep)
    split
    · next hfail =>
      have hclosed : c.closed = true := (Bool.and_eq_true_iff.mp hfail).1
      exact ⟨_, _, .setTask ht rfl (fun _ => .inr hclosed) (fun hx => by cases hx), rfl, rfl, rfl⟩
    · exact ⟨_, _, .setTask ht rfl (fun hx => by cases hx) (fun hx => by cases hx), rfl, rfl, rfl⟩
  case authenticate =>
    obtain ⟨rfl, rfl⟩ := Prod.mk.inj (Option.some.inj hstep)
    split
    all_goals exact ⟨_, _, .setTask ht rfl (fun hx => by cases hx) (fun hx => by cases hx),
      rfl, rfl, rfl⟩
  case testRunning =>
    obtain ⟨rfl, rfl⟩ := Prod.mk.inj (Option.some.inj hstep)
    split
    all_goals exact ⟨_, _, .setTask ht rfl (fun hx => by cases hx) (fun hx => by cases hx),
      rfl, rfl, rfl⟩
  all_goals
    obtain ⟨rfl, rfl⟩ := Prod.mk.inj (Option.some.inj hstep)
  case onStarted =>
    split
    all_goals exact ⟨_, _, .setTask ht rfl (fun _ => .inl rfl) (fun hx => by cases hx),
      rfl, rfl, rfl⟩
  case startMedia =>
    split
    all_goals exact ⟨_, _, .setTask ht rfl (fun _ => .inl rfl) (fun hx => by cases hx),
      rfl, rfl, rfl⟩
  case startReader =>
    exact ⟨_, _, .setTask ht rfl (fun _ => .inl rfl) (fun hx => by cases hx), rfl, rfl, rfl⟩
  case closeSocket =>
    exact ⟨_, _, .plain ht rfl rfl (fun _ => rfl) rfl rfl rfl (fun _ => .inr rfl)
      (fun hx => by cases hx), rfl, rfl, rfl⟩
  case release =>
    exact ⟨_, _, .setTask ht rfl (fun _ => .inl rfl) (fun hx => by cases hx), rfl, rfl, rfl⟩
  all_goals
    exact ⟨_, _, .plain ht rfl rfl id rfl rfl rfl (fun _ => .inl rfl) (fun hx => by cases hx),
      rfl, rfl, rfl⟩

/-- Before its session is installed, and where the session starts, nothing is over yet. -/
theorem not_over (ht : c.task = t)
    (hnot : (t.past || t == .retestRunning || t == .testClosed) = false) : ¬c.Over := by
  simp only [Bool.or_eq_false_iff, beq_eq_false_iff_ne, ne_eq] at hnot
  rintro (hx | ⟨-, hx | hx⟩)
  · rw [ht, hnot.1.1] at hx
    cases hx
  · exact hnot.1.2 (ht.symm.trans hx)
  · exact hnot.2 (ht.symm.trans hx)

/-- Installing the session keeps it. -/
theorem Good.install (h : Good s) (hc : s.connections[i]? = some c) (ht : c.task = .install)
    (hactive : s.active = none) :
    Goes s { s.setTask i .retestRunning with active := some i } := by
  have hf := h.fine i c hc
  have hstarted : c.started = false := hf.early (by rw [ht]; rfl)
  have hm : Moves s { s.setTask i .retestRunning with active := some i } i c
      { c with task := .retestRunning } :=
    .of (fun c => { c with task := .retestRunning }) hc rfl rfl rfl rfl rfl
      (.inr (.inl ⟨hactive, rfl⟩))
  refine h.moved hm ?_ ?_ (fun _ _ => rfl) ?_ id ?_
  · constructor
    case unqueued =>
      intro hs
      rw [hf.unqueued hs] at ht
      cases ht
    case holds => exact fun _ _ => .inr (.inl rfl)
    case socket => exact .inr (.inr (.inl rfl))
    case finishers =>
      intro next hn
      have hr := hf.finishers next hn
      exact ⟨hr.1, hr.2.closed, hr.2.taken⟩
    case closer =>
      intro next hn
      have hr := hf.closer next hn
      exact ⟨hr.closed, hr.taken⟩
    case early => exact fun _ => hstarted
    case started => exact hf.started
    case running => exact hf.running
    case late => exact fun hl => by cases hl
    case finishing => exact fun next hn => by cases hn
    case lost => exact fun hl => by cases hl
  · intro hd
    rcases hd with hd | hd | hd
    · exact .inl (.inl hd)
    · cases hd
    · cases hd
  · rw [ht]
    rfl
  · intro hd
    exact absurd hd.ended (not_over ht rfl)

/-- Starting the session keeps it. -/
theorem Good.start (h : Good s) (hc : s.connections[i]? = some c) (ht : c.task = .compareAndSet) :
    Goes s (s.update i
      (fun c => { c with running := true, started := true, task := .onStarted })) := by
  have hf := h.fine i c hc
  have hstarted : c.started = false := hf.early (by rw [ht]; rfl)
  have hcandidate : c.Candidate := .inr (.inr ht)
  refine h.moved (.of _ hc rfl rfl rfl rfl rfl (.inl rfl)) ?_ (fun _ => .inl hcandidate)
    (fun _ hr => h.installed i c hc (.inl hcandidate) hr) ?_ (fun _ => rfl) ?_
  · constructor
    case unqueued =>
      intro hs
      rw [hf.unqueued hs] at ht
      cases ht
    case holds => exact fun _ _ => .inl (.inl rfl)
    case socket => exact .inr (.inr (.inl rfl))
    -- Nobody knows the session before it starts, so no other call of `finish` has begun.
    case finishers =>
      intro next hn
      rw [(hf.finishers next hn).1] at hstarted
      cases hstarted
    case closer =>
      intro next hn
      have hr := hf.closer next hn
      refine ⟨hr.closed, fun htaken => ?_⟩
      rw [(hr.taken htaken).1] at hstarted
      cases hstarted
    case early => exact fun he => by cases he
    case started => exact fun _ => .inl rfl
    case running => exact fun _ => rfl
    case late => exact fun _ => .inr rfl
    case finishing => exact fun next hn => by cases hn
    case lost => exact fun hl => by cases hl
  · rw [ht]
    rfl
  · intro hd
    exact absurd hd.ended (not_over ht rfl)

/-! ## `finish` -/

theorem afterFinish_active (s : Server) (i : ℕ) (next : Finish) :
    (s.afterFinish i next).active = s.active ∨
      s.active = some i ∧ (s.afterFinish i next).active = none := by
  simp only [Server.afterFinish]
  split
  · next h => exact .inr ⟨h.2, rfl⟩
  · exact .inl rfl

/-- One statement of `finish` keeps what the other calls have come past. -/
theorem Reached.finish {other : Finish} (h : Reached other c) :
    Reached other (c.finish next).1 := by
  obtain ⟨hclosed, htaken⟩ := h
  cases next with
  | closeSocket => exact ⟨fun _ => rfl, htaken⟩
  | compareAndSet =>
    simp only [Connection.finish]
    split
    · exact ⟨hclosed, fun ht => ⟨(htaken ht).1, rfl⟩⟩
    · exact ⟨hclosed, htaken⟩
  | closeMedia => exact ⟨hclosed, htaken⟩
  | onClosed => exact ⟨hclosed, htaken⟩

/-- What the call itself has come past after the statement. -/
theorem Reached.rest {rest : Finish} (h : Reached next c)
    (hrunning : c.running = true → c.started = true)
    (hrest : (c.finish next).2 = some rest) : Reached rest (c.finish next).1 := by
  cases next with
  | closeSocket =>
    obtain rfl := Option.some.inj hrest
    exact ⟨fun _ => rfl, fun ht => by cases ht⟩
  | compareAndSet =>
    simp only [Connection.finish] at hrest ⊢
    split at hrest
    · next hr =>
      obtain rfl := Option.some.inj hrest
      rw [if_pos hr]
      exact ⟨fun _ => h.closed (by decide), fun _ => ⟨hrunning hr, rfl⟩⟩
    · cases hrest
  | closeMedia =>
    obtain rfl := Option.some.inj hrest
    exact ⟨fun _ => h.closed (by decide), fun _ => h.taken rfl⟩
  | onClosed => cases hrest

/-- Where a statement of `finish` has left the connection, whoever calls. -/
structure Finishes (s s' : Server) (i : ℕ) (next : Finish) (c c' : Connection) : Prop where
  closed : c'.closed = (c.finish next).1.closed
  running : c'.running = (c.finish next).1.running
  started : c'.started = c.started
  task : c'.task = c.task ∨ c.task = .finishing next ∧
    c'.task = ((c.finish next).2.map .finishing).getD .cancelTimer
  finishers : ∀ n ∈ c'.finishers, n ∈ c.finishers ∨ c.started = true ∧ (c.finish next).2 = some n
  closer : ∀ n, s'.closer = .session i n → s.closer = .session i n ∨ (c.finish next).2 = some n
  /-- The other calls stay where they are. -/
  calls : ∀ n, c.task = .finishing n ∨ n ∈ c.finishers →
    n = next ∨ c'.task = .finishing n ∨ n ∈ c'.finishers
  /-- The call goes on, unless it is that of `close`. -/
  rest : ∀ n, (c.finish next).2 = some n → s.running = true →
    c'.task = .finishing n ∨ n ∈ c'.finishers

/-- A closed connection stays closed. -/
theorem closed_finish (h : c.closed = true) : (c.finish next).1.closed = true := by
  cases next <;> simp only [Connection.finish] <;> (try split) <;> trivial

theorem running_finish (h : (c.finish next).1.running = true) :
    c.running = true ∧ next ≠ .compareAndSet := by
  cases next <;> simp only [Connection.finish] at h <;> grind

theorem taken_finish (next : Finish) (h : c.running = true) :
    (c.finish next).1.running = true ∨ (c.finish next).2 = some .closeMedia := by
  cases next <;> simp only [Connection.finish] <;> grind

theorem closed_of_rest_none (h : Reached next c) (hnone : (c.finish next).2 = none) :
    c.closed = true := by
  apply h.closed
  rintro rfl
  cases hnone

/-- While `active` still names the session, one of its calls or the session itself is why. -/
theorem Holds.finish (hf : Finishes s s' i next c c') (hr : s.running = true)
    (hactive : s'.active = (s.afterFinish i next).active) (ha : s'.active = some i)
    (h : Holds c) : Holds c' := by
  have hnext : next ≠ .onClosed := by
    rintro rfl
    rw [hactive] at ha
    simp only [Server.afterFinish] at ha
    split at ha
    · cases ha
    · next hne => exact hne ⟨trivial, ha⟩
  rcases h with (hrun | htask) | htask | ⟨n, htaken, hn⟩ | ⟨hclosed, hstarted⟩
  · rcases taken_finish next hrun with hrun | hrest
    · exact .inl (.inl (hf.running.trans hrun))
    · exact .inr (.inr (.inl ⟨.closeMedia, rfl, hf.rest _ hrest hr⟩))
  · refine .inl (.inr ?_)
    rcases hf.task with he | ⟨he, -⟩
    · rw [he]
      exact htask
    · rw [he] at htask
      rcases htask with htask | htask <;> cases htask
  · rcases hf.task with he | ⟨he, -⟩
    · exact .inr (.inl (he.trans htask))
    · rw [he] at htask
      cases htask
  · rcases hf.calls n hn with rfl | hn
    · cases n with
      | closeMedia => exact .inr (.inr (.inl ⟨.onClosed, rfl, hf.rest _ rfl hr⟩))
      | onClosed => exact absurd rfl hnext
      | _ => cases htaken
    · exact .inr (.inr (.inl ⟨n, htaken, hn⟩))
  · exact .inr (.inr (.inr ⟨hf.closed.trans (closed_finish hclosed), hf.started.trans hstarted⟩))

theorem started_finish (c : Connection) (next : Finish) :
    (c.finish next).1.started = c.started := by
  cases next with
  | compareAndSet =>
    simp only [Connection.finish]
    split <;> rfl
  | _ => rfl

theorem finishers_finish (c : Connection) (next : Finish) :
    (c.finish next).1.finishers = c.finishers := by
  cases next with
  | compareAndSet =>
    simp only [Connection.finish]
    split <;> rfl
  | _ => rfl

theorem task_finish (c : Connection) (next : Finish) : (c.finish next).1.task = c.task := by
  cases next with
  | compareAndSet =>
    simp only [Connection.finish]
    split <;> rfl
  | _ => rfl

/-- What the calls have come past holds of the connection that the statement leaves. -/
theorem Finishes.reached {n : Finish} (hf : Finishes s s' i next c c')
    (h : Reached n (c.finish next).1) : Reached n c' := by
  refine ⟨fun hne => hf.closed.trans (h.closed hne), fun ht => ⟨?_, ?_⟩⟩
  · rw [hf.started, ← started_finish c next]
    exact (h.taken ht).1
  · exact hf.running.trans (h.taken ht).2

/-- The task keeps its place, or it is the one that calls. -/
theorem Finishes.task_cases (hf : Finishes s s' i next c c') :
    c'.task = c.task ∨ c.task = .finishing next ∧
      (c'.task = .cancelTimer ∧ (c.finish next).2 = none ∨
        ∃ n, c'.task = .finishing n ∧ (c.finish next).2 = some n) := by
  refine hf.task.imp id ?_
  rintro ⟨ht, he⟩
  refine ⟨ht, ?_⟩
  cases hrest : (c.finish next).2 with
  | none => exact .inl ⟨by rw [he, hrest]; rfl, rfl⟩
  | some n => exact .inr ⟨n, by rw [he, hrest]; rfl, rfl⟩

/-- A section of `finish` keeps its connection fine. -/
theorem Finishes.fine (hf : Finishes s s' i next c c') (hc : Fine s i c)
    (hreached : Reached next c) (hactive : s'.active = (s.afterFinish i next).active)
    (haccept : s'.accept = s.accept) (hrunning : s'.running = s.running) : Fine s' i c' := by
  have hclosed : c.closed = true → c'.closed = true := by
    intro hcl
    rw [hf.closed]
    exact closed_finish hcl
  have htask := hf.task_cases
  constructor
  case socket =>
    rw [haccept, hf.started]
    rcases htask with he | ⟨-, ⟨he, -⟩ | ⟨n, he, -⟩⟩
    · rw [he]
      exact hc.socket.imp hclosed id
    · exact .inr (.inr (.inl (by rw [he]; rfl)))
    · exact .inr (.inr (.inl (by rw [he]; rfl)))
  case unqueued =>
    intro hs
    have hu := hc.unqueued (haccept ▸ hs)
    rcases htask with he | ⟨he, -⟩
    · exact he.trans hu
    · rw [hu] at he
      cases he
  case early =>
    intro hearly
    rw [hf.started]
    rcases htask with he | ⟨-, ⟨he, -⟩ | ⟨n, he, -⟩⟩ <;> rw [he] at hearly
    · exact hc.early hearly
    · cases hearly
    · cases hearly
  case late =>
    intro hlate
    rw [hf.started]
    rcases htask with he | ⟨-, ⟨he, hrest⟩ | ⟨n, he, -⟩⟩ <;> rw [he] at hlate
    · exact (hc.late hlate).imp hclosed id
    · exact .inl (hclosed (closed_of_rest_none hreached hrest))
    · cases hlate
  case started =>
    intro hs
    rw [hf.started] at hs
    rcases hc.started hs with hr | hcl
    · -- The statement that takes `running` comes after the one that closes the socket.
      rcases taken_finish next hr with hrun | hrest
      · exact .inl (hf.running.trans hrun)
      · exact .inr (hclosed (hreached.closed (by rintro rfl; cases hrest)))
    · exact .inr (hclosed hcl)
  case running =>
    intro hr
    rw [hf.running] at hr
    rw [hf.started]
    exact hc.running (running_finish hr).1
  case finishing =>
    intro n hn
    rcases htask with he | ⟨-, ⟨he, -⟩ | ⟨m, he, hrest⟩⟩
    · exact hf.reached (hc.finishing n (he ▸ hn)).finish
    · rw [he] at hn
      cases hn
    · obtain rfl : m = n := by
        rw [he] at hn
        exact Task.finishing.inj hn
      exact hf.reached (hreached.rest hc.running hrest)
  case finishers =>
    intro n hn
    rw [hf.started]
    rcases hf.finishers n hn with hold | ⟨hs, hrest⟩
    · exact ⟨(hc.finishers n hold).1, hf.reached (hc.finishers n hold).2.finish⟩
    · exact ⟨hs, hf.reached (hreached.rest hc.running hrest)⟩
  case closer =>
    intro n hn
    rcases hf.closer n hn with hold | hrest
    · exact hf.reached (hc.closer n hold).finish
    · exact hf.reached (hreached.rest hc.running hrest)
  case lost =>
    intro hl
    rw [hrunning]
    rcases htask with he | ⟨-, ⟨he, -⟩ | ⟨n, he, -⟩⟩ <;> rw [he] at hl
    · exact hc.lost hl
    · cases hl
    · cases hl
  case holds =>
    intro hr ha
    rw [hrunning] at hr
    refine (hc.holds hr ?_).finish hf hr hactive ha
    rcases afterFinish_active s i next with he | ⟨hs, -⟩
    · rw [← he, ← hactive]
      exact ha
    · exact hs

/-- No statement of `finish` makes a candidate. -/
theorem Finishes.candidate (hf : Finishes s s' i next c c') :
    (c'.Candidate → c.Candidate) ∧ (c'.task = .retestRunning → c.task = .retestRunning) := by
  have hrunning : c'.running = true → c.running = true := by
    intro hr
    rw [hf.running] at hr
    exact (running_finish hr).1
  rcases hf.task_cases with he | ⟨-, ⟨he, -⟩ | ⟨n, he, -⟩⟩
  · rw [Connection.Candidate, he]
    exact ⟨Or.imp hrunning id, id⟩
  all_goals
    rw [Connection.Candidate, he]
    refine ⟨fun hd => ?_, fun hd => by cases hd⟩
    rcases hd with hr | hd | hd
    · exact .inl (hrunning hr)
    all_goals cases hd

/-- A section of `finish` keeps it. -/
theorem Good.finish (h : Good s) (hm : Moves s s' i c c') (hreached : Reached next c)
    (hf : Finishes s s' i next c c') (hactive : s'.active = (s.afterFinish i next).active)
    (haccept : s'.accept = s.accept) (hslots : s'.handshakeSlots = s.handshakeSlots) :
    Goes s s' := by
  have hc := h.fine i c hm.connection
  refine h.moved hm (hf.fine hc hreached hactive haccept hm.running)
    (fun hd => .inl (hf.candidate.1 hd)) ?_ ?_ (fun hs => hf.started.trans hs) ?_
  · intro hd hr
    have hd : c.Candidate ∨ c.task = .retestRunning := hd.imp hf.candidate.1 hf.candidate.2
    have hinstalled := h.installed i c hm.connection hd hr
    rw [hactive, ← hinstalled]
    simp only [Server.afterFinish]
    rw [if_neg]
    -- `onClosed` is for a session that was started and is over.
    rintro ⟨rfl, -⟩
    have ⟨hstarted, hrunning⟩ := hreached.taken rfl
    have hearly : c.task.early = true → False := by
      intro he
      rw [hc.early he] at hstarted
      cases hstarted
    rcases hd with (hd | hd | hd) | hd
    · rw [hrunning] at hd
      cases hd
    all_goals exact hearly (by rw [hd]; rfl)
  · rw [haccept, hslots]
    rcases hf.task_cases with he | ⟨ht, ⟨he, -⟩ | ⟨n, he, -⟩⟩
    · rw [he]
    all_goals
      rw [he, ht]
      rfl
  · intro hd ha _
    constructor
    · rcases afterFinish_active s i next with he | ⟨-, he⟩
      · rw [hactive, he, ha]
      · have hnext : next = .onClosed := by
          simp only [Server.afterFinish] at he
          split at he
          · next hx => exact hx.1
          · rw [ha] at he
            cases he
        subst hnext
        have hx := (hreached.taken rfl).1
        rw [hd.started] at hx
        cases hx
    · refine ⟨hf.started.trans hd.started, ?_⟩
      rcases hf.task_cases with he | ⟨ht, -⟩
      · rw [Connection.Over, he, hf.closed]
        exact hd.ended.imp id (And.imp closed_finish id)
      · exact absurd hd.ended (not_over ht rfl)

end LanServer
end MobileWebcamBridge
