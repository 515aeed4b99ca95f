import MobileWebcamBridge.Phone.LanServer.Connections

/-!
# One Wi-Fi session at a time

A session that runs, or that has passed both tests of the server's `running`, is the one that
`active` names while the server runs. `close` takes `active` away and lets no further session pass,
so one session at most can still start. A session whose socket is closed just before its start is
never taken out of `active`.
-/

set_option autoImplicit false

namespace MobileWebcamBridge
namespace LanServer

variable {s s' : Server} {c c' d : Connection} {i j : ℕ} {next : Finish} {ok : Bool}
  {es : List Event} {t : Task}

/-! ## Statement -/

/-- What the server promises in each state. -/
structure Server.Orderly (s : Server) : Prop where
  /-- At most one session runs. -/
  one : ∀ (i j : ℕ) (c d : Connection), s.connections[i]? = some c → s.connections[j]? = some d →
    c.running = true → d.running = true → i = j
  /-- While the server runs, `active` names the session that does. -/
  active : s.running = true → ∀ i c, s.connections[i]? = some c → c.running = true →
    s.active = some i
  /-- Each slot is free, the accept loop's, a task's, or lost with a task. -/
  slots : s.handshakeSlots + s.accept.slots + s.tasks + s.lost = MAX_HANDSHAKES
  /-- A task is lost only to `close`. -/
  kept : s.running = true → s.lost = 0
  /-- A socket that the accept loop and its task have left is closed, or that of the session that
  runs, or its task was lost. -/
  sockets : ∀ i c, s.connections[i]? = some c → s.accept.socket ≠ some i →
    c.task.inProgress = false → c.closed = true ∨ c.running = true ∨ c.task = .lost
  /-- A session that `active` names with no call left runs, or it found its socket closed and was
  never started. -/
  settled : s.running = true → ∀ i c, s.active = some i → s.connections[i]? = some c →
    c.task.inProgress = false → c.finishers = [] →
    c.running = true ∨ c.closed = true ∧ c.started = false
  /-- Once `close` has begun, one session at most is started: the one past both tests. -/
  ended : s.running = false → ∀ labels s' es, system.exec s labels = some (s', es) →
    es = [] ∨ ∃ i c, s.connections[i]? = some c ∧ c.Candidate ∧ c.running = false ∧
      es = [.started i]

/-! ## Every step -/

/-- A step of the connection's task keeps the server good. -/
theorem Good.task (h : Good s) (hc : s.connections[i]? = some c)
    (hstep : s.taskStep i c ok = some (s', es)) : Goes s s' := by
  have hf := h.fine i c hc
  rcases h.taskStep_cases hc hstep with ⟨f, n, hp, hslots, rfl, -⟩ | ⟨ht, hactive, rfl, -⟩ |
    ⟨ht, -, rfl, -⟩ | ⟨next, ht, rfl, -⟩
  · exact h.pass hc f n hp hslots
  · exact h.install hc ht hactive
  · exact h.start hc ht
  · refine h.finish (.of _ hc rfl rfl rfl rfl rfl ((afterFinish_active s i next).imp id .inr))
      (hf.finishing next ht) ?_ rfl rfl rfl
    have hfinishers := finishers_finish c next
    constructor
    · rfl
    · rfl
    · exact started_finish c next
    · exact .inr ⟨ht, rfl⟩
    · intro n hn
      rw [← hfinishers]
      exact .inl hn
    · intro n hn
      exact .inl hn
    · intro n hn
      rcases hn with hn | hn
      · rw [ht] at hn
        exact .inl (Task.finishing.inj hn).symm
      · rw [← hfinishers] at hn
        exact .inr (.inr hn)
    · intro n hn _
      left
      show ((c.finish next).2.map Task.finishing).getD Task.cancelTimer = _
      rw [hn]
      rfl

/-- A step of `finish` keeps it. -/
theorem Good.finishStep (h : Good s) (hc : s.connections[i]? = some c)
    (hstep : s.finishStep i c next = some s') : Goes s s' := by
  have hf := h.fine i c hc
  simp only [Server.finishStep] at hstep
  split at hstep
  · next hmem =>
    obtain rfl := Option.some.inj hstep
    have ⟨hstarted, hreached⟩ := hf.finishers next hmem
    refine h.finish (.of _ hc rfl rfl rfl rfl rfl ((afterFinish_active s i next).imp id .inr))
      hreached ?_ rfl rfl rfl
    constructor
    · rfl
    · rfl
    · exact started_finish c next
    · exact .inl (task_finish c next)
    · intro n hn
      rcases List.mem_append.mp hn with hn | hn
      · exact .inl (List.mem_of_mem_erase hn)
      · exact .inr ⟨hstarted, Option.mem_toList.mp hn⟩
    · exact fun n hn => .inl hn
    · intro n hn
      by_cases hne : n = next
      · exact .inl hne
      · rcases hn with hn | hn
        · exact .inr (.inl ((task_finish c next).trans hn))
        · exact .inr (.inr (List.mem_append_left _ ((List.mem_erase_of_ne hne).mpr hn)))
    · exact fun n hn _ => .inr (List.mem_append_right _ (Option.mem_toList.mpr hn))
  · cases hstep

/-- The task and the session stay as they were, but for a closed socket or a new call. -/
structure Quiet (c c' : Connection) : Prop where
  task : c'.task = c.task
  closed : c.closed = true → c'.closed = true
  running : c'.running = c.running
  started : c'.started = c.started
  finishers : ∀ n ∈ c'.finishers, n ∈ c.finishers ∨ c.started = true ∧ n = .closeSocket
  calls : ∀ n ∈ c.finishers, n ∈ c'.finishers

theorem Quiet.reached {n : Finish} (hq : Quiet c c') (h : Reached n c) : Reached n c' := by
  refine ⟨fun hne => hq.closed (h.closed hne), ?_⟩
  rw [hq.started, hq.running]
  exact h.taken

theorem Quiet.candidate (hq : Quiet c c') : c'.Candidate ↔ c.Candidate := by
  rw [Connection.Candidate, hq.running, hq.task]
  rfl

theorem Quiet.holds (hq : Quiet c c') (h : Holds c) : Holds c' := by
  rw [Holds, hq.candidate, hq.task, hq.started]
  refine h.imp id (Or.imp id (Or.imp ?_ (And.imp hq.closed id)))
  rintro ⟨n, ht, hn⟩
  exact ⟨n, ht, hn.imp id (hq.calls n)⟩

theorem Quiet.fine (hq : Quiet c c') (hc : Fine s i c) (hrunning : s'.running = s.running)
    (hactive : s'.active = s.active)
    (hcloser : ∀ n, s'.closer = .session i n → s.closer = .session i n)
    (haccept : s'.accept.socket = some i → s.accept.socket = some i)
    (hpassed : s.accept.socket = some i → s'.accept.socket = some i ∨ c'.closed = true) :
    Fine s' i c' where
  socket := by
    rw [hq.task, hq.started]
    rcases hc.socket with h | h | h
    · exact .inl (hq.closed h)
    · exact (hpassed h).elim (fun h => .inr (.inl h)) .inl
    · exact .inr (.inr h)
  unqueued hs := hq.task.trans (hc.unqueued (haccept hs))
  early he := hq.started.trans (hc.early (hq.task ▸ he))
  late hl := by
    rw [hq.started]
    exact (hc.late (hq.task ▸ hl)).imp hq.closed id
  started hs := by
    rw [hq.running]
    exact (hc.started (hq.started ▸ hs)).imp id hq.closed
  running hr := hq.started.trans (hc.running (hq.running ▸ hr))
  finishing n hn := hq.reached (hc.finishing n (hq.task ▸ hn))
  finishers n hn := by
    rw [hq.started]
    rcases hq.finishers n hn with hold | ⟨hs, rfl⟩
    · exact ⟨(hc.finishers n hold).1, hq.reached (hc.finishers n hold).2⟩
    · exact ⟨hs, fun hne => absurd rfl hne, fun ht => by cases ht⟩
  closer n hn := hq.reached (hc.closer n (hcloser n hn))
  lost hl := hrunning ▸ hc.lost (hq.task ▸ hl)
  holds hr ha := hq.holds (hc.holds (hrunning ▸ hr) (hactive ▸ ha))

/-- A connection that moves quietly keeps it. -/
theorem Good.quiet (h : Good s) (hm : Moves s s' i c c') (hq : Quiet c c')
    (hactive : s'.active = s.active)
    (hcloser : ∀ n, s'.closer = .session i n → s.closer = .session i n)
    (haccept : s'.accept.socket = some i → s.accept.socket = some i)
    (hpassed : s.accept.socket = some i → s'.accept.socket = some i ∨ c'.closed = true)
    (hslots : s'.handshakeSlots + s'.accept.slots = s.handshakeSlots + s.accept.slots) :
    Goes s s' := by
  refine h.moved hm ?_ (fun hd => .inl (hq.candidate.mp hd)) ?_ ?_
    (fun hs => hq.started.trans hs) ?_
  · exact hq.fine (h.fine i c hm.connection) hm.running hactive hcloser haccept hpassed
  · intro hd hr
    rw [hactive]
    rw [hq.candidate, hq.task] at hd
    exact h.installed i c hm.connection hd hr
  · rw [hq.task]
    omega
  · refine fun hd ha _ => ⟨hactive.trans ha, hq.started.trans hd.started, ?_⟩
    rw [Connection.Over, hq.task]
    exact hd.ended.imp id (And.imp hq.closed id)

theorem Quiet.refl (c : Connection) : Quiet c c :=
  ⟨rfl, id, rfl, rfl, fun _ hn => .inl hn, fun _ hn => hn⟩

theorem Quiet.close (c : Connection) : Quiet c { c with closed := true } :=
  ⟨rfl, fun _ => rfl, rfl, rfl, fun _ hn => .inl hn, fun _ hn => hn⟩

theorem Quiet.pending (c : Connection) (b : Bool) : Quiet c { c with unauthenticated := b } :=
  ⟨rfl, id, rfl, rfl, fun _ hn => .inl hn, fun _ hn => hn⟩

theorem Quiet.call (hstarted : c.started = true) :
    Quiet c { c with finishers := .closeSocket :: c.finishers } := by
  refine ⟨rfl, id, rfl, rfl, fun n hn => ?_, fun n hn => List.mem_cons_of_mem _ hn⟩
  rcases List.mem_cons.mp hn with rfl | hn
  · exact .inr ⟨hstarted, rfl⟩
  · exact .inl hn

/-- No connection moves. -/
theorem Good.of_still (h : Good s) (hset : s'.connections = s.connections)
    (hrunning : s'.running = true → s.running = true)
    (hactive : s'.active = s.active ∨ s'.active = none ∧ s'.running = false)
    (haccept : s'.accept.socket = s.accept.socket)
    (hcloser : ∀ i n, s'.closer = .session i n →
      s.closer = .session i n ∨ n = .closeSocket ∧ s.active = some i)
    (hclosing : s'.running = true → s'.closer = .uncalled ∨ s'.closer = .compareAndSet)
    (htimer : s'.timerShutdown = true → s'.running = false)
    (hslots : s'.handshakeSlots + s'.accept.slots = s.handshakeSlots + s.accept.slots) :
    Good s' where
  fine i c hc := by
    rw [hset] at hc
    have hf := h.fine i c hc
    refine { hf with
      socket := ?_
      unqueued := ?_
      closer := ?_
      lost := ?_
      holds := ?_ }
    · rw [haccept]
      exact hf.socket
    · rw [haccept]
      exact hf.unqueued
    · intro n hn
      rcases hcloser i n hn with hold | ⟨rfl, -⟩
      · exact hf.closer n hold
      · exact ⟨fun hne => absurd rfl hne, fun ht => by cases ht⟩
    · intro hl
      have hr := hf.lost hl
      cases hr' : s'.running with
      | false => rfl
      | true => exact absurd (hrunning hr') (by rw [hr]; decide)
    · intro hr ha
      rcases hactive with hs | ⟨-, hs⟩
      · exact hf.holds (hrunning hr) (hs ▸ ha)
      · rw [hs] at hr
        cases hr
  one i j c d hi hj := by
    rw [hset] at hi hj
    exact h.one i j c d hi hj
  installed i c hc hd hr := by
    rw [hset] at hc
    rcases hactive with hs | ⟨-, hs⟩
    · rw [hs]
      exact h.installed i c hc hd (hrunning hr)
    · rw [hs] at hr
      cases hr
  known i hi := by
    rw [hset]
    rcases hi with hi | hi | ⟨n, hn⟩
    · exact h.known i (.inl (haccept ▸ hi))
    · rcases hactive with hs | ⟨hs, -⟩
      · exact h.known i (.inr (.inl (hs ▸ hi)))
      · rw [hs] at hi
        cases hi
    · rcases hcloser i n hn with hold | ⟨-, ha⟩
      · exact h.known i (.inr (.inr ⟨n, hold⟩))
      · exact h.known i (.inr (.inl ha))
  closing := hclosing
  timer := htimer
  slots := by
    have hsum := h.slots
    simp only [Server.tasks, Server.lost, hset] at hsum ⊢
    omega

/-- A step that moves no connection keeps it. -/
theorem Good.still (h : Good s) (hset : s'.connections = s.connections)
    (hrunning : s'.running = true → s.running = true)
    (hactive : s'.active = s.active ∨ s'.active = none ∧ s'.running = false)
    (haccept : s'.accept.socket = s.accept.socket)
    (hcloser : ∀ i n, s'.closer = .session i n →
      s.closer = .session i n ∨ n = .closeSocket ∧ s.active = some i)
    (hclosing : s'.running = true → s'.closer = .uncalled ∨ s'.closer = .compareAndSet)
    (htimer : s'.timerShutdown = true → s'.running = false)
    (hslots : s'.handshakeSlots + s'.accept.slots = s.handshakeSlots + s.accept.slots) :
    Goes s s' where
  good := h.of_still hset hrunning hactive haccept hcloser hclosing htimer hslots
  running := hrunning
  candidate _ i d hd hcandidate := ⟨d, hset ▸ hd, hcandidate⟩
  started i c hc hstarted := ⟨c, by rw [hset, hc], hstarted⟩
  dead i c hc hd ha hr := by
    refine ⟨?_, c, by rw [hset, hc], hd⟩
    rcases hactive with hs | ⟨-, hs⟩
    · exact hs.trans ha
    · rw [hr] at hs
      cases hs

/-- The accept loop moves on without touching a connection. -/
theorem Good.loop (h : Good s) (a : Accept) (n : ℕ) (haccept : a.socket = s.accept.socket)
    (hslots : n + a.slots = s.handshakeSlots + s.accept.slots) :
    Goes s { s with accept := a, handshakeSlots := n } :=
  h.still rfl id (.inl rfl) haccept (fun _ _ hn => .inl hn) h.closing h.timer hslots

/-- The accept loop touches the connection whose socket it holds. -/
theorem Good.held (h : Good s) (hc : s.connections[i]? = some c) (f : Connection → Connection)
    (a : Accept) (hq : Quiet c (f c)) (hsocket : s.accept.socket = some i)
    (haccept : a.socket = some i ∨ a.socket = none ∧ (f c).closed = true)
    (hslots : a.slots = s.accept.slots) : Goes s { s.update i f with accept := a } := by
  have hm : Moves s { s.update i f with accept := a } i c (f c) := by
    constructor
    · exact hc
    · exact modify_eq_set f hc
    · rfl
    · rfl
    · exact fun j next _ hn => hn
    · exact fun _ => rfl
    · intro j hij
      have hs : s.accept.socket ≠ some j := by
        rw [hsocket]
        exact fun he => hij (Option.some.inj he).symm
      refine ⟨fun ha => ?_, fun ha => absurd ha hs⟩
      rcases haccept with he | ⟨he, -⟩
      · exact absurd (Option.some.inj (ha.symm.trans he)) hij
      · exact absurd (ha.symm.trans he) (by simp)
    · exact .inl rfl
  refine h.quiet hm hq rfl (fun _ hn => hn) (fun _ => hsocket) (fun _ => ?_) ?_
  · exact haccept.imp id And.right
  · show s.handshakeSlots + a.slots = s.handshakeSlots + s.accept.slots
    rw [hslots]

theorem get_append (hc : (s.connections ++ [d])[i]? = some c) :
    s.connections[i]? = some c ∧ i < s.connections.length ∨ i = s.connections.length ∧ c = d := by
  rcases Nat.lt_trichotomy i s.connections.length with hlt | rfl | hgt
  · rw [List.getElem?_append_left hlt] at hc
    exact .inl ⟨hc, hlt⟩
  · rw [List.getElem?_concat_length] at hc
    exact .inr ⟨rfl, (Option.some.inj hc).symm⟩
  · rw [List.getElem?_append_right (by omega), List.getElem?_eq_none (by simp; omega)] at hc
    cases hc

/-- A new connection, in the hands of the accept loop. -/
theorem Good.of_connect (h : Good s) (hsocket : s.accept.socket = none)
    (hslots : s.accept.slots = 0) (hd : d = ⟨false, false, false, .unqueued, false, false, []⟩) :
    Good { s with
      connections := s.connections ++ [d]
      accept := .testActive s.connections.length } where
  fine i c hc := by
    rcases get_append hc with ⟨hc, hlt⟩ | ⟨rfl, rfl⟩
    · have hf := h.fine i c hc
      refine { hf with
        socket := ?_
        unqueued := ?_ }
      · rcases hf.socket with hs | hs | hs
        · exact .inl hs
        · rw [hsocket] at hs
          cases hs
        · exact .inr (.inr hs)
      · intro hs
        exact absurd (Option.some.inj hs) (by omega)
    · have hnew : ∀ P : Prop, (s.active = some s.connections.length ∨
          ∃ n, s.closer = .session s.connections.length n) → P := by
        intro P hk
        exact absurd (h.known _ (.inr hk)) (lt_irrefl _)
      subst hd
      constructor
      case socket => exact .inr (.inl rfl)
      case unqueued => exact fun _ => rfl
      case early => exact fun _ => rfl
      case closer => exact fun n hn => hnew _ (.inr ⟨n, hn⟩)
      case holds => exact fun _ ha => hnew _ (.inl ha)
      case finishers => exact fun n hn => absurd hn List.not_mem_nil
      case finishing => exact fun n hn => by cases hn
      all_goals exact fun hx => by cases hx
  one i j c e hi hj hc he := by
    have hnew : ¬d.Candidate := by
      subst hd
      rintro (hr | hr | hr) <;> cases hr
    rcases get_append hi with ⟨hi, -⟩ | ⟨-, rfl⟩
    · rcases get_append hj with ⟨hj, -⟩ | ⟨-, rfl⟩
      · exact h.one i j c e hi hj hc he
      · exact absurd he hnew
    · exact absurd hc hnew
  installed i c hc hcandidate hr := by
    rcases get_append hc with ⟨hc, -⟩ | ⟨-, rfl⟩
    · exact h.installed i c hc hcandidate hr
    · subst hd
      rcases hcandidate with (hx | hx | hx) | hx <;> cases hx
  known i hi := by
    rw [List.length_append, List.length_singleton]
    rcases hi with hi | hi
    · rw [← Option.some.inj hi]
      exact Nat.lt_succ_self _
    · exact Nat.lt_succ_of_lt (h.known i (.inr hi))
  closing := h.closing
  timer := h.timer
  slots := by
    have hsum := h.slots
    subst hd
    simp only [Server.tasks, Server.lost, List.countP_append] at hsum ⊢
    rw [hslots] at hsum
    exact hsum

/-- A new connection keeps it. -/
theorem Good.connect (h : Good s) (hsocket : s.accept.socket = none) (hslots : s.accept.slots = 0)
    (hd : d = ⟨false, false, false, .unqueued, false, false, []⟩) :
    Goes s { s with
      connections := s.connections ++ [d]
      accept := .testActive s.connections.length } where
  good := h.of_connect hsocket hslots hd
  running hr := hr
  candidate _ i c hc hcandidate := by
    rcases get_append hc with ⟨hc, -⟩ | ⟨-, rfl⟩
    · exact ⟨c, hc, hcandidate⟩
    · subst hd
      rcases hcandidate with hx | hx | hx <;> cases hx
  started i c hc hstarted := by
    have hlt := (List.getElem?_eq_some_iff.mp hc).1
    exact ⟨c, by rw [List.getElem?_append_left hlt, hc], hstarted⟩
  dead i c hc hd ha _ := by
    have hlt := (List.getElem?_eq_some_iff.mp hc).1
    exact ⟨ha, c, by rw [List.getElem?_append_left hlt, hc], hd⟩

/-- The socket goes from the accept loop to its task. -/
theorem Good.handed (h : Good s) (hc : s.connections[i]? = some c)
    (hsocket : s.accept.socket = some i) (hslots : s.accept.slots = 1) (n : ℕ)
    (ht : t = .schedule ∨ t = .queued) :
    Goes s { s.setTask i t with workers := n, accept := .testRunning } := by
  have hf := h.fine i c hc
  have hunqueued := hf.unqueued hsocket
  -- scheduled with a timeout or queued, the task has not begun
  have hearly : t.early = true := by rcases ht with rfl | rfl <;> rfl
  have hprogress : t.inProgress = true := by rcases ht with rfl | rfl <;> rfl
  have hm : Moves s { s.setTask i t with workers := n, accept := .testRunning } i c
      { c with task := t } := by
    constructor
    · exact hc
    · exact modify_eq_set _ hc
    · rfl
    · rfl
    · exact fun j next _ hn => hn
    · exact fun _ => rfl
    · intro j hij
      rw [hsocket]
      exact ⟨(fun he => by cases he), fun he => absurd (Option.some.inj he).symm hij⟩
    · exact .inl rfl
  -- it runs only if it was running
  have hcandidate : ({ c with task := t } : Connection).Candidate → c.running = true := by
    rintro (hr | hx | hx)
    · exact hr
    all_goals rcases ht with rfl | rfl <;> cases hx
  refine h.moved hm ?_ (fun hd => .inl (.inl (hcandidate hd))) ?_ ?_ id ?_
  · have hreached : ∀ m, Reached m c → Reached m { c with task := t } :=
      fun m hr => ⟨hr.closed, hr.taken⟩
    refine { hf with
      socket := .inr (.inr (.inl hprogress))
      unqueued := fun hx => by cases hx
      early := fun _ => hf.early (by rw [hunqueued]; rfl)
      late := ?_
      finishing := ?_
      lost := ?_
      holds := ?_
      finishers := fun m hm => ⟨(hf.finishers m hm).1, hreached m (hf.finishers m hm).2⟩
      closer := fun m hm => hreached m (hf.closer m hm) }
    · intro hx
      rcases ht with rfl | rfl <;> cases hx
    · intro m hx
      rcases ht with rfl | rfl <;> cases hx
    · intro hx
      rcases ht with rfl | rfl <;> cases hx
    · intro hr ha
      rcases hf.holds hr ha with (hx | hx | hx) | hx | ⟨m, htaken, hx | hx⟩ | hx
      · exact .inl (.inl hx)
      · rw [hunqueued] at hx
        cases hx
      · rw [hunqueued] at hx
        cases hx
      · rw [hunqueued] at hx
        cases hx
      · rw [hunqueued] at hx
        cases hx
      · exact .inr (.inr (.inl ⟨m, htaken, .inr hx⟩))
      · exact .inr (.inr (.inr hx))
  · intro hd hr
    rcases hd with hd | hd
    · exact h.installed i c hc (.inl (.inl (hcandidate hd))) hr
    · rcases ht with rfl | rfl <;> cases hd
  · rw [hslots, hunqueued]
    rcases ht with rfl | rfl <;> rfl
  · intro hd
    exact absurd hd.ended (not_over hunqueued rfl)

/-- A step of the accepting thread keeps it. -/
theorem Good.accept (h : Good s) (hstep : s.acceptStep ok = some s') : Goes s s' := by
  have hsocket : ∀ i, s.accept.socket = some i → ∃ c, s.connections[i]? = some c := by
    intro i hi
    exact ⟨_, List.getElem?_eq_getElem (h.known i (.inl hi))⟩
  cases ha : s.accept <;> simp only [Server.acceptStep, ha] at hstep
  case testRunning =>
    obtain rfl := Option.some.inj hstep
    apply h.loop _ s.handshakeSlots <;> rw [ha] <;> cases s.running <;> rfl
  case accept =>
    split at hstep
    · obtain rfl := Option.some.inj hstep
      apply h.loop _ s.handshakeSlots <;> rw [ha] <;> rfl
    · obtain rfl := Option.some.inj hstep
      apply h.connect
      · rw [ha]
        rfl
      · rw [ha]
        rfl
      · rfl
  case testActive i =>
    obtain rfl := Option.some.inj hstep
    apply h.loop _ s.handshakeSlots <;> rw [ha] <;> cases s.active.isSome <;> rfl
  case tryAcquire i =>
    split at hstep
    · obtain rfl := Option.some.inj hstep
      apply h.loop _ s.handshakeSlots <;> rw [ha] <;> rfl
    · next hfree =>
      obtain rfl := Option.some.inj hstep
      apply h.loop
      · rw [ha]
        rfl
      · rw [ha]
        show s.handshakeSlots - 1 + 1 = s.handshakeSlots + 0
        omega
  case refuse i =>
    obtain ⟨c, hc⟩ := hsocket i (by rw [ha]; rfl)
    obtain rfl := Option.some.inj hstep
    exact h.held hc _ _ (Quiet.close c) (by rw [ha]; rfl) (.inr ⟨rfl, rfl⟩) (by rw [ha]; rfl)
  case add i =>
    obtain ⟨c, hc⟩ := hsocket i (by rw [ha]; rfl)
    obtain rfl := Option.some.inj hstep
    exact h.held hc _ _ (Quiet.pending c true) (by rw [ha]; rfl) (.inl rfl) (by rw [ha]; rfl)
  case execute i =>
    obtain ⟨c, hc⟩ := hsocket i (by rw [ha]; rfl)
    split at hstep
    · obtain rfl := Option.some.inj hstep
      apply h.loop _ s.handshakeSlots <;> rw [ha] <;> rfl
    split at hstep
    · obtain rfl := Option.some.inj hstep
      exact h.handed hc (by rw [ha]; rfl) (by rw [ha]; rfl) _ (.inl rfl)
    · obtain rfl := Option.some.inj hstep
      exact h.handed hc (by rw [ha]; rfl) (by rw [ha]; rfl) s.workers (.inr rfl)
  case rejectedRemove i =>
    obtain ⟨c, hc⟩ := hsocket i (by rw [ha]; rfl)
    obtain rfl := Option.some.inj hstep
    exact h.held hc _ _ (Quiet.pending c false) (by rw [ha]; rfl) (.inl rfl) (by rw [ha]; rfl)
  case rejectedRelease i =>
    obtain rfl := Option.some.inj hstep
    apply h.loop <;> rw [ha] <;> rfl
  case done => cases hstep

theorem sum_countP_map {α : Type} {p q : α → Bool} {g : α → α} (xs : List α)
    (hg : ∀ x, (p (g x)).toNat + (q (g x)).toNat = (p x).toNat + (q x).toNat) :
    (xs.map g).countP p + (xs.map g).countP q = xs.countP p + xs.countP q := by
  induction xs with
  | nil => rfl
  | cons x xs ih =>
    have hx := hg x
    have hbool : ∀ b : Bool, (if b = true then 1 else 0) = b.toNat := by decide
    simp only [List.map_cons, List.countP_cons, hbool]
    omega

/-- `shutdownNow` takes the tasks out of the queue. -/
def Connection.drain (c : Connection) : Connection :=
  if c.task = .queued then { c with task := .lost } else c

theorem drain_cases (c : Connection) :
    c.task ≠ .queued ∧ c.drain = c ∨ c.task = .queued ∧ c.drain = { c with task := .lost } := by
  unfold Connection.drain
  split
  · next h => exact .inr ⟨h, rfl⟩
  · next h => exact .inl ⟨h, rfl⟩

theorem candidate_drain (h : c.drain.Candidate) : c.Candidate := by
  rcases drain_cases c with ⟨-, he⟩ | ⟨-, he⟩
  · rw [he] at h
    exact h
  · rw [he] at h
    rcases h with h | h | h
    · exact .inl h
    all_goals cases h

theorem Good.of_drain (h : Good s) (hr : s.running = false) :
    Good { s with
      workersShutdown := true
      connections := s.connections.map Connection.drain
      closer := .joinAccept } := by
  -- the workers' queue is dropped: a task that was queued is lost, and every other goes on
  have hget : ∀ (i : ℕ) (c : Connection), (s.connections.map Connection.drain)[i]? = some c →
      ∃ d : Connection, s.connections[i]? = some d ∧ c = d.drain := by
    intro i c hc
    rw [List.getElem?_map] at hc
    obtain ⟨d, hd, rfl⟩ := Option.map_eq_some_iff.mp hc
    exact ⟨d, hd, rfl⟩
  constructor
  case fine =>
    intro i c hc
    obtain ⟨d, hd, rfl⟩ := hget i c hc
    have hf := h.fine i d hd
    rcases drain_cases d with ⟨-, he⟩ | ⟨ht, he⟩
    · rw [he]
      exact { hf with closer := fun n hn => by cases hn }
    · have hreached : ∀ n, Reached n d → Reached n { d with task := .lost } :=
        fun n hn => ⟨hn.closed, hn.taken⟩
      rw [he]
      constructor
      case socket => exact .inr (.inr (.inr (.inr rfl)))
      case unqueued =>
        intro hs
        rw [hf.unqueued hs] at ht
        cases ht
      case started => exact hf.started
      case running => exact hf.running
      case finishers => exact fun n hn => ⟨(hf.finishers n hn).1, hreached n (hf.finishers n hn).2⟩
      case lost => exact fun _ => hr
      case holds =>
        intro hr'
        rw [hr] at hr'
        cases hr'
      case finishing => exact fun n hn => by cases hn
      case closer => exact fun n hn => by cases hn
      case early => exact fun hx => by cases hx
      case late => exact fun hx => by cases hx
  case one =>
    intro i j c d hi hj hc hd
    obtain ⟨a, ha, rfl⟩ := hget i c hi
    obtain ⟨b, hb, rfl⟩ := hget j d hj
    exact h.one i j a b ha hb (candidate_drain hc) (candidate_drain hd)
  case installed =>
    intro i c hc hd hr'
    rw [hr] at hr'
    cases hr'
  case known =>
    intro i hi
    rw [List.length_map]
    rcases hi with hi | hi | ⟨n, hn⟩
    · exact h.known i (.inl hi)
    · exact h.known i (.inr (.inl hi))
    · cases hn
  case closing =>
    intro hr'
    rw [hr] at hr'
    cases hr'
  case timer => exact h.timer
  case slots =>
    -- the slot of a task that is lost is not given back
    have hsum := h.slots
    have hdrain := sum_countP_map s.connections (g := Connection.drain)
      (p := fun c => c.task.inProgress) (q := fun c => c.task = .lost) (by
        intro c
        rcases drain_cases c with ⟨-, he⟩ | ⟨ht, he⟩
        · rw [he]
        · rw [he, ht]
          rfl)
    simp only [Server.tasks, Server.lost] at hsum ⊢
    omega

/-- Draining the workers keeps it. -/
theorem Good.drain (h : Good s) (hr : s.running = false) :
    Goes s { s with
      workersShutdown := true
      connections := s.connections.map Connection.drain
      closer := .joinAccept } where
  good := h.of_drain hr
  running hx := hx
  candidate _ i d hd hcandidate := by
    rw [List.getElem?_map] at hd
    obtain ⟨c, hc, rfl⟩ := Option.map_eq_some_iff.mp hd
    exact ⟨c, hc, candidate_drain hcandidate⟩
  started i c hc hstarted := by
    refine ⟨c.drain, by rw [List.getElem?_map, hc]; rfl, ?_⟩
    rcases drain_cases c with ⟨-, he⟩ | ⟨-, he⟩ <;> rw [he] <;> exact hstarted
  dead _ _ _ _ _ hx := by
    rw [show s.running = true from hx] at hr
    cases hr

theorem Good.stopped (h : Good s) (hne : s.closer ≠ .uncalled) (hne' : s.closer ≠ .compareAndSet) :
    s.running = false := by
  apply Bool.eq_false_iff.mpr
  intro hr
  rcases h.closing hr with he | he
  · exact hne he
  · exact hne' he

/-- `close` moves on, `running` being false, without touching a connection. -/
theorem Good.closerStep (h : Good s) (hr : s.running = false)
    (hset : s'.connections = s.connections) (hrunning : s'.running = s.running)
    (hactive : s'.active = s.active ∨ s'.active = none) (haccept : s'.accept = s.accept)
    (hcloser : ∀ i n, s'.closer = .session i n → n = .closeSocket ∧ s.active = some i)
    (hslots : s'.handshakeSlots = s.handshakeSlots) : Goes s s' := by
  have hr' : s'.running = false := hrunning.trans hr
  refine h.still hset (hrunning ▸ id) (hactive.imp id (fun he => ⟨he, hr'⟩)) (by rw [haccept])
    (fun i n hn => .inr (hcloser i n hn)) ?_ (fun _ => hr') (by rw [haccept, hslots])
  intro hx
  rw [hr'] at hx
  cases hx

/-- Closing the session in `close` keeps it. -/
theorem Good.finishSession (h : Good s) (hc : s.connections[i]? = some c)
    (hcl : s.closer = .session i next) :
    Goes s { (s.afterFinish i next).update i fun _ => (c.finish next).1 with
      closer := ((c.finish next).2.map fun next => Closer.session i next).getD .closeServer } := by
  have hr : s.running = false := h.stopped (by rw [hcl]; simp) (by rw [hcl]; simp)
  have hclosed : ∀ j n, ((c.finish next).2.map fun next => Closer.session i next).getD
      .closeServer = .session j n → j = i ∧ (c.finish next).2 = some n := by
    intro j n hn
    cases hrest : (c.finish next).2 with
    | none =>
      rw [hrest] at hn
      cases hn
    | some m =>
      rw [hrest] at hn
      obtain ⟨rfl, rfl⟩ := Closer.session.inj hn
      exact ⟨rfl, rfl⟩
  refine h.finish (?_ : Moves s _ i c (c.finish next).1) ((h.fine i c hc).closer next hcl) ?_
    rfl rfl rfl
  · constructor
    · exact hc
    · exact modify_eq_set _ hc
    · rfl
    · rfl
    · exact fun j n hij hn => absurd (hclosed j n hn).1 hij
    · intro hx
      rw [hr] at hx
      cases hx
    · exact fun _ _ => Iff.rfl
    · exact (afterFinish_active s i next).imp id .inr
  · constructor
    · rfl
    · rfl
    · exact started_finish c next
    · exact .inl (task_finish c next)
    · intro n hn
      rw [finishers_finish] at hn
      exact .inl hn
    · exact fun n hn => .inr (hclosed i n hn).2
    · intro n hn
      rw [finishers_finish, task_finish]
      exact .inr hn
    · intro n _ hx
      rw [hr] at hx
      cases hx

/-- `close` closes a socket that waits. -/
theorem Good.closeSocket (h : Good s) (hr : s.running = false)
    (i : ℕ) (left : List ℕ) :
    Goes s { s.update i fun c => { c with closed := true } with closer := .closePending left } := by
  cases hc : s.connections[i]? with
  | none =>
    refine h.closerStep hr ?_ rfl (.inl rfl) rfl (fun i n hn => by cases hn) rfl
    exact List.modify_eq_self (List.getElem?_eq_none_iff.mp hc)
  | some c =>
    refine h.quiet (?_ : Moves s _ i c { c with closed := true }) (Quiet.close c) rfl
      (fun n hn => by cases hn) id .inl rfl
    constructor
    · exact hc
    · exact modify_eq_set _ hc
    · rfl
    · rfl
    · exact fun j n _ hn => by cases hn
    · intro hx
      rw [hr] at hx
      cases hx
    · exact fun _ _ => Iff.rfl
    · exact .inl rfl

/-- A step of `close` keeps it. -/
theorem Good.close (h : Good s) {visit : Option ℕ} (hstep : s.closeStep visit = some s') :
    Goes s s' := by
  have hstopped := h.stopped
  cases hcl : s.closer <;> simp only [Server.closeStep, hcl] at hstep
  case uncalled => cases hstep
  case returned => cases hstep
  case compareAndSet =>
    split at hstep
    · obtain rfl := Option.some.inj hstep
      refine h.still rfl (fun hx => by cases hx) (.inl rfl) rfl (fun i n hn => by cases hn)
        (fun hx => by cases hx) (fun _ => rfl) rfl
    · next hr =>
      obtain rfl := Option.some.inj hstep
      exact h.closerStep (Bool.eq_false_iff.mpr hr) rfl rfl (.inl rfl) rfl
        (fun i n hn => by cases hn) rfl
  case session i next =>
    split at hstep
    · cases hstep
    · next c hc =>
      obtain rfl := Option.some.inj hstep
      exact h.finishSession hc hcl
  all_goals have hr : s.running = false := hstopped (by rw [hcl]; simp) (by rw [hcl]; simp)
  case takeActive =>
    obtain rfl := Option.some.inj hstep
    refine h.closerStep hr rfl rfl (.inr rfl) rfl ?_ rfl
    intro i n hn
    cases ha : s.active with
    | none =>
      rw [ha] at hn
      cases hn
    | some j =>
      rw [ha] at hn
      obtain ⟨rfl, rfl⟩ := Closer.session.inj hn
      exact ⟨rfl, rfl⟩
  case closePending left =>
    split at hstep
    · next i =>
      split at hstep
      · obtain rfl := Option.some.inj hstep
        exact h.closeSocket hr i _
      · cases hstep
    · split at hstep
      · cases hstep
      · obtain rfl := Option.some.inj hstep
        exact h.closerStep hr rfl rfl (.inl rfl) rfl (fun i n hn => by cases hn) rfl
  case shutdownWorkers =>
    obtain rfl := Option.some.inj hstep
    exact h.drain hr
  all_goals
    obtain rfl := Option.some.inj hstep
    exact h.closerStep hr rfl rfl (.inl rfl) rfl (fun i n hn => by cases hn) rfl

/-- Every step keeps the server good. -/
theorem Good.step {l : Label} (h : Good s) (hstep : LanServer.step s l = some (s', es)) :
    Goes s s' := by
  cases l <;> simp only [LanServer.step] at hstep
  case accept ok =>
    obtain ⟨a, ha, he⟩ := Option.map_eq_some_iff.mp hstep
    obtain ⟨rfl, rfl⟩ := Prod.mk.inj he
    exact h.accept ha
  case take i =>
    split at hstep
    · next c hc =>
      split at hstep
      · obtain ⟨rfl, rfl⟩ := Prod.mk.inj (Option.some.inj hstep)
        refine h.pass hc (fun c => { c with task := .schedule }) s.handshakeSlots ?_ rfl
        exact .setTask rfl rfl (fun hx => by cases hx) (fun hx => by cases hx)
      · cases hstep
    · cases hstep
  case task i ok =>
    split at hstep
    · next c hc => exact h.task hc hstep
    · cases hstep
  case deadline i =>
    split at hstep
    · next c hc =>
      obtain ⟨rfl, rfl⟩ := Prod.mk.inj (Option.some.inj hstep)
      exact h.quiet (.of _ hc rfl rfl rfl rfl rfl (.inl rfl)) (Quiet.close _) rfl
        (fun _ hn => hn) id .inl rfl
    · cases hstep
  case callFinish i =>
    split at hstep
    · next c hc =>
      obtain ⟨rfl, rfl⟩ := Prod.mk.inj (Option.some.inj hstep)
      exact h.quiet (.of _ hc rfl rfl rfl rfl rfl (.inl rfl)) (Quiet.call rfl) rfl
        (fun _ hn => hn) id .inl rfl
    · cases hstep
  case finish i next =>
    split at hstep
    · next c hc =>
      obtain ⟨a, ha, he⟩ := Option.map_eq_some_iff.mp hstep
      obtain ⟨rfl, rfl⟩ := Prod.mk.inj he
      exact h.finishStep hc ha
    · cases hstep
  case close =>
    split at hstep
    · next hcl =>
      obtain ⟨rfl, rfl⟩ := Prod.mk.inj (Option.some.inj hstep)
      exact h.still rfl id (.inl rfl) rfl (fun i n hn => by cases hn)
        (fun _ => .inr rfl) h.timer rfl
    · cases hstep
  case closer visit =>
    obtain ⟨a, ha, he⟩ := Option.map_eq_some_iff.mp hstep
    obtain ⟨rfl, rfl⟩ := Prod.mk.inj he
    exact h.close ha

/-- A server that listens is good. -/
theorem good_listening : Good listening := by
  have hget : ∀ (i : ℕ) (c : Connection), listening.connections[i]? = some c → False := by
    intro i c hc
    cases hc
  constructor
  case fine => exact fun i c hc => (hget i c hc).elim
  case one => exact fun i j c d hc => (hget i c hc).elim
  case installed => exact fun i c hc => (hget i c hc).elim
  case known =>
    intro i hi
    rcases hi with hi | hi | ⟨n, hn⟩
    · cases hi
    · cases hi
    · cases hn
  case closing => exact fun _ => .inl rfl
  case timer => exact fun ht => by cases ht
  case slots => rfl

/-- So it is good in every run. -/
theorem good_of_reaches {tr : List Event} (hr : system.Reaches tr s) : Good s := by
  apply hr.invariant (P := fun _ s => Good s)
  · intro s hs
    rw [show s = listening from hs]
    exact good_listening
  · intro tr s l s' es _ _ h hstep
    exact (h.step hstep).good

/-! ## After `close` has begun -/

/-- A step starts no session, or the one whose task comes to `running`. -/
theorem Good.events {l : Label} (h : Good s) (hstep : LanServer.step s l = some (s', es)) :
    es = [] ∨ ∃ i c, s.connections[i]? = some c ∧ c.task = .compareAndSet ∧ c.running = false ∧
      es = [.started i] ∧ ∃ d, s'.connections[i]? = some d ∧ d.started = true := by
  cases l <;> simp only [LanServer.step] at hstep
  case task i ok =>
    split at hstep
    · next c hc =>
      rcases h.taskStep_cases hc hstep with ⟨f, n, -, -, -, rfl⟩ | ⟨-, -, -, rfl⟩ |
        ⟨ht, hrunning, rfl, rfl⟩ | ⟨next, -, -, rfl⟩
      · exact .inl rfl
      · exact .inl rfl
      · refine .inr ⟨i, c, hc, ht, hrunning, rfl,
          ⟨_, List.getElem?_modify_eq .. |>.trans (by rw [hc]; rfl), rfl⟩⟩
      · exact .inl rfl
    · cases hstep
  all_goals
    left
    grind [Option.map_eq_some_iff]

/-- The session may yet be started. -/
theorem Fine.waiting (h : Fine s i c) (hstarted : c.started = false) :
    c.running = false := by
  apply Bool.eq_false_iff.mpr
  intro hr
  rw [h.running hr] at hstarted
  cases hstarted

theorem Fine.waiting_started (h : Fine s i c) (hc : c.Candidate) (hr : c.running = false) :
    c.started = false := by
  rcases hc with hx | hx | hx
  · rw [hr] at hx
    cases hx
  all_goals exact h.early (by rw [hx]; rfl)

/-- Once `close` has begun, only the candidate of that moment is started, and once. -/
theorem Good.exec {labels : List Label} : ∀ {s s' : Server} {es : List Event}, Good s →
    s.running = false → system.exec s labels = some (s', es) →
    es = [] ∨ ∃ i c, s.connections[i]? = some c ∧ c.Candidate ∧ c.running = false ∧
      es = [.started i] := by
  induction labels with
  | nil =>
    intro s s' es _ _ he
    simp only [EventSystem.exec, Option.some.injEq, Prod.mk.injEq] at he
    exact .inl he.2.symm
  | cons l labels ih =>
    intro s s' es h hr he
    simp only [EventSystem.exec] at he
    split at he
    · cases he
    next t es₁ hstep =>
    split at he
    · cases he
    next u es₂ hrest =>
    obtain ⟨rfl, rfl⟩ := Prod.mk.inj (Option.some.inj he)
    have hgoes := h.step hstep
    have hr' : t.running = false := by
      apply Bool.eq_false_iff.mpr
      intro hx
      rw [hgoes.running hx] at hr
      cases hr
    -- A candidate that waits in `t` has waited in `s`.
    have hback : ∀ (i : ℕ) (d : Connection), t.connections[i]? = some d → d.Candidate →
        d.running = false → ∃ c : Connection, s.connections[i]? = some c ∧ c.Candidate ∧
          c.running = false ∧ d.started = false := by
      intro i d hd hcandidate hidle
      obtain ⟨c, hc, hcandidate'⟩ := hgoes.candidate hr i d hd hcandidate
      have hnot := (hgoes.good.fine i d hd).waiting_started hcandidate hidle
      refine ⟨c, hc, hcandidate', (h.fine i c hc).waiting ?_, hnot⟩
      apply Bool.eq_false_iff.mpr
      intro hs
      obtain ⟨d', hd', hs'⟩ := hgoes.started i c hc hs
      obtain rfl := Option.some.inj (hd.symm.trans hd')
      rw [hs'] at hnot
      cases hnot
    rcases h.events hstep with rfl | ⟨i, c, hc, htask, hidle, rfl, d, hd, hstarted⟩
    · rcases ih hgoes.good hr' hrest with rfl | ⟨j, d, hd, hcandidate, hidle, rfl⟩
      · exact .inl rfl
      · obtain ⟨c, hc, hcandidate, hidle, -⟩ := hback j d hd hcandidate hidle
        exact .inr ⟨j, c, hc, hcandidate, hidle, rfl⟩
    · refine .inr ⟨i, c, hc, .inr (.inr htask), hidle, ?_⟩
      rcases ih hgoes.good hr' hrest with rfl | ⟨j, e, hj, hcandidate, hidle', rfl⟩
      · rfl
      · -- The other would be the same one, which has been started.
        obtain ⟨c', hc', hcandidate', -, hnot⟩ := hback j e hj hcandidate hidle'
        obtain rfl := h.one i j c c' hc hc' (.inr (.inr htask)) hcandidate'
        obtain rfl := Option.some.inj (hd.symm.trans hj)
        rw [hstarted] at hnot
        cases hnot

/-- One session at a time: whatever the order of the accept loop, the handshakes, the deadlines,
the ends of sessions and `close`. -/
theorem lan_server_is_orderly {tr : List Event} (h : system.Reaches tr s) : s.Orderly := by
  have hgood := good_of_reaches h
  constructor
  case one => exact fun i j c d hi hj hc hd => hgood.one i j c d hi hj (.inl hc) (.inl hd)
  case active => exact fun hr i c hc hrunning => hgood.installed i c hc (.inl (.inl hrunning)) hr
  case slots => exact hgood.slots
  case kept =>
    intro hr
    apply List.countP_eq_zero.mpr
    intro c hc hlost
    obtain ⟨i, hi⟩ := List.getElem?_of_mem hc
    have hstopped := (hgood.fine i c hi).lost (of_decide_eq_true hlost)
    rw [hr] at hstopped
    cases hstopped
  case sockets =>
    intro i c hc hsocket htask
    have hf := hgood.fine i c hc
    rcases hf.socket with hx | hx | hx | hx | hx
    · exact .inl hx
    · exact absurd hx hsocket
    · rw [htask] at hx
      cases hx
    · exact (hf.started hx).elim (fun hr => .inr (.inl hr)) .inl
    · exact .inr (.inr hx)
  case settled =>
    intro hr i c ha hc htask hfinishers
    rcases (hgood.fine i c hc).holds hr ha with (hx | hx | hx) | hx | ⟨n, -, hx | hx⟩ | hx
    · exact .inl hx
    · rw [hx] at htask
      cases htask
    · rw [hx] at htask
      cases htask
    · rw [hx] at htask
      cases htask
    · rw [hx] at htask
      cases htask
    · rw [hfinishers] at hx
      cases hx
    · exact .inr hx
  case ended => exact fun hr labels s' es he => hgood.exec hr he

/-- The session is served while a second client waits, and `close` comes while it is served. -/
def served : List Label :=
  List.replicate 12 (Label.accept true) ++ List.replicate 6 (Label.task 0 true) ++
    List.replicate 8 (Label.task 0 true) ++ [Label.close, .closer none, .closer none]

/-- One connection, served. -/
theorem lan_server_is_orderly_served :
    system.trace listening served = [.started 0] ∧ (system.final listening served).Orderly :=
  ⟨by decide, lan_server_is_orderly (EventSystem.reaches_trace served rfl (by decide))⟩

/-! ## A session that is never started -/

/-- A server that was closed stays closed. -/
theorem Good.stays_stopped {labels : List Label} (h : Good s) (hr : s.running = false)
    (he : system.exec s labels = some (s', es)) : s'.running = false := by
  refine (EventSystem.exec_preserves (P := fun s => Good s ∧ s.running = false) ?_ ⟨h, hr⟩ he).2
  intro t l t' es' _ ⟨ht, hr⟩ hstep
  have hgoes := ht.step hstep
  refine ⟨hgoes.good, Bool.eq_false_iff.mpr fun hx => ?_⟩
  rw [hgoes.running hx] at hr
  cases hr

/-- A dead session keeps `active`, and no session is started. -/
theorem Good.exec_dead {labels : List Label} : ∀ {s s' : Server} {es : List Event} {c : Connection},
    Good s → s.active = some i → s.connections[i]? = some c → Dead c →
    system.exec s labels = some (s', es) → s'.running = true →
    es = [] ∧ s'.active = some i ∧ Good s' ∧ ∃ d, s'.connections[i]? = some d ∧ Dead d := by
  induction labels with
  | nil =>
    intro s s' es c h ha hc hd he _
    simp only [EventSystem.exec, Option.some.injEq, Prod.mk.injEq] at he
    obtain ⟨rfl, rfl⟩ := he
    exact ⟨rfl, ha, h, c, hc, hd⟩
  | cons l labels ih =>
    intro s s' es c h ha hc hd he hr
    simp only [EventSystem.exec] at he
    split at he
    · cases he
    next t es₁ hstep =>
    split at he
    · cases he
    next u es₂ hrest =>
    obtain ⟨rfl, rfl⟩ := Prod.mk.inj (Option.some.inj he)
    have hgoes := h.step hstep
    have ht : t.running = true := by
      by_contra hx
      have hstopped := hgoes.good.stays_stopped (Bool.eq_false_iff.mpr hx) hrest
      rw [hr] at hstopped
      cases hstopped
    obtain ⟨ha', d, hc', hd'⟩ := hgoes.dead i c hc hd ha ht
    obtain ⟨rfl, hlast⟩ := ih hgoes.good ha' hc' hd' hrest hr
    rcases h.events hstep with rfl | ⟨j, e, hj, htask, -⟩
    · exact ⟨rfl, hlast⟩
    · -- Only the session that `active` names comes to its start, and that one is past it.
      have hj' := h.installed j e hj (.inl (.inr (.inr htask))) (hgoes.running ht)
      obtain rfl : i = j := Option.some.inj (ha.symm.trans hj')
      obtain rfl := Option.some.inj (hc.symm.trans hj)
      exact absurd hd.ended (not_over htask rfl)

/-- A session whose socket is closed between its installation and the test before its start keeps
`active` for as long as the server runs: its start is passed over and none is started after it, so
that no client is served again. -/
theorem dead_session_keeps_active {tr : List Event} (h : system.Reaches tr s)
    (ha : s.active = some i) (hc : s.connections[i]? = some c) (hstarted : c.started = false)
    (hover : c.Over) : ∀ labels s' es, system.exec s labels = some (s', es) →
      s'.running = true → es = [] ∧ s'.active = some i ∧
      ∀ d ∈ s'.connections, d.running = false := by
  intro labels s' es he hr
  obtain ⟨rfl, ha', hgood, d, hd, hdead⟩ :=
    (good_of_reaches h).exec_dead ha hc ⟨hstarted, hover⟩ he hr
  refine ⟨rfl, ha', fun e hmem => ?_⟩
  apply Bool.eq_false_iff.mpr
  intro hrunning
  obtain ⟨j, hj⟩ := List.getElem?_of_mem hmem
  have hj' := hgood.installed j e hj (.inl (.inl hrunning)) hr
  obtain rfl : i = j := Option.some.inj (ha'.symm.trans hj')
  obtain rfl := Option.some.inj (hd.symm.trans hj)
  have hx := (hgood.fine i d hd).running hrunning
  rw [hdead.started] at hx
  cases hx

/-- A client is authenticated and its session installed. -/
def installed : List Label :=
  List.replicate 6 (Label.accept true) ++ List.replicate 6 (Label.task 0 true)

/-- The deadline closes the socket just then. -/
def expired : List Label := installed ++ [Label.deadline 0]

/-- The task leaves the session unstarted, and another client is refused. -/
theorem dead_session_keeps_active_expired :
    (∃ s, system.exec (system.final listening expired)
      (List.replicate 4 (.task 0 true) ++ List.replicate 4 (.accept true)) = some (s, []) ∧
        s.running = true ∧ s.active = some 0) ∧
    ∀ labels s' es, system.exec (system.final listening expired) labels = some (s', es) →
      s'.running = true → es = [] ∧ s'.active = some 0 ∧ ∀ d ∈ s'.connections, d.running = false :=
  ⟨⟨_, rfl, rfl, rfl⟩, dead_session_keeps_active (EventSystem.reaches_trace expired rfl (by decide))
    rfl rfl rfl (.inr ⟨rfl, .inr rfl⟩)⟩

end LanServer
end MobileWebcamBridge
