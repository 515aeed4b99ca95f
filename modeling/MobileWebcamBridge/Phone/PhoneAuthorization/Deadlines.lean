import MobileWebcamBridge.Phone.PhoneAuthorization.Turns
import MobileWebcamBridge.Phone.PhoneAuthorization.Grant

/-!
# Deadlines and the cooldown of `PhoneAuthorization`

A change of phase is dated by the clock readings of its section: what leaves a prompt by the reading
its cooldown is set from, what enters one by the reading that is compared with the cooldown, and a
deadline by the reading it is set from. No reading is before one that was made earlier.
-/

set_option autoImplicit false

namespace MobileWebcamBridge
namespace PhoneAuthorization

open Wire ClientAuthorization Trace

/-- The readings of `nowMillis` in one section, in the order they are made. -/
def Clock.Ordered (c : Clock) : Prop :=
  c.tick ≤ c.millis ∧ c.millis ≤ c.deadline ∧ c.deadline ≤ c.finish

instance (c : Clock) : Decidable c.Ordered := by
  unfold Clock.Ordered
  infer_instance

/-- A session is in another phase after a section than before it. -/
structure Change where
  sid : ℕ
  before : Option Phase
  after : Phase
  clock : Clock
deriving DecidableEq, Repr

variable {P : Platform}

/-- The phase of a session. -/
def phaseAt (a : PhoneAuthorization P) (sid : ℕ) : Option Phase :=
  a.sessions[sid]?.map Session.phase

/-- The change of a session's phase in a section. -/
def changeAt (c : Clock) (a b : PhoneAuthorization P) (sid : ℕ) : Option Change :=
  match b.phaseAt sid with
  | none => none
  | some after =>
    if a.phaseAt sid = some after then none
    else some { sid, before := a.phaseAt sid, after, clock := c }

/-- The changes of all sessions in a section. -/
def changes (c : Clock) (a b : PhoneAuthorization P) : List Change :=
  (List.range b.sessions.length).filterMap (changeAt c a b)

/-- The owner and its callers, with the last reading of the clock. -/
structure Timed (P : Platform) where
  threads : Threads P
  now : ℤ

/-- The runs of the owner under a clock that never goes back. -/
def timed (stored : ClientRepository P) : EventSystem (Timed P) Label Change where
  start s := (system stored).start s.threads
  step s
    | .call call => (step s.threads (.call call)).map fun (threads, _) => ({ s with threads }, [])
    | .step thread c written =>
      if s.now ≤ c.tick ∧ c.Ordered then
        (step s.threads (.step thread c written)).map fun (threads, _) =>
          ({ threads, now := c.finish }, changes c s.threads.owner threads.owner)
      else none

/-- How long a session may stay in a phase. -/
def Phase.limit : Phase → Option ℤ
  | .proof => some PROOF_TIMEOUT_MS
  | .pending => some APPROVAL_TIMEOUT_MS
  | .denied => some REJECTION_FLUSH_MS
  | _ => none

/-- A prompt is left without a grant. -/
def Change.Abandons (l : Change) : Prop := l.before = some .pending ∧ l.after ≠ .authorized

instance (l : Change) : Decidable l.Abandons := by
  unfold Change.Abandons
  infer_instance

/-- `reject` reads the clock before `deny`, and `finish` reads it for itself. -/
def Change.leftAt (l : Change) : ℤ := if l.after = .denied then l.clock.millis else l.clock.finish

/-- A prompt is shown only when every prompt that was abandoned has cooled down. -/
def Cooled (x : List Change) (e : Change) : Prop :=
  e.after = .pending → ∀ l ∈ x, l.Abandons → l.leftAt + UNKNOWN_COOLDOWN_MS ≤ e.clock.millis

/-- A session enters a phase once. -/
def Onward (x : List Change) (e : Change) : Prop := ∀ e' ∈ x, e'.sid = e.sid → e'.after ≠ e.after

/-! ## The one live session -/

/-- Exactly the active session is live, and there is none once the owner has failed or closed. -/
structure Seated (a : PhoneAuthorization P) : Prop where
  slot : Slot a
  live : ∀ (sid : ℕ) (s : Session), a.sessions[sid]? = some s → s.phase ≠ .closed →
    a.active = some sid
  flags : ∀ sid : ℕ, a.active = some sid → a.failed = false ∧ a.closed = false

variable {a b : PhoneAuthorization P} {c : Clock}

theorem Seated.put (h : Seated a) {sid : ℕ} {s s' : Session} (hs : a.sessions[sid]? = some s)
    (hactive : a.active = some sid) (hlive : s'.phase ≠ .closed)
    (hsessions : b.sessions = (a.put sid s').sessions) (hb : b.active = a.active)
    (hfailed : b.failed = a.failed) (hclosed : b.closed = a.closed) : Seated b where
  slot i hi := by
    obtain rfl : i = sid := Option.some.inj ((hb ▸ hi).symm.trans hactive)
    refine ⟨s', ?_, hlive⟩
    rw [hsessions, getElem?_put, if_pos ⟨rfl, lt_of_session hs⟩]
  live i t ht hphase := by
    rw [hsessions, getElem?_put] at ht
    split at ht
    · next hi => rw [hb, hactive, hi.1]
    · rw [hb]
      exact h.live i t ht hphase
  flags i hi := by
    rw [hfailed, hclosed]
    exact h.flags i (hb ▸ hi)

theorem Turn.live {s s' : Session} {cooldown : ℤ} (h : Turn c cooldown s s') :
    s'.phase ≠ .closed := by
  cases h with
  | started _ hp _ => simp [hp]
  | granted _ hp => simp [hp]
  | denied _ hp _ => simp [hp]
  | prompted _ hp _ _ => simp [hp]

/-- A section keeps one live session seated. -/
theorem Deed.seated (h : Deed c a b) (ha : Seated a) : Seated b := by
  cases h with
  | stops hstops =>
    have hbefore {sid : ℕ} (hsid : b.active = some sid) : a.active = some sid := by
      rcases hstops.active with hb | ⟨hb, -⟩
      · exact hb ▸ hsid
      · cases hb.symm.trans hsid
    refine ⟨?_, ?_, ?_⟩
    · intro sid hsid
      rw [hstops.kept sid hsid]
      exact ha.slot sid (hbefore hsid)
    · intro sid s hs hlive
      obtain ⟨s₀, hs₀, rfl | rfl⟩ := hstops.session sid s hs
      · have hactive := ha.live sid s hs₀ hlive
        rcases hstops.active with hb | ⟨-, hclosed⟩
        · exact hb.trans hactive
        · exact absurd (hclosed sid s hactive hs) hlive
      · exact absurd rfl hlive
    · intro sid hsid
      rcases hstops.flags with hb | ⟨hfailed, hclosed⟩
      · cases hb.symm.trans hsid
      · rw [hfailed, hclosed]
        exact ha.flags sid (hbefore hsid)
  | @opened new hnone hfailed hclosed hnew =>
    refine ⟨?_, ?_, fun _ _ => ⟨hfailed, hclosed⟩⟩
    · intro sid hsid
      obtain rfl := Option.some.inj hsid
      exact ⟨new, by simp, by simp [hnew]⟩
    · intro sid s hs hlive
      rw [List.getElem?_append] at hs
      split at hs
      · cases hnone.symm.trans (ha.live sid s hs hlive)
      · next hge =>
        have hsid : sid < (a.sessions ++ [new]).length := by
          rw [List.getElem?_eq_some_iff] at hs
          obtain ⟨hlt, -⟩ := hs
          simp only [List.length_singleton] at hlt
          simp only [List.length_append, List.length_singleton]
          omega
        simp only [List.length_append, List.length_singleton] at hsid
        rw [show sid = a.sessions.length by omega]
  | turned hs hactive hturn => exact ha.put hs hactive hturn.live rfl rfl rfl rfl
  | rejected hs hactive _ hp _ => exact ha.put hs hactive (by simp [hp]) rfl rfl rfl rfl

/-- At the deadline of its phase, a tick closes the session. -/
theorem tick_closes (ha : Seated a) {sid : ℕ} {s : Session} {limit : ℤ}
    (hs : a.sessions[sid]? = some s) (hlimit : s.phase.limit = some limit)
    (hdeadline : s.deadline ≤ c.tick) :
    (a.tick c).1.sessions[sid]? = some { s with phase := .closed } := by
  have hlive : s.phase ≠ .closed := by
    intro hp
    rw [hp] at hlimit
    cases hlimit
  have hauth : s.phase ≠ .authorized := by
    intro hp
    rw [hp] at hlimit
    cases hlimit
  have hactive := ha.live sid s hs hlive
  obtain ⟨hfailed, hclosed⟩ := ha.flags sid hactive
  have htick : a.tick c = a.finish c sid "PC authorization deadline expired" := by
    simp [tick, tickLocked, hfailed, hclosed, hactive, hs, hlive, hauth, hdeadline]
  have hlt := lt_of_session hs
  rw [htick]
  simp only [finish, hs, if_neg hlive]
  rw [getElem?_put, if_pos ⟨rfl, hlt⟩]

/-! ## What a section changes -/

/-- How far a session is. -/
def Phase.rank : Phase → ℕ
  | .new => 0
  | .proof => 1
  | .pending => 2
  | .authorized => 3
  | .denied => 3
  | .closed => 4

/-- What becomes of the session `s` when a section leaves it as `s'`. -/
structure Passes (c : Clock) (a b : PhoneAuthorization P) (s s' : Session) : Prop where
  rank : s.phase.rank < s'.phase.rank
  deadline : ∀ limit, s'.phase.limit = some limit → s'.deadline = c.deadline + limit
  prompted : s'.phase = .pending → s.phase = .proof ∧ a.unknownCooldownUntil ≤ c.millis
  abandoned : s.phase = .pending → s'.phase ≠ .authorized →
    b.unknownCooldownUntil =
      (if s'.phase = .denied then c.millis else c.finish) + UNKNOWN_COOLDOWN_MS

theorem Turn.passes {s s' : Session} (h : Turn c a.unknownCooldownUntil s s') :
    Passes c a b s s' := by
  cases h with
  | started hp hp' hd =>
    refine ⟨by simp [hp, hp', Phase.rank], ?_, fun hn => ?_, fun hn => ?_⟩
    · intro limit hlimit
      rw [hp'] at hlimit
      obtain rfl := Option.some.inj hlimit
      exact hd
    · cases hp'.symm.trans hn
    · cases hp.symm.trans hn
  | granted hp hp' =>
    refine ⟨?_, ?_, fun hn => ?_, fun _ hn => absurd hp' hn⟩
    · rcases hp with hp | hp
      · simp [hp, hp', Phase.rank]
      · simp [hp, hp', Phase.rank]
    · intro limit hlimit
      rw [hp'] at hlimit
      cases hlimit
    · cases hp'.symm.trans hn
  | denied hp hp' hd =>
    refine ⟨by simp [hp, hp', Phase.rank], ?_, fun hn => ?_, fun hn => ?_⟩
    · intro limit hlimit
      rw [hp'] at hlimit
      obtain rfl := Option.some.inj hlimit
      exact hd
    · cases hp'.symm.trans hn
    · cases hp.symm.trans hn
  | prompted hp hp' hcool hd =>
    refine ⟨by simp [hp, hp', Phase.rank], ?_, fun _ => ⟨hp, hcool⟩, fun hn => ?_⟩
    · intro limit hlimit
      rw [hp'] at hlimit
      obtain rfl := Option.some.inj hlimit
      exact hd
    · cases hp.symm.trans hn

/-- A session after a section is as it was, new, or has passed on. -/
theorem Deed.session (h : Deed c a b) {sid : ℕ} {s' : Session} (hs' : b.sessions[sid]? = some s') :
    (∃ s, a.sessions[sid]? = some s ∧ s'.phase = s.phase ∧ s'.deadline = s.deadline) ∨
    (a.sessions[sid]? = none ∧ s'.phase = .new) ∨
      ∃ s, a.sessions[sid]? = some s ∧ Passes c a b s s' := by
  cases h with
  | stops hstops =>
    obtain ⟨s, hs, rfl | rfl⟩ := hstops.session sid s' hs'
    · exact .inl ⟨s', hs, rfl, rfl⟩
    by_cases hlive : s.phase = .closed
    · exact .inl ⟨s, hs, hlive.symm, rfl⟩
    refine .inr (.inr ⟨s, hs, ?_, nofun, nofun, ?_⟩)
    · revert hlive
      cases s.phase <;> simp [Phase.rank]
    · intro hpending _
      rcases hstops.cooldown with hset | ⟨-, hkept⟩
      · exact hset
      · cases (congrArg Session.phase (Option.some.inj (hs'.symm.trans
          (hkept sid s hs hpending)))).trans hpending
  | @opened new hnone _ _ hnew =>
    rw [List.getElem?_append] at hs'
    split at hs'
    · exact .inl ⟨s', hs', rfl, rfl⟩
    · next hge =>
      refine .inr (.inl ⟨List.getElem?_eq_none (by omega), ?_⟩)
      rw [List.getElem?_singleton] at hs'
      split at hs'
      · exact Option.some.inj hs' ▸ hnew
      · cases hs'
  | @turned i s t ids hs hactive hturn =>
    rw [getElem?_put] at hs'
    split at hs'
    · next hi =>
      obtain rfl := Option.some.inj hs'
      exact .inr (.inr ⟨s, hi.1 ▸ hs, hturn.passes⟩)
    · exact .inl ⟨s', hs', rfl, rfl⟩
  | @rejected i s t hs hactive hp hp' hd =>
    rw [getElem?_put] at hs'
    split at hs'
    · next hi =>
      obtain rfl := Option.some.inj hs'
      refine .inr
        (.inr ⟨s, hi.1 ▸ hs, by simp [hp, hp', Phase.rank], ?_, fun hn => ?_, fun _ _ => ?_⟩)
      · intro limit hlimit
        rw [hp'] at hlimit
        obtain rfl := Option.some.inj hlimit
        exact hd
      · cases hp'.symm.trans hn
      · rw [if_pos hp']
        rfl
    · exact .inl ⟨s', hs', rfl, rfl⟩

theorem Deed.length_le (h : Deed c a b) : a.sessions.length ≤ b.sessions.length := by
  cases h with
  | stops hstops => exact Nat.le_of_eq hstops.length.symm
  | opened => simp
  | turned => simp [put]
  | rejected => simp [put]

theorem mem_changes {e : Change} (he : e ∈ changes c a b) :
    e.clock = c ∧ e.before = a.phaseAt e.sid ∧ a.phaseAt e.sid ≠ some e.after ∧
      ∃ s', b.sessions[e.sid]? = some s' ∧ s'.phase = e.after := by
  obtain ⟨sid, -, hchange⟩ := List.mem_filterMap.mp he
  unfold changeAt at hchange
  split at hchange
  · cases hchange
  next after hafter =>
  split at hchange
  · cases hchange
  next hother =>
  obtain rfl := Option.some.inj hchange
  obtain ⟨s', hs', hphase⟩ := Option.map_eq_some_iff.mp hafter
  exact ⟨rfl, rfl, hother, s', hs', hphase⟩

/-- A session whose phase differs is among the changes. -/
theorem changes_mem {sid : ℕ} {s' : Session} (hs' : b.sessions[sid]? = some s')
    (hother : a.phaseAt sid ≠ some s'.phase) :
    ⟨sid, a.phaseAt sid, s'.phase, c⟩ ∈ changes c a b := by
  have hafter : b.phaseAt sid = some s'.phase := by simp [phaseAt, hs']
  refine List.mem_filterMap.mpr ⟨sid, List.mem_range.mpr (lt_of_session hs'), ?_⟩
  simp [changeAt, hafter, hother]

/-- The changes of one section are of different sessions. -/
theorem changes_pairwise : (changes c a b).Pairwise fun e e' => e.sid ≠ e'.sid := by
  refine List.Pairwise.filterMap _ ?_ List.nodup_range
  intro i j hij e he e' he'
  have hsid {k : ℕ} {e : Change} (h : changeAt c a b k = some e) : e.sid = k := by
    unfold changeAt at h
    split at h
    · cases h
    split at h
    · cases h
    · exact Option.some.inj h ▸ rfl
  rw [hsid he, hsid he']
  exact hij

/-- A session changes at most once in a section. -/
theorem changes_split {x y : List Change} {e l : Change} (h : changes c a b = x ++ e :: y)
    (hl : l ∈ x) : l.sid ≠ e.sid := by
  have hpair : (x ++ e :: y).Pairwise fun e e' => e.sid ≠ e'.sid := h ▸ changes_pairwise
  exact (List.pairwise_append.mp hpair).2.2 l hl e List.mem_cons_self

/-- What a change says of its session. -/
theorem passes_of_change (h : Deed c a b) {e : Change} (he : e ∈ changes c a b) :
    e.before = none ∧ e.after = .new ∨ ∃ s s', a.sessions[e.sid]? = some s ∧
      b.sessions[e.sid]? = some s' ∧ e.before = some s.phase ∧ e.after = s'.phase ∧
      Passes c a b s s' := by
  obtain ⟨-, hbefore, hother, s', hs', hafter⟩ := mem_changes he
  rcases h.session hs' with ⟨s, hs, hphase, -⟩ | ⟨hnone, hnew⟩ | ⟨s, hs, hpasses⟩
  · exact absurd (by simp [phaseAt, hs, ← hafter, hphase]) hother
  · exact .inl ⟨by rw [hbefore, phaseAt, hnone]; rfl, hafter.symm.trans hnew⟩
  · exact .inr ⟨s, s', hs, hs', by rw [hbefore, phaseAt, hs]; rfl, hafter.symm, hpasses⟩

/-! ## The runs -/

/-- The phases, their deadlines and the cooldown, against the clock. -/
structure Kept (tr : List Change) (a : PhoneAuthorization P) (now : ℤ) : Prop where
  seated : Seated a
  dated : ∀ e ∈ tr, e.leftAt ≤ now
  cooling : ∀ l ∈ tr, l.Abandons → l.leftAt + UNKNOWN_COOLDOWN_MS ≤ a.unknownCooldownUntil
  entered : ∀ (sid : ℕ) (s : Session) (limit : ℤ), a.sessions[sid]? = some s →
    s.phase.limit = some limit →
    ∃ e ∈ tr, e.sid = sid ∧ e.after = s.phase ∧ s.deadline = e.clock.deadline + limit
  ranked : ∀ e ∈ tr, ∃ s, a.sessions[e.sid]? = some s ∧ e.after.rank ≤ s.phase.rank
  cooled : Each Cooled tr
  onward : Each Onward tr

variable {tr : List Change} {now : ℤ}

/-- What leaves a prompt was the live session, and so was what enters one. -/
theorem Seated.exclusive (ha : Seated a) (h : Deed c a b) {e l : Change} (he : e ∈ changes c a b)
    (hl : l ∈ changes c a b) (hpending : e.after = .pending) (habandons : l.Abandons) :
    l.sid = e.sid := by
  rcases passes_of_change h he with ⟨-, hnew⟩ | ⟨s, s', hs, -, -, hafter, hpasses⟩
  · cases hpending.symm.trans hnew
  rcases passes_of_change h hl with ⟨hnone, -⟩ | ⟨t, t', ht, -, hbefore, -, -⟩
  · cases hnone.symm.trans habandons.1
  have hproof : s.phase = .proof := (hpasses.prompted (hafter.symm.trans hpending)).1
  have hprompt : t.phase = .pending := Option.some.inj (hbefore.symm.trans habandons.1)
  have he := ha.live e.sid s hs (by simp [hproof])
  have hl := ha.live l.sid t ht (by simp [hprompt])
  exact Option.some.inj (hl.symm.trans he)

theorem leftAt_le {e : Change} (hclock : e.clock.Ordered) : e.leftAt ≤ e.clock.finish := by
  obtain ⟨-, hdeadline, hfinish⟩ := hclock
  unfold Change.leftAt
  split
  · omega
  · exact Int.le_refl _

/-- A section keeps the deadlines. -/
theorem Kept.deed (hkept : Kept tr a now) (h : Deed c a b) (hnow : now ≤ c.tick)
    (hclock : c.Ordered) : Kept (tr ++ changes c a b) b c.finish := by
  have ⟨hmillis, hdeadline, hfinish⟩ := hclock
  refine ⟨h.seated hkept.seated, ?_, ?_, ?_, ?_, ?_, ?_⟩
  · intro e he
    rcases List.mem_append.mp he with he | he
    · have := hkept.dated e he
      omega
    · obtain ⟨hc, -⟩ := mem_changes he
      have := leftAt_le (hc ▸ hclock)
      rwa [hc] at this
  · -- the cooldown only moves to a later reading than any before
    intro l hl habandons
    rcases List.mem_append.mp hl with hl | hl
    · have hbefore := hkept.cooling l hl habandons
      have hdated := hkept.dated l hl
      cases h with
      | stops hstops =>
        rcases hstops.cooldown with hset | ⟨hsame, -⟩
        · omega
        · omega
      | opened => exact hbefore
      | turned => exact hbefore
      | rejected =>
        show _ ≤ c.millis + UNKNOWN_COOLDOWN_MS
        omega
    · obtain ⟨hc, -⟩ := mem_changes hl
      rcases passes_of_change h hl with ⟨hnone, -⟩ | ⟨s, s', -, -, hbefore, hafter, hpasses⟩
      · cases hnone.symm.trans habandons.1
      have hprompt : s.phase = .pending := Option.some.inj (hbefore.symm.trans habandons.1)
      have hset := hpasses.abandoned hprompt (hafter ▸ habandons.2)
      exact Int.le_of_eq (by rw [hset, Change.leftAt, hafter, hc])
  · intro sid s' limit hs' hlimit
    rcases h.session hs' with ⟨s, hs, hphase, hsame⟩ | ⟨-, hnew⟩ | ⟨s, hs, hpasses⟩
    · obtain ⟨e, he, hsid, hafter, hd⟩ := hkept.entered sid s limit hs (hphase ▸ hlimit)
      exact ⟨e, List.mem_append_left _ he, hsid, hafter.trans hphase.symm, hsame.trans hd⟩
    · rw [hnew] at hlimit
      cases hlimit
    · have hother : a.phaseAt sid ≠ some s'.phase := by
        have hrank := hpasses.rank
        intro heq
        rw [phaseAt, hs, Option.map_some, Option.some.injEq] at heq
        rw [heq] at hrank
        omega
      exact ⟨_, List.mem_append_right _ (changes_mem hs' hother), rfl, rfl,
        hpasses.deadline limit hlimit⟩
  · intro e he
    rcases List.mem_append.mp he with he | he
    · obtain ⟨s, hs, hrank⟩ := hkept.ranked e he
      have hlt : e.sid < b.sessions.length := Nat.lt_of_lt_of_le (lt_of_session hs) h.length_le
      refine ⟨b.sessions[e.sid], List.getElem?_eq_getElem hlt, ?_⟩
      rcases h.session (List.getElem?_eq_getElem hlt) with ⟨t, ht, hphase, -⟩ | ⟨hnone, -⟩ |
        ⟨t, ht, hpasses⟩
      · obtain rfl := Option.some.inj (hs.symm.trans ht)
        rwa [hphase]
      · cases hs.symm.trans hnone
      · obtain rfl := Option.some.inj (hs.symm.trans ht)
        have := hpasses.rank
        omega
    · obtain ⟨-, -, -, s', hs', hafter⟩ := mem_changes he
      exact ⟨s', hs', Nat.le_of_eq (by rw [hafter])⟩
  · refine hkept.cooled.append fun x e y hsplit hpending l hl habandons => ?_
    have he : e ∈ changes c a b := by simp [hsplit]
    rcases List.mem_append.mp hl with hl | hl
    · obtain ⟨hc, -⟩ := mem_changes he
      rcases passes_of_change h he with ⟨-, hnew⟩ | ⟨s, s', -, -, -, hafter, hpasses⟩
      · cases hpending.symm.trans hnew
      have hcool := (hpasses.prompted (hafter.symm.trans hpending)).2
      have hbefore := hkept.cooling l hl habandons
      rw [hc]
      omega
    · have hl' : l ∈ changes c a b := by simp [hsplit, hl]
      exact absurd (hkept.seated.exclusive h he hl' hpending habandons) (changes_split hsplit hl)
  · refine hkept.onward.append fun x e y hsplit e' he' hsid => ?_
    have he : e ∈ changes c a b := by simp [hsplit]
    rcases List.mem_append.mp he' with he' | he'
    · obtain ⟨s, hs, hrank⟩ := hkept.ranked e' he'
      rcases passes_of_change h he with ⟨hnone, -⟩ | ⟨t, t', ht, -, -, hafter, hpasses⟩
      · obtain ⟨-, hbefore, -, -⟩ := mem_changes he
        rw [hnone, phaseAt, ← hsid, hs] at hbefore
        cases hbefore
      · rw [hsid] at hs
        obtain rfl := Option.some.inj (hs.symm.trans ht)
        have hlt := hpasses.rank
        intro heq
        rw [heq, hafter] at hrank
        omega
    · exact absurd hsid (changes_split hsplit he')

theorem seated_init (stored : ClientRepository P) : Seated (init stored) where
  slot sid h := by cases h
  live sid s hs := by cases hs
  flags sid h := by cases h

variable {stored : ClientRepository P} {s : Timed P}

/-- So they are kept in every run. -/
theorem kept_of_reaches (h : (timed stored).Reaches tr s) : Kept tr s.threads.owner s.now := by
  refine EventSystem.Under.invariant (P := fun tr s => Kept tr s.threads.owner s.now) ?_ ?_ h
  · intro s hs
    have howner : s.threads.owner = init { stored with healthy := true } := by
      rw [show s.threads = _ from hs]
    rw [howner]
    exact ⟨seated_init _, by simp, by simp, by simp [init], by simp, each_nil, each_nil⟩
  · intro tr s l s' es _ _ ih hstep
    cases l with
    | call call =>
      simp only [timed] at hstep
      obtain ⟨⟨threads, fs⟩, hcall, heq⟩ := Option.map_eq_some_iff.mp hstep
      obtain ⟨rfl, rfl⟩ := Prod.mk.inj heq
      obtain ⟨rfl, -⟩ := Prod.mk.inj (Option.some.inj hcall)
      simpa using ih
    | step thread c written =>
      simp only [timed] at hstep
      split at hstep
      · next hclock =>
        obtain ⟨⟨threads, fs⟩, htask, heq⟩ := Option.map_eq_some_iff.mp hstep
        obtain ⟨rfl, rfl⟩ := Prod.mk.inj heq
        simp only [step] at htask
        split at htask
        · next t ts _ =>
          obtain ⟨rfl, -⟩ := Prod.mk.inj (Option.some.inj htask)
          have hdeed := deed_runTask ih.seated.slot c written thread ts t
          exact ih.deed hdeed hclock.1 hclock.2
        · cases htask
      · cases hstep

/-- Prompts are rate limited; and a session enters each phase once, by a change whose reading its
deadline counts from, so that the first tick at that deadline closes it. -/
theorem prompts_limited (h : (timed stored).Reaches tr s) :
    Each Cooled tr ∧ Each Onward tr ∧
      ∀ (sid : ℕ) (session : Session) (limit : ℤ),
        s.threads.owner.sessions[sid]? = some session → session.phase.limit = some limit →
        ∃ e ∈ tr, e.sid = sid ∧ e.after = session.phase ∧
          ∀ c : Clock, e.clock.deadline + limit ≤ c.tick →
            (s.threads.owner.tick c).1.sessions[sid]? = some { session with phase := .closed } := by
  have hkept := kept_of_reaches h
  refine ⟨hkept.cooled, hkept.onward, fun sid session limit hs hlimit => ?_⟩
  obtain ⟨e, he, hsid, hafter, hdeadline⟩ := hkept.entered sid session limit hs hlimit
  refine ⟨e, he, hsid, hafter, fun c hc => ?_⟩
  exact tick_closes hkept.seated hs hlimit (hdeadline ▸ hc)

/-- A clock at one time. -/
def moment (millis : ℤ) : Clock :=
  { tick := millis, check := 100, seconds := 100, millis, deadline := millis, finish := millis }

/-- A PC that is not on the list proves itself and waits for the user. -/
def unanswered : List Label :=
  [.call (.openSession .usb zeros zeros), .step 0 (moment 0) true,
    .call (.start 0), .step 1 (moment 5) true,
    .call (.receive 0 .clientAuth (some (tinyProof 7))), .step 2 (moment 10) true]

/-- The owner before its first call. -/
def opening : Timed tiny := ⟨fresh emptyList, 0⟩

/-- A prompt that nobody answers is closed at its deadline. -/
theorem prompts_limited_unanswered :
    ∃ session, ((timed emptyList).final opening unanswered).threads.owner.sessions[0]? =
      some session ∧
      ∃ e ∈ (timed emptyList).trace opening unanswered, e.sid = 0 ∧ e.after = session.phase ∧
        ∀ c : Clock, e.clock.deadline + APPROVAL_TIMEOUT_MS ≤ c.tick →
          (((timed emptyList).final opening unanswered).threads.owner.tick c).1.sessions[0]? =
            some { session with phase := .closed } := by
  have hrun := EventSystem.reaches_trace (M := timed emptyList) (s := opening) unanswered rfl
    (by decide +kernel)
  have hphase : ((timed emptyList).final opening unanswered).threads.owner.phaseAt 0 =
      some .pending := by decide +kernel
  obtain ⟨session, hs, hpending⟩ := Option.map_eq_some_iff.mp hphase
  have hlimit : session.phase.limit = some APPROVAL_TIMEOUT_MS := by rw [hpending]; rfl
  exact ⟨session, hs, (prompts_limited hrun).2.2 0 session _ hs hlimit⟩

end PhoneAuthorization
end MobileWebcamBridge
