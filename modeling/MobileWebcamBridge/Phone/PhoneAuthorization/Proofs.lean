import MobileWebcamBridge.Phone.PhoneAuthorization.Sections

/-!
# Sessions and their one proof

`Sessions` is the invariant of the session slot: every session that is not closed is the active
one, a session that still waits for its proof has received none, and one that prompts or is
authorized has received exactly one, which verifies over that session's own challenge. `Owned` says
that this challenge is the one the session was opened with.
-/

set_option autoImplicit false

namespace MobileWebcamBridge
namespace PhoneAuthorization

open Wire ClientAuthorization

variable {P : Platform} {a b : PhoneAuthorization P} {sid i : ℕ} {s : Session} {t : Task}
variable {tr es : List Event} {stored : ClientRepository P} {th th' : Threads P} {l : Label}
variable {ok : List Event → Threads P → Label → Prop}

/-! ## Proofs received -/

/-- The proof of the session. -/
def Event.proofOf? (sid : ℕ) : Event → Option ClientAuth
  | .proof i p => if i = sid then some p else none
  | _ => none

/-- The proofs a session received. -/
def proofsOf (sid : ℕ) (tr : List Event) : List ClientAuth := tr.filterMap (Event.proofOf? sid)

theorem proofsOf_append (sid : ℕ) (tr es : List Event) :
    proofsOf sid (tr ++ es) = proofsOf sid tr ++ proofsOf sid es := List.filterMap_append

theorem mem_proofsOf {p : ClientAuth} : p ∈ proofsOf sid tr ↔ .proof sid p ∈ tr := by
  rw [proofsOf, List.mem_filterMap]
  constructor
  · rintro ⟨e, he, h⟩
    cases e <;> simp only [Event.proofOf?, reduceCtorEq] at h
    split at h
    · next hi =>
      rw [Option.some.injEq] at h
      exact hi ▸ h ▸ he
    · cases h
  · exact fun h => ⟨_, h, by simp [Event.proofOf?]⟩

theorem proofsOf_eq_nil (h : ∀ p, .proof sid p ∉ es) : proofsOf sid es = [] :=
  List.eq_nil_iff_forall_not_mem.mpr fun p hp => h p (mem_proofsOf.mp hp)

theorem proofsOf_closing (h : Closing es) (sid : ℕ) : proofsOf sid es = [] :=
  proofsOf_eq_nil fun p hp => by cases h _ hp

/-! ## The invariant -/

/-- The proof verifies over the session's own route, phone and nonce, and its own key and label. -/
def Verifies (P : Platform) (s : Session) (p : ClientAuth) : Prop :=
  ∃ message, clientAuthMessage P s.transport s.phoneBinding s.nonce p.publicKey p.label =
    some message ∧ P.verify p.publicKey message p.signature = true

/-- What the session's phase says about its proofs. -/
structure SessionOk (P : Platform) (tr : List Event) (sid : ℕ) (s : Session) : Prop where
  opened : .opened sid s.transport s.phoneBinding s.nonce ∈ tr
  unproved : s.phase = .new ∨ s.phase = .proof → proofsOf sid tr = []
  proved : s.phase = .pending ∨ s.phase = .authorized →
    ∃ p, proofsOf sid tr = [p] ∧ s.candidate = some (candidateOf P p) ∧ Verifies P s p
  once : (proofsOf sid tr).length ≤ 1

/-- What every session's phase says, and that only the active one is open. -/
structure Sessions (tr : List Event) (a : PhoneAuthorization P) : Prop where
  session : ∀ (sid : ℕ) (s : Session), a.sessions[sid]? = some s → SessionOk P tr sid s
  unopened : ∀ sid, a.sessions.length ≤ sid → proofsOf sid tr = []
  live : ∀ (sid : ℕ) (s : Session), a.sessions[sid]? = some s → s.phase ≠ .closed →
    a.active = some sid

theorem SessionOk.append (h : SessionOk P tr sid s) (he : proofsOf sid es = []) :
    SessionOk P (tr ++ es) sid s := by
  have hsame : proofsOf sid (tr ++ es) = proofsOf sid tr := by
    rw [proofsOf_append, he, List.append_nil]
  refine ⟨List.mem_append_left _ h.opened, ?_, ?_, ?_⟩ <;> rw [hsame]
  · exact h.unproved
  · exact h.proved
  · exact h.once

/-- A session that has left the prompt for good. -/
theorem SessionOk.leave (h : SessionOk P tr sid s) {phase : Phase} {d : ℤ}
    (hp : phase = .denied ∨ phase = .closed) :
    SessionOk P tr sid { s with phase := phase, deadline := d } := by
  refine ⟨h.opened, fun hn => ?_, fun hn => ?_, h.once⟩
  · rcases hp with rfl | rfl <;> rcases hn with hn | hn <;> cases hn
  · rcases hp with rfl | rfl <;> rcases hn with hn | hn <;> cases hn

theorem Sessions.shut (h : Sessions tr a) (hs : Shuts a (b, es)) : Sessions (tr ++ es) b := by
  obtain ⟨hends, hclosing⟩ := hs
  refine ⟨fun sid s hs => ?_, fun sid hsid => ?_, fun sid s hs hp => ?_⟩
  · obtain ⟨s₀, hs₀, rfl | rfl⟩ := hends.session sid s hs
    · exact (h.session sid s hs₀).append (proofsOf_closing hclosing sid)
    · exact ((h.session sid s₀ hs₀).leave (.inr rfl)).append (proofsOf_closing hclosing sid)
  · rw [proofsOf_append, proofsOf_closing hclosing, List.append_nil]
    exact h.unopened sid (hends.length ▸ hsid)
  · obtain ⟨s₀, hs₀, rfl | rfl⟩ := hends.session sid s hs
    · have hact := h.live sid s hs₀ hp
      rcases hends.active with ha | ⟨-, hc⟩
      · exact ha.trans hact
      · exact absurd (hc sid s hact hs) hp
    · exact absurd rfl hp

/-- One session changes, without being closed or opened. -/
theorem Sessions.put (h : Sessions tr a) (hs : a.sessions[sid]? = some s) {s' : Session}
    (hact : a.active = some sid) (hok : SessionOk P (tr ++ es) sid s')
    (he : ∀ i, i ≠ sid → proofsOf i es = []) (ha : b.sessions = (a.put sid s').sessions)
    (hb : b.active = a.active) : Sessions (tr ++ es) b := by
  have hget (i : ℕ) : b.sessions[i]? = if sid = i then some s' else a.sessions[i]? := by
    rw [ha, getElem?_put]
    by_cases hi : sid = i
    · subst hi
      simp [lt_of_session hs]
    · simp [hi]
  refine ⟨fun i s₁ hs₁ => ?_, fun i hi => ?_, fun i s₁ hs₁ hp => ?_⟩
  · rw [hget] at hs₁
    split at hs₁
    · next hi =>
      rw [Option.some.injEq] at hs₁
      exact hi ▸ hs₁ ▸ hok
    · next hi => exact (h.session i s₁ hs₁).append (he i (Ne.symm hi))
  · have hlen : b.sessions.length = a.sessions.length := by simp [ha, PhoneAuthorization.put]
    have hlt := lt_of_session hs
    rw [proofsOf_append, he i (by omega), List.append_nil]
    exact h.unopened i (hlen ▸ hi)
  · rw [hget] at hs₁
    split at hs₁
    · next hi => rw [hb, hact, hi]
    · exact hb.trans (h.live i s₁ hs₁ hp)

/-- Nothing about a session changes. -/
theorem Sessions.same (h : Sessions tr a) (hs : b.sessions = a.sessions) (ha : b.active = a.active)
    (he : ∀ i, proofsOf i es = []) : Sessions (tr ++ es) b := by
  refine ⟨fun i s hi => ?_, fun i hi => ?_, fun i s hi hp => ?_⟩
  · exact (h.session i s (hs ▸ hi)).append (he i)
  · rw [proofsOf_append, he, List.append_nil]
    exact h.unopened i (hs ▸ hi)
  · exact ha.trans (h.live i s (hs ▸ hi) hp)

/-- A session that is waiting for its proof gets one. -/
theorem Sessions.proving (h : Sessions tr a) (hp : Proving a sid s) (p : ClientAuth)
    {rest : List Event} (hr : proofsOf sid rest = []) :
    proofsOf sid (tr ++ Event.proof sid p :: rest) = [p] := by
  rw [proofsOf_append, (h.session sid s hp.session).unproved (.inr hp.phase), List.nil_append]
  simp only [proofsOf] at hr ⊢
  simp [Event.proofOf?, hr]

/-- A proof that is refused closes its session. -/
theorem Sessions.refused (h : Sessions tr a) (hp : Proving a sid s) (p : ClientAuth)
    (hs : Shuts a (b, es)) (hc : ∀ s' : Session, b.sessions[sid]? = some s' → s'.phase = .closed) :
    Sessions (tr ++ Event.proof sid p :: es) b := by
  have hshut := h.shut hs
  have hone := h.proving hp p (proofsOf_closing hs.2 sid)
  have hother (i : ℕ) (hi : i ≠ sid) :
      proofsOf i (tr ++ Event.proof sid p :: es) = proofsOf i (tr ++ es) := by
    simp [proofsOf, Event.proofOf?, Ne.symm hi]
  have hsub : tr ++ es ⊆ tr ++ Event.proof sid p :: es := by
    intro e he
    rcases List.mem_append.mp he with he | he
    · exact List.mem_append_left _ he
    · exact List.mem_append_right _ (List.mem_cons_of_mem _ he)
  refine ⟨fun i s' hs' => ?_, fun i hi => ?_, hshut.live⟩
  · have hok := hshut.session i s' hs'
    by_cases hi : i = sid
    · subst hi
      have hclosed := hc s' hs'
      refine ⟨hsub hok.opened, fun hn => ?_, fun hn => ?_, by rw [hone]; exact Nat.le_refl 1⟩
      · rw [hclosed] at hn
        rcases hn with hn | hn <;> cases hn
      · rw [hclosed] at hn
        rcases hn with hn | hn <;> cases hn
    · have hsame := hother i hi
      refine ⟨hsub hok.opened, ?_, ?_, ?_⟩ <;> rw [hsame]
      · exact hok.unproved
      · exact hok.proved
      · exact hok.once
  · have hlt := lt_of_session hp.session
    have hlen : b.sessions.length = a.sessions.length := hs.1.length
    rw [hother i (by omega)]
    exact hshut.unopened i hi

theorem Sessions.opened (h : Sessions tr a) (new : Session) (ha : a.active = none)
    (hn : new.phase = .new) :
    Sessions (tr ++ [Event.opened a.sessions.length new.transport new.phoneBinding new.nonce])
      { a with active := some a.sessions.length, sessions := a.sessions ++ [new] } := by
  have hnone (i : ℕ) : proofsOf i
      [.opened a.sessions.length new.transport new.phoneBinding new.nonce] = [] := rfl
  have hsame (i : ℕ) : proofsOf i
      (tr ++ [Event.opened a.sessions.length new.transport new.phoneBinding new.nonce]) =
        proofsOf i tr := by
    rw [proofsOf_append, hnone, List.append_nil]
  have hcases {i : ℕ} {s : Session} (hs : (a.sessions ++ [new])[i]? = some s) :
      a.sessions[i]? = some s ∨ (i = a.sessions.length ∧ s = new) := by
    by_cases hi : i < a.sessions.length
    · rw [List.getElem?_append_left hi] at hs
      exact .inl hs
    · rw [List.getElem?_append_right (by omega)] at hs
      have hz : i - a.sessions.length = 0 := by
        have := (List.getElem?_eq_some_iff.mp hs).1
        simp only [List.length_singleton] at this
        omega
      simp only [hz, List.getElem?_cons_zero, Option.some.injEq] at hs
      exact .inr ⟨by omega, hs.symm⟩
  refine ⟨fun i s hs => ?_, fun i hi => ?_, fun i s hs hp => ?_⟩
  · rcases hcases hs with hs | ⟨rfl, rfl⟩
    · exact (h.session i s hs).append (hnone i)
    · have hempty := h.unopened a.sessions.length (Nat.le_refl _)
      refine ⟨by simp, fun _ => (hsame _).trans hempty, fun hp => ?_, ?_⟩
      · rw [hn] at hp
        rcases hp with hp | hp <;> cases hp
      · rw [hsame, hempty]
        exact Nat.zero_le 1
  · simp only [List.length_append, List.length_singleton] at hi
    rw [hsame]
    exact h.unopened i (by omega)
  · rcases hcases hs with hs | ⟨rfl, -⟩
    · exact absurd (h.live i s hs hp) (by rw [ha]; nofun)
    · rfl

theorem Answer.answered {status sent : AuthStatus} {phase : Phase} (h : Answer status phase sent) :
    ¬ (phase = .new ∨ phase = .proof) := by
  cases h <;> simp

theorem Answer.verified {status sent : AuthStatus} {phase : Phase} (h : Answer status phase sent)
    (hp : phase = .pending ∨ phase = .authorized) : status ≠ .rejected := by
  cases h <;> simp at hp ⊢

/-- A section keeps what the sessions have proved. -/
theorem Sessions.act (h : Sessions tr a) {thread : ℕ} {may : List UInt8 → Prop}
    (hact : Act thread may a t b es) : Sessions (tr ++ es) b := by
  have hsent (i : ℕ) {es : List Event} (he : ∀ p, .proof i p ∉ es) : proofsOf i es = [] :=
    proofsOf_eq_nil he
  cases hact with
  | @opened c transport phoneBinding nonce ha =>
    exact h.opened ⟨transport, phoneBinding, nonce, .new,
      c.deadline + PROOF_TIMEOUT_MS, none⟩ ha rfl
  | @started sid s d challenge hs hn hlive =>
    have hnil (i : ℕ) : proofsOf i (announce sid .clientChallenge challenge).1 = [] :=
      hsent i fun p hp => by rcases mem_announce hp with he | ⟨_, he⟩ <;> cases he
    refine h.put hs hlive ?_ (fun i _ => hnil i) rfl rfl
    have hok := (h.session sid s hs).append (hnil sid)
    refine ⟨hok.opened, fun _ => hok.unproved (.inl hn), fun hp => ?_, hok.once⟩
    rcases hp with hp | hp <;> cases hp
  | refused hp hs hc => exact h.refused hp _ hs hc
  | @answered sid s p message now d phase r hp hm hans _ =>
    have hrest : proofsOf sid [.evaluated sid a.repository.clients now,
        .sent sid .clientAuthResult (.clientAuthResult r), .changed sid] = [] := hsent sid (by simp)
    have hone := h.proving hp p hrest
    refine h.put hp.session hp.active ?_ (fun i hi => ?_) rfl rfl
    · refine ⟨List.mem_append_left _ (h.session sid s hp.session).opened,
        fun hn => absurd hn hans.answered, fun hn => ⟨p, hone, rfl, message, hm, ?_⟩, ?_⟩
      · exact (verified_of_evaluate (hans.verified hn)).2
      · rw [hone]
        exact Nat.le_refl 1
    · simp [proofsOf, Event.proofOf?, Ne.symm hi]
  | approving hp hc => exact h.same rfl rfl fun i => hsent i (by simp)
  | @granted sid s proposed saved r hp hs hr _ =>
    have hnil (i : ℕ) : proofsOf i [.approved sid a.repository.clients saved.approvedAtUnixSeconds,
        .sent sid .clientAuthResult (.clientAuthResult r), .changed sid] = [] := hsent i (by simp)
    have hok := (h.session sid s hp.session).append (hnil sid)
    refine h.put hp.session hp.active ?_ (fun i _ => hnil i) rfl rfl
    refine ⟨hok.opened, fun hn => ?_, fun _ => hok.proved (.inl hp.phase), hok.once⟩
    rcases hn with hn | hn <;> cases hn
  | @rejected sid s d u r hp hr =>
    have hnil (i : ℕ) : proofsOf i [.sent sid .clientAuthResult (.clientAuthResult r), .changed sid]
        = [] := hsent i (by simp)
    have hok := (h.session sid s hp.session).append (hnil sid)
    exact h.put hp.session hp.active (hok.leave (.inl rfl)) (fun i _ => hnil i) rfl rfl
  | revoking => exact h.same rfl rfl fun i => rfl
  | revoked => exact h.same rfl rfl fun i => rfl
  | reported => exact h.same rfl rfl fun i => rfl
  | wrote => exact h.same rfl rfl fun i => rfl
  | kept => exact h.same rfl rfl fun i => rfl

/-! ## Runs -/

/-- What a step of the system is: a call begins, or the head of a program runs. -/
inductive Moved (th : Threads P) : Label → Threads P → List Event → Prop
  | call (call : Call) :
      Moved th (.call call) { th with programs := th.programs ++ [call.tasks] }
        [.called th.programs.length call]
  | task {thread : ℕ} {c : Clock} {written : Bool} {t : Task} {ts : List Task} :
      th.programs[thread]? = some (t :: ts) →
      Moved th (.step thread c written)
        { owner := (th.owner.runTask c written thread ts t).1
          programs := th.programs.set thread (th.owner.runTask c written thread ts t).2.2 }
        (th.owner.runTask c written thread ts t).2.1

theorem moved_of_step (h : step th l = some (th', es)) : Moved th l th' es := by
  cases l with
  | call call =>
    simp only [step, Option.some.injEq, Prod.mk.injEq] at h
    obtain ⟨rfl, rfl⟩ := h
    exact .call call
  | step thread c written =>
    simp only [step] at h
    split at h
    · next t ts hi =>
      simp only [Option.some.injEq, Prod.mk.injEq] at h
      obtain ⟨rfl, rfl⟩ := h
      exact .task hi
    · cases h

/-- An invariant of the history and the owner is checked for a call and for each task. -/
theorem Under.acts {I : List Event → PhoneAuthorization P → Prop}
    (init : I [] (init { stored with healthy := true }))
    (called : ∀ tr a thread call, I tr a → I (tr ++ [Event.called thread call]) a)
    (task : ∀ tr th thread c written t ts, (system stored).Under ok tr th →
      ok tr th (.step thread c written) → th.programs[thread]? = some (t :: ts) → I tr th.owner →
      I (tr ++ (th.owner.runTask c written thread ts t).2.1)
        (th.owner.runTask c written thread ts t).1)
    (h : (system stored).Under ok tr th) : I tr th.owner := by
  refine h.invariant (P := fun tr th => I tr th.owner) ?_ ?_
  · rintro th rfl
    exact init
  · intro tr th l th' es hr hok hi hs
    cases moved_of_step hs with
    | call call => exact called tr th.owner th.programs.length call hi
    | task hj => exact task _ _ _ _ _ _ _ hr hok hj hi

theorem sessions_init (repository : ClientRepository P) : Sessions [] (init repository) :=
  ⟨by simp [init], fun _ _ => rfl, by simp [init]⟩

/-- So it is kept in every run. -/
theorem sessions_ok (h : (system stored).Under ok tr th) : Sessions tr th.owner := by
  refine Under.acts (sessions_init _) ?_ ?_ h
  · exact fun tr a thread call h => h.same rfl rfl fun _ => rfl
  · intro tr th thread c written t ts _ _ _ hi
    exact (acts_runTask th.owner c written thread ts t).preserves
      (fun _ _ _ _ hs h => Sessions.shut h hs) (fun _ _ _ _ ha h => Sessions.act h ha) hi

/-! ## A session's challenge never changes -/

/-- The session challenges for this route, phone and nonce. -/
def Session.Challenges (s : Session) (transport : AuthTransport) (phoneBinding nonce : List UInt8) :
    Prop := s.transport = transport ∧ s.phoneBinding = phoneBinding ∧ s.nonce = nonce

/-- Every opened session is there, with the challenge it was opened with. -/
def Owned (tr : List Event) (a : PhoneAuthorization P) : Prop :=
  ∀ sid transport phoneBinding nonce, .opened sid transport phoneBinding nonce ∈ tr →
    ∃ s : Session, a.sessions[sid]? = some s ∧ s.Challenges transport phoneBinding nonce

/-- Sessions stay, with their challenges. -/
def Keeps (a b : PhoneAuthorization P) : Prop :=
  ∀ (sid : ℕ) (s : Session), a.sessions[sid]? = some s →
    ∃ s' : Session, b.sessions[sid]? = some s' ∧ s'.Challenges s.transport s.phoneBinding s.nonce

theorem Ends.keeps (h : Ends a b) : Keeps a b := by
  intro sid s hs
  have hlt : sid < b.sessions.length := by
    rw [h.length]
    exact lt_of_session hs
  obtain ⟨s₀, hs₀, hs'⟩ := h.session sid _ (List.getElem?_eq_getElem hlt)
  obtain rfl : s = s₀ := by
    rw [hs, Option.some.injEq] at hs₀
    exact hs₀
  refine ⟨_, List.getElem?_eq_getElem hlt, ?_⟩
  rcases hs' with hs' | hs' <;> rw [hs'] <;> exact ⟨rfl, rfl, rfl⟩

theorem keeps_put (hs : a.sessions[sid]? = some s) {s' : Session}
    (hb : b.sessions = (a.put sid s').sessions)
    (hc : s'.Challenges s.transport s.phoneBinding s.nonce) : Keeps a b := by
  intro i s₁ hs₁
  rw [hb, getElem?_put]
  split
  · next hi =>
    obtain ⟨rfl, -⟩ := hi
    obtain rfl : s = s₁ := by
      rw [hs, Option.some.injEq] at hs₁
      exact hs₁
    exact ⟨s', rfl, hc⟩
  · exact ⟨s₁, hs₁, rfl, rfl, rfl⟩

theorem Keeps.of_same (hb : b.sessions = a.sessions) : Keeps a b :=
  fun _ s hs => ⟨s, hb ▸ hs, rfl, rfl, rfl⟩

/-- A section keeps every session's challenge. -/
theorem Act.keeps {thread : ℕ} {may : List UInt8 → Prop} (h : Act thread may a t b es) :
    Keeps a b := by
  cases h with
  | opened _ =>
    intro sid s hs
    exact ⟨s, by rw [List.getElem?_append_left (lt_of_session hs)]; exact hs, rfl, rfl, rfl⟩
  | started hs _ _ => exact keeps_put hs rfl ⟨rfl, rfl, rfl⟩
  | refused _ hs _ => exact hs.1.keeps
  | answered hp _ _ _ => exact keeps_put hp.session rfl ⟨rfl, rfl, rfl⟩
  | granted hp _ _ _ => exact keeps_put hp.session rfl ⟨rfl, rfl, rfl⟩
  | rejected hp _ => exact keeps_put hp.session rfl ⟨rfl, rfl, rfl⟩
  | _ => exact .of_same rfl

theorem Owned.keeps (h : Owned tr a) (hk : Keeps a b)
    (hes : ∀ sid transport phoneBinding nonce, .opened sid transport phoneBinding nonce ∈ es →
      ∃ s : Session, b.sessions[sid]? = some s ∧ s.Challenges transport phoneBinding nonce) :
    Owned (tr ++ es) b := by
  intro sid transport phoneBinding nonce hmem
  rcases List.mem_append.mp hmem with hmem | hmem
  · obtain ⟨s, hs, ht, hb, hn⟩ := h sid transport phoneBinding nonce hmem
    obtain ⟨s', hs', ht', hb', hn'⟩ := hk sid s hs
    exact ⟨s', hs', ht'.trans ht, hb'.trans hb, hn'.trans hn⟩
  · exact hes sid transport phoneBinding nonce hmem

/-- The challenge of every session is the one it was opened with. -/
theorem owned (h : (system stored).Under ok tr th) : Owned tr th.owner := by
  refine Under.acts ?_ ?_ ?_ h
  · intro sid transport phoneBinding nonce hmem
    cases hmem
  · exact fun tr a thread call h => h.keeps (.of_same rfl) (by simp)
  · intro tr th thread c written t ts _ _ _ hi
    refine (acts_runTask th.owner c written thread ts t).preserves ?_ ?_ hi
    · intro tr a b es hs h
      refine h.keeps hs.1.keeps fun sid transport phoneBinding nonce hmem => ?_
      cases hs.2 _ hmem
    · intro tr a b es hact h
      refine h.keeps hact.keeps fun sid transport phoneBinding nonce hmem => ?_
      cases hact with
      | opened _ =>
        simp only [List.mem_singleton, Event.opened.injEq] at hmem
        obtain ⟨rfl, rfl, rfl, rfl⟩ := hmem
        exact ⟨_, List.getElem?_concat_length, rfl, rfl, rfl⟩
      | started _ _ _ =>
        rcases mem_announce hmem with he | ⟨p, he⟩ <;> cases he
      | refused _ hs _ =>
        rcases List.mem_cons.mp hmem with he | hmem
        · cases he
        · cases hs.2 _ hmem
      | _ => simp at hmem

end PhoneAuthorization
end MobileWebcamBridge
