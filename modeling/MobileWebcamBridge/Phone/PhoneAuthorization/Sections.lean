import MobileWebcamBridge.Phone.PhoneAuthorization

/-!
# What the sections of `PhoneAuthorization` can do

Most sections can only end sessions: `Ends` is that relation, and `Shuts` adds that the events are
those of ending one. The sections that do more (opening, starting, a proof, an approval, a
revocation) are described by one lemma each, `Ends` being what they do besides.
-/

set_option autoImplicit false

namespace MobileWebcamBridge
namespace PhoneAuthorization

open Wire ClientAuthorization

variable {P : Platform} {a b d : PhoneAuthorization P} {c : Clock} {thread sid : ℕ}
  {es fs : List Event}
variable {may : List UInt8 → Prop}

/-! ## Sections that only end sessions -/

/-- The callbacks of a session that ends, and of a storage failure. -/
def Event.closing : Event → Bool
  | .changed _ | .ended .. | .storageFailure => true
  | _ => false

/-- All of the events belong to the end of a session. -/
def Closing (es : List Event) : Prop := ∀ e ∈ es, e.closing = true

/-- `b` is `a` with some sessions ended. -/
structure Ends (a b : PhoneAuthorization P) : Prop where
  repository : b.repository = a.repository
  revokedIds : b.revokedIds = a.revokedIds
  length : b.sessions.length = a.sessions.length
  session : ∀ (sid : ℕ) (s : Session), b.sessions[sid]? = some s →
    ∃ s₀, a.sessions[sid]? = some s₀ ∧ (s = s₀ ∨ s = { s₀ with phase := .closed })
  active : b.active = a.active ∨ (b.active = none ∧
    ∀ (sid : ℕ) (s : Session), a.active = some sid → b.sessions[sid]? = some s → s.phase = .closed)
  latched : (a.failed || a.closed) = true → (b.failed || b.closed) = true

/-- A section that ends sessions and emits nothing else. -/
def Shuts (a : PhoneAuthorization P) (r : PhoneAuthorization P × List Event) : Prop :=
  Ends a r.1 ∧ Closing r.2

theorem closing_nil : Closing [] := by simp [Closing]

theorem Closing.append (h : Closing es) (h' : Closing fs) : Closing (es ++ fs) := by
  intro e he
  rcases List.mem_append.mp he with he | he
  · exact h e he
  · exact h' e he

theorem Ends.refl (a : PhoneAuthorization P) : Ends a a :=
  ⟨rfl, rfl, rfl, fun _ s h => ⟨s, h, .inl rfl⟩, .inl rfl, id⟩

theorem Ends.trans (h : Ends a b) (h' : Ends b d) : Ends a d := by
  have hclosed (sid : ℕ) (s s₁ : Session) (hs : d.sessions[sid]? = some s)
      (hs₁ : b.sessions[sid]? = some s₁) (hc : s₁.phase = .closed) : s.phase = .closed := by
    obtain ⟨s₂, hs₂, hs' | hs'⟩ := h'.session sid s hs
    · rw [hs₁, Option.some.injEq] at hs₂
      rw [hs', ← hs₂, hc]
    · rw [hs']
  refine ⟨h'.repository.trans h.repository, h'.revokedIds.trans h.revokedIds,
    h'.length.trans h.length, fun sid s hs => ?_, ?_, fun hl => h'.latched (h.latched hl)⟩
  · obtain ⟨s₁, hs₁, h₁⟩ := h'.session sid s hs
    obtain ⟨s₀, hs₀, h₀⟩ := h.session sid s₁ hs₁
    refine ⟨s₀, hs₀, ?_⟩
    rcases h₀ with rfl | rfl <;> rcases h₁ with rfl | rfl <;> simp
  · rcases h.active with ha | ⟨ha, hc⟩
    · rcases h'.active with hd | ⟨hd, hc'⟩
      · exact .inl (hd.trans ha)
      · exact .inr ⟨hd, fun sid s h => hc' sid s (ha.trans h)⟩
    · refine .inr ⟨?_, fun sid s hsid hs => ?_⟩
      · rcases h'.active with hd | ⟨hd, _⟩
        · exact hd.trans ha
        · exact hd
      · obtain ⟨s₁, hs₁, -⟩ := h'.session sid s hs
        exact hclosed sid s s₁ hs hs₁ (hc sid s₁ hsid hs₁)

theorem Shuts.refl (a : PhoneAuthorization P) : Shuts a (a, []) := ⟨.refl a, closing_nil⟩

theorem Shuts.trans (h : Shuts a (b, es)) (h' : Shuts b (d, fs)) : Shuts a (d, es ++ fs) :=
  ⟨h.1.trans h'.1, h.2.append h'.2⟩

theorem getElem?_put (a : PhoneAuthorization P) (sid i : ℕ) (s : Session) :
    (a.put sid s).sessions[i]? = if sid = i ∧ i < a.sessions.length then some s
      else a.sessions[i]? := by
  simp only [put, List.getElem?_set]
  by_cases h : sid = i
  · subst h
    by_cases hl : sid < a.sessions.length
    · simp [hl]
    · simp [hl]
  · simp [h]

theorem lt_of_session {s : Session} (h : a.sessions[sid]? = some s) : sid < a.sessions.length :=
  (List.getElem?_eq_some_iff.mp h).1

theorem shuts_finish (a : PhoneAuthorization P) (c : Clock) (sid : ℕ) (reason : String) :
    Shuts a (a.finish c sid reason) := by
  unfold finish
  split
  · exact .refl a
  · next s hs =>
    split
    · exact .refl a
    · have hput := getElem?_put a sid
      refine ⟨⟨rfl, rfl, by simp [put], fun i s' hs' => ?_, ?_, id⟩,
        by simp [Closing, Event.closing]⟩
      · simp only [hput] at hs'
        split at hs'
        · next hi =>
          rw [Option.some.injEq] at hs'
          exact ⟨s, hi.1 ▸ hs, .inr hs'.symm⟩
        · exact ⟨s', hs', .inl rfl⟩
      · show (if a.active = some sid then none else a.active) = a.active ∨ _
        by_cases ha : a.active = some sid
        · refine .inr ⟨if_pos ha, fun i s' hi hs' => ?_⟩
          obtain rfl : sid = i := by simpa [ha] using hi
          simp only [hput, lt_of_session hs, and_self, if_true, Option.some.injEq] at hs'
          rw [← hs']
        · exact .inl (if_neg ha)

theorem ends_flags (a : PhoneAuthorization P) {f k : Bool} (h : (f || k) = true) :
    Ends a { a with failed := f, closed := k } :=
  ⟨rfl, rfl, rfl, fun _ s h => ⟨s, h, .inl rfl⟩, .inl rfl, fun _ => h⟩

theorem shuts_storageFailed (a : PhoneAuthorization P) (c : Clock) :
    Shuts a (a.storageFailed c) := by
  have hflag := ends_flags a (f := true) (k := a.closed) rfl
  have hlast : Closing [.storageFailure] := by simp [Closing, Event.closing]
  unfold storageFailed
  dsimp only
  split
  · exact ⟨hflag, hlast⟩
  · next sid _ =>
    have := shuts_finish { a with failed := true } c sid "Authorization storage failed"
    exact ⟨hflag.trans this.1, this.2.append hlast⟩

theorem shuts_storedSnapshot (a : PhoneAuthorization P) (c : Clock) :
    Shuts a ((a.storedSnapshot c).1, (a.storedSnapshot c).2.1) := by
  unfold storedSnapshot
  split
  · exact .refl a
  · split
    · exact .refl a
    · exact shuts_storageFailed a c

/-- `stored { repository.snapshot() }` returns the list. -/
def readable (a : PhoneAuthorization P) : Bool :=
  !(a.failed || a.closed) && a.repository.healthy

/-- A list read inside the lock is the published one, and reading it changes nothing. -/
theorem storedSnapshot_some {clients : List Client}
    (h : a.storedSnapshot c = (b, es, some clients)) :
    b = a ∧ es = [] ∧ clients = a.repository.clients ∧ a.readable = true := by
  unfold storedSnapshot ClientRepository.snapshot at h
  split at h
  · cases h
  · next hf =>
    split at h
    · next hs =>
      split at hs
      · next hh =>
        simp only [Option.some.injEq] at hs
        simp only [Prod.mk.injEq, Option.some.injEq] at h
        exact ⟨h.1.symm, h.2.1.symm, h.2.2.symm.trans hs.symm, by simp [readable, hf, hh]⟩
      · cases hs
    · cases h

theorem shuts_checkAuthorized (a : PhoneAuthorization P) (c : Clock) (sid : ℕ) :
    Shuts a ((a.checkAuthorized c sid).1, (a.checkAuthorized c sid).2.1) := by
  have hfinish (b : PhoneAuthorization P) :=
    shuts_finish b c sid "PC authorization revoked or expired"
  unfold checkAuthorized
  split
  · exact .refl a
  split
  · exact .refl a
  split
  · exact .refl a
  split
  · exact hfinish a
  have hs := shuts_storedSnapshot a c
  split
  · next hq => rwa [hq] at hs
  · next hq =>
    rw [hq] at hs
    split
    · exact hs
    · exact hs.trans (hfinish _)

theorem shuts_checkActive (a : PhoneAuthorization P) (c : Clock) : Shuts a (a.checkActive c) := by
  unfold checkActive
  split
  · exact .refl a
  · exact shuts_checkAuthorized a c _

theorem shuts_tickLocked (a : PhoneAuthorization P) (c : Clock) (sid : ℕ) :
    Shuts a (a.tickLocked c sid) := by
  unfold tickLocked
  split
  · exact .refl a
  split
  · exact .refl a
  split
  · exact shuts_checkAuthorized a c sid
  split
  · exact shuts_finish a c sid _
  · exact .refl a

theorem shuts_tick (a : PhoneAuthorization P) (c : Clock) : Shuts a (a.tick c) := by
  unfold tick
  split
  · exact .refl a
  split
  · exact .refl a
  · exact shuts_tickLocked a c _

theorem shuts_onHostHello (a : PhoneAuthorization P) (c : Clock) (sid : ℕ) :
    Shuts a (a.onHostHello c sid) := by
  have ht := shuts_tickLocked a c sid
  unfold onHostHello
  dsimp only
  split
  · exact ht
  split
  · exact ht
  · exact ht.trans (shuts_finish _ c sid _)

theorem shuts_close (a : PhoneAuthorization P) (c : Clock) : Shuts a (a.close c) := by
  have hflag := ends_flags a (f := a.failed) (k := true) (Bool.or_true _)
  unfold close
  dsimp only
  split
  · exact ⟨hflag, closing_nil⟩
  · next sid _ =>
    have := shuts_finish { a with closed := true } c sid "Phone authorization closed"
    exact ⟨hflag.trans this.1, this.2⟩

/-! ## The other sections, act by act -/

/-- The candidate a proof makes. -/
def candidateOf (P : Platform) (p : ClientAuth) : Client :=
  ⟨deriveClientId P p.publicKey, p.publicKey, p.label, 0, 0⟩

/-- The session the proof is evaluated for, before it is. -/
structure Proving (a : PhoneAuthorization P) (sid : ℕ) (s : Session) : Prop where
  session : a.sessions[sid]? = some s
  phase : s.phase = .proof
  active : a.active = some sid

/-- The session an approval is for. -/
structure Prompting (a : PhoneAuthorization P) (sid : ℕ) (s : Session) : Prop where
  session : a.sessions[sid]? = some s
  phase : s.phase = .pending
  active : a.active = some sid

/-- The phase a session enters with the outcome it announces. -/
inductive Answer : AuthStatus → Phase → AuthStatus → Prop
  | authorized : Answer .authorized .authorized .authorized
  | rejected : Answer .rejected .denied .rejected
  | prompted : Answer .pending .pending .pending
  | cooling : Answer .pending .denied .rejected

/-- What is sent on a decision: the decision, or a refusal while prompts are held back. -/
def Conveys (decision sent : ClientAuthResult) : Prop :=
  sent = decision ∨ (decision.status = .pending ∧ sent = ⟨.rejected, .unknown, 0⟩)

/-- The ID a task grants for, if it grants in this state at these readings: `receive` for a key on
the list, or the last section of `approve` for a prompt that is still live. -/
def grantable (a : PhoneAuthorization P) (c : Clock) : Task → Option (List UInt8)
  | .enter (.receive sid .clientAuth (some p)) =>
    match a.sessions[sid]? with
    | none => none
    | some s =>
      match clientAuthMessage P s.transport s.phoneBinding s.nonce p.publicKey p.label with
      | none => none
      | some message =>
        if a.active = some sid ∧ s.phase = .proof ∧ c.tick < s.deadline ∧ a.readable = true ∧
            (evaluate P (deriveClientId P p.publicKey) p.publicKey message p.signature
              a.repository.clients c.seconds).status = .authorized then
          some (deriveClientId P p.publicKey)
        else none
  | .completeApproval sid proposed =>
    match a.sessions[sid]? with
    | none => none
    | some s =>
      if a.active = some sid ∧ s.phase = .pending ∧ c.tick < s.deadline ∧ a.readable = true ∧
          (single a.repository.clients proposed.clientId).isSome = true then
        some proposed.clientId
      else none
  | _ => none

/-- The list an operation publishes if it saves. -/
def Write.next (P : Platform) (clients : List Client) (now : ℤ) : Write → Option (List Client)
  | .approve client =>
    ClientAuthorization.approve P clients client.clientId client.publicKey client.label now
  | .revoke id => some (ClientAuthorization.revoke clients id)
  | .renew id => ClientAuthorization.renew clients id now

/-- What a section does besides ending sessions, for the task that does it; `may` are the IDs it can
grant for. -/
inductive Act (thread : ℕ) (may : List UInt8 → Prop) (a : PhoneAuthorization P) :
    Task → PhoneAuthorization P → List Event → Prop
  | opened {c : Clock} {transport : AuthTransport} {phoneBinding nonce : List UInt8} :
      a.active = none →
      Act thread may a (.enter (.openSession transport phoneBinding nonce)) { a with
        active := some a.sessions.length
        sessions := a.sessions ++ [{
          transport, phoneBinding, nonce, phase := .new
          deadline := c.deadline + PROOF_TIMEOUT_MS, candidate := none }] }
        [.opened a.sessions.length transport phoneBinding nonce]
  | started {sid : ℕ} {s : Session} {d : ℤ} {challenge : Option Payload} :
      a.sessions[sid]? = some s → s.phase = .new → a.active = some sid →
      Act thread may a (.enter (.start sid)) (a.put sid { s with phase := .proof, deadline := d })
        (announce sid .clientChallenge challenge).1
  | refused {sid : ℕ} {s : Session} {p : ClientAuth} {type : FrameType} {b : PhoneAuthorization P}
      {es : List Event} :
      Proving a sid s → Shuts a (b, es) →
      (∀ s' : Session, b.sessions[sid]? = some s' → s'.phase = .closed) →
      Act thread may a (.enter (.receive sid type (some p))) b (.proof sid p :: es)
  | answered {sid : ℕ} {s : Session} {p : ClientAuth} {message : List UInt8} {now d : ℤ}
      {phase : Phase} {r : ClientAuthResult} :
      Proving a sid s →
      clientAuthMessage P s.transport s.phoneBinding s.nonce p.publicKey p.label = some message →
      Answer (evaluate P (deriveClientId P p.publicKey) p.publicKey message p.signature
        a.repository.clients now).status phase r.status →
      (r.status = .authorized → may (deriveClientId P p.publicKey)) →
      Conveys (evaluate P (deriveClientId P p.publicKey) p.publicKey message p.signature
        a.repository.clients now) r →
      Act thread may a (.enter (.receive sid .clientAuth (some p)))
        (a.put sid { s with candidate := some (candidateOf P p), phase := phase, deadline := d })
        [.proof sid p, .evaluated sid a.repository.clients now,
          .sent sid .clientAuthResult (.clientAuthResult r), .changed sid]
  | approving {sid : ℕ} {s : Session} {client : Client} :
      Prompting a sid s → s.candidate = some client →
      Act thread may a (.enter (.approve sid)) a [.approving thread sid client.clientId]
  | granted {sid : ℕ} {s : Session} {proposed saved : Client} {r : ClientAuthResult} :
      Prompting a sid s → single a.repository.clients proposed.clientId = some saved →
      r.status = .authorized → may proposed.clientId →
      r = ⟨.authorized, .none, saved.expiresAtUnixSeconds⟩ →
      Act thread may a (.completeApproval sid proposed)
        ({ a with revokedIds := a.revokedIds.filter fun id => id != proposed.clientId }.put sid
          { s with phase := .authorized })
        [.approved sid a.repository.clients saved.approvedAtUnixSeconds,
          .sent sid .clientAuthResult (.clientAuthResult r), .changed sid]
  | rejected {sid : ℕ} {s : Session} {d u : ℤ} {r : ClientAuthResult} :
      Prompting a sid s → r.status = .rejected → r = ⟨.rejected, .unknown, 0⟩ →
      Act thread may a (.enter (.reject sid))
        ({ a with unknownCooldownUntil := u }.put sid { s with phase := .denied, deadline := d })
        [.sent sid .clientAuthResult (.clientAuthResult r), .changed sid]
  | revoking {id : List UInt8} :
      Act thread may a (.enter (.revoke id)) { a with revokedIds := id :: a.revokedIds } []
  | revoked {id : List UInt8} :
      id ∈ a.revokedIds → Act thread may a (.enter (.revoke id)) a [.revoked id]
  | reported {sid : ℕ} {s : Session} {client : Client} :
      a.sessions[sid]? = some s → s.phase = .authorized → a.active = some sid →
      s.candidate = some client → client.clientId ∉ a.revokedIds →
      Act thread may a (.enter (.isAuthorized sid)) a [.reported sid client.clientId]
  | wrote {write : Write} {now : ℤ} {written : Bool} :
      write.next P a.repository.clients now = some (write.run a.repository now written).1.clients →
      Act thread may a (.write write now)
        { a with repository := (write.run a.repository now written).1 }
        [.saved write now (write.run a.repository now written).1.clients]
  | kept {write : Write} {now : ℤ} {r : ClientRepository P} : r.clients = a.repository.clients →
      Act thread may a (.write write now) { a with repository := r } []

/-- No frame is sent. -/
def Silent (es : List Event) : Prop := ∀ sid type payload, .sent sid type payload ∉ es

/-- A section is one act, one ending, or a silent sequence of them. -/
inductive Acts (thread : ℕ) (may : List UInt8 → Prop) (t : Task) :
    PhoneAuthorization P → PhoneAuthorization P → List Event → Prop
  | shut {a b : PhoneAuthorization P} {es : List Event} : Shuts a (b, es) → Acts thread may t a b es
  | act {a b : PhoneAuthorization P} {es : List Event} :
      Act thread may a t b es → Acts thread may t a b es
  | trans {a b d : PhoneAuthorization P} {es fs : List Event} : Acts thread may t a b es →
      Acts thread may t b d fs → Silent (es ++ fs) → Acts thread may t a d (es ++ fs)

theorem Closing.silent (h : Closing es) : Silent es := by
  intro sid type payload hmem
  cases h _ hmem

theorem mem_announce {type : FrameType} {payload : Option Payload} {e : Event}
    (h : e ∈ (announce sid type payload).1) : e = .changed sid ∨ ∃ p, e = .sent sid type p := by
  unfold announce at h
  split at h
  · next payload =>
    rcases List.mem_cons.mp h with rfl | h
    · exact .inr ⟨payload, rfl⟩
    · exact .inl (List.mem_singleton.mp h)
  · cases h

/-- A section that sends is one act. -/
theorem Acts.silent_or_act {t : Task} (h : Acts thread may t a b es) :
    Silent es ∨ Act thread may a t b es := by
  cases h with
  | shut h => exact .inl h.2.silent
  | act h => exact .inr h
  | trans _ _ h => exact .inl h

/-- What endings and acts preserve, sections preserve. -/
theorem Acts.preserves {I : List Event → PhoneAuthorization P → Prop} {t : Task}
    (hshut : ∀ tr a b es, Shuts a (b, es) → I tr a → I (tr ++ es) b)
    (hact : ∀ tr a b es, Act thread may a t b es → I tr a → I (tr ++ es) b) {tr : List Event}
    (h : Acts thread may t a b es) (ha : I tr a) : I (tr ++ es) b := by
  induction h generalizing tr with
  | shut h => exact hshut tr _ _ _ h ha
  | act h => exact hact tr _ _ _ h ha
  | trans _ _ _ ih ih' =>
    rw [← List.append_assoc]
    exact ih' (ih ha)

/-! ## Every section is a sequence of acts -/

theorem write_published (r : ClientRepository P) (now : ℤ) (written : Bool) (write : Write) :
    r.Published (write.next P r.clients now) (write.run r now written) := by
  cases write with
  | approve client =>
    exact r.approve_published client.clientId client.publicKey client.label now written
  | revoke id => exact r.revoke_published id written
  | renew id => exact r.renew_published id now written

theorem announce_valid {r : ClientAuthResult} (h : authResultValid r = true) :
    announce sid .clientAuthResult (encodeClientAuthResult r) =
      ([.sent sid .clientAuthResult (.clientAuthResult r), .changed sid], true) := by
  simp [announce, encodeClientAuthResult, h]

/-- What is answered to a proof, and the phase it leaves. -/
theorem respond_spec (a : PhoneAuthorization P) (c : Clock) (sid : ℕ) (s : Session)
    {result : ClientAuthResult} (h : authResultValid result = true) :
    ∃ d phase r, Answer result.status phase r.status ∧ Conveys result r ∧
      a.respond c sid s result = (a.put sid { s with phase := phase, deadline := d },
        [.sent sid .clientAuthResult (.clientAuthResult r), .changed sid], true) := by
  obtain ⟨status, reason, expires⟩ := result
  cases status with
  | authorized =>
    have hg : authResultValid ⟨.authorized, .none, expires⟩ = true := by
      simp only [authResultValid, Bool.and_eq_true, decide_eq_true_eq] at h ⊢
      exact ⟨h.1, trivial, h.2.2⟩
    have hreason : reason = .none := by
      simp only [authResultValid, Bool.and_eq_true, decide_eq_true_eq] at h
      exact h.2.1
    exact ⟨s.deadline, .authorized, ⟨.authorized, .none, expires⟩, .authorized,
      .inl (by rw [hreason]), by simp only [respond, grant, announce_valid hg]⟩
  | rejected =>
    exact ⟨c.deadline + REJECTION_FLUSH_MS, .denied, ⟨.rejected, reason, expires⟩, .rejected,
      .inl rfl, by simp only [respond, deny, announce_valid h]⟩
  | pending =>
    simp only [respond, prompt]
    split
    · exact ⟨c.deadline + REJECTION_FLUSH_MS, .denied, ⟨.rejected, .unknown, 0⟩, .cooling,
        .inr ⟨rfl, rfl⟩, by simp only [deny]; rw [announce_valid (by decide)]⟩
    · have hprompt : (⟨.pending, reason, expires⟩ : ClientAuthResult) = ⟨.pending, .none, 0⟩ := by
        simp only [authResultValid, Bool.and_eq_true, decide_eq_true_eq] at h
        rw [h.2.1, h.2.2]
      exact ⟨c.deadline + APPROVAL_TIMEOUT_MS, .pending, ⟨.pending, .none, 0⟩, .prompted,
        .inl hprompt.symm, by rw [announce_valid (by decide)]⟩

/-- How the body of `receive` ends. -/
theorem receiveProof_cases (a : PhoneAuthorization P) (c : Clock) (sid : ℕ) (type : FrameType)
    (proof : Option ClientAuth) :
    a.receiveProof c sid type proof = (a, [], false) ∨
    (∃ s p b es, proof = some p ∧ Proving a sid s ∧ Shuts a (b, es) ∧
      a.receiveProof c sid type proof = (b, .proof sid p :: es, false)) ∨
    (∃ s p message d phase r, proof = some p ∧ type = .clientAuth ∧ Proving a sid s ∧
      clientAuthMessage P s.transport s.phoneBinding s.nonce p.publicKey p.label = some message ∧
      a.readable = true ∧
      Answer (evaluate P (deriveClientId P p.publicKey) p.publicKey message p.signature
        a.repository.clients c.seconds).status phase r.status ∧
      Conveys (evaluate P (deriveClientId P p.publicKey) p.publicKey message p.signature
        a.repository.clients c.seconds) r ∧
      a.receiveProof c sid type proof =
        (a.put sid { s with candidate := some (candidateOf P p), phase := phase, deadline := d },
          [.proof sid p, .evaluated sid a.repository.clients c.seconds,
            .sent sid .clientAuthResult (.clientAuthResult r), .changed sid], true)) := by
  unfold receiveProof
  split
  · exact .inl rfl
  next s hs =>
  split
  · exact .inl rfl
  next hlive =>
  rw [not_not] at hlive
  have hp : Proving a sid s := ⟨hs, hlive.2, hlive.1⟩
  split
  · exact .inl rfl
  next htype =>
  rw [ne_eq, not_not] at htype
  split
  · exact .inl rfl
  next p =>
  split
  · exact .inr (.inl ⟨s, p, a, [], rfl, hp, .refl a, rfl⟩)
  split
  · exact .inr (.inl ⟨s, p, a, [], rfl, hp, .refl a, rfl⟩)
  next message hm =>
  have hshut := shuts_storedSnapshot a c
  split
  · next b es hq =>
    rw [hq] at hshut
    exact .inr (.inl ⟨s, p, b, es, rfl, hp, hshut, rfl⟩)
  · next b es clients hq =>
    obtain ⟨rfl, rfl, rfl, hread⟩ := storedSnapshot_some hq
    obtain ⟨d, phase, r, hans, hconveys, hr⟩ := respond_spec b c sid
      { s with candidate := some (candidateOf P p) } (evaluate_valid b.repository.valid
        (deriveClientId P p.publicKey) p.publicKey message p.signature c.seconds)
    refine .inr (.inr ⟨s, p, message, d, phase, r, rfl, htype, hp, hm, hread, hans, hconveys, ?_⟩)
    simp only [candidateOf] at hr ⊢
    rw [hr]
    rfl

/-- After `finish` the session is closed. -/
theorem finish_closed (a : PhoneAuthorization P) (c : Clock) (sid : ℕ)
    (reason : String) {s : Session}
    (h : (a.finish c sid reason).1.sessions[sid]? = some s) : s.phase = .closed := by
  unfold finish at h
  split at h
  · next hn =>
    rw [hn] at h
    cases h
  · next s₀ hs₀ =>
    split at h
    · next hc =>
      rw [hs₀, Option.some.injEq] at h
      exact h ▸ hc
    · simp only [getElem?_put, lt_of_session hs₀, and_self, if_true, Option.some.injEq] at h
      exact h ▸ rfl

/-- A session that waits for the PC or the user outlives the tick only before its deadline. -/
theorem tickLocked_live (a : PhoneAuthorization P) (c : Clock) (sid : ℕ) (s : Session)
    (hs : (a.tickLocked c sid).1.sessions[sid]? = some s)
    (hact : (a.tickLocked c sid).1.active = some sid) (hp : s.phase = .proof ∨ s.phase = .pending) :
    a.tickLocked c sid = (a, []) ∧ c.tick < s.deadline := by
  have hclosed : s.phase ≠ .closed := by rcases hp with h | h <;> rw [h] <;> decide
  have hshut := (shuts_tickLocked a c sid).1
  have hact₀ : a.active = some sid := by
    rcases hshut.active with h | ⟨h, -⟩
    · exact h ▸ hact
    · rw [h] at hact
      cases hact
  obtain ⟨s₀, hs₀, hsame | hsame⟩ := hshut.session sid s hs
  · subst hsame
    have hauth : s.phase ≠ .authorized := by rcases hp with h | h <;> rw [h] <;> decide
    unfold tickLocked at hs ⊢
    simp only [hs₀, hact₀, ne_eq, not_true, hclosed, hauth, or_self, if_false] at hs ⊢
    split at hs
    · exact absurd (finish_closed a c sid _ hs) hclosed
    · next hd => exact ⟨if_neg hd, by omega⟩
  · exact absurd (congrArg Session.phase hsame) hclosed

/-- Receiving a frame is an act. -/
theorem acts_receive (a : PhoneAuthorization P) (c : Clock) (thread sid : ℕ) (type : FrameType)
    (proof : Option ClientAuth) :
    Acts thread (fun id => a.grantable c (.enter (.receive sid type proof)) = some id)
      (.enter (.receive sid type proof)) a (a.receive c sid type proof).1
      (a.receive c sid type proof).2 := by
  have htick := shuts_tickLocked a c sid
  have hlive := tickLocked_live a c sid
  unfold receive
  generalize a.tickLocked c sid = q at htick hlive ⊢
  obtain ⟨a₁, es₁⟩ := q
  simp only
  rcases receiveProof_cases a₁ c sid type proof with h | ⟨s, p, b, es, rfl, hp, hb, h⟩ |
    ⟨s, p, message, d, phase, r, rfl, rfl, hp, hm, hread, hans, hconveys, h⟩ <;> rw [h]
  · simp only [List.append_nil]
    exact .shut (htick.trans (shuts_finish a₁ c sid _))
  · have hfin := shuts_finish b c sid "PC authorization proof rejected"
    simp only [List.append_assoc]
    have hclosing := hb.trans hfin
    refine .trans (.shut htick) (.act (.refused hp hclosing fun s' => finish_closed b c sid _)) ?_
    intro sid' type' payload hmem
    simp only [List.mem_append, List.mem_cons, reduceCtorEq, false_or] at hmem
    rcases hmem with hmem | hmem | hmem
    · exact htick.2.silent _ _ _ hmem
    · exact hb.2.silent _ _ _ hmem
    · exact hfin.2.silent _ _ _ hmem
  · obtain ⟨hsame, hd⟩ := hlive s hp.session hp.active (.inl hp.phase)
    obtain ⟨rfl, rfl⟩ := Prod.mk.inj hsame
    refine .act (.answered hp hm hans (fun hr => ?_) hconveys)
    have hst : (evaluate P (deriveClientId P p.publicKey) p.publicKey message p.signature
        a₁.repository.clients c.seconds).status = .authorized := by
      rw [hr] at hans
      generalize (evaluate P _ _ _ _ _ _).status = q at hans
      cases hans
      rfl
    simp [grantable, hp.session, hm, hp.active, hp.phase, hd, hread, hst]

/-- `requireLiveApproval` finds the prompt live before its deadline, or throws. -/
theorem requireLiveApproval_cases (a : PhoneAuthorization P) (c : Clock) (sid : ℕ) :
    (∃ b es, a.requireLiveApproval c sid = (b, es, none) ∧ Shuts a (b, es)) ∨
    ∃ s, a.requireLiveApproval c sid = (a, [], some s) ∧ Prompting a sid s ∧
      c.tick < s.deadline := by
  have htick := shuts_tickLocked a c sid
  have hlive := tickLocked_live a c sid
  unfold requireLiveApproval
  generalize a.tickLocked c sid = q at htick hlive ⊢
  obtain ⟨a₁, es₁⟩ := q
  simp only
  split
  · exact .inl ⟨a₁, es₁, rfl, htick⟩
  · next s hs =>
    split
    · next hl =>
      obtain ⟨hsame, hd⟩ := hlive s hs hl.1 (.inr hl.2)
      obtain ⟨rfl, rfl⟩ := Prod.mk.inj hsame
      exact .inr ⟨s, rfl, ⟨hs, hl.2, hl.1⟩, hd⟩
    · exact .inl ⟨a₁, es₁, rfl, htick⟩

/-- A session found authorized is the active one, of a client that is not revoked. -/
theorem checkAuthorized_true (h : (a.checkAuthorized c sid).2.2 = true) :
    (a.checkAuthorized c sid).1 = a ∧ (a.checkAuthorized c sid).2.1 = [] ∧
    ∃ s client, a.sessions[sid]? = some s ∧ s.phase = .authorized ∧ a.active = some sid ∧
      s.candidate = some client ∧ client.clientId ∉ a.revokedIds := by
  unfold checkAuthorized at h ⊢
  split at h
  · cases h
  next s hs =>
  split at h
  · cases h
  next hlive =>
  simp only [not_or, not_not, ne_eq] at hlive
  split at h
  · cases h
  next client hcl =>
  split at h
  · cases h
  next hrev =>
  split at h
  · cases h
  next b es clients hq =>
  obtain ⟨rfl, rfl, -, -⟩ := storedSnapshot_some hq
  split at h
  · next hc =>
    rw [if_neg (by simp [hlive]), if_neg hrev]
    simp only [hc, if_true]
    exact ⟨trivial, trivial, s, client, hs, hlive.1, hlive.2.1, hcl, hrev⟩
  · cases h

theorem acts_isAuthorized (a : PhoneAuthorization P) (c : Clock) (sid : ℕ) :
    Acts thread may (.enter (.isAuthorized sid)) a (a.isAuthorized c sid).1
      (a.isAuthorized c sid).2.1 := by
  have hshut := shuts_checkAuthorized a c sid
  unfold isAuthorized
  simp only
  by_cases hyes : (a.checkAuthorized c sid).2.2 = true
  · obtain ⟨ha, hes, s, client, hs, hp, hact, hcl, hrev⟩ := checkAuthorized_true hyes
    simp only [ha, hes, hyes, hs, hcl, if_true, Option.bind_some, Option.map_some,
      Option.toList_some, List.map_cons, List.map_nil, List.nil_append]
    exact .act (.reported hs hp hact hcl hrev)
  · simp only [hyes, Bool.false_eq_true, if_false, List.append_nil]
    exact .shut hshut

theorem acts_beginApproval (a : PhoneAuthorization P) (c : Clock) (thread sid : ℕ) :
    Acts thread may (.enter (.approve sid)) a (a.beginApproval c thread sid).1
      (a.beginApproval c thread sid).2.1 := by
  unfold beginApproval
  rcases requireLiveApproval_cases a c sid with ⟨b, es, h, hshut⟩ | ⟨s, h, hp, -⟩ <;> rw [h]
  · exact .shut hshut
  · simp only
    split
    · exact .shut (.refl a)
    · next client hcl => exact .act (.approving hp hcl)

theorem single_some {clients : List Client} {id : List UInt8} {c : Client}
    (h : single clients id = some c) : c ∈ clients ∧ c.clientId = id := by
  unfold single at h
  split at h
  · next d hd =>
    rw [Option.some.injEq] at h
    have hmem : c ∈ clients.filter fun c => c.clientId == id := by rw [hd, h]; simp
    simpa using List.mem_filter.mp hmem
  · cases h

/-- So is the last section of an approval. -/
theorem acts_completeApproval (a : PhoneAuthorization P) (c : Clock) (thread sid : ℕ)
    (proposed : Client) :
    Acts thread (fun id => a.grantable c (.completeApproval sid proposed) = some id)
      (.completeApproval sid proposed) a (a.completeApproval c sid proposed).1
      (a.completeApproval c sid proposed).2 := by
  unfold completeApproval
  rcases requireLiveApproval_cases a c sid with ⟨b, es, h, hshut⟩ | ⟨s, h, hp, hd⟩ <;> rw [h]
  · exact .shut hshut
  simp only
  have hstored := shuts_storedSnapshot a c
  split
  · next hq =>
    rw [hq] at hstored
    exact .shut hstored
  next b es clients hq =>
  obtain ⟨rfl, rfl, rfl, hread⟩ := storedSnapshot_some hq
  split
  · exact .shut (.refl b)
  next saved hsingle =>
  obtain ⟨-, -, -, h0, hmax, hlt, -⟩ := b.repository.valid.2.1 saved (single_some hsingle).1
  have hvalid : authResultValid ⟨.authorized, .none, saved.expiresAtUnixSeconds⟩ = true := by
    simp [authResultValid]
    omega
  have hmay : b.grantable c (.completeApproval sid proposed) = some proposed.clientId := by
    simp [grantable, hp.session, hp.active, hp.phase, hd, hread, hsingle]
  have hact :
      Act thread (fun id => b.grantable c (.completeApproval sid proposed) = some id) b _ _ _ :=
    .granted hp hsingle (r := ⟨.authorized, .none, saved.expiresAtUnixSeconds⟩) rfl hmay rfl
  simpa [grant, announce_valid hvalid] using Acts.act hact

theorem acts_reject (a : PhoneAuthorization P) (c : Clock) (sid : ℕ) :
    Acts thread may (.enter (.reject sid)) a (a.reject c sid).1 (a.reject c sid).2 := by
  unfold reject
  rcases requireLiveApproval_cases a c sid with ⟨b, es, h, hshut⟩ | ⟨s, h, hp, -⟩ <;> rw [h]
  · exact .shut hshut
  have hact : Act thread may a _ _ _ := .rejected hp (d := c.deadline + REJECTION_FLUSH_MS)
    (u := c.millis + UNKNOWN_COOLDOWN_MS) (r := ⟨.rejected, .unknown, 0⟩) rfl rfl
  simpa [deny, announce_valid (r := ⟨.rejected, .unknown, 0⟩) (by decide)] using Acts.act hact

theorem acts_start (a : PhoneAuthorization P) (c : Clock) (sid : ℕ) :
    Acts thread may (.enter (.start sid)) a (a.start c sid).1 (a.start c sid).2 := by
  unfold start
  split
  · exact .shut (.refl a)
  next s hs =>
  split
  · next hl =>
    exact .act (.started hs hl.2 hl.1)
  · exact .shut (.refl a)

theorem acts_openSession (a : PhoneAuthorization P) (c : Clock) (transport : AuthTransport)
    (phoneBinding nonce : List UInt8) :
    Acts thread may (.enter (.openSession transport phoneBinding nonce)) a
      (a.openSession c transport phoneBinding nonce).1
      (a.openSession c transport phoneBinding nonce).2 := by
  unfold openSession
  split
  · exact .shut (.refl a)
  next hopen =>
  split
  · exact .shut (.refl a)
  · simp only [Bool.or_eq_true, not_or, Bool.not_eq_true, Option.isSome_eq_false_iff,
      Option.isNone_iff_eq_none] at hopen
    exact .act (.opened hopen.2)

/-- And the first section of a revocation. -/
theorem acts_beginRevocation (a : PhoneAuthorization P) (c : Clock) (id : List UInt8) :
    Acts thread may (.enter (.revoke id)) a (a.beginRevocation c id).1
      (a.beginRevocation c id).2.1 := by
  unfold beginRevocation
  split
  · exact .shut (.refl a)
  · have hcheck := shuts_checkActive { a with revokedIds := id :: a.revokedIds } c
    have hmem : id ∈ ({ a with revokedIds := id :: a.revokedIds }.checkActive c).1.revokedIds := by
      rw [hcheck.1.revokedIds]
      exact List.mem_cons_self
    generalize { a with revokedIds := id :: a.revokedIds }.checkActive c = q at hcheck hmem ⊢
    obtain ⟨b, es⟩ := q
    have hsilent : Silent (es ++ [Event.revoked id]) := by
      intro sid type payload hmem
      rcases List.mem_append.mp hmem with hmem | hmem
      · exact hcheck.2.silent _ _ _ hmem
      · simp at hmem
    have hrest : Acts thread may (.enter (.revoke id)) { a with revokedIds := id :: a.revokedIds } b
        (es ++ [Event.revoked id]) := .trans (.shut hcheck) (.act (.revoked hmem)) hsilent
    have hall := Acts.trans (.act .revoking) hrest hsilent
    rwa [List.nil_append] at hall

/-- Every task is a sequence of acts. -/
theorem acts_runTask (a : PhoneAuthorization P) (c : Clock) (written : Bool) (thread : ℕ)
    (ts : List Task) (t : Task) :
    Acts thread (fun id => a.grantable c t = some id) t a (a.runTask c written thread ts t).1
      (a.runTask c written thread ts t).2.1 := by
  cases t with
  | enter call =>
    cases call with
    | openSession transport phoneBinding nonce =>
      exact acts_openSession a c transport phoneBinding nonce
    | start sid => exact acts_start a c sid
    | pending sid => exact .shut (shuts_tickLocked a c sid)
    | isAuthorized sid => exact acts_isAuthorized a c sid
    | onHostHello sid => exact .shut (shuts_onHostHello a c sid)
    | receive sid type proof => exact acts_receive a c thread sid type proof
    | approve sid =>
      have h : Acts thread (fun id => a.grantable c (.enter (.approve sid)) = some id) _ _ _ _ :=
        acts_beginApproval a c thread sid
      simp only [runTask, enter]
      generalize a.beginApproval c thread sid = q at h ⊢
      obtain ⟨b, es, _ | client⟩ := q <;> exact h
    | reject sid => exact acts_reject a c sid
    | closeSession sid => exact .shut (shuts_finish a c sid _)
    | clients => exact .shut (shuts_storedSnapshot a c)
    | revoke id =>
      have h : Acts thread (fun i => a.grantable c (.enter (.revoke id)) = some i) _ _ _ _ :=
        acts_beginRevocation a c id
      simp only [runTask, enter]
      generalize a.beginRevocation c id = q at h ⊢
      obtain ⟨b, es, _ | _⟩ := q <;> exact h
    | renew id => exact .shut (.refl a)
    | tick => exact .shut (shuts_tick a c)
    | close => exact .shut (shuts_close a c)
  | stored write =>
    simp only [runTask]
    split <;> exact .shut (.refl a)
  | write write now =>
    have hkept (h : (write.run a.repository now written).2 ≠ .saved) :
        (write.run a.repository now written).1.clients = a.repository.clients := by
      rcases write_published a.repository now written write with hsaved | hkept
      · exact absurd hsaved.1 h
      · exact hkept.2
    simp only [runTask]
    split
    · next r hq =>
      rcases write_published a.repository now written write with ⟨-, hnext⟩ | ⟨hnot, -⟩
      · have hw : Act thread (fun id => a.grantable c (.write write now) = some id) a
            (.write write now) _ _ := .wrote hnext
        rw [hq] at hw
        exact .act hw
      · exact absurd (congrArg Prod.snd hq) hnot
    · next r hq => exact .act (.kept (by simpa [hq] using hkept (by rw [hq]; nofun)))
    · next r hq => exact .act (.kept (by simpa [hq] using hkept (by rw [hq]; nofun)))
  | storageFailed => exact .shut (shuts_storageFailed a c)
  | completeApproval sid proposed => exact acts_completeApproval a c thread sid proposed
  | recheck => exact .shut (shuts_checkActive a c)

end PhoneAuthorization
end MobileWebcamBridge
