import MobileWebcamBridge.Phone.PhoneAuthorization.Sections

/-!
# What a section of `PhoneAuthorization` does in time

It stops the live session, opens one, or turns the live one into its next phase with a deadline of
its own; only what leaves a prompt moves the cooldown.
-/

set_option autoImplicit false

namespace MobileWebcamBridge
namespace PhoneAuthorization

open Wire ClientAuthorization

variable {P : Platform} {a b d : PhoneAuthorization P} {c : Clock} {sid : ℕ}

/-! ## What a section does to the sessions -/

/-- `b` is `a` with the live session ended, or as it was. -/
structure Stops (c : Clock) (a b : PhoneAuthorization P) : Prop where
  session : ∀ (sid : ℕ) (s : Session), b.sessions[sid]? = some s →
    ∃ s₀, a.sessions[sid]? = some s₀ ∧ (s = s₀ ∨ s = { s₀ with phase := .closed })
  length : b.sessions.length = a.sessions.length
  active : b.active = a.active ∨ (b.active = none ∧
    ∀ (sid : ℕ) (s : Session), a.active = some sid → b.sessions[sid]? = some s → s.phase = .closed)
  kept : ∀ sid : ℕ, b.active = some sid → b.sessions[sid]? = a.sessions[sid]?
  flags : b.active = none ∨ (b.failed = a.failed ∧ b.closed = a.closed)
  cooldown : b.unknownCooldownUntil = c.finish + UNKNOWN_COOLDOWN_MS ∨
    (b.unknownCooldownUntil = a.unknownCooldownUntil ∧ ∀ (sid : ℕ) (s : Session),
      a.sessions[sid]? = some s → s.phase = .pending → b.sessions[sid]? = some s)

/-- The next phases of the live session, with the deadline each is given. -/
inductive Turn (c : Clock) (cooldown : ℤ) : Session → Session → Prop
  | started {s s' : Session} : s.phase = .new → s'.phase = .proof →
      s'.deadline = c.deadline + PROOF_TIMEOUT_MS → Turn c cooldown s s'
  | granted {s s' : Session} : s.phase = .proof ∨ s.phase = .pending → s'.phase = .authorized →
      Turn c cooldown s s'
  | denied {s s' : Session} : s.phase = .proof → s'.phase = .denied →
      s'.deadline = c.deadline + REJECTION_FLUSH_MS → Turn c cooldown s s'
  | prompted {s s' : Session} : s.phase = .proof → s'.phase = .pending → cooldown ≤ c.millis →
      s'.deadline = c.deadline + APPROVAL_TIMEOUT_MS → Turn c cooldown s s'

/-- What a section does, in time. -/
inductive Deed (c : Clock) (a : PhoneAuthorization P) : PhoneAuthorization P → Prop
  | stops {b : PhoneAuthorization P} : Stops c a b → Deed c a b
  | opened {new : Session} : a.active = none → a.failed = false → a.closed = false →
      new.phase = .new →
      Deed c a { a with active := some a.sessions.length, sessions := a.sessions ++ [new] }
  | turned {sid : ℕ} {s s' : Session} {ids : List (List UInt8)} : a.sessions[sid]? = some s →
      a.active = some sid → Turn c a.unknownCooldownUntil s s' →
      Deed c a ({ a with revokedIds := ids }.put sid s')
  | rejected {sid : ℕ} {s s' : Session} : a.sessions[sid]? = some s → a.active = some sid →
      s.phase = .pending → s'.phase = .denied → s'.deadline = c.deadline + REJECTION_FLUSH_MS →
      Deed c a ({ a with unknownCooldownUntil := c.millis + UNKNOWN_COOLDOWN_MS }.put sid s')

theorem Stops.of_same (hsessions : b.sessions = a.sessions) (hactive : b.active = a.active)
    (hfailed : b.failed = a.failed) (hclosed : b.closed = a.closed)
    (hcooldown : b.unknownCooldownUntil = a.unknownCooldownUntil) : Stops c a b where
  session sid s hs := ⟨s, hsessions ▸ hs, .inl rfl⟩
  length := by rw [hsessions]
  active := .inl hactive
  kept sid _ := by rw [hsessions]
  flags := .inr ⟨hfailed, hclosed⟩
  cooldown := .inr ⟨hcooldown, fun sid s hs _ => hsessions ▸ hs⟩

theorem Stops.refl (a : PhoneAuthorization P) : Stops c a a := .of_same rfl rfl rfl rfl rfl

theorem Stops.trans (h : Stops c a b) (h' : Stops c b d) : Stops c a d where
  session sid s hs := by
    obtain ⟨s₁, hs₁, hstep'⟩ := h'.session sid s hs
    obtain ⟨s₀, hs₀, hstep⟩ := h.session sid s₁ hs₁
    refine ⟨s₀, hs₀, ?_⟩
    rcases hstep with rfl | rfl
    · exact hstep'
    · rcases hstep' with rfl | rfl
      · exact .inr rfl
      · exact .inr rfl
  length := h'.length.trans h.length
  active := by
    rcases h'.active with hd | ⟨hd, hclosed⟩
    · rcases h.active with hb | ⟨hb, hclosed⟩
      · exact .inl (hd.trans hb)
      · refine .inr ⟨hd.trans hb, fun sid s hsid hs => ?_⟩
        obtain ⟨s₁, hs₁, hstep⟩ := h'.session sid s hs
        have hphase := hclosed sid s₁ hsid hs₁
        rcases hstep with rfl | rfl
        · exact hphase
        · rfl
    · rcases h.active with hb | ⟨hb, hbefore⟩
      · exact .inr ⟨hd, fun sid s hsid hs => hclosed sid s (hb.trans hsid) hs⟩
      · refine .inr ⟨hd, fun sid s hsid hs => ?_⟩
        obtain ⟨s₁, hs₁, hstep⟩ := h'.session sid s hs
        have hphase := hbefore sid s₁ hsid hs₁
        rcases hstep with rfl | rfl
        · exact hphase
        · rfl
  kept sid hsid := by
    have hb : b.active = some sid := by
      rcases h'.active with hd | ⟨hd, -⟩
      · exact hd ▸ hsid
      · rw [hd] at hsid
        cases hsid
    rw [h'.kept sid hsid, h.kept sid hb]
  flags := by
    rcases h'.flags with hd | ⟨hf', hc'⟩
    · exact .inl hd
    · rcases h.flags with hb | ⟨hf, hc⟩
      · rcases h'.active with hd | ⟨hd, -⟩
        · exact .inl (hd.trans hb)
        · exact .inl hd
      · exact .inr ⟨hf'.trans hf, hc'.trans hc⟩
  cooldown := by
    rcases h'.cooldown with hset | ⟨hsame', hkept'⟩
    · exact .inl hset
    · rcases h.cooldown with hset | ⟨hsame, hkept⟩
      · exact .inl (hsame'.trans hset)
      · refine .inr ⟨hsame'.trans hsame, fun sid s hs hp => ?_⟩
        exact hkept' sid s (hkept sid s hs hp) hp

/-- Finishing a session only stops it. -/
theorem stops_finish (a : PhoneAuthorization P) (c : Clock) (sid : ℕ) (reason : String) :
    Stops c a (a.finish c sid reason).1 := by
  have hends := (shuts_finish a c sid reason).1
  refine ⟨hends.session, hends.length, hends.active, ?_, ?_, ?_⟩
  · intro i hi
    unfold finish at hi ⊢
    split
    · rfl
    next s hs =>
    rw [hs] at hi
    split
    · rfl
    next hlive =>
    -- a session that is still active is not the one that ended
    have hne : sid ≠ i := by
      rintro rfl
      simp only [if_neg hlive] at hi
      split at hi
      · cases hi
      · next hother => exact hother hi
    simp [getElem?_put, hne]
  · unfold finish
    split
    · exact .inr ⟨rfl, rfl⟩
    split
    · exact .inr ⟨rfl, rfl⟩
    · exact .inr ⟨rfl, rfl⟩
  · unfold finish
    split
    · exact .inr ⟨rfl, fun _ _ hs _ => hs⟩
    next s hs =>
    split
    · exact .inr ⟨rfl, fun _ _ hs _ => hs⟩
    by_cases hpending : s.phase = .pending
    · exact .inl (if_pos hpending)
    · refine .inr ⟨if_neg hpending, fun i s' hs' hp => ?_⟩
      have hne : sid ≠ i := by
        rintro rfl
        obtain rfl := Option.some.inj (hs.symm.trans hs')
        exact hpending hp
      simpa [getElem?_put, hne] using hs'

/-- The active session is one that has not ended. -/
def Slot (a : PhoneAuthorization P) : Prop :=
  ∀ sid : ℕ, a.active = some sid → ∃ s, a.sessions[sid]? = some s ∧ s.phase ≠ .closed

/-- Ending the active session leaves none. -/
theorem active_finish {a : PhoneAuthorization P} (hslot : Slot a) {sid : ℕ}
    (hactive : a.active = some sid) (c : Clock) (reason : String) :
    (a.finish c sid reason).1.active = none := by
  obtain ⟨s, hs, hlive⟩ := hslot sid hactive
  unfold finish
  simp [hs, hlive, hactive]

/-- Setting a latching flag and ending the active session. -/
theorem stops_latch {a : PhoneAuthorization P} (hslot : Slot a) {sid : ℕ}
    (hactive : a.active = some sid) (c : Clock) (reason : String) (f k : Bool) :
    Stops c a ({ a with failed := f, closed := k }.finish c sid reason).1 := by
  have hslot' : Slot { a with failed := f, closed := k } := fun i hi => hslot i hi
  have hstops := stops_finish { a with failed := f, closed := k } c sid reason
  exact ⟨hstops.session, hstops.length, hstops.active, hstops.kept,
    .inl (active_finish hslot' hactive c reason), hstops.cooldown⟩

theorem stops_flags {a : PhoneAuthorization P} (hactive : a.active = none) (f k : Bool) :
    Stops c a { a with failed := f, closed := k } where
  session _ s hs := ⟨s, hs, .inl rfl⟩
  length := rfl
  active := .inl rfl
  kept _ _ := rfl
  flags := .inl hactive
  cooldown := .inr ⟨rfl, fun _ _ hs _ => hs⟩

section

variable (hslot : Slot a)
include hslot

theorem stops_storageFailed (c : Clock) : Stops c a (a.storageFailed c).1 := by
  unfold storageFailed
  dsimp only
  split
  · next hnone => exact stops_flags hnone true a.closed
  · next sid hactive => exact stops_latch hslot hactive c _ true a.closed

theorem stops_close (c : Clock) : Stops c a (a.close c).1 := by
  unfold close
  dsimp only
  split
  · next hnone => exact stops_flags hnone a.failed true
  · next sid hactive => exact stops_latch hslot hactive c _ a.failed true

theorem stops_storedSnapshot (c : Clock) : Stops c a (a.storedSnapshot c).1 := by
  unfold storedSnapshot
  split
  · exact .refl a
  · split
    · exact .refl a
    · exact stops_storageFailed hslot c

theorem stops_checkAuthorized (c : Clock) (sid : ℕ) : Stops c a (a.checkAuthorized c sid).1 := by
  have hfinish (b : PhoneAuthorization P) :=
    stops_finish b c sid "PC authorization revoked or expired"
  unfold checkAuthorized
  split
  · exact .refl a
  split
  · exact .refl a
  split
  · exact .refl a
  split
  · exact hfinish a
  have hstored := stops_storedSnapshot hslot c
  split
  · next hq => rwa [hq] at hstored
  · next hq =>
    rw [hq] at hstored
    split
    · exact hstored
    · exact hstored.trans (hfinish _)

theorem stops_checkActive (c : Clock) : Stops c a (a.checkActive c).1 := by
  unfold checkActive
  split
  · exact .refl a
  · exact stops_checkAuthorized hslot c _

theorem stops_tickLocked (c : Clock) (sid : ℕ) : Stops c a (a.tickLocked c sid).1 := by
  unfold tickLocked
  split
  · exact .refl a
  split
  · exact .refl a
  split
  · exact stops_checkAuthorized hslot c sid
  split
  · exact stops_finish a c sid _
  · exact .refl a

theorem stops_tick (c : Clock) : Stops c a (a.tick c).1 := by
  unfold tick
  split
  · exact .refl a
  split
  · exact .refl a
  · exact stops_tickLocked hslot c _

theorem stops_onHostHello (c : Clock) (sid : ℕ) : Stops c a (a.onHostHello c sid).1 := by
  have htick := stops_tickLocked hslot c sid
  unfold onHostHello
  dsimp only
  split
  · exact htick
  split
  · exact htick
  · exact htick.trans (stops_finish _ c sid _)

theorem stops_beginRevocation (c : Clock) (id : List UInt8) :
    Stops c a (a.beginRevocation c id).1 := by
  unfold beginRevocation
  split
  · exact .refl a
  · have hsame : Stops c a { a with revokedIds := id :: a.revokedIds } :=
      .of_same rfl rfl rfl rfl rfl
    have hslot' : Slot { a with revokedIds := id :: a.revokedIds } := fun i hi => hslot i hi
    exact hsame.trans (stops_checkActive hslot' c)

omit hslot in
/-- What `receive` answers turns the session. -/
theorem respond_turn (c : Clock) {sid : ℕ} {s : Session} (hphase : s.phase = .proof)
    {result : ClientAuthResult} (hvalid : authResultValid result = true) :
    ∃ s' es, Turn c a.unknownCooldownUntil s s' ∧
      a.respond c sid s result = (a.put sid s', es, true) := by
  obtain ⟨status, reason, expires⟩ := result
  cases status with
  | authorized =>
    have hgrant : authResultValid ⟨.authorized, .none, expires⟩ = true := by
      simp only [authResultValid, Bool.and_eq_true, decide_eq_true_eq] at hvalid ⊢
      exact ⟨hvalid.1, trivial, hvalid.2.2⟩
    refine ⟨{ s with phase := .authorized }, [.sent sid .clientAuthResult (.clientAuthResult
      ⟨.authorized, .none, expires⟩), .changed sid], .granted (.inl hphase) rfl, ?_⟩
    simp only [respond, grant, announce_valid hgrant]
  | rejected =>
    refine ⟨{ s with phase := .denied, deadline := c.deadline + REJECTION_FLUSH_MS },
      [.sent sid .clientAuthResult (.clientAuthResult ⟨.rejected, reason, expires⟩), .changed sid],
      .denied hphase rfl rfl, ?_⟩
    simp only [respond, deny, announce_valid hvalid]
  | pending =>
    simp only [respond, prompt]
    split
    · refine ⟨{ s with phase := .denied, deadline := c.deadline + REJECTION_FLUSH_MS },
        [.sent sid .clientAuthResult (.clientAuthResult ⟨.rejected, .unknown, 0⟩), .changed sid],
        .denied hphase rfl rfl, ?_⟩
      simp only [deny]
      rw [announce_valid (by decide)]
    · next hcooled =>
      have hcooled : a.unknownCooldownUntil ≤ c.millis := by omega
      refine ⟨{ s with phase := .pending, deadline := c.deadline + APPROVAL_TIMEOUT_MS },
        [.sent sid .clientAuthResult (.clientAuthResult ⟨.pending, .none, 0⟩), .changed sid],
        .prompted hphase rfl hcooled rfl, ?_⟩
      rw [announce_valid (by decide)]

/-- The body of `receive` turns the session that proves itself, or throws. -/
theorem receiveProof_time (c : Clock) (sid : ℕ) (type : FrameType) (proof : Option ClientAuth) :
    (∃ b es, a.receiveProof c sid type proof = (b, es, false) ∧ Stops c a b) ∨
    ∃ s s' es, a.sessions[sid]? = some s ∧ a.active = some sid ∧ s.phase = .proof ∧
      Turn c a.unknownCooldownUntil s s' ∧
      a.receiveProof c sid type proof = (a.put sid s', es, true) := by
  have hthrown {es : List Event} : ∃ b fs, ((a, es, false) :
      PhoneAuthorization P × List Event × Bool) = (b, fs, false) ∧ Stops c a b :=
    ⟨a, es, rfl, .refl a⟩
  unfold receiveProof
  split
  · exact .inl hthrown
  next s hs =>
  split
  · exact .inl hthrown
  next hlive =>
  obtain ⟨hactive, hphase⟩ := not_not.mp hlive
  split
  · exact .inl hthrown
  split
  · exact .inl hthrown
  next p =>
  split
  · exact .inl hthrown
  split
  · exact .inl hthrown
  next message _ =>
  have hstored := stops_storedSnapshot hslot c
  split
  · next b es hq =>
    rw [hq] at hstored
    exact .inl ⟨b, _, rfl, hstored⟩
  · next b es clients hq =>
    obtain ⟨rfl, rfl, rfl, -⟩ := storedSnapshot_some hq
    have hvalid := evaluate_valid b.repository.valid (deriveClientId P p.publicKey) p.publicKey
      message p.signature c.seconds
    have hcandidate : ({ s with candidate := some (candidateOf P p) } : Session).phase = .proof :=
      hphase
    obtain ⟨s', es, hturn, hresponse⟩ : ∃ s' es, Turn c b.unknownCooldownUntil _ s' ∧
        b.respond c sid _ _ = (b.put sid s', es, true) := respond_turn c hcandidate hvalid
    refine .inr ⟨s, s', [.proof sid p, .evaluated sid b.repository.clients c.seconds] ++ es,
      hs, hactive, hphase, ?_, ?_⟩
    · -- the candidate has no part in the turn
      cases hturn with
      | started hnew _ _ => cases hphase.symm.trans hnew
      | granted _ hp => exact .granted (.inl hphase) hp
      | denied _ hp hd => exact .denied hphase hp hd
      | prompted _ hp hc hd => exact .prompted hphase hp hc hd
    · simp only [candidateOf] at hresponse ⊢
      rw [hresponse]
      rfl

/-- Receiving a frame is one deed. -/
theorem deed_receive (c : Clock) (sid : ℕ) (type : FrameType) (proof : Option ClientAuth) :
    Deed c a (a.receive c sid type proof).1 := by
  have htick := stops_tickLocked hslot c sid
  have hlive := tickLocked_live a c sid
  have hslot₁ : Slot (a.tickLocked c sid).1 := by
    intro i hi
    have hbefore : a.active = some i := by
      rcases htick.active with h | ⟨h, -⟩
      · exact h ▸ hi
      · cases h.symm.trans hi
    rw [htick.kept i hi]
    exact hslot i hbefore
  unfold receive
  generalize a.tickLocked c sid = q at htick hlive hslot₁ ⊢
  obtain ⟨a₁, es₁⟩ := q
  simp only at htick hlive hslot₁ ⊢
  rcases receiveProof_time hslot₁ c sid type proof with ⟨b, es, hr, hstops⟩ |
    ⟨s, s', es, hs, hactive, hphase, hturn, hr⟩
  · rw [hr]
    exact .stops (htick.trans (hstops.trans (stops_finish b c sid _)))
  · rw [hr]
    -- a proof that is answered was not expired by the tick
    obtain ⟨hsame, -⟩ := hlive s hs hactive (.inl hphase)
    obtain ⟨rfl, rfl⟩ := Prod.mk.inj hsame
    exact .turned hs hactive hturn

/-- `requireLiveApproval` finds a live prompt and changes nothing, or throws. -/
theorem requireLiveApproval_time (c : Clock) (sid : ℕ) :
    (∃ b es, a.requireLiveApproval c sid = (b, es, none) ∧ Stops c a b) ∨
      ∃ s, a.requireLiveApproval c sid = (a, [], some s) ∧ Prompting a sid s := by
  have htick := stops_tickLocked hslot c sid
  rcases requireLiveApproval_cases a c sid with ⟨b, es, h, -⟩ | ⟨s, h, hp, -⟩
  · refine .inl ⟨b, es, h, ?_⟩
    have hb : b = (a.tickLocked c sid).1 := by
      unfold requireLiveApproval at h
      dsimp only at h
      split at h
      · exact (Prod.mk.inj h).1.symm
      · exact (Prod.mk.inj h).1.symm
    exact hb ▸ htick
  · exact .inr ⟨s, h, hp⟩

/-- So is the first section of an approval. -/
theorem deed_beginApproval (c : Clock) (thread sid : ℕ) :
    Deed c a (a.beginApproval c thread sid).1 := by
  unfold beginApproval
  rcases requireLiveApproval_time hslot c sid with ⟨b, es, h, hstops⟩ | ⟨s, h, -⟩
  · rw [h]
    exact .stops hstops
  · rw [h]
    dsimp only
    split
    · exact .stops (.refl a)
    · exact .stops (.refl a)

/-- And its last section. -/
theorem deed_completeApproval (c : Clock) (sid : ℕ) (proposed : Client) :
    Deed c a (a.completeApproval c sid proposed).1 := by
  unfold completeApproval
  rcases requireLiveApproval_time hslot c sid with ⟨b, es, h, hstops⟩ | ⟨s, h, hp⟩
  · rw [h]
    exact .stops hstops
  rw [h]
  dsimp only
  have hstored := stops_storedSnapshot hslot c
  split
  · next hq =>
    rw [hq] at hstored
    exact .stops hstored
  next b es clients hq =>
  obtain ⟨rfl, rfl, -, -⟩ := storedSnapshot_some hq
  split
  · exact .stops (.refl b)
  next saved _ =>
  have hturn : Turn c b.unknownCooldownUntil s { s with phase := .authorized } :=
    .granted (.inr hp.phase) rfl
  exact .turned hp.session hp.active hturn

theorem deed_reject (c : Clock) (sid : ℕ) : Deed c a (a.reject c sid).1 := by
  unfold reject
  rcases requireLiveApproval_time hslot c sid with ⟨b, es, h, hstops⟩ | ⟨s, h, hp⟩
  · rw [h]
    exact .stops hstops
  · rw [h]
    exact .rejected hp.session hp.active hp.phase rfl rfl

omit hslot in
theorem deed_start (c : Clock) (sid : ℕ) : Deed c a (a.start c sid).1 := by
  unfold start
  split
  · exact .stops (.refl a)
  next s hs =>
  split
  · next hl =>
    have hturn : Turn c a.unknownCooldownUntil s
        { s with phase := .proof, deadline := c.deadline + PROOF_TIMEOUT_MS } :=
      .started hl.2 rfl rfl
    exact .turned hs hl.1 hturn
  · exact .stops (.refl a)

omit hslot in
/-- And opening a session. -/
theorem deed_openSession (c : Clock) (transport : AuthTransport) (phoneBinding nonce : List UInt8) :
    Deed c a (a.openSession c transport phoneBinding nonce).1 := by
  unfold openSession
  split
  · exact .stops (.refl a)
  next hopen =>
  split
  · exact .stops (.refl a)
  · simp only [Bool.or_eq_true, not_or, Bool.not_eq_true, Option.isSome_eq_false_iff,
      Option.isNone_iff_eq_none] at hopen
    exact .opened hopen.2 hopen.1.1 hopen.1.2 rfl

/-- Every task does one deed. -/
theorem deed_runTask (c : Clock) (written : Bool) (thread : ℕ) (ts : List Task) (t : Task) :
    Deed c a (a.runTask c written thread ts t).1 := by
  cases t with
  | enter call =>
    cases call with
    | openSession transport phoneBinding nonce =>
      exact deed_openSession c transport phoneBinding nonce
    | start sid => exact deed_start c sid
    | pending sid => exact .stops (stops_tickLocked hslot c sid)
    | isAuthorized sid => exact .stops (stops_checkAuthorized hslot c sid)
    | onHostHello sid => exact .stops (stops_onHostHello hslot c sid)
    | receive sid type proof => exact deed_receive hslot c sid type proof
    | approve sid =>
      have h := deed_beginApproval hslot c thread sid
      simp only [runTask, enter]
      generalize a.beginApproval c thread sid = q at h ⊢
      obtain ⟨b, es, _ | client⟩ := q
      · exact h
      · exact h
    | reject sid => exact deed_reject hslot c sid
    | closeSession sid => exact .stops (stops_finish a c sid _)
    | clients => exact .stops (stops_storedSnapshot hslot c)
    | revoke id =>
      have h := stops_beginRevocation hslot c id
      simp only [runTask, enter]
      generalize a.beginRevocation c id = q at h ⊢
      obtain ⟨b, es, _ | _⟩ := q
      · exact .stops h
      · exact .stops h
    | renew id => exact .stops (.refl a)
    | tick => exact .stops (stops_tick hslot c)
    | close => exact .stops (stops_close hslot c)
  | stored write =>
    simp only [runTask]
    split
    · exact .stops (.refl a)
    · exact .stops (.refl a)
  | write write now =>
    -- the repository is written outside the lock and keeps no time
    simp only [runTask]
    split
    · exact .stops (.of_same rfl rfl rfl rfl rfl)
    · exact .stops (.of_same rfl rfl rfl rfl rfl)
    · exact .stops (.of_same rfl rfl rfl rfl rfl)
  | storageFailed => exact .stops (stops_storageFailed hslot c)
  | completeApproval sid proposed => exact deed_completeApproval hslot c sid proposed
  | recheck => exact .stops (stops_checkActive hslot c)

end

end PhoneAuthorization
end MobileWebcamBridge
