import MobileWebcamBridge.Phone.PhoneAuthorization.Journal

/-!
# What a grant rests on

Every `CLIENT_AUTH_RESULT(Authorized)` is justified when it is sent: by the session's one verified
proof, and by a record of the durably written list that covers the key at the time the decision
reads. An approval decides from the time its PC's record holds, which is the last durable write
about that PC: the approval's own write, or a later renewal or approval.
-/

set_option autoImplicit false

namespace MobileWebcamBridge
namespace PhoneAuthorization

open Wire ClientAuthorization Trace

variable {P : Platform} {a b : PhoneAuthorization P} {thread sid : ℕ} {t : Task} {s : Session}
variable {tr es x : List Event} {stored : ClientRepository P} {th : Threads P} {client : Client}
variable {may : List UInt8 → Prop}

/-! ## Statements -/

/-- A record of the proof's derived ID whose period holds the time. -/
structure Covering (P : Platform) (clients : List Client) (p : ClientAuth) (now : ℤ) (c : Client) :
    Prop where
  listed : c ∈ clients
  derived : c.clientId = deriveClientId P p.publicKey
  approved : c.approvedAtUnixSeconds ≤ now
  current : now < c.expiresAtUnixSeconds

/-- The approval path: the thread that grants has saved the client of this proof, and the record it
decides from dates from the last write about that ID. -/
def ByApproval (P : Platform) (x : List Event) (sid : ℕ) (p : ClientAuth) (c : Client) (now : ℤ) :
    Prop :=
  ∃ thread w, .approving thread sid c.clientId ∈ x ∧ Saved x thread sid (candidateOf P p) ∧
    lastWrite c.clientId x = some (w, now) ∧ ∀ id, w ≠ .revoke id

/-- Where a grant's decision comes from: the clock reading it evaluated the proof at, or an
approval. `key` is what each of them knows about the record's key. -/
def Decided (P : Platform) (list : List Client) (x : List Event) (sid : ℕ) (p : ClientAuth)
    (key : Client → Prop) : Prop :=
  ∃ c now, Covering P list p now c ∧
    ((.evaluated sid list now ∈ x ∧ c.publicKey = p.publicKey) ∨
      (.approved sid list now ∈ x ∧ ByApproval P x sid p c now ∧ key c))

/-- The grant is justified by the history before it. -/
def Granting (P : Platform) (stored : List Client) (x : List Event) (e : Event) : Prop :=
  ∀ sid r, e = .sent sid .clientAuthResult (.clientAuthResult r) → r.status = .authorized →
    ∃ s : Session, .opened sid s.transport s.phoneBinding s.nonce ∈ x ∧
      ∃ p, proofsOf sid x = [p] ∧ Verifies P s p ∧
        Decided P (published stored x) x sid p fun c => ApprovedKey x c.clientId c.publicKey

theorem granting_of_ne {list : List Client} {e : Event}
    (h : ∀ sid r, e = .sent sid .clientAuthResult (.clientAuthResult r) → r.status ≠ .authorized) :
    Granting P list x e := fun sid r he hr => absurd hr (h sid r he)

/-! ## Each act -/

/-- What a thread about to run a task knows. -/
def Knows (P : Platform) (tr : List Event) (thread : ℕ) : Task → Prop
  | .completeApproval sid client => Approving P tr thread sid client ∧ Saved tr thread sid client
  | .write (.approve client) _ => ∃ sid, Approving P tr thread sid client
  | _ => True

theorem Knows.append (h : Knows P tr thread t) (es : List Event) : Knows P (tr ++ es) thread t := by
  unfold Knows at h ⊢
  split at h
  · exact ⟨h.1.append es, h.2.append es⟩
  · obtain ⟨sid, h⟩ := h
    exact ⟨sid, h.append es⟩
  · trivial

theorem knows_of_program {ts : List Task} (h : Program P tr thread (t :: ts)) :
    Knows P tr thread t := by
  cases h with
  | @write w now hw =>
    cases w with
    | approve client => cases hw
    | _ => trivial
  | writeApproval h => exact ⟨_, h⟩
  | completeApproval h hs => exact ⟨h, hs⟩
  | _ => trivial

/-- Every durably approved client is the candidate of a proof of the run. -/
def Proposed (P : Platform) (tr : List Event) : Prop :=
  ∀ client now clients, .saved (.approve client) now clients ∈ tr →
    ∃ sid p, .proof sid p ∈ tr ∧ client = candidateOf P p

/-- What the grants of a run rest on. -/
structure Grants (stored : List Client) (tr : List Event) (a : PhoneAuthorization P) : Prop where
  sessions : Sessions tr a
  journal : Journal stored tr a
  proposed : Proposed P tr
  granted : Each (Granting P stored) tr

theorem Proposed.unsaved (h : Proposed P tr) (hes : Unsaved es) : Proposed P (tr ++ es) := by
  intro client now clients hmem
  rcases List.mem_append.mp hmem with hmem | hmem
  · obtain ⟨sid, p, hp, hc⟩ := h client now clients hmem
    exact ⟨sid, p, List.mem_append_left _ hp, hc⟩
  · cases hes _ hmem

/-- The known-client path. -/
theorem granting_answered {list : List Client} {p : ClientAuth} {message : List UInt8} {now : ℤ}
    {r : ClientAuthResult} (h : Grants list tr a) (hp : Proving a sid s)
    (hm : clientAuthMessage P s.transport s.phoneBinding s.nonce p.publicKey p.label = some message)
    (hst : (evaluate P (deriveClientId P p.publicKey) p.publicKey message p.signature
      a.repository.clients now).status = .authorized) :
    Granting P list (tr ++ [Event.proof sid p, .evaluated sid a.repository.clients now])
      (.sent sid .clientAuthResult (.clientAuthResult r)) := by
  intro sid' r' he _
  obtain ⟨rfl, -⟩ : sid = sid' ∧ r = r' := by simpa using he
  have hrest : proofsOf sid [.evaluated sid a.repository.clients now] = [] :=
    proofsOf_eq_nil (by simp)
  have hproofs := h.sessions.proving hp p hrest
  have hlist : published list (tr ++ [Event.proof sid p, .evaluated sid a.repository.clients now]) =
      a.repository.clients := by
    rw [published_unsaved list (by simp [Unsaved, Event.list?]), h.journal.current]
  obtain ⟨c, hfind, hkey, happ, hexp, -⟩ := known_of_evaluate hst
  obtain ⟨hmem, hid⟩ := find_some hfind
  have hv := verified_of_evaluate (by rw [hst]; decide)
  refine ⟨s, List.mem_append_left _ (h.sessions.session sid s hp.session).opened, p, hproofs,
    ⟨message, hm, hv.2⟩, c, now, ?_, ?_⟩
  · rw [hlist]
    exact ⟨hmem, hid, happ, hexp⟩
  · rw [hlist]
    exact .inl ⟨by simp, hkey⟩

/-- The approval path. -/
theorem granting_granted {list : List Client} {proposed saved : Client} {r : ClientAuthResult}
    (h : Grants list tr a) (hk : Knows P tr thread (.completeApproval sid proposed))
    (hp : Prompting a sid s) (hs : single a.repository.clients proposed.clientId = some saved) :
    Granting P list (tr ++ [Event.approved sid a.repository.clients saved.approvedAtUnixSeconds])
      (.sent sid .clientAuthResult (.clientAuthResult r)) := by
  intro sid' r' he _
  obtain ⟨rfl, -⟩ : sid = sid' ∧ r = r' := by simpa using he
  have hquiet : Unsaved [.approved sid a.repository.clients saved.approvedAtUnixSeconds] := by
    simp [Unsaved, Event.list?]
  have hlist : published list (tr ++ [Event.approved sid a.repository.clients
      saved.approvedAtUnixSeconds]) = a.repository.clients := by
    rw [published_unsaved list hquiet, h.journal.current]
  have hok := h.sessions.session sid s hp.session
  obtain ⟨p, hproofs, -, hv⟩ := hok.proved (.inl hp.phase)
  obtain ⟨⟨happroving, q, hq, rfl⟩, now, clients, hsaved⟩ := hk
  -- the proposed client is the candidate of the session's one proof
  obtain rfl : q = p := by
    have := mem_proofsOf.mpr hq
    rwa [hproofs, List.mem_singleton] at this
  obtain ⟨hmem, hid⟩ := single_some hs
  have hvalid := a.repository.valid.2.1 saved hmem
  obtain ⟨⟨w, now'⟩, hlast⟩ : ∃ q, lastWrite saved.clientId tr = some q :=
    Option.isSome_iff_exists.mp (lastWrite_isSome hsaved.mem_right hid.symm)
  obtain ⟨hnow, hrev⟩ := h.journal.dated saved hmem w now' hlast
  refine ⟨s, List.mem_append_left _ hok.opened, q, ?_, hv, saved,
    saved.approvedAtUnixSeconds, ?_, ?_⟩
  · rw [proofsOf_append, hproofs, proofsOf_eq_nil (by simp), List.append_nil]
  · rw [hlist]
    exact ⟨hmem, hid, Int.le_refl _, hvalid.2.2.2.2.2.1⟩
  · rw [hlist]
    refine .inr ⟨by simp, ⟨thread, w, ?_, ?_, ?_, hrev⟩, ?_⟩
    · exact List.mem_append_left _ (hid ▸ happroving)
    · exact Saved.append ⟨now, clients, hsaved⟩ _
    · rw [lastWrite_unsaved _ hquiet, hlast, hnow]
    · exact (h.journal.keyed saved hmem ⟨_, _, now, clients, hsaved.mem_right, hid.symm,
        rfl⟩).append _

/-- What a section grants rests on a proof. -/
theorem Act.granting {list : List Client} (h : Grants list tr a) (hk : Knows P tr thread t)
    (hact : Act thread may a t b es) : Each (fun y => Granting P list (tr ++ y)) es := by
  have hother {e : Event} {y : List Event}
      (he : ∀ sid r, e ≠ .sent sid .clientAuthResult (.clientAuthResult r)) :
      Granting P list (tr ++ y) e := granting_of_ne fun sid r h => absurd h (he sid r)
  cases hact with
  | @answered sid s p message now d phase r hp hm hans _ =>
    refine each_cons.mpr ⟨hother (by simp), each_cons.mpr ⟨hother (by simp), each_cons.mpr ⟨?_,
      each_cons.mpr ⟨hother (by simp), each_nil⟩⟩⟩⟩
    by_cases hr : r.status = .authorized
    · refine granting_answered h hp hm ?_
      rw [hr] at hans
      generalize (evaluate P _ _ _ _ _ _).status = q at hans
      cases hans
      rfl
    · exact granting_of_ne fun sid r' he => by
        simp only [Event.sent.injEq, Payload.clientAuthResult.injEq] at he
        rwa [← he.2.2]
  | @granted sid s proposed saved r hp hs hr _ =>
    exact each_cons.mpr ⟨hother (by simp), each_cons.mpr ⟨granting_granted h hk hp hs,
      each_cons.mpr ⟨hother (by simp), each_nil⟩⟩⟩
  | @rejected sid s d u r hp hr =>
    refine each_cons.mpr ⟨granting_of_ne fun sid r' he => ?_,
      each_cons.mpr ⟨hother (by simp), each_nil⟩⟩
    simp only [Event.sent.injEq, Payload.clientAuthResult.injEq] at he
    rw [← he.2.2, hr]
    decide
  | started _ _ _ =>
    refine each_of_forall fun y e hmem => hother ?_
    rcases mem_announce hmem with rfl | ⟨p, rfl⟩ <;> simp
  | refused _ hs _ =>
    refine each_of_forall fun y e hmem => hother fun sid r he => ?_
    rcases List.mem_cons.mp hmem with rfl | hmem
    · cases he
    · have := hs.2 e hmem
      rw [he] at this
      cases this
  | revoking => exact each_nil
  | kept => exact each_nil
  | _ => exact each_cons.mpr ⟨hother (by simp), each_nil⟩

theorem granting_closing {list : List Client} (hes : Closing es) :
    Each (fun y => Granting P list (tr ++ y)) es :=
  each_of_forall fun y e hmem => granting_of_ne fun sid r he => by
    have := hes e hmem
    rw [he] at this
    cases this

/-- What a section saves was proposed. -/
theorem Act.proposed {list : List Client} (h : Grants list tr a) (hk : Knows P tr thread t)
    (hact : Act thread may a t b es) : Proposed P (tr ++ es) := by
  rcases hact.unsaved with ⟨hes, -⟩ | ⟨w, now, next, rfl, rfl, -, -⟩
  · exact h.proposed.unsaved hes
  · intro client now' clients hmem
    rcases List.mem_append.mp hmem with hmem | hmem
    · obtain ⟨sid, p, hp, hc⟩ := h.proposed client now' clients hmem
      exact ⟨sid, p, List.mem_append_left _ hp, hc⟩
    · simp only [List.mem_singleton, Event.saved.injEq] at hmem
      obtain ⟨rfl, -, -⟩ := hmem
      obtain ⟨sid, -, p, hp, hc⟩ := hk
      exact ⟨sid, p, List.mem_append_left _ hp, hc⟩

/-- A section keeps the grants. -/
theorem Grants.act {list : List Client} (h : Grants list tr a) (hk : Knows P tr thread t)
    (hact : Act thread may a t b es) : Grants list (tr ++ es) b := by
  refine ⟨h.sessions.act hact, ?_, hact.proposed h hk, h.granted.append (hact.granting h hk)⟩
  rcases hact.unsaved with ⟨hes, hb⟩ | ⟨w, now, next, -, rfl, hnext, hb⟩
  · exact h.journal.unsaved hes hb
  · exact h.journal.saved hnext hb

theorem Grants.shut {list : List Client} (h : Grants list tr a) (hs : Shuts a (b, es)) :
    Grants list (tr ++ es) b :=
  ⟨h.sessions.shut hs,
    h.journal.unsaved hs.2.unsaved (congrArg ClientRepository.clients hs.1.repository),
    h.proposed.unsaved hs.2.unsaved, h.granted.append (granting_closing hs.2)⟩

/-- So every grant rests on a proof in every run. -/
theorem grants_ok {ok : List Event → Threads P → Label → Prop}
    (h : (system stored).Under ok tr th) :
    Grants stored.clients tr th.owner := by
  refine Under.acts ?_ ?_ ?_ h
  · refine ⟨sessions_init _, journal_init { stored with healthy := true }, ?_, each_nil⟩
    intro client now clients hmem
    cases hmem
  · intro tr a thread call h
    have hquiet : Unsaved [.called thread call] := by simp [Unsaved, Event.list?]
    refine ⟨h.sessions.same rfl rfl fun _ => rfl, h.journal.unsaved hquiet rfl,
      h.proposed.unsaved hquiet, h.granted.append (each_cons.mpr ⟨?_, each_nil⟩)⟩
    exact granting_of_ne fun _ _ he => by cases he
  · intro tr th thread c written t ts hr _ hprog hi
    have hk := knows_of_program (programs_ok hr thread _ hprog)
    -- what the thread knows stays known while its section runs
    have hboth := (acts_runTask th.owner c written thread ts t).preserves
      (I := fun tr a => Grants stored.clients tr a ∧ Knows P tr thread t)
      (fun _ _ _ _ hs h => ⟨h.1.shut hs, h.2.append _⟩)
      (fun _ _ _ _ hact h => ⟨h.1.act h.2 hact, h.2.append _⟩) ⟨hi, hk⟩
    exact hboth.1

/-! ## Runs -/

/-- The proof that is received. -/
def Event.proof? : Event → Option ClientAuth
  | .proof _ p => some p
  | _ => none

/-- The proofs presented in a history. -/
def presented (tr : List Event) : List ClientAuth := tr.filterMap Event.proof?

theorem mem_presented {p : ClientAuth} (h : .proof sid p ∈ tr) : p ∈ presented tr :=
  List.mem_filterMap.mpr ⟨_, h, rfl⟩

/-- No two keys presented in the run share a derived ID. -/
def CollisionFree (P : Platform) (tr : List Event) : Prop :=
  ∀ p ∈ presented tr, ∀ q ∈ presented tr,
    deriveClientId P p.publicKey = deriveClientId P q.publicKey → p.publicKey = q.publicKey

instance : Decidable (CollisionFree P tr) := by
  unfold CollisionFree
  infer_instance

/-- A grant rests on the session's one proof and on a record of the durable list that holds its
exact key; the session slot is taken by one session at a time, and consumes one proof. -/
theorem grant_rests_on_proof (h : (system stored).Reaches tr th) (hfree : CollisionFree P tr) :
    (∀ x y sid r, tr = x ++ .sent sid .clientAuthResult (.clientAuthResult r) :: y →
      r.status = .authorized → ∃ s p, th.owner.sessions[sid]? = some s ∧
        .opened sid s.transport s.phoneBinding s.nonce ∈ x ∧ .proof sid p ∈ x ∧
        proofsOf sid tr = [p] ∧ Verifies P s p ∧
        ∃ c now, Covering P (published stored.clients x) p now c ∧ c.publicKey = p.publicKey ∧
          (.evaluated sid (published stored.clients x) now ∈ x ∨
            .approved sid (published stored.clients x) now ∈ x ∧ ByApproval P x sid p c now)) ∧
    (∀ sid, (proofsOf sid tr).length ≤ 1) ∧
    ∀ (i j : ℕ) (s s' : Session), th.owner.sessions[i]? = some s → th.owner.sessions[j]? = some s' →
      s.phase ≠ .closed → s'.phase ≠ .closed → i = j := by
  have hg := grants_ok h
  have honce (sid : ℕ) : (proofsOf sid tr).length ≤ 1 := by
    by_cases hsid : sid < th.owner.sessions.length
    · exact (hg.sessions.session sid _ (List.getElem?_eq_getElem hsid)).once
    · rw [hg.sessions.unopened sid (Nat.le_of_not_lt hsid)]
      exact Nat.zero_le 1
  refine ⟨fun x y sid r htr hr => ?_, honce, fun i j s s' hs hs' hp hp' => ?_⟩
  · obtain ⟨s₀, hopened, p, hproofs, ⟨message, hm, hv⟩, c, now, hcov, hwhy⟩ :=
      hg.granted x _ y htr sid r rfl hr
    have hsub : x ⊆ tr := fun e he => htr ▸ List.mem_append_left _ he
    obtain ⟨s, hs, ht, hb, hn⟩ := owned h sid _ _ _ (hsub hopened)
    have hproof : .proof sid p ∈ x :=
      mem_proofsOf.mp (by rw [hproofs]; exact List.mem_singleton_self p)
    have hone : proofsOf sid tr = [p] := by
      have hle := honce sid
      rw [htr, proofsOf_append, hproofs, List.length_append, List.length_singleton] at hle
      have hnil : proofsOf sid (.sent sid .clientAuthResult (.clientAuthResult r) :: y) = [] :=
        List.eq_nil_of_length_eq_zero (by omega)
      rw [htr, proofsOf_append, hproofs, hnil, List.append_nil]
    refine ⟨s, p, hs, ?_, hproof, hone, ⟨message, ?_, hv⟩, c, now, hcov, ?_⟩
    · rwa [ht, hb, hn]
    · rwa [ht, hb, hn]
    · rcases hwhy with ⟨he, hkey⟩ | ⟨ha, hby, client, _, _, hsaved, hid, hkey⟩
      · exact ⟨hkey, .inl he⟩
      · obtain ⟨j, q, hq, rfl⟩ := hg.proposed client _ _ (hsub hsaved)
        have hsame :=
          hfree q (mem_presented hq) p (mem_presented (hsub hproof)) (hid.trans hcov.derived)
        exact ⟨hkey.symm.trans hsame, .inr ⟨ha, hby⟩⟩
  · have hi := hg.sessions.live i s hs hp
    rw [hg.sessions.live j s' hs' hp', Option.some.injEq] at hi
    exact hi.symm

/-! ## Two runs -/

/-- A platform small enough to evaluate: the digest drops the point's tag, and a signature is the
tail of the message it signs. -/
def tiny : Platform where
  sha256 key := key.drop 1
  validPublicKey key := key.length == CLIENT_PUBLIC_KEY_BYTES && key.head? == some 4
  verify _ message signature := signature == message.reverse.take SIGNATURE_BYTES
  isWhitespace c := c == ' '
  scalarIsSafe c := decide (32 ≤ c.toNat)

/-- A key of one byte repeated. -/
def tinyKey (k : UInt8) : List UInt8 := 4 :: List.replicate 64 k

/-- Thirty-two zeros. -/
def zeros : List UInt8 := List.replicate 32 0

/-- The proof of a key over the zero nonce, on USB. -/
def tinyProof (k : UInt8) : ClientAuth where
  publicKey := tinyKey k
  label := ['p', 'c']
  signature :=
    ((clientAuthMessage tiny .usb zeros zeros (tinyKey k) ['p', 'c']).getD []).reverse.take
    SIGNATURE_BYTES

/-- A phone that knows no PC. -/
def emptyList : ClientRepository tiny := ⟨[], true, by decide⟩

/-- A clock at one second. -/
def noon (seconds : ℤ) : Clock :=
  { tick := 0, check := seconds, seconds, millis := 0, deadline := 0, finish := 0 }

/-- The threads of a connection up to its proof. -/
def connecting (thread sid : ℕ) (k : UInt8) (seconds : ℤ) : List Label :=
  [.call (.openSession .usb zeros zeros), .step thread (noon seconds) true,
    .call (.start sid), .step (thread + 1) (noon seconds) true,
    .call (.receive sid .clientAuth (some (tinyProof k))), .step (thread + 2) (noon seconds) true]

/-- A PC is approved, disconnects and comes back. -/
def reconnected : List Label :=
  connecting 0 0 7 100 ++ [Label.call (.approve 0)] ++
    List.replicate 4 (Label.step 3 (noon 100) true) ++
    [Label.call (.closeSession 0), .step 4 (noon 101) true] ++ connecting 5 1 7 102

/-- The owner of a list, before any call. -/
def fresh (stored : ClientRepository P) : Threads P :=
  { owner := init { stored with healthy := true }, programs := [] }

/-- The grant of the second connection is decided by the list its own approval stored. -/
theorem grant_rests_on_proof_reconnected :
    ∃ x y r, (system emptyList).trace (fresh emptyList) reconnected =
      x ++ .sent 1 .clientAuthResult (.clientAuthResult r) :: y ∧
    ∃ p c now, proofsOf 1 ((system emptyList).trace (fresh emptyList) reconnected) = [p] ∧
      Covering tiny (published emptyList.clients x) p now c ∧ c.publicKey = p.publicKey := by
  let tr := (system emptyList).trace (fresh emptyList) reconnected
  have hr :=
    EventSystem.reaches_trace (M := system emptyList) (s := fresh emptyList) reconnected rfl
    (by decide +kernel)
  have htr : tr = tr.take 27 ++ Event.sent 1 .clientAuthResult
      (.clientAuthResult ⟨.authorized, .none, 100 + EXPIRY_SECONDS⟩) :: tr.drop 28 := by
    decide +kernel
  obtain ⟨s, p, -, -, -, hp, -, c, now, hcov, hkey, -⟩ :=
    (grant_rests_on_proof hr (by decide +kernel)).1 _ _ 1 _ htr rfl
  exact ⟨_, _, _, htr, p, c, now, hp, hcov, hkey⟩

/-- The PC is renewed between the durable write of its approval and the grant. -/
def renewedMeanwhile : List Label :=
  connecting 0 0 7 100 ++ [Label.call (.approve 0)] ++
    List.replicate 3 (Label.step 3 (noon 100) true) ++
    [Label.call (.renew (deriveClientId tiny (tinyKey 7)))] ++
    List.replicate 3 (Label.step 4 (noon 200) true) ++
    [Label.step 3 (noon 200) true]

/-- The one evaluation saw no record, and the one approval was stored at 100. -/
def storedAt100 : Event → Bool
  | .evaluated _ clients _ => decide (clients = [])
  | .saved (.approve _) now _ => decide (now = 100)
  | _ => true

/-- The record that is granted does not cover the time its own approval stored. -/
theorem approval_renewed_meanwhile :
    ∃ tr th x y r p, (system emptyList).Reaches tr th ∧ CollisionFree tiny tr ∧
      tr = x ++ .sent 0 .clientAuthResult (.clientAuthResult r) :: y ∧ r.status = .authorized ∧
      proofsOf 0 tr = [p] ∧
      ¬ ∃ c now, Covering tiny (published emptyList.clients x) p now c ∧
        (.evaluated 0 (published emptyList.clients x) now ∈ x ∨
        ∃ clients, .saved (.approve (candidateOf tiny p)) now clients ∈ x) := by
  let tr := (system emptyList).trace (fresh emptyList) renewedMeanwhile
  have hr :=
    EventSystem.reaches_trace (M := system emptyList) (s := fresh emptyList) renewedMeanwhile
    rfl (by decide +kernel)
  refine ⟨tr, _, tr.take 16, tr.drop 17, ⟨.authorized, .none, 200 + EXPIRY_SECONDS⟩,
    tinyProof 7, hr, by decide +kernel, by decide +kernel, rfl, by decide +kernel, ?_⟩
  rintro ⟨c, now, hcov, hwhen⟩
  -- the one record is dated 200
  have hdate : ∀ c ∈ published emptyList.clients (tr.take 16), c.approvedAtUnixSeconds = 200 := by
    decide +kernel
  have hrecord : published emptyList.clients (tr.take 16) ≠ [] := by decide +kernel
  have hevents : ∀ e ∈ tr.take 16, storedAt100 e = true := by decide +kernel
  rcases hwhen with he | ⟨clients, hs⟩
  · have hempty := hevents _ he
    simp only [storedAt100, decide_eq_true_eq] at hempty
    exact hrecord hempty
  · have hnow := hevents _ hs
    simp only [storedAt100, decide_eq_true_eq] at hnow
    have hle := hcov.approved
    rw [hdate c hcov.listed, hnow] at hle
    exact absurd hle (by decide)

end PhoneAuthorization
end MobileWebcamBridge
