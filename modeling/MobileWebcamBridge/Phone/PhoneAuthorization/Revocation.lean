import MobileWebcamBridge.Phone.PhoneAuthorization.Unlisted

/-!
# Revocation

From the first section of `revoke` until an approval called after it, nothing may be granted or
reported for the ID. `isAuthorized` keeps this for every session, because it looks the ID up in
`revokedIds`. The two sections that grant do not: `receive` decides from the stored list alone,
which still holds the PC while the durable write is stalled, and the last section of an `approve`
that was called before the revocation takes the ID off `revokedIds` again. `InOrder` keeps both off
the schedule: it lets a proof of a revoked PC in only when the list no longer holds it.
-/

set_option autoImplicit false

namespace MobileWebcamBridge
namespace PhoneAuthorization

open Wire ClientAuthorization Trace

variable {P : Platform} {a b : PhoneAuthorization P} {thread sid : ℕ} {t : Task}
variable {tr tr' es x : List Event} {stored : ClientRepository P} {th : Threads P}
variable {may : List UInt8 → Prop} {id : List UInt8}
variable {ok : List Event → Threads P → Label → Prop}

/-! ## Statements -/

/-- The thread whose `approve` for the ID has run its first section. -/
def Event.approver? (id : List UInt8) : Event → Option ℕ
  | .approving thread _ i => if i = id then some thread else none
  | _ => none

/-- The thread that enters a call. -/
def Event.caller? : Event → Option ℕ
  | .called thread _ => some thread
  | _ => none

/-- No `approve` for the ID was called here and has run its first section. -/
def Unapproved (id : List UInt8) (y : List Event) : Prop :=
  ∀ thread ∈ y.filterMap (Event.approver? id), thread ∉ y.filterMap Event.caller?

/-- `revoke` has completed its first section, and no later call has approved the ID since. -/
def Revoked (tr : List Event) (id : List UInt8) : Prop :=
  ∃ z ∈ tr.tails, z.head? = some (.revoked id) ∧ Unapproved id z.tail

instance (id : List UInt8) (y : List Event) : Decidable (Unapproved id y) := by
  unfold Unapproved
  infer_instance

instance (tr : List Event) (id : List UInt8) : Decidable (Revoked tr id) := by
  unfold Revoked
  infer_instance

/-- What a revocation bars: a session of the ID that is reported authorized, and a result
`Authorized` sent to one. -/
def Barred (P : Platform) (x : List Event) (e : Event) : Prop :=
  (∀ sid id, e = .reported sid id → ¬ Revoked x id) ∧
    ∀ sid r p, e = .sent sid .clientAuthResult (.clientAuthResult r) → r.status = .authorized →
      .proof sid p ∈ x → ¬ Revoked x (deriveClientId P p.publicKey)

/-- The schedule keeps what began earlier out: a proof of a revoked ID is not received while the
revocation's durable write is outstanding, nor after an `approve` of the ID was stored since, and
the last section of an `approve` does not run while its ID is revoked. -/
def InOrder (tr : List Event) (th : Threads P) : Label → Prop
  | .call _ => True
  | .step thread _ _ =>
    match th.programs[thread]?.bind List.head? with
    | some (.enter (.receive _ .clientAuth (some p))) =>
      Revoked tr (deriveClientId P p.publicKey) →
        ¬ Outstanding th (deriveClientId P p.publicKey) ∧
          ¬ StoredSince tr (deriveClientId P p.publicKey)
    | some (.completeApproval _ proposed) => ¬ Revoked tr proposed.clientId
    | _ => True

instance (tr : List Event) (th : Threads P) : ∀ l : Label, Decidable (InOrder tr th l)
  | .call _ => inferInstanceAs (Decidable True)
  | .step _ _ _ => by
    dsimp only [InOrder]
    split <;> infer_instance

/-- The step does not run a section that would grant for a revoked ID. -/
def GrantsUnrevoked (tr : List Event) (th : Threads P) : Label → Prop
  | .call _ => True
  | .step thread c _ =>
    ∀ id ∈ (th.programs[thread]?.bind List.head?).bind (th.owner.grantable c), ¬ Revoked tr id

/-! ## Growing histories -/

theorem Unapproved.of_append {y z : List Event} (h : Unapproved id (y ++ z)) : Unapproved id y := by
  intro thread hmem hcalled
  refine h thread ?_ ?_
  · rw [List.filterMap_append]
    exact List.mem_append_left _ hmem
  · rw [List.filterMap_append]
    exact List.mem_append_left _ hcalled

/-- A revocation comes from the history or from the events that follow it. -/
theorem revoked_append (h : Revoked (tr ++ es) id) : Revoked tr id ∨ .revoked id ∈ es := by
  obtain ⟨z, hz, hhead, hun⟩ := h
  obtain ⟨x, hx⟩ := (List.mem_tails _ _).mp hz
  rcases List.append_eq_append_iff.mp hx with ⟨c, rfl, hc⟩ | ⟨c, rfl, hes⟩
  · -- the suffix starts inside the history
    cases c with
    | nil =>
      rw [List.nil_append] at hc
      subst hc
      exact .inr (List.mem_of_mem_head? hhead)
    | cons e c =>
      subst hc
      refine .inl ⟨e :: c, (List.mem_tails _ _).mpr ⟨x, rfl⟩, hhead, ?_⟩
      exact Unapproved.of_append hun
  · refine .inr ?_
    rw [hes]
    exact List.mem_append_right _ (List.mem_of_mem_head? hhead)

/-- No revocation completes its first section. -/
def Unrevoking (es : List Event) : Prop := ∀ id, .revoked id ∉ es

theorem Unrevoking.revoked (hes : Unrevoking es) (h : Revoked (tr ++ es) id) : Revoked tr id :=
  (revoked_append h).resolve_right (hes id)

theorem Closing.unrevoking (h : Closing es) : Unrevoking es := by
  intro id hmem
  cases h _ hmem

theorem barred_of_quiet {e : Event} (hrep : ∀ sid id, e ≠ .reported sid id)
    (hsent : ∀ sid r, e = .sent sid .clientAuthResult (.clientAuthResult r) →
      r.status ≠ .authorized) :
    Barred P x e :=
  ⟨fun sid id he => absurd he (hrep sid id), fun sid r _ he hr => absurd hr (hsent sid r he)⟩

/-! ## Each act -/

/-- A revoked ID is in `revokedIds`, and the running section grants for none. -/
structure Bars (may : List UInt8 → Prop) (tr : List Event) (a : PhoneAuthorization P) : Prop where
  sessions : Sessions tr a
  revoked : ∀ id, Revoked tr id → id ∈ a.revokedIds
  barred : Each (Barred P) tr
  /-- What the running section may grant for is not revoked. -/
  allowed : ∀ id, may id → ¬ Revoked tr id

theorem Bars.shut (h : Bars may tr a) (hs : Shuts a (b, es)) : Bars may (tr ++ es) b := by
  have hquiet := hs.2.unrevoking
  refine ⟨h.sessions.shut hs, fun id hr => ?_, h.barred.append ?_, fun id hm hr =>
    h.allowed id hm (hquiet.revoked hr)⟩
  · rw [show b.revokedIds = a.revokedIds from hs.1.revokedIds]
    exact h.revoked id (hquiet.revoked hr)
  · refine each_of_forall fun y e hmem => barred_of_quiet (fun sid id he => ?_) (fun sid r he => ?_)
    · cases he ▸ hs.2 e hmem
    · cases he ▸ hs.2 e hmem

/-- The proof a result answers is the session's only one. -/
theorem barred_sent {p : ClientAuth} {r : ClientAuthResult} (hone : proofsOf sid x = [p])
    (h : ¬ Revoked x (deriveClientId P p.publicKey)) :
    Barred P x (.sent sid .clientAuthResult (.clientAuthResult r)) := by
  refine ⟨by simp, fun sid' r' q he _ hq => ?_⟩
  simp only [Event.sent.injEq] at he
  obtain ⟨rfl, -, -⟩ := he
  have hmem := mem_proofsOf.mpr hq
  rw [hone, List.mem_singleton] at hmem
  exact hmem ▸ h

/-- A section sends a revoked PC no grant. -/
theorem Act.barred (h : Bars may tr a) (hk : Knows P tr thread t) (hact : Act thread may a t b es) :
    Each (fun y => Barred P (tr ++ y)) es := by
  have hother {e : Event} {y : List Event} (hrep : ∀ sid id, e ≠ .reported sid id)
      (hsent : ∀ sid r, e ≠ .sent sid .clientAuthResult (.clientAuthResult r)) :
      Barred P (tr ++ y) e := barred_of_quiet hrep fun sid r he => absurd he (hsent sid r)
  cases hact with
  | @answered sid s p message now d phase r hp hm hans hmay =>
    refine each_cons.mpr ⟨hother (by simp) (by simp), each_cons.mpr ⟨hother (by simp) (by simp),
      each_cons.mpr ⟨?_, each_cons.mpr ⟨hother (by simp) (by simp), each_nil⟩⟩⟩⟩
    by_cases hr : r.status = .authorized
    · have hrest : proofsOf sid [.evaluated sid a.repository.clients now] = [] :=
        proofsOf_eq_nil (by simp)
      refine barred_sent (h.sessions.proving hp p hrest) fun hrev => h.allowed _ (hmay hr) ?_
      have hquiet : Unrevoking [.proof sid p, .evaluated sid a.repository.clients now] := by
        simp [Unrevoking]
      exact hquiet.revoked hrev
    · refine barred_of_quiet (by simp) fun sid r' he => ?_
      simp only [Event.sent.injEq, Payload.clientAuthResult.injEq] at he
      rwa [← he.2.2]
  | @granted sid s proposed saved r hp hs hr hmay =>
    refine each_cons.mpr ⟨hother (by simp) (by simp), each_cons.mpr ⟨?_,
      each_cons.mpr ⟨hother (by simp) (by simp), each_nil⟩⟩⟩
    -- the proposed client is the candidate of the session's one proof
    obtain ⟨⟨-, p, hproof, rfl⟩, -⟩ := hk
    obtain ⟨q, hproofs, -, -⟩ := (h.sessions.session sid s hp.session).proved (.inl hp.phase)
    obtain rfl : p = q := by
      have hmem := mem_proofsOf.mpr hproof
      rwa [hproofs, List.mem_singleton] at hmem
    refine barred_sent (p := p) ?_ fun hrev => h.allowed _ hmay ?_
    · rw [proofsOf_append, hproofs, proofsOf_eq_nil (by simp), List.append_nil]
    · have hquiet : Unrevoking
          [.approved sid a.repository.clients saved.approvedAtUnixSeconds] := by simp [Unrevoking]
      exact hquiet.revoked hrev
  | @rejected sid s d u r hp hr =>
    refine each_cons.mpr ⟨barred_of_quiet (by simp) fun sid r' he => ?_,
      each_cons.mpr ⟨hother (by simp) (by simp), each_nil⟩⟩
    simp only [Event.sent.injEq, Payload.clientAuthResult.injEq] at he
    rw [← he.2.2, hr]
    decide
  | @reported sid s client hs hp hact hcl hrev =>
    refine each_cons.mpr ⟨⟨fun sid' id he => ?_, by simp⟩, each_nil⟩
    simp only [Event.reported.injEq] at he
    obtain ⟨-, rfl⟩ := he
    rw [List.append_nil]
    exact fun hr => hrev (h.revoked _ hr)
  | started _ _ _ =>
    refine each_of_forall fun y e hmem => ?_
    rcases mem_announce hmem with rfl | ⟨p, rfl⟩
    · exact hother (by simp) (by simp)
    · exact hother (by simp) (by simp)
  | refused _ hs _ =>
    refine each_of_forall fun y e hmem => hother (fun sid id he => ?_) (fun sid r he => ?_)
    · rcases List.mem_cons.mp hmem with rfl | hmem
      · cases he
      · cases he ▸ hs.2 e hmem
    · rcases List.mem_cons.mp hmem with rfl | hmem
      · cases he
      · cases he ▸ hs.2 e hmem
  | revoking => exact each_nil
  | kept => exact each_nil
  | _ => exact each_cons.mpr ⟨hother (by simp) (by simp), each_nil⟩

/-- Only the section that grants takes an ID off `revokedIds`, and only `revoke` completes a
revocation, with its ID on them. -/
theorem Act.revocations (hact : Act thread may a t b es) :
    (∀ id, id ∈ a.revokedIds → id ∈ b.revokedIds ∨ may id) ∧
      ∀ id, .revoked id ∈ es → id ∈ b.revokedIds ∧ t = .enter (.revoke id) := by
  cases hact with
  | @granted sid s proposed saved r hp hs hr hmay =>
    refine ⟨fun id hid => ?_, by simp⟩
    by_cases he : id = proposed.clientId
    · exact .inr (he ▸ hmay)
    · exact .inl (List.mem_filter.mpr ⟨hid, by simpa using he⟩)
  | revoking => exact ⟨fun id hid => .inl (List.mem_cons_of_mem _ hid), by simp⟩
  | revoked hmem =>
    refine ⟨fun id hid => .inl hid, fun id he => ?_⟩
    simp only [List.mem_singleton, Event.revoked.injEq] at he
    exact ⟨he ▸ hmem, by rw [he]⟩
  | started _ _ _ =>
    refine ⟨fun id hid => .inl hid, fun id hmem => ?_⟩
    rcases mem_announce hmem with he | ⟨p, he⟩ <;> cases he
  | refused _ hs _ =>
    refine ⟨fun id hid => .inl (hs.1.revokedIds ▸ hid), fun id hmem => ?_⟩
    rcases List.mem_cons.mp hmem with he | hmem
    · cases he
    · exact absurd hmem (hs.2.unrevoking id)
  | _ => exact ⟨fun id hid => .inl hid, by simp⟩

/-- A section keeps the bar. -/
theorem Bars.act {c : Clock} {a₀ : PhoneAuthorization P}
    (h : Bars (fun id => a₀.grantable c t = some id) tr a) (hk : Knows P tr thread t)
    (hact : Act thread (fun id => a₀.grantable c t = some id) a t b es) :
    Bars (fun id => a₀.grantable c t = some id) (tr ++ es) b := by
  have hbarred := hact.barred h hk
  obtain ⟨hkeep, hnew⟩ := hact.revocations
  refine ⟨h.sessions.act hact, fun id hr => ?_, h.barred.append hbarred, fun id hm hr => ?_⟩
  · rcases revoked_append hr with hr | hmem
    · rcases hkeep id (h.revoked id hr) with hin | hm
      · exact hin
      · exact absurd hr (h.allowed id hm)
    · exact (hnew id hmem).1
  · rcases revoked_append hr with hr | hmem
    · exact h.allowed id hm hr
    · -- a section that completes a revocation grants for nothing
      have ht := (hnew id hmem).2
      subst ht
      cases hm

/-! ## Runs -/

/-- So a revoked PC stays barred in every run that grants to none. -/
theorem bars_ok (h : (system stored).Under GrantsUnrevoked tr th) :
    Bars (fun _ => False) tr th.owner := by
  refine Under.acts ?_ ?_ ?_ h
  · refine ⟨sessions_init _, fun id hr => ?_, each_nil, nofun⟩
    obtain ⟨z, hz, hhead, -⟩ := hr
    obtain rfl : z = [] := by simpa using hz
    cases hhead
  · intro tr a thread call h
    have hquiet : Unrevoking [.called thread call] := by simp [Unrevoking]
    refine ⟨h.sessions.same rfl rfl fun _ => rfl, fun id hr => h.revoked id (hquiet.revoked hr),
      h.barred.append (each_cons.mpr ⟨barred_of_quiet (by simp) (by simp), each_nil⟩), nofun⟩
  · intro tr th thread c written t ts hr hok hprog hi
    have hk := knows_of_program (programs_ok hr thread _ hprog)
    have hallowed : ∀ id, th.owner.grantable c t = some id → ¬ Revoked tr id := by
      intro id hm
      refine hok id ?_
      simp [hprog, hm]
    have hboth := (acts_runTask th.owner c written thread ts t).preserves
      (I := fun tr a => Bars (fun id => th.owner.grantable c t = some id) tr a ∧
        Knows P tr thread t)
      (fun _ _ _ _ hs h => ⟨h.1.shut hs, h.2.append _⟩)
      (fun _ _ _ _ hact h => ⟨h.1.act h.2 hact, h.2.append _⟩)
      ⟨⟨hi.sessions, hi.revoked, hi.barred, hallowed⟩, hk⟩
    exact ⟨hboth.1.sessions, hboth.1.revoked, hboth.1.barred, nofun⟩

theorem Revoked.mem (h : Revoked tr id) : .revoked id ∈ tr := by
  obtain ⟨z, hz, hhead, -⟩ := h
  obtain ⟨x, rfl⟩ := (List.mem_tails _ _).mp hz
  exact List.mem_append_right _ (List.mem_of_mem_head? hhead)

/-- A proof that is answered with a grant found its ID on a list that could be read. -/
theorem listed_of_grantable {c : Clock} {type : FrameType} {proof : Option ClientAuth}
    (h : a.grantable c (.enter (.receive sid type proof)) = some id) :
    a.readable = true ∧ (∃ client ∈ a.repository.clients, client.clientId = id) ∧
      type = .clientAuth ∧ ∃ p, proof = some p ∧ deriveClientId P p.publicKey = id := by
  unfold grantable at h
  split at h
  · next sid' p heq =>
    simp only [Task.enter.injEq, Call.receive.injEq] at heq
    obtain ⟨rfl, rfl, rfl⟩ := heq
    split at h
    · cases h
    split at h
    · cases h
    split at h
    · next hlive =>
      obtain rfl := Option.some.inj h
      obtain ⟨-, -, -, hread, hgranted⟩ := hlive
      obtain ⟨client, hfind, -⟩ := known_of_evaluate hgranted
      obtain ⟨hmem, hid⟩ := find_some hfind
      exact ⟨hread, ⟨client, hmem, hid⟩, rfl, p, rfl, rfl⟩
    · cases h
  · next heq => cases heq
  · cases h

/-- In order, no section grants for a revoked ID: the list no longer holds it. -/
theorem grantsUnrevoked_of_inOrder (h : (system stored).Under ok tr th) {l : Label}
    (hok : InOrder tr th l) : GrantsUnrevoked tr th l := by
  cases l with
  | call => trivial
  | step thread c written =>
    intro id hmem hrevoked
    obtain ⟨t, ht, hgrant⟩ := Option.bind_eq_some_iff.mp hmem
    simp only [InOrder, ht] at hok
    cases t with
    | enter call =>
      cases call with
      | receive sid type proof =>
        obtain ⟨hread, ⟨client, hclient, hid⟩, rfl, p, rfl, rfl⟩ := listed_of_grantable hgrant
        obtain ⟨hwritten, hstored⟩ := hok hrevoked
        rcases (accounted h _ hrevoked.mem).2 with ho | hs | hunread | hunlisted
        · exact hwritten ho
        · exact hstored hs
        · rw [hread] at hunread
          cases hunread
        · exact hunlisted client hclient hid
      | _ => cases hgrant
    | completeApproval sid proposed =>
      simp only [grantable] at hgrant
      split at hgrant
      · cases hgrant
      split at hgrant
      · obtain rfl := Option.some.inj hgrant
        exact hok hrevoked
      · cases hgrant
    | _ => cases hgrant

/-- Where nothing that began earlier comes late, a revocation holds until a later approval. -/
theorem revocation_bars (h : (system stored).Under InOrder tr th) : Each (Barred P) tr :=
  (bars_ok (h.exchange fun _ _ _ hr hok => grantsUnrevoked_of_inOrder hr hok)).barred

/-! ## Two runs -/

/-- A PC is approved and reported authorized, then revoked, and asks again. -/
def revokedPC : List Label :=
  connecting 0 0 7 100 ++ [Label.call (.approve 0)] ++
    List.replicate 4 (Label.step 3 (noon 100) true) ++
    [Label.call (.isAuthorized 0), .step 4 (noon 101) true,
      .call (.revoke (deriveClientId tiny (tinyKey 7)))] ++
    List.replicate 4 (Label.step 5 (noon 102) true) ++ connecting 6 1 7 103 ++
    [Label.call (.isAuthorized 1), .step 9 (noon 104) true]

/-- The PC revoked and refused. -/
theorem revocation_bars_revokedPC :
    Each (Barred tiny) ((system emptyList).trace (fresh emptyList) revokedPC) :=
  revocation_bars (EventSystem.under_trace (M := system emptyList) (s := fresh emptyList) revokedPC
    rfl (by decide +kernel) (by decide +kernel))

/-- The durable write of the revocation stalls, and the PC reconnects. -/
def stalledRevocation : List Label :=
  connecting 0 0 7 100 ++ [Label.call (.approve 0)] ++
    List.replicate 4 (Label.step 3 (noon 100) true) ++
    [Label.call (.revoke (deriveClientId tiny (tinyKey 7))), .step 4 (noon 101) true] ++
    connecting 5 1 7 102

/-- It is granted from the list that still holds it. -/
theorem granted_while_revoking :
    ∃ tr th, (system emptyList).Reaches tr th ∧ ¬ Each (Barred tiny) tr := by
  let tr := (system emptyList).trace (fresh emptyList) stalledRevocation
  have hr := EventSystem.reaches_trace (M := system emptyList) (s := fresh emptyList)
    stalledRevocation rfl (by decide +kernel)
  refine ⟨tr, _, hr, fun h => ?_⟩
  have htr : tr = tr.take 28 ++ Event.sent 1 .clientAuthResult
      (.clientAuthResult ⟨.authorized, .none, 100 + EXPIRY_SECONDS⟩) :: tr.drop 29 := by
    decide +kernel
  have hproof : .proof 1 (tinyProof 7) ∈ tr.take 28 := by decide +kernel
  have hrev : Revoked (tr.take 28) (deriveClientId tiny (tinyKey 7)) := by decide +kernel
  exact (h _ _ _ htr).2 1 _ (tinyProof 7) rfl rfl hproof hrev

end PhoneAuthorization
end MobileWebcamBridge
