import Mathlib.Data.List.Infix
import MobileWebcamBridge.Phone.PhoneAuthorization.Latch

/-!
# When the stored list still holds a revoked ID

`revoke` takes the ID off the list in a durable write that runs outside the lock, after its first
section. From the first section on, the list that the sections read holds the ID only while that
write is outstanding, or because the write of an `approve` came after it.
-/

set_option autoImplicit false

namespace MobileWebcamBridge
namespace PhoneAuthorization

open Wire ClientAuthorization

variable {P : Platform} {a b : PhoneAuthorization P} {thread : ℕ} {t : Task} {ts : List Task}
variable {tr es : List Event} {stored : ClientRepository P} {th th' : Threads P}
variable {ok : List Event → Threads P → Label → Prop} {id : List UInt8}

/-! ## Statements -/

/-- The task goes on to the durable write of a revocation of the ID. -/
def Task.revokes (id : List UInt8) : Task → Bool
  | .stored (.revoke i) | .write (.revoke i) _ => i == id
  | _ => false

/-- A revocation of the ID has yet to do its durable write. -/
def Outstanding (th : Threads P) (id : List UInt8) : Prop :=
  ∃ p ∈ th.programs, p.head?.any (Task.revokes id) = true

/-- Whether a durable write puts the ID on the list or takes it off. -/
def Event.lists? (id : List UInt8) : Event → Option Bool
  | .saved (.approve client) _ _ => if client.clientId = id then some true else none
  | .saved (.revoke i) _ _ => if i = id then some false else none
  | _ => none

/-- After the first section of a revocation an `approve` of the ID was stored, and no revocation of
it since. -/
def StoredSince (tr : List Event) (id : List UInt8) : Prop :=
  ∃ z ∈ tr.tails, z.head? = some (.revoked id) ∧
    (z.filterMap (Event.lists? id)).getLast? = some true

instance (th : Threads P) (id : List UInt8) : Decidable (Outstanding th id) := by
  unfold Outstanding
  infer_instance

instance (tr : List Event) (id : List UInt8) : Decidable (StoredSince tr id) := by
  unfold StoredSince
  infer_instance

/-- The list holds no record of the ID. -/
def Unlisted (a : PhoneAuthorization P) (id : List UInt8) : Prop :=
  ∀ c ∈ a.repository.clients, c.clientId ≠ id

/-- Why a revoked ID may still be found on the list, or that it cannot be. -/
def Accounted (tr : List Event) (th : Threads P) (id : List UInt8) : Prop :=
  Outstanding th id ∨ StoredSince tr id ∨ th.owner.readable = false ∨ Unlisted th.owner id

/-! ## Histories -/

theorem Event.lists?_eq_none {e : Event} (h : e.list? = none) (id : List UInt8) :
    e.lists? id = none := by
  cases e <;> first | rfl | cases h

/-- Events that store nothing of the ID leave a stored approval the last write. -/
theorem StoredSince.append (h : StoredSince tr id) (hes : ∀ e ∈ es, e.lists? id = none) :
    StoredSince (tr ++ es) id := by
  obtain ⟨z, hz, hhead, hlast⟩ := h
  obtain ⟨x, rfl⟩ := (List.mem_tails _ _).mp hz
  have hnone : es.filterMap (Event.lists? id) = [] := List.filterMap_eq_nil_iff.mpr hes
  refine ⟨z ++ es, (List.mem_tails _ _).mpr ⟨x, by simp⟩, ?_, ?_⟩
  · rw [List.head?_append, hhead]
    rfl
  · rw [List.filterMap_append, hnone, List.append_nil]
    exact hlast

/-- An approval stored now is stored since every revocation so far. -/
theorem storedSince_saved (h : .revoked id ∈ tr) {client : Client} (hid : client.clientId = id)
    (now : ℤ) (clients : List Client) :
    StoredSince (tr ++ [Event.saved (.approve client) now clients]) id := by
  obtain ⟨x, y, rfl⟩ := List.append_of_mem h
  refine ⟨.revoked id :: y ++ [Event.saved (.approve client) now clients],
    (List.mem_tails _ _).mpr ⟨x, by simp⟩, rfl, ?_⟩
  simp [Event.lists?, hid]

/-! ## What a task does to the list -/

/-- A section reads the list and its flags only latch. -/
theorem steady_runTask (ht : ∀ w now, t ≠ .write w now) (a : PhoneAuthorization P) (c : Clock)
    (written : Bool) (thread : ℕ) (ts : List Task) :
    (a.runTask c written thread ts t).1.repository = a.repository ∧
      ((a.failed || a.closed) = true → ((a.runTask c written thread ts t).1.failed ||
        (a.runTask c written thread ts t).1.closed) = true) ∧
      Unsaved (a.runTask c written thread ts t).2.1 := by
  have hsteady := (acts_runTask a c written thread ts t).preserves
    (I := fun tr b => b.repository = a.repository ∧
      ((a.failed || a.closed) = true → (b.failed || b.closed) = true) ∧ Unsaved tr)
    (fun tr b d es hs h => ⟨hs.1.repository.trans h.1, fun hl => hs.1.latched (h.2.1 hl),
      fun e he => (List.mem_append.mp he).elim (h.2.2 e) (hs.2.unsaved e)⟩)
    (fun tr b d es hact h => ?_) (show _ ∧ _ ∧ Unsaved [] from ⟨rfl, id, by simp [Unsaved]⟩)
  · rwa [List.nil_append] at hsteady
  · have hes : Unsaved (tr ++ es) := by
      rcases hact.unsaved with ⟨hes, -⟩ | ⟨w, now, -, hw, -⟩
      · exact fun e he => (List.mem_append.mp he).elim (h.2.2 e) (hes e)
      · exact absurd hw (ht w now)
    cases hact with
    | wrote | kept => exact absurd rfl (ht _ _)
    | refused _ hs _ => exact ⟨hs.1.repository.trans h.1, fun hl => hs.1.latched (h.2.1 hl), hes⟩
    | _ => exact ⟨h.1, h.2.1, hes⟩

/-- What a write leaves unlisted. -/
theorem unlisted_next {w : Write} {old next : List Client} {now : ℤ}
    (h : w.next P old now = some next) (hold : w = .revoke id ∨ ∀ c ∈ old, c.clientId ≠ id)
    (hw : ∀ client, w = .approve client → client.clientId ≠ id) : ∀ c ∈ next, c.clientId ≠ id := by
  intro c hc hid
  rcases record_of_next h hc with ⟨hne, hmem⟩ |
    ⟨hown, -, ⟨client, rfl, -⟩ | ⟨rfl, c₀, hmem, hid₀, -⟩⟩
  · rcases hold with rfl | hold
    · exact hne hid
    · exact hold c hmem hid
  · exact hw client rfl (hown.symm.trans hid)
  · rcases hold with hold | hold
    · cases hold
    · exact hold c₀ hmem (hid₀.trans hid)

theorem publish_healthy {r : ClientRepository P} (next : List Client) (written : Bool)
    (h : r.healthy = false) : (r.publish next written).1.healthy = false := by
  unfold ClientRepository.publish
  split
  · split
    · exact h
    · rfl
  · exact h

/-- A repository that failed stays so. -/
theorem run_unhealthy {r : ClientRepository P} (now : ℤ) (written : Bool) (w : Write)
    (h : r.healthy = false) : (w.run r now written).1.healthy = false := by
  cases w with
  | approve client =>
    simp only [Write.run, ClientRepository.approve]
    split
    · exact publish_healthy _ written h
    · exact h
  | revoke id =>
    simp only [Write.run, ClientRepository.revoke]
    split
    · exact h
    · split
      · exact h
      · exact publish_healthy _ written h
  | renew id =>
    simp only [Write.run, ClientRepository.renew]
    split
    · exact h
    · split
      · exact publish_healthy _ written h
      · exact h

/-- The durable write of a revocation takes the ID off the list, or the storage fails. -/
theorem revoke_unlists (r : ClientRepository P) (hsize : id.length = CLIENT_ID_BYTES)
    (written : Bool) :
    (∀ c ∈ (r.revoke id written).1.clients, c.clientId ≠ id) ∨
      (r.revoke id written).1.healthy = false := by
  have hnext : ∀ c ∈ ClientAuthorization.revoke r.clients id, c.clientId ≠ id := by
    intro c hc
    simpa using (List.mem_filter.mp hc).2
  unfold ClientRepository.revoke
  rw [if_neg (by simp [hsize])]
  dsimp only
  split
  · next hsame => exact .inl (hsame ▸ hnext)
  · unfold ClientRepository.publish
    rw [dif_pos (revoke_valid r.valid id)]
    cases written with
    | true => exact .inl hnext
    | false => exact .inr rfl

theorem unreadable (hr : b.repository = a.repository)
    (hl : (a.failed || a.closed) = true → (b.failed || b.closed) = true)
    (h : a.readable = false) : b.readable = false := by
  unfold readable at h ⊢
  rw [hr]
  by_cases hf : (a.failed || a.closed) = true
  · rw [hl hf]
    rfl
  · simp only [hf, Bool.not_false, Bool.true_and] at h
    rw [h, Bool.and_false]

/-! ## Programs -/

theorem outstanding_here {program : List Task} (hprog : th.programs[thread]? = some (t :: ts))
    (hhead : program.head?.any (Task.revokes id) = true) :
    Outstanding { owner := b, programs := th.programs.set thread program } id :=
  ⟨program, List.mem_set (List.getElem?_eq_some_iff.mp hprog).1 _, hhead⟩

/-- A revocation that another thread has to write stays outstanding. -/
theorem Outstanding.elsewhere (h : Outstanding th id)
    (hprog : th.programs[thread]? = some (t :: ts)) (b : PhoneAuthorization P)
    (program : List Task) :
    t.revokes id = true ∨
      Outstanding { owner := b, programs := th.programs.set thread program } id := by
  obtain ⟨p, hp, hhead⟩ := h
  obtain ⟨k, hk⟩ := List.mem_iff_getElem?.mp hp
  by_cases hkt : thread = k
  · subst hkt
    obtain rfl := Option.some.inj (hk.symm.trans hprog)
    exact .inl hhead
  · refine .inr ⟨p, List.mem_of_getElem? (i := k) ?_, hhead⟩
    exact (List.getElem?_set_ne hkt).trans hk

/-- A revocation that completes its first section has its durable write to do. -/
theorem outstanding_of_revoked {c : Clock} {written : Bool}
    (h : .revoked id ∈ (a.runTask c written thread ts t).2.1) :
    id.length = CLIENT_ID_BYTES ∧
      (a.runTask c written thread ts t).2.2.head?.any (Task.revokes id) = true := by
  have ht : t = .enter (.revoke id) := by
    have hacts := (acts_runTask a c written thread ts t).preserves
      (I := fun tr _ => .revoked id ∈ tr → t = .enter (.revoke id))
      (fun tr b d es hs h hmem => (List.mem_append.mp hmem).elim h fun he => by cases hs.2 _ he)
      (fun tr b d es hact h hmem => (List.mem_append.mp hmem).elim h fun he => ?_)
      (show Event.revoked id ∈ [] → t = .enter (.revoke id) by simp)
    · exact hacts h
    · cases hact with
      | revoked =>
        simp only [List.mem_singleton, Event.revoked.injEq] at he
        rw [he]
      | started _ _ _ => rcases mem_announce he with he | ⟨p, he⟩ <;> cases he
      | refused _ hs _ =>
        rcases List.mem_cons.mp he with he | he
        · cases he
        · cases hs.2 _ he
      | _ => simp at he
  subst ht
  have hstops : (a.beginRevocation c id).2.2 = true → id.length = CLIENT_ID_BYTES := by
    unfold beginRevocation
    split
    · next hsize => exact fun h => by cases h
    · next hsize => exact fun _ => by simpa using hsize
  have hquiet : (a.beginRevocation c id).2.2 = false → (a.beginRevocation c id).2.1 = [] := by
    unfold beginRevocation
    split
    · exact fun _ => rfl
    · exact fun h => by cases h
  simp only [runTask, enter] at h ⊢
  generalize a.beginRevocation c id = q at h hstops hquiet ⊢
  obtain ⟨b, es, _ | _⟩ := q
  · obtain rfl : es = [] := hquiet rfl
    cases h
  · exact ⟨hstops rfl, by simp [Task.revokes]⟩

/-! ## One step -/

/-- The thread that has to write a revocation writes it, or the owner has latched. -/
theorem accounted_revokes (ht : t.revokes id = true) (hsize : id.length = CLIENT_ID_BYTES)
    (hprog : th.programs[thread]? = some (t :: ts)) (c : Clock) (written : Bool) :
    Accounted tr
      { owner := (th.owner.runTask c written thread ts t).1
        programs := th.programs.set thread (th.owner.runTask c written thread ts t).2.2 } id := by
  cases t with
  | stored w =>
    simp only [runTask]
    split
    · next hl => exact .inr (.inr (.inl (by simp [readable, hl])))
    · refine .inl (outstanding_here hprog ?_)
      cases w with
      | revoke i => exact ht
      | _ => cases ht
  | write w now =>
    cases w with
    | revoke i =>
      obtain rfl : i = id := by simpa [Task.revokes] using ht
      rcases revoke_unlists th.owner.repository hsize written with hunlisted | hunhealthy
      · refine .inr (.inr (.inr ?_))
        simp only [runTask, Write.run]
        generalize th.owner.repository.revoke i written = q at hunlisted
        obtain ⟨r, _ | _ | _⟩ := q <;> exact hunlisted
      · refine .inr (.inr (.inl ?_))
        simp only [runTask, Write.run]
        generalize th.owner.repository.revoke i written = q at hunhealthy
        obtain ⟨r, _ | _ | _⟩ := q <;> simp [readable, show r.healthy = false from hunhealthy]
    | _ => cases ht
  | _ => cases ht

/-- What a durable write does to the owner, and what it shows. -/
theorem runTask_write (a : PhoneAuthorization P) (c : Clock) (written : Bool) (thread : ℕ)
    (ts : List Task) (w : Write) (now : ℤ) :
    (a.runTask c written thread ts (.write w now)).1 =
        { a with repository := (w.run a.repository now written).1 } ∧
      (a.runTask c written thread ts (.write w now)).2.1 =
        if (w.run a.repository now written).2 = .saved then
          [.saved w now (w.run a.repository now written).1.clients]
        else [] := by
  simp only [runTask]
  generalize w.run a.repository now written = q
  obtain ⟨r, _ | _ | _⟩ := q <;> exact ⟨rfl, rfl⟩

/-- Any other durable write. -/
theorem accounted_write {w : Write} {now : ℤ} (h : Accounted tr th id) (hrev : .revoked id ∈ tr)
    (hw : w ≠ .revoke id) (hprog : th.programs[thread]? = some (.write w now :: ts)) (c : Clock)
    (written : Bool) :
    Accounted (tr ++ (th.owner.runTask c written thread ts (.write w now)).2.1)
      { owner := (th.owner.runTask c written thread ts (.write w now)).1
        programs :=
          th.programs.set thread (th.owner.runTask c written thread ts
            (.write w now)).2.2 } id := by
  have hown : (Task.write w now).revokes id = false := by
    cases w with
    | revoke i => simpa [Task.revokes] using fun h : i = id => hw (by rw [h])
    | _ => rfl
  obtain ⟨howner, hevents⟩ := runTask_write th.owner c written thread ts w now
  have hpublished := write_published th.owner.repository now written w
  have hunhealthy := run_unhealthy (r := th.owner.repository) now written w
  rw [howner, hevents]
  generalize (th.owner.runTask c written thread ts (.write w now)).2.2 = program
  generalize w.run th.owner.repository now written = q at hpublished hunhealthy ⊢
  -- an approval of the ID that is stored, or a write that leaves the ID as it was
  by_cases hstored : ∃ client, w = .approve client ∧ client.clientId = id ∧ q.2 = .saved
  · obtain ⟨client, rfl, hid, hsaved⟩ := hstored
    rw [if_pos hsaved]
    exact .inr (.inl (storedSince_saved hrev hid now q.1.clients))
  have hquiet : ∀ e ∈ if q.2 = .saved then [Event.saved w now q.1.clients] else [],
      e.lists? id = none := by
    intro e he
    split at he
    · next hsaved =>
      obtain rfl := List.mem_singleton.mp he
      cases w with
      | approve client => exact if_neg fun hid => hstored ⟨client, rfl, hid, hsaved⟩
      | revoke i => exact if_neg fun hid => hw (by rw [hid])
      | renew i => rfl
    · cases he
  rcases h with h | h | h | h
  · rcases h.elsewhere hprog { th.owner with repository := q.1 } program with ht | h
    · rw [hown] at ht
      cases ht
    · exact .inl h
  · exact .inr (.inl (h.append hquiet))
  · refine .inr (.inr (.inl ?_))
    unfold readable at h ⊢
    simp only [Bool.and_eq_false_iff] at h ⊢
    exact h.imp_right hunhealthy
  · refine .inr (.inr (.inr ?_))
    rcases hpublished with ⟨hsaved, hnext⟩ | ⟨-, hsame⟩
    · refine unlisted_next hnext (.inr h) ?_
      rintro client rfl hid
      exact hstored ⟨client, rfl, hid, hsaved⟩
    · intro c hc
      exact h c (hsame ▸ hc)

/-- A section that is no durable write. -/
theorem accounted_section (h : Accounted tr th id) (ht : ∀ w now, t ≠ .write w now)
    (hown : t.revokes id = false) (hprog : th.programs[thread]? = some (t :: ts)) (c : Clock)
    (written : Bool) :
    Accounted (tr ++ (th.owner.runTask c written thread ts t).2.1)
      { owner := (th.owner.runTask c written thread ts t).1
        programs := th.programs.set thread (th.owner.runTask c written thread ts t).2.2 } id := by
  obtain ⟨hrepository, hlatched, hunsaved⟩ := steady_runTask ht th.owner c written thread ts
  rcases h with h | h | h | h
  · rcases h.elsewhere hprog _ _ with ht | h
    · rw [hown] at ht
      cases ht
    · exact .inl h
  · exact .inr (.inl (h.append fun e he => Event.lists?_eq_none (hunsaved e he) id))
  · exact .inr (.inr (.inl (unreadable hrepository hlatched h)))
  · refine .inr (.inr (.inr fun c hc => h c ?_))
    rwa [show (th.owner.runTask _ _ _ _ t).1.repository = _ from hrepository] at hc

/-! ## Every run -/

/-- **A revoked ID is off the list** unless its durable write is outstanding or an approval of it
was stored since, in every run, as long as the list can be read. -/
theorem accounted (h : (system stored).Under ok tr th) :
    ∀ id, .revoked id ∈ tr → id.length = CLIENT_ID_BYTES ∧ Accounted tr th id := by
  refine h.invariant (P := fun tr th =>
    ∀ id, .revoked id ∈ tr → id.length = CLIENT_ID_BYTES ∧ Accounted tr th id) ?_ ?_
  · intro th _ id hmem
    cases hmem
  · intro tr th l th' es _ _ ih hs id hmem
    cases moved_of_step hs with
    | call call =>
      have hold : .revoked id ∈ tr := by simpa using hmem
      obtain ⟨hsize, h⟩ := ih id hold
      refine ⟨hsize, ?_⟩
      rcases h with ⟨p, hp, hhead⟩ | h | h
      · exact .inl ⟨p, List.mem_append_left _ hp, hhead⟩
      · exact .inr (.inl (h.append (by simp [Event.lists?])))
      · exact .inr (.inr h)
    | @task thread c written t ts hprog =>
      by_cases hnew : .revoked id ∈ (th.owner.runTask c written thread ts t).2.1
      · obtain ⟨hsize, hhead⟩ := outstanding_of_revoked hnew
        exact ⟨hsize, .inl (outstanding_here hprog hhead)⟩
      obtain ⟨hsize, h⟩ := ih id ((List.mem_append.mp hmem).resolve_right hnew)
      refine ⟨hsize, ?_⟩
      by_cases hown : t.revokes id = true
      · exact accounted_revokes hown hsize hprog c written
      have hown : t.revokes id = false := by simpa using hown
      by_cases hwrite : ∃ w now, t = .write w now
      · obtain ⟨w, now, rfl⟩ := hwrite
        refine accounted_write h ((List.mem_append.mp hmem).resolve_right hnew) ?_ hprog c written
        rintro rfl
        simp [Task.revokes] at hown
      · exact accounted_section h (fun w now ht => hwrite ⟨w, now, ht⟩) hown hprog c written

end PhoneAuthorization
end MobileWebcamBridge
