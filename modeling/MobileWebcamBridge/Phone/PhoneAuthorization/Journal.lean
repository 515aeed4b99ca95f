import MobileWebcamBridge.Phone.PhoneAuthorization.Approvals

/-!
# The journal of durable writes

The list an owner decides from is the one the last durable write published, and a record of it
carries the time and the key of the last write about its ID.
-/

set_option autoImplicit false

namespace MobileWebcamBridge
namespace PhoneAuthorization

open Wire ClientAuthorization Trace

variable {P : Platform} {a b : PhoneAuthorization P} {thread : ℕ} {t : Task}
  {may : List UInt8 → Prop}
variable {tr es : List Event}

/-! ## Reading the journal off a history -/

/-- The list that is saved. -/
def Event.list? : Event → Option (List Client)
  | .saved _ _ clients => some clients
  | _ => none

/-- The durably written list, from the list read at start. -/
def published (stored : List Client) (tr : List Event) : List Client :=
  (tr.filterMap Event.list?).getLast?.getD stored

/-- The write of the ID, with its time. -/
def Event.writeOf? (id : List UInt8) : Event → Option (Write × ℤ)
  | .saved write now _ => if write.id = id then some (write, now) else none
  | _ => none

/-- The last durable write about an ID, and the time it was given. -/
def lastWrite (id : List UInt8) (tr : List Event) : Option (Write × ℤ) :=
  (tr.filterMap (Event.writeOf? id)).getLast?

/-- Nothing is saved. -/
def Unsaved (es : List Event) : Prop := ∀ e ∈ es, e.list? = none

theorem Event.writeOf?_eq_none {e : Event} (h : e.list? = none) (id : List UInt8) :
    e.writeOf? id = none := by
  cases e <;> simp_all [Event.list?, Event.writeOf?]

theorem Closing.unsaved (h : Closing es) : Unsaved es := by
  intro e he
  have := h e he
  cases e <;> simp_all [Event.closing, Event.list?]

/-- Without a write the published list stands. -/
theorem published_unsaved (clients : List Client) (h : Unsaved es) :
    published clients (tr ++ es) = published clients tr := by
  have hnone : es.filterMap Event.list? = [] := List.filterMap_eq_nil_iff.mpr h
  unfold published
  rw [List.filterMap_append, hnone, List.append_nil]

/-- And so does the last write of an ID. -/
theorem lastWrite_unsaved (id : List UInt8) (h : Unsaved es) :
    lastWrite id (tr ++ es) = lastWrite id tr := by
  have hnone : es.filterMap (Event.writeOf? id) = [] :=
    List.filterMap_eq_nil_iff.mpr fun e he => Event.writeOf?_eq_none (h e he) id
  unfold lastWrite
  rw [List.filterMap_append, hnone, List.append_nil]

theorem published_saved (stored clients : List Client) (tr : List Event) (w : Write) (now : ℤ) :
    published stored (tr ++ [Event.saved w now clients]) = clients := by
  simp [published, List.filterMap_append, Event.list?]

theorem lastWrite_saved (id : List UInt8) (tr : List Event) (w : Write) (now : ℤ)
    (clients : List Client) : lastWrite id (tr ++ [Event.saved w now clients]) =
      if w.id = id then some (w, now) else lastWrite id tr := by
  by_cases h : w.id = id
  · simp [lastWrite, List.filterMap_append, Event.writeOf?, h]
  · simp [lastWrite, List.filterMap_append, Event.writeOf?, h]

theorem lastWrite_isSome {id : List UInt8} {w : Write} {now : ℤ} {clients : List Client}
    (h : .saved w now clients ∈ tr) (hid : w.id = id) : (lastWrite id tr).isSome = true := by
  have hmem : (w, now) ∈ tr.filterMap (Event.writeOf? id) :=
    List.mem_filterMap.mpr ⟨_, h, by simp [Event.writeOf?, hid]⟩
  unfold lastWrite
  rw [List.getLast?_isSome]
  exact List.ne_nil_of_mem hmem

/-! ## What a write does to a record -/

/-- The key of a record that a write made: the approved one, or the renewed record's. -/
def KeyFrom (w : Write) (old : List Client) (c : Client) : Prop :=
  (∃ client, w = .approve client ∧ client.publicKey = c.publicKey) ∨
    (w = .renew c.clientId ∧ ∃ c₀ ∈ old, c₀.clientId = c.clientId ∧ c₀.publicKey = c.publicKey)

/-- A write leaves the records of other IDs, and dates those of its own. -/
theorem record_of_next {w : Write} {old next : List Client} {now : ℤ} {c : Client}
    (h : w.next P old now = some next) (hc : c ∈ next) :
    (c.clientId ≠ w.id ∧ c ∈ old) ∨
      (c.clientId = w.id ∧ c.approvedAtUnixSeconds = now ∧ KeyFrom w old c) := by
  cases w with
  | approve client =>
    simp only [Write.next, ClientAuthorization.approve] at h
    split at h
    · cases h
    split at h
    · cases h
    rw [Option.some.injEq] at h
    rcases List.mem_append.mp (h ▸ hc) with hold | hnew
    · simp only [List.mem_filter, bne_iff_ne] at hold
      exact .inl ⟨hold.2, hold.1⟩
    · rw [List.mem_singleton] at hnew
      subst hnew
      exact .inr ⟨rfl, rfl, .inl ⟨client, rfl, rfl⟩⟩
  | revoke id =>
    simp only [Write.next, ClientAuthorization.revoke, Option.some.injEq] at h
    have hold := h ▸ hc
    simp only [List.mem_filter, bne_iff_ne] at hold
    exact .inl ⟨hold.2, hold.1⟩
  | renew id =>
    simp only [Write.next, ClientAuthorization.renew] at h
    split at h
    · cases h
    rw [Option.some.injEq] at h
    obtain ⟨c₀, hc₀, rfl⟩ := List.mem_map.mp (h ▸ hc)
    by_cases hid : c₀.clientId = id
    · have hren : renewed id now c₀ = { c₀ with
          approvedAtUnixSeconds := now, expiresAtUnixSeconds := now + EXPIRY_SECONDS } := if_pos hid
      rw [hren]
      exact .inr ⟨hid, rfl, .inr ⟨by simp [hid], c₀, hc₀, rfl, rfl⟩⟩
    · have hren : renewed id now c₀ = c₀ := if_neg hid
      rw [hren]
      exact .inl ⟨hid, hc₀⟩

/-! ## The invariant -/

/-- Some durable approval stored the key under the ID. -/
def ApprovedKey (tr : List Event) (id key : List UInt8) : Prop :=
  ∃ client now clients, .saved (.approve client) now clients ∈ tr ∧ client.clientId = id ∧
    client.publicKey = key

/-- The list is what the writes made of it. -/
structure Journal (stored : List Client) (tr : List Event) (a : PhoneAuthorization P) : Prop where
  current : a.repository.clients = published stored tr
  dated : ∀ c ∈ a.repository.clients, ∀ w now, lastWrite c.clientId tr = some (w, now) →
    c.approvedAtUnixSeconds = now ∧ ∀ id, w ≠ .revoke id
  keyed : ∀ c ∈ a.repository.clients, (∃ key, ApprovedKey tr c.clientId key) →
    ApprovedKey tr c.clientId c.publicKey

theorem ApprovedKey.append {id key : List UInt8} (h : ApprovedKey tr id key) (es : List Event) :
    ApprovedKey (tr ++ es) id key := by
  obtain ⟨client, now, clients, h, hid⟩ := h
  exact ⟨client, now, clients, List.mem_append_left _ h, hid⟩

theorem ApprovedKey.of_unsaved {id key : List UInt8} (h : ApprovedKey (tr ++ es) id key)
    (hes : Unsaved es) : ApprovedKey tr id key := by
  obtain ⟨client, now, clients, h, hid⟩ := h
  rcases List.mem_append.mp h with h | h
  · exact ⟨client, now, clients, h, hid⟩
  · cases hes _ h

theorem Journal.unsaved {list : List Client} (h : Journal list tr a) (hes : Unsaved es)
    (hb : b.repository.clients = a.repository.clients) : Journal list (tr ++ es) b := by
  refine ⟨?_, fun c hc w now hw => ?_, fun c hc ⟨key, hk⟩ => ?_⟩
  · rw [published_unsaved list hes, hb, h.current]
  · rw [lastWrite_unsaved _ hes] at hw
    exact h.dated c (hb ▸ hc) w now hw
  · exact (h.keyed c (hb ▸ hc) ⟨key, hk.of_unsaved hes⟩).append es

/-- A write keeps the journal and the list in step. -/
theorem Journal.saved {list next : List Client} {w : Write} {now : ℤ} (h : Journal list tr a)
    (hnext : w.next P a.repository.clients now = some next) (hb : b.repository.clients = next) :
    Journal list (tr ++ [Event.saved w now next]) b := by
  refine ⟨?_, fun c hc w' now' hw => ?_, fun c hc ⟨key, hk⟩ => ?_⟩
  · rw [published_saved, hb]
  · rw [lastWrite_saved] at hw
    rcases record_of_next hnext (hb ▸ hc) with ⟨hid, hold⟩ | ⟨hid, hnow, hkey⟩
    · rw [if_neg (Ne.symm hid)] at hw
      exact h.dated c hold w' now' hw
    · rw [if_pos hid.symm, Option.some.injEq, Prod.mk.injEq] at hw
      obtain ⟨rfl, rfl⟩ := hw
      refine ⟨hnow, fun id hrev => ?_⟩
      rcases hkey with ⟨client, hap, -⟩ | ⟨hren, -⟩
      · rw [hap] at hrev
        cases hrev
      · rw [hren] at hrev
        cases hrev
  · obtain ⟨client, now', clients, hmem, hcl, -⟩ := hk
    have hcases : (∃ key, ApprovedKey tr c.clientId key) ∨ w = .approve client := by
      rcases List.mem_append.mp hmem with hmem | hmem
      · exact .inl ⟨_, client, now', clients, hmem, hcl, rfl⟩
      · simp only [List.mem_singleton, Event.saved.injEq] at hmem
        exact .inr hmem.1.symm
    rcases record_of_next hnext (hb ▸ hc) with ⟨hid, hold⟩ | ⟨hid, -, hkey⟩
    · rcases hcases with hk | rfl
      · exact (h.keyed c hold hk).append _
      · exact absurd hcl.symm hid
    · rcases hkey with ⟨client', rfl, hkey⟩ | ⟨rfl, c₀, hold, hid₀, hkey⟩
      · exact ⟨client', now, next, by simp, hid.symm, hkey⟩
      · rcases hcases with hk | hap
        · have hc₀ := h.keyed c₀ hold (hid₀ ▸ hk)
          rw [hid₀, hkey] at hc₀
          exact hc₀.append _
        · cases hap

/-- Only the section of a write saves. -/
theorem Act.unsaved (h : Act thread may a t b es) :
    (Unsaved es ∧ b.repository.clients = a.repository.clients) ∨
      ∃ w now next, t = .write w now ∧ es = [.saved w now next] ∧
        w.next P a.repository.clients now = some next ∧ b.repository.clients = next := by
  cases h with
  | wrote h => exact .inr ⟨_, _, _, rfl, rfl, h, rfl⟩
  | kept h => exact .inl ⟨by simp [Unsaved], h⟩
  | started _ _ _ =>
    refine .inl ⟨fun e hmem => ?_, rfl⟩
    rcases mem_announce hmem with rfl | ⟨p, rfl⟩ <;> rfl
  | refused _ hs _ =>
    refine .inl ⟨fun e hmem => ?_, congrArg ClientRepository.clients hs.1.repository⟩
    rcases List.mem_cons.mp hmem with rfl | hmem
    · rfl
    · exact hs.2.unsaved e hmem
  | _ => exact .inl ⟨by simp [Unsaved, Event.list?], rfl⟩

theorem journal_init (repository : ClientRepository P) :
    Journal repository.clients [] (init repository) := by
  refine ⟨rfl, fun c _ w now hw => ?_, fun c _ ⟨key, client, now, clients, hmem, _⟩ => ?_⟩
  · cases hw
  · cases hmem

end PhoneAuthorization
end MobileWebcamBridge
