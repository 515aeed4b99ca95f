import MobileWebcamBridge.Phone.ClientStore

/-!
# What a reset erases stays erased

Stores are compared by the generation they were created in, and clients by the stores that approved
them. `Inv` says of every reset that has returned: what the stores since then know, what their
records hold and what they have loaded was approved since then, and the record and the key, when
they exist at all, were written since then. The only steps that break it are those of a writer that
passed its check in a generation that has ended.
-/

set_option autoImplicit false

namespace MobileWebcamBridge
namespace ClientStore

open ClientAuthorization Trace

variable {P : Platform} {tr es : List Event} {s : State P} {e i : ℕ}

/-! ## Statements -/

/-- The store was created in the generation or a later one. -/
def Since (tr : List Event) (e i : ℕ) : Prop := ∃ g, e ≤ g ∧ .opened i g ∈ tr

/-- A store of the generation or a later one has approved the key. -/
def Approved (tr : List Event) (e : ℕ) (key : List UInt8) : Prop :=
  ∃ i, Since tr e i ∧ .approved i key ∈ tr

/-- The step is not one of a writer whose generation has ended: it does not generate the key, and it
does not commit the record, unless the reset that ended the generation has yet to remove it. -/
def NoStaleWriter (_ : List Event) (s : State P) : Label → Prop
  | .step i ok =>
    match s.stores[i]? with
    | some ⟨born, .keying _⟩ => ok = true → s.disk.key = none → born = s.epoch
    | some ⟨born, .committing _ _⟩ =>
      born = s.epoch ∨ (s.clearing = some .remove ∧ born + 1 = s.epoch)
    | _ => True
  | _ => True

/-- Whatever reset of a generation up to `b` has returned, the clients were approved since it. -/
def Fresh (tr : List Event) (b : ℕ) (clients : List Client) : Prop :=
  ∀ e ≤ b, .cleared e ∈ tr → ∀ c ∈ clients, Approved tr e c.publicKey

/-- The epochs of the stores, and that a reset which has returned leaves nothing
of theirs behind. -/
structure Inv (tr : List Event) (s : State P) : Prop where
  cleared : ∀ e, .cleared e ∈ tr → e ≤ s.epoch ∧ (s.clearing ≠ none → e < s.epoch)
  opened : ∀ i g, .opened i g ∈ tr ↔ ∃ st, s.stores[i]? = some st ∧ st.born = g
  born : ∀ st ∈ s.stores, st.born ≤ s.epoch
  /-- While a reset holds the lock, no constructor that started during it returns. -/
  young : s.clearing ≠ none → ∀ st ∈ s.stores, st.born = s.epoch → st.phase.isOpen = false
  removed : s.clearing = some .delete → s.disk.record = none
  /-- Keys are numbered in order, so a key generated later is another one. -/
  key : ∀ k, s.disk.key = some k → k < s.disk.generated
  record : ∀ record, s.disk.record = some record → record.key < s.disk.generated
  fetched : ∀ st ∈ s.stores, ∀ record, st.phase.record? = some record →
    record.key < s.disk.generated
  taken : ∀ st ∈ s.stores, ∀ k, st.phase.key? = some k → k < s.disk.generated
  known : ∀ st ∈ s.stores, Fresh tr st.born st.phase.known
  /-- A record that the present key opens. -/
  readable : ∀ record, s.disk.record = some record → s.disk.key = some record.key →
    Fresh tr s.epoch record.clients
  reading : ∀ st ∈ s.stores, ∀ record, st.phase.record? = some record →
    s.disk.key = some record.key → Fresh tr s.epoch record.clients
  loaded : ∀ i clients, .loaded i clients ∈ tr →
    ∃ st, s.stores[i]? = some st ∧ st.phase.isOpen = true ∧ Fresh tr st.born clients
  written : ∀ x e z, tr = x ++ Event.cleared e :: z → s.disk.record ≠ none →
    ∃ i, Since tr e i ∧ .wrote i ∈ z
  keyed : ∀ x e z, tr = x ++ Event.cleared e :: z → s.disk.key ≠ none →
    ∃ i, Since tr e i ∧ .keyed i ∈ z

/-- A store that was created since a reset. -/
theorem Since.append (h : Since tr e i) (es : List Event) : Since (tr ++ es) e i := by
  obtain ⟨g, hg, hmem⟩ := h
  exact ⟨g, hg, List.mem_append_left _ hmem⟩

/-- A PC that was approved since a reset. -/
theorem Approved.append {key : List UInt8} (h : Approved tr e key) (es : List Event) :
    Approved (tr ++ es) e key := by
  obtain ⟨i, hi, hmem⟩ := h
  exact ⟨i, hi.append es, List.mem_append_left _ hmem⟩

/-- While no reset returns, what is fresh stays fresh. -/
theorem Fresh.append {b : ℕ} {clients : List Client} (h : Fresh tr b clients)
    (hes : ∀ e, .cleared e ∉ es) : Fresh (tr ++ es) b clients := by
  intro e he hmem c hc
  rcases List.mem_append.mp hmem with hmem | hmem
  · exact (h e he hmem c hc).append es
  · exact absurd hmem (hes e)

/-! ## Steps of a store -/

section touches

variable {phase phase' : Phase P} {ok : Bool} {disk : Disk}

/-- A store clears nothing. -/
theorem Touches.not_cleared (h : Touches s i phase ok disk es) (e : ℕ) : .cleared e ∉ es := by
  cases h <;> simp

/-- A store opens no other. -/
theorem Touches.not_opened (h : Touches s i phase ok disk es) (j g : ℕ) : .opened j g ∉ es := by
  cases h <;> simp

/-- A store loads for itself. -/
theorem Touches.loads_own (h : Touches s i phase ok disk es) {j : ℕ} {clients : List Client}
    (hmem : .loaded j clients ∈ es) : j = i := by
  cases h <;> simp at hmem
  exact hmem.1

/-- Keys are numbered upwards. -/
theorem Touches.generated_le (h : Touches s i phase ok disk es) :
    s.disk.generated ≤ disk.generated := by
  cases h with
  | generates => exact Nat.le_succ _
  | _ => exact Nat.le_refl _

/-- The key is the one there was or the next number. -/
theorem Touches.key_eq (h : Touches s i phase ok disk es) {k : ℕ} (hk : disk.key = some k) :
    s.disk.key = some k ∨ (k = s.disk.generated ∧ k < disk.generated) := by
  cases h with
  | generates =>
    obtain rfl := Option.some.inj hk
    exact .inr ⟨rfl, Nat.lt_succ_self _⟩
  | _ => exact .inl hk

/-- The record is the one there was or the list being written. -/
theorem Touches.record_eq (h : Touches s i phase ok disk es) {record : Record}
    (hr : disk.record = some record) :
    (s.disk.record = some record) ∨ ∃ p k, phase = .committing p k ∧ record = ⟨k, p.next⟩ := by
  cases h with
  | writes hphase => exact .inr ⟨_, _, hphase, (Option.some.inj hr).symm⟩
  | _ => exact .inl hr

end touches

section update

variable {st : Store P} {phase' : Phase P} {ok : Bool} {disk : Disk}

/-- What a store knows after its step was approved since every reset it outlived. -/
theorem Inv.fresh_known (h : Inv tr s) (hst : s.stores[i]? = some st)
    (ht : Touches s i st.phase ok disk es) (hm : Moves s i st.phase disk phase' es) :
    Fresh (tr ++ es) st.born phase'.known := by
  have hmem := List.mem_of_getElem? hst
  intro e he hcleared c hc
  have hcleared : .cleared e ∈ tr := (List.mem_append.mp hcleared).resolve_right (ht.not_cleared e)
  rcases hm.known c hc with ⟨c', hc', hkey⟩ | happroved | ⟨record, hrecord, hkey, hc⟩
  · rw [← hkey]
    exact (h.known st hmem e he hcleared c' hc').append es
  · refine ⟨i, ⟨st.born, he, List.mem_append_left _ ?_⟩, List.mem_append_right _ happroved⟩
    exact (h.opened i st.born).mpr ⟨st, hst, rfl⟩
  · have hepoch := (h.cleared e hcleared).1
    exact (h.reading st hmem record hrecord hkey e hepoch hcleared c hc).append es

/-- A record that is written was approved since every reset that has returned. -/
theorem Inv.fresh_written (h : Inv tr s) (hst : s.stores[i]? = some st) {p : Publishing P} {k : ℕ}
    (hphase : st.phase = .committing p k)
    (hok : st.born = s.epoch ∨ (s.clearing = some .remove ∧ st.born + 1 = s.epoch)) :
    (∀ e, .cleared e ∈ tr → e ≤ st.born) ∧ Fresh tr s.epoch p.next := by
  have hborn (e : ℕ) (hcleared : .cleared e ∈ tr) : e ≤ st.born := by
    obtain ⟨hle, hlt⟩ := h.cleared e hcleared
    rcases hok with hok | ⟨hremove, hok⟩
    · omega
    · have hlt := hlt (by rw [hremove]; nofun)
      omega
  refine ⟨hborn, fun e _ hcleared c hc => ?_⟩
  apply h.known st (List.mem_of_getElem? hst) e (hborn e hcleared) hcleared
  rw [hphase]
  exact List.mem_append_right _ hc

/-- A step of a store keeps the invariant. -/
theorem Inv.update (h : Inv tr s) (hst : s.stores[i]? = some st)
    (ht : Touches s i st.phase ok disk es) (hm : Moves s i st.phase disk phase' es)
    (hkeying : ∀ p, st.phase = .keying p → ok = true → s.disk.key = none → st.born = s.epoch)
    (hcommit : ∀ p k, st.phase = .committing p k →
      st.born = s.epoch ∨ (s.clearing = some .remove ∧ st.born + 1 = s.epoch)) :
    Inv (tr ++ es) { s with disk, stores := s.stores.set i ⟨st.born, phase'⟩ } := by
  have hmem := List.mem_of_getElem? hst
  have hlt : i < s.stores.length := (List.getElem?_eq_some_iff.mp hst).1
  have hnew := h.fresh_known hst ht hm
  have hopened : .opened i st.born ∈ tr := (h.opened i st.born).mpr ⟨st, hst, rfl⟩
  have hcleared (e : ℕ) (he : .cleared e ∈ tr ++ es) : .cleared e ∈ tr :=
    (List.mem_append.mp he).resolve_right (ht.not_cleared e)
  have hgenerated := ht.generated_le
  refine ⟨fun e he => h.cleared e (hcleared e he), fun j g => ?_, ?_, ?_, ?_, ?_, ?_,
    ?_, ?_, ?_, ?_, ?_, ?_, ?_, ?_⟩
  -- opened
  · rw [List.mem_append, or_iff_left (ht.not_opened j g), h.opened]
    show _ ↔ ∃ st', (s.stores.set i ⟨st.born, phase'⟩)[j]? = some st' ∧ _
    by_cases hj : i = j
    · subst hj
      rw [List.getElem?_set_self hlt, hst]
      simp
    · rw [List.getElem?_set_ne hj]
  -- born
  · intro st' hst'
    rcases List.mem_or_eq_of_mem_set hst' with hst' | rfl
    · exact h.born st' hst'
    · exact h.born st hmem
  -- young
  · intro hclearing st' hst' hborn
    rcases List.mem_or_eq_of_mem_set hst' with hst' | rfl
    · exact h.young hclearing st' hst' hborn
    · have hclosed := h.young hclearing st hmem hborn
      by_contra hopen
      rcases hm.opens (by simpa using hopen) with hphase | hnone
      · rw [hclosed] at hphase
        cases hphase
      · exact hclearing hnone
  -- removed
  · intro hclearing
    have hnone := h.removed hclearing
    cases hdisk : disk.record with
    | none => rfl
    | some record =>
      rcases ht.record_eq hdisk with hold | ⟨p, k, hphase, -⟩
      · rw [hnone] at hold
        cases hold
      · -- a store of the running generation is still in its constructor
        rcases hcommit p k hphase with hborn | ⟨hremove, -⟩
        · have hclosed := h.young (by rw [hclearing]; nofun) st hmem hborn
          rw [hphase] at hclosed
          cases hclosed
        · rw [hclearing] at hremove
          cases hremove
  -- key
  · intro k hk
    rcases ht.key_eq hk with hold | ⟨-, hlt⟩
    · exact Nat.lt_of_lt_of_le (h.key k hold) hgenerated
    · exact hlt
  -- record
  · intro record hrecord
    rcases ht.record_eq hrecord with hold | ⟨p, k, hphase, rfl⟩
    · exact Nat.lt_of_lt_of_le (h.record record hold) hgenerated
    · exact Nat.lt_of_lt_of_le (h.taken st hmem k (by rw [hphase]; rfl)) hgenerated
  -- fetched
  · intro st' hst' record hr
    rcases List.mem_or_eq_of_mem_set hst' with hst' | rfl
    · exact Nat.lt_of_lt_of_le (h.fetched st' hst' record hr) hgenerated
    · exact Nat.lt_of_lt_of_le (h.record record (hm.record record hr)) hgenerated
  -- taken
  · intro st' hst' k hk
    rcases List.mem_or_eq_of_mem_set hst' with hst' | rfl
    · exact Nat.lt_of_lt_of_le (h.taken st' hst' k hk) hgenerated
    · rcases hm.key k hk with hold | hdisk
      · exact Nat.lt_of_lt_of_le (h.taken st hmem k hold) hgenerated
      · rcases ht.key_eq hdisk with hold | ⟨-, hlt⟩
        · exact Nat.lt_of_lt_of_le (h.key k hold) hgenerated
        · exact hlt
  -- known
  · intro st' hst'
    rcases List.mem_or_eq_of_mem_set hst' with hst' | rfl
    · exact (h.known st' hst').append ht.not_cleared
    · exact hnew
  -- readable
  · intro record hrecord hkey
    rcases ht.record_eq hrecord with hold | ⟨p, k, hphase, rfl⟩
    · rcases ht.key_eq hkey with hsame | ⟨heq, -⟩
      · exact (h.readable record hold hsame).append ht.not_cleared
      · have := h.record record hold
        omega
    · exact (h.fresh_written hst hphase (hcommit p k hphase)).2.append ht.not_cleared
  -- reading
  · have hkey (record : Record) (hlt : record.key < s.disk.generated)
        (hk : disk.key = some record.key) : s.disk.key = some record.key := by
      rcases ht.key_eq hk with hsame | ⟨heq, -⟩
      · exact hsame
      · omega
    intro st' hst' record hr hk
    rcases List.mem_or_eq_of_mem_set hst' with hst' | rfl
    · have hsame := hkey record (h.fetched st' hst' record hr) hk
      exact (h.reading st' hst' record hr hsame).append ht.not_cleared
    · have hold := hm.record record hr
      exact (h.readable record hold (hkey record (h.record record hold) hk)).append ht.not_cleared
  -- loaded
  · intro j clients hload
    show ∃ st', (s.stores.set i ⟨st.born, phase'⟩)[j]? = some st' ∧ _
    rcases List.mem_append.mp hload with hload | hload
    · obtain ⟨st', hst', hopen, hfresh⟩ := h.loaded j clients hload
      by_cases hj : i = j
      · subst hj
        rw [hst] at hst'
        obtain rfl := Option.some.inj hst'
        rw [List.getElem?_set_self hlt]
        exact ⟨_, rfl, hm.isOpen hopen, hfresh.append ht.not_cleared⟩
      · rw [List.getElem?_set_ne hj]
        exact ⟨st', hst', hopen, hfresh.append ht.not_cleared⟩
    · obtain rfl := ht.loads_own hload
      rw [List.getElem?_set_self hlt]
      obtain ⟨hopen, rfl⟩ := hm.loaded clients hload
      exact ⟨_, rfl, hopen, hnew⟩
  -- written
  · intro x e z hsplit hrecord
    obtain ⟨z', htr, rfl⟩ := of_append_eq hsplit (ht.not_cleared e)
    by_cases hwrites : ∃ p k, st.phase = .committing p k ∧ .wrote i ∈ es
    · obtain ⟨p, k, hphase, hwrote⟩ := hwrites
      have hborn := (h.fresh_written hst hphase (hcommit p k hphase)).1 e (by simp [htr])
      exact ⟨i, ⟨_, hborn, List.mem_append_left _ hopened⟩, List.mem_append_right _ hwrote⟩
    · have hold : s.disk.record ≠ none := by
        cases ht with
        | writes hphase => exact absurd ⟨_, _, hphase, List.mem_singleton_self _⟩ hwrites
        | _ => exact hrecord
      obtain ⟨j, hj, hwrote⟩ := h.written x e z' htr hold
      exact ⟨j, hj.append es, List.mem_append_left _ hwrote⟩
  -- keyed
  · intro x e z hsplit hkey
    obtain ⟨z', htr, rfl⟩ := of_append_eq hsplit (ht.not_cleared e)
    have hepoch := (h.cleared e (by simp [htr])).1
    cases ht with
    | generates hphase hok _ hnone =>
      have hborn := hkeying _ hphase hok hnone
      exact ⟨i, ⟨st.born, by omega, List.mem_append_left _ hopened⟩,
        List.mem_append_right _ (List.mem_singleton_self _)⟩
    | _ =>
      obtain ⟨j, hj, hkeyed⟩ := h.keyed x e z' htr hkey
      exact ⟨j, hj.append _, List.mem_append_left _ hkeyed⟩

end update

/-! ## Runs -/

/-- The invariant holds at the start. -/
theorem inv_start (h : (system P).start s) : Inv [] s := by
  obtain ⟨hepoch, hclearing, hstores, hkey, hrecord⟩ := h
  have hnone (st : Store P) : st ∉ s.stores := by
    rw [hstores]
    exact List.not_mem_nil
  refine ⟨nofun, fun i g => ⟨nofun, ?_⟩, fun st hst => absurd hst (hnone st), ?_, ?_, hkey, hrecord,
    fun st hst => absurd hst (hnone st), fun st hst => absurd hst (hnone st),
    fun st hst => absurd hst (hnone st), fun _ _ _ _ _ => nofun,
    fun st hst => absurd hst (hnone st), nofun, ?_, ?_⟩
  · rintro ⟨st, hst, -⟩
    exact absurd (List.mem_of_getElem? hst) (hnone st)
  · intro h
    exact absurd hclearing h
  · intro h
    rw [hclearing] at h
    cases h
  · intro x e z h
    simp at h
  · intro x e z h
    simp at h

/-- A store is created; its constructor has not run yet. -/
theorem Inv.openStore (h : Inv tr s) :
    Inv (tr ++ [Event.opened s.stores.length s.epoch])
      { s with stores := s.stores ++ [⟨s.epoch, .contains⟩] } := by
  have hes (e : ℕ) : Event.cleared e ∉ [Event.opened s.stores.length s.epoch] := by simp
  have hcleared (e : ℕ) (he : Event.cleared e ∈ tr ++ [Event.opened s.stores.length s.epoch]) :
      .cleared e ∈ tr := (List.mem_append.mp he).resolve_right (hes e)
  -- a property of all stores that a store in its constructor has
  have hall {Q : Store P → Prop} (hold : ∀ st ∈ s.stores, Q st) (hnew : Q ⟨s.epoch, .contains⟩) :
      ∀ st ∈ s.stores ++ [⟨s.epoch, .contains⟩], Q st := by
    intro st hst
    rcases List.mem_append.mp hst with hst | hst
    · exact hold st hst
    · rw [List.mem_singleton.mp hst]
      exact hnew
  refine ⟨fun e he => h.cleared e (hcleared e he), fun j g => ?_, ?_, ?_, h.removed,
    h.key, h.record,
    ?_, ?_, ?_, fun record hr hk => (h.readable record hr hk).append hes, ?_, ?_, ?_, ?_⟩
  · rw [List.mem_append, h.opened, List.mem_singleton]
    show _ ↔ ∃ st, (s.stores ++ [⟨s.epoch, .contains⟩])[j]? = some st ∧ st.born = g
    rcases Nat.lt_trichotomy j s.stores.length with hj | rfl | hj
    · rw [List.getElem?_append_left hj]
      constructor
      · rintro (hold | hnew)
        · exact hold
        · obtain ⟨rfl, -⟩ := Event.opened.inj hnew
          omega
      · exact .inl
    · rw [List.getElem?_concat_length]
      constructor
      · rintro (⟨st, hst, -⟩ | hnew)
        · rw [List.getElem?_eq_none (Nat.le_refl _)] at hst
          cases hst
        · exact ⟨_, rfl, (Event.opened.inj hnew).2.symm⟩
      · rintro ⟨st, hst, rfl⟩
        obtain rfl := Option.some.inj hst
        exact .inr rfl
    · have hnone : (s.stores ++ [(⟨s.epoch, .contains⟩ : Store P)])[j]? = none := by
        apply List.getElem?_eq_none
        rw [List.length_append, List.length_singleton]
        omega
      rw [hnone, List.getElem?_eq_none (by omega)]
      constructor
      · rintro (⟨st, hst, -⟩ | hnew)
        · cases hst
        · obtain ⟨rfl, -⟩ := Event.opened.inj hnew
          omega
      · rintro ⟨st, hst, -⟩
        cases hst
  · exact hall h.born (Nat.le_refl _)
  · exact fun hclearing => hall (h.young hclearing) fun _ => rfl
  · exact hall h.fetched nofun
  · exact hall h.taken nofun
  · exact hall (fun st hst => (h.known st hst).append hes) fun _ _ _ _ => nofun
  · exact hall (fun st hst record hr hk => (h.reading st hst record hr hk).append hes) nofun
  · intro j clients hload
    have hload : .loaded j clients ∈ tr := (List.mem_append.mp hload).resolve_right (by simp)
    obtain ⟨st, hst, hopen, hfresh⟩ := h.loaded j clients hload
    refine ⟨st, ?_, hopen, hfresh.append hes⟩
    show (s.stores ++ _)[j]? = some st
    rw [List.getElem?_append_left (List.getElem?_eq_some_iff.mp hst).1, hst]
  · intro x e z hsplit hrecord
    obtain ⟨z', htr, rfl⟩ := of_append_eq hsplit (hes e)
    obtain ⟨j, hj, hwrote⟩ := h.written x e z' htr hrecord
    exact ⟨j, hj.append _, List.mem_append_left _ hwrote⟩
  · intro x e z hsplit hkey
    obtain ⟨z', htr, rfl⟩ := of_append_eq hsplit (hes e)
    obtain ⟨j, hj, hkeyed⟩ := h.keyed x e z' htr hkey
    exact ⟨j, hj.append _, List.mem_append_left _ hkeyed⟩

/-- A step of `clear` that only takes away. -/
theorem Inv.erases (h : Inv tr s) {s' : State P} (hstores : s'.stores = s.stores)
    (hepoch : s.epoch ≤ s'.epoch) (hgenerated : s'.disk.generated = s.disk.generated)
    (hkey : ∀ k, s'.disk.key = some k → s.disk.key = some k)
    (hrecord : ∀ record, s'.disk.record = some record → s.disk.record = some record)
    (hclearing : s'.clearing ≠ none →
      (∀ e, .cleared e ∈ tr → e < s'.epoch) ∧
        ∀ st ∈ s.stores, st.born = s'.epoch → st.phase.isOpen = false)
    (hremoved : s'.clearing = some .delete → s'.disk.record = none)
    (hes : es = [] ∨ ∃ g, es = [.invalidated g]) : Inv (tr ++ es) s' := by
  -- the step shows an invalidation at most, and no other statement is about one
  have hold {ev : Event} (hne : ∀ g, ev ≠ .invalidated g) (hmem : ev ∈ tr ++ es) : ev ∈ tr := by
    refine (List.mem_append.mp hmem).resolve_right fun hev => ?_
    rcases hes with rfl | ⟨g, rfl⟩
    · cases hev
    · exact hne g (List.mem_singleton.mp hev)
  have hnot (e : ℕ) : .cleared e ∉ es := by
    rcases hes with rfl | ⟨g, rfl⟩ <;> simp
  -- clients that were fresh stay so while the epoch grows
  have hwider {clients : List Client} (hfresh : Fresh tr s.epoch clients) :
      Fresh (tr ++ es) s'.epoch clients := by
    intro e _ hmem c hc
    have hmem := hold (fun _ => by nofun) hmem
    exact (hfresh e (h.cleared e hmem).1 hmem c hc).append es
  refine ⟨fun e he => ?_, fun j g => ?_, ?_, ?_, hremoved, ?_, ?_, ?_, ?_, ?_, ?_, ?_, ?_, ?_, ?_⟩
  · have he := hold (fun _ => by nofun) he
    exact ⟨Nat.le_trans (h.cleared e he).1 hepoch, fun hc => (hclearing hc).1 e he⟩
  · rw [hstores, ← h.opened]
    exact ⟨hold (fun _ => by nofun), fun hmem => List.mem_append_left _ hmem⟩
  · rw [hstores]
    exact fun st hst => Nat.le_trans (h.born st hst) hepoch
  · rw [hstores]
    exact fun hc => (hclearing hc).2
  · rw [hgenerated]
    exact fun k hk => h.key k (hkey k hk)
  · rw [hgenerated]
    exact fun record hr => h.record record (hrecord record hr)
  · rw [hstores, hgenerated]
    exact h.fetched
  · rw [hstores, hgenerated]
    exact h.taken
  · rw [hstores]
    exact fun st hst => (h.known st hst).append hnot
  · exact fun record hr hk => hwider (h.readable record (hrecord record hr) (hkey _ hk))
  · rw [hstores]
    exact fun st hst record hr hk => hwider (h.reading st hst record hr (hkey _ hk))
  · intro j clients hload
    obtain ⟨st, hst, hopen, hfresh⟩ := h.loaded j clients (hold (fun _ => by nofun) hload)
    exact ⟨st, hstores ▸ hst, hopen, hfresh.append hnot⟩
  · intro x e z hsplit hne
    obtain ⟨z', htr, rfl⟩ := of_append_eq hsplit (hnot e)
    have hsome : s.disk.record ≠ none := by
      obtain ⟨record, hr⟩ := Option.ne_none_iff_exists'.mp hne
      rw [hrecord record hr]
      nofun
    obtain ⟨j, hj, hwrote⟩ := h.written x e z' htr hsome
    exact ⟨j, hj.append _, List.mem_append_left _ hwrote⟩
  · intro x e z hsplit hne
    obtain ⟨z', htr, rfl⟩ := of_append_eq hsplit (hnot e)
    have hsome : s.disk.key ≠ none := by
      obtain ⟨k, hk⟩ := Option.ne_none_iff_exists'.mp hne
      rw [hkey k hk]
      nofun
    obtain ⟨j, hj, hkeyed⟩ := h.keyed x e z' htr hsome
    exact ⟨j, hj.append _, List.mem_append_left _ hkeyed⟩

/-- The reset returns: no record is left, no key, and no store of its generation has returned. -/
theorem Inv.returns (h : Inv tr s) (hclearing : s.clearing = some .delete) :
    Inv (tr ++ [Event.cleared s.epoch])
      { s with disk := { s.disk with key := none }, clearing := none } := by
  have hnone := h.removed hclearing
  have hsome : s.clearing ≠ none := by
    rw [hclearing]
    nofun
  have hold {ev : Event} (hne : ev ≠ .cleared s.epoch) (hmem : ev ∈ tr ++ [Event.cleared s.epoch]) :
      ev ∈ tr :=
    (List.mem_append.mp hmem).resolve_right fun hev => hne (List.mem_singleton.mp hev)
  -- a store whose constructor has returned is older than this reset
  have hfresh {st : Store P} (hst : st ∈ s.stores) {clients : List Client}
      (hopen : clients ≠ [] → st.phase.isOpen = true) (hf : Fresh tr st.born clients) :
      Fresh (tr ++ [Event.cleared s.epoch]) st.born clients := by
    intro e he hmem c hc
    have hopen := hopen (List.ne_nil_of_mem hc)
    rcases List.mem_append.mp hmem with hmem | hmem
    · exact (hf e he hmem c hc).append _
    · obtain rfl := Event.cleared.inj (List.mem_singleton.mp hmem)
      have hborn : st.born = s.epoch := Nat.le_antisymm (h.born st hst) he
      rw [h.young hsome st hst hborn] at hopen
      cases hopen
  refine ⟨fun e he => ⟨?_, fun h => absurd rfl h⟩, fun j g => ?_, h.born, fun h => absurd rfl h,
    fun _ => hnone, nofun, h.record, h.fetched, h.taken, fun st hst => ?_, fun _ _ => nofun,
    fun _ _ _ _ => nofun, fun j clients hload => ?_, ?_, ?_⟩
  · rcases List.mem_append.mp he with he | he
    · exact (h.cleared e he).1
    · exact Nat.le_of_eq (Event.cleared.inj (List.mem_singleton.mp he))
  · rw [← h.opened]
    exact ⟨hold nofun, fun hmem => List.mem_append_left _ hmem⟩
  · refine hfresh hst (fun hne => ?_) (h.known st hst)
    cases hphase : st.phase with
    | contains | missing | present | fetched | failed =>
      rw [hphase] at hne
      exact absurd rfl hne
    | _ => rfl
  · obtain ⟨st, hst, hopen, hf⟩ := h.loaded j clients (hold nofun hload)
    exact ⟨st, hst, hopen, hfresh (List.mem_of_getElem? hst) (fun _ => hopen) hf⟩
  · intro x e z _ hne
    exact absurd hnone hne
  · intro x e z _ hne
    exact absurd rfl hne

/-- Every step that meets the condition keeps the invariant. -/
theorem Inv.step (h : Inv tr s) {l : Label} (hok : NoStaleWriter tr s l) {s' : State P}
    (hs : s.step l = some (s', es)) : Inv (tr ++ es) s' := by
  cases moved_of_step hs with
  | openStore => exact h.openStore
  | @mutate i _ m r hst =>
    obtain ⟨ht, hm⟩ := begin_spec s true i r m
    exact h.update hst ht hm nofun nofun
  | @step _ _ st _ _ _ hst hadvance =>
    obtain ⟨ht, hm⟩ := advance_spec hadvance
    unfold NoStaleWriter at hok
    dsimp only at hok
    rw [hst] at hok
    refine h.update hst ht hm (fun p hphase => ?_) (fun p k hphase => ?_)
    -- the condition is about the two accesses that could undo a reset
    · obtain ⟨born, phase⟩ := st
      obtain rfl := hphase
      exact hok
    · obtain ⟨born, phase⟩ := st
      obtain rfl := hphase
      exact hok
  | clear =>
    -- a new epoch: no store was opened in it yet
    refine h.erases rfl (Nat.le_succ _) rfl (fun _ hk => hk) (fun _ hr => hr) (fun _ => ⟨?_, ?_⟩)
      nofun (.inr ⟨_, rfl⟩)
    · exact fun e he => Nat.lt_succ_of_le (h.cleared e he).1
    · intro st hst hborn
      have := h.born st hst
      change st.born = s.epoch + 1 at hborn
      omega
  | remove hclearing =>
    have hsome : s.clearing ≠ none := by
      rw [hclearing]
      nofun
    exact h.erases rfl (Nat.le_refl _) rfl (fun _ hk => hk) nofun
      (fun _ => ⟨fun e he => (h.cleared e he).2 hsome, h.young hsome⟩) (fun _ => rfl) (.inl rfl)
  | delete hclearing => exact h.returns hclearing
  | failed =>
    exact h.erases rfl (Nat.le_refl _) rfl (fun _ hk => hk) (fun _ hr => hr)
      (fun h => absurd rfl h) nofun (.inl rfl)

/-- So does every run. -/
theorem inv_of_under (hr : (system P).Under NoStaleWriter tr s) : Inv tr s :=
  hr.invariant (fun _ h0 => inv_start h0) fun _ _ _ _ _ _ hok hinv hs => hinv.step hok hs

/-! ## Resets between the writes -/

/-- Past the check, and not yet committed. -/
def Phase.writing : Phase P → Bool
  | .keying _ | .sealing _ _ | .committing _ _ => true
  | _ => false

/-- `clear` bumps the epoch while no store stands between its check and its commit. -/
def ClearsBetween (_ : List Event) (s : State P) : Label → Prop
  | .clear => ∀ st ∈ s.stores, st.phase.writing = false
  | _ => True

/-- The stores past their check are of the running generation. -/
def Current (s : State P) : Prop := ∀ st ∈ s.stores, st.phase.writing = true → st.born = s.epoch

/-- Only the check lets a store write, and it compares the epochs. -/
theorem writing_of_advance {born : ℕ} {ok : Bool} {phase phase' : Phase P} {disk : Disk}
    (h : advance s i born ok phase = some (disk, phase', es)) (hwriting : phase'.writing = true) :
    phase.writing = true ∨ born = s.epoch := by
  unfold advance at h
  cases phase with
  | keying p | sealing p key | committing p key => exact .inl rfl
  | failed | idle r => cases h
  | contains =>
    obtain ⟨-, rfl, -⟩ := by simpa using h
    split at hwriting
    · cases hwriting
    · cases hwriting
  | missing =>
    dsimp only at h
    split at h
    · cases h
    split at h
    · obtain ⟨-, rfl, -⟩ := by simpa using h
      cases hwriting
    · obtain ⟨-, rfl, -⟩ := by simpa using h
      cases hwriting
  | present =>
    dsimp only at h
    split at h
    · obtain ⟨-, rfl, -⟩ := by simpa using h
      cases hwriting
    · obtain ⟨-, rfl, -⟩ := by simpa using h
      split at hwriting
      · cases hwriting
      · cases hwriting
  | fetched record =>
    dsimp only at h
    split at h
    · cases h
    split at h
    · obtain ⟨-, rfl, -⟩ := by simpa using h
      cases hwriting
    · obtain ⟨-, rfl, -⟩ := by simpa using h
      cases hwriting
  | check p =>
    obtain ⟨-, rfl, -⟩ := by simpa using h
    split at hwriting
    · next hepoch => exact .inr hepoch.symm
    · cases hwriting

theorem writing_begin (r : ClientRepository P) (m : Mutation) :
    (begin i r m).1.writing = false := by
  unfold begin
  split <;> rfl

/-- A store that is put in place of another writes only in the running generation. -/
theorem Current.set (h : Current s) {st : Store P}
    (hst : st.phase.writing = true → st.born = s.epoch)
    (disk : Disk) : Current { s with disk, stores := s.stores.set i st } := by
  intro st' hst' hwriting
  rcases List.mem_or_eq_of_mem_set hst' with hold | rfl
  · exact h st' hold hwriting
  · exact hst hwriting

/-- Every step that clears between writers keeps the writers current. -/
theorem Current.step (h : Current s) {l : Label} (hok : ClearsBetween tr s l) {s' : State P}
    (hs : s.step l = some (s', es)) : Current s' := by
  cases moved_of_step hs with
  | openStore =>
    intro st hst hwriting
    rcases List.mem_append.mp hst with hst | hst
    · exact h st hst hwriting
    · rw [List.mem_singleton.mp hst] at hwriting
      cases hwriting
  | mutate =>
    apply h.set (fun hwriting => ?_) s.disk
    rw [writing_begin] at hwriting
    cases hwriting
  | @step _ _ st disk _ _ hst hadvance =>
    apply h.set (fun hwriting => ?_) disk
    -- a writer is new only after `requireCurrent` has passed
    rcases writing_of_advance hadvance hwriting with hbefore | hborn
    · exact h st (List.mem_of_getElem? hst) hbefore
    · exact hborn
  | clear =>
    intro st hst hwriting
    -- no store writes here, by the condition
    rw [hok st hst] at hwriting
    cases hwriting
  | remove | delete | failed => exact h

/-- So does every run. -/
theorem current_of_under (hr : (system P).Under ClearsBetween tr s) : Current s := by
  refine hr.invariant (P := fun _ s => Current s) (fun s h0 => ?_)
    fun _ _ _ _ _ _ hok hcurrent hs => hcurrent.step hok hs
  intro st hst
  rw [h0.2.2.1] at hst
  cases hst

/-- **Where the check is enough**: with no store between its check and its commit when a reset bumps
the epoch, no writer is ever stale. -/
theorem noStaleWriter_of_clearsBetween (hr : (system P).Under ClearsBetween tr s) :
    (system P).Under NoStaleWriter tr s := by
  refine hr.exchange fun tr s l hrun _ => ?_
  cases l with
  | step i ok =>
    show match s.stores[i]? with
      | some ⟨born, .keying _⟩ => ok = true → s.disk.key = none → born = s.epoch
      | some ⟨born, .committing _ _⟩ =>
        born = s.epoch ∨ (s.clearing = some .remove ∧ born + 1 = s.epoch)
      | _ => True
    split
    · next hst =>
      exact fun _ _ => current_of_under hrun _ (List.mem_of_getElem? hst) rfl
    · next hst =>
      exact .inl (current_of_under hrun _ (List.mem_of_getElem? hst) rfl)
    · trivial
  | _ => trivial

/-! ## Generations and the order of events -/

/-- The event of a bump. -/
def Event.isInvalidated : Event → Bool
  | .invalidated _ => true
  | _ => false

/-- The epoch after a history. -/
def generation (tr : List Event) : ℕ := tr.countP Event.isInvalidated

/-- What an event says about the history before it. -/
def Dated (x : List Event) : Event → Prop
  | .opened _ g => g = generation x
  | .invalidated g => g = generation x + 1
  | .approved i _ => ∃ g, .opened i g ∈ x
  | _ => True

theorem each_singleton {Q : List Event → Event → Prop} {v : Event} (h : Q tr v) :
    Each (fun x => Q (tr ++ x)) [v] :=
  each_cons.mpr ⟨by rwa [List.append_nil], each_nil⟩

/-- The events of a step of a store. -/
theorem Touches.dated {phase : Phase P} {ok : Bool} {disk : Disk}
    (ht : Touches s i phase ok disk es) (hopened : ∃ g, .opened i g ∈ tr) :
    Each (fun x => Dated (tr ++ x)) es ∧ generation (tr ++ es) = generation tr := by
  cases ht with
  | nothing => exact ⟨each_nil, by rw [List.append_nil]⟩
  | approves => exact ⟨each_singleton hopened, by simp [generation, Event.isInvalidated]⟩
  | loads | generates | writes =>
    exact ⟨each_singleton trivial, by simp [generation, Event.isInvalidated]⟩

/-- Every step keeps the events dated. -/
theorem dated_step (hd : Each Dated tr ∧ s.epoch = generation tr) (hinv : Inv tr s) {l : Label}
    {s' : State P} (hs : s.step l = some (s', es)) :
    Each Dated (tr ++ es) ∧ s'.epoch = generation (tr ++ es) := by
  obtain ⟨heach, hepoch⟩ := hd
  -- a store that acts was opened, and its epoch is that of its opening
  have hopened {i : ℕ} {st : Store P} (hst : s.stores[i]? = some st) : ∃ g, .opened i g ∈ tr :=
    ⟨st.born, (hinv.opened i st.born).mpr ⟨st, hst, rfl⟩⟩
  cases moved_of_step hs with
  | openStore =>
    refine ⟨heach.append (each_singleton hepoch), ?_⟩
    simpa [generation, Event.isInvalidated] using hepoch
  | @mutate i _ m r hst =>
    obtain ⟨hevents, hsame⟩ := (begin_spec s true i r m).1.dated (hopened hst)
    exact ⟨heach.append hevents, hepoch.trans hsame.symm⟩
  | step hst hadvance =>
    obtain ⟨hevents, hsame⟩ := (advance_spec hadvance).1.dated (hopened hst)
    exact ⟨heach.append hevents, hepoch.trans hsame.symm⟩
  | clear =>
    have hnext : s.epoch + 1 = generation tr + 1 := congrArg (· + 1) hepoch
    refine ⟨heach.append (each_singleton hnext), ?_⟩
    simpa [generation, Event.isInvalidated] using hepoch
  | delete =>
    refine ⟨heach.append (each_singleton trivial), ?_⟩
    simpa [generation, Event.isInvalidated] using hepoch
  | remove | failed =>
    rw [List.append_nil]
    exact ⟨heach, hepoch⟩

/-- So does every run. -/
theorem dated_of_under (hr : (system P).Under NoStaleWriter tr s) : Each Dated tr := by
  have hboth : Each Dated tr ∧ s.epoch = generation tr :=
    hr.invariant (fun s h0 => ⟨each_nil, h0.1⟩)
      fun _ _ _ _ _ hrun _ hd hs => dated_step hd (inv_of_under hrun) hs
  exact hboth.1

section order

variable {x w : List Event} {g : ℕ}

/-- A store of the generation was created after the epoch was bumped to it. -/
theorem lt_of_opened (hd : Each Dated (x ++ Event.invalidated e :: w)) (hmem : .opened i g ∈ x) :
    g < e := by
  have he : e = generation x + 1 := hd x _ w rfl
  obtain ⟨a, b, rfl⟩ := List.append_of_mem hmem
  have hg : g = generation a := hd a (.opened i g) (b ++ Event.invalidated e :: w) (by simp)
  have hle : generation a ≤ generation (a ++ Event.opened i g :: b) :=
    List.Sublist.countP_le (List.sublist_append_left a _)
  omega

/-- One created after the bump is of the generation or a later one. -/
theorem le_of_opened (hd : Each Dated (x ++ Event.invalidated e :: w)) (hmem : .opened i g ∈ w) :
    e ≤ g := by
  have he : e = generation x + 1 := hd x _ w rfl
  obtain ⟨a, b, rfl⟩ := List.append_of_mem hmem
  have hg : g = generation (x ++ Event.invalidated e :: a) :=
    hd (x ++ Event.invalidated e :: a) (.opened i g) b (by simp)
  have hcount : generation (x ++ Event.invalidated e :: a) = generation x + (generation a + 1) := by
    rw [generation, List.countP_append, List.countP_cons_of_pos rfl]
    rfl
  omega

/-- A store of a later epoch was opened after the bump. -/
theorem opened_after (hd : Each Dated (x ++ Event.invalidated e :: w))
    (hmem : .opened i g ∈ x ++ Event.invalidated e :: w) (hge : e ≤ g) : .opened i g ∈ w := by
  rcases List.mem_append.mp hmem with hmem | hmem
  · have := lt_of_opened hd hmem
    omega
  · exact (List.mem_cons.mp hmem).resolve_left nofun

/-- A PC that was approved since was approved after the bump. -/
theorem approved_after (hd : Each Dated (x ++ Event.invalidated e :: w))
    (hinv : Inv (x ++ Event.invalidated e :: w) s) {key : List UInt8}
    (h : Approved (x ++ Event.invalidated e :: w) e key) :
    ∃ j g, .opened j g ∈ w ∧ .approved j key ∈ w := by
  obtain ⟨j, ⟨g, hge, hopened⟩, happroved⟩ := h
  refine ⟨j, g, opened_after hd hopened hge, ?_⟩
  rcases List.mem_append.mp happroved with hbefore | hafter
  · -- the approval follows the creation of its store, which would be older
    obtain ⟨a, b, rfl⟩ := List.append_of_mem hbefore
    obtain ⟨g', hg'⟩ : ∃ g', .opened j g' ∈ a :=
      hd a (.approved j key) (b ++ Event.invalidated e :: w) (by simp)
    obtain ⟨st, hst, hborn⟩ := (hinv.opened j g).mp hopened
    obtain ⟨st', hst', hborn'⟩ := (hinv.opened j g').mp (by simp [hg'])
    have hsame : g' = g := by
      rw [hst] at hst'
      obtain rfl := Option.some.inj hst'
      exact hborn'.symm.trans hborn
    have := lt_of_opened hd (List.mem_append_left _ hg')
    omega
  · exact (List.mem_cons.mp hafter).resolve_left nofun

end order

/-- Once a reset has returned, the record and the key exist only after a store created since the
reset began has written them, and no such store loads a client that none of them has approved. -/
theorem reset_not_undone (hr : (system P).Under NoStaleWriter tr s) {x y z : List Event}
    (htr : tr = x ++ .invalidated e :: (y ++ .cleared e :: z)) :
    (s.disk.record ≠ none → ∃ i g, .opened i g ∈ y ++ .cleared e :: z ∧ .wrote i ∈ z) ∧
    (s.disk.key ≠ none → ∃ i g, .opened i g ∈ y ++ .cleared e :: z ∧ .keyed i ∈ z) ∧
    ∀ i g clients, .opened i g ∈ y ++ .cleared e :: z → .loaded i clients ∈ tr → ∀ c ∈ clients,
      ∃ j g', .opened j g' ∈ y ++ .cleared e :: z ∧
        .approved j c.publicKey ∈ y ++ .cleared e :: z := by
  have hinv := inv_of_under hr
  have hd := dated_of_under hr
  subst htr
  have hsplit : x ++ Event.invalidated e :: (y ++ Event.cleared e :: z) =
      (x ++ Event.invalidated e :: y) ++ Event.cleared e :: z := by simp
  have hcleared : .cleared e ∈ x ++ Event.invalidated e :: (y ++ Event.cleared e :: z) := by simp
  refine ⟨fun hrecord => ?_, fun hkey => ?_, fun i g clients hopened hload c hc => ?_⟩
  · obtain ⟨i, ⟨g, hge, hopened⟩, hwrote⟩ := hinv.written _ e z hsplit hrecord
    exact ⟨i, g, opened_after hd hopened hge, hwrote⟩
  · obtain ⟨i, ⟨g, hge, hopened⟩, hkeyed⟩ := hinv.keyed _ e z hsplit hkey
    exact ⟨i, g, opened_after hd hopened hge, hkeyed⟩
  · obtain ⟨st, hst, -, hfresh⟩ := hinv.loaded i clients hload
    obtain ⟨st', hst', hborn⟩ := (hinv.opened i g).mp
      (List.mem_append_right x (List.mem_cons_of_mem _ hopened))
    rw [hst] at hst'
    obtain rfl := Option.some.inj hst'
    have hge : e ≤ st.born := by
      rw [hborn]
      exact le_of_opened hd hopened
    exact approved_after hd hinv (hfresh e hge hcleared c hc)

/-! ## Runs of one phone -/

instance (tr : List Event) (s : State P) : (l : Label) → Decidable (NoStaleWriter tr s l)
  | .openStore | .mutate _ _ | .clear | .clearStep _ => .isTrue trivial
  | .step i ok => by
    unfold NoStaleWriter
    dsimp only
    split <;> infer_instance

/-- A platform whose digest of a key is the key's tail. -/
def plain : Platform where
  sha256 key := key.drop 1
  validPublicKey key := key.length == Wire.CLIENT_PUBLIC_KEY_BYTES
  verify _ _ _ := false
  isWhitespace c := c == ' '
  scalarIsSafe _ := true

/-- A key of one byte repeated. -/
def plainKey (k : UInt8) : List UInt8 := 4 :: List.replicate 64 k

/-- A phone that has never stored a list. -/
def pristine : State plain where
  epoch := 0
  disk := { record := none, key := none, generated := 0 }
  clearing := none
  stores := []

/-- A PC is approved; its write comes next. -/
def approving (store : ℕ) (k : UInt8) : List Label :=
  [.mutate store (.approve (List.replicate 16 k) (plainKey k) ['p', 'c'] 100), .step store true]

/-- The three steps of `save`. -/
def saving (store : ℕ) : List Label := List.replicate 3 (Label.step store true)

/-- `clear` without a failure. -/
def reset : List Label := [.clear, .clearStep true, .clearStep true]

/-- A PC is approved, the list is reset, another store approves another PC, a third one loads it. -/
def resetBetween : List Label :=
  [Label.openStore, .step 0 true, .step 0 true] ++ approving 0 7 ++ saving 0 ++ reset ++
    [Label.openStore, .step 1 true, .step 1 true] ++ approving 1 8 ++ saving 1 ++
    [Label.openStore, .step 2 true, .step 2 true, .step 2 true]

/-- The record of such a key. -/
def plainClient (k : UInt8) : Client where
  clientId := List.replicate 16 k
  publicKey := plainKey k
  label := ['p', 'c']
  approvedAtUnixSeconds := 100
  expiresAtUnixSeconds := 100 + EXPIRY_SECONDS

/-- The history of `resetBetween` from the return of the reset on. -/
def afterReset : List Event :=
  [.opened 1 1, .loaded 1 [], .approved 1 (plainKey 8), .keyed 1, .wrote 1, .opened 2 1,
    .loaded 2 [plainClient 8]]

/-- After a reset the phone knows the PC approved since. -/
theorem reset_not_undone_resetBetween :
    (∃ i g, .opened i g ∈ [] ++ .cleared 1 :: afterReset ∧ .wrote i ∈ afterReset) ∧
      ∃ j g, .opened j g ∈ [] ++ .cleared 1 :: afterReset ∧
        .approved j (plainKey 8) ∈ [] ++ .cleared 1 :: afterReset := by
  let tr := (system plain).trace pristine resetBetween
  have hr : (system plain).Under NoStaleWriter tr ((system plain).final pristine resetBetween) :=
    EventSystem.under_trace resetBetween ⟨rfl, rfl, rfl, nofun, nofun⟩ (by decide +kernel)
      (by decide +kernel)
  have htr : tr = tr.take 5 ++ Event.invalidated 1 :: ([] ++ Event.cleared 1 :: afterReset) := by
    decide +kernel
  have hrecord : ((system plain).final pristine resetBetween).disk.record ≠ none := by
    decide +kernel
  obtain ⟨hwritten, -, hloaded⟩ := reset_not_undone hr htr
  refine ⟨hwritten hrecord, hloaded 2 1 [plainClient 8] ?_ ?_ (plainClient 8) ?_⟩
  · simp [afterReset]
  · show .loaded 2 [plainClient 8] ∈ tr
    rw [htr]
    simp [afterReset]
  · exact List.mem_singleton_self _

/-- The write of an approval that passed its check before the reset. -/
def resetMeanwhile : List Label :=
  [Label.openStore, .step 0 true, .step 0 true] ++ approving 0 7 ++ reset ++ saving 0 ++
    [Label.openStore, .step 1 true, .step 1 true, .step 1 true]

/-- The reset has returned; the store from before it creates the key and the record again, and a
store created afterwards loads the PC that was erased. -/
theorem reset_undone :
    ∃ x z s, (system plain).Reaches (x ++ .invalidated 1 :: .cleared 1 :: z) s ∧
      s.disk.record ≠ none ∧ s.disk.key ≠ none ∧ .approved 0 (plainKey 7) ∈ x ∧
      (∀ i g, .opened i g ∈ z → .wrote i ∉ z ∧ .keyed i ∉ z) ∧
      .opened 1 1 ∈ z ∧ .loaded 1 [plainClient 7] ∈ z := by
  have hr := EventSystem.reaches_trace (M := system plain) (s := pristine) resetMeanwhile
    ⟨rfl, rfl, rfl, nofun, nofun⟩ (by decide +kernel)
  have htr : (system plain).trace pristine resetMeanwhile =
      [Event.opened 0 0, .loaded 0 [], .approved 0 (plainKey 7)] ++
        Event.invalidated 1 :: .cleared 1 ::
        [.keyed 0, .wrote 0, .opened 1 1, .loaded 1 [plainClient 7]] := by
    decide +kernel
  refine ⟨_, _, _, htr ▸ hr, by decide +kernel, by decide +kernel, by simp, ?_, by simp, by simp⟩
  intro i g hopened
  simp only [List.mem_cons, List.not_mem_nil, or_false, reduceCtorEq, false_or,
    Event.opened.injEq] at hopened
  obtain ⟨rfl, -⟩ := hopened
  simp

end ClientStore
end MobileWebcamBridge
