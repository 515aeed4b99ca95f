import MobileWebcamBridge.Lib.EventSystem
import MobileWebcamBridge.Lib.Trace
import MobileWebcamBridge.Phone.ClientRepository

/-!
# `ClientStore`: the record, its key and the reset

One namespace: the epoch of `StorageGeneration`, the preferences record, the Keystore entry and any
number of stores, each with the constructor or the one mutation its repository is running. A step of
a store runs to its next access to the epoch, the Keystore or the preferences; what happens under
`keyLock` is one step, except for `clear`, which holds the lock over its three. A record is the list
sealed under a key, and only that key opens it again.

A reset is undone by a writer that passed `requireCurrent` before it. `reset_not_undone` is about
the runs without such a writer, and `reset_undone` is a run with one.
-/

set_option autoImplicit false

namespace MobileWebcamBridge
namespace ClientStore

open ClientAuthorization Trace

/-- The encrypted list, with the key it is sealed under. -/
structure Record where
  key : ℕ
  clients : List Client
deriving DecidableEq

/-- The preferences record and the Keystore entry; keys are numbered as they are generated. -/
structure Disk where
  record : Option Record
  key : Option ℕ
  generated : ℕ
deriving DecidableEq

variable (P : Platform)

/-- The synchronized operations of a repository. -/
inductive Mutation
  | approve (clientId key : List UInt8) (label : List Char) (now : ℤ)
  | revoke (clientId : List UInt8)
  | renew (clientId : List UInt8) (now : ℤ)
deriving DecidableEq

variable {P}

/-- The change on the repository. -/
def Mutation.run (r : ClientRepository P) (written : Bool) :
    Mutation → ClientRepository P × ClientRepository.Outcome
  | approve clientId key label now => r.approve clientId key label now written
  | revoke clientId => r.revoke clientId written
  | renew clientId now => r.renew clientId now written

/-- The list a mutation writes, when it gets as far as `publish`'s `try`. -/
def Mutation.next (r : ClientRepository P) (m : Mutation) : Option (List Client) :=
  if (m.run r true).2 = .saved then some (m.run r true).1.clients else none

variable (P)

/-- A mutation on its way to the record. -/
structure Publishing where
  repository : ClientRepository P
  mutation : Mutation
  next : List Client
  encoded : mutation.next repository = some next

/-- Where a store is. -/
inductive Phase
  /-- The constructor: `prefs.contains`, then the Keystore check or `getString`, then `key`. -/
  | contains
  | missing
  | present
  | fetched (record : Record)
  | failed
  | idle (repository : ClientRepository P)
  /-- `publish`: `checkWritable`, then `save` with `key`, the cipher and the commit. -/
  | check (p : Publishing P)
  | keying (p : Publishing P)
  | sealing (p : Publishing P) (key : ℕ)
  | committing (p : Publishing P) (key : ℕ)

/-- A store, and where its constructor or its call is. -/
structure Store where
  /-- The epoch this store was created in. -/
  born : ℕ
  phase : Phase P

/-- What `clear`, which holds `keyLock`, does next. -/
inductive Clearing
  | remove | delete
deriving DecidableEq

/-- The epoch, the preferences and the Keystore, and all that use them. -/
structure State where
  epoch : ℕ
  disk : Disk
  clearing : Option Clearing
  stores : List (Store P)

/-- What the stores load, approve and write, and what the resets do. -/
inductive Event
  | opened (store generation : ℕ)
  /-- The constructor returned, with this list. -/
  | loaded (store : ℕ) (clients : List Client)
  /-- `approve` of this key has built the list it will write. -/
  | approved (store : ℕ) (publicKey : List UInt8)
  | keyed (store : ℕ)
  | wrote (store : ℕ)
  /-- `clear` was called and has bumped the epoch to this one; `cleared`: it returned. -/
  | invalidated (generation : ℕ)
  | cleared (generation : ℕ)
deriving DecidableEq

/-- `ok`: the platform call of the step succeeds. -/
inductive Label
  | openStore
  | mutate (store : ℕ) (m : Mutation)
  | step (store : ℕ) (ok : Bool)
  | clear
  | clearStep (ok : Bool)

variable {P}

/-- The repository of a phone that knows no PC. -/
def emptyRepository : ClientRepository P :=
  ⟨[], true, ⟨Nat.zero_le _, fun _ h => absurd h List.not_mem_nil, List.nodup_nil⟩⟩

/-- `publish` threw. -/
def Publishing.refused (p : Publishing P) : Phase P := .idle (p.mutation.run p.repository false).1

/-- The next step of store `i`; `none` while it has none or waits for `keyLock`. -/
def advance (s : State P) (i born : ℕ) (ok : Bool) : Phase P → Option (Disk × Phase P × List Event)
  | .contains =>
    some (s.disk, if s.disk.record.isNone then .missing else .present, [])
  | .missing =>
    if s.clearing.isSome then none
    -- a key without a record was not a pristine, never-written list
    else if ok = true ∧ s.disk.key = none then some (s.disk, .idle emptyRepository, [.loaded i []])
    else some (s.disk, .failed, [])
  | .present =>
    match s.disk.record with
    | none => some (s.disk, .failed, [])
    | some record => some (s.disk, if ok then .fetched record else .failed, [])
  | .fetched record =>
    if s.clearing.isSome then none
    else if h : (ok = true ∧ s.disk.key = some record.key) ∧ Validated P record.clients then
      some (s.disk, .idle ⟨record.clients, true, h.2⟩, [.loaded i record.clients])
    else some (s.disk, .failed, [])
  | .failed => none
  | .idle _ => none
  | .check p => some (s.disk, if s.epoch = born then .keying p else p.refused, [])
  | .keying p =>
    if s.clearing.isSome then none
    else if ok = false then some (s.disk, p.refused, [])
    else
      match s.disk.key with
      | some key => some (s.disk, .sealing p key, [])
      | none =>
        some ({ s.disk with key := some s.disk.generated, generated := s.disk.generated + 1 },
          .sealing p s.disk.generated, [.keyed i])
  | .sealing p key => some (s.disk, if ok then .committing p key else p.refused, [])
  | .committing p key =>
    -- a commit that fails has still changed the preferences in memory
    some ({ s.disk with record := some ⟨key, p.next⟩ },
      .idle (p.mutation.run p.repository ok).1, [.wrote i])

/-- A mutation is called on an idle repository. -/
def begin (i : ℕ) (r : ClientRepository P) (m : Mutation) : Phase P × List Event :=
  match h : m.next r with
  | none => (.idle (m.run r true).1, [])
  | some next =>
    (.check ⟨r, m, next, h⟩, match m with | .approve _ key _ _ => [.approved i key] | _ => [])

/-- One step of a store or of a reset. -/
def State.step (s : State P) : Label → Option (State P × List Event)
  | .openStore =>
    some ({ s with stores := s.stores ++ [⟨s.epoch, .contains⟩] },
      [.opened s.stores.length s.epoch])
  | .mutate i m =>
    match s.stores[i]? with
    | some ⟨born, .idle r⟩ =>
      some ({ s with stores := s.stores.set i ⟨born, (begin i r m).1⟩ }, (begin i r m).2)
    | _ => none
  | .step i ok =>
    match s.stores[i]? with
    | none => none
    | some st =>
      match advance s i st.born ok st.phase with
      | none => none
      | some (disk, phase, es) =>
        some ({ s with disk, stores := s.stores.set i ⟨st.born, phase⟩ }, es)
  | .clear =>
    if s.clearing.isSome then none
    else some ({ s with epoch := s.epoch + 1, clearing := some .remove },
      [.invalidated (s.epoch + 1)])
  | .clearStep ok =>
    match s.clearing with
    | none => none
    | some .remove =>
      some
        ({ s with
            disk := { s.disk with record := none }
            clearing := if ok then some .delete else none },
          [])
    | some .delete =>
      if ok then
        some ({ s with disk := { s.disk with key := none }, clearing := none }, [.cleared s.epoch])
      else some ({ s with clearing := none }, [])

variable (P)

/-- A process starts with no store open and with whatever record and key it finds. -/
def system : EventSystem (State P) Label Event where
  start s :=
    s.epoch = 0 ∧ s.clearing = none ∧ s.stores = [] ∧
    (∀ k, s.disk.key = some k → k < s.disk.generated) ∧
      ∀ record, s.disk.record = some record → record.key < s.disk.generated
  step s l := s.step l

variable {P}

/-! ## What a step does -/

section mutation

variable {r : ClientRepository P} {m : Mutation} {next : List Client} {c : Client}

/-- Nothing is saved without the write. -/
theorem Mutation.run_false (r : ClientRepository P) (m : Mutation) :
    (m.run r false).2 ≠ .saved := by
  have hpublish (next : List Client) : (r.publish next false).2 ≠ .saved := by
    unfold ClientRepository.publish
    split
    · intro h
      cases h
    · intro h
      cases h
  cases m with
  | approve clientId key label now =>
    show (r.approve clientId key label now false).2 ≠ .saved
    unfold ClientRepository.approve
    split
    · exact hpublish _
    · intro h
      cases h
  | revoke clientId =>
    show (r.revoke clientId false).2 ≠ .saved
    unfold ClientRepository.revoke
    dsimp only
    split
    · intro h
      cases h
    split
    · intro h
      cases h
    · exact hpublish _
  | renew clientId now =>
    show (r.renew clientId now false).2 ≠ .saved
    unfold ClientRepository.renew
    split
    · intro h
      cases h
    split
    · exact hpublish _
    · intro h
      cases h

/-- The list `ClientAuthorization` makes for the mutation. -/
def Mutation.made (r : ClientRepository P) : Mutation → Option (List Client)
  | .approve clientId key label now =>
    ClientAuthorization.approve P r.clients clientId key label now
  | .revoke clientId => some (ClientAuthorization.revoke r.clients clientId)
  | .renew clientId now => ClientAuthorization.renew r.clients clientId now

/-- A change is written, or the repository is broken. -/
theorem Mutation.run_published (r : ClientRepository P) (m : Mutation) (written : Bool) :
    ClientRepository.Published r (m.made r) (m.run r written) := by
  cases m with
  | approve clientId key label now => exact r.approve_published clientId key label now written
  | revoke clientId => exact r.revoke_published clientId written
  | renew clientId now => exact r.renew_published clientId now written

/-- A mutation leaves the list alone or publishes `next`. -/
theorem Mutation.run_clients (r : ClientRepository P) (m : Mutation) (written : Bool) :
    (m.run r written).1.clients = r.clients ∨ m.next r = some (m.run r written).1.clients := by
  rcases m.run_published r written with ⟨hsaved, -⟩ | ⟨-, hsame⟩
  · cases written with
    | false => exact absurd hsaved (m.run_false r)
    | true => exact .inr (if_pos hsaved)
  · exact .inl hsame

/-- A client on the list a mutation writes was on the list before, or is the one it approves. -/
theorem Mutation.mem_next (h : m.next r = some next) (hc : c ∈ next) :
    (∃ c' ∈ r.clients, c'.publicKey = c.publicKey) ∨
      ∃ id label now, m = .approve id c.publicKey label now := by
  unfold Mutation.next at h
  split at h
  · next hsaved =>
    obtain rfl := Option.some.inj h
    rcases m.run_published r true with ⟨-, hmade⟩ | ⟨hnot, -⟩
    · cases m with
      | approve clientId key label now =>
        change ClientAuthorization.approve P r.clients clientId key label now = _ at hmade
        unfold ClientAuthorization.approve at hmade
        split at hmade
        · cases hmade
        split at hmade
        · cases hmade
        · rw [← Option.some.inj hmade] at hc
          rcases List.mem_append.mp hc with hc | hc
          · exact .inl ⟨c, (List.mem_filter.mp hc).1, rfl⟩
          · obtain rfl := List.mem_singleton.mp hc
            exact .inr ⟨clientId, label, now, rfl⟩
      | revoke clientId =>
        rw [← Option.some.inj hmade] at hc
        exact .inl ⟨c, (List.mem_filter.mp hc).1, rfl⟩
      | renew clientId now =>
        change ClientAuthorization.renew r.clients clientId now = _ at hmade
        unfold ClientAuthorization.renew at hmade
        split at hmade
        · cases hmade
        · rw [← Option.some.inj hmade] at hc
          obtain ⟨c', hc', rfl⟩ := List.mem_map.mp hc
          refine .inl ⟨c', hc', ?_⟩
          unfold renewed
          split <;> rfl
    · exact absurd hsaved hnot
  · cases h

end mutation

namespace Phase

/-- The constructor has returned. -/
def isOpen : Phase P → Bool
  | .contains | .missing | .present | .fetched _ | .failed => false
  | _ => true

/-- The clients of the repository and of the list it is writing. -/
def known : Phase P → List Client
  | .idle r => r.clients
  | .check p | .keying p | .sealing p _ | .committing p _ => p.repository.clients ++ p.next
  | _ => []

/-- The record that was fetched. -/
def record? : Phase P → Option Record
  | .fetched record => some record
  | _ => none

/-- The key the store has taken from the Keystore to write with. -/
def key? : Phase P → Option ℕ
  | .sealing _ key | .committing _ key => some key
  | _ => none

end Phase

/-- A refused change leaves no other PCs than those known. -/
theorem Publishing.known_refused {p : Publishing P} {c : Client} (written : Bool)
    (hc : c ∈ (p.mutation.run p.repository written).1.clients) :
    c ∈ p.repository.clients ++ p.next := by
  rcases p.mutation.run_clients p.repository written with h | h
  · rw [h] at hc
    exact List.mem_append_left _ hc
  · rw [p.encoded] at h
    rw [← Option.some.inj h] at hc
    exact List.mem_append_right _ hc

/-- What a step of a store can do to the disk. -/
inductive Touches (s : State P) (i : ℕ) (phase : Phase P) (ok : Bool) : Disk → List Event → Prop
  | nothing : Touches s i phase ok s.disk []
  | approves {key : List UInt8} : Touches s i phase ok s.disk [.approved i key]
  | loads {clients : List Client} : Touches s i phase ok s.disk [.loaded i clients]
  | generates {p : Publishing P} : phase = .keying p → ok = true → s.clearing = none →
      s.disk.key = none →
      Touches s i phase ok
        { s.disk with key := some s.disk.generated, generated := s.disk.generated + 1 } [.keyed i]
  | writes {p : Publishing P} {key : ℕ} : phase = .committing p key →
      Touches s i phase ok { s.disk with record := some ⟨key, p.next⟩ } [.wrote i]

/-- What a step of a store can do to its phase. -/
structure Moves (s : State P) (i : ℕ) (phase : Phase P) (disk : Disk) (phase' : Phase P)
    (es : List Event) : Prop where
  isOpen : phase.isOpen = true → phase'.isOpen = true
  opens : phase'.isOpen = true → phase.isOpen = true ∨ s.clearing = none
  loaded : ∀ clients, .loaded i clients ∈ es → phase'.isOpen = true ∧ clients = phase'.known
  known : ∀ c ∈ phase'.known, (∃ c' ∈ phase.known, c'.publicKey = c.publicKey) ∨
    .approved i c.publicKey ∈ es ∨
      ∃ record, phase.record? = some record ∧ s.disk.key = some record.key ∧ c ∈ record.clients
  record : ∀ record, phase'.record? = some record → s.disk.record = some record
  key : ∀ k, phase'.key? = some k → phase.key? = some k ∨ disk.key = some k

section moves

variable {s : State P} {i born : ℕ} {ok : Bool} {phase phase' : Phase P} {disk : Disk}
variable {es : List Event}

/-- A step inside the constructor. -/
theorem Moves.closed (hphase : phase.isOpen = false) (hphase' : phase'.isOpen = false)
    (hknown : phase'.known = []) (hkey : phase'.key? = none)
    (hrecord : ∀ record, phase'.record? = some record → s.disk.record = some record) :
    Moves s i phase disk phase' [] where
  isOpen h := absurd h (by rw [hphase]; decide)
  opens h := absurd h (by rw [hphase']; decide)
  loaded _ h := absurd h List.not_mem_nil
  known c hc := absurd hc (by rw [hknown]; exact List.not_mem_nil)
  record := hrecord
  key k hk := absurd hk (by rw [hkey]; nofun)

/-- The last step of the constructor. -/
theorem Moves.returns {r : ClientRepository P} (hphase : phase.isOpen = false)
    (hclear : s.clearing = none)
    (hknown : ∀ c ∈ r.clients, ∃ record, phase.record? = some record ∧
      s.disk.key = some record.key ∧ c ∈ record.clients) :
    Moves s i phase disk (.idle r) [.loaded i r.clients] where
  isOpen h := absurd h (by rw [hphase]; decide)
  opens _ := .inr hclear
  loaded clients h := by
    obtain rfl := (Event.loaded.inj (List.mem_singleton.mp h)).2
    exact ⟨rfl, rfl⟩
  known c hc := .inr (.inr (hknown c hc))
  record _ h := nomatch h
  key _ h := nomatch h

/-- A step of a mutation. -/
theorem Moves.publishes (hphase : phase.isOpen = true) (hphase' : phase'.isOpen = true)
    (hknown : ∀ c ∈ phase'.known, c ∈ phase.known) (hrecord : phase'.record? = none)
    (hkey : ∀ k, phase'.key? = some k → phase.key? = some k ∨ disk.key = some k)
    (hes : ∀ clients, .loaded i clients ∉ es) : Moves s i phase disk phase' es where
  isOpen _ := hphase'
  opens _ := .inl hphase
  loaded clients h := absurd h (hes clients)
  known c hc := .inl ⟨c, hknown c hc, rfl⟩
  record _ h := absurd h (by rw [hrecord]; nofun)
  key := hkey

/-- A change is refused. -/
theorem Moves.refuses {p : Publishing P} (hphase : phase.isOpen = true)
    (hknown : phase.known = p.repository.clients ++ p.next) :
    Moves s i phase disk p.refused [] := by
  apply Moves.publishes hphase rfl
  · intro c hc
    rw [hknown]
    exact Publishing.known_refused false hc
  · rfl
  · intro k hk
    cases hk
  · exact fun _ => List.not_mem_nil

/-- What a step of a store does. -/
theorem advance_spec (h : advance s i born ok phase = some (disk, phase', es)) :
    Touches s i phase ok disk es ∧ Moves s i phase disk phase' es := by
  unfold advance at h
  -- one case for each access of the store, in the order of the calls
  cases phase with
  | contains =>
    obtain ⟨rfl, rfl, rfl⟩ := by simpa using h
    refine ⟨.nothing, ?_⟩
    split
    · exact .closed rfl rfl rfl rfl (fun _ hrecord => by cases hrecord)
    · exact .closed rfl rfl rfl rfl (fun _ hrecord => by cases hrecord)
  | missing =>
    dsimp only at h
    split at h
    · cases h
    · next hlock =>
      -- the lock is free, so no reset is between its accesses
      have hclear : s.clearing = none := Option.not_isSome_iff_eq_none.mp hlock
      split at h
      · obtain ⟨rfl, rfl, rfl⟩ := by simpa using h
        exact ⟨.loads, .returns rfl hclear fun c hc => absurd hc List.not_mem_nil⟩
      · obtain ⟨rfl, rfl, rfl⟩ := by simpa using h
        exact ⟨.nothing, .closed rfl rfl rfl rfl (fun _ hrecord => by cases hrecord)⟩
  | present =>
    dsimp only at h
    split at h
    · obtain ⟨rfl, rfl, rfl⟩ := by simpa using h
      exact ⟨.nothing, .closed rfl rfl rfl rfl (fun _ hrecord => by cases hrecord)⟩
    · next record hrecord =>
      obtain ⟨rfl, rfl, rfl⟩ := by simpa using h
      refine ⟨.nothing, ?_⟩
      split
      · refine .closed rfl rfl rfl rfl fun record' h => ?_
        obtain rfl := Option.some.inj h
        exact hrecord
      · exact .closed rfl rfl rfl rfl (fun _ hrecord => by cases hrecord)
  | fetched record =>
    dsimp only at h
    split at h
    · cases h
    · next hlock =>
      have hclear : s.clearing = none := Option.not_isSome_iff_eq_none.mp hlock
      split at h
      · next hopen =>
        obtain ⟨rfl, rfl, rfl⟩ := by simpa using h
        exact ⟨.loads, .returns rfl hclear fun c hc => ⟨record, rfl, hopen.1.2, hc⟩⟩
      · obtain ⟨rfl, rfl, rfl⟩ := by simpa using h
        exact ⟨.nothing, .closed rfl rfl rfl rfl (fun _ hrecord => by cases hrecord)⟩
  | failed => cases h
  | idle r => cases h
  | check p =>
    obtain ⟨rfl, rfl, rfl⟩ := by simpa using h
    refine ⟨.nothing, ?_⟩
    split
    · exact .publishes rfl rfl (fun _ hc => hc) rfl (fun _ hk => by cases hk)
        fun _ => List.not_mem_nil
    · exact .refuses rfl rfl
  | keying p =>
    dsimp only at h
    split at h
    · cases h
    · next hlock =>
      have hclear : s.clearing = none := Option.not_isSome_iff_eq_none.mp hlock
      split at h
      · obtain ⟨rfl, rfl, rfl⟩ := by simpa using h
        exact ⟨.nothing, .refuses rfl rfl⟩
      · next hok =>
        split at h
        · next key hkey =>
          obtain ⟨rfl, rfl, rfl⟩ := by simpa using h
          refine ⟨.nothing, .publishes rfl rfl (fun _ hc => hc) rfl (fun k hk => .inr ?_)
            fun _ => List.not_mem_nil⟩
          exact hkey.trans hk
        · next hkey =>
          obtain ⟨rfl, rfl, rfl⟩ := by simpa using h
          exact ⟨.generates rfl (by simpa using hok) hclear hkey,
            .publishes rfl rfl (fun _ hc => hc) rfl (fun k hk => .inr hk) (by simp)⟩
  | sealing p key =>
    obtain ⟨rfl, rfl, rfl⟩ := by simpa using h
    refine ⟨.nothing, ?_⟩
    split
    · exact .publishes rfl rfl (fun _ hc => hc) rfl (fun _ hk => .inl hk) fun _ => List.not_mem_nil
    · exact .refuses rfl rfl
  | committing p key =>
    obtain ⟨rfl, rfl, rfl⟩ := by simpa using h
    exact ⟨.writes rfl, .publishes rfl rfl (fun _ hc => Publishing.known_refused ok hc) rfl
      (fun _ hk => by cases hk) (by simp)⟩

/-- What the beginning of a change does. -/
theorem begin_spec (s : State P) (ok : Bool) (i : ℕ) (r : ClientRepository P) (m : Mutation) :
    Touches s i (.idle r) ok s.disk (begin i r m).2 ∧
      Moves s i (.idle r) s.disk (begin i r m).1 (begin i r m).2 := by
  unfold begin
  split
  · next hnone =>
    refine ⟨.nothing, .publishes rfl rfl (fun c hc => ?_) rfl nofun fun _ => List.not_mem_nil⟩
    rcases m.run_clients r true with h | h
    · show c ∈ r.clients
      rw [← h]
      exact hc
    · rw [hnone] at h
      cases h
  · next next hnext =>
    dsimp only
    constructor
    · split
      · exact .approves
      · exact .nothing
    · refine ⟨fun _ => rfl, fun _ => .inl rfl, fun clients h => ?_, fun c hc => ?_, nofun, nofun⟩
      · split at h <;> simp at h
      · rcases List.mem_append.mp hc with hc | hc
        · exact .inl ⟨c, hc, rfl⟩
        · rcases Mutation.mem_next hnext hc with hold | ⟨id, label, now, rfl⟩
          · exact .inl hold
          · exact .inr (.inl (List.mem_singleton_self _))

/-- What a step does, with what it found. -/
inductive Moved (s : State P) : Label → State P → List Event → Prop
  | openStore : Moved s .openStore { s with stores := s.stores ++ [⟨s.epoch, .contains⟩] }
      [.opened s.stores.length s.epoch]
  | mutate {i born : ℕ} {m : Mutation} {r : ClientRepository P} :
      s.stores[i]? = some ⟨born, .idle r⟩ →
      Moved s (.mutate i m) { s with stores := s.stores.set i ⟨born, (begin i r m).1⟩ }
        (begin i r m).2
  | step {i : ℕ} {ok : Bool} {st : Store P} {disk : Disk} {phase : Phase P} {es : List Event} :
      s.stores[i]? = some st → advance s i st.born ok st.phase = some (disk, phase, es) →
      Moved s (.step i ok) { s with disk, stores := s.stores.set i ⟨st.born, phase⟩ } es
  | clear : s.clearing = none →
      Moved s .clear { s with epoch := s.epoch + 1, clearing := some .remove }
        [.invalidated (s.epoch + 1)]
  | remove {ok : Bool} : s.clearing = some .remove →
      Moved s (.clearStep ok)
        { s with
          disk := { s.disk with record := none }
          clearing := if ok then some .delete else none } []
  | delete : s.clearing = some .delete →
      Moved s (.clearStep true) { s with disk := { s.disk with key := none }, clearing := none }
        [.cleared s.epoch]
  | failed : s.clearing = some .delete → Moved s (.clearStep false) { s with clearing := none } []

/-- Every step moves the stores in one of the ways. -/
theorem moved_of_step {l : Label} {s' : State P} (hs : s.step l = some (s', es)) :
    Moved s l s' es := by
  cases l with
  | openStore =>
    obtain ⟨rfl, rfl⟩ := Prod.mk.inj (Option.some.inj hs)
    exact .openStore
  | mutate i m =>
    simp only [State.step] at hs
    split at hs
    · next hst =>
      obtain ⟨rfl, rfl⟩ := Prod.mk.inj (Option.some.inj hs)
      exact .mutate hst
    · cases hs
  | step i ok =>
    simp only [State.step] at hs
    split at hs
    · cases hs
    next hst =>
    split at hs
    · cases hs
    next hadvance =>
    obtain ⟨rfl, rfl⟩ := Prod.mk.inj (Option.some.inj hs)
    exact .step hst hadvance
  | clear =>
    simp only [State.step] at hs
    split at hs
    · cases hs
    next hlock =>
    obtain ⟨rfl, rfl⟩ := Prod.mk.inj (Option.some.inj hs)
    exact .clear (Option.not_isSome_iff_eq_none.mp hlock)
  | clearStep ok =>
    simp only [State.step] at hs
    split at hs
    · cases hs
    · next hclearing =>
      obtain ⟨rfl, rfl⟩ := Prod.mk.inj (Option.some.inj hs)
      exact .remove hclearing
    · next hclearing =>
      cases ok with
      | true =>
        obtain ⟨rfl, rfl⟩ := Prod.mk.inj (Option.some.inj hs)
        exact .delete hclearing
      | false =>
        obtain ⟨rfl, rfl⟩ := Prod.mk.inj (Option.some.inj hs)
        exact .failed hclearing

end moves

end ClientStore
end MobileWebcamBridge
