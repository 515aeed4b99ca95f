import MobileWebcamBridge.Phone.ClientStore

/-!
# Runs of a `ClientRepository`

The synchronized operations and `snapshot` in any order, with any clock and with any of the durable
writes failing.
-/

set_option autoImplicit false

namespace MobileWebcamBridge
namespace ClientRepository

open ClientAuthorization ClientStore Trace

variable {P : Platform}

/-- `written`: neither `checkWritable` nor the write throws. -/
inductive Call
  | mutate (mutation : Mutation) (written : Bool)
  | snapshot

/-- What a call does, and what it answers. -/
inductive Note
  | wrote (clients : List Client)
  | failed (clients : List Client)                        -- the write of this list threw
  | ended (outcome : Outcome)
  | read (clients : Option (List Client))                 -- `none` is the failed `check(healthy)`
deriving DecidableEq

/-- One call, with its notes. -/
def call (r : ClientRepository P) : Call → ClientRepository P × List Note
  | .mutate m written =>
    let writes := match m.next r with
      | none => []
      | some next => [if written then .wrote next else .failed next]
    ((m.run r written).1, writes ++ [Note.ended (m.run r written).2])
  | .snapshot => (r, [.read r.snapshot])

/-- A repository that has read a valid record. -/
def calls (loaded : List Client) : EventSystem (ClientRepository P) Call Note where
  start r := r.clients = loaded ∧ r.healthy = true
  step r c := some (r.call c)

/-- The list after a note. -/
def overwrite (clients : List Client) : Note → List Client
  | .wrote next => next
  | _ => clients

/-- What was loaded, or the last list whose write succeeded. -/
def durable (loaded : List Client) (tr : List Note) : List Client := tr.foldl overwrite loaded

/-- The list after more calls. -/
@[simp] theorem durable_append (loaded : List Client) (tr es : List Note) :
    durable loaded (tr ++ es) = durable (durable loaded tr) es := List.foldl_append

/-! ## What a mutation does -/

variable {r : ClientRepository P}

/-- A mutation throws or returns before the write, or comes to `publish` with a list of its own. -/
theorem run_publishes (r : ClientRepository P) (m : Mutation) :
    (∃ outcome, outcome ≠ .saved ∧ ∀ written, m.run r written = (r, outcome)) ∨
      ∃ next, ∀ written, m.run r written = r.publish next written := by
  cases m with
  | approve clientId key label now =>
    simp only [Mutation.run, approve]
    cases ClientAuthorization.approve P r.clients clientId key label now with
    | none => exact .inl ⟨.threw, nofun, fun _ => rfl⟩
    | some next => exact .inr ⟨next, fun _ => rfl⟩
  | revoke clientId =>
    simp only [Mutation.run, revoke]
    split
    · exact .inl ⟨.threw, nofun, fun _ => rfl⟩
    split
    · exact .inl ⟨.unchanged, nofun, fun _ => rfl⟩
    · exact .inr ⟨_, fun _ => rfl⟩
  | renew clientId now =>
    simp only [Mutation.run, renew]
    split
    · exact .inl ⟨.threw, nofun, fun _ => rfl⟩
    cases ClientAuthorization.renew r.clients clientId now with
    | none => exact .inl ⟨.threw, nofun, fun _ => rfl⟩
    | some next => exact .inr ⟨next, fun _ => rfl⟩

/-- The three ends of a mutation: before the write, with the write, and with a failed write. -/
theorem mutate_cases (r : ClientRepository P) (m : Mutation) (written : Bool) :
    (∃ outcome, outcome ≠ .saved ∧ r.call (.mutate m written) = (r, [.ended outcome])) ∨
    (∃ next valid, r.call (.mutate m written) =
      ({ r with clients := next, valid }, [.wrote next, .ended .saved])) ∨
    ∃ next, r.call (.mutate m written) =
      ({ r with healthy := false }, [.failed next, .ended .threw]) := by
  rcases run_publishes r m with ⟨outcome, hother, hrun⟩ | ⟨next, hrun⟩
  · refine .inl ⟨outcome, hother, ?_⟩
    have hnext : m.next r = none := by simp [Mutation.next, hrun, hother]
    simp [call, hnext, hrun]
  by_cases valid : Validated P next
  · have hnext : m.next r = some next := by simp [Mutation.next, hrun, publish, valid]
    cases written with
    | true =>
      refine .inr (.inl ⟨next, valid, ?_⟩)
      simp [call, hnext, hrun, publish, valid]
    | false =>
      refine .inr (.inr ⟨next, ?_⟩)
      simp [call, hnext, hrun, publish, valid]
  · -- `encode` validates before anything is written
    have hnext : m.next r = none := by simp [Mutation.next, hrun, publish, valid]
    refine .inl ⟨.threw, by decide, ?_⟩
    simp [call, hnext, hrun, publish, valid]

/-! ## The runs -/

/-- A snapshot is of the durable list, and is taken before any write has failed. -/
def Fresh (loaded : List Client) (x : List Note) : Note → Prop
  | .read (some clients) => clients = durable loaded x ∧ ∀ next, .failed next ∉ x
  | _ => True

/-- The list in memory is what was last written, and no failed write is passed over. -/
structure Tracked (loaded : List Client) (tr : List Note) (r : ClientRepository P) : Prop where
  clients : r.clients = durable loaded tr
  healthy : r.healthy = true → ∀ next, .failed next ∉ tr
  fresh : Each (Fresh loaded) tr

variable {loaded : List Client} {tr : List Note}

/-- Every call keeps the list tracked. -/
theorem Tracked.call (h : Tracked loaded tr r) (c : Call) :
    Tracked loaded (tr ++ (r.call c).2) (r.call c).1 := by
  cases c with
  | snapshot =>
    refine ⟨by simpa [ClientRepository.call, durable, overwrite] using h.clients, ?_, ?_⟩
    · intro hhealthy next hn
      have hold := h.healthy hhealthy next
      simp only [ClientRepository.call, List.mem_append, List.mem_singleton, reduceCtorEq,
        or_false] at hn
      exact hold hn
    · refine h.fresh.append (each_cons.mpr ⟨?_, each_nil⟩)
      rw [List.append_nil]
      unfold snapshot
      split
      · next hhealthy => exact ⟨h.clients, h.healthy hhealthy⟩
      · trivial
  | mutate m written =>
    have hfresh {es : List Note} (hes : ∀ clients, .read clients ∉ es) :
        Each (Fresh loaded) (tr ++ es) := by
      refine h.fresh.append (each_of_forall fun x e he => ?_)
      cases e with
      | read clients => exact absurd he (hes clients)
      | _ => trivial
    rcases mutate_cases r m written with ⟨outcome, -, hcall⟩ | ⟨next, valid, hcall⟩ | ⟨next, hcall⟩
    · rw [hcall]
      refine ⟨by simpa [durable, overwrite] using h.clients, ?_, hfresh (by simp)⟩
      intro hhealthy
      simpa using h.healthy hhealthy
    · rw [hcall]
      refine ⟨by simp [durable, overwrite], ?_, hfresh (by simp)⟩
      intro hhealthy
      simpa using h.healthy hhealthy
    · rw [hcall]
      refine ⟨by simpa [durable, overwrite] using h.clients, ?_, hfresh (by simp)⟩
      intro hhealthy
      cases hhealthy

/-- So does every run. -/
theorem tracked_of_reaches (h : (calls loaded).Reaches tr r) : Tracked loaded tr r := by
  refine EventSystem.Under.invariant (P := Tracked loaded) ?_ ?_ h
  · rintro r ⟨hclients, -⟩
    exact ⟨hclients, fun _ _ => List.not_mem_nil, each_nil⟩
  · intro tr r c r' es _ _ ih hstep
    obtain ⟨rfl, rfl⟩ := Prod.mk.inj (Option.some.inj hstep)
    exact ih.call c

/-- Whatever the order, the clock and the failures: the published list is valid and durable, what
throws leaves it alone, and a failed write ends every later snapshot. -/
theorem calls_atomic (h : (calls loaded).Reaches tr r) :
    Validated P r.clients ∧ r.clients = durable loaded tr ∧
      (∀ c, .ended .threw ∈ (r.call c).2 → (r.call c).1.clients = r.clients) ∧
      ((∃ next, .failed next ∈ tr) → r.snapshot = none) ∧
      Each (Fresh loaded) tr := by
  have htracked := tracked_of_reaches h
  refine ⟨r.valid, htracked.clients, ?_, ?_, htracked.fresh⟩
  · intro c hthrew
    cases c with
    | snapshot => rfl
    | mutate m written =>
      rcases mutate_cases r m written with ⟨outcome, -, hcall⟩ |
        ⟨next, valid, hcall⟩ | ⟨next, hcall⟩
      · rw [hcall]
      · rw [hcall] at hthrew
        simp at hthrew
      · rw [hcall]
  · rintro ⟨next, hfailed⟩
    unfold snapshot
    rw [if_neg fun hhealthy => htracked.healthy hhealthy next hfailed]

/-- A digest that is the key's tail, and any label that is not blank. -/
def tail : Platform where
  sha256 key := key.drop 1
  validPublicKey key := key.length == Wire.CLIENT_PUBLIC_KEY_BYTES
  verify _ _ _ := false
  isWhitespace c := c == ' '
  scalarIsSafe _ := true

/-- A PC whose key and ID are one byte repeated. -/
def tailClient (k : UInt8) : Client where
  clientId := List.replicate 16 k
  publicKey := 4 :: List.replicate 64 k
  label := ['p', 'c']
  approvedAtUnixSeconds := 100
  expiresAtUnixSeconds := 100 + EXPIRY_SECONDS

/-- The approval that makes the record. -/
def approval (c : Client) : Mutation :=
  .approve c.clientId c.publicKey c.label c.approvedAtUnixSeconds

/-- One PC is approved, the write of the next one fails, and a third one is stored all the same. -/
def diskFull : List Call :=
  [.mutate (approval (tailClient 7)) true, .snapshot, .mutate (approval (tailClient 8)) false,
    .snapshot, .mutate (approval (tailClient 9)) true]

/-- A disk that is full breaks the repository. -/
theorem calls_atomic_diskFull :
    ((calls []).final (⟨[], true, by decide⟩ : ClientRepository tail) diskFull).snapshot = none :=
  (calls_atomic (EventSystem.reaches_trace diskFull ⟨rfl, rfl⟩ rfl)).2.2.2.1
    ⟨[tailClient 7, tailClient 8], by decide +kernel⟩

end ClientRepository
end MobileWebcamBridge
