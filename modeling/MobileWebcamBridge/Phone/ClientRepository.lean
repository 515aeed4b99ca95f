import MobileWebcamBridge.Phone.ClientAuthorization

/-!
# `ClientRepository`: the published list and its durable copy

A repository carries the proof that its list passes `ClientRecordCodec.validate`: the list read at
start was decoded, and every later one was encoded. An operation holds the repository's own
monitor from its first read to `clients = next`, so it is one step whose inputs are the clock value
read before it and whether the write succeeds.
-/

set_option autoImplicit false

namespace MobileWebcamBridge

open ClientAuthorization Wire

section codec

variable (P : Platform)

/-- What `ClientRecordCodec.validate` asks of one client. -/
def ClientAuthorization.Client.Valid (c : Client) : Prop :=
  P.validPublicKey c.publicKey = true ∧ c.clientId = deriveClientId P c.publicKey ∧
    labelValid P c.label = true ∧ 0 ≤ c.approvedAtUnixSeconds ∧
    c.expiresAtUnixSeconds ≤ 0xffffffff ∧ c.approvedAtUnixSeconds < c.expiresAtUnixSeconds ∧
    c.expiresAtUnixSeconds - c.approvedAtUnixSeconds ≤ EXPIRY_SECONDS

instance (c : Client) : Decidable (c.Valid P) := by
  unfold ClientAuthorization.Client.Valid
  infer_instance

/-- `ClientRecordCodec.validate`. -/
def Validated (clients : List Client) : Prop :=
  clients.length ≤ MAX_CLIENTS ∧ (∀ c ∈ clients, c.Valid P) ∧ (clients.map Client.clientId).Nodup

instance (clients : List Client) : Decidable (Validated P clients) := by
  unfold Validated
  infer_instance

variable {P}

/-- Every outcome `evaluate` can give on a stored list passes the wire's own check. -/
theorem evaluate_valid {clients : List Client} (h : Validated P clients)
    (clientId publicKey message signature : List UInt8) (now : ℤ) :
    authResultValid (evaluate P clientId publicKey message signature clients now) = true := by
  unfold evaluate
  split
  · decide
  split
  · decide
  cases hf : find clients clientId with
  | none =>
    show authResultValid (if clients.length ≥ MAX_CLIENTS then _ else _) = true
    split <;> decide
  | some known =>
    obtain ⟨-, -, -, h0, hmax, hlt, -⟩ := h.2.1 known (find_some hf).1
    simp only
    split
    · decide
    split
    · simp [authResultValid]
      omega
    · simp [authResultValid]
      omega

end codec

/-- The list in memory, and whether every write of it succeeded. -/
structure ClientRepository (P : Platform) where
  clients : List Client
  healthy : Bool
  valid : Validated P clients

namespace ClientRepository

variable {P : Platform}

/-- How an operation ends. -/
inductive Outcome
  | threw | unchanged | saved
deriving DecidableEq, Repr

/-- The list, unless a write has failed. -/
def snapshot (r : ClientRepository P) : Option (List Client) :=
  if r.healthy then some r.clients else none

/-- `written`: neither `checkWritable` nor the write throws. -/
def publish (r : ClientRepository P) (next : List Client) (written : Bool) :
    ClientRepository P × Outcome :=
  if valid : Validated P next then
    if written then ({ r with clients := next, valid }, .saved)
    else ({ r with healthy := false }, .threw)
  else (r, .threw)

/-- The PC joins the list, or its record is replaced. -/
def approve (r : ClientRepository P) (clientId key : List UInt8) (label : List Char) (now : ℤ)
    (written : Bool) : ClientRepository P × Outcome :=
  match ClientAuthorization.approve P r.clients clientId key label now with
  | some next => r.publish next written
  | none => (r, .threw)

/-- The PC leaves the list. -/
def revoke (r : ClientRepository P) (clientId : List UInt8) (written : Bool) :
    ClientRepository P × Outcome :=
  if clientId.length ≠ CLIENT_ID_BYTES then (r, .threw)
  else
    let next := ClientAuthorization.revoke r.clients clientId
    if next = r.clients then (r, .unchanged) else r.publish next written

/-- The PC's approval starts anew. -/
def renew (r : ClientRepository P) (clientId : List UInt8) (now : ℤ) (written : Bool) :
    ClientRepository P × Outcome :=
  if (find r.clients clientId).isNone then (r, .threw)
  else
    match ClientAuthorization.renew r.clients clientId now with
    | some next => r.publish next written
    | none => (r, .threw)

/-! ## What an operation does to the list -/

/-- An operation either saved `next`, which is then the list, or left the list alone. -/
def Published (r : ClientRepository P) (next : Option (List Client))
    (q : ClientRepository P × Outcome) : Prop :=
  (q.2 = .saved ∧ next = some q.1.clients) ∨ (q.2 ≠ .saved ∧ q.1.clients = r.clients)

/-- A list is written, or the repository is broken. -/
theorem publish_published (r : ClientRepository P) (next : List Client) (written : Bool) :
    Published r (some next) (r.publish next written) := by
  unfold publish
  split
  · split
    · exact .inl ⟨rfl, rfl⟩
    · exact .inr ⟨nofun, rfl⟩
  · exact .inr ⟨nofun, rfl⟩

/-- So for an approval. -/
theorem approve_published (r : ClientRepository P) (clientId key : List UInt8) (label : List Char)
    (now : ℤ) (written : Bool) :
    Published r (ClientAuthorization.approve P r.clients clientId key label now)
      (r.approve clientId key label now written) := by
  unfold approve
  split
  · next next hn => exact hn ▸ publish_published r next written
  · exact .inr ⟨nofun, rfl⟩

/-- So for a revocation. -/
theorem revoke_published (r : ClientRepository P) (clientId : List UInt8) (written : Bool) :
    Published r (some (ClientAuthorization.revoke r.clients clientId))
      (r.revoke clientId written) := by
  unfold revoke
  split
  · exact .inr ⟨nofun, rfl⟩
  · dsimp only
    split
    · exact .inr ⟨nofun, rfl⟩
    · exact publish_published r _ written

/-- So for a renewal. -/
theorem renew_published (r : ClientRepository P) (clientId : List UInt8) (now : ℤ)
    (written : Bool) :
    Published r (ClientAuthorization.renew r.clients clientId now)
      (r.renew clientId now written) := by
  unfold renew
  split
  · exact .inr ⟨nofun, rfl⟩
  · split
    · next next hn => exact hn ▸ publish_published r next written
    · exact .inr ⟨nofun, rfl⟩

end ClientRepository
end MobileWebcamBridge
