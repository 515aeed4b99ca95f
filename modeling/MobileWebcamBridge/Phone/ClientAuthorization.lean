import MobileWebcamBridge.Wire

/-!
# `ClientAuthorization`: which PCs may use the phone's camera

The policy on one list of clients: what a proof gets (`evaluate`), and the list after an
approval, a revocation or a renewal. What the source takes from the Java platform (the digest, the
signature verifier and the Unicode tables) is a parameter.
-/

set_option autoImplicit false

namespace MobileWebcamBridge

open Wire

/-- What the phone takes from the platform. -/
structure Platform where
  sha256 : List UInt8 → List UInt8
  /-- The point parses as a P-256 key and lies on the curve. -/
  validPublicKey : List UInt8 → Bool
  /-- `ClientAuthorization.verify` on key, message and raw signature. -/
  verify : List UInt8 → List UInt8 → List UInt8 → Bool
  /-- `Character.isWhitespace`. -/
  isWhitespace : Char → Bool
  /-- `Character.getType` is neither a control, a format nor a separator class. -/
  scalarIsSafe : Char → Bool

namespace Wire

variable (P : Platform)

/-- The test `strictLabel` makes of decoded text, and `ClientAuthorization.validLabel`. -/
def labelValid (label : List Char) : Bool :=
  !label.all P.isWhitespace && decide ((labelBytes label).length ≤ MAX_CLIENT_LABEL) &&
    label.all P.scalarIsSafe

/-- `"AMB1 PC authorization\0v2\0"` in ASCII. -/
def authDomain : List UInt8 :=
  [0x41, 0x4d, 0x42, 0x31, 0x20, 0x50, 0x43, 0x20, 0x61, 0x75, 0x74, 0x68, 0x6f, 0x72, 0x69, 0x7a,
    0x61, 0x74, 0x69, 0x6f, 0x6e, 0x00, 0x76, 0x32, 0x00]

/-- The byte of a transport in the transcript. -/
def transportByte : AuthTransport → UInt8
  | .usb => 0
  | .lan => 1

/-- The signed transcript; `none` is a failed `require`. -/
def clientAuthMessage (transport : AuthTransport) (phoneBinding nonce publicKey : List UInt8)
    (label : List Char) : Option (List UInt8) :=
  if phoneBindingValid transport phoneBinding && nonce.length == NONCE_BYTES &&
      publicKey.length == CLIENT_PUBLIC_KEY_BYTES && publicKey.head? == some 4 &&
      labelValid P label then
    some (authDomain ++ [transportByte transport] ++ phoneBinding ++ nonce ++ publicKey ++
      [UInt8.ofNat (labelBytes label).length] ++ labelBytes label)
  else none

end Wire

namespace ClientAuthorization

variable (P : Platform)

/-- The most PCs of the list. -/
def MAX_CLIENTS : ℕ := 8
/-- How long an approval holds. -/
def EXPIRY_SECONDS : ℤ := 90 * 24 * 60 * 60

/-- The record of an approved PC. -/
structure Client where
  clientId : List UInt8
  publicKey : List UInt8
  label : List Char
  approvedAtUnixSeconds : ℤ
  expiresAtUnixSeconds : ℤ
deriving DecidableEq, Repr

/-- The ID is a truncated hash of the public key, never chosen. -/
def deriveClientId (publicKey : List UInt8) : List UInt8 :=
  (P.sha256 publicKey).take CLIENT_ID_BYTES

/-- The entry of an ID: `firstOrNull { it.clientId.contentEquals(id) }`. -/
def find (clients : List Client) (id : List UInt8) : Option Client :=
  clients.find? fun c => c.clientId == id

/-- What a connecting client gets; `status` is the decision. -/
def evaluate (clientId publicKey message signature : List UInt8) (clients : List Client) (now : ℤ) :
    ClientAuthResult :=
  if clientId.length ≠ CLIENT_ID_BYTES ∨ publicKey.length ≠ CLIENT_PUBLIC_KEY_BYTES ∨
      signature.length ≠ SIGNATURE_BYTES then
    ⟨.rejected, .badSignature, 0⟩
  -- the signature is checked before the list is read
  else if deriveClientId P publicKey ≠ clientId ∨ P.verify publicKey message signature = false then
    ⟨.rejected, .badSignature, 0⟩
  else
    match find clients clientId with
    | none =>
      if clients.length ≥ MAX_CLIENTS then ⟨.rejected, .tooMany, 0⟩ else ⟨.pending, .none, 0⟩
    | some known =>
      if known.publicKey ≠ publicKey then ⟨.rejected, .badSignature, 0⟩
      else if now < known.approvedAtUnixSeconds ∨ now ≥ known.expiresAtUnixSeconds then
        ⟨.rejected, .expired, known.expiresAtUnixSeconds⟩
      else ⟨.authorized, .none, known.expiresAtUnixSeconds⟩

/-- The last second at which an expiry still fits 32 bits. -/
def lastApproval : ℤ := 0xffffffff - EXPIRY_SECONDS

/-- A user approved a pending client; `none` when it cannot be stored. -/
def approve (clients : List Client) (clientId publicKey : List UInt8)
    (label : List Char) (now : ℤ) :
    Option (List Client) :=
  if P.validPublicKey publicKey = false ∨ deriveClientId P publicKey ≠ clientId ∨
      labelValid P label = false ∨ now < 0 ∨ now > lastApproval then none
  else if (find clients clientId).isNone ∧ clients.length ≥ MAX_CLIENTS then none
  else some (clients.filter (fun c => c.clientId != clientId) ++
    [{ clientId, publicKey, label, approvedAtUnixSeconds := now
       expiresAtUnixSeconds := now + EXPIRY_SECONDS }])

/-- The list without the ID. -/
def revoke (clients : List Client) (clientId : List UInt8) : List Client :=
  clients.filter fun c => c.clientId != clientId

/-- One entry of `renew`. -/
def renewed (clientId : List UInt8) (now : ℤ) (c : Client) : Client :=
  if c.clientId = clientId then
    { c with approvedAtUnixSeconds := now, expiresAtUnixSeconds := now + EXPIRY_SECONDS }
  else c

/-- `none` is the failed `require` on the time of an entry that is renewed. -/
def renew (clients : List Client) (clientId : List UInt8) (now : ℤ) : Option (List Client) :=
  if (find clients clientId).isSome ∧ ¬ (0 ≤ now ∧ now ≤ lastApproval) then none
  else some (clients.map (renewed clientId now))

/-! ## What `evaluate` decides -/

section evaluate

variable {P} {clientId publicKey message signature : List UInt8} {clients : List Client} {now : ℤ}

/-- The record that is found has the ID. -/
theorem find_some {id : List UInt8} {c : Client} (h : find clients id = some c) :
    c ∈ clients ∧ c.clientId = id :=
  ⟨List.mem_of_find?_eq_some h, by simpa using List.find?_some h⟩

/-- A proof that is not refused verifies under a key that derives the ID. -/
theorem verified_of_evaluate
    (h : (evaluate P clientId publicKey message signature clients now).status ≠ .rejected) :
    deriveClientId P publicKey = clientId ∧ P.verify publicKey message signature = true := by
  unfold evaluate at h
  split at h
  · exact absurd rfl h
  split at h
  · exact absurd rfl h
  · next hv =>
    rw [not_or, not_not] at hv
    exact ⟨hv.1, by simpa using hv.2⟩

/-- An authorized key is on the list, inside its period. -/
theorem known_of_evaluate
    (h : (evaluate P clientId publicKey message signature clients now).status = .authorized) :
    ∃ c, find clients clientId = some c ∧ c.publicKey = publicKey ∧
      c.approvedAtUnixSeconds ≤ now ∧ now < c.expiresAtUnixSeconds ∧
      (evaluate P clientId publicKey message signature clients now).expiresAtUnixSeconds =
        c.expiresAtUnixSeconds := by
  have hv := verified_of_evaluate (by rw [h]; decide)
  unfold evaluate at h ⊢
  split at h
  · cases h
  split at h
  · cases h
  cases hf : find clients clientId with
  | none =>
    simp only [hf] at h
    split at h <;> cases h
  | some c =>
    simp only [hf] at h
    split at h
    · cases h
    split at h
    · cases h
    · next hsize hsig hkey htime =>
      rw [not_or] at htime
      refine ⟨c, rfl, not_not.mp hkey, by omega, by omega, ?_⟩
      rw [if_neg hsize, if_neg hsig]
      simp only [hkey, if_false]
      rw [if_neg (by omega)]

end evaluate

end ClientAuthorization
end MobileWebcamBridge
