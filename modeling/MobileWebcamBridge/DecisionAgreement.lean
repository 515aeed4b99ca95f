import Mathlib.Data.List.Nodup
import MobileWebcamBridge.Lib.Trace
import MobileWebcamBridge.Phone.PhoneAuthorization.Grant
import MobileWebcamBridge.WireAgreement

/-!
# What a PC is told

`evaluate` on a list the repository accepts, and every outcome the owner sends: the section that
decides it also sends it, and the PC's decoder finds the status, the reason and the expiry in it.
-/

set_option autoImplicit false

namespace MobileWebcamBridge
namespace DecisionAgreement

open Wire ClientAuthorization PhoneAuthorization Trace

variable {P : Platform} {clients : List Client} {clientId publicKey message signature : List UInt8}
variable {now : ℤ}

/-! ## The decision -/

/-- The proof verifies: every part has its size, and the ID is the key's. -/
structure Proven (P : Platform) (clientId publicKey message signature : List UInt8) : Prop where
  sizes : clientId.length = CLIENT_ID_BYTES ∧ publicKey.length = CLIENT_PUBLIC_KEY_BYTES ∧
    signature.length = SIGNATURE_BYTES
  derived : deriveClientId P publicKey = clientId
  verified : P.verify publicKey message signature = true

/-- What the three outcomes mean. -/
structure Decides (P : Platform) (clients : List Client)
    (clientId publicKey message signature : List UInt8) (now : ℤ) : Prop where
  authorized :
    (evaluate P clientId publicKey message signature clients now).status = .authorized ↔
      Proven P clientId publicKey message signature ∧
        ∃ c ∈ clients, c.clientId = clientId ∧ c.publicKey = publicKey ∧
          c.approvedAtUnixSeconds ≤ now ∧ now < c.expiresAtUnixSeconds
  pending :
    (evaluate P clientId publicKey message signature clients now).status = .pending ↔
      Proven P clientId publicKey message signature ∧ (∀ c ∈ clients, c.clientId ≠ clientId) ∧
        clients.length < MAX_CLIENTS
  rejected :
    (evaluate P clientId publicKey message signature clients now).status = .rejected →
      (evaluate P clientId publicKey message signature clients now).reason ≠ .none

/-- A proof that does not verify is rejected. -/
theorem evaluate_unproven (clients : List Client) (now : ℤ)
    (h : ¬ Proven P clientId publicKey message signature) :
    evaluate P clientId publicKey message signature clients now =
      ⟨.rejected, .badSignature, 0⟩ := by
  unfold evaluate
  split
  · rfl
  · next hsizes =>
    rw [if_pos]
    by_contra hproof
    simp only [not_or, not_not, Bool.not_eq_false] at hsizes hproof
    exact h ⟨hsizes, hproof.1, hproof.2⟩

/-- A proof that verifies is decided by the record of its ID. -/
theorem evaluate_proven (clients : List Client) (now : ℤ)
    (h : Proven P clientId publicKey message signature) :
    evaluate P clientId publicKey message signature clients now =
      match find clients clientId with
      | none =>
        if clients.length ≥ MAX_CLIENTS then ⟨.rejected, .tooMany, 0⟩ else ⟨.pending, .none, 0⟩
      | some known =>
        if known.publicKey ≠ publicKey then ⟨.rejected, .badSignature, 0⟩
        else if now < known.approvedAtUnixSeconds ∨ now ≥ known.expiresAtUnixSeconds then
          ⟨.rejected, .expired, known.expiresAtUnixSeconds⟩
        else ⟨.authorized, .none, known.expiresAtUnixSeconds⟩ := by
  obtain ⟨⟨hid, hkey, hsignature⟩, hderived, hverified⟩ := h
  unfold evaluate
  rw [if_neg (by simp [hid, hkey, hsignature])]
  exact if_neg (by simp [hderived, hverified])

/-- A stored list has at most one entry of an ID. -/
theorem find_of_mem {c : Client} (hnodup : (clients.map Client.clientId).Nodup) (hc : c ∈ clients) :
    find clients c.clientId = some c := by
  cases hfind : find clients c.clientId with
  | none =>
    have hnone := List.find?_eq_none.mp hfind c hc
    simp at hnone
  | some d =>
    obtain ⟨hd, hsame⟩ := find_some hfind
    rw [List.inj_on_of_nodup_map hnodup hd hc hsame]

/-- No record is found exactly when no PC has the ID. -/
theorem find_eq_none : find clients clientId = none ↔ ∀ c ∈ clients, c.clientId ≠ clientId := by
  simp [find, List.find?_eq_none]

/-- `evaluate` decides as the list says. -/
theorem evaluate_decides (hvalid : Validated P clients)
    (clientId publicKey message signature : List UInt8) (now : ℤ) :
    Decides P clients clientId publicKey message signature now := by
  have hok := evaluate_valid hvalid clientId publicKey message signature now
  have hreason (h : (evaluate P clientId publicKey message signature clients now).status =
      .rejected) :
      (evaluate P clientId publicKey message signature clients now).reason ≠ .none := by
    simp only [authResultValid, h, Bool.and_eq_true, decide_eq_true_eq] at hok
    exact hok.2.1
  by_cases hproven : Proven P clientId publicKey message signature
  · have heval := evaluate_proven clients now hproven
    cases hfind : find clients clientId with
    | none =>
      have hunknown := find_eq_none.mp hfind
      rw [hfind] at heval
      refine ⟨⟨fun h => ?_, fun h => ?_⟩, ⟨fun h => ?_, fun h => ?_⟩, hreason⟩
      · rw [heval] at h
        dsimp only at h
        split at h <;> cases h
      · obtain ⟨-, c, hc, hid, -⟩ := h
        exact absurd hid (hunknown c hc)
      · rw [heval] at h
        dsimp only at h
        split at h
        · cases h
        · next hroom => exact ⟨hproven, hunknown, Nat.lt_of_not_le hroom⟩
      · rw [heval]
        dsimp only
        rw [if_neg (Nat.not_le_of_lt h.2.2)]
    | some known =>
      obtain ⟨hmem, hid⟩ := find_some hfind
      rw [hfind] at heval
      refine ⟨⟨fun h => ?_, fun h => ?_⟩, ⟨fun h => ?_, fun h => ?_⟩, hreason⟩
      · obtain ⟨c, hc, hkey, happroved, hexpires, -⟩ := known_of_evaluate h
        obtain ⟨hcmem, hcid⟩ := find_some hc
        exact ⟨hproven, c, hcmem, hcid, hkey, happroved, hexpires⟩
      · -- the entry that is found is the one that covers the key
        obtain ⟨-, c, hc, hcid, hkey, happroved, hexpires⟩ := h
        have hfound := find_of_mem hvalid.2.2 hc
        rw [hcid, hfind, Option.some.injEq] at hfound
        subst hfound
        rw [heval]
        dsimp only
        rw [if_neg (not_not.mpr hkey), if_neg (by omega)]
      · rw [heval] at h
        dsimp only at h
        split at h
        · cases h
        · split at h <;> cases h
      · exact absurd hid (h.2.1 known hmem)
  · have heval := evaluate_unproven clients now hproven
    refine ⟨⟨fun h => ?_, fun h => absurd h.1 hproven⟩, ⟨fun h => ?_, fun h => absurd h.1 hproven⟩,
      hreason⟩
    · rw [heval] at h
      cases h
    · rw [heval] at h
      cases h

/-! ## The outcome on the wire -/

/-- The phone encodes the outcome, and the PC decodes it to the same status, reason and expiry. -/
def Carried (r : ClientAuthResult) : Prop :=
  ∃ payload v, encodeClientAuthResult r = some payload ∧
    HostWire.ClientAuthResult.decode (WireCodec.payloadBytes payload) = .ok v ∧
    v.status = WireCodec.authStatusByte r.status ∧ v.reason = WireCodec.authReasonByte r.reason ∧
    (v.expiresAtUnixSeconds.toNat : ℤ) = r.expiresAtUnixSeconds

/-- An outcome the phone may send is read by the PC as the same one. -/
theorem carried {r : ClientAuthResult} (h : authResultValid r = true) : Carried r := by
  have hencode : encodeClientAuthResult r = some (.clientAuthResult r) := if_pos h
  obtain ⟨bytes, hbytes, ⟨v, hv⟩, -⟩ := WireAgreement.authResult_read (P := ⟨id, fun _ => true,
    fun _ _ _ => true, fun _ => true, fun _ => true⟩) (D := ⟨fun _ => true, fun _ _ => none⟩)
    ⟨_, hencode⟩
  have hsame : some (WireCodec.payloadBytes (.clientAuthResult r)) = some bytes := by
    rw [← hbytes]
    show _ = (encodeClientAuthResult r).map WireCodec.payloadBytes
    rw [hencode]
    rfl
  rw [Option.some.injEq] at hsame
  exact ⟨_, v, hencode, hsame ▸ hv⟩

/-- An outcome that may be sent for a decision on a stored list is one the encoder takes. -/
theorem conveyed_valid {decision sent : ClientAuthResult} (h : Conveys decision sent)
    (hdecision : authResultValid decision = true) : authResultValid sent = true := by
  rcases h with rfl | ⟨-, rfl⟩
  · exact hdecision
  · decide

/-- The outcome for a PC on the list may be sent. -/
theorem granted_valid {c : Client} (hvalid : Validated P clients) (hc : c ∈ clients) :
    authResultValid ⟨.authorized, .none, c.expiresAtUnixSeconds⟩ = true := by
  obtain ⟨-, -, -, h0, hmax, hlt, -⟩ := hvalid.2.1 c hc
  simp [authResultValid]
  omega

/-! ## What the owner sends -/

/-- A decision is followed by the outcome it leads to, and every outcome is carried. -/
def Answered (P : Platform) (x : List Event) : Event → List Event → Prop
  | .evaluated sid clients now, y =>
    ∃ x' transport phoneBinding nonce p message r z, x = x' ++ [Event.proof sid p] ∧
      .opened sid transport phoneBinding nonce ∈ x' ∧
      clientAuthMessage P transport phoneBinding nonce p.publicKey p.label = some message ∧
      Conveys
        (evaluate P (deriveClientId P p.publicKey) p.publicKey message p.signature clients now)
        r ∧
      y = .sent sid .clientAuthResult (.clientAuthResult r) :: z
  | .approved sid clients _, y =>
    ∃ c ∈ clients, ∃ z, y = .sent sid .clientAuthResult
      (.clientAuthResult ⟨.authorized, .none, c.expiresAtUnixSeconds⟩) :: z
  | .sent _ .clientAuthResult payload, _ => ∃ r, payload = .clientAuthResult r ∧ Carried r
  | _, _ => True

/-- What answers an event still does after more events. -/
theorem Answered.grow {x : List Event} {e : Event} {y : List Event} (h : Answered P x e y)
    (es : List Event) : Answered P x e (y ++ es) := by
  cases e with
  | evaluated sid clients now =>
    obtain ⟨x', transport, phoneBinding, nonce, p, message, r, z, hx, ho, hm, hr, rfl⟩ := h
    exact ⟨x', transport, phoneBinding, nonce, p, message, r, z ++ es, hx, ho, hm, hr, rfl⟩
  | approved sid clients approvedAt =>
    obtain ⟨c, hc, z, rfl⟩ := h
    exact ⟨c, hc, z ++ es, rfl⟩
  | sent sid type payload => cases type <;> exact h
  | _ => trivial

/-- Events that decide nothing and send no outcome. -/
def Event.idle : Event → Bool
  | .evaluated .. | .approved .. | .sent _ .clientAuthResult _ => false
  | _ => true

/-- An idle event asks for no answer. -/
theorem answered_idle {e : Event} (h : Event.idle e = true) (x y : List Event) :
    Answered P x e y := by
  cases e with
  | evaluated => cases h
  | approved => cases h
  | sent sid type payload =>
    cases type with
    | clientAuthResult => cases h
    | _ => trivial
  | _ => trivial

theorem around_idle {tr es : List Event} (h : ∀ e ∈ es, Event.idle e = true) :
    Around (fun x => Answered P (tr ++ x)) es :=
  around_of_forall fun x e he y => answered_idle (h e he) (tr ++ x) y

theorem idle_of_closing {es : List Event} (h : Closing es) : ∀ e ∈ es, Event.idle e = true := by
  intro e he
  have hclosing := h e he
  cases e with
  | evaluated | approved => cases hclosing
  | sent => cases hclosing
  | _ => rfl

section acts

variable {a b : PhoneAuthorization P} {t : Task} {tr es : List Event} {thread : ℕ}
variable {may : List UInt8 → Prop}

/-- A section answers what it has evaluated. -/
theorem act_answered (hs : Sessions tr a) (hact : Act thread may a t b es) :
    Around (fun x => Answered P (tr ++ x)) es := by
  cases hact with
  | @answered sid s p message now d phase r hp hm hans hmay hconveys =>
    have hopened := (hs.session sid s hp.session).opened
    have hok := conveyed_valid hconveys (evaluate_valid a.repository.valid _ _ _ _ _)
    simp only [around_cons]
    refine ⟨trivial, ⟨tr, s.transport, s.phoneBinding, s.nonce, p, message, r, _, rfl, hopened, hm,
      hconveys, rfl⟩, ⟨r, rfl, carried hok⟩, trivial, around_nil⟩
  | @granted sid s proposed saved r hp hsingle hr hmay hsent =>
    subst hsent
    have hmem := (single_some hsingle).1
    simp only [around_cons]
    exact ⟨⟨saved, hmem, _, rfl⟩,
      ⟨_, rfl, carried (granted_valid a.repository.valid hmem)⟩, trivial,
      around_nil⟩
  | @rejected sid s d u r hp hr hsent =>
    subst hsent
    simp only [around_cons]
    exact ⟨⟨_, rfl, carried (by decide)⟩, trivial, around_nil⟩
  | @started sid s d challenge hs hn hlive =>
    refine around_idle fun e he => ?_
    cases challenge with
    | none => cases he
    | some payload =>
      simp only [announce, List.mem_cons, List.not_mem_nil, or_false] at he
      rcases he with rfl | rfl <;> rfl
  | refused hp hshut hc =>
    refine around_idle fun e he => ?_
    rcases List.mem_cons.mp he with rfl | he
    · rfl
    · exact idle_of_closing hshut.2 e he
  | opened | approving | revoking | revoked | reported | wrote | kept =>
    exact around_idle (by simp [Event.idle])

end acts

/-- Nothing the owner sends for a decision fails to encode. -/
def Encodes (a : PhoneAuthorization P) : Prop :=
  ∀ (c : Clock) (sid : ℕ) (s : Session),
    (∀ clientId publicKey message signature,
      (a.respond c sid s (evaluate P clientId publicKey message signature a.repository.clients
        c.seconds)).2.2 = true) ∧
    (∀ saved ∈ a.repository.clients, (a.grant sid s saved.expiresAtUnixSeconds).2.2 = true) ∧
    (a.deny c sid s .unknown 0).2.2 = true

/-- Every outcome the owner sends can be encoded. -/
theorem encodes (a : PhoneAuthorization P) : Encodes a := by
  intro c sid s
  refine ⟨fun clientId publicKey message signature => ?_, fun saved hsaved => ?_, ?_⟩
  · obtain ⟨d, phase, r, -, -, hr⟩ := respond_spec a c sid s
      (evaluate_valid a.repository.valid clientId publicKey message signature c.seconds)
    rw [hr]
  · show (announce sid _ _).2 = true
    rw [announce_valid (granted_valid a.repository.valid hsaved)]
  · show (announce sid _ _).2 = true
    rw [announce_valid (r := ⟨.rejected, .unknown, 0⟩) (by decide)]

/-- The outcomes mean what they say on every list the repository accepts; and whatever the owner
decides, in any run, is encoded and sent at once, and read by the PC as it was meant. -/
theorem decisions_reach_the_pc {stored : ClientRepository P} {tr : List Event} {th : Threads P}
    (h : (system stored).Reaches tr th) :
    (∀ clients, Validated P clients → ∀ clientId publicKey message signature now,
      Decides P clients clientId publicKey message signature now) ∧
    Encodes th.owner ∧ Around (Answered P) tr := by
  refine ⟨fun clients hvalid => evaluate_decides hvalid, encodes th.owner, ?_⟩
  refine (Under.acts (I := fun tr a => Sessions tr a ∧ Around (Answered P) tr)
    ⟨sessions_init _, around_nil⟩ ?_ ?_ h).2
  · intro tr a thread call hi
    exact ⟨hi.1.same rfl rfl fun _ => rfl,
      hi.2.append (fun _ _ _ h => h.grow _) (around_idle (by simp [Event.idle]))⟩
  · intro tr th thread c written t ts _ _ _ hi
    refine (acts_runTask th.owner c written thread ts t).preserves
      (I := fun tr a => Sessions tr a ∧ Around (Answered P) tr) ?_ ?_ hi
    · intro tr a b es hs hi
      exact ⟨hi.1.shut hs, hi.2.append (fun _ _ _ h => h.grow _)
        (around_idle (idle_of_closing hs.2))⟩
    · intro tr a b es hact hi
      exact ⟨hi.1.act hact, hi.2.append (fun _ _ _ h => h.grow _) (act_answered hi.1 hact)⟩

/-- The outcome of the second connection of a PC that was approved during its first. -/
theorem decisions_reach_the_pc_reconnected :
    ∃ r, .sent 1 .clientAuthResult (.clientAuthResult r) ∈
        (system emptyList).trace (fresh emptyList) reconnected ∧
      r.status = .authorized ∧ Carried r := by
  let tr := (system emptyList).trace (fresh emptyList) reconnected
  have hr :=
    EventSystem.reaches_trace (M := system emptyList) (s := fresh emptyList) reconnected rfl
    (by decide +kernel)
  have htr : tr = tr.take 27 ++ Event.sent 1 .clientAuthResult
      (.clientAuthResult ⟨.authorized, .none, 100 + EXPIRY_SECONDS⟩) :: tr.drop 28 := by
    decide +kernel
  obtain ⟨r, hsent, hcarried⟩ := (decisions_reach_the_pc hr).2.2 _ _ _ htr
  rw [Payload.clientAuthResult.injEq] at hsent
  subst hsent
  refine ⟨_, ?_, rfl, hcarried⟩
  show _ ∈ tr
  rw [htr]
  exact List.mem_append_right _ List.mem_cons_self

end DecisionAgreement
end MobileWebcamBridge
