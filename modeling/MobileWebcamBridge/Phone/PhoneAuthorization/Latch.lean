import Mathlib.Data.List.Nodup
import MobileWebcamBridge.Phone.PhoneAuthorization.Grant

/-!
# What sets the `failed` latch

`stored` takes every exception of its action for a storage failure, and a repository operation also
throws when it refuses its arguments. Where every read and write succeeds, the latch is set exactly
by a refused operation.
-/

set_option autoImplicit false

namespace MobileWebcamBridge

open ClientAuthorization Wire

/-! ## The operations keep a list valid -/

section lists

variable {P : Platform} {clients next : List Client} {clientId publicKey : List UInt8}
variable {label : List Char} {now : ℤ}

theorem ids_filter (clients : List Client) (f : Client → Bool)
    (h : (clients.map Client.clientId).Nodup) : ((clients.filter f).map Client.clientId).Nodup :=
  h.sublist (List.filter_sublist.map Client.clientId)

/-- Revoking keeps the list valid. -/
theorem revoke_valid (h : Validated P clients) (clientId : List UInt8) :
    Validated P (ClientAuthorization.revoke clients clientId) := by
  refine ⟨Nat.le_trans (List.length_filter_le _ _) h.1, fun c hc => ?_, ids_filter _ _ h.2.2⟩
  exact h.2.1 c (List.mem_filter.mp hc).1

/-- The list is not longer for an ID that it holds. -/
theorem length_revoke_lt {c : Client} (h : find clients clientId = some c) :
    (ClientAuthorization.revoke clients clientId).length < clients.length := by
  obtain ⟨hc, hid⟩ := find_some h
  apply List.length_filter_lt_length_iff_exists.mpr
  exact ⟨c, hc, by simp [hid]⟩

/-- So does approving. -/
theorem approve_valid (h : Validated P clients)
    (happ : ClientAuthorization.approve P clients clientId publicKey label now = some next) :
    Validated P next := by
  unfold ClientAuthorization.approve at happ
  split at happ
  · cases happ
  next hargs =>
  split at happ
  · cases happ
  next hroom =>
  simp only [not_or, not_not, Bool.not_eq_false] at hargs
  obtain ⟨hkey, hderived, hlabel, hlow, hhigh⟩ := hargs
  have hmax : lastApproval = 0xffffffff - EXPIRY_SECONDS := rfl
  have hexpiry : EXPIRY_SECONDS = 7776000 := rfl
  have hclients : MAX_CLIENTS = 8 := rfl
  rw [Option.some.injEq] at happ
  subst happ
  have hrest := revoke_valid h clientId
  refine ⟨?_, fun c hc => ?_, ?_⟩
  · rw [List.length_append, List.length_singleton]
    show (ClientAuthorization.revoke clients clientId).length + 1 ≤ MAX_CLIENTS
    have hle : clients.length ≤ MAX_CLIENTS := h.1
    cases hfind : find clients clientId with
    | some c =>
      have hlt := length_revoke_lt hfind
      omega
    | none =>
      have hshort : (ClientAuthorization.revoke clients clientId).length ≤ clients.length :=
        List.length_filter_le _ _
      simp only [hfind, Option.isNone_none, true_and] at hroom
      omega
  · rcases List.mem_append.mp hc with hc | hc
    · exact hrest.2.1 c hc
    · rw [List.mem_singleton] at hc
      subst hc
      refine ⟨hkey, hderived.symm, hlabel, ?_, ?_, ?_, ?_⟩
      · show 0 ≤ now
        omega
      · show now + EXPIRY_SECONDS ≤ 0xffffffff
        omega
      · show now < now + EXPIRY_SECONDS
        omega
      · show now + EXPIRY_SECONDS - now ≤ EXPIRY_SECONDS
        omega
  · rw [List.map_append, List.map_singleton, List.nodup_append]
    refine ⟨hrest.2.2, List.nodup_singleton _, fun id hid id' hid' => ?_⟩
    -- the entries that are left have other IDs
    obtain ⟨c, hc, rfl⟩ := List.mem_map.mp hid
    rw [List.mem_singleton] at hid'
    have hother := (List.mem_filter.mp hc).2
    rw [hid']
    simpa using hother

theorem renewed_id (clientId : List UInt8) (now : ℤ) (c : Client) :
    (renewed clientId now c).clientId = c.clientId := by
  unfold renewed
  split <;> rfl

/-- And renewing. -/
theorem renew_valid (h : Validated P clients)
    (hren : ClientAuthorization.renew clients clientId now = some next) : Validated P next := by
  unfold ClientAuthorization.renew at hren
  split at hren
  · cases hren
  next htime =>
  have hmax : lastApproval = 0xffffffff - EXPIRY_SECONDS := rfl
  have hexpiry : EXPIRY_SECONDS = 7776000 := rfl
  rw [Option.some.injEq] at hren
  subst hren
  refine ⟨by simpa using h.1, fun c hc => ?_, ?_⟩
  · obtain ⟨c₀, hc₀, rfl⟩ := List.mem_map.mp hc
    have hvalid := h.2.1 c₀ hc₀
    unfold renewed
    split
    · next hid =>
      have hlisted : (find clients clientId).isSome = true := by
        rw [find, List.find?_isSome]
        exact ⟨c₀, hc₀, by simp [hid]⟩
      simp only [hlisted, true_and, not_not] at htime
      refine ⟨hvalid.1, hvalid.2.1, hvalid.2.2.1, ?_, ?_, ?_, ?_⟩
      · exact htime.1
      · show now + EXPIRY_SECONDS ≤ 0xffffffff
        omega
      · show now < now + EXPIRY_SECONDS
        omega
      · show now + EXPIRY_SECONDS - now ≤ EXPIRY_SECONDS
        omega
    · exact hvalid
  · rw [List.map_map]
    have hsame : Client.clientId ∘ renewed clientId now = Client.clientId :=
      funext fun c => renewed_id clientId now c
    rw [hsame]
    exact h.2.2

end lists

namespace PhoneAuthorization

variable {P : Platform} {a b d : PhoneAuthorization P} {c : Clock} {sid : ℕ}
variable {tr es fs : List Event} {stored : ClientRepository P} {th : Threads P}

/-! ## Which operations are refused -/

/-- The operation takes its arguments on this list, at this reading of the clock. -/
def Write.Accepted (P : Platform) (clients : List Client) (now : ℤ) : Write → Prop
  | .approve client =>
    P.validPublicKey client.publicKey = true ∧
      deriveClientId P client.publicKey = client.clientId ∧ labelValid P client.label = true ∧
      (0 ≤ now ∧ now ≤ lastApproval) ∧
      ((find clients client.clientId).isSome = true ∨ clients.length < MAX_CLIENTS)
  | .revoke id => id.length = CLIENT_ID_BYTES
  | .renew id => (find clients id).isSome = true ∧ 0 ≤ now ∧ now ≤ lastApproval

instance (clients : List Client) (now : ℤ) (w : Write) : Decidable (w.Accepted P clients now) := by
  unfold Write.Accepted
  split <;> infer_instance

/-- A valid list is saved when the write succeeds. -/
theorem publish_written (r : ClientRepository P) {next : List Client} (h : Validated P next) :
    r.publish next true = ({ r with clients := next, valid := h }, .saved) := by
  unfold ClientRepository.publish
  rw [dif_pos h, if_pos rfl]

/-- An operation whose write succeeds throws exactly when it is refused. -/
theorem run_written (r : ClientRepository P) (now : ℤ) (w : Write) :
    ((w.run r now true).2 = .threw ↔ ¬ w.Accepted P r.clients now) ∧
      (w.run r now true).1.healthy = r.healthy := by
  cases w with
  | approve client =>
    simp only [Write.run, ClientRepository.approve, Write.Accepted]
    -- `approve` throws for what it requires, and for a full list without the ID
    cases happ : ClientAuthorization.approve P r.clients client.clientId
      client.publicKey client.label
        now with
    | some next =>
      dsimp only
      rw [publish_written r (approve_valid r.valid happ)]
      unfold ClientAuthorization.approve at happ
      split at happ
      · cases happ
      next hargs =>
      split at happ
      · cases happ
      next hroom =>
      simp only [not_or, not_not, Bool.not_eq_false, Int.not_lt] at hargs
      refine ⟨⟨(fun h => by cases h), fun hno => absurd ?_ hno⟩, rfl⟩
      refine ⟨hargs.1, hargs.2.1, hargs.2.2.1, hargs.2.2.2, ?_⟩
      by_cases hlisted : (find r.clients client.clientId).isSome = true
      · exact .inl hlisted
      · right
        simp only [Bool.not_eq_true, Option.isSome_eq_false_iff] at hlisted
        simp only [hlisted, true_and, ge_iff_le, Nat.not_le] at hroom
        exact hroom
    | none =>
      refine ⟨⟨fun _ hyes => ?_, fun _ => rfl⟩, rfl⟩
      obtain ⟨hkey, hderived, hlabel, htime, hroom⟩ := hyes
      unfold ClientAuthorization.approve at happ
      rw [if_neg (by simp [hkey, hderived, hlabel]; omega), if_neg] at happ
      · cases happ
      · intro hfull
        rcases hroom with hlisted | hroom
        · simp [Option.isNone_iff_eq_none.mp hfull.1] at hlisted
        · omega
  | revoke id =>
    simp only [Write.run, ClientRepository.revoke, Write.Accepted]
    split
    · next hsize => exact ⟨⟨fun _ => hsize, fun _ => rfl⟩, rfl⟩
    next hsize =>
    split
    · exact ⟨⟨(fun h => by cases h), fun hno => absurd hno hsize⟩, rfl⟩
    · rw [publish_written r (revoke_valid r.valid id)]
      exact ⟨⟨(fun h => by cases h), fun hno => absurd hno hsize⟩, rfl⟩
  | renew id =>
    simp only [Write.run, ClientRepository.renew, Write.Accepted]
    split
    · next hnone =>
      refine ⟨⟨fun _ hyes => ?_, fun _ => rfl⟩, rfl⟩
      simp [Option.isNone_iff_eq_none.mp hnone] at hyes
    next hlisted =>
    have hlisted : (find r.clients id).isSome = true := by
      simpa [Option.isSome_iff_ne_none] using hlisted
    -- the clock is out of range only for an ID that is listed
    cases hren : ClientAuthorization.renew r.clients id now with
    | some next =>
      dsimp only
      rw [publish_written r (renew_valid r.valid hren)]
      unfold ClientAuthorization.renew at hren
      split at hren
      · cases hren
      next htime =>
      simp only [hlisted, true_and, not_not] at htime
      exact ⟨⟨(fun h => by cases h), fun hno => absurd ⟨hlisted, htime⟩ hno⟩, rfl⟩
    | none =>
      refine ⟨⟨fun _ hyes => ?_, fun _ => rfl⟩, rfl⟩
      unfold ClientAuthorization.renew at hren
      rw [if_neg (by simp [hyes.2])] at hren
      cases hren

/-! ## The sections leave the latch alone -/

/-- The latch is set, or a session ends because it is. -/
def Event.Latching : Event → Prop
  | .storageFailure => True
  | .ended _ reason => reason = "Authorization storage failed"
  | _ => False

/-- A section that neither sets the latch nor writes to the repository. -/
structure Calm (a : PhoneAuthorization P) (r : PhoneAuthorization P × List Event) : Prop where
  failed : r.1.failed = a.failed
  repository : r.1.repository = a.repository
  quiet : ∀ e ∈ r.2, ¬ e.Latching

theorem Calm.refl (a : PhoneAuthorization P) : Calm a (a, []) := ⟨rfl, rfl, by simp⟩

theorem Calm.trans (h : Calm a (b, es)) (h' : Calm b (d, fs)) : Calm a (d, es ++ fs) := by
  refine ⟨h'.failed.trans h.failed, h'.repository.trans h.repository, fun e he => ?_⟩
  rcases List.mem_append.mp he with he | he
  · exact h.quiet e he
  · exact h'.quiet e he

theorem calm_finish (a : PhoneAuthorization P) (c : Clock) (sid : ℕ) {reason : String}
    (h : reason ≠ "Authorization storage failed") : Calm a (a.finish c sid reason) := by
  unfold finish
  split
  · exact .refl a
  split
  · exact .refl a
  · refine ⟨rfl, rfl, fun e he => ?_⟩
    simp only [List.mem_cons, List.not_mem_nil, or_false] at he
    rcases he with rfl | rfl
    · exact id
    · exact h

theorem failed_finish (a : PhoneAuthorization P) (c : Clock) (sid : ℕ) (reason : String) :
    (a.finish c sid reason).1.failed = a.failed := by
  unfold finish
  split
  · rfl
  split
  · rfl
  · rfl

theorem calm_announce {type : FrameType} {payload : Option Payload} {e : Event}
    (he : e ∈ (announce sid type payload).1) : ¬ e.Latching := by
  rcases mem_announce he with rfl | ⟨p, rfl⟩ <;> exact id

/-- A session changes, and something is sent to it. -/
theorem calm_put (a : PhoneAuthorization P) (sid : ℕ) (s : Session) (type : FrameType)
    (payload : Option Payload) : Calm a (a.put sid s, (announce sid type payload).1) :=
  ⟨rfl, rfl, fun _ he => calm_announce he⟩

theorem calm_respond (a : PhoneAuthorization P) (c : Clock) (sid : ℕ) (s : Session)
    (r : ClientAuthResult) : Calm a ((a.respond c sid s r).1, (a.respond c sid s r).2.1) := by
  unfold respond
  split
  · exact calm_put a _ _ _ _
  · exact calm_put a _ _ _ _
  · unfold prompt
    split
    · exact calm_put a _ _ _ _
    · exact calm_put a _ _ _ _

theorem calm_openSession (a : PhoneAuthorization P) (c : Clock) (transport : AuthTransport)
    (phoneBinding nonce : List UInt8) : Calm a (a.openSession c transport phoneBinding nonce) := by
  unfold openSession
  split
  · exact .refl a
  split
  · exact .refl a
  · exact ⟨rfl, rfl, by simp [Event.Latching]⟩

theorem calm_start (a : PhoneAuthorization P) (c : Clock) (sid : ℕ) : Calm a (a.start c sid) := by
  unfold start
  split
  · exact .refl a
  split
  · exact calm_put a _ _ _ _
  · exact .refl a

theorem calm_close (a : PhoneAuthorization P) (c : Clock) : Calm a (a.close c) := by
  unfold close
  dsimp only
  split
  · exact ⟨rfl, rfl, by simp⟩
  · next sid _ =>
    have h : Calm { a with closed := true }
        ({ a with closed := true }.finish c sid "Phone authorization closed") :=
      calm_finish _ c sid (by simp)
    exact ⟨h.failed, h.repository, h.quiet⟩

section healthy

variable (hhealthy : a.repository.healthy = true)
include hhealthy

theorem calm_storedSnapshot (c : Clock) :
    Calm a ((a.storedSnapshot c).1, (a.storedSnapshot c).2.1) := by
  unfold storedSnapshot ClientRepository.snapshot
  rw [hhealthy]
  split
  · exact .refl a
  · exact .refl a

theorem calm_checkAuthorized (c : Clock) (sid : ℕ) :
    Calm a ((a.checkAuthorized c sid).1, (a.checkAuthorized c sid).2.1) := by
  have hfinish (b : PhoneAuthorization P) :
      Calm b (b.finish c sid "PC authorization revoked or expired") := calm_finish b c sid (by simp)
  unfold checkAuthorized
  split
  · exact .refl a
  split
  · exact .refl a
  split
  · exact .refl a
  split
  · exact hfinish a
  have hstored := calm_storedSnapshot hhealthy c
  split
  · next hq => rwa [hq] at hstored
  · next hq =>
    rw [hq] at hstored
    split
    · exact hstored
    · exact hstored.trans (hfinish _)

theorem calm_checkActive (c : Clock) : Calm a (a.checkActive c) := by
  unfold checkActive
  split
  · exact .refl a
  · exact calm_checkAuthorized hhealthy c _

theorem calm_tickLocked (c : Clock) (sid : ℕ) : Calm a (a.tickLocked c sid) := by
  unfold tickLocked
  split
  · exact .refl a
  split
  · exact .refl a
  split
  · exact calm_checkAuthorized hhealthy c sid
  split
  · exact calm_finish a c sid (by simp)
  · exact .refl a

theorem calm_tick (c : Clock) : Calm a (a.tick c) := by
  unfold tick
  split
  · exact .refl a
  split
  · exact .refl a
  · exact calm_tickLocked hhealthy c _

theorem calm_onHostHello (c : Clock) (sid : ℕ) : Calm a (a.onHostHello c sid) := by
  have htick := calm_tickLocked hhealthy c sid
  unfold onHostHello
  dsimp only
  split
  · exact htick
  split
  · exact htick
  · exact htick.trans (calm_finish _ c sid (by simp))

theorem calm_isAuthorized (c : Clock) (sid : ℕ) :
    Calm a ((a.isAuthorized c sid).1, (a.isAuthorized c sid).2.1) := by
  have hcheck := calm_checkAuthorized hhealthy c sid
  unfold isAuthorized
  refine hcheck.trans ⟨rfl, rfl, fun e he => ?_⟩
  dsimp only at he
  split at he
  · obtain ⟨client, -, rfl⟩ := List.mem_map.mp he
    exact id
  · cases he

theorem calm_beginRevocation (c : Clock) (id : List UInt8) :
    Calm a ((a.beginRevocation c id).1, (a.beginRevocation c id).2.1) := by
  unfold beginRevocation
  split
  · exact .refl a
  · have hcheck : Calm a ({ a with revokedIds := id :: a.revokedIds }.checkActive c) := by
      have h := calm_checkActive (a := { a with revokedIds := id :: a.revokedIds }) hhealthy c
      exact ⟨h.failed, h.repository, h.quiet⟩
    exact hcheck.trans ⟨rfl, rfl, by simp [Event.Latching]⟩

theorem calm_receiveProof (c : Clock) (sid : ℕ) (type : FrameType) (proof : Option ClientAuth) :
    Calm a ((a.receiveProof c sid type proof).1, (a.receiveProof c sid type proof).2.1) := by
  unfold receiveProof
  split
  · exact .refl a
  split
  · exact .refl a
  split
  · exact .refl a
  split
  · exact .refl a
  next p =>
  have hproof : Calm a (a, [.proof sid p]) := ⟨rfl, rfl, by simp [Event.Latching]⟩
  split
  · exact hproof
  split
  · exact hproof
  have hstored := calm_storedSnapshot hhealthy c
  split
  · next hq =>
    rw [hq] at hstored
    exact hproof.trans hstored
  · next b es clients hq =>
    rw [hq] at hstored
    have hevaluated : Calm b (b, [.evaluated sid clients c.seconds]) :=
      ⟨rfl, rfl, by simp [Event.Latching]⟩
    exact (hproof.trans hstored).trans (hevaluated.trans (calm_respond b c sid _ _))

theorem calm_receive (c : Clock) (sid : ℕ) (type : FrameType) (proof : Option ClientAuth) :
    Calm a (a.receive c sid type proof) := by
  have htick := calm_tickLocked hhealthy c sid
  have hproof := calm_receiveProof (a := (a.tickLocked c sid).1)
    (by rw [htick.repository, hhealthy]) c sid type proof
  unfold receive
  dsimp only
  split
  · next hq =>
    rw [hq] at hproof
    exact htick.trans hproof
  · next hq =>
    rw [hq] at hproof
    exact (htick.trans hproof).trans (calm_finish _ c sid (by simp))

theorem calm_requireLiveApproval (c : Clock) (sid : ℕ) :
    Calm a ((a.requireLiveApproval c sid).1, (a.requireLiveApproval c sid).2.1) := by
  have htick := calm_tickLocked hhealthy c sid
  unfold requireLiveApproval
  dsimp only
  split <;> exact htick

theorem calm_beginApproval (c : Clock) (thread sid : ℕ) :
    Calm a ((a.beginApproval c thread sid).1, (a.beginApproval c thread sid).2.1) := by
  have hlive := calm_requireLiveApproval hhealthy c sid
  unfold beginApproval
  split
  · next hq => rwa [hq] at hlive
  · next hq =>
    rw [hq] at hlive
    split
    · exact hlive
    · exact hlive.trans ⟨rfl, rfl, by simp [Event.Latching]⟩

theorem calm_completeApproval (c : Clock) (sid : ℕ) (proposed : Client) :
    Calm a (a.completeApproval c sid proposed) := by
  have hlive := calm_requireLiveApproval hhealthy c sid
  unfold completeApproval
  split
  · next hq => rwa [hq] at hlive
  next b es s hq =>
  rw [hq] at hlive
  have hstored := calm_storedSnapshot (a := b) (by rw [hlive.repository, hhealthy]) c
  split
  · next hq =>
    rw [hq] at hstored
    exact hlive.trans hstored
  next b' es' clients hq =>
  rw [hq] at hstored
  have hread := hlive.trans hstored
  split
  · exact hread
  next saved _ =>
  have happroved : Calm b' ({ b' with
      revokedIds := b'.revokedIds.filter fun id => id != proposed.clientId },
      [.approved sid clients saved.approvedAtUnixSeconds]) := ⟨rfl, rfl, by simp [Event.Latching]⟩
  exact hread.trans (happroved.trans (calm_put _ _ _ _ _))

theorem calm_reject (c : Clock) (sid : ℕ) : Calm a (a.reject c sid) := by
  have hlive := calm_requireLiveApproval hhealthy c sid
  unfold reject
  split
  · next hq => rwa [hq] at hlive
  next b es s hq =>
  rw [hq] at hlive
  have hcooled : Calm b ({ b with unknownCooldownUntil := c.millis + UNKNOWN_COOLDOWN_MS }, []) :=
    ⟨rfl, rfl, by simp⟩
  have hdenied := calm_put
    { b with unknownCooldownUntil := c.millis + UNKNOWN_COOLDOWN_MS } sid
    { s with phase := .denied, deadline := c.deadline + REJECTION_FLUSH_MS } .clientAuthResult
    (encodeClientAuthResult ⟨.rejected, .unknown, 0⟩)
  exact hlive.trans (hcooled.trans hdenied)

end healthy

/-! ## Tasks -/

/-- The operation a step runs on the repository, if it is one. -/
def Threads.writes (th : Threads P) (thread : ℕ) : Option (Write × ℤ) :=
  match th.programs[thread]? with
  | some (.write w now :: _) => some (w, now)
  | _ => none

/-- What a task leaves, when it is not the handler of `stored` and runs no refused operation. -/
theorem calm_runTask (hhealthy : a.repository.healthy = true) (c : Clock) (thread : ℕ)
    (ts : List Task) (t : Task) (hhandler : t ≠ .storageFailed)
    (hwrite : ∀ w now, t = .write w now → w.Accepted P a.repository.clients now) :
    (a.runTask c true thread ts t).1.failed = a.failed ∧
      (a.runTask c true thread ts t).1.repository.healthy = true ∧
      (∀ e ∈ (a.runTask c true thread ts t).2.1, ¬ e.Latching) ∧
      (Task.storageFailed ∉ ts → Task.storageFailed ∉ (a.runTask c true thread ts t).2.2) := by
  have hcalm {r : PhoneAuthorization P × List Event} (h : Calm a r) :
      r.1.failed = a.failed ∧ r.1.repository.healthy = true ∧ ∀ e ∈ r.2, ¬ e.Latching :=
    ⟨h.failed, by rw [h.repository, hhealthy], h.quiet⟩
  have hdone {r : PhoneAuthorization P × List Event} {rest : List Task} (h : Calm a r)
      (hrest : Task.storageFailed ∉ ts → Task.storageFailed ∉ rest) :
      r.1.failed = a.failed ∧ r.1.repository.healthy = true ∧ (∀ e ∈ r.2, ¬ e.Latching) ∧
        (Task.storageFailed ∉ ts → Task.storageFailed ∉ rest) :=
    ⟨(hcalm h).1, (hcalm h).2.1, (hcalm h).2.2, hrest⟩
  cases t with
  | enter call =>
    cases call with
    | openSession transport phoneBinding nonce =>
      exact hdone (calm_openSession a c transport phoneBinding nonce) id
    | start sid => exact hdone (calm_start a c sid) id
    | pending sid => exact hdone (calm_tickLocked hhealthy c sid) id
    | isAuthorized sid => exact hdone (calm_isAuthorized hhealthy c sid) id
    | onHostHello sid => exact hdone (calm_onHostHello hhealthy c sid) id
    | receive sid type proof => exact hdone (calm_receive hhealthy c sid type proof) id
    | approve sid =>
      have h := calm_beginApproval hhealthy c thread sid
      simp only [runTask, enter]
      generalize a.beginApproval c thread sid = q at h ⊢
      obtain ⟨b, es, _ | client⟩ := q
      · exact hdone h id
      · exact hdone h (by simp)
    | reject sid => exact hdone (calm_reject hhealthy c sid) id
    | closeSession sid => exact hdone (calm_finish a c sid (by simp)) id
    | clients => exact hdone (calm_storedSnapshot hhealthy c) id
    | revoke id =>
      have h := calm_beginRevocation hhealthy c id
      simp only [runTask, enter]
      generalize a.beginRevocation c id = q at h ⊢
      obtain ⟨b, es, _ | _⟩ := q
      · exact hdone h fun h => h
      · exact hdone h (by simp)
    | renew id => exact hdone (.refl a) fun h => h
    | tick => exact hdone (calm_tick hhealthy c) id
    | close => exact hdone (calm_close a c) id
  | stored w =>
    simp only [runTask]
    split
    · exact hdone (.refl a) (by simp)
    · exact hdone (.refl a) (by simp)
  | write w now =>
    -- with the disk working a write throws only when it is refused
    obtain ⟨hthrew, hkept⟩ := run_written a.repository now w
    have haccepted := hwrite w now rfl
    rw [hhealthy] at hkept
    simp only [runTask]
    split
    · next r hq =>
      rw [hq] at hkept
      exact ⟨rfl, hkept, by simp [Event.Latching], id⟩
    · next r hq =>
      rw [hq] at hkept
      exact ⟨rfl, hkept, by simp, id⟩
    · next r hq =>
      rw [hq] at hthrew
      exact absurd haccepted (hthrew.mp rfl)
  | storageFailed => exact absurd rfl hhandler
  | completeApproval sid proposed =>
    exact hdone (calm_completeApproval hhealthy c sid proposed) fun _ => List.not_mem_nil
  | recheck => exact hdone (calm_checkActive hhealthy c) id

/-! ## Runs -/

/-- No durable write fails. -/
def WritesSucceed (_ : List Event) (_ : Threads P) : Label → Prop
  | .step _ _ written => written = true
  | .call _ => True

/-- The operation that is run is not refused. -/
def Accepts (_ : List Event) (th : Threads P) : Label → Prop
  | .step thread _ _ =>
    match th.writes thread with
    | some (w, now) => w.Accepted P th.owner.repository.clients now
    | none => True
  | .call _ => True

instance (tr : List Event) (th : Threads P) (l : Label) : Decidable (WritesSucceed tr th l) := by
  unfold WritesSucceed
  split <;> infer_instance

instance (tr : List Event) (th : Threads P) (l : Label) : Decidable (Accepts tr th l) := by
  unfold Accepts
  split
  · split <;> infer_instance
  · infer_instance

/-- The owner works: a later call finds the latch unset and the list readable, and no session was
ended for its storage. -/
structure Unlatched (tr : List Event) (th : Threads P) : Prop where
  failed : th.owner.failed = false
  readable : th.owner.closed = false → th.owner.readable = true
  quiet : ∀ e ∈ tr, ¬ e.Latching

/-- What the runs keep. -/
structure Working (tr : List Event) (th : Threads P) : Prop where
  failed : th.owner.failed = false
  healthy : th.owner.repository.healthy = true
  quiet : ∀ e ∈ tr, ¬ e.Latching
  programs : ∀ program ∈ th.programs, Task.storageFailed ∉ program

/-- An owner that works is not latched. -/
theorem Working.unlatched (h : Working tr th) : Unlatched tr th where
  failed := h.failed
  readable hclosed := by simp [PhoneAuthorization.readable, h.failed, h.healthy, hclosed]
  quiet := h.quiet

theorem handler_not_called (call : Call) : Task.storageFailed ∉ call.tasks := by
  cases call <;> simp [Call.tasks]

/-- While writes succeed it works in every run. -/
theorem working_ok
    (h : (system stored).Under (fun tr th l => WritesSucceed tr th l ∧ Accepts tr th l) tr th) :
    Working tr th := by
  refine h.invariant (P := Working) ?_ ?_
  · intro th hstart
    obtain rfl : th = _ := hstart
    exact ⟨rfl, rfl, by simp, by simp⟩
  · intro tr th l th' es _ hok hi hs
    cases moved_of_step hs with
    | call call =>
      refine ⟨hi.failed, hi.healthy, fun e he => ?_, fun program hp => ?_⟩
      · rcases List.mem_append.mp he with he | he
        · exact hi.quiet e he
        · rw [List.mem_singleton] at he
          subst he
          exact id
      · rcases List.mem_append.mp hp with hp | hp
        · exact hi.programs program hp
        · rw [List.mem_singleton] at hp
          subst hp
          exact handler_not_called call
    | @task thread c written t ts hprogram =>
      obtain ⟨hwritten, haccepts⟩ := hok
      obtain rfl : written = true := hwritten
      have hfree := hi.programs _ (List.mem_of_getElem? hprogram)
      rw [List.mem_cons, not_or] at hfree
      have hwrite (w : Write) (now : ℤ) (ht : t = .write w now) :
          w.Accepted P th.owner.repository.clients now := by
        simpa [Accepts, Threads.writes, hprogram, ht] using haccepts
      obtain ⟨hfailed, hhealthy, hquiet, hrest⟩ :=
        calm_runTask hi.healthy c thread ts t (Ne.symm hfree.1) hwrite
      refine ⟨hfailed.trans hi.failed, hhealthy, fun e he => ?_, fun program hp => ?_⟩
      · rcases List.mem_append.mp he with he | he
        · exact hi.quiet e he
        · exact hquiet e he
      · rcases List.mem_or_eq_of_mem_set hp with hp | rfl
        · exact hi.programs program hp
        · exact hrest hfree.2

/-- A refused operation sets the latch: its thread goes on with the handler of `stored`. -/
theorem refused_latches {thread : ℕ} {w : Write} {now : ℤ}
    (hwrites : th.writes thread = some (w, now))
    (hrefused : ¬ w.Accepted P th.owner.repository.clients now) (c : Clock) :
    ∃ th' es, (system stored).exec th [.step thread c true, .step thread c true] = some (th', es) ∧
      th'.owner.failed = true := by
  obtain ⟨ts, hprogram⟩ : ∃ ts, th.programs[thread]? = some (.write w now :: ts) := by
    unfold Threads.writes at hwrites
    split at hwrites
    · next w' now' ts hp =>
      simp only [Option.some.injEq, Prod.mk.injEq] at hwrites
      obtain ⟨rfl, rfl⟩ := hwrites
      exact ⟨ts, hp⟩
    · cases hwrites
  have hlt : thread < th.programs.length := (List.getElem?_eq_some_iff.mp hprogram).1
  have hthrew := (run_written th.owner.repository now w).1.mpr hrefused
  obtain ⟨r, hr⟩ : ∃ r, w.run th.owner.repository now true = (r, .threw) :=
    ⟨_, Prod.ext rfl hthrew⟩
  have hfirst : step th (.step thread c true) =
      some ({ owner := { th.owner with repository := r }
              programs := th.programs.set thread [.storageFailed] }, []) := by
    simp only [step, hprogram, runTask, hr]
  have hsecond (a : PhoneAuthorization P) :
      step { owner := a, programs := th.programs.set thread [.storageFailed] }
        (.step thread c true) =
        some ({ owner := (a.storageFailed c).1
                programs := (th.programs.set thread [.storageFailed]).set thread [] },
          (a.storageFailed c).2) := by
    simp [step, hlt, runTask]
  have hset (a : PhoneAuthorization P) : (a.storageFailed c).1.failed = true := by
    unfold storageFailed
    dsimp only
    split
    · rfl
    · exact failed_finish _ c _ _
  exact ⟨_, _, EventSystem.exec_cons hfirst (EventSystem.exec_cons (hsecond _) rfl), hset _⟩

/-- With storage that works, the owner is disabled by a refused operation and by nothing else. -/
theorem latched_by_refusals_only :
    ((system stored).Under (fun tr th l => WritesSucceed tr th l ∧ Accepts tr th l) tr th →
      Unlatched tr th) ∧
    ∀ thread c, ¬ Accepts tr th (.step thread c true) → ∃ th' es,
      (system stored).exec th [.step thread c true, .step thread c true] = some (th', es) ∧
        th'.owner.failed = true := by
  refine ⟨fun haccepted => (working_ok haccepted).unlatched, fun thread c hrefused => ?_⟩
  unfold Accepts at hrefused
  dsimp only at hrefused
  split at hrefused
  · next w now hwrites => exact refused_latches hwrites hrefused c
  · exact absurd trivial hrefused

/-- A PC that reconnects leaves the owner unlatched. -/
theorem latched_by_refusals_only_reconnected :
    Unlatched ((system emptyList).trace (fresh emptyList) reconnected)
      ((system emptyList).final (fresh emptyList) reconnected) := by
  have haccepted : (system emptyList).Under (fun tr th l => WritesSucceed tr th l ∧ Accepts tr th l)
      ((system emptyList).trace (fresh emptyList) reconnected)
      ((system emptyList).final (fresh emptyList) reconnected) :=
    EventSystem.under_trace reconnected rfl (by decide +kernel) (by decide +kernel)
  exact latched_by_refusals_only.1 haccepted

/-- A list with one PC on it. -/
def onePC : ClientRepository tiny :=
  ⟨[⟨deriveClientId tiny (tinyKey 8), tinyKey 8, ['p', 'c'], 0, 1000⟩], true, by decide⟩

/-- One PC is approved and streams; the other is revoked, and then renewed from a screen that still
shows it. -/
def renewedAfterRevocation : List Label :=
  connecting 0 0 7 100 ++ [Label.call (.approve 0)] ++
    List.replicate 4 (Label.step 3 (noon 100) true) ++
    [Label.call (.revoke (deriveClientId tiny (tinyKey 8)))] ++
    List.replicate 4 (Label.step 4 (noon 101) true) ++
    [Label.call (.renew (deriveClientId tiny (tinyKey 8)))] ++
    List.replicate 3 (Label.step 5 (noon 102) true)

/-- Every write succeeds, and the session of the first PC ends for its storage. -/
theorem latched_by_renewal :
    ¬ ∀ tr th, (system onePC).Under WritesSucceed tr th → Unlatched tr th := by
  intro h
  have hr : (system onePC).Under WritesSucceed
      ((system onePC).trace (fresh onePC) renewedAfterRevocation)
      ((system onePC).final (fresh onePC) renewedAfterRevocation) :=
    EventSystem.under_trace renewedAfterRevocation rfl (by decide +kernel) (by decide +kernel)
  have hended : .ended 0 "Authorization storage failed" ∈
      (system onePC).trace (fresh onePC) renewedAfterRevocation := by decide +kernel
  exact (h _ _ hr).quiet _ hended rfl

end PhoneAuthorization
end MobileWebcamBridge
