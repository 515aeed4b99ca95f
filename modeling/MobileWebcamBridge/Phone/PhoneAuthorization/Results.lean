import MobileWebcamBridge.Phone.PhoneAuthorization.Proofs

/-!
# What a session is sent

A session is sent at most three frames, a challenge and up to two outcomes, and it is in phase
`AUTHORIZED` only after it was sent the result that says so.
-/

set_option autoImplicit false

namespace MobileWebcamBridge
namespace PhoneAuthorization

open Wire ClientAuthorization

variable {P : Platform} {a b : PhoneAuthorization P} {sid : ℕ} {t : Task} {s : Session}
variable {tr es : List Event} {stored : ClientRepository P} {th : Threads P}
variable {thread : ℕ} {may : List UInt8 → Prop}

/-- The frame sent to the session. -/
def Event.sentTo? (sid : ℕ) : Event → Option (FrameType × Payload)
  | .sent i type payload => if i = sid then some (type, payload) else none
  | _ => none

/-- The frames a session was sent. -/
def sentTo (sid : ℕ) (tr : List Event) : List (FrameType × Payload) :=
  tr.filterMap (Event.sentTo? sid)

/-- A `CLIENT_AUTH_RESULT` that says authorized. -/
def authorizes : FrameType × Payload → Bool
  | (.clientAuthResult, .clientAuthResult r) => r.status == .authorized
  | _ => false

/-- The most frames a session has been sent when it is in the phase. -/
def Phase.sends : Phase → ℕ
  | .new => 0
  | .proof => 1
  | .pending => 2
  | _ => 3

theorem Phase.sends_le (phase : Phase) : phase.sends ≤ 3 := by
  cases phase <;> decide

/-- What the session's phase says about the frames sent to it. -/
structure SendsOk (tr : List Event) (sid : ℕ) (s : Session) : Prop where
  bound : (sentTo sid tr).length ≤ s.phase.sends
  authorized : s.phase = .authorized → ∃ m ∈ sentTo sid tr, authorizes m = true

/-- What every session's phase says about its frames. -/
structure Sends (tr : List Event) (a : PhoneAuthorization P) : Prop where
  session : ∀ (sid : ℕ) (s : Session), a.sessions[sid]? = some s → SendsOk tr sid s
  unopened : ∀ sid, a.sessions.length ≤ sid → sentTo sid tr = []

theorem sentTo_append (sid : ℕ) (tr es : List Event) :
    sentTo sid (tr ++ es) = sentTo sid tr ++ sentTo sid es := List.filterMap_append

theorem mem_sentTo {m : FrameType × Payload} : m ∈ sentTo sid tr ↔ .sent sid m.1 m.2 ∈ tr := by
  unfold sentTo
  rw [List.mem_filterMap]
  constructor
  · rintro ⟨e, he, hm⟩
    cases e <;> simp only [Event.sentTo?, reduceCtorEq] at hm
    split at hm
    · next hi =>
      rw [Option.some.injEq] at hm
      subst hi hm
      exact he
    · cases hm
  · intro h
    exact ⟨_, h, by simp [Event.sentTo?]⟩

theorem Silent.sentTo (h : Silent es) (sid : ℕ) : sentTo sid es = [] := by
  rw [List.eq_nil_iff_forall_not_mem]
  intro m hm
  exact h sid m.1 m.2 (mem_sentTo.mp hm)

theorem SendsOk.silent (h : SendsOk tr sid s) (hes : PhoneAuthorization.sentTo sid es = []) :
    SendsOk (tr ++ es) sid s := by
  have hsame : PhoneAuthorization.sentTo sid (tr ++ es) = PhoneAuthorization.sentTo sid tr := by
    rw [sentTo_append, hes, List.append_nil]
  refine ⟨?_, ?_⟩ <;> rw [hsame]
  · exact h.bound
  · exact h.authorized

theorem Sends.shut (h : Sends tr a) (hs : Shuts a (b, es)) : Sends (tr ++ es) b := by
  obtain ⟨hends, hclosing⟩ := hs
  have hnil := hclosing.silent.sentTo
  refine ⟨fun sid s hs => ?_, fun sid hsid => ?_⟩
  · obtain ⟨s₀, hs₀, hsame | hsame⟩ := hends.session sid s hs
    · exact hsame ▸ (h.session sid s₀ hs₀).silent (hnil sid)
    · have hok := (h.session sid s₀ hs₀).silent (hnil sid)
      rw [hsame]
      refine ⟨?_, fun hp => by cases hp⟩
      apply Nat.le_trans hok.bound
      exact s₀.phase.sends_le
  · rw [sentTo_append, hnil, List.append_nil]
    apply h.unopened
    rw [← hends.length]
    exact hsid

/-- One session changes; only it is sent anything. -/
theorem Sends.put (h : Sends tr a) (hs : a.sessions[sid]? = some s) {s' : Session}
    (hok : SendsOk (tr ++ es) sid s') (he : ∀ i, i ≠ sid → sentTo i es = [])
    (ha : b.sessions = (a.put sid s').sessions) : Sends (tr ++ es) b := by
  have hlt := lt_of_session hs
  refine ⟨fun i s₁ hs₁ => ?_, fun i hi => ?_⟩
  · rw [ha, getElem?_put] at hs₁
    split at hs₁
    · next hi =>
      rw [Option.some.injEq] at hs₁
      exact hi.1 ▸ hs₁ ▸ hok
    · next hi =>
      have hne : i ≠ sid := by
        intro he'
        exact hi ⟨he'.symm, he' ▸ hlt⟩
      exact (h.session i s₁ hs₁).silent (he i hne)
  · have hlen : b.sessions.length = a.sessions.length := by simp [ha, PhoneAuthorization.put]
    rw [sentTo_append, he i (by omega), List.append_nil]
    apply h.unopened
    omega

theorem Sends.same (h : Sends tr a) (hs : b.sessions = a.sessions) (he : Silent es) :
    Sends (tr ++ es) b := by
  refine ⟨fun sid s hsid => ?_, fun sid hsid => ?_⟩
  · rw [hs] at hsid
    exact (h.session sid s hsid).silent (he.sentTo sid)
  · rw [sentTo_append, he.sentTo, List.append_nil]
    rw [hs] at hsid
    exact h.unopened sid hsid

theorem Sends.opened (h : Sends tr a) (new : Session) (hn : new.phase = .new) (he : Silent es)
    (hb : b.sessions = a.sessions ++ [new]) : Sends (tr ++ es) b := by
  refine ⟨fun sid s hs => ?_, fun sid hsid => ?_⟩
  · rw [hb] at hs
    by_cases hlt : sid < a.sessions.length
    · rw [List.getElem?_append_left hlt] at hs
      exact (h.session sid s hs).silent (he.sentTo sid)
    · have hsid := (List.getElem?_eq_some_iff.mp hs).1
      simp only [List.length_append, List.length_singleton] at hsid
      obtain rfl : sid = a.sessions.length := by omega
      obtain rfl : new = s := by simpa using hs
      refine ⟨?_, fun hp => by rw [hn] at hp; cases hp⟩
      rw [sentTo_append, he.sentTo, h.unopened _ (Nat.le_refl _)]
      exact Nat.zero_le _
  · rw [sentTo_append, he.sentTo, List.append_nil]
    apply h.unopened
    simp only [hb, List.length_append, List.length_singleton] at hsid
    omega

/-- An outcome for a session: one frame, and a phase that allows it. -/
theorem SendsOk.answer (h : SendsOk tr sid s) {s' : Session} {r : ClientAuthResult}
    (hes : sentTo sid es = [(.clientAuthResult, .clientAuthResult r)])
    (hbound : s.phase.sends + 1 ≤ s'.phase.sends)
    (hauth : s'.phase = .authorized → r.status = .authorized) : SendsOk (tr ++ es) sid s' := by
  refine ⟨?_, fun hp => ⟨(.clientAuthResult, .clientAuthResult r), ?_, ?_⟩⟩
  · rw [sentTo_append, hes, List.length_append, List.length_singleton]
    have := h.bound
    omega
  · rw [sentTo_append, hes]
    exact List.mem_append_right _ (List.mem_singleton_self _)
  · simp [authorizes, hauth hp]

theorem Answer.authorized_iff {status sent : AuthStatus} {phase : Phase}
    (h : Answer status phase sent) :
    (phase = .authorized → sent = .authorized) ∧ 2 ≤ phase.sends := by
  cases h <;> decide

/-- A section sends no more than its phase allows. -/
theorem Sends.act (h : Sends tr a) (hact : Act thread may a t b es) : Sends (tr ++ es) b := by
  cases hact with
  | @opened c transport phoneBinding nonce ha =>
    exact h.opened ⟨transport, phoneBinding, nonce, .new, c.deadline + PROOF_TIMEOUT_MS, none⟩ rfl
      (by simp [Silent]) rfl
  | @started sid s d challenge hs hn hlive =>
    have hok := h.session sid s hs
    have hone : (sentTo sid (announce sid .clientChallenge challenge).1).length ≤ 1 := by
      cases challenge <;> simp [announce, sentTo, List.filterMap_cons, Event.sentTo?]
    have hbound := hok.bound
    rw [hn] at hbound
    refine h.put hs ⟨?_, fun hp => by cases hp⟩ (fun i hi => ?_) rfl
    · show (sentTo sid _).length ≤ 1
      rw [sentTo_append, List.length_append]
      have hzero : (sentTo sid tr).length ≤ 0 := hbound
      omega
    · cases challenge <;> simp [announce, sentTo, List.filterMap_cons, Event.sentTo?, Ne.symm hi]
  | @refused sid s p type b es hp hs hc =>
    have hquiet : Sends (tr ++ [Event.proof sid p]) a := h.same rfl (by simp [Silent])
    have hshut := hquiet.shut hs
    rwa [List.append_assoc] at hshut
  | @answered sid s p message now d phase r hp hm hans hmay =>
    have hok := h.session sid s hp.session
    refine h.put hp.session (hok.answer (r := r) ?_ ?_ ?_) (fun i hi => ?_) rfl
    · simp [sentTo, List.filterMap_cons, Event.sentTo?]
    · rw [hp.phase]
      exact hans.authorized_iff.2
    · exact hans.authorized_iff.1
    · simp [sentTo, List.filterMap_cons, Event.sentTo?, Ne.symm hi]
  | approving => exact h.same rfl (by simp [Silent])
  | @granted sid s proposed saved r hp hs hr hmay =>
    have hok := h.session sid s hp.session
    refine h.put hp.session (hok.answer (r := r) ?_ ?_ (fun _ => hr)) (fun i hi => ?_) rfl
    · simp [sentTo, List.filterMap_cons, Event.sentTo?]
    · rw [hp.phase]
      show 2 + 1 ≤ 3
      omega
    · simp [sentTo, List.filterMap_cons, Event.sentTo?, Ne.symm hi]
  | @rejected sid s d u r hp hr =>
    have hok := h.session sid s hp.session
    refine h.put hp.session (hok.answer (r := r) ?_ ?_ ?_) (fun i hi => ?_) rfl
    · simp [sentTo, List.filterMap_cons, Event.sentTo?]
    · rw [hp.phase]
      show 2 + 1 ≤ 3
      omega
    · intro hp'
      cases hp'
    · simp [sentTo, List.filterMap_cons, Event.sentTo?, Ne.symm hi]
  | revoking => exact h.same rfl (by simp [Silent])
  | revoked => exact h.same rfl (by simp [Silent])
  | reported => exact h.same rfl (by simp [Silent])
  | wrote => exact h.same rfl (by simp [Silent])
  | kept => exact h.same rfl (by simp [Silent])

/-- So the sends are in order in every run. -/
theorem sends_ok {ok : List Event → Threads P → Label → Prop} (h : (system stored).Under ok tr th) :
    Sends tr th.owner := by
  refine Under.acts ?_ ?_ ?_ h
  · exact ⟨by simp [init], fun _ _ => rfl⟩
  · exact fun tr a thread call h => h.same rfl (by simp [Silent])
  · intro tr th thread c written t ts _ _ _ hi
    exact (acts_runTask th.owner c written thread ts t).preserves
      (fun _ _ _ _ hs h => Sends.shut h hs) (fun _ _ _ _ ha h => Sends.act h ha) hi

end PhoneAuthorization
end MobileWebcamBridge
