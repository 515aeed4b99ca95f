import MobileWebcamBridge.Lib.Trace
import MobileWebcamBridge.Phone.PhoneAuthorization.Results

/-!
# The frames of all sessions

The frames an owner sends are in the order of its sessions, each session sends one challenge, its
own, and an outcome is one its encoder accepts. A session that is sent `AUTHORIZED` is the active
one, in phase `AUTHORIZED`, when the section that sends it ends.
-/

set_option autoImplicit false

namespace MobileWebcamBridge
namespace PhoneAuthorization

open Wire ClientAuthorization Trace

variable {P : Platform} {a b : PhoneAuthorization P} {c : Clock} {sid : ℕ} {t : Task} {s : Session}
variable {tr es fs : List Event} {stored : ClientRepository P} {th th' : Threads P} {l : Label}
variable {thread : ℕ} {may : List UInt8 → Prop} {ok : List Event → Threads P → Label → Prop}

/-! ## What a frame holds -/

/-- Every frame is an outcome its encoder accepts. -/
def Outcomes (es : List Event) : Prop :=
  ∀ sid type payload, .sent sid type payload ∈ es →
    type = .clientAuthResult ∧ ∃ r, encodeClientAuthResult r = some payload

theorem Silent.outcomes (h : Silent es) : Outcomes es :=
  fun sid type payload hmem => absurd hmem (h sid type payload)

theorem Outcomes.append (h : Outcomes es) (h' : Outcomes fs) : Outcomes (es ++ fs) := by
  intro sid type payload hmem
  rcases List.mem_append.mp hmem with hmem | hmem
  · exact h sid type payload hmem
  · exact h' sid type payload hmem

theorem Outcomes.cons (h : Outcomes es) {e : Event}
    (he : ∀ sid type payload, e ≠ .sent sid type payload) :
    Outcomes (e :: es) := by
  intro sid type payload hmem
  rcases List.mem_cons.mp hmem with hmem | hmem
  · exact absurd hmem.symm (he sid type payload)
  · exact h sid type payload hmem

theorem outcomes_announce (sid : ℕ) (r : ClientAuthResult) :
    Outcomes (announce sid .clientAuthResult (encodeClientAuthResult r)).1 := by
  intro sid' type payload hmem
  unfold announce at hmem
  split at hmem
  · next p hp =>
    simp only [List.mem_cons, Event.sent.injEq, reduceCtorEq, List.not_mem_nil, or_false] at hmem
    obtain ⟨rfl, rfl, rfl⟩ := hmem
    exact ⟨rfl, r, hp⟩
  · cases hmem

theorem outcomes_respond (a : PhoneAuthorization P) (c : Clock) (sid : ℕ) (s : Session)
    (r : ClientAuthResult) : Outcomes (a.respond c sid s r).2.1 := by
  unfold respond
  split
  · exact outcomes_announce sid _
  · exact outcomes_announce sid _
  · unfold prompt
    split
    · exact outcomes_announce sid _
    · exact outcomes_announce sid _

theorem outcomes_receiveProof (a : PhoneAuthorization P) (c : Clock) (sid : ℕ) (type : FrameType)
    (proof : Option ClientAuth) : Outcomes (a.receiveProof c sid type proof).2.1 := by
  have hnil : Outcomes [] := by
    intro _ _ _ hmem
    cases hmem
  unfold receiveProof
  split
  · exact hnil
  split
  · exact hnil
  split
  · exact hnil
  split
  · exact hnil
  next p =>
  dsimp only
  split
  · exact hnil.cons (by simp)
  split
  · exact hnil.cons (by simp)
  next message _ =>
  have hstored := (shuts_storedSnapshot a c).2.silent.outcomes
  split
  · next hq =>
    rw [hq] at hstored
    exact hstored.cons (by simp)
  · next hq =>
    rw [hq] at hstored
    rw [List.cons_append]
    apply Outcomes.cons _ (by simp)
    apply hstored.append
    exact (outcomes_respond _ c sid _ _).cons (by simp)

/-- Receiving a frame sends outcomes only. -/
theorem outcomes_receive (a : PhoneAuthorization P) (c : Clock) (sid : ℕ) (type : FrameType)
    (proof : Option ClientAuth) : Outcomes (a.receive c sid type proof).2 := by
  have htick := (shuts_tickLocked a c sid).2.silent.outcomes
  unfold receive
  dsimp only
  have hproof := outcomes_receiveProof (a.tickLocked c sid).1 c sid type proof
  split
  · next hq =>
    rw [hq] at hproof
    exact htick.append hproof
  · next b es hq =>
    rw [hq] at hproof
    exact (htick.append hproof).append (shuts_finish b c sid _).2.silent.outcomes

theorem outcomes_completeApproval (a : PhoneAuthorization P) (c : Clock) (sid : ℕ)
    (proposed : Client) : Outcomes (a.completeApproval c sid proposed).2 := by
  unfold completeApproval
  rcases requireLiveApproval_cases a c sid with ⟨b, es, h, hshut⟩ | ⟨s, h, -, -⟩ <;> rw [h]
  · exact hshut.2.silent.outcomes
  have hstored := (shuts_storedSnapshot a c).2.silent.outcomes
  dsimp only
  split
  · next hq =>
    rw [hq] at hstored
    exact hstored
  next hq =>
  rw [hq] at hstored
  split
  · exact hstored
  · apply hstored.append
    exact (outcomes_announce sid _).cons (by simp)

theorem outcomes_reject (a : PhoneAuthorization P) (c : Clock) (sid : ℕ) :
    Outcomes (a.reject c sid).2 := by
  unfold reject
  rcases requireLiveApproval_cases a c sid with ⟨b, es, h, hshut⟩ | ⟨s, h, -, -⟩ <;> rw [h]
  · exact hshut.2.silent.outcomes
  · exact outcomes_announce sid _

/-- A frame a task sends: the challenge of the session it starts, or an outcome. -/
theorem sent_of_runTask {written : Bool} {ts : List Task} {type : FrameType} {payload : Payload}
    (h : .sent sid type payload ∈ (a.runTask c written thread ts t).2.1) :
    (type = .clientChallenge ∧ ∃ s : Session, a.sessions[sid]? = some s ∧
      encodeClientChallenge ⟨s.transport, s.phoneBinding, s.nonce⟩ = some payload) ∨
    (type = .clientAuthResult ∧ ∃ r, encodeClientAuthResult r = some payload) := by
  rcases (acts_runTask a c written thread ts t).silent_or_act with hquiet | hact
  · exact absurd h (hquiet sid type payload)
  -- the acts that send belong to four tasks
  generalize hes : (a.runTask c written thread ts t).2.1 = es at h hact
  generalize (a.runTask c written thread ts t).1 = b at hact
  cases hact with
  | @started i s d challenge hs hn hlive =>
    rw [← hes] at h
    simp only [runTask, enter, start, hs, hlive, hn, and_self, if_true] at h
    unfold announce at h
    split at h
    · next p hp =>
      simp only [List.mem_cons, Event.sent.injEq, reduceCtorEq, List.not_mem_nil, or_false] at h
      obtain ⟨rfl, rfl, rfl⟩ := h
      exact .inl ⟨rfl, s, hs, hp⟩
    · cases h
  | answered =>
    rw [← hes] at h
    exact .inr (outcomes_receive a c _ _ _ sid type payload h)
  | granted =>
    rw [← hes] at h
    exact .inr (outcomes_completeApproval a c _ _ sid type payload h)
  | rejected =>
    rw [← hes] at h
    exact .inr (outcomes_reject a c _ sid type payload h)
  | refused hp hs hc =>
    rcases List.mem_cons.mp h with h | h
    · cases h
    · exact absurd h (hs.2.silent sid type payload)
  | _ => simp at h

/-- The frame is the challenge its session was opened with, or an outcome. -/
def Framed (x : List Event) (e : Event) : Prop :=
  ∀ sid type payload, e = .sent sid type payload →
    (type = .clientChallenge ∧ ∃ transport phoneBinding nonce,
      .opened sid transport phoneBinding nonce ∈ x ∧
        encodeClientChallenge ⟨transport, phoneBinding, nonce⟩ = some payload) ∨
    (type = .clientAuthResult ∧ ∃ r, encodeClientAuthResult r = some payload)

/-- Every frame of a run is one of the exchange. -/
theorem framed (h : (system stored).Under ok tr th) : ∀ e ∈ tr, Framed tr e := by
  refine h.invariant (P := fun tr _ => ∀ e ∈ tr, Framed tr e) (fun _ _ e he => by cases he) ?_
  intro tr th l th' es hr _ hi hs e he sid type payload hsent
  rcases List.mem_append.mp he with he | he
  · rcases hi e he sid type payload hsent with ⟨htype, t, p, n, hopened, henc⟩ | hresult
    · exact .inl ⟨htype, t, p, n, List.mem_append_left _ hopened, henc⟩
    · exact .inr hresult
  · subst hsent
    cases moved_of_step hs with
    | call call => simp at he
    | task hj =>
      rcases sent_of_runTask he with ⟨htype, s, hsession, henc⟩ | hresult
      · have hopened := ((sessions_ok hr).session sid s hsession).opened
        exact .inl ⟨htype, _, _, _, List.mem_append_left _ hopened, henc⟩
      · exact .inr hresult

/-! ## The order of frames -/

/-- The frame that is sent, with its session. -/
def Event.frame? : Event → Option (ℕ × FrameType × Payload)
  | .sent sid type payload => some (sid, type, payload)
  | _ => none

/-- The frames of a history, with the sessions they are for. -/
def frames (tr : List Event) : List (ℕ × FrameType × Payload) := tr.filterMap Event.frame?

theorem frames_append (tr es : List Event) : frames (tr ++ es) = frames tr ++ frames es :=
  List.filterMap_append

theorem mem_frames {m : ℕ × FrameType × Payload} : m ∈ frames tr ↔ .sent m.1 m.2.1 m.2.2 ∈ tr := by
  rw [frames, List.mem_filterMap]
  constructor
  · rintro ⟨e, he, hm⟩
    cases e <;> simp only [Event.frame?, reduceCtorEq] at hm
    rw [Option.some.injEq] at hm
    subst hm
    exact he
  · exact fun h => ⟨_, h, rfl⟩

theorem Silent.frames (h : Silent es) : frames es = [] := by
  rw [List.eq_nil_iff_forall_not_mem]
  intro m hm
  exact h m.1 m.2.1 m.2.2 (mem_frames.mp hm)

/-- `m'` may come after `m`: its session is not an earlier one, and no session challenges twice. -/
def Follows (m m' : ℕ × FrameType × Payload) : Prop :=
  m.1 ≤ m'.1 ∧ (m.1 = m'.1 → m'.2.1 ≠ .clientChallenge)

/-- The frames go to sessions in their order, and to each in the order of its phases. -/
structure Lined (tr : List Event) (a : PhoneAuthorization P) : Prop where
  active : ∀ sid, a.active = some sid → sid + 1 = a.sessions.length
  bound : ∀ m ∈ frames tr, m.1 < a.sessions.length
  ordered : (frames tr).Pairwise Follows

/-- An act opens a session and takes the slot, or leaves the slot and the sessions' number. -/
theorem Act.slot (h : Act thread may a t b es) :
    (b.active = some a.sessions.length ∧ b.sessions.length = a.sessions.length + 1) ∨
      ((b.active = a.active ∨ b.active = none) ∧ b.sessions.length = a.sessions.length) := by
  cases h with
  | opened => exact .inl ⟨rfl, by simp⟩
  | refused _ hs _ =>
    refine .inr ⟨?_, hs.1.length⟩
    rcases hs.1.active with h | ⟨h, -⟩
    · exact .inl h
    · exact .inr h
  | started | answered | granted | rejected => exact .inr ⟨.inl rfl, by simp [put]⟩
  | _ => exact .inr ⟨.inl rfl, rfl⟩

/-- An act sends at most one frame, for the active session, and a challenge before any other. -/
theorem Act.frames (h : Act thread may a t b es) :
    frames es = [] ∨ ∃ m, frames es = [m] ∧ a.active = some m.1 ∧
      (m.2.1 = .clientChallenge → ∃ s : Session, a.sessions[m.1]? = some s ∧ s.phase = .new) := by
  cases h with
  | @started sid s d challenge hs hn hlive =>
    cases challenge with
    | none => exact .inl rfl
    | some payload =>
      exact .inr ⟨(sid, .clientChallenge, payload), rfl, hlive, fun _ => ⟨s, hs, hn⟩⟩
  | @answered sid s p message now d phase r hp hm hans hmay =>
    exact .inr ⟨(sid, .clientAuthResult, .clientAuthResult r), rfl, hp.active, fun h => by cases h⟩
  | @granted sid s proposed saved r hp hs hr hmay =>
    exact .inr ⟨(sid, .clientAuthResult, .clientAuthResult r), rfl, hp.active, fun h => by cases h⟩
  | @rejected sid s d u r hp hr =>
    exact .inr ⟨(sid, .clientAuthResult, .clientAuthResult r), rfl, hp.active, fun h => by cases h⟩
  | @refused sid s p type b es hp hs hc => exact .inl hs.2.silent.frames
  | _ => exact .inl rfl

theorem Lined.silent (h : Lined tr a) (he : frames es = [])
    (hslot : (b.active = some a.sessions.length ∧ b.sessions.length = a.sessions.length + 1) ∨
      ((b.active = a.active ∨ b.active = none) ∧ b.sessions.length = a.sessions.length)) :
    Lined (tr ++ es) b := by
  have hsame : PhoneAuthorization.frames (tr ++ es) = PhoneAuthorization.frames tr := by
    rw [frames_append, he, List.append_nil]
  have hgrown : a.sessions.length ≤ b.sessions.length := by omega
  refine ⟨fun sid hsid => ?_, fun m hm => ?_, hsame ▸ h.ordered⟩
  · rcases hslot with ⟨hb, hlen⟩ | ⟨hb | hb, hlen⟩
    · rw [hb, Option.some.injEq] at hsid
      omega
    · rw [hlen]
      exact h.active sid (hb ▸ hsid)
    · rw [hb] at hsid
      cases hsid
  · rw [hsame] at hm
    exact Nat.lt_of_lt_of_le (h.bound m hm) hgrown

theorem Lined.shut (h : Lined tr a) (hs : Shuts a (b, es)) : Lined (tr ++ es) b := by
  refine h.silent hs.2.silent.frames (.inr ⟨?_, hs.1.length⟩)
  rcases hs.1.active with ha | ⟨ha, -⟩
  · exact .inl ha
  · exact .inr ha

/-- A section keeps the frames in line. -/
theorem Lined.act (h : Lined tr a) (hsends : Sends tr a) (hact : Act thread may a t b es) :
    Lined (tr ++ es) b := by
  rcases hact.frames with hnil | ⟨m, hone, hlive, hnew⟩
  · exact h.silent hnil hact.slot
  have hlast := h.active _ hlive
  have hquiet : Lined (tr ++ []) b := h.silent rfl hact.slot
  rw [List.append_nil] at hquiet
  have hgrown : a.sessions.length ≤ b.sessions.length := by
    rcases hact.slot with ⟨-, hlen⟩ | ⟨-, hlen⟩ <;> omega
  refine ⟨hquiet.active, fun m' hm' => ?_, ?_⟩
  · rw [frames_append, hone] at hm'
    rcases List.mem_append.mp hm' with hm' | hm'
    · exact hquiet.bound m' hm'
    · rw [List.mem_singleton.mp hm']
      omega
  · rw [frames_append, hone, List.pairwise_append]
    refine ⟨h.ordered, List.pairwise_singleton .., fun m₀ hm₀ m' hm' => ?_⟩
    obtain rfl := List.mem_singleton.mp hm'
    have hbefore := h.bound m₀ hm₀
    refine ⟨by omega, fun hsame hchallenge => ?_⟩
    -- a session that is still new was sent nothing
    obtain ⟨s, hs, hphase⟩ := hnew hchallenge
    have hbound := (hsends.session m'.1 s hs).bound
    rw [hphase] at hbound
    have hmem : (m₀.2.1, m₀.2.2) ∈ sentTo m'.1 tr := by
      apply mem_sentTo.mpr
      rw [← hsame]
      exact mem_frames.mp hm₀
    have hpos := List.length_pos_of_mem hmem
    have hzero : (sentTo m'.1 tr).length ≤ 0 := hbound
    omega

/-- So they are in line in every run. -/
theorem lined (h : (system stored).Under ok tr th) : Lined tr th.owner := by
  have hboth : Lined tr th.owner ∧ Sends tr th.owner := by
    refine Under.acts (I := fun tr a => Lined tr a ∧ Sends tr a) ?_ ?_ ?_ h
    · exact ⟨⟨by simp [init], (fun _ hm => by cases hm), List.Pairwise.nil⟩,
        ⟨by simp [init], fun _ _ => rfl⟩⟩
    · exact fun tr a thread call h =>
        ⟨h.1.silent rfl (.inr ⟨.inl rfl, rfl⟩), h.2.same rfl (by simp [Silent])⟩
    · intro tr th thread c written t ts _ _ _ hi
      exact (acts_runTask th.owner c written thread ts t).preserves
        (I := fun tr a => Lined tr a ∧ Sends tr a)
        (fun _ _ _ _ hs h => ⟨h.1.shut hs, h.2.shut hs⟩)
        (fun _ _ _ _ ha h => ⟨h.1.act h.2 ha, h.2.act ha⟩) hi
  exact hboth.1

/-! ## The session that is granted -/

/-- The session holds the slot, in phase `AUTHORIZED`. -/
def Live (a : PhoneAuthorization P) (sid : ℕ) : Prop :=
  a.active = some sid ∧ ∃ s : Session, a.sessions[sid]? = some s ∧ s.phase = .authorized

theorem Act.live {r : ClientAuthResult} (h : Act thread may a t b es)
    (hsent : .sent sid .clientAuthResult (.clientAuthResult r) ∈ es) (hr : r.status = .authorized) :
    Live b sid := by
  have hput {i : ℕ} {s s' : Session} {d : PhoneAuthorization P} (hs : a.sessions[i]? = some s)
      (hd : d.sessions = a.sessions) : (d.put i s').sessions[i]? = some s' := by
    rw [getElem?_put, if_pos ⟨rfl, by rw [hd]; exact lt_of_session hs⟩]
  cases h with
  | started =>
    rcases mem_announce hsent with h | ⟨p, h⟩ <;> cases h
  | @answered i s p message now d phase r' hp hm hans hmay =>
    simp only [List.mem_cons, Event.sent.injEq, reduceCtorEq, List.not_mem_nil, or_false,
      false_or, Payload.clientAuthResult.injEq, true_and] at hsent
    obtain ⟨rfl, rfl⟩ := hsent
    refine ⟨hp.active, _, hput hp.session rfl, ?_⟩
    rw [hr] at hans
    generalize (evaluate P _ _ _ _ _ _).status = q at hans
    cases hans
    rfl
  | @granted i s proposed saved r' hp hs hr' hmay =>
    simp only [List.mem_cons, Event.sent.injEq, reduceCtorEq, List.not_mem_nil, or_false,
      false_or, Payload.clientAuthResult.injEq, true_and] at hsent
    obtain ⟨rfl, rfl⟩ := hsent
    exact ⟨hp.active, _, hput hp.session rfl, rfl⟩
  | @rejected i s d u r' hp hr' =>
    simp only [List.mem_cons, Event.sent.injEq, reduceCtorEq, List.not_mem_nil, or_false,
      Payload.clientAuthResult.injEq, true_and] at hsent
    rw [hsent.2, hr'] at hr
    cases hr
  | refused hp hs hc =>
    rcases List.mem_cons.mp hsent with h | h
    · cases h
    · exact absurd h (hs.2.silent _ _ _)
  | _ => simp at hsent

/-- After the step that sends `AUTHORIZED`, the session is live. -/
theorem live_of_step {r : ClientAuthResult} (h : step th l = some (th', es))
    (hsent : .sent sid .clientAuthResult (.clientAuthResult r) ∈ es) (hr : r.status = .authorized) :
    Live th'.owner sid := by
  cases moved_of_step h with
  | call call => simp at hsent
  | @task thread c written t ts hj =>
    rcases (acts_runTask th.owner c written thread ts t).silent_or_act with hquiet | hact
    · exact absurd hsent (hquiet _ _ _)
    · exact hact.live hsent hr

/-! ## The session of a proof -/

/-- A proof is for a session that was opened before. -/
def OfOpened (x : List Event) (e : Event) : Prop :=
  ∀ sid p, e = .proof sid p → ∃ transport phoneBinding nonce,
    .opened sid transport phoneBinding nonce ∈ x

theorem ofOpened_of_ne {x : List Event} {e : Event} (h : ∀ sid p, e ≠ .proof sid p) :
    OfOpened x e :=
  fun sid p he => absurd he (h sid p)

/-- Events that hold no proof. -/
theorem each_ofOpened (h : ∀ sid p, .proof sid p ∉ es) :
    Each (fun x => OfOpened (tr ++ x)) es := by
  apply each_of_forall
  intro x e he
  apply ofOpened_of_ne
  rintro sid p rfl
  exact h sid p he

theorem Act.ofOpened (h : Act thread may a t b es) (hs : Sessions tr a) :
    Each (fun x => OfOpened (tr ++ x)) es := by
  have hproving {sid : ℕ} {s : Session} {p : ClientAuth} (hp : Proving a sid s) :
      OfOpened (tr ++ []) (.proof sid p) := by
    rintro _ _ ⟨⟩
    exact ⟨_, _, _, List.mem_append_left _ (hs.session sid s hp.session).opened⟩
  cases h with
  | refused hp hshut _ =>
    refine each_cons.mpr ⟨hproving hp, each_of_forall fun x e he => ofOpened_of_ne ?_⟩
    rintro sid p rfl
    cases hshut.2 _ he
  | answered hp _ _ _ =>
    refine each_cons.mpr ⟨hproving hp, each_of_forall fun x e he => ofOpened_of_ne ?_⟩
    rintro sid p rfl
    simp at he
  | started =>
    apply each_ofOpened
    intro sid p hmem
    rcases mem_announce hmem with h | ⟨_, h⟩ <;> cases h
  | _ => exact each_ofOpened (by simp)

/-- A proof is received only in a session that was opened. -/
theorem proofs_opened (h : (system stored).Under ok tr th) : Each OfOpened tr := by
  have hboth : Sessions tr th.owner ∧ Each OfOpened tr := by
    refine Under.acts (I := fun tr a => Sessions tr a ∧ Each OfOpened tr) ?_ ?_ ?_ h
    · exact ⟨sessions_init _, each_nil⟩
    · exact fun tr a thread call h =>
        ⟨h.1.same rfl rfl fun _ => rfl, h.2.append (each_ofOpened (by simp))⟩
    · intro tr th thread c written t ts _ _ _ hi
      refine (acts_runTask th.owner c written thread ts t).preserves
        (I := fun tr a => Sessions tr a ∧ Each OfOpened tr) ?_ ?_ hi
      · intro tr a b es hs h
        refine ⟨h.1.shut hs, h.2.append (each_ofOpened fun sid p hmem => ?_)⟩
        cases hs.2 _ hmem
      · exact fun tr a b es ha h => ⟨h.1.act ha, h.2.append (ha.ofOpened h.1)⟩
  exact hboth.2

end PhoneAuthorization
end MobileWebcamBridge
