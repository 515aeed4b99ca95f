import MobileWebcamBridge.Phone.AuthorizedMediaSession
import MobileWebcamBridge.Phone.FramedOutbound.Outcome
import MobileWebcamBridge.Phone.PhoneAuthorization.Grant

/-!
# The gate in front of the writer

A session is two runs, of the owner and of its writer. Until the owner has sent the session the
outcome that authorizes, the writer is sealed: it carries no more frames than the owner has sent.
From then until that outcome is on the line the lock is held by the thread that brings it there, so
that nobody is told that the session is authorized. After it the writer is released.
-/

set_option autoImplicit false

namespace MobileWebcamBridge
namespace AuthorizedMediaSession

open Wire PhoneAuthorization ClientAuthorization Trace

variable {P : Platform} {stored : ClientRepository P}
variable {tr es : List Event} {s s' : AuthorizedMediaSession P} {sid : ℕ}

/-! ## The two runs -/

/-- The owner's event, if it is one. -/
def Event.auth? : Event → Option PhoneAuthorization.Event
  | .auth e => some e
  | _ => none

/-- The writer's event, if it is one. -/
def Event.out? : Event → Option FramedOutbound.Event
  | .out e => some e
  | _ => none

/-- What the owner has done. -/
def auths (tr : List Event) : List PhoneAuthorization.Event := tr.filterMap Event.auth?

/-- What the writer has done. -/
def outs (tr : List Event) : List FramedOutbound.Event := tr.filterMap Event.out?

/-- The session was sent the outcome that authorizes. -/
def Granted (sid : ℕ) (tr : List Event) : Prop :=
  ∃ m ∈ sentTo sid (auths tr), PhoneAuthorization.authorizes m = true

/-- The owner's events of two parts. -/
theorem auths_append (x y : List Event) : auths (x ++ y) = auths x ++ auths y :=
  List.filterMap_append

/-- The writer's events of two parts. -/
theorem outs_append (x y : List Event) : outs (x ++ y) = outs x ++ outs y := List.filterMap_append

@[simp]
theorem auths_auth (es : List PhoneAuthorization.Event) : auths (es.map .auth) = es := by
  induction es with
  | nil => rfl
  | cons e es ih => exact congrArg (e :: ·) ih

@[simp]
theorem outs_auth (es : List PhoneAuthorization.Event) : outs (es.map .auth) = [] := by
  induction es with
  | nil => rfl
  | cons e es ih => exact ih

@[simp]
theorem auths_out (es : List FramedOutbound.Event) : auths (es.map .out) = [] := by
  induction es with
  | nil => rfl
  | cons e es ih => exact ih

@[simp]
theorem outs_out (es : List FramedOutbound.Event) : outs (es.map .out) = es := by
  induction es with
  | nil => rfl
  | cons e es ih => exact congrArg (e :: ·) ih

/-- What was granted was granted, after more events. -/
theorem Granted.append (h : Granted sid tr) (es : List Event) : Granted sid (tr ++ es) := by
  obtain ⟨m, hm, hauth⟩ := h
  refine ⟨m, ?_, hauth⟩
  rw [auths_append, sentTo_append]
  exact List.mem_append_left _ hm

/-- A section that a thread enters at once is a call and its first step. -/
theorem reaches_invoke {x : List PhoneAuthorization.Event} {th : PhoneAuthorization.Threads P}
    (h : (PhoneAuthorization.system stored).Reaches x th) (c : Clock) (call : Call)
    (hcall : call.tasks = [.enter call]) :
    (PhoneAuthorization.system stored).Reaches (x ++ (th.invoke c call).2)
      (th.invoke c call).1 := by
  have hentered :
      (PhoneAuthorization.system stored).Reaches (x ++ [Event.called th.programs.length call])
      { th with programs := th.programs ++ [[.enter call]] } := by
    refine h.step (i := .call call) trivial ?_
    rw [← hcall]
    rfl
  have hstep : (PhoneAuthorization.system stored).step
      { th with programs := th.programs ++ [[.enter call]] } (.step th.programs.length c true) =
        some ((th.invoke c call).1, (th.owner.enter c th.programs.length call).2.1) := by
    simp only [PhoneAuthorization.system, PhoneAuthorization.step, Threads.invoke,
      List.getElem?_concat_length, runTask, List.append_nil]
    rw [List.set_append_right _ _ (Nat.le_refl _), Nat.sub_self, List.set_cons_zero]
  have hran := hentered.step (i := .step th.programs.length c true) trivial hstep
  rw [List.append_assoc] at hran
  exact hran

/-! ## What a section of the owner tells the session -/

/-- A section sends no frame, or its last act sends one and reports the change. -/
def Tells (es : List PhoneAuthorization.Event) : Prop :=
  Silent es ∨ ∃ pre i type payload,
    es = pre ++ [PhoneAuthorization.Event.sent i type payload, .changed i] ∧
    ∀ e ∈ pre, ∀ j, Callback.of? j e = none

/-- A section hands on what it sends. -/
theorem tells_of_acts {thread : ℕ} {may : List UInt8 → Prop} {t : PhoneAuthorization.Task}
    {a b : PhoneAuthorization P} {es : List PhoneAuthorization.Event}
    (h : Acts thread may t a b es) :
    Tells es := by
  rcases h.silent_or_act with hsilent | hact
  · exact .inl hsilent
  cases hact with
  | @started i _ _ challenge =>
    cases challenge with
    | none => exact .inl (by simp [announce, Silent])
    | some payload => exact .inr ⟨[], i, .clientChallenge, payload, rfl, by simp⟩
  | @refused i _ p _ _ _ _ hshut =>
    refine .inl fun j type payload hmem => ?_
    rcases List.mem_cons.mp hmem with hmem | hmem
    · cases hmem
    · exact hshut.2.silent _ _ _ hmem
  | @answered i _ p _ now _ _ r =>
    exact .inr ⟨[.proof i p, .evaluated i a.repository.clients now], i, .clientAuthResult,
      .clientAuthResult r, rfl, by simp [Callback.of?]⟩
  | @granted i _ _ saved r =>
    exact .inr ⟨[.approved i a.repository.clients saved.approvedAtUnixSeconds], i,
      .clientAuthResult, .clientAuthResult r, rfl, by simp [Callback.of?]⟩
  | @rejected i _ _ _ r =>
    exact .inr ⟨[], i, .clientAuthResult, .clientAuthResult r, rfl, by simp⟩
  | _ => exact .inl (by simp [Silent])

theorem Tells.called {es : List PhoneAuthorization.Event} (h : Tells es) (thread : ℕ)
    (call : Call) :
    Tells (.called thread call :: es) := by
  rcases h with h | ⟨pre, i, type, payload, rfl, hpre⟩
  · refine .inl fun j type payload hmem => ?_
    rcases List.mem_cons.mp hmem with hmem | hmem
    · cases hmem
    · exact h _ _ _ hmem
  · refine .inr ⟨.called thread call :: pre, i, type, payload, rfl, fun e he j => ?_⟩
    rcases List.mem_cons.mp he with rfl | he
    · rfl
    · exact hpre e he j

theorem tells_invoke (th : PhoneAuthorization.Threads P) (c : Clock) (call : Call) :
    Tells (th.invoke c call).2 := by
  have hacts := acts_runTask th.owner c true th.programs.length [] (.enter call)
  exact (tells_of_acts hacts).called th.programs.length call

/-- So does every step of the owner. -/
theorem tells_of_step {th th' : PhoneAuthorization.Threads P} {l : PhoneAuthorization.Label}
    {es : List PhoneAuthorization.Event} (h : PhoneAuthorization.step th l = some (th', es)) :
    Tells es := by
  cases moved_of_step h with
  | call call => exact .inl (by simp [Silent])
  | @task thread c written t ts hj =>
    exact tells_of_acts (acts_runTask th.owner c written thread ts t)

/-! ## Before the outcome is on the line -/

/-- The callback sends a frame. -/
def Callback.sends : Callback → Bool
  | .call (.sendAuthorization ..) => true
  | _ => false

/-- The callbacks of a session that nobody was let through to. -/
def Callback.plain : Callback → Bool
  | .call (.sendAuthorization ..) | .call .stopVideo | .call .close | .changed | .closed => true
  | .call _ => false

/-- The lock's holder brings the outcome that authorizes to the line before anything else. -/
def Ahead (s : AuthorizedMediaSession P) : Prop :=
  (∃ type payload rest, s.callbacks = .call (.sendAuthorization type payload) :: rest ∧
    PhoneAuthorization.authorizes (type, payload) = true) ∨
  ∃ i, s.calling = some i ∧ FramedOutbound.Bears s.outbound i

/-- Before the outcome that authorizes is sent, the writer carries authorization frames only, and
nothing was read as allowed. -/
structure Waiting (sid : ℕ) (tr : List Event) (s : AuthorizedMediaSession P) : Prop where
  frames : FramedOutbound.Sealed (outs tr) s.outbound
  loads : s.outbound.carried + s.callbacks.countP Callback.sends ≤ (sentTo sid (auths tr)).length
  ahead : Granted sid tr → Ahead s
  plain : ∀ cb ∈ s.callbacks, cb.plain = true
  reader : ∀ f, s.reader ≠ .allowed f

/-- The outcome is awaited, or it is on the line. -/
def Through (sid : ℕ) (tr : List Event) (s : AuthorizedMediaSession P) : Prop :=
  Waiting sid tr s ∨ FramedOutbound.Released (outs tr) s.outbound

/-- Without the lock no callback is left. -/
theorem callbacks_of_unlocked (h : s.unlocked = true) : s.callbacks = [] := by
  unfold unlocked at h
  exact List.isEmpty_iff.mp (Bool.and_eq_true_iff.mp h).1

/-- The holder that bears the outcome has not returned. -/
theorem not_bears_of_returned (h : s.returned = true) {i : ℕ} (hi : s.calling = some i) :
    ¬ FramedOutbound.Bears s.outbound i := by
  rintro ⟨t, ht, -⟩
  unfold returned at h
  rw [hi] at h
  simp [ht] at h

/-- An outcome that is still ahead is under the lock. -/
theorem Ahead.locked (h : Ahead s) : s.unlocked = false := by
  rcases h with ⟨type, payload, rest, hcallbacks, -⟩ | ⟨i, hi, hbears⟩
  · simp [unlocked, hcallbacks]
  · by_contra hun
    have hreturned : s.returned = true :=
      (Bool.and_eq_true_iff.mp (Bool.not_eq_false _ ▸ hun : s.unlocked = true)).2
    exact not_bears_of_returned hreturned hi hbears

/-- A session that waits was not granted. -/
theorem Waiting.not_granted (h : Waiting sid tr s) (hun : s.unlocked = true) :
    ¬ Granted sid tr := by
  intro hg
  rw [(h.ahead hg).locked] at hun
  cases hun

/-- A callback that is not the outcome runs only while there is none. -/
theorem Waiting.not_granted_of_head (h : Waiting sid tr s) (hreturned : s.returned = true)
    {cb : Callback}
    {rest : List Callback} (hcb : s.callbacks = cb :: rest) (hsends : cb.sends = false) :
    ¬ Granted sid tr := by
  intro hg
  rcases h.ahead hg with ⟨type, payload, rest', hcallbacks, -⟩ | ⟨i, hi, hbears⟩
  · rw [hcb, List.cons.injEq] at hcallbacks
    rw [hcallbacks.1] at hsends
    cases hsends
  · exact not_bears_of_returned hreturned hi hbears

/-- A section that sends nothing leaves no callback that sends. -/
theorem silent_callback {gate : Option ℕ} {es : List PhoneAuthorization.Event} (h : Silent es)
    {cb : Callback} (hcb : cb ∈ callbacksOf gate es) : cb.sends = false ∧ cb.plain = true := by
  cases gate with
  | none => cases hcb
  | some sid =>
    obtain ⟨e, he, hof⟩ := List.mem_filterMap.mp hcb
    cases e with
    | sent i type payload => exact absurd he (h i type payload)
    | changed i =>
      simp only [Callback.of?] at hof
      split at hof
      · rw [← Option.some.inj hof]
        exact ⟨rfl, rfl⟩
      · cases hof
    | ended i reason =>
      simp only [Callback.of?] at hof
      split at hof
      · rw [← Option.some.inj hof]
        exact ⟨rfl, rfl⟩
      · cases hof
    | _ => cases hof

theorem countP_silent {gate : Option ℕ} {es : List PhoneAuthorization.Event} (h : Silent es) :
    (callbacksOf gate es).countP Callback.sends = 0 := by
  rw [List.countP_eq_zero]
  intro cb hcb
  rw [(silent_callback h hcb).1]
  exact Bool.false_ne_true

/-- A section that sends leaves the frame and the change to be handed on, if the session
is its own. -/
theorem callbacks_told {pre : List PhoneAuthorization.Event} {i : ℕ} {type : FrameType}
    {payload : Payload} (hpre : ∀ e ∈ pre, ∀ j, Callback.of? j e = none) :
    callbacksOf (some sid) (pre ++ [Event.sent i type payload, .changed i]) =
      if i = sid then [.call (.sendAuthorization type payload), .changed] else [] := by
  have hnil : pre.filterMap (Callback.of? sid) = [] :=
    List.filterMap_eq_nil_iff.mpr fun e he => hpre e he sid
  simp only [callbacksOf, List.filterMap_append, hnil, List.nil_append]
  by_cases hi : i = sid
  · simp [Callback.of?, hi]
  · simp [Callback.of?, hi]

/-- What a section sends to the session. -/
theorem sentTo_told {pre : List PhoneAuthorization.Event} {i : ℕ} {type : FrameType}
    {payload : Payload} (hpre : ∀ e ∈ pre, ∀ j, Callback.of? j e = none) :
    sentTo sid (pre ++ [Event.sent i type payload, .changed i]) =
      if i = sid then [(type, payload)] else [] := by
  have hnil : sentTo sid pre = [] := by
    rw [List.eq_nil_iff_forall_not_mem]
    intro m hm
    have hof := hpre _ (mem_sentTo.mp hm) sid
    simp [Callback.of?] at hof
  rw [sentTo_append, hnil, List.nil_append]
  by_cases hi : i = sid
  · simp [sentTo, Event.sentTo?, hi]
  · simp [sentTo, Event.sentTo?, hi]

/-- What a section grants. -/
theorem granted_append_auth {es : List PhoneAuthorization.Event} :
    Granted sid (tr ++ es.map .auth) ↔
      Granted sid tr ∨ ∃ m ∈ sentTo sid es, PhoneAuthorization.authorizes m = true := by
  unfold Granted
  rw [auths_append, auths_auth, sentTo_append]
  simp only [List.mem_append, or_and_right, exists_or]

/-! ## Sections of the owner -/

/-- A section that sends the session nothing. -/
theorem Waiting.silent (h : Waiting sid tr s)
    {q : PhoneAuthorization.Threads P × List PhoneAuthorization.Event}
    (hq : Silent q.2) (hno : callbacksOf s.gate q.2 = [] ∨ ¬ Granted sid tr) :
    Waiting sid (tr ++ q.2.map .auth) (s.after q).1 := by
  have hsent : sentTo sid (auths (tr ++ q.2.map .auth)) = sentTo sid (auths tr) := by
    rw [auths_append, auths_auth, sentTo_append, hq.sentTo, List.append_nil]
  have hgranted : Granted sid (tr ++ q.2.map .auth) → Granted sid tr := by
    unfold Granted
    rw [hsent]
    exact id
  refine ⟨?_, ?_, fun hg => ?_, fun cb hcb => ?_, h.reader⟩
  · rw [outs_append, outs_auth, List.append_nil]
    exact h.frames
  · have hloads := h.loads
    rw [hsent]
    show s.outbound.carried + (callbacksOf s.gate q.2 ++ s.callbacks).countP Callback.sends ≤ _
    rw [List.countP_append, countP_silent hq]
    omega
  · rcases hno with hnil | hno
    · rcases h.ahead (hgranted hg) with ⟨type, payload, rest, hcallbacks, hauth⟩ | hbears
      · refine .inl ⟨type, payload, rest, ?_, hauth⟩
        show callbacksOf s.gate q.2 ++ s.callbacks = _
        rw [hnil, List.nil_append]
        exact hcallbacks
      · exact .inr hbears
    · exact absurd (hgranted hg) hno
  · rcases List.mem_append.mp hcb with hcb | hcb
    · exact (silent_callback hq hcb).2
    · exact h.plain cb hcb

/-- A section while nobody holds the lock. -/
theorem Waiting.section (h : Waiting sid tr s) (hgate : s.gate = some sid) (hun : s.unlocked = true)
    {q : PhoneAuthorization.Threads P × List PhoneAuthorization.Event} (hq : Tells q.2) :
    Waiting sid (tr ++ q.2.map .auth) (s.after q).1 := by
  have hno := h.not_granted hun
  rcases hq with hq | ⟨pre, i, type, payload, hes, hpre⟩
  · exact h.silent hq (.inr hno)
  have hnil := callbacks_of_unlocked hun
  have hcallbacks : (s.after q).1.callbacks =
      if i = sid then [.call (.sendAuthorization type payload), .changed] else [] := by
    show callbacksOf s.gate q.2 ++ s.callbacks = _
    rw [hgate, hnil, List.append_nil, hes, callbacks_told hpre]
  have hsent : sentTo sid q.2 = if i = sid then [(type, payload)] else [] := by
    rw [hes, sentTo_told hpre]
  have hloads := h.loads
  rw [hnil] at hloads
  refine ⟨?_, ?_, fun hg => ?_, fun cb hcb => ?_, h.reader⟩
  · rw [outs_append, outs_auth, List.append_nil]
    exact h.frames
  · rw [auths_append, auths_auth, sentTo_append, hsent, hcallbacks, List.length_append]
    show s.outbound.carried + _ ≤ _
    split
    · simp only [List.countP_cons, List.countP_nil, Callback.sends,
        List.length_singleton] at hloads ⊢
      simp only [if_true, Bool.false_eq_true, if_false]
      omega
    · simpa using hloads
  · rcases granted_append_auth.mp hg with hg | ⟨m, hm, hauth⟩
    · exact absurd hg hno
    · rw [hsent] at hm
      split at hm
      · next hi =>
        rw [List.mem_singleton.mp hm] at hauth
        refine .inl ⟨type, payload, [.changed], ?_, hauth⟩
        rw [hcallbacks, if_pos hi]
      · cases hm
  · rw [hcallbacks] at hcb
    split at hcb
    · simp only [List.mem_cons, List.not_mem_nil, or_false] at hcb
      rcases hcb with rfl | rfl
      · rfl
      · rfl
    · cases hcb

/-! ## Steps of the writer -/

/-- At most three frames are sent to a session. -/
theorem sent_le {x : List PhoneAuthorization.Event} {th : PhoneAuthorization.Threads P}
    (h : (PhoneAuthorization.system stored).Reaches x th) (sid : ℕ) :
    (sentTo sid x).length ≤ 3 := by
  have hsends := sends_ok h
  cases hs : th.owner.sessions[sid]? with
  | none =>
    rw [hsends.unopened sid (List.getElem?_eq_none_iff.mp hs)]
    exact Nat.zero_le _
  | some session =>
    apply Nat.le_trans (hsends.session sid session hs).bound
    exact session.phase.sends_le

/-- So the control queue has room for all of them. -/
theorem Waiting.room (h : Waiting sid tr s)
    (howner : (PhoneAuthorization.system stored).Reaches (auths tr) s.auth) :
    s.outbound.out.controlQueue.length < FramedOutbound.MAX_CONTROL_FRAMES := by
  have hloads := h.loads
  have hsent := sent_le howner sid
  unfold FramedOutbound.Threads.carried at hloads
  show _ < 32
  omega

theorem granted_append_out {es : List FramedOutbound.Event} :
    Granted sid (tr ++ es.map .out) ↔ Granted sid tr := by
  unfold Granted
  rw [auths_append, auths_out, List.append_nil]

/-- A thread that is inside the writer, the writer thread, or another thread that closes. -/
theorem Waiting.drive (h : Waiting sid tr s)
    (howner : (PhoneAuthorization.system stored).Reaches (auths tr) s.auth)
    (hwriter : FramedOutbound.system.Reaches (outs tr) s.outbound)
    (hstarted : s.outbound.writer ≠ .unstarted) {l : FramedOutbound.Label}
    {o : FramedOutbound.Threads}
    {es : List FramedOutbound.Event} (hs : FramedOutbound.step s.outbound l = some (o, es))
    (hui : ∀ calls, l ≠ .ui calls)
    (hspawn : ∀ call, l = .spawn call → call = .stopVideo ∨ call = .close) :
    Through sid (tr ++ es.map .out) { s with outbound := o } := by
  have hroom := h.room howner
  have hsealed : FramedOutbound.Sealed (outs tr ++ es) o := by
    refine h.frames.step hroom hui (fun call hcall t ht => ?_) hs
    rcases hspawn call hcall with rfl | rfl
    · rw [List.mem_singleton.mp ht]
      rfl
    · simp only [FramedOutbound.Call.tasks, List.mem_cons, List.not_mem_nil, or_false] at ht
      rcases ht with rfl | rfl | rfl <;> rfl
  have hcarried : o.carried ≤ s.outbound.carried := by
    by_cases hcall : ∃ call, l = .spawn call
    · obtain ⟨call, rfl⟩ := hcall
      rw [FramedOutbound.carried_spawn hs]
      rcases hspawn call rfl with rfl | rfl <;> exact Nat.le_refl _
    · exact h.frames.carried_le hroom (fun call hl => hcall ⟨call, hl⟩) hs
  have hloads := h.loads
  have hwaits (hahead : Granted sid tr → Ahead { s with outbound := o }) :
      Waiting sid (tr ++ es.map .out) { s with outbound := o } := by
    refine ⟨?_, ?_, fun hg => hahead (granted_append_out.mp hg), h.plain, h.reader⟩
    · rw [outs_append, outs_out]
      exact hsealed
    · rw [auths_append, auths_out, List.append_nil]
      show o.carried + s.callbacks.countP Callback.sends ≤ _
      omega
  by_cases hg : Granted sid tr
  · rcases h.ahead hg with hhead | ⟨i, hi, hbears⟩
    · exact .inl (hwaits fun _ => .inl hhead)
    · rcases hbears.step h.frames hroom hstarted (FramedOutbound.halted_of_stopped hwriter) hs with
        hbears | hready
      · exact .inl (hwaits fun _ => .inr ⟨i, hi, hbears⟩)
      · right
        rw [outs_append, outs_out]
        exact hsealed.released hready
  · exact .inl (hwaits fun hg' => absurd hg' hg)

/-- The lock's holder hands a frame to the writer, or closes it. -/
theorem Waiting.enter (h : Waiting sid tr s)
    (howner : (PhoneAuthorization.system stored).Reaches (auths tr) s.auth)
    (hreturned : s.returned = true) {call : FramedOutbound.Call} {rest : List Callback}
    (hcb : s.callbacks = .call call :: rest) {o : FramedOutbound.Threads}
    {es : List FramedOutbound.Event}
    (hs : FramedOutbound.step s.outbound (.spawn call) = some (o, es)) :
    Waiting sid (tr ++ es.map .out)
      { s with callbacks := rest, calling := some s.outbound.others.length, outbound := o } := by
  have hroom := h.room howner
  have hplain := h.plain (.call call) (hcb ▸ List.mem_cons_self)
  have htasks : (∀ t ∈ call.tasks, t.releases = false) ∧
      call.tasks.countP FramedOutbound.Task.authorization ≤
        (if (Callback.call call).sends then 1 else 0) := by
    cases call with
    | sendAuthorization type payload =>
      simp only [FramedOutbound.Call.tasks, FramedOutbound.sendControl]
      split
      · next htype =>
        have hauth : (FramedOutbound.controlFrame type payload).isAuthorization = true := by
          rcases htype with rfl | rfl <;> rfl
        refine ⟨fun t ht => ?_, ?_⟩
        · rw [List.mem_singleton.mp ht]
          simp [FramedOutbound.Task.releases, hauth]
        · simp [FramedOutbound.Task.authorization, hauth, Callback.sends]
      · exact ⟨fun t ht => (List.not_mem_nil ht).elim, Nat.zero_le _⟩
    | stopVideo =>
      refine ⟨fun t ht => ?_, Nat.le_refl _⟩
      rw [List.mem_singleton.mp ht]
      rfl
    | close =>
      refine ⟨fun t ht => ?_, Nat.le_refl _⟩
      simp only [FramedOutbound.Call.tasks, List.mem_cons, List.not_mem_nil, or_false] at ht
      rcases ht with rfl | rfl | rfl <;> rfl
    | _ => cases hplain
  have hsealed : FramedOutbound.Sealed (outs tr ++ es) o := by
    refine h.frames.step hroom (fun calls hl => by cases hl) (fun call' hl t ht => ?_) hs
    cases hl
    exact htasks.1 t ht
  refine ⟨?_, ?_, fun hg => ?_, fun cb hmem => ?_, h.reader⟩
  · rw [outs_append, outs_out]
    exact hsealed
  · have hloads := h.loads
    have hcount := htasks.2
    rw [hcb, List.countP_cons] at hloads
    rw [auths_append, auths_out, List.append_nil]
    show o.carried + rest.countP Callback.sends ≤ _
    rw [FramedOutbound.carried_spawn hs]
    omega
  · -- the call is the outcome's
    rcases h.ahead (granted_append_out.mp hg) with ⟨type, payload, rest', hcallbacks, hauth⟩ |
      ⟨i, hi, hbears⟩
    · rw [hcb, List.cons.injEq, Callback.call.injEq] at hcallbacks
      obtain ⟨rfl, -⟩ := hcallbacks
      have htype : type = .clientAuthResult := by
        unfold PhoneAuthorization.authorizes at hauth
        split at hauth
        · next hm => exact congrArg Prod.fst hm
        · cases hauth
      subst htype
      cases FramedOutbound.moved_of_step hs with
      | task hruns => cases hruns
      | spawn =>
        refine .inr ⟨s.outbound.others.length, rfl,
          .number (FramedOutbound.controlFrame .clientAuthResult payload) none, ?_, hauth⟩
        simp [FramedOutbound.Call.tasks, FramedOutbound.sendControl]
    · exact absurd hbears (not_bears_of_returned hreturned hi)
  · exact h.plain cb (hcb ▸ List.mem_cons_of_mem _ hmem)

/-! ## The session over a run -/

/-- Every command acted on comes after the outcome that authorizes the session. -/
def Justified (gate : Option ℕ) (x : List Event) (e : Event) : Prop :=
  ∀ action, e = .acted action → ∃ sid, gate = some sid ∧ Granted sid x

/-- What every run of a session keeps. -/
structure Gated (stored : ClientRepository P) (tr : List Event)
    (s : AuthorizedMediaSession P) : Prop where
  owner : (PhoneAuthorization.system stored).Reaches (auths tr) s.auth
  writer : FramedOutbound.system.Reaches (outs tr) s.outbound
  closing : FramedOutbound.Closing s.outbound
  unopened : s.gate = none → s.callbacks = [] ∧ FramedOutbound.Sealed (outs tr) s.outbound ∧
    s.outbound.carried = 0 ∧ ∀ f, s.reader ≠ .allowed f
  opened : ∀ sid, s.gate = some sid → s.outbound.writer ≠ .unstarted ∧ Through sid tr s
  allowed : ∀ f, s.reader = .allowed f → ∃ sid, s.gate = some sid ∧ Granted sid tr
  acted : Each (Justified s.gate) tr

/-- The owner's events need no outcome. -/
theorem justified_auth (gate : Option ℕ) (es : List PhoneAuthorization.Event) :
    Each (fun x => Justified gate (tr ++ x)) (es.map .auth) := by
  apply each_of_forall
  intro x e he action hact
  obtain ⟨e', -, rfl⟩ := List.mem_map.mp he
  cases hact

/-- The writer's events need no outcome. -/
theorem justified_out (gate : Option ℕ) (es : List FramedOutbound.Event) :
    Each (fun x => Justified gate (tr ++ x)) (es.map .out) := by
  apply each_of_forall
  intro x e he action hact
  obtain ⟨e', -, rfl⟩ := List.mem_map.mp he
  cases hact

/-- A section of the owner, while nobody holds the lock or by its holder. -/
theorem Gated.after (h : Gated stored tr s)
    {q : PhoneAuthorization.Threads P × List PhoneAuthorization.Event}
    (hreach : (PhoneAuthorization.system stored).Reaches (auths tr ++ q.2) q.1)
    (hwaiting : ∀ sid, s.gate = some sid → Waiting sid tr s →
      Through sid (tr ++ q.2.map .auth) (s.after q).1) :
    Gated stored (tr ++ q.2.map .auth) (s.after q).1 := by
  have houts : outs (tr ++ q.2.map .auth) = outs tr := by
    rw [outs_append, outs_auth, List.append_nil]
  refine ⟨?_, ?_, h.closing, fun hgate => ?_, fun sid hgate => ⟨(h.opened sid hgate).1, ?_⟩,
    fun f hf => ?_, h.acted.append (justified_auth s.gate q.2)⟩
  · rw [auths_append, auths_auth]
    exact hreach
  · rw [houts]
    exact h.writer
  · obtain ⟨hnil, hsealed, hcarried, hreader⟩ := h.unopened hgate
    refine ⟨?_, ?_, hcarried, hreader⟩
    · show callbacksOf s.gate q.2 ++ s.callbacks = []
      have hnone : s.gate = none := hgate
      rw [hnone, hnil]
      rfl
    · rw [houts]
      exact hsealed
  · rcases (h.opened sid hgate).2 with hw | hr
    · exact hwaiting sid hgate hw
    · right
      rw [houts]
      exact hr
  · obtain ⟨sid, hgate, hg⟩ := h.allowed f hf
    exact ⟨sid, hgate, hg.append _⟩

/-- A section keeps what the session keeps. -/
theorem Gated.section (h : Gated stored tr s) (hun : s.unlocked = true)
    {q : PhoneAuthorization.Threads P × List PhoneAuthorization.Event}
    (hreach : (PhoneAuthorization.system stored).Reaches (auths tr ++ q.2) q.1) (hq : Tells q.2) :
    Gated stored (tr ++ q.2.map .auth) (s.after q).1 :=
  h.after hreach fun _ hgate hw => .inl (hw.section hgate hun hq)

/-- A step of the writer that the session's state allows. -/
theorem Gated.drive (h : Gated stored tr s) {l : FramedOutbound.Label}
    (hs : s.drive l = some (s', es))
    (hl : (∀ calls, l ≠ .ui calls) ∧ (∀ call, l = .spawn call → call = .stopVideo ∨ call = .close) ∨
      s.gate ≠ none ∧ FramedOutbound.Released (outs tr) s.outbound)
    (hclose : (∀ calls, l = .ui calls → .close ∉ calls) ∧
      (l = .spawn .close → s.outbound.writer ≠ .unstarted)) :
    Gated stored (tr ++ es) s' := by
  unfold AuthorizedMediaSession.drive at hs
  split at hs
  · next o es' hstep =>
    rw [Option.some.injEq, Prod.mk.injEq] at hs
    obtain ⟨rfl, rfl⟩ := hs
    have hauths : auths (tr ++ es'.map .out) = auths tr := by
      rw [auths_append, auths_out, List.append_nil]
    have houts : outs (tr ++ es'.map .out) = outs tr ++ es' := by rw [outs_append, outs_out]
    refine ⟨?_, ?_, h.closing.step hclose.1 hclose.2 hstep, fun hgate => ?_, fun sid hgate => ?_,
      fun f hf => ?_, h.acted.append (justified_out s.gate es')⟩
    · rw [hauths]
      exact h.owner
    · rw [houts]
      exact h.writer.step trivial hstep
    · obtain ⟨hnil, hsealed, hcarried, hreader⟩ := h.unopened hgate
      -- the outcomes alone never fill the control queue
      have hroom : s.outbound.out.controlQueue.length < FramedOutbound.MAX_CONTROL_FRAMES := by
        unfold FramedOutbound.Threads.carried at hcarried
        show _ < 32
        omega
      rcases hl with ⟨hui, hspawn⟩ | ⟨hsome, -⟩
      · refine ⟨hnil, ?_, ?_, hreader⟩
        · rw [houts]
          refine hsealed.step hroom hui (fun call hcall t ht => ?_) hstep
          rcases hspawn call hcall with rfl | rfl
          · rw [List.mem_singleton.mp ht]
            rfl
          · simp only [FramedOutbound.Call.tasks, List.mem_cons, List.not_mem_nil, or_false] at ht
            rcases ht with rfl | rfl | rfl <;> rfl
        · show o.carried = 0
          by_cases hcall : ∃ call, l = .spawn call
          · obtain ⟨call, rfl⟩ := hcall
            rw [FramedOutbound.carried_spawn hstep, hcarried]
            rcases hspawn call rfl with rfl | rfl <;> rfl
          · have := hsealed.carried_le hroom (fun call hl => hcall ⟨call, hl⟩) hstep
            omega
      · exact absurd hgate hsome
    · obtain ⟨hstarted, hthrough⟩ := h.opened sid hgate
      refine ⟨FramedOutbound.started_step hstarted hstep, ?_⟩
      -- once the session is through, the writer stays released
      have hreleased (hr : FramedOutbound.Released (outs tr) s.outbound) :
          Through sid (tr ++ es'.map .out) { s with outbound := o } := by
        right
        rw [houts]
        exact hr.step h.closing hstep
      rcases hthrough with hw | hr
      · rcases hl with ⟨hui, hspawn⟩ | ⟨-, hr⟩
        · exact hw.drive h.owner h.writer hstarted hstep hui hspawn
        · exact hreleased hr
      · exact hreleased hr
    · obtain ⟨sid, hgate, hg⟩ := h.allowed f hf
      exact ⟨sid, hgate, hg.append _⟩
  · cases hs

/-- The outcome is not on its way from the owner to the line. -/
def Settled (tr : List Event) (s : AuthorizedMediaSession P) : Prop :=
  ∀ sid, s.gate = some sid → ¬ Granted sid tr ∨ FramedOutbound.Released (outs tr) s.outbound

/-- Without the lock everything is handed on. -/
theorem Gated.settled (h : Gated stored tr s) (hun : s.unlocked = true) : Settled tr s := by
  intro sid hgate
  rcases (h.opened sid hgate).2 with hw | hr
  · exact .inl (hw.not_granted hun)
  · exact .inr hr

theorem Gated.settled_of_head (h : Gated stored tr s) (hreturned : s.returned = true)
    {cb : Callback}
    {rest : List Callback} (hcb : s.callbacks = cb :: rest) (hsends : cb.sends = false) :
    Settled tr s := by
  intro sid hgate
  rcases (h.opened sid hgate).2 with hw | hr
  · exact .inl (hw.not_granted_of_head hreturned hcb hsends)
  · exact .inr hr

/-- A session that is found authorized was sent the outcome. -/
theorem granted_of_authorized {th : PhoneAuthorization.Threads P}
    {x : List PhoneAuthorization.Event}
    (h : (PhoneAuthorization.system stored).Reaches x th) {c : Clock}
    (hyes : (th.owner.isAuthorized c sid).2.2 = true) :
    ∃ m ∈ sentTo sid x, PhoneAuthorization.authorizes m = true := by
  have hchecked : (th.owner.checkAuthorized c sid).2.2 = true := hyes
  obtain ⟨-, -, session, client, hs, hp, -⟩ := checkAuthorized_true hchecked
  exact ((sends_ok h).session sid session hs).authorized hp

theorem silent_of_reported {a b : PhoneAuthorization P} {es : List PhoneAuthorization.Event}
    (h : Acts 0 (fun _ => True) (.enter (.isAuthorized sid)) a b es) : Silent es := by
  rcases h.silent_or_act with hsilent | hact
  · exact hsilent
  · cases hact with
    | reported => simp [Silent]

/-- Asking sends nothing. -/
theorem silent_isAuthorized (th : PhoneAuthorization.Threads P) (c : Clock) :
    Silent (th.invoke c (.isAuthorized sid)).2 := by
  have hacts : Silent (th.owner.isAuthorized c sid).2.1 :=
    silent_of_reported (acts_isAuthorized th.owner c sid)
  intro i type payload hmem
  rcases List.mem_cons.mp hmem with hmem | hmem
  · cases hmem
  · exact hacts i type payload hmem

/-- `permitted()`, and what a yes tells. -/
theorem Gated.ask (h : Gated stored tr s) (hsettled : Settled tr s) {c : Clock} {yes : Bool}
    (hp : s.permitted c = (s', es, yes)) :
    Gated stored (tr ++ es) s' ∧ (s'.gate = s.gate ∧ s'.outbound = s.outbound ∧
      s'.reader = s.reader) ∧ outs (tr ++ es) = outs tr ∧
      (yes = true → ∃ sid, s.gate = some sid ∧ Granted sid tr ∧
        FramedOutbound.Released (outs tr) s.outbound) := by
  unfold permitted at hp
  split at hp
  · next hgate =>
    rw [Prod.mk.injEq, Prod.mk.injEq] at hp
    obtain ⟨rfl, rfl, rfl⟩ := hp
    rw [List.append_nil]
    exact ⟨h, ⟨rfl, rfl, rfl⟩, rfl, fun hyes => by cases hyes⟩
  · next sid hgate =>
    rw [Prod.mk.injEq, Prod.mk.injEq] at hp
    obtain ⟨rfl, rfl, rfl⟩ := hp
    have hquiet : Silent (s.auth.invoke c (.isAuthorized sid)).2 := silent_isAuthorized s.auth c
    refine ⟨?_, ⟨rfl, rfl, rfl⟩, ?_, fun hyes => ?_⟩
    · refine h.after (reaches_invoke h.owner c (.isAuthorized sid) rfl) fun i hi hw => ?_
      rcases hsettled i hi with hno | hr
      · exact .inl (hw.silent hquiet (.inr hno))
      · right
        rw [outs_append, outs_auth, List.append_nil]
        exact hr
    · show outs (tr ++ List.map Event.auth _) = outs tr
      rw [outs_append, outs_auth, List.append_nil]
    · have hg : Granted sid tr := granted_of_authorized h.owner hyes
      exact ⟨sid, hgate, hg, (hsettled sid hgate).resolve_left fun hno => hno hg⟩

/-- The dispatcher's counters and the reader do not reach the writer. -/
theorem Gated.reads (h : Gated stored tr s) (control : SessionControl) (reader : Reader)
    (hr : ∀ f, reader = .allowed f → ∃ sid, s.gate = some sid ∧ Granted sid tr ∧
      FramedOutbound.Released (outs tr) s.outbound) :
    Gated stored tr { s with control, reader } := by
  refine ⟨h.owner, h.writer, h.closing, fun hgate => ?_, fun sid hgate => ?_,
    fun f hf => ?_, h.acted⟩
  · obtain ⟨hnil, hsealed, hcarried, -⟩ := h.unopened hgate
    refine ⟨hnil, hsealed, hcarried, fun f hf => ?_⟩
    obtain ⟨sid, hsome, -⟩ := hr f hf
    have hnone : s.gate = none := hgate
    rw [hsome] at hnone
    cases hnone
  · obtain ⟨hstarted, hw | hreleased⟩ := h.opened sid hgate
    · by_cases hallowed : ∃ f, reader = .allowed f
      · obtain ⟨f, hf⟩ := hallowed
        obtain ⟨-, -, -, hreleased⟩ := hr f hf
        exact ⟨hstarted, .inr hreleased⟩
      · exact ⟨hstarted, .inl ⟨hw.frames, hw.loads, hw.ahead, hw.plain, fun f hf =>
          hallowed ⟨f, hf⟩⟩⟩
    · exact ⟨hstarted, .inr hreleased⟩
  · obtain ⟨sid, hgate, hg, -⟩ := hr f hf
    exact ⟨sid, hgate, hg⟩

/-- Acting on a frame keeps it. -/
theorem Gated.acts (h : Gated stored tr s) (action : SessionControl.Action)
    (hg : ∃ sid, s.gate = some sid ∧ Granted sid tr) :
    Gated stored (tr ++ [Event.acted action]) s := by
  have hauths : auths (tr ++ [Event.acted action]) = auths tr := by
    rw [auths_append]
    exact List.append_nil _
  have houts : outs (tr ++ [Event.acted action]) = outs tr := by
    rw [outs_append]
    exact List.append_nil _
  have hgranted (sid : ℕ) : Granted sid (tr ++ [Event.acted action]) ↔ Granted sid tr := by
    rw [Granted, hauths]
    exact Iff.rfl
  refine ⟨?_, ?_, h.closing, fun hgate => ?_, fun sid hgate => ?_, fun f hf => ?_, ?_⟩
  · rw [hauths]
    exact h.owner
  · rw [houts]
    exact h.writer
  · rw [houts]
    exact h.unopened hgate
  · obtain ⟨hstarted, hw | hreleased⟩ := h.opened sid hgate
    · refine ⟨hstarted, .inl ⟨?_, ?_, fun hg => hw.ahead ((hgranted sid).mp hg),
        hw.plain, hw.reader⟩⟩
      · rw [houts]
        exact hw.frames
      · rw [hauths]
        exact hw.loads
    · refine ⟨hstarted, .inr ?_⟩
      rw [houts]
      exact hreleased
  · obtain ⟨sid, hgate, hg⟩ := h.allowed f hf
    exact ⟨sid, hgate, hg.append _⟩
  · apply h.acted.append
    apply each_of_forall
    intro x e _ _ _
    obtain ⟨sid, hgate, hg⟩ := hg
    exact ⟨sid, hgate, hg.append x⟩

/-- A call of the gate keeps it. -/
theorem Gated.onGate (h : Gated stored tr s) {c : Clock} {call : ℕ → Call}
    (hs : s.onGate c call = some (s', es)) (hcall : ∀ sid, (call sid).tasks = [.enter (call sid)]) :
    Gated stored (tr ++ es) s' := by
  unfold AuthorizedMediaSession.onGate at hs
  split at hs
  · cases hs
  next sid hgate =>
  split at hs
  · next hun =>
    rw [Option.some.injEq, Prod.mk.injEq] at hs
    obtain ⟨rfl, rfl⟩ := hs
    exact h.section hun (reaches_invoke h.owner c (call sid) (hcall sid))
      (tells_invoke s.auth c (call sid))
  · cases hs

/-- A call for the writer keeps it. -/
theorem Gated.pass (h : Gated stored tr s) (hun : s.unlocked = true) {c : Clock}
    {enter : FramedOutbound.Label} (hs : s.pass c enter = some (s', es))
    (hclose : (∀ calls, enter = .ui calls → .close ∉ calls) ∧ enter ≠ .spawn .close) :
    Gated stored (tr ++ es) s' := by
  unfold AuthorizedMediaSession.pass at hs
  split at hs
  · next s₁ es₁ hp =>
    rw [Option.some.injEq, Prod.mk.injEq] at hs
    obtain ⟨rfl, rfl⟩ := hs
    exact (h.ask (h.settled hun) hp).1
  · next s₁ es₁ hp =>
    obtain ⟨hgated, ⟨hgate, houtbound, -⟩, houts, hyes⟩ := h.ask (h.settled hun) hp
    obtain ⟨sid, hsome, -, hreleased⟩ := hyes rfl
    rw [Option.map_eq_some_iff] at hs
    obtain ⟨⟨s₂, es₂⟩, hdrive, heq⟩ := hs
    rw [Prod.mk.injEq] at heq
    obtain ⟨rfl, rfl⟩ := heq
    rw [← List.append_assoc]
    refine hgated.drive hdrive (.inr ⟨?_, ?_⟩) ⟨hclose.1, fun hl => absurd hl hclose.2⟩
    · rw [hgate, hsome]
      exact Option.some_ne_none sid
    · rw [houts, houtbound]
      exact hreleased

/-- Opening a session sends nothing. -/
theorem silent_of_opened {a b : PhoneAuthorization P} {transport : AuthTransport}
    {phoneBinding nonce : List UInt8} {es : List PhoneAuthorization.Event}
    (h : Acts 0 (fun _ => True) (.enter (.openSession transport phoneBinding nonce)) a b es) :
    Silent es := by
  rcases h.silent_or_act with hsilent | hact
  · exact hsilent
  · cases hact with
    | opened => simp [Silent]

/-- `openSession`: nothing was sent to a session that did not exist. -/
theorem Gated.openGate (h : Gated stored tr s) (hstarted : s.started = true) (hgate : s.gate = none)
    (c : Clock) (nonce : List UInt8) :
    Gated stored (tr ++ (s.openGate c nonce).2) (s.openGate c nonce).1 := by
  obtain ⟨hnil, hsealed, hcarried, hreader⟩ := h.unopened hgate
  have hreach := reaches_invoke h.owner c (.openSession s.transport s.phoneBinding nonce) rfl
  have hquiet : Silent (s.auth.invoke c (.openSession s.transport s.phoneBinding nonce)).2 := by
    intro i type payload hmem
    rcases List.mem_cons.mp hmem with hmem | hmem
    · cases hmem
    · exact silent_of_opened
        (acts_openSession s.auth.owner c s.transport s.phoneBinding nonce) _ _ _ hmem
  have hunsent : sentTo s.auth.owner.sessions.length (auths tr) = [] :=
    (sends_ok h.owner).unopened _ (Nat.le_refl _)
  have hauths : auths (tr ++ (s.openGate c nonce).2) =
      auths tr ++ (s.auth.invoke c (.openSession s.transport s.phoneBinding nonce)).2 := by
    rw [auths_append]
    exact congrArg (auths tr ++ ·) (auths_auth _)
  have houts : outs (tr ++ (s.openGate c nonce).2) = outs tr := by
    rw [outs_append]
    show outs tr ++ outs (List.map _ _) = _
    rw [outs_auth, List.append_nil]
  have hwas (x : List Event) (e : Event) (hj : Justified s.gate x e) (gate : Option ℕ) :
      Justified gate x e := by
    intro action hact
    obtain ⟨sid, hsome, -⟩ := hj action hact
    rw [hgate] at hsome
    cases hsome
  refine ⟨?_, ?_, h.closing, fun _ => ?_, fun sid hsid =>
    ⟨?_, .inl ⟨?_, ?_, fun hg => ?_, ?_, hreader⟩⟩,
    fun f hf => absurd hf (hreader f), ?_⟩
  · rw [hauths]
    exact hreach
  · rw [houts]
    exact h.writer
  · rw [houts]
    exact ⟨hnil, hsealed, hcarried, hreader⟩
  · have hne : s.outbound.writer ≠ .unstarted := by simpa [started] using hstarted
    exact hne
  · rw [houts]
    exact hsealed
  · show s.outbound.carried + s.callbacks.countP Callback.sends ≤ _
    rw [hcarried, hnil]
    exact Nat.zero_le _
  · -- the new session's number is the length of the list it was added to
    have hnew : sid = s.auth.owner.sessions.length := by
      have hsid : (if s.auth.owner.sessions.length < (s.auth.invoke c
          (.openSession s.transport s.phoneBinding nonce)).1.owner.sessions.length then
          some s.auth.owner.sessions.length else none) = some sid := hsid
      split at hsid
      · exact (Option.some.inj hsid).symm
      · cases hsid
    obtain ⟨m, hm, -⟩ := hg
    rw [hauths, sentTo_append, hquiet.sentTo, hnew, hunsent] at hm
    cases hm
  · intro cb hcb
    have hcb : cb ∈ s.callbacks := hcb
    rw [hnil] at hcb
    cases hcb
  · refine Each.append (fun x e y hx => hwas x e (h.acted x e y hx) _) ?_
    exact justified_auth _ _

/-- The callbacks that are due change, but for the frames among them. -/
theorem Gated.callbacks (h : Gated stored tr s) (hsettled : Settled tr s)
    {callbacks : List Callback} (hnone : s.gate = none → callbacks = [])
    (hcount : callbacks.countP Callback.sends ≤ s.callbacks.countP Callback.sends)
    (hplain : (∀ cb ∈ s.callbacks, cb.plain = true) → (∀ cb ∈ callbacks, cb.plain = true) ∨
      FramedOutbound.Released (outs tr) s.outbound) :
    Gated stored tr { s with callbacks } := by
  refine ⟨h.owner, h.writer, h.closing, fun hgate => ?_, fun sid hgate => ?_, h.allowed, h.acted⟩
  · obtain ⟨-, hsealed, hcarried, hreader⟩ := h.unopened hgate
    exact ⟨hnone hgate, hsealed, hcarried, hreader⟩
  · obtain ⟨hstarted, hw | hr⟩ := h.opened sid hgate
    · refine ⟨hstarted, ?_⟩
      rcases hsettled sid hgate with hno | hr
      · rcases hplain hw.plain with hplain | hr
        · refine .inl ⟨hw.frames, ?_, fun hg => absurd hg hno, hplain, hw.reader⟩
          have hloads := hw.loads
          show s.outbound.carried + callbacks.countP Callback.sends ≤ _
          omega
        · exact .inr hr
      · exact .inr hr
    · exact ⟨hstarted, .inr hr⟩

/-- The next callback of the lock's holder. -/
theorem Gated.runCallback (h : Gated stored tr s) (hreturned : s.returned = true) {c : Clock}
    {capabilities : Option Capabilities} {ends : Bool}
    (hs : s.runCallback c capabilities ends = some (s', es)) : Gated stored (tr ++ es) s' := by
  have hgate : s.callbacks ≠ [] → s.gate ≠ none := fun hne hnone => hne (h.unopened hnone).1
  unfold AuthorizedMediaSession.runCallback at hs
  split at hs
  · cases hs
  · next call rest hcb =>
    have hsome := hgate (by rw [hcb]; exact List.cons_ne_nil _ _)
    unfold AuthorizedMediaSession.drive at hs
    split at hs
    · next o es' hstep =>
      rw [Option.some.injEq, Prod.mk.injEq] at hs
      obtain ⟨rfl, rfl⟩ := hs
      -- the callback enters the writer
      have hentered : FramedOutbound.system.step s.outbound (.spawn call) = some (o, es') := hstep
      have hran : FramedOutbound.system.Reaches (outs tr ++ es') o := h.writer.step trivial hentered
      have hauths : auths (tr ++ es'.map .out) = auths tr := by
        rw [auths_append, auths_out, List.append_nil]
      have houts : outs (tr ++ es'.map .out) = outs tr ++ es' := by rw [outs_append, outs_out]
      have hwriter : s.outbound.writer ≠ .unstarted := by
        obtain ⟨sid, hsid⟩ := Option.ne_none_iff_exists'.mp hsome
        exact (h.opened sid hsid).1
      refine ⟨?_, ?_, h.closing.step (fun calls hl => by cases hl) (fun _ => hwriter) hstep,
        fun hnone => absurd hnone hsome, fun sid hsid => ⟨?_, ?_⟩, fun f hf => ?_,
        h.acted.append (justified_out s.gate es')⟩
      · rw [hauths]
        exact h.owner
      · rw [houts]
        exact hran
      · exact FramedOutbound.started_step hwriter hstep
      · rcases (h.opened sid hsid).2 with hw | hr
        · exact .inl (hw.enter h.owner hreturned hcb hstep)
        · right
          rw [houts]
          exact hr.step h.closing hstep
      · obtain ⟨sid, hsid, hg⟩ := h.allowed f hf
        exact ⟨sid, hsid, hg.append _⟩
    · cases hs
  · next rest hcb =>
    -- the callback asks the owner again before it sends the capabilities
    have hsettled := h.settled_of_head hreturned hcb rfl
    have hsome := hgate (by rw [hcb]; exact List.cons_ne_nil _ _)
    have hpopped : Gated stored tr { s with callbacks := rest } := by
      refine h.callbacks hsettled (fun hnone => absurd hnone hsome) ?_ fun hplain =>
        .inl fun cb hmem => ?_
      · rw [hcb]
        simp [Callback.sends]
      · exact hplain cb (hcb ▸ List.mem_cons_of_mem _ hmem)
    split at hs
    · next s₁ es₁ caps hp =>
      rw [Option.some.injEq, Prod.mk.injEq] at hs
      obtain ⟨rfl, rfl⟩ := hs
      obtain ⟨hasked, ⟨hgate₁, houtbound, -⟩, houts, hyes⟩ := hpopped.ask hsettled hp
      obtain ⟨sid, -, -, hr⟩ := hyes rfl
      have hr₁ : FramedOutbound.Released (outs (tr ++ es₁)) s₁.outbound := by
        rw [houts, houtbound]
        exact hr
      refine hasked.callbacks (fun _ _ => .inr hr₁) (fun hnone => ?_) ?_ fun _ => .inr hr₁
      · rw [hgate₁] at hnone
        exact absurd hnone hsome
      · simp [Callback.sends]
    · next s₁ es₁ yes hp _ =>
      rw [Option.some.injEq, Prod.mk.injEq] at hs
      obtain ⟨rfl, rfl⟩ := hs
      exact (hpopped.ask hsettled hp).1
  · next rest hcb =>
    rw [Option.some.injEq, Prod.mk.injEq] at hs
    obtain ⟨rfl, rfl⟩ := hs
    rw [List.append_nil]
    have hsome := hgate (by rw [hcb]; exact List.cons_ne_nil _ _)
    -- a callback that ends the session stops the video and closes the writer
    refine h.callbacks (h.settled_of_head hreturned hcb rfl) (fun hnone => absurd hnone hsome) ?_
      fun hplain => .inl fun cb hmem => ?_
    · rw [hcb]
      cases ends <;> simp [Callback.sends]
    · rcases List.mem_append.mp hmem with hmem | hmem
      · cases ends with
        | false => cases hmem
        | true =>
          simp only [if_true, List.mem_cons, List.not_mem_nil, or_false] at hmem
          rcases hmem with rfl | rfl <;> rfl
      · exact hplain cb (hcb ▸ List.mem_cons_of_mem _ hmem)

/-- The dispatcher acts on a frame that was let through. -/
theorem Gated.act (h : Gated stored tr s) {now : ℤ} {c : Clock} {frame : HostFrame}
    (hreader : s.reader = .allowed frame) (hs : s.act now c frame = some (s', es)) :
    Gated stored (tr ++ es) s' := by
  obtain ⟨sid, hgate, hg⟩ := h.allowed frame hreader
  have hreleased : FramedOutbound.Released (outs tr) s.outbound := by
    rcases (h.opened sid hgate).2 with hw | hr
    · exact absurd hreader (hw.reader frame)
    · exact hr
  have hsome : s.gate ≠ none := by
    rw [hgate]
    exact Option.some_ne_none sid
  unfold AuthorizedMediaSession.act at hs
  simp only at hs
  generalize s.control.dispatch now frame = q at hs
  obtain ⟨control, action⟩ := q
  have hread (reader : Reader) (hne : ∀ f, reader ≠ .allowed f) :
      Gated stored tr { s with control, reader } :=
    h.reads control reader fun f hf => absurd hf (hne f)
  have hidle := hread .idle fun f hf => by cases hf
  -- a call of the writer from the reader's thread
  have hspawned (a : SessionControl.Action) (call : FramedOutbound.Call) (hne : call ≠ .close)
      {es' : List Event} (hs : AuthorizedMediaSession.drive { s with control, reader := .idle }
        (.spawn call) = some (s', es')) : Gated stored (tr ++ Event.acted a :: es') s' := by
    have hacted := hidle.acts a ⟨sid, hgate, hg⟩
    have houts : outs (tr ++ [Event.acted a]) = outs tr := by
      rw [outs_append]
      exact List.append_nil _
    have hdriven := hacted.drive hs (.inr ⟨hsome, by rw [houts]; exact hreleased⟩)
      ⟨(fun calls hl => by cases hl), fun hl => absurd (FramedOutbound.Label.spawn.inj hl) hne⟩
    rw [List.append_assoc] at hdriven
    exact hdriven
  split at hs
  · rw [Option.some.injEq, Prod.mk.injEq] at hs
    obtain ⟨rfl, rfl⟩ := hs
    rw [List.append_nil]
    exact hread .ended fun f hf => by cases hf
  · rw [Option.some.injEq, Prod.mk.injEq] at hs
    obtain ⟨rfl, rfl⟩ := hs
    rw [List.append_nil]
    exact hidle
  · next request payload =>
    rw [Option.map_eq_some_iff] at hs
    obtain ⟨⟨s₁, es₁⟩, hdrive, heq⟩ := hs
    rw [Prod.mk.injEq] at heq
    obtain ⟨rfl, rfl⟩ := heq
    exact hspawned _ _ (fun hclose => by cases hclose) hdrive
  · rw [Option.map_eq_some_iff] at hs
    obtain ⟨⟨s₁, es₁⟩, hdrive, heq⟩ := hs
    rw [Prod.mk.injEq] at heq
    obtain ⟨rfl, rfl⟩ := heq
    exact hspawned _ _ (fun hclose => by cases hclose) hdrive
  · next command =>
    rw [Option.some.injEq, Prod.mk.injEq] at hs
    obtain ⟨rfl, rfl⟩ := hs
    exact hidle.acts _ ⟨sid, hgate, hg⟩
  · rw [Option.map_eq_some_iff] at hs
    obtain ⟨⟨s₁, es₁⟩, hgated, heq⟩ := hs
    rw [Prod.mk.injEq] at heq
    obtain ⟨rfl, rfl⟩ := heq
    have hacted := (hidle.acts .hello ⟨sid, hgate, hg⟩).onGate hgated fun _ => rfl
    rw [List.append_assoc] at hacted
    exact hacted

theorem internal_plain {l : FramedOutbound.Label} (h : internal l = true) :
    (∀ calls, l ≠ .ui calls) ∧ (∀ call, l ≠ .spawn call) := by
  cases l <;> simp_all [internal]

/-- Every step of the session keeps it. -/
theorem Gated.step (h : Gated stored tr s) {l : Label}
    (hs : AuthorizedMediaSession.step s l = some (s', es)) : Gated stored (tr ++ es) s' := by
  cases l with
  | startMedia =>
    exact h.drive hs (.inl ⟨(fun calls hl => by cases hl), fun call hl => by cases hl⟩)
      ⟨(fun calls hl => by cases hl), fun hl => by cases hl⟩
  | openSession c nonce =>
    simp only [AuthorizedMediaSession.step] at hs
    split at hs
    · next hguard =>
      rw [Option.some.injEq] at hs
      obtain rfl : s' = (s.openGate c nonce).1 := (congrArg Prod.fst hs).symm
      obtain rfl : es = (s.openGate c nonce).2 := (congrArg Prod.snd hs).symm
      simp only [Bool.and_eq_true, Option.isNone_iff_eq_none] at hguard
      exact h.openGate hguard.1.1 hguard.1.2 c nonce
    · cases hs
  | challenge c => exact h.onGate hs fun _ => rfl
  | closeGate c => exact h.onGate hs fun _ => rfl
  | owner l =>
    simp only [AuthorizedMediaSession.step] at hs
    split at hs
    · next hadmits =>
      rw [Option.map_eq_some_iff] at hs
      obtain ⟨⟨th, told⟩, hstep, hq⟩ := hs
      obtain rfl : s' = (s.after (th, told)).1 := (congrArg Prod.fst hq).symm
      obtain rfl : es = told.map .auth := (congrArg Prod.snd hq).symm
      have hreach := h.owner.step trivial hstep
      by_cases hun : s.unlocked = true
      · have htold : Tells told := tells_of_step hstep
        exact h.section (q := (th, told)) hun hreach htold
      · -- beside the lock's holder only a call is entered, or a section outside the lock runs
        have hquiet : Silent told ∧ callbacksOf s.gate told = [] := by
          cases moved_of_step hstep with
          | call call =>
            refine ⟨by simp [Silent], ?_⟩
            cases s.gate <;> rfl
          | @task thread c written t ts hj =>
            have hfree : t.locked = false := by
              simp only [admits, hj, Option.bind_some, List.head?_cons, Option.all_some,
                Bool.or_eq_true, Bool.not_eq_true'] at hadmits
              exact hadmits.resolve_left hun
            cases t with
            | stored write =>
              simp only [runTask]
              split <;> exact ⟨by simp [Silent], by cases s.gate <;> rfl⟩
            | write write now =>
              simp only [runTask]
              split <;> exact ⟨by simp [Silent], by cases s.gate <;> rfl⟩
            | _ => cases hfree
        exact h.after (q := (th, told)) hreach fun sid _ hw =>
          .inl (hw.silent (q := (th, told)) hquiet.1 (.inl hquiet.2))
    · cases hs
  | outbound l =>
    simp only [AuthorizedMediaSession.step] at hs
    split at hs
    · next hinternal =>
      obtain ⟨hui, hspawn⟩ := internal_plain hinternal
      exact h.drive hs (.inl ⟨hui, fun call hl => absurd hl (hspawn call)⟩)
        ⟨fun calls hl => absurd hl (hui calls), fun hl => absurd hl (hspawn _)⟩
    · cases hs
  | ui call c =>
    simp only [AuthorizedMediaSession.step, Bool.and_eq_true] at hs
    split at hs
    · next hguard =>
      refine h.pass hguard.2 hs ⟨fun calls hl => ?_, fun hl => by cases hl⟩
      rw [← FramedOutbound.Label.ui.inj hl]
      intro hclose
      rw [← List.mem_singleton.mp hclose] at hguard
      cases hguard.1
    · cases hs
  | producer call c =>
    simp only [AuthorizedMediaSession.step, Bool.and_eq_true] at hs
    split at hs
    · next hguard =>
      refine h.pass hguard.2 hs ⟨(fun calls hl => by cases hl), fun hl => ?_⟩
      rw [FramedOutbound.Label.spawn.inj hl] at hguard
      cases hguard.1
    · cases hs
  | stopVideo =>
    have hdrive : s.drive (.spawn .stopVideo) = some (s', es) := hs
    refine h.drive hdrive (.inl ⟨(fun calls hl => by cases hl), fun call hl => .inl ?_⟩)
      ⟨(fun calls hl => by cases hl), fun hl => by cases hl⟩
    exact (FramedOutbound.Label.spawn.inj hl).symm
  | closeOutbound =>
    simp only [AuthorizedMediaSession.step] at hs
    split at hs
    · next hstarted =>
      refine h.drive hs (.inl ⟨(fun calls hl => by cases hl), fun call hl => .inr ?_⟩)
        ⟨(fun calls hl => by cases hl), fun _ => ?_⟩
      · exact (FramedOutbound.Label.spawn.inj hl).symm
      · simpa [started] using hstarted
    · cases hs
  | callback c capabilities ends =>
    simp only [AuthorizedMediaSession.step] at hs
    split at hs
    · next hreturned => exact h.runCallback hreturned hs
    · cases hs
  | frame frame c =>
    simp only [AuthorizedMediaSession.step] at hs
    split at hs
    · next hguard =>
      generalize hp : s.permitted c = q at hs
      obtain ⟨s₁, es₁, yes⟩ := q
      rw [Option.some.injEq, Prod.mk.injEq] at hs
      obtain ⟨rfl, rfl⟩ := hs
      obtain ⟨hasked, ⟨hgate, houtbound, -⟩, houts, hyes⟩ := h.ask (h.settled hguard.2.2) hp
      refine hasked.reads s₁.control _ fun f hf => ?_
      cases yes with
      | false => cases hf
      | true =>
        obtain ⟨sid, hsome, hg, hr⟩ := hyes rfl
        refine ⟨sid, hgate.trans hsome, hg.append _, ?_⟩
        rw [houts, houtbound]
        exact hr
    · cases hs
  | receive c =>
    simp only [AuthorizedMediaSession.step] at hs
    split at hs
    · rw [Option.map_eq_some_iff] at hs
      obtain ⟨⟨s₁, es₁⟩, hreceive, heq⟩ := hs
      rw [Prod.mk.injEq] at heq
      obtain ⟨rfl, rfl⟩ := heq
      refine (h.onGate hreceive fun _ => rfl).reads s₁.control _ fun f hf => ?_
      split at hf <;> cases hf
    · cases hs
  | dispatch now c =>
    simp only [AuthorizedMediaSession.step] at hs
    split at hs
    · next hreader => exact h.act hreader hs
    · cases hs
  | readFailed =>
    simp only [AuthorizedMediaSession.step] at hs
    split at hs
    · rw [Option.some.injEq, Prod.mk.injEq] at hs
      obtain ⟨rfl, rfl⟩ := hs
      rw [List.append_nil]
      exact h.reads s.control .ended fun f hf => by cases hf
    · cases hs

/-- So does every run. -/
theorem gated_of_reaches (h : (system stored).Reaches tr s) : Gated stored tr s := by
  refine h.invariant (P := Gated stored) ?_ fun _ _ _ _ _ _ _ hi hs => hi.step hs
  rintro s ⟨transport, phoneBinding, now, auth, capacity, out, hauth, hnew, rfl⟩
  have hqueues : out.controlQueue = [] ∧ out.videoQueue = [] ∧ out.controlOverflowed = false := by
    unfold FramedOutbound.new at hnew
    split at hnew
    · rw [← Option.some.inj hnew]
      exact ⟨rfl, rfl, rfl⟩
    · cases hnew
  refine ⟨.start hauth, .start ⟨capacity, out, hnew, rfl⟩, ?_, fun _ => ⟨rfl, ?_, ?_, ?_⟩,
    fun sid hgate => ?_, fun f hf => ?_, each_nil⟩
  · exact ⟨List.not_mem_nil, (fun p hp => by cases hp), fun p hp => by cases hp⟩
  · refine ⟨rfl, fun p hp => (by cases hp), fun f hf => ?_, hqueues.2.1, hqueues.2.2⟩
    have hline : FramedOutbound.line [] (FramedOutbound.idle out) = out.controlQueue := rfl
    change f ∈ FramedOutbound.line [] (FramedOutbound.idle out) at hf
    rw [hline, hqueues.1] at hf
    cases hf
  · show out.controlQueue.length + 0 = 0
    rw [hqueues.1]
    rfl
  · intro f hf
    cases hf
  · cases hgate
  · cases hf

/-! ## A frame that is refused -/

/-- Unless it is the proof that the session waits for, a received frame closes the session, which is
sent nothing. -/
theorem receive_refused {a : PhoneAuthorization P} (c : Clock) {type : FrameType}
    {proof : Option ClientAuth}
    (h : ∀ g, type = .clientAuth → proof.isSome = true → ¬ Proving a sid g) :
    (∀ g, (a.receive c sid type proof).1.sessions[sid]? = some g → g.phase = .closed) ∧
      Silent (a.receive c sid type proof).2 := by
  have htick := shuts_tickLocked a c sid
  have hlive := tickLocked_live a c sid
  unfold receive
  generalize a.tickLocked c sid = q at htick hlive ⊢
  obtain ⟨a₁, es₁⟩ := q
  simp only
  rcases receiveProof_cases a₁ c sid type proof with hq | ⟨g, p, b, es, -, -, hb, hq⟩ |
    ⟨g, p, message, d, phase, r, rfl, rfl, hp, -, -, -, -, hq⟩ <;> rw [hq]
  · refine ⟨fun g hg => finish_closed a₁ c sid _ hg, fun i t p hmem => ?_⟩
    simp only [List.append_nil] at hmem
    rcases List.mem_append.mp hmem with hmem | hmem
    · exact htick.2.silent i t p hmem
    · exact (shuts_finish a₁ c sid _).2.silent i t p hmem
  · refine ⟨fun g hg => finish_closed b c sid _ hg, fun i t p hmem => ?_⟩
    simp only [List.mem_append, List.mem_cons, reduceCtorEq, false_or] at hmem
    rcases hmem with (hmem | hmem) | hmem
    · exact htick.2.silent i t p hmem
    · exact hb.2.silent i t p hmem
    · exact (shuts_finish b c sid _).2.silent i t p hmem
  · -- the tick leaves a session that waits for its proof as it was
    obtain ⟨hsame, -⟩ := hlive g hp.session hp.active (.inl hp.phase)
    obtain ⟨rfl, rfl⟩ := Prod.mk.inj hsame
    exact absurd hp (h g rfl rfl)

/-- The frame is not the one proof of the session. -/
def Stray (tr : List Event) (s : AuthorizedMediaSession P) (frame : HostFrame) : Prop :=
  frame.header.type = .clientAuth → frame.proof.isSome = true →
    ∃ sid, s.gate = some sid ∧ proofsOf sid (auths tr) ≠ []

/-- The reader and the session have ended, and nothing was sent or acted on. -/
structure EndsSession (s : AuthorizedMediaSession P) (es : List Event) : Prop where
  reader : s.reader = .ended
  closed : ∀ sid g, s.gate = some sid → s.auth.owner.sessions[sid]? = some g → g.phase = .closed
  silent : Silent (auths es)
  unwritten : outs es = []
  idle : ∀ action, .acted action ∉ es

/-- A frame before the outcome that is not the one proof ends the session. -/
theorem stray_ends (h : (system stored).Reaches tr s) {c : Clock} {frame : HostFrame}
    (hreader : s.reader = .refused frame) (hstray : Stray tr s frame)
    (hs : AuthorizedMediaSession.step s (.receive c) = some (s', es)) : EndsSession s' es := by
  simp only [AuthorizedMediaSession.step, hreader, Option.map_eq_some_iff] at hs
  obtain ⟨⟨s₁, es₁⟩, hreceive, heq⟩ := hs
  rw [Prod.mk.injEq] at heq
  obtain ⟨rfl, rfl⟩ := heq
  unfold onGate at hreceive
  split at hreceive
  · cases hreceive
  next sid hgate =>
  split at hreceive
  · rw [Option.some.injEq] at hreceive
    obtain rfl : s₁ = _ := (congrArg Prod.fst hreceive).symm
    obtain rfl : es₁ = _ := (congrArg Prod.snd hreceive).symm
    -- a session that waits for its proof has had none
    have hunproved (g : Session) (htype : frame.header.type = .clientAuth)
        (hproof : frame.proof.isSome = true) : ¬ Proving s.auth.owner sid g := by
      intro hp
      obtain ⟨i, hi, hne⟩ := hstray htype hproof
      rw [hgate, Option.some.injEq] at hi
      subst hi
      exact hne (((sessions_ok (gated_of_reaches h).owner).session sid g hp.session).unproved
        (.inr hp.phase))
    obtain ⟨hclosed, hsilent⟩ := receive_refused c hunproved
    have hall :
        ∀ g, (s.auth.owner.receive c sid frame.header.type frame.proof).1.sessions[sid]? = some g →
        (g.phase == .closed) = true := fun g hg => by rw [hclosed g hg]; rfl
    refine ⟨?_, fun i g hi hg => ?_, ?_, outs_auth _, fun action hmem => ?_⟩
    · unfold afterReceive
      dsimp only
      rw [if_pos]
      show ((s.gate.bind fun i =>
        (s.auth.owner.receive c sid frame.header.type frame.proof).1.sessions[i]?).all
        fun g => g.phase == .closed) = true
      rw [hgate, Option.bind_some]
      cases hq : (s.auth.owner.receive c sid frame.header.type frame.proof).1.sessions[sid]? with
      | none => rfl
      | some g => exact hall g hq
    · have hi : s.gate = some i := hi
      rw [hgate, Option.some.injEq] at hi
      subst hi
      exact hclosed g hg
    · show Silent (auths (List.map Event.auth _))
      rw [auths_auth]
      intro i type payload hmem
      rcases List.mem_cons.mp hmem with hmem | hmem
      · cases hmem
      · exact hsilent i type payload hmem
    · obtain ⟨e, -, he⟩ := List.mem_map.mp hmem
      cases he
  · cases hreceive

/-- **The gate orders the session.** On the wire everything but challenges and outcomes comes after
the outcome that authorizes, nothing is acted on before it was sent, and a frame read before it
that is not the one proof ends the session. -/
theorem gate_orders_session (h : (system stored).Reaches tr s) :
    Each FramedOutbound.Authorized (FramedOutbound.written (outs tr)) ∧ Each (Justified s.gate) tr ∧
      ∀ c frame s' es, s.reader = .refused frame → Stray tr s frame →
        AuthorizedMediaSession.step s (.receive c) = some (s', es) → EndsSession s' es := by
  have hgated := gated_of_reaches h
  have hreleased (hr : FramedOutbound.Released (outs tr) s.outbound) :
      Each FramedOutbound.Authorized (FramedOutbound.written (outs tr)) := Each.of_append hr.gated
  have hsealed (hq : FramedOutbound.Sealed (outs tr) s.outbound) :
      Each FramedOutbound.Authorized (FramedOutbound.written (outs tr)) := by
    apply each_of_forall
    intro x f hf hn
    have hauth := hq.frames f (List.mem_append_left _ hf)
    rw [hn] at hauth
    cases hauth
  refine ⟨?_, hgated.acted, fun c frame s' es hreader hstray hs => stray_ends h hreader hstray hs⟩
  cases hgate : s.gate with
  | none => exact hsealed (hgated.unopened hgate).2.1
  | some sid =>
    rcases (hgated.opened sid hgate).2 with hw | hr
    · exact hsealed hw.frames
    · exact hreleased hr

/-! ## Two runs -/

/-- The list of a phone that knows the PC. -/
def knownList : ClientRepository tiny :=
  ⟨[⟨deriveClientId tiny (tinyKey 7), tinyKey 7, ['p', 'c'], 100, 100 + EXPIRY_SECONDS⟩], true,
    by decide⟩

/-- The proof of the PC on the list. -/
def proofFrame : HostFrame where
  header := { type := .clientAuth, sequence := 1 }
  payload := []
  proof := some (tinyProof 7)
  command := none

/-- A keep-alive behind it. -/
def pingFrame : HostFrame where
  header := { type := .ping, sequence := 2 }
  payload := []
  proof := none
  command := none

/-- A session over the cable, for a phone that knows the PC. -/
def onCable : AuthorizedMediaSession tiny :=
  constructed .usb zeros 0 (fresh knownList) ((FramedOutbound.new 1).get rfl)

/-- A thread of the writer brings a control frame to the queue. -/
def queued (thread : ℕ) : List Label := List.replicate 4 (Label.outbound (.step thread))

/-- The session is open, and its challenge is in the queue. -/
def challenged : List Label :=
  [Label.startMedia, .openSession (noon 200) zeros, .challenge (noon 200),
    .callback (noon 200) none true] ++ queued 0 ++ [Label.callback (noon 200) none true]

/-- A PC that is known connects and pings; the phone tells it what it offers. -/
def pinged : List Label :=
  challenged ++
    [Label.frame proofFrame (noon 200), .receive (noon 200),
      .callback (noon 200) none true] ++ queued 1 ++
    [Label.callback (noon 200) (some ⟨1, .ready, 1, 0, []⟩) true, .callback (noon 200) none true] ++
    queued 2 ++ [Label.frame pingFrame (noon 200), .dispatch 0 (noon 200)] ++
    List.replicate 3 (Label.outbound (.step 3)) ++ List.replicate 12 (Label.outbound .writerStep)

/-- The ping is answered behind the outcome, and without one it ends the session. -/
theorem gate_orders_session_pinged :
    (FramedOutbound.written (outs ((system knownList).trace onCable pinged))).map (·.header.type) =
      [.clientChallenge, .clientAuthResult, .qualityCapabilities, .pong] ∧
    Each FramedOutbound.Authorized
      (FramedOutbound.written (outs ((system knownList).trace onCable pinged))) ∧
    ∃ s es, AuthorizedMediaSession.step
      ((system knownList).final onCable (challenged ++ [.frame pingFrame (noon 200)]))
      (.receive (noon 200)) = some (s, es) ∧ EndsSession s es := by
  have hstart : (system knownList).start onCable :=
    ⟨.usb, zeros, 0, fresh knownList, 1, (FramedOutbound.new 1).get rfl, rfl, rfl, rfl⟩
  have hr := EventSystem.reaches_trace pinged hstart (by decide +kernel)
  have hr' := EventSystem.reaches_trace (challenged ++ [Label.frame pingFrame (noon 200)]) hstart
    (by decide +kernel)
  refine ⟨by decide +kernel, (gate_orders_session hr).1, _, _, rfl,
    (gate_orders_session hr').2.2 (noon 200) pingFrame _ _ rfl (fun htype => ?_) rfl⟩
  cases htype

end AuthorizedMediaSession
end MobileWebcamBridge
