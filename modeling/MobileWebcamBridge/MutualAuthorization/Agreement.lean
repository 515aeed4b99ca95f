import MobileWebcamBridge.MutualAuthorization.Exchanges
import MobileWebcamBridge.Phone.PhoneAuthorization.Frames
import MobileWebcamBridge.Transcript
import MobileWebcamBridge.WireAgreement

/-!
# What an authorization means

The PC reads the frames of the phone's sessions in their order, and a session only grants a proof
that some exchange signed over that session's own nonce. So an exchange that reads `AUTHORIZED` has
itself answered the challenge of the session that granted: an earlier exchange that had would have
read that challenge before this one read its own, and the frames of earlier sessions come first.
-/

set_option autoImplicit false

namespace MobileWebcamBridge
namespace MutualAuthorization

open HostAuth Wire Trace Bytes

variable {P : Platform} {pc : Pc} {wire : ℕ → Bool} {stored : ClientRepository P}
variable {e : ℕ} {s s' : State P} {tr es : List Event}

/-! ## The phone's part of a run -/

/-- The phone's event, if it is one. -/
def Event.phone? : Event → Option PhoneAuthorization.Event
  | .phone event => some event
  | _ => none

/-- The phone's events. -/
def phoneEvents (tr : List Event) : List PhoneAuthorization.Event := tr.filterMap Event.phone?

theorem phoneEvents_append (tr es : List Event) :
    phoneEvents (tr ++ es) = phoneEvents tr ++ phoneEvents es := List.filterMap_append

/-- The phone's events of a run. -/
theorem mem_phoneEvents {event : PhoneAuthorization.Event} :
    event ∈ phoneEvents tr ↔ .phone event ∈ tr := by
  rw [phoneEvents, List.mem_filterMap]
  constructor
  · rintro ⟨ev, hev, h⟩
    cases ev <;> simp only [Event.phone?, reduceCtorEq] at h
    rw [Option.some.injEq] at h
    exact h ▸ hev
  · exact fun h => ⟨_, h, rfl⟩

theorem phoneEvents_map (es : List PhoneAuthorization.Event) :
    phoneEvents (es.map .phone) = es := by
  unfold phoneEvents
  rw [List.filterMap_map]
  exact List.filterMap_some

theorem phoneEvents_eq_nil (h : ∀ ev ∈ es, ev.phone? = none) : phoneEvents es = [] :=
  List.filterMap_eq_nil_iff.mpr h

/-- The exchange's events are not the phone's. -/
theorem OwnedBy.phoneEvents (h : OwnedBy e es) : phoneEvents es = [] := by
  apply phoneEvents_eq_nil
  intro ev hev
  have hnumber := h ev hev
  cases ev <;> first | rfl | cases hnumber

/-- The phone runs as it does alone. -/
theorem phone_reaches (h : (system pc wire stored).Reaches tr s) :
    (PhoneAuthorization.system stored).Reaches (phoneEvents tr) s.phone := by
  refine h.invariant (P := fun tr s =>
    (PhoneAuthorization.system stored).Reaches (phoneEvents tr) s.phone) ?_ ?_
  · rintro s rfl
    exact .start rfl
  · intro tr s l s' es _ _ hi hs
    cases moved_of_step hs with
    | phone hstep =>
      rw [phoneEvents_append, phoneEvents_map]
      exact .step hi trivial hstep
    | injected f =>
      rw [phoneEvents_append]
      show (PhoneAuthorization.system stored).Reaches (phoneEvents tr ++ []) s.phone
      rwa [List.append_nil]
    | lost _ => rwa [List.append_nil]
    | started _ =>
      rw [phoneEvents_append]
      show (PhoneAuthorization.system stored).Reaches (phoneEvents tr ++ []) s.phone
      rwa [List.append_nil]
    | @turned e x es next toHost toPhone _ hturn _ =>
      have hnil : phoneEvents (es ++ ({ s with toHost, toPhone }.settle e next).2) = [] := by
        rw [phoneEvents_append, hturn.owned.phoneEvents, (owned_settle _ _ _).phoneEvents]
        rfl
      rw [phoneEvents_append, hnil, List.append_nil]
      cases next <;> exact hi

/-! ## The channel to the PC -/

/-- The frame an event puts on the channel. -/
def Event.frame? (wire : ℕ → Bool) : Event → Option (Option ℕ × Received)
  | .phone event => onLink wire event
  | .injected f => some (none, f)
  | _ => none

/-- Everything that was ever put on the channel. -/
def line (wire : ℕ → Bool) (tr : List Event) : List (Option ℕ × Received) :=
  tr.filterMap (Event.frame? wire)

/-- The line of two parts. -/
theorem line_append (tr es : List Event) : line wire (tr ++ es) = line wire tr ++ line wire es :=
  List.filterMap_append

theorem OwnedBy.line (h : OwnedBy e es) : line wire es = [] := by
  apply List.filterMap_eq_nil_iff.mpr
  intro ev hev
  have hnumber := h ev hev
  cases ev <;> first | rfl | cases hnumber

theorem reads_settle (s : State P) (e : ℕ) (next : Next) : reads (s.settle e next).2 = [] := by
  cases next <;> rfl

theorem toHost_settle (s : State P) (e : ℕ) (next : Next) :
    (s.settle e next).1.toHost = s.toHost := by
  cases next <;> rfl

/-- What was read, and what is still on the channel, was put there in this order. -/
theorem sublist_line (h : (system pc wire stored).Reaches tr s) :
    ((reads tr).map Prod.snd ++ s.toHost).Sublist (line wire tr) := by
  refine h.invariant (P := fun tr s =>
    ((reads tr).map Prod.snd ++ s.toHost).Sublist (line wire tr)) ?_ ?_
  · rintro s rfl
    exact List.Sublist.refl _
  · intro tr s l s' es _ _ hi hs
    rw [reads_append, line_append]
    cases moved_of_step hs with
    | @phone _ _ fs _ hstep =>
      have hnil : reads (fs.map Event.phone) = [] := by
        apply List.filterMap_eq_nil_iff.mpr
        intro ev hev
        obtain ⟨p, -, rfl⟩ := List.mem_map.mp hev
        rfl
      have hline : line wire (fs.map .phone) = fs.filterMap (onLink wire) := by
        unfold line
        rw [List.filterMap_map]
        rfl
      rw [hnil, hline, List.append_nil, ← List.append_assoc]
      exact hi.append_right _
    | injected f =>
      simp only [reads, List.filterMap_cons, Event.read?, List.filterMap_nil, List.append_nil]
      rw [← List.append_assoc]
      exact hi.append_right [(none, f)]
    | lost hsub =>
      simp only [reads, line, List.filterMap_nil, List.append_nil]
      exact (List.Sublist.append (List.Sublist.refl _) hsub).trans hi
    | started _ =>
      show (((reads tr ++ []).map Prod.snd) ++ s.toHost).Sublist (line wire tr ++ [])
      rwa [List.append_nil, List.append_nil]
    | @turned e x es next toHost toPhone hcurrent hturn hchannel =>
      rw [reads_append, line_append, hturn.owned.line, (owned_settle _ _ _).line, reads_settle,
        toHost_settle, List.append_nil, List.append_nil, List.append_nil, List.map_append,
        List.append_assoc, ← hchannel]
      exact hi

/-- `m'` may come after `m` on the channel. -/
def Behind (m m' : Option ℕ × Received) : Prop :=
  ∀ i j, m.1 = some i → m'.1 = some j →
    i ≤ j ∧ (i = j → m'.2.kind ≠ HostWire.CLIENT_CHALLENGE)

/-- A frame of a session on the channel is one the phone sent for it. -/
theorem onLink_some {event : PhoneAuthorization.Event} {m : Option ℕ × Received}
    (h : onLink wire event = some m) : ∃ sid type payload, event = .sent sid type payload ∧
      wire sid = true ∧ m = (some sid, ⟨(WireCodec.typeByte type).toUInt8,
        WireCodec.payloadBytes payload⟩) := by
  unfold onLink at h
  split at h
  · next sid type payload =>
    split at h
    · next hover => exact ⟨sid, type, payload, rfl, hover, (Option.some.inj h).symm⟩
    · cases h
  · cases h

/-- The two types a session sends, by their byte. -/
theorem challenge_of_kind {type : FrameType}
    (ht : type = .clientChallenge ∨ type = .clientAuthResult)
    (hk : (WireCodec.typeByte type).toUInt8 = HostWire.CLIENT_CHALLENGE) :
    type = .clientChallenge := by
  rcases ht with rfl | rfl
  · rfl
  · cases hk

/-- What the phone sends is a challenge or an outcome. -/
theorem framed_type {type : FrameType} {payload : Payload} {k : ℕ}
    (h : (system pc wire stored).Reaches tr s) (hsent : .phone (.sent k type payload) ∈ tr) :
    (type = .clientChallenge ∧ ∃ transport phoneBinding nonce,
      .phone (.opened k transport phoneBinding nonce) ∈ tr ∧
        encodeClientChallenge ⟨transport, phoneBinding, nonce⟩ = some payload) ∨
    (type = .clientAuthResult ∧ ∃ r, encodeClientAuthResult r = some payload) := by
  have hframed := PhoneAuthorization.framed (phone_reaches h) _ (mem_phoneEvents.mpr hsent)
  rcases hframed k type payload rfl with ⟨htype, t, b, n, hopened, henc⟩ | hresult
  · exact .inl ⟨htype, t, b, n, mem_phoneEvents.mp hopened, henc⟩
  · exact .inr hresult

/-- Frames of one session stand in their order on the line. -/
theorem line_ordered (h : (system pc wire stored).Reaches tr s) :
    (line wire tr).Pairwise Behind := by
  have hordered := (PhoneAuthorization.lined (phone_reaches h)).ordered
  unfold PhoneAuthorization.frames phoneEvents at hordered
  rw [List.pairwise_filterMap, List.pairwise_filterMap] at hordered
  unfold line
  rw [List.pairwise_filterMap]
  refine hordered.imp_of_mem ?_
  intro ev ev' _ hev' hrel m hm m' hm' i j hi hj
  -- a frame of a session is one the phone sent
  cases ev with
  | phone event =>
    cases ev' with
    | phone event' =>
      obtain ⟨k, type, payload, rfl, -, rfl⟩ := onLink_some hm
      obtain ⟨k', type', payload', rfl, -, rfl⟩ := onLink_some hm'
      obtain rfl := Option.some.inj hi
      obtain rfl := Option.some.inj hj
      obtain ⟨hle, honce⟩ := hrel _ rfl _ rfl _ rfl _ rfl
      refine ⟨hle, fun hsame hkind => honce hsame ?_⟩
      have htype : type' = .clientChallenge ∨ type' = .clientAuthResult := by
        rcases framed_type h hev' with ⟨ht, -⟩ | ⟨ht, -⟩
        · exact .inl ht
        · exact .inr ht
      exact challenge_of_kind htype hkind
    | injected f =>
      obtain rfl := Option.some.inj hm'
      cases hj
    | _ => cases hm'
  | injected f =>
    obtain rfl := Option.some.inj hm
    cases hi
  | _ => cases hm

/-! ## What the frames of a session say -/

/-- A frame with a session on the line was sent to it. -/
theorem mem_line_some {k : ℕ} {f : Received} (h : (some k, f) ∈ line wire tr) :
    wire k = true ∧ ∃ type payload, .phone (.sent k type payload) ∈ tr ∧
      f = ⟨(WireCodec.typeByte type).toUInt8, WireCodec.payloadBytes payload⟩ := by
  obtain ⟨ev, hev, hframe⟩ := List.mem_filterMap.mp h
  cases ev with
  | phone event =>
    obtain ⟨sid, type, payload, rfl, hover, hm⟩ := onLink_some hframe
    obtain ⟨hk, hf⟩ := Prod.mk.inj hm
    obtain rfl := Option.some.inj hk
    exact ⟨hover, type, payload, hev, hf⟩
  | injected f => simp [Event.frame?] at hframe
  | _ => cases hframe

/-- A frame without a session on the line was put there. -/
theorem mem_line_none {f : Received} (h : (none, f) ∈ line wire tr) : .injected f ∈ tr := by
  obtain ⟨ev, hev, hframe⟩ := List.mem_filterMap.mp h
  cases ev with
  | phone event =>
    obtain ⟨sid, type, payload, rfl, hover, hm⟩ := onLink_some hframe
    cases hm
  | injected f' =>
    obtain rfl : f' = f := by simpa [Event.frame?] using hframe
    exact hev
  | _ => cases hframe

/-- The PC reads a challenge as the phone sent it. -/
theorem decode_challenge {c : ClientChallenge} {payload : Payload}
    (h : encodeClientChallenge c = some payload) :
    HostWire.ClientChallenge.decode (WireCodec.payloadBytes payload) = .ok
      { version := HostWire.CLIENT_AUTH_VERSION, transport := transportByte c.transport
        phoneBinding := c.phoneBinding, nonce := c.nonce } := by
  obtain ⟨bytes, hbytes, hread, -⟩ :=
    WireAgreement.challenge_read (P := WireAgreement.asciiPlatform)
    (D := WireAgreement.asciiDigits) ⟨payload, h⟩
  obtain rfl : WireCodec.payloadBytes payload = bytes := by
    simpa [WireAgreement.PhoneMessage.encode, h] using hbytes
  exact hread

/-- The PC reads an outcome as the phone sent it. -/
theorem decode_outcome {q : ClientAuthResult} {payload : Payload}
    (h : encodeClientAuthResult q = some payload) :
    payload = .clientAuthResult q ∧
    ∃ v, HostWire.ClientAuthResult.decode (WireCodec.payloadBytes payload) = .ok v ∧
      v.status = WireCodec.authStatusByte q.status ∧
      (v.expiresAtUnixSeconds.toNat : ℤ) = q.expiresAtUnixSeconds := by
  obtain ⟨bytes, hbytes, ⟨v, hdecode, hstatus, -, hexpires⟩, -⟩ :=
    WireAgreement.authResult_read (P := WireAgreement.asciiPlatform)
      (D := WireAgreement.asciiDigits) ⟨payload, h⟩
  obtain rfl : WireCodec.payloadBytes payload = bytes := by
    simpa [WireAgreement.PhoneMessage.encode, h] using hbytes
  refine ⟨?_, v, hdecode, hstatus, hexpires⟩
  unfold encodeClientAuthResult at h
  split at h
  · exact (Option.some.inj h).symm
  · cases h

/-- A challenge on the channel carries the nonce its session was opened with. -/
theorem nonce_of_challenge (h : (system pc wire stored).Reaches tr s) {k : ℕ} {f : Received}
    {c : HostWire.ClientChallenge} {route : Route} (hf : (some k, f) ∈ line wire tr)
    (hc : IsChallenge route f c) :
    wire k = true ∧ ∃ transport phoneBinding,
      .phone (.opened k transport phoneBinding c.nonce) ∈ tr := by
  obtain ⟨hover, type, payload, hsent, rfl⟩ := mem_line_some hf
  refine ⟨hover, ?_⟩
  rcases framed_type h hsent with ⟨-, t, b, n, hopened, henc⟩ | ⟨rfl, -⟩
  · have hsame := hc.decodes.symm.trans (decode_challenge henc)
    obtain rfl := Except.ok.inj hsame
    exact ⟨t, b, hopened⟩
  · have hkind : (WireCodec.typeByte .clientAuthResult).toUInt8 = HostWire.CLIENT_CHALLENGE :=
      hc.kind
    exact absurd hkind (by decide)

/-- An authorization on the channel is one the phone sent, with its expiry. -/
theorem sent_of_outcome (h : (system pc wire stored).Reaches tr s) {k : ℕ} {f : Received}
    {r : HostWire.ClientAuthResult} (hf : (some k, f) ∈ line wire tr) (hr : IsOutcome f r)
    (hauthorized : r.status = HostWire.AUTH_AUTHORIZED) :
    ∃ q : ClientAuthResult, .phone (.sent k .clientAuthResult (.clientAuthResult q)) ∈ tr ∧
      q.status = .authorized ∧ (r.expiresAtUnixSeconds.toNat : ℤ) = q.expiresAtUnixSeconds := by
  obtain ⟨-, type, payload, hsent, rfl⟩ := mem_line_some hf
  rcases framed_type h hsent with ⟨rfl, -⟩ | ⟨rfl, q, henc⟩
  · have hkind : (WireCodec.typeByte .clientChallenge).toUInt8 = HostWire.CLIENT_AUTH_RESULT :=
      hr.kind
    exact absurd hkind (by decide)
  · obtain ⟨rfl, v, hdecode, hstatus, hexpires⟩ := decode_outcome henc
    obtain rfl := Except.ok.inj (hr.decodes.symm.trans hdecode)
    refine ⟨q, hsent, ?_, hexpires⟩
    rw [hauthorized] at hstatus
    cases hq : q.status with
    | authorized => rfl
    | pending | rejected =>
      rw [hq] at hstatus
      exact absurd hstatus (by decide)

/-- The transcript a phone verifies and the one a PC signs are the same only over
the same fields. -/
theorem transcripts_agree {unsafeScalar : Char → Bool} {transport : AuthTransport}
    {hostTransport : UInt8}
    {phoneBinding nonce publicKey hostBinding hostNonce hostKey m : List UInt8}
    {label hostLabel : List Char}
    (hphone : clientAuthMessage P transport phoneBinding nonce publicKey label = some m)
    (hhost : HostWire.clientAuthMessage unsafeScalar hostTransport hostBinding hostNonce hostKey
      hostLabel = .ok m) :
    transportByte transport = hostTransport ∧ phoneBinding = hostBinding ∧ nonce = hostNonce ∧
      publicKey = hostKey := by
  let i : Transcript UInt8 (List UInt8) :=
    { transport := transportByte transport, phoneBinding, nonce, publicKey
      label := labelBytes label }
  let j : Transcript UInt8 (List Char) :=
    { transport := hostTransport, phoneBinding := hostBinding, nonce := hostNonce
      publicKey := hostKey, label := hostLabel }
  obtain ⟨-, hsized, hbytes⟩ := Transcript.hostMessage_ok (i := j) hhost
  have hi : i.Sized ∧ m = i.bytes := by
    unfold clientAuthMessage at hphone
    split at hphone
    · next hok =>
      simp only [Bool.and_eq_true, beq_iff_eq] at hok
      obtain ⟨⟨⟨⟨hbinding, hnonce⟩, hkey⟩, -⟩, -⟩ := hok
      simp only [phoneBindingValid, Bool.and_eq_true, beq_iff_eq] at hbinding
      refine ⟨⟨hbinding.1, hnonce, hkey⟩, ?_⟩
      rw [← Option.some.inj hphone]
      simp only [Transcript.bytes, List.append_assoc, i]
      rfl
    · cases hphone
  have hsame := Transcript.bytes_injective hi.1 hsized (hi.2.symm.trans hbytes)
  have hfields : i.transport = j.hostText.transport ∧ i.phoneBinding = j.hostText.phoneBinding ∧
      i.nonce = j.hostText.nonce ∧ i.publicKey = j.hostText.publicKey := by
    rw [hsame]
    exact ⟨rfl, rfl, rfl, rfl⟩
  exact hfields

/-! ## The session that granted -/

/-- Every authorization was sent by a session that held the phone's slot. -/
theorem live_when_sent (h : (system pc wire stored).Reaches tr s) {k : ℕ} {q : ClientAuthResult}
    (hsent : .phone (.sent k .clientAuthResult (.clientAuthResult q)) ∈ tr)
    (hq : q.status = .authorized) :
    ∃ tr₁ s₁, (system pc wire stored).Reaches tr₁ s₁ ∧ tr₁ <+: tr ∧
      .phone (.sent k .clientAuthResult (.clientAuthResult q)) ∈ tr₁ ∧
      PhoneAuthorization.Live s₁.phone.owner k := by
  have hall : ∀ k q, .phone (.sent k .clientAuthResult (.clientAuthResult q)) ∈ tr →
      q.status = .authorized → ∃ tr₁ s₁, (system pc wire stored).Reaches tr₁ s₁ ∧ tr₁ <+: tr ∧
        .phone (.sent k .clientAuthResult (.clientAuthResult q)) ∈ tr₁ ∧
        PhoneAuthorization.Live s₁.phone.owner k := by
    refine h.invariant (P := fun tr _ =>
      ∀ k q, .phone (.sent k .clientAuthResult (.clientAuthResult q)) ∈ tr →
        q.status = .authorized → ∃ tr₁ s₁, (system pc wire stored).Reaches tr₁ s₁ ∧ tr₁ <+: tr ∧
          .phone (.sent k .clientAuthResult (.clientAuthResult q)) ∈ tr₁ ∧
          PhoneAuthorization.Live s₁.phone.owner k) (fun _ _ k q hmem => by cases hmem) ?_
    intro tr s l s' es hr _ hi hs k q hmem hq
    by_cases hold : .phone (.sent k .clientAuthResult (.clientAuthResult q)) ∈ tr
    · obtain ⟨tr₁, s₁, hr₁, hprefix, hmem₁, hlive⟩ := hi k q hold hq
      exact ⟨tr₁, s₁, hr₁, hprefix.trans (List.prefix_append _ _), hmem₁, hlive⟩
    · -- the step that sends it leaves the session live
      have hnew := (List.mem_append.mp hmem).resolve_left hold
      refine ⟨tr ++ es, s', .step hr trivial hs, List.prefix_rfl, hmem, ?_⟩
      cases moved_of_step hs with
      | phone hstep =>
        obtain ⟨p, hp, hsame⟩ := List.mem_map.mp hnew
        obtain rfl := Event.phone.inj hsame
        exact PhoneAuthorization.live_of_step hstep hp hq
      | injected f => simp at hnew
      | lost _ => cases hnew
      | started _ => simp at hnew
      | turned _ hturn _ =>
        rcases List.mem_append.mp hnew with hnew | hnew
        · cases hturn.owned _ hnew
        · cases owned_settle _ _ _ _ hnew
  exact hall k q hsent hq

/-! ## Mutual authorization -/

/-- What else writes to the channel writes no frame of the authorization. -/
def Honest (tr : List Event) : Prop :=
  ∀ f, .injected f ∈ tr → f.kind ≠ HostWire.CLIENT_CHALLENGE ∧ f.kind ≠ HostWire.CLIENT_AUTH_RESULT

/-- No two sessions of the link have one nonce. -/
def FreshNonces (wire : ℕ → Bool) (tr : List Event) : Prop :=
  ∀ i j t b t' b' n, wire i = true → wire j = true → .phone (.opened i t b n) ∈ tr →
    .phone (.opened j t' b' n) ∈ tr → i = j

/-- A proof whose signature verifies for the transcript of its session is of a transcript that an
exchange with that key has signed. -/
def Unforged (P : Platform) (wire : ℕ → Bool) (tr : List Event) : Prop :=
  Each (fun x ev => ∀ k p t b n m, ev = .phone (.proof k p) → wire k = true →
    .phone (.opened k t b n) ∈ x → clientAuthMessage P t b n p.publicKey p.label = some m →
    P.verify p.publicKey m p.signature = true → ∃ e, .signed e p.publicKey m ∈ x) tr

/-- A session of the link that granted the key on the route: `tr₁` and `s₁` are the part of the run
up to the grant, and the proof followed a signature of exchange `e`. -/
structure Granted (wire : ℕ → Bool) (e : ℕ) (route : Route) (publicKey : List UInt8)
    (expires : UInt32) (tr₁ : List Event) (s₁ : State P) (k : ℕ)
    (session : PhoneAuthorization.Session) (p : ClientAuth) : Prop where
  onLink : wire k = true
  live : PhoneAuthorization.Live s₁.phone.owner k
  slot : s₁.phone.owner.sessions[k]? = some session
  candidate : session.candidate = some (PhoneAuthorization.candidateOf P p)
  verifies : PhoneAuthorization.Verifies P session p
  key : p.publicKey = publicKey
  transport : transportByte session.transport = route.transport
  phoneBinding : session.phoneBinding = route.phoneBinding
  sent : ∃ q : ClientAuthResult, .phone (.sent k .clientAuthResult (.clientAuthResult q)) ∈ tr₁ ∧
    q.status = .authorized ∧ q.expiresAtUnixSeconds = expires.toNat
  signed : ∃ message, Precedes tr₁ (.signed e publicKey message) (.phone (.proof k p))

theorem related_of_mem {α : Type} {R : α → α → Prop} {l : List α} (h : l.Pairwise R) {a b : α}
    (ha : a ∈ l) (hb : b ∈ l) : a = b ∨ R a b ∨ R b a := by
  induction h with
  | nil => cases ha
  | cons hhead _ ih =>
    rcases List.mem_cons.mp ha with rfl | ha' <;> rcases List.mem_cons.mp hb with rfl | hb'
    · exact .inl rfl
    · exact .inr (.inl (hhead b hb'))
    · exact .inr (.inr (hhead a ha'))
    · exact ih ha' hb'

/-- The frames that are read in a run. -/
theorem mem_reads {i : ℕ} {m : Option ℕ × Received} : (i, m) ∈ reads tr ↔ .read i m.1 m.2 ∈ tr := by
  rw [reads, List.mem_filterMap]
  constructor
  · rintro ⟨ev, hev, h⟩
    cases ev <;> simp only [Event.read?, reduceCtorEq] at h
    rw [Option.some.injEq] at h
    obtain ⟨rfl, rfl⟩ := Prod.mk.inj h
    exact hev
  · exact fun h => ⟨_, h, rfl⟩

/-- Exchanges read one after the other. -/
theorem reads_ordered (h : Histories pc tr s) :
    (reads tr).Pairwise fun r r' => r.1 ≤ r'.1 := by
  have hordered := h.ordered
  unfold numbers at hordered
  rw [List.pairwise_filterMap] at hordered
  unfold reads
  rw [List.pairwise_filterMap]
  refine hordered.imp ?_
  intro ev ev' hle r hr r' hr'
  cases ev <;> simp only [Event.read?, reduceCtorEq] at hr
  cases ev' <;> simp only [Event.read?, reduceCtorEq] at hr'
  obtain rfl := Option.some.inj hr
  obtain rfl := Option.some.inj hr'
  exact hle _ rfl _ rfl

/-- What a signature of any exchange follows: it read a challenge for its route. -/
theorem challenge_of_signed (h : Histories pc tr s) {i : ℕ} {key message : List UInt8}
    (hsigned : .signed i key message ∈ tr) :
    ∃ route origin f c label, (i, origin, f) ∈ reads tr ∧ IsChallenge route f c ∧
      HostWire.clientAuthMessage pc.unsafeScalar route.transport route.phoneBinding
        c.nonce key label =
        .ok message := by
  have hmem : .signed i key message ∈ about i tr := mem_about.mpr ⟨hsigned, rfl⟩
  have hbegun : i < s.begun := h.lt_begun (List.mem_filterMap.mpr ⟨_, hsigned, rfl⟩)
  obtain ⟨route, publicKey, htold⟩ := h.told i hbegun
  obtain ⟨x, y, hsplit⟩ := List.append_of_mem hmem
  obtain ⟨rfl, origin, f, c, label, hx, hc, hmessage⟩ := htold.conforms.answers x _ y hsplit _ _ rfl
  refine ⟨route, origin, f, c, label, ?_, hc, hmessage⟩
  have hread : .read i origin f ∈ about i tr := by
    rw [hsplit, hx]
    simp
  exact mem_reads.mpr (mem_about.mp hread).1

/-- An exchange that has read a frame of the session the next frame is of is the one that runs. -/
theorem running_of_challenge (h : (system pc wire stored).Reaches tr s) {x : Exchange}
    {pending : Bool}
    (hcurrent : s.current = some (e, x)) (hphase : x.phase = .outcome pending) (honest : Honest tr)
    {k : ℕ} {f : Received} {rest : List (Option ℕ × Received)}
    (hnext : s.toHost = (some k, f) :: rest)
    {i : ℕ} {g : Received} (hread : (i, some k, g) ∈ reads tr) : i = e := by
  have hhist := histories h
  obtain ⟨hbegun, hstory⟩ := hhist.running e x hcurrent
  have hline := sublist_line h
  rw [hnext] at hline
  have hordered := (line_ordered h).sublist hline
  rw [List.pairwise_append] at hordered
  obtain ⟨hreads, -, hahead⟩ := hordered
  rw [List.pairwise_map] at hreads
  -- the challenge that the running exchange read, for some session `n`
  obtain ⟨o, f₀, c, hmine, hc⟩ : ∃ o f₀ c, (e, o, f₀) ∈ reads (about e tr) ∧
      IsChallenge x.route f₀ c := by
    have hhas := hstory.hasRead
    rw [hphase] at hhas
    cases pending with
    | false =>
      obtain ⟨o, f₀, c, hrs, hc⟩ := hhas
      exact ⟨o, f₀, c, by rw [hrs]; exact List.mem_cons_self, hc⟩
    | true =>
      obtain ⟨o, f₀, c, _, _, _, hrs, hc, -⟩ := hhas
      exact ⟨o, f₀, c, by rw [hrs]; exact List.mem_cons_self, hc⟩
  have hmine : (e, o, f₀) ∈ reads tr := mem_reads.mpr (mem_about.mp (mem_reads.mp hmine)).1
  have honline (m : ℕ × Option ℕ × Received) (hm : m ∈ reads tr) : m.2 ∈ line wire tr :=
    hline.subset (List.mem_append_left _ (List.mem_map_of_mem hm))
  obtain ⟨n, rfl⟩ : ∃ n, o = some n := by
    cases o with
    | none => exact absurd hc.kind (honest f₀ (mem_line_none (honline _ hmine))).1
    | some n => exact ⟨n, rfl⟩
  have hlast : i ≤ e := by
    have hnumber : i ∈ numbers tr := List.mem_filterMap.mpr ⟨_, mem_reads.mp hread, rfl⟩
    have := hhist.lt_begun hnumber
    omega
  by_contra hne
  have hboth := (reads_ordered hhist).and hreads
  rcases related_of_mem hboth hread hmine with hsame | ⟨-, hbehind⟩ | ⟨hle, -⟩
  · exact hne (congrArg Prod.fst hsame)
  · -- the earlier exchange read the challenge of `k` first, so `n` is `k`, which challenges once
    obtain ⟨hkn, honce⟩ := hbehind k n rfl rfl
    have hnk := (hahead _ (List.mem_map_of_mem hmine) _ List.mem_cons_self) n k rfl rfl
    exact honce (by omega) hc.kind
  · simp only at hle
    omega

/-- The running exchange reads `AUTHORIZED` only from a session that granted its key. -/
theorem granted_of_read (h : (system pc wire stored).Reaches tr s) {x : Exchange} {pending : Bool}
    (hcurrent : s.current = some (e, x)) (hphase : x.phase = .outcome pending) (honest : Honest tr)
    (hfresh : FreshNonces wire tr) (hunforged : Unforged P wire tr) {origin : Option ℕ}
    {f : Received} {rest : List (Option ℕ × Received)} (hnext : s.toHost = (origin, f) :: rest)
    {r : HostWire.ClientAuthResult} (hr : IsOutcome f r)
    (hauthorized : r.status = HostWire.AUTH_AUTHORIZED) :
    ∃ tr₁ s₁ k session p, (system pc wire stored).Reaches tr₁ s₁ ∧ tr₁ <+: tr ∧
      Granted wire e x.route x.publicKey r.expiresAtUnixSeconds tr₁ s₁ k session p := by
  have hhist := histories h
  have hline := sublist_line h
  rw [hnext] at hline
  have honline : (origin, f) ∈ line wire tr :=
    hline.subset (List.mem_append_right _ List.mem_cons_self)
  obtain ⟨k, rfl⟩ : ∃ k, origin = some k := by
    cases origin with
    | none => exact absurd hr.kind (honest f (mem_line_none honline)).2
    | some k => exact ⟨k, rfl⟩
  have hover := (mem_line_some honline).1
  obtain ⟨q, hsent, hq, hexpires⟩ := sent_of_outcome h honline hr hauthorized
  obtain ⟨tr₁, s₁, hr₁, hprefix, hsent₁, hlive⟩ := live_when_sent h hsent hq
  -- the session that granted holds its one proof, which verifies
  obtain ⟨hactive, session, hsession, hauth⟩ := hlive
  have hok := (PhoneAuthorization.sessions_ok (phone_reaches hr₁)).session k session hsession
  obtain ⟨p, hproofs, hcandidate, m, hm, hverify⟩ := hok.proved (.inr hauth)
  have hproof : .phone (.proof k p) ∈ tr₁ := by
    apply mem_phoneEvents.mp
    apply PhoneAuthorization.mem_proofsOf.mp
    rw [hproofs]
    exact List.mem_singleton_self p
  obtain ⟨y, z, hsplit⟩ := List.append_of_mem hproof
  obtain ⟨w, hw⟩ := hprefix
  have htr : tr = y ++ Event.phone (.proof k p) :: (z ++ w) := by
    rw [← hw, hsplit, List.append_assoc, List.cons_append]
  have hopened : .phone (.opened k session.transport session.phoneBinding session.nonce) ∈ y := by
    have hphone := phone_reaches hr₁
    have hparts : phoneEvents tr₁ =
        phoneEvents y ++ PhoneAuthorization.Event.proof k p :: phoneEvents z := by
      rw [hsplit, phoneEvents_append]
      rfl
    obtain ⟨t, b, n, hmem⟩ := PhoneAuthorization.proofs_opened hphone _ _ _ hparts k p rfl
    have hall : .opened k t b n ∈ phoneEvents tr₁ := hparts ▸ List.mem_append_left _ hmem
    obtain ⟨session', hsession', rfl, rfl, rfl⟩ := PhoneAuthorization.owned hphone k t b n hall
    obtain rfl := Option.some.inj (hsession.symm.trans hsession')
    exact mem_phoneEvents.mp hmem
  -- so some exchange signed the transcript of this session, and it read a challenge
  obtain ⟨i, hsigned⟩ := hunforged y _ _ htr k p _ _ _ m rfl hover hopened hm hverify
  have hsigned' : .signed i p.publicKey m ∈ tr := htr ▸ List.mem_append_left _ hsigned
  obtain ⟨route, o, g, c, label, hread, hc, hmessage⟩ := challenge_of_signed hhist hsigned'
  obtain ⟨-, -, hnonce, -⟩ := transcripts_agree hm hmessage
  have hg : (o, g) ∈ line wire tr :=
    hline.subset (List.mem_append_left _ (List.mem_map_of_mem hread))
  -- that challenge is of the session itself, whose nonce no other session has
  obtain ⟨n, rfl⟩ : ∃ n, o = some n := by
    cases o with
    | none => exact absurd hc.kind (honest g (mem_line_none hg)).1
    | some n => exact ⟨n, rfl⟩
  obtain ⟨hovern, t, b, hopenedn⟩ := nonce_of_challenge h hg hc
  have hopened' : .phone (.opened k session.transport session.phoneBinding session.nonce) ∈ tr :=
    htr ▸ List.mem_append_left _ hopened
  obtain rfl : n = k := hfresh n k _ _ _ _ _ hovern hover (hnonce ▸ hopenedn) hopened'
  obtain rfl := running_of_challenge h hcurrent hphase honest hnext hread
  -- the exchange that signed is the running one: its key, its route
  obtain ⟨-, hstory⟩ := hhist.running i x hcurrent
  have hmine : .signed i p.publicKey m ∈ about i tr := mem_about.mpr ⟨hsigned', rfl⟩
  obtain ⟨u, v, huv⟩ := List.append_of_mem hmine
  obtain ⟨hkey, -, -, c', label', -, -, hmessage'⟩ := hstory.answers u _ v huv _ _ rfl
  obtain ⟨htransport, hbinding, -, -⟩ := transcripts_agree hm hmessage'
  refine ⟨tr₁, s₁, n, session, p, hr₁, ⟨w, hw⟩, hover,
    ⟨hactive, session, hsession, hauth⟩, hsession,
    hcandidate, ⟨m, hm, hverify⟩, hkey, htransport, hbinding, ⟨q, hsent₁, hq, hexpires.symm⟩, m, ?_⟩
  rw [hsplit, ← hkey]
  exact ⟨y, _, rfl, hsigned, List.mem_cons_self⟩

/-- A run is honest from its start. -/
theorem Honest.of_append (h : Honest (tr ++ es)) : Honest tr :=
  fun f hf => h f (List.mem_append_left _ hf)

/-- Its nonces are fresh from its start. -/
theorem FreshNonces.of_append (h : FreshNonces wire (tr ++ es)) : FreshNonces wire tr :=
  fun i j t b t' b' n hi hj ho ho' =>
    h i j t b t' b' n hi hj (List.mem_append_left _ ho) (List.mem_append_left _ ho')

/-- An exchange returns `Authorized` on the outcome it reads in the loop. -/
theorem Ending.authorized {route : Route} {publicKey : List UInt8} {phase : Phase} {t : List Event}
    {expires : UInt32} (ht : Ending pc e route publicKey phase t)
    (hmem : .returned e (.ok (.authorized expires)) ∈ t) :
    ∃ pending origin f r, phase = .outcome pending ∧ .read e origin f ∈ t ∧ IsOutcome f r ∧
      r.status = HostWire.AUTH_AUTHORIZED ∧ r.expiresAtUnixSeconds = expires := by
  cases ht with
  | @answered pending origin f r outcome hr _ hauthorized =>
    obtain rfl : outcome = .authorized expires := by
      simp only [List.mem_cons, reduceCtorEq, Event.returned.injEq, Except.ok.injEq, true_and,
        false_or, List.not_mem_nil, or_false] at hmem
      exact hmem.symm
    obtain ⟨hstatus, hexpires⟩ := hauthorized expires rfl
    exact ⟨pending, origin, f, r, rfl, List.mem_cons_self, hr, hstatus, hexpires⟩
  | _ => simp at hmem

/-- The history of an exchange says with which route and key it began. -/
theorem Told.began {route route' : Route} {publicKey publicKey' : List UInt8} {h : List Event}
    (ht : Told pc e route publicKey h) (hmem : .began e route' publicKey' ∈ h) :
    route' = route ∧ publicKey' = publicKey := by
  have hstory {phase : Phase} {h : List Event} (hs : Story pc e route publicKey phase h)
      (hmem : .began e route' publicKey' ∈ h) : route' = route ∧ publicKey' = publicKey := by
    induction hs with
    | began => simpa using hmem
    | challenged _ _ ih | proved _ _ ih | prompted _ _ _ ih | notified _ ih =>
      apply ih
      simpa using hmem
  rcases ht with ⟨phase, hs⟩ | ⟨phase, h₀, t, hs, ht, rfl⟩
  · exact hstory hs hmem
  · rcases List.mem_append.mp hmem with hmem | hmem
    · exact hstory hs hmem
    · cases ht <;> simp at hmem

/-- A turn of the exchange does not return. -/
theorem Turn.unreturned {x : Exchange} {next : Next} (h : Turn pc e x es next) (i : ℕ)
    (result : Except String Outcome) : .returned i result ∉ es := by
  cases h <;> simp

/-- A turn reads one frame. -/
theorem Turn.reads {x : Exchange} {next : Next} (h : Turn pc e x es next) {origin : Option ℕ}
    {f : Received} (hread : .read e origin f ∈ es) : reads es = [(e, origin, f)] := by
  cases h with
  | received _ =>
    obtain ⟨rfl, rfl⟩ : origin = _ ∧ f = _ := by simpa using hread
    rfl
  | idle => cases hread
  | failed _ => cases hread
  | _ => simp at hread

/-- The step that returns `Authorized`. -/
theorem granted_of_step (h : (system pc wire stored).Reaches tr s) {l : Label}
    (hs : step pc wire s l = some (s', es)) {expires : UInt32}
    (hmem : .returned e (.ok (.authorized expires)) ∈ es) (honest : Honest tr)
    (hfresh : FreshNonces wire tr) (hunforged : Unforged P wire tr) :
    ∃ route publicKey tr₁ s₁ k session p, .began e route publicKey ∈ tr ∧
      (system pc wire stored).Reaches tr₁ s₁ ∧ tr₁ <+: tr ∧
      (∀ result, .returned e result ∉ tr₁) ∧
      Granted wire e route publicKey expires tr₁ s₁ k session p := by
  cases moved_of_step hs with
  | phone _ => simp at hmem
  | injected f => simp at hmem
  | lost _ => cases hmem
  | started _ => simp at hmem
  | @turned i x ts next toHost toPhone hcurrent hturn hchannel =>
    obtain ⟨-, hstory⟩ := (histories h).running i x hcurrent
    -- the result is that of the exchange that runs
    obtain ⟨hi, hnext⟩ : e = i ∧ next = .returns (.ok (.authorized expires)) := by
      rcases List.mem_append.mp hmem with hmem | hmem
      · exact absurd hmem (hturn.unreturned e _)
      · cases next with
        | goesOn x' => cases hmem
        | returns result =>
          simp only [State.settle, List.mem_singleton, Event.returned.injEq] at hmem
          exact ⟨hmem.1, by rw [hmem.2]⟩
    subst hi hnext
    have hending := (hturn.told hstory).2 _ rfl
    obtain ⟨pending, origin, f, r, hphase, hread, hr, hstatus, rfl⟩ :=
      hending.authorized (List.mem_append_right _ List.mem_cons_self)
    have hread : .read e origin f ∈ ts := by simpa using hread
    have hrest : s.toHost = (origin, f) :: toHost := by
      rw [hchannel, hturn.reads hread]
      rfl
    obtain ⟨tr₁, s₁, k, session, p, hr₁, hprefix, hgranted⟩ :=
      granted_of_read h hcurrent hphase honest hfresh hunforged hrest hr
        hstatus
    have hbegan : .began e x.route x.publicKey ∈ about e tr := by
      have hfirst : ∀ {phase h}, Story pc e x.route x.publicKey phase h →
          .began e x.route x.publicKey ∈ h := by
        intro phase h hs
        induction hs <;> simp_all
      exact hfirst hstory
    refine ⟨x.route, x.publicKey, tr₁, s₁, k, session, p, (mem_about.mp hbegan).1, hr₁, hprefix,
      fun result hmem => ?_, hgranted⟩
    exact hstory.running result (mem_about.mpr ⟨ hprefix.subset hmem, rfl⟩)

/-- Whatever arrives, an exchange signs at most once and for a challenge of its own route, tells the
user at most once and before its result, and ends with an error at the first frame that is not the
next of the protocol. If only the phone's sessions write authorization frames, nonces are fresh and
signatures are not forged, an exchange returns `Authorized` only after a session that held the
phone's slot has granted the exchange's key on its route. -/
theorem mutual_authorization (h : (system pc wire stored).Reaches tr s) :
    (∀ e route publicKey, .began e route publicKey ∈ tr →
      Conforms pc e route publicKey (about e tr)) ∧
    (Honest tr → FreshNonces wire tr → Unforged P wire tr → ∀ e expires,
      .returned e (.ok (.authorized expires)) ∈ tr →
        ∃ route publicKey tr₁ s₁ k session p, .began e route publicKey ∈ tr ∧
          (system pc wire stored).Reaches tr₁ s₁ ∧ tr₁ <+: tr ∧
          (∀ result, .returned e result ∉ tr₁) ∧
          Granted wire e route publicKey expires tr₁ s₁ k session p) := by
  constructor
  · intro e route publicKey hbegan
    have hhist := histories h
    have hmem : .began e route publicKey ∈ about e tr := mem_about.mpr ⟨hbegan, rfl⟩
    have hlt : e < s.begun := hhist.lt_begun (List.mem_filterMap.mpr ⟨_, hbegan, rfl⟩)
    obtain ⟨route', publicKey', htold⟩ := hhist.told e hlt
    obtain ⟨rfl, rfl⟩ := htold.began hmem
    exact htold.conforms
  · refine h.invariant (P := fun tr _ => Honest tr → FreshNonces wire tr → Unforged P wire tr →
      ∀ e expires, .returned e (.ok (.authorized expires)) ∈ tr →
        ∃ route publicKey tr₁ s₁ k session p, .began e route publicKey ∈ tr ∧
          (system pc wire stored).Reaches tr₁ s₁ ∧ tr₁ <+: tr ∧
          (∀ result, .returned e result ∉ tr₁) ∧
          Granted wire e route publicKey expires tr₁ s₁ k session p)
      (fun _ _ _ _ _ e expires hmem => by cases hmem) ?_
    intro tr s l s' es hr _ hi hs honest hfresh hunforged e expires hmem
    have hbefore : ∃ route publicKey tr₁ s₁ k session p, .began e route publicKey ∈ tr ∧
        (system pc wire stored).Reaches tr₁ s₁ ∧ tr₁ <+: tr ∧
        (∀ result, .returned e result ∉ tr₁) ∧
        Granted wire e route publicKey expires tr₁ s₁ k session p := by
      rcases List.mem_append.mp hmem with hmem | hmem
      · exact hi honest.of_append hfresh.of_append hunforged.of_append e expires hmem
      · exact granted_of_step hr hs hmem honest.of_append hfresh.of_append hunforged.of_append
    obtain ⟨route, publicKey, tr₁, s₁, k, session, p, hbegan, hr₁, hprefix, hnot, hgranted⟩ :=
      hbefore
    exact ⟨route, publicKey, tr₁, s₁, k, session, p, List.mem_append_left _ hbegan, hr₁,
      hprefix.trans (List.prefix_append _ _), hnot, hgranted⟩

/-! ## A run -/

/-- A number as 32 bytes, greatest first. -/
def bytesOf (n : ℕ) : List UInt8 := (toLE 32 n).reverse

/-- The public point of a P-256 pair. -/
def pcKey : List UInt8 :=
  4 :: bytesOf 0x60fed4ba255a9d31c961eb74c6356d68c049b8923b61fa6ce669622e60f29fb6 ++
    bytesOf 0x7903fe1008b8bc99a41ae9e95628bc64f2f1b20c2d7e9f5177a3c294d4462299

/-- A nonce of one byte repeated. -/
def nonce (i : UInt8) : List UInt8 := List.replicate 32 i

/-- The pair's signatures of the transcripts over `nonce 1` and `nonce 3`. -/
def signature (first : Bool) : Vector UInt8 HostWire.SIGNATURE_BYTES :=
  let r := if first then 0x471c3e758c4904285bba7e53118ed0f524adeb0757d25bd2f8e7b0d76dfa714c
    else 0x92dd0b49f7798815968d41b7e9d39c2af5f398d2c2f73ac87504b2976998418c
  let s := if first then 0x750eb46a5a465f739cb09eb185ae364184563ec5bcfed49caa7a55a210d67af5
    else 0x1fe2204ebc02fa3e742c5aed57b95fb316ccbcd62048b875ec8dcf752ffe8772
  ⟨(bytesOf r ++ bytesOf s).toArray, by simp [bytesOf, HostWire.SIGNATURE_BYTES]⟩

/-- The transcript of a PC named `desk` on the cable. -/
def transcript (nonce : List UInt8) : List UInt8 :=
  authDomain ++ [0] ++ List.replicate 32 0 ++ nonce ++ pcKey ++ [4, 0x64, 0x65, 0x73, 0x6b]

/-- The digest and the verifier, on what the run gives them. -/
def pairOnly : Platform where
  sha256 key :=
    if key = pcKey then bytesOf 0xb18b86ce1389e46de87aa4a5131ce83c1160fa33c087ab15b863574d31d8ff3c
    else []
  validPublicKey key := key == pcKey
  verify key message sig :=
    key == pcKey && (message == transcript (nonce 1) && sig == (signature true).toList ||
      message == transcript (nonce 3) && sig == (signature false).toList)
  isWhitespace c := c == ' '
  scalarIsSafe c := decide (32 ≤ c.toNat)

/-- A PC that takes every label without control characters. -/
def plainPc : Pc where
  unsafeScalar c := decide (c.toNat < 32)
  spent := "deadline expired"

/-- A phone that knows no PC. -/
def nobody : ClientRepository pairOnly := ⟨[], true, by decide⟩

/-- The call of a thread of the phone, and its sections. -/
def phoneCall (thread : ℕ) (call : PhoneAuthorization.Call) (sections : ℕ) : List Label :=
  .phone (.call call) :: List.replicate sections
    (.phone (.step thread (PhoneAuthorization.noon 100) true))

/-- The threads that open a session and start it. -/
def challenging (thread sid : ℕ) (nonce : List UInt8) : List Label :=
  phoneCall thread (.openSession .usb (List.replicate 32 0) nonce) 1 ++
    phoneCall (thread + 1) (.start sid) 1

/-- The exchange reads the frame after the first. -/
def received : Label := .poll false 1 (.frame 1)

/-- The exchange sends its proof. -/
def proving (first delivered : Bool) : Label :=
  .prove [some ['d', 'e', 's', 'k'], none, none] (.ok (signature first)) 1 (.ok ()) delivered

/-- The first exchange answers a session that is gone, and fails on the challenge of the next. The
second is prompted for, approved and authorized by the session after that. -/
def secondTry : List Label :=
  challenging 0 0 (nonce 1) ++
    [Label.start .usb pcKey 0 5000000000, received, proving true false] ++
    phoneCall 2 (.closeSession 0) 1 ++ challenging 3 1 (nonce 2) ++ [received] ++
    [Label.start .usb pcKey 0 5000000000] ++ phoneCall 5 (.onHostHello 1) 1 ++
    challenging 6 2 (nonce 3) ++ [received, proving false true, .deliver 2,
      .phone (.step 8 (PhoneAuthorization.noon 100) true), received, .notify (.ok ())] ++
    phoneCall 9 (.approve 2) 4 ++ [received]

/-- A phone on a cable and a PC, before either began. -/
def onCable : State pairOnly :=
  { phone := PhoneAuthorization.fresh nobody, toHost := [], toPhone := [], begun := 0
    current := none }

/-- What happens on the cable. -/
def cableTrace : List Event :=
  (system plainPc (fun _ => true) nobody).trace onCable secondTry

/-- The proof the phone receives. -/
def deskProof : ClientAuth where
  publicKey := pcKey
  label := ['d', 'e', 's', 'k']
  signature := (signature false).toList

/-- What an opening says of the session on the cable. -/
def Event.opens : Event → Option (ℕ × List UInt8)
  | .phone (.opened sid _ _ nonce) => some (sid, nonce)
  | _ => none

/-- The nonces of the run are fresh. -/
theorem fresh_cableTrace : FreshNonces (fun _ => true) cableTrace := by
  have hopens : cableTrace.filterMap Event.opens = [(0, nonce 1), (1, nonce 2), (2, nonce 3)] := by
    decide +kernel
  have hmem {i : ℕ} {t : AuthTransport} {b n : List UInt8}
      (h : .phone (.opened i t b n) ∈ cableTrace) :
      (i, n) ∈ [(0, nonce 1), (1, nonce 2), (2, nonce 3)] := by
    rw [← hopens]
    exact List.mem_filterMap.mpr ⟨_, h, rfl⟩
  have hdistinct : nonce 1 ≠ nonce 2 ∧ nonce 1 ≠ nonce 3 ∧ nonce 2 ≠ nonce 3 := by decide
  intro i j t b t' b' n _ _ hi hj
  have hi := hmem hi
  have hj := hmem hj
  simp only [List.mem_cons, Prod.mk.injEq, List.not_mem_nil, or_false] at hi hj
  grind

/-- The event is no proof. -/
def unproved : Event → Bool
  | .phone (.proof _ _) => false
  | _ => true

/-- An opening of the second session shows the third nonce. -/
def openedThird : Event → Bool
  | .phone (.opened 2 t b n) => decide (t = .usb ∧ b = List.replicate 32 0 ∧ n = nonce 3)
  | _ => true

/-- The one proof that arrives verifies for a transcript the second exchange has signed. -/
theorem unforged_cableTrace : Unforged pairOnly (fun _ => true) cableTrace := by
  have hsplit :
      cableTrace =
        cableTrace.take 30 ++ Event.phone (.proof 2 deskProof) :: cableTrace.drop 31 := by
    decide +kernel
  have hnone :
      ∀ ev ∈ cableTrace.take 30 ++ cableTrace.drop 31, ∀ k p, ev ≠ .phone (.proof k p) := by
    have hall : (cableTrace.take 30 ++ cableTrace.drop 31).all unproved = true := by decide +kernel
    intro ev hev k p he
    have := List.all_eq_true.mp hall ev hev
    rw [he] at this
    cases this
  have hopened : ∀ t b n, .phone (.opened 2 t b n) ∈ cableTrace.take 30 →
      t = .usb ∧ b = List.replicate 32 0 ∧ n = nonce 3 := by
    have hall : (cableTrace.take 30).all openedThird = true := by decide +kernel
    intro t b n hmem
    exact of_decide_eq_true (List.all_eq_true.mp hall _ hmem)
  have hsigned : .signed 1 pcKey (transcript (nonce 3)) ∈ cableTrace.take 30 := by decide +kernel
  have hmessage : clientAuthMessage pairOnly .usb (List.replicate 32 0) (nonce 3) pcKey
      ['d', 'e', 's', 'k'] = some (transcript (nonce 3)) := by decide +kernel
  unfold Unforged
  rw [hsplit]
  apply Each.append
  · exact each_of_forall fun x ev hev k p _ _ _ _ he =>
      absurd he (hnone ev (List.mem_append_left _ hev) k p)
  refine each_cons.mpr ⟨?_, ?_⟩
  · rintro k p t b n m ⟨⟩ - hmem hm -
    rw [List.append_nil] at hmem ⊢
    obtain ⟨rfl, rfl, rfl⟩ := hopened t b n hmem
    obtain rfl := Option.some.inj (hmessage.symm.trans hm)
    exact ⟨1, hsigned⟩
  · exact each_of_forall fun x ev hev k p _ _ _ _ he =>
      absurd he (hnone ev (List.mem_append_right _ hev) k p)

/-- The first exchange of the run conforms, and the second is authorized by a phone
that granted it. -/
theorem mutual_authorization_secondTry :
    Conforms plainPc 0 .usb pcKey (about 0 cableTrace) ∧
    ∃ route publicKey tr₁ s₁ k session p, .began 1 route publicKey ∈ cableTrace ∧
      (system plainPc (fun _ => true) nobody).Reaches tr₁ s₁ ∧ tr₁ <+: cableTrace ∧
      (∀ result, .returned 1 result ∉ tr₁) ∧
      Granted (fun _ => true) 1 route publicKey 7776100 tr₁ s₁ k session p := by
  have hrun : (system plainPc (fun _ => true) nobody).Reaches cableTrace _ :=
    EventSystem.reaches_trace secondTry rfl (by decide +kernel)
  have honest : Honest cableTrace := by
    have hall : cableTrace.all (fun
        | .injected _ => false
        | _ => true) = true := by decide +kernel
    intro f hf
    cases List.all_eq_true.mp hall _ hf
  obtain ⟨hconforms, hgranted⟩ := mutual_authorization hrun
  exact ⟨hconforms 0 .usb pcKey (by decide +kernel),
    hgranted honest fresh_cableTrace unforged_cableTrace 1 7776100 (by decide +kernel)⟩

end MutualAuthorization
end MobileWebcamBridge
