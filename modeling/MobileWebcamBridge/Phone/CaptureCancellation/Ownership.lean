import MobileWebcamBridge.Phone.CaptureCancellation

/-!
# What a cancellation closes

A cancellation can be late in three ways: another session's bridge is installed between the
ownership test and the detach, the UI thread is itself between taking a bridge out and closing it,
or a bridge starts on a session whose cancellation has already run. `Undisturbed` is the condition
that none of these happens; under it a cancellation closes its own session's bridge and leaves none
behind.
-/

set_option autoImplicit false

namespace MobileWebcamBridge
namespace CaptureCancellation

variable {tr es : List Event} {s s' : Activity} {sid b : ℕ} {bridge : Bridge} {op : Op}
  {rest ops : List Op}

/-- The bridge's camera session is running, and nothing has closed it. -/
def Bridge.capturing (bridge : Bridge) : Bool := bridge.phase == .running && !bridge.closed

/-- The session that was the owner when it was asked. -/
def Worker.owner? : Worker → Option ℕ
  | .owned sid => some sid
  | _ => none

/-- The session's cancellation has run. -/
def Activity.captureCancelled (s : Activity) (sid : ℕ) : Bool :=
  s.sessions[sid]?.any Session.captureCancelled

/-- The session's cancellation has detached what it closes, or was refused. -/
def Activity.Passed (s : Activity) (sid : ℕ) : Prop :=
  s.captureCancelled sid = true ∧ sid ∉ s.jobs ∧ s.worker ≠ .owned sid

instance : Decidable (s.Passed sid) :=
  inferInstanceAs (Decidable (_ ∧ _))

/-- The UI thread is about to close this bridge of the session. -/
def Activity.stopping (s : Activity) (sid : ℕ) : Bool :=
  let closes b := s.bridges[b]?.any fun bridge => bridge.session == sid && bridge.capturing
  match s.ui with
  | .close b :: _ => closes b
  | .detach :: _ => s.installedBridge.any closes
  | _ => false

/-- The step is not one of the three that spoil a cancellation. -/
def Undisturbed (_ : List Event) (s : Activity) : Label → Prop
  | .ui _ =>
    match s.ui with
    | .install sid :: _ => ∀ owner ∈ s.worker.owner?, owner = sid
    | .start b :: _ => ∀ bridge ∈ s.bridges[b]?, bridge.closed = false →
        s.isAuthorized bridge.session = true → ¬ s.Passed bridge.session
    | _ => True
  | .worker =>
    match s.worker, s.jobs with
    | .idle, sid :: _ => s.session = some sid ∨ s.stopping sid = false
    | .owned sid, _ => s.installedBridge = none → s.stopping sid = false
    | _, _ => True
  | _ => True

instance (tr : List Event) (s : Activity) (l : Label) : Decidable (Undisturbed tr s l) := by
  unfold Undisturbed
  split
  · split <;> infer_instance
  · split <;> infer_instance
  · infer_instance

/-! ## Where a bridge is -/

/-- Nothing stops or fails this bridge yet. -/
def Bridge.open (bridge : Bridge) : Prop := bridge.phase ≠ .failed ∧ bridge.closed = false

/-- An access that a call makes once it has detached the bridge. -/
def Op.late : Op → Prop
  | .cancelCapture _ | .endAuthorization _ | .clear | .assign _ => True
  | _ => False

/-- The installed bridge is of the session in the field. -/
def Activity.Tied (s : Activity) : Prop :=
  ∀ b bridge, s.installedBridge = some b → s.bridges[b]? = some bridge →
    s.session = some bridge.session

/-- What holds of the fields at each point of a call. -/
def Activity.Placed (s : Activity) : List Op → Prop
  | [] => s.Tied
  | .closeSession :: rest => s.Tied ∧ ∀ op ∈ rest, op.late
  | .detach :: rest => (s.Tied ∨ s.session = none) ∧ ∀ op ∈ rest, op.late
  | .check _ :: rest => s.Tied ∧ rest = []
  | .start b :: rest =>
    s.Tied ∧ rest = [] ∧ ∃ bridge, s.bridges[b]? = some bridge ∧ bridge.phase = .created
  | .started b :: rest =>
    s.Tied ∧ rest = [] ∧ ∃ bridge, s.bridges[b]? = some bridge ∧ bridge.phase = .starting
  | .install sid :: rest => s.installedBridge = none ∧ s.session = some sid ∧ rest = []
  | _ :: rest => s.installedBridge = none ∧ ∀ op ∈ rest, op.late

/-- What the UI thread and the teardown thread know of the bridges. -/
structure Sound (s : Activity) : Prop where
  placed : s.Placed s.ui
  installed : ∀ b, s.installedBridge = some b → b < s.bridges.length
  owned : ∀ sid b bridge, s.worker = .owned sid → s.installedBridge = some b →
    s.bridges[b]? = some bridge → bridge.session = sid
  closing : ∀ sid b, s.worker = .closing sid b →
    ∃ bridge, s.bridges[b]? = some bridge ∧ bridge.session = sid
  created : ∀ b bridge, s.bridges[b]? = some bridge → bridge.phase = .created →
    s.ui.head? = some (.start b)
  starting : ∀ b bridge, s.bridges[b]? = some bridge → bridge.phase = .starting →
    s.ui.head? = some (.started b)
  held : ∀ b bridge, s.bridges[b]? = some bridge → bridge.open →
    s.installedBridge = some b ∨ s.ui.head? = some (.close b) ∨ ∃ sid, s.worker = .closing sid b
  passed : ∀ b bridge, s.bridges[b]? = some bridge → bridge.open → bridge.phase ≠ .created →
    s.Passed bridge.session → s.worker = .closing bridge.session b

/-- Without a bridge nothing can be torn down. -/
theorem tied_of_none (h : s.installedBridge = none) : s.Tied := by
  intro b bridge hinstalled
  rw [h] at hinstalled
  cases hinstalled

/-- The rest of a call that has detached the bridge. -/
theorem placed_of_late (h : s.installedBridge = none) (hlate : ∀ op ∈ ops, op.late) :
    s.Placed ops := by
  cases ops with
  | nil => exact tied_of_none h
  | cons op rest =>
    have hop : op.late := hlate op List.mem_cons_self
    have hrest : ∀ op ∈ rest, op.late := fun op hmem => hlate op (List.mem_cons_of_mem _ hmem)
    cases op <;> first | exact hop.elim | exact ⟨h, hrest⟩

/-- An access that starts or closes no bridge. -/
def Op.plain : Op → Bool
  | .start _ | .started _ | .close _ => false
  | _ => true

theorem Sound.plain_head (h : Sound s) (hop : s.ui.head? = some op) (hplain : op.plain = true) :
    (∀ (b : ℕ) (bridge : Bridge), s.bridges[b]? = some bridge →
      bridge.phase ≠ .created ∧ bridge.phase ≠ .starting) ∧
    ∀ b, s.ui.head? ≠ some (.close b) := by
  refine ⟨fun b bridge hbridge => ⟨fun hphase => ?_, fun hphase => ?_⟩, fun b heq => ?_⟩
  · have := h.created b bridge hbridge hphase
    rw [hop] at this
    cases this
    cases hplain
  · have := h.starting b bridge hbridge hphase
    rw [hop] at this
    cases this
    cases hplain
  · rw [hop] at heq
    cases heq
    cases hplain

/-- The bridges, the installed one and the teardown thread stay as they are. -/
theorem Sound.same (h : Sound s) (hbridges : s'.bridges = s.bridges)
    (hinstalled : s'.installedBridge = s.installedBridge) (hworker : s'.worker = s.worker)
    (hui : s'.ui.head? = s.ui.head? ∨ s.ui = [] ∨
      ∃ op, s.ui.head? = some op ∧ op.plain = true)
    (hplaced : s'.Placed s'.ui) (hpassed : ∀ sid, s'.Passed sid → s.Passed sid) : Sound s' := by
  have hhead (op : Op) (hop : op.plain = false) (heq : s.ui.head? = some op) :
      s'.ui.head? = some op := by
    rcases hui with hsame | hnil | ⟨op', hop', hplain⟩
    · rw [hsame, heq]
    · rw [hnil] at heq
      cases heq
    · rw [heq] at hop'
      cases hop'
      rw [hop] at hplain
      cases hplain
  refine ⟨hplaced, ?_, ?_, ?_, ?_, ?_, ?_, ?_⟩
  · rw [hinstalled, hbridges]
    exact h.installed
  · rw [hinstalled, hbridges, hworker]
    exact h.owned
  · rw [hbridges, hworker]
    exact h.closing
  · rw [hbridges]
    exact fun b bridge hb hphase => hhead _ rfl (h.created b bridge hb hphase)
  · rw [hbridges]
    exact fun b bridge hb hphase => hhead _ rfl (h.starting b bridge hb hphase)
  · rw [hbridges, hinstalled, hworker]
    exact fun b bridge hb hopen => (h.held b bridge hb hopen).imp_right
      (Or.imp_left (hhead _ rfl))
  · rw [hbridges, hworker]
    exact fun b bridge hb hopen hphase hp => h.passed b bridge hb hopen hphase (hpassed _ hp)

/-- What `Placed` reads. -/
theorem Activity.Placed.congr (h : s.Placed ops)
    (hsessions : ∀ (b : ℕ) (bridge' : Bridge), s'.bridges[b]? = some bridge' →
      ∃ bridge : Bridge, s.bridges[b]? = some bridge ∧ bridge'.session = bridge.session)
    (hphases : ∀ (b : ℕ) (bridge : Bridge), s.bridges[b]? = some bridge →
      ∃ bridge' : Bridge, s'.bridges[b]? = some bridge' ∧ bridge'.phase = bridge.phase)
    (hinstalled : s'.installedBridge = s.installedBridge) (hsession : s'.session = s.session) :
    s'.Placed ops := by
  have htied (htied : s.Tied) : s'.Tied := by
    intro b bridge' hb hbridge'
    obtain ⟨bridge, hbridge, heq⟩ := hsessions b bridge' hbridge'
    rw [hsession, heq]
    exact htied b bridge (hinstalled ▸ hb) hbridge
  have hphase (b : ℕ) (phase : Phase)
      (h : ∃ bridge, s.bridges[b]? = some bridge ∧ bridge.phase = phase) :
      ∃ bridge, s'.bridges[b]? = some bridge ∧ bridge.phase = phase := by
    obtain ⟨bridge, hbridge, rfl⟩ := h
    exact hphases b bridge hbridge
  cases ops with
  | nil => exact htied h
  | cons op rest =>
    cases op with
    | closeSession => exact ⟨htied h.1, h.2⟩
    | detach => exact ⟨h.1.imp htied hsession.trans, h.2⟩
    | check => exact ⟨htied h.1, h.2⟩
    | start b => exact ⟨htied h.1, h.2.1, hphase b _ h.2.2⟩
    | started b => exact ⟨htied h.1, h.2.1, hphase b _ h.2.2⟩
    | install => exact ⟨hinstalled.trans h.1, hsession.trans h.2.1, h.2.2⟩
    | cancelCapture | endAuthorization | clear | assign | close =>
      exact ⟨hinstalled.trans h.1, h.2⟩

/-! ## The sessions -/

theorem any_modify {α : Type} {l : List α} {f : α → α} {p : α → Bool} {i j : ℕ}
    (hf : ∀ a, p (f a) = p a) : (l.modify i f)[j]?.any p = l[j]?.any p := by
  rw [List.getElem?_modify]
  cases l[j]? with
  | none => rfl
  | some a =>
    by_cases hij : i = j
    · simp [hij, hf]
    · simp [hij]

theorem captureCancelled_endAuthorization (s : Activity) (sid sid' : ℕ) :
    (s.endAuthorization sid).captureCancelled sid' = s.captureCancelled sid' := by
  unfold Activity.captureCancelled Activity.endAuthorization
  exact any_modify fun _ => rfl

/-- A cancellation only queues its job. -/
theorem cancelCapture_eq (s : Activity) (sid : ℕ) : (s.cancelCapture sid).bridges = s.bridges ∧
    (s.cancelCapture sid).installedBridge = s.installedBridge ∧
    (s.cancelCapture sid).session = s.session ∧ (s.cancelCapture sid).worker = s.worker ∧
    (s.cancelCapture sid).ui = s.ui := by
  unfold Activity.cancelCapture
  split
  · split
    · exact ⟨rfl, rfl, rfl, rfl, rfl⟩
    · exact ⟨rfl, rfl, rfl, rfl, rfl⟩
  · exact ⟨rfl, rfl, rfl, rfl, rfl⟩

/-- A session's cancellation is raised and queued in one access. -/
theorem passed_cancelCapture (h : (s.cancelCapture b).Passed sid) : s.Passed sid := by
  unfold Activity.cancelCapture at h
  split at h
  · split at h
    · exact h
    · obtain ⟨hcancelled, hjobs, hworker⟩ := h
      have hne : sid ≠ b := fun heq => hjobs (heq ▸ List.mem_append_right _ List.mem_cons_self)
      refine ⟨?_, fun hmem => hjobs (List.mem_append_left _ hmem), hworker⟩
      simpa [Activity.captureCancelled, Ne.symm hne] using hcancelled
  · exact h

/-! ## The UI thread -/

/-- The bridges after one is changed. -/
theorem of_setBridge {f : Bridge → Bridge} {b' : ℕ} {bridge' : Bridge}
    (h : (s.setBridge b f).bridges[b']? = some bridge') :
    b' ≠ b ∧ s.bridges[b']? = some bridge' ∨
      b' = b ∧ ∃ bridge, s.bridges[b]? = some bridge ∧ bridge' = f bridge := by
  simp only [Activity.setBridge, List.getElem?_modify] at h
  by_cases hb : b' = b
  · subst hb
    simp only [if_true, Option.map_eq_map, Option.map_eq_some_iff] at h
    obtain ⟨bridge, hbridge, rfl⟩ := h
    exact .inr ⟨rfl, bridge, hbridge, rfl⟩
  · simp only [Ne.symm hb, if_false, Option.map_eq_map, Option.map_id'] at h
    exact .inl ⟨hb, h⟩

/-- A change of a bridge leaves it to its session. -/
theorem Activity.Tied.setBridge (h : s.Tied) {f : Bridge → Bridge}
    (hsession : ∀ bridge, (f bridge).session = bridge.session) : (s.setBridge b f).Tied := by
  intro b' bridge' hb hbridge'
  rcases of_setBridge hbridge' with ⟨-, hbridge⟩ | ⟨rfl, bridge, hbridge, rfl⟩
  · exact h b' bridge' hb hbridge
  · rw [hsession]
    exact h b' bridge hb hbridge

/-- `close` of a bridge that nothing is starting. -/
theorem close_eq_some (h : s.close b = some s') :
    s' = s.setBridge b (fun bridge => { bridge with closed := true }) ∧
      ∃ bridge, s.bridges[b]? = some bridge ∧ bridge.phase ≠ .starting := by
  unfold Activity.close at h
  split at h
  · cases h
  · cases h
  · next bridge hstarting hbridge =>
    obtain rfl := Option.some.inj h
    refine ⟨rfl, bridge, hbridge, fun hphase => ?_⟩
    exact hstarting bridge.session bridge.closed (by rw [← hphase])

/-- The bridge taken out of its field is the next to be closed. -/
theorem Sound.detach (h : Sound s) (hui : s.ui = .detach :: rest)
    (hb : s.installedBridge = some b) :
    Sound { s with installedBridge := none, ui := .close b :: rest } := by
  have hplaced : s.Placed (.detach :: rest) := hui ▸ h.placed
  have hhead : s.ui.head? = some .detach := by rw [hui]; rfl
  obtain ⟨hphases, hclose⟩ := h.plain_head hhead rfl
  refine ⟨⟨rfl, hplaced.2⟩, ?_, ?_, h.closing, ?_, ?_, ?_, h.passed⟩
  · intro b' hnone
    cases hnone
  · intro sid b' bridge hworker hnone
    cases hnone
  · intro b' bridge hbridge hphase
    exact absurd hphase (hphases b' bridge hbridge).1
  · intro b' bridge hbridge hphase
    exact absurd hphase (hphases b' bridge hbridge).2
  · intro b' bridge hbridge hopen
    rcases h.held b' bridge hbridge hopen with hinstalled | hhead | hworker
    · rw [hb] at hinstalled
      cases hinstalled
      exact .inr (.inl rfl)
    · exact absurd hhead (hclose b')
    · exact .inr (.inr hworker)

/-- An access to this bridge. -/
def Op.bridge? : Op → Option ℕ
  | .start b | .started b | .close b => some b
  | _ => none

/-- The bridges that the UI thread is not at. -/
theorem Sound.others (h : Sound s) (hop : s.ui.head?.bind Op.bridge? = some b) {b' : ℕ}
    (hne : b' ≠ b) (hbridge : s.bridges[b']? = some bridge) :
    bridge.phase ≠ .created ∧ bridge.phase ≠ .starting ∧ s.ui.head? ≠ some (.close b') := by
  refine ⟨fun hphase => hne ?_, fun hphase => hne ?_, fun hhead => hne ?_⟩
  · rw [h.created b' bridge hbridge hphase] at hop
    exact Option.some.inj hop
  · rw [h.starting b' bridge hbridge hphase] at hop
    exact Option.some.inj hop
  · rw [hhead] at hop
    exact Option.some.inj hop

/-- The UI thread changes the bridge it is at. -/
theorem Sound.set (h : Sound s) {f : Bridge → Bridge} (hop : s.ui.head?.bind Op.bridge? = some b)
    (hbridges : s'.bridges = (s.setBridge b f).bridges)
    (hinstalled : s'.installedBridge = s.installedBridge) (hworker : s'.worker = s.worker)
    (hpassed : ∀ sid, s'.Passed sid → s.Passed sid) (hplaced : s'.Placed s'.ui)
    (hsession : ∀ bridge, (f bridge).session = bridge.session)
    (hf : ∀ bridge, s.bridges[b]? = some bridge → (f bridge).phase ≠ .created ∧
      ((f bridge).phase = .starting → s'.ui.head? = some (.started b)) ∧
      ((f bridge).open → (s.installedBridge = some b ∨ ∃ sid, s.worker = .closing sid b) ∧
        (s'.Passed bridge.session → s.worker = .closing bridge.session b))) : Sound s' := by
  have hlength : s'.bridges.length = s.bridges.length := by
    rw [hbridges]
    exact List.length_modify _ _ _
  refine ⟨hplaced, ?_, ?_, ?_, ?_, ?_, ?_, ?_⟩
  · rw [hinstalled, hlength]
    exact h.installed
  · rw [hinstalled, hworker, hbridges]
    intro sid b' bridge' howned hb hbridge'
    rcases of_setBridge hbridge' with ⟨-, hbridge⟩ | ⟨rfl, bridge, hbridge, rfl⟩
    · exact h.owned sid b' bridge' howned hb hbridge
    · rw [hsession]
      exact h.owned sid b' bridge howned hb hbridge
  · rw [hworker, hbridges]
    intro sid b' hclosing
    obtain ⟨bridge, hbridge, hsid⟩ := h.closing sid b' hclosing
    by_cases hb : b' = b
    · refine ⟨f bridge, ?_, (hsession bridge).trans hsid⟩
      simp [Activity.setBridge, ← hb, hbridge]
    · refine ⟨bridge, ?_, hsid⟩
      simp [Activity.setBridge, Ne.symm hb, hbridge]
  · rw [hbridges]
    intro b' bridge' hbridge' hphase
    rcases of_setBridge hbridge' with ⟨hne, hbridge⟩ | ⟨rfl, bridge, hbridge, rfl⟩
    · exact absurd hphase (h.others hop hne hbridge).1
    · exact absurd hphase (hf bridge hbridge).1
  · rw [hbridges]
    intro b' bridge' hbridge' hphase
    rcases of_setBridge hbridge' with ⟨hne, hbridge⟩ | ⟨rfl, bridge, hbridge, rfl⟩
    · exact absurd hphase (h.others hop hne hbridge).2.1
    · exact (hf bridge hbridge).2.1 hphase
  · rw [hbridges, hinstalled, hworker]
    intro b' bridge' hbridge' hopen
    rcases of_setBridge hbridge' with ⟨hne, hbridge⟩ | ⟨rfl, bridge, hbridge, rfl⟩
    · rcases h.held b' bridge' hbridge hopen with hb | hhead | hclosing
      · exact .inl hb
      · exact absurd hhead (h.others hop hne hbridge).2.2
      · exact .inr (.inr hclosing)
    · exact ((hf bridge hbridge).2.2 hopen).1.imp_right .inr
  · rw [hbridges, hworker]
    intro b' bridge' hbridge' hopen hphase hp
    rcases of_setBridge hbridge' with ⟨-, hbridge⟩ | ⟨rfl, bridge, hbridge, rfl⟩
    · exact h.passed b' bridge' hbridge hopen hphase (hpassed _ hp)
    · rw [hsession] at hp ⊢
      exact ((hf bridge hbridge).2.2 hopen).2 hp

/-- A bridge stays in its field, or with the teardown thread, while the UI thread is at it. -/
theorem Sound.kept (h : Sound s) (hhead : s.ui.head? ≠ some (.close b))
    (hbridge : s.bridges[b]? = some bridge) (hopen : bridge.open) :
    s.installedBridge = some b ∨ ∃ sid, s.worker = .closing sid b := by
  rcases h.held b bridge hbridge hopen with hb | hclose | hclosing
  · exact .inl hb
  · exact absurd hclose hhead
  · exact .inr hclosing

/-- `startCamera` installs the bridge it made. -/
theorem Sound.install (h : Sound s) (hui : s.ui = .install sid :: rest)
    (howner : ∀ owner ∈ s.worker.owner?, owner = sid) :
    Sound { s with
      bridges := s.bridges ++ [{ session := sid, phase := .created, closed := false }]
      installedBridge := some s.bridges.length
      ui := .start s.bridges.length :: rest } := by
  have hplaced : s.Placed (.install sid :: rest) := hui ▸ h.placed
  obtain ⟨hnone, hsession, hrest⟩ := hplaced
  have hhead : s.ui.head? = some (.install sid) := by rw [hui]; rfl
  obtain ⟨hphases, hclose⟩ := h.plain_head hhead rfl
  have hnew : (s.bridges ++ [({ session := sid, phase := .created, closed := false } : Bridge)])[
      s.bridges.length]? = some { session := sid, phase := .created, closed := false } := by simp
  -- a bridge is one that was there or the new one
  have hbridges (b : ℕ) (bridge : Bridge) (hbridge : (s.bridges ++
      [({ session := sid, phase := .created, closed := false } : Bridge)])[b]? = some bridge) :
      s.bridges[b]? = some bridge ∨
        b = s.bridges.length ∧ bridge = { session := sid, phase := .created, closed := false } := by
    rw [List.getElem?_append] at hbridge
    split at hbridge
    · exact .inl hbridge
    · have hb : b - s.bridges.length = 0 := by
        by_contra hne
        rw [List.getElem?_eq_none (by simp; omega)] at hbridge
        cases hbridge
      rw [hb] at hbridge
      exact .inr ⟨by omega, (Option.some.inj hbridge).symm⟩
  refine ⟨⟨?_, hrest, _, hnew, rfl⟩, ?_, ?_, ?_, ?_, ?_, ?_, ?_⟩
  · intro b bridge hb hbridge
    cases hb
    rw [hnew] at hbridge
    cases hbridge
    exact hsession
  · intro b hb
    cases hb
    simp
  -- the worker may hold only a cancellation of this very session
  · intro owner b bridge howned hb hbridge
    cases hb
    rw [hnew] at hbridge
    cases hbridge
    have hmem : owner ∈ s.worker.owner? := by
      rw [howned]
      rfl
    exact (howner owner hmem).symm
  · intro sid' b hclosing
    obtain ⟨bridge, hbridge, hsid⟩ := h.closing sid' b hclosing
    refine ⟨bridge, ?_, hsid⟩
    rw [List.getElem?_append_left (List.getElem?_eq_some_iff.mp hbridge).1]
    exact hbridge
  · intro b bridge hbridge hphase
    rcases hbridges b bridge hbridge with hbridge | ⟨rfl, -⟩
    · exact absurd hphase (hphases b bridge hbridge).1
    · rfl
  · intro b bridge hbridge hphase
    rcases hbridges b bridge hbridge with hbridge | ⟨-, rfl⟩
    · exact absurd hphase (hphases b bridge hbridge).2
    · cases hphase
  · intro b bridge hbridge hopen
    rcases hbridges b bridge hbridge with hbridge | ⟨rfl, -⟩
    · rcases h.kept (hclose b) hbridge hopen with hb | hclosing
      · rw [hnone] at hb
        cases hb
      · exact .inr (.inr hclosing)
    · exact .inl rfl
  · intro b bridge hbridge hopen hphase hp
    rcases hbridges b bridge hbridge with hbridge | ⟨-, rfl⟩
    · exact h.passed b bridge hbridge hopen hphase hp
    · exact absurd rfl hphase

/-- An access that neither detaches a bridge nor is at one. -/
theorem Sound.call (h : Sound s) (hui : s.ui = op :: rest) (hplain : op.plain = true)
    (hbridges : s'.bridges = s.bridges) (hinstalled : s'.installedBridge = s.installedBridge)
    (hworker : s'.worker = s.worker) (hpassed : ∀ sid, s'.Passed sid → s.Passed sid)
    (hplaced : s'.Placed s'.ui) : Sound s' :=
  h.same hbridges hinstalled hworker (.inr (.inr ⟨op, by rw [hui]; rfl, hplain⟩)) hplaced hpassed

/-- A step of the UI thread. -/
theorem Sound.run {starts : Bool} (h : Sound s) (hui : s.ui = op :: rest)
    (hok : Undisturbed tr s (.ui starts)) (hs : s.run starts op rest = some s') : Sound s' := by
  have hplaced : s.Placed (op :: rest) := hui ▸ h.placed
  unfold Undisturbed at hok
  rw [hui] at hok
  cases op with
  | closeSession =>
    simp only [Activity.run] at hs
    split at hs
    · next sid _ =>
      obtain rfl := Option.some.inj hs
      refine h.call hui rfl rfl rfl rfl (fun _ hp => hp) ⟨.inr rfl, fun op hop => ?_⟩
      rcases List.mem_cons.mp hop with rfl | hop
      · trivial
      rcases List.mem_cons.mp hop with rfl | hop
      · trivial
      · exact hplaced.2 op hop
    · next hnone =>
      obtain rfl := Option.some.inj hs
      exact h.call hui rfl rfl rfl rfl (fun _ hp => hp) ⟨.inr hnone, hplaced.2⟩
  | cancelCapture sid =>
    obtain rfl := Option.some.inj hs
    obtain ⟨hbridges, hinstalled, -, hworker, -⟩ := cancelCapture_eq s sid
    refine h.call hui rfl hbridges hinstalled hworker (fun _ hp => passed_cancelCapture hp) ?_
    exact placed_of_late (hinstalled.trans hplaced.1) hplaced.2
  | endAuthorization sid =>
    obtain rfl := Option.some.inj hs
    refine h.call hui rfl rfl rfl rfl (fun sid' hp => ⟨?_, hp.2⟩)
      (placed_of_late hplaced.1 hplaced.2)
    rw [← captureCancelled_endAuthorization s sid sid']
    exact hp.1
  | clear =>
    obtain rfl := Option.some.inj hs
    exact h.call hui rfl rfl rfl rfl (fun _ hp => hp) (placed_of_late hplaced.1 hplaced.2)
  | assign sid =>
    obtain rfl := Option.some.inj hs
    exact h.call hui rfl rfl rfl rfl (fun _ hp => hp) (placed_of_late hplaced.1 hplaced.2)
  | detach =>
    simp only [Activity.run] at hs
    split at hs
    · next b hb =>
      obtain rfl := Option.some.inj hs
      exact h.detach hui hb
    · next hnone =>
      obtain rfl := Option.some.inj hs
      exact h.call hui rfl rfl rfl rfl (fun _ hp => hp) (placed_of_late hnone hplaced.2)
  | close b =>
    obtain ⟨closed, hclosed, rfl⟩ := Option.map_eq_some_iff.mp hs
    obtain ⟨rfl, -⟩ := close_eq_some hclosed
    have hhead : s.ui.head? = some (.close b) := by rw [hui]; rfl
    refine h.set (by rw [hhead]; rfl) rfl rfl rfl (fun _ hp => hp)
      (placed_of_late hplaced.1 hplaced.2) (fun _ => rfl) fun bridge hbridge => ⟨?_, ?_, ?_⟩
    · intro hphase
      have := h.created b bridge hbridge hphase
      rw [hhead] at this
      cases this
    · intro hphase
      have := h.starting b bridge hbridge hphase
      rw [hhead] at this
      cases this
    · rintro ⟨-, hopen⟩
      cases hopen
  | check camera =>
    obtain ⟨htied, rfl⟩ := hplaced
    have hback : Sound { s with ui := [] } :=
      h.call hui rfl rfl rfl rfl (fun _ hp => hp) htied
    simp only [Activity.run] at hs
    split at hs
    · obtain rfl := Option.some.inj hs
      exact hback
    next hinstalled =>
    have hnone : s.installedBridge = none := Option.not_isSome_iff_eq_none.mp hinstalled
    split at hs
    · obtain rfl := Option.some.inj hs
      exact hback
    next sid hsession =>
    split at hs
    · obtain rfl := Option.some.inj hs
      exact hback
    split at hs
    · obtain rfl := Option.some.inj hs
      exact h.call hui rfl rfl rfl rfl (fun _ hp => hp) ⟨.inl htied, fun _ hop => by cases hop⟩
    · obtain rfl := Option.some.inj hs
      exact h.call hui rfl rfl rfl rfl (fun _ hp => hp) ⟨hnone, hsession, rfl⟩
  | install sid =>
    obtain rfl := Option.some.inj hs
    exact h.install hui hok
  | start b =>
    obtain ⟨htied, hrest, bridge, hbridge, hcreated⟩ := hplaced
    have hhead : s.ui.head? = some (.start b) := by rw [hui]; rfl
    have hclose : s.ui.head? ≠ some (.close b) := by rw [hhead]; nofun
    have hown (bridge' : Bridge) (hbridge' : s.bridges[b]? = some bridge') : bridge' = bridge :=
      Option.some.inj (hbridge'.symm.trans hbridge)
    simp only [Activity.run, hbridge] at hs
    split at hs
    · obtain rfl := Option.some.inj hs
      refine h.set (by rw [hhead]; rfl) rfl rfl rfl (fun _ hp => hp) ⟨.inl ?_, ?_⟩ (fun _ => rfl)
        fun _ _ => ⟨nofun, nofun, fun hopen => absurd rfl hopen.1⟩
      · exact htied.setBridge fun _ => rfl
      · rw [hrest]
        exact fun _ hop => absurd hop List.not_mem_nil
    · next hpermitted =>
      obtain rfl := Option.some.inj hs
      refine h.set (by rw [hhead]; rfl) rfl rfl rfl (fun _ hp => hp)
        ⟨htied.setBridge fun _ => rfl, hrest, ?_⟩ (fun _ => rfl) fun bridge' hbridge' => ?_
      · refine ⟨{ bridge with phase := .starting }, ?_, rfl⟩
        simp [Activity.setBridge, hbridge]
      · obtain rfl := hown bridge' hbridge'
        refine ⟨nofun, fun _ => rfl, fun hopen => ⟨?_, fun hp => ?_⟩⟩
        · apply h.kept hclose hbridge
          refine ⟨?_, hopen.2⟩
          rw [hcreated]
          nofun
        -- the cancellation has not run when the bridge passes its check
        · have hauthorized : s.isAuthorized bridge'.session = true := by
            simp only [Bool.or_eq_true, not_or, Bool.not_eq_true', Bool.not_eq_false] at hpermitted
            exact hpermitted.2
          exact absurd hp (hok bridge' hbridge hopen.2 hauthorized)
  | started b =>
    obtain ⟨htied, hrest, bridge, hbridge, hstarting⟩ := hplaced
    have hhead : s.ui.head? = some (.started b) := by rw [hui]; rfl
    have hclose : s.ui.head? ≠ some (.close b) := by rw [hhead]; nofun
    simp only [Activity.run] at hs
    split at hs
    · obtain rfl := Option.some.inj hs
      refine h.set (by rw [hhead]; rfl) rfl rfl rfl (fun _ hp => hp) ?_ (fun _ => rfl)
        fun bridge' hbridge' => ?_
      · rw [hrest]
        exact htied.setBridge fun _ => rfl
      · obtain rfl : bridge' = bridge := Option.some.inj (hbridge'.symm.trans hbridge)
        refine ⟨nofun, nofun, fun hopen => ?_⟩
        have hbefore : bridge'.open := by
          refine ⟨?_, hopen.2⟩
          rw [hstarting]
          nofun
        refine ⟨h.kept hclose hbridge hbefore, h.passed b bridge' hbridge hbefore ?_⟩
        rw [hstarting]
        nofun
    · obtain rfl := Option.some.inj hs
      refine h.set (by rw [hhead]; rfl) rfl rfl rfl (fun _ hp => hp) ⟨.inl ?_, ?_⟩ (fun _ => rfl)
        fun _ _ => ⟨nofun, nofun, fun hopen => absurd rfl hopen.1⟩
      · exact htied.setBridge fun _ => rfl
      · rw [hrest]
        exact fun _ hop => absurd hop List.not_mem_nil

/-! ## The teardown thread -/

/-- The bridge is of the session shown, or is about to be detached. -/
theorem Activity.Placed.tied (h : s.Placed ops) :
    s.Tied ∨ s.session = none ∧ ops.head? = some .detach := by
  cases ops with
  | nil => exact .inl h
  | cons op rest =>
    cases op with
    | closeSession | check | start | started => exact .inl h.1
    | detach => exact h.1.imp_right fun hnone => ⟨hnone, rfl⟩
    | install | cancelCapture | endAuthorization | clear | assign | close =>
      exact .inl (tied_of_none h.1)

/-- The teardown thread takes the bridge out of its field. -/
theorem Activity.Placed.detached (h : s.Placed ops) (hbridges : s'.bridges = s.bridges)
    (hinstalled : s'.installedBridge = none) (hsession : s'.session = s.session) :
    s'.Placed ops := by
  have htied : s'.Tied := tied_of_none hinstalled
  cases ops with
  | nil => exact htied
  | cons op rest =>
    cases op with
    | closeSession => exact ⟨htied, h.2⟩
    | detach => exact ⟨.inl htied, h.2⟩
    | check => exact ⟨htied, h.2⟩
    | start b | started b =>
      refine ⟨htied, h.2.1, ?_⟩
      rw [hbridges]
      exact h.2.2
    | install => exact ⟨hinstalled, hsession.trans h.2.1, h.2.2⟩
    | cancelCapture | endAuthorization | clear | assign | close => exact ⟨hinstalled, h.2⟩

/-- A bridge is closed after it was detached. -/
theorem installed_none_of_close (h : s.Placed s.ui) (hhead : s.ui.head? = some (.close b)) :
    s.installedBridge = none := by
  cases hui : s.ui with
  | nil =>
    rw [hui] at hhead
    cases hhead
  | cons op rest =>
    rw [hui] at h hhead
    cases hhead
    exact h.1

/-- A bridge of the session that is still capturing is not the UI thread's to close. -/
theorem Sound.not_stopping (h : Sound s) (hstopping : s.stopping bridge.session = false)
    (hbridge : s.bridges[b]? = some bridge) (hopen : bridge.open)
    (hphase : bridge.phase ≠ .created) :
    s.ui.head? ≠ some (.close b) ∧
      (s.ui.head? = some .detach → s.installedBridge ≠ some b) := by
  have hcapturing (hstarting : s.ui.head? ≠ some (.started b)) : bridge.capturing = true := by
    have hrunning : bridge.phase = .running := by
      cases hcase : bridge.phase with
      | created => exact absurd hcase hphase
      | starting => exact absurd (h.starting b bridge hbridge hcase) hstarting
      | running => rfl
      | failed => exact absurd hcase hopen.1
    simp [Bridge.capturing, hrunning, hopen.2]
  cases hui : s.ui with
  | nil => exact ⟨nofun, nofun⟩
  | cons op rest =>
    constructor
    · intro hhead
      cases hhead
      have := hcapturing (by rw [hui]; nofun)
      simp [Activity.stopping, hui, hbridge, this] at hstopping
    · intro hhead hb
      cases hhead
      have := hcapturing (by rw [hui]; nofun)
      simp [Activity.stopping, hui, hb, hbridge, this] at hstopping

/-- A bridge of a session that no call is stopping is the installed one. -/
theorem Sound.installs (h : Sound s) (hbusy : ∀ sid b, s.worker ≠ .closing sid b)
    (hstopping : s.stopping bridge.session = false) (hbridge : s.bridges[b]? = some bridge)
    (hopen : bridge.open) (hphase : bridge.phase ≠ .created) :
    s.installedBridge = some b ∧ s.ui.head? ≠ some .detach := by
  obtain ⟨hclose, hdetach⟩ := h.not_stopping hstopping hbridge hopen hphase
  rcases h.held b bridge hbridge hopen with hb | hhead | ⟨owner, hclosing⟩
  · exact ⟨hb, fun hhead => hdetach hhead hb⟩
  · exact absurd hhead hclose
  · exact absurd hclosing (hbusy owner b)

/-- Between two closes the teardown thread leaves the bridges where they are. -/
theorem Sound.turns {jobs : List ℕ} {worker : Worker} (h : Sound s)
    (hbusy : ∀ sid b, s.worker ≠ .closing sid b) (hturned : ∀ sid b, worker ≠ .closing sid b)
    (howned : ∀ (sid b : ℕ) (bridge : Bridge), worker = .owned sid → s.installedBridge = some b →
      s.bridges[b]? = some bridge → bridge.session = sid)
    (hpassed : ∀ (b : ℕ) (bridge : Bridge), s.bridges[b]? = some bridge → bridge.open →
      bridge.phase ≠ .created → ¬ Activity.Passed { s with jobs, worker } bridge.session) :
    Sound { s with jobs, worker } := by
  refine ⟨?_, h.installed, howned, fun sid b hclosing => absurd hclosing (hturned sid b),
    h.created, h.starting, ?_, ?_⟩
  · exact h.placed.congr (fun b bridge hb => ⟨bridge, hb, rfl⟩)
      (fun b bridge hb => ⟨bridge, hb, rfl⟩) rfl rfl
  · intro b bridge hbridge hopen
    refine (h.held b bridge hbridge hopen).imp_right (Or.imp_right ?_)
    exact fun ⟨owner, hclosing⟩ => absurd hclosing (hbusy owner b)
  · intro b bridge hbridge hopen hphase hp
    exact absurd hp (hpassed b bridge hbridge hopen hphase)

/-- Only the cancellation that is taken gets past its detach. -/
theorem Sound.not_passed {jobs : List ℕ} {worker : Worker} (h : Sound s)
    (hworker : s.worker = .idle) (hjobs : s.jobs = sid :: jobs)
    (hbridge : s.bridges[b]? = some bridge) (hopen : bridge.open) (hphase : bridge.phase ≠ .created)
    (hne : bridge.session ≠ sid) :
    ¬ Activity.Passed { s with jobs, worker } bridge.session := by
  rintro ⟨hcancelled, hx, -⟩
  have hp : s.Passed bridge.session := by
    refine ⟨hcancelled, ?_, ?_⟩
    · rw [hjobs]
      exact fun hmem => (List.mem_cons.mp hmem).elim hne hx
    · rw [hworker]
      nofun
  have hclosing := h.passed b bridge hbridge hopen hphase hp
  rw [hworker] at hclosing
  cases hclosing

/-- The next cancellation is of the session shown. -/
theorem Sound.takes {jobs : List ℕ} (h : Sound s) (hworker : s.worker = .idle)
    (hjobs : s.jobs = sid :: jobs) (hsession : s.session = some sid) :
    Sound { s with jobs, worker := .owned sid } := by
  have hbusy (sid b : ℕ) : s.worker ≠ .closing sid b := by
    rw [hworker]
    nofun
  refine h.turns hbusy nofun ?_ fun b bridge hbridge hopen hphase hp => ?_
  · intro owner b bridge howned hb hbridge
    cases howned
    rcases h.placed.tied with htied | ⟨hnosession, -⟩
    · exact (Option.some.inj (hsession.symm.trans (htied b bridge hb hbridge))).symm
    · rw [hsession] at hnosession
      cases hnosession
  · have hne : bridge.session ≠ sid := fun heq => hp.2.2 (by rw [heq])
    exact h.not_passed hworker hjobs hbridge hopen hphase hne hp

/-- The next cancellation is of another session. -/
theorem Sound.skips {jobs : List ℕ} (h : Sound s) (hworker : s.worker = .idle)
    (hjobs : s.jobs = sid :: jobs) (hsession : s.session ≠ some sid)
    (hstopping : s.stopping sid = false) : Sound { s with jobs, worker := .idle } := by
  have hbusy (sid b : ℕ) : s.worker ≠ .closing sid b := by
    rw [hworker]
    nofun
  refine h.turns hbusy nofun nofun fun b bridge hbridge hopen hphase hp => ?_
  by_cases hsid : bridge.session = sid
  · subst hsid
    obtain ⟨hb, hhead⟩ := h.installs hbusy hstopping hbridge hopen hphase
    rcases h.placed.tied with htied | ⟨-, hdetach⟩
    · exact hsession (htied b bridge hb hbridge)
    · exact hhead hdetach
  · exact h.not_passed hworker hjobs hbridge hopen hphase hsid hp

/-- What has passed its detach when a cancellation is let go of. -/
theorem Sound.not_passed_owned {worker : Worker} {installed : Option ℕ} (h : Sound s)
    (hworker : s.worker = .owned sid) (hbridge : s.bridges[b]? = some bridge)
    (hopen : bridge.open) (hphase : bridge.phase ≠ .created) (hne : bridge.session ≠ sid) :
    ¬ Activity.Passed { s with installedBridge := installed, worker } bridge.session := by
  rintro ⟨hcancelled, hx, -⟩
  have hp : s.Passed bridge.session := by
    refine ⟨hcancelled, hx, fun howned => hne ?_⟩
    rw [hworker] at howned
    exact (Worker.owned.inj howned).symm
  have hclosing := h.passed b bridge hbridge hopen hphase hp
  rw [hworker] at hclosing
  cases hclosing

/-- The bridge is taken out of its field. -/
theorem Sound.takesBridge (h : Sound s) (hworker : s.worker = .owned sid)
    (hb : s.installedBridge = some b) :
    Sound { s with installedBridge := none, worker := .closing sid b } := by
  have hbusy (sid b : ℕ) : s.worker ≠ .closing sid b := by
    rw [hworker]
    nofun
  have hlt := h.installed b hb
  have hbridge : s.bridges[b]? = some s.bridges[b] := List.getElem?_eq_getElem hlt
  refine ⟨h.placed.detached rfl rfl rfl, nofun, nofun, ?_, h.created, h.starting, ?_, ?_⟩
  · intro sid' b' hclosing
    obtain ⟨rfl, rfl⟩ := Worker.closing.inj hclosing
    exact ⟨_, hbridge, h.owned sid b _ hworker hb hbridge⟩
  · intro b' bridge' hbridge' hopen
    rcases h.held b' bridge' hbridge' hopen with hb' | hhead | ⟨owner, hclosing⟩
    · rw [hb] at hb'
      cases hb'
      exact .inr (.inr ⟨sid, rfl⟩)
    · exact .inr (.inl hhead)
    · exact absurd hclosing (hbusy owner b')
  · intro b' bridge' hbridge' hopen hphase hp
    by_cases hsid : bridge'.session = sid
    · rcases h.held b' bridge' hbridge' hopen with hb' | hhead | ⟨owner, hclosing⟩
      · rw [hb] at hb'
        cases hb'
        rw [hsid]
      · rw [installed_none_of_close h.placed hhead] at hb
        cases hb
      · exact absurd hclosing (hbusy owner b')
    · exact absurd hp (h.not_passed_owned hworker hbridge' hopen hphase hsid)

/-- No bridge is installed, so the cancellation has nothing to close. -/
theorem Sound.lets (h : Sound s) (hworker : s.worker = .owned sid)
    (hinstalled : s.installedBridge = none) (hstopping : s.stopping sid = false) :
    Sound { s with worker := .idle } := by
  have hbusy (sid b : ℕ) : s.worker ≠ .closing sid b := by
    rw [hworker]
    nofun
  refine h.turns hbusy nofun nofun fun b bridge hbridge hopen hphase hp => ?_
  by_cases hsid : bridge.session = sid
  · subst hsid
    obtain ⟨hb, -⟩ := h.installs hbusy hstopping hbridge hopen hphase
    rw [hinstalled] at hb
    cases hb
  · exact h.not_passed_owned hworker hbridge hopen hphase hsid hp

/-- The bridge that was taken is closed. -/
theorem Sound.closes {closed : Activity} (h : Sound s) (hworker : s.worker = .closing sid b)
    (hclosed : s.close b = some closed) : Sound { closed with worker := .idle } := by
  obtain ⟨rfl, -⟩ := close_eq_some hclosed
  have hopened (b' : ℕ) (bridge' : Bridge) (hbridge' : (s.setBridge b fun bridge =>
      { bridge with closed := true }).bridges[b']? = some bridge') (hopen : bridge'.open) :
      b' ≠ b ∧ s.bridges[b']? = some bridge' := by
    rcases of_setBridge hbridge' with hother | ⟨-, bridge, -, rfl⟩
    · exact hother
    · cases hopen.2
  refine ⟨?_, ?_, nofun, nofun, ?_, ?_, ?_, ?_⟩
  · refine h.placed.congr (fun b' bridge' hbridge' => ?_) (fun b' bridge hbridge => ?_) rfl rfl
    · rcases of_setBridge hbridge' with ⟨-, hbridge⟩ | ⟨rfl, bridge, hbridge, rfl⟩
      · exact ⟨bridge', hbridge, rfl⟩
      · exact ⟨bridge, hbridge, rfl⟩
    · by_cases hb : b = b'
      · refine ⟨{ bridge with closed := true }, ?_, rfl⟩
        simp [Activity.setBridge, hb, hbridge]
      · refine ⟨bridge, ?_, rfl⟩
        simp [Activity.setBridge, hb, hbridge]
  · intro b' hb'
    have hlt := h.installed b' hb'
    simpa [Activity.setBridge] using hlt
  · intro b' bridge' hbridge' hphase
    rcases of_setBridge hbridge' with ⟨-, hbridge⟩ | ⟨rfl, bridge, hbridge, rfl⟩
    · exact h.created b' bridge' hbridge hphase
    · exact h.created b' bridge hbridge hphase
  · intro b' bridge' hbridge' hphase
    rcases of_setBridge hbridge' with ⟨-, hbridge⟩ | ⟨rfl, bridge, hbridge, rfl⟩
    · exact h.starting b' bridge' hbridge hphase
    · exact h.starting b' bridge hbridge hphase
  · intro b' bridge' hbridge' hopen
    obtain ⟨hne, hbridge⟩ := hopened b' bridge' hbridge' hopen
    refine (h.held b' bridge' hbridge hopen).imp_right (Or.imp_right ?_)
    rintro ⟨owner, hclosing⟩
    rw [hworker] at hclosing
    exact absurd (Worker.closing.inj hclosing).2.symm hne
  · rintro b' bridge' hbridge' hopen hphase ⟨hcancelled, hx, -⟩
    obtain ⟨hne, hbridge⟩ := hopened b' bridge' hbridge' hopen
    have hidle : s.worker ≠ .owned bridge'.session := by
      rw [hworker]
      nofun
    have hclosing := h.passed b' bridge' hbridge hopen hphase ⟨hcancelled, hx, hidle⟩
    rw [hworker] at hclosing
    exact absurd (Worker.closing.inj hclosing).2.symm hne

/-- A step of the teardown thread, which closes a bridge of its session. -/
theorem Sound.teardown (h : Sound s) (hok : Undisturbed tr s .worker)
    (hs : s.teardown = some (s', es)) :
    Sound s' ∧ ∀ sid b, .tornDown sid b ∈ es →
      ∃ bridge, s.bridges[b]? = some bridge ∧ bridge.session = sid := by
  have hnone (sid b : ℕ) (hmem : Event.tornDown sid b ∈ []) :
      ∃ bridge, s.bridges[b]? = some bridge ∧ bridge.session = sid :=
    absurd hmem List.not_mem_nil
  unfold Activity.teardown at hs
  unfold Undisturbed at hok
  cases hworker : s.worker with
  | idle =>
    simp only [hworker] at hs hok
    split at hs
    · cases hs
    next sid jobs hjobs =>
    rw [hjobs] at hok
    split at hs
    · next hsession =>
      obtain ⟨rfl, rfl⟩ := Prod.mk.inj (Option.some.inj hs)
      exact ⟨h.takes hworker hjobs hsession, hnone⟩
    · next hsession =>
      obtain ⟨rfl, rfl⟩ := Prod.mk.inj (Option.some.inj hs)
      exact ⟨h.skips hworker hjobs hsession (hok.resolve_left hsession), hnone⟩
  | owned sid =>
    simp only [hworker] at hs hok
    split at hs
    · next b hb =>
      obtain ⟨rfl, rfl⟩ := Prod.mk.inj (Option.some.inj hs)
      exact ⟨h.takesBridge hworker hb, hnone⟩
    · next hinstalled =>
      obtain ⟨rfl, rfl⟩ := Prod.mk.inj (Option.some.inj hs)
      exact ⟨h.lets hworker hinstalled (hok hinstalled), hnone⟩
  | closing sid b =>
    simp only [hworker] at hs
    obtain ⟨closed, hclosed, heq⟩ := Option.map_eq_some_iff.mp hs
    obtain ⟨rfl, rfl⟩ := Prod.mk.inj heq
    refine ⟨h.closes hworker hclosed, fun sid' b' hmem => ?_⟩
    cases List.mem_singleton.mp hmem
    exact h.closing sid b hworker

/-! ## Over a run -/

/-- The invariant holds at the start. -/
theorem sound_fresh : Sound fresh := by
  refine ⟨?_, nofun, nofun, nofun, nofun, nofun, nofun, nofun⟩
  exact tied_of_none rfl

/-- Only the sessions change, and no cancellation is raised. -/
theorem Sound.sessions (h : Sound s) {sessions : List Session}
    (hcancelled : ∀ sid, sessions[sid]?.any Session.captureCancelled = true →
      s.captureCancelled sid = true) : Sound { s with sessions } := by
  refine h.same rfl rfl rfl (.inl rfl) ?_ fun sid hp => ⟨hcancelled sid hp.1, hp.2⟩
  exact h.placed.congr (fun b bridge hb => ⟨bridge, hb, rfl⟩)
    (fun b bridge hb => ⟨bridge, hb, rfl⟩) rfl rfl

/-- What a step does, with what it found. -/
inductive Moved (s : Activity) : Label → Activity → List Event → Prop
  | connect :
      Moved s .connect { s with
        sessions := s.sessions ++
          [{ isAuthorized := false, ended := false, captureCancelled := false }] } []
  | grant (sid : ℕ) :
      Moved s (.grant sid) { s with
        sessions := s.sessions.modify sid fun session =>
          { session with isAuthorized := true } } []
  | endAuthorization (sid : ℕ) : Moved s (.endAuthorization sid) (s.endAuthorization sid) []
  | cancelCapture (sid : ℕ) : Moved s (.cancelCapture sid) (s.cancelCapture sid) []
  | call (call : Call) : s.ui = [] → Moved s (.call call) { s with ui := call.program s } []
  | ui {starts : Bool} {op : Op} {rest : List Op} {s' : Activity} : s.ui = op :: rest →
      s.run starts op rest = some s' → Moved s (.ui starts) s' []
  | worker {s' : Activity} {es : List Event} : s.teardown = some (s', es) →
      Moved s .worker s' es

/-- Every step is one of these. -/
theorem moved_of_step {l : Label} (hs : step s l = some (s', es)) : Moved s l s' es := by
  cases l with
  | connect =>
    obtain ⟨rfl, rfl⟩ := Prod.mk.inj (Option.some.inj hs)
    exact .connect
  | grant sid =>
    simp only [CaptureCancellation.step] at hs
    split at hs
    · split at hs
      · cases hs
      · obtain ⟨rfl, rfl⟩ := Prod.mk.inj (Option.some.inj hs)
        exact .grant sid
    · cases hs
  | endAuthorization sid =>
    obtain ⟨rfl, rfl⟩ := Prod.mk.inj (Option.some.inj hs)
    exact .endAuthorization sid
  | cancelCapture sid =>
    obtain ⟨rfl, rfl⟩ := Prod.mk.inj (Option.some.inj hs)
    exact .cancelCapture sid
  | call call =>
    simp only [CaptureCancellation.step] at hs
    split at hs
    · next hui =>
      obtain ⟨rfl, rfl⟩ := Prod.mk.inj (Option.some.inj hs)
      exact .call call hui
    · cases hs
  | ui starts =>
    simp only [CaptureCancellation.step] at hs
    split at hs
    · cases hs
    · next hui =>
      obtain ⟨after, hafter, heq⟩ := Option.map_eq_some_iff.mp hs
      obtain ⟨rfl, rfl⟩ := Prod.mk.inj heq
      exact .ui hui hafter
  | worker => exact .worker hs

/-- The teardown thread leaves the bridges and the UI thread alone, or closes one bridge. -/
theorem teardown_bridges (hs : s.teardown = some (s', es)) :
    s'.bridges = s.bridges ∧ s'.ui = s.ui ∨
      ∃ b closed, s.close b = some closed ∧ s'.bridges = closed.bridges ∧ s'.ui = closed.ui := by
  unfold Activity.teardown at hs
  split at hs
  · split at hs
    · cases hs
    · split at hs <;> obtain ⟨rfl, -⟩ := Prod.mk.inj (Option.some.inj hs) <;>
        exact .inl ⟨rfl, rfl⟩
  · split at hs <;> obtain ⟨rfl, -⟩ := Prod.mk.inj (Option.some.inj hs) <;>
      exact .inl ⟨rfl, rfl⟩
  · obtain ⟨closed, hclosed, heq⟩ := Option.map_eq_some_iff.mp hs
    obtain ⟨rfl, -⟩ := Prod.mk.inj heq
    exact .inr ⟨_, closed, hclosed, rfl, rfl⟩

/-- Every step that meets the condition keeps the invariant. -/
theorem Sound.step {l : Label} (h : Sound s) (hok : Undisturbed tr s l)
    (hs : step s l = some (s', es)) :
    Sound s' ∧ ∀ sid b, .tornDown sid b ∈ es →
      ∃ bridge, s.bridges[b]? = some bridge ∧ bridge.session = sid := by
  have hnone (sid b : ℕ) (hmem : Event.tornDown sid b ∈ []) :
      ∃ bridge, s.bridges[b]? = some bridge ∧ bridge.session = sid :=
    absurd hmem List.not_mem_nil
  cases moved_of_step hs with
  | connect =>
    refine ⟨h.sessions fun sid hcancelled => ?_, hnone⟩
    rw [List.getElem?_append] at hcancelled
    split at hcancelled
    · exact hcancelled
    · rcases hi : sid - s.sessions.length with _ | i
      · simp [hi] at hcancelled
      · simp [hi] at hcancelled
  | grant sid =>
    refine ⟨h.sessions fun sid' hcancelled => ?_, hnone⟩
    have hsame : (s.sessions.modify sid fun session =>
        { session with isAuthorized := true })[sid']?.any Session.captureCancelled =
          s.captureCancelled sid' := any_modify fun _ => rfl
    exact hsame.symm.trans hcancelled
  | endAuthorization sid =>
    refine ⟨h.sessions fun sid' hcancelled => ?_, hnone⟩
    exact (captureCancelled_endAuthorization s sid sid').symm.trans hcancelled
  | cancelCapture sid =>
    obtain ⟨hbridges, hinstalled, hsession, hworker, hui⟩ := cancelCapture_eq s sid
    refine ⟨h.same hbridges hinstalled hworker (.inl (by rw [hui])) ?_
      fun _ hp => passed_cancelCapture hp, hnone⟩
    rw [hui]
    refine h.placed.congr (fun b bridge hb => ⟨bridge, ?_, rfl⟩)
      (fun b bridge hb => ⟨bridge, ?_, rfl⟩) hinstalled hsession
    · rw [← hbridges]
      exact hb
    · rw [hbridges]
      exact hb
  | call call hui =>
    have htied : s.Tied := by
      have := h.placed
      rw [hui] at this
      exact this
    refine ⟨h.same rfl rfl rfl (.inr (.inl hui)) ?_ fun _ hp => hp, hnone⟩
    have hnil (op : Op) (hmem : op ∈ ([] : List Op)) : op.late := absurd hmem List.not_mem_nil
    cases call with
    | stopCamera => exact ⟨.inl htied, hnil⟩
    | closeSession => exact ⟨htied, hnil⟩
    | opened sid => exact ⟨htied, fun op hop => by rw [List.mem_singleton.mp hop]; trivial⟩
    | dropped sid =>
      simp only [Call.program]
      split
      · exact ⟨.inl htied, fun op hop => by rw [List.mem_singleton.mp hop]; trivial⟩
      · exact htied
    | startCamera camera => exact ⟨htied, rfl⟩
  | ui hui hafter => exact ⟨h.run hui hok hafter, hnone⟩
  | worker hteardown => exact h.teardown hok hteardown

/-- The bridges stay on the list, each with its session. -/
def Activity.Keeps (s s' : Activity) : Prop :=
  ∀ (b : ℕ) (bridge : Bridge), s.bridges[b]? = some bridge →
    ∃ bridge' : Bridge, s'.bridges[b]? = some bridge' ∧ bridge'.session = bridge.session

theorem keeps_of_eq (h : s'.bridges = s.bridges) : s.Keeps s' := by
  intro b bridge hbridge
  exact ⟨bridge, h ▸ hbridge, rfl⟩

theorem keeps_setBridge {f : Bridge → Bridge} (h : s'.bridges = (s.setBridge b f).bridges)
    (hf : ∀ bridge, (f bridge).session = bridge.session) : s.Keeps s' := by
  intro b' bridge hbridge
  by_cases hb : b = b'
  · refine ⟨f bridge, ?_, hf bridge⟩
    simp [h, Activity.setBridge, hb, hbridge]
  · refine ⟨bridge, ?_, rfl⟩
    simp [h, Activity.setBridge, hb, hbridge]

/-- The UI thread leaves every bridge to its session. -/
theorem keeps_run {starts : Bool} (hs : s.run starts op rest = some s') : s.Keeps s' := by
  cases op with
  | closeSession =>
    simp only [Activity.run] at hs
    split at hs <;> obtain rfl := Option.some.inj hs <;> exact keeps_of_eq rfl
  | cancelCapture sid =>
    obtain rfl := Option.some.inj hs
    exact keeps_of_eq (cancelCapture_eq s sid).1
  | endAuthorization | clear | assign =>
    obtain rfl := Option.some.inj hs
    exact keeps_of_eq rfl
  | detach =>
    simp only [Activity.run] at hs
    split at hs <;> obtain rfl := Option.some.inj hs <;> exact keeps_of_eq rfl
  | close b =>
    obtain ⟨closed, hclosed, rfl⟩ := Option.map_eq_some_iff.mp hs
    obtain ⟨rfl, -⟩ := close_eq_some hclosed
    exact keeps_setBridge rfl fun _ => rfl
  | check camera =>
    simp only [Activity.run] at hs
    repeat' split at hs
    all_goals
      obtain rfl := Option.some.inj hs
      exact keeps_of_eq rfl
  | install sid =>
    obtain rfl := Option.some.inj hs
    intro b bridge hbridge
    refine ⟨bridge, ?_, rfl⟩
    rw [List.getElem?_append_left (List.getElem?_eq_some_iff.mp hbridge).1]
    exact hbridge
  | start b =>
    simp only [Activity.run] at hs
    split at hs
    · cases hs
    · split at hs <;> obtain rfl := Option.some.inj hs <;>
        exact keeps_setBridge rfl fun _ => rfl
  | started b =>
    simp only [Activity.run] at hs
    split at hs <;> obtain rfl := Option.some.inj hs <;>
      exact keeps_setBridge rfl fun _ => rfl

/-- So does every step. -/
theorem keeps_step {l : Label} (hs : step s l = some (s', es)) : s.Keeps s' := by
  cases moved_of_step hs with
  | connect | grant | endAuthorization | call => exact keeps_of_eq rfl
  | cancelCapture sid => exact keeps_of_eq (cancelCapture_eq s sid).1
  | ui _ hafter => exact keeps_run hafter
  | worker hteardown =>
    rcases teardown_bridges hteardown with ⟨hbridges, -⟩ | ⟨b, closed, hclosed, hbridges, -⟩
    · exact keeps_of_eq hbridges
    · obtain ⟨rfl, -⟩ := close_eq_some hclosed
      exact keeps_setBridge hbridges fun _ => rfl

/-- The session's cancellation is raised, and the job of its teardown is over. -/
def Activity.Finished (s : Activity) (sid : ℕ) : Prop :=
  s.captureCancelled sid = true ∧ sid ∉ s.jobs ∧ s.worker ≠ .owned sid ∧
    ∀ b, s.worker ≠ .closing sid b

/-- `startCamera` has a bridge to install, to start or that is starting. -/
def Activity.startingCamera (s : Activity) : Prop :=
  ∃ op, s.ui.head? = some op ∧ ∃ n, op = .install n ∨ op = .start n ∨ op = .started n

/-- **A cancellation closes the bridge of its own session, and leaves none behind.** -/
theorem cancellation_owns (h : system.Under Undisturbed tr s) :
    (∀ sid b, .tornDown sid b ∈ tr →
      ∃ bridge, s.bridges[b]? = some bridge ∧ bridge.session = sid) ∧
    ∀ sid session, s.sessions[sid]? = some session → session.ended = true → s.Finished sid →
      ¬ s.startingCamera → ∀ bridge ∈ s.bridges, bridge.session = sid →
        bridge.closed = true ∨ bridge.phase = .failed := by
  have hboth : Sound s ∧ ∀ sid b, .tornDown sid b ∈ tr →
      ∃ bridge, s.bridges[b]? = some bridge ∧ bridge.session = sid := by
    refine h.invariant (P := fun tr s => Sound s ∧ ∀ sid b, .tornDown sid b ∈ tr →
      ∃ bridge, s.bridges[b]? = some bridge ∧ bridge.session = sid) ?_ ?_
    · rintro s rfl
      exact ⟨sound_fresh, nofun⟩
    · rintro tr s l s' es - hok ⟨hsound, htorn⟩ hs
      obtain ⟨hsound', hes⟩ := hsound.step hok hs
      refine ⟨hsound', fun sid b hmem => ?_⟩
      have hbefore : ∃ bridge, s.bridges[b]? = some bridge ∧ bridge.session = sid :=
        (List.mem_append.mp hmem).elim (htorn sid b) (hes sid b)
      obtain ⟨bridge, hbridge, rfl⟩ := hbefore
      exact keeps_step hs b bridge hbridge
  refine ⟨hboth.2, fun sid session _ _ hfinished hui bridge hmem hsid => ?_⟩
  obtain ⟨b, hbridge⟩ := List.getElem?_of_mem hmem
  by_contra hopen
  obtain ⟨hclosed, hphase⟩ := not_or.mp hopen
  have hcreated : bridge.phase ≠ .created := fun hcase =>
    hui ⟨_, hboth.1.created b bridge hbridge hcase, b, .inr (.inl rfl)⟩
  have hpassed : s.Passed bridge.session := by
    rw [hsid]
    exact ⟨hfinished.1, hfinished.2.1, hfinished.2.2.1⟩
  have hclosing := hboth.1.passed b bridge hbridge ⟨hphase, Bool.eq_false_iff.mpr hclosed⟩ hcreated
    hpassed
  rw [hsid] at hclosing
  exact hfinished.2.2.2 b hclosing

/-- One session, its capture, and the loss of its authorization while the capture runs. -/
def revoked : List Label :=
  [.connect, .call (.opened 0), .ui true, .ui true, .ui true, .grant 0, .call (.startCamera true),
    .ui true, .ui true, .ui true, .ui true, .endAuthorization 0, .cancelCapture 0, .worker, .worker,
    .worker]

/-- The session that loses its authorization has its bridge closed. -/
theorem cancellation_owns_revoked : .tornDown 0 0 ∈ system.trace fresh revoked ∧
    (∃ session, (system.final fresh revoked).sessions[0]? = some session ∧ session.ended = true) ∧
    ∀ bridge ∈ (system.final fresh revoked).bridges, bridge.session = 0 →
      bridge.closed = true ∨ bridge.phase = .failed := by
  refine ⟨by decide, ⟨_, rfl, rfl⟩, ?_⟩
  have h := cancellation_owns
    (EventSystem.under_trace (M := system) revoked rfl (by decide) (by decide))
  exact h.2 0 _ rfl rfl ⟨rfl, by decide, nofun, nofun⟩ (by rintro ⟨op, hop, -⟩; cases hop)

/-- The ownership test comes before another session takes the first one's place, the detach after
its capture has been installed. -/
def replaced : List Label :=
  [.connect, .connect, .call (.opened 0), .ui true, .ui true, .ui true, .endAuthorization 0,
    .cancelCapture 0, .worker, .call (.opened 1), .ui true, .ui true, .ui true, .ui true, .ui true,
    .grant 1, .call (.startCamera true), .ui true, .ui true, .ui true, .ui true, .worker, .worker]

/-- `closeMedia` raises the cancellation before it ends the authorization, and the capture starts
between the two. -/
def early : List Label :=
  [.connect, .call (.opened 0), .ui true, .ui true, .ui true, .grant 0, .cancelCapture 0, .worker,
    .worker, .call (.startCamera true), .ui true, .ui true, .ui true, .ui true,
    .endAuthorization 0]

/-- A stale cancellation closes another session's bridge, and one that came too early leaves a
bridge capturing. -/
theorem cancellation_late :
    (∃ tr s bridge, system.Reaches tr s ∧ .tornDown 0 0 ∈ tr ∧ s.bridges[0]? = some bridge ∧
      bridge.session = 1 ∧ s.isAuthorized 1 = true) ∧
    ∃ tr s session bridge, system.Reaches tr s ∧ s.sessions[0]? = some session ∧
      session.ended = true ∧ s.Finished 0 ∧ ¬ s.startingCamera ∧ s.bridges[0]? = some bridge ∧
      bridge.session = 0 ∧ bridge.capturing = true := by
  constructor
  · exact ⟨_, _, _, EventSystem.reaches_trace (M := system) replaced rfl (by decide), by decide,
      rfl, rfl, rfl⟩
  · refine ⟨_, _, _, _, EventSystem.reaches_trace (M := system) early rfl (by decide), rfl, rfl,
      ⟨rfl, by decide, nofun, nofun⟩, ?_, rfl, rfl, rfl⟩
    rintro ⟨op, hop, -⟩
    cases hop

end CaptureCancellation
end MobileWebcamBridge
