import MobileWebcamBridge.Phone.CaptureCancellation.Ownership

/-!
# A closed bridge never captures

`start` tests `closed` and goes on under the lock that `close` waits for, so no bridge is closed
while it starts. From there on it is never started again, in any run.
-/

set_option autoImplicit false

namespace MobileWebcamBridge
namespace CaptureCancellation

variable {es : List Event} {s s' : Activity} {sid b : ℕ} {bridge : Bridge} {op : Op}
  {rest ops : List Op}

/-- Only the first access can be the end of a start, of a bridge that is starting; none that is
closed is. -/
structure Locked (s : Activity) : Prop where
  once : ∀ b, .started b ∉ s.ui.tail
  starting : ∀ (b : ℕ) (bridge : Bridge), s.ui.head? = some (.started b) →
    s.bridges[b]? = some bridge → bridge.phase = .starting
  closed : ∀ (b : ℕ) (bridge : Bridge), s.bridges[b]? = some bridge → bridge.closed = true →
    bridge.phase ≠ .starting

/-- How one bridge may have come out of another: not opened again, nor started once closed. -/
structure Bridge.Follows (bridge bridge' : Bridge) : Prop where
  closed : bridge.closed = true → bridge'.closed = true
  running : bridge.closed = true → bridge'.phase = .running → bridge.phase = .running

/-- The bridges stay on the list, each follows itself, and what is closed is not starting. -/
structure Activity.Follows (s s' : Activity) : Prop where
  each : ∀ (b : ℕ) (bridge : Bridge), s.bridges[b]? = some bridge →
    ∃ bridge' : Bridge, s'.bridges[b]? = some bridge' ∧ bridge.Follows bridge'
  closed : ∀ (b : ℕ) (bridge : Bridge), s'.bridges[b]? = some bridge → bridge.closed = true →
    bridge.phase ≠ .starting

/-- A bridge on which nothing happens. -/
theorem Bridge.Follows.refl (bridge : Bridge) : bridge.Follows bridge :=
  ⟨id, fun _ h => h⟩

/-- A step that leaves the bridges alone. -/
theorem Locked.same (h : Locked s) (hbridges : s'.bridges = s.bridges) : s.Follows s' where
  each _ bridge hb := ⟨bridge, hbridges ▸ hb, .refl bridge⟩
  closed b bridge hb := h.closed b bridge (hbridges ▸ hb)

/-- A bridge is installed. -/
theorem Locked.install (h : Locked s)
    (hbridges : s'.bridges = s.bridges ++
      [{ session := sid, phase := .created, closed := false }]) :
    s.Follows s' where
  each b bridge hb := by
    refine ⟨bridge, ?_, .refl bridge⟩
    rw [hbridges, List.getElem?_append_left (List.getElem?_eq_some_iff.mp hb).1]
    exact hb
  closed _ bridge hb hclosed := by
    rw [hbridges] at hb
    rcases List.mem_append.mp (List.mem_of_getElem? hb) with hold | hnew
    · obtain ⟨b', hb'⟩ := List.getElem?_of_mem hold
      exact h.closed b' bridge hb' hclosed
    · rw [List.mem_singleton.mp hnew] at hclosed
      cases hclosed

/-- One bridge changes. -/
theorem Locked.set (h : Locked s) {f : Bridge → Bridge}
    (hbridges : s'.bridges = (s.setBridge b f).bridges)
    (hf : ∀ bridge, s.bridges[b]? = some bridge → bridge.Follows (f bridge) ∧
      ((f bridge).closed = true → (f bridge).phase ≠ .starting)) : s.Follows s' where
  each b' bridge hb' := by
    by_cases hb : b' = b
    · subst hb
      refine ⟨f bridge, ?_, (hf bridge hb').1⟩
      simp [hbridges, Activity.setBridge, hb']
    · refine ⟨bridge, ?_, .refl bridge⟩
      simp [hbridges, Activity.setBridge, Ne.symm hb, hb']
  closed b' bridge hb' hclosed := by
    rw [hbridges] at hb'
    rcases of_setBridge hb' with ⟨-, hold⟩ | ⟨rfl, bridge, hold, rfl⟩
    · exact h.closed b' bridge hold hclosed
    · exact (hf bridge hold).2 hclosed

/-- A bridge is closed, outside its start. -/
theorem Locked.close (h : Locked s) {closed : Activity} (hclose : s.close b = some closed)
    (hbridges : s'.bridges = closed.bridges) : s.Follows s' := by
  obtain ⟨rfl, bridge, hbridge, hphase⟩ := close_eq_some hclose
  refine h.set hbridges fun other hother => ⟨⟨fun _ => rfl, fun _ hrun => hrun⟩, fun _ => ?_⟩
  obtain rfl := Option.some.inj (hbridge.symm.trans hother)
  exact hphase

/-- An access of the UI thread: what it does to the bridges, and where the end of a start comes
from. -/
theorem Locked.run {starts : Bool} (h : Locked s) (hui : s.ui = op :: rest)
    (hs : s.run starts op rest = some s') :
    s.Follows s' ∧ (∀ b, .started b ∉ s'.ui.tail) ∧
      ∀ (b : ℕ) (bridge : Bridge), s'.ui.head? = some (.started b) → s'.bridges[b]? = some bridge →
        bridge.phase = .starting := by
  have hrest : ∀ b, .started b ∉ rest := by
    have := h.once
    rwa [hui] at this
  have htail : ∀ b, .started b ∉ rest.tail := fun b hmem => hrest b (List.mem_of_mem_tail hmem)
  have hhead : ∀ b, rest.head? ≠ some (.started b) :=
    fun b hhead => hrest b (List.mem_of_mem_head? hhead)
  -- the access leaves `rest`, perhaps behind others that end no start
  have hplain {s' : Activity} (hfollows : s.Follows s')
      (hrestui : s'.ui = rest ∨ ∃ op', s'.ui = op' :: rest ∧ ∀ b, op' ≠ .started b) :
      s.Follows s' ∧ (∀ b, .started b ∉ s'.ui.tail) ∧
        ∀ (b : ℕ) (bridge : Bridge), s'.ui.head? = some (.started b) →
          s'.bridges[b]? = some bridge → bridge.phase = .starting := by
    rcases hrestui with hsame | ⟨op', hcons, hop'⟩
    · rw [hsame]
      exact ⟨hfollows, htail, fun b _ hstarted => absurd hstarted (hhead b)⟩
    · rw [hcons]
      exact ⟨hfollows, hrest, fun b _ hstarted => absurd (Option.some.inj hstarted) (hop' b)⟩
  cases op with
  | closeSession =>
    simp only [Activity.run] at hs
    split at hs
    · obtain rfl := Option.some.inj hs
      refine ⟨h.same rfl, fun b hmem => ?_, fun b bridge hstarted => by cases hstarted⟩
      simp only [List.tail_cons, List.mem_cons, reduceCtorEq, false_or] at hmem
      exact hrest b hmem
    · obtain rfl := Option.some.inj hs
      exact hplain (h.same rfl) (.inr ⟨_, rfl, by simp⟩)
  | cancelCapture sid =>
    obtain rfl := Option.some.inj hs
    exact hplain (h.same (cancelCapture_eq s sid).1) (.inl rfl)
  | endAuthorization | clear | assign =>
    obtain rfl := Option.some.inj hs
    exact hplain (h.same rfl) (.inl rfl)
  | detach =>
    simp only [Activity.run] at hs
    split at hs
    · obtain rfl := Option.some.inj hs
      exact hplain (h.same rfl) (.inr ⟨_, rfl, by simp⟩)
    · obtain rfl := Option.some.inj hs
      exact hplain (h.same rfl) (.inl rfl)
  | close b =>
    obtain ⟨closed, hclosed, rfl⟩ := Option.map_eq_some_iff.mp hs
    exact hplain (h.close hclosed rfl) (.inl rfl)
  | check camera =>
    simp only [Activity.run] at hs
    split at hs
    · obtain rfl := Option.some.inj hs
      exact hplain (h.same rfl) (.inl rfl)
    split at hs
    · obtain rfl := Option.some.inj hs
      exact hplain (h.same rfl) (.inl rfl)
    split at hs
    · obtain rfl := Option.some.inj hs
      exact hplain (h.same rfl) (.inl rfl)
    split at hs
    · obtain rfl := Option.some.inj hs
      exact hplain (h.same rfl) (.inr ⟨_, rfl, by simp⟩)
    · obtain rfl := Option.some.inj hs
      exact hplain (h.same rfl) (.inr ⟨_, rfl, by simp⟩)
  | install sid =>
    obtain rfl := Option.some.inj hs
    exact hplain (h.install rfl) (.inr ⟨_, rfl, by simp⟩)
  | start b =>
    simp only [Activity.run] at hs
    split at hs
    · cases hs
    next bridge hbridge =>
    split at hs
    · -- a closed bridge fails to start
      obtain rfl := Option.some.inj hs
      refine hplain (h.set (b := b) rfl fun other _ => ⟨⟨id, ?_⟩, ?_⟩) (.inr ⟨_, rfl, by simp⟩)
      · intro _ hrunning
        cases hrunning
      · intro _ hstarting
        cases hstarting
    · next hopen =>
      obtain rfl := Option.some.inj hs
      have hopen : bridge.closed = false := by
        rw [Bool.or_eq_true, not_or] at hopen
        exact Bool.eq_false_iff.mpr hopen.1
      refine ⟨h.set (b := b) rfl fun other hother => ?_, hrest, fun b' other hstarted hother => ?_⟩
      · obtain rfl := Option.some.inj (hbridge.symm.trans hother)
        refine ⟨⟨id, fun hclosed => ?_⟩, fun hclosed => ?_⟩
        · rw [hopen] at hclosed
          cases hclosed
        · exact absurd (hopen.symm.trans hclosed) Bool.false_ne_true
      · obtain rfl := Op.started.inj (Option.some.inj hstarted)
        rcases of_setBridge hother with ⟨hne, -⟩ | ⟨-, before, -, rfl⟩
        · exact absurd rfl hne
        · rfl
  | started b =>
    -- the bridge is starting, and so it is not closed
    have hbefore : ∀ bridge, s.bridges[b]? = some bridge → bridge.closed = true → False := by
      intro bridge hbridge hclosed
      exact h.closed b bridge hbridge hclosed (h.starting b bridge (by rw [hui]; rfl) hbridge)
    simp only [Activity.run] at hs
    split at hs
    · obtain rfl := Option.some.inj hs
      refine hplain (h.set (b := b) rfl fun other hother => ⟨⟨id, ?_⟩, ?_⟩) (.inl rfl)
      · exact fun hclosed => (hbefore other hother hclosed).elim
      · exact fun hclosed => (hbefore other hother hclosed).elim
    · obtain rfl := Option.some.inj hs
      refine hplain (h.set (b := b) rfl fun other hother => ⟨⟨id, ?_⟩, ?_⟩) (.inr ⟨_, rfl, by simp⟩)
      · exact fun hclosed => (hbefore other hother hclosed).elim
      · exact fun hclosed => (hbefore other hother hclosed).elim

/-- Every step keeps the lock, and closed bridges closed. -/
theorem Locked.step (h : Locked s) {l : Label} (hs : step s l = some (s', es)) :
    s.Follows s' ∧ Locked s' := by
  -- the accesses of the others leave the UI thread where it is
  have hother (hfollows : s.Follows s') (hui : s'.ui = s.ui)
      (hphase : ∀ (b : ℕ) (bridge : Bridge), s'.bridges[b]? = some bridge →
        ∃ before, s.bridges[b]? = some before ∧ bridge.phase = before.phase) :
      s.Follows s' ∧ Locked s' := by
    refine ⟨hfollows, hui ▸ h.once, fun b bridge hhead hbridge => ?_, hfollows.closed⟩
    obtain ⟨before, hbefore, heq⟩ := hphase b bridge hbridge
    rw [hui] at hhead
    exact heq.trans (h.starting b before hhead hbefore)
  have hsame (hbridges : s'.bridges = s.bridges) (hui : s'.ui = s.ui) : s.Follows s' ∧ Locked s' :=
    hother (h.same hbridges) hui fun b bridge hb => ⟨bridge, hbridges ▸ hb, rfl⟩
  cases moved_of_step hs with
  | connect | grant | endAuthorization => exact hsame rfl rfl
  | cancelCapture sid =>
    obtain ⟨hbridges, -, -, -, hui⟩ := cancelCapture_eq s sid
    exact hsame hbridges hui
  | call call =>
    -- no call begins with the end of a start
    have hprogram : ∀ b, .started b ∉ call.program s := by
      intro b hmem
      cases call with
      | dropped sid =>
        simp only [Call.program] at hmem
        split at hmem
        · simp at hmem
        · cases hmem
      | _ => simp [Call.program] at hmem
    have hfollows : s.Follows { s with ui := call.program s } := h.same rfl
    refine ⟨hfollows, fun b hmem => hprogram b (List.mem_of_mem_tail hmem),
      fun b _ hhead => absurd (List.mem_of_mem_head? hhead) (hprogram b), hfollows.closed⟩
  | ui hui hafter =>
    obtain ⟨hfollows, honce, hstarting⟩ := h.run hui hafter
    exact ⟨hfollows, honce, hstarting, hfollows.closed⟩
  | worker hteardown =>
    rcases teardown_bridges hteardown with ⟨hbridges, hui⟩ | ⟨b, closed, hclosed, hbridges, hui⟩
    · exact hsame hbridges hui
    · have hfollows := h.close hclosed hbridges
      obtain ⟨rfl, -⟩ := close_eq_some hclosed
      refine hother hfollows hui fun b' bridge hbridge => ?_
      rw [hbridges] at hbridge
      rcases of_setBridge hbridge with ⟨-, hold⟩ | ⟨rfl, before, hold, rfl⟩
      · exact ⟨bridge, hold, rfl⟩
      · exact ⟨before, hold, rfl⟩

/-- The lock holds in every run. -/
theorem locked_of_reaches {tr : List Event} (h : system.Reaches tr s) : Locked s := by
  refine h.invariant (P := fun _ s => Locked s) ?_ fun _ _ _ _ _ _ _ hlocked hs =>
    (hlocked.step hs).2
  rintro s rfl
  refine ⟨fun b hmem => absurd hmem List.not_mem_nil, fun b bridge hhead => ?_,
    fun b bridge hb => ?_⟩
  · cases hhead
  · cases hb

/-- **A closed bridge never captures.** However a run goes on after the close, the bridge stays
closed and its camera session is never started: it runs only if it ran when it was closed. -/
theorem closed_never_captures {tr : List Event} (h : system.Reaches tr s)
    (hb : s.bridges[b]? = some bridge) (hclosed : bridge.closed = true) {labels : List Label}
    (hrun : system.exec s labels = some (s', es)) :
    ∃ bridge', s'.bridges[b]? = some bridge' ∧ bridge'.closed = true ∧
      bridge'.capturing = false ∧ bridge'.phase ≠ .starting ∧
      (bridge'.phase = .running → bridge.phase = .running) := by
  have hlocked := locked_of_reaches h
  have hend : Locked s' ∧ ∃ bridge', s'.bridges[b]? = some bridge' ∧ bridge'.closed = true ∧
      (bridge'.phase = .running → bridge.phase = .running) := by
    refine EventSystem.exec_preserves (M := system) (P := fun s => Locked s ∧ ∃ bridge' : Bridge,
      s.bridges[b]? = some bridge' ∧ bridge'.closed = true ∧
        (bridge'.phase = .running → bridge.phase = .running)) ?_
      ⟨hlocked, bridge, hb, hclosed, id⟩ hrun
    rintro s l s' es - ⟨hlocked, before, hbefore, hclosed, hphase⟩ hs
    obtain ⟨hfollows, hlocked'⟩ := hlocked.step hs
    obtain ⟨after, hafter, hkept⟩ := hfollows.each b before hbefore
    exact ⟨hlocked', after, hafter, hkept.closed hclosed,
      fun hrunning => hphase (hkept.running hclosed hrunning)⟩
  obtain ⟨hlocked', bridge', hbridge', hclosed', hphase⟩ := hend
  refine ⟨bridge', hbridge', hclosed', ?_, hlocked'.closed b bridge' hbridge' hclosed', hphase⟩
  rw [Bridge.capturing, hclosed', Bool.not_true, Bool.and_false]

end CaptureCancellation
end MobileWebcamBridge
