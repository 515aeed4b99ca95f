import MobileWebcamBridge.QualityAgreement.Stages

/-!
# What the PC reads, stage by stage

A signal that is about another request is passed over in every stage, and one about the request in
flight, or a `VIDEO_CONFIG`, is the one that its stage waits for. `Agreed.moves` then has every move
of an exchange lead from stage to stage.
-/

set_option autoImplicit false

namespace MobileWebcamBridge
namespace QualityAgreement

open Wire Signal Trace
open HostQuality (Switch checkedSucc)

variable {tr : List Note} {v : Exchange} {x : Signal}

/-- What a read leaves of what holds of every request. -/
theorem Sane.reads (h : Sane v) {rest : List Signal} (hflow : v.flow = x :: rest)
    {e : HostQuality.Event} {now : ℕ} (he : Hears x e) :
    Sane (v.read x rest now e) := by
  obtain ⟨hid, hnext, -, hepoch⟩ := heard_keeps (s := v.pc) now he
  have hsame : (v.pc.step now e).1.requestId.toNat = v.id := by rw [hid]; rfl
  have hmem (y : Signal) (hy : y ∈ rest) : y ∈ v.flow := by
    rw [hflow]
    exact List.mem_cons_of_mem _ hy
  refine
    { range := h.range, elsewhere := h.elsewhere, shut := h.shut, fenced := h.fenced
      fence := fun key hkey => h.fence key (hmem _ hkey), next := ?_, within := ?_, last := ?_
      known := ?_, asked := ?_, single := ?_ }
  · show (v.pc.step now e).1.nextRequestId.toNat = (v.pc.step now e).1.requestId.toNat + 1
    rw [hnext, hsame]
    exact h.next
  · intro y hy
    show y.Within (v.pc.step now e).1.requestId.toNat
    rw [hsame]
    exact h.within y (hmem y hy)
  · show v.phone.lastRequestId ≤ (v.pc.step now e).1.requestId.toNat
    rw [hsame]
    exact h.last
  · intro hadvertised
    rcases Bool.or_eq_true _ _ ▸ hadvertised with hbefore | hnow
    · exact hepoch (h.known hbefore)
    · by_cases hbefore : v.advertised = true
      · exact hepoch (h.known hbefore)
      · -- the first capability list finds the switch idle
        have hidle : v.pc.phase = .idle := by
          by_contra hphase
          exact hbefore (h.asked hphase)
        have hinactive : v.pc.active = false := by
          simp [Switch.active, Switch.busy, Switch.staged, hidle]
        show (v.pc.step now e).1.epoch ≠ none
        rw [heard_inactive now hinactive he]
        cases x with
        | capabilities epoch => simp
        | _ => cases hnow
  · intro hphase
    show (v.advertised || _) = true
    by_cases hidle : v.pc.phase = .idle
    · have hinactive : v.pc.active = false := by
        simp [Switch.active, Switch.busy, Switch.staged, hidle]
      have hafter : (v.pc.step now e).1.phase = .idle := by
        rw [heard_inactive now hinactive he]
        cases x <;> exact hidle
      exact absurd hafter hphase
    · simp [h.asked hidle]
  · have hsingle := h.single
    rw [hflow] at hsingle
    refine Nat.le_trans ?_ hsingle
    exact ((List.sublist_cons_self x rest).filter _).length_le

section reads

variable {rest : List Signal} {e : HostQuality.Event} {now : ℕ}

/-- A level exchange stays level while the PC keeps its epoch. -/
theorem Level.read (h : Level v) (hflow : v.flow = x :: rest)
    (hepoch : (v.pc.step now e).1.epoch = v.pc.epoch) : Level (v.read x rest now e) := by
  constructor
  · intro y hy
    exact h.flow y (by rw [hflow]; exact List.mem_cons_of_mem _ hy)
  · show (v.pc.step now e).1.epoch = none ∨ (v.pc.step now e).1.epoch = some _
    rw [hepoch]
    exact h.pc

/-- A quiet step of the switch leaves a calm exchange calm. -/
theorem Calm.read (h : Calm v) (hflow : v.flow = x :: rest)
    (hepoch : (v.pc.step now e).1.epoch = v.pc.epoch)
    (hquiet : QualityAgreement.commits (v.pc.step now e).2 = []) : Calm (v.read x rest now e) := by
  refine ⟨?_, h.free, h.level.read hflow hepoch⟩
  show v.commands ++ _ = []
  rw [h.commands, hquiet]
  rfl

/-- A signal to which the switch does not react is gone, and the stage is the same. -/
theorem Stage.pop (h : Stage tr v) (hflow : v.flow = x :: rest)
    (hstep : v.pc.step now e = (v.pc, [])) (habout : x.about v.id = false)
    (hfence : x.isFence = false) (hvideo : x.isVideo = false ∨ v.pc.phase = .preparing) :
    Stage tr (v.read x rest now e) := by
  have hpc : (v.read x rest now e).pc = v.pc := congrArg Prod.fst hstep
  have hcommands : (v.read x rest now e).commands = v.commands := by
    show v.commands ++ QualityAgreement.commits (v.pc.step now e).2 = v.commands
    rw [hstep]
    exact List.append_nil _
  have hid : (v.read x rest now e).id = v.id := congrArg (fun s => s.requestId.toNat) hpc
  have hepoch : (v.pc.step now e).1.epoch = v.pc.epoch := by rw [hstep]
  have hquiet : QualityAgreement.commits (v.pc.step now e).2 = [] := by rw [hstep]; rfl
  have hacc (ha : Accepted tr v) : Accepted tr (v.read x rest now e) := by
    rw [Accepted, hpc, hid]
    exact ha
  have hgone (hd : Departed tr v) : Departed tr (v.read x rest now e) := by
    rw [Departed, hpc, hid]
    exact hd
  -- a picture may be dropped only before the request is answered
  have hno (hphase : v.pc.phase ≠ .preparing) : x.isVideo = false := hvideo.resolve_right hphase
  have hrest : (v.read x rest now e).flow = rest := rfl
  -- each stage holds of what is left on the line
  cases h with
  | settled hidle hcalm =>
    refine .settled ?_ (hcalm.read hflow hepoch hquiet)
    rw [hpc]
    exact hidle
  | asked hphase hone hrequest hrequested hsize hnew hfree hlevel hsilent =>
    refine .asked (by rw [hpc]; exact hphase) (by rw [hcommands]; exact hone)
      (by rw [hid]; exact hrequest) (by rw [hpc]; exact hrequested) hsize
      (by rw [hid]; exact hnew) hfree (hlevel.read hflow hepoch) ?_
    rw [hid, hrest, silent_iff]
    intro y hy
    exact silent_iff.mp hsilent y (by rw [hflow]; exact List.mem_cons_of_mem _ hy)
  | refused hphase hcalm hfirst =>
    rw [hflow] at hfirst
    refine .refused (by rw [hpc]; exact hphase) (hcalm.read hflow hepoch hquiet) ?_
    rw [hid, hrest]
    exact hfirst.tail habout
  | @held y hphase hempty hreply hlast hlevel ha hheld =>
    rw [hflow] at hheld
    refine .held (x := y) (by rw [hpc]; exact hphase) (hcommands.trans hempty) ?_
      (by rw [hid]; exact hlast) (hlevel.read hflow hepoch) (hacc ha) ?_
    · cases hreply with
      | paused hprepared =>
        rw [← hid]
        exact .paused hprepared
      | staged hstaged =>
        rw [← hid]
        exact .staged hstaged
    · rw [hid, hrest]
      exact hheld.tail habout hfence
  | cancelled hphase hcalm hnext =>
    rw [hflow] at hnext
    refine .cancelled (by rw [hpc]; exact hphase) (hcalm.read hflow hepoch hquiet) ?_
    rw [hid, hrest]
    exact hnext.tail habout
  | unstaged hphase hcalm ha hnext =>
    rw [hflow] at hnext
    refine .unstaged (by rw [hpc]; exact hphase) (hcalm.read hflow hepoch hquiet) (hacc ha) ?_
    rw [hid, hrest]
    exact (hnext.tail habout).mono fun l hl => hl.imp hgone id
  | staged hphase hempty hstaged hlast hlevel ha hbare =>
    refine .staged (by rw [hpc]; exact hphase) (hcommands.trans hempty) hstaged
      (by rw [hid]; exact hlast) (hlevel.read hflow hepoch) (hacc ha) ?_
    rw [hid]
    exact fun y hy => hbare y (by rw [hflow]; exact List.mem_cons_of_mem _ hy)
  | leaving hphase hcalm ha hor =>
    rw [hflow] at hor
    refine .leaving (by rw [hpc]; exact hphase) (hcalm.read hflow hepoch hquiet) (hacc ha) ?_
    rw [hid]
    exact hor.imp hgone fun hd => (hd.tail habout).2
  | committing hphase hone hprepared hlast hmax hknown ha hbare =>
    refine .committing (by rw [hpc]; exact hphase) ?_ hprepared (by rw [hid]; exact hlast) hmax
      (by rw [hpc]; exact hknown) (hacc ha) ?_
    · rw [hcommands, hid]
      exact hone
    · rw [hid]
      exact fun y hy => hbare y (by rw [hflow]; exact List.mem_cons_of_mem _ hy)
  | doomed hphase hall hfree hdoomed =>
    rw [hflow] at hdoomed
    refine .doomed (by rw [hpc]; exact hphase) ?_ hfree ?_
    · rw [hcommands, hid]
      exact hall
    · rw [hid]
      exact (hdoomed.tail habout).2
  | switching hphase hempty hfree hknown hd hfresh =>
    rw [hflow] at hfresh
    exact .switching (by rw [hpc]; exact hphase) (hcommands.trans hempty) hfree
      (by rw [hpc]; exact hknown) (hgone hd) (List.pairwise_cons.mp hfresh).2
  | awaiting hphase hcalm hd =>
    exact .awaiting (by rw [hpc]; exact hphase) (hcalm.read hflow hepoch hquiet) (hgone hd)

/-! ### The request in flight -/

theorem Accepted.read (h : Accepted tr v) (he : Hears x e) : Accepted tr (v.read x rest now e) := by
  obtain ⟨hid, -, hrequested, -⟩ := heard_keeps (s := v.pc) now he
  obtain ⟨width, height, fps, hasked, hmem⟩ := h
  refine ⟨width, height, fps, hrequested.trans hasked, ?_⟩
  show .accepted (v.pc.step now e).1.requestId.toNat _ _ _ ∈ tr
  rw [hid]
  exact hmem

theorem Departed.read (h : Departed tr v) (he : Hears x e) : Departed tr (v.read x rest now e) := by
  obtain ⟨hid, -, hrequested, -⟩ := heard_keeps (s := v.pc) now he
  obtain ⟨width, height, fps, hasked, hleft⟩ := h
  refine ⟨width, height, fps, hrequested.trans hasked, ?_⟩
  show Precedes tr (.accepted (v.pc.step now e).1.requestId.toNat _ _ _)
    (.left (v.pc.step now e).1.requestId.toNat)
  rw [hid]
  exact hleft

/-- What the switch makes of a signal about its own request: a rejection before a boundary ends the
request, and one behind it the connection. -/
theorem heard_rejected {s : Switch} (now : ℕ) (he : Hears (.result s.requestId.toNat .rejected) e)
    (hphase : s.phase = .preparing ∨ s.phase = .staged) :
    (s.step now e).1.active = false ∧ (s.step now e).1.epoch = s.epoch ∧
      QualityAgreement.commits (s.step now e).2 = [] := by
  cases he with
  | rejected id reason =>
    rcases hphase with hphase | hphase <;>
      simp [Switch.step, Switch.active, Switch.busy, Switch.staged, hphase,
        QualityAgreement.commits]

theorem heard_doomed {s : Switch} (he : Hears (.result s.requestId.toNat .rejected) e)
    (hphase : s.phase = .switching ∨ s.phase = .awaitingOutput) :
    .closeConnection ∈ (s.step now e).2 := by
  cases he with
  | rejected id reason =>
    rcases hphase with hphase | hphase <;>
      simp [Switch.step, Switch.busy, Switch.fail, hphase]

/-- Behind the boundary, a reply changes nothing or ends the connection. -/
theorem heard_behind {s : Switch} (he : Hears x e) (hvideo : x ≠ .video)
    (hphase : s.phase = .switching ∨ s.phase = .awaitingOutput)
    (hopen : .closeConnection ∉ (s.step now e).2) : s.step now e = (s, []) := by
  have hsettled : s.settled = false := by rcases hphase with h | h <;> simp [Switch.settled, h]
  have hpreparing : s.phase ≠ .preparing := by rcases hphase with h | h <;> simp [h]
  have hstaged : s.phase ≠ .staged := by rcases hphase with h | h <;> simp [h]
  cases he with
  | capabilities => simp [Switch.step, hsettled]
  | staged | switching => simp [Switch.step, hpreparing, hstaged]
  | paused => simp [Switch.step, hpreparing]
  | video => exact absurd rfl hvideo
  | rejected id reason =>
    by_cases hid : UInt32.ofNat id = s.requestId
    · rcases hphase with h | h <;> simp [Switch.step, hid, Switch.busy, Switch.fail, h] at hopen
    · simp [Switch.step, hid]
  | applied id width height fps =>
    simp only [Switch.step] at hopen ⊢
    split
    · rfl
    next hother =>
    rw [if_neg hother] at hopen
    split
    · next hmode =>
      rw [if_pos hmode] at hopen
      simp [Switch.fail] at hopen
    · rfl

/-- A `VIDEO_CONFIG` of the request's mode is what it waits for. -/
theorem heard_video {s : Switch} (he : Hears .video e) (hawaiting : s.awaitingVideo = true)
    (hopen : .closeConnection ∉ (s.step now e).2) :
    (s.step now e).1.phase = .awaitingOutput ∧ (s.step now e).1.epoch = s.epoch ∧
      QualityAgreement.commits (s.step now e).2 = [] := by
  cases he with
  | video width height fps =>
    simp only [Switch.step, hawaiting] at hopen ⊢
    rw [if_neg (by decide)] at hopen ⊢
    split
    · next hmode =>
      rw [if_pos hmode] at hopen
      simp [Switch.fail] at hopen
    split
    · exact ⟨rfl, rfl, rfl⟩
    · exact ⟨rfl, rfl, rfl⟩

theorem heard_early {s : Switch} (he : Hears .video e) (hphase : s.phase = .preparing) :
    s.step now e = (s, []) := by
  cases he with
  | video => simp [Switch.step, Switch.awaitingVideo, hphase]

/-! ### Stage by stage -/

/-- The exchange behind a signal to which the switch does react, from what its step keeps. -/
theorem Stage.reads_settled (hidle : v.pc.active = false) (hcalm : Calm v)
    (hflow : v.flow = x :: rest) (he : Hears x e) : Stage tr (v.read x rest now e) := by
  have hstep := heard_inactive now hidle he
  refine .settled ?_ ⟨?_, hcalm.free, ?_, ?_⟩
  · show (v.pc.step now e).1.active = false
    rw [hstep]
    cases x <;> exact hidle
  · show v.commands ++ QualityAgreement.commits (v.pc.step now e).2 = []
    rw [hstep, hcalm.commands]
    rfl
  · intro y hy
    exact hcalm.level.flow y (by rw [hflow]; exact List.mem_cons_of_mem _ hy)
  · show (v.pc.step now e).1.epoch = none ∨ (v.pc.step now e).1.epoch = some _
    rw [hstep]
    cases x with
    | capabilities epoch =>
      -- the frame carries the phone's epoch
      have hcarries := hcalm.level.flow _ (by rw [hflow]; exact List.mem_cons_self) epoch rfl
      exact .inr (congrArg (fun n => some (UInt32.ofNat n)) hcarries)
    | _ => exact hcalm.level.pc

theorem Stage.reads_refused (hphase : v.pc.phase = .preparing) (hcalm : Calm v)
    (hfirst : First v.id (.result v.id .rejected) v.flow) (hflow : v.flow = x :: rest)
    (habout : x.about v.id = true) (he : Hears x e) : Stage tr (v.read x rest now e) := by
  rw [hflow] at hfirst
  obtain rfl := hfirst.head habout
  obtain ⟨hidle, hepoch, hquiet⟩ := heard_rejected now he (.inl hphase)
  exact .settled hidle (hcalm.read hflow hepoch hquiet)

/-- The switch releases its outputs and commits to the next epoch. -/
theorem heard_paused {s : Switch} {epoch : ℕ} (he : Hears (.paused s.requestId.toNat epoch) e)
    (hphase : s.phase = .preparing) (hepoch : s.epoch = some (UInt32.ofNat epoch))
    (hrange : epoch ≤ 0xffffffff) (hopen : .closeConnection ∉ (s.step now e).2) :
    epoch + 1 < 2 ^ 32 ∧
      s.step now e =
        ({ s with phase := .switching, epoch := some (UInt32.ofNat (epoch + 1)) },
          [.releaseOutputs, .sendCommitQuality s.requestId (UInt32.ofNat (epoch + 1))]) := by
  have hnat : (UInt32.ofNat epoch).toNat = epoch :=
    UInt32.toNat_ofNat_of_lt' (by show epoch < 4294967296; omega)
  cases he with
  | paused id epoch =>
    have hid : UInt32.ofNat s.requestId.toNat = s.requestId := UInt32.ofNat_toNat
    have hsame : (s.epoch.any (· != UInt32.ofNat epoch)) = false := by simp [hepoch]
    simp only [Switch.step, hid, hphase, hsame] at hopen ⊢
    rw [if_neg (by simp)] at hopen ⊢
    cases hnext : checkedSucc (UInt32.ofNat epoch) with
    | none =>
      rw [hnext] at hopen
      simp [Switch.fail] at hopen
    | some next =>
      obtain ⟨hmax, htoNat⟩ := checkedSucc_some hnext
      rw [hnat] at hmax htoNat
      obtain rfl : next = UInt32.ofNat (epoch + 1) := by
        apply UInt32.toNat_inj.mp
        rw [htoNat]
        exact (UInt32.toNat_ofNat_of_lt' hmax).symm
      exact ⟨hmax, rfl⟩

theorem Stage.reads_paused {epoch : ℕ} (hsane : Sane v) (hphase : v.pc.phase = .preparing)
    (hlevel : Level v) (hepoch : epoch = v.phone.epoch) (hcommands : v.commands = [])
    (he : Hears (.paused v.id epoch) e) (hopen : .closeConnection ∉ (v.pc.step now e).2) :
    (v.pc.step now e).1.phase = .switching ∧ v.phone.epoch + 1 < 2 ^ 32 ∧
      (v.pc.step now e).1.epoch = some (UInt32.ofNat (v.phone.epoch + 1)) ∧
      v.commands ++ QualityAgreement.commits (v.pc.step now e).2 =
        [.commit { requestId := v.id, streamEpoch := v.phone.epoch + 1 }] := by
  subst hepoch
  have hknown := hlevel.known hsane (by rw [hphase]; decide)
  obtain ⟨hmax, hstep⟩ := heard_paused he hphase hknown hsane.range hopen
  have hnat : (UInt32.ofNat (v.phone.epoch + 1)).toNat = v.phone.epoch + 1 :=
    UInt32.toNat_ofNat_of_lt' hmax
  rw [hstep, hcommands]
  refine ⟨rfl, hmax, rfl, ?_⟩
  show [HostCommand.commit
    { requestId := v.id, streamEpoch := (UInt32.ofNat (v.phone.epoch + 1)).toNat }] = _
  rw [hnat]

theorem heard_staged {s : Switch} (now : ℕ) (he : Hears (.result s.requestId.toNat .staged) e)
    (hphase : s.phase = .preparing) :
    s.step now e = ({ s with phase := .staged, deadlineMs := none }, [.releaseOutputs]) := by
  cases he with
  | staged => simp [Switch.step, hphase]

/-- The PC reads what it waits for while it prepares: an answer to its request. -/
theorem Stage.reads_answer (h : Agreed tr v) (hphase : v.pc.phase = .preparing)
    (hflow : v.flow = x :: rest) (habout : x.about v.id = true) (he : Hears x e)
    (hopen : .closeConnection ∉ (v.pc.step now e).2) : Stage tr (v.read x rest now e) := by
  have hsane := h.sane
  have hid : (v.read x rest now e).id = v.id := by
    show (v.pc.step now e).1.requestId.toNat = v.pc.requestId.toNat
    rw [(heard_keeps now he).1]
  have hother {phase : HostQuality.Phase} (hp : v.pc.phase = phase) (hne : phase ≠ .preparing) :
      False := hne (hp.symm.trans hphase)
  cases h.stage with
  | asked _ _ _ _ _ _ _ _ hsilent =>
    rw [silent_iff.mp hsilent x (by rw [hflow]; exact List.mem_cons_self)] at habout
    cases habout
  | refused _ hcalm hfirst => exact .reads_refused hphase hcalm hfirst hflow habout he
  | held _ hcommands hreply hlast hlevel hacc hheld =>
    rw [hflow] at hheld
    obtain ⟨rfl, hbare⟩ := hheld.head habout
    cases hreply with
    | paused hprepared =>
      obtain ⟨hswitching, hmax, hepoch, hcommit⟩ :=
        Stage.reads_paused hsane hphase hlevel rfl hcommands he hopen
      refine .committing hswitching ?_ hprepared (by rw [hid]; exact hlast) hmax hepoch
        (hacc.read he) ?_
      · rw [hid]
        exact hcommit
      · rw [hid]
        exact hbare
    | staged hstaged =>
      have hstep := heard_staged now he hphase
      refine .staged (by show (v.pc.step now e).1.phase = _; rw [hstep]) ?_ hstaged
        (by rw [hid]; exact hlast) (hlevel.read hflow (by rw [hstep])) (hacc.read he) ?_
      · show v.commands ++ QualityAgreement.commits (v.pc.step now e).2 = []
        rw [hstep, hcommands]
        rfl
      · rw [hid]
        exact hbare
  | cancelled _ hcalm hnext =>
    -- the commit will find a phone that gave up, and its rejection is behind the reply
    rw [hflow] at hnext
    obtain ⟨rfl, hdoomed⟩ := hnext.head habout
    obtain ⟨hswitching, -, -, hcommit⟩ :=
      Stage.reads_paused hsane hphase hcalm.level rfl hcalm.commands he hopen
    refine .doomed hswitching ?_ hcalm.free ?_
    · intro c hc
      rw [show (v.read _ rest now e).commands = _ from hcommit] at hc
      rw [hid]
      exact ⟨_, List.mem_singleton.mp hc⟩
    · rw [hid]
      exact hdoomed
  | unstaged _ hcalm hacc hnext =>
    rw [hflow] at hnext
    obtain ⟨rfl, hor⟩ := hnext.head habout
    have hstep := heard_staged now he hphase
    refine .leaving (by show (v.pc.step now e).1.phase = _; rw [hstep])
      (hcalm.read hflow (by rw [hstep]) (by rw [hstep]; rfl)) (hacc.read he) ?_
    rw [hid]
    exact hor.imp (fun hgone => hgone.read he) id
  | settled hidle => simp [Switch.active, Switch.busy, hphase] at hidle
  | staged hp | leaving hp => exact (hother hp (by decide)).elim
  | committing hp | doomed hp | switching hp => exact (hother hp (by decide)).elim
  | awaiting hp => exact (hother hp (by decide)).elim

/-- What the switch makes of a reply about its request while it waits for the phone's user. -/
theorem heard_leaving {s : Switch} (he : Hears x e) (habout : x.about s.requestId.toNat = true)
    (hphase : s.phase = .staged) (hother : x ≠ .result s.requestId.toNat .rejected)
    (hopen : .closeConnection ∉ (s.step now e).2) :
    ((s.step now e).1.phase = .staged ∨ (s.step now e).1.phase = .switching) ∧
      (s.step now e).1.epoch = s.epoch ∧ QualityAgreement.commits (s.step now e).2 = [] := by
  cases he with
  | capabilities | video => cases habout
  | staged => simp [Switch.step, hphase, QualityAgreement.commits]
  | paused => simp [Switch.step, hphase, QualityAgreement.commits]
  | switching id =>
    simp only [Switch.step, hphase]
    split
    · exact ⟨.inl hphase, rfl, rfl⟩
    · rw [if_neg (by simp), if_pos (by simp)]
      exact ⟨.inr rfl, rfl, rfl⟩
  | rejected id reason =>
    have hid : id = s.requestId.toNat := by simpa [about] using habout
    exact absurd (by rw [hid]) hother
  | applied id width height fps =>
    simp only [Switch.step] at hopen ⊢
    split
    · exact ⟨.inl hphase, rfl, rfl⟩
    next hsame =>
    rw [if_neg hsame] at hopen
    split
    · next hmode =>
      rw [if_pos hmode] at hopen
      simp [Switch.fail] at hopen
    · exact ⟨.inr rfl, rfl, rfl⟩

/-- The PC reads an answer, or video, while it waits for the phone's user. -/
theorem Stage.reads_staged (h : Agreed tr v) (hphase : v.pc.phase = .staged)
    (hflow : v.flow = x :: rest) (hours : x.about v.id = true ∨ x = .video) (he : Hears x e)
    (hopen : .closeConnection ∉ (v.pc.step now e).2) : Stage tr (v.read x rest now e) := by
  have hid : (v.read x rest now e).id = v.id := by
    show (v.pc.step now e).1.requestId.toNat = v.pc.requestId.toNat
    rw [(heard_keeps now he).1]
  have hother {phase : HostQuality.Phase} (hp : v.pc.phase = phase) (hne : phase ≠ .staged) :
      False := hne (hp.symm.trans hphase)
  cases h.stage with
  | staged _ _ _ _ _ _ hbare =>
    obtain ⟨hnot, hvideo, -⟩ := hbare x (by rw [hflow]; exact List.mem_cons_self)
    rcases hours with habout | rfl
    · rw [hnot] at habout
      cases habout
    · cases hvideo
  | leaving _ hcalm hacc hor =>
    have hknown := hcalm.level.known h.sane (by rw [hphase]; decide)
    rcases hours with habout | rfl
    · by_cases hrejected : x = .result v.id .rejected
      · subst hrejected
        obtain ⟨hidle, hepoch, hquiet⟩ := heard_rejected now he (.inr hphase)
        exact .settled hidle (hcalm.read hflow hepoch hquiet)
      · -- a phone whose rejection is on its way says nothing else of the request
        have hgone : Departed tr v := by
          apply hor.resolve_right
          intro hdoomed
          rw [hflow] at hdoomed
          exact hrejected (hdoomed.head habout)
        obtain ⟨hafter, hepoch, hquiet⟩ := heard_leaving he habout hphase hrejected hopen
        have hread := hcalm.read hflow hepoch hquiet
        rcases hafter with hstaged | hswitching
        · exact .leaving hstaged hread (hacc.read he) (.inl (hgone.read he))
        · refine .switching hswitching hread.commands hcalm.free ?_ (hgone.read he)
            (fresh_of_carries hread.level.flow)
          exact hepoch.trans hknown
    · have hgone : Departed tr v := by
        apply hor.resolve_right
        intro hdoomed
        rw [hflow] at hdoomed
        cases (hdoomed.tail rfl).1
      obtain ⟨hafter, hepoch, hquiet⟩ :=
        heard_video he (Switch.awaitingVideo_of_staged hphase) hopen
      exact .awaiting hafter (hcalm.read hflow hepoch hquiet) (hgone.read he)
  | settled hidle => simp [Switch.active, Switch.busy, Switch.staged, hphase] at hidle
  | asked hp | refused hp | held hp | cancelled hp | unstaged hp =>
    exact (hother hp (by decide)).elim
  | committing hp | doomed hp | switching hp => exact (hother hp (by decide)).elim
  | awaiting hp => exact (hother hp (by decide)).elim

/-- The PC reads a reply, or video, once its commit is out. -/
theorem Stage.reads_switching (h : Agreed tr v) (hphase : v.pc.phase = .switching)
    (hflow : v.flow = x :: rest) (hours : x.about v.id = true ∨ x = .video) (he : Hears x e)
    (hopen : .closeConnection ∉ (v.pc.step now e).2) : Stage tr (v.read x rest now e) := by
  have hother {phase : HostQuality.Phase} (hp : v.pc.phase = phase) (hne : phase ≠ .switching) :
      False := hne (hp.symm.trans hphase)
  cases h.stage with
  | committing _ _ _ _ _ _ _ hbare =>
    obtain ⟨hnot, hvideo, -⟩ := hbare x (by rw [hflow]; exact List.mem_cons_self)
    rcases hours with habout | rfl
    · rw [hnot] at habout
      cases habout
    · cases hvideo
  | doomed _ _ _ hdoomed =>
    -- the rejection ends the connection
    rw [hflow] at hdoomed
    rcases hours with habout | rfl
    · obtain rfl := hdoomed.head habout
      exact absurd (heard_doomed he (.inl hphase)) hopen
    · cases (hdoomed.tail rfl).1
  | switching _ hcommands hfree hknown hgone hfresh =>
    rw [hflow] at hfresh
    obtain ⟨hbehind, hrest⟩ := List.pairwise_cons.mp hfresh
    by_cases hvideo : x = .video
    · subst hvideo
      obtain ⟨hafter, hepoch, hquiet⟩ :=
        heard_video he (by simp [Switch.awaitingVideo, hphase]) hopen
      refine .awaiting hafter ⟨?_, hfree, ?_, ?_⟩ (hgone.read he)
      · show v.commands ++ QualityAgreement.commits (v.pc.step now e).2 = []
        rw [hquiet, hcommands]
        rfl
      · exact fun y hy => hbehind y hy rfl
      · exact .inr (hepoch.trans hknown)
    · have hstep := heard_behind he hvideo (.inl hphase) hopen
      have hpc : (v.read x rest now e).pc = v.pc := congrArg Prod.fst hstep
      refine .switching (by rw [hpc]; exact hphase) ?_ hfree (by rw [hpc]; exact hknown)
        (hgone.read he) hrest
      show v.commands ++ QualityAgreement.commits (v.pc.step now e).2 = []
      rw [hstep, hcommands]
      rfl
  | settled hidle => simp [Switch.active, Switch.busy, hphase] at hidle
  | asked hp | refused hp | held hp | cancelled hp | unstaged hp =>
    exact (hother hp (by decide)).elim
  | staged hp | leaving hp => exact (hother hp (by decide)).elim
  | awaiting hp => exact (hother hp (by decide)).elim

/-- And once it has the new mode's `VIDEO_CONFIG`. -/
theorem Stage.reads_awaiting (h : Agreed tr v) (hphase : v.pc.phase = .awaitingOutput)
    (hflow : v.flow = x :: rest) (he : Hears x e)
    (hopen : .closeConnection ∉ (v.pc.step now e).2) : Stage tr (v.read x rest now e) := by
  have hother {phase : HostQuality.Phase} (hp : v.pc.phase = phase)
      (hne : phase ≠ .awaitingOutput) :
      False := hne (hp.symm.trans hphase)
  cases h.stage with
  | awaiting _ hcalm hgone =>
    by_cases hvideo : x = .video
    · subst hvideo
      obtain ⟨hafter, hepoch, hquiet⟩ :=
        heard_video he (by simp [Switch.awaitingVideo, hphase]) hopen
      exact .awaiting hafter (hcalm.read hflow hepoch hquiet) (hgone.read he)
    · have hstep := heard_behind he hvideo (.inr hphase) hopen
      have hafter : (v.pc.step now e).1.phase = .awaitingOutput := by rw [hstep]; exact hphase
      exact .awaiting hafter (hcalm.read hflow (by rw [hstep]) (by rw [hstep]; rfl)) (hgone.read he)
  | settled hidle => simp [Switch.active, Switch.busy, hphase] at hidle
  | asked hp | refused hp | held hp | cancelled hp | unstaged hp =>
    exact (hother hp (by decide)).elim
  | staged hp | leaving hp => exact (hother hp (by decide)).elim
  | committing hp | doomed hp | switching hp => exact (hother hp (by decide)).elim

/-- The PC reads the next signal. -/
theorem Agreed.reads (h : Agreed tr v) (hflow : v.flow = x :: rest) (hfence : x.isFence = false)
    (hgate : x ≠ .gate) (he : Hears x e) (hopen : .closeConnection ∉ (v.pc.step now e).2) :
    Agreed tr (v.read x rest now e) := by
  refine ⟨h.sane.reads hflow he, ?_⟩
  by_cases hactive : v.pc.active = true
  swap
  · have hidle : v.pc.active = false := by simpa using hactive
    cases h.stage with
    | settled _ hcalm => exact .reads_settled hidle hcalm hflow he
    | asked hp | refused hp | held hp | cancelled hp | unstaged hp =>
      simp [Switch.active, Switch.busy, hp] at hidle
    | staged hp | leaving hp => simp [Switch.active, Switch.staged, hp] at hidle
    | committing hp | doomed hp | switching hp => simp [Switch.active, Switch.busy, hp] at hidle
    | awaiting hp => simp [Switch.active, Switch.busy, hp] at hidle
  by_cases hours : x.about v.id = true ∨ x = .video
  · cases hphase : v.pc.phase with
    | idle | applied | failed => simp [Switch.active, Switch.busy, Switch.staged, hphase] at hactive
    | preparing =>
      rcases hours with habout | rfl
      · exact .reads_answer h hphase hflow habout he hopen
      · exact h.stage.pop hflow (heard_early he hphase) rfl hfence (.inr hphase)
    | staged => exact .reads_staged h hphase hflow hours he hopen
    | switching => exact .reads_switching h hphase hflow hours he hopen
    | awaitingOutput => exact .reads_awaiting h hphase hflow he hopen
  · -- a signal about another request is passed over
    obtain ⟨hnot, hvideo⟩ := not_or.mp hours
    have habout : x.about v.id = false := by simpa using hnot
    have hwithin : x.Within v.id := h.sane.within x (by rw [hflow]; exact List.mem_cons_self)
    have hstep := heard_other now hactive he habout hwithin hvideo
    refine h.stage.pop hflow hstep habout hfence (.inl ?_)
    cases x with
    | video => exact absurd rfl hvideo
    | gate => exact absurd rfl hgate
    | _ => rfl

end reads

/-! ## Every move -/

theorem Agreed.closes (h : Agreed tr v) : Agreed tr { v with bridge := false } :=
  ⟨{ h.sane with shut := fun _ => rfl }, h.stage.shift (.refl v.flow)⟩

theorem Agreed.grants (h : Agreed tr v) :
    Agreed tr { v with elsewhere := v.elsewhere ++ [v.phone.epoch] } := by
  refine ⟨{ h.sane with elsewhere := ?_ }, h.stage.shift (.refl v.flow)⟩
  intro e he
  rcases List.mem_append.mp he with he | he
  · exact h.sane.elsewhere e he
  · exact List.mem_singleton.mp he

/-- Every move keeps the agreement. -/
theorem Agreed.moves (h : Agreed tr v) {w : Exchange} {es : List Note} (hmoves : Moves v w es) :
    Agreed (tr ++ es) w := by
  cases hmoves with
  | still => rwa [List.append_nil]
  | asks hadvertised hidle hnext =>
    rw [List.append_nil]
    exact h.asks hadvertised hidle hnext
  | reads hflow hfence hgate he hopen =>
    rw [List.append_nil]
    exact h.reads hflow hfence hgate he hopen
  | shows =>
    rw [List.append_nil]
    exact h.shows
  | prepares hcommands hclear => exact h.prepares hcommands hclear _ rfl
  | commits hcommands hclear hnone he => exact h.commits hcommands hclear hnone he
  | turns hclear he hcapture => exact h.turns hclear he hcapture
  | begins hclear _ hfree =>
    rw [List.append_nil]
    exact h.begins hclear hfree
  | closes =>
    rw [List.append_nil]
    exact h.closes
  | announces hclear =>
    rw [List.append_nil]
    have hs := shift_announced v.phone.epoch v.flow []
    rw [List.append_nil] at hs
    exact h.shift hs (List.Subset.refl _)
  | grants =>
    rw [List.append_nil]
    exact h.grants
  | lands hflow hmem hsub =>
    rw [List.append_nil, h.sane.elsewhere _ hmem]
    refine h.shift ?_ hsub
    rw [hflow]
    exact shift_announced v.phone.epoch _ _
  | shifts hs hsub =>
    rw [List.append_nil]
    exact h.shift hs hsub
  | fences hflow ha hgate hs =>
    rw [List.append_nil]
    exact h.fences hflow ha hgate hs

end QualityAgreement
end MobileWebcamBridge
