import MobileWebcamBridge.QualityAgreement.Exchange

/-!
# Every move leads from stage to stage

One lemma for each kind of move of an exchange but the PC's reads: what the phone says, what the
writer moves and what the PC asks.
-/

set_option autoImplicit false

namespace MobileWebcamBridge
namespace QualityAgreement

open Wire Signal Trace
open HostQuality (Switch checkedSucc)
open QualitySwitch (Machine Verdict)

/-- The exchange is sane, and at one of its stages. -/
structure Agreed (tr : List Note) (v : Exchange) : Prop where
  sane : Sane v
  stage : Stage tr v

variable {tr es : List Note} {v w : Exchange} {x : Signal} {l m : List Signal}

/-! ## What the phone says -/

theorem Level.grow (h : Level v) {phone : Machine} {bridge : Bool}
    (hepoch : phone.epoch = v.phone.epoch) (hm : ∀ x ∈ m, x.Carries v.phone.epoch) :
    Level { v with phone, flow := v.flow ++ m, bridge } := by
  constructor
  · intro x hx
    show x.Carries phone.epoch
    rw [hepoch]
    rcases List.mem_append.mp hx with hx | hx
    · exact h.flow x hx
    · exact hm x hx
  · show v.pc.epoch = none ∨ v.pc.epoch = some (UInt32.ofNat phone.epoch)
    rw [hepoch]
    exact h.pc

theorem Calm.grow (h : Calm v) {phone : Machine} {bridge : Bool} (hfree : waits phone = false)
    (hepoch : phone.epoch = v.phone.epoch) (hm : ∀ x ∈ m, x.Carries v.phone.epoch) :
    Calm { v with phone, flow := v.flow ++ m, bridge } where
  commands := h.commands
  free := hfree
  level := h.level.grow hepoch hm

/-- While the phone does not wait, what it says comes behind everything, and no stage minds. -/
theorem Stage.grow (h : Stage tr v) {phone : Machine} {bridge : Bool}
    (hbefore : waits v.phone = false)
    (hfree : waits phone = false) (hepoch : phone.epoch = v.phone.epoch)
    (hlast : phone.lastRequestId = v.phone.lastRequestId)
    (hsilent : v.phone.lastRequestId < v.id → Silent v.id m)
    (hm : ∀ x ∈ m, x.Carries v.phone.epoch) (hfresh : Fresh v.phone.epoch m) :
    Stage tr { v with phone, flow := v.flow ++ m, bridge } := by
  have hwaits : ∀ {phase : QualitySwitch.Phase}, v.phone.phase = phase →
      (phase = .prepared ∨ phase = .staged) → False := by
    intro phase hphase hor
    have hnot := not_waits_iff.mp hbefore
    rw [hphase] at hnot
    exact hor.elim hnot.1 hnot.2
  cases h with
  | settled hidle hcalm => exact .settled hidle (hcalm.grow hfree hepoch hm)
  | asked hphase hcommands hid hrequested hsize hnew _ hlevel hquiet =>
    refine .asked hphase hcommands hid hrequested hsize ?_ hfree (hlevel.grow hepoch hm) ?_
    · show phone.lastRequestId < v.id
      rw [hlast]
      exact hnew
    · show (v.flow ++ m).filter _ = []
      rw [List.filter_append, List.append_eq_nil_iff]
      exact ⟨hquiet, hsilent hnew⟩
  | refused hphase hcalm hfirst =>
    exact .refused hphase (hcalm.grow hfree hepoch hm) (hfirst.append m)
  | held _ _ hreply =>
    cases hreply with
    | paused hphase => exact (hwaits hphase (.inl rfl)).elim
    | staged hphase => exact (hwaits hphase (.inr rfl)).elim
  | cancelled hphase hcalm hnext =>
    refine .cancelled hphase (hcalm.grow hfree hepoch hm) ?_
    show Next v.id (.paused v.id phone.epoch) _ _
    rw [hepoch]
    exact hnext.append m fun l hl => hl.append m
  | unstaged hphase hcalm hacc hnext =>
    refine .unstaged hphase (hcalm.grow hfree hepoch hm) hacc (hnext.append m ?_)
    intro l hl
    exact hl.imp id fun hl => hl.append m
  | staged _ _ hphase => exact (hwaits hphase (.inr rfl)).elim
  | leaving hphase hcalm hacc hgone =>
    exact .leaving hphase (hcalm.grow hfree hepoch hm) hacc (hgone.imp id fun hl => hl.append m)
  | committing _ _ hphase => exact (hwaits hphase (.inl rfl)).elim
  | doomed hphase hcommands _ hdoomed => exact .doomed hphase hcommands hfree (hdoomed.append m)
  | switching hphase hcommands _ hknown hgone hvideo =>
    refine .switching hphase hcommands hfree ?_ hgone ?_
    · show v.pc.epoch = some (UInt32.ofNat phone.epoch)
      rw [hepoch]
      exact hknown
    · show Fresh phone.epoch (v.flow ++ m)
      rw [hepoch]
      exact hvideo.append hm hfresh
  | awaiting hphase hcalm hgone => exact .awaiting hphase (hcalm.grow hfree hepoch hm) hgone

/-- What a turn says: nothing, or one thing of the last request. -/
theorem said_about {r : Machine × List QualitySwitch.Action} (h : Turns v.phone r)
    (hlast : v.phone.lastRequestId ≤ v.id) :
    (∀ x ∈ replies r.2, x.Within v.id ∧ x.isFence = false ∧ x.isVideo = false ∧
      ∀ epoch, x.Carries epoch) ∧ ((replies r.2).length ≤ 1) ∧
      (v.phone.lastRequestId < v.id → Silent v.id (replies r.2)) := by
  rcases h.said with hnil | ⟨status, -, hone⟩
  · rw [hnil]
    refine ⟨?_, Nat.zero_le 1, fun _ => rfl⟩
    intro x hx
    cases hx
  · rw [hone]
    refine ⟨?_, Nat.le_refl 1, ?_⟩
    · intro x hx
      obtain rfl := List.mem_singleton.mp hx
      refine ⟨hlast, rfl, rfl, ?_⟩
      intro epoch e he
      cases he
    · intro hlt
      rw [silent_iff]
      intro x hx
      obtain rfl := List.mem_singleton.mp hx
      simp only [about, beq_eq_false_iff_ne]
      omega

theorem fresh_of_short {epoch : ℕ} (h : l.length ≤ 1) : Fresh epoch l := by
  match l, h with
  | [], _ => exact List.Pairwise.nil
  | [y], _ => exact List.pairwise_singleton _ _

/-- What a step of the phone's machine needs to keep what holds of every request. -/
theorem Sane.says (h : Sane v) (hclear : v.Unfenced) {r : Machine × List QualitySwitch.Action}
    (hepoch : r.1.epoch = v.phone.epoch ∨ v.elsewhere = []) (hrange : r.1.epoch ≤ 0xffffffff)
    (hmore : v.phone.lastRequestId ≤ r.1.lastRequestId) (hless : r.1.lastRequestId ≤ v.id)
    (hwithin : ∀ y ∈ replies r.2, y.Within v.id)
    (hshut : waits r.1 = true → (v.bridge && !r.2.contains .stopCapture) = false)
    (hfence : ∀ key, .fence key ∈ replies r.2 → waits r.1 = true ∧
      key.2 ≤ r.1.lastRequestId ∧ v.phone.lastRequestId < key.2)
    (hsingle : ((replies r.2).filter isFence).length ≤ 1) (commands : List HostCommand) :
    Sane ({ v with commands }.turn r) where
  next := h.next
  known := h.known
  asked := h.asked
  last := hless
  range := hrange
  shut := hshut
  within := by
    intro y hy
    rcases List.mem_append.mp hy with hy | hy
    · exact h.within y hy
    · exact hwithin y hy
  elsewhere := by
    intro e he
    rcases hepoch with hepoch | hnone
    · show e = r.1.epoch
      rw [hepoch]
      exact h.elsewhere e he
    · rw [show _ = [] from hnone] at he
      cases he
  fenced := fun key hkey => (h.fenced key hkey).trans hmore
  fence := by
    intro key hkey
    rcases List.mem_append.mp hkey with hkey | hkey
    · exact absurd rfl (List.filter_eq_nil_iff.mp hclear _ hkey)
    · obtain ⟨hwaits, hle, hlt⟩ := hfence key hkey
      exact ⟨hwaits, hle, fun k hk => (h.fenced k hk).trans_lt hlt⟩
  single := by
    show ((v.flow ++ replies r.2).filter isFence).length ≤ 1
    rw [List.filter_append, show v.flow.filter isFence = [] from hclear]
    exact hsingle

/-- What a turn says keeps what holds of every request. -/
theorem Sane.turn (h : Sane v) (hclear : v.Unfenced) {r : Machine × List QualitySwitch.Action}
    (hr : Turns v.phone r) (commands : List HostCommand) :
    Sane ({ v with commands }.turn r) := by
  obtain ⟨hsaid, -, -⟩ := said_about hr h.last
  refine h.says hclear (.inl hr.epoch) (hr.epoch ▸ h.range) hr.last.ge (hr.last ▸ h.last)
    (fun y hy => (hsaid y hy).1) ?_ ?_ ?_ commands
  · intro hwaits
    exact absurd (hr.free.symm.trans hwaits) (by decide)
  · intro key hkey
    cases (hsaid _ hkey).2.1
  · rw [List.filter_eq_nil_iff.mpr fun y hy => by simp [(hsaid y hy).2.1]]
    exact Nat.zero_le 1

/-- A step of a phone that does not wait, to a command or of its own. -/
theorem Agreed.turnFree (h : Agreed tr v) (hclear : v.Unfenced) (hfree : waits v.phone = false)
    {r : Machine × List QualitySwitch.Action} (hr : Turns v.phone r) :
    Agreed (tr ++ turned v.phone r.1) (v.turn r) := by
  obtain ⟨hsaid, hshort, hsilent⟩ := said_about hr h.sane.last
  rw [hr.notes hfree, List.append_nil]
  refine ⟨h.sane.turn hclear hr v.commands, ?_⟩
  exact h.stage.grow hfree hr.free hr.epoch hr.last hsilent (fun x hx => (hsaid x hx).2.2.2 _)
    (fresh_of_short hshort)

/-- The phone gives up a request it waits with. -/
theorem Agreed.fail (h : Agreed tr v) (hclear : v.Unfenced) (hwaits : waits v.phone = true)
    (reason : ℕ) : Agreed (tr ++ turned v.phone (v.phone.fail reason).1)
      (v.turn (v.phone.fail reason)) := by
  have hturn := turns_fail v.phone reason
  have hnotes : turned v.phone (v.phone.fail reason).1 = [] := by
    simp [turned, waits, Machine.fail, Machine.reply]
  rw [hnotes, List.append_nil]
  refine ⟨h.sane.turn hclear hturn v.commands, ?_⟩
  -- the rejection, behind everything
  have hflow : (v.turn (v.phone.fail reason)).flow =
      v.flow ++ [Signal.result v.phone.lastRequestId .rejected] := rfl
  have hlevel (hl : Level v) : Level (v.turn (v.phone.fail reason)) := by
    refine hl.grow rfl fun y hy e he => ?_
    rw [show y = _ from List.mem_singleton.mp hy] at he
    cases he
  cases h.stage with
  | held hphase hcommands hreply hlast hl hacc hheld =>
    have hnext := hheld.next hclear
    have hcalm : Calm (v.turn (v.phone.fail reason)) := ⟨hcommands, rfl, hlevel hl⟩
    rw [hlast] at hflow
    cases hreply with
    | paused =>
      refine .cancelled hphase hcalm ?_
      rw [hflow]
      exact hnext.append _ fun l hbare => doomed_of_bare hbare
    | staged =>
      refine .unstaged hphase hcalm hacc ?_
      rw [hflow]
      exact hnext.append _ fun l hbare => .inr (doomed_of_bare hbare)
  | staged hphase hcommands _ hlast hl hacc hbare =>
    refine .leaving hphase ⟨hcommands, rfl, hlevel hl⟩ hacc (.inr ?_)
    rw [hflow, hlast]
    exact doomed_of_bare hbare
  | committing hphase hcommands _ hlast _ _ _ hbare =>
    refine .doomed hphase ?_ rfl ?_
    · intro c hc
      rw [show (v.turn (v.phone.fail reason)).commands = v.commands from rfl, hcommands] at hc
      exact ⟨_, List.mem_singleton.mp hc⟩
    · rw [hflow, hlast]
      exact doomed_of_bare hbare
  | settled _ hcalm | refused _ hcalm | cancelled _ hcalm | unstaged _ hcalm | leaving _ hcalm
  | awaiting _ hcalm =>
    rw [hcalm.free] at hwaits
    cases hwaits
  | asked _ _ _ _ _ _ hfree | doomed _ _ hfree | switching _ _ hfree =>
    rw [hfree] at hwaits
    cases hwaits

theorem turned_left {m m' : Machine} (hwaits : waits m = true) (hphase : m'.phase = .starting) :
    turned m m' = [.left m'.lastRequestId] := by
  have hafter : waits m' = false := by simp [waits, hphase]
  simp [turned, hwaits, hafter, hphase]

/-- What was accepted before the phone goes on is accepted, and then left. -/
theorem Accepted.departed (h : Accepted tr v) (hid : w.id = v.id)
    (hrequested : w.pc.requested = v.pc.requested) : Departed (tr ++ [Note.left v.id]) w := by
  obtain ⟨width, height, fps, hasked, hmem⟩ := h
  refine ⟨width, height, fps, hrequested.trans hasked, ?_⟩
  rw [hid]
  exact precedes_of_mem hmem (List.mem_singleton_self _)

/-- The user starts the capture of a staged request. -/
theorem Agreed.begin (h : Agreed tr v) (hclear : v.Unfenced) (hstaged : v.phone.phase = .staged)
    {r : Machine × List QualitySwitch.Action} (hphase : r.1.phase = .starting)
    (hepoch : r.1.epoch = v.phone.epoch) (hlast : r.1.lastRequestId = v.phone.lastRequestId)
    (hsaid : r.2 = [.sendQualityResult v.phone.lastRequestId .switching 0 0 0 0]) :
    Agreed (tr ++ turned v.phone r.1) (v.turn r) := by
  have hwaits : waits v.phone = true := waits_iff.mpr (.inr hstaged)
  have hfree : waits r.1 = false := by simp [waits, hphase]
  have hreplies : replies r.2 = [.result v.phone.lastRequestId .switching] := by rw [hsaid]; rfl
  have hturn : Turns v.phone r := ⟨hfree, hepoch, hlast, .inr ⟨.switching, by decide, hreplies⟩⟩
  rw [turned_left hwaits hphase, hlast]
  have hlevel (hl : Level v) : Level (v.turn r) := by
    refine hl.grow hepoch fun y hy e he => ?_
    rw [hreplies] at hy
    rw [show y = _ from List.mem_singleton.mp hy] at he
    cases he
  refine ⟨h.sane.turn hclear hturn v.commands, ?_⟩
  cases h.stage with
  | held hpreparing hcommands hreply hid hl hacc hheld =>
    have hcalm : Calm (v.turn r) := ⟨hcommands, hfree, hlevel hl⟩
    cases hreply with
    | paused hprepared =>
      rw [hprepared] at hstaged
      cases hstaged
    | staged =>
      rw [hid]
      have hgone : Departed (tr ++ [Note.left v.id]) (v.turn r) := hacc.departed rfl rfl
      refine .unstaged hpreparing hcalm ?_ ?_
      · obtain ⟨width, height, fps, hasked, hmem⟩ := hacc
        exact ⟨width, height, fps, hasked, List.mem_append_left _ hmem⟩
      · exact (hheld.next hclear).append _ fun _ _ => .inl hgone
  | staged hphase' hcommands _ hid hl hacc hbare =>
    rw [hid]
    have hgone : Departed (tr ++ [Note.left v.id]) (v.turn r) := hacc.departed rfl rfl
    refine .leaving hphase' ⟨hcommands, hfree, hlevel hl⟩ ?_ (.inl hgone)
    obtain ⟨width, height, fps, hasked, hmem⟩ := hacc
    exact ⟨width, height, fps, hasked, List.mem_append_left _ hmem⟩
  | committing _ _ hprepared =>
    rw [hprepared] at hstaged
    cases hstaged
  | settled _ hcalm | refused _ hcalm | cancelled _ hcalm | unstaged _ hcalm | leaving _ hcalm
  | awaiting _ hcalm =>
    rw [hcalm.free] at hwaits
    cases hwaits
  | asked _ _ _ _ _ _ hfree | doomed _ _ hfree | switching _ _ hfree =>
    rw [hfree] at hwaits
    cases hwaits

/-- The phone's own events. -/
theorem Agreed.turns (h : Agreed tr v) (hclear : v.Unfenced) {e : QualitySwitch.Event} {now : ℤ}
    (he : ownEvent e = true)
    (hcapture : ∀ width height fps, e = .captureStarted width height fps → v.bridge = true) :
    Agreed (tr ++ turned v.phone (v.phone.step now e).1) (v.turn (v.phone.step now e)) := by
  -- a step that changes nothing says nothing
  have hstill (hwaits : waits v.phone = true) (heq : v.phone.step now e = (v.phone, [])) :
      Agreed (tr ++ turned v.phone (v.phone.step now e).1) (v.turn (v.phone.step now e)) := by
    have hnotes : turned v.phone v.phone = [] := by
      rcases waits_iff.mp hwaits with hphase | hphase <;> simp [turned, waits, hphase]
    have hturn : v.turn (v.phone, []) = v := by simp [Exchange.turn, replies]
    rw [heq, hnotes, List.append_nil, hturn]
    exact h
  by_cases hfree : waits v.phone = false
  · refine h.turnFree hclear hfree (turns_free hfree fun r hr => ?_)
    rw [hr] at he
    cases he
  have hwaits : waits v.phone = true := by simpa using hfree
  rcases waits_iff.mp hwaits with hphase | hphase
  · rcases own_prepared now hphase he with heq | ⟨reason, heq⟩
    · exact hstill hwaits heq
    · rw [heq]
      exact h.fail hclear hwaits reason
  · -- no capture can start, as the phone has no camera bridge
    have hno : ∀ width height fps, e ≠ .captureStarted width height fps := by
      intro width height fps hcase
      have hbridge := hcapture width height fps hcase
      rw [h.sane.shut hwaits] at hbridge
      cases hbridge
    rcases own_staged (m := v.phone) now he hno with heq | ⟨reason, heq⟩ |
      ⟨hstarting, hepoch, hlast, hsaid⟩
    · exact hstill hwaits heq
    · rw [heq]
      exact h.fail hclear hwaits reason
    · exact h.begin hclear hphase hstarting hepoch hlast hsaid

/-- The phone takes up, or turns down, the request that was asked. -/
theorem Agreed.prepares (h : Agreed tr v) {request : PrepareQuality} {rest : List HostCommand}
    {verdict : Verdict} {now : ℤ} (hcommands : v.commands = .prepare request :: rest)
    (hclear : v.Unfenced) (r : Machine × List QualitySwitch.Action)
    (hr : r = v.phone.step now (.prepare
      { requestId := request.requestId, revision := request.catalogRevision
        width := request.width, height := request.height, fps := request.targetFps
        verdict, streaming := v.bridge })) :
    Agreed (tr ++ turned v.phone r.1) ({ v with commands := rest }.turn r) := by
  -- only where the request was asked does a `PREPARE_QUALITY` come first
  cases h.stage with
  | settled _ hcalm | refused _ hcalm | cancelled _ hcalm | unstaged _ hcalm | leaving _ hcalm
  | awaiting _ hcalm =>
    rw [hcalm.commands] at hcommands
    cases hcommands
  | held _ hnone | staged _ hnone | switching _ hnone =>
    rw [hnone] at hcommands
    cases hcommands
  | committing _ hone =>
    rw [hone] at hcommands
    cases hcommands
  | doomed _ hall =>
    rw [hcommands] at hall
    obtain ⟨epoch, hcommit⟩ := hall _ List.mem_cons_self
    cases hcommit
  | @asked asked width height fps hphase hone hid hrequested hsize hnew hfree hlevel hquiet =>
    rw [hone] at hcommands
    obtain ⟨heq, rfl⟩ := List.cons.inj hcommands
    obtain rfl := HostCommand.prepare.inj heq
    have hlt : v.id < 4294967296 := v.pc.requestId.toNat_lt
    -- the request is newer than every other that the phone has seen, so it is answered
    have hanswers := answers (m := v.phone) now
      (r := { requestId := asked.requestId, revision := asked.catalogRevision
              width := asked.width, height := asked.height, fps := asked.targetFps
              verdict, streaming := v.bridge }) hfree
      (by show v.phone.lastRequestId < asked.requestId; omega)
      (by show asked.requestId ≤ _; omega)
    rw [← hr] at hanswers
    have hagree (m' : Machine) (actions : List QualitySwitch.Action)
        (hepoch : m'.epoch = v.phone.epoch)
        (hcaps : ∀ y ∈ replies actions, y.Carries v.phone.epoch) :
        Level ({ v with commands := [] }.turn (m', actions)) :=
      Level.grow (v := { v with commands := [] }) ⟨hlevel.flow, hlevel.pc⟩ hepoch hcaps
    cases hanswers with
    | @rejected m' actions hafter hepoch hmore hless hsaid =>
      -- turned down: the phone waits for nothing, and the one signal is the result
      have hnotes : turned v.phone m' = [] := by simp [turned, hfree, hafter]
      have hreply : replies actions = [.result v.id .rejected] := hid ▸ hsaid
      have hmem (y : Signal) (hy : y ∈ replies actions) : y = .result v.id .rejected :=
        List.mem_singleton.mp (hreply ▸ hy)
      dsimp only
      rw [hnotes, List.append_nil]
      constructor
      · refine h.sane.says (r := (m', actions)) hclear (.inl hepoch) (hepoch ▸ h.sane.range) hmore
          (hid ▸ hless) ?_ ?_ ?_ ?_ []
        · intro y hy
          rw [hmem y hy]
          exact Nat.le_refl v.id
        · intro hwaits
          exact absurd (hafter.symm.trans hwaits) (by decide)
        · intro key hkey
          cases hmem _ hkey
        · show ((replies actions).filter isFence).length ≤ 1
          rw [hreply]
          exact Nat.zero_le 1
      · refine .refused hphase ⟨rfl, hafter, hagree m' actions hepoch ?_⟩ ?_
        · intro y hy e he
          rw [hmem y hy] at he
          cases he
        · show (((v.flow ++ replies actions).filter (about v.id)).head?) = _
          rw [List.filter_append, show v.flow.filter (about v.id) = [] from hquiet, hreply]
          simp [about, Exchange.id, Exchange.turn]
    | @waits m' actions x key hkey hreply hepoch hlast hdims hsaid =>
      -- taken up: the fence goes ahead of the answer
      have hlast : m'.lastRequestId = v.id := hlast.trans hid
      have hkey : key.2 = v.id := hkey.trans hid
      have hwaits : waits m' = true := by
        rcases hreply with ⟨-, hphase, -⟩ | ⟨-, hphase, -⟩ <;> simp [waits, hphase]
      have habout : x.about v.id = true := by
        rcases hreply with ⟨-, -, rfl, -⟩ | ⟨-, -, rfl⟩ <;> simp [about, hid]
      have hmem (y : Signal) (hy : y ∈ replies actions) : y = .fence key ∨ y = x := by
        rw [hsaid] at hy
        simpa using hy
      have hnotes : turned v.phone m' =
          [.accepted v.id width.toNat height.toNat fps.toNat] := by
        obtain ⟨hw, hh, hf⟩ := hdims
        rw [turned, hfree, hwaits, hlast, hw, hh, hf, ← hsize.1, ← hsize.2.1, ← hsize.2.2]
        rfl
      dsimp only
      constructor
      · refine h.sane.says (r := (m', actions)) hclear (.inl hepoch) (hepoch ▸ h.sane.range)
          ?_ hlast.le ?_ ?_ ?_ ?_ []
        · show v.phone.lastRequestId ≤ m'.lastRequestId
          omega
        · intro y hy
          rcases hmem y hy with rfl | rfl
          · trivial
          · rcases hreply with ⟨-, -, rfl, -⟩ | ⟨-, -, rfl⟩ <;> exact hid.le
        · intro _
          rcases hreply with ⟨-, -, -, hstop⟩ | ⟨hno, -, -⟩
          · show (v.bridge && !actions.contains .stopCapture) = false
            simp [hstop]
          · have hbridge : v.bridge = false := hno
            rw [hbridge]
            rfl
        · intro k hk
          rcases hmem _ hk with heq | heq
          · rw [Signal.fence.inj heq, hkey]
            exact ⟨hwaits, hlast.ge, hnew⟩
          · rw [← heq] at habout
            cases habout
        · show ((replies actions).filter isFence).length ≤ 1
          rw [hsaid, List.filter_cons_of_pos rfl,
            List.filter_cons_of_neg (by simp [not_isFence_of_about habout])]
          exact Nat.le_refl 1
      · rw [hnotes]
        refine .held (x := x) hphase rfl ?_ hlast (hagree m' actions hepoch ?_) ?_ ?_
        · rcases hreply with ⟨-, hprepared, rfl, -⟩ | ⟨-, hstaged, rfl⟩
          · have heq : Reply ({ v with commands := [] }.turn (m', actions))
                (.paused v.id m'.epoch) := .paused hprepared
            rw [hepoch] at heq
            rw [hid]
            exact heq
          · rw [hid]
            exact .staged hstaged
        · intro y hy
          rcases hmem y hy with rfl | rfl
          · intro e he
            cases he
          · exact carries_of_about habout
        · exact ⟨width, height, fps, hrequested,
            List.mem_append_right _ (List.mem_singleton_self _)⟩
        · show Held v.id x (v.flow ++ replies actions)
          rw [hsaid]
          refine .fenced key hquiet hclear ?_
          rw [Next, if_pos habout]
          refine ⟨rfl, ?_⟩
          intro y hy
          cases hy

/-- The commit finds the phone waiting for it, or a request that the phone gave up. -/
theorem Agreed.commits (h : Agreed tr v) {epoch : Epoch} {rest : List HostCommand}
    {e : QualitySwitch.Event} {now : ℤ} (hcommands : v.commands = .commit epoch :: rest)
    (hclear : v.Unfenced) (hnone : v.elsewhere = [])
    (he : e = .commit epoch.requestId epoch.streamEpoch ∨ e = .userStop) :
    Agreed (tr ++ turned v.phone (v.phone.step now e).1)
      ({ v with commands := rest }.turn (v.phone.step now e)) := by
  cases h.stage with
  | settled _ hcalm | refused _ hcalm | cancelled _ hcalm | unstaged _ hcalm | leaving _ hcalm
  | awaiting _ hcalm =>
    rw [hcalm.commands] at hcommands
    cases hcommands
  | held _ hempty | staged _ hempty | switching _ hempty =>
    rw [hempty] at hcommands
    cases hcommands
  | asked _ hone =>
    rw [hone] at hcommands
    cases hcommands
  | doomed hphase hall hfree hdoomed =>
    have hturn : Turns v.phone (v.phone.step now e) := by
      refine turns_free hfree fun r hr => ?_
      rw [hr] at he
      rcases he with he | he <;> cases he
    rw [hturn.notes hfree, List.append_nil]
    refine ⟨h.sane.turn hclear hturn rest, .doomed hphase ?_ hturn.free (hdoomed.append _)⟩
    intro c hc
    exact hall c (by rw [hcommands]; exact List.mem_cons_of_mem _ hc)
  | committing hphase hone hprepared hlast hmax hknown hacc hbare =>
    rw [hone] at hcommands
    obtain ⟨heq, rfl⟩ := List.cons.inj hcommands
    obtain rfl := HostCommand.commit.inj heq
    have hwaits : waits v.phone = true := waits_iff.mpr (.inl hprepared)
    rcases he with rfl | rfl
    · have hstep : v.phone.step now (.commit v.id (v.phone.epoch + 1)) =
          ({ v.phone with phase := .starting, epoch := v.phone.epoch + 1 },
            [.startCapture v.phone.stagedWidth v.phone.stagedHeight v.phone.stagedFps]) := by
        rw [← hlast]
        exact commit_prepared now hprepared hmax
      rw [hstep, turned_left hwaits rfl]
      constructor
      · refine h.sane.says hclear (.inr hnone) (by show v.phone.epoch + 1 ≤ _; omega)
          (Nat.le_refl _)
          h.sane.last ?_ ?_ ?_ ?_ []
        · intro y hy
          cases hy
        · intro hafter
          cases hafter
        · intro key hkey
          cases hkey
        · exact Nat.zero_le 1
      · refine .switching hphase rfl rfl hknown ?_ ?_
        · show Departed (tr ++ [Note.left v.phone.lastRequestId]) _
          rw [hlast]
          exact hacc.departed rfl rfl
        · show Fresh _ (v.flow ++ [])
          rw [List.append_nil]
          exact fresh_of_bare hbare
    · -- the request is cancelled as the commit is read
      have hown : v.phone.step now .userStop = v.phone.fail QualitySwitch.REASON_FOREGROUND := by
        simp [Machine.step, hprepared]
      have hturn := turns_fail v.phone QualitySwitch.REASON_FOREGROUND
      have hnotes : turned v.phone (v.phone.fail QualitySwitch.REASON_FOREGROUND).1 = [] := by
        simp [turned, waits, Machine.fail, Machine.reply]
      rw [hown, hnotes, List.append_nil]
      refine ⟨h.sane.turn hclear hturn [], .doomed hphase ?_ rfl ?_⟩
      · intro c hc
        cases hc
      · show Doomed v.id (v.flow ++ [Signal.result v.phone.lastRequestId .rejected])
        rw [hlast]
        exact doomed_of_bare hbare

/-! ## What the writer moves -/

theorem Level.shift (h : Level v) {flow : List Signal} {elsewhere : List ℕ}
    {bridge : Bool}
    (hs : Shift v.phone.epoch v.flow flow) : Level { v with flow, elsewhere, bridge } where
  pc := h.pc
  flow := by
    intro y hy
    rcases hs.mem hy with hy | rfl | ⟨rfl, -⟩
    · exact h.flow y hy
    · intro e he
      exact (Signal.capabilities.inj he).symm
    · intro e he
      cases he

theorem Calm.shift (h : Calm v) {flow : List Signal} {elsewhere : List ℕ}
    {bridge : Bool}
    (hs : Shift v.phone.epoch v.flow flow) : Calm { v with flow, elsewhere, bridge } :=
  ⟨h.commands, h.free, h.level.shift hs⟩

theorem Sane.shift (h : Sane v) {flow : List Signal} {elsewhere : List ℕ}
    (hs : Shift v.phone.epoch v.flow flow) (hsub : elsewhere ⊆ v.elsewhere) :
    Sane { v with flow, elsewhere } where
  next := h.next
  last := h.last
  range := h.range
  known := h.known
  asked := h.asked
  shut := h.shut
  fenced := h.fenced
  elsewhere := fun e he => h.elsewhere e (hsub he)
  within := by
    intro y hy
    rcases hs.mem hy with hy | rfl | ⟨rfl, -⟩
    · exact h.within y hy
    · trivial
    · trivial
  fence := by
    intro key hkey
    have hmem : .fence key ∈ flow.filter isFence := List.mem_filter.mpr ⟨hkey, rfl⟩
    rw [hs.filter_isFence] at hmem
    exact h.fence key (List.mem_filter.mp hmem).1
  single := by
    show (flow.filter isFence).length ≤ 1
    rw [hs.filter_isFence]
    exact h.single

theorem Stage.shift (h : Stage tr v) {flow : List Signal} {elsewhere : List ℕ}
    {bridge : Bool}
    (hs : Shift v.phone.epoch v.flow flow) : Stage tr { v with flow, elsewhere, bridge } := by
  cases h with
  | settled hidle hcalm => exact .settled hidle (hcalm.shift hs)
  | asked hphase hcommands hid hrequested hsize hnew hfree hlevel hquiet =>
    exact .asked hphase hcommands hid hrequested hsize hnew hfree (hlevel.shift hs)
      (closed_silent _ _ _ _ hquiet hs)
  | refused hphase hcalm hfirst =>
    exact .refused hphase (hcalm.shift hs) (closed_first _ _ _ _ _ hfirst hs)
  | held hphase hcommands hreply hlast hlevel hacc hheld =>
    refine .held hphase hcommands ?_ hlast (hlevel.shift hs) hacc (closed_held _ _ _ _ _ hheld hs)
    cases hreply with
    | paused hprepared => exact .paused hprepared
    | staged hstaged => exact .staged hstaged
  | cancelled hphase hcalm hnext =>
    exact .cancelled hphase (hcalm.shift hs) (closed_next (closed_doomed _) _ _ _ _ _ hnext hs)
  | unstaged hphase hcalm hacc hnext =>
    refine .unstaged hphase (hcalm.shift hs) hacc (closed_next ?_ _ _ _ _ _ hnext hs)
    intro epoch l l' hl hll
    exact hl.imp id fun hl => closed_doomed _ _ _ _ hl hll
  | staged hphase hcommands hstaged hlast hlevel hacc hbare =>
    exact .staged hphase hcommands hstaged hlast (hlevel.shift hs) hacc
      (closed_bare _ _ _ _ hbare hs)
  | leaving hphase hcalm hacc hgone =>
    exact .leaving hphase (hcalm.shift hs) hacc
      (hgone.imp id fun hl => closed_doomed _ _ _ _ hl hs)
  | committing hphase hcommands hprepared hlast hmax hknown hacc hbare =>
    exact .committing hphase hcommands hprepared hlast hmax hknown hacc
      (closed_bare _ _ _ _ hbare hs)
  | doomed hphase hcommands hfree hdoomed =>
    exact .doomed hphase hcommands hfree (closed_doomed _ _ _ _ hdoomed hs)
  | switching hphase hcommands hfree hknown hgone hvideo =>
    exact .switching hphase hcommands hfree hknown hgone (hvideo.shift hs)
  | awaiting hphase hcalm hgone => exact .awaiting hphase (hcalm.shift hs) hgone

theorem Agreed.shift (h : Agreed tr v) {flow : List Signal} {elsewhere : List ℕ}
    (hs : Shift v.phone.epoch v.flow flow) (hsub : elsewhere ⊆ v.elsewhere) :
    Agreed tr { v with flow, elsewhere } :=
  ⟨h.sane.shift hs hsub, h.stage.shift hs⟩

/-- A capability frame of the epoch may be queued anywhere. -/
theorem shift_announced (epoch : ℕ) (a b : List Signal) :
    Shift epoch (a ++ b) (a ++ Signal.capabilities epoch :: b) :=
  (Shift.refl a).append (.announced (.refl b))

/-- The UI thread is about to begin a capture. -/
theorem Agreed.begins (h : Agreed tr v) (hclear : v.Unfenced) (hfree : waits v.phone = false) :
    Agreed tr { v with bridge := true, flow := v.flow ++ [Signal.gate] } := by
  have hgate (y : Signal) (hy : y ∈ [Signal.gate]) : y = .gate := List.mem_singleton.mp hy
  constructor
  · refine
      { next := h.sane.next, last := h.sane.last, range := h.sane.range, known := h.sane.known
        asked := h.sane.asked, fenced := h.sane.fenced, elsewhere := h.sane.elsewhere
        within := ?_, shut := ?_, fence := ?_, single := ?_ }
    · intro y hy
      rcases List.mem_append.mp hy with hy | hy
      · exact h.sane.within y hy
      · rw [hgate y hy]
        trivial
    · intro hwaits
      exact absurd (hfree.symm.trans hwaits) (by decide)
    · intro key hkey
      rcases List.mem_append.mp hkey with hkey | hkey
      · exact absurd rfl (List.filter_eq_nil_iff.mp hclear _ hkey)
      · cases hgate _ hkey
    · show ((v.flow ++ [Signal.gate]).filter isFence).length ≤ 1
      rw [List.filter_append, show v.flow.filter isFence = [] from hclear]
      exact Nat.zero_le 1
  · refine h.stage.grow hfree hfree rfl rfl (fun _ => rfl) ?_ (fresh_of_short (Nat.le_refl 1))
    intro y hy e he
    rw [hgate y hy] at he
    cases he

/-- The fence of the phone's reply runs. -/
theorem Agreed.fences (h : Agreed tr v) {key : FrameType × ℕ} {a b c : List Signal}
    (hflow : v.flow = a ++ Signal.fence key :: b) (ha : a.filter isFence = [])
    (hgate : v.fenced ≠ some key → .gate ∉ c) (hs : Shift v.phone.epoch a c) :
    Agreed tr { v with flow := c ++ b, fenced := some key } := by
  have hmem : .fence key ∈ v.flow := by rw [hflow]; simp
  obtain ⟨hwaits, hle, hnew⟩ := h.sane.fence key hmem
  have hfresh : v.fenced ≠ some key := fun heq => Nat.lt_irrefl _ (hnew key heq)
  have hcnone : c.filter isFence = [] := by rw [hs.filter_isFence, ha]
  have hbnone : b.filter isFence = [] := by
    have hsingle := h.sane.single
    rw [hflow, List.filter_append, ha, List.nil_append, List.filter_cons_of_pos rfl,
      List.length_cons] at hsingle
    exact List.length_eq_zero_iff.mp (by omega)
  have hin (y : Signal) (hy : y ∈ c ++ b) :
      y ∈ v.flow ∨ y = .capabilities v.phone.epoch ∨ y = .video := by
    rw [hflow]
    rcases List.mem_append.mp hy with hy | hy
    · rcases hs.mem hy with hy | hy | hy
      · exact .inl (List.mem_append_left _ hy)
      · exact .inr (.inl hy)
      · exact .inr (.inr hy.1)
    · exact .inl (List.mem_append_right _ (List.mem_cons_of_mem _ hy))
  have hnone : (c ++ b).filter isFence = [] := by rw [List.filter_append, hcnone, hbnone]; rfl
  have hnoflow : v.flow.filter isFence ≠ [] := fun hnil =>
    absurd rfl (List.filter_eq_nil_iff.mp hnil _ hmem)
  constructor
  · refine
      { next := h.sane.next, last := h.sane.last, range := h.sane.range, known := h.sane.known
        asked := h.sane.asked, shut := h.sane.shut, elsewhere := h.sane.elsewhere
        within := ?_, fenced := ?_, fence := ?_, single := ?_ }
    · intro y hy
      rcases hin y hy with hy | rfl | rfl
      · exact h.sane.within y hy
      · trivial
      · trivial
    · intro k hk
      rw [← Option.some.inj hk]
      exact hle
    · intro k hk
      exact absurd rfl (List.filter_eq_nil_iff.mp hnone _ hk)
    · show ((c ++ b).filter isFence).length ≤ 1
      rw [hnone]
      exact Nat.zero_le 1
  · have hlevel (hl : Level v) : Level { v with flow := c ++ b, fenced := some key } := by
      refine ⟨fun y hy => ?_, hl.pc⟩
      rcases hin y hy with hy | rfl | rfl
      · exact hl.flow y hy
      · intro e he
        exact (Signal.capabilities.inj he).symm
      · intro e he
        cases he
    cases h.stage with
    | @held x hphase hcommands hreply hlast hl hacc hheld =>
      refine .held (x := x) hphase hcommands ?_ hlast (hlevel hl) hacc ?_
      · cases hreply with
        | paused hprepared => exact .paused hprepared
        | staged hstaged => exact .staged hstaged
      · -- the reply's fence is the one that ran, and nothing opens the gate before the reply
        rw [hflow] at hheld
        generalize hwhole : a ++ Signal.fence key :: b = l at hheld
        cases hheld with
        | shut hnext =>
          rw [hflow, hwhole] at hnoflow
          exact absurd (hnext.unfenced fun _ hbare => hbare.unfenced) hnoflow
        | fenced k hquiet hclear hnext =>
          obtain ⟨rfl, -, rfl⟩ := fence_unique ha hclear hwhole
          exact .shut (next_of_silent (closed_silent _ _ _ _ hquiet hs) hcnone (hgate hfresh) hnext)
    | staged _ _ _ _ _ _ hbare | committing _ _ _ _ _ _ _ hbare =>
      exact absurd hbare.unfenced hnoflow
    | settled _ hcalm | refused _ hcalm | cancelled _ hcalm | unstaged _ hcalm | leaving _ hcalm
    | awaiting _ hcalm =>
      rw [hcalm.free] at hwaits
      cases hwaits
    | asked _ _ _ _ _ _ hfree | doomed _ _ hfree | switching _ _ hfree =>
      rw [hfree] at hwaits
      cases hwaits

/-! ## What the PC does -/

theorem checkedSucc_some {n next : UInt32} (h : checkedSucc n = some next) :
    n.toNat + 1 < 2 ^ 32 ∧ next.toNat = n.toNat + 1 := by
  unfold checkedSucc at h
  split at h
  · next hlt =>
    obtain rfl := Option.some.inj h
    refine ⟨hlt, ?_⟩
    rw [UInt32.toNat_add]
    exact Nat.mod_eq_of_lt hlt
  · cases h

/-- A PC that the phone has told its capabilities knows the epoch. -/
theorem Level.known (h : Level v) (hs : Sane v) (hphase : v.pc.phase ≠ .idle) :
    v.pc.epoch = some (UInt32.ofNat v.phone.epoch) :=
  h.pc.resolve_left (hs.known (hs.asked hphase))

/-- The PC asks for a mode. -/
theorem Agreed.asks (h : Agreed tr v) {now : ℕ} {revision width height fps : UInt16}
    {next : UInt32} (hadvertised : v.advertised = true) (hidle : v.pc.active = false)
    (hnext : checkedSucc v.pc.nextRequestId = some next) :
    Agreed tr { v with
      pc :=
        { v.pc with
          nextRequestId := next
          phase := .preparing
          requestId := v.pc.nextRequestId
          requested := some (width, height, fps)
          deadlineMs := some (now + HostQuality.APPLY_DEADLINE_MS) }
      commands := v.commands ++ [HostCommand.prepare
        { requestId := v.pc.nextRequestId.toNat, catalogRevision := revision.toNat
          width := width.toNat, height := height.toNat, targetFps := fps.toNat }] } := by
  have hid : v.pc.nextRequestId.toNat = v.id + 1 := h.sane.next
  have hcalm : Calm v := by
    have hactive {phase : HostQuality.Phase} (hphase : v.pc.phase = phase)
        (hbusy : phase = .preparing ∨ phase = .staged ∨ phase = .switching ∨
          phase = .awaitingOutput) : Calm v := by
      rcases hbusy with rfl | rfl | rfl | rfl <;>
        simp [Switch.active, Switch.busy, Switch.staged, hphase] at hidle
    cases h.stage with
    | settled _ hcalm => exact hcalm
    | asked hphase | refused hphase | held hphase | cancelled hphase | unstaged hphase =>
      exact hactive hphase (.inl rfl)
    | staged hphase | leaving hphase => exact hactive hphase (.inr (.inl rfl))
    | committing hphase | doomed hphase | switching hphase =>
      exact hactive hphase (.inr (.inr (.inl rfl)))
    | awaiting hphase => exact hactive hphase (.inr (.inr (.inr rfl)))
  constructor
  · refine
      { next := ?_, last := ?_, range := h.sane.range, known := h.sane.known
        asked := fun _ => hadvertised, shut := h.sane.shut, fenced := h.sane.fenced
        elsewhere := h.sane.elsewhere, fence := h.sane.fence, single := h.sane.single,
          within := ?_ }
    · exact (checkedSucc_some hnext).2
    · intro y hy
      exact within_mono (h.sane.within y hy) (by show v.id ≤ v.pc.nextRequestId.toNat; omega)
    · exact h.sane.last.trans (by show v.id ≤ v.pc.nextRequestId.toNat; omega)
  · rw [hcalm.commands, List.nil_append]
    refine .asked rfl rfl rfl rfl ⟨rfl, rfl, rfl⟩ ?_ hcalm.free
      ⟨hcalm.level.flow, hcalm.level.pc⟩ ?_
    · show v.phone.lastRequestId < v.pc.nextRequestId.toNat
      have hlast := h.sane.last
      omega
    · rw [silent_iff]
      intro y hy
      exact about_within (h.sane.within y hy) (by show v.id < v.pc.nextRequestId.toNat; omega)

/-- A picture came out. -/
theorem Agreed.shows (h : Agreed tr v) {now : ℕ} :
    Agreed tr { v with pc := (v.pc.step now .outputReady).1 } := by
  by_cases hphase : v.pc.phase = .awaitingOutput
  swap
  · have hstill : (v.pc.step now .outputReady).1 = v.pc := by simp [Switch.step, hphase]
    rw [hstill]
    exact h
  cases hrequested : v.pc.requested with
  | none =>
    have hstill : (v.pc.step now .outputReady).1 = v.pc := by
      simp [Switch.step, hphase, hrequested]
    rw [hstill]
    exact h
  | some mode =>
    have hstep : (v.pc.step now .outputReady).1 =
        { v.pc with phase := .applied, applied := some mode, deadlineMs := none } := by
      simp [Switch.step, hphase, hrequested]
    rw [hstep]
    have hasked := h.sane.asked (by rw [hphase]; decide)
    constructor
    · exact
        { next := h.sane.next, last := h.sane.last, range := h.sane.range, known := h.sane.known
          asked := fun _ => hasked, shut := h.sane.shut, fenced := h.sane.fenced
          elsewhere := h.sane.elsewhere, fence := h.sane.fence, single := h.sane.single
          within := h.sane.within }
    · have hcalm : Calm v := by
        cases h.stage with
        | awaiting _ hcalm => exact hcalm
        | settled hidle => simp [Switch.active, Switch.busy, hphase] at hidle
        | asked hother | refused hother | held hother | cancelled hother | unstaged hother
        | staged hother | leaving hother | committing hother | doomed hother | switching hother =>
          rw [hphase] at hother
          cases hother
      exact .settled rfl ⟨hcalm.commands, hcalm.free, hcalm.level.flow, hcalm.level.pc⟩

end QualityAgreement
end MobileWebcamBridge
