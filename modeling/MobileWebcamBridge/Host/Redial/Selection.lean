import MobileWebcamBridge.Host.Redial

/-!
# `usb.rs`: the selection over many device lists

`reconcile_selection` knows the selected device and whether the last list was without it. A device
on another port is adopted as the only suggested one of a list, when the list before was without the
selected port too. Nothing remembers what else that list held.
-/

set_option autoImplicit false

namespace MobileWebcamBridge
namespace HostRedial

open HostControl (DeviceId)

/-- The physical port: the bus and the path of ports. -/
def SamePort (c d : DeviceId) : Prop := d.bus = c.bus ∧ d.ports = c.ports

instance (c d : DeviceId) : Decidable (SamePort c d) := inferInstanceAs (Decidable (_ ∧ _))

/-- A device of the list has the port of `c`. -/
def OnPort (c : DeviceId) (list : List Candidate) : Prop := ∃ d ∈ list, SamePort c d.id

instance (c : DeviceId) (list : List Candidate) : Decidable (OnPort c list) :=
  inferInstanceAs (Decidable (∃ d ∈ list, _))

/-- The selection after some device lists. -/
def feed (lists : List (List Candidate)) (a : App) : App :=
  lists.foldl (fun a list => a.reconcileSelection list) a

/-- What the selection does at a list, after those before it. -/
structure Follows (start : App) (before : List (List Candidate))
    (list : List Candidate) : Prop where
  /-- It never reverts to none. -/
  kept : (feed before start).selected.isSome →
    ∀ after, (feed (before ++ list :: after) start).selected.isSome
  /-- A listed device with its port is the one selected. -/
  port : ∀ c, (feed before start).selected = some c → OnPort c list →
    ∃ d ∈ list, SamePort c d.id ∧ (feed (before ++ [list]) start).selected = some d.id
  /-- Two suggested devices elsewhere are not a guess. -/
  guess : (∀ c, (feed before start).selected = some c → ¬OnPort c list) →
    2 ≤ (list.filter (·.suggested)).length →
    (feed (before ++ [list]) start).selected = (feed before start).selected

/-- A device on another port is adopted only if it was in no list that had the selected phone. -/
def AdoptsNew (start : App) (before : List (List Candidate)) (list : List Candidate) : Prop :=
  ∀ c c', (feed before start).selected = some c →
    (feed (before ++ [list]) start).selected = some c' → ¬SamePort c c' →
    ∀ x seen y, before = x ++ seen :: y → (feed (x ++ [seen]) start).selected = some c →
      OnPort c seen → ¬OnPort c' seen

/-- A device on another port is adopted only as the one suggested device of its list, when neither
this list nor the one before has the selected port. -/
def AdoptsOnly (start : App) (before : List (List Candidate)) (list : List Candidate) : Prop :=
  ∀ c c', (feed before start).selected = some c →
    (feed (before ++ [list]) start).selected = some c' → ¬SamePort c c' →
    (∃ only, list.filter (·.suggested) = [only] ∧ only.id = c') ∧ ¬OnPort c list ∧
      (before = [] → start.selectionLost = true) ∧ ∀ x last, before = x ++ [last] → ¬OnPort c last

variable {start a : App} {before x : List (List Candidate)} {list last : List Candidate}
variable {c c' : DeviceId}

/-! ## One list -/

/-- What a list makes of the selection. -/
inductive Reconciles (list : List Candidate) (a : App) : Option DeviceId → Bool → Prop
  | listed {c : DeviceId} {d : Candidate} : a.selected = some c → d ∈ list → d.id = c →
      Reconciles list a (some c) false
  | moved {c : DeviceId} {d : Candidate} : a.selected = some c → d ∈ list → SamePort c d.id →
      Reconciles list a (some d.id) false
  | guessed {c : DeviceId} {only : Candidate} : a.selected = some c → ¬OnPort c list →
      a.selectionLost = true → list.filter (·.suggested) = [only] →
      Reconciles list a (some only.id) false
  | missing {c : DeviceId} : a.selected = some c → ¬OnPort c list → Reconciles list a (some c) true
  | first {only : Candidate} : a.selected = none → list.filter (·.suggested) = [only] →
      Reconciles list a (some only.id) false
  | empty : a.selected = none → Reconciles list a none a.selectionLost

theorem samePort_self (c : DeviceId) : SamePort c c := ⟨rfl, rfl⟩

/-- What one list does to the selection. -/
theorem reconciles (list : List Candidate) (a : App) :
    Reconciles list a (a.reconcileSelection list).selected
      (a.reconcileSelection list).selectionLost := by
  unfold App.reconcileSelection
  dsimp only
  cases hselected : a.selected with
  | none =>
    dsimp only
    split
    · next only honly =>
      split
      · exact hselected ▸ .empty hselected
      · next hlost =>
        rw [Bool.eq_false_iff.mpr hlost]
        exact .first hselected honly
    · exact hselected ▸ .empty hselected
  | some c =>
    dsimp only
    split
    · next hany =>
      obtain ⟨d, hd, hid⟩ := List.any_eq_true.mp hany
      exact hselected ▸ .listed hselected hd (of_decide_eq_true hid)
    split
    · next d hfind =>
      have hport := List.find?_some hfind
      exact .moved hselected (List.mem_of_find?_eq_some hfind) (of_decide_eq_true hport)
    · next hfind =>
      have hport : ¬OnPort c list := by
        rintro ⟨d, hd, hsame⟩
        exact List.find?_eq_none.mp hfind d hd (decide_eq_true hsame)
      split
      · next only honly =>
        split
        · next hlost => exact .guessed hselected hport hlost honly
        · exact hselected ▸ .missing hselected hport
      · exact hselected ▸ .missing hselected hport

/-! ## Many lists -/

/-- One list more. -/
theorem feed_append (x : List (List Candidate)) (list : List Candidate) (start : App) :
    feed (x ++ [list]) start = (feed x start).reconcileSelection list :=
  List.foldl_append

/-- What the last list does to the selection. -/
theorem reconciles_feed (start : App) (before : List (List Candidate)) (list : List Candidate) :
    Reconciles list (feed before start) (feed (before ++ [list]) start).selected
      (feed (before ++ [list]) start).selectionLost := by
  rw [feed_append]
  exact reconciles list (feed before start)

/-- A selection that is lost is not on the last list. -/
theorem not_onPort_of_lost (hselected : (feed (x ++ [last]) start).selected = some c)
    (hlost : (feed (x ++ [last]) start).selectionLost = true) : ¬OnPort c last := by
  have h := reconciles_feed start x last
  rw [hselected, hlost] at h
  cases h with
  | missing _ hport => exact hport

/-- Once made, a selection is there after any lists. -/
theorem isSome_feed (hsome : (feed before start).selected.isSome)
    (after : List (List Candidate)) : (feed (before ++ after) start).selected.isSome := by
  induction after using List.reverseRecOn with
  | nil => rwa [List.append_nil]
  | append_singleton after list ih =>
    have h := reconciles_feed start (before ++ after) list
    rw [← List.append_assoc]
    generalize (feed (before ++ after ++ [list]) start).selected = selected' at h ⊢
    generalize (feed (before ++ after ++ [list]) start).selectionLost = lost at h
    cases h with
    | empty hnone =>
      rw [hnone] at ih
      cases ih
    | _ => rfl

/-- The selection follows its port. -/
theorem follows (start : App) (before : List (List Candidate)) (list : List Candidate) :
    Follows start before list := by
  have h := reconciles_feed start before list
  generalize hselected' : (feed (before ++ [list]) start).selected = selected' at h
  generalize (feed (before ++ [list]) start).selectionLost = lost at h
  constructor
  · exact fun hsome after => isSome_feed hsome (list :: after)
  · intro c hc hport
    rw [hselected']
    cases h with
    | listed hselected hd hid =>
      obtain rfl := Option.some.inj (hc.symm.trans hselected)
      exact ⟨_, hd, hid ▸ samePort_self _, by rw [hid]⟩
    | moved hselected hd hsame =>
      obtain rfl := Option.some.inj (hc.symm.trans hselected)
      exact ⟨_, hd, hsame, rfl⟩
    | guessed hselected hnot | missing hselected hnot =>
      obtain rfl := Option.some.inj (hc.symm.trans hselected)
      exact absurd hport hnot
    | first hnone | empty hnone =>
      rw [hnone] at hc
      cases hc
  · intro hnot htwo
    rw [hselected']
    cases h with
    | listed hselected hd hid => exact hselected.symm
    | moved hselected hd hsame => exact absurd ⟨_, hd, hsame⟩ (hnot _ hselected)
    | guessed _ _ _ honly | first _ honly =>
      rw [honly, List.length_singleton] at htwo
      omega
    | missing hselected => exact hselected.symm
    | empty hnone => exact hnone.symm

/-- Another port is adopted only as the claim says. -/
theorem adoptsOnly (start : App) (before : List (List Candidate)) (list : List Candidate) :
    AdoptsOnly start before list := by
  intro c c' hc hc' hother
  have h := reconciles_feed start before list
  rw [hc'] at h
  generalize (feed (before ++ [list]) start).selectionLost = lost at h
  generalize hchosen : some c' = chosen at h
  cases h with
  | listed hselected =>
    obtain rfl := Option.some.inj (hc.symm.trans hselected)
    obtain rfl := Option.some.inj hchosen
    exact absurd (samePort_self _) hother
  | moved hselected hd hsame =>
    obtain rfl := Option.some.inj (hc.symm.trans hselected)
    obtain rfl := Option.some.inj hchosen
    exact absurd hsame hother
  | missing hselected =>
    obtain rfl := Option.some.inj (hc.symm.trans hselected)
    obtain rfl := Option.some.inj hchosen
    exact absurd (samePort_self _) hother
  | first hnone | empty hnone =>
    rw [hnone] at hc
    cases hc
  | guessed hselected hport hlost honly =>
    obtain rfl := Option.some.inj (hc.symm.trans hselected)
    refine ⟨⟨_, honly, (Option.some.inj hchosen).symm⟩, hport, ?_, ?_⟩
    · rintro rfl
      exact hlost
    · rintro x last rfl
      exact not_onPort_of_lost hc hlost

/-- Whatever lists are fed from whatever selection, it follows its port, and a device on another
port is adopted only as the one suggested device when the port was missing twice. -/
theorem selection_follows (start : App) (before : List (List Candidate)) (list : List Candidate) :
    Follows start before list ∧ AdoptsOnly start before list :=
  ⟨follows start before list, adoptsOnly start before list⟩

/-- A phone at port 2.1. -/
def firstPhone : DeviceId := ⟨1, 5, 0x0fce, 0x020d, [2, 1]⟩

/-- A phone at port 3. -/
def secondPhone : DeviceId := ⟨1, 6, 0x0fce, 0x020d, [3]⟩

/-- The second phone is plugged in beside the first all along and adopted when that is unplugged. -/
theorem adopts_beside :
    ¬∀ start before list, Follows start before list ∧ AdoptsNew start before list := by
  intro h
  have hnew := (h { launched .usb with selected := some firstPhone }
    [[⟨firstPhone, true⟩, ⟨secondPhone, true⟩], [⟨secondPhone, true⟩]] [⟨secondPhone, true⟩]).2
  exact hnew firstPhone secondPhone (by decide) (by decide) (by decide) []
    [⟨firstPhone, true⟩, ⟨secondPhone, true⟩] [[⟨secondPhone, true⟩]] rfl (by decide) (by decide)
    (by decide)

end HostRedial
end MobileWebcamBridge
