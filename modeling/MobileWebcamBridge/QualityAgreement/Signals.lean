import MobileWebcamBridge.Wire

/-!
# What is in flight, as the quality switch sees it

Everything between the phone's quality controller and the PC that bears on a switch is one list of
signals, the next one that the PC reads first. `fence` and `gate` are no frames: a reply's fence
that the phone's UI thread has yet to run, and the place where the next `VIDEO_CONFIG` is queued
while video is enabled. `Shift` is all that the outbound writer and its threads do to the list; what
an exchange relies on (`Doomed`, `Next`, `Fresh`, `Bare`) is closed under it.
-/

set_option autoImplicit false

namespace MobileWebcamBridge
namespace QualityAgreement

open Wire

/-- What a frame on its way means for the exchange. -/
inductive Signal
  | capabilities (epoch : ℕ)
  | result (requestId : ℕ) (status : ResultStatus)
  | paused (requestId epoch : ℕ)
  | video
  | gate
  | fence (key : FrameType × ℕ)
deriving DecidableEq, Repr

namespace Signal

/-- A frame of the quality control plane about the request. -/
def about (n : ℕ) : Signal → Bool
  | .result id _ => id == n
  | .paused id _ => id == n
  | _ => false

/-- A `VIDEO_CONFIG`, or the place of one. -/
def isVideo : Signal → Bool
  | .video | .gate => true
  | _ => false

/-- A fence that has yet to run. -/
def isFence : Signal → Bool
  | .fence _ => true
  | _ => false

/-- The request a signal names is not above `n`. -/
def Within (n : ℕ) : Signal → Prop
  | .result id _ => id ≤ n
  | .paused id _ => id ≤ n
  | _ => True

/-- A capability frame carries this epoch. -/
def Carries (epoch : ℕ) (x : Signal) : Prop := ∀ e, x = .capabilities e → e = epoch

theorem within_mono {n m : ℕ} {x : Signal} (h : x.Within n) (hle : n ≤ m) : x.Within m := by
  cases x with
  | result id status => exact Nat.le_trans h hle
  | paused id epoch => exact Nat.le_trans h hle
  | _ => trivial

theorem about_within {n m : ℕ} {x : Signal} (h : x.Within n) (hlt : n < m) : x.about m = false := by
  cases x with
  | result id status =>
    have hid : id ≤ n := h
    simp only [about, beq_eq_false_iff_ne]
    omega
  | paused id epoch =>
    have hid : id ≤ n := h
    simp only [about, beq_eq_false_iff_ne]
    omega
  | _ => rfl

theorem not_isVideo_of_about {n : ℕ} {x : Signal} (h : x.about n = true) : x.isVideo = false := by
  cases x with
  | result | paused => rfl
  | _ => cases h

theorem not_isFence_of_about {n : ℕ} {x : Signal} (h : x.about n = true) : x.isFence = false := by
  cases x with
  | result | paused => rfl
  | _ => cases h

theorem carries_of_about {n epoch : ℕ} {x : Signal} (h : x.about n = true) : x.Carries epoch := by
  intro e he
  subst he
  cases h

end Signal

open Signal

variable {epoch n : ℕ} {x y : Signal} {l m : List Signal}

/-! ## What moves in the writer -/

/-- `l'` is `l` after the writer's threads moved: a queued `VIDEO_CONFIG` is dropped or the gate
shut, one is queued at the gate, a reply is queued behind the video before it, and a capability
frame of this epoch is queued by another thread. -/
inductive Shift (epoch : ℕ) : List Signal → List Signal → Prop
  | nil : Shift epoch [] []
  | keep (x : Signal) {l l' : List Signal} : Shift epoch l l' → Shift epoch (x :: l) (x :: l')
  | drop {x : Signal} {l l' : List Signal} : x.isVideo = true → Shift epoch l l' →
      Shift epoch (x :: l) l'
  | config {l l' : List Signal} : Shift epoch l l' →
      Shift epoch (.gate :: l) (.video :: .gate :: l')
  | queue {x : Signal} {l l' : List Signal} : x.isVideo = false → x.isFence = false →
      Shift epoch l l' → Shift epoch (.gate :: x :: l) (x :: .gate :: l')
  | announced {l l' : List Signal} : Shift epoch l l' → Shift epoch l (.capabilities epoch :: l')

namespace Shift

theorem refl : ∀ l : List Signal, Shift epoch l l
  | [] => .nil
  | x :: l => .keep x (refl l)

theorem append {l l' m m' : List Signal} (h : Shift epoch l l') (hm : Shift epoch m m') :
    Shift epoch (l ++ m) (l' ++ m') := by
  induction h with
  | nil => exact hm
  | keep x _ ih => exact .keep x ih
  | drop hx _ ih => exact .drop hx ih
  | config _ ih => exact .config ih
  | queue hx hf _ ih => exact .queue hx hf ih
  | announced _ ih => exact .announced ih

/-- What was not there before is a capability frame of the epoch, or video where there was some. -/
theorem mem {l l' : List Signal} (h : Shift epoch l l') {x : Signal} (hx : x ∈ l') :
    x ∈ l ∨ x = .capabilities epoch ∨ (x = .video ∧ .gate ∈ l) := by
  induction h with
  | nil => exact .inl hx
  | keep y _ ih =>
    rcases List.mem_cons.mp hx with rfl | hx
    · exact .inl List.mem_cons_self
    · rcases ih hx with hx | hx | ⟨hx, hg⟩
      · exact .inl (List.mem_cons_of_mem _ hx)
      · exact .inr (.inl hx)
      · exact .inr (.inr ⟨hx, List.mem_cons_of_mem _ hg⟩)
  | drop _ _ ih =>
    rcases ih hx with hx | hx | ⟨hx, hg⟩
    · exact .inl (List.mem_cons_of_mem _ hx)
    · exact .inr (.inl hx)
    · exact .inr (.inr ⟨hx, List.mem_cons_of_mem _ hg⟩)
  | config _ ih =>
    rcases List.mem_cons.mp hx with rfl | hx
    · exact .inr (.inr ⟨rfl, List.mem_cons_self⟩)
    rcases List.mem_cons.mp hx with rfl | hx
    · exact .inl List.mem_cons_self
    · rcases ih hx with hx | hx | ⟨hx, hg⟩
      · exact .inl (List.mem_cons_of_mem _ hx)
      · exact .inr (.inl hx)
      · exact .inr (.inr ⟨hx, List.mem_cons_of_mem _ hg⟩)
  | queue _ _ _ ih =>
    rcases List.mem_cons.mp hx with rfl | hx
    · exact .inl (by simp)
    rcases List.mem_cons.mp hx with rfl | hx
    · exact .inl List.mem_cons_self
    · rcases ih hx with hx | hx | ⟨hx, hg⟩
      · exact .inl (List.mem_cons_of_mem _ (List.mem_cons_of_mem _ hx))
      · exact .inr (.inl hx)
      · exact .inr (.inr ⟨hx, List.mem_cons_of_mem _ (List.mem_cons_of_mem _ hg)⟩)
  | announced _ ih =>
    rcases List.mem_cons.mp hx with rfl | hx
    · exact .inr (.inl rfl)
    · exact ih hx

/-- Signals that are neither video nor capabilities stay, in their order. -/
theorem filter_eq {q : Signal → Bool} (hvideo : ∀ x, x.isVideo = true → q x = false)
    (hcaps : q (.capabilities epoch) = false) {l l' : List Signal} (h : Shift epoch l l') :
    l'.filter q = l.filter q := by
  have hgate : ¬ q .gate = true := by simp [hvideo .gate rfl]
  have hconfig : ¬ q .video = true := by simp [hvideo .video rfl]
  induction h with
  | nil => rfl
  | keep x _ ih => rw [List.filter_cons, List.filter_cons, ih]
  | drop hx _ ih => rw [ih, List.filter_cons_of_neg (by simp [hvideo _ hx])]
  | config _ ih =>
    rw [List.filter_cons_of_neg hconfig, List.filter_cons_of_neg hgate,
      List.filter_cons_of_neg hgate, ih]
  | @queue x l _ _ _ _ ih =>
    rw [List.filter_cons_of_neg hgate, List.filter_cons, List.filter_cons_of_neg hgate, ih,
      ← List.filter_cons]
  | announced _ ih => rw [List.filter_cons_of_neg (by simp [hcaps]), ih]

theorem filter_about (n : ℕ) {l l' : List Signal} (h : Shift epoch l l') :
    l'.filter (about n) = l.filter (about n) := by
  apply h.filter_eq
  · intro x hx
    cases x with
    | video | gate => rfl
    | _ => cases hx
  · rfl

theorem filter_isFence {l l' : List Signal} (h : Shift epoch l l') :
    l'.filter isFence = l.filter isFence := by
  apply h.filter_eq
  · intro x hx
    cases x with
    | video | gate => rfl
    | _ => cases hx
  · rfl

/-- A fence stays between what is before it and what is behind it. -/
theorem split {l l' : List Signal} (h : Shift epoch l l') :
    ∀ {a b : List Signal} {key : FrameType × ℕ}, l = a ++ Signal.fence key :: b →
      ∃ a' b', l' = a' ++ Signal.fence key :: b' ∧ Shift epoch a a' ∧ Shift epoch b b' := by
  induction h with
  | nil => intro a b key h; simp at h
  | @keep x l l' hl ih =>
    intro a b key h
    rcases List.cons_eq_append_iff.mp h with ⟨rfl, hcons⟩ | ⟨a', rfl, hrest⟩
    · obtain ⟨rfl, rfl⟩ := List.cons.inj hcons
      exact ⟨[], l', rfl, .nil, hl⟩
    · obtain ⟨c, d, rfl, hc, hd⟩ := ih hrest
      exact ⟨x :: c, d, rfl, .keep x hc, hd⟩
  | @drop x l l' hx hl ih =>
    intro a b key h
    rcases List.cons_eq_append_iff.mp h with ⟨rfl, hcons⟩ | ⟨a', rfl, hrest⟩
    · obtain ⟨rfl, rfl⟩ := List.cons.inj hcons
      cases hx
    · obtain ⟨c, d, rfl, hc, hd⟩ := ih hrest
      exact ⟨c, d, rfl, .drop hx hc, hd⟩
  | @config l l' hl ih =>
    intro a b key h
    rcases List.cons_eq_append_iff.mp h with ⟨rfl, hcons⟩ | ⟨a', rfl, hrest⟩
    · cases (List.cons.inj hcons).1
    · obtain ⟨c, d, rfl, hc, hd⟩ := ih hrest
      exact ⟨.video :: .gate :: c, d, rfl, .config hc, hd⟩
  | @queue x l l' hx hf hl ih =>
    intro a b key h
    rcases List.cons_eq_append_iff.mp h with ⟨rfl, hcons⟩ | ⟨a', rfl, hrest⟩
    · cases (List.cons.inj hcons).1
    rcases List.cons_eq_append_iff.mp hrest with ⟨rfl, hcons⟩ | ⟨a', rfl, hbehind⟩
    · obtain ⟨rfl, rfl⟩ := List.cons.inj hcons
      cases hf
    · obtain ⟨c, d, rfl, hc, hd⟩ := ih hbehind
      exact ⟨x :: .gate :: c, d, rfl, .queue hx hf hc, hd⟩
  | announced _ ih =>
    intro a b key h
    obtain ⟨c, d, rfl, hc, hd⟩ := ih h
    exact ⟨.capabilities epoch :: c, d, rfl, .announced hc, hd⟩

end Shift

/-! ## What is said of the signals in flight -/

/-- Nothing about the request is in flight. -/
def Silent (n : ℕ) (l : List Signal) : Prop := l.filter (about n) = []

/-- The first signal about the request is `x`. -/
def First (n : ℕ) (x : Signal) (l : List Signal) : Prop := (l.filter (about n)).head? = some x

/-- The first signal about the request is a rejection, and no video comes before it. -/
def Doomed (n : ℕ) : List Signal → Prop
  | [] => False
  | x :: l => if x.about n then x = .result n .rejected else x.isVideo = false ∧ Doomed n l

/-- Nothing about the request, no video and no fence. -/
def Bare (n : ℕ) (l : List Signal) : Prop :=
  ∀ x ∈ l, x.about n = false ∧ x.isVideo = false ∧ x.isFence = false

/-- The first signal about the request is `x`, with neither the gate nor a fence before it, and what
follows it has `P`. -/
def Next (n : ℕ) (x : Signal) (P : List Signal → Prop) : List Signal → Prop
  | [] => False
  | y :: l =>
    if y.about n then y = x ∧ P l else y ≠ .gate ∧ y.isFence = false ∧ Next n x P l

/-- A reply that video cannot follow: its fence has run, or is still to run before it is queued. -/
inductive Held (n : ℕ) (x : Signal) : List Signal → Prop
  | shut {l : List Signal} : Next n x (Bare n) l → Held n x l
  | fenced (key : FrameType × ℕ) {a b : List Signal} : Silent n a → a.filter isFence = [] →
      Next n x (Bare n) b → Held n x (a ++ Signal.fence key :: b)

/-- Behind video every capability frame carries the epoch. -/
def Fresh (epoch : ℕ) (l : List Signal) : Prop :=
  l.Pairwise fun x y => x.isVideo = true → y.Carries epoch

/-- What the writer's moves keep. -/
def Closed (P : List Signal → Prop) : Prop := ∀ epoch l l', P l → Shift epoch l l' → P l'

theorem silent_iff : Silent n l ↔ ∀ x ∈ l, x.about n = false := by
  simp [Silent, List.filter_eq_nil_iff]

theorem closed_silent (n : ℕ) : Closed (Silent n) := by
  intro epoch l l' hl h
  rw [Silent, h.filter_about n]
  exact hl

theorem closed_first (n : ℕ) (x : Signal) : Closed (First n x) := by
  intro epoch l l' hl h
  rw [First, h.filter_about n]
  exact hl

theorem closed_bare (n : ℕ) : Closed (Bare n) := by
  intro epoch l l' hl h x hx
  rcases h.mem hx with hx | rfl | ⟨-, hg⟩
  · exact hl x hx
  · exact ⟨rfl, rfl, rfl⟩
  · cases (hl _ hg).2.1

theorem closed_doomed (n : ℕ) : Closed (Doomed n) := by
  intro epoch l l' hl h
  induction h with
  | nil => exact hl
  | keep x _ ih =>
    simp only [Doomed] at hl ⊢
    split
    · next hx =>
      rw [if_pos hx] at hl
      exact hl
    · next hx =>
      rw [if_neg hx] at hl
      exact ⟨hl.1, ih hl.2⟩
  | @drop x _ _ hx _ _ =>
    have hn : ¬ x.about n = true := fun hn => by simp [not_isVideo_of_about hn] at hx
    simp [Doomed, hn, hx] at hl
  | config => simp [Doomed, about, isVideo] at hl
  | queue => simp [Doomed, about, isVideo] at hl
  | announced _ ih => exact ⟨rfl, ih hl⟩

theorem closed_next {P : List Signal → Prop} (hP : Closed P) (n : ℕ) (x : Signal) :
    Closed (Next n x P) := by
  intro epoch l l' hl h
  induction h with
  | nil => exact hl
  | keep y h ih =>
    simp only [Next] at hl ⊢
    split
    · next hy =>
      rw [if_pos hy] at hl
      exact ⟨hl.1, hP _ _ _ hl.2 h⟩
    · next hy =>
      rw [if_neg hy] at hl
      exact ⟨hl.1, hl.2.1, ih hl.2.2⟩
  | @drop y _ _ hy _ ih =>
    have hn : ¬ y.about n = true := fun hn => by simp [not_isVideo_of_about hn] at hy
    rw [Next, if_neg hn] at hl
    exact ih hl.2.2
  | config => simp [Next, about] at hl
  | queue => simp [Next, about] at hl
  | announced _ ih => exact ⟨by simp, rfl, ih hl⟩

theorem closed_held (n : ℕ) (x : Signal) : Closed (Held n x) := by
  intro epoch l l' hl h
  cases hl with
  | shut hnext => exact .shut (closed_next (closed_bare n) n x _ _ _ hnext h)
  | fenced key ha hf hb =>
    obtain ⟨c, d, rfl, hc, hd⟩ := h.split rfl
    refine .fenced key (closed_silent n _ _ _ ha hc) ?_
      (closed_next (closed_bare n) n x _ _ _ hb hd)
    rw [hc.filter_isFence, hf]

theorem Fresh.shift {l l' : List Signal} (hl : Fresh epoch l) (h : Shift epoch l l') :
    Fresh epoch l' := by
  -- behind some video of `l`, everything of `l'` carries the epoch
  have hbehind (m m' : List Signal) (hm : ∀ y ∈ m, y.Carries epoch) (h : Shift epoch m m') :
      ∀ y ∈ m', y.Carries epoch := by
    intro y hy
    rcases h.mem hy with hy | rfl | ⟨rfl, -⟩
    · exact hm y hy
    · intro e he
      exact (Signal.capabilities.inj he).symm
    · intro e he
      cases he
  have hcaps (m : List Signal) (e : ℕ) :
      ∀ y ∈ m, (Signal.capabilities e).isVideo = true → y.Carries epoch := by
    intro y _ hv
    cases hv
  induction h with
  | nil => exact hl
  | keep x h ih =>
    obtain ⟨hx, hl⟩ := List.pairwise_cons.mp hl
    refine List.pairwise_cons.mpr ⟨fun y hy hv => ?_, ih hl⟩
    exact hbehind _ _ (fun z hz => hx z hz hv) h y hy
  | drop _ _ ih => exact ih (List.pairwise_cons.mp hl).2
  | config h ih =>
    obtain ⟨hx, hl⟩ := List.pairwise_cons.mp hl
    have hrest := hbehind _ _ (fun z hz => hx z hz rfl) h
    have hgate : Signal.gate.Carries epoch := by
      intro e he
      cases he
    refine List.pairwise_cons.mpr ⟨fun y hy _ => ?_, List.pairwise_cons.mpr
      ⟨fun y hy _ => hrest y hy, ih hl⟩⟩
    rcases List.mem_cons.mp hy with rfl | hy
    · exact hgate
    · exact hrest y hy
  | @queue x _ _ hx _ h ih =>
    obtain ⟨hg, hl⟩ := List.pairwise_cons.mp hl
    obtain ⟨-, hl⟩ := List.pairwise_cons.mp hl
    have hrest := hbehind _ _ (fun z hz => hg z (List.mem_cons_of_mem _ hz) rfl) h
    refine List.pairwise_cons.mpr ⟨fun y _ hv => ?_, List.pairwise_cons.mpr
      ⟨fun y hy _ => hrest y hy, ih hl⟩⟩
    rw [hx] at hv
    cases hv
  | announced _ ih => exact List.pairwise_cons.mpr ⟨hcaps _ _, ih hl⟩

/-! ## What the phone adds, and what the PC takes -/

theorem Doomed.append (h : Doomed n l) (m : List Signal) : Doomed n (l ++ m) := by
  induction l with
  | nil => exact h.elim
  | cons x l ih =>
    simp only [List.cons_append, Doomed] at h ⊢
    split
    · next hx =>
      rw [if_pos hx] at h
      exact h
    · next hx =>
      rw [if_neg hx] at h
      exact ⟨h.1, ih h.2⟩

/-- A rejection behind signals that do not matter to the request. -/
theorem doomed_of_bare (h : Bare n l) : Doomed n (l ++ [Signal.result n .rejected]) := by
  induction l with
  | nil => simp [Doomed, about]
  | cons x l ih =>
    obtain ⟨hx, hl⟩ := List.forall_mem_cons.mp h
    simp only [List.cons_append, Doomed, hx.1, Bool.false_eq_true, if_false]
    exact ⟨hx.2.1, ih hl⟩

theorem Doomed.tail (h : Doomed n (x :: l)) (hx : x.about n = false) :
    x.isVideo = false ∧ Doomed n l := by
  simpa [Doomed, hx] using h

theorem Doomed.head (h : Doomed n (x :: l)) (hx : x.about n = true) : x = .result n .rejected := by
  simpa [Doomed, hx] using h

theorem Next.mono {P Q : List Signal → Prop} (hPQ : ∀ l, P l → Q l) (h : Next n x P l) :
    Next n x Q l := by
  induction l with
  | nil => exact h.elim
  | cons y l ih =>
    simp only [Next] at h ⊢
    split
    · next hy =>
      rw [if_pos hy] at h
      exact ⟨h.1, hPQ l h.2⟩
    · next hy =>
      rw [if_neg hy] at h
      exact ⟨h.1, h.2.1, ih h.2.2⟩

/-- What the phone adds is behind everything. -/
theorem Next.append {P Q : List Signal → Prop} (m : List Signal) (hPQ : ∀ l, P l → Q (l ++ m))
    (h : Next n x P l) : Next n x Q (l ++ m) := by
  induction l with
  | nil => exact h.elim
  | cons y l ih =>
    simp only [List.cons_append, Next] at h ⊢
    split
    · next hy =>
      rw [if_pos hy] at h
      exact ⟨h.1, hPQ l h.2⟩
    · next hy =>
      rw [if_neg hy] at h
      exact ⟨h.1, h.2.1, ih h.2.2⟩

/-- A reply behind signals that are not about its request. -/
theorem next_of_silent {P : List Signal → Prop} {a b : List Signal} (ha : Silent n a)
    (hf : a.filter isFence = []) (hg : .gate ∉ a) (hb : Next n x P b) : Next n x P (a ++ b) := by
  induction a with
  | nil => exact hb
  | cons y a ih =>
    have hy := silent_iff.mp ha y List.mem_cons_self
    have hfence : y.isFence = false := by
      have hnone := List.filter_eq_nil_iff.mp hf y List.mem_cons_self
      simpa using hnone
    rw [List.cons_append, Next, if_neg (by simp [hy])]
    refine ⟨fun h => hg (h ▸ List.mem_cons_self), hfence, ih ?_ ?_ ?_⟩
    · exact silent_iff.mpr fun z hz => silent_iff.mp ha z (List.mem_cons_of_mem _ hz)
    · exact List.filter_eq_nil_iff.mpr fun z hz =>
        List.filter_eq_nil_iff.mp hf z (List.mem_cons_of_mem _ hz)
    · exact fun hmem => hg (List.mem_cons_of_mem _ hmem)

theorem Next.tail {P : List Signal → Prop} (h : Next n x P (y :: l)) (hy : y.about n = false) :
    Next n x P l := by
  rw [Next, if_neg (by simp [hy])] at h
  exact h.2.2

theorem Next.head {P : List Signal → Prop} (h : Next n x P (y :: l)) (hy : y.about n = true) :
    y = x ∧ P l := by
  simpa [Next, hy] using h

theorem Held.tail (h : Held n x (y :: l)) (hy : y.about n = false) (hfence : y.isFence = false) :
    Held n x l := by
  generalize hwhole : y :: l = whole at h
  cases h with
  | shut hnext =>
    rw [← hwhole] at hnext
    exact .shut (hnext.tail hy)
  | fenced key ha hf hb =>
    rcases List.cons_eq_append_iff.mp hwhole with ⟨rfl, hcons⟩ | ⟨a', rfl, hrest⟩
    · obtain ⟨rfl, -⟩ := List.cons.inj hcons
      cases hfence
    · rw [hrest]
      refine .fenced key ?_ ?_ hb
      · exact silent_iff.mpr fun z hz => silent_iff.mp ha z (List.mem_cons_of_mem _ hz)
      · exact List.filter_eq_nil_iff.mpr fun z hz =>
          List.filter_eq_nil_iff.mp hf z (List.mem_cons_of_mem _ hz)

theorem Held.head (h : Held n x (y :: l)) (hy : y.about n = true) : y = x ∧ Bare n l := by
  generalize hwhole : y :: l = whole at h
  cases h with
  | shut hnext =>
    rw [← hwhole] at hnext
    exact hnext.head hy
  | fenced key ha =>
    rcases List.cons_eq_append_iff.mp hwhole with ⟨rfl, hcons⟩ | ⟨a', rfl, hrest⟩
    · obtain ⟨rfl, -⟩ := List.cons.inj hcons
      cases hy
    · rw [silent_iff.mp ha y List.mem_cons_self] at hy
      cases hy

/-- Where no fence is left to run, the reply's has run. -/
theorem Held.next (h : Held n x l) (hf : l.filter isFence = []) : Next n x (Bare n) l := by
  cases h with
  | shut h => exact h
  | fenced key => simp [List.filter_append, isFence] at hf

theorem Next.unfenced {P : List Signal → Prop} (hP : ∀ l, P l → l.filter isFence = [])
    (h : Next n x P l) : l.filter isFence = [] := by
  induction l with
  | nil => rfl
  | cons y l ih =>
    rw [Next] at h
    split at h
    · next hy => rw [List.filter_cons_of_neg (by simp [not_isFence_of_about hy]), hP l h.2]
    · rw [List.filter_cons_of_neg (by simp [h.2.1]), ih h.2.2]

theorem Bare.unfenced (h : Bare n l) : l.filter isFence = [] :=
  List.filter_eq_nil_iff.mpr fun x hx => by simp [(h x hx).2.2]

/-- The first fence is in one place. -/
theorem fence_unique {a b c d : List Signal} {j k : FrameType × ℕ} (ha : a.filter isFence = [])
    (hc : c.filter isFence = []) (h : a ++ Signal.fence j :: b = c ++ Signal.fence k :: d) :
    a = c ∧ j = k ∧ b = d := by
  induction a generalizing c with
  | nil =>
    cases c with
    | nil =>
      obtain ⟨heq, rfl⟩ := List.cons.inj h
      exact ⟨rfl, Signal.fence.inj heq, rfl⟩
    | cons z c =>
      obtain ⟨rfl, -⟩ := List.cons.inj h
      simp [isFence] at hc
  | cons y a ih =>
    cases c with
    | nil =>
      obtain ⟨rfl, -⟩ := List.cons.inj h
      simp [isFence] at ha
    | cons z c =>
      obtain ⟨rfl, hrest⟩ := List.cons.inj h
      rw [List.filter_cons] at ha hc
      split at ha
      · cases ha
      · next hy =>
        rw [if_neg hy] at hc
        obtain ⟨rfl, hkeys, hbehind⟩ := ih ha hc hrest
        exact ⟨rfl, hkeys, hbehind⟩

theorem First.tail (h : First n x (y :: l)) (hy : y.about n = false) : First n x l := by
  rwa [First, List.filter_cons_of_neg (by simp [hy])] at h

theorem First.head (h : First n x (y :: l)) (hy : y.about n = true) : y = x := by
  rw [First, List.filter_cons_of_pos hy] at h
  exact Option.some.inj h

theorem First.append (h : First n x l) (m : List Signal) : First n x (l ++ m) := by
  rw [First, List.filter_append, List.head?_append, show _ = some x from h, Option.some_or]

theorem Fresh.append (h : Fresh epoch l) (hm : ∀ y ∈ m, y.Carries epoch) (hf : Fresh epoch m) :
    Fresh epoch (l ++ m) :=
  List.pairwise_append.mpr ⟨h, hf, fun _ _ y hy _ => hm y hy⟩

theorem fresh_of_carries (h : ∀ y ∈ l, y.Carries epoch) : Fresh epoch l :=
  List.pairwise_of_forall_mem_list fun _ _ y hy _ => h y hy

theorem fresh_of_bare (h : Bare n l) : Fresh epoch l := by
  refine List.pairwise_of_forall_mem_list fun x hx y _ hv => ?_
  rw [(h x hx).2.1] at hv
  cases hv

end QualityAgreement
end MobileWebcamBridge
