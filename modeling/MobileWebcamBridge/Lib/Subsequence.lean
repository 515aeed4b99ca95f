import Mathlib.Tactic.Common
import Mathlib.Data.List.Forall2

/-!
# Related subsequences

`List.SublistForall₂ R l₁ l₂` says that `l₁` is, entry by entry up to `R`, a subsequence of `l₂`.
Mathlib has it as a relation; here is how it moves along when both lists are queues: entries
leave on the left, entries arrive on the right, and an entry arrives on both sides at once.
-/

universe u v

namespace List.SublistForall₂

variable {α : Type u} {β : Type v} {R S : α → β → Prop} {l₁ k₁ : List α} {l₂ k₂ : List β}

/-- A weaker relation. -/
theorem imp (hRS : ∀ a b, R a b → S a b) (h : SublistForall₂ R l₁ l₂) : SublistForall₂ S l₁ l₂ := by
  induction h with
  | nil => exact .nil
  | cons hab _ ih => exact .cons (hRS _ _ hab) ih
  | cons_right _ ih => exact .cons_right ih

/-- A longer list. -/
theorem append_right (h : SublistForall₂ R l₁ l₂) (k : List β) : SublistForall₂ R l₁ (l₂ ++ k) := by
  induction h with
  | nil => exact .nil
  | cons hab _ ih => exact .cons hab ih
  | cons_right _ ih => exact .cons_right ih

/-- Part of a list that is related as a whole. -/
theorem of_forall₂ {l : List β} (hl : Forall₂ R l₁ l) (hk : k₁.Sublist l₁) :
    SublistForall₂ R k₁ l := by
  induction hk generalizing l with
  | slnil => exact .nil
  | cons _ _ ih =>
    cases hl with
    | cons _ hl => exact .cons_right (ih hl)
  | cons_cons _ _ ih =>
    cases hl with
    | cons hab hl => exact .cons hab (ih hl)

/-- A part of the first list. -/
theorem of_sublist (h : SublistForall₂ R l₁ l₂) (hk : k₁.Sublist l₁) : SublistForall₂ R k₁ l₂ := by
  rw [sublistForall₂_iff] at h ⊢
  obtain ⟨l, hl, hs⟩ := h
  obtain ⟨k, hk, hkl⟩ := sublistForall₂_iff.mp (of_forall₂ hl hk)
  exact ⟨k, hk, hkl.trans hs⟩

/-- One more at the end of both. -/
theorem snoc {a : α} {b : β} (h : SublistForall₂ R l₁ l₂) (hab : R a b) :
    SublistForall₂ R (l₁ ++ [a]) (l₂ ++ [b]) := by
  rw [sublistForall₂_iff] at h ⊢
  obtain ⟨l, hl, hs⟩ := h
  exact ⟨l ++ [b], rel_append hl (.cons hab .nil), hs.append (Sublist.refl _)⟩

/-- Every element is related to one of the second list. -/
theorem exists_mem (h : SublistForall₂ R l₁ l₂) {a : α} (ha : a ∈ l₁) : ∃ b ∈ l₂, R a b := by
  induction h with
  | nil => cases ha
  | cons hab _ ih =>
    rcases mem_cons.mp ha with rfl | ha
    · exact ⟨_, mem_cons_self, hab⟩
    · obtain ⟨b, hb, hab⟩ := ih ha
      exact ⟨b, mem_cons_of_mem _ hb, hab⟩
  | cons_right _ ih =>
    obtain ⟨b, hb, hab⟩ := ih ha
    exact ⟨b, mem_cons_of_mem _ hb, hab⟩

/-- An order of the sequence is an order of the subsequence. -/
theorem pairwise {P : α → α → Prop} {Q : β → β → Prop}
    (hPQ : ∀ {a a' b b'}, R a b → R a' b' → Q b b' → P a a')
    (h : SublistForall₂ R l₁ l₂) (hQ : l₂.Pairwise Q) : l₁.Pairwise P := by
  induction h with
  | nil => exact .nil
  | cons hab hl ih =>
    rw [pairwise_cons] at hQ ⊢
    refine ⟨fun a' ha' => ?_, ih hQ.2⟩
    obtain ⟨b', hb', hab'⟩ := hl.exists_mem ha'
    exact hPQ hab hab' (hQ.1 b' hb')
  | cons_right _ ih => exact ih (pairwise_cons.mp hQ).2

end List.SublistForall₂
