import Mathlib.Data.Nat.Notation
import Mathlib.Tactic.Common

/-!
# Readers that undo a writer

A reader takes a value from the front of its input, or fails. `Inverse dom write read` says that it
reads back what `write` wrote of a value in `dom`, whatever stands behind, and that it reads nothing
else; `fixed` reads a number of symbols and `repeated` a number of values.
-/

set_option autoImplicit false

namespace Reader

variable {α β : Type*} {dom : α → Prop} {write : α → List β} {n : ℕ}
  {read : List β → Option (α × List β)}

/-- The reader takes back exactly what the writer wrote, and leaves the rest. -/
structure Inverse (dom : α → Prop) (write : α → List β) (read : List β → Option (α × List β)) :
    Prop where
  reads : ∀ v, dom v → ∀ rest, read (write v ++ rest) = some (v, rest)
  exact : ∀ input v rest, read input = some (v, rest) → dom v ∧ input = write v ++ rest

/-- The first `n` symbols; an input that is shorter fails. -/
def fixed (n : ℕ) (input : List β) : Option (List β × List β) :=
  if n ≤ input.length then some (input.take n, input.drop n) else none

/-- `n` values, one behind the other. -/
def repeated (read : List β → Option (α × List β)) : ℕ → List β → Option (List α × List β)
  | 0, input => some ([], input)
  | n + 1, input => do
    let (v, input) ← read input
    let (vs, input) ← repeated read n input
    some (v :: vs, input)

/-- A text of fixed length. -/
theorem fixed_inverse (n : ℕ) : Inverse (fun l : List β => l.length = n) id (fixed n) where
  reads := by
    intro l hlen rest
    subst hlen
    show fixed _ (l ++ rest) = _
    rw [fixed, if_pos (by simp), List.take_left, List.drop_left]
  exact := by
    intro input l rest h
    unfold fixed at h
    split at h
    · next hle =>
      obtain ⟨rfl, rfl⟩ := Prod.mk.inj (Option.some.inj h)
      exact ⟨by rw [List.length_take]; omega, (List.take_append_drop n input).symm⟩
    · cases h

/-- Several of the same kind, one behind the other. -/
theorem Inverse.repeated (h : Inverse dom write read) (n : ℕ) :
    Inverse (fun vs => vs.length = n ∧ ∀ v ∈ vs, dom v) (List.flatMap write)
      (repeated read n) where
  reads := by
    induction n with
    | zero =>
      intro vs hvs rest
      rw [List.eq_nil_of_length_eq_zero hvs.1]
      rfl
    | succ n ih =>
      intro vs hvs rest
      cases vs with
      | nil => cases hvs.1
      | cons v vs =>
        obtain ⟨hv, hall⟩ := List.forall_mem_cons.mp hvs.2
        have htail := ih vs ⟨Nat.succ.inj hvs.1, hall⟩ rest
        rw [List.flatMap_cons, List.append_assoc, Reader.repeated, h.reads v hv]
        show (Reader.repeated read n (vs.flatMap write ++ rest)).bind _ = _
        rw [htail]
        rfl
  exact := by
    induction n with
    | zero =>
      intro input vs rest hread
      obtain ⟨rfl, rfl⟩ := Prod.mk.inj (Option.some.inj hread)
      exact ⟨⟨rfl, nofun⟩, rfl⟩
    | succ n ih =>
      intro input vs rest hread
      simp only [Reader.repeated, Option.bind_eq_bind, Option.bind_eq_some_iff] at hread
      obtain ⟨⟨v, middle⟩, hv, ⟨⟨tail, rest'⟩, htail, heq⟩⟩ := hread
      obtain ⟨rfl, rfl⟩ := Prod.mk.inj (Option.some.inj heq)
      obtain ⟨hdom, rfl⟩ := h.exact input v middle hv
      obtain ⟨⟨hlen, hall⟩, rfl⟩ := ih middle tail rest' htail
      refine ⟨⟨by rw [List.length_cons, hlen], List.forall_mem_cons.mpr ⟨hdom, hall⟩⟩, ?_⟩
      rw [List.flatMap_cons, List.append_assoc]

end Reader
