import Mathlib.Data.Nat.Notation
import Mathlib.Logic.Function.Iterate
import Mathlib.Tactic.Common

/-!
# Pictures and quarter turns

A `Picture` is a width, a height and a pixel at each place; `Same` compares two pictures inside
their frames. `turn n` is `n` quarter turns, so turns add up by the iteration of `quarter`, and
`turn_mod` says that only the number of turns modulo four counts.
-/

set_option autoImplicit false

variable {α : Type*}

/-- A width, a height, and a pixel at each column and row. -/
structure Picture (α : Type*) where
  width : ℕ
  height : ℕ
  pixel : ℕ → ℕ → α

namespace Picture

variable {p q r : Picture α} {n : ℕ}

/-- The pictures agree inside their frame. -/
structure Same (p q : Picture α) : Prop where
  width : p.width = q.width
  height : p.height = q.height
  pixel : ∀ x < p.width, ∀ y < p.height, p.pixel x y = q.pixel x y

/-- A picture shows what it shows. -/
theorem Same.refl (p : Picture α) : p.Same p :=
  ⟨rfl, rfl, fun _ _ _ _ => rfl⟩

/-- Both ways round. -/
theorem Same.symm (h : p.Same q) : q.Same p where
  width := h.width.symm
  height := h.height.symm
  pixel x hx y hy := (h.pixel x (h.width ▸ hx) y (h.height ▸ hy)).symm

/-- By way of a third. -/
theorem Same.trans (hpq : p.Same q) (hqr : q.Same r) : p.Same r where
  width := hpq.width.trans hqr.width
  height := hpq.height.trans hqr.height
  pixel x hx y hy := (hpq.pixel x hx y hy).trans
    (hqr.pixel x (hpq.width ▸ hx) y (hpq.height ▸ hy))

/-- A quarter turn, clockwise. -/
def quarter (p : Picture α) : Picture α where
  width := p.height
  height := p.width
  pixel x y := p.pixel y (p.height - 1 - x)

/-- Pictures that show the same, turned. -/
theorem Same.quarter (h : p.Same q) : p.quarter.Same q.quarter where
  width := h.height
  height := h.width
  pixel x hx y hy := by
    have hx : x < p.height := hx
    have hy : y < p.width := hy
    show p.pixel y (p.height - 1 - x) = q.pixel y (q.height - 1 - x)
    rw [h.pixel y hy _ (by omega), h.height]

/-- So many quarter turns. -/
def turn (n : ℕ) (p : Picture α) : Picture α := quarter^[n] p

/-- Turns add up. -/
theorem turn_add (m n : ℕ) (p : Picture α) : turn (m + n) p = turn m (turn n p) :=
  Function.iterate_add_apply quarter m n p

/-- Pictures that show the same, turned several times. -/
theorem Same.turn (h : p.Same q) (n : ℕ) : (turn n p).Same (turn n q) := by
  induction n with
  | zero => exact h
  | succ n ih =>
    have hp : Picture.turn (n + 1) p = (Picture.turn n p).quarter :=
      Function.iterate_succ_apply' Picture.quarter n p
    have hq : Picture.turn (n + 1) q = (Picture.turn n q).quarter :=
      Function.iterate_succ_apply' Picture.quarter n q
    rw [hp, hq]
    exact ih.quarter

/-- Four turns show the picture itself. -/
theorem turn_four (p : Picture α) : (turn 4 p).Same p where
  width := rfl
  height := rfl
  pixel x hx y hy := by
    have hx : x < p.width := hx
    have hy : y < p.height := hy
    show p.pixel (p.width - 1 - (p.width - 1 - x)) (p.height - 1 - (p.height - 1 - y)) = _
    congr 1 <;> omega

/-- So do any number of fours. -/
theorem turn_four_mul (k : ℕ) (p : Picture α) : (turn (4 * k) p).Same p := by
  induction k with
  | zero => exact Same.refl p
  | succ k ih =>
    have hsplit : turn (4 * (k + 1)) p = turn 4 (turn (4 * k) p) := by
      rw [← turn_add]
      congr 1
      omega
    rw [hsplit]
    exact (turn_four _).trans ih

/-- Only the number of turns modulo four counts. -/
theorem turn_mod (n : ℕ) (p : Picture α) : (turn n p).Same (turn (n % 4) p) := by
  have hsplit : turn n p = turn (n % 4) (turn (4 * (n / 4)) p) := by
    rw [← turn_add, Nat.mod_add_div]
  rw [hsplit]
  exact (turn_four_mul (n / 4) p).turn (n % 4)

end Picture
