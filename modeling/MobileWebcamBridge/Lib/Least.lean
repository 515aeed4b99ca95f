import Mathlib.Tactic.Common

/-!
# The least element of a list

`Least order xs x` says that `x` is in the list and no element comes before it. A comparison that is
transitive has a least element in every list that is not empty, found by one pass (`least_foldl`),
and when only equal elements compare equal there is one and the order of the list does not count.
-/

set_option autoImplicit false

variable {α β : Type*} {order : α → α → Ordering} {xs ys : List α} {x y : α}

/-- A member that no other is smaller than. -/
structure Least (order : α → α → Ordering) (xs : List α) (x : α) : Prop where
  mem : x ∈ xs
  le : ∀ y ∈ xs, (order x y).isLE

/-- One pass that keeps the first of the least. -/
theorem least_foldl [Std.TransCmp order] (x : α) (xs : List α) :
    Least order (x :: xs)
      (xs.foldl (fun least y => if order least y = .gt then y else least) x) := by
  induction xs generalizing x with
  | nil =>
    refine ⟨List.mem_cons_self, fun y hy => ?_⟩
    obtain rfl := List.mem_singleton.mp hy
    exact Ordering.isLE_of_eq_eq Std.ReflCmp.compare_self
  | cons y ys ih =>
    rw [List.foldl_cons]
    obtain ⟨hmem, hle⟩ := ih (if order x y = .gt then y else x)
    -- What the pass goes on with comes before both.
    have hboth : (order (if order x y = .gt then y else x) x).isLE ∧
        (order (if order x y = .gt then y else x) y).isLE := by
      split
      · next hgt =>
        have hlt : order y x = .lt := Std.OrientedCmp.lt_of_gt hgt
        exact ⟨by rw [hlt]; rfl, Ordering.isLE_of_eq_eq Std.ReflCmp.compare_self⟩
      · next hle =>
        exact ⟨Ordering.isLE_of_eq_eq Std.ReflCmp.compare_self, by
          rw [← Ordering.ne_gt_iff_isLE]; exact hle⟩
    have hfirst := hle _ List.mem_cons_self
    constructor
    · rcases List.mem_cons.mp hmem with heq | hys
      · rw [heq]
        split
        · exact List.mem_cons_of_mem _ List.mem_cons_self
        · exact List.mem_cons_self
      · exact List.mem_cons_of_mem _ (List.mem_cons_of_mem _ hys)
    · intro z hz
      rcases List.mem_cons.mp hz with rfl | hz
      · exact Std.TransCmp.isLE_trans hfirst hboth.1
      rcases List.mem_cons.mp hz with rfl | hz
      · exact Std.TransCmp.isLE_trans hfirst hboth.2
      · exact hle z (List.mem_cons_of_mem _ hz)

/-- There is one least element. -/
theorem Least.unique [Std.OrientedCmp order] [Std.LawfulEqCmp order] (hx : Least order xs x)
    (hy : Least order xs y) : x = y :=
  Std.LawfulEqCmp.eq_of_compare
    (Std.OrientedCmp.isLE_antisymm (hx.le y hy.mem) (hy.le x hx.mem))

/-- The least element of the list in another order. -/
theorem Least.perm (h : Least order xs x) (hperm : xs.Perm ys) : Least order ys x where
  mem := hperm.mem_iff.mp h.mem
  le y hy := h.le y (hperm.mem_iff.mpr hy)

/-- A comparison that decides by a key first. -/
theorem Least.map {f : β → α} {order' : β → β → Ordering} {l : List β} {b : β}
    (h : Least order' l b) (hle : ∀ c ∈ l, (order' b c).isLE → (order (f b) (f c)).isLE) :
    Least order (l.map f) (f b) where
  mem := List.mem_map_of_mem h.mem
  le y hy := by
    obtain ⟨c, hc, rfl⟩ := List.mem_map.mp hy
    exact hle c hc (h.le c hc)
