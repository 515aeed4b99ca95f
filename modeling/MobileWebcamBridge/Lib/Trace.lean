import Mathlib.Tactic.Common
import Mathlib.Data.List.Basic

/-!
# Order in a history

`Precedes tr a b` says that some occurrence of `a` comes before some occurrence of `b`. It is
stable when the history grows at either end. `Each Q tr` says that every event was justified by
the history before it, so it is checked once, when the event is emitted. `Around Q tr` also looks at
what came after it.
-/

namespace Trace

variable {ε : Type*} {tr es : List ε} {a b : ε}

/-- Some occurrence of `a` comes before some occurrence of `b`. -/
def Precedes (tr : List ε) (a b : ε) : Prop := ∃ x y, tr = x ++ y ∧ a ∈ x ∧ b ∈ y

/-- The order stands after more events. -/
theorem Precedes.append_right (h : Precedes tr a b) (es : List ε) : Precedes (tr ++ es) a b := by
  obtain ⟨x, y, rfl, ha, hb⟩ := h
  exact ⟨x, y ++ es, by rw [List.append_assoc], ha, List.mem_append_left _ hb⟩

/-- Whatever has happened precedes whatever happens next. -/
theorem precedes_of_mem (ha : a ∈ tr) (hb : b ∈ es) : Precedes (tr ++ es) a b :=
  ⟨tr, es, rfl, ha, hb⟩

/-- What is preceded is there. -/
theorem Precedes.mem_right (h : Precedes tr a b) : b ∈ tr := by
  obtain ⟨x, y, rfl, _, hb⟩ := h
  exact List.mem_append_right _ hb

/-- Reading a precedence in a history that has since grown by events other than `b`. -/
theorem Precedes.of_append (h : Precedes (tr ++ es) a b) (hb : b ∉ es) : Precedes tr a b := by
  obtain ⟨x, y, hxy, ha, hby⟩ := h
  rcases List.append_eq_append_iff.mp hxy with ⟨c, rfl, hes⟩ | ⟨c, rfl, rfl⟩
  · exact absurd (hes ▸ List.mem_append_right _ hby) hb
  · rcases List.mem_append.mp hby with h' | h'
    · exact ⟨x, c, rfl, ha, h'⟩
    · exact absurd h' hb

/-- What the history grows by follows every event it does not contain. -/
theorem of_append_eq {x y : List ε} (h : tr ++ es = x ++ a :: y) (ha : a ∉ es) :
    ∃ z, tr = x ++ a :: z ∧ y = z ++ es := by
  rcases List.append_eq_append_iff.mp h with ⟨c, rfl, hes⟩ | ⟨c, rfl, hc⟩
  · exact absurd (hes ▸ List.mem_append_right _ List.mem_cons_self) ha
  · rcases List.cons_eq_append_iff.mp hc with ⟨rfl, hes⟩ | ⟨z, rfl, hy⟩
    · exact absurd (hes ▸ List.mem_cons_self) ha
    · exact ⟨z, rfl, hy⟩

/-- An event of a history that has grown by one is the last, or was there before. -/
theorem concat_eq {x y : List ε} {e : ε} (h : tr ++ [e] = x ++ a :: y) :
    (y = [] ∧ e = a) ∨ ∃ z, tr = x ++ a :: z ∧ y = z ++ [e] := by
  rcases List.append_eq_append_iff.mp h with ⟨c, rfl, hes⟩ | ⟨c, rfl, hc⟩
  · rcases List.cons_eq_append_iff.mp hes with ⟨rfl, hy⟩ | ⟨c', rfl, hy⟩
    · obtain ⟨rfl, rfl⟩ := List.cons.inj hy
      exact .inl ⟨rfl, rfl⟩
    · simp at hy
  · rcases List.cons_eq_append_iff.mp hc with ⟨rfl, hy⟩ | ⟨z, rfl, rfl⟩
    · obtain ⟨rfl, rfl⟩ := List.cons.inj hy
      exact .inl ⟨rfl, rfl⟩
    · exact .inr ⟨z, rfl, rfl⟩

/-- Every event has `Q` of the history before it. -/
def Each (Q : List ε → ε → Prop) (tr : List ε) : Prop := ∀ x e y, tr = x ++ e :: y → Q x e

variable {Q Q' : List ε → ε → Prop}

theorem each_nil : Each Q [] := by
  intro x e y h
  simp at h

/-- The first event, and the others behind it. -/
theorem each_cons {e : ε} : Each Q (e :: es) ↔ Q [] e ∧ Each (fun x => Q (e :: x)) es := by
  constructor
  · intro h
    exact ⟨h [] e es rfl, fun x f y hx => h (e :: x) f y (by rw [hx]; rfl)⟩
  · rintro ⟨h0, h⟩ x f y hx
    rcases List.cons_eq_append_iff.mp hx with ⟨rfl, hf⟩ | ⟨x', rfl, hes⟩
    · obtain ⟨rfl, rfl⟩ := List.cons.inj hf
      exact h0
    · exact h x' f y hes

/-- The events of two parts. -/
theorem Each.append (h : Each Q tr) (h' : Each (fun x => Q (tr ++ x)) es) : Each Q (tr ++ es) := by
  intro x e y hx
  rcases List.append_eq_append_iff.mp hx with ⟨c, rfl, hes⟩ | ⟨c, rfl, hc⟩
  · exact h' c e y hes
  · rcases List.cons_eq_append_iff.mp hc with ⟨rfl, hes⟩ | ⟨c', rfl, -⟩
    · simpa using h' [] e y hes
    · exact h x e c' rfl

/-- The events of the first part. -/
theorem Each.of_append (h : Each Q (tr ++ es)) : Each Q tr := by
  intro x e y hx
  exact h x e (y ++ es) (by rw [hx, List.append_assoc]; rfl)

/-- Events that cannot lack justification. -/
theorem each_of_forall (h : ∀ x, ∀ e ∈ es, Q x e) : Each Q es :=
  fun x e y hx => h x e (by simp [hx])

/-- Every event has `Q` of what came before it and of what came after it. -/
def Around (Q : List ε → ε → List ε → Prop) (tr : List ε) : Prop :=
  ∀ x e y, tr = x ++ e :: y → Q x e y

section around

variable {R : List ε → ε → List ε → Prop}

theorem around_nil : Around R [] := by
  intro x e y h
  simp at h

/-- The first event, and the others around it. -/
theorem around_cons {e : ε} :
    Around R (e :: es) ↔ R [] e es ∧ Around (fun x => R (e :: x)) es := by
  constructor
  · intro h
    exact ⟨h [] e es rfl, fun x f y hx => h (e :: x) f y (by rw [hx]; rfl)⟩
  · intro h x f y hx
    rcases List.cons_eq_append_iff.mp hx with ⟨rfl, hf⟩ | ⟨x', rfl, hes⟩
    · obtain ⟨rfl, rfl⟩ := List.cons.inj hf
      exact h.1
    · exact h.2 x' f y hes

/-- What has come after an event only grows. -/
theorem Around.append (hgrow : ∀ x e y, R x e y → R x e (y ++ es)) (h : Around R tr)
    (h' : Around (fun x => R (tr ++ x)) es) : Around R (tr ++ es) := by
  intro x e y hx
  rcases List.append_eq_append_iff.mp hx with ⟨c, rfl, hes⟩ | ⟨c, rfl, hc⟩
  · exact h' c e y hes
  · rcases List.cons_eq_append_iff.mp hc with ⟨rfl, hes⟩ | ⟨c', rfl, hy⟩
    · simpa using h' [] e y hes
    · rw [hy]
      exact hgrow x e c' (h x e c' rfl)

/-- Events of which nothing is asked. -/
theorem around_of_forall (h : ∀ x, ∀ e ∈ es, ∀ y, R x e y) : Around R es :=
  fun x e y hx => h x e (by simp [hx]) y

end around

end Trace
