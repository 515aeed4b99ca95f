import Mathlib.Data.Nat.Notation
import Mathlib.Logic.Function.Basic
import Mathlib.Tactic.Common

/-!
# A directory of names and files

Names are entries that point at files, so a file can have several names or none. `Only` says that a
file has one name, and `Keeps` what an operation leaves of a name it is not about: its file, the
content, and that it is the only name of it.
-/

set_option autoImplicit false

/-- Files are numbered in the order they were created and hold contents of type `γ`. -/
structure Directory (ν γ : Type) where
  files : List γ
  entry : ν → Option ℕ

namespace Directory

variable {ν γ : Type} {d d' : Directory ν γ} {a b c : ν} {n m : ℕ} {x : γ}

/-- Every entry points at a file. -/
def Closed (d : Directory ν γ) : Prop := ∀ a n, d.entry a = some n → n < d.files.length

/-- The file has this name and no other. -/
def Only (d : Directory ν γ) (a : ν) (n : ℕ) : Prop :=
  d.entry a = some n ∧ ∀ b, d.entry b = some n → b = a

section operations

variable [DecidableEq ν]

/-- A new file under a name that is free. -/
def create (d : Directory ν γ) (a : ν) (x : γ) : Directory ν γ :=
  { files := d.files ++ [x], entry := Function.update d.entry a (some d.files.length) }

/-- One more name for a file. -/
def link (d : Directory ν γ) (n : ℕ) (b : ν) : Directory ν γ :=
  { d with entry := Function.update d.entry b (some n) }

/-- The name goes; the file stays for those who have it open. -/
def remove (d : Directory ν γ) (a : ν) : Directory ν γ :=
  { d with entry := Function.update d.entry a none }

/-- The file of `a` becomes the file of `b`, whose own file loses the name; two names of one file
stay. -/
def rename (d : Directory ν γ) (a b : ν) : Directory ν γ :=
  if d.entry b = d.entry a then d
  else { d with entry := Function.update (Function.update d.entry a none) b (d.entry a) }

end operations

/-- The content of a file is replaced. -/
def write (d : Directory ν γ) (n : ℕ) (x : γ) : Directory ν γ := { d with files := d.files.set n x }

/-- What an operation leaves of a name. -/
structure Keeps (d d' : Directory ν γ) (a : ν) : Prop where
  entry : ∀ n, d.entry a = some n → d'.entry a = some n
  content : ∀ n, d.entry a = some n → d'.files[n]? = d.files[n]?
  only : ∀ n, d.Only a n → d'.Only a n

/-- Nothing happens to a name. -/
theorem Keeps.refl (d : Directory ν γ) (a : ν) : Keeps d d a :=
  ⟨fun _ h => h, fun _ _ => rfl, fun _ h => h⟩

/-- Another name leads to another file. -/
theorem Only.ne (h : d.Only a n) (hb : b ≠ a) (hm : d.entry b = some m) : m ≠ n := by
  rintro rfl
  exact hb (h.2 b hm)

/-! ## Content -/

/-- A new file leaves the old ones alone. -/
theorem content_create [DecidableEq ν] (h : n < d.files.length) (a : ν) (x : γ) :
    (d.create a x).files[n]? = d.files[n]? :=
  List.getElem?_append_left h

/-- What a write puts there. -/
theorem content_write (h : n < d.files.length) (x : γ) : (d.write n x).files[n]? = some x :=
  List.getElem?_set_self h

/-- A write leaves other files alone. -/
theorem content_write_of_ne (h : m ≠ n) (x : γ) : (d.write n x).files[m]? = d.files[m]? :=
  List.getElem?_set_ne (Ne.symm h)

/-! ## Entries -/

section entries

variable [DecidableEq ν]

@[simp] theorem entry_create_self : (d.create a x).entry a = some d.files.length :=
  Function.update_self a _ _

theorem entry_create_of_ne (h : b ≠ a) : (d.create a x).entry b = d.entry b :=
  Function.update_of_ne h _ _

@[simp] theorem entry_link_self : (d.link n b).entry b = some n := Function.update_self b _ _

theorem entry_link_of_ne (h : c ≠ b) : (d.link n b).entry c = d.entry c :=
  Function.update_of_ne h _ _

@[simp] theorem entry_remove_self : (d.remove a).entry a = none := Function.update_self a _ _

theorem entry_remove_of_ne (h : b ≠ a) : (d.remove a).entry b = d.entry b :=
  Function.update_of_ne h _ _

/-- Onto a name of another file. -/
theorem rename_of_ne (h : d.entry b ≠ d.entry a) :
    (d.rename a b).entry = Function.update (Function.update d.entry a none) b (d.entry a) := by
  rw [rename, if_neg h]

theorem files_rename : (d.rename a b).files = d.files := by
  unfold rename
  split
  · rfl
  · rfl

end entries

/-! ## What operations preserve -/

/-- Names lead to files after a write. -/
theorem Closed.write (h : d.Closed) (n : ℕ) (x : γ) : (d.write n x).Closed := by
  intro b m hb
  show m < (d.files.set n x).length
  rw [List.length_set]
  exact h b m hb

/-- A write to a file of one name keeps the others. -/
theorem keeps_write (h : d.Only a n) (hb : b ≠ a) : Keeps d (d.write n x) b :=
  ⟨fun _ h => h, fun _ hm => content_write_of_ne (h.ne hb hm) x, fun _ h => h⟩

section preserved

variable [DecidableEq ν]

/-- Names lead to files after a creation. -/
theorem Closed.create (h : d.Closed) (a : ν) (x : γ) : (d.create a x).Closed := by
  intro b n hb
  have hlength : (d.create a x).files.length = d.files.length + 1 := by simp [Directory.create]
  rw [hlength]
  by_cases hba : b = a
  · subst hba
    rw [entry_create_self] at hb
    obtain rfl := Option.some.inj hb
    exact Nat.lt_succ_self _
  · rw [entry_create_of_ne hba] at hb
    exact Nat.lt_succ_of_lt (h b n hb)

/-- Names lead to files after a link. -/
theorem Closed.link (h : d.Closed) (hn : n < d.files.length) (b : ν) : (d.link n b).Closed := by
  intro c m hc
  by_cases hcb : c = b
  · subst hcb
    rw [entry_link_self] at hc
    obtain rfl := Option.some.inj hc
    exact hn
  · rw [entry_link_of_ne hcb] at hc
    exact h c m hc

/-- Names lead to files after a removal. -/
theorem Closed.remove (h : d.Closed) (a : ν) : (d.remove a).Closed := by
  intro b n hb
  by_cases hba : b = a
  · subst hba
    rw [entry_remove_self] at hb
    cases hb
  · rw [entry_remove_of_ne hba] at hb
    exact h b n hb

/-- Names lead to files after a rename. -/
theorem Closed.rename (h : d.Closed) (a b : ν) : (d.rename a b).Closed := by
  by_cases hsame : d.entry b = d.entry a
  · rw [Directory.rename, if_pos hsame]
    exact h
  intro c n hc
  rw [files_rename]
  rw [rename_of_ne hsame] at hc
  by_cases hcb : c = b
  · subst hcb
    rw [Function.update_self] at hc
    exact h a n hc
  · rw [Function.update_of_ne hcb] at hc
    by_cases hca : c = a
    · subst hca
      rw [Function.update_self] at hc
      cases hc
    · rw [Function.update_of_ne hca] at hc
      exact h c n hc

/-- A new file is under its name only. -/
theorem only_create (h : d.Closed) : (d.create a x).Only a d.files.length := by
  refine ⟨entry_create_self, fun b hb => ?_⟩
  by_contra hba
  rw [entry_create_of_ne hba] at hb
  exact absurd (h b _ hb) (Nat.lt_irrefl _)

/-- A creation keeps every name. -/
theorem keeps_create (h : d.Closed) (hfree : d.entry a = none) (b : ν) :
    Keeps d (d.create a x) b := by
  have hne (n : ℕ) (hb : d.entry b = some n) : b ≠ a := by
    rintro rfl
    rw [hfree] at hb
    cases hb
  constructor
  · intro n hb
    rw [entry_create_of_ne (hne n hb)]
    exact hb
  · intro n hb
    exact content_create (h b n hb) a x
  · rintro n ⟨hb, honly⟩
    refine ⟨by rw [entry_create_of_ne (hne n hb)]; exact hb, fun c hc => ?_⟩
    by_cases hca : c = a
    · -- the new file is none of the old ones
      subst hca
      rw [entry_create_self] at hc
      obtain rfl := Option.some.inj hc
      exact absurd (h b _ hb) (Nat.lt_irrefl _)
    · rw [entry_create_of_ne hca] at hc
      exact honly c hc

/-- A link keeps every other name. -/
theorem keeps_link (h : d.Only a n) (hfree : d.entry b = none) (hc : c ≠ a) :
    Keeps d (d.link n b) c := by
  have hne (m : ℕ) (hm : d.entry c = some m) : c ≠ b := by
    rintro rfl
    rw [hfree] at hm
    cases hm
  constructor
  · intro m hm
    rw [entry_link_of_ne (hne m hm)]
    exact hm
  · intro _ _
    rfl
  · rintro m ⟨hm, honly⟩
    refine ⟨by rw [entry_link_of_ne (hne m hm)]; exact hm, fun e he => ?_⟩
    by_cases heb : e = b
    · subst heb
      rw [entry_link_self] at he
      exact absurd (Option.some.inj he).symm (h.ne hc hm)
    · rw [entry_link_of_ne heb] at he
      exact honly e he

/-- A removal keeps every other name. -/
theorem keeps_remove (hb : b ≠ a) : Keeps d (d.remove a) b := by
  constructor
  · intro n hn
    rw [entry_remove_of_ne hb]
    exact hn
  · intro _ _
    rfl
  · rintro n ⟨hn, honly⟩
    refine ⟨by rw [entry_remove_of_ne hb]; exact hn, fun c hc => ?_⟩
    by_cases hca : c = a
    · subst hca
      rw [entry_remove_self] at hc
      cases hc
    · rw [entry_remove_of_ne hca] at hc
      exact honly c hc

/-- A rename keeps every other name. -/
theorem keeps_rename (hca : c ≠ a) (hcb : c ≠ b) : Keeps d (d.rename a b) c := by
  by_cases hsame : d.entry b = d.entry a
  · rw [rename, if_pos hsame]
    exact Keeps.refl d c
  have hentry : (d.rename a b).entry c = d.entry c := by
    rw [rename_of_ne hsame, Function.update_of_ne hcb, Function.update_of_ne hca]
  constructor
  · intro n hn
    rw [hentry]
    exact hn
  · intro _ _
    rw [files_rename]
  · rintro n ⟨hn, honly⟩
    refine ⟨by rw [hentry]; exact hn, fun e he => ?_⟩
    rw [rename_of_ne hsame] at he
    by_cases heb : e = b
    · -- the file that moves is the one of `a`
      subst heb
      rw [Function.update_self] at he
      exact absurd (honly a he).symm hca
    · rw [Function.update_of_ne heb] at he
      by_cases hea : e = a
      · subst hea
        rw [Function.update_self] at he
        cases he
      · rw [Function.update_of_ne hea] at he
        exact honly e he

end preserved

end Directory
