import Mathlib.Data.Nat.Notation
import Mathlib.Data.Set.Insert
import Mathlib.Logic.Function.Basic
import Mathlib.Tactic.Common
import MobileWebcamBridge.Lib.Bytes

/-!
# Programs over a buffer

A program over a buffer returns, reports an error or panics; `read`, `write` and `swap` panic
outside the buffer. `loop_ok` is the rule for a counted loop that always returns and `Safe` with its
rules is for programs that may report an error but never panic. `Mapped f a b` says that `b` has at
each place what `a` has where `f` points; a loop of swaps is followed by `swaps_ok` and a loop of
writes to disjoint places by `Filled.write`.
-/

set_option autoImplicit false

namespace Buffer

open Bytes

/-- How a program ends early. -/
inductive Stop (ε : Type)
  | error (e : ε)
  | panic
deriving DecidableEq, Repr

/-- The result of a program over a buffer. -/
abbrev Outcome (ε α : Type) := Except (Stop ε) α

variable {ε α β σ : Type} {n m i j k : ℕ} {s : σ} {a b c row xs : List α}

/-! ## Loops -/

/-- `for i in 0..n`. -/
def loop (n : ℕ) (body : ℕ → σ → Outcome ε σ) (s : σ) : Outcome ε σ :=
  (List.range n).foldlM (fun s i => body i s) s

theorem loop_succ (body : ℕ → σ → Outcome ε σ) :
    loop (n + 1) body s = loop n body s >>= body n := by
  simp [loop, List.range_succ]

/-- A loop whose body keeps an invariant returns with it. -/
theorem loop_ok {body : ℕ → σ → Outcome ε σ} {P : ℕ → σ → Prop} (hzero : P 0 s)
    (hstep : ∀ i < n, ∀ s, P i s → ∃ s', body i s = .ok s' ∧ P (i + 1) s') :
    ∃ s', loop n body s = .ok s' ∧ P n s' := by
  induction n with
  | zero => exact ⟨s, rfl, hzero⟩
  | succ n ih =>
    obtain ⟨s₁, hloop, hs₁⟩ := ih fun i hi => hstep i (Nat.lt_succ_of_lt hi)
    obtain ⟨s₂, hbody, hs₂⟩ := hstep n (Nat.lt_succ_self n) s₁ hs₁
    refine ⟨s₂, ?_, hs₂⟩
    rw [loop_succ, hloop]
    exact hbody

/-! ## Programs that never panic -/

/-- The program reports an error, or returns a value of which `Q` holds. -/
structure Safe (x : Outcome ε α) (Q : α → Prop) : Prop where
  ne_panic : x ≠ .error .panic
  result : ∀ a, x = .ok a → Q a

theorem Safe.ok {x : α} {Q : α → Prop} (h : Q x) : Safe (ε := ε) (.ok x) Q where
  ne_panic := nofun
  result _ ha := Except.ok.inj ha ▸ h

theorem Safe.error {e : ε} {Q : α → Prop} : Safe (.error (.error e)) Q where
  ne_panic := nofun
  result := nofun

/-- One program behind another. -/
theorem Safe.bind {x : Outcome ε α} {f : α → Outcome ε β} {Q : α → Prop} {R : β → Prop}
    (hx : Safe x Q) (hf : ∀ a, Q a → Safe (f a) R) : Safe (x >>= f) R := by
  cases x with
  | ok a => exact hf a (hx.result a rfl)
  | error stop => cases stop with
    | error e => exact Safe.error
    | panic => exact absurd rfl hx.ne_panic

/-- A weaker fact about the result. -/
theorem Safe.mono {x : Outcome ε α} {Q R : α → Prop} (hx : Safe x Q) (h : ∀ a, Q a → R a) :
    Safe x R where
  ne_panic := hx.ne_panic
  result a ha := h a (hx.result a ha)

/-- The rule of a counted loop, with an invariant. -/
theorem Safe.loop {body : ℕ → σ → Outcome ε σ} {P : σ → Prop} (hstart : P s)
    (hstep : ∀ i < n, ∀ s, P s → Safe (body i s) P) : Safe (loop n body s) P := by
  induction n with
  | zero => exact Safe.ok hstart
  | succ n ih =>
    rw [loop_succ]
    apply Safe.bind (ih fun i hi => hstep i (Nat.lt_succ_of_lt hi))
    exact hstep n (Nat.lt_succ_self n)

/-! ## Accesses -/

/-- The elements from a place on. -/
def read (l : List α) (i n : ℕ) : Outcome ε (List α) :=
  if i + n ≤ l.length then .ok (slice l i (i + n)) else .error .panic

/-- The elements from a place on are replaced. -/
def write (l : List α) (i : ℕ) (xs : List α) : Outcome ε (List α) :=
  if i + xs.length ≤ l.length then .ok (l.take i ++ xs ++ l.drop (i + xs.length))
  else .error .panic

/-- Two elements change places. -/
def swap (l : List α) (i j : ℕ) : Outcome ε (List α) :=
  match l[i]?, l[j]? with
  | some x, some y => .ok ((l.set i y).set j x)
  | _, _ => .error .panic

/-- A read within the buffer. -/
theorem read_ok (h : i + n ≤ a.length) :
    ∃ row, read (ε := ε) a i n = .ok row ∧ row.length = n ∧
      ∀ k < n, row[k]? = a[i + k]? := by
  refine ⟨slice a i (i + n), if_pos h, ?_, fun k hk => ?_⟩
  · rw [length_slice h]
    omega
  · rw [slice, List.getElem?_take_of_lt (by omega), List.getElem?_drop]

/-- What a write leaves at each place. -/
theorem write_ok (h : i + xs.length ≤ a.length) :
    ∃ b, write (ε := ε) a i xs = .ok b ∧ b.length = a.length ∧
      ∀ k, b[k]? = if i ≤ k ∧ k < i + xs.length then xs[k - i]? else a[k]? := by
  refine ⟨_, if_pos h, ?_, fun k => ?_⟩
  · simp only [List.length_append, List.length_take, List.length_drop]
    omega
  have htake : (a.take i).length = i := by
    rw [List.length_take]
    omega
  rw [List.append_assoc, List.getElem?_append, htake]
  by_cases hbefore : k < i
  · rw [if_pos hbefore, List.getElem?_take_of_lt hbefore, if_neg (by omega)]
  rw [if_neg hbefore, List.getElem?_append]
  by_cases hinside : k - i < xs.length
  · rw [if_pos hinside, if_pos (by omega)]
  · have hindex : i + xs.length + (k - i - xs.length) = k := by omega
    rw [if_neg hinside, List.getElem?_drop, hindex, if_neg (by omega)]

/-- What a swap leaves at each place. -/
theorem swap_ok (hi : i < a.length) (hj : j < a.length) :
    ∃ b, swap (ε := ε) a i j = .ok b ∧ b.length = a.length ∧
      ∀ k, b[k]? = if k = i then a[j]? else if k = j then a[i]? else a[k]? := by
  refine ⟨(a.set i a[j]).set j a[i], ?_, by simp, fun k => ?_⟩
  · simp [swap, List.getElem?_eq_getElem hi, List.getElem?_eq_getElem hj]
  · rw [List.getElem?_set, List.length_set, List.getElem?_set]
    by_cases hki : k = i
    · subst hki
      by_cases hkj : j = k
      · simp [hkj, hi]
      · simp [hkj, hi, List.getElem?_eq_getElem hj]
    · by_cases hkj : k = j
      · subst hkj
        simp [hki, hj, List.getElem?_eq_getElem hi]
      · simp [hki, hkj, Ne.symm hki, Ne.symm hkj]

/-! ## Buffers that hold the same elements at other places -/

/-- The buffer `b` has at each place what `a` has where `f` points. -/
structure Mapped (f : ℕ → ℕ) (a b : List α) : Prop where
  length : b.length = a.length
  get : ∀ k < a.length, b[k]? = a[f k]?

variable {f g τ : ℕ → ℕ} {S : Set ℕ}

theorem Mapped.refl (a : List α) : Mapped id a a where
  length := rfl
  get _ _ := rfl

/-- Only the places of the buffer count. -/
theorem Mapped.congr (h : Mapped f a b) (hfg : ∀ k < a.length, f k = g k) : Mapped g a b where
  length := h.length
  get k hk := by rw [h.get k hk, hfg k hk]

/-- Two rearrangements, one after the other. -/
theorem Mapped.trans (hab : Mapped f a b) (hbc : Mapped g b c)
    (hg : ∀ k < a.length, g k < a.length) : Mapped (f ∘ g) a c where
  length := hbc.length.trans hab.length
  get k hk := by
    have hkb : k < b.length := by rw [hab.length]; exact hk
    rw [hbc.get k hkb, hab.get _ (hg k hk)]
    rfl

/-- A rearrangement has one result. -/
theorem Mapped.unique (hb : Mapped f a b) (hc : Mapped f a c) : b = c := by
  apply List.ext_getElem?
  intro k
  by_cases hk : k < a.length
  · rw [hb.get k hk, hc.get k hk]
  · have hkb : b.length ≤ k := by rw [hb.length]; omega
    have hkc : c.length ≤ k := by rw [hc.length]; omega
    rw [List.getElem?_eq_none hkb, List.getElem?_eq_none hkc]

/-- A part of `b` is changed and put back. -/
theorem Mapped.write_row (h : Mapped f a b) (hlen : i + n ≤ a.length) (hrow : row.length = n)
    (hget : ∀ k < n, row[k]? = a[g (i + k)]?) :
    ∃ c, write (ε := ε) b i row = .ok c ∧
      Mapped (fun k => if i ≤ k ∧ k < i + n then g k else f k) a c := by
  have hfit : i + row.length ≤ b.length := by
    rw [hrow, h.length]
    exact hlen
  obtain ⟨c, hwrite, hclen, hc⟩ := write_ok (ε := ε) hfit
  refine ⟨c, hwrite, hclen.trans h.length, fun k hk => ?_⟩
  rw [hc k, hrow]
  split
  · next hinside =>
    have hindex : i + (k - i) = k := by omega
    rw [hget (k - i) (by omega), hindex]
  · exact h.get k hk

/-! ## Swaps -/

open Classical in
/-- What `τ` does, at the places of `S` and those it takes them to. -/
noncomputable def partially (τ : ℕ → ℕ) (S : Set ℕ) (k : ℕ) : ℕ :=
  if k ∈ S ∨ τ k ∈ S then τ k else k

theorem partially_empty : partially τ ∅ = id := by
  funext k
  exact if_neg (by simp)

/-- A rearrangement is done when the rest stays where it is. -/
theorem partially_eq (h : ∀ k, k ∉ S → τ k ∉ S → τ k = k) : partially τ S = τ := by
  funext k
  unfold partially
  split
  · rfl
  · next hk =>
    push Not at hk
    exact (h k hk.1 hk.2).symm

/-- One more pair is swapped. -/
theorem Mapped.swap (hτ : Function.Involutive τ) (h : Mapped (partially τ S) a b) (hi : i ∉ S)
    (hτi : τ i ∉ S) (hlt : i < a.length) (hτlt : τ i < a.length) :
    ∃ c, swap (ε := ε) b i (τ i) = .ok c ∧ Mapped (partially τ (insert i S)) a c := by
  obtain ⟨c, hswap, hclen, hc⟩ := swap_ok (ε := ε) (a := b) (i := i) (j := τ i)
    (by rw [h.length]; exact hlt) (by rw [h.length]; exact hτlt)
  have hfixi : partially τ S i = i := if_neg (by tauto)
  have hfixτ : partially τ S (τ i) = τ i := by
    apply if_neg
    rw [hτ i]
    tauto
  refine ⟨c, hswap, hclen.trans h.length, fun k hk => ?_⟩
  rw [hc k]
  by_cases hki : k = i
  · subst hki
    have hnew : partially τ (insert k S) k = τ k := if_pos (.inl (Set.mem_insert k S))
    rw [if_pos rfl, h.get _ hτlt, hfixτ, hnew]
  by_cases hkτ : k = τ i
  · subst hkτ
    have hback : τ (τ i) = i := hτ i
    have hnew : partially τ (insert i S) (τ i) = i := by
      rw [partially, if_pos, hback]
      exact .inr (by rw [hback]; exact Set.mem_insert i S)
    rw [if_neg hki, if_pos rfl, h.get _ hlt, hfixi, hnew]
  · have hτk : τ k ≠ i := by
      intro heq
      rw [← heq, hτ k] at hkτ
      exact hkτ rfl
    have hmem : k ∈ insert i S ∨ τ k ∈ insert i S ↔ k ∈ S ∨ τ k ∈ S := by
      rw [Set.mem_insert_iff, Set.mem_insert_iff]
      tauto
    have hsame : partially τ (insert i S) k = partially τ S k := by
      by_cases hold : k ∈ S ∨ τ k ∈ S
      · rw [partially, partially, if_pos hold, if_pos (hmem.mpr hold)]
      · rw [partially, partially, if_neg hold, if_neg (mt hmem.mp hold)]
    rw [if_neg hki, if_neg hkτ, h.get k hk, hsame]

/-- A loop of swaps of pairs that are apart from each other and from those before. -/
theorem swaps_row_ok {p q : ℕ → ℕ} (hτ : Function.Involutive τ) (h : Mapped (partially τ S) a b)
    (hq : ∀ x < m, q x = τ (p x)) (hlt : ∀ x < m, p x < a.length ∧ q x < a.length)
    (hout : ∀ x < m, p x ∉ S ∧ q x ∉ S)
    (hinj : ∀ x < m, ∀ y < m, p x = p y → x = y)
    (hapart : ∀ x < m, ∀ y < m, q x ≠ p y) :
    ∃ c, loop (ε := ε) m (fun x l => Buffer.swap l (p x) (q x)) b = .ok c ∧
      Mapped (partially τ (S ∪ {k | ∃ x < m, k = p x})) a c := by
  apply loop_ok (P := fun y c => Mapped (partially τ (S ∪ {k | ∃ x < y, k = p x})) a c)
  · simpa using h
  intro x hx l hl
  have hnew : p x ∉ S ∪ {k | ∃ y < x, k = p y} := by
    rintro (hold | ⟨y, hy, heq⟩)
    · exact (hout x hx).1 hold
    · have hxy : x = y := hinj x hx y (by omega) heq
      omega
  have hnewq : τ (p x) ∉ S ∪ {k | ∃ y < x, k = p y} := by
    rw [← hq x hx]
    rintro (hold | ⟨y, hy, heq⟩)
    · exact (hout x hx).2 hold
    · exact hapart x hx y (by omega) heq
  obtain ⟨c, hswap, hc⟩ := hl.swap (ε := ε) hτ hnew hnewq (hlt x hx).1
    (by rw [← hq x hx]; exact (hlt x hx).2)
  rw [← hq x hx] at hswap
  have hset : insert (p x) (S ∪ {k | ∃ y < x, k = p y}) = S ∪ {k | ∃ y < x + 1, k = p y} := by
    ext k
    constructor
    · rintro (rfl | hold | ⟨y, hy, rfl⟩)
      · exact .inr ⟨x, by omega, rfl⟩
      · exact .inl hold
      · exact .inr ⟨y, by omega, rfl⟩
    · rintro (hold | ⟨y, hy, rfl⟩)
      · exact .inr (.inl hold)
      · by_cases hyx : y = x
        · exact .inl (by rw [hyx])
        · exact .inr (.inr ⟨y, by omega, rfl⟩)
  rw [← hset]
  exact ⟨c, hswap, hc⟩

/-- Rows of swaps: each place `p x y` changes with `τ (p x y)`, no place is met twice, and those of
the first kind are not those of the second. -/
theorem swaps_ok {p q : ℕ → ℕ → ℕ} (hτ : Function.Involutive τ)
    (hq : ∀ x < n, ∀ y < m, q x y = τ (p x y))
    (hlt : ∀ x < n, ∀ y < m, p x y < a.length ∧ q x y < a.length)
    (hinj : ∀ x < n, ∀ y < m, ∀ x' < n, ∀ y' < m, p x y = p x' y' → x = x' ∧ y = y')
    (hapart : ∀ x < n, ∀ y < m, ∀ x' < n, ∀ y' < m, q x y ≠ p x' y') :
    ∃ b, loop (ε := ε) n (fun x l => loop m (fun y l => Buffer.swap l (p x y) (q x y)) l) a =
        .ok b ∧
      Mapped (partially τ {k | ∃ x < n, ∃ y < m, k = p x y}) a b := by
  apply loop_ok (P := fun x b => Mapped (partially τ {k | ∃ x' < x, ∃ y < m, k = p x' y}) a b)
  · have hnone : {k | ∃ x' < 0, ∃ y < m, k = p x' y} = ∅ := by
      ext k
      simp
    rw [hnone, partially_empty]
    exact Mapped.refl a
  intro x hx l hl
  obtain ⟨c, hloop, hc⟩ := swaps_row_ok (ε := ε) (p := p x) (q := q x) hτ hl (hq x hx) (hlt x hx)
    (by
      intro y hy
      constructor
      · rintro ⟨x', hx', y', hy', heq⟩
        have hxx : x = x' := (hinj x hx y hy x' (by omega) y' hy' heq).1
        omega
      · rintro ⟨x', hx', y', hy', heq⟩
        exact hapart x hx y hy x' (by omega) y' hy' heq)
    (fun y hy y' hy' heq => (hinj x hx y hy x hx y' hy' heq).2)
    (fun y hy y' hy' => hapart x hx y hy x hx y' hy')
  have hset : {k | ∃ x' < x, ∃ y < m, k = p x' y} ∪ {k | ∃ y < m, k = p x y} =
      {k | ∃ x' < x + 1, ∃ y < m, k = p x' y} := by
    ext k
    constructor
    · rintro (⟨x', hx', hrest⟩ | hrest)
      · exact ⟨x', by omega, hrest⟩
      · exact ⟨x, by omega, hrest⟩
    · rintro ⟨x', hx', hrest⟩
      by_cases hxx : x' = x
      · subst hxx
        exact .inr hrest
      · exact .inl ⟨x', by omega, hrest⟩
  rw [← hset]
  exact ⟨c, hloop, hc⟩

/-! ## Writes to disjoint places -/

/-- `b` is `a` with the blocks of `S` written to their places. -/
structure Filled {ι : Type} (pos : ι → ℕ) (block : ι → List α) (a : List α) (S : Set ι)
    (b : List α) : Prop where
  length : b.length = a.length
  inside : ∀ x ∈ S, ∀ k < (block x).length, b[pos x + k]? = (block x)[k]?
  outside : ∀ k, (∀ x ∈ S, k < pos x ∨ pos x + (block x).length ≤ k) → b[k]? = a[k]?

variable {ι : Type} {pos : ι → ℕ} {block : ι → List α} {T : Set ι}

/-- Before the first write nothing is filled. -/
theorem Filled.empty (a : List α) : Filled pos block a ∅ a where
  length := rfl
  inside _ hx := hx.elim
  outside _ _ := rfl

/-- One more block is written. -/
theorem Filled.write {x : ι} (h : Filled pos block a T b)
    (hfit : pos x + (block x).length ≤ a.length)
    (hapart : ∀ y ∈ T, pos y + (block y).length ≤ pos x ∨ pos x + (block x).length ≤ pos y) :
    ∃ c, write (ε := ε) b (pos x) (block x) = .ok c ∧ Filled pos block a (insert x T) c := by
  rw [← h.length] at hfit
  obtain ⟨c, hwrite, hlen, hc⟩ := write_ok (ε := ε) hfit
  refine ⟨c, hwrite, hlen.trans h.length, fun y hy k hk => ?_, fun k hk => ?_⟩
  · rw [hc]
    rcases Set.mem_insert_iff.mp hy with rfl | hold
    · rw [if_pos (by omega), Nat.add_sub_cancel_left]
    · have haparty := hapart y hold
      rw [if_neg (by omega), h.inside y hold k hk]
  · have hx := hk x (Set.mem_insert x T)
    rw [hc, if_neg (by omega)]
    exact h.outside k fun y hy => hk y (Set.mem_insert_of_mem x hy)

/-- Rows of writes: each block fits, and no two overlap. -/
theorem writes_ok (pos : ℕ → ℕ → ℕ) (block : ℕ → ℕ → List α)
    {body : ℕ → ℕ → List α → Outcome ε (List α)}
    (hbody : ∀ y < n, ∀ x < m, ∀ l, body y x l = Buffer.write l (pos y x) (block y x))
    (hfit : ∀ y < n, ∀ x < m, pos y x + (block y x).length ≤ a.length)
    (hapart : ∀ y < n, ∀ x < m, ∀ y' < n, ∀ x' < m, (y, x) ≠ (y', x') →
      pos y x + (block y x).length ≤ pos y' x' ∨ pos y' x' + (block y' x').length ≤ pos y x) :
    ∃ b, loop (ε := ε) n (fun y l => loop m (body y) l) a = .ok b ∧
      Filled (fun p : ℕ × ℕ => pos p.1 p.2) (fun p => block p.1 p.2) a
        {p | p.1 < n ∧ p.2 < m} b := by
  apply loop_ok (P := fun y b =>
    Filled (fun p : ℕ × ℕ => pos p.1 p.2) (fun p => block p.1 p.2) a {p | p.1 < y ∧ p.2 < m} b)
  · have hnone : {p : ℕ × ℕ | p.1 < 0 ∧ p.2 < m} = ∅ := by
      ext p
      simp
    rw [hnone]
    exact Filled.empty a
  intro y hy l hl
  have hrow : ∃ l', loop (ε := ε) m (body y) l = .ok l' ∧
      Filled (fun p : ℕ × ℕ => pos p.1 p.2) (fun p => block p.1 p.2) a
        {p | p.1 < y ∧ p.2 < m ∨ p.1 = y ∧ p.2 < m} l' := by
    apply loop_ok (P := fun x l =>
      Filled (fun p : ℕ × ℕ => pos p.1 p.2) (fun p => block p.1 p.2) a
        {p | p.1 < y ∧ p.2 < m ∨ p.1 = y ∧ p.2 < x} l)
    · simpa using hl
    intro x hx l hl
    rw [hbody y hy x hx]
    have hset : insert (y, x) {p : ℕ × ℕ | p.1 < y ∧ p.2 < m ∨ p.1 = y ∧ p.2 < x} =
        {p | p.1 < y ∧ p.2 < m ∨ p.1 = y ∧ p.2 < x + 1} := by
      ext ⟨y', x'⟩
      simp only [Set.mem_insert_iff, Set.mem_ofPred_eq, Prod.mk.injEq]
      omega
    rw [← hset]
    apply hl.write (x := (y, x)) (hfit y hy x hx)
    rintro ⟨y', x'⟩ hold
    have hold : y' < y ∧ x' < m ∨ y' = y ∧ x' < x := hold
    apply hapart y' (by omega) x' (by omega) y hy x hx
    intro heq
    obtain ⟨rfl, rfl⟩ := Prod.mk.inj heq
    omega
  obtain ⟨l', hloop, hl'⟩ := hrow
  refine ⟨l', hloop, ?_⟩
  have hset : {p : ℕ × ℕ | p.1 < y ∧ p.2 < m ∨ p.1 = y ∧ p.2 < m} =
      {p | p.1 < y + 1 ∧ p.2 < m} := by
    ext p
    simp only [Set.mem_ofPred_eq]
    omega
  rw [← hset]
  exact hl'

end Buffer
