import Mathlib.Data.Nat.Notation
import Mathlib.Tactic.Common
import Mathlib.Tactic.Ring

/-!
# Byte strings with fixed fields

A little-endian field of `w` bytes is `toLE w n` and is read back by `ofLE`; the two are inverse on
numbers below `256 ^ w` and on strings of `w` bytes, and so are `toBE` and `ofBE` for a big-endian
field. `slice l a b` is the field between two offsets, with the lemmas that find it in a
concatenation and put a string together again from its fields. `chunks` cuts a string into fields of
one length.
-/

set_option autoImplicit false

namespace Bytes

/-! ## Little-endian numbers -/

/-- The low `w` bytes of `n`. -/
def toLE : ℕ → ℕ → List UInt8
  | 0, _ => []
  | w + 1, n => UInt8.ofNat n :: toLE w (n / 256)

/-- The number of some bytes, least first. -/
def ofLE : List UInt8 → ℕ
  | [] => 0
  | b :: bs => b.toNat + 256 * ofLE bs

@[simp] theorem length_toLE (w n : ℕ) : (toLE w n).length = w := by
  induction w generalizing n with
  | zero => rfl
  | succ w ih => simp [toLE, ih]

/-- A number that is too large loses its high bytes. -/
theorem ofLE_toLE (w n : ℕ) : ofLE (toLE w n) = n % 256 ^ w := by
  induction w generalizing n with
  | zero => simp [toLE, ofLE, Nat.mod_one]
  | succ w ih =>
    have hsplit : n % 256 ^ (w + 1) = n % 256 + 256 * (n / 256 % 256 ^ w) := by
      rw [Nat.pow_succ', Nat.mod_mul]
    rw [hsplit, toLE, ofLE, ih, UInt8.toNat_ofNat']

/-- A number that fits is read back. -/
theorem ofLE_toLE_of_lt {w n : ℕ} (h : n < 256 ^ w) : ofLE (toLE w n) = n := by
  rw [ofLE_toLE, Nat.mod_eq_of_lt h]

/-- So many bytes make no larger number. -/
theorem ofLE_lt (l : List UInt8) : ofLE l < 256 ^ l.length := by
  induction l with
  | nil => exact Nat.one_pos
  | cons b l ih =>
    have hb := b.toNat_lt
    simp only [ofLE, List.length_cons, Nat.pow_succ]
    omega

/-- The bytes of the number they read as. -/
theorem toLE_ofLE {w : ℕ} {l : List UInt8} (h : l.length = w) : toLE w (ofLE l) = l := by
  induction l generalizing w with
  | nil =>
    subst h
    rfl
  | cons b l ih =>
    subst h
    have hb : b.toNat < 256 := b.toNat_lt
    have hdiv : (b.toNat + 256 * ofLE l) / 256 = ofLE l := by omega
    have hmod : UInt8.ofNat (b.toNat + 256 * ofLE l) = b := by
      apply UInt8.toNat_inj.mp
      rw [UInt8.toNat_ofNat']
      omega
    simp only [ofLE, List.length_cons, toLE, hdiv, hmod, ih rfl]

/-! ## Big-endian numbers -/

/-- The low `w` bytes of `n`, the highest first. -/
def toBE (w n : ℕ) : List UInt8 := (toLE w n).reverse

/-- The number of some bytes, greatest first. -/
def ofBE (l : List UInt8) : ℕ := ofLE l.reverse

@[simp] theorem length_toBE (w n : ℕ) : (toBE w n).length = w := by
  simp [toBE]

/-- A number that fits is read back. -/
theorem ofBE_toBE_of_lt {w n : ℕ} (h : n < 256 ^ w) : ofBE (toBE w n) = n := by
  rw [ofBE, toBE, List.reverse_reverse, ofLE_toLE_of_lt h]

/-- The bytes of the number they read as. -/
theorem toBE_ofBE {w : ℕ} {l : List UInt8} (h : l.length = w) : toBE w (ofBE l) = l := by
  have hreverse : l.reverse.length = w := by rw [List.length_reverse, h]
  rw [ofBE, toBE, toLE_ofLE hreverse, List.reverse_reverse]

/-- The second part counts from its place. -/
theorem ofLE_append (x y : List UInt8) : ofLE (x ++ y) = ofLE x + 256 ^ x.length * ofLE y := by
  induction x with
  | nil => simp [ofLE]
  | cons b x ih =>
    rw [List.cons_append, ofLE, ofLE, ih, List.length_cons, Nat.pow_succ', Nat.mul_add,
      Nat.add_assoc, Nat.mul_assoc]

/-- The first byte counts most. -/
theorem ofBE_cons (b : UInt8) (l : List UInt8) :
    ofBE (b :: l) = b.toNat * 256 ^ l.length + ofBE l := by
  rw [ofBE, ofBE, List.reverse_cons, ofLE_append, List.length_reverse]
  show _ + _ * (b.toNat + 256 * 0) = _
  rw [Nat.mul_zero, Nat.add_zero, Nat.mul_comm, Nat.add_comm]

/-- So many bytes make no larger number. -/
theorem ofBE_lt (l : List UInt8) : ofBE l < 256 ^ l.length := by
  have hlt := ofLE_lt l.reverse
  rw [List.length_reverse] at hlt
  exact hlt

/-- Bytes of one length that make one number. -/
theorem ofBE_inj {x y : List UInt8} (hlen : x.length = y.length) (h : ofBE x = ofBE y) : x = y := by
  rw [← toBE_ofBE (rfl : x.length = x.length), h, hlen, toBE_ofBE rfl]

/-! ## Fields -/

variable {α : Type*} {l x y : List α} {a b c n : ℕ}

/-- The elements of a range. -/
def slice (l : List α) (a b : ℕ) : List α := (l.drop a).take (b - a)

/-- A range within the list has its length. -/
theorem length_slice (h : b ≤ l.length) : (slice l a b).length = b - a := by
  simp only [slice, List.length_take, List.length_drop]
  omega

/-- The field lies behind `x`. -/
theorem slice_append_of_le (h : x.length ≤ a) :
    slice (x ++ y) a b = slice y (a - x.length) (b - x.length) := by
  have hlen : b - x.length - (a - x.length) = b - a := by omega
  rw [slice, slice, List.drop_append, List.drop_eq_nil_of_le h, List.nil_append, hlen]

theorem slice_cons_succ (v : α) : slice (v :: l) (a + 1) (b + 1) = slice l a b := by
  simp [slice]

/-- The field is `x`. -/
theorem slice_append_self (h : x.length = b) : slice (x ++ y) 0 b = x := by
  subst h
  simp [slice]

/-- The whole list. -/
theorem slice_full (h : l.length = b) : slice l 0 b = l := by
  subst h
  simp [slice]

/-- Two neighbouring fields. -/
theorem slice_append_slice (hab : a ≤ b) (hbc : b ≤ c) :
    slice l a b ++ slice l b c = slice l a c := by
  have hdrop : l.drop b = (l.drop a).drop (b - a) := by
    rw [List.drop_drop]
    congr 1
    omega
  have hlen : c - a = (b - a) + (c - b) := by omega
  rw [slice, slice, slice, hdrop, hlen, List.take_add]

/-- A field and what is behind it. -/
theorem slice_append_drop (hab : a ≤ b) : slice l a b ++ l.drop b = l.drop a := by
  have hdrop : l.drop b = (l.drop a).drop (b - a) := by
    rw [List.drop_drop]
    congr 1
    omega
  rw [slice, hdrop, List.take_append_drop]

/-! ## Fields of one length -/

/-- The whole chunks of `n`; what is left over is dropped. -/
def chunks (n : ℕ) (l : List α) : List (List α) :=
  (List.range (l.length / n)).map fun i => slice l (n * i) (n * i + n)

theorem chunks_nil : chunks n ([] : List α) = [] := by
  simp [chunks]

/-- The first chunk. -/
theorem chunks_append (hx : x.length = n) (hn : 0 < n) : chunks n (x ++ y) = x :: chunks n y := by
  subst hx
  have hlen : (x ++ y).length / x.length = y.length / x.length + 1 := by
    rw [List.length_append, Nat.add_div_left _ hn]
  rw [chunks, chunks, hlen, List.range_succ_eq_map, List.map_cons, List.map_map]
  congr 1
  · rw [Nat.mul_zero, Nat.zero_add, slice_append_self rfl]
  · apply List.map_congr_left
    intro i _
    have hle : x.length ≤ x.length * (i + 1) := Nat.le_mul_of_pos_right _ (Nat.succ_pos i)
    show slice (x ++ y) (x.length * (i + 1)) (x.length * (i + 1) + x.length) = _
    rw [slice_append_of_le hle, Nat.mul_succ]
    congr 1 <;> omega

/-- Reading back a list that was written field by field. -/
theorem chunks_flatMap {β : Type*} {f : β → List α} (hf : ∀ v, (f v).length = n) (hn : 0 < n)
    (vs : List β) : chunks n (vs.flatMap f) = vs.map f := by
  induction vs with
  | nil => exact chunks_nil
  | cons v vs ih => rw [List.flatMap_cons, chunks_append (hf v) hn, ih, List.map_cons]

end Bytes
