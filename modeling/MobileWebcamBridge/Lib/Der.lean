import Mathlib.Tactic.Ring
import Mathlib.Algebra.Order.Ring.Int
import MobileWebcamBridge.Lib.Bytes

/-!
# DER integers

An element is a tag, a length in one octet (below 128) and its content. The content of an INTEGER is
a number in two's complement with no octet to spare; `readPair` reads a SEQUENCE of two of them and
nothing else. A number that is not negative has one such content (`content_unique`), and so a
pair of them one encoding (`readPair_unique`).
-/

set_option autoImplicit false

namespace Der

open Bytes

variable {content x y rest : List UInt8} {tag : UInt8} {n m : ℕ}

/-- The number that the content of an INTEGER stands for. -/
def twosComplement (content : List UInt8) : ℤ :=
  if content.head?.any (0x80 ≤ ·) then (ofBE content : ℤ) - 256 ^ content.length
  else ofBE content

/-- The first nine bits are neither all zero nor all one. -/
def Minimal : List UInt8 → Prop
  | [] => False
  | [_] => True
  | a :: b :: _ => ¬(a = 0 ∧ b < 0x80) ∧ ¬(a = 0xff ∧ 0x80 ≤ b)

instance : DecidablePred Minimal
  | [] => .isFalse id
  | [_] => .isTrue trivial
  | a :: b :: _ => inferInstanceAs (Decidable (¬(a = 0 ∧ b < 0x80) ∧ ¬(a = 0xff ∧ 0x80 ≤ b)))

/-- A tag, a length below 128 and the content. -/
def element (tag : UInt8) (content : List UInt8) : List UInt8 :=
  tag :: UInt8.ofNat content.length :: content

/-- The content of the first element, and what stands behind it. -/
def readElement (tag : UInt8) : List UInt8 → Option (List UInt8 × List UInt8)
  | t :: length :: rest =>
    if t = tag ∧ length < 0x80 ∧ length.toNat ≤ rest.length then
      some (rest.take length.toNat, rest.drop length.toNat)
    else none
  | _ => none

/-- An integer without superfluous bytes. -/
def readInteger (bytes : List UInt8) : Option (ℤ × List UInt8) :=
  match readElement 0x02 bytes with
  | some (content, rest) => if Minimal content then some (twosComplement content, rest) else none
  | none => none

/-- A SEQUENCE of two INTEGERs. -/
def readPair (bytes : List UInt8) : Option (ℤ × ℤ) :=
  match readElement 0x30 bytes with
  | some (content, []) =>
    match readInteger content with
    | some (r, rest) =>
      match readInteger rest with
      | some (s, []) => some (r, s)
      | _ => none
    | none => none
  | _ => none

/-! ## Elements -/

/-- An element is read back. -/
theorem readElement_element (h : content.length < 128) :
    readElement tag (element tag content ++ rest) = some (content, rest) := by
  have hlen : (UInt8.ofNat content.length).toNat = content.length := by
    rw [UInt8.toNat_ofNat']
    omega
  have hlt : UInt8.ofNat content.length < 0x80 := by
    rw [UInt8.lt_iff_toNat_lt, hlen]
    exact h
  rw [element, List.cons_append, List.cons_append, readElement, hlen, if_pos ⟨rfl, hlt, by simp⟩,
    List.take_left, List.drop_left]

/-- What is read is what stands there. -/
theorem eq_of_readElement {bytes : List UInt8} (h : readElement tag bytes = some (content, rest)) :
    bytes = element tag content ++ rest := by
  match bytes with
  | [] => cases h
  | [_] => cases h
  | t :: length :: tail =>
    simp only [readElement] at h
    split at h
    · next hread =>
      obtain ⟨htag, -, hle⟩ := hread
      obtain ⟨rfl, rfl⟩ := Prod.mk.inj (Option.some.inj h)
      have hlen : (tail.take length.toNat).length = length.toNat := by
        rw [List.length_take]
        omega
      rw [element, hlen, UInt8.ofNat_toNat, htag]
      simp
    · cases h

/-- An integer is read back. -/
theorem readInteger_element (h : content.length < 128) (hmin : Minimal content) :
    readInteger (element 0x02 content ++ rest) = some (twosComplement content, rest) := by
  unfold readInteger
  rw [readElement_element h]
  exact if_pos hmin

/-- What is read as an integer is one. -/
theorem eq_of_readInteger {bytes : List UInt8} {v : ℤ} (h : readInteger bytes = some (v, rest)) :
    ∃ content, bytes = element 0x02 content ++ rest ∧ Minimal content ∧
      twosComplement content = v := by
  unfold readInteger at h
  split at h
  · next content rest' hread =>
    split at h
    · next hmin =>
      obtain ⟨rfl, rfl⟩ := Prod.mk.inj (Option.some.inj h)
      exact ⟨content, eq_of_readElement hread, hmin, rfl⟩
    · cases h
  · cases h

/-- A pair of integers is read back. -/
theorem readPair_element (hx : x.length < 128) (hy : y.length < 128)
    (hlen : (element 0x02 x ++ element 0x02 y).length < 128) (hxmin : Minimal x)
    (hymin : Minimal y) :
    readPair (element 0x30 (element 0x02 x ++ element 0x02 y)) =
      some (twosComplement x, twosComplement y) := by
  have houter : readElement 0x30 (element 0x30 (element 0x02 x ++ element 0x02 y) ++ []) =
      some (element 0x02 x ++ element 0x02 y, []) := readElement_element hlen
  have hinner : readInteger (element 0x02 y ++ []) = some (twosComplement y, []) :=
    readInteger_element hy hymin
  rw [List.append_nil] at houter hinner
  unfold readPair
  rw [houter]
  dsimp only
  rw [readInteger_element hx hxmin]
  dsimp only
  rw [hinner]

/-- What is read as a pair is one. -/
theorem eq_of_readPair {bytes : List UInt8} {r s : ℤ} (h : readPair bytes = some (r, s)) :
    ∃ x y, bytes = element 0x30 (element 0x02 x ++ element 0x02 y) ∧ Minimal x ∧ Minimal y ∧
      twosComplement x = r ∧ twosComplement y = s := by
  unfold readPair at h
  split at h
  · next content houter =>
    split at h
    · next r' rest hfirst =>
      split at h
      · next s' hsecond =>
        obtain ⟨rfl, rfl⟩ := Prod.mk.inj (Option.some.inj h)
        obtain ⟨x, hx, hxmin, hxval⟩ := eq_of_readInteger hfirst
        obtain ⟨y, hy, hymin, hyval⟩ := eq_of_readInteger hsecond
        refine ⟨x, y, ?_, hxmin, hymin, hxval, hyval⟩
        rw [eq_of_readElement houter, hx, hy, List.append_nil, List.append_nil]
      · cases h
    · cases h
  · cases h

/-! ## One content for each number -/

/-- A content without the sign bit is the number itself. -/
theorem twosComplement_cons {b : UInt8} {l : List UInt8} (h : b < 0x80) :
    twosComplement (b :: l) = ofBE (b :: l) := by
  have hhead : ((b :: l).head?.any (0x80 ≤ ·)) = false := by
    simpa using h
  rw [twosComplement, hhead]
  exact if_neg Bool.false_ne_true

/-- A number that is not negative has no sign bit. -/
theorem lt_of_twosComplement {b : UInt8} {l : List UInt8} (h : twosComplement (b :: l) = n) :
    b < 0x80 := by
  by_contra hsign
  have hhead : ((b :: l).head?.any (0x80 ≤ ·)) = true := by
    simpa using hsign
  rw [twosComplement, hhead, if_pos rfl] at h
  have hlt := ofBE_lt (b :: l)
  have hcast : (ofBE (b :: l) : ℤ) < 256 ^ (b :: l).length := by exact_mod_cast hlt
  omega

/-- How long the content is decides how large the number is. -/
theorem bounds_of_minimal {b : UInt8} {l : List UInt8} (hmin : Minimal (b :: l)) (hb : b < 0x80) :
    ofBE (b :: l) < 128 * 256 ^ l.length ∧
      (l ≠ [] → 128 * 256 ^ (l.length - 1) ≤ ofBE (b :: l)) := by
  have hbyte : b.toNat < 128 := hb
  have hrest := ofBE_lt l
  refine ⟨?_, fun hne => ?_⟩
  · rw [ofBE_cons]
    have hle : b.toNat * 256 ^ l.length ≤ 127 * 256 ^ l.length :=
      Nat.mul_le_mul_right _ (by omega)
    omega
  · cases l with
    | nil => exact absurd rfl hne
    | cons d l =>
      rw [ofBE_cons, List.length_cons, Nat.add_sub_cancel, Nat.pow_succ]
      rcases Nat.eq_zero_or_pos b.toNat with hzero | hpos
      · have hb0 : b = 0 := UInt8.toNat_inj.mp hzero
        have hd : 128 ≤ d.toNat := by
          by_contra hsmall
          exact hmin.1 ⟨hb0, show d.toNat < 128 by omega⟩
        have hle : 128 * 256 ^ l.length ≤ d.toNat * 256 ^ l.length := Nat.mul_le_mul_right _ hd
        rw [ofBE_cons]
        omega
      · have hle : 1 * (256 ^ l.length * 256) ≤ b.toNat * (256 ^ l.length * 256) :=
          Nat.mul_le_mul_right _ hpos
        omega

/-- Contents of one number, the longer of which would be too long. -/
theorem length_le_of_eq {b d : UInt8} {l k : List UInt8} (hmin : Minimal (d :: k)) (hb : b < 0x80)
    (hd : d < 0x80) (hx : Minimal (b :: l)) (h : ofBE (b :: l) = ofBE (d :: k)) :
    k.length ≤ l.length := by
  by_contra hlong
  have hupper := (bounds_of_minimal hx hb).1
  have hlower := (bounds_of_minimal hmin hd).2 (by
    intro hnil
    subst hnil
    simp at hlong)
  have hpow : 256 ^ l.length ≤ 256 ^ (k.length - 1) :=
    Nat.pow_le_pow_right (by decide) (by omega)
  omega

/-- A number that is not negative has one minimal content. -/
theorem content_unique (hx : Minimal x) (hy : Minimal y) (hxn : twosComplement x = n)
    (hyn : twosComplement y = n) : x = y := by
  cases x with
  | nil => exact hx.elim
  | cons b l =>
    cases y with
    | nil => exact hy.elim
    | cons d k =>
      have hb := lt_of_twosComplement hxn
      have hd := lt_of_twosComplement hyn
      rw [twosComplement_cons hb] at hxn
      rw [twosComplement_cons hd] at hyn
      have heq : ofBE (b :: l) = ofBE (d :: k) := by exact_mod_cast hxn.trans hyn.symm
      have hle := length_le_of_eq hy hb hd hx heq
      have hge := length_le_of_eq hx hd hb hy heq.symm
      apply ofBE_inj _ heq
      simp only [List.length_cons]
      omega

/-- A pair of numbers that are not negative has one encoding. -/
theorem readPair_unique (hx : readPair x = some ((n : ℤ), (m : ℤ)))
    (hy : readPair y = some ((n : ℤ), (m : ℤ))) : x = y := by
  obtain ⟨a, b, rfl, ha, hb, han, hbm⟩ := eq_of_readPair hx
  obtain ⟨c, d, rfl, hc, hd, hcn, hdm⟩ := eq_of_readPair hy
  rw [content_unique ha hc han hcn, content_unique hb hd hbm hdm]

end Der
