import Mathlib.Data.Nat.Notation
import Mathlib.Tactic.Common

/-!
# Files with positioned reads and writes

A `File` is its size and its bytes. `readAt` reads all it is asked for or fails, `writeAt` replaces
the bytes at an offset and grows the file when it writes past the end; the lemmas say what a read
sees of a write behind it, before it, at the same place and inside it.
-/

set_option autoImplicit false

/-- A file of bytes with a size. -/
structure ByteFile where
  size : ℕ
  byte : ℕ → UInt8

namespace ByteFile

variable {f : ByteFile} {offset n k : ℕ} {bytes xs : List UInt8}

/-- A file of zeros. -/
def zeros (size : ℕ) : ByteFile := { size, byte := fun _ => 0 }

/-- The bytes from an offset on, if the file has them. -/
def readAt (f : ByteFile) (offset n : ℕ) : Option (List UInt8) :=
  if offset + n ≤ f.size then some ((List.range n).map fun i => f.byte (offset + i)) else none

/-- The bytes from an offset on are replaced, and the file grows where it has to. -/
def writeAt (f : ByteFile) (offset : ℕ) (bytes : List UInt8) : ByteFile where
  size := max f.size (offset + bytes.length)
  byte i := if offset ≤ i then bytes[i - offset]?.getD (f.byte i) else f.byte i

/-- What is added reads as zero. -/
def setLen (f : ByteFile) (size : ℕ) : ByteFile where
  size := size
  byte i := if i < f.size then f.byte i else 0

/-- What a read returns. -/
theorem readAt_eq_some : f.readAt offset n = some xs ↔
    offset + n ≤ f.size ∧ xs.length = n ∧ ∀ i < n, xs[i]? = some (f.byte (offset + i)) := by
  unfold readAt
  split
  · next hsize =>
    simp only [hsize, true_and, Option.some.injEq]
    constructor
    · rintro rfl
      refine ⟨by simp, fun i hi => ?_⟩
      simp [List.getElem?_range hi]
    · rintro ⟨hlength, hbytes⟩
      apply List.ext_getElem?
      intro i
      by_cases hi : i < n
      · rw [hbytes i hi]
        simp [List.getElem?_range hi]
      · have hlong : xs.length ≤ i := by omega
        rw [List.getElem?_eq_none hlong]
        simp
        omega
  · next hsize => simp [hsize]

/-- A write leaves the bytes before it alone. -/
theorem byte_writeAt_of_lt (h : n < offset) : (f.writeAt offset bytes).byte n = f.byte n := by
  simp only [writeAt]
  rw [if_neg (by omega)]

/-- A write leaves the bytes behind it alone. -/
theorem byte_writeAt_of_le (h : offset + bytes.length ≤ n) :
    (f.writeAt offset bytes).byte n = f.byte n := by
  have hlong : bytes.length ≤ n - offset := by omega
  simp only [writeAt, List.getElem?_eq_none hlong, Option.getD_none, ite_self]

/-- What a write puts there. -/
theorem byte_writeAt (h : k < bytes.length) :
    (f.writeAt offset bytes).byte (offset + k) = bytes[k] := by
  simp only [writeAt]
  rw [if_pos (Nat.le_add_right _ _), Nat.add_sub_cancel_left, List.getElem?_eq_getElem h]
  rfl

/-- A write within the file leaves its size alone. -/
theorem size_writeAt (h : offset + bytes.length ≤ f.size) :
    (f.writeAt offset bytes).size = f.size :=
  Nat.max_eq_left h

/-- The bytes written. -/
theorem readAt_writeAt (h : offset + bytes.length ≤ f.size) :
    (f.writeAt offset bytes).readAt offset bytes.length = some bytes := by
  rw [readAt_eq_some, size_writeAt h]
  refine ⟨h, rfl, fun i hi => ?_⟩
  rw [byte_writeAt hi, List.getElem?_eq_getElem hi]

/-- A read that ends before the write. -/
theorem readAt_writeAt_before (h : offset + bytes.length ≤ f.size) (hk : k + n ≤ offset) :
    (f.writeAt offset bytes).readAt k n = f.readAt k n := by
  unfold readAt
  rw [size_writeAt h]
  congr 2
  apply List.map_congr_left
  intro i hi
  have hlt : i < n := List.mem_range.mp hi
  exact byte_writeAt_of_lt (by omega)

/-- A write inside what is read. -/
theorem readAt_writeAt_within {k m : ℕ} (hr : f.readAt k n = some xs)
    (hm : m + bytes.length ≤ n) :
    (f.writeAt (k + m) bytes).readAt k n =
      some (xs.take m ++ bytes ++ xs.drop (m + bytes.length)) := by
  obtain ⟨hsize, hlength, hbytes⟩ := readAt_eq_some.mp hr
  rw [readAt_eq_some, size_writeAt (by omega)]
  refine ⟨hsize, ?_, fun i hi => ?_⟩
  · simp only [List.length_append, List.length_take, List.length_drop]
    omega
  have htake : (xs.take m).length = m := by
    rw [List.length_take]
    omega
  rw [List.append_assoc, List.getElem?_append]
  by_cases hbefore : i < m
  · rw [htake, if_pos hbefore, List.getElem?_take_of_lt hbefore, hbytes i hi,
      byte_writeAt_of_lt (by omega)]
  rw [htake, if_neg hbefore, List.getElem?_append]
  by_cases hinside : i - m < bytes.length
  · have hindex : k + i = k + m + (i - m) := by omega
    rw [if_pos hinside, hindex, byte_writeAt hinside, List.getElem?_eq_getElem hinside]
  · have hindex : m + bytes.length + (i - m - bytes.length) = i := by omega
    rw [if_neg hinside, List.getElem?_drop, hindex, hbytes i hi, byte_writeAt_of_le (by omega)]

end ByteFile
