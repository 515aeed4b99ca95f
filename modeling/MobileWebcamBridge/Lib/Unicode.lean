import Mathlib.Data.Nat.Notation
import Mathlib.Tactic.Common

/-!
# Text as Unicode scalar values

Text is the list of its scalar values, which is what a Rust string holds. `utf8` and `fromUtf8` are
the strict UTF-8 codec of Lean's own strings. A Java string is a list of UTF-16 units that need not
be well formed: `utf16` writes scalar values as units, and `fromUtf16` reads units the way
`getBytes` does, every lone surrogate becoming a question mark.
-/

set_option autoImplicit false

namespace Unicode

/-! ## UTF-8 -/

/-- The UTF-8 bytes of a text. -/
def utf8 (cs : List Char) : List UInt8 := cs.flatMap String.utf8EncodeChar

/-- The text of a byte string; `none` when it is not UTF-8. -/
def fromUtf8 (bytes : List UInt8) : Option (List Char) :=
  bytes.toByteArray.utf8Decode?.map Array.toList

theorem toByteArray_utf8 (cs : List Char) : (utf8 cs).toByteArray = cs.utf8Encode := rfl

/-- A text is read back from its bytes. -/
theorem fromUtf8_utf8 (cs : List Char) : fromUtf8 (utf8 cs) = some cs := by
  rw [fromUtf8, toByteArray_utf8, List.utf8Decode?_utf8Encode]
  rfl

/-- What is read as a text has its bytes. -/
theorem utf8_of_fromUtf8 {bytes : List UInt8} {cs : List Char} (h : fromUtf8 bytes = some cs) :
    utf8 cs = bytes := by
  obtain ⟨a, ha, rfl⟩ := Option.map_eq_some_iff.mp h
  have hsome : bytes.toByteArray.utf8Decode?.isSome := by simp [ha]
  have hget := ByteArray.utf8Encode_get_utf8Decode? (h := hsome)
  rw [Option.get_of_eq_some hsome ha, ← toByteArray_utf8] at hget
  have hdata := congrArg (fun b => b.data.toList) hget
  simpa using hdata

/-- Two texts have two encodings. -/
theorem utf8_injective {cs ds : List Char} (h : utf8 cs = utf8 ds) : cs = ds := by
  have hd := fromUtf8_utf8 ds
  rw [← h, fromUtf8_utf8] at hd
  exact Option.some.inj hd

/-- An ASCII character is its own byte. -/
theorem utf8EncodeChar_ascii {c : Char} (h : c.toNat ≤ 0x7f) :
    String.utf8EncodeChar c = [UInt8.ofNat c.toNat] := if_pos h

/-- Every byte of any other character is beyond ASCII. -/
theorem high_of_not_ascii {c : Char} (h : ¬ c.toNat ≤ 0x7f) :
    ∀ b ∈ String.utf8EncodeChar c, 0x80 ≤ b.toNat := by
  have hval : ¬ c.val.toNat ≤ 0x7f := h
  unfold String.utf8EncodeChar
  dsimp only
  rw [if_neg hval]
  split_ifs
  all_goals
    simp only [List.mem_cons, List.not_mem_nil, or_false, forall_eq_or_imp, forall_eq,
      UInt8.toNat_ofNat']
    omega

/-- A character outside ASCII has a high byte. -/
theorem exists_byte_of_not_ascii {c : Char} (h : ¬ c.toNat ≤ 0x7f) :
    ∃ b ∈ String.utf8EncodeChar c, 0x80 ≤ b.toNat := by
  have hpos : 0 < (String.utf8EncodeChar c).length := by
    rw [String.length_utf8EncodeChar]
    exact Char.utf8Size_pos c
  obtain ⟨b, hb⟩ := List.exists_mem_of_length_pos hpos
  exact ⟨b, hb, high_of_not_ascii h b hb⟩

/-- A text within ASCII takes one byte for each character. -/
theorem length_utf8_of_ascii {cs : List Char} (h : ∀ c ∈ cs, c.toNat ≤ 0x7f) :
    (utf8 cs).length = cs.length := by
  induction cs with
  | nil => rfl
  | cons c cs ih =>
    obtain ⟨hc, hcs⟩ := List.forall_mem_cons.mp h
    rw [utf8, List.flatMap_cons, utf8EncodeChar_ascii hc, List.length_append, List.length_singleton,
      List.length_cons, Nat.add_comm]
    exact congrArg (· + 1) (ih hcs)

/-! ## UTF-16 -/

/-- The one or two units of a character. -/
def utf16Char (c : Char) : List UInt16 :=
  if c.toNat < 0x10000 then [UInt16.ofNat c.toNat]
  else
    [UInt16.ofNat (0xd800 + (c.toNat - 0x10000) / 0x400),
      UInt16.ofNat (0xdc00 + (c.toNat - 0x10000) % 0x400)]

/-- The UTF-16 units of a text. -/
def utf16 (cs : List Char) : List UInt16 := cs.flatMap utf16Char

/-- The first half of a pair. -/
def isHighSurrogate (u : UInt16) : Bool := decide (0xd800 ≤ u.toNat ∧ u.toNat < 0xdc00)

/-- The second half of a pair. -/
def isLowSurrogate (u : UInt16) : Bool := decide (0xdc00 ≤ u.toNat ∧ u.toNat < 0xe000)

/-- Either half of a pair. -/
def isSurrogate (u : UInt16) : Bool := isHighSurrogate u || isLowSurrogate u

/-- A unit that is not half of a pair. -/
def unitChar (u : UInt16) : Char := if isSurrogate u then '?' else Char.ofNat u.toNat

/-- The character of a pair. -/
def pairChar (high low : UInt16) : Char :=
  Char.ofNat (0x10000 + (high.toNat - 0xd800) * 0x400 + (low.toNat - 0xdc00))

/-- The text of some units; a lone half becomes the replacement character. -/
def fromUtf16 : List UInt16 → List Char
  | [] => []
  | [u] => [unitChar u]
  | u :: v :: us =>
    if isHighSurrogate u && isLowSurrogate v then pairChar u v :: fromUtf16 us
    else unitChar u :: fromUtf16 (v :: us)

/-- No character is a surrogate. -/
theorem char_toNat_range (c : Char) :
    c.toNat < 0xd800 ∨ (0xdfff < c.toNat ∧ c.toNat < 0x110000) := c.valid

theorem ofNat_toNat (c : Char) : Char.ofNat c.toNat = c := Char.ofNat_toNat c

/-- A scalar value of the basic plane is one unit, which is no surrogate. -/
theorem fromUtf16_cons_unit {c : Char} (hc : c.toNat < 0x10000) (us : List UInt16) :
    fromUtf16 (UInt16.ofNat c.toNat :: us) = c :: fromUtf16 us := by
  have hnat : (UInt16.ofNat c.toNat).toNat = c.toNat := by
    rw [UInt16.toNat_ofNat']
    omega
  have hrange := char_toNat_range c
  have hhigh : isHighSurrogate (UInt16.ofNat c.toNat) = false := by
    simp only [isHighSurrogate, hnat, decide_eq_false_iff_not]
    omega
  have hlow : isLowSurrogate (UInt16.ofNat c.toNat) = false := by
    simp only [isLowSurrogate, hnat, decide_eq_false_iff_not]
    omega
  have hunit : unitChar (UInt16.ofNat c.toNat) = c := by
    rw [unitChar, isSurrogate, hhigh, hlow, hnat, ofNat_toNat]
    rfl
  cases us with
  | nil =>
    show [unitChar (UInt16.ofNat c.toNat)] = [c]
    rw [hunit]
  | cons v us =>
    rw [fromUtf16, hhigh, hunit]
    rfl

/-- Any other scalar value is a surrogate pair. -/
theorem fromUtf16_cons_pair {c : Char} (hc : ¬ c.toNat < 0x10000) (us : List UInt16) :
    fromUtf16 (utf16Char c ++ us) = c :: fromUtf16 us := by
  have hrange := char_toNat_range c
  have hhigh : (UInt16.ofNat (0xd800 + (c.toNat - 0x10000) / 0x400)).toNat =
      0xd800 + (c.toNat - 0x10000) / 0x400 := by
    rw [UInt16.toNat_ofNat']
    omega
  have hlow : (UInt16.ofNat (0xdc00 + (c.toNat - 0x10000) % 0x400)).toNat =
      0xdc00 + (c.toNat - 0x10000) % 0x400 := by
    rw [UInt16.toNat_ofNat']
    omega
  have hpair : pairChar (UInt16.ofNat (0xd800 + (c.toNat - 0x10000) / 0x400))
      (UInt16.ofNat (0xdc00 + (c.toNat - 0x10000) % 0x400)) = c := by
    have hval : 0x10000 + (0xd800 + (c.toNat - 0x10000) / 0x400 - 0xd800) * 0x400 +
        (0xdc00 + (c.toNat - 0x10000) % 0x400 - 0xdc00) = c.toNat := by
      omega
    rw [pairChar, hhigh, hlow, hval, ofNat_toNat]
  have htest : (isHighSurrogate (UInt16.ofNat (0xd800 + (c.toNat - 0x10000) / 0x400)) &&
      isLowSurrogate (UInt16.ofNat (0xdc00 + (c.toNat - 0x10000) % 0x400))) = true := by
    simp only [isHighSurrogate, isLowSurrogate, hhigh, hlow, Bool.and_eq_true, decide_eq_true_eq]
    omega
  rw [utf16Char, if_neg hc]
  show fromUtf16 (_ :: _ :: us) = _
  rw [fromUtf16, if_pos htest, hpair]

/-- A text is read back from its units. -/
theorem fromUtf16_utf16 (cs : List Char) : fromUtf16 (utf16 cs) = cs := by
  induction cs with
  | nil => rfl
  | cons c cs ih =>
    show fromUtf16 (utf16Char c ++ utf16 cs) = c :: cs
    by_cases hc : c.toNat < 0x10000
    · rw [utf16Char, if_pos hc, List.singleton_append, fromUtf16_cons_unit hc, ih]
    · rw [fromUtf16_cons_pair hc, ih]

end Unicode
