import Mathlib.Data.Nat.Digits.Defs
import MobileWebcamBridge.Lib.Unicode

/-!
# Compact JSON

The text of a JSON value with no blank between its tokens, and how many bytes of UTF-8 it takes. A
string escapes the quotation mark, the backslash and the control characters, so that no line break
stands in a text.
-/

set_option autoImplicit false

namespace Json

open Unicode

/-! ## The texts -/

/-- The literal `null`. -/
def null : List Char := ['n', 'u', 'l', 'l']

/-- The literals `true` and `false`. -/
def bool (b : Bool) : List Char := if b then ['t', 'r', 'u', 'e'] else ['f', 'a', 'l', 's', 'e']

/-- A number without sign and fraction. -/
def number (n : ℕ) : List Char := Nat.toDigits 10 n

/-- A character inside a string. -/
def escapeChar (c : Char) : List Char :=
  if c = '"' then ['\\', '"']
  else if c = '\\' then ['\\', '\\']
  else if c = '\x08' then ['\\', 'b']
  else if c = '\x0c' then ['\\', 'f']
  else if c = '\n' then ['\\', 'n']
  else if c = '\r' then ['\\', 'r']
  else if c = '\t' then ['\\', 't']
  else if c.toNat < 0x20 then
    ['\\', 'u', '0', '0', Nat.digitChar (c.toNat / 16), Nat.digitChar (c.toNat % 16)]
  else [c]

/-- A string in quotes. -/
def string (s : List Char) : List Char := '"' :: (s.flatMap escapeChar ++ ['"'])

/-- An array of values that are written already. -/
def array (xs : List (List Char)) : List Char := '[' :: ([','].intercalate xs ++ [']'])

/-- One member of an object. -/
def member (m : List Char × List Char) : List Char := string m.1 ++ ':' :: m.2

/-- An object of written members. -/
def object (ms : List (List Char × List Char)) : List Char :=
  '{' :: ([','].intercalate (ms.map member) ++ ['}'])

/-! ## Sizes -/

/-- The bytes of a text. -/
def size (text : List Char) : ℕ := (utf8 text).length

/-- The bytes of a string between its quotation marks. -/
def escapedSize (s : List Char) : ℕ := size (s.flatMap escapeChar)

variable {c : Char} {s t : List Char} {xs : List (List Char)} {n k : ℕ}

@[simp]
theorem size_nil : size [] = 0 := rfl

/-- The room of two texts. -/
@[simp]
theorem size_append (s t : List Char) : size (s ++ t) = size s + size t := by
  simp [size, utf8]

theorem size_cons (c : Char) (s : List Char) : size (c :: s) = c.utf8Size + size s := by
  simp [size, utf8]

/-- A character of ASCII is one byte more. -/
theorem size_cons_ascii (hc : c.toNat ≤ 0x7f) (s : List Char) : size (c :: s) = size s + 1 := by
  rw [size, utf8, List.flatMap_cons, utf8EncodeChar_ascii hc, Nat.add_comm]
  simp only [List.length_append, List.length_singleton, size, utf8]

theorem size_of_ascii (h : ∀ c ∈ s, c.toNat ≤ 0x7f) : size s = s.length := length_utf8_of_ascii h

/-- A string takes its quotes. -/
@[simp]
theorem size_string (s : List Char) : size (string s) = escapedSize s + 2 := by
  rw [string, size_cons_ascii (by decide), size_append]
  rfl

@[simp]
theorem size_bool (b : Bool) : size (bool b) = if b then 4 else 5 := by
  cases b with
  | false => rfl
  | true => rfl

theorem size_bool_le (b : Bool) : size (bool b) ≤ 5 := by
  cases b with
  | false => exact Nat.le_refl 5
  | true => exact Nat.le_succ 4

theorem number_ascii (n : ℕ) : ∀ c ∈ number n, c.isDigit = true :=
  fun _ hc => Nat.isDigit_of_mem_toDigits (by decide) (by decide) hc

theorem toNat_of_isDigit (h : c.isDigit = true) : 48 ≤ c.toNat ∧ c.toNat ≤ 57 := by
  rw [Char.isDigit, Bool.and_eq_true, decide_eq_true_eq, decide_eq_true_eq] at h
  exact h

/-- A number takes its digits. -/
theorem size_number (n : ℕ) : size (number n) = (number n).length := by
  apply size_of_ascii
  intro c hc
  have hdigit := toNat_of_isDigit (number_ascii n c hc)
  omega

/-- A number below a power of ten. -/
theorem size_number_le (hk : 0 < k) (hn : n < 10 ^ k) : size (number n) ≤ k := by
  rw [size_number]
  exact Nat.toDigits_length 10 n k hk hn

theorem size_intercalate_le (xs : List (List Char)) :
    size ([','].intercalate xs) ≤ (xs.map fun x => size x + 1).sum := by
  induction xs with
  | nil => exact Nat.le_refl 0
  | cons x xs ih =>
    cases xs with
    | nil => simp
    | cons y ys =>
      rw [List.intercalate_cons_cons, size_append, size_append, List.map_cons, List.sum_cons]
      have hcomma : size [','] = 1 := rfl
      omega

theorem size_intercalate_cons (x : List Char) (xs : List (List Char)) :
    size ([','].intercalate (x :: xs)) = size x + (xs.map fun x => size x + 1).sum := by
  induction xs generalizing x with
  | nil => simp
  | cons y ys ih =>
    rw [List.intercalate_cons_cons, size_append, size_append, ih, List.map_cons, List.sum_cons]
    have hcomma : size [','] = 1 := rfl
    omega

/-- An array takes a comma for each element. -/
theorem size_array_le (xs : List (List Char)) :
    size (array xs) ≤ (xs.map fun x => size x + 1).sum + 2 := by
  have hle := size_intercalate_le xs
  rw [array, size_cons_ascii (by decide), size_append]
  have hclose : size [']'] = 1 := rfl
  omega

/-- Values of at most `k` bytes each. -/
theorem size_array_le_mul (h : ∀ x ∈ xs, size x ≤ k) :
    size (array xs) ≤ xs.length * (k + 1) + 2 := by
  have hsum : (xs.map fun x => size x + 1).sum ≤ xs.length * (k + 1) := by
    induction xs with
    | nil => exact Nat.zero_le _
    | cons x xs ih =>
      obtain ⟨hx, hxs⟩ := List.forall_mem_cons.mp h
      have hrest := ih hxs
      rw [List.map_cons, List.sum_cons, List.length_cons, Nat.succ_mul]
      omega
  have hle := size_array_le xs
  omega

/-- A member takes its name, a colon and a comma. -/
theorem size_member (m : List Char × List Char) :
    size (member m) = escapedSize m.1 + size m.2 + 3 := by
  rw [member, size_append, size_string, size_cons_ascii (by decide)]
  omega

/-- Each member takes its text and four bytes more, the object one. -/
theorem size_object_cons (m : List Char × List Char) (ms : List (List Char × List Char)) :
    size (object (m :: ms)) =
      ((m :: ms).map fun m => escapedSize m.1 + size m.2 + 4).sum + 1 := by
  have hsum : ((ms.map member).map fun x => size x + 1).sum =
      (ms.map fun m => escapedSize m.1 + size m.2 + 4).sum := by
    rw [List.map_map]
    congr 1
    apply List.map_congr_left
    intro m _
    show size (member m) + 1 = _
    rw [size_member]
  rw [object, size_cons_ascii (by decide), size_append, List.map_cons, size_intercalate_cons, hsum,
    size_member, List.map_cons, List.sum_cons]
  have hclose : size ['}'] = 1 := rfl
  omega

/-- The bytes of an object that are not those of its values. -/
def overhead (names : List (List Char)) : ℕ := (names.map fun name => escapedSize name + 4).sum + 1

/-- An object takes its members and their names. -/
theorem size_object {ms : List (List Char × List Char)} (h : ms ≠ []) :
    size (object ms) = overhead (ms.map Prod.fst) + (ms.map fun m => size m.2).sum := by
  obtain ⟨m, rest, rfl⟩ := List.exists_cons_of_ne_nil h
  rw [size_object_cons, overhead]
  induction m :: rest with
  | nil => rfl
  | cons m ms ih =>
    simp only [List.map_cons, List.sum_cons] at ih ⊢
    omega

theorem digitChar_ascii : ∀ n < 16, (Nat.digitChar n).toNat ≤ 0x7f := by decide

/-- The six bytes of a control character that has no escape of its own. -/
theorem size_escape_control (hc : c.toNat < 0x20) :
    size ['\\', 'u', '0', '0', Nat.digitChar (c.toNat / 16), Nat.digitChar (c.toNat % 16)] = 6 := by
  have hhigh := digitChar_ascii (c.toNat / 16) (by omega)
  have hlow := digitChar_ascii (c.toNat % 16) (by omega)
  apply size_of_ascii
  simpa using ⟨hhigh, hlow⟩

/-- The escape of a character is at most six bytes. -/
theorem size_escapeChar_le (c : Char) : size (escapeChar c) ≤ 6 := by
  unfold escapeChar
  by_cases hcontrol : c.toNat < 0x20
  · have hsix := size_escape_control hcontrol
    split_ifs
    · decide
    · decide
    · decide
    · decide
    · decide
    · decide
    · decide
    · omega
  · have hone : size [c] ≤ 4 := by
      rw [size_cons, size_nil, Nat.add_zero]
      exact Char.utf8Size_le_four c
    split_ifs
    · decide
    · decide
    · decide
    · decide
    · decide
    · decide
    · decide
    · omega

/-- A string takes the room of its characters. -/
theorem escapedSize_cons (c : Char) (s : List Char) :
    escapedSize (c :: s) = size (escapeChar c) + escapedSize s := by
  rw [escapedSize, List.flatMap_cons, size_append]
  rfl

/-- A character takes six bytes at most. -/
theorem escapedSize_le (s : List Char) : escapedSize s ≤ 6 * s.length := by
  induction s with
  | nil => exact Nat.le_refl 0
  | cons c s ih =>
    have hc := size_escapeChar_le c
    rw [escapedSize_cons, List.length_cons]
    omega

/-! ## No line break -/

/-- A text on one line. -/
def OneLine (text : List Char) : Prop := ∀ c ∈ text, c ≠ '\n'

instance (text : List Char) : Decidable (OneLine text) := List.decidableBAll _ _

/-- Two texts without a line feed. -/
theorem OneLine.append (hs : OneLine s) (ht : OneLine t) : OneLine (s ++ t) := by
  intro c hc
  rcases List.mem_append.mp hc with hc | hc
  · exact hs c hc
  · exact ht c hc

theorem OneLine.cons (hc : c ≠ '\n') (hs : OneLine s) : OneLine (c :: s) :=
  List.forall_mem_cons.mpr ⟨hc, hs⟩

theorem oneLine_null : OneLine null := by decide

theorem oneLine_bool (b : Bool) : OneLine (bool b) := by
  cases b with
  | false => decide
  | true => decide

theorem oneLine_number (n : ℕ) : OneLine (number n) := by
  intro c hc heq
  have hdigit := toNat_of_isDigit (number_ascii n c hc)
  rw [heq] at hdigit
  exact absurd hdigit.1 (by decide)

theorem digitChar_ne_newline : ∀ n < 16, Nat.digitChar n ≠ '\n' := by decide

/-- The line break itself is escaped. -/
theorem oneLine_escapeChar (c : Char) : OneLine (escapeChar c) := by
  unfold escapeChar
  split_ifs with h₁ h₂ h₃ h₄ hnewline h₆ h₇ hcontrol
  · decide
  · decide
  · decide
  · decide
  · decide
  · decide
  · decide
  · have hhigh := digitChar_ne_newline (c.toNat / 16) (by omega)
    have hlow := digitChar_ne_newline (c.toNat % 16) (by omega)
    simp [OneLine, hhigh, hlow]
  · simpa [OneLine] using hnewline

/-- A string has its line feeds escaped. -/
theorem oneLine_string (s : List Char) : OneLine (string s) := by
  apply OneLine.cons (by decide)
  refine OneLine.append ?_ (by decide)
  intro c hc
  obtain ⟨d, -, hd⟩ := List.mem_flatMap.mp hc
  exact oneLine_escapeChar d c hd

theorem oneLine_intercalate (h : ∀ x ∈ xs, OneLine x) : OneLine ([','].intercalate xs) := by
  induction xs with
  | nil => exact nofun
  | cons x xs ih =>
    obtain ⟨hx, hxs⟩ := List.forall_mem_cons.mp h
    cases xs with
    | nil => simpa using hx
    | cons y ys =>
      rw [List.intercalate_cons_cons]
      exact (hx.append (by decide)).append (ih hxs)

/-- An array has no line feed of its own. -/
theorem oneLine_array (h : ∀ x ∈ xs, OneLine x) : OneLine (array xs) :=
  OneLine.cons (by decide) ((oneLine_intercalate h).append (by decide))

/-- An object has no line feed of its own. -/
theorem oneLine_object {ms : List (List Char × List Char)} (h : ∀ m ∈ ms, OneLine m.2) :
    OneLine (object ms) := by
  apply OneLine.cons (by decide)
  refine OneLine.append (oneLine_intercalate ?_) (by decide)
  intro x hx
  obtain ⟨m, hm, rfl⟩ := List.mem_map.mp hx
  exact (oneLine_string m.1).append (OneLine.cons (by decide) (h m hm))

/-- The byte of the line break is not in a text on one line. -/
theorem OneLine.ne_of_mem_utf8 (h : OneLine s) : ∀ b ∈ utf8 s, b ≠ 10 := by
  intro b hb heq
  obtain ⟨c, hc, hbyte⟩ := List.mem_flatMap.mp hb
  by_cases hascii : c.toNat ≤ 0x7f
  · rw [utf8EncodeChar_ascii hascii, List.mem_singleton, heq] at hbyte
    -- a character of one byte is its byte
    have hnat := congrArg UInt8.toNat hbyte
    rw [UInt8.toNat_ofNat', Nat.mod_eq_of_lt (by omega)] at hnat
    exact h c hc (Char.toNat_inj.mp hnat.symm)
  · have hhigh := high_of_not_ascii hascii b hbyte
    rw [heq] at hhigh
    exact absurd hhigh (by decide)

end Json
