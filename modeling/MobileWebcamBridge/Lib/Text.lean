import Mathlib.Data.List.DropRight
import Mathlib.Data.Nat.Notation
import Mathlib.Tactic.Common
import Mathlib.Tactic.IntervalCases

/-!
# Text as a list of characters

Trimming at both ends by a predicate, cutting at the first separator, lines, and numbers in a radix.
A text of lines is read back by `lines` from the lines it was written from, up to one carriage
return at the end of each.
-/

set_option autoImplicit false

namespace Text

section trim

variable {α : Type*} {p : α → Bool} {l : List α}

/-- The text without the characters of `p` at either end. -/
def trim (p : α → Bool) (l : List α) : List α := (l.dropWhile p).rdropWhile p

/-- Nothing is left exactly when everything is trimmed. -/
theorem trim_eq_nil : trim p l = [] ↔ ∀ c ∈ l, p c = true := by
  rw [trim, List.rdropWhile_eq_nil_iff]
  constructor
  · intro h c hc
    by_contra hpc
    have hne : l.dropWhile p ≠ [] := fun hnil => hpc (List.dropWhile_eq_nil_iff.mp hnil c hc)
    -- the first character left by the prefix is not one of `p`
    have hhead := List.head_dropWhile_not p hne
    rw [h _ (List.head_mem hne)] at hhead
    cases hhead
  · intro h c hc
    exact h c ((l.dropWhile_suffix p).subset hc)

/-- A text that neither begins nor ends with a character of `p` is trimmed already. -/
theorem trim_of_ends (hhead : ∀ c ∈ l.head?, p c = false) (hlast : ∀ c ∈ l.getLast?, p c = false) :
    trim p l = l := by
  have hdrop : l.dropWhile p = l := by
    cases l with
    | nil => rfl
    | cons c l => rw [List.dropWhile_cons_of_neg (by simpa using hhead c rfl)]
  rw [trim, hdrop]
  apply List.rdropWhile_eq_self_iff.mpr
  intro hne
  have := hlast (l.getLast hne) (List.getLast_mem_getLast? hne)
  simpa using this

/-- There is nothing more to trim. -/
theorem trim_trim : trim p (trim p l) = trim p l := by
  apply trim_of_ends
  · intro c hc
    -- the first character is the one the leading run stopped at
    have hne : l.dropWhile p ≠ [] := by
      intro hnil
      rw [trim, hnil] at hc
      cases hc
    obtain ⟨t, ht⟩ := List.rdropWhile_prefix p (l.dropWhile p)
    have hhead : (l.dropWhile p).head? = some c := by
      rw [← ht, List.head?_append]
      change (trim p l).head? = some c at hc
      rw [show List.rdropWhile p (List.dropWhile p l) = trim p l from rfl, hc]
      rfl
    have hnot := List.head_dropWhile_not p hne
    rw [List.head?_eq_some_head hne] at hhead
    rwa [Option.some.inj hhead] at hnot
  · intro c hc
    have hne : trim p l ≠ [] := by
      intro hnil
      rw [hnil] at hc
      cases hc
    have hlast := List.rdropWhile_last_not p (l.dropWhile p) hne
    rw [List.getLast?_eq_some_getLast hne] at hc
    rw [← Option.some.inj hc]
    exact Bool.eq_false_iff.mpr hlast

/-- Trimming forgets a character of `p` at the end. -/
theorem trim_concat {c : α} (hc : p c = true) : trim p (l ++ [c]) = trim p l := by
  by_cases hall : ∀ d ∈ l, p d = true
  · have hnil : trim p l = [] := trim_eq_nil.mpr hall
    rw [hnil]
    apply trim_eq_nil.mpr
    intro d hd
    rcases List.mem_append.mp hd with hd | hd
    · exact hall d hd
    · rw [List.mem_singleton.mp hd]
      exact hc
  · have hne : l.dropWhile p ≠ [] := fun hnil => hall (List.dropWhile_eq_nil_iff.mp hnil)
    have hdrop : (l ++ [c]).dropWhile p = l.dropWhile p ++ [c] := by
      rw [List.dropWhile_append, if_neg (by simpa using hne)]
    rw [trim, hdrop, List.rdropWhile_concat_pos _ _ _ hc]
    rfl

end trim

section split

variable {α : Type*} [DecidableEq α]

/-- The text before and behind the first separator. -/
def splitOnce (sep : α) : List α → Option (List α × List α)
  | [] => none
  | c :: cs =>
    if c = sep then some ([], cs) else (splitOnce sep cs).map fun (key, value) => (c :: key, value)

/-- A text is split at its first separator. -/
theorem splitOnce_append {sep : α} {key value : List α} (h : sep ∉ key) :
    splitOnce sep (key ++ sep :: value) = some (key, value) := by
  induction key with
  | nil => simp [splitOnce]
  | cons c key ih =>
    rw [List.mem_cons, not_or] at h
    rw [List.cons_append, splitOnce, if_neg (Ne.symm h.1), ih h.2]
    rfl

/-- What a split gives. -/
theorem splitOnce_some {sep : α} {l key value : List α} (h : splitOnce sep l = some (key, value)) :
    l = key ++ sep :: value ∧ sep ∉ key := by
  induction l generalizing key with
  | nil => cases h
  | cons c l ih =>
    rw [splitOnce] at h
    split at h
    · next hc =>
      obtain ⟨rfl, rfl⟩ := Prod.mk.inj (Option.some.inj h)
      exact ⟨by rw [hc]; rfl, List.not_mem_nil⟩
    · next hc =>
      obtain ⟨⟨key', value'⟩, hsome, heq⟩ := Option.map_eq_some_iff.mp h
      obtain ⟨rfl, rfl⟩ := Prod.mk.inj heq
      obtain ⟨rfl, hnot⟩ := ih hsome
      exact ⟨rfl, by rw [List.mem_cons, not_or]; exact ⟨Ne.symm hc, hnot⟩⟩

end split

section search

variable {α : Type*} [DecidableEq α] {needle : List α}

/-- Whether a part of the text is the needle. -/
def contains (needle : List α) : List α → Bool
  | [] => needle.isPrefixOf []
  | c :: cs => needle.isPrefixOf (c :: cs) || contains needle cs

/-- The text after a part that is replaced has been read to its end: so many characters are left of
it. -/
def replaceFrom (needle new : List α) : ℕ → List α → List α
  | _, [] => []
  | left + 1, _ :: cs => replaceFrom needle new left cs
  | 0, c :: cs =>
    if needle.isPrefixOf (c :: cs) then new ++ replaceFrom needle new (needle.length - 1) cs
    else c :: replaceFrom needle new 0 cs

/-- Every occurrence of a needle that is not empty, from the left, becomes `new`. -/
def replace (needle new text : List α) : List α := replaceFrom needle new 0 text

/-- A text without the needle stays as it is. -/
theorem replace_of_not_contains {text : List α} (h : contains needle text = false) (new : List α) :
    replace needle new text = text := by
  unfold replace
  induction text with
  | nil => rfl
  | cons c cs ih =>
    obtain ⟨hhead, htail⟩ := Bool.or_eq_false_iff.mp h
    rw [replaceFrom, if_neg (by rw [hhead]; exact Bool.false_ne_true), ih htail]

end search

/-! ## Lines -/

/-- `strip_suffix('\r')`. -/
def stripCR (line : List Char) : List Char :=
  if line.getLast? = some '\r' then line.dropLast else line

/-- `str::lines`: what stands between line feeds, without a carriage return before one; nothing
stands behind the last line feed of a text that ends with it. -/
def lines (text : List Char) : List (List Char) :=
  (text.splitOn '\n').dropLast.map stripCR ++
    ((text.splitOn '\n').getLast?.toList.filter fun line => !line.isEmpty)

/-- `lines.join("\n") + "\n"`. -/
def unlines (ls : List (List Char)) : List Char := ['\n'].intercalate ls ++ ['\n']

/-- The pieces of some lines. -/
theorem splitOn_unlines {ls : List (List Char)} (hne : ls ≠ []) (h : ∀ l ∈ ls, '\n' ∉ l) :
    (unlines ls).splitOn '\n' = ls ++ [[]] := by
  rw [unlines, List.splitOn_append_cons_self, List.splitOn_intercalate _ h hne]
  rfl

/-- The lines of some lines. -/
theorem lines_unlines {ls : List (List Char)} (hne : ls ≠ []) (h : ∀ l ∈ ls, '\n' ∉ l) :
    lines (unlines ls) = ls.map stripCR := by
  rw [lines, splitOn_unlines hne h]
  simp

theorem not_mem_of_mem_splitOn {text piece : List Char} (h : piece ∈ text.splitOn '\n') :
    '\n' ∉ piece := by
  induction text generalizing piece with
  | nil =>
    obtain rfl := List.mem_singleton.mp h
    exact List.not_mem_nil
  | cons c text ih =>
    rw [List.splitOn_cons_eq_if_modifyHead] at h
    split at h
    · rcases List.mem_cons.mp h with rfl | h
      · exact List.not_mem_nil
      · exact ih h
    · next hc =>
      obtain ⟨first, rest, hsplit⟩ := List.exists_cons_of_ne_nil (List.splitOn_ne_nil '\n' text)
      rw [hsplit, List.modifyHead_cons] at h
      rcases List.mem_cons.mp h with rfl | h
      · have hfirst := ih (hsplit ▸ List.mem_cons_self)
        simpa [Ne.symm (by simpa using hc)] using hfirst
      · exact ih (hsplit ▸ List.mem_cons_of_mem _ h)

theorem stripCR_sublist (line : List Char) : (stripCR line).Sublist line := by
  unfold stripCR
  split
  · exact List.dropLast_sublist line
  · exact List.Sublist.refl line

/-- A line has no line feed. -/
theorem not_mem_lines {text line : List Char} (h : line ∈ lines text) : '\n' ∉ line := by
  rcases List.mem_append.mp h with h | h
  · obtain ⟨piece, hpiece, rfl⟩ := List.mem_map.mp h
    have hpiece := not_mem_of_mem_splitOn (List.dropLast_subset _ hpiece)
    exact fun hmem => hpiece ((stripCR_sublist piece).subset hmem)
  · have hlast := (List.mem_filter.mp h).1
    rw [Option.mem_toList] at hlast
    exact not_mem_of_mem_splitOn (List.mem_of_getLast? hlast)

/-- A carriage return is trimmed anyway. -/
theorem trim_stripCR {p : Char → Bool} (hp : p '\r' = true) (line : List Char) :
    trim p (stripCR line) = trim p line := by
  unfold stripCR
  split
  · next hlast =>
    obtain ⟨init, rfl⟩ := List.getLast?_eq_some_iff.mp hlast
    rw [List.dropLast_concat, trim_concat hp]
  · rfl

/-! ## Numbers -/

/-- The value of an ASCII digit or letter. -/
def digitValue (c : Char) : Option ℕ :=
  if 0x30 ≤ c.toNat ∧ c.toNat ≤ 0x39 then some (c.toNat - 0x30)
  else if 0x61 ≤ c.toNat ∧ c.toNat ≤ 0x7a then some (c.toNat - 0x61 + 10)
  else if 0x41 ≤ c.toNat ∧ c.toNat ≤ 0x5a then some (c.toNat - 0x41 + 10)
  else none

/-- `char::to_digit`. -/
def digit (radix : ℕ) (c : Char) : Option ℕ := (digitValue c).filter fun d => decide (d < radix)

/-- Digits, most significant first. -/
def fromDigits (radix : ℕ) (text : List Char) : Option ℕ :=
  text.foldl (fun acc c => acc.bind fun n => (digit radix c).map fun d => n * radix + d) (some 0)

/-- A digit is read back. -/
theorem digit_digitChar {radix d : ℕ} (hd : d < radix) (hradix : radix ≤ 16) :
    digit radix (Nat.digitChar d) = some d := by
  have hvalue : ∀ d < 16, digitValue (Nat.digitChar d) = some d := by decide
  rw [digit, hvalue d (by omega), Option.filter_some, if_pos (decide_eq_true hd)]

/-- One digit more. -/
theorem fromDigits_concat (radix : ℕ) (text : List Char) (c : Char) :
    fromDigits radix (text ++ [c]) =
      (fromDigits radix text).bind fun n => (digit radix c).map fun d => n * radix + d := by
  rw [fromDigits, List.foldl_append]
  rfl

/-- The digits of a number are read back. -/
theorem fromDigits_toDigits {radix : ℕ} (hlow : 1 < radix) (hradix : radix ≤ 16) (n : ℕ) :
    fromDigits radix (Nat.toDigits radix n) = some n := by
  induction n using Nat.strongRecOn with
  | ind n ih =>
    rw [Nat.toDigits_eq_if hlow]
    split
    · next hn =>
      show fromDigits radix ([] ++ [Nat.digitChar n]) = some n
      rw [fromDigits_concat, digit_digitChar hn hradix]
      simp [fromDigits]
    · next hn =>
      rw [fromDigits_concat, ih (n / radix) (Nat.div_lt_self (by omega) hlow),
        digit_digitChar (Nat.mod_lt n (by omega)) hradix]
      exact congrArg some (Nat.div_add_mod' n radix)

/-- A digit is an ASCII digit or letter. -/
theorem range_of_digit {radix : ℕ} {c : Char} (h : (digit radix c).isSome = true) :
    (0x30 ≤ c.toNat ∧ c.toNat ≤ 0x39) ∨ (0x61 ≤ c.toNat ∧ c.toNat ≤ 0x7a) ∨
      (0x41 ≤ c.toNat ∧ c.toNat ≤ 0x5a) := by
  obtain ⟨d, hd⟩ := Option.isSome_iff_exists.mp h
  obtain ⟨hvalue, -⟩ := Option.filter_eq_some_iff.mp hd
  rw [digitValue] at hvalue
  split at hvalue
  · omega
  split at hvalue
  · omega
  split at hvalue
  · omega
  · cases hvalue

/-- Every character of a number is a digit. -/
theorem digit_of_mem_toDigits {radix n : ℕ} (hlow : 1 < radix) (hradix : radix ≤ 16) {c : Char}
    (hc : c ∈ Nat.toDigits radix n) : ∃ d, digit radix c = some d := by
  induction n using Nat.strongRecOn with
  | ind n ih =>
    rw [Nat.toDigits_eq_if hlow] at hc
    split at hc
    · next hn =>
      obtain rfl := List.mem_singleton.mp hc
      exact ⟨n, digit_digitChar hn hradix⟩
    · next hn =>
      rcases List.mem_append.mp hc with hc | hc
      · exact ih (n / radix) (Nat.div_lt_self (by omega) hlow) hc
      · obtain rfl := List.mem_singleton.mp hc
        exact ⟨n % radix, digit_digitChar (Nat.mod_lt n (by omega)) hradix⟩

end Text
