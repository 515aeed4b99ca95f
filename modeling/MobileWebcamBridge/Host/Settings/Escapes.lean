import MobileWebcamBridge.Host.Settings.Ini

/-!
# A value is read as it was written

The reader of a value is followed character by character along what the writer puts; `Reads` is what
it has read so far.
-/

set_option autoImplicit false

namespace MobileWebcamBridge
namespace HostSettings

open Text Unicode HostQuality

theorem isHexDigit_of_mem_toDigits {n : ℕ} {c : Char} (hc : c ∈ Nat.toDigits 16 n) :
    isHexDigit c = true := by
  obtain ⟨d, hd⟩ := digit_of_mem_toDigits (by decide) (by decide) hc
  rw [isHexDigit, hd]
  rfl

/-- The digits of a character are read as the character. -/
theorem hexChar_toDigits (c : Char) : hexChar (Nat.toDigits 16 c.toNat) = .ok c := by
  have hlt : c.toNat < 2 ^ 32 := c.val.toNat_lt
  have hvalid : c.toNat.isValidChar := c.valid
  rw [hexChar, if_neg Nat.toDigits_ne_nil, fromDigits_toDigits (by decide) (by decide)]
  dsimp only
  rw [if_neg (by omega), if_pos hvalid, ofNat_toNat]

/-- The reader is inside the quotes and has read `value`; after a hexadecimal escape the last
character is still pending. -/
def Reads (s : Scan) (escapeNextHex : Bool) (value : List Char) : Prop :=
  s.quoted = true ∧
    if escapeNextHex then ∃ digits c, s.pending = .hex digits ∧ hexChar digits = .ok c ∧
      s.result ++ [c] = value
    else s.pending = .none ∧ s.result = value

variable {s : Scan} {b : Bool} {value : List Char} {c : Char}

/-- A character that cannot prolong the escape is read outside it. -/
theorem Reads.next (h : Reads s b value) (hc : b = true → isHexDigit c = false) :
    s.next c = .ok (Scan.plain ⟨value, true, .none⟩ c) := by
  obtain ⟨result, quoted, pending⟩ := s
  obtain ⟨hquoted, hpending⟩ := h
  cases b with
  | false =>
    obtain ⟨hnone, hresult⟩ := hpending
    dsimp only at hquoted hnone hresult
    subst hquoted hnone hresult
    rfl
  | true =>
    obtain ⟨digits, d, hhex, hchar, hresult⟩ := hpending
    dsimp only at hquoted hhex hresult
    subst hquoted hhex
    rw [Scan.next]
    dsimp only
    rw [if_neg (by rw [hc rfl]; decide), Scan.flush]
    dsimp only
    rw [hchar]
    dsimp only
    rw [hresult]

/-- The digits of an escape are collected. -/
theorem foldlM_digits {digits : List Char} (hdigits : ∀ c ∈ digits, isHexDigit c = true)
    (before : List Char) :
    digits.foldlM Scan.next ⟨value, true, .hex before⟩ =
      (.ok ⟨value, true, .hex (before ++ digits)⟩ : Result Scan) := by
  induction digits generalizing before with
  | nil =>
    rw [List.append_nil]
    rfl
  | cons c digits ih =>
    obtain ⟨hc, hdigits⟩ := List.forall_mem_cons.mp hdigits
    have hnext :
        Scan.next ⟨value, true, .hex before⟩ c = .ok ⟨value, true, .hex (before ++ [c])⟩ := by
      rw [Scan.next]
      exact if_pos hc
    rw [List.foldlM_cons, hnext]
    show digits.foldlM Scan.next _ = _
    rw [ih hdigits, List.append_assoc]
    rfl

/-- An escape of one letter is read as the character it stands for. -/
theorem Scan.next_letter {s : Scan} {x d : Char} (hpending : s.pending = .escape) (hne : x ≠ 'x')
    (hx : letter x = some d) :
    s.next x = .ok { s with result := s.result ++ [d], pending := .none } := by
  unfold Scan.next
  rw [hpending]
  dsimp only
  rw [if_neg hne, hx]

/-- The reader follows the writer over a whole value. -/
theorem Reads.encodeChars (h : Reads s b value) (cs : List Char) :
    ∃ s' b', (encodeChars b cs).foldlM Scan.next s = .ok s' ∧ Reads s' b' (value ++ cs) := by
  induction cs generalizing s b value with
  | nil =>
    rw [List.append_nil]
    exact ⟨s, b, rfl, h⟩
  | cons c cs ih =>
    -- an escape of one letter
    have hletter {x d : Char} (hx : letter x = some d) (hne : x ≠ 'x') :
        ∃ s' b', ('\\' :: x :: HostSettings.encodeChars false cs).foldlM Scan.next s = .ok s' ∧
          Reads s' b' (value ++ d :: cs) := by
      have hbackslash := h.next (c := '\\') fun _ => by decide
      have hread : Scan.next (Scan.plain ⟨value, true, .none⟩ '\\') x =
          .ok ⟨value ++ [d], true, .none⟩ :=
        Scan.next_letter rfl hne hx
      obtain ⟨s', b', hfold, hreads⟩ := ih (s := ⟨value ++ [d], true, .none⟩) (b := false)
        ⟨rfl, rfl, rfl⟩
      refine ⟨s', b', ?_, by simpa using hreads⟩
      rw [List.foldlM_cons, hbackslash]
      show List.foldlM Scan.next _ _ = _
      rw [List.foldlM_cons, hread]
      exact hfold
    rw [HostSettings.encodeChars]
    split
    · next hc =>
      rcases hc with rfl | rfl
      · exact hletter rfl (by decide)
      · exact hletter rfl (by decide)
    split
    · next hc =>
      subst hc
      exact hletter rfl (by decide)
    split
    · next hc =>
      subst hc
      exact hletter rfl (by decide)
    split
    · -- a hexadecimal escape
      have hbackslash := h.next (c := '\\') fun _ => by decide
      have hx : Scan.next (Scan.plain ⟨value, true, .none⟩ '\\') 'x' = .ok ⟨value, true, .hex []⟩ :=
        rfl
      have hescaped : Reads ⟨value, true, .hex (Nat.toDigits 16 c.toNat)⟩ true (value ++ [c]) :=
        ⟨rfl, _, c, rfl, hexChar_toDigits c, rfl⟩
      obtain ⟨s', b', hfold, hreads⟩ := ih hescaped
      refine ⟨s', b', ?_, by simpa using hreads⟩
      rw [List.foldlM_cons, hbackslash]
      show List.foldlM Scan.next _ _ = _
      rw [List.foldlM_cons, hx]
      show List.foldlM Scan.next _ _ = _
      rw [List.foldlM_append, foldlM_digits (fun c hc => isHexDigit_of_mem_toDigits hc),
        List.nil_append]
      exact hfold
    · next hquote _ _ hplain =>
      rw [not_or] at hquote hplain
      have hnext := h.next (c := c) fun hb => by
        have := hplain.2
        rw [not_and] at this
        exact Bool.eq_false_iff.mpr (this hb)
      have hpushed : Scan.plain ⟨value, true, .none⟩ c = ⟨value ++ [c], true, .none⟩ := by
        rw [Scan.plain, if_neg hquote.2, if_neg hquote.1]
      obtain ⟨s', b', hfold, hreads⟩ := ih (s := ⟨value ++ [c], true, .none⟩) (b := false)
        ⟨rfl, rfl, rfl⟩
      refine ⟨s', b', ?_, by simpa using hreads⟩
      rw [List.foldlM_cons, hnext, hpushed]
      exact hfold

/-- A value is read as it was written. -/
theorem decodeIni_encodeIni (v : List Char) : decodeIni (encodeIni v) = .ok v := by
  have hscan (w : List Char) : ('"' :: (encodeChars false w ++ ['"'])).foldlM Scan.next
      ⟨[], false, .none⟩ = (.ok ⟨w, false, .none⟩ : Result Scan) := by
    have hstart : Reads ⟨[], true, .none⟩ false [] := ⟨rfl, rfl, rfl⟩
    obtain ⟨s', b', hfold, hreads⟩ := hstart.encodeChars w
    have hclose : s'.next '"' = .ok ⟨w, false, .none⟩ := hreads.next fun _ => by decide
    rw [List.foldlM_cons]
    show List.foldlM Scan.next ⟨[], true, .none⟩ _ = _
    rw [List.foldlM_append, hfold]
    show List.foldlM Scan.next _ _ = _
    rw [List.foldlM_cons, hclose]
    rfl
  rw [encodeIni, decodeIni, hscan]
  show Scan.finish _ = _
  -- the sign that was doubled is dropped
  cases v with
  | nil => rfl
  | cons c cs =>
    by_cases hc : c = '@'
    · subst hc
      rfl
    have hhead : ¬(c :: cs).head? = some '@' := by simpa using hc
    rw [if_neg hhead, Scan.finish, if_neg (Pending.noConfusion)]
    dsimp only [Scan.flush]
    rw [if_neg Bool.false_ne_true]
    split
    · next heq => exact absurd (List.cons.inj heq).1 hc
    · next heq => exact absurd (List.cons.inj heq).1 hc
    · rfl

/-- What is written of a value stays on its line. -/
theorem not_mem_encodeChars (b : Bool) (cs : List Char) : '\n' ∉ encodeChars b cs := by
  induction cs generalizing b with
  | nil => exact List.not_mem_nil
  | cons c cs ih =>
    have hdigits : '\n' ∉ Nat.toDigits 16 c.toNat := fun hmem =>
      absurd (isHexDigit_of_mem_toDigits hmem) (by decide)
    rw [HostSettings.encodeChars]
    split
    · next hc =>
      rcases hc with rfl | rfl
      · simpa using ih false
      · simpa using ih false
    split
    · simpa using ih false
    split
    · simpa using ih false
    split
    · simpa [hdigits] using ih true
    · next hn _ _ =>
      simpa [Ne.symm hn] using ih false

/-- A written value has no line feed. -/
theorem not_mem_encodeIni (v : List Char) : '\n' ∉ encodeIni v := by
  simp [encodeIni, not_mem_encodeChars]

end HostSettings
end MobileWebcamBridge
