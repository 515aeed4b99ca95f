import Mathlib.Data.Nat.Bitwise
import MobileWebcamBridge.Lib.Der
import MobileWebcamBridge.Phone.ClientAuthorization

/-!
# `rawSignatureToDer`: the signature of the wire as the platform's verifier reads it

The wire carries `r` and `s` in 32 bytes each; the verifier reads a DER SEQUENCE of two INTEGERs.
`rawSignatureToDer_canonical` says that it reads back both halves, from the only encoding they
have, and that the halves determine the encoding.
-/

set_option autoImplicit false

namespace MobileWebcamBridge
namespace ClientAuthorization

open Bytes Wire

/-- `first` moves past the zero bytes, the last byte apart. -/
def magnitude : List UInt8 → List UInt8
  | b :: c :: half => if b = 0 then magnitude (c :: half) else b :: c :: half
  | half => half

/-- The content of `integer`: a zero in front of a set top bit. -/
def body (half : List UInt8) : List UInt8 :=
  if (magnitude half).headD 0 &&& 0x80 ≠ 0 then 0 :: magnitude half else magnitude half

/-- One half of a signature as a DER integer. -/
def integer (half : List UInt8) : List UInt8 :=
  [0x02, UInt8.ofNat (body half).length] ++ body half

/-- `none` is the failed `require` on the size. -/
def rawSignatureToDer (signature : List UInt8) : Option (List UInt8) :=
  if signature.length = SIGNATURE_BYTES then
    let contents := integer (slice signature 0 32) ++ integer (slice signature 32 64)
    some ([0x30, UInt8.ofNat contents.length] ++ contents)
  else none

variable {half signature : List UInt8}

/-! ## One half -/

/-- Leading zeros do not count. -/
theorem ofBE_magnitude (half : List UInt8) : ofBE (magnitude half) = ofBE half := by
  fun_induction magnitude half with
  | case1 c half ih =>
    rw [ih, ofBE_cons 0]
    simp
  | case2 => rfl
  | case3 => rfl

theorem length_magnitude_le (half : List UInt8) : (magnitude half).length ≤ half.length := by
  fun_induction magnitude half with
  | case1 c half ih => exact Nat.le_succ_of_le ih
  | case2 => exact Nat.le_refl _
  | case3 => exact Nat.le_refl _

/-- One byte is left, or the first is not zero. -/
theorem magnitude_cases (h : half ≠ []) :
    (∃ b, magnitude half = [b]) ∨ ∃ b c rest, magnitude half = b :: c :: rest ∧ b ≠ 0 := by
  fun_induction magnitude half with
  | case1 c half ih => exact ih (List.cons_ne_nil _ _)
  | case2 b c half hb => exact .inr ⟨b, c, half, rfl, hb⟩
  | case3 half hshort =>
    cases half with
    | nil => exact absurd rfl h
    | cons b rest =>
      cases rest with
      | nil => exact .inl ⟨b, rfl⟩
      | cons c rest => exact absurd rfl (hshort b c rest)

/-- The top bit of a byte. -/
theorem top_bit (b : UInt8) : b &&& 0x80 ≠ 0 ↔ 0x80 ≤ b := by
  have hand : (b &&& 0x80).toNat = (b.toNat.testBit 7).toNat * 128 := by
    rw [UInt8.toNat_and]
    exact Nat.and_two_pow b.toNat 7
  have hbit : b.toNat.testBit 7 = decide (128 ≤ b.toNat) := by
    have hlt := b.toNat_lt
    rw [Nat.testBit_eq_decide_div_mod_eq, decide_eq_decide]
    omega
  rw [hbit] at hand
  rw [ne_eq, ← UInt8.toNat_inj, hand]
  show ¬_ = 0 ↔ 128 ≤ b.toNat
  by_cases hle : 128 ≤ b.toNat <;> simp [hle]

/-- At most one byte more. -/
theorem length_body_le (half : List UInt8) : (body half).length ≤ half.length + 1 := by
  have hle := length_magnitude_le half
  unfold body
  split
  · rw [List.length_cons]
    omega
  · omega

/-- What is left of the half, with a zero in front where its top bit is set. -/
theorem body_cons {b : UInt8} {rest : List UInt8} (h : magnitude half = b :: rest) :
    (body half = 0 :: b :: rest ∧ 0x80 ≤ b) ∨ (body half = b :: rest ∧ b < 0x80) := by
  unfold body
  rw [h]
  split
  · next hbit => exact .inl ⟨rfl, (top_bit b).mp hbit⟩
  · next hbit =>
    rw [top_bit, UInt8.not_le] at hbit
    exact .inr ⟨rfl, hbit⟩

/-- The content is minimal, and it is the half as a number without a sign. -/
theorem body_spec (h : half ≠ []) :
    Der.Minimal (body half) ∧ Der.twosComplement (body half) = ofBE half := by
  rw [← ofBE_magnitude half]
  rcases magnitude_cases h with ⟨b, hone⟩ | ⟨b, c, rest, hmore, hb⟩
  · rw [hone]
    rcases body_cons hone with ⟨hbody, hbit⟩ | ⟨hbody, hbit⟩
    · rw [hbody, Der.twosComplement_cons (by decide), ofBE_cons 0]
      refine ⟨⟨fun hsmall => ?_, fun hones => absurd hones.1 (by decide)⟩, by simp⟩
      exact UInt8.not_lt.mpr hbit hsmall.2
    · rw [hbody, Der.twosComplement_cons hbit]
      exact ⟨trivial, rfl⟩
  · rw [hmore]
    rcases body_cons hmore with ⟨hbody, hbit⟩ | ⟨hbody, hbit⟩
    · rw [hbody, Der.twosComplement_cons (by decide), ofBE_cons 0]
      refine ⟨⟨fun hsmall => ?_, fun hones => absurd hones.1 (by decide)⟩, by simp⟩
      exact UInt8.not_lt.mpr hbit hsmall.2
    · rw [hbody, Der.twosComplement_cons hbit]
      refine ⟨⟨fun hzero => hb hzero.1, fun hones => ?_⟩, rfl⟩
      rw [hones.1] at hbit
      exact absurd hbit (by decide)

/-! ## Both halves -/

/-- A half is a DER integer. -/
theorem integer_eq (half : List UInt8) : integer half = Der.element 0x02 (body half) := rfl

theorem length_integer_le (half : List UInt8) : (integer half).length ≤ half.length + 3 := by
  have hle := length_body_le half
  show (body half).length + 1 + 1 ≤ _
  omega

/-- The verifier reads the halves back as numbers without a sign. -/
theorem readPair_rawSignatureToDer (h : signature.length = SIGNATURE_BYTES) :
    ∃ der, rawSignatureToDer signature = some der ∧
      Der.readPair der =
        some ((ofBE (slice signature 0 32) : ℤ), (ofBE (slice signature 32 64) : ℤ)) := by
  have hlen : signature.length = 64 := h
  have hr : (slice signature 0 32).length = 32 := length_slice (by omega)
  have hs : (slice signature 32 64).length = 32 := length_slice (by omega)
  have hrne : slice signature 0 32 ≠ [] := List.ne_nil_of_length_pos (by omega)
  have hsne : slice signature 32 64 ≠ [] := List.ne_nil_of_length_pos (by omega)
  obtain ⟨hrmin, hrval⟩ := body_spec hrne
  obtain ⟨hsmin, hsval⟩ := body_spec hsne
  have hrbody := length_body_le (slice signature 0 32)
  have hsbody := length_body_le (slice signature 32 64)
  have hrint := length_integer_le (slice signature 0 32)
  have hsint := length_integer_le (slice signature 32 64)
  refine ⟨_, if_pos h, ?_⟩
  rw [← hrval, ← hsval]
  apply Der.readPair_element (by omega) (by omega) _ hrmin hsmin
  rw [← integer_eq, ← integer_eq, List.length_append]
  omega

/-- The encoding of a signature is the one encoding of its two numbers, and no other signature has
it. -/
theorem rawSignatureToDer_canonical (h : signature.length = SIGNATURE_BYTES) :
    ∃ der, rawSignatureToDer signature = some der ∧
      Der.readPair der =
        some ((ofBE (slice signature 0 32) : ℤ), (ofBE (slice signature 32 64) : ℤ)) ∧
      (∀ other, Der.readPair other = Der.readPair der → other = der) ∧
      ∀ other, rawSignatureToDer other = some der → other = signature := by
  obtain ⟨der, hder, hread⟩ := readPair_rawSignatureToDer h
  refine ⟨der, hder, hread, fun other hother => ?_, fun other hother => ?_⟩
  · exact Der.readPair_unique (hother.trans hread) hread
  · have hlen : other.length = SIGNATURE_BYTES := by
      by_contra hlen
      rw [rawSignatureToDer, if_neg hlen] at hother
      cases hother
    obtain ⟨der', hder', hread'⟩ := readPair_rawSignatureToDer hlen
    obtain rfl := Option.some.inj (hder'.symm.trans hother)
    rw [hread] at hread'
    obtain ⟨hr, hs⟩ := Prod.mk.inj (Option.some.inj hread')
    have h64 : signature.length = 64 := h
    have h64' : other.length = 64 := hlen
    have hfirst : slice other 0 32 = slice signature 0 32 := by
      apply ofBE_inj
      · rw [length_slice (by omega), length_slice (by omega)]
      · exact_mod_cast hr.symm
    have hsecond : slice other 32 64 = slice signature 32 64 := by
      apply ofBE_inj
      · rw [length_slice (by omega), length_slice (by omega)]
      · exact_mod_cast hs.symm
    rw [← slice_full h64', ← slice_append_slice (b := 32) (by omega) (by omega), hfirst, hsecond,
      slice_append_slice (by omega) (by omega), slice_full h64]

/-- `r` with zeros in front and a set top bit behind them, and `s` zero. -/
def sampleSignature : List UInt8 := List.replicate 30 0 ++ [0x80, 1] ++ List.replicate 32 0

/-- A signature with a high bit and a zero. -/
theorem rawSignatureToDer_sample :
    ∃ der, rawSignatureToDer sampleSignature = some der ∧
      der = [0x30, 8, 0x02, 3, 0, 0x80, 1, 0x02, 1, 0] ∧ Der.readPair der = some (0x8001, 0) := by
  obtain ⟨der, hder, hread, -⟩ :=
    rawSignatureToDer_canonical (show sampleSignature.length = SIGNATURE_BYTES by decide)
  have hvalue : rawSignatureToDer sampleSignature =
      some [0x30, 8, 0x02, 3, 0, 0x80, 1, 0x02, 1, 0] := by decide
  refine ⟨der, hder, Option.some.inj (hder.symm.trans hvalue), ?_⟩
  rw [hread]
  decide

end ClientAuthorization
end MobileWebcamBridge
