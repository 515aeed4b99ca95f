import MobileWebcamBridge.Host.Wire
import MobileWebcamBridge.Lib.Text

/-!
# `identity.rs`: this PC's key and its stored text
-/

set_option autoImplicit false

namespace MobileWebcamBridge
namespace HostIdentity

open Text Unicode

/-- The parts of `ring` and `sha2` the module calls. -/
structure Crypto where
  /-- `EcdsaKeyPair::from_pkcs8` and the public point of the pair. -/
  publicKey : List UInt8 → Option (List UInt8)
  sha256 : List UInt8 → List UInt8
  /-- The encoding of a P-256 pair is a fixed template around the key. -/
  short : ∀ der key, publicKey der = some key → der.length ≤ 2048

/-- The length of a client ID. -/
def CLIENT_ID_BYTES : ℕ := 16

/-- The identifier is derived, never chosen. -/
def clientIdOf (C : Crypto) (publicKey : List UInt8) : List UInt8 :=
  (C.sha256 publicKey).take CLIENT_ID_BYTES

/-- A key pair and the ID it gives the PC. -/
structure Identity (C : Crypto) where
  privateKeyDer : List UInt8
  publicKey : List UInt8
  clientId : List UInt8
  parses : C.publicKey privateKeyDer = some publicKey
  derived : clientId = clientIdOf C publicKey
deriving DecidableEq

/-- `{byte:02x}` of every byte. -/
def hex (bytes : List UInt8) : List Char :=
  bytes.flatMap fun byte => [Nat.digitChar (byte.toNat / 16), Nat.digitChar (byte.toNat % 16)]

/-- A digit of either case. -/
def isHexDigit (c : Char) : Bool := (digit 16 c).isSome

/-- Two digits a byte. -/
def decodePairs : List Char → Option (List UInt8)
  | [] => some []
  | high :: low :: cs =>
    match digit 16 high, digit 16 low, decodePairs cs with
    | some h, some l, some bytes => some (UInt8.ofNat (h * 16 + l) :: bytes)
    | _, _, _ => none
  | [_] => none

/-- The bytes of a hexadecimal text, with white space around it. -/
def decodeHex (value : List Char) : Option (List UInt8) :=
  let value := trim HostWire.isWhitespace value
  if (utf8 value).length % 2 ≠ 0 ∨ value.all isHexDigit = false then none else decodePairs value

variable {C : Crypto}

namespace Identity

/-- The identity of a private key that parses. -/
def fromDer (C : Crypto) (der : List UInt8) : Option (Identity C) :=
  match h : C.publicKey der with
  | none => none
  | some publicKey => some ⟨der, publicKey, clientIdOf C publicKey, h, rfl⟩

/-- The identity of a stored text. -/
def fromHex (C : Crypto) (value : List Char) : Option (Identity C) :=
  (decodeHex value).bind (fromDer C)

/-- The text that is stored. -/
def toHex (identity : Identity C) : List Char := hex identity.privateKeyDer

/-- A key is what its encoding parses to. -/
theorem fromDer_privateKeyDer (identity : Identity C) :
    fromDer C identity.privateKeyDer = some identity := by
  obtain ⟨der, publicKey, clientId, hparses, rfl⟩ := identity
  unfold fromDer
  split
  · next h => exact absurd (h.symm.trans hparses) (by simp)
  · next key h =>
    obtain rfl : key = publicKey := Option.some.inj (h.symm.trans hparses)
    rfl

end Identity

/-! ## The text of a key -/

theorem digit_high (byte : UInt8) :
    digit 16 (Nat.digitChar (byte.toNat / 16)) = some (byte.toNat / 16) := by
  have := byte.toNat_lt
  exact digit_digitChar (by omega) (by decide)

theorem digit_low (byte : UInt8) :
    digit 16 (Nat.digitChar (byte.toNat % 16)) = some (byte.toNat % 16) :=
  digit_digitChar (by omega) (by decide)

/-- Written digits are hexadecimal. -/
theorem isHexDigit_of_mem_hex {bytes : List UInt8} {c : Char} (h : c ∈ hex bytes) :
    isHexDigit c = true := by
  obtain ⟨byte, -, hc⟩ := List.mem_flatMap.mp h
  rcases List.mem_cons.mp hc with rfl | hc
  · rw [isHexDigit, digit_high]
    rfl
  · obtain rfl := List.mem_singleton.mp hc
    rw [isHexDigit, digit_low]
    rfl

/-- Two digits for each byte. -/
theorem length_hex (bytes : List UInt8) : (hex bytes).length = 2 * bytes.length := by
  induction bytes with
  | nil => rfl
  | cons byte bytes ih =>
    show (hex bytes).length + 1 + 1 = 2 * (bytes.length + 1)
    omega

theorem length_utf8_hex (bytes : List UInt8) : (utf8 (hex bytes)).length = 2 * bytes.length := by
  rw [length_utf8_of_ascii, length_hex]
  intro c hc
  have := range_of_digit (isHexDigit_of_mem_hex hc)
  omega

/-- The digits of some bytes are read back. -/
theorem decodePairs_hex (bytes : List UInt8) : decodePairs (hex bytes) = some bytes := by
  induction bytes with
  | nil => rfl
  | cons byte bytes ih =>
    show decodePairs (Nat.digitChar (byte.toNat / 16) :: Nat.digitChar (byte.toNat % 16) ::
      hex bytes) = _
    rw [decodePairs, digit_high, digit_low, ih]
    dsimp only
    rw [Nat.div_add_mod', UInt8.ofNat_toNat]

/-- The bytes are read back. -/
theorem decodeHex_hex (bytes : List UInt8) : decodeHex (hex bytes) = some bytes := by
  have hspace : ∀ c ∈ hex bytes, HostWire.isWhitespace c = false := by
    intro c hc
    have hrange := range_of_digit (isHexDigit_of_mem_hex hc)
    rw [HostWire.isWhitespace, decide_eq_false_iff_not]
    omega
  have htrim : trim HostWire.isWhitespace (hex bytes) = hex bytes := by
    apply trim_of_ends
    · intro c hc
      exact hspace c (List.mem_of_mem_head? hc)
    · intro c hc
      exact hspace c (List.mem_of_getLast? hc)
  have hdigits : (hex bytes).all isHexDigit = true :=
    List.all_eq_true.mpr fun _ hc => isHexDigit_of_mem_hex hc
  have heven : (utf8 (hex bytes)).length % 2 = 0 := by
    rw [length_utf8_hex]
    omega
  rw [decodeHex, htrim, heven, hdigits, if_neg (by simp)]
  exact decodePairs_hex bytes

/-- A stored key is read as the key. -/
theorem Identity.fromHex_toHex (identity : Identity C) :
    fromHex C identity.toHex = some identity := by
  rw [fromHex, toHex, decodeHex_hex]
  exact identity.fromDer_privateKeyDer

/-- A stored key is short enough to be read again. -/
theorem Identity.length_toHex (identity : Identity C) : (utf8 identity.toHex).length ≤ 4096 := by
  have := C.short _ _ identity.parses
  rw [toHex, length_utf8_hex]
  omega

end HostIdentity
end MobileWebcamBridge
