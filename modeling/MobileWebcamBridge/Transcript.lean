import MobileWebcamBridge.Host.Wire.RoundTrip
import MobileWebcamBridge.Phone.WireCodec

/-!
# The signed transcript

What a PC signs and a phone verifies: a domain tag, fixed-length fields, and a label behind its own
length. Both sides build it from the same five inputs, the PC with a label of scalar values and the
phone with one of UTF-16 units.
-/

set_option autoImplicit false

namespace MobileWebcamBridge

open Unicode

/-- The inputs of `client_auth_message` and `clientAuthMessage`. -/
structure Transcript (Transport Label : Type) where
  transport : Transport
  phoneBinding : List UInt8
  nonce : List UInt8
  publicKey : List UInt8
  label : Label

namespace Transcript

variable (unsafeScalar : Char → Bool) (P : Platform)

/-- What the PC signs. -/
def hostMessage (i : Transcript UInt8 (List Char)) : HostWire.Result (List UInt8) :=
  HostWire.clientAuthMessage unsafeScalar i.transport i.phoneBinding i.nonce i.publicKey i.label

/-- What the phone verifies. -/
def phoneMessage (i : Transcript ℤ (List UInt16)) : Option (List UInt8) :=
  WireCodec.clientAuthMessage P i.transport i.phoneBinding i.nonce i.publicKey i.label

/-- The same inputs on the phone: Kotlin's `Int` and `String`. -/
def onPhone (i : Transcript UInt8 (List Char)) : Transcript ℤ (List UInt16) where
  transport := i.transport.toNat
  phoneBinding := i.phoneBinding
  nonce := i.nonce
  publicKey := i.publicKey
  label := utf16 i.label

/-- The transcript without the checks. -/
def bytes (i : Transcript UInt8 (List UInt8)) : List UInt8 :=
  HostWire.authDomain ++ ([i.transport] ++ (i.phoneBinding ++ (i.nonce ++ (i.publicKey ++
    ([UInt8.ofNat i.label.length] ++ i.label)))))

/-- The lengths every accepted input has. -/
structure Sized (i : Transcript UInt8 (List UInt8)) : Prop where
  phoneBinding : i.phoneBinding.length = 32
  nonce : i.nonce.length = 32
  publicKey : i.publicKey.length = 65

variable {unsafeScalar P}

/-- Every field but the label has one length, and the label is all that follows its own. -/
theorem bytes_injective {i j : Transcript UInt8 (List UInt8)} (hi : i.Sized) (hj : j.Sized)
    (h : i.bytes = j.bytes) : i = j := by
  obtain ⟨-, h⟩ := List.append_inj h rfl
  obtain ⟨htransport, h⟩ := List.append_inj h rfl
  obtain ⟨hbinding, h⟩ := List.append_inj h (hi.phoneBinding.trans hj.phoneBinding.symm)
  obtain ⟨hnonce, h⟩ := List.append_inj h (hi.nonce.trans hj.nonce.symm)
  obtain ⟨hkey, h⟩ := List.append_inj h (hi.publicKey.trans hj.publicKey.symm)
  obtain ⟨-, hlabel⟩ := List.append_inj h rfl
  cases i
  cases j
  simp_all

/-- The PC's inputs, its label as the bytes it signs. -/
def hostText (i : Transcript UInt8 (List Char)) : Transcript UInt8 (List UInt8) :=
  { i with label := utf8 i.label }

theorem hostMessage_ok {i : Transcript UInt8 (List Char)} {m : List UInt8}
    (h : i.hostMessage unsafeScalar = .ok m) :
    HostWire.validTransport i.transport = true ∧ i.hostText.Sized ∧ m = i.hostText.bytes := by
  unfold hostMessage HostWire.clientAuthMessage at h
  split at h
  · cases h
  · next hok =>
    simp only [Bool.or_eq_true, Bool.not_eq_true', bne_iff_ne, ne_eq, not_or, not_not,
      Bool.not_eq_false, HostWire.NONCE_BYTES, HostWire.CLIENT_PUBLIC_KEY_BYTES] at hok
    obtain ⟨⟨⟨⟨⟨ht, hp⟩, hn⟩, hk⟩, -⟩, -⟩ := hok
    exact ⟨ht, ⟨HostWire.validPhoneBinding_length hp, hn, hk⟩, (Except.ok.inj h).symm⟩

/-- The phone's inputs, its label as the bytes it verifies. -/
def phoneText (i : Transcript ℤ (List UInt16)) : Transcript UInt8 (List UInt8) :=
  { i with transport := UInt8.ofInt i.transport, label := WireCodec.labelText i.label }

theorem phoneMessage_some {i : Transcript ℤ (List UInt16)} {m : List UInt8}
    (h : i.phoneMessage P = some m) :
    (i.transport = 0 ∨ i.transport = 1) ∧ i.phoneText.Sized ∧
      WireCodec.strictLabel P (WireCodec.labelText i.label) = some i.label ∧
      m = i.phoneText.bytes := by
  unfold phoneMessage WireCodec.clientAuthMessage at h
  split at h
  · next hok =>
    obtain ⟨ht, hp, hn, hk, -, hl⟩ := hok
    simp only [WireCodec.requirePhoneBinding, Bool.and_eq_true, beq_iff_eq] at hp
    exact ⟨ht, ⟨hp.1, hn, hk⟩, hl, (Option.some.inj h).symm⟩
  · cases h

/-- A label that survives the strict decoder is well-formed text. -/
theorem strictLabel_eq {bytes : List UInt8} {label : List UInt16}
    (h : WireCodec.strictLabel P bytes = some label) :
    ∃ scalars, fromUtf8 bytes = some scalars ∧ label = utf16 scalars := by
  unfold WireCodec.strictLabel at h
  split at h
  · cases h
  · next scalars hs =>
    split at h
    · exact ⟨scalars, hs, (Option.some.inj h).symm⟩
    · cases h

theorem phoneMessage_injective {i j : Transcript ℤ (List UInt16)} {m : List UInt8}
    (hi : i.phoneMessage P = some m) (hj : j.phoneMessage P = some m) : i = j := by
  obtain ⟨hti, hsi, hli, hmi⟩ := phoneMessage_some hi
  obtain ⟨htj, hsj, hlj, hmj⟩ := phoneMessage_some hj
  have h := bytes_injective hsi hsj (hmi.symm.trans hmj)
  have htransport : UInt8.ofInt i.transport = UInt8.ofInt j.transport :=
    congrArg Transcript.transport h
  have hlabel : WireCodec.labelText i.label = WireCodec.labelText j.label :=
    congrArg Transcript.label h
  have ht : i.transport = j.transport := by
    rcases hti with hti | hti <;> rcases htj with htj | htj <;> rw [hti, htj] at htransport ⊢ <;>
      exact absurd htransport (by decide)
  -- the label is what the strict decoder makes of its own bytes
  have hl : i.label = j.label := by
    rw [hlabel, hlj] at hli
    exact (Option.some.inj hli).symm
  have hbinding : i.phoneBinding = j.phoneBinding :=
    congrArg (fun t : Transcript UInt8 (List UInt8) => t.phoneBinding) h
  have hnonce : i.nonce = j.nonce := congrArg (fun t : Transcript UInt8 (List UInt8) => t.nonce) h
  have hkey : i.publicKey = j.publicKey :=
    congrArg (fun t : Transcript UInt8 (List UInt8) => t.publicKey) h
  cases i
  cases j
  simp_all

/-- The bytes of a label are the same from scalar values and from units. -/
theorem labelText_utf16 (label : List Char) : WireCodec.labelText (utf16 label) = utf8 label := by
  rw [WireCodec.labelText, fromUtf16_utf16]

theorem phoneText_onPhone (i : Transcript UInt8 (List Char)) :
    i.onPhone.phoneText = i.hostText := by
  have htransport : UInt8.ofInt (i.transport.toNat : ℤ) = i.transport := by
    apply UInt8.toNat_inj.mp
    have hlt := i.transport.toNat_lt
    simp only [UInt8.ofInt, UInt8.toNat_ofNat']
    omega
  simp [phoneText, onPhone, hostText, htransport, labelText_utf16]

/-- Equal messages have equal inputs on either side, the phone accepts well-formed labels only, and
on inputs both sides accept they build the same message. -/
theorem unambiguous_and_shared (unsafeScalar : Char → Bool) (P : Platform) :
    (∀ (i j : Transcript UInt8 (List Char)) m, i.hostMessage unsafeScalar = .ok m →
      j.hostMessage unsafeScalar = .ok m → i = j) ∧
    (∀ (i j : Transcript ℤ (List UInt16)) m, i.phoneMessage P = some m →
      j.phoneMessage P = some m → i = j) ∧
    (∀ (i : Transcript ℤ (List UInt16)) m, i.phoneMessage P = some m →
      ∃ label, i.label = utf16 label) ∧
    ∀ (i : Transcript UInt8 (List Char)) m m', i.hostMessage unsafeScalar = .ok m →
      i.onPhone.phoneMessage P = some m' → m = m' := by
  refine ⟨fun i j m hi hj => ?_, fun i j m => phoneMessage_injective, fun i m hi => ?_,
    fun i m m' hi hi' => ?_⟩
  · obtain ⟨-, hsi, hmi⟩ := hostMessage_ok hi
    obtain ⟨-, hsj, hmj⟩ := hostMessage_ok hj
    have h := bytes_injective hsi hsj (hmi.symm.trans hmj)
    have hlabel : i.label = j.label := utf8_injective (congrArg Transcript.label h)
    cases i
    cases j
    simp_all [hostText]
  · obtain ⟨scalars, -, hl⟩ := strictLabel_eq (phoneMessage_some hi).2.2.1
    exact ⟨scalars, hl⟩
  · rw [(hostMessage_ok hi).2.2, (phoneMessage_some hi').2.2.2, phoneText_onPhone]

/-- Tables that tell apart what ASCII text needs. -/
def asciiTables : Platform where
  sha256 := id
  validPublicKey _ := true
  verify _ _ _ := true
  isWhitespace c := c == ' '
  scalarIsSafe c := decide (0x20 ≤ c.toNat)

/-- A PC on the cable, with a label that takes two bytes for one scalar value. -/
def overUsb : Transcript UInt8 (List Char) where
  transport := 0
  phoneBinding := List.replicate 32 0
  nonce := List.replicate 32 7
  publicKey := 4 :: List.replicate 64 9
  label := ['P', 'C', 'é']

/-- A transcript of the USB transport, built by both sides. -/
theorem unambiguous_and_shared_overUsb :
    ∃ m, overUsb.hostMessage (fun c => decide (c.toNat < 0x20)) = .ok m ∧
      overUsb.onPhone.phoneMessage asciiTables = some m := by
  have hhost :
      overUsb.hostMessage (fun c => decide (c.toNat < 0x20)) = .ok overUsb.hostText.bytes := by
    decide +kernel
  have hlabel : WireCodec.strictLabel asciiTables (WireCodec.labelText (utf16 overUsb.label)) =
      some (utf16 overUsb.label) := by
    rw [labelText_utf16, WireCodec.strictLabel, fromUtf8_utf8]
    decide
  have hphone :
      overUsb.onPhone.phoneMessage asciiTables = some overUsb.onPhone.phoneText.bytes := by
    unfold phoneMessage WireCodec.clientAuthMessage
    rw [if_pos ⟨.inl rfl, by decide, by decide, by decide, by decide, hlabel⟩]
    rfl
  have hshared := (unambiguous_and_shared (fun c => decide (c.toNat < 0x20)) asciiTables).2.2.2
  exact ⟨_, hhost, (hshared overUsb _ _ hhost hphone).symm ▸ hphone⟩

end Transcript
end MobileWebcamBridge
