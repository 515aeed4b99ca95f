import MobileWebcamBridge.Host.Wire

/-!
# The PC's codecs are inverse to each other

First the fields, then one section for each payload. An encoder's result is decoded to the value it
was made from (`RoundTrips`); where every byte is determined by the value, the decoder accepts
nothing but encodings (`Canonical`).
-/

set_option autoImplicit false

namespace MobileWebcamBridge
namespace HostWire

open Bytes Unicode

/-- An encoder and a decoder of one kind of payload. -/
structure Codec (α : Type) where
  encode : α → Result (List UInt8)
  decode : List UInt8 → Result α

namespace Codec

variable {α : Type} (k : Codec α)

/-- What is encoded is decoded to the same value. -/
def RoundTrips : Prop := ∀ v b, k.encode v = .ok b → k.decode b = .ok v

/-- The decoder accepts encodings only. -/
def Canonical : Prop := ∀ b v, k.decode b = .ok v → k.encode v = .ok b

/-- `Frame::new` accepts every encoding as the payload of the type. -/
def Framed (kind : UInt8) : Prop :=
  ∀ v b, k.encode v = .ok b → ∀ sequence, ∃ f, Frame.new kind sequence b = .ok f ∧ f.payload = b

end Codec

/-- The early length check passes whatever the decoder accepts. -/
def Sized {α : Type} (decode : List UInt8 → Result α) (kind : UInt8) : Prop :=
  ∀ b v, decode b = .ok v → ∀ h : Header, h.kind = kind → h.payloadLen.toNat = b.length →
    h.validatePayloadSize = .ok ()

/-! ## Fields -/

@[simp] theorem length_le16 (v : UInt16) : (le16 v).length = 2 := length_toLE ..
@[simp] theorem length_le32 (v : UInt32) : (le32 v).length = 4 := length_toLE ..
@[simp] theorem length_le64 (v : UInt64) : (le64 v).length = 8 := length_toLE ..

/-- Two bytes are read back. -/
@[simp] theorem u16_le16 (v : UInt16) : u16 (le16 v) = v := by
  rw [u16, le16, ofLE_toLE_of_lt v.toNat_lt, UInt16.ofNat_toNat]

/-- Four bytes are read back. -/
@[simp] theorem u32_le32 (v : UInt32) : u32 (le32 v) = v := by
  rw [u32, le32, ofLE_toLE_of_lt v.toNat_lt, UInt32.ofNat_toNat]

/-- Eight bytes are read back. -/
@[simp] theorem u64_le64 (v : UInt64) : u64 (le64 v) = v := by
  rw [u64, le64, ofLE_toLE_of_lt v.toNat_lt, UInt64.ofNat_toNat]

/-- Two bytes are those of the number they read as. -/
theorem le16_u16 {l : List UInt8} (h : l.length = 2) : le16 (u16 l) = l := by
  have hlt := ofLE_lt l
  rw [h] at hlt
  rw [le16, u16, UInt16.toNat_ofNat_of_lt' hlt, toLE_ofLE h]

/-- Four bytes are those of the number they read as. -/
theorem le32_u32 {l : List UInt8} (h : l.length = 4) : le32 (u32 l) = l := by
  have hlt := ofLE_lt l
  rw [h] at hlt
  rw [le32, u32, UInt32.toNat_ofNat_of_lt' hlt, toLE_ofLE h]

/-- Eight bytes are those of the number they read as. -/
theorem le64_u64 {l : List UInt8} (h : l.length = 8) : le64 (u64 l) = l := by
  have hlt := ofLE_lt l
  rw [h] at hlt
  rw [le64, u64, UInt64.toNat_ofNat_of_lt' hlt, toLE_ofLE h]

/-- A byte behind the first part is one of the second. -/
theorem byteAt_append_of_le {x y : List UInt8} {i : ℕ} (h : x.length ≤ i) :
    byteAt (x ++ y) i = byteAt y (i - x.length) := by
  simp [byteAt, List.getElem?_append_right h]

/-- A byte within the first part is one of it. -/
theorem byteAt_append_of_lt {x y : List UInt8} {i : ℕ} (h : i < x.length) :
    byteAt (x ++ y) i = byteAt x i := by
  simp [byteAt, List.getElem?_append_left h]

@[simp] theorem byteAt_cons_zero (v : UInt8) (l : List UInt8) : byteAt (v :: l) 0 = v := rfl

@[simp] theorem byteAt_cons_succ (v : UInt8) (l : List UInt8) (i : ℕ) :
    byteAt (v :: l) (i + 1) = byteAt l i := rfl

/-- A byte is a slice of length one. -/
theorem singleton_byteAt {l : List UInt8} {i : ℕ} (h : i < l.length) :
    [byteAt l i] = slice l i (i + 1) := by
  simp [byteAt, slice, List.take_one, h]

/-- Two neighbouring one-byte fields. -/
theorem pair_byteAt {l : List UInt8} {i : ℕ} (h : i + 1 < l.length) :
    [byteAt l i, byteAt l (i + 1)] = slice l i (i + 2) := by
  have happ : [byteAt l i, byteAt l (i + 1)] = [byteAt l i] ++ [byteAt l (i + 1)] := rfl
  rw [happ, singleton_byteAt (by omega), singleton_byteAt h]
  exact slice_append_slice (by omega) (by omega)

/-! ## Quality payloads -/

/-- A mode takes twelve bytes. -/
@[simp] theorem QualityMode.length_encode (mode : QualityMode) : mode.encode.length = 12 := by
  simp [QualityMode.encode]

/-- A mode is read back. -/
theorem QualityMode.decode_encode (mode : QualityMode) : QualityMode.decode mode.encode = mode := by
  simp [QualityMode.decode, QualityMode.encode, slice_append_of_le, slice_append_self, slice_full]

/-- Ten bytes, and twelve for each mode. -/
theorem Capabilities.length_bytes (c : Capabilities) :
    c.bytes.length = 10 + 12 * c.modes.length := by
  have hmodes : (c.modes.flatMap QualityMode.encode).length = 12 * c.modes.length := by
    induction c.modes with
    | nil => rfl
    | cons mode modes ih =>
      rw [List.flatMap_cons, List.length_append, ih, QualityMode.length_encode, List.length_cons,
        Nat.mul_succ, Nat.add_comm]
  simp only [Capabilities.bytes, List.length_append, List.length_cons, List.length_nil, length_le16,
    length_le32, hmodes]
  omega

/-- The codec of `QUALITY_CAPABILITIES`. -/
def Capabilities.codec : Codec Capabilities := ⟨Capabilities.encode, Capabilities.decode⟩

/-- An encoded list has at most 256 modes. -/
theorem Capabilities.encode_ok {c : Capabilities} {b : List UInt8} (h : c.encode = .ok b) :
    c.modes.length ≤ MAX_QUALITY_MODES ∧ b = c.bytes := by
  unfold Capabilities.encode at h
  split at h
  · cases h
  split at h
  · cases h
  · exact ⟨by omega, (Except.ok.inj h).symm⟩

/-- A capability list is read back. -/
theorem Capabilities.round_trips : Capabilities.codec.RoundTrips := by
  intro c b h
  obtain ⟨hmodes, rfl⟩ := Capabilities.encode_ok h
  have hlen := c.length_bytes
  have hmax : MAX_QUALITY_MODES = 256 := rfl
  have hcount : (u16 (slice c.bytes 8 10)).toNat = c.modes.length := by
    have hfield : slice c.bytes 8 10 = le16 (UInt16.ofNat c.modes.length) := by
      simp [Capabilities.bytes, slice_cons_succ, slice_append_of_le, slice_append_self]
    rw [hfield, u16_le16, UInt16.toNat_ofNat_of_lt']
    show c.modes.length < 65536
    omega
  have hdrop : c.bytes.drop 10 = c.modes.flatMap QualityMode.encode := by
    simp [Capabilities.bytes, List.drop_append, List.drop_eq_nil_of_le]
  have hchunks := chunks_flatMap QualityMode.length_encode (by decide) c.modes
  have hmap : (c.modes.map QualityMode.encode).map QualityMode.decode = c.modes := by
    simp [Function.comp_def, QualityMode.decode_encode]
  show Capabilities.decode c.bytes = .ok c
  unfold Capabilities.decode
  rw [if_neg (by omega)]
  simp only [hcount]
  rw [if_neg (by omega), if_neg (by simp [hlen, QUALITY_MODE_BYTES]; omega),
    if_neg (by simp [hlen, MAX_CONTROL_PAYLOAD]; omega)]
  simp only [hdrop, QUALITY_MODE_BYTES, hchunks, hmap]
  simp [Capabilities.bytes, slice_cons_succ, slice_append_of_le, slice_append_self, byteAt]

/-- The codec of `PREPARE_QUALITY`. -/
def PrepareQuality.codec : Codec PrepareQuality := ⟨fun p => .ok p.encode, PrepareQuality.decode⟩

theorem PrepareQuality.length_encode (p : PrepareQuality) : p.encode.length = 14 := by
  simp [PrepareQuality.encode]

/-- A request is read back. -/
theorem PrepareQuality.round_trips : PrepareQuality.codec.RoundTrips := by
  intro p b h
  obtain rfl := Except.ok.inj h
  show PrepareQuality.decode p.encode = .ok p
  rw [PrepareQuality.decode, if_neg (by rw [p.length_encode]; decide)]
  simp [PrepareQuality.encode, slice_append_of_le, slice_append_self]

/-- The codec of `QUALITY_RESULT`. -/
def QualityResult.codec : Codec QualityResult := ⟨fun r => .ok r.encode, QualityResult.decode⟩

theorem QualityResult.length_encode (r : QualityResult) : r.encode.length = 14 := by
  simp [QualityResult.encode]

/-- A verdict is read back. -/
theorem QualityResult.round_trips : QualityResult.codec.RoundTrips := by
  intro r b h
  obtain rfl := Except.ok.inj h
  show QualityResult.decode r.encode = .ok r
  rw [QualityResult.decode, if_neg (by rw [r.length_encode]; decide)]
  simp [QualityResult.encode, slice_cons_succ, slice_append_of_le, slice_append_self, byteAt]

/-- The codec of `PAUSED` and `COMMIT_QUALITY`. -/
def Epoch.codec : Codec Epoch := ⟨fun e => .ok e.encode, Epoch.decode⟩

theorem Epoch.length_encode (e : Epoch) : e.encode.length = 8 := by
  simp [Epoch.encode]

/-- A request's epoch is read back. -/
theorem Epoch.round_trips : Epoch.codec.RoundTrips := by
  intro e b h
  obtain rfl := Except.ok.inj h
  show Epoch.decode e.encode = .ok e
  rw [Epoch.decode, if_neg (by rw [e.length_encode]; decide)]
  simp [Epoch.encode, slice_append_of_le, slice_append_self, slice_full]

/-! ## Authorization payloads -/

/-- The codec of `CLIENT_CHALLENGE`. -/
def ClientChallenge.codec : Codec ClientChallenge :=
  ⟨ClientChallenge.encode, ClientChallenge.decode⟩

theorem validPhoneBinding_length {transport : UInt8} {binding : List UInt8}
    (h : validPhoneBinding transport binding = true) : binding.length = 32 := by
  simp only [validPhoneBinding, Bool.and_eq_true, beq_iff_eq] at h
  exact h.1

/-- An encoded challenge has its fields checked. -/
theorem ClientChallenge.encode_ok {c : ClientChallenge} {b : List UInt8} (h : c.encode = .ok b) :
    c.version = CLIENT_AUTH_VERSION ∧ validTransport c.transport = true ∧
      validPhoneBinding c.transport c.phoneBinding = true ∧ c.nonce.length = 32 ∧
      b = [c.version, c.transport] ++ (c.phoneBinding ++ c.nonce) := by
  unfold ClientChallenge.encode at h
  split at h
  · cases h
  split at h
  · cases h
  split at h
  · cases h
  split at h
  · cases h
  · next hv ht hp hn =>
    simp only [Bool.not_eq_true, Bool.not_eq_false', not_not] at hv ht hp hn
    exact ⟨hv, ht, hp, hn, (Except.ok.inj h).symm⟩

/-- A challenge is read back. -/
theorem ClientChallenge.round_trips : ClientChallenge.codec.RoundTrips := by
  intro c b h
  obtain ⟨hv, ht, hp, hn, rfl⟩ := ClientChallenge.encode_ok h
  have hlen := validPhoneBinding_length hp
  have hbinding : slice ([c.version, c.transport] ++ (c.phoneBinding ++ c.nonce)) 2 34 =
      c.phoneBinding := by
    rw [slice_append_of_le (by simp)]
    exact slice_append_self hlen
  have hnonce : ([c.version, c.transport] ++ (c.phoneBinding ++ c.nonce)).drop 34 = c.nonce := by
    simp [hlen]
  show ClientChallenge.decode _ = .ok c
  unfold ClientChallenge.decode
  rw [if_neg (by simp [hlen, hn, PHONE_BINDING_BYTES, NONCE_BYTES]), if_neg (by simp [hv, ht])]
  simp only [PHONE_BINDING_BYTES, Nat.reduceAdd, hbinding, hnonce]
  simp [hp]

/-- A challenge has one encoding. -/
theorem ClientChallenge.canonical : ClientChallenge.codec.Canonical := by
  intro b c h
  change ClientChallenge.decode b = .ok c at h
  show ClientChallenge.encode c = .ok b
  unfold ClientChallenge.decode at h
  split at h
  · cases h
  split at h
  · cases h
  split at h
  · cases h
  · next hlen hv hp =>
    obtain rfl := Except.ok.inj h
    simp only [not_not, PHONE_BINDING_BYTES, NONCE_BYTES, Nat.reduceAdd] at hlen
    simp only [Bool.or_eq_true, bne_iff_ne, ne_eq, Bool.not_eq_true', not_or, not_not,
      Bool.not_eq_false] at hv hp
    have hbytes : [byteAt b 0, byteAt b 1] ++
        (slice b 2 34 ++ b.drop 34) = b := by
      rw [pair_byteAt (i := 0) (by omega), ← List.append_assoc,
        slice_append_slice (by omega) (by omega)]
      simp [slice]
    unfold ClientChallenge.encode
    rw [if_neg (by simp [hv.1]), if_neg (by simp [hv.2]), if_neg (by simpa using hp),
      if_neg (by simp [hlen, NONCE_BYTES, PHONE_BINDING_BYTES])]
    exact congrArg Except.ok hbytes

/-- The codec of `CLIENT_AUTH_RESULT`. -/
def ClientAuthResult.codec : Codec ClientAuthResult :=
  ⟨ClientAuthResult.encode, ClientAuthResult.decode⟩

/-- An encoded outcome is valid. -/
theorem ClientAuthResult.encode_ok {r : ClientAuthResult} {b : List UInt8} (h : r.encode = .ok b) :
    r.valid = true ∧ b = [r.status, r.reason] ++ le32 r.expiresAtUnixSeconds := by
  unfold ClientAuthResult.encode at h
  split at h
  · next hv => exact ⟨hv, (Except.ok.inj h).symm⟩
  · cases h

/-- An outcome is read back. -/
theorem ClientAuthResult.round_trips : ClientAuthResult.codec.RoundTrips := by
  intro r b h
  obtain ⟨hv, rfl⟩ := ClientAuthResult.encode_ok h
  have hfield : slice ([r.status, r.reason] ++ le32 r.expiresAtUnixSeconds) 2 6 =
      le32 r.expiresAtUnixSeconds := by
    rw [slice_append_of_le (by simp)]
    exact slice_full (by simp)
  show ClientAuthResult.decode ([r.status, r.reason] ++ le32 r.expiresAtUnixSeconds) = .ok r
  unfold ClientAuthResult.decode
  rw [if_neg (by simp [ClientAuthResult.BYTES])]
  simp only [hfield, u32_le32]
  exact if_pos hv

/-- An outcome has one encoding. -/
theorem ClientAuthResult.canonical : ClientAuthResult.codec.Canonical := by
  intro b r h
  change ClientAuthResult.decode b = .ok r at h
  show ClientAuthResult.encode r = .ok b
  unfold ClientAuthResult.decode at h
  split at h
  · cases h
  · next hlen =>
    simp only [not_not, ClientAuthResult.BYTES] at hlen
    dsimp only at h
    split at h
    · next hv =>
      obtain rfl := Except.ok.inj h
      rw [ClientAuthResult.encode, if_pos hv, pair_byteAt (i := 0) (by omega),
        le32_u32 (length_slice (by omega)), slice_append_slice (by omega) (by omega),
        slice_full hlen]
    · cases h

section label

variable (unsafeScalar : Char → Bool)

/-- The codec of `CLIENT_AUTH`. -/
def ClientAuth.codec : Codec ClientAuth :=
  ⟨ClientAuth.encode unsafeScalar, ClientAuth.decode unsafeScalar⟩

variable {unsafeScalar}

/-- A label that is taken has at most 32 bytes. -/
theorem validLabel_length {label : List Char} (h : validLabel unsafeScalar label = true) :
    (utf8 label).length ≤ 32 := by
  simp only [validLabel, Bool.and_eq_true, decide_eq_true_eq] at h
  exact h.1.2

/-- An encoded proof has its fields checked. -/
theorem ClientAuth.encode_ok {a : ClientAuth} {b : List UInt8}
    (h : a.encode unsafeScalar = .ok b) :
    a.version = CLIENT_AUTH_VERSION ∧ a.publicKey.length = 65 ∧ byteAt a.publicKey 0 = 4 ∧
      a.signature.length = 64 ∧ validLabel unsafeScalar a.label = true ∧
      b = [a.version] ++ (a.publicKey ++ ([UInt8.ofNat (utf8 a.label).length] ++
        (utf8 a.label ++ a.signature))) := by
  unfold ClientAuth.encode at h
  split at h
  · cases h
  split at h
  · cases h
  split at h
  · cases h
  split at h
  · cases h
  split at h
  · cases h
  · next hv hk h4 hs hl =>
    simp only [Bool.not_eq_true, Bool.not_eq_false', not_not] at hv hk h4 hs hl
    exact ⟨hv, hk, h4, hs, hl, (Except.ok.inj h).symm⟩

/-- A proof is read back. -/
theorem ClientAuth.round_trips : (ClientAuth.codec unsafeScalar).RoundTrips := by
  intro a b h
  obtain ⟨hv, hk, h4, hs, hl, rfl⟩ := ClientAuth.encode_ok h
  have hlabel := validLabel_length hl
  have hcount : (UInt8.ofNat (utf8 a.label).length).toNat = (utf8 a.label).length := by
    rw [UInt8.toNat_ofNat_of_lt']
    show (utf8 a.label).length < 256
    omega
  have hbyte : byteAt ([a.version] ++ (a.publicKey ++ ([UInt8.ofNat (utf8 a.label).length] ++
      (utf8 a.label ++ a.signature)))) 66 = UInt8.ofNat (utf8 a.label).length := by
    simp [byteAt_append_of_le, hk]
  have hpoint : byteAt ([a.version] ++ (a.publicKey ++ ([UInt8.ofNat (utf8 a.label).length] ++
      (utf8 a.label ++ a.signature)))) 1 = 4 := by
    rw [byteAt_append_of_le (by simp), byteAt_append_of_lt (by simp [hk])]
    exact h4
  have hkey : slice ([a.version] ++ (a.publicKey ++ ([UInt8.ofNat (utf8 a.label).length] ++
      (utf8 a.label ++ a.signature)))) 1 66 = a.publicKey := by
    rw [slice_append_of_le (by simp)]
    exact slice_append_self hk
  have htext : slice ([a.version] ++ (a.publicKey ++ ([UInt8.ofNat (utf8 a.label).length] ++
      (utf8 a.label ++ a.signature)))) 67 (67 + (utf8 a.label).length) = utf8 a.label := by
    rw [slice_append_of_le (by simp), slice_append_of_le (by simp [hk]),
      slice_append_of_le (by simp [hk])]
    simp only [List.length_singleton, hk]
    have hzero : 67 - 1 - 65 - 1 = 0 := rfl
    rw [hzero, slice_append_self (by omega)]
  have hlen : ([a.version] ++ (a.publicKey ++ ([UInt8.ofNat (utf8 a.label).length] ++
      (utf8 a.label ++ a.signature)))).length = 131 + (utf8 a.label).length := by
    simp [hk, hs]
    omega
  have hsignature : ([a.version] ++ (a.publicKey ++ ([UInt8.ofNat (utf8 a.label).length] ++
      (utf8 a.label ++ a.signature)))).drop (131 + (utf8 a.label).length - 64) = a.signature := by
    have hat : 131 + (utf8 a.label).length - 64 =
        ([a.version] ++ (a.publicKey ++ ([UInt8.ofNat (utf8 a.label).length] ++
          utf8 a.label))).length := by
      simp [hk]
      omega
    rw [hat]
    have hassoc : [a.version] ++ (a.publicKey ++ ([UInt8.ofNat (utf8 a.label).length] ++
        (utf8 a.label ++ a.signature))) = ([a.version] ++ (a.publicKey ++
          ([UInt8.ofNat (utf8 a.label).length] ++ utf8 a.label))) ++ a.signature := by
      simp
    rw [hassoc, List.drop_left]
  show ClientAuth.decode unsafeScalar _ = .ok a
  unfold ClientAuth.decode
  simp only [CLIENT_AUTH_MIN_BYTES, CLIENT_AUTH_MAX_BYTES, CLIENT_PUBLIC_KEY_BYTES, SIGNATURE_BYTES,
    MAX_CLIENT_LABEL, Nat.reduceAdd, hbyte, hcount, hpoint, hkey, htext, hlen, hsignature,
    fromUtf8_utf8, hl]
  rw [if_neg (by omega), if_neg (by simp [hv]), if_neg (by omega), if_neg (by omega)]
  simp

/-- A proof has one encoding. -/
theorem ClientAuth.canonical : (ClientAuth.codec unsafeScalar).Canonical := by
  intro b a h
  change ClientAuth.decode unsafeScalar b = .ok a at h
  show ClientAuth.encode unsafeScalar a = .ok b
  unfold ClientAuth.decode at h
  dsimp only at h
  split at h
  · cases h
  split at h
  · cases h
  split at h
  · cases h
  split at h
  · cases h
  split at h
  · cases h
  split at h
  · cases h
  · next hbounds hv hcount hlen _ label htext hok =>
    obtain rfl := Except.ok.inj h
    simp only [not_not, CLIENT_AUTH_MIN_BYTES, CLIENT_PUBLIC_KEY_BYTES, SIGNATURE_BYTES,
      MAX_CLIENT_LABEL, Nat.reduceAdd] at hbounds hv hcount hlen htext ⊢
    simp only [Bool.or_eq_true, bne_iff_ne, ne_eq, Bool.not_eq_true', not_or, not_not,
      Bool.not_eq_false] at hok
    have hutf8 := utf8_of_fromUtf8 htext
    have hlabel : (utf8 label).length = (byteAt b 66).toNat := by
      rw [hutf8, length_slice (by omega)]
      omega
    have hkey : (slice b 1 66).length = CLIENT_PUBLIC_KEY_BYTES := length_slice (by omega)
    have hfour : byteAt (slice b 1 66) 0 = 4 := by
      rw [← hok.2]
      simp [byteAt, slice]
    have hsignature : (b.drop (b.length - 64)).length = SIGNATURE_BYTES := by
      rw [List.length_drop, SIGNATURE_BYTES]
      omega
    have hbytes : [byteAt b 0] ++ (slice b 1 66 ++ ([UInt8.ofNat (utf8 label).length] ++
        (utf8 label ++ b.drop (b.length - 64)))) = b := by
      have hend : b.length - 64 = 67 + (byteAt b 66).toNat := by omega
      rw [hlabel, UInt8.ofNat_toNat, hutf8, singleton_byteAt (by omega),
        singleton_byteAt (by omega),
        hend, ← List.append_assoc, ← List.append_assoc, ← List.append_assoc,
        slice_append_slice (by omega) (by omega), slice_append_slice (by omega) (by omega),
        slice_append_slice (by omega) (by omega)]
      simp [slice]
    unfold ClientAuth.encode
    rw [if_neg (not_not.mpr hv), if_neg (not_not.mpr hkey), if_neg (not_not.mpr hfour),
      if_neg (not_not.mpr hsignature), if_neg (by simp [hok.1])]
    exact congrArg Except.ok hbytes

end label

/-! ## Header and frame -/

/-- An encoded header keeps the two bounds on its payload. -/
theorem Header.encode_ok {h : Header} {b : List UInt8} (he : h.encode = .ok b) :
    h.payloadLen.toNat ≤ MAX_PAYLOAD ∧ payloadSizeOk h.kind h.payloadLen.toNat = true ∧
      b = magic ++ ([1, h.kind] ++ (le16 h.flags ++ (le32 h.sequence ++ (le32 h.payloadLen ++
        le64 h.ptsUs)))) := by
  unfold Header.encode at he
  split at he
  · cases he
  · next hmax =>
    unfold Header.validatePayloadSize at he
    by_cases hsize : payloadSizeOk h.kind h.payloadLen.toNat = true
    · rw [if_pos hsize] at he
      exact ⟨by omega, hsize, (Except.ok.inj he).symm⟩
    · rw [if_neg hsize] at he
      cases he

/-- A header within both limits is encoded. -/
theorem Header.encode_of_size {h : Header} (hmax : h.payloadLen.toNat ≤ MAX_PAYLOAD)
    (hsize : payloadSizeOk h.kind h.payloadLen.toNat = true) :
    h.encode = .ok (magic ++ ([1, h.kind] ++ (le16 h.flags ++ (le32 h.sequence ++
      (le32 h.payloadLen ++ le64 h.ptsUs))))) := by
  unfold Header.encode Header.validatePayloadSize
  rw [if_neg (by omega), if_pos hsize]

/-- The bytes of a header within both limits are decoded to it. -/
theorem Header.decode_bytes {h : Header} (hmax : h.payloadLen.toNat ≤ MAX_PAYLOAD)
    (hsize : payloadSizeOk h.kind h.payloadLen.toNat = true) :
    Header.decode (magic ++ ([1, h.kind] ++ (le16 h.flags ++ (le32 h.sequence ++
      (le32 h.payloadLen ++ le64 h.ptsUs))))) = .ok h := by
  have hlen : (magic ++ ([1, h.kind] ++ (le16 h.flags ++ (le32 h.sequence ++ (le32 h.payloadLen ++
      le64 h.ptsUs))))).length = 24 := by
    simp [magic]
  have hmagic : slice (magic ++ ([1, h.kind] ++ (le16 h.flags ++ (le32 h.sequence ++
      (le32 h.payloadLen ++ le64 h.ptsUs))))) 0 4 = magic := slice_append_self rfl
  unfold Header.decode
  rw [if_neg (by rw [hlen, hmagic]; simp [magic, HEADER_SIZE])]
  have hpts : slice (le64 h.ptsUs) 0 8 = le64 h.ptsUs := slice_full (by simp)
  simp only [magic, List.cons_append, List.nil_append, byteAt_cons_succ, byteAt_cons_zero,
    slice_cons_succ, slice_append_of_le, slice_append_self, length_le16, length_le32, Nat.le_refl,
    Nat.reduceLeDiff, Nat.reduceSub, u16_le16, u32_le32, hpts, u64_le64]
  rw [if_neg (by omega)]
  unfold Header.validatePayloadSize
  rw [if_pos hsize]

/-- So does a decoded one, and its bytes are those of the encoding. -/
theorem Header.decode_ok {h : Header} {b : List UInt8} (hd : Header.decode b = .ok h) :
    h.payloadLen.toNat ≤ MAX_PAYLOAD ∧ payloadSizeOk h.kind h.payloadLen.toNat = true ∧
      b = magic ++ ([1, h.kind] ++ (le16 h.flags ++ (le32 h.sequence ++ (le32 h.payloadLen ++
        le64 h.ptsUs)))) := by
  unfold Header.decode at hd
  dsimp only at hd
  split at hd
  · cases hd
  split at hd
  · cases hd
  · next hshape hmax =>
    simp only [not_or, ne_eq, not_not, HEADER_SIZE] at hshape
    obtain ⟨hlen, hmagic, hversion⟩ := hshape
    unfold Header.validatePayloadSize at hd
    by_cases hsize : payloadSizeOk (byteAt b 5) (u32 (slice b 12 16)).toNat = true
    · rw [if_pos hsize] at hd
      obtain rfl := Except.ok.inj hd
      refine ⟨by simpa using hmax, hsize, ?_⟩
      show b = magic ++ ([1, byteAt b 5] ++ (le16 (u16 (slice b 6 8)) ++
        (le32 (u32 (slice b 8 12)) ++ (le32 (u32 (slice b 12 16)) ++ le64 (u64 (slice b 16 24))))))
      have hpair : [1, byteAt b 5] = slice b 4 6 := by
        rw [← hversion, pair_byteAt (by omega)]
      rw [← hmagic, hpair, le16_u16 (length_slice (by omega)), le32_u32 (length_slice (by omega)),
        le32_u32 (length_slice (by omega)), le64_u64 (length_slice (by omega)),
        slice_append_slice (by omega) (by omega), slice_append_slice (by omega) (by omega),
        slice_append_slice (by omega) (by omega), slice_append_slice (by omega) (by omega),
        slice_append_slice (by omega) (by omega), slice_full hlen]
    · rw [if_neg hsize] at hd
      cases hd

/-- The codec of the header. -/
def Header.codec : Codec Header := ⟨Header.encode, Header.decode⟩

/-- A header is read back. -/
theorem Header.round_trips : Header.codec.RoundTrips := by
  intro h b he
  obtain ⟨hmax, hsize, rfl⟩ := Header.encode_ok he
  exact Header.decode_bytes hmax hsize

/-- A header has one encoding. -/
theorem Header.canonical : Header.codec.Canonical := by
  intro b h hd
  obtain ⟨hmax, hsize, rfl⟩ := Header.decode_ok hd
  exact Header.encode_of_size hmax hsize

/-- A payload of a size its kind allows makes a frame. -/
theorem Frame.new_of_size {kind : UInt8} {b : List UInt8} (hmax : b.length ≤ MAX_PAYLOAD)
    (hsize : payloadSizeOk kind b.length = true) (sequence : UInt32) :
    Frame.new kind sequence b = .ok
      { header := { kind, flags := 0, sequence, payloadLen := UInt32.ofNat b.length, ptsUs := 0 }
        payload := b } := by
  have hbound : MAX_PAYLOAD = 16777216 := rfl
  have hlen : (UInt32.ofNat b.length).toNat = b.length := by
    rw [UInt32.toNat_ofNat_of_lt']
    show b.length < 4294967296
    omega
  unfold Frame.new
  rw [if_neg (by omega)]
  dsimp only
  rw [Header.encode_of_size (by rw [hlen]; exact hmax) (by rw [hlen]; exact hsize)]

/-! ## Lengths -/

/-- A payload whose length passes the type's own check, within the payload limit. -/
def Fits (kind : UInt8) (b : List UInt8) : Prop :=
  b.length ≤ MAX_PAYLOAD ∧ payloadSizeOk kind b.length = true

/-- Payloads of a size the kind allows can be framed. -/
theorem Codec.framed {α : Type} {k : Codec α} {kind : UInt8}
    (h : ∀ v b, k.encode v = .ok b → Fits kind b) : k.Framed kind := by
  intro v b he sequence
  exact ⟨_, Frame.new_of_size (h v b he).1 (h v b he).2 sequence, rfl⟩

/-- The early check passes what a decoder accepts, if that has a size its kind allows. -/
theorem sized_of_fits {α : Type} {decode : List UInt8 → Result α} {kind : UInt8}
    (h : ∀ b v, decode b = .ok v → Fits kind b) : Sized decode kind := by
  intro b v hd header hkind hlen
  rw [Header.validatePayloadSize, hkind, hlen, if_pos (h b v hd).2]

/-- A capability list is bounded by the control payload only. -/
theorem fits_capabilities {b : List UInt8} (h : 1 ≤ b.length ∧ b.length ≤ MAX_CONTROL_PAYLOAD) :
    Fits QUALITY_CAPABILITIES b := by
  have hmax : MAX_PAYLOAD = 16777216 := rfl
  have hcontrol : MAX_CONTROL_PAYLOAD = 16384 := rfl
  refine ⟨by omega, ?_⟩
  show decide _ = true
  exact decide_eq_true h

/-- A proof is bounded by its shortest and its longest label. -/
theorem fits_auth {b : List UInt8}
    (h : CLIENT_AUTH_MIN_BYTES ≤ b.length ∧ b.length ≤ CLIENT_AUTH_MAX_BYTES) :
    Fits CLIENT_AUTH b := by
  have hmax : MAX_PAYLOAD = 16777216 := rfl
  have hauth : CLIENT_AUTH_MAX_BYTES = 163 := rfl
  refine ⟨by omega, ?_⟩
  show decide _ = true
  exact decide_eq_true h

/-- A payload of one length. -/
theorem fits_of_length {kind : UInt8} {b : List UInt8} {n : ℕ} (h : b.length = n)
    (hmax : n ≤ MAX_PAYLOAD) (hsize : payloadSizeOk kind n = true) : Fits kind b := by
  subst h
  exact ⟨hmax, hsize⟩

theorem Capabilities.decode_length {b : List UInt8} {c : Capabilities} (h : decode b = .ok c) :
    1 ≤ b.length ∧ b.length ≤ MAX_CONTROL_PAYLOAD := by
  unfold decode at h
  dsimp only at h
  split at h
  · cases h
  split at h
  · cases h
  split at h
  · cases h
  split at h
  · cases h
  · omega

theorem PrepareQuality.decode_length {b : List UInt8} {p : PrepareQuality} (h : decode b = .ok p) :
    b.length = 14 := by
  unfold decode at h
  split at h
  · cases h
  · next hlen => exact not_not.mp hlen

theorem QualityResult.decode_length {b : List UInt8} {r : QualityResult} (h : decode b = .ok r) :
    b.length = 14 := by
  unfold decode at h
  split at h
  · cases h
  · next hlen => exact not_not.mp hlen

theorem Epoch.decode_length {b : List UInt8} {e : Epoch} (h : decode b = .ok e) : b.length = 8 := by
  unfold decode at h
  split at h
  · cases h
  · next hlen => exact not_not.mp hlen

/-- Pairing details that are read have a length the header's check allows. -/
theorem PairingInfo.fits_of_decode {b : List UInt8} {i : PairingInfo} (h : decode b = .ok i) :
    Fits PAIRING_INFO b := by
  unfold decode at h
  dsimp only at h
  split at h
  · cases h
  split at h
  · cases h
  split at h
  · cases h
  split at h
  · cases h
  · next hshort hversion hcount hlen =>
    simp only [not_not, FINGERPRINT_BYTES, KEY_BYTES, MAX_ADDRESSES] at hcount hlen
    have hmax : MAX_PAYLOAD = 16777216 := rfl
    have hdiv : (b.length - 50) / 4 = (byteAt b 1).toNat := by omega
    refine ⟨by omega, ?_⟩
    show PairingInfo.fits b.length = true
    have hlong : ¬ b.length < 2 + 4 + FINGERPRINT_BYTES + KEY_BYTES := by
      simp only [FINGERPRINT_BYTES, KEY_BYTES]
      omega
    unfold PairingInfo.fits
    rw [if_neg hlong]
    simp only [FINGERPRINT_BYTES, KEY_BYTES, MAX_ADDRESSES, Nat.reduceAdd, hdiv, Bool.and_eq_true,
      decide_eq_true_eq, beq_iff_eq]
    omega

/-- A proof is as long as its label makes it. -/
theorem ClientAuth.encode_length {unsafeScalar : Char → Bool} {a : ClientAuth} {b : List UInt8}
    (h : a.encode unsafeScalar = .ok b) :
    CLIENT_AUTH_MIN_BYTES ≤ b.length ∧ b.length ≤ CLIENT_AUTH_MAX_BYTES := by
  obtain ⟨-, hk, -, hs, hl, rfl⟩ := ClientAuth.encode_ok h
  have hlabel := validLabel_length hl
  have hlen : ([a.version] ++ (a.publicKey ++ ([UInt8.ofNat (utf8 a.label).length] ++
      (utf8 a.label ++ a.signature)))).length = 131 + (utf8 a.label).length := by
    simp [hk, hs]
    omega
  have hmin : CLIENT_AUTH_MIN_BYTES = 131 := rfl
  have hmax : CLIENT_AUTH_MAX_BYTES = 163 := rfl
  omega

theorem ClientChallenge.encode_length {c : ClientChallenge} {b : List UInt8}
    (h : c.encode = .ok b) : b.length = 66 := by
  obtain ⟨-, -, hp, hn, rfl⟩ := ClientChallenge.encode_ok h
  simp [validPhoneBinding_length hp, hn]

theorem ClientAuthResult.encode_length {r : ClientAuthResult} {b : List UInt8}
    (h : r.encode = .ok b) : b.length = 6 := by
  obtain ⟨-, rfl⟩ := ClientAuthResult.encode_ok h
  simp

/-! ## The whole format -/

/-- **The wire format.** Every message of the PC's codecs is read back from its bytes, the
authorization messages and the header have no other encoding, what is encoded can be framed under
its kind, and the early length check passes whatever a decoder accepts. -/
theorem wire_format (unsafeScalar : Char → Bool) :
    (Header.codec.RoundTrips ∧ Header.codec.Canonical) ∧
    (Capabilities.codec.RoundTrips ∧ Capabilities.codec.Framed QUALITY_CAPABILITIES ∧
      Sized Capabilities.decode QUALITY_CAPABILITIES) ∧
    (PrepareQuality.codec.RoundTrips ∧ PrepareQuality.codec.Framed PREPARE_QUALITY ∧
      Sized PrepareQuality.decode PREPARE_QUALITY) ∧
    (QualityResult.codec.RoundTrips ∧ QualityResult.codec.Framed QUALITY_RESULT ∧
      Sized QualityResult.decode QUALITY_RESULT) ∧
    (Epoch.codec.RoundTrips ∧ ∀ kind ∈ [PAUSED, COMMIT_QUALITY],
      Epoch.codec.Framed kind ∧ Sized Epoch.decode kind) ∧
    (ClientChallenge.codec.RoundTrips ∧ ClientChallenge.codec.Canonical ∧
      ClientChallenge.codec.Framed CLIENT_CHALLENGE ∧
      Sized ClientChallenge.decode CLIENT_CHALLENGE) ∧
    ((ClientAuth.codec unsafeScalar).RoundTrips ∧ (ClientAuth.codec unsafeScalar).Canonical ∧
      (ClientAuth.codec unsafeScalar).Framed CLIENT_AUTH ∧
      Sized (ClientAuth.decode unsafeScalar) CLIENT_AUTH) ∧
    (ClientAuthResult.codec.RoundTrips ∧ ClientAuthResult.codec.Canonical ∧
      ClientAuthResult.codec.Framed CLIENT_AUTH_RESULT ∧
      Sized ClientAuthResult.decode CLIENT_AUTH_RESULT) ∧
    Sized PairingInfo.decode PAIRING_INFO := by
  -- at most 256 modes, so they fit a control frame
  have hcapabilities (c : Capabilities) (b : List UInt8) (h : c.encode = .ok b) :
      Fits QUALITY_CAPABILITIES b := by
    obtain ⟨hmodes, rfl⟩ := Capabilities.encode_ok h
    have hlen := c.length_bytes
    have hmax : MAX_QUALITY_MODES = 256 := rfl
    have hcontrol : MAX_CONTROL_PAYLOAD = 16384 := rfl
    exact fits_capabilities (by omega)
  have hepoch (kind : UInt8) (hkind : kind ∈ [PAUSED, COMMIT_QUALITY]) (b : List UInt8)
      (h : b.length = 8) : Fits kind b := by
    simp only [List.mem_cons, List.not_mem_nil, or_false] at hkind
    rcases hkind with rfl | rfl
    · exact fits_of_length h (by decide) (by decide)
    · exact fits_of_length h (by decide) (by decide)
  refine ⟨⟨Header.round_trips, Header.canonical⟩, ⟨Capabilities.round_trips, ?_, ?_⟩,
    ⟨PrepareQuality.round_trips, ?_, ?_⟩, ⟨QualityResult.round_trips, ?_, ?_⟩,
    ⟨Epoch.round_trips, fun kind hkind => ⟨?_, ?_⟩⟩,
    ⟨ClientChallenge.round_trips, ClientChallenge.canonical, ?_, ?_⟩,
    ⟨ClientAuth.round_trips, ClientAuth.canonical, ?_, ?_⟩,
    ⟨ClientAuthResult.round_trips, ClientAuthResult.canonical, ?_, ?_⟩, ?_⟩
  · exact Codec.framed hcapabilities
  · exact sized_of_fits fun b c h => fits_capabilities (Capabilities.decode_length h)
  · apply Codec.framed
    intro p b h
    obtain rfl := Except.ok.inj h
    exact fits_of_length p.length_encode (by decide) (by decide)
  · exact sized_of_fits fun b p h =>
      fits_of_length (PrepareQuality.decode_length h) (by decide) (by decide)
  · apply Codec.framed
    intro r b h
    obtain rfl := Except.ok.inj h
    exact fits_of_length r.length_encode (by decide) (by decide)
  · exact sized_of_fits fun b r h =>
      fits_of_length (QualityResult.decode_length h) (by decide) (by decide)
  · apply Codec.framed
    intro e b h
    obtain rfl := Except.ok.inj h
    exact hepoch kind hkind _ e.length_encode
  · exact sized_of_fits fun b e h => hepoch kind hkind b (Epoch.decode_length h)
  · exact Codec.framed fun c b h =>
      fits_of_length (ClientChallenge.encode_length h) (by decide) (by decide)
  · exact sized_of_fits fun b c h =>
      fits_of_length (ClientChallenge.encode_length (ClientChallenge.canonical b c h)) (by decide)
        (by decide)
  · exact Codec.framed fun a b h => fits_auth (ClientAuth.encode_length h)
  · exact sized_of_fits fun b a h =>
      fits_auth (ClientAuth.encode_length (ClientAuth.canonical b a h))
  · exact Codec.framed fun r b h =>
      fits_of_length (ClientAuthResult.encode_length h) (by decide) (by decide)
  · exact sized_of_fits fun b r h =>
      fits_of_length (ClientAuthResult.encode_length (ClientAuthResult.canonical b r h)) (by decide)
        (by decide)
  · exact sized_of_fits fun b i h => PairingInfo.fits_of_decode h

end HostWire
end MobileWebcamBridge
