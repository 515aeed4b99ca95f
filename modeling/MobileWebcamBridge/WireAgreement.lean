import MobileWebcamBridge.Host.ClientAuth
import MobileWebcamBridge.Host.Wire.RoundTrip
import MobileWebcamBridge.Phone.WireCodec

/-!
# The two codecs agree

What the PC writes the phone reads, and the other way round: the header with its signed fields read
as unsigned ones, then one section for each direction. A phone payload is shown to be the bytes the
PC's own encoder would write for the same value, so that the PC's round trips apply.
-/

set_option autoImplicit false

namespace MobileWebcamBridge
namespace WireAgreement

open Bytes Unicode

/-! ## Headers -/

/-- The fields of a header as the phone holds them. -/
def signed (h : HostWire.Header) : WireCodec.Header where
  type := h.kind.toInt8
  flags := h.flags.toInt16
  sequence := h.sequence.toInt32
  payloadLength := h.payloadLen.toInt32
  ptsUs := h.ptsUs.toInt64

/-- The fields of a header as the PC holds them. -/
def unsigned (k : WireCodec.Header) : HostWire.Header where
  kind := k.type.toUInt8
  flags := k.flags.toUInt16
  sequence := k.sequence.toUInt32
  payloadLen := k.payloadLength.toUInt32
  ptsUs := k.ptsUs.toUInt64

/-- The bytes of a header within the limits. -/
def headerBytes (h : HostWire.Header) : List UInt8 :=
  HostWire.magic ++ ([1, h.kind] ++ (HostWire.le16 h.flags ++ (HostWire.le32 h.sequence ++
    (HostWire.le32 h.payloadLen ++ HostWire.le64 h.ptsUs))))

theorem length_headerBytes (h : HostWire.Header) : (headerBytes h).length = 24 := by
  simp [headerBytes, HostWire.magic]

theorem readHeader_headerBytes (h : HostWire.Header) :
    WireCodec.readHeader (headerBytes h) = signed h := by
  have hflags : WireCodec.byteAt (headerBytes h) 5 = h.kind := rfl
  have hpts : slice (HostWire.le64 h.ptsUs) 0 8 = HostWire.le64 h.ptsUs := slice_full (by simp)
  have h16 (v : UInt16) : UInt16.ofNat (ofLE (HostWire.le16 v)) = v := HostWire.u16_le16 v
  have h32 (v : UInt32) : UInt32.ofNat (ofLE (HostWire.le32 v)) = v := HostWire.u32_le32 v
  have h64 (v : UInt64) : UInt64.ofNat (ofLE (HostWire.le64 v)) = v := HostWire.u64_le64 v
  unfold WireCodec.readHeader
  rw [hflags]
  simp only [headerBytes, HostWire.magic, List.cons_append, List.nil_append, slice_cons_succ,
    slice_append_of_le, slice_append_self, HostWire.length_le16, HostWire.length_le32, Nat.le_refl,
    Nat.reduceLeDiff, Nat.reduceSub, hpts, h16, h32, h64]
  rfl

/-- A length below `2 ^ 31` is the same signed. -/
theorem toInt_payloadLength {h : HostWire.Header} {n : ℕ} (hlen : h.payloadLen.toNat = n)
    (hn : n < 2 ^ 31) : (signed h).payloadLength.toInt = n := by
  show h.payloadLen.toBitVec.toInt = n
  rw [BitVec.toInt_eq_toNat_of_lt]
  · exact congrArg Int.ofNat hlen
  · show 2 * h.payloadLen.toNat < 2 ^ 32
    omega

/-- A length that is not negative is the same unsigned. -/
theorem toNat_payloadLength {k : WireCodec.Header} {n : ℕ} (hlen : k.payloadLength.toInt = n) :
    (unsigned k).payloadLen.toNat = n := by
  have hcond : k.payloadLength.toInt = _ := BitVec.toInt_eq_toNat_cond k.payloadLength.toBitVec
  have hnat : (unsigned k).payloadLen.toNat = k.payloadLength.toBitVec.toNat := rfl
  have hlt := k.payloadLength.toBitVec.isLt
  split at hcond <;> omega

/-- The phone's reader takes a frame whose length is permitted for its type. -/
theorem readHostFrame_ok {h : HostWire.Header} {payload : List UInt8} {least most : ℕ}
    (hlen : h.payloadLen.toNat = payload.length) (hmost : most ≤ WireCodec.CLIENT_AUTH_MAX_BYTES)
    (hbounds : WireCodec.hostPayloadBounds h.kind.toInt8 = some (least, most))
    (hfit : least ≤ payload.length ∧ payload.length ≤ most) (rest : List UInt8) :
    WireCodec.readHostFrame (headerBytes h ++ (payload ++ rest)) =
      some ((signed h, payload), rest) := by
  have hmax : WireCodec.CLIENT_AUTH_MAX_BYTES = 163 := rfl
  have hhead : WireCodec.readExact (headerBytes h ++ (payload ++ rest)) WireCodec.HEADER_SIZE =
      some (headerBytes h, payload ++ rest) := by
    have hsize : WireCodec.HEADER_SIZE = (headerBytes h).length := (length_headerBytes h).symm
    unfold WireCodec.readExact
    rw [hsize, if_pos (by simp), List.take_left, List.drop_left]
  have hbody : WireCodec.readExact (payload ++ rest) payload.length = some (payload, rest) := by
    unfold WireCodec.readExact
    rw [if_pos (by simp), List.take_left, List.drop_left]
  have hint := toInt_payloadLength hlen (by omega)
  unfold WireCodec.readHostFrame WireCodec.readFrame
  rw [hhead]
  simp only [readHeader_headerBytes, hint]
  have hmagic : slice (headerBytes h) 0 4 = WireCodec.magic := slice_append_self rfl
  have htest :
      slice (headerBytes h) 0 4 = WireCodec.magic ∧ WireCodec.byteAt (headerBytes h) 4 = 1 ∧
      (0 : ℤ) ≤ payload.length ∧ (payload.length : ℤ) ≤ WireCodec.CLIENT_AUTH_MAX_BYTES :=
    ⟨hmagic, rfl, by omega, by omega⟩
  rw [if_pos htest]
  have hsigned : WireCodec.hostPayloadBounds (signed h).type = some (least, most) := hbounds
  simp only [hsigned]
  rw [if_pos (by omega), Int.toNat_natCast, hbody]
  rfl

/-! ## What the PC sends -/

/-- The messages of the PC. -/
inductive HostMessage
  | prepareQuality (p : HostWire.PrepareQuality)
  | commitQuality (e : HostWire.Epoch)
  | clientAuth (publicKey : List UInt8) (label : List Char) (signature : List UInt8)
  | idrRequest
  | ping (payload : List UInt8)
  | hostHello
deriving DecidableEq

namespace HostMessage

/-- The type a message goes under. -/
def kind : HostMessage → UInt8
  | prepareQuality _ => HostWire.PREPARE_QUALITY
  | commitQuality _ => HostWire.COMMIT_QUALITY
  | clientAuth .. => HostWire.CLIENT_AUTH
  | idrRequest => HostWire.IDR_REQUEST
  | ping _ => HostWire.PING
  | hostHello => HostWire.HOST_HELLO

/-- The payload the PC writes. -/
def encode (unsafeScalar : Char → Bool) : HostMessage → HostWire.Result (List UInt8)
  | prepareQuality p => .ok p.encode
  | commitQuality e => .ok e.encode
  | clientAuth publicKey label signature =>
    HostWire.ClientAuth.encode unsafeScalar
      { version := HostWire.CLIENT_AUTH_VERSION, publicKey, label, signature }
  | idrRequest => .ok []
  | ping payload => .ok payload
  | hostHello => .ok []

/-- The values the PC can send: an uncompressed point, a label it may propose, a raw signature, and
eight bytes in a ping. -/
def Sendable : HostMessage → Prop
  | clientAuth publicKey label signature =>
    (publicKey.length = 65 ∧ HostWire.byteAt publicKey 0 = 4) ∧ HostAuth.Printable label ∧
      signature.length = 64
  | ping payload => payload.length = 8
  | _ => True

/-- The phone's decoder for the type gives the same values. -/
def ReadAs (P : Platform) (payload : List UInt8) : HostMessage → Prop
  | prepareQuality p =>
    WireCodec.decodePrepareQuality payload = some
      { requestId := p.requestId.toNat, catalogRevision := p.catalogRevision.toNat
        width := p.width.toNat, height := p.height.toNat, targetFps := p.targetFps.toNat }
  | commitQuality e =>
    WireCodec.decodeEpoch payload = some
      { requestId := e.requestId.toNat, streamEpoch := e.streamEpoch.toNat }
  | clientAuth publicKey label signature =>
    WireCodec.decodeClientAuth P payload = some { publicKey, label := utf16 label, signature }
  | idrRequest => payload = []
  | ping bytes => payload = bytes
  | hostHello => payload = []

end HostMessage

/-- What the Unicode tables of both platforms say about printable ASCII. -/
structure AsciiTables (unsafeScalar : Char → Bool) (P : Platform) : Prop where
  host : ∀ c : Char, 0x20 ≤ c.toNat → c.toNat ≤ 0x7e → unsafeScalar c = false
  phone : ∀ c : Char, 0x20 ≤ c.toNat → c.toNat ≤ 0x7e → P.scalarIsSafe c = true
  blank : ∀ c : Char, 0x20 < c.toNat → c.toNat ≤ 0x7e → P.isWhitespace c = false

section label

variable {unsafeScalar : Char → Bool} {P : Platform} {label : List Char}

theorem printable_nonblank (h : HostAuth.Printable label) :
    ∃ c ∈ label, 0x20 < c.toNat ∧ c.toNat ≤ 0x7e := by
  obtain ⟨c, hc, hne⟩ := h.nonblank
  refine ⟨c, hc, ?_, (h.ascii c hc).2⟩
  have hle := (h.ascii c hc).1
  have hcode : c.toNat ≠ 0x20 := fun heq => hne (Char.ext (UInt32.toNat_inj.mp heq))
  omega

theorem length_utf8_printable (h : HostAuth.Printable label) : (utf8 label).length = label.length :=
  length_utf8_of_ascii fun c hc => (h.ascii c hc).2.trans (by decide)

/-- The PC's own check takes a label it may propose. -/
theorem validLabel_printable (hT : AsciiTables unsafeScalar P) (h : HostAuth.Printable label) :
    HostWire.validLabel unsafeScalar label = true := by
  obtain ⟨c, hc, hlow, hhigh⟩ := printable_nonblank h
  have hblank : label.all HostWire.isWhitespace = false := by
    apply List.all_eq_false.mpr
    refine ⟨c, hc, ?_⟩
    simp only [HostWire.isWhitespace, decide_eq_true_eq]
    omega
  have hunsafe : label.any unsafeScalar = false := by
    apply List.any_eq_false.mpr
    intro c hc
    rw [hT.host c (h.ascii c hc).1 (h.ascii c hc).2]
    decide
  have hshort : (utf8 label).length ≤ HostWire.MAX_CLIENT_LABEL := by
    rw [length_utf8_printable h]
    exact h.short
  rw [HostWire.validLabel, hblank, hunsafe, decide_eq_true hshort]
  rfl

/-- So does the phone's. -/
theorem strictLabel_printable (hT : AsciiTables unsafeScalar P) (h : HostAuth.Printable label) :
    WireCodec.strictLabel P (utf8 label) = some (utf16 label) := by
  obtain ⟨c, hc, hlow, hhigh⟩ := printable_nonblank h
  have hblank : (utf16 label).all (WireCodec.isBlankUnit P) = false := by
    apply List.all_eq_false.mpr
    refine ⟨UInt16.ofNat c.toNat, List.mem_flatMap.mpr ⟨c, hc, ?_⟩, ?_⟩
    · rw [utf16Char, if_pos (by omega)]
      exact List.mem_singleton_self _
    · have hnat : (UInt16.ofNat c.toNat).toNat = c.toNat := by
        rw [UInt16.toNat_ofNat']
        omega
      rw [WireCodec.isBlankUnit, hnat, ofNat_toNat, hT.blank c hlow hhigh, Bool.and_false]
      decide
  have hsafe : WireCodec.labelScalarsAreSafe P label = true := by
    apply List.all_eq_true.mpr
    intro c hc
    exact hT.phone c (h.ascii c hc).1 (h.ascii c hc).2
  have hshort : (utf8 label).length ≤ Wire.MAX_CLIENT_LABEL := by
    rw [length_utf8_printable h]
    exact h.short
  rw [WireCodec.strictLabel, fromUtf8_utf8]
  dsimp only
  rw [if_pos ⟨hshort, hblank, hsafe⟩]

end label

variable {P : Platform} {D : WireCodec.Digits}

theorem ofLE_le16 (v : UInt16) : ofLE (HostWire.le16 v) = v.toNat := ofLE_toLE_of_lt v.toNat_lt

theorem ofLE_le32 (v : UInt32) : ofLE (HostWire.le32 v) = v.toNat := ofLE_toLE_of_lt v.toNat_lt

theorem decodePrepareQuality_encode (p : HostWire.PrepareQuality) :
    (HostMessage.prepareQuality p).ReadAs P p.encode := by
  show WireCodec.decodePrepareQuality p.encode = _
  unfold WireCodec.decodePrepareQuality
  rw [if_pos p.length_encode]
  simp [HostWire.PrepareQuality.encode, slice_append_of_le, slice_append_self, ofLE_le16, ofLE_le32]

theorem decodeEpoch_encode (e : HostWire.Epoch) :
    (HostMessage.commitQuality e).ReadAs P e.encode := by
  show WireCodec.decodeEpoch e.encode = _
  unfold WireCodec.decodeEpoch
  rw [if_pos e.length_encode]
  simp [HostWire.Epoch.encode, slice_append_of_le, slice_append_self, slice_full, ofLE_le32]

/-- What the PC's decoder takes, the phone's takes when it takes the label. -/
theorem decodeClientAuth_of_host {unsafeScalar : Char → Bool} {payload : List UInt8}
    {a : HostWire.ClientAuth} (hd : HostWire.ClientAuth.decode unsafeScalar payload = .ok a)
    (hlabel : WireCodec.strictLabel P (utf8 a.label) = some (utf16 a.label)) :
    WireCodec.decodeClientAuth P payload =
      some { publicKey := a.publicKey, label := utf16 a.label, signature := a.signature } := by
  have hmin : WireCodec.CLIENT_AUTH_MIN_BYTES = HostWire.CLIENT_AUTH_MIN_BYTES := rfl
  unfold HostWire.ClientAuth.decode at hd
  dsimp only at hd
  split at hd
  · cases hd
  split at hd
  · cases hd
  split at hd
  · cases hd
  split at hd
  · cases hd
  split at hd
  · cases hd
  split at hd
  · cases hd
  · next hbounds hversion hcount hlen _ label htext hok =>
    obtain rfl := Except.ok.inj hd
    simp only [not_not, Bool.or_eq_true, bne_iff_ne, ne_eq,
      not_or] at hbounds hversion hcount hlen hok
    have hfour : WireCodec.byteAt (slice payload 1 (1 + Wire.CLIENT_PUBLIC_KEY_BYTES)) 0 = 4 := by
      rw [← hok.2]
      simp [WireCodec.byteAt, HostWire.byteAt, slice, Wire.CLIENT_PUBLIC_KEY_BYTES]
    have hsignature : slice payload (payload.length - Wire.SIGNATURE_BYTES) payload.length =
        payload.drop (payload.length - HostWire.SIGNATURE_BYTES) := by
      have hend := List.length_drop (i := payload.length - Wire.SIGNATURE_BYTES) (l := payload)
      rw [slice, ← hend, List.take_length]
      rfl
    have hstrict : WireCodec.strictLabel P (slice payload (1 + Wire.CLIENT_PUBLIC_KEY_BYTES + 1)
        (1 + Wire.CLIENT_PUBLIC_KEY_BYTES + 1 +
          (WireCodec.byteAt payload (1 + Wire.CLIENT_PUBLIC_KEY_BYTES)).toNat)) =
        some (utf16 label) := by
      rw [← hlabel, utf8_of_fromUtf8 htext]
      rfl
    unfold WireCodec.decodeClientAuth
    dsimp only
    rw [if_pos ⟨hbounds, hversion, Nat.le_of_not_lt hcount, hlen, hfour⟩, hstrict, hsignature]
    rfl

theorem encode_clientAuth {unsafeScalar : Char → Bool} {publicKey signature : List UInt8}
    {label : List Char} (hpoint : publicKey.length = 65 ∧ HostWire.byteAt publicKey 0 = 4)
    (hlabel : HostWire.validLabel unsafeScalar label = true) (hsignature : signature.length = 64) :
    ∃ payload, (HostMessage.clientAuth publicKey label signature).encode unsafeScalar =
      .ok payload := by
  unfold HostMessage.encode HostWire.ClientAuth.encode
  dsimp only
  have hkey : ¬ publicKey.length ≠ HostWire.CLIENT_PUBLIC_KEY_BYTES := not_not.mpr hpoint.1
  have hraw : ¬ signature.length ≠ HostWire.SIGNATURE_BYTES := not_not.mpr hsignature
  rw [if_neg (not_not.mpr rfl), if_neg hkey, if_neg (not_not.mpr hpoint.2), if_neg hraw,
    if_neg (by simp [hlabel])]
  exact ⟨_, rfl⟩

/-- The PC encodes the message; under any header of its type and length the phone's reader takes the
frame, whatever follows it, and the decoder gives the same values. -/
def HostMessage.Agrees (unsafeScalar : Char → Bool) (P : Platform) (m : HostMessage) : Prop :=
  ∃ payload, m.encode unsafeScalar = .ok payload ∧ m.ReadAs P payload ∧
    ∀ h : HostWire.Header, h.kind = m.kind → h.payloadLen.toNat = payload.length →
      h.encode = .ok (headerBytes h) ∧ ∀ rest,
        WireCodec.readHostFrame (headerBytes h ++ (payload ++ rest)) =
          some ((signed h, payload), rest)

theorem phone_reads {unsafeScalar : Char → Bool} (hT : AsciiTables unsafeScalar P) (m : HostMessage)
    (hm : m.Sendable) : m.Agrees unsafeScalar P := by
  -- a payload that fits both the PC's check and the phone's bounds
  have hframe (least most : ℕ) {payload : List UInt8} (hfits : HostWire.Fits m.kind payload)
      (hmost : most ≤ WireCodec.CLIENT_AUTH_MAX_BYTES)
      (hbounds : WireCodec.hostPayloadBounds m.kind.toInt8 = some (least, most))
      (hfit : least ≤ payload.length ∧ payload.length ≤ most) (h : HostWire.Header)
      (hkind : h.kind = m.kind) (hlen : h.payloadLen.toNat = payload.length) :
      h.encode = .ok (headerBytes h) ∧ ∀ rest,
        WireCodec.readHostFrame (headerBytes h ++ (payload ++ rest)) =
          some ((signed h, payload), rest) := by
    refine ⟨HostWire.Header.encode_of_size ?_ ?_, readHostFrame_ok hlen hmost ?_ hfit⟩
    · rw [hlen]
      exact hfits.1
    · rw [hlen, hkind]
      exact hfits.2
    · rw [hkind]
      exact hbounds
  cases m with
  | prepareQuality p =>
    have hlen := p.length_encode
    have hfits := HostWire.fits_of_length hlen (by decide)
      (show HostWire.payloadSizeOk HostWire.PREPARE_QUALITY 14 = true by decide)
    exact ⟨p.encode, rfl, decodePrepareQuality_encode p,
      hframe 14 14 hfits (by decide) (by rfl) (by omega)⟩
  | commitQuality e =>
    have hlen := e.length_encode
    have hfits := HostWire.fits_of_length hlen (by decide)
      (show HostWire.payloadSizeOk HostWire.COMMIT_QUALITY 8 = true by decide)
    exact ⟨e.encode, rfl, decodeEpoch_encode e,
      hframe 8 8 hfits (by decide) (by rfl) (by omega)⟩
  | clientAuth publicKey label signature =>
    obtain ⟨hpoint, hlabel, hsignature⟩ := hm
    obtain ⟨payload, hencode⟩ :=
      encode_clientAuth hpoint (validLabel_printable hT hlabel) hsignature
    have hlen := HostWire.ClientAuth.encode_length hencode
    have hround := HostWire.ClientAuth.round_trips
      { version := HostWire.CLIENT_AUTH_VERSION, publicKey, label, signature } payload hencode
    have hread : (HostMessage.clientAuth publicKey label signature).ReadAs P payload :=
      decodeClientAuth_of_host hround (strictLabel_printable hT hlabel)
    exact ⟨payload, hencode, hread,
      hframe _ _ (HostWire.fits_auth hlen) (Nat.le_refl _) (by rfl) hlen⟩
  | idrRequest =>
    have hfits := HostWire.fits_of_length (List.length_nil (α := UInt8)) (by decide)
      (show HostWire.payloadSizeOk HostWire.IDR_REQUEST 0 = true by decide)
    exact ⟨[], rfl, rfl, hframe 0 0 hfits (by decide) (by rfl) (by decide)⟩
  | ping payload =>
    have hlen : payload.length = 8 := hm
    have hfits := HostWire.fits_of_length hlen (by decide)
      (show HostWire.payloadSizeOk HostWire.PING 8 = true by decide)
    exact ⟨payload, rfl, rfl, hframe 8 8 hfits (by decide) (by rfl) (by omega)⟩
  | hostHello =>
    have hfits := HostWire.fits_of_length (List.length_nil (α := UInt8)) (by decide)
      (show HostWire.payloadSizeOk HostWire.HOST_HELLO 0 = true by decide)
    exact ⟨[], rfl, rfl, hframe 0 0 hfits (by decide) (by rfl) (by decide)⟩

/-! ## What the phone sends -/

/-- The messages of the phone. -/
inductive PhoneMessage
  | capabilities (c : Wire.Capabilities)
  | qualityResult (r : Wire.QualityResult)
  | paused (e : Wire.Epoch)
  | challenge (c : Wire.ClientChallenge)
  | authResult (r : Wire.ClientAuthResult)
  | pairingInfo (addresses : List (List UInt16)) (fingerprint key : List UInt16)
  | videoConfig (c : Wire.VideoConfig)
deriving DecidableEq

/-- The values of a mode, as the PC reads them. -/
def modeValues (mode : HostWire.QualityMode) : Wire.QualityMode where
  width := mode.width.toNat
  height := mode.height.toNat
  targetFps := mode.targetFps.toNat
  bitrate := mode.bitrate.toNat

/-- The fields of a mode fit their widths. -/
structure ModeInRange (mode : Wire.QualityMode) : Prop where
  width : mode.width ≤ 0xffff
  height : mode.height ≤ 0xffff
  targetFps : mode.targetFps ≤ 0xffff
  bitrate : mode.bitrate ≤ 0xffffffff

namespace PhoneMessage

/-- The type a message goes under. -/
def type : PhoneMessage → Wire.FrameType
  | capabilities _ => .qualityCapabilities
  | qualityResult _ => .qualityResult
  | paused _ => .paused
  | challenge _ => .clientChallenge
  | authResult _ => .clientAuthResult
  | pairingInfo .. => .pairingInfo
  | videoConfig _ => .videoConfig

variable (P : Platform) (D : WireCodec.Digits)

/-- The payload the phone writes. -/
def encode : PhoneMessage → Option (List UInt8)
  | capabilities c => WireCodec.encodeCapabilities c
  | qualityResult r => some (WireCodec.encodeQualityResult r)
  | paused e => some (WireCodec.encodeEpoch e)
  | challenge c => (Wire.encodeClientChallenge c).map WireCodec.payloadBytes
  | authResult r => (Wire.encodeClientAuthResult r).map WireCodec.payloadBytes
  | pairingInfo addresses fingerprint key =>
    WireCodec.encodePairingInfo P D addresses fingerprint key
  | videoConfig c =>
    (VideoWire.encodeConfig c.width c.height c.fps c.bitrate).map fun c =>
      WireCodec.payloadBytes (.videoConfig c)

/-- The values the phone can send: fields within their widths, a list of at most 256 modes, what the
encoders of the other payloads accept, and a video format within the PC's limits. -/
def Sendable : PhoneMessage → Prop
  | capabilities c =>
    c.extensionVersion ≤ 0xff ∧ c.catalogRevision ≤ 0xffff ∧ c.streamEpoch ≤ 0xffffffff ∧
      c.modes.length ≤ 256 ∧ ∀ mode ∈ c.modes, ModeInRange mode
  | qualityResult r =>
    r.requestId ≤ 0xffffffff ∧ r.reason ≤ 0xff ∧ r.appliedWidth ≤ 0xffff ∧
      r.appliedHeight ≤ 0xffff ∧ r.appliedFps ≤ 0xffff
  | paused e => e.requestId ≤ 0xffffffff ∧ e.streamEpoch ≤ 0xffffffff
  | challenge c => ∃ payload, Wire.encodeClientChallenge c = some payload
  | authResult r => ∃ payload, Wire.encodeClientAuthResult r = some payload
  | pairingInfo addresses fingerprint key =>
    ∃ payload, WireCodec.encodePairingInfo P D addresses fingerprint key = some payload
  | videoConfig c =>
    (1 ≤ c.width ∧ c.width ≤ 8192) ∧ (1 ≤ c.height ∧ c.height ≤ 8192) ∧
      c.width * c.height ≤ 33554432 ∧ (1 ≤ c.fps ∧ c.fps ≤ 0xffff) ∧ 0 < c.bitrate

/-- The PC's decoder for the type gives the same values. The PC keeps pairing details as text: the
hexadecimal digits of the bytes that the phone's text names. -/
def ReadAs (payload : List UInt8) : PhoneMessage → Prop
  | capabilities c =>
    ∃ v, HostWire.Capabilities.decode payload = .ok v ∧
      v.extensionVersion.toNat = c.extensionVersion ∧
      v.permission = WireCodec.permissionByte c.permission ∧
      v.catalogRevision.toNat = c.catalogRevision ∧ v.streamEpoch.toNat = c.streamEpoch ∧
      v.modes.map modeValues = c.modes
  | qualityResult r =>
    ∃ v, HostWire.QualityResult.decode payload = .ok v ∧ v.requestId.toNat = r.requestId ∧
      v.status = WireCodec.resultByte r.status ∧ v.reason.toNat = r.reason ∧
      v.appliedWidth.toNat = r.appliedWidth ∧ v.appliedHeight.toNat = r.appliedHeight ∧
      v.appliedFps.toNat = r.appliedFps
  | paused e =>
    ∃ v, HostWire.Epoch.decode payload = .ok v ∧ v.requestId.toNat = e.requestId ∧
      v.streamEpoch.toNat = e.streamEpoch
  | challenge c =>
    HostWire.ClientChallenge.decode payload = .ok
      { version := HostWire.CLIENT_AUTH_VERSION, transport := Wire.transportByte c.transport
        phoneBinding := c.phoneBinding, nonce := c.nonce }
  | authResult r =>
    ∃ v, HostWire.ClientAuthResult.decode payload = .ok v ∧
      v.status = WireCodec.authStatusByte r.status ∧ v.reason = WireCodec.authReasonByte r.reason ∧
      (v.expiresAtUnixSeconds.toNat : ℤ) = r.expiresAtUnixSeconds
  | pairingInfo addresses fingerprint key =>
    ∃ fingerprintBytes keyBytes,
      WireCodec.hexBytes P D fingerprint WireCodec.FINGERPRINT_BYTES = some fingerprintBytes ∧
      WireCodec.hexBytes P D key WireCodec.ACCESS_KEY_BYTES = some keyBytes ∧
      HostWire.PairingInfo.decode payload = .ok
        { addresses := (addresses.filterMap (WireCodec.parseIpv4 P D)).take 4
          fingerprint := HostWire.PairingInfo.hex fingerprintBytes
          key := HostWire.PairingInfo.hex keyBytes }
  | videoConfig c =>
    ∃ v, HostWire.VideoConfig.parse payload = .ok v ∧ v.width.toNat = c.width ∧
      v.height.toNat = c.height ∧ v.fps.toNat = c.fps

end PhoneMessage

section fields

variable {n : ℕ}

theorem toNat_ofNat16 (h : n ≤ 0xffff) : (UInt16.ofNat n).toNat = n :=
  UInt16.toNat_ofNat_of_lt' (Nat.lt_succ_of_le h)

theorem toNat_ofNat32 (h : n ≤ 0xffffffff) : (UInt32.ofNat n).toNat = n :=
  UInt32.toNat_ofNat_of_lt' (Nat.lt_succ_of_le h)

theorem toLE_eq_le16 (h : n ≤ 0xffff) : toLE 2 n = HostWire.le16 (UInt16.ofNat n) := by
  rw [HostWire.le16, toNat_ofNat16 h]

theorem toLE_eq_le32 (h : n ≤ 0xffffffff) : toLE 4 n = HostWire.le32 (UInt32.ofNat n) := by
  rw [HostWire.le32, toNat_ofNat32 h]

end fields

/-! ### Quality payloads -/

/-- A mode in the PC's widths. -/
def hostMode (mode : Wire.QualityMode) : HostWire.QualityMode where
  width := UInt16.ofNat mode.width
  height := UInt16.ofNat mode.height
  targetFps := UInt16.ofNat mode.targetFps
  bitrate := UInt32.ofNat mode.bitrate

theorem modeBytes_eq {mode : Wire.QualityMode} (h : ModeInRange mode) :
    WireCodec.modeBytes mode = (hostMode mode).encode := by
  rw [WireCodec.modeBytes, toLE_eq_le16 h.width, toLE_eq_le16 h.height, toLE_eq_le16 h.targetFps,
    toLE_eq_le32 h.bitrate]
  rfl

theorem modeValues_hostMode {mode : Wire.QualityMode} (h : ModeInRange mode) :
    modeValues (hostMode mode) = mode := by
  rw [modeValues, hostMode, toNat_ofNat16 h.width, toNat_ofNat16 h.height,
    toNat_ofNat16 h.targetFps, toNat_ofNat32 h.bitrate]

/-- A capability list in the PC's widths. -/
def hostCapabilities (c : Wire.Capabilities) : HostWire.Capabilities where
  extensionVersion := UInt8.ofNat c.extensionVersion
  permission := WireCodec.permissionByte c.permission
  catalogRevision := UInt16.ofNat c.catalogRevision
  streamEpoch := UInt32.ofNat c.streamEpoch
  modes := c.modes.map hostMode

theorem capabilitiesBytes_eq {c : Wire.Capabilities}
    (hc : (PhoneMessage.capabilities c).Sendable P D) :
    WireCodec.capabilitiesBytes c = (hostCapabilities c).bytes := by
  obtain ⟨-, hrevision, hepoch, hcount, hmodes⟩ := hc
  have hbytes : c.modes.flatMap WireCodec.modeBytes =
      (c.modes.map hostMode).flatMap HostWire.QualityMode.encode := by
    rw [List.flatMap_map]
    exact List.flatMap_congr fun mode hmem => modeBytes_eq (hmodes mode hmem)
  rw [WireCodec.capabilitiesBytes, toLE_eq_le16 hrevision, toLE_eq_le32 hepoch,
    toLE_eq_le16 (hcount.trans (by decide)), hbytes, HostWire.Capabilities.bytes]
  simp [hostCapabilities]

/-- The phone encodes the message to a payload that the PC takes for its type and reads back. -/
def PhoneMessage.Delivered (P : Platform) (D : WireCodec.Digits) (m : PhoneMessage) : Prop :=
  ∃ payload, m.encode P D = some payload ∧ m.ReadAs P D payload ∧
    HostWire.Fits (WireCodec.typeByte m.type).toUInt8 payload

theorem capabilities_read {c : Wire.Capabilities}
    (hc : (PhoneMessage.capabilities c).Sendable P D) :
    (PhoneMessage.capabilities c).Delivered P D := by
  have hbytes := capabilitiesBytes_eq hc
  obtain ⟨hversion, hrevision, hepoch, hcount, hmodes⟩ := hc
  have hsame : (hostCapabilities c).modes.length = c.modes.length := List.length_map ..
  have hlen : (WireCodec.capabilitiesBytes c).length = 10 + 12 * c.modes.length := by
    rw [hbytes, HostWire.Capabilities.length_bytes, hsame]
  have hmax : WireCodec.MAX_CONTROL_PAYLOAD = 16384 := rfl
  have hhostMax : HostWire.MAX_CONTROL_PAYLOAD = 16384 := rfl
  have hmodesMax : HostWire.MAX_QUALITY_MODES = 256 := rfl
  have hencode : (hostCapabilities c).encode = .ok (WireCodec.capabilitiesBytes c) := by
    rw [HostWire.Capabilities.encode, ← hbytes, if_neg (by omega), if_neg (by omega)]
  have hvalues : (hostCapabilities c).modes.map modeValues = c.modes := by
    rw [hostCapabilities, List.map_map]
    conv => rhs; rw [← List.map_id c.modes]
    exact List.map_congr_left fun mode hmem => modeValues_hostMode (hmodes mode hmem)
  refine ⟨WireCodec.capabilitiesBytes c, if_pos ⟨hcount, by omega⟩,
    ⟨hostCapabilities c, HostWire.Capabilities.round_trips _ _ hencode, ?_, rfl,
      toNat_ofNat16 hrevision, toNat_ofNat32 hepoch, hvalues⟩,
    HostWire.fits_capabilities (by omega)⟩
  exact UInt8.toNat_ofNat_of_lt' (Nat.lt_succ_of_le hversion)

theorem qualityResult_read {r : Wire.QualityResult}
    (hr : (PhoneMessage.qualityResult r).Sendable P D) :
    (PhoneMessage.qualityResult r).Delivered P D := by
  obtain ⟨hid, hreason, hwidth, hheight, hfps⟩ := hr
  let v : HostWire.QualityResult :=
    { requestId := UInt32.ofNat r.requestId, status := WireCodec.resultByte r.status
      reason := UInt8.ofNat r.reason, appliedWidth := UInt16.ofNat r.appliedWidth
      appliedHeight := UInt16.ofNat r.appliedHeight, appliedFps := UInt16.ofNat r.appliedFps }
  have hbytes : WireCodec.encodeQualityResult r = v.encode := by
    rw [WireCodec.encodeQualityResult, toLE_eq_le32 hid, toLE_eq_le16 hwidth, toLE_eq_le16 hheight,
      toLE_eq_le16 hfps]
    rfl
  refine ⟨v.encode, congrArg some hbytes,
    ⟨v, HostWire.QualityResult.round_trips v _ rfl, toNat_ofNat32 hid, rfl, ?_,
      toNat_ofNat16 hwidth, toNat_ofNat16 hheight, toNat_ofNat16 hfps⟩,
    HostWire.fits_of_length v.length_encode (by decide) (by rfl)⟩
  exact UInt8.toNat_ofNat_of_lt' (Nat.lt_succ_of_le hreason)

theorem paused_read {e : Wire.Epoch} (he : (PhoneMessage.paused e).Sendable P D) :
    (PhoneMessage.paused e).Delivered P D := by
  obtain ⟨hid, hepoch⟩ := he
  let v : HostWire.Epoch :=
    { requestId := UInt32.ofNat e.requestId, streamEpoch := UInt32.ofNat e.streamEpoch }
  have hbytes : WireCodec.encodeEpoch e = v.encode := by
    rw [WireCodec.encodeEpoch, toLE_eq_le32 hid, toLE_eq_le32 hepoch]
    rfl
  exact ⟨v.encode, congrArg some hbytes,
    ⟨v, HostWire.Epoch.round_trips v _ rfl, toNat_ofNat32 hid, toNat_ofNat32 hepoch⟩,
    HostWire.fits_of_length v.length_encode (by decide) (by rfl)⟩

/-! ### Authorization payloads -/

theorem validPhoneBinding_of_phone {transport : Wire.AuthTransport} {binding : List UInt8}
    (h : Wire.phoneBindingValid transport binding = true) :
    HostWire.validPhoneBinding (Wire.transportByte transport) binding = true := by
  cases transport <;> exact h

theorem challenge_read {c : Wire.ClientChallenge} (hc : (PhoneMessage.challenge c).Sendable P D) :
    (PhoneMessage.challenge c).Delivered P D := by
  obtain ⟨payload, hpayload⟩ := hc
  have hbytes : (PhoneMessage.challenge c).encode P D = some (WireCodec.challengeBytes c) := by
    show (Wire.encodeClientChallenge c).map _ = _
    unfold Wire.encodeClientChallenge at hpayload ⊢
    split at hpayload
    · next hok => rw [if_pos hok]; rfl
    · cases hpayload
  unfold Wire.encodeClientChallenge at hpayload
  split at hpayload
  · next hok =>
    simp only [Bool.and_eq_true, beq_iff_eq] at hok
    obtain ⟨hbinding, hnonce⟩ := hok
    have hvalid := validPhoneBinding_of_phone hbinding
    have htransport : HostWire.validTransport (Wire.transportByte c.transport) = true := by
      cases c.transport <;> rfl
    have hnonce32 : ¬ c.nonce.length ≠ HostWire.NONCE_BYTES := not_not.mpr hnonce
    have hencode : HostWire.ClientChallenge.encode
        { version := HostWire.CLIENT_AUTH_VERSION, transport := Wire.transportByte c.transport
          phoneBinding := c.phoneBinding, nonce := c.nonce } =
            .ok (WireCodec.challengeBytes c) := by
      unfold HostWire.ClientChallenge.encode
      rw [if_neg (not_not.mpr rfl), if_neg (by simp [htransport]), if_neg (by simp [hvalid]),
        if_neg hnonce32]
      rfl
    exact ⟨_, hbytes, HostWire.ClientChallenge.round_trips _ _ hencode,
      HostWire.fits_of_length (HostWire.ClientChallenge.encode_length hencode) (by decide) (by rfl)⟩
  · cases hpayload

theorem authResult_read {r : Wire.ClientAuthResult}
    (hr : (PhoneMessage.authResult r).Sendable P D) :
    (PhoneMessage.authResult r).Delivered P D := by
  obtain ⟨payload, hpayload⟩ := hr
  unfold Wire.encodeClientAuthResult at hpayload
  split at hpayload
  · next hok =>
    have hbytes : (PhoneMessage.authResult r).encode P D = some (WireCodec.authResultBytes r) := by
      show (Wire.encodeClientAuthResult r).map _ = _
      rw [Wire.encodeClientAuthResult, if_pos hok]
      rfl
    obtain ⟨status, reason, expires⟩ := r
    simp only [Wire.authResultValid, Bool.and_eq_true, decide_eq_true_eq] at hok
    obtain ⟨⟨hlow, hhigh⟩, hrest⟩ := hok
    have hrange : expires.toNat ≤ 0xffffffff := by omega
    let v : HostWire.ClientAuthResult :=
      { status := WireCodec.authStatusByte status, reason := WireCodec.authReasonByte reason
        expiresAtUnixSeconds := UInt32.ofNat expires.toNat }
    have hnat : v.expiresAtUnixSeconds.toNat = expires.toNat := toNat_ofNat32 hrange
    have hvalid : v.valid = true := by
      cases status with
      | authorized =>
        obtain ⟨hreason, hpos⟩ := of_decide_eq_true hrest
        subst hreason
        have hpositive : 0 < v.expiresAtUnixSeconds := by
          apply UInt32.lt_iff_toNat_lt.mpr
          show 0 < v.expiresAtUnixSeconds.toNat
          omega
        show (true && decide (0 < v.expiresAtUnixSeconds)) = true
        rw [decide_eq_true hpositive]
        rfl
      | pending =>
        obtain ⟨hreason, hzero⟩ := of_decide_eq_true hrest
        subst hreason hzero
        rfl
      | rejected =>
        obtain ⟨hreason, hexpired⟩ := of_decide_eq_true hrest
        cases reason with
        | none => exact absurd rfl hreason
        | expired => rfl
        | unknown | revoked | tooMany | badSignature =>
          obtain hexpired | hzero := hexpired
          · cases hexpired
          · subst hzero
            rfl
    have hencode : v.encode = .ok (WireCodec.authResultBytes ⟨status, reason, expires⟩) := by
      rw [HostWire.ClientAuthResult.encode, if_pos hvalid, WireCodec.authResultBytes,
        toLE_eq_le32 hrange]
    refine ⟨_, hbytes, ⟨v, HostWire.ClientAuthResult.round_trips v _ hencode, rfl, rfl, ?_⟩,
      HostWire.fits_of_length (HostWire.ClientAuthResult.encode_length hencode)
        (by decide) (by rfl)⟩
    rw [hnat]
    exact Int.toNat_of_nonneg hlow
  · cases hpayload

/-! ### The format of the stream -/

theorem videoConfig_read {c : Wire.VideoConfig} (hc : (PhoneMessage.videoConfig c).Sendable P D) :
    (PhoneMessage.videoConfig c).Delivered P D := by
  obtain ⟨hwidth, hheight, harea, hfps, hbitrate⟩ := hc
  have hencode : (PhoneMessage.videoConfig c).encode P D = some (WireCodec.configBytes c) := by
    show (VideoWire.encodeConfig c.width c.height c.fps c.bitrate).map _ = _
    rw [VideoWire.encodeConfig, if_pos (by omega)]
    rfl
  have hlen : (WireCodec.configBytes c).length = 16 := by
    simp [WireCodec.configBytes]
  let v : HostWire.VideoConfig :=
    { width := (UInt16.ofNat c.width).toUInt32, height := (UInt16.ofNat c.height).toUInt32
      fps := (UInt16.ofNat c.fps).toUInt32 }
  have hw : v.width.toNat = c.width := by
    rw [UInt16.toNat_toUInt32, toNat_ofNat16 (by omega)]
  have hh : v.height.toNat = c.height := by
    rw [UInt16.toNat_toUInt32, toNat_ofNat16 (by omega)]
  have hf : v.fps.toNat = c.fps := by
    rw [UInt16.toNat_toUInt32, toNat_ofNat16 (by omega)]
  -- no limit of the PC is exceeded
  have hlimits : ¬ (v.width = 0 ∨ v.height = 0 ∨ v.fps = 0 ∨ 8192 < v.width ∨ 8192 < v.height ∨
      33554432 < v.width.toNat * v.height.toNat) := by
    simp only [UInt32.lt_iff_toNat_lt, ← UInt32.toNat_inj, hw, hh, hf]
    show ¬ (c.width = 0 ∨ c.height = 0 ∨ c.fps = 0 ∨ 8192 < c.width ∨ 8192 < c.height ∨
      33554432 < c.width * c.height)
    omega
  have hparse : HostWire.VideoConfig.parse (WireCodec.configBytes c) = .ok v := by
    have hshape : HostWire.byteAt (WireCodec.configBytes c) 12 = 1 ∧
        HostWire.byteAt (WireCodec.configBytes c) 13 = 1 := ⟨rfl, rfl⟩
    have hfields : HostWire.u16 (slice (WireCodec.configBytes c) 0 2) = UInt16.ofNat c.width ∧
        HostWire.u16 (slice (WireCodec.configBytes c) 2 4) = UInt16.ofNat c.height ∧
        HostWire.u16 (slice (WireCodec.configBytes c) 4 6) = UInt16.ofNat c.fps := by
      rw [WireCodec.configBytes, toLE_eq_le16 (n := c.width) (by omega),
        toLE_eq_le16 (n := c.height) (by omega), toLE_eq_le16 (n := c.fps) (by omega)]
      simp [slice_append_of_le, slice_append_self]
    unfold HostWire.VideoConfig.parse
    rw [if_neg (by simp [hlen, hshape]), hfields.1, hfields.2.1, hfields.2.2]
    exact if_neg hlimits
  exact ⟨_, hencode, ⟨v, hparse, hw, hh, hf⟩, HostWire.fits_of_length hlen (by decide) (by rfl)⟩

/-! ### Pairing details -/

theorem length_mapM {α β : Type} {f : α → Option β} {l : List α} {out : List β}
    (h : l.mapM f = some out) : out.length = l.length := by
  induction l generalizing out with
  | nil =>
    rw [List.mapM_nil] at h
    obtain rfl := Option.some.inj h
    rfl
  | cons a l ih =>
    rw [List.mapM_cons] at h
    obtain ⟨b, -, hrest⟩ := Option.bind_eq_some_iff.mp h
    obtain ⟨bs, hbs, hout⟩ := Option.bind_eq_some_iff.mp hrest
    obtain rfl := Option.some.inj hout
    rw [List.length_cons, List.length_cons, ih hbs]

theorem length_hexBytes {text : List UInt16} {n : ℕ} {bytes : List UInt8}
    (h : WireCodec.hexBytes P D text n = some bytes) : bytes.length = n := by
  unfold WireCodec.hexBytes at h
  split at h
  · next hok =>
    have hchunks : (chunks 2 (WireCodec.trim P text)).length = n := by
      rw [chunks, List.length_map, List.length_range, hok.1]
      omega
    rw [length_mapM h, hchunks]
  · cases h

theorem length_flatMap_addressBytes (parsed : List (UInt8 × UInt8 × UInt8 × UInt8)) :
    (parsed.flatMap WireCodec.addressBytes).length = parsed.length * 4 := by
  induction parsed with
  | nil => rfl
  | cons a parsed ih =>
    rw [List.flatMap_cons, List.length_append, ih, List.length_cons]
    show 4 + parsed.length * 4 = (parsed.length + 1) * 4
    omega

/-- The address that starts at `a`. -/
def addressAt (payload : List UInt8) (a : ℕ) : UInt8 × UInt8 × UInt8 × UInt8 :=
  (HostWire.byteAt payload a, HostWire.byteAt payload (a + 1), HostWire.byteAt payload (a + 2),
    HostWire.byteAt payload (a + 3))

/-- The addresses are read back where they were written. -/
theorem read_addresses (parsed : List (UInt8 × UInt8 × UInt8 × UInt8)) (x y : List UInt8) :
    ((List.range parsed.length).map fun index =>
      addressAt (x ++ (parsed.flatMap WireCodec.addressBytes ++ y)) (x.length + index * 4)) =
        parsed := by
  induction parsed generalizing x with
  | nil => rfl
  | cons a parsed ih =>
    have hbytes : x ++ ((a :: parsed).flatMap WireCodec.addressBytes ++ y) =
        (x ++ WireCodec.addressBytes a) ++ (parsed.flatMap WireCodec.addressBytes ++ y) := by
      simp
    have hlen : (x ++ WireCodec.addressBytes a).length = x.length + 4 := by
      simp [WireCodec.addressBytes]
    have hhead : addressAt (x ++ ((a :: parsed).flatMap WireCodec.addressBytes ++ y))
        (x.length + 0 * 4) = a := by
      simp [addressAt, HostWire.byteAt, WireCodec.addressBytes]
    have htail := ih (x ++ WireCodec.addressBytes a)
    rw [List.length_cons, List.range_succ_eq_map, List.map_cons, List.map_map, hhead, hbytes]
    congr 1
    conv => rhs; rw [← htail]
    apply List.map_congr_left
    intro index _
    show addressAt _ (x.length + (index + 1) * 4) = _
    rw [hlen]
    congr 1
    omega

/-- The payload of pairing details. -/
def pairingBytes (parsed : List (UInt8 × UInt8 × UInt8 × UInt8)) (fingerprint key : List UInt8) :
    List UInt8 :=
  [WireCodec.PAIRING_INFO_VERSION, UInt8.ofNat parsed.length] ++
    (parsed.flatMap WireCodec.addressBytes ++ (fingerprint ++ key))

section pairing

variable {parsed : List (UInt8 × UInt8 × UInt8 × UInt8)} {fingerprint key : List UInt8}

theorem length_pairingBytes (hfingerprint : fingerprint.length = 32) (hkey : key.length = 16) :
    (pairingBytes parsed fingerprint key).length = 2 + parsed.length * 4 + 48 := by
  simp only [pairingBytes, List.length_append, List.length_cons, List.length_nil,
    length_flatMap_addressBytes, hfingerprint, hkey]
  omega

theorem decode_pairingBytes (hone : 1 ≤ parsed.length) (hfour : parsed.length ≤ 4)
    (hfingerprint : fingerprint.length = 32) (hkey : key.length = 16) :
    HostWire.PairingInfo.decode (pairingBytes parsed fingerprint key) = .ok
      { addresses := parsed, fingerprint := HostWire.PairingInfo.hex fingerprint
        key := HostWire.PairingInfo.hex key } := by
  have hlen : (pairingBytes parsed fingerprint key).length = _ :=
    length_pairingBytes hfingerprint hkey
  have hcount :
      (HostWire.byteAt (pairingBytes parsed fingerprint key) 1).toNat = parsed.length := by
    show (UInt8.ofNat parsed.length).toNat = parsed.length
    rw [UInt8.toNat_ofNat']
    omega
  have hversion : HostWire.byteAt (pairingBytes parsed fingerprint key) 0 =
      HostWire.PairingInfo.VERSION := rfl
  have hbody : slice (pairingBytes parsed fingerprint key) (2 + parsed.length * 4)
      (2 + parsed.length * 4 + 32) = fingerprint := by
    rw [pairingBytes, slice_append_of_le (by simp),
      slice_append_of_le ((length_flatMap_addressBytes parsed).trans_le (by simp))]
    simp only [length_flatMap_addressBytes]
    have hzero : 2 + parsed.length * 4 - 2 - parsed.length * 4 = 0 := by omega
    simp only [List.length_cons, List.length_nil, Nat.zero_add, Nat.reduceAdd, hzero]
    apply slice_append_self
    omega
  have htail : (pairingBytes parsed fingerprint key).drop (2 + parsed.length * 4 + 32) = key := by
    have hat : 2 + parsed.length * 4 + 32 = ([WireCodec.PAIRING_INFO_VERSION,
        UInt8.ofNat parsed.length] ++
          (parsed.flatMap WireCodec.addressBytes ++ fingerprint)).length := by
      simp only [List.length_append, List.length_cons, List.length_nil, length_flatMap_addressBytes,
        hfingerprint]
      omega
    have hassoc : pairingBytes parsed fingerprint key = ([WireCodec.PAIRING_INFO_VERSION,
        UInt8.ofNat parsed.length] ++ (parsed.flatMap WireCodec.addressBytes ++ fingerprint)) ++
          key := by
      simp [pairingBytes]
    rw [hat, hassoc, List.drop_left]
  have hread := read_addresses parsed [WireCodec.PAIRING_INFO_VERSION, UInt8.ofNat parsed.length]
    (fingerprint ++ key)
  unfold HostWire.PairingInfo.decode
  simp only [hcount, hversion, hlen, HostWire.PairingInfo.FINGERPRINT_BYTES,
    HostWire.PairingInfo.KEY_BYTES, HostWire.PairingInfo.MAX_ADDRESSES, hbody, htail]
  rw [if_neg (by omega), if_neg (by simp), if_neg (by omega), if_neg (by omega)]
  exact congrArg (fun read => Except.ok (HostWire.PairingInfo.mk read _ _)) hread

end pairing

theorem pairingInfo_read {addresses : List (List UInt16)} {fingerprint key : List UInt16}
    (hm : (PhoneMessage.pairingInfo addresses fingerprint key).Sendable P D) :
    (PhoneMessage.pairingInfo addresses fingerprint key).Delivered P D := by
  obtain ⟨payload, hencode⟩ := hm
  have hpayload := hencode
  unfold WireCodec.encodePairingInfo at hpayload
  dsimp only at hpayload
  split at hpayload
  · cases hpayload
  · next hsome =>
    split at hpayload
    · next fingerprintBytes keyBytes hfingerprint hkey =>
      have hbytes : pairingBytes ((addresses.filterMap (WireCodec.parseIpv4 P D)).take 4)
          fingerprintBytes keyBytes = payload := Option.some.inj hpayload
      have hfp : fingerprintBytes.length = 32 := length_hexBytes hfingerprint
      have hk : keyBytes.length = 16 := length_hexBytes hkey
      have hone : 1 ≤ ((addresses.filterMap (WireCodec.parseIpv4 P D)).take 4).length :=
        List.length_pos_iff.mpr hsome
      have hfour : ((addresses.filterMap (WireCodec.parseIpv4 P D)).take 4).length ≤ 4 :=
        List.length_take_le ..
      have hdecode := decode_pairingBytes hone hfour hfp hk
      rw [hbytes] at hdecode
      exact ⟨payload, hencode, ⟨_, _, hfingerprint, hkey, hdecode⟩,
        HostWire.PairingInfo.fits_of_decode hdecode⟩
    · cases hpayload

/-- The phone encodes the message; under any header of its type and length the PC's header check,
with its early length check, takes what the phone writes, and the decoder gives the same values. -/
def PhoneMessage.Agrees (P : Platform) (D : WireCodec.Digits) (m : PhoneMessage) : Prop :=
  ∃ payload, m.encode P D = some payload ∧ m.ReadAs P D payload ∧
    ∀ k : WireCodec.Header, k.type = WireCodec.typeByte m.type →
      k.payloadLength.toInt = payload.length →
      WireCodec.writeFrame k payload = some (headerBytes (unsigned k) ++ payload) ∧
      HostWire.Header.decode (headerBytes (unsigned k)) = .ok (unsigned k)

theorem pc_reads (m : PhoneMessage) (hm : m.Sendable P D) : m.Agrees P D := by
  have hdelivered : m.Delivered P D := by
    cases m with
    | capabilities c => exact capabilities_read hm
    | qualityResult r => exact qualityResult_read hm
    | paused e => exact paused_read hm
    | challenge c => exact challenge_read hm
    | authResult r => exact authResult_read hm
    | pairingInfo addresses fingerprint key => exact pairingInfo_read hm
    | videoConfig c => exact videoConfig_read hm
  obtain ⟨payload, hencode, hread, hfits⟩ := hdelivered
  refine ⟨payload, hencode, hread, fun k htype hlength => ?_⟩
  have hmax : HostWire.MAX_PAYLOAD = 16777216 := rfl
  have hsize := toNat_payloadLength hlength
  have hbytes : WireCodec.headerBytes k payload.length = headerBytes (unsigned k) := by
    rw [← hsize]
    rfl
  refine ⟨?_, HostWire.Header.decode_bytes ?_ ?_⟩
  · rw [WireCodec.writeFrame, if_pos ⟨hlength.symm, hfits.1⟩, hbytes]
  · rw [hsize]
    exact hfits.1
  · rw [hsize]
    show HostWire.payloadSizeOk k.type.toUInt8 payload.length = true
    rw [htype]
    exact hfits.2

/-- Every frame either side can send is taken by the other with the same values. -/
theorem wire_agreement {unsafeScalar : Char → Bool} {P : Platform}
    (hT : AsciiTables unsafeScalar P) (D : WireCodec.Digits) :
    (∀ m : HostMessage, m.Sendable → m.Agrees unsafeScalar P) ∧
      ∀ m : PhoneMessage, m.Sendable P D → m.Agrees P D :=
  ⟨phone_reads hT, pc_reads⟩

/-- Tables that know ASCII only. -/
def asciiPlatform : Platform where
  sha256 := id
  validPublicKey _ := true
  verify _ _ _ := true
  isWhitespace c := c == ' '
  scalarIsSafe c := decide (0x20 ≤ c.toNat)

/-- The digits of ASCII. -/
def asciiDigits : WireCodec.Digits where
  isDigit u := decide (0x30 ≤ u.toNat ∧ u.toNat ≤ 0x39)
  digit radix u :=
    if 0x30 ≤ u.toNat ∧ u.toNat < 0x30 + radix then some (u.toNat - 0x30) else none

/-- The longest label and the longest list, every field of a mode at its bound. -/
theorem wire_agreement_atBounds :
    (HostMessage.clientAuth (4 :: List.replicate 64 9) (List.replicate 32 '~')
      (List.replicate 64 1)).Agrees (fun c => decide (c.toNat < 0x20)) asciiPlatform ∧
    (PhoneMessage.capabilities
      { extensionVersion := 0xff, permission := .ready, catalogRevision := 0xffff
        streamEpoch := 0xffffffff
        modes := List.replicate 256 ⟨0xffff, 0xffff, 0xffff, 0xffffffff⟩ }).Agrees
      asciiPlatform asciiDigits := by
  have hT : AsciiTables (fun c => decide (c.toNat < 0x20)) asciiPlatform := by
    refine ⟨fun c hlow _ => decide_eq_false (by omega), fun c hlow _ => decide_eq_true hlow,
      fun c hlow _ => ?_⟩
    apply beq_false_of_ne
    rintro rfl
    exact absurd hlow (by decide)
  have hagree := wire_agreement hT asciiDigits
  refine ⟨hagree.1 _ ⟨by decide, ⟨?_, ⟨'~', by decide, by decide⟩, by decide⟩, by decide⟩,
    hagree.2 _ ⟨by decide, by decide, by decide, (List.length_replicate ..).le, ?_⟩⟩
  · intro c hc
    obtain rfl := List.eq_of_mem_replicate hc
    decide
  · intro mode hmode
    obtain rfl := List.eq_of_mem_replicate hmode
    exact ⟨by decide, by decide, by decide, by decide⟩

end WireAgreement
end MobileWebcamBridge
