import MobileWebcamBridge.Host.Control.Messages
import MobileWebcamBridge.Host.Quality
import MobileWebcamBridge.Host.Wire

/-!
# How long the control messages are

The size of a start command depends on the escapes of its texts. Every event that the worker
produces is shorter than a line may be, whatever the phone advertised or the error said.
-/

set_option autoImplicit false

namespace MobileWebcamBridge
namespace HostControl

open Json HostQuality
open HostSettings (Settings)
open HostWire (PairingInfo)

/-- The longest line of the channel. -/
def MAX_LINE : ℕ := 16 * 1024

/-! ## Start -/

/-- The room of a tagged object. -/
theorem size_tagged (tag name : String) (fields : List (List Char × List Char)) :
    size (tagged tag name fields) =
      overhead (tag.toList :: fields.map Prod.fst) + escapedSize name.toList + 2 +
        (fields.map fun m => size m.2).sum := by
  rw [tagged, size_object (List.cons_ne_nil _ _), List.map_cons, List.map_cons, List.sum_cons]
  simp only [named, size_string]
  omega

/-- The bytes of the settings in a message, of which the escapes of the texts are not bounded by the
texts' own sizes. -/
def settingsSize (s : Settings) : ℕ :=
  212 + escapedSize s.transport + escapedSize s.lanHost + escapedSize s.lanFingerprint +
    escapedSize s.lanKey + size (number s.lastConnected.toNat) + escapedSize s.decode +
    escapedSize s.output + escapedSize s.outputKind + size (number s.rotation.toNat) +
    size (bool s.mirror) + size (bool s.verticalFlip) + size (number s.qualityWidth.toNat) +
    size (number s.qualityHeight.toNat) + size (number s.qualityFps.toNat)

/-- The bytes of a start command. -/
def startSize (s : Settings) (device : Option DeviceId) : ℕ :=
  41 + settingsSize s + size (deviceJson device)

/-- The room of the settings. -/
theorem size_settingsJson (s : Settings) : size (settingsJson s) = settingsSize s := by
  have hnames : overhead ["transport".toList, "lan_host".toList, "lan_fingerprint".toList,
      "lan_key".toList, "last_connected".toList, "decode".toList, "output".toList,
      "output_kind".toList, "rotation".toList, "mirror".toList, "vertical_flip".toList,
      "quality_width".toList, "quality_height".toList, "quality_fps".toList] = 198 := by
    decide +kernel
  rw [settingsJson, size_object (List.cons_ne_nil _ _), settingsSize]
  simp only [List.map_cons, List.map_nil, List.sum_cons, List.sum_nil, named, size_string]
  rw [hnames]
  omega

/-- The room of a start command. -/
theorem size_start (s : Settings) (device : Option DeviceId) :
    size (Command.start s device).json = startSize s device := by
  have hnames : overhead ["command".toList, "settings".toList, "device".toList] +
      escapedSize "start".toList + 2 = 41 := by
    decide +kernel
  rw [Command.json, size_tagged, startSize]
  simp only [List.map_cons, List.map_nil, List.sum_cons, List.sum_nil, named, size_settingsJson]
  rw [hnames]
  omega

/-! ## Numbers and devices, and the other commands -/

theorem size_uint8_le (n : UInt8) : size (number n.toNat) ≤ 3 :=
  size_number_le (by decide) (Nat.lt_of_lt_of_le n.toNat_lt (by decide))

theorem size_uint16_le (n : UInt16) : size (number n.toNat) ≤ 5 :=
  size_number_le (by decide) (Nat.lt_of_lt_of_le n.toNat_lt (by decide))

theorem size_uint32_le (n : UInt32) : size (number n.toNat) ≤ 10 :=
  size_number_le (by decide) (Nat.lt_of_lt_of_le n.toNat_lt (by decide))

/-- A device takes four bytes for each port, and some more. -/
theorem DeviceId.size_json_le (d : DeviceId) : size d.json ≤ 120 + d.ports.length * 4 := by
  have hnames : overhead ["bus".toList, "address".toList, "vid".toList, "pid".toList,
      "ports".toList] ≤ 100 := by
    decide +kernel
  have hbus := size_uint8_le d.bus
  have haddress := size_uint8_le d.address
  have hvid := size_uint16_le d.vid
  have hpid := size_uint16_le d.pid
  have hports : size (array (d.ports.map fun port => number port.toNat)) ≤
      d.ports.length * 4 + 2 := by
    rw [← List.length_map fun port : UInt8 => number port.toNat]
    apply size_array_le_mul
    intro x hx
    obtain ⟨port, -, rfl⟩ := List.mem_map.mp hx
    exact size_uint8_le port
  rw [DeviceId.json, size_object (List.cons_ne_nil _ _)]
  simp only [List.map_cons, List.map_nil, List.sum_cons, List.sum_nil, named]
  omega

/-- Every command but a start fits on a line. -/
theorem size_command_lt (command : Command) (hstart : ∀ s d, command ≠ .start s d) :
    size command.json < MAX_LINE := by
  cases command with
  | start s d => exact absurd rfl (hstart s d)
  | transform rotation mirror verticalFlip =>
    have hnames : overhead ["command".toList, "rotation".toList, "mirror".toList,
        "vertical_flip".toList] + escapedSize "transform".toList ≤ 100 := by
      decide +kernel
    have hrotation := size_uint16_le rotation
    have hmirror := size_bool_le mirror
    have hvertical := size_bool_le verticalFlip
    rw [Command.json, size_tagged, MAX_LINE]
    simp only [List.map_cons, List.map_nil, List.sum_cons, List.sum_nil, named]
    omega
  | prepareQuality width height fps =>
    have hnames : overhead ["command".toList, "width".toList, "height".toList, "fps".toList] +
        escapedSize "prepare_quality".toList ≤ 100 := by
      decide +kernel
    have hwidth := size_uint16_le width
    have hheight := size_uint16_le height
    have hfps := size_uint16_le fps
    rw [Command.json, size_tagged, MAX_LINE]
    simp only [List.map_cons, List.map_nil, List.sum_cons, List.sum_nil, named]
    omega
  | stop => decide +kernel

/-! ## The events of the worker -/

/-- `str::replace` of a text that is not empty; `skip` characters are already replaced. -/
def replaceAll (old new : List Char) : ℕ → List Char → List Char
  | _, [] => []
  | skip + 1, _ :: cs => replaceAll old new skip cs
  | 0, c :: cs =>
    if old.isPrefixOf (c :: cs) then new ++ replaceAll old new (old.length - 1) cs
    else c :: replaceAll old new 0 cs

/-- `video::describe_receive_failure`. -/
def describeReceiveFailure (message : List Char) : List Char :=
  let named := replaceAll "incomplete frame deadline expired".toList
    "incomplete AMB1 frame deadline expired".toList 0 message
  named.take 2048

/-- Why a quality request fails before the switch sees it, or in the switch. -/
def failureReasons : List String :=
  ["the phone has not advertised its capabilities yet",
    "camera permission or camera availability is not ready",
    "the requested quality is not in the advertised camera modes",
    "the video epoch overflowed", "the new mode did not match the request",
    "the apply deadline expired", "the apply was stopped"]

/-- Why a quality request fails, on the PC or on the phone. -/
def GivenReason (reason : String) : Prop :=
  reason ∈ failureReasons ∨ ∃ code, reason = rejectionReason code

/-- What `Decoder::active` names. -/
def decoderNames : List String := ["software", "vaapi", "cuda", "d3d11va"]

/-- The events that the worker hands to `write`. -/
inductive Event.Produced : Event → Prop
  /-- A port chain of `rusb` has at most seven ports. -/
  | usbPermission (device : DeviceId) : device.ports.length ≤ 7 →
      Event.Produced (.usbPermission device)
  | connecting : Event.Produced .connecting
  | waiting : Event.Produced .waiting
  /-- The id of the identity in hexadecimal. -/
  | authorizationPending (id : List UInt8) : id.length = 16 →
      Event.Produced (.authorizationPending (PairingInfo.hex id))
  | stats (shown : Stats) : shown.decoded < 2 ^ 64 → shown.submitted < 2 ^ 64 →
      shown.decoder ∈ decoderNames → Event.Produced (.stats shown)
  | pairingInfo (payload : List UInt8) (info : PairingInfo) :
      PairingInfo.decode payload = .ok info →
      Event.Produced (.pairingInfo (info.addresses.map showAddress) info.fingerprint info.key)
  | qualityCapabilities (permission : UInt8) (revision : UInt16) (epoch : UInt32)
      (modes : List Mode) : modes.length ≤ 256 → (∀ m ∈ modes, m.usable = true) →
      Event.Produced (.qualityCapabilities permission revision epoch modes)
  | qualityProgress (staged : Bool) : Event.Produced (.qualityProgress staged)
  | qualityApplied (width height fps : UInt16) : Event.Produced (.qualityApplied width height fps)
  | qualityFailed (reason : String) (terminal : Bool) : GivenReason reason →
      Event.Produced (.qualityFailed reason terminal)
  | error (message : List Char) :
      Event.Produced (.error (String.ofList (describeReceiveFailure message)))
  | stopped : Event.Produced .stopped

/-- Width, height and rate of a usable mode have at most ten digits together. -/
theorem size_modeJson_le {m : Mode} (h : m.usable = true) : size (modeJson m) ≤ 58 := by
  have hnames :
      overhead ["width".toList, "height".toList, "fps".toList, "bitrate".toList] = 38 := by
    decide +kernel
  simp only [Mode.usable, Wish.valid, Wish.ofTuple, Mode.tuple, Bool.and_eq_true] at h
  obtain ⟨⟨-, ⟨⟨⟨-, hwidth⟩, hheight⟩, -⟩, hfps⟩, -⟩ := h
  have hwidth := of_decide_eq_true hwidth
  have hheight := of_decide_eq_true hheight
  have hfps := of_decide_eq_true hfps
  have hwidth : size (number m.width.toNat) ≤ 4 := by
    apply size_number_le (by decide)
    exact Nat.lt_of_le_of_lt (UInt16.le_iff_toNat_le.mp hwidth) (by decide)
  have hheight : size (number m.height.toNat) ≤ 4 := by
    apply size_number_le (by decide)
    exact Nat.lt_of_le_of_lt (UInt16.le_iff_toNat_le.mp hheight) (by decide)
  have hfps : size (number m.fps.toNat) ≤ 2 := by
    apply size_number_le (by decide)
    exact Nat.lt_of_le_of_lt (UInt16.le_iff_toNat_le.mp hfps) (by decide)
  have hbitrate := size_uint32_le m.bitrate
  rw [modeJson, size_object (List.cons_ne_nil _ _)]
  simp only [List.map_cons, List.map_nil, List.sum_cons, List.sum_nil, named]
  omega

/-- The length of a text that is written out. -/
theorem length_literal_le {text : String} {cs : List Char} {k : ℕ} (h : text = String.ofList cs)
    (hk : cs.length ≤ k) : text.toList.length ≤ k := by
  rw [h, String.toList_ofList]
  exact hk

/-- The texts of refusals are short. -/
theorem length_rejectionReason_le (code : UInt8) : (rejectionReason code).toList.length ≤ 100 := by
  unfold rejectionReason
  split_ifs
  all_goals exact length_literal_le rfl (by decide)

/-- A reason the worker gives is short. -/
theorem GivenReason.length_le {reason : String} (h : GivenReason reason) :
    reason.toList.length ≤ 100 := by
  rcases h with h | ⟨code, rfl⟩
  · simp only [failureReasons, List.mem_cons, List.not_mem_nil, or_false] at h
    rcases h with rfl | rfl | rfl | rfl | rfl | rfl | rfl
    all_goals exact length_literal_le rfl (by decide)
  · exact length_rejectionReason_le code

/-- A failure reports the reason it was given. -/
theorem mem_fail {switch : Switch} {reason given : String}
    (h : .reportFailed reason ∈ (switch.fail given).2) : reason = given := by
  simpa [Switch.fail] using h

/-- The switch gives no other reason. -/
theorem givenReason_of_step {switch : Switch} {now : ℕ} {e : HostQuality.Event} {reason : String}
    (h : .reportFailed reason ∈ (switch.step now e).2) : GivenReason reason := by
  cases e with
  | epochObserved epoch =>
    simp only [Switch.step] at h
    split at h
    · simp at h
    · simp at h
  | prepare revision width height fps =>
    simp only [Switch.step, Switch.prepare] at h
    split at h
    · simp at h
    · split at h
      · simp at h
      · simp at h
  | prepareAccepted requestId streaming =>
    simp only [Switch.step] at h
    split_ifs at h
    all_goals simp at h
  | rejected requestId given =>
    simp only [Switch.step] at h
    split_ifs at h
    · simp at h
    · rw [mem_fail h]
      -- the phone's reason, in the text of the switch
      exact .inr ⟨given, rfl⟩
    · obtain rfl : reason = rejectionReason given := by simpa using h
      exact .inr ⟨given, rfl⟩
  | paused requestId epoch =>
    simp only [Switch.step] at h
    split at h
    · simp at h
    split at h
    · rw [mem_fail h]
      exact .inl (by simp [failureReasons])
    · simp at h
  | videoConfig width height fps =>
    simp only [Switch.step] at h
    split_ifs at h
    · simp at h
    · rw [mem_fail h]
      exact .inl (by simp [failureReasons])
    · simp at h
    · simp at h
  | captureStarted requestId width height fps =>
    simp only [Switch.step] at h
    split_ifs at h
    · simp at h
    · rw [mem_fail h]
      exact .inl (by simp [failureReasons])
    · simp at h
    · simp at h
  | outputReady =>
    simp only [Switch.step] at h
    split at h
    · simp at h
    split at h
    · simp at h
    · simp at h
  | deadlineExceeded =>
    simp only [Switch.step] at h
    split at h
    · rw [mem_fail h]
      exact .inl (by simp [failureReasons])
    · simp at h
  | userStop =>
    simp only [Switch.step] at h
    split at h
    · simp at h
    · obtain rfl : reason = "the apply was stopped" := by simpa using h
      exact .inl (by simp [failureReasons])

theorem length_hex (bytes : List UInt8) : (PairingInfo.hex bytes).length = 2 * bytes.length := by
  induction bytes with
  | nil => rfl
  | cons b bytes ih =>
    rw [PairingInfo.hex, List.flatMap_cons, List.length_append] at *
    rw [ih]
    simp only [List.length_cons, List.length_nil]
    omega

/-- What a phone sends of its pairing is bounded. -/
theorem pairingInfo_bounds {payload : List UInt8} {info : PairingInfo}
    (h : PairingInfo.decode payload = .ok info) :
    info.addresses.length ≤ 4 ∧ info.fingerprint.length ≤ 64 ∧ info.key.length = 32 := by
  unfold PairingInfo.decode at h
  dsimp only at h
  split at h
  · cases h
  split at h
  · cases h
  split at h
  · cases h
  split at h
  · cases h
  next hcount hlen =>
  simp only [not_not, PairingInfo.FINGERPRINT_BYTES, PairingInfo.KEY_BYTES,
    PairingInfo.MAX_ADDRESSES] at hcount hlen
  obtain rfl := Except.ok.inj h
  refine ⟨?_, ?_, ?_⟩
  · rw [List.length_map, List.length_range]
    exact hcount.2
  · rw [length_hex, Bytes.slice, List.length_take]
    simp only [PairingInfo.FINGERPRINT_BYTES]
    omega
  · rw [length_hex, List.length_drop]
    simp only [PairingInfo.FINGERPRINT_BYTES]
    omega

theorem length_showAddress_le (a : UInt8 × UInt8 × UInt8 × UInt8) :
    (showAddress a).length ≤ 15 := by
  obtain ⟨a, b, c, d⟩ := a
  have hle (n : UInt8) : (HostSettings.showUInt n.toNat).length ≤ 3 := by
    show (number n.toNat).length ≤ 3
    rw [← size_number]
    exact size_uint8_le n
  have ha := hle a
  have hb := hle b
  have hc := hle c
  have hd := hle d
  simp only [showAddress, List.length_append, List.length_cons]
  omega

/-- No event of the worker is as long as a line may be. -/
theorem Event.Produced.size_lt {event : Event} (h : event.Produced) :
    size event.json < MAX_LINE := by
  cases h with
  | connecting | waiting | stopped => decide +kernel
  | usbPermission device hports =>
    have hnames : overhead ["event".toList, "device".toList] +
        escapedSize "usb_permission".toList ≤ 100 := by
      decide +kernel
    have hdevice := device.size_json_le
    rw [Event.json, size_tagged, MAX_LINE]
    simp only [List.map_cons, List.map_nil, List.sum_cons, List.sum_nil, named]
    omega
  | authorizationPending id hlen =>
    have hnames : overhead ["event".toList, "client_id".toList] +
        escapedSize "authorization_pending".toList ≤ 100 := by
      decide +kernel
    have hid := escapedSize_le (PairingInfo.hex id)
    rw [length_hex] at hid
    rw [Event.json, size_tagged, MAX_LINE]
    simp only [List.map_cons, List.map_nil, List.sum_cons, List.sum_nil, named, size_string]
    omega
  | stats shown hdecoded hsubmitted hdecoder =>
    have hnames : overhead ["event".toList, "decoded".toList, "submitted".toList, "active".toList,
        "width".toList, "height".toList, "target_fps".toList, "decoder".toList] +
        escapedSize "stats".toList ≤ 200 := by
      decide +kernel
    have hname : escapedSize shown.decoder.toList ≤ 100 := by
      have hall : ∀ name ∈ decoderNames, escapedSize name.toList ≤ 100 := by decide +kernel
      exact hall _ hdecoder
    have hdecoded : size (number shown.decoded) ≤ 20 := size_number_le (by decide) (by omega)
    have hsubmitted : size (number shown.submitted) ≤ 20 := size_number_le (by decide) (by omega)
    have hactive := size_bool_le shown.active
    have hwidth := size_uint32_le shown.width
    have hheight := size_uint32_le shown.height
    have hfps := size_uint32_le shown.targetFps
    rw [Event.json, size_tagged, MAX_LINE]
    simp only [List.map_cons, List.map_nil, List.sum_cons, List.sum_nil, named, size_string]
    omega
  | pairingInfo payload info hdecode =>
    have hnames : overhead ["event".toList, "addresses".toList, "fingerprint".toList,
        "key".toList] + escapedSize "pairing_info".toList ≤ 100 := by
      decide +kernel
    obtain ⟨hcount, hfingerprint, hkey⟩ := pairingInfo_bounds hdecode
    have hfingerprint := escapedSize_le info.fingerprint
    have hkey := escapedSize_le info.key
    have harray : size (array ((info.addresses.map showAddress).map string)) ≤
        info.addresses.length * 93 + 2 := by
      rw [← List.length_map showAddress, ← List.length_map string]
      apply size_array_le_mul
      intro x hx
      obtain ⟨s, hs, rfl⟩ := List.mem_map.mp hx
      obtain ⟨a, -, rfl⟩ := List.mem_map.mp hs
      have hlen := length_showAddress_le a
      have hle := escapedSize_le (showAddress a)
      rw [size_string]
      omega
    rw [Event.json, size_tagged, MAX_LINE]
    simp only [List.map_cons, List.map_nil, List.sum_cons, List.sum_nil, named, size_string]
    omega
  | qualityCapabilities permission revision epoch modes hcount husable =>
    have hnames : overhead ["event".toList, "permission".toList, "revision".toList, "epoch".toList,
        "modes".toList] + escapedSize "quality_capabilities".toList ≤ 200 := by
      decide +kernel
    have hpermission := size_uint8_le permission
    have hrevision := size_uint16_le revision
    have hepoch := size_uint32_le epoch
    have harray : size (array (modes.map modeJson)) ≤ modes.length * 59 + 2 := by
      rw [← List.length_map modeJson]
      apply size_array_le_mul
      intro x hx
      obtain ⟨m, hm, rfl⟩ := List.mem_map.mp hx
      exact size_modeJson_le (husable m hm)
    rw [Event.json, size_tagged, MAX_LINE]
    simp only [List.map_cons, List.map_nil, List.sum_cons, List.sum_nil, named]
    omega
  | qualityProgress staged =>
    have hnames : overhead ["event".toList, "staged".toList] +
        escapedSize "quality_progress".toList ≤ 100 := by
      decide +kernel
    have hstaged := size_bool_le staged
    rw [Event.json, size_tagged, MAX_LINE]
    simp only [List.map_cons, List.map_nil, List.sum_cons, List.sum_nil, named]
    omega
  | qualityApplied width height fps =>
    have hnames : overhead ["event".toList, "width".toList, "height".toList, "fps".toList] +
        escapedSize "quality_applied".toList ≤ 100 := by
      decide +kernel
    have hwidth := size_uint16_le width
    have hheight := size_uint16_le height
    have hfps := size_uint16_le fps
    rw [Event.json, size_tagged, MAX_LINE]
    simp only [List.map_cons, List.map_nil, List.sum_cons, List.sum_nil, named]
    omega
  | qualityFailed reason terminal hreason =>
    have hnames : overhead ["event".toList, "reason".toList, "terminal".toList] +
        escapedSize "quality_failed".toList ≤ 100 := by
      decide +kernel
    have hlen := hreason.length_le
    have hle := escapedSize_le reason.toList
    have hterminal := size_bool_le terminal
    rw [Event.json, size_tagged, MAX_LINE]
    simp only [List.map_cons, List.map_nil, List.sum_cons, List.sum_nil, named, size_string]
    omega
  | error message =>
    have hnames :
        overhead ["event".toList, "message".toList] + escapedSize "error".toList ≤ 100 := by
      decide +kernel
    -- 2048 characters of at most six bytes each
    have hlen : (describeReceiveFailure message).length ≤ 2048 := by
      rw [describeReceiveFailure, List.length_take]
      exact Nat.min_le_left _ _
    have hle := escapedSize_le (describeReceiveFailure message)
    rw [Event.json, size_tagged, MAX_LINE]
    simp only [List.map_cons, List.map_nil, List.sum_cons, List.sum_nil, named, size_string,
      String.toList_ofList]
    omega

end HostControl
end MobileWebcamBridge
