import MobileWebcamBridge.Host.Control
import MobileWebcamBridge.Lib.Json

/-!
# The JSON of the control messages

What `serde_json::to_vec` writes of a command or an event: an object with the tag before the fields,
the fields in the order of the source. The two fields of the settings that are skipped stand in no
message and come back as their defaults. Below, how many bytes a message takes.
-/

set_option autoImplicit false

namespace MobileWebcamBridge
namespace HostControl

open Json HostQuality
open HostSettings (Settings)

/-- A member under a name of the source. -/
def named (name : String) (value : List Char) : List Char × List Char := (name.toList, value)

/-- A unit-like variant or one with fields, after its tag. -/
def tagged (tag name : String) (fields : List (List Char × List Char)) : List Char :=
  object (named tag (string name.toList) :: fields)

/-! ## The messages -/

/-- The settings as the derived serializer writes them. -/
def settingsJson (s : Settings) : List Char :=
  object [
    named "transport" (string s.transport),
    named "lan_host" (string s.lanHost),
    named "lan_fingerprint" (string s.lanFingerprint),
    named "lan_key" (string s.lanKey),
    named "last_connected" (number s.lastConnected.toNat),
    named "decode" (string s.decode),
    named "output" (string s.output),
    named "output_kind" (string s.outputKind),
    named "rotation" (number s.rotation.toNat),
    named "mirror" (bool s.mirror),
    named "vertical_flip" (bool s.verticalFlip),
    named "quality_width" (number s.qualityWidth.toNat),
    named "quality_height" (number s.qualityHeight.toNat),
    named "quality_fps" (number s.qualityFps.toNat)]

namespace DeviceId

/-- A device as the derived serializer writes it. -/
def json (d : DeviceId) : List Char :=
  object [
    named "bus" (number d.bus.toNat),
    named "address" (number d.address.toNat),
    named "vid" (number d.vid.toNat),
    named "pid" (number d.pid.toNat),
    named "ports" (array (d.ports.map fun port => number port.toNat))]

end DeviceId

/-- A mode as the derived serializer writes it. -/
def modeJson (m : Mode) : List Char :=
  object [
    named "width" (number m.width.toNat),
    named "height" (number m.height.toNat),
    named "fps" (number m.fps.toNat),
    named "bitrate" (number m.bitrate.toNat)]

/-- An `Option` field. -/
def deviceJson : Option DeviceId → List Char
  | none => null
  | some d => d.json

namespace Command

/-- A command under its tag. -/
def json : Command → List Char
  | .start settings device =>
    tagged "command" "start"
      [named "settings" (settingsJson settings), named "device" (deviceJson device)]
  | .transform rotation mirror verticalFlip =>
    tagged "command" "transform"
      [named "rotation" (number rotation.toNat), named "mirror" (bool mirror),
        named "vertical_flip" (bool verticalFlip)]
  | .prepareQuality width height fps =>
    tagged "command" "prepare_quality"
      [named "width" (number width.toNat), named "height" (number height.toNat),
        named "fps" (number fps.toNat)]
  | .stop => tagged "command" "stop" []

/-- What is read of a command that was written: the skipped fields are the defaults. -/
def received : Command → Command
  | .start settings device =>
    .start { settings with qualityWarning := none, qualityClamped := false } device
  | command => command

end Command

namespace Event

/-- An event under its tag. -/
def json : Event → List Char
  | .usbPermission device => tagged "event" "usb_permission" [named "device" device.json]
  | .connecting => tagged "event" "connecting" []
  | .waiting => tagged "event" "waiting" []
  | .authorizationPending clientId =>
    tagged "event" "authorization_pending" [named "client_id" (string clientId)]
  | .stats shown =>
    tagged "event" "stats"
      [named "decoded" (number shown.decoded), named "submitted" (number shown.submitted),
        named "active" (bool shown.active), named "width" (number shown.width.toNat),
        named "height" (number shown.height.toNat),
        named "target_fps" (number shown.targetFps.toNat),
        named "decoder" (string shown.decoder.toList)]
  | .pairingInfo addresses fingerprint key =>
    tagged "event" "pairing_info"
      [named "addresses" (array (addresses.map string)),
        named "fingerprint" (string fingerprint), named "key" (string key)]
  | .qualityCapabilities permission revision epoch modes =>
    tagged "event" "quality_capabilities"
      [named "permission" (number permission.toNat), named "revision" (number revision.toNat),
        named "epoch" (number epoch.toNat), named "modes" (array (modes.map modeJson))]
  | .qualityProgress staged =>
    tagged "event" "quality_progress" [named "staged" (bool staged)]
  | .qualityApplied width height fps =>
    tagged "event" "quality_applied"
      [named "width" (number width.toNat), named "height" (number height.toNat),
        named "fps" (number fps.toNat)]
  | .qualityFailed reason terminal =>
    tagged "event" "quality_failed"
      [named "reason" (string reason.toList), named "terminal" (bool terminal)]
  | .error message => tagged "event" "error" [named "message" (string message.toList)]
  | .stopped => tagged "event" "stopped" []

end Event

/-! ## One line each -/

/-- A tagged object is one line, if its fields are. -/
theorem oneLine_tagged (tag name : String) {fields : List (List Char × List Char)}
    (h : ∀ m ∈ fields, OneLine m.2) : OneLine (tagged tag name fields) :=
  oneLine_object (List.forall_mem_cons.mpr ⟨oneLine_string _, h⟩)

theorem oneLine_settingsJson (s : Settings) : OneLine (settingsJson s) := by
  apply oneLine_object
  simp [named, oneLine_string, oneLine_number, oneLine_bool]

theorem DeviceId.oneLine_json (d : DeviceId) : OneLine d.json := by
  have hports : OneLine (array (d.ports.map fun port => number port.toNat)) := by
    apply oneLine_array
    simp [oneLine_number]
  apply oneLine_object
  simp [named, oneLine_number, hports]

theorem oneLine_deviceJson (device : Option DeviceId) : OneLine (deviceJson device) := by
  cases device with
  | none => exact oneLine_null
  | some d => exact d.oneLine_json

theorem oneLine_modeJson (m : Mode) : OneLine (modeJson m) := by
  apply oneLine_object
  simp [named, oneLine_number]

/-- A command is one line. -/
theorem Command.oneLine_json (command : Command) : OneLine command.json := by
  cases command with
  | start settings device =>
    apply oneLine_tagged
    simp [named, oneLine_settingsJson, oneLine_deviceJson]
  | transform | prepareQuality | stop =>
    apply oneLine_tagged
    simp [named, oneLine_number, oneLine_bool]

/-- An event is one line. -/
theorem Event.oneLine_json (event : Event) : OneLine event.json := by
  cases event with
  | usbPermission device =>
    apply oneLine_tagged
    simp [named, device.oneLine_json]
  | pairingInfo addresses fingerprint key =>
    have haddresses : OneLine (array (addresses.map string)) := by
      apply oneLine_array
      simp [oneLine_string]
    apply oneLine_tagged
    simp [named, haddresses, oneLine_string]
  | qualityCapabilities permission revision epoch modes =>
    have hmodes : OneLine (array (modes.map modeJson)) := by
      apply oneLine_array
      simp [oneLine_modeJson]
    apply oneLine_tagged
    simp [named, hmodes, oneLine_number]
  | connecting | waiting | authorizationPending | stats | qualityProgress | qualityApplied
  | qualityFailed | error | stopped =>
    apply oneLine_tagged
    simp [named, oneLine_string, oneLine_number, oneLine_bool]

end HostControl
end MobileWebcamBridge
