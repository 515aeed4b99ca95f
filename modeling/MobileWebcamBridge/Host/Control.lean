import MobileWebcamBridge.Host.Settings

/-!
# `control.rs`: the messages between the GUI and its worker
-/

set_option autoImplicit false

namespace MobileWebcamBridge
namespace HostControl

open HostQuality

/-- `usb::DeviceId`. -/
structure DeviceId where
  bus : UInt8
  address : UInt8
  vid : UInt16
  pid : UInt16
  ports : List UInt8
deriving DecidableEq, Repr

/-- What the window sends to its worker. -/
inductive Command
  | start (settings : HostSettings.Settings) (device : Option DeviceId)
  | transform (rotation : UInt16) (mirror verticalFlip : Bool)
  | prepareQuality (width height fps : UInt16)
  | stop

/-- The numbers of a report, of which the window shows most. -/
structure Stats where
  decoded : ℕ
  submitted : ℕ
  active : Bool
  width : UInt32
  height : UInt32
  targetFps : UInt32
  decoder : String
deriving DecidableEq, Repr

/-- What a worker sends to the window. -/
inductive Event
  | usbPermission (device : DeviceId)
  | connecting
  | waiting
  | authorizationPending (clientId : List Char)
  | stats (stats : Stats)
  | pairingInfo (addresses : List (List Char)) (fingerprint key : List Char)
  | qualityCapabilities (permission : UInt8) (revision : UInt16) (epoch : UInt32)
      (modes : List Mode)
  | qualityProgress (staged : Bool)
  | qualityApplied (width height fps : UInt16)
  | qualityFailed (reason : String) (terminal : Bool)
  | error (message : String)
  | stopped
deriving DecidableEq, Repr

/-- `Ipv4Addr::to_string`. -/
def showAddress : UInt8 × UInt8 × UInt8 × UInt8 → List Char
  | (a, b, c, d) =>
    HostSettings.showUInt a.toNat ++ '.' :: HostSettings.showUInt b.toNat ++
      '.' :: HostSettings.showUInt c.toNat ++ '.' :: HostSettings.showUInt d.toNat

end HostControl
end MobileWebcamBridge
