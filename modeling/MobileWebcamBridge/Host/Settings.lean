import MobileWebcamBridge.Host.Preference
import MobileWebcamBridge.Host.Wire
import MobileWebcamBridge.Lib.Text

/-!
# `settings.rs` on Unix: the settings file

The values a file assigns are a partial map on the fourteen keys, which is all that `parse_ini`
keeps of the `BTreeMap`; `Key.all` is the map's order. `pipewire` says whether the build takes the
PipeWire backend. A file is its text and its permission bits; no file reads as the empty text.
-/

set_option autoImplicit false

namespace MobileWebcamBridge
namespace HostSettings

open Text Unicode HostQuality

/-- The result of a call, with the text of its error. -/
abbrev Result (α : Type) := Except String α

/-- The keys, in the order of their names. -/
inductive Key
  | decode | lanFingerprint | lanHost | lanKey | lastConnected | mirror | output | outputKind
  | qualityFps | qualityHeight | qualityWidth | rotation | transport | verticalFlip
deriving DecidableEq, Repr

namespace Key

/-- The known keys in the order of the map. -/
def all : List Key :=
  [decode, lanFingerprint, lanHost, lanKey, lastConnected, mirror, output, outputKind, qualityFps,
    qualityHeight, qualityWidth, rotation, transport, verticalFlip]

/-- The name of a key in the file. -/
def name : Key → List Char
  | decode => ['d', 'e', 'c', 'o', 'd', 'e']
  | lanFingerprint => ['l', 'a', 'n', 'F', 'i', 'n', 'g', 'e', 'r', 'p', 'r', 'i', 'n', 't']
  | lanHost => ['l', 'a', 'n', 'H', 'o', 's', 't']
  | lanKey => ['l', 'a', 'n', 'K', 'e', 'y']
  | lastConnected => ['l', 'a', 's', 't', 'C', 'o', 'n', 'n', 'e', 'c', 't', 'e', 'd']
  | mirror => ['m', 'i', 'r', 'r', 'o', 'r']
  | output => ['o', 'u', 't', 'p', 'u', 't']
  | outputKind => ['o', 'u', 't', 'p', 'u', 't', 'K', 'i', 'n', 'd']
  | qualityFps => ['q', 'u', 'a', 'l', 'i', 't', 'y', 'F', 'p', 's']
  | qualityHeight => ['q', 'u', 'a', 'l', 'i', 't', 'y', 'H', 'e', 'i', 'g', 'h', 't']
  | qualityWidth => ['q', 'u', 'a', 'l', 'i', 't', 'y', 'W', 'i', 'd', 't', 'h']
  | rotation => ['r', 'o', 't', 'a', 't', 'i', 'o', 'n']
  | transport => ['t', 'r', 'a', 'n', 's', 'p', 'o', 'r', 't']
  | verticalFlip => ['v', 'e', 'r', 't', 'i', 'c', 'a', 'l', 'F', 'l', 'i', 'p']

/-- `values.contains_key` of a name. -/
def ofName (text : List Char) : Option Key := all.find? fun k => decide (k.name = text)

end Key

/-- What a file gives to the known keys. -/
abbrev Values := Key → Option (List Char)

/-- A later line replaces an earlier one. -/
def Values.insert (values : Values) (key : Key) (value : List Char) : Values :=
  fun k => if k = key then some value else values k

/-! ## Values of one field -/

/-- `str::trim`. -/
def trimmed (text : List Char) : List Char := trim HostWire.isWhitespace text

/-- The number with one more digit. -/
def pushDigit (limit n : ℕ) (c : Char) : Result ℕ :=
  match digit 10 c with
  | none => .error "invalid digit found in string"
  | some d =>
    if limit < n * 10 + d then .error "number too large to fit in target type"
    else .ok (n * 10 + d)

/-- `str::parse` of an unsigned number of at most `limit`. -/
def parseUInt (limit : ℕ) (text : List Char) : Result ℕ :=
  let digits :=
    match text with
    | '+' :: c :: cs => c :: cs
    | _ => text
  if digits = [] then .error "cannot parse integer from empty string"
  else digits.foldlM (pushDigit limit) 0

/-- `to_string` of a number. -/
def showUInt (n : ℕ) : List Char := Nat.toDigits 10 n

/-- A saved boolean. -/
def parseBool (value : List Char) : Result Bool :=
  if value = ['t', 'r', 'u', 'e'] ∨ value = ['1'] then .ok true
  else if value = ['f', 'a', 'l', 's', 'e'] ∨ value = ['0'] then .ok false
  else .error "invalid saved boolean"

/-- A boolean as it is saved. -/
def showBool (b : Bool) : List Char := if b then ['t', 'r', 'u', 'e'] else ['f', 'a', 'l', 's', 'e']

/-- A digit of either case. -/
def isHexDigit (c : Char) : Bool := (digit 16 c).isSome

/-- `secure::is_hex`; no byte of a character beyond ASCII is a hexadecimal digit. -/
def isHex (value : List Char) (bytes : ℕ) : Bool :=
  (utf8 value).length == bytes * 2 && value.all isHexDigit

/-- Which virtual camera to fill. -/
inductive Backend
  | loopback
  | pipewire
deriving DecidableEq

namespace Backend

/-- The name a backend is stored under. -/
def asStr : Backend → List Char
  | loopback => ['l', 'o', 'o', 'p', 'b', 'a', 'c', 'k']
  | pipewire => ['p', 'i', 'p', 'e', 'w', 'i', 'r', 'e']

/-- The backend of a stored name. -/
def parse (value : List Char) : Option Backend :=
  if trimmed value = loopback.asStr then some loopback
  else if trimmed value = pipewire.asStr then some pipewire
  else none

/-- Whether the build serves the backend; `built` tells of the feature `pipewire`. -/
def available (built : Bool) : Backend → Bool
  | loopback => true
  | pipewire => built

end Backend

/-- What `Backend::parse` and `available` take. -/
def backendTaken (pipewire : Bool) (value : List Char) : Bool :=
  (Backend.parse value).any (Backend.available pipewire)

/-! ## Settings -/

/-- The settings of the PC. -/
structure Settings where
  transport : List Char
  lanHost : List Char
  lanFingerprint : List Char
  lanKey : List Char
  lastConnected : UInt64
  decode : List Char
  output : List Char
  outputKind : List Char
  rotation : UInt16
  mirror : Bool
  verticalFlip : Bool
  qualityWidth : UInt16
  qualityHeight : UInt16
  qualityFps : UInt16
  qualityWarning : Option String
  /-- Load clamped the saved wish to the edition cap. -/
  qualityClamped : Bool
deriving DecidableEq

namespace Settings

/-- The settings of a first start. -/
def default : Settings where
  transport := ['u', 's', 'b']
  lanHost := []
  lanFingerprint := []
  lanKey := []
  lastConnected := 0
  decode := ['a', 'u', 't', 'o']
  output := ['/', 'd', 'e', 'v', '/', 'v', 'i', 'd', 'e', 'o', '1', '0']
  outputKind := ['l', 'o', 'o', 'p', 'b', 'a', 'c', 'k']
  rotation := 0
  mirror := true
  verticalFlip := false
  qualityWidth := 0
  qualityHeight := 0
  qualityFps := 0
  qualityWarning := none
  qualityClamped := false

/-- The saved wish. -/
def qualityWish (s : Settings) : Wish := ⟨s.qualityWidth, s.qualityHeight, s.qualityFps⟩

/-- A wish is saved, and the warning about the old one goes. -/
def setQualityWish (s : Settings) (wish : Wish) : Settings :=
  { s with
    qualityWidth := wish.width, qualityHeight := wish.height, qualityFps := wish.fps
    qualityWarning := none }

/-- The transports that are taken. -/
def transports : List (List Char) := [['u', 's', 'b'], ['l', 'a', 'n']]

/-- The decoders that are taken. -/
def decoders : List (List Char) :=
  [['a', 'u', 't', 'o'], ['o', 'f', 'f'], ['s', 'o', 'f', 't', 'w', 'a', 'r', 'e'],
    ['v', 'a', 'a', 'p', 'i'], ['c', 'u', 'd', 'a'], ['d', '3', 'd', '1', '1', 'v', 'a']]

/-- A saved address or output. -/
def addressOk (text : List Char) : Bool :=
  decide ((utf8 text).length ≤ 4096) && !text.contains '\x00' && !text.contains '\n'

/-- The checks before a save and after a load. -/
def validate (pipewire : Bool) (s : Settings) : Result Unit :=
  if !transports.contains s.transport then .error "invalid transport"
  else if (s.lanFingerprint ≠ [] ∧ isHex s.lanFingerprint 32 = false) ∨
      (s.lanKey ≠ [] ∧ isHex s.lanKey 16 = false) then
    .error "invalid Wi-Fi pairing fingerprint or key"
  else if s.rotation ≠ 0 ∧ s.rotation ≠ 90 ∧ s.rotation ≠ 180 ∧ s.rotation ≠ 270 then
    .error "invalid rotation"
  else if !s.qualityWish.valid then .error "invalid quality preference"
  else if !decoders.contains s.decode then .error "invalid decoder"
  else if !addressOk s.lanHost || !addressOk s.output then .error "invalid saved address or output"
  else
    match Backend.parse s.outputKind with
    | none => .error "invalid output backend"
    | some backend =>
      if !backend.available pipewire then
        .error ("the " ++ String.ofList backend.asStr ++ " backend is not built into this host")
      else .ok ()

/-- What a save writes for a key. -/
def values (s : Settings) : Key → List Char
  | .transport => s.transport
  | .lanHost => trimmed s.lanHost
  | .lanFingerprint => trimmed s.lanFingerprint
  | .lanKey => trimmed s.lanKey
  | .decode => s.decode
  | .output => trimmed s.output
  | .outputKind => trimmed s.outputKind
  | .rotation => showUInt s.rotation.toNat
  | .mirror => showBool s.mirror
  | .verticalFlip => showBool s.verticalFlip
  | .qualityWidth => showUInt s.qualityWidth.toNat
  | .qualityHeight => showUInt s.qualityHeight.toNat
  | .qualityFps => showUInt s.qualityFps.toNat
  | .lastConnected => showUInt s.lastConnected.toNat

/-- What a file holds of the settings. -/
def persisted (s : Settings) : Settings :=
  { s with
    lanHost := trimmed s.lanHost, output := trimmed s.output, outputKind := trimmed s.outputKind
    qualityWarning := none, qualityClamped := false }

/-- A wish above the edition's limit is lowered, with a warning. -/
def clampQualityToEdition (s : Settings) (cap : EditionCap) : Settings :=
  let (wish, changed) := cap.clampWish s.qualityWish
  if changed then
    { s.setQualityWish wish with
      qualityClamped := true
      qualityWarning := some "saved quality is above this edition's limit; using the best allowed" }
  else s

/-- A field whose text must parse. -/
def field {α : Type} (values : Values) (key : Key) (parse : List Char → Result α) (start : α) :
    Result α :=
  match values key with
  | none => .ok start
  | some text => parse text

/-- A field whose text becomes `fallback` when it does not parse; whether it does. -/
def lenient (values : Values) (key : Key) (limit : ℕ) : ℕ × Bool :=
  match values key with
  | none => (0, true)
  | some text =>
    match parseUInt limit text with
    | .ok n => (n, true)
    | .error _ => (0, false)

/-- The fields as the file assigns them, before the checks. -/
def assign (values : Values) (mirror : Bool) (rotation : ℕ) (verticalFlip : Bool) : Settings where
  transport := (values .transport).getD default.transport
  lanHost := (values .lanHost).getD default.lanHost
  lanFingerprint := (values .lanFingerprint).getD default.lanFingerprint
  lanKey := (values .lanKey).getD default.lanKey
  lastConnected := UInt64.ofNat (lenient values .lastConnected (2 ^ 64 - 1)).1
  decode := (values .decode).getD default.decode
  output := (values .output).getD default.output
  outputKind := (values .outputKind).getD default.outputKind
  rotation := UInt16.ofNat rotation
  mirror
  verticalFlip
  qualityWidth := UInt16.ofNat (lenient values .qualityWidth 0xffff).1
  qualityHeight := UInt16.ofNat (lenient values .qualityHeight 0xffff).1
  qualityFps := UInt16.ofNat (lenient values .qualityFps 0xffff).1
  qualityWarning := none
  qualityClamped := false

/-- The three numbers of the wish can be read. -/
def qualityParses (values : Values) : Bool :=
  (lenient values .qualityWidth 0xffff).2 && (lenient values .qualityHeight 0xffff).2 &&
    (lenient values .qualityFps 0xffff).2

/-- The wish that does not parse or is not valid becomes Auto. -/
def checkQuality (values : Values) (s : Settings) : Settings :=
  if !qualityParses values || !s.qualityWish.valid then
    { s.setQualityWish Wish.default with
      qualityWarning := some "invalid saved quality preference; using Auto" }
  else s

/-- The settings of a file's values; only the wish may be unreadable. -/
def fromValues (pipewire : Bool) (values : Values) : Result Settings :=
  match field values .mirror parseBool default.mirror with
  | .error e => .error e
  | .ok mirror =>
    match field values .rotation (parseUInt 0xffff) default.rotation.toNat with
    | .error e => .error e
    | .ok rotation =>
      match field values .verticalFlip parseBool default.verticalFlip with
      | .error e => .error e
      | .ok verticalFlip =>
        let s :=
          (checkQuality values (assign values mirror rotation verticalFlip)).clampQualityToEdition
          activeEdition
        match s.validate pipewire with
        | .error e => .error e
        | .ok () => .ok s

end Settings

end HostSettings
end MobileWebcamBridge
