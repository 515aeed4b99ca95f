import Mathlib.Data.Rat.Defs
import Mathlib.Algebra.Order.Ring.Unbundled.Rat
import Mathlib.Algebra.Order.Group.Unbundled.Abs
import Mathlib.Order.Compare
import MobileWebcamBridge.Lib.Least

/-!
# `CaptureModes.kt` and `EditionPolicy.kt`: the capture modes and the choice among them

Kotlin's numbers are integers here; those of a mode come from a size within 3840x2160 and a rate of
`FPS_CANDIDATES`, and the products made of them are `Long`. The aspect errors are compared exactly,
where the source compares them as `Double`. `none` is an exception.
-/

set_option autoImplicit false

namespace MobileWebcamBridge
namespace CaptureModes

/-- The rates that are looked at. -/
def FPS_CANDIDATES : List ℤ := [15, 24, 25, 30, 50, 60]
/-- The width that the automatic choice aims at. -/
def AUTO_WIDTH : ℤ := 1280
/-- The height that the automatic choice aims at. -/
def AUTO_HEIGHT : ℤ := 720
/-- The rate that the automatic choice aims at. -/
def AUTO_FPS : ℤ := 30
/-- The bitrate of the automatic choice. -/
def AUTO_BITRATE : ℤ := 6000000
/-- `Int.MAX_VALUE`. -/
def INT_MAX : ℤ := 2147483647

/-- A range of rates of the camera. -/
structure FpsRange where
  lower : ℤ
  upper : ℤ
deriving DecidableEq, Repr

/-- A mode of a camera and a codec. -/
structure CaptureMode where
  cameraId : String
  /-- In UTF-16 units, as the choice compares it. -/
  codecName : List UInt16
  width : ℤ
  height : ℤ
  targetFps : ℤ
  aeRange : FpsRange
  bitrate : ℤ
  minFrameDurationKnown : Bool
deriving DecidableEq, Repr

/-- A size of the camera, and the least time a frame of it takes. -/
structure SizeFps where
  width : ℤ
  height : ℤ
  minFrameDurationNanos : Option ℤ
deriving DecidableEq, Repr

/-- What the camera and the codec can do. -/
structure Capabilities where
  cameraId : String
  codecName : List UInt16
  sizes : List SizeFps
  aeRanges : List FpsRange
  widthAlignment : ℤ
  heightAlignment : ℤ
  /-- First and last of the range. -/
  bitrateRange : ℤ × ℤ
  /-- Sizes with a rate that the encoder supports. -/
  encoderSizeRates : Option (List (ℤ × ℤ × ℤ))
deriving DecidableEq, Repr

/-- What the user has chosen; nothing stands for the automatic choice. -/
structure CapturePreference where
  width : Option ℤ
  height : Option ℤ
  fps : Option ℤ
deriving DecidableEq, Repr

/-- Everything is left to the automatic choice. -/
def CapturePreference.isAuto (p : CapturePreference) : Bool :=
  p.width = none ∧ p.height = none ∧ p.fps = none

/-- The mode of a preference, or why there is none. -/
inductive Resolution
  | resolved (mode : CaptureMode)
  | rejected (reason : String)
deriving DecidableEq, Repr

/-- `EditionPolicy`: whether a width, a height and a rate are allowed. -/
abbrev EditionPolicy := ℤ → ℤ → ℤ → Bool

/-- The edition allows the mode. -/
def EditionPolicy.allows (policy : EditionPolicy) (mode : CaptureMode) : Bool :=
  policy mode.width mode.height mode.targetFps

/-- The modes the edition allows. -/
def EditionPolicy.filter (policy : EditionPolicy) (modes : List CaptureMode) : List CaptureMode :=
  modes.filter policy.allows

/-- At most 1080p at 30. -/
def ossCap1080p30 : EditionPolicy := fun width height fps =>
  let longEdge := max width height
  let shortEdge := min width height
  decide (1 ≤ longEdge ∧ longEdge ≤ 1920) && decide (1 ≤ shortEdge ∧ shortEdge ≤ 1080) &&
    decide (1 ≤ fps ∧ fps ≤ 30)

/-- The first of the least. -/
def minWithOrNull {α : Type} (order : α → α → Ordering) : List α → Option α
  | [] => none
  | x :: xs => some (xs.foldl (fun least y => if order least y = .gt then y else least) x)

/-! ## The modes -/

/-- Of the ranges that end at the rate the fixed one, then the narrowest. -/
def chooseAeRange (ranges : List FpsRange) (fps : ℤ) : Option FpsRange :=
  minWithOrNull
    (fun a b =>
      (compare (if a.lower = fps then 0 else 1) (if b.lower = fps then 0 else 1)).then
        (compare (a.upper - a.lower) (b.upper - b.lower)))
    (ranges.filter fun range => range.upper = fps)

/-- `coerceIn` refuses an empty range. -/
def autoBitrate (width height fps : ℤ) (range : ℤ × ℤ) : Option ℤ :=
  let scaled := AUTO_BITRATE * width * height * fps / (AUTO_WIDTH * AUTO_HEIGHT * AUTO_FPS)
  if range.1 > range.2 then none
  else some (if scaled < range.1 then range.1 else if scaled > range.2 then range.2 else scaled)

/-- The mode of one size and one rate, if there is one. -/
def modeAt (caps : Capabilities) (size : SizeFps) (fps : ℤ) : Option (Option CaptureMode) :=
  let maxFps := (size.minFrameDurationNanos.filter (0 < ·)).map fun nanos => 1000000000 / nanos
  if maxFps.any (fun m => decide (fps > m)) then some none
  else if caps.encoderSizeRates.any (fun rates => !rates.contains (size.width, size.height, fps))
  then some none
  else
    match chooseAeRange caps.aeRanges fps with
    | none => some none
    | some aeRange => do
      let bitrate ← autoBitrate size.width size.height fps caps.bitrateRange
      some (some
        { cameraId := caps.cameraId, codecName := caps.codecName, width := size.width
          height := size.height, targetFps := fps, aeRange, bitrate
          minFrameDurationKnown := maxFps.isSome })

/-- The modes that both the camera and the codec support. -/
def supported (caps : Capabilities) : Option (List CaptureMode) :=
  if ¬(caps.widthAlignment > 0 ∧ caps.heightAlignment > 0) then none
  else do
    let modes ← caps.sizes.mapM fun size =>
      if ¬(1 ≤ size.width ∧ size.width ≤ 3840 ∧ 1 ≤ size.height ∧ size.height ≤ 2160) then some []
      else if size.width % caps.widthAlignment ≠ 0 ∨ size.height % caps.heightAlignment ≠ 0 then
        some []
      else FPS_CANDIDATES.mapM (modeAt caps size)
    some (modes.flatten.filterMap id)

/-- The modes that the phone offers. -/
def published (caps : Capabilities) (policy : EditionPolicy) : Option (List CaptureMode) :=
  (supported caps).map policy.filter

/-! ## The choice -/

/-- How far the mode's shape is from 16:9. -/
def aspectError (mode : CaptureMode) : ℚ :=
  |(mode.width : ℚ) / mode.height - (AUTO_WIDTH : ℚ) / AUTO_HEIGHT|

/-- The comparator of `autoPreferred`: its selectors one after the other. -/
def compareModes : CaptureMode → CaptureMode → Ordering :=
  compareLex
    (compareOn fun it => if it.targetFps ≤ AUTO_FPS then |it.targetFps - AUTO_FPS| else INT_MAX)
    (compareLex (compareOn fun it => if it.targetFps ≤ AUTO_FPS then 0 else it.targetFps)
      (compareLex (compareOn aspectError)
        (compareLex (compareOn fun it => |it.width * it.height - AUTO_WIDTH * AUTO_HEIGHT|)
          (compareLex (compareOn fun it => it.width)
            (compareLex (compareOn fun it => it.height) (compareOn fun it => it.codecName))))))

/-- `none` is `error("no capture mode")`. -/
def autoPreferred (modes : List CaptureMode) : Option CaptureMode :=
  minWithOrNull compareModes modes

/-- Whether a mode is what the preference asks for. -/
def CapturePreference.matches (p : CapturePreference) (mode : CaptureMode) : Bool :=
  (p.width = none ∨ some mode.width = p.width) ∧ (p.height = none ∨ some mode.height = p.height) ∧
    (p.fps = none ∨ some mode.targetFps = p.fps)

/-- `resolve`, once it has the published modes. -/
def resolveAmong (cameraId : String) (modes : List CaptureMode) (preference : CapturePreference) :
    Option Resolution :=
  if modes.isEmpty then
    some (.rejected s!"camera {cameraId} exposes no supported capture mode for this edition")
  else if !preference.isAuto then
    let matched := modes.filter preference.matches
    if matched.isEmpty then
      let width := preference.width.getD AUTO_WIDTH
      let height := preference.height.getD AUTO_HEIGHT
      let fps := preference.fps.getD AUTO_FPS
      some (.rejected s!"no supported mode matches {width}×{height} @ {fps} fps")
    else (autoPreferred matched).map .resolved
  else (autoPreferred modes).map .resolved

/-- The mode of a preference among those the phone offers. -/
def resolve (caps : Capabilities) (preference : CapturePreference) (policy : EditionPolicy) :
    Option Resolution := do
  let modes ← published caps policy
  resolveAmong caps.cameraId modes preference

end CaptureModes
end MobileWebcamBridge
