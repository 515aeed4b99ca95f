import MobileWebcamBridge.Host.Video.Transform

/-!
# `video/pixels.rs`: from decoded frames to the sink's pixels

The converter keeps its scalers and frames from one call to the next; after a call that reports an
error it is not used again. What FFmpeg does is a parameter, `Ffmpeg`: the frames and scaling
contexts it makes and what a scaling writes. `rgba` is `cfg!(windows)`. The sides of a fitted
rectangle are at most those of the output, so the casts to `u32` keep them.
-/

set_option autoImplicit false

namespace MobileWebcamBridge
namespace Video

open Buffer Bytes

/-- `AVPixelFormat`; the converter asks for the first three. -/
inductive Pixel
  | rgba
  | yuyv422
  | rgb24
  | other (id : ℕ)
deriving DecidableEq, Repr

/-- The bytes of one pixel in a packed format. -/
def Pixel.bytes : Pixel → ℕ
  | .rgba => 4
  | .yuyv422 => 2
  | .rgb24 => 3
  | .other _ => 0

/-! ## `ffmpeg.rs` -/

/-- An `AVFrame` of one plane. -/
structure Frame where
  format : Pixel
  width : ℕ
  height : ℕ
  linesize : ℤ
  /-- The buffer of the first plane, and where in it the plane begins; `none` for a null pointer. -/
  buffer : Option (List UInt8 × ℤ)
deriving DecidableEq, Repr

/-- The bytes of a row, which have to run downwards. -/
def Frame.stride (frame : Frame) : Outcome String ℕ :=
  if frame.linesize ≤ 0 then .error (.error "invalid FFmpeg RGB/output stride")
  else .ok frame.linesize.toNat

/-- The buffer, and the offset and size of the first plane in it. -/
def Frame.plane (frame : Frame) : Outcome String (List UInt8 × ℕ × ℕ) := do
  let size := (← frame.stride) * frame.height
  if size ≥ 2 ^ 64 then .error (.error "FFmpeg plane overflow")
  else
    match frame.buffer with
    | none => .error (.error "FFmpeg output plane unavailable")
    | some (bytes, offset) =>
      if offset < 0 then .error (.error "FFmpeg plane precedes buffer")
      else if offset.toNat + size > bytes.length then
        .error (.error "FFmpeg plane exceeds buffer")
      else .ok (bytes, offset.toNat, size)

/-- The bytes of the plane: `data` and `data_mut`. -/
def Frame.data (frame : Frame) : Outcome String (List UInt8) := do
  let (bytes, offset, size) ← frame.plane
  .ok (slice bytes offset (offset + size))

/-- The frame when the bytes that `data_mut` gave have become these. -/
def Frame.withData (frame : Frame) (data : List UInt8) : Frame :=
  { frame with
    buffer := frame.buffer.map fun (bytes, offset) =>
      (bytes.take offset.toNat ++ data ++ bytes.drop (offset.toNat + data.length), offset) }

/-- What a scaler was made for. -/
structure Key where
  sourceFormat : Pixel
  sourceWidth : ℕ
  sourceHeight : ℕ
  format : Pixel
  width : ℕ
  height : ℕ
deriving DecidableEq, Repr

/-- What the converter uses of FFmpeg. -/
structure Ffmpeg where
  /-- `av_frame_get_buffer`, for a frame of a format, a width and a height. -/
  getBuffer : Pixel → ℕ → ℕ → Except String Frame
  /-- The descriptor of the source's format and `sws_getContext`. -/
  getContext : Key → Except String Unit
  /-- `sws_scale` from the first frame into the second: the rows it says it wrote, and what the
  second frame is then. -/
  scale : Key → Frame → Frame → ℤ × Frame

/-- An error of FFmpeg is reported. -/
def check {α : Type} : Except String α → Outcome String α
  | .ok a => .ok a
  | .error message => .error (.error message)

/-- `Scaler::run`; the scaler is its key. -/
def run (F : Ffmpeg) (key : Key) (source destination : Frame) : Outcome String Frame :=
  if source.width ≠ key.sourceWidth ∨ source.height ≠ key.sourceHeight ∨
      source.format ≠ key.sourceFormat ∨ destination.format ≠ key.format ∨
      destination.width ≠ key.width ∨ destination.height ≠ key.height then
    .error (.error "FFmpeg scaler dimensions changed")
  else
    let (rows, destination) := F.scale key source destination
    if rows ≠ key.height then .error (.error s!"pixel conversion produced {rows} rows")
    else .ok destination

/-! ## The converter -/

/-- The size of the output. -/
structure Config where
  width : UInt32
  height : UInt32
deriving DecidableEq, Repr

/-- What the user has set for the picture. -/
structure Transform where
  rotation : ℕ
  mirror : Bool
  vertical : Bool
deriving DecidableEq, Repr

/-- The converter: the frames it keeps and the keys of its scalers. -/
structure Pixels where
  direct : Option Key := none
  toRgb : Option Key := none
  fitted : Option Key := none
  converted : Option Frame := none
  rgb : Option Frame := none
  rotated : Option Frame := none
  fitFrame : Option Frame := none
  bytes : List UInt8 := []
deriving DecidableEq, Repr

/-- The scaler of the slot, or a new one when the slot has none that matches. -/
def scaler (F : Ffmpeg) (slot : Option Key) (source : Frame) (format : Pixel) (width height : ℕ) :
    Outcome String Key :=
  let key : Key :=
    { sourceFormat := source.format, sourceWidth := source.width, sourceHeight := source.height,
      format, width, height }
  if slot = some key then .ok key
  else do
    check (F.getContext key)
    .ok key

/-- The frame of the slot, or a new one when the slot has none of the format and size. -/
def frame (F : Ffmpeg) (slot : Option Frame) (format : Pixel) (width height : ℕ) :
    Outcome String Frame :=
  match slot with
  | some old =>
    if old.format ≠ format ∨ old.width ≠ width ∨ old.height ≠ height then
      check (F.getBuffer format width height)
    else .ok old
  | none => check (F.getBuffer format width height)

/-- The output's format. -/
def outputFormat (rgba : Bool) : Pixel := if rgba then .rgba else .yuyv422

/-- `Vec::resize` with zeros. -/
def resize (bytes : List UInt8) (size : ℕ) : List UInt8 :=
  bytes.take size ++ List.replicate (size - bytes.length) 0

/-- So many rows of a frame, each to its offset in the output. -/
def copyRows (source : Frame) (rows len : ℕ) (offset : ℕ → ℕ) (bytes : List UInt8) :
    Outcome String (List UInt8) :=
  loop rows (fun y bytes => do
    let data ← source.data
    let stride ← source.stride
    let row ← read data (y * stride) len
    write bytes (offset y) row) bytes

/-- The bars beside a letterboxed picture: black. -/
def bars (rgba : Bool) (width height stride : ℕ) (bytes : List UInt8) :
    Outcome String (List UInt8) :=
  if rgba then .ok (bytes.mapIdx fun i _ => if i % 4 = 3 then 255 else 0)
  else
    loop height (fun y bytes =>
      loop width (fun x bytes => write bytes (y * stride + 2 * x) [16]) bytes)
      (List.replicate bytes.length 128)

/-- `convert` without a rotation, up to the flips. -/
def Pixels.straight (F : Ffmpeg) (rgba : Bool) (pixels : Pixels) (source : Frame) (c : Config)
    (stride : ℕ) : Outcome String Pixels := do
  let width := c.width.toNat
  let height := c.height.toNat
  let direct ← scaler F pixels.direct source (outputFormat rgba) width height
  let converted ← frame F pixels.converted (outputFormat rgba) width height
  let converted ← run F direct source converted
  let bytes ← copyRows converted height (rowBytes rgba width) (fun y => y * stride) pixels.bytes
  .ok { pixels with direct := some direct, converted := some converted, bytes }

/-- `convert` with a rotation, up to the flips. -/
def Pixels.turned (F : Ffmpeg) (rgba : Bool) (pixels : Pixels) (source : Frame) (c : Config)
    (stride rotation : ℕ) : Outcome String Pixels := do
  let width := c.width.toNat
  let height := c.height.toNat
  let toRgb ← scaler F pixels.toRgb source .rgb24 width height
  let rgb ← frame F pixels.rgb .rgb24 width height
  let rgb ← run F toRgb source rgb
  let (w, h) := turnedSize width height rotation
  let rotated ← frame F pixels.rotated .rgb24 w h
  let rotatedStride ← rotated.stride
  let rgbData ← rgb.data
  let rgbStride ← rgb.stride
  let rotatedData ← rotated.data
  let rotatedData ← rotate rgbData width height rgbStride rotatedData rotatedStride rotation
  let rotated := rotated.withData rotatedData
  let rect ← fit w h width height
  let fitted ← scaler F pixels.fitted rotated (outputFormat rgba) rect.width rect.height
  let fitFrame ← frame F pixels.fitFrame (outputFormat rgba) rect.width rect.height
  let fitFrame ← run F fitted rotated fitFrame
  let bytes ← bars rgba width height stride pixels.bytes
  let bytes ← copyRows fitFrame rect.height (rowBytes rgba rect.width)
    (fun y => (y + rect.y) * stride + rowBytes rgba rect.x) bytes
  .ok { pixels with
    toRgb := some toRgb, rgb := some rgb, rotated := some rotated, fitted := some fitted
    fitFrame := some fitFrame, bytes }

/-- `Pixels::convert`: the converter as it is then, with the output in `bytes`. -/
def Pixels.convert (F : Ffmpeg) (rgba : Bool) (pixels : Pixels) (source : Frame) (c : Config)
    (stride size : ℕ) (t : Transform) : Outcome String Pixels := do
  let pixels := { pixels with bytes := resize pixels.bytes size }
  let pixels ←
    if t.rotation = 0 then pixels.straight F rgba source c stride
    else pixels.turned F rgba source c stride t.rotation
  let bytes ← flips pixels.bytes c.width.toNat c.height.toNat stride rgba t.mirror
    (xor t.vertical rgba)
  .ok { pixels with bytes }

end Video
end MobileWebcamBridge
