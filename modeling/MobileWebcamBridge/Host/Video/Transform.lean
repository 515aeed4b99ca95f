import Mathlib.Order.Bounds.Defs
import MobileWebcamBridge.Host.Preview
import MobileWebcamBridge.Lib.Buffer

/-!
# `video/transform.rs`: fitting, rotating and flipping pixels

The arithmetic of the checks is that of `usize`. The indices are exact numbers: one that is past its
buffer is a panic, and since none is, none of them wraps either.
-/

set_option autoImplicit false

namespace MobileWebcamBridge
namespace Video

open Buffer Preview

/-- A rectangle of the output. -/
structure Rect where
  x : ℕ
  y : ℕ
  width : ℕ
  height : ℕ
deriving DecidableEq, Repr

/-- `n & !1`. -/
def evenPart (n : ℕ) : ℕ := n - n % 2

/-- The largest rectangle of the picture's shape, on an even column. -/
def fit (width height outWidth outHeight : ℕ) : Outcome String Rect :=
  if width = 0 ∨ height = 0 ∨ outWidth < 2 ∨ outWidth % 2 ≠ 0 ∨ outHeight = 0 then
    .error (.error "invalid fit dimensions")
  else
    let (w, h) :=
      if usize (width * outHeight) ≤ usize (height * outWidth) then
        (evenPart (usize (width * outHeight) / height), outHeight)
      else (outWidth, usize (height * outWidth) / width)
    if w < 2 ∨ h = 0 then .error (.error "rotated image is too narrow")
    else .ok
      { x := evenPart ((outWidth - w) / 2)
        y := (outHeight - h) / 2
        width := w
        height := h }

/-- The dimensions behind a turn. -/
def turnedSize (width height angle : ℕ) : ℕ × ℕ :=
  if angle = 90 ∨ angle = 270 then (height, width) else (width, height)

/-- Where a turn takes a pixel. -/
def turned (width height angle x y : ℕ) : Outcome String (ℕ × ℕ) :=
  match angle with
  | 0 => .ok (x, y)
  | 90 => .ok (height - y - 1, x)
  | 180 => .ok (width - x - 1, height - y - 1)
  | 270 => .ok (y, width - x - 1)
  | _ => .error (.error "invalid rotation")

/-- The picture turned by a multiple of 90 degrees into a second buffer. -/
def rotate (source : List UInt8) (width height stride : ℕ) (destination : List UInt8)
    (outStride angle : ℕ) : Outcome String (List UInt8) :=
  let (ow, oh) := turnedSize width height angle
  if width = 0 ∨ height = 0 ∨ stride < usize (width * 3) ∨ outStride < usize (ow * 3) ∨
      source.length / stride < height ∨ destination.length / outStride < oh then
    .error (.error "invalid RGB buffer")
  else
    loop height (fun y destination =>
      loop width (fun x destination => do
        let (dx, dy) ← turned width height angle x y
        let pixel ← read source (y * stride + x * 3) 3
        write destination (dy * outStride + dx * 3) pixel) destination) destination

/-- The bytes of a row. -/
def rowBytes (rgba : Bool) (width : ℕ) : ℕ := width * if rgba then 4 else 2

/-- What `flips` does to one row when it mirrors. -/
def mirrorRow (rgba : Bool) (width : ℕ) (row : List UInt8) : Outcome String (List UInt8) :=
  if rgba then
    loop (width / 2) (fun x row =>
      loop 4 (fun c row => swap row (x * 4 + c) ((width - x - 1) * 4 + c)) row) row
  else do
    -- The two lumas of a macropixel change places, and then the macropixels.
    let row ← loop (row.length / 4) (fun pair row => swap row (4 * pair) (4 * pair + 2)) row
    loop (width / 4) (fun p row =>
      loop 4 (fun c row => swap row (p * 4 + c) ((width / 2 - p - 1) * 4 + c)) row) row

/-- Both flips, in place. -/
def flips (bytes : List UInt8) (width height stride : ℕ) (rgba horizontal vertical : Bool) :
    Outcome String (List UInt8) := do
  let bytes ← loop height (fun y bytes => do
    let row ← read bytes (y * stride) (rowBytes rgba width)
    if horizontal then
      let row ← mirrorRow rgba width row
      write bytes (y * stride) row
    else .ok bytes) bytes
  if vertical then
    loop (height / 2) (fun y bytes =>
      loop (rowBytes rgba width) (fun x bytes =>
        swap bytes (y * stride + x) ((height - y - 1) * stride + x)) bytes) bytes
  else .ok bytes

/-- The test of the source that a flip keeps the chroma and the padding. -/
example : flips [1, 10, 2, 20, 3, 30, 4, 40, 99, 99] 4 1 10 false true false =
    .ok [4, 30, 3, 40, 2, 10, 1, 20, 99, 99] := by decide

end Video
end MobileWebcamBridge
