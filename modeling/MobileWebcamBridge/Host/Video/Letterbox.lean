import MobileWebcamBridge.Host.Video.Flips
import MobileWebcamBridge.Host.Video.Pixels
import MobileWebcamBridge.Host.Video.Rotation

/-!
# Letterboxing stays inside the output

`fit` finds the largest rectangle of the picture's shape (`fit_ok`, `fit_error`). Each part of
`convert` reports an error or returns, and what it writes lies inside the buffer, as long as FFmpeg
keeps to the frames it is given (`Ffmpeg.Fills`) and the output has its rows.
-/

set_option autoImplicit false

namespace MobileWebcamBridge
namespace Video

open Buffer Bytes Preview

variable {width height outWidth outHeight stride : ℕ} {rect : Rect} {rgba : Bool}

/-! ## `fit` -/

/-- The rectangle lies inside the output, and a side of it is the largest that keeps the shape. -/
structure Rect.Fits (rect : Rect) (width height outWidth outHeight : ℕ) : Prop where
  right : rect.x + rect.width ≤ outWidth
  bottom : rect.y + rect.height ≤ outHeight
  even_x : rect.x % 2 = 0
  even_width : rect.width % 2 = 0
  largest :
    rect.height = outHeight ∧
        IsGreatest {w | w % 2 = 0 ∧ w * height ≤ width * outHeight} rect.width ∨
      rect.width = outWidth ∧ IsGreatest {h | h * width ≤ height * outWidth} rect.height

/-- There is no rectangle. -/
def Unfit (width height outWidth outHeight : ℕ) : Prop :=
  width = 0 ∨ height = 0 ∨ outWidth = 0 ∨ outHeight = 0 ∨ outWidth % 2 = 1 ∨
    (∃ w < 2, IsGreatest {w | w % 2 = 0 ∧ w * height ≤ width * outHeight} w) ∨
    IsGreatest {h | h * width ≤ height * outWidth} 0

/-- The even part is at most one smaller. -/
theorem evenPart_le (n : ℕ) : evenPart n ≤ n ∧ evenPart n % 2 = 0 ∧ n < evenPart n + 2 := by
  unfold evenPart
  omega

/-- The largest even width. -/
theorem greatest_width (width outHeight : ℕ) (hheight : 0 < height) :
    IsGreatest {w | w % 2 = 0 ∧ w * height ≤ width * outHeight}
      (evenPart (width * outHeight / height)) := by
  obtain ⟨hle, heven, hlt⟩ := evenPart_le (width * outHeight / height)
  constructor
  · exact ⟨heven, (Nat.le_div_iff_mul_le hheight).mp hle⟩
  · rintro w ⟨hw, hfits⟩
    have hdiv : w ≤ width * outHeight / height := (Nat.le_div_iff_mul_le hheight).mpr hfits
    omega

/-- The largest height. -/
theorem greatest_height (height outWidth : ℕ) (hwidth : 0 < width) :
    IsGreatest {h | h * width ≤ height * outWidth} (height * outWidth / width) := by
  constructor
  · exact Nat.div_mul_le_self _ _
  · intro h hfits
    exact (Nat.le_div_iff_mul_le hwidth).mpr hfits

/-- What `fit` answers when no product overflows. -/
theorem fit_spec (hp : width * outHeight < 2 ^ 64) (hq : height * outWidth < 2 ^ 64) :
    (∃ rect, fit width height outWidth outHeight = .ok rect ∧
      rect.Fits width height outWidth outHeight) ∨
    (∃ message, fit width height outWidth outHeight = .error (.error message)) ∧
      Unfit width height outWidth outHeight := by
  unfold fit
  rw [usize, usize, Nat.mod_eq_of_lt hp, Nat.mod_eq_of_lt hq]
  split
  · next hbad =>
    right
    refine ⟨⟨_, rfl⟩, ?_⟩
    unfold Unfit
    omega
  · next hgood =>
    rw [not_or, not_or, not_or, not_or] at hgood
    obtain ⟨hw, hh, how, heven, hoh⟩ := hgood
    by_cases hnarrow : width * outHeight ≤ height * outWidth
    · rw [if_pos hnarrow]
      obtain ⟨hle, hpart, -⟩ := evenPart_le (width * outHeight / height)
      have hgreatest := greatest_width width outHeight (Nat.pos_of_ne_zero hh)
      -- A picture that is not wider than the output fits beside it.
      have hside : width * outHeight / height ≤ outWidth := by
        apply Nat.div_le_of_le_mul
        exact hnarrow
      generalize evenPart (width * outHeight / height) = w at hle hpart hgreatest ⊢
      dsimp only
      split
      · next hsmall =>
        right
        refine ⟨⟨_, rfl⟩, ?_⟩
        have hw2 : w < 2 := by omega
        exact .inr (.inr (.inr (.inr (.inr (.inl ⟨w, hw2, hgreatest⟩)))))
      · next hlarge =>
        left
        obtain ⟨hx, hxeven, -⟩ := evenPart_le ((outWidth - w) / 2)
        refine ⟨_, rfl, ?_, ?_, hxeven, hpart, .inl ⟨rfl, hgreatest⟩⟩
        · show evenPart ((outWidth - w) / 2) + w ≤ outWidth
          omega
        · show (outHeight - outHeight) / 2 + outHeight ≤ outHeight
          omega
    · rw [if_neg hnarrow]
      have hgreatest := greatest_height height outWidth (Nat.pos_of_ne_zero hw)
      have hside : height * outWidth / width ≤ outHeight := by
        apply Nat.div_le_of_le_mul
        omega
      generalize height * outWidth / width = h at hgreatest hside ⊢
      dsimp only
      split
      · next hsmall =>
        right
        refine ⟨⟨_, rfl⟩, ?_⟩
        have hzero : h = 0 := by omega
        rw [hzero] at hgreatest
        exact .inr (.inr (.inr (.inr (.inr (.inr hgreatest)))))
      · next hlarge =>
        left
        obtain ⟨hx, hxeven, -⟩ := evenPart_le ((outWidth - outWidth) / 2)
        refine ⟨_, rfl, ?_, ?_, hxeven, ?_, .inr ⟨rfl, hgreatest⟩⟩
        · show evenPart ((outWidth - outWidth) / 2) + outWidth ≤ outWidth
          omega
        · show (outHeight - h) / 2 + h ≤ outHeight
          omega
        · show outWidth % 2 = 0
          omega

/-! ## The parts of `convert` -/

variable {F : Ffmpeg} {bytes : List UInt8} {format : Pixel} {key : Key}

/-- FFmpeg gives a frame of the format and size asked for with room for its rows, and a scaling
fills the frame it is given and does not make another of it. -/
structure Ffmpeg.Fills (F : Ffmpeg) : Prop where
  getBuffer : ∀ {format width height frame}, F.getBuffer format width height = .ok frame →
    frame.format = format ∧ frame.width = width ∧ frame.height = height ∧
      (width * format.bytes : ℕ) ≤ frame.linesize
  scale : ∀ key source destination, (F.scale key source destination).2.format = destination.format ∧
    (F.scale key source destination).2.width = destination.width ∧
    (F.scale key source destination).2.height = destination.height ∧
    (F.scale key source destination).2.linesize = destination.linesize

/-- The rows of the frame have room for its pixels. -/
def Frame.Roomy (frame : Frame) : Prop :=
  (frame.width * frame.format.bytes : ℕ) ≤ frame.linesize

/-- The frame has a format and a size, and room for its rows. -/
structure Frame.Is (frame : Frame) (format : Pixel) (width height : ℕ) : Prop where
  format : frame.format = format
  width : frame.width = width
  height : frame.height = height
  roomy : frame.Roomy

variable {source destination : Frame}

/-- The stride of a frame is positive, or an error. -/
theorem Frame.stride_safe (frame : Frame) :
    Safe frame.stride fun stride => 0 < stride ∧ stride = frame.linesize.toNat := by
  unfold Frame.stride
  split
  · exact Safe.error
  · next hpos =>
    apply Safe.ok
    omega

/-- The data of a frame is its rows, or an error. -/
theorem Frame.data_safe (frame : Frame) :
    Safe frame.data fun data => data.length = frame.linesize.toNat * frame.height := by
  unfold Frame.data Frame.plane
  rw [bind_assoc]
  apply Safe.bind frame.stride_safe
  rintro stride ⟨-, rfl⟩
  dsimp only
  split
  · exact Safe.error
  split
  · exact Safe.error
  split
  · exact Safe.error
  split
  · exact Safe.error
  · next hfits =>
    rw [Nat.not_lt] at hfits
    apply Safe.ok
    rw [length_slice hfits]
    exact Nat.add_sub_cancel_left _ _

theorem check_safe {α : Type} {x : Except String α} {Q : α → Prop} (h : ∀ a, x = .ok a → Q a) :
    Safe (check x) Q := by
  cases x with
  | ok a => exact Safe.ok (h a rfl)
  | error message => exact Safe.error

theorem scaler_safe (slot : Option Key) (source : Frame) (format : Pixel) (width height : ℕ) :
    Safe (scaler F slot source format width height) fun _ => True := by
  unfold scaler
  dsimp only
  split
  · exact Safe.ok trivial
  · apply Safe.bind (check_safe (Q := fun _ => True) fun _ _ => trivial)
    intro _ _
    exact Safe.ok trivial

/-- A frame that is made or reused has the size asked for. -/
theorem frame_safe (hF : F.Fills) {slot : Option Frame} (hslot : ∀ old ∈ slot, old.Roomy)
    (format : Pixel) (width height : ℕ) :
    Safe (frame F slot format width height) fun new => new.Is format width height := by
  have hnew : Safe (check (F.getBuffer format width height)) fun new =>
      new.Is format width height := by
    apply check_safe
    intro new hget
    obtain ⟨rfl, rfl, rfl, hroomy⟩ := hF.getBuffer hget
    exact ⟨rfl, rfl, rfl, hroomy⟩
  unfold frame
  split
  · next old =>
    split
    · exact hnew
    · next hsame =>
      apply Safe.ok
      rw [not_or, not_or, not_not, not_not, not_not] at hsame
      obtain ⟨hformat, hwidth, hheight⟩ := hsame
      exact ⟨hformat, hwidth, hheight, hslot old rfl⟩
  · exact hnew

/-- Scaling stays within the destination. -/
theorem run_safe (hF : F.Fills) (hdestination : destination.Is format width height) :
    Safe (run F key source destination) fun new => new.Is format width height := by
  unfold run
  split
  · exact Safe.error
  · dsimp only
    split
    · exact Safe.error
    · apply Safe.ok
      obtain ⟨hformat, hwidth, hheight, hlinesize⟩ := hF.scale key source destination
      refine ⟨hformat.trans hdestination.format, hwidth.trans hdestination.width,
        hheight.trans hdestination.height, ?_⟩
      unfold Frame.Roomy
      rw [hformat, hwidth, hlinesize]
      exact hdestination.roomy

/-- Rows of a frame are copied to rows that lie in the output. -/
theorem copyRows_safe {len rows : ℕ} {offset : ℕ → ℕ} (hsource : source.Is format width height)
    (hlen : len ≤ width * format.bytes) (hrows : rows ≤ height)
    (hfits : ∀ y < rows, offset y + len ≤ bytes.length) :
    Safe (copyRows source rows len offset bytes) fun out => out.length = bytes.length := by
  unfold copyRows
  apply Safe.loop
  · rfl
  intro y hy out hout
  apply Safe.bind source.data_safe
  intro data hdata
  apply Safe.bind source.stride_safe
  rintro stride ⟨-, rfl⟩
  have hroom : len ≤ source.linesize.toNat := by
    have hroomy := hsource.roomy
    unfold Frame.Roomy at hroomy
    rw [hsource.format, hsource.width] at hroomy
    omega
  have hread : y * source.linesize.toNat + len ≤ data.length := by
    have hrow : (y + 1) * source.linesize.toNat ≤ height * source.linesize.toNat :=
      Nat.mul_le_mul_right _ (by omega)
    rw [Nat.add_mul, Nat.one_mul] at hrow
    rw [hdata, hsource.height, Nat.mul_comm source.linesize.toNat height]
    omega
  obtain ⟨row, hrow, hrowlen, -⟩ := read_ok (ε := String) hread
  have hwrite : offset y + row.length ≤ out.length := by
    rw [hrowlen, hout]
    exact hfits y hy
  obtain ⟨new, hnew, hnewlen, -⟩ := write_ok (ε := String) hwrite
  rw [hrow]
  show Safe (write out (offset y) row) _
  rw [hnew]
  exact Safe.ok (hnewlen.trans hout)

/-- The bars stay within the output. -/
theorem bars_safe (hrow : rowBytes rgba width ≤ stride) (hlen : height * stride ≤ bytes.length) :
    Safe (bars rgba width height stride bytes) fun out => out.length = bytes.length := by
  cases rgba with
  | true => exact Safe.ok List.length_mapIdx
  | false =>
    show Safe (loop height _ _) _
    apply Safe.loop
    · exact List.length_replicate
    intro y hy out hout
    apply Safe.loop
    · exact hout
    intro x hx out hout
    have hcolumn : 2 * x < stride := by
      have hbytes : rowBytes false width = width * 2 := rfl
      omega
    have hplace : y * stride + 2 * x + [(16 : UInt8)].length ≤ out.length := by
      have hlt := row_lt hcolumn hy
      show y * stride + 2 * x + 1 ≤ out.length
      omega
    obtain ⟨new, hnew, hnewlen, -⟩ := write_ok (ε := String) hplace
    rw [hnew]
    exact Safe.ok (hnewlen.trans hout)

/-- A rotation stays within its destination. -/
theorem rotate_safe {source destination : List UInt8} {outStride angle : ℕ}
    (hw : width * 3 < 2 ^ 64) (hh : height * 3 < 2 ^ 64) :
    Safe (rotate source width height stride destination outStride angle) fun out =>
      out.length = destination.length := by
  by_cases haccepted : Accepted source width height stride destination outStride angle
  · by_cases hangle : IsAngle angle
    · obtain ⟨out, hrotate, hout⟩ := rotate_ok hw hh hangle haccepted
      rw [hrotate]
      exact Safe.ok hout.length
    · -- The first pixel reports the angle.
      unfold rotate
      unfold Accepted at haccepted
      dsimp only at haccepted ⊢
      rw [if_neg haccepted]
      apply Safe.loop
      · rfl
      intro y hy out hout
      apply Safe.loop
      · exact hout
      intro x hx out hout
      have hturned : turned width height angle x y = .error (.error "invalid rotation") := by
        unfold turned
        unfold IsAngle at hangle
        split <;> first | rfl | omega
      rw [hturned]
      exact Safe.error
  · unfold Accepted at haccepted
    unfold rotate
    dsimp only at haccepted ⊢
    rw [if_pos (not_not.mp haccepted)]
    exact Safe.error

/-- The flips stay within the output. -/
theorem flips_safe (hrow : rowBytes rgba width ≤ stride) (hlen : height * stride ≤ bytes.length)
    (horizontal vertical : Bool) :
    Safe (flips bytes width height stride rgba horizontal vertical) fun out =>
      out.length = bytes.length := by
  obtain ⟨out, hflips, hout⟩ := flips_mapped hrow hlen horizontal vertical
  rw [hflips]
  exact Safe.ok hout.length

/-! ## `convert` -/

/-- Every frame the converter keeps has room for its rows. -/
structure Pixels.Sound (pixels : Pixels) : Prop where
  converted : ∀ old ∈ pixels.converted, old.Roomy
  rgb : ∀ old ∈ pixels.rgb, old.Roomy
  rotated : ∀ old ∈ pixels.rotated, old.Roomy
  fitFrame : ∀ old ∈ pixels.fitFrame, old.Roomy

variable {pixels : Pixels} {c : Config}

theorem roomy_some {new : Frame} (h : new.Is format width height) :
    ∀ old ∈ some new, old.Roomy := by
  intro old hold
  obtain rfl := Option.some.inj hold
  exact h.roomy

theorem rowBytes_eq (rgba : Bool) (width : ℕ) :
    rowBytes rgba width = width * (outputFormat rgba).bytes := by
  cases rgba <;> rfl

/-- A picture that is not turned stays within the output. -/
theorem straight_safe (hF : F.Fills) (hsound : pixels.Sound)
    (hrow : rowBytes rgba c.width.toNat ≤ stride)
    (hlen : c.height.toNat * stride ≤ pixels.bytes.length) :
    Safe (pixels.straight F rgba source c stride) fun new =>
      new.Sound ∧ new.bytes.length = pixels.bytes.length := by
  unfold Pixels.straight
  apply Safe.bind (scaler_safe _ _ _ _ _)
  intro direct _
  apply Safe.bind (frame_safe hF hsound.converted _ _ _)
  intro converted hconverted
  apply Safe.bind (run_safe hF hconverted)
  intro converted hconverted
  apply Safe.bind (copyRows_safe hconverted (rowBytes_eq _ _).le le_rfl ?_)
  · intro bytes hbytes
    exact Safe.ok ⟨⟨roomy_some hconverted, hsound.rgb, hsound.rotated, hsound.fitFrame⟩, hbytes⟩
  · intro y hy
    have hnext : (y + 1) * stride ≤ c.height.toNat * stride := Nat.mul_le_mul_right _ hy
    rw [Nat.add_mul, Nat.one_mul] at hnext
    omega

/-- The rows of the rectangle lie in the output. -/
theorem rect_offset {w h size : ℕ} (hfits : rect.Fits w h width height)
    (hrow : rowBytes rgba width ≤ stride) (hlen : height * stride ≤ size) {y : ℕ}
    (hy : y < rect.height) :
    (y + rect.y) * stride + rowBytes rgba rect.x + rowBytes rgba rect.width ≤ size := by
  have hcolumns : rowBytes rgba rect.x + rowBytes rgba rect.width ≤ rowBytes rgba width := by
    have hright := hfits.right
    rw [rowBytes, rowBytes, rowBytes, ← Nat.add_mul]
    exact Nat.mul_le_mul_right _ hright
  have hrows : (y + rect.y + 1) * stride ≤ height * stride := by
    have hbottom := hfits.bottom
    exact Nat.mul_le_mul_right _ (by omega)
  rw [Nat.add_mul, Nat.one_mul] at hrows
  omega

theorem withData_is (h : source.Is format width height) (data : List UInt8) :
    (source.withData data).Is format width height :=
  ⟨h.format, h.width, h.height, h.roomy⟩

/-- So does one that is turned. -/
theorem turned_safe (hF : F.Fills) (hsound : pixels.Sound)
    (hrow : rowBytes rgba c.width.toNat ≤ stride)
    (hlen : c.height.toNat * stride ≤ pixels.bytes.length) (rotation : ℕ) :
    Safe (pixels.turned F rgba source c stride rotation) fun new =>
      new.Sound ∧ new.bytes.length = pixels.bytes.length := by
  have hw : c.width.toNat < 2 ^ 32 := c.width.toNat_lt
  have hh : c.height.toNat < 2 ^ 32 := c.height.toNat_lt
  have hsize : (turnedSize c.width.toNat c.height.toNat rotation).1 < 2 ^ 32 ∧
      (turnedSize c.width.toNat c.height.toNat rotation).2 < 2 ^ 32 := by
    unfold turnedSize
    split
    · exact ⟨hh, hw⟩
    · exact ⟨hw, hh⟩
  unfold Pixels.turned
  dsimp only
  apply Safe.bind (scaler_safe _ _ _ _ _)
  intro toRgb _
  apply Safe.bind (frame_safe hF hsound.rgb _ _ _)
  intro rgb hrgb
  apply Safe.bind (run_safe hF hrgb)
  intro rgb hrgb
  apply Safe.bind (frame_safe hF hsound.rotated _ _ _)
  intro rotated hrotated
  apply Safe.bind rotated.stride_safe
  intro rotatedStride _
  apply Safe.bind rgb.data_safe
  intro rgbData _
  apply Safe.bind rgb.stride_safe
  intro rgbStride _
  apply Safe.bind rotated.data_safe
  intro rotatedData _
  apply Safe.bind (rotate_safe (by omega) (by omega))
  intro rotatedData _
  have hrotated := withData_is hrotated rotatedData
  -- the products that `fit` compares do not wrap around
  have hproduct {a b : ℕ} (ha : a < 2 ^ 32) (hb : b < 2 ^ 32) : a * b < 2 ^ 64 :=
    calc a * b < 2 ^ 32 * 2 ^ 32 := Nat.mul_lt_mul_of_lt_of_lt ha hb
      _ = 2 ^ 64 := by decide
  -- the picture fits into the frame, or `fit` is an error
  rcases fit_spec (hproduct hsize.1 hh) (hproduct hsize.2 hw) with
    ⟨rect, hrect, hfits⟩ | ⟨⟨message, hunfit⟩, -⟩
  · rw [hrect]
    show Safe (do
      let fitted ← scaler F pixels.fitted _ (outputFormat rgba) rect.width rect.height
      _) _
    apply Safe.bind (scaler_safe _ _ _ _ _)
    intro fitted _
    apply Safe.bind (frame_safe hF hsound.fitFrame _ _ _)
    intro fitFrame hfitFrame
    apply Safe.bind (run_safe hF hfitFrame)
    intro fitFrame hfitFrame
    apply Safe.bind (bars_safe hrow hlen)
    intro bytes hbytes
    apply Safe.bind (copyRows_safe hfitFrame (rowBytes_eq _ _).le le_rfl ?_)
    · intro bytes' hbytes'
      exact Safe.ok ⟨⟨hsound.converted, roomy_some hrgb, roomy_some hrotated,
        roomy_some hfitFrame⟩, hbytes'.trans hbytes⟩
    · intro y hy
      rw [hbytes]
      exact rect_offset hfits hrow hlen hy
  · rw [hunfit]
    exact Safe.error

/-- One call: the output has the size asked for. -/
theorem convert_safe (hF : F.Fills) (hsound : pixels.Sound) (source : Frame) {size : ℕ}
    (t : Transform)
    (hrow : rowBytes rgba c.width.toNat ≤ stride) (hlen : stride * c.height.toNat ≤ size) :
    Safe (pixels.convert F rgba source c stride size t) fun new =>
      new.Sound ∧ new.bytes.length = size := by
  unfold Pixels.convert
  dsimp only
  have hresize : (resize pixels.bytes size).length = size := by
    unfold resize
    rw [List.length_append, List.length_take, List.length_replicate]
    omega
  have hsound' : ({ pixels with bytes := resize pixels.bytes size } : Pixels).Sound :=
    ⟨hsound.converted, hsound.rgb, hsound.rotated, hsound.fitFrame⟩
  have hfits : c.height.toNat * stride ≤ (resize pixels.bytes size).length := by
    rw [hresize, Nat.mul_comm]
    exact hlen
  have hflip : ∀ new : Pixels,
      new.Sound ∧ new.bytes.length = (resize pixels.bytes size).length →
      Safe (do
        let bytes ← flips new.bytes c.width.toNat c.height.toNat stride rgba t.mirror
          (xor t.vertical rgba)
        .ok { new with bytes }) fun new => new.Sound ∧ new.bytes.length = size := by
    rintro new ⟨hnew, hnewlen⟩
    apply Safe.bind (flips_safe hrow (by rw [hnewlen]; exact hfits) _ _)
    intro bytes hbytes
    exact Safe.ok ⟨⟨hnew.converted, hnew.rgb, hnew.rotated, hnew.fitFrame⟩,
      hbytes.trans (hnewlen.trans hresize)⟩
  split
  · exact Safe.bind (straight_safe hF hsound' hrow hfits) hflip
  · exact Safe.bind (turned_safe hF hsound' hrow hfits t.rotation) hflip

/-- The converters that calls make of a new one. -/
inductive Converter (F : Ffmpeg) (rgba : Bool) : Pixels → Prop
  | new : Converter F rgba {}
  | convert {pixels new : Pixels} {source : Frame} {c : Config} {stride size : ℕ} {t : Transform} :
    Converter F rgba pixels → rowBytes rgba c.width.toNat ≤ stride →
      stride * c.height.toNat ≤ size →
      pixels.convert F rgba source c stride size t = .ok new → Converter F rgba new

/-- A converter is sound at every call. -/
theorem Converter.sound (hF : F.Fills) (h : Converter F rgba pixels) : pixels.Sound := by
  induction h with
  | new =>
    constructor <;>
    · intro old hold
      cases hold
  | @convert pixels new source c stride size t _ hrow hlen hconvert ih =>
    have hsafe := convert_safe hF ih source t hrow hlen
    exact (hsafe.result new hconvert).1

/-- On sizes below 2¹⁶ no product of `fit` overflows, the rectangle it finds lies in the output with
an even offset and width and a side as large as the shape allows, and it finds none only where there
is none. With FFmpeg filling the frames it is given, `convert` reports an error or returns `size`
bytes, and never reads or writes outside a buffer on the way, for any converter, source, transform,
stride with room for a row and size with room for the rows. -/
theorem letterbox_inside (hF : F.Fills) (rgba : Bool) :
    (∀ width < 2 ^ 16, ∀ height < 2 ^ 16, ∀ outWidth < 2 ^ 16, ∀ outHeight < 2 ^ 16,
      width * outHeight < 2 ^ 32 ∧ height * outWidth < 2 ^ 32 ∧
      ((∃ rect, fit width height outWidth outHeight = .ok rect ∧
          rect.Fits width height outWidth outHeight) ∨
        (∃ message, fit width height outWidth outHeight = .error (.error message)) ∧
          Unfit width height outWidth outHeight)) ∧
    (∀ pixels, Converter F rgba pixels → ∀ source (c : Config) stride size t,
      rowBytes rgba c.width.toNat ≤ stride → stride * c.height.toNat ≤ size →
      Safe (pixels.convert F rgba source c stride size t) fun new => new.bytes.length = size) := by
  constructor
  · intro width hw height hh outWidth how outHeight hoh
    have hp : width * outHeight < 2 ^ 16 * 2 ^ 16 := Nat.mul_lt_mul_of_lt_of_lt hw hoh
    have hq : height * outWidth < 2 ^ 16 * 2 ^ 16 := Nat.mul_lt_mul_of_lt_of_lt hh how
    exact ⟨hp, hq, fit_spec (by omega) (by omega)⟩
  · intro pixels hpixels source c stride size t hrow hlen
    apply Safe.mono (convert_safe hF (hpixels.sound hF) source t hrow hlen)
    intro new hnew
    exact hnew.2

/-- Frames without padding, and scalings that leave them as they are. -/
def plain : Ffmpeg where
  getBuffer format width height := .ok
    { format, width, height, linesize := (width * format.bytes : ℕ)
      buffer := some (List.replicate (width * format.bytes * height) 0, 0) }
  getContext _ := .ok ()
  scale key _ destination := (key.height, destination)

/-- The plain functions fill what they scale into. -/
theorem plain_fills : plain.Fills where
  getBuffer h := by
    obtain rfl := Except.ok.inj h
    exact ⟨rfl, rfl, rfl, le_rfl⟩
  scale _ _ _ := ⟨rfl, rfl, rfl, rfl⟩

/-- A decoded picture. -/
def decoded : Frame :=
  { format := .rgb24, width := 8, height := 4, linesize := 24, buffer := none }

/-- It is turned, and letterboxed into an output whose rows are padded. -/
def letterboxed : Outcome String Pixels :=
  ({} : Pixels).convert plain false decoded { width := 8, height := 4 } 20 82
    { rotation := 90, mirror := true, vertical := false }

/-- A picture is converted. -/
theorem letterbox_inside_plain :
    (∃ new, letterboxed = .ok new) ∧ Safe letterboxed fun new => new.bytes.length = 82 := by
  constructor
  · have hok : letterboxed.isOk = true := by decide +kernel
    cases h : letterboxed with
    | ok new => exact ⟨new, rfl⟩
    | error e =>
      rw [h] at hok
      cases hok
  have hrow : rowBytes false (8 : UInt32).toNat ≤ 20 := by decide
  have hlen : 20 * (4 : UInt32).toNat ≤ 82 := by decide
  exact (letterbox_inside plain_fills false).2 {} .new decoded { width := 8, height := 4 } 20 82
    { rotation := 90, mirror := true, vertical := false } hrow hlen

end Video
end MobileWebcamBridge
