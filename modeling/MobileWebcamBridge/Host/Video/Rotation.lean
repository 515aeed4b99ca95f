import MobileWebcamBridge.Host.Video.Transform
import MobileWebcamBridge.Lib.QuarterTurn

/-!
# `rotate` is a quarter-turn action

`rotate` writes the pixel of each place of the source to its own place of the destination
(`rotate_ok`), so the destination shows the source's picture after the quarter turns of the angle
(`picture_rotate`). Turns add up, and so do the angles.
-/

set_option autoImplicit false

namespace MobileWebcamBridge
namespace Video

open Buffer Bytes Preview

variable {source destination : List UInt8} {width height stride outStride angle : ℕ}

/-- The angles a transform has. -/
def IsAngle (angle : ℕ) : Prop :=
  angle = 0 ∨ angle = 90 ∨ angle = 180 ∨ angle = 270

/-- The buffers and sizes pass the checks of `rotate`. -/
def Accepted (source : List UInt8) (width height stride : ℕ) (destination : List UInt8)
    (outStride angle : ℕ) : Prop :=
  let (ow, oh) := turnedSize width height angle
  ¬(width = 0 ∨ height = 0 ∨ stride < usize (width * 3) ∨ outStride < usize (ow * 3) ∨
    source.length / stride < height ∨ destination.length / outStride < oh)

/-- The three bytes of a pixel. -/
def pixelAt (bytes : List UInt8) (stride x y : ℕ) : List UInt8 :=
  slice bytes (y * stride + x * 3) (y * stride + x * 3 + 3)

/-- The picture that a buffer of three bytes a pixel shows. -/
def picture (bytes : List UInt8) (width height stride : ℕ) : Picture (List UInt8) where
  width := width
  height := height
  pixel := pixelAt bytes stride

/-- Where a turn takes a place, as a number of quarter turns. -/
def place (width height angle x y : ℕ) : ℕ × ℕ :=
  if angle = 90 then (height - y - 1, x)
  else if angle = 180 then (width - x - 1, height - y - 1)
  else if angle = 270 then (y, width - x - 1)
  else (x, y)

/-- Where a turn takes the pixel of a place from. -/
def origin (width height angle x y : ℕ) : ℕ × ℕ :=
  if angle = 90 then (y, height - x - 1)
  else if angle = 180 then (width - x - 1, height - y - 1)
  else if angle = 270 then (width - y - 1, x)
  else (x, y)

/-! ## Places -/

/-- The place of a pixel. -/
theorem turned_eq (h : IsAngle angle) (x y : ℕ) :
    turned width height angle x y = .ok (place width height angle x y) := by
  rcases h with rfl | rfl | rfl | rfl <;> rfl

/-- The place is within the turned picture. -/
theorem place_lt (h : IsAngle angle) {x y : ℕ} (hx : x < width) (hy : y < height) :
    (place width height angle x y).1 < (turnedSize width height angle).1 ∧
      (place width height angle x y).2 < (turnedSize width height angle).2 := by
  rcases h with rfl | rfl | rfl | rfl <;> simp [place, turnedSize] <;> omega

/-- The origin is within the picture. -/
theorem origin_lt (h : IsAngle angle) {x y : ℕ} (hx : x < (turnedSize width height angle).1)
    (hy : y < (turnedSize width height angle).2) :
    (origin width height angle x y).1 < width ∧ (origin width height angle x y).2 < height := by
  rcases h with rfl | rfl | rfl | rfl <;> simp [origin, turnedSize] at hx hy ⊢ <;> omega

/-- The place of an origin. -/
theorem place_origin (h : IsAngle angle) {x y : ℕ} (hx : x < (turnedSize width height angle).1)
    (hy : y < (turnedSize width height angle).2) :
    place width height angle (origin width height angle x y).1
      (origin width height angle x y).2 = (x, y) := by
  rcases h with rfl | rfl | rfl | rfl <;> simp [place, origin, turnedSize] at hx hy ⊢ <;> omega

/-- Two pixels have two places. -/
theorem place_injective (h : IsAngle angle) {x y x' y' : ℕ} (hx : x < width) (hy : y < height)
    (hx' : x' < width) (hy' : y' < height)
    (heq : place width height angle x y = place width height angle x' y') : x = x' ∧ y = y' := by
  rcases h with rfl | rfl | rfl | rfl <;> simp [place] at heq <;> omega

/-- The picture behind the turns of an angle. -/
theorem turn_pixel (h : IsAngle angle) (p : Picture (List UInt8)) {x y : ℕ}
    (hx : x < (turnedSize p.width p.height angle).1)
    (hy : y < (turnedSize p.width p.height angle).2) :
    (Picture.turn (angle / 90) p).pixel x y =
      p.pixel (origin p.width p.height angle x y).1 (origin p.width p.height angle x y).2 := by
  rcases h with rfl | rfl | rfl | rfl
  · rfl
  · show p.pixel y (p.height - 1 - x) = p.pixel y (p.height - x - 1)
    congr 1
    omega
  · show p.pixel (p.width - 1 - x) (p.height - 1 - y) =
      p.pixel (p.width - x - 1) (p.height - y - 1)
    congr 1 <;> omega
  · have hx : x < p.height := hx
    show p.pixel (p.width - 1 - y) (p.height - 1 - (p.height - 1 - x)) = p.pixel (p.width - y - 1) x
    congr 1 <;> omega

/-- The size of a turned picture. -/
theorem turn_size (h : IsAngle angle) (p : Picture (List UInt8)) :
    ((Picture.turn (angle / 90) p).width, (Picture.turn (angle / 90) p).height) =
      turnedSize p.width p.height angle := by
  rcases h with rfl | rfl | rfl | rfl <;> rfl

/-! ## Offsets -/

/-- A pixel lies inside the buffer. -/
theorem offset_le {x y w h s : ℕ} (hx : x < w) (hy : y < h) (hs : w * 3 ≤ s) :
    y * s + x * 3 + 3 ≤ h * s := by
  have hrow : (y + 1) * s ≤ h * s := Nat.mul_le_mul_right s hy
  rw [Nat.add_mul, Nat.one_mul] at hrow
  omega

/-- Two pixels do not overlap. -/
theorem offset_apart {x y x' y' w s : ℕ} (hx : x < w) (hx' : x' < w) (hs : w * 3 ≤ s)
    (hne : (x, y) ≠ (x', y')) :
    y * s + x * 3 + 3 ≤ y' * s + x' * 3 ∨ y' * s + x' * 3 + 3 ≤ y * s + x * 3 := by
  rcases Nat.lt_trichotomy y y' with hlt | rfl | hgt
  · left
    have hle : y * s + x * 3 + 3 ≤ y' * s := offset_le hx hlt hs
    omega
  · have hcolumn : x ≠ x' := by
      rintro rfl
      exact hne rfl
    omega
  · right
    have hle : y' * s + x' * 3 + 3 ≤ y * s := offset_le hx' hgt hs
    omega

/-- What the checks give. -/
theorem of_accepted (hw : width * 3 < 2 ^ 64) (hh : height * 3 < 2 ^ 64)
    (h : Accepted source width height stride destination outStride angle) :
    width * 3 ≤ stride ∧ (turnedSize width height angle).1 * 3 ≤ outStride ∧
      height * stride ≤ source.length ∧
      (turnedSize width height angle).2 * outStride ≤ destination.length := by
  have hturned : (turnedSize width height angle).1 * 3 < 2 ^ 64 := by
    unfold turnedSize
    split
    · exact hh
    · exact hw
  unfold Accepted at h
  dsimp only at h
  rw [usize, usize, Nat.mod_eq_of_lt hw, Nat.mod_eq_of_lt hturned] at h
  rw [not_or, not_or, not_or, not_or, not_or] at h
  obtain ⟨hw0, hh0, hstride, hout, hsource, hdestination⟩ := h
  have hpos : 0 < (turnedSize width height angle).1 := by
    unfold turnedSize
    split <;> simp <;> omega
  rw [Nat.not_lt, Nat.le_div_iff_mul_le (by omega)] at hsource hdestination
  exact ⟨by omega, by omega, hsource, hdestination⟩

/-! ## One rotation -/

/-- The pixels of the destination, by the places of the source they come from. -/
def Rotated (source destination : List UInt8) (width height stride outStride angle : ℕ)
    (out : List UInt8) : Prop :=
  Filled
    (fun p : ℕ × ℕ => (place width height angle p.2 p.1).2 * outStride +
      (place width height angle p.2 p.1).1 * 3)
    (fun p => pixelAt source stride p.2 p.1) destination {p | p.1 < height ∧ p.2 < width} out

/-- A rotation that is accepted returns the turned picture. -/
theorem rotate_ok (hw : width * 3 < 2 ^ 64) (hh : height * 3 < 2 ^ 64) (hangle : IsAngle angle)
    (h : Accepted source width height stride destination outStride angle) :
    ∃ out, rotate source width height stride destination outStride angle = .ok out ∧
      Rotated source destination width height stride outStride angle out := by
  obtain ⟨hstride, hout, hsource, hdestination⟩ := of_accepted hw hh h
  unfold Accepted at h
  unfold rotate
  dsimp only at h ⊢
  rw [if_neg h]
  have hfits : ∀ y < height, ∀ x < width, y * stride + x * 3 + 3 ≤ source.length := by
    intro y hy x hx
    exact (offset_le hx hy hstride).trans hsource
  have hlen : ∀ y < height, ∀ x < width, (pixelAt source stride x y).length = 3 := by
    intro y hy x hx
    rw [pixelAt, length_slice (hfits y hy x hx), Nat.add_sub_cancel_left]
  apply writes_ok
    (fun y x => (place width height angle x y).2 * outStride + (place width height angle x y).1 * 3)
    (fun y x => pixelAt source stride x y)
  · intro y hy x hx l
    have hread : Buffer.read (ε := String) source (y * stride + x * 3) 3 =
        .ok (pixelAt source stride x y) := if_pos (hfits y hy x hx)
    rw [turned_eq hangle, hread]
    rfl
  · intro y hy x hx
    obtain ⟨hdx, hdy⟩ := place_lt hangle hx hy
    rw [hlen y hy x hx]
    exact (offset_le hdx hdy hout).trans hdestination
  · intro y hy x hx y' hy' x' hx' hne
    rw [hlen y hy x hx, hlen y' hy' x' hx']
    apply offset_apart (place_lt hangle hx hy).1 (place_lt hangle hx' hy').1 hout
    intro heq
    obtain ⟨rfl, rfl⟩ := place_injective hangle hx hy hx' hy' heq
    exact hne rfl

/-- The pixel of a place is found at the place the turn takes it to. -/
theorem Rotated.pixel {out : List UInt8}
    (h : Rotated source destination width height stride outStride angle out)
    (hsource : height * stride ≤ source.length) (hstride : width * 3 ≤ stride) {x y : ℕ}
    (hx : x < width) (hy : y < height) :
    pixelAt out outStride (place width height angle x y).1 (place width height angle x y).2 =
      pixelAt source stride x y := by
  have hfits : y * stride + x * 3 + 3 ≤ source.length :=
    (offset_le hx hy hstride).trans hsource
  have hlen : (pixelAt source stride x y).length = 3 := by
    rw [pixelAt, length_slice hfits, Nat.add_sub_cancel_left]
  have hinside := h.inside (y, x) ⟨hy, hx⟩
  dsimp only at hinside
  rw [hlen] at hinside
  apply List.ext_getElem?
  intro k
  by_cases hk : k < 3
  · rw [← hinside k hk, pixelAt, slice, List.getElem?_take_of_lt (by omega), List.getElem?_drop]
  · have hshort : (pixelAt out outStride (place width height angle x y).1
        (place width height angle x y).2).length ≤ k := by
      rw [pixelAt, slice, List.length_take]
      omega
    rw [List.getElem?_eq_none hshort, List.getElem?_eq_none (by omega)]

/-- The destination shows the picture of the source after the quarter turns of the angle. -/
theorem picture_rotate {out : List UInt8} (hw : width * 3 < 2 ^ 64) (hh : height * 3 < 2 ^ 64)
    (hangle : IsAngle angle)
    (h : rotate source width height stride destination outStride angle = .ok out) :
    (picture out (turnedSize width height angle).1 (turnedSize width height angle).2 outStride).Same
      (Picture.turn (angle / 90) (picture source width height stride)) := by
  have haccepted : Accepted source width height stride destination outStride angle := by
    by_contra hrefused
    unfold Accepted at hrefused
    unfold rotate at h
    dsimp only at hrefused h
    rw [if_pos (not_not.mp hrefused)] at h
    cases h
  obtain ⟨hstride, -, hsource, -⟩ := of_accepted hw hh haccepted
  obtain ⟨out', hrotate, hrotated⟩ := rotate_ok hw hh hangle haccepted
  obtain rfl : out = out' := Except.ok.inj (h.symm.trans hrotate)
  have hsize := turn_size hangle (picture source width height stride)
  refine ⟨congrArg Prod.fst hsize.symm, congrArg Prod.snd hsize.symm, fun x hx y hy => ?_⟩
  obtain ⟨hox, hoy⟩ := origin_lt hangle hx hy
  have hpixel := hrotated.pixel hsource hstride hox hoy
  rw [place_origin hangle hx hy] at hpixel
  rw [turn_pixel hangle (picture source width height stride) hx hy]
  exact hpixel

/-- A turned picture does not overflow either. -/
theorem turned_size_lt (hw : width * 3 < 2 ^ 64) (hh : height * 3 < 2 ^ 64) (angle : ℕ) :
    (turnedSize width height angle).1 * 3 < 2 ^ 64 ∧
      (turnedSize width height angle).2 * 3 < 2 ^ 64 := by
  unfold turnedSize
  split
  · exact ⟨hh, hw⟩
  · exact ⟨hw, hh⟩

/-- Two rotations show the picture of their sum. -/
theorem picture_rotate_rotate {b s₂ s₃ : ℕ} {out d₂ o₂ d₃ o₃ : List UInt8}
    (hw : width * 3 < 2 ^ 64) (hh : height * 3 < 2 ^ 64) (hangle : IsAngle angle) (hb : IsAngle b)
    (h : rotate source width height stride destination outStride angle = .ok out)
    (h₂ : rotate out (turnedSize width height angle).1 (turnedSize width height angle).2 outStride
      d₂ s₂ b = .ok o₂)
    (h₃ : rotate source width height stride d₃ s₃ ((angle + b) % 360) = .ok o₃) :
    (picture o₂
      (turnedSize (turnedSize width height angle).1 (turnedSize width height angle).2 b).1
      (turnedSize (turnedSize width height angle).1 (turnedSize width height angle).2 b).2 s₂).Same
      (picture o₃ (turnedSize width height ((angle + b) % 360)).1
        (turnedSize width height ((angle + b) % 360)).2 s₃) := by
  obtain ⟨how, hoh⟩ := turned_size_lt hw hh angle
  have hsum : IsAngle ((angle + b) % 360) := by
    unfold IsAngle at hangle hb ⊢
    omega
  have hturns : (angle + b) % 360 / 90 = (b / 90 + angle / 90) % 4 := by
    unfold IsAngle at hangle hb
    omega
  have hboth := (picture_rotate how hoh hb h₂).trans ((picture_rotate hw hh hangle h).turn (b / 90))
  rw [← Picture.turn_add] at hboth
  have hone := picture_rotate hw hh hsum h₃
  rw [hturns] at hone
  exact (hboth.trans (Picture.turn_mod _ _)).trans hone.symm

/-- Four quarter turns the same way show the source. -/
theorem picture_rotate_four {s₂ s₃ s₄ : ℕ} {out d₂ o₂ d₃ o₃ d₄ o₄ : List UInt8}
    (hw : width * 3 < 2 ^ 64) (hh : height * 3 < 2 ^ 64) (hangle : angle = 90 ∨ angle = 270)
    (h : rotate source width height stride destination outStride angle = .ok out)
    (h₂ : rotate out height width outStride d₂ s₂ angle = .ok o₂)
    (h₃ : rotate o₂ width height s₂ d₃ s₃ angle = .ok o₃)
    (h₄ : rotate o₃ height width s₃ d₄ s₄ angle = .ok o₄) :
    (picture o₄ width height s₄).Same (picture source width height stride) := by
  have hsize (w k : ℕ) : turnedSize w k angle = (k, w) := if_pos hangle
  have hangle : IsAngle angle := by
    unfold IsAngle
    omega
  have hp := picture_rotate hw hh hangle h
  have hp₂ := picture_rotate hh hw hangle h₂
  have hp₃ := picture_rotate hw hh hangle h₃
  have hp₄ := picture_rotate hh hw hangle h₄
  rw [hsize] at hp hp₂ hp₃ hp₄
  have hall := hp₄.trans ((hp₃.trans ((hp₂.trans (hp.turn _)).turn _)).turn _)
  rw [← Picture.turn_add, ← Picture.turn_add, ← Picture.turn_add] at hall
  have hfour : angle / 90 + angle / 90 + angle / 90 + angle / 90 = 4 * (angle / 90) := by omega
  rw [hfour] at hall
  exact hall.trans (Picture.turn_four_mul _ _)

/-- Where the checks pass and the angle is one of the four, `rotate` reads and writes inside its
buffers. Every pixel of the source has one place in the destination, every place of the destination
is that of one pixel, and the other bytes stay. A second rotation shows what one rotation by the sum
shows, and four quarter turns show the source. `hw` and `hh` say that the bytes of a row and of a
column do not wrap around; the one caller passes sizes of 32 bits. -/
theorem rotate_action (hw : width * 3 < 2 ^ 64) (hh : height * 3 < 2 ^ 64) (hangle : IsAngle angle)
    (h : Accepted source width height stride destination outStride angle) :
    ∃ out, rotate source width height stride destination outStride angle = .ok out ∧
      (∀ x < width, ∀ y < height,
        ∃ dx < (turnedSize width height angle).1, ∃ dy < (turnedSize width height angle).2,
          turned width height angle x y = .ok (dx, dy) ∧
            pixelAt out outStride dx dy = pixelAt source stride x y) ∧
      (∀ dx < (turnedSize width height angle).1, ∀ dy < (turnedSize width height angle).2,
        ∃! p : ℕ × ℕ, p.1 < width ∧ p.2 < height ∧
          turned width height angle p.1 p.2 = .ok (dx, dy)) ∧
      out.length = destination.length ∧
      (∀ k, (∀ dx < (turnedSize width height angle).1, ∀ dy < (turnedSize width height angle).2,
          k < dy * outStride + dx * 3 ∨ dy * outStride + dx * 3 + 3 ≤ k) →
        out[k]? = destination[k]?) ∧
      (∀ b s₂ s₃ d₂ o₂ d₃ o₃, IsAngle b →
        rotate out (turnedSize width height angle).1 (turnedSize width height angle).2 outStride
          d₂ s₂ b = .ok o₂ →
        rotate source width height stride d₃ s₃ ((angle + b) % 360) = .ok o₃ →
        (picture o₂
          (turnedSize (turnedSize width height angle).1 (turnedSize width height angle).2 b).1
          (turnedSize (turnedSize width height angle).1 (turnedSize width height angle).2 b).2
          s₂).Same
          (picture o₃ (turnedSize width height ((angle + b) % 360)).1
            (turnedSize width height ((angle + b) % 360)).2 s₃)) ∧
      (∀ s₂ s₃ s₄ d₂ o₂ d₃ o₃ d₄ o₄, angle = 90 ∨ angle = 270 →
        rotate out height width outStride d₂ s₂ angle = .ok o₂ →
        rotate o₂ width height s₂ d₃ s₃ angle = .ok o₃ →
        rotate o₃ height width s₃ d₄ s₄ angle = .ok o₄ →
        (picture o₄ width height s₄).Same (picture source width height stride)) := by
  obtain ⟨hstride, hout, hsource, hdestination⟩ := of_accepted hw hh h
  obtain ⟨out, hrotate, hrotated⟩ := rotate_ok hw hh hangle h
  refine ⟨out, hrotate, ?_, ?_, hrotated.length, ?_, ?_, ?_⟩
  · intro x hx y hy
    obtain ⟨hdx, hdy⟩ := place_lt hangle hx hy
    exact ⟨_, hdx, _, hdy, turned_eq hangle x y, hrotated.pixel hsource hstride hx hy⟩
  · intro dx hdx dy hdy
    obtain ⟨hx, hy⟩ := origin_lt hangle hdx hdy
    refine ⟨origin width height angle dx dy, ⟨hx, hy, ?_⟩, ?_⟩
    · rw [turned_eq hangle, place_origin hangle hdx hdy]
    -- two pixels with one place are the same pixel
    · rintro ⟨x, y⟩ ⟨hx', hy', hturned⟩
      rw [turned_eq hangle] at hturned
      have hplace : place width height angle x y = place width height angle
          (origin width height angle dx dy).1 (origin width height angle dx dy).2 := by
        rw [place_origin hangle hdx hdy]
        exact Except.ok.inj hturned
      obtain ⟨rfl, rfl⟩ := place_injective hangle hx' hy' hx hy hplace
      rfl
  · intro k hk
    apply hrotated.outside
    rintro ⟨y, x⟩ ⟨hy, hx⟩
    obtain ⟨hdx, hdy⟩ := place_lt hangle hx hy
    have hlen : (pixelAt source stride x y).length ≤ 3 := by
      rw [pixelAt, slice, List.length_take]
      omega
    rcases hk _ hdx _ hdy with hbefore | hbehind
    · exact .inl hbefore
    · exact .inr ((Nat.add_le_add_left hlen _).trans hbehind)
  · intro b s₂ s₃ d₂ o₂ d₃ o₃ hb h₂ h₃
    exact picture_rotate_rotate hw hh hangle hb hrotate h₂ h₃
  · intro s₂ s₃ s₄ d₂ o₂ d₃ o₃ d₄ o₄ hquarter h₂ h₃ h₄
    exact picture_rotate_four hw hh hquarter hrotate h₂ h₃ h₄

/-- Two pixels in a padded row, turned into a column. -/
theorem rotate_action_row :
    Accepted [1, 1, 1, 2, 2, 2, 9] 2 1 7 [0, 0, 0, 0, 0, 0] 3 90 ∧
      ∃ out, rotate [1, 1, 1, 2, 2, 2, 9] 2 1 7 [0, 0, 0, 0, 0, 0] 3 90 = .ok out ∧
        pixelAt out 3 0 1 = [2, 2, 2] := by
  have haccepted : Accepted [1, 1, 1, 2, 2, 2, 9] 2 1 7 [0, 0, 0, 0, 0, 0] 3 90 := by
    unfold Accepted
    decide
  obtain ⟨out, hrotate, hplaced, -⟩ :=
    rotate_action (by decide) (by decide) (.inr (.inl rfl)) haccepted
  obtain ⟨dx, -, dy, -, hturned, hpixel⟩ := hplaced 1 (by decide) 0 (by decide)
  obtain ⟨rfl, rfl⟩ := Prod.mk.inj (Except.ok.inj hturned)
  exact ⟨haccepted, out, hrotate, hpixel⟩

end Video
end MobileWebcamBridge
