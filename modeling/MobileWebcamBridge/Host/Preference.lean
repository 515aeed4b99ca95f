import Mathlib.Data.Nat.Notation
import Mathlib.Data.Rat.Defs
import Mathlib.Algebra.Order.Ring.Unbundled.Rat
import Mathlib.Tactic.Common
import Mathlib.Tactic.Ring

/-!
# `quality/preference.rs` and `quality/edition.rs`: the saved wish and its cap
-/

set_option autoImplicit false

namespace MobileWebcamBridge
namespace HostQuality

/-- A saved wish, not an applied mode. Size and fps have independent Auto (0). -/
structure Wish where
  width : UInt16
  height : UInt16
  fps : UInt16
deriving DecidableEq, Repr

/-- No wish: the best mode of any size and rate. -/
def Wish.default : Wish := ⟨0, 0, 0⟩

/-- Whether a saved wish may be used. -/
def Wish.valid (w : Wish) : Bool :=
  ((w.width == 0) == (w.height == 0)) && decide (w.width ≤ 3840) && decide (w.height ≤ 2160) &&
    w.width % 2 == 0 && decide (w.fps ≤ 60)

/-- Width, height and rate. -/
abbrev Tuple := UInt16 × UInt16 × UInt16

/-- The wish as a tuple. -/
def Wish.tuple (w : Wish) : Tuple := (w.width, w.height, w.fps)

/-- `From<(u16, u16, u16)>`. -/
def Wish.ofTuple (t : Tuple) : Wish := ⟨t.1, t.2.1, t.2.2⟩

/-- One advertised capture mode from the phone. -/
structure Mode where
  width : UInt16
  height : UInt16
  fps : UInt16
  bitrate : UInt32
deriving DecidableEq, Repr

/-- The size and rate of a mode. -/
def Mode.tuple (m : Mode) : Tuple := (m.width, m.height, m.fps)

/-- Whether an advertised mode may be captured. -/
def Mode.usable (m : Mode) : Bool :=
  m.width != 0 && m.height != 0 && m.fps != 0 && (Wish.ofTuple m.tuple).valid && m.bitrate != 0

/-- Rates to 30 from the highest down, then the rates above from the lowest up. -/
def fpsRank (fps : UInt16) : ℕ × ℕ := if fps ≤ 30 then (0, 30 - fps.toNat) else (1, fps.toNat)

/-- How far the picture's area is from 720p. -/
def areaError (m : Mode) : ℕ :=
  let area := m.width.toNat * m.height.toNat
  if area ≤ 1280 * 720 then 1280 * 720 - area else area - 1280 * 720

/-- The comparison of `min_by`. `aspectError` is the value of the `f64` expression
`(width / height - 1280.0 / 720.0).abs()`: it is finite and no `-0.0`, so `total_cmp` orders it
as a number. -/
def compareModes (aspectError : Mode → ℚ) (a b : Mode) : Ordering :=
  (compare (fpsRank a.fps).1 (fpsRank b.fps).1).then
    ((compare (fpsRank a.fps).2 (fpsRank b.fps).2).then
      ((compare (aspectError a) (aspectError b)).then
        ((compare (areaError a) (areaError b)).then
          ((compare a.width b.width).then (compare a.height b.height)))))

/-- `Iterator::min_by`: the first of the least. -/
def minBy {α : Type} (order : α → α → Ordering) : List α → Option α
  | [] => none
  | x :: xs => some (xs.foldl (fun least y => if order least y = .gt then y else least) x)

/-- Whether a mode is usable and what the wish names. -/
def Wish.matches (w : Wish) (mode : Mode) : Bool :=
  mode.usable && (w.width == 0 || (mode.width, mode.height) == (w.width, w.height)) &&
    (w.fps == 0 || mode.fps == w.fps)

/-- The mode of the list that comes closest to the wish. -/
def Wish.resolve (aspectError : Mode → ℚ) (w : Wish) (modes : List Mode) : Option Mode :=
  if w.valid then minBy (compareModes aspectError) (modes.filter w.matches) else none

theorem foldl_least_mem {α : Type} (order : α → α → Ordering) (xs : List α) :
    ∀ x, xs.foldl (fun least y => if order least y = .gt then y else least) x ∈ x :: xs := by
  induction xs with
  | nil =>
    intro x
    simp
  | cons y ys ih =>
    intro x
    simp only [List.foldl_cons]
    split
    · exact List.mem_cons_of_mem _ (ih y)
    · rcases List.mem_cons.mp (ih x) with hx | hys
      · exact List.mem_cons.mpr (.inl hx)
      · exact List.mem_cons_of_mem _ (List.mem_cons_of_mem _ hys)

theorem minBy_mem {α : Type} {order : α → α → Ordering} {xs : List α} {x : α}
    (h : minBy order xs = some x) : x ∈ xs := by
  cases xs with
  | nil => simp [minBy] at h
  | cons y ys =>
    obtain rfl := Option.some.inj h
    exact foldl_least_mem order ys y

/-- A resolved mode is one of the list that the wish admits. -/
theorem Wish.resolve_mem {aspectError : Mode → ℚ} {w : Wish} {modes : List Mode} {m : Mode}
    (h : w.resolve aspectError modes = some m) : m ∈ modes ∧ w.matches m = true := by
  unfold Wish.resolve at h
  split at h
  · exact List.mem_filter.mp (minBy_mem h)
  · cases h

/-- What an edition limits modes to. -/
structure EditionCap where
  maxLongEdge : UInt16
  maxShortEdge : UInt16
  maxFps : UInt16
deriving DecidableEq, Repr

/-- A (non-zero) size within the edge caps; orientation-independent. -/
def EditionCap.allowsSize (cap : EditionCap) (width height : UInt16) : Bool :=
  let long := if width ≤ height then height else width
  let short := if width ≤ height then width else height
  decide (1 ≤ long ∧ long ≤ cap.maxLongEdge) && decide (1 ≤ short ∧ short ≤ cap.maxShortEdge)

/-- Clamps a saved wish to the cap; whether anything changed. -/
def EditionCap.clampWish (cap : EditionCap) (wish : Wish) : Wish × Bool :=
  let out :=
    if wish.width ≠ 0 ∧ cap.allowsSize wish.width wish.height = false then
      { wish with width := 0, height := 0 }
    else wish
  let out := if cap.maxFps < wish.fps then { out with fps := 0 } else out
  (out, decide (out ≠ wish))

/-- `OSS_CAP_1080P30`, the edition this binary is built as. -/
def activeEdition : EditionCap := ⟨1920, 1080, 30⟩

end HostQuality
end MobileWebcamBridge
