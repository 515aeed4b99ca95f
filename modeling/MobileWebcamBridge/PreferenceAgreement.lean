import MobileWebcamBridge.Host.Preference
import MobileWebcamBridge.Host.ReceiveStream
import MobileWebcamBridge.Phone.CaptureModes
import MobileWebcamBridge.WireAgreement

/-!
# The phone and the PC choose the same mode

The two comparators are one order of tuples, `order`: the PC's is that order on the advertised
modes, and the phone's decides by it before the name of the codec. So each choice is the least tuple
of those the wish admits, whatever the order of the list.
-/

set_option autoImplicit false

namespace MobileWebcamBridge
namespace PreferenceAgreement

open HostQuality CaptureModes

/-- Width, height and rate. -/
abbrev Shape := ℕ × ℕ × ℕ

/-- A mode as `refreshQualityCapabilities` puts it into the capabilities. -/
def wireMode (mode : CaptureModes.CaptureMode) : Wire.QualityMode where
  width := mode.width.toNat
  height := mode.height.toNat
  targetFps := mode.targetFps.toNat
  bitrate := mode.bitrate.toNat

/-- A mode as the PC has it from the capabilities. -/
def advertised (mode : CaptureModes.CaptureMode) : Mode :=
  HostVideo.Stream.modeOf (WireAgreement.hostMode (wireMode mode))

/-- A wish as the phone's preference. -/
def preferenceOf (wish : Wish) : CapturePreference where
  width := if wish.width = 0 then none else some wish.width.toNat
  height := if wish.height = 0 then none else some wish.height.toNat
  fps := if wish.fps = 0 then none else some wish.fps.toNat

/-- The shape of a mode the PC was offered. -/
def shapeOf (mode : Mode) : Shape := (mode.width.toNat, mode.height.toNat, mode.fps.toNat)

/-- The shape of a mode the phone can capture. -/
def captureShape (mode : CaptureModes.CaptureMode) : Shape :=
  (mode.width.toNat, mode.height.toNat, mode.targetFps.toNat)

/-- `aspect_error` without rounding. -/
def exactAspect (mode : Mode) : ℚ := |(mode.width.toNat : ℚ) / mode.height.toNat - 1280 / 720|

/-- The wish has nothing explicit that the shape has not. -/
def Admits (wish : Wish) (shape : Shape) : Prop :=
  (wish.width ≠ 0 → shape.1 = wish.width.toNat ∧ shape.2.1 = wish.height.toNat) ∧
    (wish.fps ≠ 0 → shape.2.2 = wish.fps.toNat)

/-- A mode of the range that both sides are made for. -/
structure InRange (mode : CaptureModes.CaptureMode) : Prop where
  width : 0 < mode.width ∧ mode.width ≤ 3840
  even : mode.width % 2 = 0
  height : 0 < mode.height ∧ mode.height ≤ 2160
  fps : 0 < mode.targetFps ∧ mode.targetFps ≤ 60
  bitrate : 0 < mode.bitrate ∧ mode.bitrate ≤ INT_MAX

/-! ## One order of shapes -/

/-- Rates to 30 from the highest down, then the rates above from the lowest up. -/
def rate (fps : ℕ) : ℕ × ℕ := if fps ≤ 30 then (0, 30 - fps) else (1, fps)

/-- How far the area of a shape is from 720p. -/
def area (shape : Shape) : ℕ :=
  if shape.1 * shape.2.1 ≤ 1280 * 720 then 1280 * 720 - shape.1 * shape.2.1
  else shape.1 * shape.2.1 - 1280 * 720

/-- The order by which both sides choose. -/
def order : Shape → Shape → Ordering :=
  compareLex (compareOn fun s => (rate s.2.2).1)
    (compareLex (compareOn fun s => (rate s.2.2).2)
      (compareLex (compareOn fun s => |(s.1 : ℚ) / s.2.1 - 1280 / 720|)
        (compareLex (compareOn area)
          (compareLex (compareOn fun s => s.1) (compareOn fun s => s.2.1)))))

instance : Std.TransCmp order := by
  unfold order
  infer_instance

instance : Std.LawfulEqCmp order where
  eq_of_compare {s t} h := by
    simp only [order, compareLex, compareOn, Ordering.then_eq_eq, compare_eq_iff_eq] at h
    obtain ⟨hband, hrate, -, -, hwidth, hheight⟩ := h
    have hfps : s.2.2 = t.2.2 := by
      unfold rate at hband hrate
      split at hband <;> split at hband <;> simp_all
      omega
    exact Prod.ext hwidth (Prod.ext hheight hfps)

/-! ## The comparators -/

theorem compare_congr {α β : Type} [LinearOrder α] [LinearOrder β] {a b : α} {c d : β}
    (hlt : a < b ↔ c < d) (hgt : b < a ↔ d < c) : compare a b = compare c d := by
  rcases lt_trichotomy a b with h | h | h
  · rw [compare_lt_iff_lt.mpr h, compare_lt_iff_lt.mpr (hlt.mp h)]
  · have heq : c = d := by
      apply le_antisymm
      · exact not_lt.mp (mt hgt.mpr (by rw [h]; exact lt_irrefl _))
      · exact not_lt.mp (mt hlt.mpr (by rw [h]; exact lt_irrefl _))
    rw [compare_eq_iff_eq.mpr h, compare_eq_iff_eq.mpr heq]
  · rw [compare_gt_iff_gt.mpr h, compare_gt_iff_gt.mpr (hgt.mp h)]

theorem compare_toNat (a b : UInt16) : compare a b = compare a.toNat b.toNat := by
  show compareOfLessAndEq a b = compareOfLessAndEq a.toNat b.toNat
  simp only [compareOfLessAndEq, UInt16.lt_iff_toNat_lt, UInt16.toNat_inj]

/-- The PC's comparator is the order of the shapes. -/
theorem compareModes_host (a b : Mode) :
    HostQuality.compareModes exactAspect a b = order (shapeOf a) (shapeOf b) := by
  have hrank (fps : UInt16) : fpsRank fps = rate fps.toNat := by
    unfold fpsRank rate
    simp only [UInt16.le_iff_toNat_le]
    rfl
  unfold HostQuality.compareModes
  rw [hrank, hrank, compare_toNat, compare_toNat]
  rfl

instance : Std.TransCmp (HostQuality.compareModes exactAspect) where
  eq_swap := by
    intro a b
    rw [compareModes_host, compareModes_host]
    exact Std.OrientedCmp.eq_swap
  isLE_trans := by
    intro a b c
    rw [compareModes_host, compareModes_host, compareModes_host]
    exact Std.TransCmp.isLE_trans

/-- A rate and a size as integers compare as the natural numbers they are. -/
theorem compare_int {a b : ℤ} {c d : ℕ} (ha : a = c) (hb : b = d) : compare a b = compare c d := by
  subst ha hb
  exact compare_congr Nat.cast_lt Nat.cast_lt

/-- The two selectors of the rate. -/
theorem compare_rate {f g : ℤ} (hf : 0 < f ∧ f ≤ 60) (hg : 0 < g ∧ g ≤ 60) (rest : Ordering) :
    (compare (if f ≤ AUTO_FPS then |f - AUTO_FPS| else INT_MAX)
        (if g ≤ AUTO_FPS then |g - AUTO_FPS| else INT_MAX)).then
      ((compare (if f ≤ AUTO_FPS then 0 else f) (if g ≤ AUTO_FPS then 0 else g)).then rest) =
    (compare (rate f.toNat).1 (rate g.toNat).1).then
      ((compare (rate f.toNat).2 (rate g.toNat).2).then rest) := by
  unfold AUTO_FPS INT_MAX rate
  have habs {k : ℤ} (hk : k ≤ 30) : |k - 30| = 30 - k := by
    rw [abs_of_nonpos (by omega)]
    omega
  by_cases hf30 : f ≤ 30 <;> by_cases hg30 : g ≤ 30
  · have hcompare : compare (30 - f) (30 - g) = compare (30 - f.toNat) (30 - g.toNat) :=
      compare_int (by omega) (by omega)
    rw [if_pos hf30, if_pos hg30, if_pos hf30, if_pos hg30, if_pos (by omega), if_pos (by omega),
      habs hf30, habs hg30, hcompare]
    rfl
  · have hlt : compare (30 - f) 2147483647 = .lt := compare_lt_iff_lt.mpr (by omega)
    have hf' : f.toNat ≤ 30 := by omega
    have hg' : ¬g.toNat ≤ 30 := by omega
    rw [if_pos hf30, if_neg hg30, if_pos hf', if_neg hg', habs hf30, hlt]
    rfl
  · have hgt : compare 2147483647 (30 - g) = .gt := compare_gt_iff_gt.mpr (by omega)
    have hf' : ¬f.toNat ≤ 30 := by omega
    have hg' : g.toNat ≤ 30 := by omega
    rw [if_neg hf30, if_pos hg30, if_neg hf', if_pos hg', habs hg30, hgt]
    rfl
  · have hcompare : compare f g = compare f.toNat g.toNat := compare_int (by omega) (by omega)
    have hsame : compare (2147483647 : ℤ) 2147483647 = .eq := compare_eq_iff_eq.mpr rfl
    rw [if_neg hf30, if_neg hg30, if_neg hf30, if_neg hg30, if_neg (by omega), if_neg (by omega),
      hsame, hcompare]
    rfl

theorem aspectError_eq {mode : CaptureModes.CaptureMode} (h : InRange mode) :
    CaptureModes.aspectError mode =
      |((captureShape mode).1 : ℚ) / (captureShape mode).2.1 - 1280 / 720| := by
  have hwidth : (mode.width : ℚ) = (mode.width.toNat : ℚ) := by
    have hint : (mode.width.toNat : ℤ) = mode.width :=
      Int.toNat_of_nonneg (by have := h.width; omega)
    exact_mod_cast hint.symm
  have hheight : (mode.height : ℚ) = (mode.height.toNat : ℚ) := by
    have hint : (mode.height.toNat : ℤ) = mode.height :=
      Int.toNat_of_nonneg (by have := h.height; omega)
    exact_mod_cast hint.symm
  unfold CaptureModes.aspectError
  rw [hwidth, hheight]
  rfl

theorem area_eq {mode : CaptureModes.CaptureMode} (h : InRange mode) :
    |mode.width * mode.height - AUTO_WIDTH * AUTO_HEIGHT| = area (captureShape mode) := by
  have hwidth := h.width
  have hheight := h.height
  have hproduct : mode.width * mode.height = ((mode.width.toNat * mode.height.toNat : ℕ) : ℤ) := by
    rw [Nat.cast_mul, Int.toNat_of_nonneg (by omega), Int.toNat_of_nonneg (by omega)]
  rw [hproduct]
  unfold AUTO_WIDTH AUTO_HEIGHT area captureShape
  dsimp only
  generalize mode.width.toNat * mode.height.toNat = product
  split
  · rw [abs_of_nonpos (by omega)]
    omega
  · rw [abs_of_nonneg (by omega)]
    omega

/-- The phone's comparator is the order of the shapes, and then that of the codecs. -/
theorem compareModes_phone {a b : CaptureModes.CaptureMode} (ha : InRange a) (hb : InRange b) :
    CaptureModes.compareModes a b =
      (order (captureShape a) (captureShape b)).then (compare a.codecName b.codecName) := by
  have hwidth : compare a.width b.width = compare a.width.toNat b.width.toNat :=
    compare_int (by have := ha.width; omega) (by have := hb.width; omega)
  have hheight : compare a.height b.height = compare a.height.toNat b.height.toNat :=
    compare_int (by have := ha.height; omega) (by have := hb.height; omega)
  have harea : compare |a.width * a.height - AUTO_WIDTH * AUTO_HEIGHT|
      |b.width * b.height - AUTO_WIDTH * AUTO_HEIGHT| =
        compare (area (captureShape a)) (area (captureShape b)) :=
    compare_int (area_eq ha) (area_eq hb)
  simp only [CaptureModes.compareModes, compareLex, compareOn]
  rw [compare_rate ha.fps hb.fps, aspectError_eq ha, aspectError_eq hb, harea, hwidth, hheight]
  simp only [order, compareLex, compareOn, Ordering.then_assoc]
  rfl

instance : Std.TransCmp CaptureModes.compareModes := by
  unfold CaptureModes.compareModes
  infer_instance

/-! ## What the wish admits -/

section modes

variable {wish : Wish} {modes : List CaptureModes.CaptureMode}

instance (shape : Shape) : Decidable (Admits wish shape) :=
  inferInstanceAs (Decidable ((_ → _) ∧ (_ → _)))

/-- The shapes that the wish admits. -/
def candidates (wish : Wish) (modes : List CaptureModes.CaptureMode) : List Shape :=
  (modes.map captureShape).filter fun shape => Admits wish shape

theorem mem_candidates {shape : Shape} :
    shape ∈ candidates wish modes ↔
      (∃ mode ∈ modes, captureShape mode = shape) ∧ Admits wish shape := by
  unfold candidates
  rw [List.mem_filter, List.mem_map, decide_eq_true_iff]

theorem candidates_perm {other : List CaptureModes.CaptureMode} (h : other.Perm modes) :
    (candidates wish other).Perm (candidates wish modes) :=
  (h.map captureShape).filter _

theorem shapeOf_advertised {mode : CaptureModes.CaptureMode} (h : InRange mode) :
    shapeOf (advertised mode) = captureShape mode := by
  have hwidth := h.width
  have hheight := h.height
  have hfps := h.fps
  show ((UInt16.ofNat mode.width.toNat).toNat, (UInt16.ofNat mode.height.toNat).toNat,
    (UInt16.ofNat mode.targetFps.toNat).toNat) = _
  rw [WireAgreement.toNat_ofNat16 (by omega), WireAgreement.toNat_ofNat16 (by omega),
    WireAgreement.toNat_ofNat16 (by omega)]
  rfl

/-- An advertised mode is one that the PC can ask for. -/
theorem usable_advertised {mode : CaptureModes.CaptureMode} (h : InRange mode) :
    (advertised mode).usable := by
  have hshape := shapeOf_advertised h
  have hwidth := h.width
  have hheight := h.height
  have hfps := h.fps
  have heven := h.even
  have hbitrate := h.bitrate
  unfold INT_MAX at hbitrate
  have hrate : (advertised mode).bitrate.toNat = mode.bitrate.toNat := by
    show (UInt32.ofNat mode.bitrate.toNat).toNat = _
    exact WireAgreement.toNat_ofNat32 (by omega)
  obtain ⟨hw, hh, hf⟩ : (advertised mode).width.toNat = mode.width.toNat ∧
      (advertised mode).height.toNat = mode.height.toNat ∧
      (advertised mode).fps.toNat = mode.targetFps.toNat := by
    simpa [shapeOf, captureShape] using hshape
  have hzero16 (v : UInt16) : v = 0 ↔ v.toNat = 0 := UInt16.toNat_inj.symm
  have hzero32 (v : UInt32) : v = 0 ↔ v.toNat = 0 := UInt32.toNat_inj.symm
  have hmod : (advertised mode).width % 2 = 0 := by
    rw [hzero16, UInt16.toNat_mod]
    show _ % 2 = 0
    omega
  have hw' : (advertised mode).width ≠ 0 := by rw [Ne, hzero16]; omega
  have hh' : (advertised mode).height ≠ 0 := by rw [Ne, hzero16]; omega
  have hf' : (advertised mode).fps ≠ 0 := by rw [Ne, hzero16]; omega
  have hb' : (advertised mode).bitrate ≠ 0 := by rw [Ne, hzero32]; omega
  have hwle : (advertised mode).width ≤ 3840 := by
    rw [UInt16.le_iff_toNat_le]
    show _ ≤ 3840
    omega
  have hhle : (advertised mode).height ≤ 2160 := by
    rw [UInt16.le_iff_toNat_le]
    show _ ≤ 2160
    omega
  have hfle : (advertised mode).fps ≤ 60 := by
    rw [UInt16.le_iff_toNat_le]
    show _ ≤ 60
    omega
  simp [Mode.usable, Wish.valid, Wish.ofTuple, Mode.tuple, hw', hh', hf', hb', hwle,
    hhle, hfle, hmod]

/-- The PC's filter. -/
theorem matches_host {mode : CaptureModes.CaptureMode} (h : InRange mode) :
    wish.matches (advertised mode) = true ↔ Admits wish (captureShape mode) := by
  rw [← shapeOf_advertised h]
  simp only [Wish.matches, usable_advertised h, Bool.true_and, Bool.and_eq_true, Bool.or_eq_true,
    beq_iff_eq, Prod.mk.injEq, Admits, shapeOf, UInt16.toNat_inj]
  constructor
  · intro ⟨hsize, hfps⟩
    exact ⟨hsize.resolve_left, hfps.resolve_left⟩
  · intro ⟨hsize, hfps⟩
    exact ⟨Decidable.or_iff_not_imp_left.mpr hsize, Decidable.or_iff_not_imp_left.mpr hfps⟩

/-- The phone's filter. -/
theorem matches_phone (hvalid : wish.valid) {mode : CaptureModes.CaptureMode} (h : InRange mode) :
    (preferenceOf wish).matches mode = true ↔ Admits wish (captureShape mode) := by
  have hboth : wish.width = 0 ↔ wish.height = 0 := by
    simp only [Wish.valid, Bool.and_eq_true, beq_iff_eq] at hvalid
    have hiff := Bool.eq_iff_iff.mp hvalid.1.1.1.1
    rwa [beq_iff_eq, beq_iff_eq] at hiff
  have hwidth := h.width
  have hheight := h.height
  have hfps := h.fps
  have hpart {v : UInt16} {k : ℤ} (hk : 0 < k) :
      ((if v = 0 then none else some (v.toNat : ℤ)) = none ∨
        some k = if v = 0 then none else some (v.toNat : ℤ)) ↔ (v ≠ 0 → k.toNat = v.toNat) := by
    by_cases hv : v = 0
    · simp [hv]
    · rw [if_neg hv]
      simp only [reduceCtorEq, false_or, Option.some.injEq, ne_eq, hv, not_false_eq_true,
        forall_const]
      omega
  simp only [CapturePreference.matches, preferenceOf, decide_eq_true_iff, hpart hwidth.1,
    hpart hheight.1, hpart hfps.1, Admits, captureShape]
  constructor
  · intro ⟨hw, hh, hf⟩
    exact ⟨fun hne => ⟨hw hne, hh (mt hboth.mpr hne)⟩, hf⟩
  · intro ⟨hsize, hf⟩
    exact ⟨fun hne => (hsize hne).1, fun hne => (hsize (mt hboth.mp hne)).2, hf⟩

/-! ## The choice -/

/-- The least of the shapes, or nothing when there are none. -/
def Choice (shapes : List Shape) : Option Shape → Prop
  | some shape => Least order shapes shape
  | none => shapes = []

theorem Choice.unique {shapes : List Shape} {s t : Option Shape} (hs : Choice shapes s)
    (ht : Choice shapes t) : s = t := by
  cases s with
  | none =>
    obtain rfl : shapes = [] := hs
    cases t with
    | none => rfl
    | some shape => exact absurd (Least.mem ht) List.not_mem_nil
  | some shape =>
    cases t with
    | none =>
      obtain rfl : shapes = [] := ht
      exact absurd (Least.mem hs) List.not_mem_nil
    | some other => exact congrArg some (Least.unique hs ht)

/-- The PC chooses the least of the candidates. -/
theorem resolve_host (hvalid : wish.valid) (hrange : ∀ mode ∈ modes, InRange mode)
    {pc : List Mode} (hpc : pc.Perm (modes.map advertised)) :
    Choice (candidates wish modes) ((wish.resolve exactAspect pc).map shapeOf) := by
  have hshapes : ((pc.filter wish.matches).map shapeOf).Perm (candidates wish modes) := by
    refine ((hpc.filter wish.matches).map shapeOf).trans (List.Perm.of_eq ?_)
    rw [List.filter_map, List.map_map, candidates, List.filter_map]
    have hfilter : modes.filter (wish.matches ∘ advertised) =
        modes.filter ((fun shape => decide (Admits wish shape)) ∘ captureShape) := by
      apply List.filter_congr
      intro mode hmode
      rw [Bool.eq_iff_iff, Function.comp_apply, Function.comp_apply, decide_eq_true_iff]
      exact matches_host (hrange mode hmode)
    rw [hfilter]
    apply List.map_congr_left
    intro mode hmode
    exact shapeOf_advertised (hrange mode (List.mem_filter.mp hmode).1)
  rw [Wish.resolve, if_pos hvalid]
  cases hlist : pc.filter wish.matches with
  | nil =>
    rw [hlist] at hshapes
    exact hshapes.nil_eq.symm
  | cons first rest =>
    rw [hlist] at hshapes
    have hleast : Least (HostQuality.compareModes exactAspect) (first :: rest) _ :=
      least_foldl first rest
    refine (hleast.map (f := shapeOf) fun mode hmode hle => ?_).perm hshapes
    rwa [compareModes_host] at hle

/-- The phone chooses the least of a list that is not empty. -/
theorem autoPreferred_least {l : List CaptureModes.CaptureMode} (hrange : ∀ mode ∈ l, InRange mode)
    (hne : l ≠ []) :
    ∃ mode, autoPreferred l = some mode ∧ Least order (l.map captureShape) (captureShape mode) := by
  cases l with
  | nil => exact absurd rfl hne
  | cons first rest =>
    have hleast : Least CaptureModes.compareModes (first :: rest) _ := least_foldl first rest
    refine ⟨_, rfl, hleast.map fun mode hmode hle => ?_⟩
    rw [compareModes_phone (hrange _ hleast.mem) (hrange mode hmode)] at hle
    exact Ordering.isLE_left_of_isLE_then hle

/-- What the phone resolves to: a mode, or a refusal where there is no shape. -/
def ResolvesTo (resolution : Option Resolution) (best : Option Shape) : Prop :=
  match resolution, best with
  | some (.resolved mode), some shape => captureShape mode = shape
  | some (.rejected _), none => True
  | _, _ => False

/-- The phone chooses the least of the candidates. -/
theorem resolve_phone (hvalid : wish.valid) (hrange : ∀ mode ∈ modes, InRange mode)
    (cameraId : String) {phone : List CaptureModes.CaptureMode} (hphone : phone.Perm modes) :
    ∃ best, Choice (candidates wish modes) best ∧
      ResolvesTo (resolveAmong cameraId phone (preferenceOf wish)) best := by
  have hrange' (mode : CaptureModes.CaptureMode) (hmode : mode ∈ phone) : InRange mode :=
    hrange mode (hphone.mem_iff.mp hmode)
  have hshapes : ((phone.filter (preferenceOf wish).matches).map captureShape).Perm
      (candidates wish modes) := by
    refine List.Perm.trans (List.Perm.of_eq ?_) (candidates_perm hphone)
    rw [candidates, List.filter_map]
    apply congrArg (List.map captureShape)
    apply List.filter_congr
    intro mode hmode
    rw [Bool.eq_iff_iff, Function.comp_apply, decide_eq_true_iff]
    exact matches_phone hvalid (hrange' mode hmode)
  unfold resolveAmong
  by_cases hempty : phone.isEmpty
  · rw [if_pos hempty]
    obtain rfl := List.isEmpty_iff.mp hempty
    exact ⟨none, hshapes.nil_eq.symm, trivial⟩
  rw [if_neg hempty]
  by_cases hauto : (preferenceOf wish).isAuto
  · -- A preference for nothing keeps every mode.
    have hall : phone.filter (preferenceOf wish).matches = phone := by
      apply List.filter_eq_self.mpr
      intro mode _
      simp only [CapturePreference.isAuto, decide_eq_true_iff] at hauto
      simp [CapturePreference.matches, hauto.1, hauto.2.1, hauto.2.2]
    rw [hall] at hshapes
    obtain ⟨mode, hmode, hleast⟩ := autoPreferred_least hrange' (mt List.isEmpty_iff.mpr hempty)
    rw [if_neg (by simp [hauto]), hmode]
    exact ⟨some (captureShape mode), hleast.perm hshapes, rfl⟩
  · rw [if_pos (by simp [hauto])]
    by_cases hmatched : (phone.filter (preferenceOf wish).matches).isEmpty
    · rw [List.isEmpty_iff.mp hmatched] at hshapes
      simp only [hmatched, if_true]
      exact ⟨none, hshapes.nil_eq.symm, trivial⟩
    · obtain ⟨mode, hmode, hleast⟩ :=
        autoPreferred_least (fun mode hmode => hrange' mode (List.mem_filter.mp hmode).1)
          (mt List.isEmpty_iff.mpr hmatched)
      simp only [hmatched, Bool.false_eq_true, if_false, hmode]
      exact ⟨some (captureShape mode), hleast.perm hshapes, rfl⟩

/-- A policy that allows every mode filters nothing. -/
theorem filter_allowed {policy : EditionPolicy} (hallowed : ∀ mode ∈ modes, policy.allows mode)
    {phone : List CaptureModes.CaptureMode} (hphone : phone.Perm modes) :
    policy.filter phone = phone :=
  List.filter_eq_self.mpr fun mode hmode => hallowed mode (hphone.mem_iff.mp hmode)

end modes

/-- The PC and the phone choose one shape, whatever the order of their lists: one of those that the
wish admits, or none when it admits none. -/
theorem resolutions_agree {wish : Wish} {modes : List CaptureModes.CaptureMode}
    {policy : EditionPolicy}
    (hvalid : wish.valid) (hrange : ∀ mode ∈ modes, InRange mode)
    (hallowed : ∀ mode ∈ modes, policy.allows mode) :
    ∃ best : Option Shape,
      (∀ pc : List Mode, pc.Perm (modes.map advertised) →
        (wish.resolve exactAspect pc).map shapeOf = best) ∧
      (∀ (cameraId : String) (phone : List CaptureModes.CaptureMode), phone.Perm modes →
        ResolvesTo (resolveAmong cameraId (policy.filter phone) (preferenceOf wish)) best) ∧
      (∀ (caps : Capabilities) (phone : List CaptureModes.CaptureMode),
          published caps policy = some phone →
        phone.Perm modes → ResolvesTo (resolve caps (preferenceOf wish) policy) best) ∧
      (∀ shape ∈ best, Admits wish shape ∧ ∃ mode ∈ modes, captureShape mode = shape) ∧
      (best = none ↔ ∀ mode ∈ modes, ¬Admits wish (captureShape mode)) := by
  have hhost := resolve_host hvalid hrange (.refl (modes.map advertised))
  generalize hbest : (wish.resolve exactAspect (modes.map advertised)).map shapeOf = best at hhost
  -- the least shape is unique, so both sides name the same one
  have hresolve (cameraId : String) (phone : List CaptureModes.CaptureMode)
      (hphone : phone.Perm modes) :
      ResolvesTo (resolveAmong cameraId phone (preferenceOf wish)) best := by
    obtain ⟨choice, hchoice, hto⟩ := resolve_phone hvalid hrange cameraId hphone
    rwa [hhost.unique hchoice]
  refine ⟨best, ?pc, ?phone, ?caps, ?explicit, ?fails⟩
  case pc =>
    intro pc hpc
    exact (resolve_host hvalid hrange hpc).unique hhost
  case phone =>
    intro cameraId phone hphone
    rw [filter_allowed hallowed hphone]
    exact hresolve cameraId phone hphone
  case caps =>
    intro caps phone hpublished hphone
    unfold resolve
    rw [hpublished]
    exact hresolve caps.cameraId phone hphone
  case explicit =>
    intro shape hshape
    obtain rfl : best = some shape := hshape
    exact (mem_candidates.mp (Least.mem hhost)).symm
  case fails =>
    constructor
    · rintro rfl mode hmode hadmits
      have hmem := mem_candidates.mpr ⟨⟨mode, hmode, rfl⟩, hadmits⟩
      rw [show candidates wish modes = [] from hhost] at hmem
      exact absurd hmem List.not_mem_nil
    · intro hnone
      have hempty : candidates wish modes = [] := by
        apply List.eq_nil_iff_forall_not_mem.mpr
        intro shape hmem
        obtain ⟨⟨mode, hmode, rfl⟩, hadmits⟩ := mem_candidates.mp hmem
        exact hnone mode hmode hadmits
      exact hhost.unique hempty

/-- A mode of a camera with one encoder. -/
def sample (width height fps : ℤ) : CaptureModes.CaptureMode where
  cameraId := "0"
  codecName := []
  width := width
  height := height
  targetFps := fps
  aeRange := ⟨fps, fps⟩
  bitrate := 6000000
  minFrameDurationKnown := true

/-- Three modes, and a wish that none of them meets exactly. -/
theorem resolutions_agree_sample :
    ∃ best : Option Shape,
      (∀ pc : List Mode, pc.Perm ([sample 1920 1080 30, sample 1280 720 30].map advertised) →
        ((⟨0, 0, 30⟩ : Wish).resolve exactAspect pc).map shapeOf = best) ∧
      (∀ (cameraId : String) (phone : List CaptureModes.CaptureMode),
        phone.Perm [sample 1920 1080 30, sample 1280 720 30] →
        ResolvesTo (resolveAmong cameraId (ossCap1080p30.filter phone) (preferenceOf ⟨0, 0, 30⟩))
          best) := by
  have hrange (mode : CaptureModes.CaptureMode)
      (hmode : mode ∈ [sample 1920 1080 30, sample 1280 720 30]) :
      InRange mode := by
    rcases List.mem_pair.mp hmode with rfl | rfl
    · exact ⟨by decide, by decide, by decide, by decide, by decide⟩
    · exact ⟨by decide, by decide, by decide, by decide, by decide⟩
  obtain ⟨best, hpc, hphone, -⟩ :=
    @resolutions_agree ⟨0, 0, 30⟩ _ ossCap1080p30 (by decide) hrange (by decide)
  exact ⟨best, hpc, hphone⟩

end PreferenceAgreement
end MobileWebcamBridge
