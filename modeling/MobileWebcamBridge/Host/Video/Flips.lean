import MobileWebcamBridge.Host.Video.Transform

/-!
# `flips` moves bytes and nothing else

A flip is a map of places: `across` inside a row, `mirrored` in the whole buffer, `flipped` between
the rows. `flips_mapped` says that each of the four combinations of `flips` leaves at each place
what its map points at; that the maps are involutions and commute is arithmetic of rows and columns.
-/

set_option autoImplicit false

namespace MobileWebcamBridge
namespace Video

open Buffer

variable {bytes row out : List UInt8} {width height stride n m k : ℕ} {rgba : Bool}

/-! ## Inside a row -/

/-- Groups of four bytes in the opposite order. -/
def reverseGroups (n k : ℕ) : ℕ :=
  if k < 4 * n then 4 * (n - 1 - k / 4) + k % 4 else k

/-- The first and the third byte of each group of four. -/
def exchangeLumas (n k : ℕ) : ℕ :=
  if k < 4 * n then
    if k % 4 = 0 then k + 2
    else if k % 4 = 2 then k - 2
    else k
  else k

theorem reverseGroups_involutive (n : ℕ) : Function.Involutive (reverseGroups n) := by
  intro k
  unfold reverseGroups
  by_cases hk : k < 4 * n
  · rw [if_pos hk, if_pos (by omega)]
    omega
  · rw [if_neg hk, if_neg hk]

theorem exchangeLumas_involutive (n : ℕ) : Function.Involutive (exchangeLumas n) := by
  intro k
  unfold exchangeLumas
  grind

/-- Where a mirrored row has its bytes from. -/
def across (rgba : Bool) (width k : ℕ) : ℕ :=
  if rgba then reverseGroups width k
  else exchangeLumas (width / 2) (reverseGroups (width / 2) k)

/-- The mirror stays within the row. -/
theorem across_lt (h : k < rowBytes rgba width) :
    across rgba width k < rowBytes rgba width := by
  unfold across rowBytes reverseGroups exchangeLumas at *
  grind

/-- The mirror undoes itself. -/
theorem across_across : across rgba width (across rgba width k) = k := by
  unfold across reverseGroups exchangeLumas
  grind

/-- The groups of a row in the opposite order, by swaps from both ends. -/
theorem reverseGroups_ok {half : ℕ} (hlen : 4 * n ≤ row.length) (hhalf : half = n / 2) :
    ∃ out, loop (ε := String) half (fun x row =>
        loop 4 (fun c row => swap row (x * 4 + c) ((n - x - 1) * 4 + c)) row) row = .ok out ∧
      Mapped (reverseGroups n) row out := by
  obtain ⟨out, hloop, hout⟩ := swaps_ok (ε := String) (n := half) (m := 4) (a := row)
    (p := fun x c => x * 4 + c) (q := fun x c => (n - x - 1) * 4 + c)
    (reverseGroups_involutive n)
    (by
      intro x hx c hc
      rw [reverseGroups, if_pos (by omega)]
      omega)
    (by
      intro x hx c hc
      omega)
    (by
      intro x hx c hc x' hx' c' hc' heq
      omega)
    (by
      intro x hx c hc x' hx' c' hc' heq
      omega)
  refine ⟨out, hloop, ?_⟩
  rw [partially_eq] at hout
  · exact hout
  -- What is in neither half is the group in the middle.
  · intro k hk hk'
    unfold reverseGroups at hk' ⊢
    split
    · next hin =>
      rw [if_pos hin] at hk'
      have hlow : half ≤ k / 4 := by
        by_contra hlt
        exact hk ⟨k / 4, by omega, k % 4, by omega, by omega⟩
      have hhigh : half ≤ n - 1 - k / 4 := by
        by_contra hlt
        exact hk' ⟨n - 1 - k / 4, by omega, k % 4, by omega, by omega⟩
      omega
    · rfl

/-- The lumas of each macropixel exchanged. -/
theorem exchangeLumas_ok (hlen : row.length / 4 = n) :
    ∃ out, loop (ε := String) (row.length / 4)
        (fun pair row => swap row (4 * pair) (4 * pair + 2)) row = .ok out ∧
      Mapped (exchangeLumas n) row out := by
  have hstart : Mapped (partially (exchangeLumas n) ∅) row row := by
    rw [partially_empty]
    exact Mapped.refl row
  rw [hlen]
  obtain ⟨out, hloop, hout⟩ := swaps_row_ok (ε := String) (m := n) (p := fun pair => 4 * pair)
    (q := fun pair => 4 * pair + 2) (exchangeLumas_involutive n) hstart
    (by
      intro x hx
      rw [exchangeLumas, if_pos (by omega), if_pos (by omega)])
    (by
      intro x hx
      omega)
    (by
      intro x hx
      exact ⟨Set.notMem_empty _, Set.notMem_empty _⟩)
    (by
      intro x hx y hy heq
      omega)
    (by
      intro x hx y hy heq
      omega)
  refine ⟨out, hloop, ?_⟩
  rw [Set.empty_union, partially_eq] at hout
  · exact hout
  -- A place that no swap touches is the second or fourth of its group, or behind the groups.
  · intro k hk hk'
    unfold exchangeLumas at hk' ⊢
    split
    · next hin =>
      split
      · next hzero => exact absurd ⟨k / 4, by omega, by omega⟩ hk
      · next hzero =>
        split
        · next htwo =>
          rw [if_pos hin, if_neg hzero, if_pos htwo] at hk'
          exact absurd ⟨k / 4, by omega, by omega⟩ hk'
        · rfl
    · rfl

/-- A row is mirrored. -/
theorem mirrorRow_ok (hlen : row.length = rowBytes rgba width) :
    ∃ out, mirrorRow rgba width row = .ok out ∧ Mapped (across rgba width) row out := by
  cases rgba with
  | true =>
    have hfits : 4 * width ≤ row.length := by
      rw [hlen, rowBytes]
      simp only [if_true]
      omega
    obtain ⟨out, hloop, hout⟩ := reverseGroups_ok hfits rfl
    exact ⟨out, hloop, hout⟩
  | false =>
    have hfull : row.length = 2 * width := by
      rw [hlen, rowBytes]
      simp only [Bool.false_eq_true, if_false]
      omega
    have hcount : row.length / 4 = width / 2 := by omega
    obtain ⟨mid, hluma, hmid⟩ := exchangeLumas_ok hcount
    have hfits : 4 * (width / 2) ≤ mid.length := by
      rw [hmid.length]
      omega
    have hhalf : width / 4 = width / 2 / 2 := by omega
    obtain ⟨out, hloop, hout⟩ := reverseGroups_ok hfits hhalf
    refine ⟨out, ?_, ?_⟩
    · show (loop _ _ row >>= fun row => loop (width / 4) _ row) = _
      rw [hluma]
      exact hloop
    · apply hmid.trans hout
      intro k hk
      unfold reverseGroups
      split <;> omega

/-! ## The whole buffer -/

/-- The place lies in the visible part of a row. -/
def Visible (rgba : Bool) (width height stride k : ℕ) : Prop :=
  k / stride < height ∧ k % stride < rowBytes rgba width

instance (rgba : Bool) (width height stride k : ℕ) :
    Decidable (Visible rgba width height stride k) :=
  inferInstanceAs (Decidable (_ ∧ _))

/-- Where a mirrored picture has its bytes from. -/
def mirrored (rgba : Bool) (width height stride k : ℕ) : ℕ :=
  if Visible rgba width height stride k then k / stride * stride + across rgba width (k % stride)
  else k

/-- Where a picture upside down has its bytes from. -/
def flipped (rgba : Bool) (width height stride k : ℕ) : ℕ :=
  if Visible rgba width height stride k then (height - 1 - k / stride) * stride + k % stride
  else k

/-- Row and column of a place. -/
theorem row_column {y x : ℕ} (hx : x < stride) :
    (y * stride + x) / stride = y ∧ (y * stride + x) % stride = x := by
  constructor
  · rw [Nat.add_comm, Nat.add_mul_div_right _ _ (by omega), Nat.div_eq_of_lt hx, Nat.zero_add]
  · rw [Nat.add_comm, Nat.add_mul_mod_self_right, Nat.mod_eq_of_lt hx]

/-- The visible places of one row are an interval. -/
theorem mem_row_iff {y w : ℕ} (hw : w ≤ stride) :
    y * stride ≤ k ∧ k < y * stride + w ↔ k / stride = y ∧ k % stride < w := by
  constructor
  · intro hk
    have hlt : k - y * stride < stride := by omega
    obtain ⟨hrow, hcolumn⟩ := row_column (y := y) hlt
    have hsum : y * stride + (k - y * stride) = k := by omega
    rw [hsum] at hrow hcolumn
    omega
  · rintro ⟨rfl, hcolumn⟩
    have hsum : k / stride * stride + k % stride = k := Nat.div_add_mod' k stride
    omega

/-- A place of a row below `y`. -/
theorem row_lt {y x : ℕ} (hx : x < stride) (hy : y < height) :
    y * stride + x < height * stride := by
  have hrow : (y + 1) * stride ≤ height * stride := Nat.mul_le_mul_right stride hy
  rw [Nat.add_mul, Nat.one_mul] at hrow
  omega

theorem opposite_row {y : ℕ} (hy : y < height) :
    height - 1 - y < height ∧ height - 1 - (height - 1 - y) = y := by
  omega

/-- The mirror keeps the row of a byte. -/
theorem mirrored_visible (hrow : rowBytes rgba width ≤ stride)
    (hk : Visible rgba width height stride k) :
    mirrored rgba width height stride k / stride = k / stride ∧
      mirrored rgba width height stride k % stride = across rgba width (k % stride) := by
  rw [mirrored, if_pos hk]
  exact row_column ((across_lt hk.2).trans_le hrow)

/-- The flip keeps the column of a byte. -/
theorem flipped_visible (hrow : rowBytes rgba width ≤ stride)
    (hk : Visible rgba width height stride k) :
    flipped rgba width height stride k / stride = height - 1 - k / stride ∧
      flipped rgba width height stride k % stride = k % stride := by
  rw [flipped, if_pos hk]
  exact row_column (hk.2.trans_le hrow)

/-- The mirror of a picture undoes itself. -/
theorem mirrored_involutive (height : ℕ) (hrow : rowBytes rgba width ≤ stride) :
    Function.Involutive (mirrored rgba width height stride) := by
  intro k
  by_cases hk : Visible rgba width height stride k
  · obtain ⟨hy, hx⟩ := mirrored_visible hrow hk
    have hagain : Visible rgba width height stride (mirrored rgba width height stride k) := by
      rw [Visible, hy, hx]
      exact ⟨hk.1, across_lt hk.2⟩
    rw [mirrored, if_pos hagain, hy, hx, across_across, Nat.div_add_mod']
  · rw [mirrored, mirrored, if_neg hk, if_neg hk]

/-- So does its flip. -/
theorem flipped_involutive (height : ℕ) (hrow : rowBytes rgba width ≤ stride) :
    Function.Involutive (flipped rgba width height stride) := by
  intro k
  by_cases hk : Visible rgba width height stride k
  · obtain ⟨hy, hx⟩ := flipped_visible hrow hk
    obtain ⟨hopposite, hback⟩ := opposite_row hk.1
    have hagain : Visible rgba width height stride (flipped rgba width height stride k) := by
      rw [Visible, hy, hx]
      exact ⟨hopposite, hk.2⟩
    rw [flipped, if_pos hagain, hy, hx, hback, Nat.div_add_mod']
  · rw [flipped, flipped, if_neg hk, if_neg hk]

/-- The two commute. -/
theorem mirrored_flipped (hrow : rowBytes rgba width ≤ stride) (k : ℕ) :
    mirrored rgba width height stride (flipped rgba width height stride k) =
      flipped rgba width height stride (mirrored rgba width height stride k) := by
  by_cases hk : Visible rgba width height stride k
  · obtain ⟨hmy, hmx⟩ := mirrored_visible hrow hk
    obtain ⟨hfy, hfx⟩ := flipped_visible hrow hk
    have hm : Visible rgba width height stride (mirrored rgba width height stride k) := by
      rw [Visible, hmy, hmx]
      exact ⟨hk.1, across_lt hk.2⟩
    have hf : Visible rgba width height stride (flipped rgba width height stride k) := by
      rw [Visible, hfy, hfx]
      exact ⟨(opposite_row hk.1).1, hk.2⟩
    rw [mirrored, if_pos hf, hfy, hfx, flipped, if_pos hm, hmy, hmx]
  · have hflipped : flipped rgba width height stride k = k := if_neg hk
    have hmirrored : mirrored rgba width height stride k = k := if_neg hk
    rw [hflipped, hmirrored, hflipped]

theorem mirrored_lt (hrow : rowBytes rgba width ≤ stride)
    (hlen : height * stride ≤ n) (h : k < n) : mirrored rgba width height stride k < n := by
  by_cases hk : Visible rgba width height stride k
  · rw [mirrored, if_pos hk]
    exact (row_lt ((across_lt hk.2).trans_le hrow) hk.1).trans_le hlen
  · rw [mirrored, if_neg hk]
    exact h

theorem flipped_lt (hrow : rowBytes rgba width ≤ stride) (hlen : height * stride ≤ n) (h : k < n) :
    flipped rgba width height stride k < n := by
  by_cases hk : Visible rgba width height stride k
  · rw [flipped, if_pos hk]
    exact (row_lt (hk.2.trans_le hrow) (opposite_row hk.1).1).trans_le hlen
  · rw [flipped, if_neg hk]
    exact h

/-- One row more. -/
theorem mirrored_succ (hrow : rowBytes rgba width ≤ stride) (y k : ℕ) :
    mirrored rgba width (y + 1) stride k =
      if y * stride ≤ k ∧ k < y * stride + rowBytes rgba width then
        k / stride * stride + across rgba width (k % stride)
      else mirrored rgba width y stride k := by
  have hmem := mem_row_iff (k := k) (y := y) hrow
  by_cases hin : y * stride ≤ k ∧ k < y * stride + rowBytes rgba width
  · obtain ⟨hdiv, hmod⟩ := hmem.mp hin
    have hvisible : Visible rgba width (y + 1) stride k := ⟨by omega, hmod⟩
    rw [if_pos hin, mirrored, if_pos hvisible]
  · have hvisible : Visible rgba width (y + 1) stride k ↔ Visible rgba width y stride k := by
      have hout := mt hmem.mpr hin
      unfold Visible
      omega
    rw [if_neg hin]
    by_cases hold : Visible rgba width y stride k
    · rw [mirrored, mirrored, if_pos hold, if_pos (hvisible.mpr hold)]
    · rw [mirrored, mirrored, if_neg hold, if_neg (mt hvisible.mp hold)]

/-! ## The loops -/

/-- One row is mirrored and put back. -/
theorem mirror_step (hrow : rowBytes rgba width ≤ stride)
    (hlen : height * stride ≤ bytes.length) {y : ℕ} (hy : y < height)
    (h : Mapped (mirrored rgba width y stride) bytes out) :
    ∃ out', (do
        let row ← read out (y * stride) (rowBytes rgba width)
        let row ← mirrorRow rgba width row
        write out (y * stride) row : Outcome String (List UInt8)) = .ok out' ∧
      Mapped (mirrored rgba width (y + 1) stride) bytes out' := by
  have hfits : y * stride + rowBytes rgba width ≤ bytes.length := by
    have hnext : (y + 1) * stride ≤ height * stride := Nat.mul_le_mul_right stride hy
    rw [Nat.add_mul, Nat.one_mul] at hnext
    omega
  obtain ⟨row, hread, hrowlen, hget⟩ := read_ok (ε := String) (a := out) (i := y * stride)
    (n := rowBytes rgba width) (by rw [h.length]; exact hfits)
  obtain ⟨row', hmirror, hrow'⟩ := mirrorRow_ok hrowlen
  have hback : ∀ x < rowBytes rgba width, row'[x]? =
      bytes[(y * stride + x) / stride * stride +
        across rgba width ((y * stride + x) % stride)]? := by
    intro x hx
    have hax := across_lt hx
    obtain ⟨hdiv, hmod⟩ := row_column (y := y) (hx.trans_le hrow)
    obtain ⟨hdiva, -⟩ := row_column (y := y) (hax.trans_le hrow)
    -- The row is still as it was.
    have hold : mirrored rgba width y stride (y * stride + across rgba width x) =
        y * stride + across rgba width x := by
      apply if_neg
      rw [Visible, hdiva]
      omega
    rw [hrow'.get x (by omega), hget _ hax, h.get _ (by omega), hold, hdiv, hmod]
  obtain ⟨out', hwrite, hout'⟩ := h.write_row (ε := String)
    (g := fun k => k / stride * stride + across rgba width (k % stride)) hfits
    (hrow'.length.trans hrowlen) hback
  refine ⟨out', ?_, hout'.congr fun k _ => ?_⟩
  · rw [hread]
    show (mirrorRow rgba width row >>= fun row => write out (y * stride) row) = _
    rw [hmirror]
    exact hwrite
  · exact (mirrored_succ hrow y k).symm

/-- The rows upside down, by swaps from both ends. -/
theorem flip_ok (hrow : rowBytes rgba width ≤ stride) (hlen : height * stride ≤ bytes.length) :
    ∃ out, loop (ε := String) (height / 2) (fun y bytes =>
        loop (rowBytes rgba width) (fun x bytes =>
          swap bytes (y * stride + x) ((height - y - 1) * stride + x)) bytes) bytes = .ok out ∧
      Mapped (flipped rgba width height stride) bytes out := by
  obtain ⟨out, hloop, hout⟩ := swaps_ok (ε := String) (n := height / 2) (m := rowBytes rgba width)
    (a := bytes) (p := fun y x => y * stride + x) (q := fun y x => (height - y - 1) * stride + x)
    (flipped_involutive height hrow)
    (by
      intro y hy x hx
      obtain ⟨hdiv, hmod⟩ := row_column (y := y) (hx.trans_le hrow)
      have hvisible : Visible rgba width height stride (y * stride + x) := by
        rw [Visible, hdiv, hmod]
        omega
      have hindex : height - 1 - y = height - y - 1 := by omega
      rw [flipped, if_pos hvisible, hdiv, hmod, hindex])
    (by
      intro y hy x hx
      have hxs := hx.trans_le hrow
      exact ⟨(row_lt hxs (by omega)).trans_le hlen, (row_lt hxs (by omega)).trans_le hlen⟩)
    (by
      intro y hy x hx y' hy' x' hx' heq
      obtain ⟨hdiv, hmod⟩ := row_column (y := y) (hx.trans_le hrow)
      obtain ⟨hdiv', hmod'⟩ := row_column (y := y') (hx'.trans_le hrow)
      rw [heq, hdiv'] at hdiv
      rw [heq, hmod'] at hmod
      exact ⟨hdiv.symm, hmod.symm⟩)
    (by
      intro y hy x hx y' hy' x' hx' heq
      obtain ⟨hdiv, -⟩ := row_column (y := height - y - 1) (hx.trans_le hrow)
      obtain ⟨hdiv', -⟩ := row_column (y := y') (hx'.trans_le hrow)
      rw [heq, hdiv'] at hdiv
      omega)
  refine ⟨out, hloop, ?_⟩
  rw [partially_eq] at hout
  · exact hout
  -- A visible place in neither half is in the row in the middle.
  · intro k hk hk'
    by_cases hvisible : Visible rgba width height stride k
    · obtain ⟨hdiv, hmod⟩ := flipped_visible hrow hvisible
      obtain ⟨hy, hx⟩ := hvisible
      have hlow : height / 2 ≤ k / stride := by
        by_contra hlt
        exact hk ⟨k / stride, by omega, k % stride, hx, (Nat.div_add_mod' k stride).symm⟩
      have hhigh : height / 2 ≤ height - 1 - k / stride := by
        by_contra hlt
        refine hk' ⟨height - 1 - k / stride, by omega, k % stride, hx, ?_⟩
        rw [flipped, if_pos ⟨hy, hx⟩]
      have hmiddle : height - 1 - k / stride = k / stride := by omega
      rw [flipped, if_pos ⟨hy, hx⟩, hmiddle, Nat.div_add_mod']
    · exact if_neg hvisible

/-- What `flips` leaves at each place. -/
theorem flips_mapped (hrow : rowBytes rgba width ≤ stride)
    (hlen : height * stride ≤ bytes.length) (horizontal vertical : Bool) :
    ∃ out, flips bytes width height stride rgba horizontal vertical = .ok out ∧
      Mapped ((if horizontal then mirrored rgba width height stride else id) ∘
        (if vertical then flipped rgba width height stride else id)) bytes out := by
  have hfirst : ∃ mid, loop (ε := String) height (fun y bytes => do
        let row ← read bytes (y * stride) (rowBytes rgba width)
        if horizontal then
          let row ← mirrorRow rgba width row
          write bytes (y * stride) row
        else .ok bytes) bytes = .ok mid ∧
      Mapped (if horizontal then mirrored rgba width height stride else id) bytes mid := by
    cases horizontal with
    | true =>
      apply loop_ok (P := fun y b => Mapped (mirrored rgba width y stride) bytes b)
      · apply (Mapped.refl bytes).congr
        intro k _
        exact (if_neg (fun hk => absurd hk.1 (Nat.not_lt_zero _))).symm
      · intro y hy b hb
        exact mirror_step hrow hlen hy hb
    | false =>
      apply loop_ok (P := fun _ b => Mapped id bytes b)
      · exact Mapped.refl bytes
      · intro y hy b hb
        have hfits : y * stride + rowBytes rgba width ≤ b.length := by
          have hnext : (y + 1) * stride ≤ height * stride := Nat.mul_le_mul_right stride hy
          rw [Nat.add_mul, Nat.one_mul] at hnext
          rw [hb.length]
          omega
        obtain ⟨row, hread, -⟩ := read_ok (ε := String) hfits
        refine ⟨b, ?_, hb⟩
        rw [hread]
        rfl
  obtain ⟨mid, hloop, hmid⟩ := hfirst
  have hlenmid : height * stride ≤ mid.length := by
    rw [hmid.length]
    exact hlen
  cases vertical with
  | true =>
    obtain ⟨out, hflip, hout⟩ := flip_ok hrow hlenmid
    refine ⟨out, ?_, hmid.trans hout fun k hk => flipped_lt hrow hlen hk⟩
    unfold flips
    rw [hloop]
    exact hflip
  | false =>
    refine ⟨mid, ?_, hmid⟩
    unfold flips
    rw [hloop]
    rfl

/-! ## The laws -/

/-- A place of a row that is mirrored. -/
theorem mirrored_get (h : Mapped (mirrored rgba width height stride) bytes out)
    (hrow : rowBytes rgba width ≤ stride) (hlen : height * stride ≤ bytes.length) {y x : ℕ}
    (hy : y < height) (hx : x < rowBytes rgba width) :
    out[y * stride + x]? = bytes[y * stride + across rgba width x]? := by
  obtain ⟨hdiv, hmod⟩ := row_column (y := y) (hx.trans_le hrow)
  have hvisible : Visible rgba width height stride (y * stride + x) := by
    rw [Visible, hdiv, hmod]
    exact ⟨hy, hx⟩
  rw [h.get _ ((row_lt (hx.trans_le hrow) hy).trans_le hlen), mirrored, if_pos hvisible, hdiv, hmod]

/-- A place outside the rows keeps its byte. -/
theorem mirrored_get_outside (h : Mapped (mirrored rgba width height stride) bytes out)
    (hk : ∀ y < height, k < y * stride ∨ y * stride + rowBytes rgba width ≤ k) :
    out[k]? = bytes[k]? := by
  by_cases hlt : k < bytes.length
  · have hhidden : ¬Visible rgba width height stride k := by
      intro hvisible
      have hsum : k / stride * stride + k % stride = k := Nat.div_add_mod' k stride
      have hcolumn := hvisible.2
      rcases hk _ hvisible.1 with hbefore | hbehind <;> omega
    rw [h.get k hlt, mirrored, if_neg hhidden]
  · have hend : out.length ≤ k := by
      rw [h.length]
      omega
    rw [List.getElem?_eq_none hend, List.getElem?_eq_none (by omega)]

/-- A place of a row of the picture upside down. -/
theorem flipped_get (h : Mapped (flipped rgba width height stride) bytes out)
    (hrow : rowBytes rgba width ≤ stride) (hlen : height * stride ≤ bytes.length) {y x : ℕ}
    (hy : y < height) (hx : x < rowBytes rgba width) :
    out[(height - 1 - y) * stride + x]? = bytes[y * stride + x]? := by
  obtain ⟨hopposite, hback⟩ := opposite_row hy
  obtain ⟨hdiv, hmod⟩ := row_column (y := height - 1 - y) (hx.trans_le hrow)
  have hvisible : Visible rgba width height stride ((height - 1 - y) * stride + x) := by
    rw [Visible, hdiv, hmod]
    exact ⟨hopposite, hx⟩
  rw [h.get _ ((row_lt (hx.trans_le hrow) hopposite).trans_le hlen), flipped, if_pos hvisible, hdiv,
    hmod, hback]

/-- The mirror of a brightness byte. -/
theorem across_luma (heven : width % 2 = 0) {x : ℕ} (hx : x < width) :
    2 * (width - 1 - x) < rowBytes false width ∧
    across false width (2 * (width - 1 - x)) = 2 * x := by
  unfold rowBytes across reverseGroups exchangeLumas
  grind

/-- The mirror of a colour byte. -/
theorem across_chroma (heven : width % 2 = 0) {p c : ℕ} (hp : p < width / 2) (hc : c = 1 ∨ c = 3) :
    4 * (width / 2 - 1 - p) + c < rowBytes false width ∧
      across false width (4 * (width / 2 - 1 - p) + c) = 4 * p + c := by
  unfold rowBytes across reverseGroups exchangeLumas
  grind

/-- The mirror of a pixel of four bytes. -/
theorem across_pixel {x c : ℕ} (hx : x < width) (hc : c < 4) :
    4 * (width - 1 - x) + c < rowBytes true width ∧
      across true width (4 * (width - 1 - x) + c) = 4 * x + c := by
  unfold rowBytes across reverseGroups
  grind

/-- `flips` on every buffer that has its rows: the mirror takes luma `x` to `width - 1 - x`, chroma
pair `p` to `width / 2 - 1 - p` (and a whole pixel in RGBA) and leaves every other byte, the
vertical flip takes row `y` to `height - 1 - y`, each undoes itself, and the two commute. -/
theorem flips_laws (hrow : rowBytes rgba width ≤ stride) (heven : width % 2 = 0)
    (hlen : height * stride ≤ bytes.length) :
    ∃ hor ver both,
      flips bytes width height stride rgba true false = .ok hor ∧
      flips bytes width height stride rgba false true = .ok ver ∧
      hor.length = bytes.length ∧ ver.length = bytes.length ∧
      (rgba = false → ∀ y < height,
        (∀ x < width, hor[y * stride + 2 * (width - 1 - x)]? = bytes[y * stride + 2 * x]?) ∧
        ∀ p < width / 2, ∀ c, c = 1 ∨ c = 3 →
          hor[y * stride + (4 * (width / 2 - 1 - p) + c)]? = bytes[y * stride + (4 * p + c)]?) ∧
      (rgba = true → ∀ y < height, ∀ x < width, ∀ c < 4,
        hor[y * stride + (4 * (width - 1 - x) + c)]? = bytes[y * stride + (4 * x + c)]?) ∧
      (∀ k, (∀ y < height, k < y * stride ∨ y * stride + rowBytes rgba width ≤ k) →
        hor[k]? = bytes[k]?) ∧
      (∀ y < height, ∀ x < rowBytes rgba width,
        ver[(height - 1 - y) * stride + x]? = bytes[y * stride + x]?) ∧
      flips hor width height stride rgba true false = .ok bytes ∧
      flips ver width height stride rgba false true = .ok bytes ∧
      flips hor width height stride rgba false true = .ok both ∧
      flips ver width height stride rgba true false = .ok both ∧
      flips bytes width height stride rgba true true = .ok both := by
  obtain ⟨hor, hhor, hmhor⟩ := flips_mapped hrow hlen true false
  obtain ⟨ver, hver, hmver⟩ := flips_mapped hrow hlen false true
  obtain ⟨both, hboth, hmboth⟩ := flips_mapped hrow hlen true true
  have hmhor : Mapped (mirrored rgba width height stride) bytes hor := hmhor
  have hmver : Mapped (flipped rgba width height stride) bytes ver := hmver
  have hlenhor : height * stride ≤ hor.length := by
    rw [hmhor.length]
    exact hlen
  have hlenver : height * stride ≤ ver.length := by
    rw [hmver.length]
    exact hlen
  have hmlt : ∀ k < bytes.length, mirrored rgba width height stride k < bytes.length :=
    fun k hk => mirrored_lt hrow hlen hk
  have hflt : ∀ k < bytes.length, flipped rgba width height stride k < bytes.length :=
    fun k hk => flipped_lt hrow hlen hk
  obtain ⟨hor₂, hhor₂, hmhor₂⟩ := flips_mapped hrow hlenhor true false
  obtain ⟨ver₂, hver₂, hmver₂⟩ := flips_mapped hrow hlenver false true
  obtain ⟨horver, hhorver, hmhorver⟩ := flips_mapped hrow hlenhor false true
  obtain ⟨verhor, hverhor, hmverhor⟩ := flips_mapped hrow hlenver true false
  -- a buffer is known by where its bytes come from, so each law is one of the two maps
  have hback : hor₂ = bytes := by
    have htwice := (hmhor.trans hmhor₂ hmlt).congr
      fun k _ => mirrored_involutive height hrow k
    exact htwice.unique (Mapped.refl bytes)
  have hvback : ver₂ = bytes := by
    have htwice := (hmver.trans hmver₂ hflt).congr
      fun k _ => flipped_involutive height hrow k
    exact htwice.unique (Mapped.refl bytes)
  have hhv : horver = both := (hmhor.trans hmhorver hflt).unique hmboth
  have hvh : verhor = both := by
    have hsame := (hmver.trans hmverhor hmlt).congr
      fun k _ => (mirrored_flipped hrow k).symm
    exact hsame.unique hmboth
  subst hback hvback hhv
  refine ⟨hor, ver, horver, hhor, hver, hmhor.length, hmver.length, ?_, ?_, ?_, ?_, hhor₂, hver₂,
    hhorver, hvh ▸ hverhor, hboth⟩
  · rintro rfl y hy
    constructor
    · intro x hx
      obtain ⟨hlt, hacross⟩ := across_luma heven hx
      rw [mirrored_get hmhor hrow hlen hy hlt, hacross]
    · intro p hp c hc
      obtain ⟨hlt, hacross⟩ := across_chroma heven hp hc
      rw [mirrored_get hmhor hrow hlen hy hlt, hacross]
  · rintro rfl y hy x hx c hc
    obtain ⟨hlt, hacross⟩ := across_pixel hx hc
    rw [mirrored_get hmhor hrow hlen hy hlt, hacross]
  · intro k hk
    exact mirrored_get_outside hmhor hk
  · intro y hy x hx
    exact flipped_get hmver hrow hlen hy hx

/-- The row of the source's test. -/
theorem flips_laws_row : ∃ hor,
    flips [1, 10, 2, 20, 3, 30, 4, 40, 99, 99] 4 1 10 false true false = .ok hor ∧
      hor[0]? = some 4 ∧ hor[9]? = some 99 := by
  have hrow : rowBytes false 4 ≤ 10 := by decide
  have hlen : 1 * 10 ≤ ([1, 10, 2, 20, 3, 30, 4, 40, 99, 99] : List UInt8).length := by decide
  obtain ⟨hor, ver, both, hhor, -, -, -, hyuyv, -, hpadding, -⟩ :=
    flips_laws hrow (by decide) hlen
  refine ⟨hor, hhor, ?_, ?_⟩
  · exact (hyuyv rfl 0 (by decide)).1 3 (by decide)
  · exact hpadding 9 (by decide)

end Video
end MobileWebcamBridge
