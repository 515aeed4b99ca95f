import MobileWebcamBridge.Host.Preview

/-!
# The sizes in a preview record

`latest` on a file that says anything at all, and that another process may change between two of the
three reads. `parse_header` multiplies the width, the height and four in `usize`; the product
of two 32-bit fields and four can be past `usize`, and then wraps to a length that `len` can name.
`SizesFit` is the condition that it does not. Under it a frame that is returned has the pixels its
width and height ask for.
-/

set_option autoImplicit false

namespace MobileWebcamBridge
namespace Preview

open Bytes

variable {bytes : List UInt8} {first second third : ByteFile} {frame : Frame} {parsed : Parsed}

/-- A multiplication in `usize` that is told apart when it overflows, as a build with overflow
checks does. -/
def checkedMul (a b : ℕ) : Option ℕ :=
  if a * b < 2 ^ 64 then some (a * b) else none

/-- `parse_header` of a build with overflow checks; `none` is a multiplication that overflows. -/
def parseHeaderChecked (bytes : List UInt8) : Option (Option Parsed) :=
  if slice bytes 0 4 ≠ MAGIC ∨ ofLE (slice bytes 4 8) ≠ VERSION then some none
  else
    let seq := UInt64.ofNat (ofLE (slice bytes 8 16))
    let width := ofLE (slice bytes 16 20)
    let height := ofLE (slice bytes 20 24)
    let len := ofLE (slice bytes 24 28)
    -- The multiplications stand behind the tests for zero.
    if width = 0 ∨ height = 0 then some none
    else do
      let product ← checkedMul width height
      let product ← checkedMul product 4
      if len ≠ product ∨ len > CAPACITY then some none
      else some (some { seq, width, height, len })

/-- `latest`, when its three reads find these contents. -/
def latest (first second third : ByteFile) : Option Frame := do
  let parsed ← (first.readAt 0 HEADER).bind parseHeader
  if parsed.seq % 2 = 1 then none
  else
    let pixels ← second.readAt HEADER parsed.len
    let again ← (third.readAt 0 HEADER).bind parseHeader
    if again.seq ≠ parsed.seq then none
    else some { width := parsed.width, height := parsed.height, pixels }

/-- The header that a read found, and what a build with overflow checks makes of it. -/
def readHeaderChecked (file : ByteFile) : Option (Option Parsed) :=
  match file.readAt 0 HEADER with
  | some raw => parseHeaderChecked raw
  | none => some none

/-- Whether the multiplications of one call stay within `usize`: those on the header it reads first
and, where it comes to that, those on the header it checks. -/
def latestChecked (first second third : ByteFile) : Option (Option Frame) := do
  match ← readHeaderChecked first with
  | none => some none
  | some parsed =>
    if parsed.seq % 2 = 1 then some none
    else
      match second.readAt HEADER parsed.len with
      | none => some none
      | some pixels =>
        match ← readHeaderChecked third with
        | none => some none
        | some again =>
          if again.seq ≠ parsed.seq then some none
          else some (some { width := parsed.width, height := parsed.height, pixels })

/-- The call by its reads is the call of the runs. -/
theorem latest_eq_read (first second third : ByteFile) :
    ((Latest.header.read first).read second).read third = .done (latest first second third) := by
  unfold latest
  cases hparsed : (first.readAt 0 HEADER).bind parseHeader with
  | none => simp [Latest.read, hparsed]
  | some parsed =>
    by_cases hodd : parsed.seq % 2 = 1
    · simp [Latest.read, hparsed, hodd]
    · cases hpixels : second.readAt HEADER parsed.len with
      | none => simp [Latest.read, hparsed, hodd, hpixels]
      | some pixels =>
        cases hagain : (third.readAt 0 HEADER).bind parseHeader with
        | none => simp [Latest.read, hparsed, hodd, hpixels, hagain]
        | some again =>
          by_cases hseq : again.seq = parsed.seq
          · simp [Latest.read, hparsed, hodd, hpixels, hagain, hseq]
          · simp [Latest.read, hparsed, hodd, hpixels, hagain, hseq]

/-! ## One header -/

/-- A header that `parse_header` recognises names sizes whose product fits. -/
def SizesFit (raw : List UInt8) : Prop :=
  slice raw 0 4 = MAGIC → ofLE (slice raw 4 8) = VERSION →
    ofLE (slice raw 16 20) * ofLE (slice raw 20 24) < 2 ^ 62

/-- A 32-bit field of a header. -/
theorem field_lt (raw : List UInt8) (a : ℕ) : ofLE (slice raw a (a + 4)) < 2 ^ 32 := by
  have hlen : (slice raw a (a + 4)).length ≤ 4 := by
    rw [slice, List.length_take]
    omega
  calc ofLE (slice raw a (a + 4)) < 256 ^ (slice raw a (a + 4)).length := ofLE_lt _
    _ ≤ 256 ^ 4 := Nat.pow_le_pow_right (by decide) hlen
    _ = 2 ^ 32 := by decide

/-- A product that does not overflow. -/
theorem checkedMul_eq_some {a b product : ℕ} :
    checkedMul a b = some product ↔ a * b < 2 ^ 64 ∧ product = a * b := by
  unfold checkedMul
  split
  · next hlt =>
    constructor
    · intro h
      exact ⟨hlt, (Option.some.inj h).symm⟩
    · intro h
      rw [h.2]
  · next hge =>
    constructor
    · intro h
      cases h
    · intro h
      exact absurd h.1 hge

/-- The first of the two multiplications never overflows. -/
theorem checkedMul_fields (raw : List UInt8) :
    checkedMul (ofLE (slice raw 16 20)) (ofLE (slice raw 20 24)) =
      some (ofLE (slice raw 16 20) * ofLE (slice raw 20 24)) := by
  rw [checkedMul_eq_some]
  refine ⟨?_, rfl⟩
  have hwidth : ofLE (slice raw 16 20) < 2 ^ 32 := field_lt raw 16
  have hheight : ofLE (slice raw 20 24) < 2 ^ 32 := field_lt raw 20
  calc ofLE (slice raw 16 20) * ofLE (slice raw 20 24) < 2 ^ 32 * 2 ^ 32 :=
        Nat.mul_lt_mul_of_lt_of_lt hwidth hheight
    _ = 2 ^ 64 := by decide

/-- What `parse_header` answers when nothing overflows. -/
theorem parseHeader_of_checked {r : Option Parsed} (h : parseHeaderChecked bytes = some r) :
    parseHeader bytes = r := by
  unfold parseHeaderChecked at h
  unfold parseHeader
  split at h
  · next hforeign =>
    rw [if_pos hforeign]
    exact Option.some.inj h
  · next hforeign =>
    rw [if_neg hforeign]
    dsimp only at h ⊢
    split at h
    · next hzero =>
      rw [if_pos (by tauto)]
      exact Option.some.inj h
    · next hzero =>
      push Not at hzero
      rw [checkedMul_fields, Option.bind_eq_bind, Option.bind_some] at h
      obtain ⟨product, hproduct, h⟩ := Option.bind_eq_some_iff.mp h
      obtain ⟨hlt, rfl⟩ := checkedMul_eq_some.mp hproduct
      have husize : usize (ofLE (slice bytes 16 20) * ofLE (slice bytes 20 24) * 4) =
          ofLE (slice bytes 16 20) * ofLE (slice bytes 20 24) * 4 := Nat.mod_eq_of_lt hlt
      rw [husize]
      simp only [hzero.1, hzero.2, false_or]
      split at h
      · next hrefused =>
        rw [if_pos hrefused]
        exact Option.some.inj h
      · next htaken =>
        rw [if_neg htaken]
        exact Option.some.inj h

/-- The header's products do not overflow exactly when its sizes fit. -/
theorem parseHeaderChecked_ne_none : parseHeaderChecked bytes ≠ none ↔ SizesFit bytes := by
  unfold parseHeaderChecked SizesFit
  split
  · next hforeign =>
    simp only [ne_eq, reduceCtorEq, not_false_eq_true, true_iff]
    intro hmagic hversion
    tauto
  · next hknown =>
    push Not at hknown
    dsimp only
    split
    · next hzero =>
      simp only [ne_eq, reduceCtorEq, not_false_eq_true, true_iff]
      intro _ _
      rcases hzero with hzero | hzero <;> simp [hzero]
    · next hzero =>
      rw [checkedMul_fields, Option.bind_eq_bind, Option.bind_some]
      generalize ofLE (slice bytes 16 20) * ofLE (slice bytes 20 24) = product
      unfold checkedMul
      split
      · next hlt =>
        have hfits : product < 2 ^ 62 := by omega
        simp only [Option.bind_some, hknown, hfits]
        split <;> simp
      · next hge =>
        have hlarge : ¬product < 2 ^ 62 := by omega
        constructor
        · intro h
          exact absurd rfl h
        · intro h
          exact absurd (h hknown.1 hknown.2) hlarge

/-- The sizes of a header that is accepted, where they fit. -/
theorem sizes_of_parseHeader (hfits : SizesFit bytes) (h : parseHeader bytes = some parsed) :
    parsed.width ≠ 0 ∧ parsed.height ≠ 0 ∧ parsed.len = parsed.width * parsed.height * 4 ∧
      parsed.len ≤ CAPACITY := by
  unfold parseHeader at h
  split at h
  · cases h
  · next hknown =>
    push Not at hknown
    dsimp only at h
    split at h
    · cases h
    · next hsizes =>
      rw [not_or, not_or, not_or, not_not] at hsizes
      obtain ⟨hwidth, hheight, hlen, hcapacity⟩ := hsizes
      have hlt : ofLE (slice bytes 16 20) * ofLE (slice bytes 20 24) < 2 ^ 62 :=
        hfits hknown.1 hknown.2
      have husize : usize (ofLE (slice bytes 16 20) * ofLE (slice bytes 20 24) * 4) =
          ofLE (slice bytes 16 20) * ofLE (slice bytes 20 24) * 4 :=
        Nat.mod_eq_of_lt (by omega)
      obtain rfl := Option.some.inj h
      exact ⟨hwidth, hheight, hlen.trans husize, Nat.le_of_not_lt hcapacity⟩

/-! ## One call -/

/-- The header that a read finds has sizes that fit. -/
def ReadFits (file : ByteFile) : Prop :=
  ∀ raw ∈ file.readAt 0 HEADER, SizesFit raw

/-- The sizes fit in every header that the call parses: the first, and the one it checks where it
comes to that. -/
def CallFits (first second third : ByteFile) : Prop :=
  ReadFits first ∧
    ∀ parsed ∈ (first.readAt 0 HEADER).bind parseHeader, parsed.seq % 2 ≠ 1 →
      (second.readAt HEADER parsed.len).isSome → ReadFits third

/-- The frame has the pixels its width and height ask for, and the record has room for them. -/
def Frame.Exact (frame : Frame) : Prop :=
  frame.width ≠ 0 ∧ frame.height ≠ 0 ∧
    frame.pixels.length = frame.width * frame.height * 4 ∧ frame.pixels.length ≤ CAPACITY

/-- So for a header that is read from the file. -/
theorem readFits_iff : ReadFits first ↔ readHeaderChecked first ≠ none := by
  unfold ReadFits readHeaderChecked
  cases first.readAt 0 HEADER with
  | none => simp
  | some raw => simp [parseHeaderChecked_ne_none]

/-- Where nothing overflows, the two ways of reading agree. -/
theorem readHeader_of_checked {r : Option Parsed} (h : readHeaderChecked first = some r) :
    (first.readAt 0 HEADER).bind parseHeader = r := by
  unfold readHeaderChecked at h
  cases hraw : first.readAt 0 HEADER with
  | none =>
    rw [hraw] at h
    exact Option.some.inj h
  | some raw =>
    rw [hraw] at h
    exact parseHeader_of_checked h

/-- A call does not overflow exactly when all its reads fit. -/
theorem latestChecked_ne_none :
    latestChecked first second third ≠ none ↔ CallFits first second third := by
  unfold CallFits latestChecked
  rw [readFits_iff, readFits_iff]
  cases hfirst : readHeaderChecked first with
  | none => simp
  | some r =>
    rw [readHeader_of_checked hfirst]
    cases r with
    | none => simp
    | some parsed =>
      by_cases hodd : parsed.seq % 2 = 1
      · simp [hodd]
      · cases hpixels : second.readAt HEADER parsed.len with
        | none => simp [hodd, hpixels]
        | some pixels =>
          cases hagain : readHeaderChecked third with
          | none => simp [hodd, hpixels]
          | some again =>
            cases again with
            | none => simp [hodd, hpixels]
            | some again =>
              by_cases hseq : again.seq = parsed.seq <;>
                simp [hodd, hpixels, hseq]

/-- A frame that is returned over headers that fit. -/
theorem exact_of_latest (hfits : CallFits first second third)
    (h : latest first second third = some frame) : frame.Exact := by
  unfold latest at h
  obtain ⟨parsed, hread, h⟩ := Option.bind_eq_some_iff.mp h
  obtain ⟨raw, hraw, hparsed⟩ := Option.bind_eq_some_iff.mp hread
  split at h
  · cases h
  obtain ⟨pixels, hpixels, h⟩ := Option.bind_eq_some_iff.mp h
  obtain ⟨again, _, h⟩ := Option.bind_eq_some_iff.mp h
  split at h
  · cases h
  obtain rfl := Option.some.inj h
  obtain ⟨hwidth, hheight, hlen, hcapacity⟩ :=
    sizes_of_parseHeader (hfits.1 raw hraw) hparsed
  have hfull : pixels.length = parsed.len := (ByteFile.readAt_eq_some.mp hpixels).2.1
  exact ⟨hwidth, hheight, hfull.trans hlen, hfull ▸ hcapacity⟩

/-- Every call of `latest` ends with its third read. No multiplication on the way overflows, and a
frame it returns has exactly the pixels that its width and height ask for, precisely when the sizes
fit in the headers it parses. -/
theorem latest_exact_iff (first second third : ByteFile) :
    ∃ result, ((Latest.header.read first).read second).read third = .done result ∧
      ((latestChecked first second third ≠ none ∧ ∀ frame, result = some frame → frame.Exact) ↔
        CallFits first second third) := by
  refine ⟨latest first second third, latest_eq_read first second third, ?_⟩
  rw [latestChecked_ne_none]
  constructor
  · exact And.left
  · intro hfits
    exact ⟨hfits, fun frame hframe => exact_of_latest hfits hframe⟩

/-- A record whose header names 2³¹ columns, 2³¹ rows and no bytes at all. -/
def wrapped : ByteFile :=
  (ByteFile.zeros (HEADER + CAPACITY)).writeAt 0 (header 0 (2 ^ 31) (2 ^ 31) 0)

/-- It is returned as a frame of 2³¹ by 2³¹ without a pixel, and a build with overflow checks stops
at the multiplication. -/
theorem latest_wrapped :
    ((Latest.header.read wrapped).read wrapped).read wrapped =
        .done (some { width := 2 ^ 31, height := 2 ^ 31, pixels := [] }) ∧
      latestChecked wrapped wrapped wrapped = none ∧
      ¬({ width := 2 ^ 31, height := 2 ^ 31, pixels := [] } : Frame).Exact := by
  refine ⟨by decide +kernel, by decide +kernel, ?_⟩
  intro hexact
  exact absurd hexact.2.2.1 (by decide)

end Preview
end MobileWebcamBridge
