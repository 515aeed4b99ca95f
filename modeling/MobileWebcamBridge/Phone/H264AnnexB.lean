import Mathlib.Data.Int.Notation
import Mathlib.Data.Nat.Basic
import MobileWebcamBridge.Lib.Bytes

/-!
# `H264AnnexB.kt`: access units in Annex-B form

An encoder gives its NAL units behind start codes or behind four-byte lengths, and `normalize` tells
the two apart by the first bytes. `scan` is its loop over the lengths: it accepts exactly the
concatenations of NAL units behind their lengths (`scan_prefixed`, `stream_of_scan`), and what
remains is which of these begin with the bytes of a start code.
-/

set_option autoImplicit false

namespace MobileWebcamBridge
namespace H264AnnexB

open Bytes

variable {data out result : List UInt8} {offset : ℕ}

/-- The long start code. -/
def startCode : List UInt8 := [0, 0, 0, 1]

/-- A start code of either length stands there. -/
def hasStartCode (data : List UInt8) (offset : ℕ) : Bool :=
  if data.length - offset ≥ 4 ∧ data[offset]? = some 0 ∧ data[offset + 1]? = some 0 ∧
      data[offset + 2]? = some 0 ∧ data[offset + 3]? = some 1 then true
  else data.length - offset ≥ 3 ∧ data[offset]? = some 0 ∧ data[offset + 1]? = some 0 ∧
    data[offset + 2]? = some 1

/-- The signed number of four bytes, the highest first. -/
def int (bytes : List UInt8) : ℤ :=
  let n := ofBE bytes
  if n < 2 ^ 31 then n else n - 2 ^ 32

/-- The loop of `normalize`. -/
def scan (data : List UInt8) (offset : ℕ) (out : List UInt8) : Except String (List UInt8) :=
  if offset < data.length then
    if data.length - offset < 4 then .error "truncated AVC length prefix"
    else
      let length := int (slice data offset (offset + 4))
      if length ≤ 0 then .error s!"invalid AVC NAL length: {length}"
      else if length > (data.length - (offset + 4) : ℕ) then
        .error "AVC NAL length exceeds access unit"
      else
        let next := offset + 4 + length.toNat
        scan data next (out ++ startCode ++ slice data (offset + 4) next)
  else .ok out
termination_by data.length - offset

/-- The unit in Annex B, whatever the encoder gave. -/
def normalize (data : List UInt8) : Except String (List UInt8) :=
  if data.isEmpty then .ok data
  else if hasStartCode data 0 then .ok data
  -- `data.size + 32` is an `Int`, and past its range the buffer refuses a negative size.
  else if data.length + 32 ≥ 2 ^ 31 then
    .error s!"Negative initial size: {(data.length + 32 : ℤ) - 2 ^ 32}"
  else scan data 0 []

/-! ## Streams of NAL units -/

/-- A NAL unit that an encoder can give. -/
structure Nal where
  bytes : List UInt8
  pos : 0 < bytes.length
  lt : bytes.length < 2 ^ 31

/-- The unit behind its four-byte length. -/
def Nal.prefixed (nal : Nal) : List UInt8 := toBE 4 nal.bytes.length ++ nal.bytes

/-- The unit behind a start code. -/
def Nal.annexB (nal : Nal) : List UInt8 := startCode ++ nal.bytes

/-- The units behind their lengths. -/
def prefixed (nals : List Nal) : List UInt8 := nals.flatMap Nal.prefixed

/-- The units behind start codes. -/
def annexB (nals : List Nal) : List UInt8 := nals.flatMap Nal.annexB

/-- The bytes are NAL units behind their lengths. -/
def IsStream (data : List UInt8) : Prop :=
  ∃ nals : List Nal, nals ≠ [] ∧ data = prefixed nals

/-- The bytes read as Annex B. -/
def BeginsWithStartCode (data : List UInt8) : Prop :=
  startCode <+: data ∨ [0, 0, 1] <+: data

/-- The first length reads as a start code, and the stream is not its own Annex-B form: the first
unit has 256 to 511 bytes, or one byte and not every other unit has one. -/
def Misread : List Nal → Prop
  | [] => False
  | nal :: nals =>
    256 ≤ nal.bytes.length ∧ nal.bytes.length < 512 ∨
      nal.bytes.length = 1 ∧ ∃ other ∈ nals, other.bytes.length ≠ 1

/-! ## The scan -/

theorem int_toBE {n : ℕ} (h : n < 2 ^ 31) : int (toBE 4 n) = n := by
  have hlt : n < 256 ^ 4 := by omega
  rw [int, ofBE_toBE_of_lt hlt]
  exact if_pos h

/-- One turn of the loop over a unit behind its length. -/
theorem scan_nal (pre rest : List UInt8) (nal : Nal) :
    scan (pre ++ (nal.prefixed ++ rest)) pre.length out =
      scan (pre ++ (nal.prefixed ++ rest)) (pre ++ nal.prefixed).length (out ++ nal.annexB) := by
  have hpos := nal.pos
  have hlength : (pre ++ (nal.prefixed ++ rest)).length =
      pre.length + 4 + nal.bytes.length + rest.length := by
    simp only [Nal.prefixed, List.length_append, length_toBE]
    omega
  have hfield : slice (pre ++ (nal.prefixed ++ rest)) pre.length (pre.length + 4) =
      toBE 4 nal.bytes.length := by
    rw [slice_append_of_le le_rfl, Nat.sub_self, Nat.add_sub_cancel_left, Nal.prefixed,
      List.append_assoc, slice_append_self (length_toBE _ _)]
  have hunit : slice (pre ++ (nal.prefixed ++ rest)) (pre.length + 4)
      (pre.length + 4 + nal.bytes.length) = nal.bytes := by
    have hpre : (pre ++ toBE 4 nal.bytes.length).length = pre.length + 4 := by simp
    rw [Nal.prefixed, List.append_assoc, ← List.append_assoc pre,
      slice_append_of_le (le_of_eq hpre), hpre, Nat.sub_self, Nat.add_sub_cancel_left,
      slice_append_self rfl]
  rw [scan, if_pos (by omega), if_neg (by omega)]
  simp only [hfield, int_toBE nal.lt, hlength, Int.toNat_natCast, hunit]
  rw [if_neg (by omega), if_neg (by omega)]
  simp [Nal.annexB, Nal.prefixed, Nat.add_assoc]

/-- The scan of units behind their lengths. -/
theorem scan_prefixed (pre : List UInt8) (nals : List Nal) :
    scan (pre ++ prefixed nals) pre.length out = .ok (out ++ annexB nals) := by
  induction nals generalizing pre out with
  | nil =>
    rw [scan, if_neg (by simp [prefixed])]
    simp [annexB]
  | cons nal nals ih =>
    show scan (pre ++ (nal.prefixed ++ prefixed nals)) pre.length out = _
    rw [scan_nal, ← List.append_assoc pre, ih]
    simp [annexB]

/-- A length the scan accepts is the one of four bytes. -/
theorem toBE_int {bytes : List UInt8} (hlen : bytes.length = 4) (hpos : 0 < int bytes) :
    (int bytes).toNat < 2 ^ 31 ∧ toBE 4 (int bytes).toNat = bytes := by
  have hlt : ofBE bytes < 2 ^ 32 := by
    have hfield : ofLE bytes.reverse < 256 ^ bytes.reverse.length := ofLE_lt _
    rw [List.length_reverse, hlen] at hfield
    exact hfield
  -- With the top bit set the number is negative.
  have hsmall : ofBE bytes < 2 ^ 31 := by
    by_contra hlarge
    rw [int, if_neg hlarge] at hpos
    omega
  have hint : (int bytes).toNat = ofBE bytes := by
    rw [int, if_pos hsmall, Int.toNat_natCast]
  rw [hint]
  exact ⟨hsmall, toBE_ofBE hlen⟩

/-- What the scan accepts are units behind their lengths. -/
theorem stream_of_scan (hle : offset ≤ data.length) (h : scan data offset out = .ok result) :
    ∃ nals, data.drop offset = prefixed nals ∧ result = out ++ annexB nals := by
  fun_induction scan data offset out with
  | case1 offset out hlt hshort => cases h
  | case2 offset out hlt hshort length hneg => cases h
  | case3 offset out hlt hshort length hpos hlong => cases h
  | case4 offset out hlt hshort length hpos hfits next ih =>
    have hfield : (slice data offset (offset + 4)).length = 4 := by
      rw [length_slice (by omega)]
      omega
    obtain ⟨hsmall, hlength⟩ := toBE_int hfield (by omega)
    have hunit : (slice data (offset + 4) next).length = length.toNat := by
      rw [length_slice (by omega)]
      omega
    obtain ⟨nals, hdrop, hresult⟩ := ih (by omega) h
    let nal : Nal :=
      { bytes := slice data (offset + 4) next
        pos := by omega
        lt := by omega }
    have hprefixed : nal.prefixed = slice data offset next := by
      show toBE 4 (slice data (offset + 4) next).length ++ slice data (offset + 4) next = _
      rw [hunit, hlength, slice_append_slice (by omega) (by omega)]
    refine ⟨nal :: nals, ?_, ?_⟩
    · show _ = nal.prefixed ++ prefixed nals
      rw [hprefixed, ← hdrop, slice_append_drop (by omega)]
    · show _ = out ++ (nal.annexB ++ annexB nals)
      rw [hresult]
      simp [Nal.annexB, nal]
  | case5 offset out hge =>
    refine ⟨[], ?_, ?_⟩
    · exact List.drop_eq_nil_of_le (by omega)
    · simpa [annexB, eq_comm] using h

/-! ## The first bytes -/

theorem hasStartCode_iff (data : List UInt8) :
    hasStartCode data 0 = true ↔ BeginsWithStartCode data := by
  unfold BeginsWithStartCode startCode
  match data with
  | [] => simp [hasStartCode]
  | [a] => simp [hasStartCode, List.cons_prefix_cons]
  | [a, b] => simp [hasStartCode, List.cons_prefix_cons]
  | [a, b, c] => simp [hasStartCode, List.cons_prefix_cons, @eq_comm _ (0 : UInt8),
      @eq_comm _ (1 : UInt8)]
  | a :: b :: c :: d :: rest =>
    simp [hasStartCode, List.cons_prefix_cons, @eq_comm _ (0 : UInt8), @eq_comm _ (1 : UInt8)]

/-- The lengths that read as a start code. -/
theorem begins_toBE {n : ℕ} (hn : n < 2 ^ 31) (rest : List UInt8) :
    BeginsWithStartCode (toBE 4 n ++ rest) ↔ n = 1 ∨ 256 ≤ n ∧ n < 512 := by
  have hbytes : toBE 4 n = [UInt8.ofNat (n / 256 / 256 / 256), UInt8.ofNat (n / 256 / 256),
    UInt8.ofNat (n / 256), UInt8.ofNat n] := rfl
  have hvalue (x : ℕ) (k : UInt8) : k = UInt8.ofNat x ↔ k.toNat = x % 256 := by
    rw [← UInt8.toNat_inj, UInt8.toNat_ofNat']
  rw [hbytes, BeginsWithStartCode, startCode]
  simp only [List.cons_append, List.nil_append, List.cons_prefix_cons, List.nil_prefix, and_true,
    hvalue]
  show 0 = _ ∧ 0 = _ ∧ 0 = _ ∧ 1 = _ ∨ 0 = _ ∧ 0 = _ ∧ 1 = _ ↔ _
  omega

/-- A stream of units of one byte each is its own Annex-B form. -/
theorem annexB_of_ones (nals : List Nal) (h : ∀ nal ∈ nals, nal.bytes.length = 1) :
    annexB nals = prefixed nals := by
  induction nals with
  | nil => rfl
  | cons nal nals ih =>
    have hone : nal.bytes.length = 1 := h nal List.mem_cons_self
    have hnal : nal.annexB = nal.prefixed := by
      rw [Nal.annexB, Nal.prefixed, hone]
      rfl
    show nal.annexB ++ annexB nals = nal.prefixed ++ prefixed nals
    rw [hnal, ih fun other hother => h other (List.mem_cons_of_mem _ hother)]

theorem prefixed_ne_nil {nals : List Nal} (h : nals ≠ []) : prefixed nals ≠ [] := by
  obtain ⟨nal, rest, rfl⟩ := List.exists_cons_of_ne_nil h
  intro hnil
  have hlen : (prefixed (nal :: rest)).length = 0 := by rw [hnil]; rfl
  simp [prefixed, Nal.prefixed] at hlen

/-! ## Every input -/

theorem normalize_of_begins (h : BeginsWithStartCode data) : normalize data = .ok data := by
  unfold normalize
  rw [if_pos ((hasStartCode_iff data).mpr h)]
  split <;> rfl

/-- An input without a start code goes to the scan. -/
theorem normalize_of_not_begins (hne : data ≠ []) (h : ¬BeginsWithStartCode data)
    (hlen : data.length + 32 < 2 ^ 31) : normalize data = scan data 0 [] := by
  rw [← hasStartCode_iff] at h
  unfold normalize
  rw [if_neg (by simpa using hne), if_neg h, if_neg (by omega)]

/-- `normalize` on a stream that is not misread. -/
theorem normalize_prefixed {nals : List Nal} (hne : nals ≠ []) (hread : ¬Misread nals)
    (hlen : (prefixed nals).length + 32 < 2 ^ 31) :
    normalize (prefixed nals) = .ok (annexB nals) := by
  by_cases hbegins : BeginsWithStartCode (prefixed nals)
  · -- The first length reads as a start code, so every unit has one byte.
    rw [normalize_of_begins hbegins, annexB_of_ones]
    obtain ⟨nal, rest, rfl⟩ := List.exists_cons_of_ne_nil hne
    have hfirst : nal.bytes.length = 1 ∨ 256 ≤ nal.bytes.length ∧ nal.bytes.length < 512 := by
      have hdata : prefixed (nal :: rest) =
          toBE 4 nal.bytes.length ++ (nal.bytes ++ prefixed rest) := by
        simp [prefixed, Nal.prefixed]
      rw [hdata] at hbegins
      exact (begins_toBE nal.lt _).mp hbegins
    have hone : nal.bytes.length = 1 := by
      apply hfirst.resolve_right
      intro hrange
      exact hread (.inl hrange)
    intro other hother
    rcases List.mem_cons.mp hother with rfl | hother
    · exact hone
    · by_contra hlonger
      exact hread (.inr ⟨hone, other, hother, hlonger⟩)
  · rw [normalize_of_not_begins (prefixed_ne_nil hne) hbegins hlen]
    exact scan_prefixed [] nals

/-- The buffer refuses an input whose size and 32 bytes more are past an `Int`. -/
theorem normalize_of_long (hne : data ≠ []) (h : ¬BeginsWithStartCode data)
    (hlong : 2 ^ 31 ≤ data.length + 32) : ∃ message, normalize data = .error message := by
  rw [← hasStartCode_iff] at h
  unfold normalize
  rw [if_neg (by simpa using hne), if_neg h, if_pos hlong]
  exact ⟨_, rfl⟩

theorem normalize_rejects (hne : data ≠ []) (hbegins : ¬BeginsWithStartCode data)
    (hstream : ¬IsStream data) : ∃ message, normalize data = .error message := by
  by_cases hlong : 2 ^ 31 ≤ data.length + 32
  · exact normalize_of_long hne hbegins hlong
  rw [normalize_of_not_begins hne hbegins (by omega)]
  cases hresult : scan data 0 [] with
  | error message => exact ⟨message, rfl⟩
  | ok result =>
    exfalso
    obtain ⟨nals, hdata, -⟩ := stream_of_scan (Nat.zero_le _) hresult
    apply hstream
    refine ⟨nals, ?_, hdata⟩
    rintro rfl
    exact hne hdata

/-- What `normalize` answers on every input but a misread stream: a stream of units behind their
lengths is given start codes, anything else behind a start code and the empty input are returned as
they are, and the rest is rejected. -/
theorem normalize_spec (data : List UInt8) :
    (∀ nals, nals ≠ [] → data = prefixed nals → ¬Misread nals → data.length + 32 < 2 ^ 31 →
      normalize data = .ok (annexB nals)) ∧
    (BeginsWithStartCode data → ¬IsStream data → normalize data = .ok data) ∧
    (data = [] → normalize data = .ok data) ∧
    (data ≠ [] → ¬BeginsWithStartCode data → ¬IsStream data →
      ∃ message, normalize data = .error message) := by
  refine ⟨?_, fun hbegins _ => normalize_of_begins hbegins, ?_, normalize_rejects⟩
  · rintro nals hne rfl hread hlen
    exact normalize_prefixed hne hread hlen
  · rintro rfl
    rfl

/-- A unit of so many zero bytes. -/
def zeros (n : ℕ) (hpos : 0 < n) (hlt : n < 2 ^ 31) : Nal where
  bytes := List.replicate n 0
  pos := by simpa using hpos
  lt := by simpa using hlt

theorem prefixed_zeros {n : ℕ} (hpos : 0 < n) (hlt : n < 2 ^ 31) :
    prefixed [zeros n hpos hlt] = toBE 4 n ++ List.replicate n 0 := by
  simp [prefixed, Nal.prefixed, zeros]

/-- A unit of 256 to 511 bytes keeps its length. -/
theorem normalize_zeros_misread {n : ℕ} (hpos : 0 < n) (hlt : n < 2 ^ 31)
    (hrange : 256 ≤ n ∧ n < 512) :
    normalize (prefixed [zeros n hpos hlt]) ≠ .ok (annexB [zeros n hpos hlt]) := by
  rw [prefixed_zeros, normalize_of_begins ((begins_toBE hlt _).mpr (.inr hrange))]
  intro hsame
  have hbytes : toBE 4 n ++ List.replicate n 0 = startCode ++ List.replicate n 0 := by
    simpa [annexB, Nal.annexB, zeros] using Except.ok.inj hsame
  have hcode : ofBE (toBE 4 n) = ofBE startCode := by
    rw [(List.append_inj hbytes (length_toBE 4 n)).1]
  rw [ofBE_toBE_of_lt (by omega)] at hcode
  have hone : ofBE startCode = 1 := by decide
  omega

/-- A unit that brings the input to 32 bytes below 2³¹ is refused. -/
theorem normalize_zeros_long {n : ℕ} (hpos : 0 < n) (hlt : n < 2 ^ 31) (hlong : 2 ^ 31 ≤ n + 36) :
    ∃ message, normalize (prefixed [zeros n hpos hlt]) = .error message := by
  have hne : prefixed [zeros n hpos hlt] ≠ [] := prefixed_ne_nil (List.cons_ne_nil _ _)
  rw [prefixed_zeros] at hne ⊢
  apply normalize_of_long hne
  · rw [begins_toBE hlt]
    omega
  · rw [List.length_append, length_toBE, List.length_replicate]
    omega

/-- The empty input is neither a stream nor begins with a start code, and it is returned. A stream
that begins with a unit of 256 bytes is returned with its lengths, and one of nearly 2³¹ bytes is
refused. -/
theorem normalize_exceptions :
    (¬IsStream [] ∧ ¬BeginsWithStartCode [] ∧ normalize [] = .ok []) ∧
    normalize (prefixed [zeros 256 (by decide) (by decide)]) ≠
      .ok (annexB [zeros 256 (by decide) (by decide)]) ∧
    ∃ message, normalize (prefixed [zeros (2 ^ 31 - 8) (by decide) (by decide)]) =
      .error message := by
  refine ⟨⟨?_, ?_, rfl⟩, ?_, ?_⟩
  · rintro ⟨nals, hne, hnil⟩
    exact prefixed_ne_nil hne hnil.symm
  · simp [BeginsWithStartCode, startCode]
  · exact normalize_zeros_misread _ _ (by decide)
  · exact normalize_zeros_long _ _ (by decide)

end H264AnnexB
end MobileWebcamBridge
