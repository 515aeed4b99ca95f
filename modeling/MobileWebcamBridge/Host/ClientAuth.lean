import MobileWebcamBridge.Host.Wire
import MobileWebcamBridge.Lib.Text

/-!
# `client_auth.rs`: the label a PC proposes
-/

set_option autoImplicit false

namespace MobileWebcamBridge
namespace HostAuth

open Unicode

/-- `value.trim()` of one variable, when it may be proposed. -/
def labelOf (value : List Char) : Option (List Char) :=
  let trimmed := Text.trim HostWire.isWhitespace value
  if trimmed ≠ [] ∧ (utf8 trimmed).length ≤ HostWire.MAX_CLIENT_LABEL ∧
      (utf8 trimmed).all (fun b => decide (0x20 ≤ b ∧ b ≤ 0x7e)) = true then
    some trimmed
  else none

/-- The label from `HOSTNAME`, `COMPUTERNAME` and `USER`, in this order. -/
def proposedLabel (environment : List (Option (List Char))) : List Char :=
  (environment.findSome? fun value => value.bind labelOf).getD "this PC".toList

/-- Printable ASCII, not blank, within the limit. -/
structure Printable (label : List Char) : Prop where
  ascii : ∀ c ∈ label, 0x20 ≤ c.toNat ∧ c.toNat ≤ 0x7e
  nonblank : ∃ c ∈ label, c ≠ ' '
  short : label.length ≤ 32

theorem ascii_of_bytes {cs : List Char} (h : ∀ b ∈ utf8 cs, 0x20 ≤ b ∧ b ≤ 0x7e) {c : Char}
    (hc : c ∈ cs) : 0x20 ≤ c.toNat ∧ c.toNat ≤ 0x7e := by
  have hbytes : ∀ b ∈ String.utf8EncodeChar c, 0x20 ≤ b ∧ b ≤ 0x7e := by
    intro b hb
    exact h b (List.mem_flatMap.mpr ⟨c, hc, hb⟩)
  by_cases hsmall : c.toNat ≤ 0x7f
  · rw [utf8EncodeChar_ascii hsmall] at hbytes
    obtain ⟨hlow, hhigh⟩ := hbytes _ List.mem_cons_self
    rw [UInt8.le_iff_toNat_le, UInt8.toNat_ofNat'] at hlow hhigh
    have hvalues : UInt8.toNat 0x20 = 0x20 ∧ UInt8.toNat 0x7e = 0x7e := ⟨rfl, rfl⟩
    omega
  · obtain ⟨b, hb, hbig⟩ := exists_byte_of_not_ascii hsmall
    have hle := UInt8.le_iff_toNat_le.mp (hbytes b hb).2
    have hvalue : UInt8.toNat 0x7e = 0x7e := rfl
    omega

/-- A label that is taken from the environment is printable. -/
theorem labelOf_printable {value label : List Char} (h : labelOf value = some label) :
    Printable label := by
  unfold labelOf at h
  dsimp only at h
  split at h
  · next hok =>
    obtain rfl := Option.some.inj h
    obtain ⟨hne, hshort, hbytes⟩ := hok
    simp only [List.all_eq_true, decide_eq_true_eq] at hbytes
    have hascii : ∀ c ∈ Text.trim HostWire.isWhitespace value, 0x20 ≤ c.toNat ∧ c.toNat ≤ 0x7e :=
      fun c hc => ascii_of_bytes hbytes hc
    refine ⟨hascii, ?_, ?_⟩
    · -- a trimmed text ends in no white space
      have hlast := List.rdropWhile_last_not HostWire.isWhitespace _ hne
      refine ⟨_, List.getLast_mem hne, fun hblank => hlast ?_⟩
      show HostWire.isWhitespace ((Text.trim HostWire.isWhitespace value).getLast hne) = true
      rw [hblank]
      decide
    · rw [← length_utf8_of_ascii fun c hc => (hascii c hc).2.trans (by decide)]
      exact hshort
  · cases h

/-- The label of a PC whose environment names none. -/
theorem thisPC_printable : Printable "this PC".toList := by
  have hchars : "this PC".toList = ['t', 'h', 'i', 's', ' ', 'P', 'C'] := by simp
  rw [hchars]
  refine ⟨?_, ⟨'t', List.mem_cons_self, by decide⟩, by decide⟩
  intro c hc
  simp only [List.mem_cons, List.not_mem_nil, or_false] at hc
  rcases hc with rfl | rfl | rfl | rfl | rfl | rfl | rfl <;> decide

/-- The label a PC proposes is printable. -/
theorem proposedLabel_printable (environment : List (Option (List Char))) :
    Printable (proposedLabel environment) := by
  unfold proposedLabel
  cases hfind : environment.findSome? fun value => value.bind labelOf with
  | none => exact thisPC_printable
  | some label =>
    obtain ⟨value, -, hvalue⟩ := List.exists_of_findSome?_eq_some hfind
    obtain ⟨text, -, htext⟩ := Option.bind_eq_some_iff.mp hvalue
    exact labelOf_printable htext

end HostAuth
end MobileWebcamBridge
