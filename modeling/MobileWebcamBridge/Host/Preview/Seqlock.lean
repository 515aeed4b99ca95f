import MobileWebcamBridge.Host.Preview
import MobileWebcamBridge.Lib.Trace

/-!
# The sequence number of the preview record

Every producer counts from zero, so a second producer gives its frames the numbers the first one
used, and a `latest` that spans the two can find the number it started with over another frame's
pixels. `NotReused` is the condition that this does not happen. Under it a call that is still to
check holds the pixels of one published frame whenever its check can succeed.
-/

set_option autoImplicit false

namespace MobileWebcamBridge
namespace Preview

open Bytes

variable {tr es : List Event} {s s' : Record} {frame : Frame} {seq : UInt64} {parsed : Parsed}

/-- The number a call in progress started with. -/
def Latest.seq? : Latest → Option UInt64
  | .payload parsed | .check parsed _ => some parsed.seq
  | .header | .done _ => none

/-- The header has room for the frame's width and height, or no reader accepts it. -/
def Frame.Fits (frame : Frame) : Prop :=
  frame.width < 2 ^ 32 ∧ frame.height < 2 ^ 32 ∨
    parseHeader (header 0 frame.width frame.height frame.pixels.length) = none

instance (frame : Frame) : Decidable frame.Fits :=
  inferInstanceAs (Decidable (_ ∨ _))

/-- No frame is closed under a number that a call in progress started with, and those published fit
their headers. -/
def NotReused (_ : List Event) (s : Record) : Label → Prop
  | .publish frame => frame.publishable = true → frame.Fits
  | .close => ∀ producer ∈ s.producer, ∀ call ∈ s.calls, call.seq? ≠ some (closing producer.seq)
  | _ => True

instance (tr : List Event) (s : Record) (l : Label) : Decidable (NotReused tr s l) := by
  cases l <;> unfold NotReused <;> infer_instance

/-! ## Headers -/

/-- The number of a picture under way is odd. -/
theorem opening_odd (seq : UInt64) : opening seq % 2 = 1 := by
  rw [← UInt64.toNat_inj, UInt64.toNat_mod]
  show (opening seq).toNat % 2 = 1
  rw [opening, UInt64.toNat_or, Nat.or_mod_two_eq_one]
  exact .inr rfl

theorem length_header (seq : UInt64) (width height len : ℕ) :
    (header seq width height len).length = HEADER := rfl

/-- What a reader makes of a header the producer wrote. -/
theorem parseHeader_header (seq : UInt64) (width height len : ℕ) :
    parseHeader (header seq width height len) =
      if width % 2 ^ 32 = 0 ∨ height % 2 ^ 32 = 0 ∨
          len % 2 ^ 32 ≠ usize (width % 2 ^ 32 * (height % 2 ^ 32) * 4) ∨
          len % 2 ^ 32 > CAPACITY then none
      else some
        { seq, width := width % 2 ^ 32, height := height % 2 ^ 32, len := len % 2 ^ 32 } := by
  have hmagic : slice (header seq width height len) 0 4 = MAGIC := rfl
  have hversion : ofLE (slice (header seq width height len) 4 8) = VERSION := rfl
  have hseq : slice (header seq width height len) 8 16 = toLE 8 seq.toNat := rfl
  have hwidth : slice (header seq width height len) 16 20 = toLE 4 width := rfl
  have hheight : slice (header seq width height len) 20 24 = toLE 4 height := rfl
  have hlength : slice (header seq width height len) 24 28 = toLE 4 len := rfl
  have hnumber : UInt64.ofNat (seq.toNat % 256 ^ 8) = seq := by
    have hlt : seq.toNat < 256 ^ 8 := seq.toNat_lt
    rw [Nat.mod_eq_of_lt hlt, UInt64.ofNat_toNat]
  have hword : 256 ^ 4 = 2 ^ 32 := by decide
  unfold parseHeader
  rw [hmagic, hversion, if_neg (by simp)]
  simp only [hseq, hwidth, hheight, hlength, ofLE_toLE, hnumber, hword]

/-- Whether a reader accepts a header does not depend on its number. -/
theorem parseHeader_seq {width height len : ℕ}
    (h : parseHeader (header seq width height len) = some parsed) (seq' : UInt64) :
    parseHeader (header seq' width height len) ≠ none := by
  rw [parseHeader_header] at h
  rw [parseHeader_header]
  split at h
  · cases h
  · next hvalid =>
    rw [if_neg hvalid]
    exact Option.some_ne_none _

/-- Closing a frame replaces the number in its header. -/
theorem close_header (seq seq' : UInt64) (width height len : ℕ) :
    (header seq width height len).take 8 ++ toLE 8 seq'.toNat ++
        (header seq width height len).drop (8 + (toLE 8 seq'.toNat).length) =
      header seq' width height len := rfl

/-- A picture that is published fits the file. -/
theorem capacity_of_publishable (h : frame.publishable = true) :
    frame.pixels.length ≤ CAPACITY := by
  have hboth : frame.pixels.length = usize (frame.width * frame.height * 4) ∧
      frame.pixels.length ≤ CAPACITY := by simpa [Frame.publishable] using h
  exact hboth.2

/-- What a reader makes of a frame's header is the frame's own. -/
theorem describes_of_publishable (h : frame.publishable = true) (hfits : frame.Fits)
    (hparsed : parseHeader (header seq frame.width frame.height frame.pixels.length) =
      some parsed) :
    parsed.seq = seq ∧ parsed.width = frame.width ∧ parsed.height = frame.height ∧
      parsed.len = frame.pixels.length := by
  have hword : CAPACITY < 2 ^ 32 := by decide
  have hlen : frame.pixels.length < 2 ^ 32 :=
    Nat.lt_of_le_of_lt (capacity_of_publishable h) hword
  rcases hfits with ⟨hwidth, hheight⟩ | hnone
  · rw [parseHeader_header, Nat.mod_eq_of_lt hwidth, Nat.mod_eq_of_lt hheight,
      Nat.mod_eq_of_lt hlen] at hparsed
    split at hparsed
    · cases hparsed
    · obtain rfl := Option.some.inj hparsed
      exact ⟨rfl, rfl, rfl, rfl⟩
  · exact absurd hnone (parseHeader_seq hparsed 0)

/-! ## What the record and the calls hold -/

/-- The header a reader finds now. -/
def Record.parsed? (s : Record) : Option Parsed := (s.file.readAt 0 HEADER).bind parseHeader

/-- The frame was published, and the header describes it. -/
structure Describes (tr : List Event) (parsed : Parsed) (frame : Frame) : Prop where
  published : .published frame ∈ tr
  width : parsed.width = frame.width
  height : parsed.height = frame.height
  len : parsed.len = frame.pixels.length

/-- The header and the part of the payload that `publish` has written. -/
structure Writing (file : ByteFile) (seq : UInt64) (frame : Frame) (written : ℕ) : Prop where
  odd : seq % 2 = 1
  header : file.readAt 0 HEADER =
    some (header seq frame.width frame.height frame.pixels.length)
  publishable : frame.publishable = true
  fits : frame.Fits
  begun : written ≤ frame.pixels.length
  payload : ∀ i (h : i < frame.pixels.length), i < written →
    file.byte (HEADER + i) = frame.pixels[i]

/-- What a call holds is of one published frame, if the number it started with is still there. -/
def Holds (tr : List Event) (s : Record) : Latest → Prop
  | .header | .done _ => True
  | .payload parsed => parsed.seq % 2 ≠ 1 ∧ ∃ frame, Describes tr parsed frame ∧
      ∀ now, s.parsed? = some now → now.seq = parsed.seq →
        s.file.readAt HEADER parsed.len = some frame.pixels
  | .check parsed pixels => parsed.seq % 2 ≠ 1 ∧ ∃ frame, Describes tr parsed frame ∧
      ∀ now, s.parsed? = some now → now.seq = parsed.seq → pixels = frame.pixels

/-- The file has room, a picture under way has an odd number, and under an even one the file holds a
picture that was published. -/
structure Locked (tr : List Event) (s : Record) : Prop where
  size : HEADER + CAPACITY ≤ s.file.size
  writing : ∀ seq frame written, s.producer = some { seq, point := .payload frame written } →
    Writing s.file seq frame written
  complete : ∀ now, s.parsed? = some now → now.seq % 2 ≠ 1 → ∃ frame, Describes tr now frame ∧
    s.file.readAt HEADER now.len = some frame.pixels
  calls : ∀ call ∈ s.calls, Holds tr s call

/-- A header describes the same picture after more events. -/
theorem Describes.append {frame : Frame} (h : Describes tr parsed frame) (es : List Event) :
    Describes (tr ++ es) parsed frame :=
  ⟨List.mem_append_left _ h.published, h.width, h.height, h.len⟩

/-- The record has not changed. -/
theorem Holds.same {call : Latest} (h : Holds tr s call) (hfile : s'.file = s.file)
    (es : List Event) : Holds (tr ++ es) s' call := by
  have hparsed : s'.parsed? = s.parsed? := by rw [Record.parsed?, Record.parsed?, hfile]
  cases call with
  | header | done => trivial
  | payload parsed =>
    obtain ⟨heven, frame, hdescribes, hheld⟩ := h
    refine ⟨heven, frame, hdescribes.append es, fun now hnow hseq => ?_⟩
    rw [hfile]
    exact hheld now (hparsed ▸ hnow) hseq
  | check parsed pixels =>
    obtain ⟨heven, frame, hdescribes, hheld⟩ := h
    exact ⟨heven, frame, hdescribes.append es, fun now hnow hseq => hheld now (hparsed ▸ hnow) hseq⟩

/-- The number in the record is none that the call started with. -/
theorem Holds.other {call : Latest} (h : Holds tr s call)
    (hother : ∀ now, s'.parsed? = some now → call.seq? ≠ some now.seq) (es : List Event) :
    Holds (tr ++ es) s' call := by
  cases call with
  | header | done => trivial
  | payload parsed =>
    obtain ⟨heven, frame, hdescribes, -⟩ := h
    refine ⟨heven, frame, hdescribes.append es, fun now hnow hseq => ?_⟩
    exact absurd (congrArg some hseq.symm) (hother now hnow)
  | check parsed pixels =>
    obtain ⟨heven, frame, hdescribes, -⟩ := h
    refine ⟨heven, frame, hdescribes.append es, fun now hnow hseq => ?_⟩
    exact absurd (congrArg some hseq.symm) (hother now hnow)

/-- A number that a reader has taken is even. -/
theorem Holds.even {call : Latest} (h : Holds tr s call) {seq : UInt64}
    (hseq : call.seq? = some seq) :
    seq % 2 ≠ 1 := by
  cases call with
  | header | done => cases hseq
  | payload | check =>
    obtain rfl := Option.some.inj hseq
    exact h.1

/-- While a frame is written, the number in the record is odd. -/
theorem Writing.now_odd {written : ℕ} {now : Parsed} (h : Writing s.file seq frame written)
    (hnow : s.parsed? = some now) : now.seq % 2 = 1 := by
  rw [Record.parsed?, h.header, Option.bind_some] at hnow
  rw [(describes_of_publishable h.publishable h.fits hnow).1]
  exact h.odd

/-- The record changes while its number is odd. -/
theorem Locked.odd (h : Locked tr s) {written : ℕ}
    (hproducer : s'.producer = some { seq, point := .payload frame written })
    (hsize : s'.file.size = s.file.size) (hcalls : s'.calls = s.calls)
    (hwriting : Writing s'.file seq frame written) : Locked (tr ++ []) s' := by
  have hodd (now : Parsed) (hnow : s'.parsed? = some now) : now.seq % 2 = 1 := hwriting.now_odd hnow
  refine ⟨?_, ?_, fun now hnow heven => absurd (hodd now hnow) heven, fun call hcall => ?_⟩
  · rw [hsize]
    exact h.size
  · intro seq' frame' written' heq
    rw [hproducer] at heq
    obtain ⟨rfl, hpayload⟩ := Producer.mk.inj (Option.some.inj heq)
    obtain ⟨rfl, rfl⟩ := Point.payload.inj hpayload
    exact hwriting
  · rw [hcalls] at hcall
    have hheld := h.calls call hcall
    exact hheld.other (fun now hnow hseq => hheld.even hseq (hodd now hnow)) []

/-- The record and the calls stay as they are. -/
theorem Locked.same (h : Locked tr s) (hfile : s'.file = s.file) (es : List Event)
    (hwriting : ∀ seq frame written, s'.producer = some { seq, point := .payload frame written } →
      s.producer = some { seq, point := .payload frame written })
    (hcalls : ∀ call ∈ s'.calls, call ∈ s.calls ∨ call = .header) : Locked (tr ++ es) s' := by
  have hparsed : s'.parsed? = s.parsed? := by rw [Record.parsed?, Record.parsed?, hfile]
  refine ⟨?_, fun seq frame written heq => ?_, fun now hnow heven => ?_, fun call hcall => ?_⟩
  · rw [hfile]
    exact h.size
  · rw [hfile]
    exact h.writing seq frame written (hwriting seq frame written heq)
  · obtain ⟨frame, hdescribes, hread⟩ := h.complete now (hparsed ▸ hnow) heven
    refine ⟨frame, hdescribes.append es, ?_⟩
    rw [hfile]
    exact hread
  · rcases hcalls call hcall with hcall | rfl
    · exact (h.calls call hcall).same hfile es
    · trivial

/-! ## The producer's steps -/

/-- The header of the next frame. -/
theorem writing_publish (hsize : HEADER + CAPACITY ≤ s.file.size)
    (hpublish : frame.publishable = true) (hfits : frame.Fits) (seq : UInt64) :
    Writing (s.file.writeAt 0 (header (opening seq) frame.width frame.height frame.pixels.length))
      (opening seq) frame 0 where
  odd := opening_odd seq
  header := by
    have hroom : 0 + (header (opening seq) frame.width frame.height frame.pixels.length).length ≤
        s.file.size := by
      rw [length_header]
      omega
    exact ByteFile.readAt_writeAt hroom
  publishable := hpublish
  fits := hfits
  begun := Nat.zero_le _
  payload := fun i _ hi => absurd hi (Nat.not_lt_zero i)

/-- The next piece of the payload. -/
theorem Writing.write {written n : ℕ} (h : Writing s.file seq frame written)
    (hsize : HEADER + CAPACITY ≤ s.file.size) (hn : written + n ≤ frame.pixels.length) :
    Writing (s.file.writeAt (HEADER + written) ((frame.pixels.drop written).take n)) seq frame
      (written + n) := by
  have hcapacity := capacity_of_publishable h.publishable
  have hlength : ((frame.pixels.drop written).take n).length = n := by
    rw [List.length_take, List.length_drop]
    omega
  refine ⟨h.odd, ?_, h.publishable, h.fits, hn, fun i hi hlt => ?_⟩
  · rw [ByteFile.readAt_writeAt_before (by omega) (by omega)]
    exact h.header
  · by_cases hold : i < written
    · rw [ByteFile.byte_writeAt_of_lt (by omega)]
      exact h.payload i hi hold
    · have hindex : HEADER + i = HEADER + written + (i - written) := by omega
      rw [hindex, ByteFile.byte_writeAt (by omega)]
      simp only [List.getElem_take, List.getElem_drop]
      congr 1
      omega

/-- The closing number makes the frame complete. -/
theorem Locked.close (h : Locked tr s) {frame : Frame}
    (hwriting : Writing s.file seq frame frame.pixels.length)
    (hreused : ∀ call ∈ s.calls, call.seq? ≠ some (closing seq)) :
    Locked (tr ++ [Event.published frame]) { s with
      file := s.file.writeAt 8 (toLE 8 (closing seq).toNat)
      producer := some { seq := closing seq, point := .idle } } := by
  have hcapacity := capacity_of_publishable hwriting.publishable
  have hsize := h.size
  have hlength : (toLE 8 (closing seq).toNat).length = 8 := length_toLE _ _
  have hroom : 16 ≤ HEADER := by decide
  have hheader : (s.file.writeAt 8 (toLE 8 (closing seq).toNat)).readAt 0 HEADER =
      some (header (closing seq) frame.width frame.height frame.pixels.length) := by
    have hinside : 8 + (toLE 8 (closing seq).toNat).length ≤ HEADER := by
      rw [hlength]
      exact hroom
    have hwithin := ByteFile.readAt_writeAt_within hwriting.header hinside
    rw [Nat.zero_add] at hwithin
    rw [hwithin, close_header]
  have hpayload : (s.file.writeAt 8 (toLE 8 (closing seq).toNat)).readAt HEADER
      frame.pixels.length = some frame.pixels := by
    rw [ByteFile.readAt_eq_some, ByteFile.size_writeAt (by omega)]
    refine ⟨by omega, rfl, fun i hi => ?_⟩
    rw [ByteFile.byte_writeAt_of_le (by rw [hlength]; simp [HEADER]; omega),
      hwriting.payload i hi hi, List.getElem?_eq_getElem hi]
  have hnow (now : Parsed) (heq : ((s.file.writeAt 8 (toLE 8 (closing seq).toNat)).readAt 0
      HEADER).bind parseHeader = some now) :
      now.seq = closing seq ∧ now.width = frame.width ∧ now.height = frame.height ∧
        now.len = frame.pixels.length := by
    rw [hheader, Option.bind_some] at heq
    exact describes_of_publishable hwriting.publishable hwriting.fits heq
  refine ⟨?_, fun seq' frame' written' heq => ?_, fun now heq _ => ?_, fun call hcall => ?_⟩
  · rw [ByteFile.size_writeAt (by omega)]
    exact hsize
  · cases heq
  · obtain ⟨-, hwidth, hheight, hlen⟩ := hnow now heq
    refine ⟨frame, ⟨List.mem_append_right _ (List.mem_singleton.mpr rfl), hwidth,
      hheight, hlen⟩, ?_⟩
    rw [hlen]
    exact hpayload
  · refine (h.calls call hcall).other (fun now heq hseq => ?_) _
    rw [(hnow now heq).1] at hseq
    exact hreused call hcall hseq

/-! ## The consumer's reads -/

/-- A read leaves a call with pixels of one published frame, and returns no others. -/
theorem Locked.read (h : Locked tr s) {call : Latest} (hcall : Holds tr s call)
    (hon : ∀ result, call ≠ .done result) :
    Holds tr s (call.read s.file) ∧
      ∀ frame, call.read s.file = .done (some frame) → .published frame ∈ tr := by
  cases call with
  | header =>
    simp only [Latest.read]
    split
    · next parsed hparsed =>
      split
      · exact ⟨trivial, fun _ hdone => by cases hdone⟩
      · next heven =>
        obtain ⟨frame, hdescribes, hread⟩ := h.complete parsed hparsed heven
        exact ⟨⟨heven, frame, hdescribes, fun _ _ _ => hread⟩, fun _ hdone => by cases hdone⟩
    · exact ⟨trivial, fun _ hdone => by cases hdone⟩
  | payload parsed =>
    obtain ⟨heven, frame, hdescribes, hheld⟩ := hcall
    simp only [Latest.read]
    split
    · next pixels hpixels =>
      refine ⟨⟨heven, frame, hdescribes, fun now hnow hseq => ?_⟩, fun _ hdone => by cases hdone⟩
      have := hheld now hnow hseq
      rw [hpixels] at this
      exact Option.some.inj this
    · exact ⟨trivial, fun _ hdone => by cases hdone⟩
  | check parsed pixels =>
    obtain ⟨heven, frame, hdescribes, hheld⟩ := hcall
    simp only [Latest.read]
    split
    · next again hagain =>
      split
      · exact ⟨trivial, fun _ hdone => by cases hdone⟩
      · next hseq =>
        refine ⟨trivial, fun returned hdone => ?_⟩
        have hpixels := hheld again hagain (Decidable.not_not.mp hseq)
        have hframe : returned = frame := by
          obtain rfl := Option.some.inj (Latest.done.inj hdone)
          rw [hdescribes.width, hdescribes.height, hpixels]
        rw [hframe]
        exact hdescribes.published
    · exact ⟨trivial, fun _ hdone => by cases hdone⟩
  | done result => exact absurd rfl (hon result)

/-! ## Over a run -/

/-- The lock holds of the empty file. -/
theorem locked_fresh : Locked [] fresh := by
  have hnone : fresh.parsed? = none := by decide +kernel
  refine ⟨Nat.le_refl _, fun _ _ _ heq => (by cases heq), fun now hnow => ?_, fun _ hcall => ?_⟩
  · rw [hnone] at hnow
    cases hnow
  · cases hcall

/-- Every step keeps the lock, and hands over published pictures only. -/
theorem Locked.step {l : Label} (h : Locked tr s) (hok : NotReused tr s l)
    (hs : step s l = some (s', es)) :
    Locked (tr ++ es) s' ∧ Trace.Each (fun x e => ∀ frame, e = .returned frame →
      .published frame ∈ tr ++ x) es := by
  cases l with
  | «open» =>
    simp only [Preview.step] at hs
    split at hs
    · cases hs
    · next hnone =>
      obtain ⟨rfl, rfl⟩ := Prod.mk.inj (Option.some.inj hs)
      -- the file has its size, so opening it again writes nothing
      have hfile : (Producer.open s.file).1 = s.file := by
        have hsize := h.size
        simp only [Producer.open]
        rw [if_neg (by omega)]
      refine ⟨h.same hfile [] (fun _ _ _ heq => ?_) fun call hcall => .inl hcall, Trace.each_nil⟩
      cases heq
  | publish frame =>
    simp only [Preview.step] at hs
    split at hs
    · next seq hproducer =>
      split at hs
      · obtain ⟨rfl, rfl⟩ := Prod.mk.inj (Option.some.inj hs)
        exact ⟨h.same rfl [] (fun _ _ _ heq => heq) fun call hcall => .inl hcall, Trace.each_nil⟩
      · next hpublish =>
        obtain ⟨rfl, rfl⟩ := Prod.mk.inj (Option.some.inj hs)
        have hpublish : frame.publishable = true := by simpa using hpublish
        -- the first access makes the sequence number odd
        have hwriting := writing_publish h.size hpublish (hok hpublish) seq
        refine ⟨h.odd rfl ?_ rfl hwriting, Trace.each_nil⟩
        apply ByteFile.size_writeAt
        have hsize := h.size
        rw [length_header]
        omega
    · cases hs
  | write n =>
    simp only [Preview.step] at hs
    split at hs
    · next seq frame written hproducer =>
      split at hs
      · next hn =>
        obtain ⟨rfl, rfl⟩ := Prod.mk.inj (Option.some.inj hs)
        have hbefore := h.writing seq frame written hproducer
        have hcapacity := capacity_of_publishable hbefore.publishable
        have hsize := h.size
        refine ⟨h.odd rfl ?_ rfl (hbefore.write h.size hn.2), Trace.each_nil⟩
        apply ByteFile.size_writeAt
        rw [List.length_take, List.length_drop]
        omega
      · cases hs
    · cases hs
  | close =>
    simp only [Preview.step] at hs
    split at hs
    · next seq frame written hproducer =>
      split at hs
      · next hall =>
        obtain ⟨rfl, rfl⟩ := Prod.mk.inj (Option.some.inj hs)
        -- every byte is written: the number becomes even, and one that no reader still holds
        subst hall
        have hfree := hok _ hproducer
        refine ⟨h.close (h.writing seq frame _ hproducer) hfree, ?_⟩
        exact Trace.each_cons.mpr ⟨fun _ heq => (by cases heq), Trace.each_nil⟩
      · cases hs
    · cases hs
  | fail frame =>
    simp only [Preview.step] at hs
    split at hs
    · cases hs
    · split at hs
      · cases hs
      · obtain ⟨rfl, rfl⟩ := Prod.mk.inj (Option.some.inj hs)
        refine ⟨h.same ?_ [] (fun _ _ _ heq => by cases heq) fun call hcall => .inl hcall,
          Trace.each_nil⟩
        rfl
    · obtain ⟨rfl, rfl⟩ := Prod.mk.inj (Option.some.inj hs)
      refine ⟨h.same ?_ [] (fun _ _ _ heq => by cases heq) fun call hcall => .inl hcall,
        Trace.each_nil⟩
      rfl
  | kill =>
    obtain ⟨rfl, rfl⟩ := Prod.mk.inj (Option.some.inj hs)
    refine ⟨h.same ?_ [] (fun _ _ _ heq => by cases heq) fun call hcall => .inl hcall,
      Trace.each_nil⟩
    rfl
  | latest =>
    obtain ⟨rfl, rfl⟩ := Prod.mk.inj (Option.some.inj hs)
    refine ⟨h.same ?_ [] (fun _ _ _ heq => heq) fun call hcall => ?_, Trace.each_nil⟩
    · rfl
    · exact (List.mem_append.mp hcall).imp_right List.mem_singleton.mp
  | read i =>
    simp only [Preview.step] at hs
    cases hcall : s.calls[i]? with
    | none =>
      rw [hcall] at hs
      cases hs
    | some call =>
      rw [hcall] at hs
      have hmem : call ∈ s.calls := List.mem_of_getElem? hcall
      -- a call that has returned reads nothing more
      by_cases hdone : ∃ result, call = .done result
      · obtain ⟨result, rfl⟩ := hdone
        cases hs
      have hon (result : Option Frame) : call ≠ .done result := fun heq => hdone ⟨result, heq⟩
      obtain ⟨hheld, hreturns⟩ := h.read (h.calls call hmem) hon
      have hs' : s' = { s with calls := s.calls.set i (call.read s.file) } ∧
          ∀ frame, .returned frame ∈ es → call.read s.file = .done (some frame) := by
        cases call with
        | done result => exact absurd rfl (hon result)
        | header | payload | check =>
          obtain ⟨rfl, rfl⟩ := Prod.mk.inj (Option.some.inj hs)
          refine ⟨rfl, fun frame hreturned => ?_⟩
          split at hreturned
          · next result hresult =>
            cases List.mem_singleton.mp hreturned
            exact hresult
          · cases hreturned
      obtain ⟨rfl, hreturned⟩ := hs'
      refine ⟨⟨h.size, h.writing, fun now hnow heven => ?_, fun other hother => ?_⟩, ?_⟩
      · obtain ⟨frame, hdescribes, hread⟩ := h.complete now hnow heven
        exact ⟨frame, hdescribes.append es, hread⟩
      · rcases List.mem_or_eq_of_mem_set hother with hother | rfl
        · exact (h.calls other hother).same rfl es
        · exact hheld.same rfl es
      · apply Trace.each_of_forall
        rintro x e he frame rfl
        exact List.mem_append_left _ (hreturns frame (hreturned frame he))

/-- **Every frame returned is one published**, in a run that reuses no number a call has read. -/
theorem returned_whole (h : system.Under NotReused tr s) :
    Trace.Each (fun x e => ∀ frame, e = .returned frame → .published frame ∈ x) tr := by
  have hboth : Locked tr s ∧
      Trace.Each (fun x e => ∀ frame, e = .returned frame → .published frame ∈ x) tr := by
    refine h.invariant (P := fun tr s => Locked tr s ∧
      Trace.Each (fun x e => ∀ frame, e = .returned frame → .published frame ∈ x) tr) ?_ ?_
    · rintro s rfl
      exact ⟨locked_fresh, Trace.each_nil⟩
    · rintro tr s l s' es - hok ⟨hlocked, heach⟩ hs
      obtain ⟨hlocked', hes⟩ := hlocked.step hok hs
      exact ⟨hlocked', heach.append hes⟩
  exact hboth.2

/-- A picture of two pixels. -/
def frameOf (a b : UInt8) : Frame :=
  { width := 2, height := 1, pixels := [a, a, a, a, b, b, b, b] }

/-- One producer, and a `latest` between its two frames. -/
def steady : List Label :=
  [.open, .publish (frameOf 1 1), .write 8, .close, .latest, .read 0, .read 0, .read 0,
    .publish (frameOf 2 2), .write 8, .close]

/-- A reader that is not outrun is handed the picture. -/
theorem returned_whole_steady :
    .returned (frameOf 1 1) ∈ system.trace fresh steady ∧
      Trace.Each (fun x e => ∀ frame, e = .returned frame → .published frame ∈ x)
        (system.trace fresh steady) := by
  refine ⟨by decide +kernel, ?_⟩
  exact returned_whole
    (EventSystem.under_trace (M := system) steady rfl (by decide +kernel) (by decide +kernel))

/-- A `latest` reads the header of the first producer's frame, half of the second producer's first
frame, and the number the second producer closes it with. -/
def restarted : List Label :=
  [.open, .publish (frameOf 1 1), .write 8, .close, .kill, .latest, .read 0, .open,
    .publish (frameOf 2 2), .write 4, .read 0, .write 4, .close, .read 0]

/-- A reader is handed a picture that was never published. -/
theorem returned_torn : ∃ tr s frame, system.Reaches tr s ∧ .returned frame ∈ tr ∧
    .published frame ∉ tr :=
  ⟨_, _, frameOf 2 1, EventSystem.reaches_trace (M := system) restarted rfl (by decide +kernel),
    by decide +kernel⟩

end Preview
end MobileWebcamBridge
