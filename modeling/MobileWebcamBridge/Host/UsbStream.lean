import MobileWebcamBridge.Host.Wire

/-!
# `usb.rs`: the bytes from the bulk endpoint to the frame reader

The bus is a parameter: it holds the transfers that are still to come and says of each read how it
ends, so that a timeout needs no clock. The frame reader is one too: a poll is a tree of the reads
that it asks for, each going on with what it got.
-/

set_option autoImplicit false

namespace MobileWebcamBridge
namespace HostUsb

/-! ## The endpoint -/

/-- How a read of the endpoint ends. -/
inductive Answer
  /-- With at most `n` bytes of the transfer. -/
  | gives (n : ℕ)
  | timeout
  | interrupted
  | fails (error : String)
deriving DecidableEq, Repr

/-- `rusb::Error`. -/
inductive UsbError
  | timeout
  | interrupted
  | other (error : String)
deriving DecidableEq, Repr

/-- The transfers that are still to be read, the first perhaps in part. -/
structure Endpoint where
  transfers : List (List UInt8)
  answers : ℕ → Answer

namespace Endpoint

/-- The bytes that are still to be read. -/
def bytes (e : Endpoint) : List UInt8 := e.transfers.flatten

/-- The endpoint after one answer. -/
def next (e : Endpoint) : Endpoint := { e with answers := fun n => e.answers (n + 1) }

/-- `read_bulk`: the count and the buffer after it. A read that has no room for the whole transfer
leaves the rest of it, and one that has nothing to read runs out of time. -/
def readBulk (e : Endpoint) (buffer : List UInt8) : Except UsbError ℕ × List UInt8 × Endpoint :=
  match e.answers 0 with
  | .timeout => (.error .timeout, buffer, e.next)
  | .interrupted => (.error .interrupted, buffer, e.next)
  | .fails error => (.error (.other error), buffer, e.next)
  | .gives n =>
    match e.transfers with
    | [] => (.error .timeout, buffer, e.next)
    | transfer :: rest =>
      let count := min n (min transfer.length buffer.length)
      let left := if count = transfer.length then rest else transfer.drop count :: rest
      (.ok count, transfer.take count ++ buffer.drop count, { e.next with transfers := left })

/-- A read takes the bytes that come next, and nothing when it fails. -/
theorem readBulk_spec (e : Endpoint) (buffer : List UInt8) :
    (∃ count read e', e.readBulk buffer = (.ok count, read, e') ∧ count ≤ buffer.length ∧
      read.length = buffer.length ∧ e.bytes = read.take count ++ e'.bytes) ∨
    ∃ error e', e.readBulk buffer = (.error error, buffer, e') ∧ e'.bytes = e.bytes := by
  unfold readBulk
  cases e.answers 0 with
  | timeout => exact .inr ⟨_, _, rfl, rfl⟩
  | interrupted => exact .inr ⟨_, _, rfl, rfl⟩
  | fails error => exact .inr ⟨_, _, rfl, rfl⟩
  | gives n =>
    cases htransfers : e.transfers with
    | nil => exact .inr ⟨_, _, rfl, rfl⟩
    | cons transfer rest =>
      have hbytes : e.bytes = transfer ++ rest.flatten := by
        rw [bytes, htransfers, List.flatten_cons]
      refine .inl ⟨_, _, _, rfl, by omega, ?_, ?_⟩
      · rw [List.length_append, List.length_take, List.length_drop]
        omega
      · have hcount : (transfer.take (min n (min transfer.length buffer.length))).length =
            min n (min transfer.length buffer.length) := by
          rw [List.length_take]
          omega
        rw [List.take_left' hcount, hbytes]
        show _ = _ ++ List.flatten (if _ then _ else _)
        split
        · next hall =>
          rw [hall, List.take_length]
        · rw [List.flatten_cons, ← List.append_assoc, List.take_append_drop]

/-- A read does with its buffer what it does with any other of that size. -/
theorem readBulk_buffer (e : Endpoint) {buffer other : List UInt8}
    (h : buffer.length = other.length) :
    (e.readBulk buffer).1 = (e.readBulk other).1 ∧
      (e.readBulk buffer).2.2 = (e.readBulk other).2.2 ∧
      ∀ count, (e.readBulk buffer).1 = .ok count →
        (e.readBulk buffer).2.1.take count = (e.readBulk other).2.1.take count := by
  unfold readBulk
  rw [h]
  cases e.answers 0 with
  | timeout | interrupted => exact ⟨rfl, rfl, by rintro count ⟨⟩⟩
  | fails error => exact ⟨rfl, rfl, by rintro count ⟨⟩⟩
  | gives n =>
    cases e.transfers with
    | nil => exact ⟨rfl, rfl, by rintro count ⟨⟩⟩
    | cons transfer rest =>
      refine ⟨rfl, rfl, ?_⟩
      rintro count ⟨⟩
      have hcount : (transfer.take (min n (min transfer.length other.length))).length =
          min n (min transfer.length other.length) := by
        rw [List.length_take]
        omega
      dsimp only
      rw [List.take_left' hcount, List.take_left' hcount]

/-! ## Where a stream is aligned to -/

/-- What the next reads of at most 1024 bytes get: nothing when one runs out of time, and `none`
when one fails. -/
def reads : ℕ → Endpoint → List (Option (List UInt8))
  | 0, _ => []
  | n + 1, e =>
    match e.readBulk (List.replicate 1024 0) with
    | (.ok count, read, e) => some (read.take count) :: reads n e
    | (.error .timeout, _, e) => some [] :: reads n e
    | (.error _, _, e) => none :: reads n e

/-- The read got bytes, and they are not the beginning of a frame. -/
def foreign (read : Option (List UInt8)) : Bool :=
  read.any fun bytes => bytes ≠ [] && !HostWire.magic.isPrefixOf bytes

/-- Of the next reads, those before the first that is not the tail of somebody else's frame. -/
def skipped (n : ℕ) (e : Endpoint) : List (List UInt8) :=
  ((e.reads n).takeWhile foreign).filterMap id

/-- What that one got: the beginning of a frame, or nothing. -/
def kept (n : ℕ) (e : Endpoint) : List UInt8 :=
  ((e.reads n).dropWhile foreign).head?.join.getD []

theorem length_reads (n : ℕ) (e : Endpoint) : (e.reads n).length = n := by
  induction n generalizing e with
  | zero => rfl
  | succ n ih =>
    unfold reads
    split <;> rw [List.length_cons, ih]

theorem length_skipped (n : ℕ) (e : Endpoint) : (e.skipped n).length ≤ n :=
  calc (e.skipped n).length
    _ ≤ ((e.reads n).takeWhile foreign).length := List.length_filterMap_le _ _
    _ ≤ (e.reads n).length := (List.takeWhile_prefix _).length_le
    _ = n := length_reads n e

/-- No read that is skipped begins a frame. -/
theorem not_magic_of_skipped {n : ℕ} {e : Endpoint} {read : List UInt8} (h : read ∈ e.skipped n) :
    ¬HostWire.magic <+: read := by
  obtain ⟨entry, hentry, hread⟩ := List.mem_filterMap.mp h
  obtain rfl : entry = some read := hread
  have hforeign := List.all_eq_true.mp List.all_takeWhile _ hentry
  rw [← List.isPrefixOf_iff_prefix]
  simp only [foreign, Option.any_some, Bool.and_eq_true, Bool.not_eq_true'] at hforeign
  rw [hforeign.2]
  exact Bool.false_ne_true

/-- The read that is kept begins a frame. -/
theorem magic_of_kept (n : ℕ) (e : Endpoint) : e.kept n = [] ∨ HostWire.magic <+: e.kept n := by
  unfold kept
  cases hreads : (e.reads n).dropWhile foreign with
  | nil => exact .inl rfl
  | cons entry rest =>
    have hown : foreign entry = false := by
      have hhead := List.head?_dropWhile_not foreign (e.reads n)
      rwa [hreads] at hhead
    cases entry with
    | none => exact .inl rfl
    | some read =>
      show read = [] ∨ _ <+: read
      rw [← List.isPrefixOf_iff_prefix]
      by_cases hempty : read = []
      · exact .inl hempty
      · right
        simpa [foreign, hempty] using hown

end Endpoint

/-! ## The frame reader -/

/-- How a read fails. -/
inductive IoError
  | interrupted
  | timedOut
  | other (error : String)
deriving DecidableEq, Repr

/-- One poll: the reads it makes into its own buffers, and what it returns. -/
inductive Poll (Frame ρ : Type)
  | read (bytes : List UInt8) (next : Except IoError ℕ → List UInt8 → Poll Frame ρ)
  | done (result : Except IoError (Option Frame)) (reader : ρ)

/-- `io_budget::FrameReader`. What a poll is given besides, its timeout and what the clock shows
during it, is an `ι`. -/
structure FrameReader (ι Frame ρ : Type) where
  default : ρ
  poll : ρ → ι → Poll Frame ρ

/-! ## The transport -/

/-- The size of the buffer of a bulk read. -/
def TRANSFER_SCRATCH : ℕ := 1024 * 1024

/-- The transport: its endpoint, its frame reader, and what was read ahead. -/
structure Usb (ρ : Type) where
  handle : Endpoint
  reader : ρ
  pending : List UInt8
  scratch : List UInt8

namespace Usb

section

variable {ι Frame ρ : Type}

/-- A timeout is a read of nothing. -/
def readRaw (usb : Usb ρ) (buffer : List UInt8) : Except IoError ℕ × List UInt8 × Usb ρ :=
  match usb.handle.readBulk buffer with
  | (.ok count, read, handle) => (.ok count, read, { usb with handle })
  | (.error .timeout, read, handle) => (.ok 0, read, { usb with handle })
  | (.error .interrupted, read, handle) =>
    (.error (.other "Interrupted"), read, { usb with handle })
  | (.error (.other error), read, handle) => (.error (.other error), read, { usb with handle })

/-- The reads of `align_stream`; its result is always `Ok`. -/
def alignReads : ℕ → List UInt8 → Usb ρ → Bool × Usb ρ
  | 0, _, usb => (false, usb)
  | n + 1, buffer, usb =>
    match usb.readRaw buffer with
    | (.error _, _, usb) => (false, usb)
    | (.ok count, buffer, usb) =>
      if count = 0 then (true, usb)
      else if 4 ≤ count ∧ buffer.take 4 = HostWire.magic then
        (true, { usb with pending := usb.pending ++ buffer.take count })
      else alignReads n buffer usb

/-- Reads until one begins with the magic, at most 64 times. -/
def alignStream (usb : Usb ρ) : Bool × Usb ρ := alignReads 64 (List.replicate 1024 0) usb

/-- The stream of a new session on the same handle. -/
def resetStream (R : FrameReader ι Frame ρ) (usb : Usb ρ) : Bool × Usb ρ :=
  alignStream { usb with pending := [], reader := R.default }

/-- The end of `connect`, once the interface is claimed. -/
def opened (R : FrameReader ι Frame ρ) (handle : Endpoint) : Usb ρ :=
  (alignStream
    { handle, reader := R.default, pending := []
      scratch := List.replicate TRANSFER_SCRATCH 0 }).2

/-- What is pending, as far as there is room for it. -/
def hand (usb : Usb ρ) (bytes : List UInt8) : Except IoError ℕ × List UInt8 × Usb ρ :=
  let count := min usb.pending.length bytes.length
  (.ok count, usb.pending.take count ++ bytes.drop count,
    { usb with pending := usb.pending.drop count })

/-- The closure of `poll_receive`. -/
def read (usb : Usb ρ) (bytes : List UInt8) : Except IoError ℕ × List UInt8 × Usb ρ :=
  if usb.pending = [] then
    match usb.handle.readBulk usb.scratch with
    | (.ok 0, scratch, handle) => (.error .interrupted, bytes, { usb with scratch, handle })
    | (.error .interrupted, scratch, handle) =>
      (.error .interrupted, bytes, { usb with scratch, handle })
    | (.ok count, scratch, handle) =>
      hand { usb with scratch, handle, pending := usb.pending ++ scratch.take count } bytes
    | (.error .timeout, scratch, handle) => (.error .timedOut, bytes, { usb with scratch, handle })
    | (.error (.other error), scratch, handle) =>
      (.error (.other error), bytes, { usb with scratch, handle })
  else hand usb bytes

/-- The bytes that a read handed over. -/
def given : Except IoError ℕ → List UInt8 → List UInt8
  | .ok count, bytes => bytes.take count
  | .error _, _ => []

/-- A poll of the reader: what was handed to it and what it returned. -/
def run : Poll Frame ρ → Usb ρ → List UInt8 × Except IoError (Option Frame) × Usb ρ
  | .done result reader, usb => ([], result, { usb with reader })
  | .read bytes next, usb =>
    let (count, bytes, usb) := usb.read bytes
    let (handed, result, usb) := run (next count bytes) usb
    (given count bytes ++ handed, result, usb)

/-- The frame reader, polled over the transport. -/
def pollReceive (R : FrameReader ι Frame ρ) (usb : Usb ρ) (input : ι) :
    List UInt8 × Except IoError (Option Frame) × Usb ρ :=
  run (R.poll usb.reader input) usb

/-- A sequence of polls: what was handed over and what they returned. -/
def polls (R : FrameReader ι Frame ρ) :
    List ι → Usb ρ → List UInt8 × List (Except IoError (Option Frame)) × Usb ρ
  | [], usb => ([], [], usb)
  | input :: inputs, usb =>
    let (handed, result, usb) := pollReceive R usb input
    let (more, results, usb) := polls R inputs usb
    (handed ++ more, result :: results, usb)

/-- The bytes that the reader has not been given. -/
def coming (usb : Usb ρ) : List UInt8 := usb.pending ++ usb.handle.bytes

/-! ## The reads of the reader -/

/-- What a read may have done with the reader's buffer. -/
structure Fits (bytes : List UInt8) (count : Except IoError ℕ) (bytes' : List UInt8) : Prop where
  length : bytes'.length = bytes.length
  count : ∀ n, count = .ok n → n ≤ bytes.length

/-- A read hands over what is pending, or asks the endpoint. -/
theorem hand_spec (usb : Usb ρ) (bytes : List UInt8) :
    ∃ count bytes' usb', usb.hand bytes = (count, bytes', usb') ∧ Fits bytes count bytes' ∧
      usb.coming = given count bytes' ++ usb'.coming := by
  have hcount : (usb.pending.take (min usb.pending.length bytes.length)).length =
      min usb.pending.length bytes.length := by
    rw [List.length_take]
    omega
  refine ⟨_, _, _, rfl, ⟨?_, ?_⟩, ?_⟩
  · rw [List.length_append, hcount, List.length_drop]
    omega
  · rintro n ⟨⟩
    exact Nat.min_le_right _ _
  · show usb.coming = (usb.pending.take _ ++ bytes.drop _).take _ ++ (usb.pending.drop _ ++ _)
    rw [List.take_left' hcount, ← List.append_assoc, List.take_append_drop]
    rfl

/-- A read hands over the bytes that come next, and nothing when it fails. -/
theorem read_spec (usb : Usb ρ) (bytes : List UInt8) :
    ∃ count bytes' usb', usb.read bytes = (count, bytes', usb') ∧ Fits bytes count bytes' ∧
      usb.coming = given count bytes' ++ usb'.coming := by
  have hfails (error : IoError) : Fits bytes (.error error) bytes := ⟨rfl, by rintro n ⟨⟩⟩
  unfold read
  by_cases hpending : usb.pending = []
  · rw [if_pos hpending]
    -- The endpoint gives a transfer or part of it to `scratch`, or keeps everything.
    obtain ⟨count, scratch, handle, hread, hle, hlen, hbytes⟩ | ⟨error, handle, hread, hbytes⟩ :=
      usb.handle.readBulk_spec usb.scratch
    · rw [hread]
      cases count with
      | zero =>
        refine ⟨_, _, _, rfl, hfails _, ?_⟩
        show _ ++ _ = [] ++ (_ ++ handle.bytes)
        rw [hbytes, List.take_zero, List.nil_append, List.nil_append]
      | succ count =>
        obtain ⟨given', bytes', usb', hhand, hfits, hcoming⟩ :=
          hand_spec { usb with
            scratch, handle, pending := usb.pending ++ scratch.take (count + 1) } bytes
        refine ⟨given', bytes', usb', hhand, hfits, ?_⟩
        rw [← hcoming]
        show _ ++ _ = (_ ++ _) ++ handle.bytes
        rw [hbytes, List.append_assoc]
    · rw [hread]
      have hcoming : usb.coming = [] ++ (usb.pending ++ handle.bytes) := by
        rw [hbytes]
        rfl
      cases error with
      | timeout => exact ⟨_, _, _, rfl, hfails _, hcoming⟩
      | interrupted => exact ⟨_, _, _, rfl, hfails _, hcoming⟩
      | other error => exact ⟨_, _, _, rfl, hfails _, hcoming⟩
  · rw [if_neg hpending]
    exact usb.hand_spec bytes

/-- A poll that reads goes on with what it is given. -/
theorem run_read {bytes bytes' : List UInt8} {next : Except IoError ℕ → List UInt8 → Poll Frame ρ}
    {count : Except IoError ℕ} {usb usb' : Usb ρ} (h : usb.read bytes = (count, bytes', usb')) :
    run (.read bytes next) usb =
      (given count bytes' ++ (run (next count bytes') usb').1,
        (run (next count bytes') usb').2) := by
  rw [run, h]

/-- A poll takes from the front of what is coming. -/
theorem run_spec (poll : Poll Frame ρ) (usb : Usb ρ) :
    usb.coming = (run poll usb).1 ++ (run poll usb).2.2.coming := by
  induction poll generalizing usb with
  | done result reader => rfl
  | read bytes next ih =>
    obtain ⟨count, bytes', usb', hread, -, hcoming⟩ := usb.read_spec bytes
    rw [run_read hread, hcoming, List.append_assoc]
    exact congrArg (given count bytes' ++ ·) (ih count bytes' usb')

/-- So do several polls. -/
theorem polls_spec (R : FrameReader ι Frame ρ) (inputs : List ι) (usb : Usb ρ) :
    usb.coming = (polls R inputs usb).1 ++ (polls R inputs usb).2.2.coming := by
  induction inputs generalizing usb with
  | nil => rfl
  | cons input inputs ih =>
    have hpoll : usb.coming =
        (pollReceive R usb input).1 ++ (pollReceive R usb input).2.2.coming :=
      run_spec (R.poll usb.reader input) usb
    rw [hpoll, ih, ← List.append_assoc]
    rfl

/-! ## The alignment -/

/-- What an alignment does to the transport: it takes the reads before the first that begins a
frame, and holds that one. -/
structure Aligned (n : ℕ) (usb usb' : Usb ρ) : Prop where
  bytes : usb.handle.bytes =
    (usb.handle.skipped n).flatten ++ (usb.handle.kept n ++ usb'.handle.bytes)
  pending : usb'.pending = usb.pending ++ usb.handle.kept n
  reader : usb'.reader = usb.reader

/-- When a read begins with the magic. -/
theorem magic_isPrefix {buffer : List UInt8} {count : ℕ} :
    HostWire.magic <+: buffer.take count ↔ 4 ≤ count ∧ buffer.take 4 = HostWire.magic := by
  have hlen : HostWire.magic.length = 4 := rfl
  constructor
  · intro h
    have hle : 4 ≤ count := by
      have hshort := h.length_le
      rw [hlen, List.length_take] at hshort
      omega
    have heq := List.prefix_iff_eq_take.mp h
    rw [hlen, List.take_take, Nat.min_eq_left hle] at heq
    exact ⟨hle, heq.symm⟩
  · intro ⟨hle, heq⟩
    rw [← heq]
    exact List.take_prefix_take_left hle

/-- A read of the alignment: the count that `read_raw` returns, for the endpoint's next read. -/
theorem readRaw_spec (n : ℕ) (usb : Usb ρ) {buffer : List UInt8} (hlen : buffer.length = 1024) :
    (∃ count read usb', usb.readRaw buffer = (.ok count, read, usb') ∧ read.length = 1024 ∧
      count ≤ 1024 ∧ usb'.pending = usb.pending ∧ usb'.reader = usb.reader ∧
      usb.handle.bytes = read.take count ++ usb'.handle.bytes ∧
      usb.handle.reads (n + 1) = some (read.take count) :: usb'.handle.reads n) ∨
    ∃ error usb', usb.readRaw buffer = (.error error, buffer, usb') ∧
      usb'.pending = usb.pending ∧ usb'.reader = usb.reader ∧
      usb'.handle.bytes = usb.handle.bytes ∧
      usb.handle.reads (n + 1) = none :: usb'.handle.reads n := by
  have hsize : buffer.length = (List.replicate 1024 (0 : UInt8)).length := by
    rw [hlen, List.length_replicate]
  obtain ⟨hresult, hhandle, htake⟩ := usb.handle.readBulk_buffer hsize
  unfold readRaw
  rw [Endpoint.reads]
  obtain ⟨count, read, handle, hread, hle, hsame, hbytes⟩ | ⟨error, handle, hread, hbytes⟩ :=
    usb.handle.readBulk_spec buffer
  · have hcount := htake count (by rw [hread])
    rw [hread] at hresult hhandle hcount ⊢
    generalize usb.handle.readBulk (List.replicate 1024 0) = q at hresult hhandle hcount ⊢
    obtain ⟨result, other, handle'⟩ := q
    obtain rfl : .ok count = result := hresult
    obtain rfl : handle = handle' := hhandle
    refine .inl ⟨count, read, { usb with handle }, rfl, hsame.trans hlen, hlen ▸ hle, rfl, rfl,
      hbytes, ?_⟩
    dsimp only at hcount ⊢
    rw [hcount]
  · rw [hread] at hresult hhandle ⊢
    generalize usb.handle.readBulk (List.replicate 1024 0) = q at hresult hhandle ⊢
    obtain ⟨result, other, handle'⟩ := q
    obtain rfl : .error error = result := hresult
    obtain rfl : handle = handle' := hhandle
    cases error with
    | timeout =>
      exact .inl ⟨0, buffer, { usb with handle }, rfl, hlen, Nat.zero_le _, rfl, rfl, hbytes.symm,
        rfl⟩
    | interrupted => exact .inr ⟨_, { usb with handle }, rfl, rfl, rfl, hbytes, rfl⟩
    | other error => exact .inr ⟨_, { usb with handle }, rfl, rfl, rfl, hbytes, rfl⟩

/-- The reads up to the one that begins with the magic are gone, and that one is pending. -/
theorem alignReads_spec (n : ℕ) {buffer : List UInt8} (hlen : buffer.length = 1024) (usb : Usb ρ) :
    Aligned n usb (alignReads n buffer usb).2 := by
  induction n generalizing buffer usb with
  | zero => exact ⟨rfl, (List.append_nil _).symm, rfl⟩
  | succ n ih =>
    unfold alignReads
    obtain ⟨count, read, usb', hread, hsame, hle, hpending, hreader, hbytes, hreads⟩ |
      ⟨error, usb', hread, hpending, hreader, hbytes, hreads⟩ := readRaw_spec n usb hlen
    · rw [hread]
      dsimp only
      by_cases hzero : count = 0
      · -- nothing is queued
        rw [hzero, List.take_zero] at hreads
        rw [if_pos hzero]
        have hskipped : usb.handle.skipped (n + 1) = [] := by
          simp [Endpoint.skipped, hreads, Endpoint.foreign]
        have hkept : usb.handle.kept (n + 1) = [] := by
          simp [Endpoint.kept, hreads, Endpoint.foreign]
        refine ⟨?_, ?_, hreader⟩
        · rw [hskipped, hkept, hbytes, hzero]
          rfl
        · rw [hkept, hpending, List.append_nil]
      rw [if_neg hzero]
      have hne : read.take count ≠ [] := by
        intro hnil
        have hlength := congrArg List.length hnil
        rw [List.length_take, List.length_nil] at hlength
        omega
      by_cases hmagic : 4 ≤ count ∧ read.take 4 = HostWire.magic
      · -- the beginning of a frame
        rw [if_pos hmagic]
        have hforeign : Endpoint.foreign (some (read.take count)) = false := by
          simp [Endpoint.foreign, magic_isPrefix.mpr hmagic]
        have hskipped : usb.handle.skipped (n + 1) = [] := by
          simp [Endpoint.skipped, hreads, hforeign]
        have hkept : usb.handle.kept (n + 1) = read.take count := by
          simp [Endpoint.kept, hreads, hforeign]
        refine ⟨?_, ?_, hreader⟩
        · rw [hskipped, hkept]
          exact hbytes
        · show _ ++ _ = _
          rw [hkept, hpending]
      · rw [if_neg hmagic]
        have hforeign : Endpoint.foreign (some (read.take count)) = true := by
          have hnot : HostWire.magic.isPrefixOf (read.take count) = false := by
            rw [Bool.eq_false_iff, ne_eq, List.isPrefixOf_iff_prefix]
            exact mt magic_isPrefix.mp hmagic
          simp [Endpoint.foreign, hne, hnot]
        have hskipped : usb.handle.skipped (n + 1) = read.take count :: usb'.handle.skipped n := by
          simp [Endpoint.skipped, hreads, hforeign]
        have hkept : usb.handle.kept (n + 1) = usb'.handle.kept n := by
          simp [Endpoint.kept, hreads, hforeign]
        have h := ih hsame usb'
        refine ⟨?_, ?_, h.reader.trans hreader⟩
        · rw [hskipped, hkept, hbytes, h.bytes, List.flatten_cons, List.append_assoc]
        · rw [hkept, h.pending, hpending]
    · rw [hread]
      have hskipped : usb.handle.skipped (n + 1) = [] := by
        simp [Endpoint.skipped, hreads, Endpoint.foreign]
      have hkept : usb.handle.kept (n + 1) = [] := by
        simp [Endpoint.kept, hreads, Endpoint.foreign]
      refine ⟨?_, ?_, hreader⟩
      · rw [hskipped, hkept, ← hbytes]
        rfl
      · rw [hkept, hpending, List.append_nil]

/-! ## The stream -/

/-- What the reader of an aligned transport is handed of an endpoint: behind the reads of the
alignment that are not its own, all bytes in their order, first those of the read that begins a
frame. What it is not handed is still to come. -/
structure HandsOver (R : FrameReader ι Frame ρ) (endpoint : Endpoint) (usb : Usb ρ) : Prop where
  most : (endpoint.skipped 64).length ≤ 64
  dropped : ∀ read ∈ endpoint.skipped 64, ¬HostWire.magic <+: read
  aligned : usb.pending = [] ∨ HostWire.magic <+: usb.pending
  kept : usb.pending = endpoint.kept 64
  handed : ∀ inputs : List ι,
    endpoint.bytes = (endpoint.skipped 64).flatten ++
      ((polls R inputs usb).1 ++ (polls R inputs usb).2.2.coming)
  first : ∀ inputs : List ι,
    endpoint.kept 64 <+: (polls R inputs usb).1 ++ (polls R inputs usb).2.2.coming

/-- What is handed over begins where the stream was aligned. -/
theorem handsOver_alignStream (R : FrameReader ι Frame ρ) {usb : Usb ρ} (h : usb.pending = []) :
    HandsOver R usb.handle usb.alignStream.2 := by
  have haligned := alignReads_spec 64 (List.length_replicate (n := 1024) (a := (0 : UInt8))) usb
  have hpending : usb.alignStream.2.pending = usb.handle.kept 64 := by
    rw [alignStream, haligned.pending, h, List.nil_append]
  refine ⟨usb.handle.length_skipped 64, fun read => Endpoint.not_magic_of_skipped,
    hpending ▸ usb.handle.magic_of_kept 64, hpending, fun inputs => ?_, fun inputs => ?_⟩
  · rw [← polls_spec, coming, hpending]
    exact haligned.bytes
  · rw [← polls_spec, coming, hpending]
    exact List.prefix_append _ _

/-- After `connect`, and after every `reset_stream`, the polls hand the reader the bytes of the
endpoint in their order from the read that the stream was aligned to, none lost or twice. -/
theorem stream_in_order (R : FrameReader ι Frame ρ) :
    (∀ endpoint : Endpoint, HandsOver R endpoint (opened R endpoint)) ∧
      ∀ usb : Usb ρ, HandsOver R usb.handle (resetStream R usb).2 := by
  constructor
  · intro endpoint
    have hfresh : ({ handle := endpoint, reader := R.default, pending := []
                     scratch := List.replicate TRANSFER_SCRATCH 0 } : Usb ρ).pending = [] := rfl
    exact handsOver_alignStream R hfresh
  · intro usb
    have hcleared : ({ usb with pending := [], reader := R.default } : Usb ρ).pending = [] := rfl
    exact handsOver_alignStream R hcleared

/-! ## The frames -/

/-- A poll that goes well has everything it got, with what was held before it, in the frame it
returns and in what is held after it. -/
def Lossless (encode : Frame → List UInt8) (held : ρ → List UInt8) :
    List UInt8 → Poll Frame ρ → Prop
  | got, .done (.ok frame) reader => got = frame.elim [] encode ++ held reader
  | _, .done (.error _) _ => True
  | got, .read bytes next =>
    ∀ count bytes', Fits bytes count bytes' →
      Lossless encode held (got ++ given count bytes') (next count bytes')

/-- The frames of the polls that went well. -/
def frames : List (Except IoError (Option Frame)) → List Frame
  | .ok (some frame) :: results => frame :: frames results
  | _ :: results => frames results
  | [] => []

section frames

variable {encode : Frame → List UInt8} {held : ρ → List UInt8}

/-- A poll without loss holds what it has not yet returned. -/
theorem run_lossless {got : List UInt8} {poll : Poll Frame ρ} (h : Lossless encode held got poll)
    {usb : Usb ρ} {frame : Option Frame} (hok : (run poll usb).2.1 = .ok frame) :
    got ++ (run poll usb).1 = frame.elim [] encode ++ held (run poll usb).2.2.reader := by
  induction poll generalizing got usb with
  | done result reader =>
    obtain rfl : result = .ok frame := hok
    exact (List.append_nil got).trans h
  | read bytes next ih =>
    obtain ⟨count, bytes', usb', hread, hfits, -⟩ := usb.read_spec bytes
    rw [run_read hread] at hok ⊢
    rw [← List.append_assoc]
    exact ih count bytes' (h count bytes' hfits) hok

/-- The frames that a reader without loss returns are the bytes of the endpoint from where the
stream was aligned to. -/
theorem frames_in_order {R : FrameReader ι Frame ρ}
    (hlossless : ∀ reader input, Lossless encode held (held reader) (R.poll reader input))
    (inputs : List ι) (usb : Usb ρ)
    (hok : ∀ result ∈ (polls R inputs usb).2.1, ∃ frame, result = .ok frame) :
    held usb.reader ++ usb.coming =
      (frames (polls R inputs usb).2.1).flatMap encode ++
        (held (polls R inputs usb).2.2.reader ++ (polls R inputs usb).2.2.coming) := by
  induction inputs generalizing usb with
  | nil => rfl
  | cons input inputs ih =>
    -- The first poll and the transport after it.
    obtain ⟨handed, result, after, hpoll⟩ : ∃ handed result after,
        pollReceive R usb input = (handed, result, after) := ⟨_, _, _, rfl⟩
    have hpolls : polls R (input :: inputs) usb =
        (handed ++ (polls R inputs after).1, result :: (polls R inputs after).2.1,
          (polls R inputs after).2.2) := by
      rw [polls, hpoll]
    have hcoming : usb.coming = handed ++ after.coming := by
      have hrun := run_spec (R.poll usb.reader input) usb
      rwa [show run (R.poll usb.reader input) usb = _ from hpoll] at hrun
    rw [hpolls] at hok ⊢
    obtain ⟨frame, rfl⟩ := hok result List.mem_cons_self
    have hgot : held usb.reader ++ handed = frame.elim [] encode ++ held after.reader := by
      have hfst : (run (R.poll usb.reader input) usb).2.1 = .ok frame := by
        rw [show run (R.poll usb.reader input) usb = _ from hpoll]
      have hrun := run_lossless (hlossless usb.reader input) hfst
      rwa [show run (R.poll usb.reader input) usb = _ from hpoll] at hrun
    have hrest := ih after fun result hmem => hok result (List.mem_cons_of_mem _ hmem)
    have hframes : (frames (.ok frame :: (polls R inputs after).2.1)).flatMap encode =
        frame.elim [] encode ++ (frames (polls R inputs after).2.1).flatMap encode := by
      cases frame with
      | none => rfl
      | some frame => exact List.flatMap_cons
    rw [hcoming, ← List.append_assoc, hgot, List.append_assoc, hrest, hframes, List.append_assoc]

end frames

end

end Usb

end HostUsb
end MobileWebcamBridge
