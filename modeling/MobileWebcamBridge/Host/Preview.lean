import MobileWebcamBridge.Lib.ByteFile
import MobileWebcamBridge.Lib.Bytes
import MobileWebcamBridge.Lib.EventSystem

/-!
# `preview.rs`: the preview record

The record is a file with a header and room for one frame. `system` is one record under successive
producers, at most one of them alive, and any number of calls of `latest` in progress. A step is one
positioned read or write; the payload is written in any number of pieces, a producer can be killed
between any two of them, and a write can fail.
-/

set_option autoImplicit false

namespace MobileWebcamBridge
namespace Preview

open Bytes

/-- The width of a preview picture. -/
def PREVIEW_WIDTH : ℕ := 320
/-- The bytes `MBWP`. -/
def MAGIC : List UInt8 := [0x4d, 0x42, 0x57, 0x50]
/-- The version of the file. -/
def VERSION : ℕ := 1
/-- The length of the header. -/
def HEADER : ℕ := 32
/-- The most bytes of a picture. -/
def CAPACITY : ℕ := PREVIEW_WIDTH * 1024 * 4

/-- A preview picture. -/
structure Frame where
  width : ℕ
  height : ℕ
  pixels : List UInt8
deriving DecidableEq, Repr

/-- `usize` arithmetic of a release build. -/
def usize (n : ℕ) : ℕ := n % 2 ^ 64

/-- The record's header; the sizes are cut to 32 bits. -/
def header (seq : UInt64) (width height len : ℕ) : List UInt8 :=
  MAGIC ++ toLE 4 VERSION ++ toLE 8 seq.toNat ++ toLE 4 width ++ toLE 4 height ++ toLE 4 len ++
    [0, 0, 0, 0]

/-- A header that has been read. -/
structure Parsed where
  seq : UInt64
  width : ℕ
  height : ℕ
  len : ℕ
deriving DecidableEq, Repr

/-- The header, if its magic and version are right and its picture fits. -/
def parseHeader (bytes : List UInt8) : Option Parsed :=
  if slice bytes 0 4 ≠ MAGIC ∨ ofLE (slice bytes 4 8) ≠ VERSION then none
  else
    let seq := UInt64.ofNat (ofLE (slice bytes 8 16))
    let width := ofLE (slice bytes 16 20)
    let height := ofLE (slice bytes 20 24)
    let len := ofLE (slice bytes 24 28)
    if width = 0 ∨ height = 0 ∨ len ≠ usize (width * height * 4) ∨ len > CAPACITY then none
    else some { seq, width, height, len }

/-! ## The producer -/

/-- Where a producer is in `publish`. -/
inductive Point
  | idle
  /-- The header is written, and so many bytes of the payload. -/
  | payload (frame : Frame) (written : ℕ)
deriving DecidableEq, Repr

/-- The worker that writes the file, and where in `publish` it is. -/
structure Producer where
  seq : UInt64
  point : Point
deriving DecidableEq, Repr

/-- `Producer::open`, once it has the file. -/
def Producer.open (file : ByteFile) : ByteFile × Producer :=
  (if file.size < HEADER + CAPACITY then file.setLen (HEADER + CAPACITY) else file,
    { seq := 0, point := .idle })

/-- The check `publish` begins with. -/
def Frame.publishable (frame : Frame) : Bool :=
  !(frame.pixels.length ≠ usize (frame.width * frame.height * 4) ∨ frame.pixels.length > CAPACITY)

/-- The odd number of a write in progress. -/
def opening (seq : UInt64) : UInt64 := (seq + 1) ||| 1

/-- The even number of a complete frame. -/
def closing (seq : UInt64) : UInt64 := (seq + 1) &&& ~~~1

/-! ## The consumer -/

/-- A call of `latest`, by what it reads next. -/
inductive Latest
  | header
  | payload (parsed : Parsed)
  | check (parsed : Parsed) (pixels : List UInt8)
  | done (result : Option Frame)
deriving DecidableEq, Repr

/-- The next read of a call. -/
def Latest.read (file : ByteFile) : Latest → Latest
  | .header =>
    match (file.readAt 0 HEADER).bind parseHeader with
    | some parsed => if parsed.seq % 2 = 1 then .done none else .payload parsed
    | none => .done none
  | .payload parsed =>
    match file.readAt HEADER parsed.len with
    | some pixels => .check parsed pixels
    | none => .done none
  | .check parsed pixels =>
    match (file.readAt 0 HEADER).bind parseHeader with
    | some again =>
      if again.seq ≠ parsed.seq then .done none
      else .done (some { width := parsed.width, height := parsed.height, pixels })
    | none => .done none
  | .done result => .done result

/-! ## Runs -/

/-- The file, its producer and the readers. -/
structure Record where
  file : ByteFile
  producer : Option Producer
  calls : List Latest

/-- A picture written in full, and a picture handed to the window. -/
inductive Event
  | published (frame : Frame)
  | returned (frame : Frame)
deriving DecidableEq, Repr

/-- What the producer and the readers do next. -/
inductive Label
  | open
  /-- `publish` is entered and the header written. -/
  | publish (frame : Frame)
  /-- So many more bytes of the payload are written. -/
  | write (n : ℕ)
  /-- The closing sequence number is written. -/
  | close
  /-- The next write of the producer fails (that of the header for `frame`),
  and `publish` returns. -/
  | fail (frame : Frame)
  | kill
  | latest
  | read (call : ℕ)
deriving DecidableEq, Repr

/-- One write or one read. -/
def step (s : Record) : Label → Option (Record × List Event)
  | .open =>
    match s.producer with
    | some _ => none
    | none =>
      let (file, producer) := Producer.open s.file
      some ({ s with file, producer := some producer }, [])
  | .publish frame =>
    match s.producer with
    | some { seq, point := .idle } =>
      if !frame.publishable then some (s, [])
      else
        let seq := opening seq
        let file :=
          s.file.writeAt 0 (header seq frame.width frame.height frame.pixels.length)
        some ({ s with file, producer := some { seq, point := .payload frame 0 } }, [])
    | _ => none
  | .write n =>
    match s.producer with
    | some { seq, point := .payload frame written } =>
      if 1 ≤ n ∧ written + n ≤ frame.pixels.length then
        let piece := (frame.pixels.drop written).take n
        some ({ s with
          file := s.file.writeAt (HEADER + written) piece
          producer := some { seq, point := .payload frame (written + n) } }, [])
      else none
    | _ => none
  | .close =>
    match s.producer with
    | some { seq, point := .payload frame written } =>
      if written = frame.pixels.length then
        let seq := closing seq
        some ({ s with
          file := s.file.writeAt 8 (toLE 8 seq.toNat)
          producer := some { seq, point := .idle } }, [.published frame])
      else none
    | _ => none
  | .fail frame =>
    match s.producer with
    | none => none
    | some { seq, point := .idle } =>
      if !frame.publishable then none
      else some ({ s with producer := some { seq := opening seq, point := .idle } }, [])
    | some { seq, point := .payload frame written } =>
      let seq := if written = frame.pixels.length then closing seq else seq
      some ({ s with producer := some { seq, point := .idle } }, [])
  | .kill => some ({ s with producer := none }, [])
  | .latest => some ({ s with calls := s.calls ++ [Latest.header] }, [])
  | .read i =>
    match s.calls[i]? with
    | none | some (.done _) => none
    | some call =>
      let call := call.read s.file
      some ({ s with calls := s.calls.set i call },
        match call with
        | .done (some frame) => [.returned frame]
        | _ => [])

/-- A record as `create_path` leaves it. -/
def fresh : Record :=
  { file := .zeros (HEADER + CAPACITY), producer := none, calls := [] }

/-- The producer and its readers from an empty file. -/
def system : EventSystem Record Label Event where
  start s := s = fresh
  step := step

end Preview
end MobileWebcamBridge
