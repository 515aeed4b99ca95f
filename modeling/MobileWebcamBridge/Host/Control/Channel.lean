import Mathlib.Data.List.Nodup
import MobileWebcamBridge.Host.Control.Sizes
import MobileWebcamBridge.Host.Settings.RoundTrip

/-!
# `control.rs`: one message a line

`write` refuses a message whose JSON is too long and `read` a line that is; what lies between is the
pipe, which hands its bytes out in chunks. `serde_json` is a pair of functions: of a message it
writes the JSON of `Messages`, and of that JSON and a line break it reads the message back, but for
the fields that are skipped.
-/

set_option autoImplicit false

namespace MobileWebcamBridge
namespace HostControl

open Json Unicode
open HostSettings (Settings)

/-- The result of a call, with the text of its error. -/
abbrev Result (α : Type) := Except String α

/-- `serde_json::to_vec` and `serde_json::from_slice` at a message type. -/
structure Serde (M : Type) where
  toVec : M → Result (List UInt8)
  fromSlice : List UInt8 → Result M

variable {M : Type}

/-- How they behave on some messages. -/
structure Serde.Documented (codec : Serde M) (json : M → List Char) (received : M → M)
    (ms : List M) : Prop where
  toVec : ∀ m ∈ ms, codec.toVec m = .ok (utf8 (json m))
  fromSlice : ∀ m ∈ ms, codec.fromSlice (utf8 (json m) ++ [10]) = .ok (received m)

/-! ## The functions -/

/-- The byte that ends a message. -/
def newline : UInt8 := 10

/-- What `fill_buf` has still to hand out: chunks of the pipe, none of them empty before its end, or
an error. -/
abbrev Reader := List (Result (List UInt8))

/-- The bytes of a chunk to the end of the line. -/
def lineCount (chunk : List UInt8) : ℕ :=
  match chunk.findIdx? (· == newline) with
  | some n => n + 1
  | none => chunk.length

/-- `consume` in a chunk. -/
def consume (count : ℕ) (chunk : List UInt8) (reader : Reader) : Reader :=
  if chunk.drop count = [] then reader else .ok (chunk.drop count) :: reader

/-- The pipe is at its end. -/
def atEnd (bytes : List UInt8) : Result (Option (List UInt8)) :=
  if bytes = [] then .ok none else .error "truncated control message"

/-- The loop of `read`: the line, with the bytes of it that were read before. -/
def readLine (bytes : List UInt8) : Reader → Result (Option (List UInt8)) × Reader
  | [] => (atEnd bytes, [])
  | .error e :: reader => (.error e, reader)
  | .ok chunk :: reader =>
    if chunk = [] then (atEnd bytes, .ok chunk :: reader)
    else
      let count := lineCount chunk
      if MAX_LINE < bytes.length + count then
        (.error "control message exceeds 16 KiB", .ok chunk :: reader)
      else
        let finished := chunk.getD (count - 1) 0 == newline
        let bytes := bytes ++ chunk.take count
        if finished then (.ok (some bytes), consume count chunk reader)
        -- without the end of a line the whole chunk is consumed
        else readLine bytes reader

/-- `control::read`: a line, and the message it holds. -/
def read (codec : Serde M) (reader : Reader) : Result (Option M) × Reader :=
  match readLine [] reader with
  | (.error e, reader) => (.error e, reader)
  | (.ok none, reader) => (.ok none, reader)
  | (.ok (some bytes), reader) => ((codec.fromSlice bytes).map some, reader)

/-- `write` to a pipe that has taken `out`. -/
def write (codec : Serde M) (out : List UInt8) (m : M) : Result (List UInt8) :=
  match codec.toVec m with
  | .error e => .error e
  | .ok bytes =>
    if MAX_LINE ≤ bytes.length then .error "control message too large"
    else .ok (out ++ bytes ++ [newline])

/-! ## Statements -/

/-- Calls of `read` return the messages and then find the end of the pipe. -/
def Returns (codec : Serde M) : Reader → List M → Prop
  | reader, [] => (read codec reader).1 = .ok none
  | reader, m :: ms =>
    (read codec reader).1 = .ok (some m) ∧ Returns codec (read codec reader).2 ms

/-- Every message is written, and however the bytes are split into chunks, they are read back. -/
def Carried (codec : Serde M) (ms : List M) : Prop :=
  ∃ out, ms.foldlM (write codec) [] = .ok out ∧
    ∀ chunks : List (List UInt8), (∀ c ∈ chunks, c ≠ []) → chunks.flatten = out →
      Returns codec (chunks.map .ok) ms

/-- Writer and reader agree: a line that is written is read as its message wherever the chunks
end, and one byte more is refused by both; a line that is longer is an error, with an end or
without. -/
structure Bounded (codec : Serde M) : Prop where
  agree : ∀ (m : M) (line out rest : List UInt8) (chunks : List (List UInt8)),
    codec.toVec m = .ok line → newline ∉ line → (∀ c ∈ chunks, c ≠ []) →
    chunks.flatten = line ++ newline :: rest →
    if line.length < MAX_LINE then
      write codec out m = .ok (out ++ line ++ [newline]) ∧
        (read codec (chunks.map .ok)).1 = (codec.fromSlice (line ++ [newline])).map some
    else
      (∃ e, write codec out m = .error e) ∧ ∃ e, (read codec (chunks.map .ok)).1 = .error e
  long : ∀ chunks : List (List UInt8), (∀ c ∈ chunks, c ≠ []) →
    MAX_LINE ≤ (chunks.flatten.takeWhile (· != newline)).length →
    ∃ e, (read codec (chunks.map .ok)).1 = .error e

variable {codec : Serde M} {bytes line rest out c pre post : List UInt8}
  {chunks : List (List UInt8)}

/-! ## One line -/

/-- A line is counted with its newline. -/
theorem lineCount_of_line (hpre : newline ∉ pre) :
    lineCount (pre ++ newline :: post) = pre.length + 1 := by
  have hfind : (pre ++ newline :: post).findIdx? (· == newline) = some pre.length := by
    rw [List.findIdx?_append, List.findIdx?_eq_none_iff.mpr]
    · simp [List.findIdx?_cons]
    · intro b hb
      exact beq_false_of_ne fun heq => hpre (heq ▸ hb)
  rw [lineCount, hfind]

theorem lineCount_of_notMem (hc : newline ∉ c) : lineCount c = c.length := by
  have hfind : c.findIdx? (· == newline) = none := by
    apply List.findIdx?_eq_none_iff.mpr
    intro b hb
    exact beq_false_of_ne fun heq => hc (heq ▸ hb)
  rw [lineCount, hfind]

/-- A chunk that ends the line. -/
theorem readLine_ends (hpre : newline ∉ pre) (reader : Reader) :
    readLine bytes (.ok (pre ++ newline :: post) :: reader) =
      if MAX_LINE ≤ bytes.length + pre.length then
        (.error "control message exceeds 16 KiB", .ok (pre ++ newline :: post) :: reader)
      else (.ok (some (bytes ++ pre ++ [newline])),
        if post = [] then reader else .ok post :: reader) := by
  have htake : (pre ++ newline :: post).take (pre.length + 1) = pre ++ [newline] := by
    rw [List.take_length_add_append]
    rfl
  have hdrop : (pre ++ newline :: post).drop (pre.length + 1) = post := by
    rw [List.drop_length_add_append]
    rfl
  have hlast : ((pre ++ newline :: post).getD (pre.length + 1 - 1) 0 == newline) = true := by
    simp
  rw [readLine, if_neg (by simp), lineCount_of_line hpre]
  dsimp only
  rw [hlast, htake, consume, hdrop, if_pos rfl]
  by_cases hlong : MAX_LINE ≤ bytes.length + pre.length
  · rw [if_pos hlong, if_pos (by omega)]
  · rw [if_neg hlong, if_neg (by omega), List.append_assoc]

/-- A chunk that does not. -/
theorem readLine_goes_on (hc : newline ∉ c) (hne : c ≠ []) (reader : Reader) :
    readLine bytes (.ok c :: reader) =
      if MAX_LINE < bytes.length + c.length then
        (.error "control message exceeds 16 KiB", .ok c :: reader)
      else readLine (bytes ++ c) reader := by
  have hlast : (c.getD (c.length - 1) 0 == newline) = false := by
    apply beq_false_of_ne
    intro heq
    have hpos := List.length_pos_iff.mpr hne
    rw [List.getD_eq_getElem?_getD, List.getElem?_eq_getElem (by omega)] at heq
    exact hc (heq ▸ List.getElem_mem _)
  rw [readLine, if_neg hne, lineCount_of_notMem hc]
  dsimp only
  rw [hlast, List.take_length]
  rfl

/-- What stands before the newline is the line. -/
theorem takeWhile_line (hpre : newline ∉ pre) (post : List UInt8) :
    (pre ++ newline :: post).takeWhile (· != newline) = pre := by
  have hall : ∀ b ∈ pre, (b != newline) = true := by
    intro b hb
    exact bne_iff_ne.mpr fun heq => hpre (heq ▸ hb)
  rw [List.takeWhile_append_of_pos hall, List.takeWhile_cons_of_neg (by decide), List.append_nil]

/-- The first line of some bytes is one. -/
theorem line_unique (hpre : newline ∉ pre) (hline : newline ∉ line)
    (h : pre ++ newline :: post = line ++ newline :: rest) : pre = line ∧ post = rest := by
  have hfirst := takeWhile_line hpre post
  rw [h, takeWhile_line hline] at hfirst
  subst hfirst
  exact ⟨rfl, (List.cons.inj (List.append_cancel_left h)).2⟩

/-- The line that the chunks hold is read, however they cut it. -/
theorem readLine_of_line (bytes : List UInt8) (hchunks : ∀ c ∈ chunks, c ≠ [])
    (hflat : chunks.flatten = line ++ newline :: rest) (hline : newline ∉ line)
    (hfits : bytes.length + line.length < MAX_LINE) :
    ∃ chunks' : List (List UInt8), (∀ c ∈ chunks', c ≠ []) ∧ chunks'.flatten = rest ∧
      readLine bytes (chunks.map .ok) =
        (.ok (some (bytes ++ line ++ [newline])), chunks'.map .ok) := by
  induction chunks generalizing bytes line with
  | nil => simp at hflat
  | cons c chunks ih =>
    obtain ⟨hne, hnext⟩ := List.forall_mem_cons.mp hchunks
    rw [List.flatten_cons] at hflat
    by_cases hc : newline ∈ c
    · obtain ⟨pre, post, rfl, hpre⟩ := List.eq_append_cons_of_mem hc
      rw [List.append_assoc, List.cons_append] at hflat
      obtain ⟨rfl, rfl⟩ := line_unique hpre hline hflat
      refine ⟨if post = [] then chunks else post :: chunks, ?_, ?_, ?_⟩
      · split_ifs with hpost
        · exact hnext
        · exact List.forall_mem_cons.mpr ⟨hpost, hnext⟩
      · split_ifs with hpost
        · rw [hpost, List.nil_append]
        · rfl
      · rw [List.map_cons, readLine_ends hpre, if_neg (by omega)]
        split_ifs
        · rfl
        · rfl
    · -- the chunk is a part of the line
      obtain ⟨line', rfl, hrest⟩ : ∃ line', line = c ++ line' ∧
          chunks.flatten = line' ++ newline :: rest := by
        rcases List.append_eq_append_iff.mp hflat with ⟨line', hl, hr⟩ | ⟨tail, hl, hr⟩
        · exact ⟨line', hl, hr⟩
        · cases tail with
          | nil => exact ⟨[], by simpa using hl.symm, by simpa using hr.symm⟩
          | cons b tail =>
            obtain ⟨rfl, -⟩ := List.cons.inj hr
            exact absurd (by rw [hl]; simp) hc
      rw [List.length_append] at hfits
      obtain ⟨chunks', hchunks', hflat', hread⟩ := ih (bytes ++ c) hnext hrest
        (fun hmem => hline (List.mem_append_right _ hmem))
        (by rw [List.length_append]; omega)
      refine ⟨chunks', hchunks', hflat', ?_⟩
      rw [List.map_cons, readLine_goes_on hc hne, if_neg (by omega), hread]
      simp only [List.append_assoc]

/-- A line that is too long is an error, with an end or without. -/
theorem readLine_of_long (bytes : List UInt8) (hchunks : ∀ c ∈ chunks, c ≠ [])
    (hlong : MAX_LINE ≤ bytes.length + (chunks.flatten.takeWhile (· != newline)).length) :
    ∃ e, (readLine bytes (chunks.map .ok)).1 = .error e := by
  induction chunks generalizing bytes with
  | nil =>
    have hne : bytes ≠ [] := by
      rintro rfl
      exact absurd hlong (by decide)
    exact ⟨_, if_neg hne⟩
  | cons c chunks ih =>
    obtain ⟨hne, hchunks⟩ := List.forall_mem_cons.mp hchunks
    rw [List.flatten_cons] at hlong
    by_cases hc : newline ∈ c
    · obtain ⟨pre, post, rfl, hpre⟩ := List.eq_append_cons_of_mem hc
      rw [List.append_assoc, List.cons_append, takeWhile_line hpre] at hlong
      rw [List.map_cons, readLine_ends hpre, if_pos hlong]
      exact ⟨_, rfl⟩
    · have hall : ∀ b ∈ c, (b != newline) = true := by
        intro b hb
        exact bne_iff_ne.mpr fun heq => hc (heq ▸ hb)
      rw [List.takeWhile_append_of_pos hall, List.length_append] at hlong
      rw [List.map_cons, readLine_goes_on hc hne]
      split_ifs
      · exact ⟨_, rfl⟩
      · apply ih (bytes ++ c) hchunks
        rw [List.length_append]
        omega

/-- An error of the reader is the error of `read`. -/
theorem read_of_error {reader : Reader} {e : String} (h : (readLine [] reader).1 = .error e) :
    (read codec reader).1 = .error e := by
  rw [read]
  generalize readLine [] reader = result at h ⊢
  obtain ⟨result, rest⟩ := result
  obtain rfl : result = .error e := h
  rfl

/-- A line that is too long is an error, however it arrives. -/
theorem read_of_long (hchunks : ∀ c ∈ chunks, c ≠ [])
    (hlong : MAX_LINE ≤ (chunks.flatten.takeWhile (· != newline)).length) :
    ∃ e, (read codec (chunks.map .ok)).1 = .error e := by
  obtain ⟨e, he⟩ := readLine_of_long [] hchunks (by rwa [List.length_nil, Nat.zero_add])
  exact ⟨e, read_of_error he⟩

/-- What a write does, once the message is JSON. -/
theorem write_eq {m : M} (htoVec : codec.toVec m = .ok line) :
    write codec out m =
      if MAX_LINE ≤ line.length then .error "control message too large"
      else .ok (out ++ line ++ [newline]) := by
  rw [write, htoVec]

/-- Reader and writer agree on the longest line. -/
theorem bounded (codec : Serde M) : Bounded codec where
  agree m line out rest chunks htoVec hline hchunks hflat := by
    rw [write_eq htoVec]
    split_ifs with hfits hlong hlong
    · omega
    · obtain ⟨chunks', -, -, hread⟩ := readLine_of_line [] hchunks hflat hline
        (by rwa [List.length_nil, Nat.zero_add])
      rw [read, hread]
      exact ⟨rfl, rfl⟩
    · refine ⟨⟨_, rfl⟩, read_of_long hchunks ?_⟩
      rwa [hflat, takeWhile_line hline]
    · omega
  long chunks hchunks hlong := read_of_long hchunks hlong

/-! ## Many messages -/

section messages

variable {json : M → List Char} {received : M → M} {ms : List M}

/-- The bytes of the messages. -/
def lines (json : M → List Char) (ms : List M) : List UInt8 :=
  ms.flatMap fun m => utf8 (json m) ++ [newline]

/-- Writing comes to its end exactly when every message is short enough. -/
theorem foldlM_write (htoVec : ∀ m ∈ ms, codec.toVec m = .ok (utf8 (json m)))
    (start : List UInt8) :
    ms.foldlM (write codec) start = .ok out ↔
      (∀ m ∈ ms, size (json m) < MAX_LINE) ∧ out = start ++ lines json ms := by
  induction ms generalizing start with
  | nil =>
    show Except.ok start = .ok out ↔ _
    rw [Except.ok.injEq]
    simp [lines, eq_comm]
  | cons m ms ih =>
    obtain ⟨hm, hms⟩ := List.forall_mem_cons.mp htoVec
    show (write codec start m >>= fun out => ms.foldlM (write codec) out) = .ok out ↔ _
    rw [write_eq hm, List.forall_mem_cons]
    by_cases hlong : MAX_LINE ≤ (utf8 (json m)).length
    · rw [if_pos hlong]
      constructor
      · exact nofun
      · rintro ⟨⟨hfits, -⟩, -⟩
        exact absurd hlong (Nat.not_le.mpr hfits)
    · rw [if_neg hlong]
      show ms.foldlM (write codec) _ = .ok out ↔ _
      rw [ih hms]
      have hlines : lines json (m :: ms) = utf8 (json m) ++ [newline] ++ lines json ms := rfl
      rw [hlines]
      simp only [List.append_assoc]
      constructor
      · rintro ⟨hfits, rfl⟩
        exact ⟨⟨Nat.not_le.mp hlong, hfits⟩, rfl⟩
      · rintro ⟨⟨-, hfits⟩, rfl⟩
        exact ⟨hfits, rfl⟩

/-- However the lines are cut, what is read of them is what serde makes of each. -/
theorem returns_iff (hfromSlice : ∀ m ∈ ms, codec.fromSlice (utf8 (json m) ++ [10]) =
    .ok (received m)) (hline : ∀ m, OneLine (json m)) (hfits : ∀ m ∈ ms, size (json m) < MAX_LINE)
    (hchunks : ∀ c ∈ chunks, c ≠ []) (hflat : chunks.flatten = lines json ms) :
    Returns codec (chunks.map .ok) ms ↔ ∀ m ∈ ms, received m = m := by
  induction ms generalizing chunks with
  | nil =>
    have hnil : chunks = [] := by
      cases chunks with
      | nil => rfl
      | cons c chunks =>
        have hc := hchunks c List.mem_cons_self
        simp only [List.flatten_cons, lines, List.flatMap_nil, List.append_eq_nil_iff] at hflat
        exact absurd hflat.1 hc
    subst hnil
    exact ⟨fun _ => nofun, fun _ => rfl⟩
  | cons m ms ih =>
    obtain ⟨hm, hms⟩ := List.forall_mem_cons.mp hfromSlice
    obtain ⟨hshort, hfits⟩ := List.forall_mem_cons.mp hfits
    have hlines : chunks.flatten = utf8 (json m) ++ newline :: lines json ms := by
      rw [hflat]
      simp [lines]
    obtain ⟨chunks', hchunks', hflat', hread⟩ := readLine_of_line [] hchunks hlines
      (fun hmem => (hline m).ne_of_mem_utf8 _ hmem rfl) (by rwa [List.length_nil, Nat.zero_add])
    have hresult : read codec (chunks.map .ok) = (.ok (some (received m)), chunks'.map .ok) := by
      rw [read, hread]
      show ((codec.fromSlice (utf8 (json m) ++ [10])).map some, _) = _
      rw [hm]
      rfl
    rw [Returns, hresult, List.forall_mem_cons, ← ih hms hfits hchunks' hflat']
    simp

/-- A list of messages is carried exactly when each is short enough and has nothing to lose. -/
theorem carried_iff (hcodec : codec.Documented json received ms) (hline : ∀ m, OneLine (json m)) :
    Carried codec ms ↔ ∀ m ∈ ms, size (json m) < MAX_LINE ∧ received m = m := by
  constructor
  · rintro ⟨out, hwrite, hread⟩
    obtain ⟨hfits, rfl⟩ := (foldlM_write hcodec.toVec []).mp hwrite
    -- one byte a chunk
    have hchunks : ∀ c ∈ (lines json ms).map fun b => [b], c ≠ [] := by simp
    have hflat : ((lines json ms).map fun b => [b]).flatten = lines json ms := by
      rw [← List.flatMap_def]
      exact List.flatMap_singleton' _
    have hreturns := hread _ hchunks hflat
    have hwhole := (returns_iff hcodec.fromSlice hline hfits hchunks hflat).mp hreturns
    exact fun m hm => ⟨hfits m hm, hwhole m hm⟩
  · intro h
    have hfits := fun m hm => (h m hm).1
    refine ⟨lines json ms, (foldlM_write hcodec.toVec []).mpr ⟨hfits, rfl⟩, ?_⟩
    intro chunks hchunks hflat
    exact (returns_iff hcodec.fromSlice hline hfits hchunks hflat).mpr fun m hm => (h m hm).2

end messages

/-! ## Both directions -/

/-- A start command is short enough and its settings have nothing in the skipped fields. -/
def Command.Fits : Command → Prop
  | .start s device =>
    startSize s device < MAX_LINE ∧ s.qualityWarning = none ∧ s.qualityClamped = false
  | _ => True

/-- A command fits exactly when its line is short enough and nothing is skipped. -/
theorem Command.fits_iff (command : Command) :
    (size command.json < MAX_LINE ∧ command.received = command) ↔ command.Fits := by
  cases command with
  | start s device =>
    rw [size_start]
    show _ ∧ Command.start { s with qualityWarning := none, qualityClamped := false } device = _ ↔ _
    rw [Command.start.injEq]
    constructor
    · rintro ⟨hsize, heq, -⟩
      rw [← heq]
      exact ⟨by rw [heq]; exact hsize, rfl, rfl⟩
    · rintro ⟨hsize, hwarning, hclamped⟩
      refine ⟨hsize, ?_, rfl⟩
      rw [← hwarning, ← hclamped]
  | transform | prepareQuality | stop =>
    exact ⟨fun _ => trivial, fun _ => ⟨size_command_lt _ nofun, rfl⟩⟩

theorem length_le_utf8 (s : List Char) : s.length ≤ (utf8 s).length := by
  induction s with
  | nil => exact Nat.le_refl 0
  | cons c s ih =>
    have hc := Char.utf8Size_pos c
    rw [utf8, List.flatMap_cons, List.length_append, String.length_utf8EncodeChar,
      List.length_cons]
    change s.length ≤ (s.flatMap String.utf8EncodeChar).length at ih
    omega

/-- A hexadecimal text is not escaped. -/
theorem escapedSize_of_isHex {s : List Char} {bytes : ℕ}
    (h : s ≠ [] → HostSettings.isHex s bytes = true) : escapedSize s ≤ 12 * bytes := by
  by_cases hnil : s = []
  · rw [hnil]
    exact Nat.zero_le _
  · have hhex := h hnil
    rw [HostSettings.isHex, Bool.and_eq_true, beq_iff_eq] at hhex
    have hle := escapedSize_le s
    have hlen := length_le_utf8 s
    omega

/-- The bounds on the settings are enough for texts that need no escape. -/
theorem start_fits_of_plain {pipewire : Bool} {s : Settings} {device : Option DeviceId}
    (hvalid : s.validate pipewire = .ok ()) (hhost : escapedSize s.lanHost = size s.lanHost)
    (houtput : escapedSize s.output = size s.output)
    (hkind : HostSettings.trimmed s.outputKind = s.outputKind)
    (hports : ∀ d ∈ device, d.ports.length ≤ 7) : startSize s device < MAX_LINE := by
  obtain ⟨htransport, hfingerprint, hkey, -, -, hdecode, hlanHost, hout, hbackend⟩ :=
    HostSettings.Settings.validate_eq_ok.mp hvalid
  have htransport : escapedSize s.transport ≤ 100 := by
    have hall : ∀ t ∈ HostSettings.Settings.transports, escapedSize t ≤ 100 := by decide +kernel
    exact hall _ (List.contains_iff_mem.mp htransport)
  have hdecode : escapedSize s.decode ≤ 100 := by
    have hall : ∀ t ∈ HostSettings.Settings.decoders, escapedSize t ≤ 100 := by decide +kernel
    exact hall _ (List.contains_iff_mem.mp hdecode)
  have hkind : escapedSize s.outputKind ≤ 100 := by
    rw [HostSettings.backendTaken, HostSettings.Backend.parse, hkind] at hbackend
    split at hbackend
    · next hloopback =>
      rw [hloopback]
      decide +kernel
    split at hbackend
    · next hpipewire =>
      rw [hpipewire]
      decide +kernel
    · cases hbackend
  have hfingerprint := escapedSize_of_isHex hfingerprint
  have hkey := escapedSize_of_isHex hkey
  rw [HostSettings.Settings.addressOk, Bool.and_eq_true, Bool.and_eq_true,
    decide_eq_true_eq] at hlanHost hout
  have hlanHost : size s.lanHost ≤ 4096 := hlanHost.1.1
  have hout : size s.output ≤ 4096 := hout.1.1
  have hdevice : size (deviceJson device) ≤ 200 := by
    cases device with
    | none => decide +kernel
    | some d =>
      have hports := hports d rfl
      have hle := d.size_json_le
      show size d.json ≤ 200
      omega
  have hconnected : size (number s.lastConnected.toNat) ≤ 20 :=
    size_number_le (by decide) (Nat.lt_of_lt_of_le s.lastConnected.toNat_lt (by decide))
  have hrotation := size_uint16_le s.rotation
  have hmirror := size_bool_le s.mirror
  have hflip := size_bool_le s.verticalFlip
  have hwidth := size_uint16_le s.qualityWidth
  have hheight := size_uint16_le s.qualityHeight
  have hfps := size_uint16_le s.qualityFps
  rw [startSize, settingsSize, MAX_LINE]
  omega

/-- The commands are carried exactly when each start command fits; the events of the worker are
carried always; and both ends take the same lines. -/
theorem channel_carries (commands : Serde Command) (events : Serde Event) {cs : List Command}
    {es : List Event} (hcs : commands.Documented Command.json Command.received cs)
    (hes : events.Documented Event.json id es) (hproduced : ∀ e ∈ es, e.Produced) :
    (Carried commands cs ↔ ∀ c ∈ cs, c.Fits) ∧ Carried events es ∧
      Bounded commands ∧ Bounded events := by
  refine ⟨?_, ?_, bounded commands, bounded events⟩
  · rw [carried_iff hcs Command.oneLine_json]
    exact forall₂_congr fun c _ => c.fits_iff
  · apply (carried_iff hes Event.oneLine_json).mpr
    exact fun e he => ⟨(hproduced e he).size_lt, rfl⟩

/-- Serde as far as some messages need it. -/
def serdeOf (json : M → List Char) (received : M → M) (ms : List M) : Serde M where
  toVec m := .ok (utf8 (json m))
  fromSlice bytes :=
    match ms.find? fun m => bytes == utf8 (json m) ++ [10] with
    | some m => .ok (received m)
    | none => .error "expected value"

/-- It behaves as documented on messages with different JSON. -/
theorem serdeOf_documented (json : M → List Char) (received : M → M) (ms : List M)
    (h : (ms.map json).Nodup) : (serdeOf json received ms).Documented json received ms where
  toVec _ _ := rfl
  fromSlice m hm := by
    obtain ⟨found, hfound⟩ : ∃ found,
        (ms.find? fun other => utf8 (json m) ++ [10] == utf8 (json other) ++ [10]) =
          some found := by
      apply Option.isSome_iff_exists.mp
      exact List.find?_isSome.mpr ⟨m, hm, beq_self_eq_true _⟩
    -- no other message has the same JSON
    have hequal : (utf8 (json m) ++ [10] == utf8 (json found) ++ [10]) = true := by
      have hprop := List.find?_some hfound
      exact hprop
    have hbytes := List.append_cancel_right (eq_of_beq hequal)
    have hsame := List.inj_on_of_nodup_map h hm (List.mem_of_find?_eq_some hfound)
      (utf8_injective hbytes)
    unfold serdeOf
    dsimp only
    rw [hfound, hsame]

/-- The commands of a session: start, turn the picture, switch the mode, stop. -/
def commandsSent : List Command :=
  [.start HostSettings.paired (some ⟨1, 7, 0x18d1, 0x2d01, [2, 4]⟩), .transform 270 true false,
    .prepareQuality 1280 720 30, .stop]

/-- The events of one that is connected, switches once in vain and once for good, and ends. -/
def eventsSent : List Event :=
  [.usbPermission ⟨1, 7, 0x18d1, 0x2d01, [2, 4]⟩, .connecting, .waiting,
    .qualityCapabilities 1 3 9 [⟨1280, 720, 30, 4000000⟩],
    .qualityFailed "the apply deadline expired" true, .qualityApplied 1280 720 30, .stopped]

/-- A worker can produce these events. -/
theorem eventsSent_produced : ∀ e ∈ eventsSent, e.Produced := by
  have hmodes : ∀ m ∈ [(⟨1280, 720, 30, 4000000⟩ : HostQuality.Mode)], m.usable = true := by decide
  simp only [eventsSent, List.forall_mem_cons, List.not_mem_nil, false_imp_iff, implies_true,
    and_true]
  exact ⟨.usbPermission _ (by decide), .connecting, .waiting,
    .qualityCapabilities _ _ _ _ (by decide) hmodes, .qualityFailed _ _ (.inl (by decide)),
    .qualityApplied _ _ _, .stopped⟩

/-- Four commands and seven events arrive. -/
theorem channel_carries_session :
    Carried (serdeOf Command.json Command.received commandsSent) commandsSent ∧
      Carried (serdeOf Event.json id eventsSent) eventsSent := by
  obtain ⟨hcommands, hevents, -, -⟩ := channel_carries _ _
    (serdeOf_documented Command.json Command.received commandsSent (by decide +kernel))
    (serdeOf_documented Event.json id eventsSent (by decide +kernel)) eventsSent_produced
  refine ⟨hcommands.mpr ?_, hevents⟩
  simp only [commandsSent, List.forall_mem_cons, List.not_mem_nil, false_imp_iff, implies_true,
    and_true]
  exact ⟨⟨by decide +kernel, rfl, rfl⟩, trivial, trivial, trivial⟩

/-- An address of 4096 control characters, which take six bytes each. -/
def longHost : Settings := { Settings.default with lanHost := List.replicate 4096 '\x01' }

/-- Every character of a repetition takes the same room. -/
theorem escapedSize_replicate (n : ℕ) (c : Char) :
    escapedSize (List.replicate n c) = n * size (escapeChar c) := by
  induction n with
  | zero => rw [Nat.zero_mul]; rfl
  | succ n ih =>
    rw [List.replicate_succ, escapedSize_cons, ih]
    ring

/-- The address is accepted. -/
theorem validate_longHost : longHost.validate true = .ok () := by
  have hutf8 : (utf8 longHost.lanHost).length = 4096 := by
    rw [length_utf8_of_ascii]
    · exact List.length_replicate
    · intro c hc
      rw [List.eq_of_mem_replicate hc]
      decide
  have hnot : ∀ c, c ≠ '\x01' → longHost.lanHost.contains c = false := by
    intro c hne
    apply Bool.eq_false_iff.mpr
    intro hcontains
    exact hne (List.eq_of_mem_replicate (List.contains_iff_mem.mp hcontains))
  have hhost : HostSettings.Settings.addressOk longHost.lanHost = true := by
    rw [HostSettings.Settings.addressOk, hutf8, hnot _ (by decide), hnot _ (by decide)]
    rfl
  exact HostSettings.Settings.validate_eq_ok.mpr
    { transport := by decide, lanFingerprint := fun h => absurd rfl h
      lanKey := fun h => absurd rfl h, rotation := .inl rfl, wish := by decide
      decode := by decide, lanHost := hhost, output := by decide +kernel, outputKind := by decide }

/-- The settings are accepted and the start command is not carried. -/
theorem start_not_carried :
    longHost.validate true = .ok () ∧
      ∃ codec : Serde Command,
        codec.Documented Command.json Command.received [.start longHost none] ∧
          ¬Carried codec [.start longHost none] := by
  have hserde := serdeOf_documented Command.json Command.received [.start longHost none]
    (List.pairwise_singleton _ _)
  refine ⟨validate_longHost, _, hserde, ?_⟩
  intro hcarried
  have hfits := ((carried_iff hserde Command.oneLine_json).mp hcarried) _
    (List.mem_singleton_self _)
  have hsize : escapedSize longHost.lanHost = 4096 * 6 := escapedSize_replicate 4096 '\x01'
  have hshort := hfits.1
  rw [size_start, startSize, settingsSize, MAX_LINE] at hshort
  omega

end HostControl
end MobileWebcamBridge
