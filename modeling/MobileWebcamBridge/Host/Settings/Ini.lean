import MobileWebcamBridge.Host.Settings

/-!
# `settings.rs` on Unix: the file format, loading and what a save writes
-/

set_option autoImplicit false

namespace MobileWebcamBridge
namespace HostSettings

open Text Unicode

/-! ## Escapes -/

/-- What the loop of `decode_ini` has read of an escape. -/
inductive Pending
  | none
  | escape
  /-- The digits after `\x`, which end at the first character that is not one. -/
  | hex (digits : List Char)
deriving DecidableEq

/-- Where `decode_ini` stands in a value. -/
structure Scan where
  result : List Char
  quoted : Bool
  pending : Pending
deriving DecidableEq

/-- `char::from_u32(u32::from_str_radix(&hex, 16)?)`. -/
def hexChar (digits : List Char) : Result Char :=
  if digits = [] then .error "cannot parse integer from empty string"
  else
    match fromDigits 16 digits with
    | none => .error "invalid digit found in string"
    | some n =>
      if 2 ^ 32 ≤ n then .error "number too large to fit in target type"
      else if n.isValidChar then .ok (Char.ofNat n)
      else .error "invalid INI character"

/-- The end of the digits after `\x`. -/
def Scan.flush (s : Scan) : Result Scan :=
  match s.pending with
  | .hex digits =>
    match hexChar digits with
    | .error e => .error e
    | .ok c => .ok { s with result := s.result ++ [c], pending := .none }
  | _ => .ok s

/-- A character outside any escape. -/
def Scan.plain (s : Scan) (c : Char) : Scan :=
  if c = '"' then { s with quoted := !s.quoted }
  else if c = '\\' then { s with pending := .escape }
  else { s with result := s.result ++ [c] }

/-- The character an escape of one letter stands for. -/
def letter (c : Char) : Option Char :=
  if c = 'n' then some '\n'
  else if c = 'r' then some '\r'
  else if c = 't' then some '\t'
  else if c = 'a' then some '\x07'
  else if c = 'b' then some '\x08'
  else if c = 'f' then some '\x0c'
  else if c = 'v' then some '\x0b'
  else if c = '\\' then some '\\'
  else if c = '"' then some '"'
  else none

/-- One character of a value. -/
def Scan.next (s : Scan) (c : Char) : Result Scan :=
  match s.pending with
  | .none => .ok (s.plain c)
  | .escape =>
    if c = 'x' then .ok { s with pending := .hex [] }
    else
      match letter c with
      | some d => .ok { s with result := s.result ++ [d], pending := .none }
      | none => .error "unsupported INI escape in saved setting"
  | .hex digits =>
    if isHexDigit c then .ok { s with pending := .hex (digits ++ [c]) }
    else
      match s.flush with
      | .error e => .error e
      | .ok s => .ok (s.plain c)

/-- The end of the value. -/
def Scan.finish (s : Scan) : Result (List Char) :=
  if s.pending = .escape then .error "truncated INI escape"
  else
    match s.flush with
    | .error e => .error e
    | .ok s =>
      if s.quoted then .error "unterminated INI quote"
      else
        match s.result with
        | '@' :: '@' :: cs => .ok ('@' :: cs)
        | '@' :: _ => .error "unsupported Qt variant in scalar setting"
        | result => .ok result

/-- A value of the file, without its quotes and escapes. -/
def decodeIni (value : List Char) : Result (List Char) :=
  match value.foldlM Scan.next { result := [], quoted := false, pending := .none } with
  | .error e => .error e
  | .ok s => s.finish

/-- The characters `encode_ini` writes for `value`; `escapeNextHex`: the last thing written was a
hexadecimal escape, which a digit would prolong. -/
def encodeChars (escapeNextHex : Bool) : List Char → List Char
  | [] => []
  | c :: cs =>
    if c = '\\' ∨ c = '"' then '\\' :: c :: encodeChars false cs
    else if c = '\n' then '\\' :: 'n' :: encodeChars false cs
    else if c = '\r' then '\\' :: 'r' :: encodeChars false cs
    else if c.toNat < 0x20 ∨ (escapeNextHex = true ∧ isHexDigit c = true) then
      '\\' :: 'x' :: (Nat.toDigits 16 c.toNat ++ encodeChars true cs)
    else c :: encodeChars false cs

/-- A value as it is written. -/
def encodeIni (value : List Char) : List Char :=
  let value := if value.head? = some '@' then '@' :: value else value
  '"' :: (encodeChars false value ++ ['"'])

/-! ## Sections and assignments -/

/-- The line `[General]`. -/
def generalHeader : List Char := ['[', 'G', 'e', 'n', 'e', 'r', 'a', 'l', ']']

/-- Whether the lines from this one on are inside `[General]`. -/
def enters (general : Bool) (line : List Char) : Bool :=
  if line.head? = some '[' then decide (line = generalHeader) else general

/-- The loop of `parse_ini`. -/
def parseLines (general : Bool) (values : Values) : List (List Char) → Result Values
  | [] => .ok values
  | line :: lines =>
    let line := trimmed line
    if line.head? = some '[' then parseLines (enters general line) values lines
    else if general = false ∨ line.head? = some ';' ∨ line.head? = some '#' ∨ line = [] then
      parseLines general values lines
    else
      match splitOnce '=' line with
      | none => parseLines general values lines
      | some (key, value) =>
        match Key.ofName (trimmed key) with
        | none => parseLines general values lines
        | some key =>
          match decodeIni (trimmed value) with
          | .error e => .error e
          | .ok value => parseLines general (values.insert key value) lines

/-- The values of the section `[General]`. -/
def parseIni (data : List Char) : Result Values := parseLines false (fun _ => none) (lines data)

/-- A line that assigns a known key, whatever its section. -/
def assignsKnown (line : List Char) : Bool :=
  match splitOnce '=' (trimmed line) with
  | none => false
  | some (key, _) => (Key.ofName (trimmed key)).isSome

/-- The lines a save keeps: all but the known keys inside `[General]`. -/
def keptLines (general : Bool) : List (List Char) → List (List Char)
  | [] => []
  | line :: lines =>
    let general := enters general (trimmed line)
    if general = true ∧ assignsKnown line = true then keptLines general lines
    else line :: keptLines general lines

/-- The lines of a save. -/
def additions (values : Key → List Char) : List (List Char) :=
  Key.all.map fun key => key.name ++ '=' :: encodeIni (values key)

/-- The lines with the additions behind the first `[General]`, or in a new section at the end. -/
def spliced (lines additions : List (List Char)) : List (List Char) :=
  match lines.findIdx? fun line => decide (trimmed line = generalHeader) with
  | some index => lines.take (index + 1) ++ (additions ++ lines.drop (index + 1))
  | none => lines ++ (generalHeader :: additions)

/-- The text a save writes over `data`. -/
def merged (values : Key → List Char) (data : List Char) : List Char :=
  unlines (spliced (keptLines false (lines data)) (additions values))

/-! ## Files -/

/-- A settings file: its text and its mode. -/
structure File where
  text : List Char
  mode : UInt32
deriving DecidableEq

/-- The file is longer than is read. -/
def tooLarge (text : List Char) : Bool := decide (1024 * 1024 < (utf8 text).length)

/-- How the line of the key begins. -/
def lanKeyStart : List Char := ['l', 'a', 'n', 'K', 'e', 'y', '=']

/-- How the line of the fingerprint begins. -/
def lanFingerprintStart : List Char :=
  ['l', 'a', 'n', 'F', 'i', 'n', 'g', 'e', 'r', 'p', 'r', 'i', 'n', 't', '=']

/-- `line.trim_start().starts_with(start)`. -/
def startsWith (start line : List Char) : Bool :=
  start.isPrefixOf (line.dropWhile HostWire.isWhitespace)

/-- The check of `read_file` for a key. -/
def containsKey (text : List Char) : Bool := (lines text).any (startsWith lanKeyStart)

/-- No bit for the group or others. -/
def isPrivate (mode : UInt32) : Bool := mode &&& 0o077 == 0

/-- What `read_to_string` gives; no file reads as the empty text. -/
def content : Option File → List Char
  | none => []
  | some file => file.text

/-- The text of the file, refused when others can read its credentials. -/
def readFile : Option File → Result (List Char)
  | none => .ok []
  | some file =>
    if tooLarge file.text then .error "settings file exceeds 1 MiB"
    else if containsKey file.text = true ∧ isPrivate file.mode = false then
      .error "Wi-Fi credentials are readable by other users; run chmod 600 on the settings file"
    else .ok file.text

/-- What `read_file` gives is the whole text. -/
theorem readFile_eq_ok {file : Option File} {data : List Char} (h : readFile file = .ok data) :
    data = content file ∧ tooLarge (content file) = false ∧
      ∀ f, file = some f → containsKey f.text = true → isPrivate f.mode = true := by
  cases file with
  | none => exact ⟨(Except.ok.inj h).symm, by decide, nofun⟩
  | some f =>
    rw [readFile] at h
    split at h
    · cases h
    next hlarge =>
    split at h
    · cases h
    next hrefused =>
    obtain rfl := Except.ok.inj h
    refine ⟨rfl, Bool.eq_false_iff.mpr hlarge, ?_⟩
    rintro _ ⟨⟩ hcontains
    exact Bool.eq_true_of_not_eq_false fun hmode => hrefused ⟨hcontains, hmode⟩

/-- A private file that is not too large is read. -/
theorem readFile_of_private {file : File} (hlarge : tooLarge file.text = false)
    (hmode : isPrivate file.mode = true) : readFile (some file) = .ok file.text := by
  rw [readFile, if_neg (Bool.eq_false_iff.mp hlarge), hmode]
  exact if_neg (by simp)

/-- `lines.join("\n")`. -/
def joinLines (ls : List (List Char)) : List Char := ['\n'].intercalate ls

/-- The text of a fallback file, without its credentials. -/
def readLoose : Option File → Result (List Char)
  | none => .ok []
  | some file =>
    if tooLarge file.text then .error "settings file exceeds 1 MiB"
    else
      .ok (joinLines ((lines file.text).filter fun line =>
        !(startsWith lanKeyStart line || startsWith lanFingerprintStart line)))

/-- `values.entry(key).or_insert(value)` for what a fallback may supply. -/
def withFallback (values fallback : Values) : Values := fun key =>
  (values key).or (if key = .lanKey ∨ key = .lanFingerprint then none else fallback key)

/-- The fallbacks, one after the other. -/
def readFallbacks (values : Values) : List (Option File) → Result Values
  | [] => .ok values
  | file :: files =>
    match readLoose file with
    | .error e => .error e
    | .ok data =>
      match parseIni data with
      | .error e => .error e
      | .ok fallback => readFallbacks (withFallback values fallback) files

variable (pipewire : Bool)

/-- `Store::read` of the primary file and the fallbacks. -/
def read (primary : Option File) (fallbacks : List (Option File)) : Result Settings :=
  match readFile primary with
  | .error e => .error e
  | .ok data =>
    match parseIni data with
    | .error e => .error e
    | .ok values =>
      match readFallbacks values fallbacks with
      | .error e => .error e
      | .ok values => Settings.fromValues pipewire values

/-- `Store::load`; `written` is how the save of a clamped wish ends. -/
def load (written : Result Unit) (primary : Option File) (fallbacks : List (Option File)) :
    Result Settings :=
  match read pipewire primary fallbacks with
  | .error e => .error e
  | .ok s =>
    if s.qualityClamped then
      match written with
      | .ok () => .ok { s with qualityClamped := false }
      | .error e =>
        .ok { s with
          qualityWarning :=
            some ("saved quality is above this edition's limit; using the best allowed " ++
            "(could not save: " ++ e ++ ")") }
    else .ok s

/-- The part of `Store::save` before it writes: the text to write over `data`. -/
def saveText (s : Settings) (data : List Char) : Result (List Char) :=
  match s.validate pipewire with
  | .error e => .error e
  | .ok () =>
    match parseIni data with
    | .error e => .error e
    | .ok values =>
      -- damaged settings are not replaced
      match Settings.fromValues pipewire values with
      | .error e => .error e
      | .ok _ => .ok (merged s.values data)

/-- The bits of a file created with mode 0600 under a umask. -/
def createdMode (umask : UInt32) : UInt32 := 0o600 &&& ~~~umask

/-- The bits of the new file are none of the group's or of others. -/
theorem isPrivate_createdMode (umask : UInt32) : isPrivate (createdMode umask) = true := by
  have hnone : (0o600 &&& ~~~umask) &&& 0o077 = 0 := by
    rw [UInt32.and_comm 0o600, UInt32.and_assoc]
    exact UInt32.and_zero
  rw [isPrivate, createdMode, hnone]
  rfl

/-- `Store::save` on Unix when every write succeeds and nobody else touches the file. -/
def save (umask : UInt32) (s : Settings) (file : Option File) : Result File :=
  match readFile file with
  | .error e => .error e
  | .ok data =>
    match saveText pipewire s data with
    | .error e => .error e
    | .ok text => .ok ⟨text, createdMode umask⟩

end HostSettings
end MobileWebcamBridge
