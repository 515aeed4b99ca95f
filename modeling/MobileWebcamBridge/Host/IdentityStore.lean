import MobileWebcamBridge.Host.Identity
import MobileWebcamBridge.Lib.Directory
import MobileWebcamBridge.Lib.EventSystem

/-!
# `identity/store.rs`: the key of this PC on disk

Calls of `load_at` and `replace_at` on one path take their file operations in turn, and any of them
may crash between two. A label hands the call that moves what its operation met: whether it failed,
the clock, the encoding of a generated key.
-/

set_option autoImplicit false

namespace MobileWebcamBridge
namespace IdentityStore

open Unicode HostIdentity

/-- The result of a call, with the text of its error. -/
abbrev Result (α : Type) := Except String α

/-- A quarantine name: `.corrupt-`, the second, and which attempt in it. -/
structure Slot where
  sinceEpoch : ℕ
  attempt : ℕ
deriving DecidableEq, Repr

/-- The name under which a damaged key is kept. -/
def Slot.display (path : String) (slot : Slot) : String :=
  path ++ ".corrupt-" ++ toString slot.sinceEpoch ++
    (if slot.attempt = 0 then "" else "-" ++ toString slot.attempt)

/-- The names in the directory of the key. -/
inductive Name
  | identity
  | temporary (clientId : List UInt8)
  | corrupt (slot : Slot)
deriving DecidableEq, Repr

/-- What `read_stored` can tell about a file. -/
structure StoredFile where
  text : List Char
  /-- A regular file of this user that nobody else may access, as a file made with mode 0600 is. -/
  ours : Bool
deriving DecidableEq

/-- The directory of the key. -/
abbrev Disk := Directory Name StoredFile

/-- The longest file that is taken for a key. -/
def MAX_STORED_BYTES : ℕ := 4096

variable (C : Crypto)

/-- What `read_at` makes of the file it opened. -/
def readStored (file : StoredFile) : Result (Identity C) :=
  if MAX_STORED_BYTES < (utf8 file.text).length then .error "invalid PC identity file type or size"
  else if !file.ours then
    .error "PC identity must be owned by this user and accessible only to this user"
  else
    match Identity.fromHex C file.text with
    | some identity => .ok identity
    | none => .error "PC identity is corrupt; explicit recovery required (file preserved)"

variable {C}

/-- The complete file of a key. -/
def keyFile (identity : Identity C) : StoredFile := ⟨identity.toHex, true⟩

/-- A file just created. -/
def emptyFile : StoredFile := ⟨[], true⟩

theorem readStored_keyFile (identity : Identity C) :
    readStored C (keyFile identity) = .ok identity := by
  have hlength : ¬MAX_STORED_BYTES < (utf8 (keyFile identity).text).length :=
    Nat.not_lt.mpr identity.length_toHex
  have hours : ¬(!(keyFile identity).ours) = true := Bool.false_ne_true
  rw [readStored, if_neg hlength, if_neg hours, keyFile, identity.fromHex_toHex]

/-! ## Calls -/

/-- What a call does next. -/
inductive Phase (C : Crypto)
  | checking
  | reserving (slot : Slot)
  | movingAside (slot : Slot)
  /-- The rename failed; the reserved name goes. -/
  | discarding (slot : Slot) (error : String)
  | opening
  | reading (file : ℕ)
  | preparing
  | creating (identity : Identity C)
  | writing (identity : Identity C) (file : ℕ)
  | syncing (identity : Identity C) (file : ℕ)
  | linking (identity : Identity C) (file : ℕ)
  | syncingDir (identity : Identity C)
  /-- Another key was there first. -/
  | reopening (identity : Identity C)
  | rereading (identity : Identity C) (file : ℕ)
  /-- `load_at` has its result and `Cleanup` is dropped. -/
  | cleaning (identity : Identity C) (result : Result (Identity C))
  | returned
  | crashed

/-- One call of `load_at` or `replace_at`. -/
structure Call (C : Crypto) where
  /-- Where this call has moved the old key. -/
  aside : Option Slot
  phase : Phase C

/-- What the calls do to the path, and what they return. -/
inductive Event (C : Crypto)
  /-- The file became the key of the path. -/
  | published (i file : ℕ) (identity : Identity C)
  /-- The key of the path was moved to the slot. -/
  | aside (i file : ℕ) (slot : Slot)
  | loaded (i : ℕ) (identity : Identity C)
  | replaced (i : ℕ) (slot : Slot)
  | failed (i : ℕ) (error : String)
deriving DecidableEq

/-- What a step meets. -/
structure Env where
  /-- How the system call it makes ends, the existence of names apart. -/
  io : Result Unit
  /-- The encoding of a generated key. -/
  der : List UInt8
  now : ℕ
  /-- How much a failing write has written. -/
  written : ℕ

/-- The call goes on at a phase. -/
def Call.goes (c : Call C) (d : Disk) (phase : Phase C) :
    Option (Disk × Call C × List (Event C)) :=
  some (d, { c with phase }, [])

/-- How a call ends with the result of its `load_at`. -/
def outcome (path : String) (i : ℕ) (aside : Option Slot) : Result (Identity C) → Event C
  | .ok identity =>
    match aside with
    | none => .loaded i identity
    | some slot => .replaced i slot
  | .error e =>
    match aside with
    | none => .failed i e
    | some slot =>
      .failed i ("the old key was moved to " ++ slot.display path ++
        " but a new one could not be created: " ++ e)

/-- The call returns. -/
def Call.ends (c : Call C) (path : String) (d : Disk) (i : ℕ) (result : Result (Identity C)) :
    Option (Disk × Call C × List (Event C)) :=
  some (d, { c with phase := .returned }, [outcome path i c.aside result])

/-- `let _ = fs::remove_file(name)`. -/
def removed (d : Disk) (env : Env) (name : Name) : Disk :=
  match env.io with
  | .ok () => d.remove name
  | .error _ => d

variable (path : String)

/-- The steps of `replace_at` up to its `load_at`. -/
def stepReplace (d : Disk) (i : ℕ) (c : Call C) (env : Env) :
    Option (Disk × Call C × List (Event C)) :=
  match c.phase with
  | .checking =>
    match env.io, d.entry .identity with
    | .ok (), some _ => c.goes d (.reserving ⟨env.now, 0⟩)
    | _, _ => c.ends path d i (.error "there is no stored PC key to move aside")
  | .reserving slot =>
    if 1000 ≤ slot.attempt then
      c.ends path d i
        (.error "too many quarantined copies of the stored PC key; move them away first")
    else
      match env.io, d.entry (.corrupt slot) with
      | .error e, _ => c.ends path d i (.error e)
      | .ok (), some _ => c.goes d (.reserving ⟨slot.sinceEpoch, slot.attempt + 1⟩)
      | .ok (), none => c.goes (d.create (.corrupt slot) emptyFile) (.movingAside slot)
  | .movingAside slot =>
    match env.io, d.entry .identity with
    | .error e, _ => c.goes d (.discarding slot e)
    | .ok (), none => c.goes d (.discarding slot "No such file or directory")
    | .ok (), some file =>
      -- whether the directory syncs is ignored
      some (d.rename .identity (.corrupt slot), ⟨some slot, .opening⟩, [.aside i file slot])
  | .discarding slot e => c.ends path (removed d env (.corrupt slot)) i (.error e)
  | _ => none

/-- The steps of `load_at`. -/
def stepLoad (d : Disk) (i : ℕ) (c : Call C) (env : Env) :
    Option (Disk × Call C × List (Event C)) :=
  match c.phase with
  | .opening =>
    match env.io, d.entry .identity with
    | .error e, _ => c.ends path d i (.error e)
    | .ok (), none => c.goes d .preparing
    | .ok (), some file => c.goes d (.reading file)
  | .reading file =>
    match env.io, d.files[file]? with
    | _, none => none
    | .error e, some _ => c.ends path d i (.error e)
    | .ok (), some stored => c.ends path d i (readStored C stored)
  | .preparing =>
    -- the directory, its owner and its mode; then `Identity::generate`
    match env.io, Identity.fromDer C env.der with
    | .error e, _ => c.ends path d i (.error e)
    | .ok (), none => none
    | .ok (), some identity => c.goes d (.creating identity)
  | .creating identity =>
    match env.io, d.entry (.temporary identity.clientId) with
    | .error e, _ => c.ends path d i (.error e)
    | .ok (), some _ => c.ends path d i (.error "File exists")
    | .ok (), none =>
      c.goes (d.create (.temporary identity.clientId) emptyFile) (.writing identity d.files.length)
  | .writing identity file =>
    match env.io with
    | .error e =>
      c.goes (d.write file ⟨identity.toHex.take env.written, true⟩) (.cleaning identity (.error e))
    | .ok () => c.goes (d.write file (keyFile identity)) (.syncing identity file)
  | .syncing identity file =>
    match env.io with
    | .error e => c.goes d (.cleaning identity (.error e))
    | .ok () => c.goes d (.linking identity file)
  | .linking identity _ =>
    match env.io, d.entry (.temporary identity.clientId), d.entry .identity with
    | .error e, _, _ => c.goes d (.cleaning identity (.error e))
    | .ok (), none, _ => c.goes d (.cleaning identity (.error "No such file or directory"))
    | .ok (), some _, some _ => c.goes d (.reopening identity)
    | .ok (), some file, none =>
      some (d.link file .identity, { c with phase := .syncingDir identity },
        [.published i file identity])
  | .syncingDir identity =>
    match env.io with
    | .error e => c.goes d (.cleaning identity (.error e))
    | .ok () => c.goes d (.cleaning identity (.ok identity))
  | .reopening identity =>
    match env.io, d.entry .identity with
    | .error e, _ => c.goes d (.cleaning identity (.error e))
    | .ok (), none =>
      c.goes d
        (.cleaning identity (.error "PC identity changed during creation; reconnect explicitly"))
    | .ok (), some file => c.goes d (.rereading identity file)
  | .rereading identity file =>
    match env.io, d.files[file]? with
    | _, none => none
    | .error e, some _ => c.goes d (.cleaning identity (.error e))
    | .ok (), some stored => c.goes d (.cleaning identity (readStored C stored))
  | .cleaning identity result =>
    c.ends path (removed d env (.temporary identity.clientId)) i result
  | _ => none

/-- One step of a call, by the function it is in. -/
def stepCall (d : Disk) (i : ℕ) (c : Call C) (env : Env) :
    Option (Disk × Call C × List (Event C)) :=
  match c.phase with
  | .checking | .reserving _ | .movingAside _ | .discarding _ _ => stepReplace path d i c env
  | _ => stepLoad path d i c env

/-! ## The system -/

/-- The directory and the calls of all processes. -/
structure State (C : Crypto) where
  disk : Disk
  calls : List (Call C)

/-- A process calls, or a call takes its next step. -/
inductive Label
  /-- A process calls `load_at`. -/
  | load
  /-- A process calls `replace_at`. -/
  | replace
  | step (i : ℕ) (env : Env)
  | crash (i : ℕ)

/-- One step of the system. -/
def step (s : State C) : Label → Option (State C × List (Event C))
  | .load => some ({ s with calls := s.calls ++ [⟨none, .opening⟩] }, [])
  | .replace => some ({ s with calls := s.calls ++ [⟨none, .checking⟩] }, [])
  | .step i env =>
    match s.calls[i]? with
    | none => none
    | some c =>
      match stepCall path s.disk i c env with
      | none => none
      | some (disk, c, es) => some (⟨disk, s.calls.set i c⟩, es)
  | .crash i =>
    match s.calls[i]? with
    | none => none
    | some c => some ({ s with calls := s.calls.set i { c with phase := .crashed } }, [])

/-- The calls on a disk. -/
def system (C : Crypto) (path : String) (disk : Disk) :
    EventSystem (State C) Label (Event C) where
  start s := s = ⟨disk, []⟩
  step := step path

end IdentityStore
end MobileWebcamBridge
