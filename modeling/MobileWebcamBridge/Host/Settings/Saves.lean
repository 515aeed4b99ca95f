import Mathlib.Logic.Function.Basic
import MobileWebcamBridge.Host.Settings.Ini
import MobileWebcamBridge.Lib.EventSystem
import MobileWebcamBridge.Lib.Trace

/-!
# Saves of several processes on one file

Each call of `Store::save` reads the file, writes its merged text to a temporary file of its own,
compares the file with what it read and renames. Nothing holds the file between the comparison and
the rename, and the directory is synced after it.
-/

set_option autoImplicit false

namespace MobileWebcamBridge
namespace HostSettings
namespace Saves

open Text Trace

/-- A call and the umask of its process. -/
structure Saver where
  settings : Settings
  umask : UInt32

/-- What a call does next; `data` is what it read and `text` what it will write. -/
inductive Phase
  | reading
  | preparing (data text : List Char)
  | creating (data text : List Char)
  | writing (data text : List Char)
  | syncing (data text : List Char)
  | comparing (data text : List Char)
  | replacing (data text : List Char)
  | syncingDir
  /-- The result is an error and the temporary file is being removed. -/
  | cleaning
  | returned (ok : Bool)
deriving DecidableEq

/-- The file, and the temporary file and the place of every saver. -/
structure State (ι : Type) where
  file : Option File
  temporary : ι → Option File
  phase : ι → Phase

/-- What a saver reads, finds, does and returns. -/
inductive Event (ι : Type)
  | read (i : ι) (data : List Char)
  | compared (i : ι)
  | renamed (i : ι) (old : Option File) (new : File)
  /-- The directory did not sync after the rename. -/
  | unsynced (i : ι)
  | returned (i : ι) (ok : Bool)
deriving DecidableEq

variable {ι : Type}

section machine

variable [DecidableEq ι]

namespace State

/-- A saver goes on. -/
def move (s : State ι) (i : ι) (phase : Phase) : State ι :=
  { s with phase := Function.update s.phase i phase }

/-- A saver writes or removes its temporary file. -/
def put (s : State ι) (i : ι) (temporary : Option File) : State ι :=
  { s with temporary := Function.update s.temporary i temporary }

end State

/-- The file as a call reads it; the system call may fail. -/
def readNow (ok : Bool) (file : Option File) : Result (List Char) :=
  if ok then readFile file else .error "the file could not be read"

/-- One step of a call; `ok` says whether the system call it makes succeeds. -/
def step (pipewire : Bool) (savers : ι → Saver) (s : State ι) : ι × Bool →
    Option (State ι × List (Event ι))
  | (i, ok) =>
    match s.phase i with
    | .reading =>
      match readNow ok s.file with
      | .error _ => some (s.move i (.returned false), [.returned i false])
      | .ok data =>
        match saveText pipewire (savers i).settings data with
        | .error _ => some (s.move i (.returned false), [.read i data, .returned i false])
        | .ok text => some (s.move i (.preparing data text), [.read i data])
    | .preparing data text =>
      if ok then some (s.move i (.creating data text), [])
      else some (s.move i (.returned false), [.returned i false])
    | .creating data text =>
      if ok then
        some ((s.put i (some ⟨[], createdMode (savers i).umask⟩)).move i (.writing data text), [])
      else some (s.move i .cleaning, [])
    | .writing data text =>
      if ok then
        some ((s.put i (some ⟨text, createdMode (savers i).umask⟩)).move i (.syncing data text), [])
      else some (s.move i .cleaning, [])
    | .syncing data text =>
      if ok then some (s.move i (.comparing data text), []) else some (s.move i .cleaning, [])
    | .comparing data text =>
      match readNow ok s.file with
      | .error _ => some (s.move i .cleaning, [])
      | .ok now =>
        if now = data then some (s.move i (.replacing data text), [.compared i])
        else some (s.move i .cleaning, [])
    | .replacing _ _ =>
      match s.temporary i with
      | none => some (s.move i .cleaning, [])
      | some new =>
        if ok then
          some (({ s with file := some new }.put i none).move i .syncingDir,
            [.renamed i s.file new])
        else some (s.move i .cleaning, [])
    | .syncingDir =>
      if ok then some (s.move i (.returned true), [.returned i true])
      else some (s.move i .cleaning, [.unsynced i])
    | .cleaning =>
      some ((if ok then s.put i none else s).move i (.returned false), [.returned i false])
    | .returned _ => none

/-- The calls on a path that holds `file`. -/
def system (pipewire : Bool) (savers : ι → Saver) (file : Option File) :
    EventSystem (State ι) (ι × Bool) (Event ι) where
  start s := s = ⟨file, fun _ => none, fun _ => .reading⟩
  step := step pipewire savers

end machine

/-! ## Statements -/

/-- The file the last rename left. -/
def written (file : Option File) (tr : List (Event ι)) : Option File :=
  tr.foldl (fun file e => match e with | .renamed _ _ new => some new | _ => file) file

/-- A rename that changes the text. -/
def changes : Event ι → Bool
  | .renamed _ old new => decide (new.text ≠ content old)
  | _ => false

/-- What has happened since the comparison of the call, the latest first. -/
def sinceCompared [DecidableEq ι] (i : ι) (tr : List (Event ι)) : List (Event ι) :=
  tr.reverse.takeWhile fun e => decide (e ≠ .compared i)

/-- The step of a call is none of those that go wrong. -/
def CalmAt [DecidableEq ι] (tr : List (Event ι)) (i : ι) (ok : Bool) : Phase → Prop
  | .replacing _ _ => ok = true → ∀ e ∈ sinceCompared i tr, changes e = false
  | .syncingDir => ok = true
  | _ => True

/-- No rename changes the text between the comparison of a call and its rename, and the directory
syncs after it. -/
def Calm [DecidableEq ι] (tr : List (Event ι)) (s : State ι) (l : ι × Bool) : Prop :=
  CalmAt tr l.1 l.2 (s.phase l.1)

instance [DecidableEq ι] (tr : List (Event ι)) (i : ι) (ok : Bool) (phase : Phase) :
    Decidable (CalmAt tr i ok phase) :=
  match phase with
  | .replacing _ _ =>
    inferInstanceAs (Decidable (ok = true → ∀ e ∈ sinceCompared i tr, changes e = false))
  | .syncingDir => inferInstanceAs (Decidable (ok = true))
  | .reading | .preparing _ _ | .creating _ _ | .writing _ _ | .syncing _ _ | .comparing _ _
  | .cleaning | .returned _ => .isTrue trivial

instance [DecidableEq ι] (tr : List (Event ι)) (s : State ι) (l : ι × Bool) :
    Decidable (Calm tr s l) :=
  inferInstanceAs (Decidable (CalmAt tr l.1 l.2 (s.phase l.1)))

/-- No save is lost: each rename replaced the file its call had read, by what a save of its own over
that file writes; a call that returned an error renamed nothing, one that returned otherwise did. -/
structure NoLostUpdate (pipewire : Bool) (savers : ι → Saver) (file : Option File)
    (tr : List (Event ι)) (s : State ι) : Prop where
  renamed : ∀ x i old new z, tr = x ++ Event.renamed i old new :: z →
    old = written file x ∧ (∃ data, .read i data ∈ x ∧ readFile old = .ok data) ∧
      save pipewire (savers i).umask (savers i).settings old = .ok new
  once : ∀ x i old new z, tr = x ++ Event.renamed i old new :: z →
    ∀ old' new', .renamed i old' new' ∉ x
  succeeded : ∀ i, .returned i true ∈ tr → ∃ old new, .renamed i old new ∈ tr
  failed : ∀ i, .returned i false ∈ tr → ∀ old new, .renamed i old new ∉ tr
  current : s.file = written file tr

/-! ## What a call knows -/

/-- The call a text read and its merged text belong to. -/
def Merges (pipewire : Bool) (savers : ι → Saver) (tr : List (Event ι)) (i : ι)
    (data text : List Char) : Prop :=
  .read i data ∈ tr ∧ saveText pipewire (savers i).settings data = .ok text

/-- The saver has not replaced the file. -/
def NotRenamed (tr : List (Event ι)) (i : ι) : Prop := ∀ old new, .renamed i old new ∉ tr

/-- What holds of a call at each of its phases. -/
def Knows (pipewire : Bool) (savers : ι → Saver) (file : Option File) (tr : List (Event ι)) (i : ι)
    (temporary : Option File) : Phase → Prop
  | .reading | .cleaning | .returned false => NotRenamed tr i
  | .preparing data text | .creating data text =>
    NotRenamed tr i ∧ Merges pipewire savers tr i data text
  | .writing data text => NotRenamed tr i ∧ Merges pipewire savers tr i data text
  | .syncing data text | .comparing data text =>
    NotRenamed tr i ∧ Merges pipewire savers tr i data text ∧
      temporary = some ⟨text, createdMode (savers i).umask⟩
  | .replacing data text =>
    (NotRenamed tr i ∧ Merges pipewire savers tr i data text ∧
      temporary = some ⟨text, createdMode (savers i).umask⟩) ∧
    ∃ x y, tr = x ++ Event.compared i :: y ∧ .compared i ∉ y ∧ readFile (written file x) = .ok data
  | .syncingDir | .returned true => ∃ old new, .renamed i old new ∈ tr

/-- A rename replaced the file its call had read by what a save over that file writes. -/
def Replaces (pipewire : Bool) (savers : ι → Saver) (file : Option File) (x : List (Event ι)) :
    Event ι → Prop
  | .renamed i old new =>
    old = written file x ∧ (∃ data, .read i data ∈ x ∧ readFile old = .ok data) ∧
      save pipewire (savers i).umask (savers i).settings old = .ok new ∧ NotRenamed x i
  | _ => True

/-- The file is what the renames made of it, and every saver knows what it read. -/
structure Inv (pipewire : Bool) (savers : ι → Saver) (file : Option File) (tr : List (Event ι))
    (s : State ι) : Prop where
  current : s.file = written file tr
  knows : ∀ i, Knows pipewire savers file tr i (s.temporary i) (s.phase i)
  returned : ∀ i ok, .returned i ok ∈ tr → s.phase i = .returned ok
  renamed : Each (Replaces pipewire savers file) tr

/-! ## Steps -/

/-- The temporary file exists, or is about to. -/
def Phase.busy : Phase → Bool
  | .creating _ _ | .writing _ _ | .syncing _ _ | .comparing _ _ | .replacing _ _ => true
  | _ => false

/-- What a step of the call does: its next phase, its temporary file, the file and the events. -/
inductive Moves (pipewire : Bool) (savers : ι → Saver) (s : State ι) (i : ι) (ok : Bool) :
    Phase → Option File → Option File → List (Event ι) → Prop
  | reads {data text : List Char} : s.phase i = .reading → readFile s.file = .ok data →
      saveText pipewire (savers i).settings data = .ok text →
      Moves pipewire savers s i ok (.preparing data text) (s.temporary i) s.file [.read i data]
  | refuses {es : List (Event ι)} :
      (s.phase i = .reading ∨ ∃ data text, s.phase i = .preparing data text) →
      (es = [.returned i false] ∨ ∃ data, es = [.read i data, .returned i false]) →
      Moves pipewire savers s i ok (.returned false) (s.temporary i) s.file es
  | prepares {data text : List Char} : s.phase i = .preparing data text →
      Moves pipewire savers s i ok (.creating data text) (s.temporary i) s.file []
  | creates {data text : List Char} : s.phase i = .creating data text →
      Moves pipewire savers s i ok (.writing data text) (some ⟨[], createdMode (savers i).umask⟩)
        s.file []
  | writes {data text : List Char} : s.phase i = .writing data text →
      Moves pipewire savers s i ok (.syncing data text) (some ⟨text, createdMode (savers i).umask⟩)
        s.file []
  | syncs {data text : List Char} : s.phase i = .syncing data text →
      Moves pipewire savers s i ok (.comparing data text) (s.temporary i) s.file []
  | compares {data text : List Char} : s.phase i = .comparing data text →
      readFile s.file = .ok data →
      Moves pipewire savers s i ok (.replacing data text) (s.temporary i) s.file [.compared i]
  | renames {data text : List Char} {new : File} : s.phase i = .replacing data text →
      s.temporary i = some new → ok = true →
      Moves pipewire savers s i ok .syncingDir none (some new) [.renamed i s.file new]
  | fails : (s.phase i).busy = true →
      Moves pipewire savers s i ok .cleaning (s.temporary i) s.file []
  | syncsDir : s.phase i = .syncingDir → ok = true →
      Moves pipewire savers s i ok (.returned true) (s.temporary i) s.file [.returned i true]
  | loses : s.phase i = .syncingDir → ok = false →
      Moves pipewire savers s i ok .cleaning (s.temporary i) s.file [.unsynced i]
  | cleans {temporary : Option File} : s.phase i = .cleaning →
      Moves pipewire savers s i ok (.returned false) temporary s.file [.returned i false]

variable {pipewire : Bool} {savers : ι → Saver} {file : Option File} {tr es : List (Event ι)}
  {s s' : State ι} {i : ι} {ok : Bool}

/-- What a saver reads is the file's text. -/
theorem readFile_of_readNow {data : List Char} (h : readNow ok file = .ok data) :
    readFile file = .ok data := by
  unfold readNow at h
  split at h
  · exact h
  · cases h

/-- Every step is one of the moves. -/
theorem step_moves [DecidableEq ι] (h : step pipewire savers s (i, ok) = some (s', es)) :
    ∃ phase temporary, Moves pipewire savers s i ok phase temporary s'.file es ∧
      s'.phase = Function.update s.phase i phase ∧
      s'.temporary = Function.update s.temporary i temporary := by
  -- most moves leave the temporary file
  have hkeep : s.temporary = Function.update s.temporary i (s.temporary i) :=
    (Function.update_eq_self i s.temporary).symm
  unfold step at h
  dsimp only at h
  split at h
  · next hphase =>
    split at h
    · obtain ⟨rfl, rfl⟩ := by simpa using h
      exact ⟨_, _, .refuses (.inl hphase) (.inl rfl), rfl, hkeep⟩
    next data hread =>
    split at h
    · obtain ⟨rfl, rfl⟩ := by simpa using h
      exact ⟨_, _, .refuses (.inl hphase) (.inr ⟨data, rfl⟩), rfl, hkeep⟩
    next text htext =>
    obtain ⟨rfl, rfl⟩ := by simpa using h
    exact ⟨_, _, .reads hphase (readFile_of_readNow hread) htext, rfl, hkeep⟩
  · next data text hphase =>
    split at h
    · obtain ⟨rfl, rfl⟩ := by simpa using h
      exact ⟨_, _, .prepares hphase, rfl, hkeep⟩
    · obtain ⟨rfl, rfl⟩ := by simpa using h
      exact ⟨_, _, .refuses (.inr ⟨data, text, hphase⟩) (.inl rfl), rfl, hkeep⟩
  · next data text hphase =>
    split at h
    · obtain ⟨rfl, rfl⟩ := by simpa using h
      exact ⟨_, _, .creates hphase, rfl, rfl⟩
    · obtain ⟨rfl, rfl⟩ := by simpa using h
      exact ⟨_, _, .fails (by rw [hphase]; rfl), rfl, hkeep⟩
  · next data text hphase =>
    split at h
    · obtain ⟨rfl, rfl⟩ := by simpa using h
      exact ⟨_, _, .writes hphase, rfl, rfl⟩
    · obtain ⟨rfl, rfl⟩ := by simpa using h
      exact ⟨_, _, .fails (by rw [hphase]; rfl), rfl, hkeep⟩
  · next data text hphase =>
    split at h
    · obtain ⟨rfl, rfl⟩ := by simpa using h
      exact ⟨_, _, .syncs hphase, rfl, hkeep⟩
    · obtain ⟨rfl, rfl⟩ := by simpa using h
      exact ⟨_, _, .fails (by rw [hphase]; rfl), rfl, hkeep⟩
  · next data text hphase =>
    split at h
    · obtain ⟨rfl, rfl⟩ := by simpa using h
      exact ⟨_, _, .fails (by rw [hphase]; rfl), rfl, hkeep⟩
    next now hread =>
    split at h
    · next hsame =>
      obtain ⟨rfl, rfl⟩ := by simpa using h
      exact ⟨_, _, .compares hphase (hsame ▸ readFile_of_readNow hread), rfl, hkeep⟩
    · obtain ⟨rfl, rfl⟩ := by simpa using h
      exact ⟨_, _, .fails (by rw [hphase]; rfl), rfl, hkeep⟩
  · next data text hphase =>
    split at h
    · obtain ⟨rfl, rfl⟩ := by simpa using h
      exact ⟨_, _, .fails (by rw [hphase]; rfl), rfl, hkeep⟩
    next new htemporary =>
    split at h
    · next hok =>
      obtain ⟨rfl, rfl⟩ := by simpa using h
      exact ⟨_, _, .renames hphase htemporary hok, rfl, rfl⟩
    · obtain ⟨rfl, rfl⟩ := by simpa using h
      exact ⟨_, _, .fails (by rw [hphase]; rfl), rfl, hkeep⟩
  · next hphase =>
    split at h
    · next hok =>
      obtain ⟨rfl, rfl⟩ := by simpa using h
      exact ⟨_, _, .syncsDir hphase hok, rfl, hkeep⟩
    · next hok =>
      obtain ⟨rfl, rfl⟩ := by simpa using h
      exact ⟨_, _, .loses hphase (Bool.eq_false_iff.mpr hok), rfl, hkeep⟩
  · next hphase =>
    obtain ⟨rfl, rfl⟩ := by simpa using h
    cases ok with
    | false => exact ⟨_, _, .cleans hphase, rfl, hkeep⟩
    | true => exact ⟨_, _, .cleans hphase, rfl, rfl⟩
  · cases h

/-- The saver of an event. -/
def Event.caller : Event ι → ι
  | .read i _ | .compared i | .renamed i _ _ | .unsynced i | .returned i _ => i

section moves

variable {phase : Phase} {temporary current : Option File}

/-- The events of a step are its saver's. -/
theorem Moves.caller (h : Moves pipewire savers s i ok phase temporary current es) :
    ∀ e ∈ es, e.caller = i := by
  intro e he
  cases h with
  | refuses _ hes =>
    rcases hes with rfl | ⟨data, rfl⟩
    · obtain rfl := by simpa using he
      rfl
    · rcases List.mem_cons.mp he with rfl | he
      · rfl
      · obtain rfl := by simpa using he
        rfl
  | prepares | creates | writes | syncs | fails => cases he
  | reads | compares | renames | syncsDir | loses | cleans =>
    obtain rfl := by simpa using he
    rfl

/-- A call that has returned does not move. -/
theorem Moves.not_returned (h : Moves pipewire savers s i ok phase temporary current es)
    (b : Bool) :
    s.phase i ≠ .returned b := by
  intro hphase
  cases h with
  | refuses hbefore =>
    rcases hbefore with hbefore | ⟨_, _, hbefore⟩
    · rw [hbefore] at hphase
      cases hphase
    · rw [hbefore] at hphase
      cases hphase
  | fails hbusy =>
    rw [hphase] at hbusy
    cases hbusy
  | reads hbefore | prepares hbefore | creates hbefore | writes hbefore | syncs hbefore
  | compares hbefore | renames hbefore | syncsDir hbefore | loses hbefore | cleans hbefore =>
    rw [hbefore] at hphase
    cases hphase

theorem Moves.returns (h : Moves pipewire savers s i ok phase temporary current es) {b : Bool}
    (hmem : .returned i b ∈ es) : phase = .returned b := by
  cases h with
  | refuses _ hes =>
    rcases hes with rfl | ⟨data, rfl⟩
    · obtain rfl := by simpa using hmem
      rfl
    · obtain rfl := by simpa using hmem
      rfl
  | syncsDir =>
    obtain rfl := by simpa using hmem
    rfl
  | cleans =>
    obtain rfl := by simpa using hmem
    rfl
  | _ => simp at hmem

/-- The file changes with the rename only. -/
theorem Moves.file_eq (h : Moves pipewire savers s i ok phase temporary current es) :
    current = written s.file es := by
  cases h with
  | refuses _ hes =>
    rcases hes with rfl | ⟨data, rfl⟩
    · rfl
    · rfl
  | _ => rfl

/-- What is renamed is the temporary file, over the file. -/
theorem Moves.of_renamed (h : Moves pipewire savers s i ok phase temporary current es) {j : ι}
    {old : Option File} {new : File} (hmem : .renamed j old new ∈ es) :
    es = [.renamed i s.file new] ∧ j = i ∧ old = s.file ∧ s.temporary i = some new ∧ ok = true ∧
      ∃ data text, s.phase i = .replacing data text := by
  cases h with
  | renames hphase htemporary hok =>
    obtain ⟨rfl, rfl, rfl⟩ := by simpa using hmem
    exact ⟨rfl, rfl, rfl, htemporary, hok, _, _, hphase⟩
  | refuses _ hes =>
    rcases hes with rfl | ⟨data, rfl⟩
    · simp at hmem
    · simp at hmem
  | _ => simp at hmem

end moves

/-! ## What a step preserves -/

/-- The file after more events. -/
theorem written_append (file : Option File) (tr es : List (Event ι)) :
    written file (tr ++ es) = written (written file tr) es :=
  List.foldl_append

theorem NotRenamed.append (h : NotRenamed tr i) (hes : ∀ old new, .renamed i old new ∉ es) :
    NotRenamed (tr ++ es) i := by
  intro old new hmem
  rcases List.mem_append.mp hmem with hmem | hmem
  · exact h old new hmem
  · exact hes old new hmem

/-- A text stays merged from what was read. -/
theorem Merges.append {data text : List Char} (h : Merges pipewire savers tr i data text)
    (es : List (Event ι)) : Merges pipewire savers (tr ++ es) i data text :=
  ⟨List.mem_append_left _ h.1, h.2⟩

/-- What a call knows stays true while others move. -/
theorem Knows.append {temporary : Option File} {phase : Phase}
    (h : Knows pipewire savers file tr i temporary phase) (hes : ∀ e ∈ es, e.caller ≠ i) :
    Knows pipewire savers file (tr ++ es) i temporary phase := by
  have hnot : ∀ old new, .renamed i old new ∉ es := fun old new hmem => hes _ hmem rfl
  cases phase with
  | reading | cleaning => exact NotRenamed.append h hnot
  | preparing data text | creating data text | writing data text =>
    exact ⟨h.1.append hnot, h.2.append es⟩
  | syncing data text | comparing data text => exact ⟨h.1.append hnot, h.2.1.append es, h.2.2⟩
  | replacing data text =>
    obtain ⟨⟨hbefore, hmerges, htemporary⟩, x, y, rfl, hy, hread⟩ := h
    refine ⟨⟨hbefore.append hnot, hmerges.append es, htemporary⟩, x, y ++ es, by simp, ?_, hread⟩
    intro hmem
    rcases List.mem_append.mp hmem with hmem | hmem
    · exact hy hmem
    · exact hes _ hmem rfl
  | syncingDir =>
    obtain ⟨old, new, hmem⟩ := h
    exact ⟨old, new, List.mem_append_left _ hmem⟩
  | returned b =>
    cases b with
    | false => exact NotRenamed.append h hnot
    | true =>
      obtain ⟨old, new, hmem⟩ := h
      exact ⟨old, new, List.mem_append_left _ hmem⟩

/-- A saver that is busy has not renamed. -/
theorem Knows.of_busy {temporary : Option File} {phase : Phase}
    (h : Knows pipewire savers file tr i temporary phase) (hbusy : phase.busy = true) :
    NotRenamed tr i := by
  cases phase with
  | creating | writing | syncing | comparing => exact h.1
  | replacing => exact h.1.1
  | _ => cases hbusy

/-- A save writes the file private. -/
theorem mode_of_save {umask : UInt32} {settings : Settings} {old : Option File} {new : File}
    (h : save pipewire umask settings old = .ok new) : new.mode = createdMode umask := by
  unfold save at h
  split at h
  · cases h
  split at h
  · cases h
  obtain rfl := Except.ok.inj h
  rfl

/-- While no rename changes the text, the file reads as before. -/
theorem Inv.readFile_written (h : Inv pipewire savers file tr s) {x y : List (Event ι)}
    {data : List Char} (rest : List (Event ι)) (htr : tr = x ++ (y ++ rest))
    (hread : readFile (written file x) = .ok data)
    (hy : ∀ e ∈ y, changes e = false) : readFile (written file (x ++ y)) = .ok data := by
  induction y using List.reverseRecOn generalizing rest with
  | nil => rwa [List.append_nil]
  | append_singleton y e ih =>
    have hbefore := ih (e :: rest) (by simpa using htr)
      fun e he => hy e (List.mem_append_left _ he)
    have hsame := hy e (List.mem_append_right _ List.mem_cons_self)
    rw [← List.append_assoc, written_append]
    cases e with
    | renamed j old new =>
      obtain ⟨rfl, -, hsave, -⟩ := h.renamed (x ++ y) (.renamed j old new) rest (by simpa using htr)
      have htext : new.text = content (written file (x ++ y)) := by
        simpa [changes] using hsame
      obtain ⟨rfl, hlarge, -⟩ := readFile_eq_ok hbefore
      rw [← htext] at hlarge ⊢
      apply readFile_of_private hlarge
      rw [mode_of_save hsave]
      exact isPrivate_createdMode _
    | _ => exact hbefore

/-- What came since the comparison. -/
theorem sinceCompared_eq [DecidableEq ι] {x y : List (Event ι)}
    (htr : tr = x ++ Event.compared i :: y)
    (hy : .compared i ∉ y) : ∀ e ∈ y, e ∈ sinceCompared i tr := by
  intro e he
  have hall : ∀ e ∈ y.reverse, decide (e ≠ .compared i) = true := by
    intro e he
    rw [List.mem_reverse] at he
    exact decide_eq_true fun heq => hy (heq ▸ he)
  rw [sinceCompared, htr, List.reverse_append, List.reverse_cons, List.append_assoc,
    List.takeWhile_append_of_pos hall]
  exact List.mem_append_left _ (List.mem_reverse.mpr he)

section preserved

variable [DecidableEq ι] {phase : Phase} {temporary current : Option File}

/-- What the call that moves knows afterwards. -/
theorem Moves.knows (h : Moves pipewire savers s i ok phase temporary current es)
    (hcalm : Calm tr s (i, ok)) (hcurrent : s.file = written file tr)
    (hk : Knows pipewire savers file tr i (s.temporary i) (s.phase i)) :
    Knows pipewire savers file (tr ++ es) i temporary phase := by
  cases h with
  | @reads data text hphase _ htext =>
    rw [hphase] at hk
    exact ⟨NotRenamed.append hk (by simp), List.mem_append_right _ List.mem_cons_self, htext⟩
  | refuses hphase hes =>
    have hbefore : NotRenamed tr i := by
      rcases hphase with hphase | ⟨data, text, hphase⟩
      · rw [hphase] at hk
        exact hk
      · rw [hphase] at hk
        exact hk.1
    apply hbefore.append
    rcases hes with rfl | ⟨data, rfl⟩
    · simp
    · simp
  | prepares hphase | creates hphase =>
    rw [hphase] at hk
    rw [List.append_nil]
    exact hk
  | writes hphase =>
    rw [hphase] at hk
    rw [List.append_nil]
    exact ⟨hk.1, hk.2, rfl⟩
  | syncs hphase =>
    rw [hphase] at hk
    rw [List.append_nil]
    exact hk
  | compares hphase hread =>
    rw [hphase] at hk
    obtain ⟨hbefore, hmerges, htemporary⟩ := hk
    rw [hcurrent] at hread
    exact ⟨⟨hbefore.append (by simp), hmerges.append _, htemporary⟩, tr, [], rfl, by simp, hread⟩
  | renames => exact ⟨_, _, List.mem_append_right _ List.mem_cons_self⟩
  | fails hbusy =>
    rw [List.append_nil]
    exact hk.of_busy hbusy
  | syncsDir hphase =>
    rw [hphase] at hk
    obtain ⟨old, new, hmem⟩ := hk
    exact ⟨old, new, List.mem_append_left _ hmem⟩
  | loses hphase hok =>
    -- the directory syncs
    rw [Calm, hphase] at hcalm
    have hsynced : ok = true := hcalm
    rw [hok] at hsynced
    cases hsynced
  | cleans hphase =>
    rw [hphase] at hk
    exact NotRenamed.append hk (by simp)

/-- A rename replaces the file its call had read. -/
theorem Inv.renames (h : Inv pipewire savers file tr s)
    (hm : Moves pipewire savers s i ok phase temporary current es) (hcalm : Calm tr s (i, ok))
    {j : ι} {old : Option File} {new : File} (hmem : .renamed j old new ∈ es) :
    Replaces pipewire savers file tr (.renamed j old new) := by
  obtain ⟨-, rfl, rfl, hnew, rfl, data, text, hphase⟩ := hm.of_renamed hmem
  have hk := h.knows j
  rw [hphase] at hk
  obtain ⟨⟨hbefore, ⟨hdata, htext⟩, htemporary⟩, x, y, htr, hy, hread⟩ := hk
  rw [Calm, hphase] at hcalm
  have hsame : ∀ e ∈ y, changes e = false := fun e he => hcalm rfl e (sinceCompared_eq htr hy e he)
  -- so the file is still what the comparison saw
  have hnow : readFile s.file = .ok data := by
    rw [h.current, htr]
    apply h.readFile_written []
    · rw [List.append_nil, htr]
    · exact hread
    · intro e he
      rcases List.mem_cons.mp he with rfl | he
      · rfl
      · exact hsame e he
  obtain rfl := Option.some.inj (hnew.symm.trans htemporary)
  refine ⟨h.current, ⟨data, hdata, hnow⟩, ?_, hbefore⟩
  rw [save, hnow]
  dsimp only
  rw [htext]

/-- Every calm step keeps the invariant. -/
theorem Inv.step (h : Inv pipewire savers file tr s) (hcalm : Calm tr s (i, ok))
    (hs : step pipewire savers s (i, ok) = some (s', es)) :
    Inv pipewire savers file (tr ++ es) s' := by
  obtain ⟨phase, temporary, hm, hphase, htemporary⟩ := step_moves hs
  constructor
  · rw [written_append, ← h.current]
    exact hm.file_eq
  · intro j
    rw [hphase, htemporary]
    by_cases hj : j = i
    · subst hj
      rw [Function.update_self, Function.update_self]
      exact hm.knows hcalm h.current (h.knows j)
    · rw [Function.update_of_ne hj, Function.update_of_ne hj]
      exact (h.knows j).append fun e he heq => hj (heq.symm.trans (hm.caller e he))
  · intro j b hmem
    rw [hphase]
    rcases List.mem_append.mp hmem with hmem | hmem
    · have hbefore := h.returned j b hmem
      have hj : j ≠ i := by
        rintro rfl
        exact hm.not_returned b hbefore
      rw [Function.update_of_ne hj]
      exact hbefore
    · obtain rfl : j = i := hm.caller _ hmem
      rw [Function.update_self]
      exact hm.returns hmem
  · apply h.renamed.append
    intro x e y hx
    cases e with
    | renamed j old new =>
      have hmem : .renamed j old new ∈ es := hx ▸ List.mem_append_right _ List.mem_cons_self
      obtain ⟨hes, -⟩ := hm.of_renamed hmem
      -- it is the only event of its step
      cases x with
      | nil =>
        rw [List.append_nil]
        exact h.renames hm hcalm hmem
      | cons e x =>
        rw [hes] at hx
        simp at hx
    | _ => trivial

/-- So does every calm run. -/
theorem inv_of_calm (h : (system pipewire savers file).Under Calm tr s) :
    Inv pipewire savers file tr s := by
  apply h.invariant
  · rintro s rfl
    exact ⟨rfl, fun i => by simp [Knows, NotRenamed], by simp, each_nil⟩
  · rintro tr s ⟨i, ok⟩ s' es - hcalm hinv hs
    exact hinv.step hcalm hs

end preserved

/-! ## The law -/

/-- In a calm run no save is lost. -/
theorem saves_not_lost [DecidableEq ι] (h : (system pipewire savers file).Under Calm tr s) :
    NoLostUpdate pipewire savers file tr s := by
  have hinv := inv_of_calm h
  constructor
  · intro x i old new z htr
    obtain ⟨hold, hread, hsave, -⟩ := hinv.renamed x _ z htr
    exact ⟨hold, hread, hsave⟩
  · intro x i old new z htr
    obtain ⟨-, -, -, honce⟩ := hinv.renamed x _ z htr
    exact honce
  · intro i hmem
    have hk := hinv.knows i
    rw [hinv.returned i true hmem] at hk
    exact hk
  · intro i hmem
    have hk := hinv.knows i
    rw [hinv.returned i false hmem] at hk
    exact hk
  · exact hinv.current

/-- Two processes: one turns the picture, the other stops mirroring it. -/
def twoSavers : Bool → Saver
  | false => ⟨{ Settings.default with rotation := 90 }, 0o022⟩
  | true => ⟨{ Settings.default with mirror := false }, 0o022⟩

/-- A call from its first step to its last, every system call succeeding. -/
def wholeSave (i : Bool) : List (Bool × Bool) := List.replicate 8 (i, true)

/-- Two savers before the first save. -/
def idle : State Bool := ⟨none, fun _ => none, fun _ => .reading⟩

/-- One save after the other. -/
def savesInTurn : List (Bool × Bool) := wholeSave false ++ wholeSave true

/-- Two saves one after the other. -/
theorem saves_not_lost_inTurn :
    .returned false true ∈ (system true twoSavers none).trace idle savesInTurn ∧
      .returned true true ∈ (system true twoSavers none).trace idle savesInTurn ∧
      NoLostUpdate true twoSavers none ((system true twoSavers none).trace idle savesInTurn)
        ((system true twoSavers none).final idle savesInTurn) := by
  have hrun : (system true twoSavers none).Under Calm _ _ :=
    EventSystem.under_trace savesInTurn (s := idle) rfl (by decide +kernel) (by decide +kernel)
  exact ⟨by decide +kernel, by decide +kernel, saves_not_lost hrun⟩

/-- Both calls pass their comparison before either renames. -/
def crossedSaves : List (Bool × Bool) :=
  List.replicate 6 (false, true) ++
  (List.replicate 8 (true, true) ++ List.replicate 2 (false, true))

/-- The file a call of the two leaves when it finds none. -/
def firstFile (i : Bool) : File := ⟨merged (twoSavers i).settings.values [], createdMode 0o022⟩

/-- The second rename replaces a file its call never read. -/
theorem update_lost :
    ∃ tr s, (system true twoSavers none).Reaches tr s ∧ .returned false true ∈ tr ∧
      .returned true true ∈ tr ∧ ¬NoLostUpdate true twoSavers none tr s := by
  refine ⟨_, _, EventSystem.reaches_trace crossedSaves rfl (by decide +kernel), by decide +kernel,
    by decide +kernel, ?_⟩
  intro h
  obtain ⟨-, ⟨data, hdata, hread⟩, -⟩ := h.renamed
    [.read false [], .compared false, .read true [], .compared true,
      .renamed true none (firstFile true), .returned true true]
    false (some (firstFile true)) (firstFile false) [.returned false true] (by decide +kernel)
  obtain rfl : data = [] := by simpa using hdata
  obtain ⟨hempty, -⟩ := readFile_eq_ok hread
  have hne : content (some (firstFile true)) ≠ [] := by decide +kernel
  exact hne hempty.symm

end Saves
end HostSettings
end MobileWebcamBridge
