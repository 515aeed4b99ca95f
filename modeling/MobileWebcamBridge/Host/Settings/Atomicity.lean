import MobileWebcamBridge.Host.Settings.Credentials
import MobileWebcamBridge.Host.Settings.Saves

/-!
# One save and what can fail in it

A call of `Store::save` with no other process at the file, each of its system calls failing or not.
The rename is the one step that touches the file, so two things are left: whether the merged text is
still of a size that `read_file` takes, and whether the directory syncs after the rename, where the
call returns an error although the file is replaced.
-/

set_option autoImplicit false

namespace MobileWebcamBridge
namespace HostSettings
namespace Saves

open Text

/-- What a save puts in the place of the file. -/
def replacement (saver : Saver) (file : Option File) : File :=
  ⟨merged saver.settings.values (content file), createdMode saver.umask⟩

/-- The one call of a process that is alone at the file. -/
abbrev alone (pipewire : Bool) (saver : Saver) (file : Option File) :
    EventSystem (State Unit) (Unit × Bool) (Event Unit) :=
  system pipewire (fun _ => saver) file

/-- A call that returned `Ok` left a file that loads, one that returned an error the same bytes. -/
structure Safe (pipewire : Bool) (fallbacks : List (Option File)) (file : Option File)
    (s : State Unit) : Prop where
  loads : s.phase () = .returned true →
    ∀ written, ∃ t, load pipewire written s.file fallbacks = .ok t
  unchanged : s.phase () = .returned false → s.file.map File.text = file.map File.text

/-- After a rename the directory synced and the text is of a size that is read, or it did not sync
and the text is the one that was there. -/
def Fits (saver : Saver) (file : Option File) (tr : List (Event Unit)) : Prop :=
  (∃ old new, .renamed () old new ∈ tr) →
    if .unsynced () ∈ tr then file.map File.text = some (replacement saver file).text
    else tooLarge (replacement saver file).text = false

variable {pipewire : Bool} {saver : Saver} {file : Option File} {fallbacks : List (Option File)}
variable {tr es : List (Event Unit)} {s s' : State Unit}

/-! ## What the call has done -/

/-- The text a call writes is the merged one, of settings that are accepted. -/
theorem saveText_eq_ok {settings : Settings} {data text : List Char}
    (h : saveText pipewire settings data = .ok text) :
    settings.validate pipewire = .ok () ∧ text = merged settings.values data := by
  unfold saveText at h
  split at h
  · cases h
  next hvalid =>
  split at h
  · cases h
  split at h
  · cases h
  · exact ⟨hvalid, (Except.ok.inj h).symm⟩

/-- The save has not replaced the file. -/
structure Before (file : Option File) (tr : List (Event Unit)) (current : Option File) : Prop where
  file : current = file
  renamed : ∀ old new, .renamed () old new ∉ tr
  unsynced : .unsynced () ∉ tr

/-- The save has replaced the file, and its settings were accepted. -/
structure After (pipewire : Bool) (saver : Saver) (file : Option File) (tr : List (Event Unit))
    (current : Option File) : Prop where
  file : current = some (replacement saver file)
  renamed : ∃ old new, .renamed () old new ∈ tr
  valid : saver.settings.validate pipewire = .ok ()

/-- The text the call is to write over what it read. -/
def Plans (pipewire : Bool) (saver : Saver) (file : Option File) (data text : List Char) : Prop :=
  data = content file ∧ saveText pipewire saver.settings data = .ok text

/-- What has happened when the call is in a phase. -/
def Story (pipewire : Bool) (saver : Saver) (file : Option File) (tr : List (Event Unit))
    (temporary current : Option File) : Phase → Prop
  | .reading => Before file tr current
  | .preparing data text | .creating data text | .writing data text =>
    Before file tr current ∧ Plans pipewire saver file data text
  | .syncing data text | .comparing data text | .replacing data text =>
    Before file tr current ∧ Plans pipewire saver file data text ∧
      temporary = some ⟨text, createdMode saver.umask⟩
  | .syncingDir | .returned true => After pipewire saver file tr current ∧ .unsynced () ∉ tr
  | .cleaning | .returned false =>
    Before file tr current ∨ (After pipewire saver file tr current ∧ .unsynced () ∈ tr)

/-- Nothing is replaced by events that rename nothing. -/
theorem Before.append {current : Option File} (h : Before file tr current)
    (hrenamed : ∀ old new, .renamed () old new ∉ es) (hunsynced : .unsynced () ∉ es) :
    Before file (tr ++ es) current := by
  refine ⟨h.file, fun old new hmem => ?_, fun hmem => ?_⟩
  · rcases List.mem_append.mp hmem with hmem | hmem
    · exact h.renamed old new hmem
    · exact hrenamed old new hmem
  · rcases List.mem_append.mp hmem with hmem | hmem
    · exact h.unsynced hmem
    · exact hunsynced hmem

/-- What is replaced stays replaced. -/
theorem After.append {current : Option File} (h : After pipewire saver file tr current)
    (es : List (Event Unit)) : After pipewire saver file (tr ++ es) current := by
  obtain ⟨hfile, ⟨old, new, hmem⟩, hvalid⟩ := h
  exact ⟨hfile, ⟨old, new, List.mem_append_left _ hmem⟩, hvalid⟩

/-- Before the rename, whatever comes of a failure is still before it. -/
theorem Story.of_busy {temporary current : Option File} {phase : Phase}
    (h : Story pipewire saver file tr temporary current phase) (hbusy : phase.busy = true) :
    Before file tr current := by
  cases phase with
  | creating | writing => exact h.1
  | syncing | comparing | replacing => exact h.1
  | _ => cases hbusy

/-- Every step leads from before the rename to after it. -/
theorem story_step {ok : Bool}
    (h : Story pipewire saver file tr (s.temporary ()) s.file (s.phase ()))
    (hs : step pipewire (fun _ => saver) s ((), ok) = some (s', es)) :
    Story pipewire saver file (tr ++ es) (s'.temporary ()) s'.file (s'.phase ()) := by
  obtain ⟨phase, temporary, hm, hphase, htemporary⟩ := step_moves hs
  rw [hphase, htemporary, Function.update_self, Function.update_self]
  generalize s'.file = current at hm ⊢
  cases hm with
  | reads hp hread htext =>
    rw [hp] at h
    have hbefore : Before file tr s.file := h
    obtain ⟨hdata, -, -⟩ := readFile_eq_ok hread
    exact ⟨hbefore.append (by simp) (by simp), hdata.trans (by rw [hbefore.file]), htext⟩
  | refuses hp hes =>
    have hbefore : Before file tr s.file := by
      rcases hp with hp | ⟨data, text, hp⟩ <;> rw [hp] at h
      · exact h
      · exact h.1
    refine .inl (hbefore.append ?_ ?_)
    · rcases hes with rfl | ⟨data, rfl⟩ <;> simp
    · rcases hes with rfl | ⟨data, rfl⟩ <;> simp
  | prepares hp =>
    rw [hp] at h
    exact ⟨h.1.append (by simp) (by simp), h.2⟩
  | creates hp =>
    rw [hp] at h
    exact ⟨h.1.append (by simp) (by simp), h.2⟩
  | writes hp =>
    rw [hp] at h
    exact ⟨h.1.append (by simp) (by simp), h.2, rfl⟩
  | syncs hp =>
    rw [hp] at h
    exact ⟨h.1.append (by simp) (by simp), h.2⟩
  | compares hp hread =>
    rw [hp] at h
    exact ⟨h.1.append (by simp) (by simp), h.2⟩
  | renames hp htemp hok =>
    rw [hp] at h
    -- the one step that changes the file
    obtain ⟨hbefore, ⟨hdata, htext⟩, hplanned⟩ := h
    obtain ⟨hvalid, hmerged⟩ := saveText_eq_ok htext
    rw [htemp, Option.some.injEq] at hplanned
    refine ⟨⟨?_, ⟨_, _, List.mem_append_right _ (List.mem_singleton_self _)⟩, hvalid⟩, ?_⟩
    · rw [hplanned, hmerged, hdata]
      rfl
    · intro hmem
      rcases List.mem_append.mp hmem with hmem | hmem
      · exact hbefore.unsynced hmem
      · simp at hmem
  | fails hbusy => exact .inl ((h.of_busy hbusy).append (by simp) (by simp))
  | syncsDir hp hok =>
    rw [hp] at h
    exact ⟨h.1.append _, by simpa using h.2⟩
  | loses hp hok =>
    rw [hp] at h
    exact .inr ⟨h.1.append _, by simp⟩
  | cleans hp =>
    rw [hp] at h
    rcases h with hbefore | ⟨hafter, hunsynced⟩
    · exact .inl (hbefore.append (by simp) (by simp))
    · exact .inr ⟨hafter.append _, by simp [hunsynced]⟩

/-- So in every run. -/
theorem story (h : (alone pipewire saver file).Reaches tr s) :
    Story pipewire saver file tr (s.temporary ()) s.file (s.phase ()) := by
  refine h.invariant (P := fun tr s =>
    Story pipewire saver file tr (s.temporary ()) s.file (s.phase ())) ?_ ?_
  · intro s hstart
    obtain rfl : s = _ := hstart
    exact ⟨rfl, by simp, by simp⟩
  · intro tr s l s' es _ _ hi hs
    exact story_step hi hs

/-! ## Loading after a save -/

/-- What the fallbacks do does not depend on the values of the primary file. -/
theorem readFallbacks_saved {values values' : Values} (new : Key → List Char)
    (h : readFallbacks values fallbacks = .ok values') :
    readFallbacks (fun key => some (new key)) fallbacks = .ok fun key => some (new key) := by
  induction fallbacks generalizing values with
  | nil => rfl
  | cons fallback fallbacks ih =>
    simp only [readFallbacks] at h ⊢
    split at h
    · cases h
    split at h
    · cases h
    · exact ih h

/-- A replaced file loads exactly when its size is one that is read. -/
theorem load_replacement (hvalid : saver.settings.validate pipewire = .ok ())
    (hload : accepted pipewire (content file) fallbacks = true) :
    (∀ written, ∃ t, load pipewire written (some (replacement saver file)) fallbacks = .ok t) ↔
      tooLarge (replacement saver file).text = false := by
  constructor
  · intro h
    obtain ⟨t, ht⟩ := h (.ok ())
    obtain ⟨hfile, -⟩ := load_credentials ht
    exact (readFile_eq_ok hfile).2.1
  · intro hsize written
    apply load_of_accepted
    · exact readFile_of_private hsize (isPrivate_createdMode saver.umask)
    · -- the values of the old file do not matter to the fallbacks
      have hfallbacks : ∃ values values', readFallbacks values fallbacks = .ok values' := by
        rw [accepted, Bool.and_eq_true] at hload
        obtain ⟨-, hload⟩ := hload
        split at hload
        · cases hload
        split at hload
        · cases hload
        · next hread => exact ⟨_, _, hread⟩
      obtain ⟨values, values', hfallbacks⟩ := hfallbacks
      have hparse : parseIni (replacement saver file).text =
          .ok fun key => some (saver.settings.values key) := parseIni_merged _ _
      have hfrom := Settings.fromValues_clamped (Settings.validate_eq_ok.mp hvalid)
      show accepted pipewire (replacement saver file).text fallbacks = true
      rw [accepted, hsize, hparse]
      dsimp only
      rw [readFallbacks_saved saver.settings.values hfallbacks]
      dsimp only
      rw [hfrom]
      rfl

/-- The file is at every moment the old one or the whole new one; and a call that has returned was
safe exactly when its rename, if it came to it, fits. -/
theorem save_safe_iff (hload : ∃ written t, load pipewire written file fallbacks = .ok t)
    (h : (alone pipewire saver file).Reaches tr s) :
    (s.file = file ∨ s.file = some (replacement saver file)) ∧
      ((∃ ok, s.phase () = .returned ok) →
        (Safe pipewire fallbacks file s ↔ Fits saver file tr)) := by
  obtain ⟨written, t, hload⟩ := hload
  have haccepted := accepted_of_load hload
  have hstory := story h
  -- the file changes in the rename only
  have hreplaced : s.file = file ∨ s.file = some (replacement saver file) := by
    cases hphase : s.phase () with
    | reading =>
      rw [hphase] at hstory
      exact .inl hstory.file
    | preparing | creating | writing | syncing | comparing | replacing =>
      rw [hphase] at hstory
      exact .inl hstory.1.file
    | syncingDir =>
      rw [hphase] at hstory
      exact .inr hstory.1.file
    | cleaning =>
      rw [hphase] at hstory
      exact hstory.imp (fun hbefore => hbefore.file) fun hafter => hafter.1.file
    | returned ok =>
      rw [hphase] at hstory
      cases ok with
      | true => exact .inr hstory.1.file
      | false => exact hstory.imp (fun hbefore => hbefore.file) fun hafter => hafter.1.file
  refine ⟨hreplaced, fun ⟨ok, hphase⟩ => ?_⟩
  rw [hphase] at hstory
  cases ok with
  | true =>
    obtain ⟨hafter, hsynced⟩ := hstory
    -- what was saved is accepted unless the text is over the limit of the reader
    have hsize : (∀ written, ∃ t, load pipewire written (some (replacement saver file)) fallbacks =
        .ok t) ↔ tooLarge (replacement saver file).text = false :=
      load_replacement hafter.valid haccepted
    rw [← hafter.file] at hsize
    constructor
    · intro hsafe _
      rw [if_neg hsynced]
      exact hsize.mp (hsafe.loads hphase)
    · intro hfits
      have hfits := hfits hafter.renamed
      rw [if_neg hsynced] at hfits
      refine ⟨fun _ => hsize.mpr hfits, fun hfalse => ?_⟩
      rw [hphase] at hfalse
      cases hfalse
  | false =>
    -- the call has failed, before its rename or in the sync after it
    have hloads (hreturned : s.phase () = .returned true) : False := by
      rw [hphase] at hreturned
      cases hreturned
    rcases hstory with hbefore | ⟨hafter, hunsynced⟩
    · constructor
      · intro _ hrenamed
        obtain ⟨old, new, hmem⟩ := hrenamed
        exact absurd hmem (hbefore.renamed old new)
      · intro _
        exact ⟨fun hreturned => (hloads hreturned).elim, fun _ => by rw [hbefore.file]⟩
    · constructor
      · intro hsafe _
        rw [if_pos hunsynced, ← hsafe.unchanged hphase, hafter.file]
        rfl
      · intro hfits
        have hfits := hfits hafter.renamed
        rw [if_pos hunsynced] at hfits
        refine ⟨fun hreturned => (hloads hreturned).elim, fun _ => ?_⟩
        rw [hfits, hafter.file]
        rfl

/-- Every system call succeeds. -/
def smooth : List (Unit × Bool) := List.replicate 8 ((), true)

/-- The keys are saved into the file that others have written to. -/
def pairedSaver : Saver := ⟨paired, 0o022⟩

/-- One saver over the file with foreign keys. -/
def sharing : State Unit := ⟨some shared, fun _ => none, fun _ => .reading⟩

/-- A save in which no call fails. -/
theorem save_safe_smooth :
    ((alone true pairedSaver (some shared)).final sharing smooth).phase () = .returned true ∧
      Safe true [] (some shared) ((alone true pairedSaver (some shared)).final sharing smooth) := by
  have hload : ∃ t, load true (.ok ()) (some shared) [] = .ok t := by
    have hok : (load true (.ok ()) (some shared) []).isOk = true := by decide +kernel
    cases h : load true (.ok ()) (some shared) [] with
    | ok t => exact ⟨t, rfl⟩
    | error e =>
      rw [h] at hok
      cases hok
  have hphase : ((alone true pairedSaver (some shared)).final sharing smooth).phase () =
      .returned true := by
    decide +kernel
  have hrun := EventSystem.reaches_trace (M := alone true pairedSaver (some shared)) smooth
    (s := sharing) rfl (by decide +kernel)
  obtain ⟨-, hsafe⟩ := save_safe_iff ⟨.ok (), hload⟩ hrun
  refine ⟨hphase, (hsafe ⟨true, hphase⟩).mpr fun _ => ?_⟩
  rw [if_neg (by decide +kernel)]
  decide +kernel

/-- The first save of the defaults. -/
def firstSaver : Saver := ⟨Settings.default, 0o022⟩

/-- One saver before the first save. -/
def fresh : State Unit := ⟨none, fun _ => none, fun _ => .reading⟩

/-- The directory does not sync. -/
def unsynced : List (Unit × Bool) := List.replicate 7 ((), true) ++ [((), false), ((), true)]

/-- Without a file the defaults are loaded. -/
theorem load_nothing : load true (.ok ()) none [] = .ok Settings.default := by
  decide +kernel

/-- The call returns an error and the file is there. -/
theorem save_unsafe :
    firstSaver.settings.validate true = .ok () ∧
      load true (.ok ()) none [] = .ok Settings.default ∧
      ∃ tr s, (alone true firstSaver none).Reaches tr s ∧ s.phase () = .returned false ∧
        s.file.map File.text ≠ (none : Option File).map File.text ∧ ¬Safe true [] none s := by
  have hrun := EventSystem.reaches_trace (M := alone true firstSaver none) unsynced (s := fresh) rfl
    (by decide +kernel)
  have hphase : ((alone true firstSaver none).final fresh unsynced).phase () = .returned false := by
    decide +kernel
  have hfile : ((alone true firstSaver none).final fresh unsynced).file.map File.text ≠
      (none : Option File).map File.text := by
    decide +kernel
  refine ⟨by decide +kernel, load_nothing, _, _, hrun, hphase, hfile, ?_⟩
  intro hsafe
  exact hfile (hsafe.unchanged hphase)

end Saves
end HostSettings
end MobileWebcamBridge
