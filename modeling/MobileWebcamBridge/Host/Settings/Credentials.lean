import MobileWebcamBridge.Host.Settings.RoundTrip

/-!
# Where the Wi-Fi credentials come from

`read_file` looks for a line that begins with `lanKey=`; the parser also takes white space in front
of the sign. A file whose key lines all have it is not looked at.
-/

set_option autoImplicit false

namespace MobileWebcamBridge
namespace HostSettings

open Text Unicode HostQuality

/-- Some line gives the parser a key that is not empty. -/
def carriesKey : Bool → List (List Char) → Bool
  | _, [] => false
  | general, line :: ls =>
    (match readLine general (fun _ => none) line with
      | .ok values => !((values .lanKey).getD []).isEmpty
      | .error _ => false) ||
    carriesKey (enters general (trimmed line)) ls

/-- Whether loading takes the texts, the permission bits aside. -/
def accepted (pipewire : Bool) (text : List Char) (fallbacks : List (Option File)) : Bool :=
  !tooLarge text &&
    match parseIni text with
    | .error _ => false
    | .ok values =>
      match readFallbacks values fallbacks with
      | .error _ => false
      | .ok values => (Settings.fromValues pipewire values).isOk

/-- The credentials are the primary file's, and a key is loaded from a private file only. -/
structure CredentialsPrivate (pipewire : Bool) (written : Result Unit) (primary : Option File)
    (fallbacks : List (Option File)) : Prop where
  ofPrimary : ∀ s, load pipewire written primary fallbacks = .ok s →
    ∃ values, parseIni (content primary) = .ok values ∧
      s.lanKey = (values .lanKey).getD [] ∧ s.lanFingerprint = (values .lanFingerprint).getD []
  private_of_loaded : ∀ s, load pipewire written primary fallbacks = .ok s → s.lanKey ≠ [] →
    ∃ file, primary = some file ∧ isPrivate file.mode = true
  refused : ∀ file, primary = some file → carriesKey false (lines file.text) = true →
    isPrivate file.mode = false → ∃ e, load pipewire written primary fallbacks = .error e

variable {pipewire : Bool} {written : Result Unit} {primary : Option File}
  {fallbacks : List (Option File)} {s : Settings}

/-! ## What the loader does with the credentials -/

/-- A fallback supplies no credential. -/
theorem readFallbacks_credentials {values values' : Values}
    (h : readFallbacks values fallbacks = .ok values') :
    values' .lanKey = values .lanKey ∧ values' .lanFingerprint = values .lanFingerprint := by
  induction fallbacks generalizing values with
  | nil =>
    obtain rfl := Except.ok.inj h
    exact ⟨rfl, rfl⟩
  | cons file fallbacks ih =>
    unfold readFallbacks at h
    split at h
    · cases h
    split at h
    · cases h
    next fallback _ =>
    obtain ⟨hkey, hfingerprint⟩ := ih h
    have hnone (key : Key) (hk : key = .lanKey ∨ key = .lanFingerprint) :
        withFallback values fallback key = values key := by
      rw [withFallback, if_pos hk, Option.or_none]
    exact ⟨hkey.trans (hnone _ (.inl rfl)), hfingerprint.trans (hnone _ (.inr rfl))⟩

namespace Settings

theorem clampQualityToEdition_credentials (s : Settings) (cap : EditionCap) :
    (s.clampQualityToEdition cap).lanKey = s.lanKey ∧
      (s.clampQualityToEdition cap).lanFingerprint = s.lanFingerprint := by
  rw [clampQualityToEdition]
  dsimp only
  split
  · exact ⟨rfl, rfl⟩
  · exact ⟨rfl, rfl⟩

theorem checkQuality_credentials (values : Values) (s : Settings) :
    (checkQuality values s).lanKey = s.lanKey ∧
      (checkQuality values s).lanFingerprint = s.lanFingerprint := by
  rw [checkQuality]
  split
  · exact ⟨rfl, rfl⟩
  · exact ⟨rfl, rfl⟩

/-- The credentials are those of the last lines. -/
theorem fromValues_credentials {values : Values} (h : fromValues pipewire values = .ok s) :
    s.lanKey = (values .lanKey).getD [] ∧ s.lanFingerprint = (values .lanFingerprint).getD [] := by
  unfold fromValues at h
  split at h
  · cases h
  split at h
  · cases h
  split at h
  · cases h
  next mirror _ _ rotation _ _ verticalFlip _ =>
  dsimp only at h
  split at h
  · cases h
  obtain rfl := Except.ok.inj h
  obtain ⟨hkey, hfingerprint⟩ := clampQualityToEdition_credentials
    (checkQuality values (assign values mirror rotation verticalFlip)) activeEdition
  obtain ⟨hkey', hfingerprint'⟩ := checkQuality_credentials values
    (assign values mirror rotation verticalFlip)
  exact ⟨hkey.trans hkey', hfingerprint.trans hfingerprint'⟩

end Settings

/-- The credentials loaded are those read. -/
theorem load_eq_ok (h : load pipewire written primary fallbacks = .ok s) :
    ∃ s', read pipewire primary fallbacks = .ok s' ∧ s.lanKey = s'.lanKey ∧
      s.lanFingerprint = s'.lanFingerprint := by
  unfold load at h
  split at h
  · cases h
  next s' hread =>
  refine ⟨s', hread, ?_⟩
  split at h
  · split at h
    · obtain rfl := Except.ok.inj h
      exact ⟨rfl, rfl⟩
    · obtain rfl := Except.ok.inj h
      exact ⟨rfl, rfl⟩
  · obtain rfl := Except.ok.inj h
    exact ⟨rfl, rfl⟩

/-- Settings that load come from a primary file the check lets pass, with its credentials. -/
theorem load_credentials (h : load pipewire written primary fallbacks = .ok s) :
    readFile primary = .ok (content primary) ∧
      ∃ values, parseIni (content primary) = .ok values ∧
        s.lanKey = (values .lanKey).getD [] ∧
        s.lanFingerprint = (values .lanFingerprint).getD [] := by
  obtain ⟨s', hread, hkey, hfingerprint⟩ := load_eq_ok h
  unfold read at hread
  split at hread
  · cases hread
  next data hdata =>
  obtain rfl := (readFile_eq_ok hdata).1
  split at hread
  · cases hread
  next values hvalues =>
  split at hread
  · cases hread
  next values' hfallbacks =>
  obtain ⟨hkey', hfingerprint'⟩ := readFallbacks_credentials hfallbacks
  obtain ⟨hkey'', hfingerprint''⟩ := Settings.fromValues_credentials hread
  refine ⟨hdata, values, hvalues, ?_, ?_⟩
  · rw [hkey, hkey'', hkey']
  · rw [hfingerprint, hfingerprint'', hfingerprint']

/-- Texts that are taken load when the check lets the primary file pass. -/
theorem load_of_accepted (hfile : readFile primary = .ok (content primary))
    (h : accepted pipewire (content primary) fallbacks = true) :
    ∃ s, load pipewire written primary fallbacks = .ok s := by
  rw [accepted, Bool.and_eq_true] at h
  obtain ⟨-, h⟩ := h
  have hread : ∃ s, read pipewire primary fallbacks = .ok s := by
    rw [read, hfile]
    dsimp only
    cases hvalues : parseIni (content primary) with
    | error e =>
      rw [hvalues] at h
      cases h
    | ok values =>
      rw [hvalues] at h
      dsimp only at h ⊢
      cases hfallbacks : readFallbacks values fallbacks with
      | error e =>
        rw [hfallbacks] at h
        cases h
      | ok values' =>
        rw [hfallbacks] at h
        dsimp only at h ⊢
        cases hfrom : Settings.fromValues pipewire values' with
        | error e =>
          rw [hfrom] at h
          cases h
        | ok s => exact ⟨s, rfl⟩
  obtain ⟨s, hread⟩ := hread
  rw [load, hread]
  dsimp only
  split
  · split
    · exact ⟨_, rfl⟩
    · exact ⟨_, rfl⟩
  · exact ⟨_, rfl⟩

/-- What is loaded was accepted. -/
theorem accepted_of_load (h : load pipewire written primary fallbacks = .ok s) :
    accepted pipewire (content primary) fallbacks = true := by
  obtain ⟨s', hread, -⟩ := load_eq_ok h
  unfold read at hread
  split at hread
  · cases hread
  next data hdata =>
  obtain ⟨rfl, hlarge, -⟩ := readFile_eq_ok hdata
  split at hread
  · cases hread
  next values hvalues =>
  split at hread
  · cases hread
  next values' hfallbacks =>
  rw [accepted, hlarge, hvalues]
  dsimp only
  rw [hfallbacks]
  dsimp only
  rw [hread]
  rfl

/-! ## What the parser takes for a key -/

/-- What a line assigns does not depend on what was assigned before it. -/
theorem readLine_fresh {general : Bool} {values next : Values} {line : List Char}
    (h : readLine general values line = .ok next) :
    ∃ fresh, readLine general (fun _ => none) line = .ok fresh ∧
      ∀ key, next key = values key ∨ next key = fresh key := by
  unfold readLine at h ⊢
  split at h
  · next hskip =>
    obtain rfl := Except.ok.inj h
    exact ⟨_, if_pos hskip, fun key => .inl rfl⟩
  next hskip =>
  rw [if_neg hskip]
  split at h
  · obtain rfl := Except.ok.inj h
    exact ⟨_, rfl, fun key => .inl rfl⟩
  next name value _ =>
  split at h
  · obtain rfl := Except.ok.inj h
    exact ⟨_, rfl, fun key => .inl rfl⟩
  next found _ =>
  split at h
  · cases h
  next decoded hvalue =>
  obtain rfl := Except.ok.inj h
  refine ⟨_, rfl, fun key => ?_⟩
  -- the assigned key, or one that is left
  by_cases hkey : key = found
  · exact .inr (by simp [Values.insert, hkey])
  · exact .inl (by simp [Values.insert, hkey])

/-- A value that is read of the lines was there before or is on one of them. -/
theorem carriesKey_of_parseLines {general : Bool} {ls : List (List Char)} {values values' : Values}
    (h : parseLines general values ls = .ok values') (hbefore : (values .lanKey).getD [] = [])
    (hkey : (values' .lanKey).getD [] ≠ []) : carriesKey general ls = true := by
  induction ls generalizing general values with
  | nil =>
    obtain rfl := Except.ok.inj h
    exact absurd hbefore hkey
  | cons line ls ih =>
    rw [parseLines_cons] at h
    split at h
    · cases h
    next next hline =>
    rw [carriesKey, Bool.or_eq_true]
    -- the line either leaves the key empty or is one that carries it
    obtain ⟨fresh, hfresh, hsame⟩ := readLine_fresh hline
    by_cases hnext : (next .lanKey).getD [] = []
    · exact .inr (ih h hnext)
    · rw [hfresh]
      rcases hsame .lanKey with hfrom | hfrom
      · rw [hfrom] at hnext
        exact absurd hbefore hnext
      · rw [hfrom] at hnext
        exact .inl (by simpa using hnext)

/-- A line the parser takes a key from and the check does not see has white space
around the name. -/
theorem spelling_of_readLine {general : Bool} {line : List Char} {values : Values} {key : List Char}
    (h : readLine general (fun _ => none) line = .ok values) (hkey : values .lanKey = some key)
    (hunseen : startsWith lanKeyStart line = false) :
    ∃ name value, trimmed line = name ++ '=' :: value ∧ trimmed name = Key.lanKey.name ∧
      name ≠ Key.lanKey.name := by
  unfold readLine at h
  split at h
  · obtain rfl := Except.ok.inj h
    cases hkey
  split at h
  · obtain rfl := Except.ok.inj h
    cases hkey
  next name value hsplit =>
  split at h
  · obtain rfl := Except.ok.inj h
    cases hkey
  next found hfound =>
  split at h
  · cases h
  obtain rfl := Except.ok.inj h
  have hline := (splitOnce_some hsplit).1
  refine ⟨name, value, hline, ?_, ?_⟩
  · have hname : found = .lanKey := by
      by_contra hne
      rw [Values.insert, if_neg (Ne.symm hne)] at hkey
      cases hkey
    rw [hname, Key.ofName] at hfound
    have hdecide := List.find?_some hfound
    exact (of_decide_eq_true hdecide).symm
  · -- the bare name is what the check looks for
    rintro rfl
    have hstart : lanKeyStart <+: trimmed line := by
      rw [hline]
      exact ⟨value, rfl⟩
    have hprefix : lanKeyStart <+: line.dropWhile HostWire.isWhitespace :=
      hstart.trans (List.rdropWhile_prefix _ _)
    rw [startsWith, List.isPrefixOf_iff_prefix.mpr hprefix] at hunseen
    cases hunseen

/-! ## The law -/

/-- The credentials are private exactly when the file is, or the check finds its key, or the parser
takes no key from it, or the texts are refused whatever the mode. -/
theorem credentialsPrivate_iff (pipewire : Bool) (written : Result Unit) (primary : Option File)
    (fallbacks : List (Option File)) :
    CredentialsPrivate pipewire written primary fallbacks ↔
      ∀ file, primary = some file → isPrivate file.mode = true ∨ containsKey file.text = true ∨
        carriesKey false (lines file.text) = false ∨
        accepted pipewire file.text fallbacks = false := by
  constructor
  · rintro h file rfl
    by_contra hnot
    simp only [not_or, Bool.not_eq_true, Bool.not_eq_false] at hnot
    obtain ⟨hmode, hcontains, hcarries, haccepted⟩ := hnot
    have hlarge : tooLarge file.text = false := by
      rw [accepted, Bool.and_eq_true, Bool.not_eq_true'] at haccepted
      exact haccepted.1
    -- the check does not see the key, so the file is read
    have hread : readFile (some file) = .ok (content (some file)) := by
      rw [readFile, hlarge, hcontains]
      rfl
    obtain ⟨s, hload⟩ : ∃ s, load pipewire written (some file) fallbacks = .ok s :=
      load_of_accepted hread haccepted
    obtain ⟨e, herror⟩ := h.refused file rfl hcarries hmode
    rw [hload] at herror
    cases herror
  · intro h
    have hprivate (file : File) (hfile : primary = some file) {s : Settings}
        (hload : load pipewire written primary fallbacks = .ok s)
        (hcarries : carriesKey false (lines file.text) = true) : isPrivate file.mode = true := by
      subst hfile
      have haccepted := accepted_of_load hload
      obtain ⟨-, -, hcheck⟩ := readFile_eq_ok (load_credentials hload).1
      rcases h file rfl with hmode | hcontains | hnone | hrefused
      · exact hmode
      · exact hcheck file rfl hcontains
      · rw [hcarries] at hnone
        cases hnone
      · rw [content, hrefused] at haccepted
        cases haccepted
    refine ⟨fun s hload => (load_credentials hload).2, ?_, ?_⟩
    · intro s hload hkey
      obtain ⟨hread, values, hvalues, hlanKey, -⟩ := load_credentials hload
      rw [hlanKey] at hkey
      have hcarries : carriesKey false (lines (content primary)) = true :=
        carriesKey_of_parseLines hvalues rfl hkey
      cases primary with
      | none => cases hcarries
      | some file => exact ⟨file, rfl, hprivate file rfl hload hcarries⟩
    · intro file hfile hcarries hmode
      cases hload : load pipewire written primary fallbacks with
      | error e => exact ⟨e, rfl⟩
      | ok s =>
        rw [hprivate file hfile hload hcarries] at hmode
        cases hmode

/-- A key with a blank in front of its sign, in a file everybody can read. -/
def spacedKeyFile : File where
  text := generalHeader ++ '\n' :: (Key.lanKey.name ++ [' ', '='] ++ List.replicate 32 'a')
  mode := 0o644

/-- A key that others can read is loaded. -/
theorem spacedKeyFile_loaded : ¬CredentialsPrivate true (.ok ()) (some spacedKeyFile) [] := by
  intro h
  obtain ⟨file, ⟨⟩, hmode⟩ := h.private_of_loaded
    { Settings.default with lanKey := List.replicate 32 'a' } rfl (by decide)
  revert hmode
  decide

end HostSettings
end MobileWebcamBridge
