import Mathlib.Data.List.Flatten
import MobileWebcamBridge.Host.Settings.Escapes

/-!
# What a save writes is what is loaded

Outside the additions no line of the new text assigns anything, and the additions assign every key.
What they assign is checked as the settings were.
-/

set_option autoImplicit false

namespace MobileWebcamBridge
namespace HostSettings

open Text Unicode HostQuality

/-! ## Lines -/

/-- What one line of `parse_ini` assigns. -/
def readLine (general : Bool) (values : Values) (line : List Char) : Result Values :=
  if (trimmed line).head? = some '[' ∨ general = false ∨ (trimmed line).head? = some ';' ∨
      (trimmed line).head? = some '#' ∨ trimmed line = [] then .ok values
  else
    match splitOnce '=' (trimmed line) with
    | none => .ok values
    | some (key, value) =>
      match Key.ofName (trimmed key) with
      | none => .ok values
      | some key =>
        match decodeIni (trimmed value) with
        | .error e => .error e
        | .ok value => .ok (values.insert key value)

theorem parseLines_cons (general : Bool) (values : Values) (line : List Char)
    (rest : List (List Char)) :
    parseLines general values (line :: rest) =
      match readLine general values line with
      | .error e => .error e
      | .ok values => parseLines (enters general (trimmed line)) values rest := by
  rw [parseLines, readLine]
  by_cases hheader : (trimmed line).head? = some '['
  · rw [if_pos hheader, if_pos (.inl hheader)]
  have henters : enters general (trimmed line) = general := if_neg hheader
  rw [if_neg hheader, henters]
  by_cases hskip : general = false ∨ (trimmed line).head? = some ';' ∨
      (trimmed line).head? = some '#' ∨ trimmed line = []
  · rw [if_pos hskip, if_pos (.inr hskip)]
  rw [if_neg hskip, if_neg (not_or.mpr ⟨hheader, hskip⟩)]
  cases splitOnce '=' (trimmed line) with
  | none => rfl
  | some assignment =>
    obtain ⟨key, value⟩ := assignment
    dsimp only
    cases Key.ofName (trimmed key) with
    | none => rfl
    | some key =>
      dsimp only
      cases decodeIni (trimmed value) with
      | error e => rfl
      | ok value => rfl

/-- Whether the line behind `ls` is inside `[General]`. -/
def sectionAfter (general : Bool) (ls : List (List Char)) : Bool :=
  ls.foldl (fun general line => enters general (trimmed line)) general

/-- The lines of two parts. -/
theorem parseLines_append (general : Bool) (values : Values) (xs ys : List (List Char)) :
    parseLines general values (xs ++ ys) =
      match parseLines general values xs with
      | .error e => .error e
      | .ok values => parseLines (sectionAfter general xs) values ys := by
  induction xs generalizing general values with
  | nil => rfl
  | cons line xs ih =>
    rw [List.cons_append, parseLines_cons, parseLines_cons]
    cases readLine general values line with
    | error e => rfl
    | ok values => exact ih (enters general (trimmed line)) values

/-- The carriage return that `lines` takes off does not change what is read. -/
theorem parseLines_stripCR (general : Bool) (values : Values) (ls : List (List Char)) :
    parseLines general values (ls.map stripCR) = parseLines general values ls := by
  have htrim (line : List Char) : trimmed (stripCR line) = trimmed line :=
    trim_stripCR (by decide) line
  induction ls generalizing general values with
  | nil => rfl
  | cons line ls ih =>
    rw [List.map_cons, parseLines_cons, parseLines_cons, htrim, readLine, htrim, ← readLine]
    cases readLine general values line with
    | error e => rfl
    | ok values => exact ih _ _

/-! ## What a save keeps -/

/-- No line assigns anything in the section it stands in. -/
def Inert : Bool → List (List Char) → Prop
  | _, [] => True
  | general, line :: ls =>
    (∀ values, readLine general values line = .ok values) ∧ Inert (enters general (trimmed line)) ls

/-- Two parts are inert where each is. -/
theorem Inert.append {general : Bool} {xs ys : List (List Char)} :
    Inert general (xs ++ ys) ↔ Inert general xs ∧ Inert (sectionAfter general xs) ys := by
  induction xs generalizing general with
  | nil =>
    show Inert general ys ↔ True ∧ Inert general ys
    rw [true_and]
  | cons line xs ih =>
    show _ ∧ Inert _ (xs ++ ys) ↔ (_ ∧ Inert _ xs) ∧ _
    rw [ih, and_assoc]
    rfl

/-- Inert lines give no value. -/
theorem Inert.parseLines {general : Bool} {ls : List (List Char)} (h : Inert general ls)
    (values : Values) : HostSettings.parseLines general values ls = .ok values := by
  induction ls generalizing general with
  | nil => rfl
  | cons line ls ih =>
    rw [parseLines_cons, h.1]
    exact ih h.2

/-- A line that is kept assigns nothing. -/
theorem readLine_of_kept {general : Bool} {line : List Char}
    (h : ¬(enters general (trimmed line) = true ∧ assignsKnown line = true)) (values : Values) :
    readLine general values line = .ok values := by
  rw [readLine]
  split
  · rfl
  · next hskip =>
    rw [not_or, not_or] at hskip
    have henters : enters general (trimmed line) = general := if_neg hskip.1
    have hgeneral : general = true := by simpa using hskip.2.1
    -- inside the section only a line without a known key is kept
    have hunknown : assignsKnown line = false := by
      apply Bool.eq_false_iff.mpr
      intro hknown
      apply h
      exact ⟨henters.trans hgeneral, hknown⟩
    rw [assignsKnown] at hunknown
    cases hsplit : splitOnce '=' (trimmed line) with
    | none => rfl
    | some assignment =>
      obtain ⟨key, value⟩ := assignment
      rw [hsplit, Option.isSome_eq_false_iff, Option.isNone_iff_eq_none] at hunknown
      dsimp only
      rw [hunknown]

/-- The lines that are kept give no value. -/
theorem inert_keptLines (general : Bool) (ls : List (List Char)) :
    Inert general (keptLines general ls) := by
  induction ls generalizing general with
  | nil => trivial
  | cons line ls ih =>
    rw [keptLines]
    split
    · next hdropped =>
      -- a header is not an assignment, so the section is the one before the line
      have hheader : (trimmed line).head? ≠ some '[' := by
        intro hhead
        obtain ⟨hin, hknown⟩ := hdropped
        rw [enters, if_pos hhead, decide_eq_true_eq] at hin
        rw [assignsKnown, hin] at hknown
        revert hknown
        decide
      have henters : enters general (trimmed line) = general := if_neg hheader
      rw [henters]
      exact ih general
    · next hkept => exact ⟨readLine_of_kept hkept, ih _⟩

/-- They are old lines. -/
theorem keptLines_sublist (general : Bool) (ls : List (List Char)) :
    (keptLines general ls).Sublist ls := by
  induction ls generalizing general with
  | nil => exact List.Sublist.refl _
  | cons line ls ih =>
    rw [keptLines]
    split
    · exact (ih _).cons line
    · exact (ih _).cons_cons line

/-! ## What a save adds -/

/-- The line that assigns `value` to `key`. -/
def assignment (key : Key) (value : List Char) : List Char := key.name ++ '=' :: encodeIni value

theorem Key.mem_all (key : Key) : key ∈ Key.all := by
  cases key <;> decide

/-- A key is known by its name. -/
theorem Key.ofName_name (key : Key) : Key.ofName key.name = some key := by
  cases key <;> decide

/-- No name has a character that the lines of the file give a meaning. -/
theorem Key.name_plain {key : Key} {c : Char} (hc : c ∈ key.name) :
    c ≠ '\n' ∧ c ≠ '=' ∧ c ≠ '[' ∧ c ≠ ';' ∧ c ≠ '#' ∧ HostWire.isWhitespace c = false := by
  have hall : (Key.all.all fun key => key.name.all fun c => decide (c ≠ '\n' ∧ c ≠ '=' ∧ c ≠ '[' ∧
      c ≠ ';' ∧ c ≠ '#' ∧ HostWire.isWhitespace c = false)) = true := by
    rfl
  have hname := List.all_eq_true.mp (List.all_eq_true.mp hall key (Key.mem_all key)) c hc
  exact of_decide_eq_true hname

theorem Key.exists_name (key : Key) : ∃ c cs, key.name = c :: cs := by
  cases key <;> exact ⟨_, _, rfl⟩

theorem trimmed_name (key : Key) : trimmed key.name = key.name := by
  apply trim_of_ends
  · intro c hc
    exact (Key.name_plain (List.mem_of_mem_head? hc)).2.2.2.2.2
  · intro c hc
    exact (Key.name_plain (List.mem_of_getLast? hc)).2.2.2.2.2

/-- A written value has no white space around it. -/
theorem trimmed_encodeIni (value : List Char) : trimmed (encodeIni value) = encodeIni value := by
  apply trim_of_ends
  · intro c hc
    obtain rfl : '"' = c := by simpa [encodeIni] using hc
    decide
  · intro c hc
    obtain rfl : '"' = c := by simpa [encodeIni, List.getLast?_cons, List.getLast?_append] using hc
    decide

theorem trimmed_assignment (key : Key) (value : List Char) :
    trimmed (assignment key value) = assignment key value := by
  apply trim_of_ends
  · intro c hc
    obtain ⟨d, cs, hname⟩ := Key.exists_name key
    have hd : d ∈ key.name := hname ▸ List.mem_cons_self
    obtain rfl : d = c := by simpa [assignment, hname] using hc
    exact (Key.name_plain hd).2.2.2.2.2
  · intro c hc
    obtain rfl : '"' = c := by
      simpa [assignment, encodeIni, List.getLast?_cons, List.getLast?_append] using hc
    decide

/-- A line of a save opens no section and is no comment. -/
theorem assignment_head (key : Key) (value : List Char) :
    ∃ c, (assignment key value).head? = some c ∧ c ≠ '[' ∧ c ≠ ';' ∧ c ≠ '#' := by
  obtain ⟨c, cs, hname⟩ := Key.exists_name key
  have hc := Key.name_plain (hname ▸ List.mem_cons_self : c ∈ key.name)
  exact ⟨c, by rw [assignment, hname]; rfl, hc.2.2.1, hc.2.2.2.1, hc.2.2.2.2.1⟩

theorem enters_assignment (general : Bool) (key : Key) (value : List Char) :
    enters general (trimmed (assignment key value)) = general := by
  obtain ⟨c, hhead, hc, -⟩ := assignment_head key value
  rw [trimmed_assignment, enters, hhead, if_neg (by simpa using hc)]

/-- A line of a save gives its value. -/
theorem readLine_assignment (values : Values) (key : Key) (value : List Char) :
    readLine true values (assignment key value) = .ok (values.insert key value) := by
  obtain ⟨c, hhead, hheader, hsemicolon, hhash⟩ := assignment_head key value
  have hsplit : splitOnce '=' (assignment key value) = some (key.name, encodeIni value) :=
    splitOnce_append fun h => (Key.name_plain h).2.1 rfl
  have hne : assignment key value ≠ [] := by
    intro hnil
    rw [hnil] at hhead
    cases hhead
  rw [readLine, trimmed_assignment, hhead,
    if_neg (by simp [hheader, hsemicolon, hhash, hne]), hsplit]
  dsimp only
  rw [trimmed_name, Key.ofName_name]
  dsimp only
  rw [trimmed_encodeIni, decodeIni_encodeIni]

/-- The additions assign their keys and leave the others. -/
theorem parseLines_assignments (new : Key → List Char) (keys : List Key) (values : Values) :
    parseLines true values (keys.map fun key => assignment key (new key)) =
      .ok fun key => if key ∈ keys then some (new key) else values key := by
  induction keys generalizing values with
  | nil => simp [parseLines]
  | cons key keys ih =>
    rw [List.map_cons, parseLines_cons, readLine_assignment]
    dsimp only
    rw [enters_assignment, ih]
    apply congrArg Except.ok
    funext k
    by_cases hk : k ∈ keys
    · simp [hk]
    by_cases heq : k = key
    · simp [heq, Values.insert]
    · simp [hk, heq, Values.insert]

/-- The lines of a save give all values. -/
theorem parseLines_additions (new : Key → List Char) (values : Values) :
    parseLines true values (additions new) = .ok fun key => some (new key) := by
  have h := parseLines_assignments new Key.all values
  simp only [Key.mem_all, if_true] at h
  exact h

theorem sectionAfter_additions (new : Key → List Char) :
    sectionAfter true (additions new) = true := by
  have h : ∀ keys : List Key,
      sectionAfter true (keys.map fun key => assignment key (new key)) = true := by
    intro keys
    induction keys with
    | nil => rfl
    | cons key keys ih =>
      show sectionAfter (enters true (trimmed (assignment key (new key)))) _ = true
      rw [enters_assignment]
      exact ih
  exact h Key.all

/-- They have no line feed. -/
theorem not_mem_additions {new : Key → List Char} {line : List Char} (h : line ∈ additions new) :
    '\n' ∉ line := by
  obtain ⟨key, -, rfl⟩ := List.mem_map.mp h
  rw [List.mem_append, List.mem_cons, not_or, not_or]
  exact ⟨fun hmem => (Key.name_plain hmem).1 rfl, by decide, not_mem_encodeIni _⟩

/-! ## The new text -/

/-- The header of the section opens it. -/
theorem sectionAfter_header {before : List (List Char)} {line : List Char} {general : Bool}
    (h : trimmed line = generalHeader) : sectionAfter general (before ++ [line]) = true := by
  rw [sectionAfter, List.foldl_append]
  show enters _ (trimmed line) = true
  rw [h]
  rfl

/-- The lines of the new text assign what the additions do. -/
theorem parseLines_spliced {ls : List (List Char)} (hls : Inert false ls) (new : Key → List Char)
    (values : Values) :
    parseLines false values (spliced ls (additions new)) = .ok fun key => some (new key) := by
  rw [spliced]
  split
  · next index hindex =>
    obtain ⟨hlt, hheader, -⟩ := List.findIdx?_eq_some_iff_getElem.mp hindex
    rw [decide_eq_true_eq] at hheader
    have htake : ls.take (index + 1) = ls.take index ++ [ls[index]] :=
      List.take_succ_eq_append_getElem hlt
    have hsection : sectionAfter false (ls.take (index + 1)) = true := by
      rw [htake]
      exact sectionAfter_header hheader
    rw [← List.take_append_drop (index + 1) ls, Inert.append, hsection] at hls
    rw [parseLines_append, hls.1.parseLines]
    dsimp only
    rw [hsection, parseLines_append, parseLines_additions]
    dsimp only
    rw [sectionAfter_additions, hls.2.parseLines]
  · rw [parseLines_append, hls.parseLines]
    dsimp only
    rw [parseLines_cons]
    -- the new header
    exact parseLines_additions new values

/-- The old lines are still there. -/
theorem sublist_spliced (ls added : List (List Char)) : ls.Sublist (spliced ls added) := by
  rw [spliced]
  split
  · next index _ =>
    conv_lhs => rw [← List.take_append_drop (index + 1) ls]
    exact (List.Sublist.refl _).append (List.sublist_append_right _ _)
  · exact List.sublist_append_left _ _

/-- No other line is there but the new ones. -/
theorem mem_spliced {ls added : List (List Char)} {line : List Char} (h : line ∈ spliced ls added) :
    line ∈ ls ∨ line ∈ added ∨ line = generalHeader := by
  rw [spliced] at h
  split at h
  · rcases List.mem_append.mp h with h | h
    · exact .inl (List.mem_of_mem_take h)
    rcases List.mem_append.mp h with h | h
    · exact .inr (.inl h)
    · exact .inl (List.mem_of_mem_drop h)
  · rcases List.mem_append.mp h with h | h
    · exact .inl h
    rcases List.mem_cons.mp h with h | h
    · exact .inr (.inr h)
    · exact .inr (.inl h)

theorem spliced_ne_nil (ls : List (List Char)) (new : Key → List Char) :
    spliced ls (additions new) ≠ [] := by
  rw [spliced]
  split
  · simp [additions, Key.all]
  · simp

/-- No line of the new text holds a line feed. -/
theorem not_mem_merged_line {data line : List Char} {new : Key → List Char}
    (h : line ∈ spliced (keptLines false (lines data)) (additions new)) : '\n' ∉ line := by
  rcases mem_spliced h with h | h | rfl
  · exact not_mem_lines ((keptLines_sublist _ _).subset h)
  · exact not_mem_additions h
  · decide

/-- The text of a save gives the values it was made from. -/
theorem parseIni_merged (new : Key → List Char) (data : List Char) :
    parseIni (merged new data) = .ok fun key => some (new key) := by
  rw [parseIni, merged, lines_unlines (spliced_ne_nil _ _) (fun _ => not_mem_merged_line),
    parseLines_stripCR]
  exact parseLines_spliced (inert_keptLines false (lines data)) new _

/-- The text of a save has the lines that are kept. -/
theorem keptLines_sublist_merged (new : Key → List Char) (data : List Char) :
    (keptLines false (lines data)).Sublist ((merged new data).splitOn '\n') := by
  rw [merged, splitOn_unlines (spliced_ne_nil _ _) (fun _ => not_mem_merged_line)]
  exact (sublist_spliced _ _).trans (List.sublist_append_left _ _)

/-! ## Fields -/

theorem foldlM_pushDigit {limit n : ℕ} (h : n ≤ limit) :
    (Nat.toDigits 10 n).foldlM (pushDigit limit) 0 = .ok n := by
  induction n using Nat.strongRecOn with
  | ind n ih =>
    have hpush (m d : ℕ) (hd : d < 10) (hm : m * 10 + d ≤ limit) :
        pushDigit limit m (Nat.digitChar d) = .ok (m * 10 + d) := by
      rw [pushDigit, digit_digitChar hd (by decide)]
      exact if_neg (Nat.not_lt.mpr hm)
    rw [Nat.toDigits_eq_if (by decide)]
    split
    · next hn =>
      rw [List.foldlM_cons, hpush 0 n hn (by omega), Nat.zero_mul, Nat.zero_add]
      rfl
    · next hn =>
      rw [List.foldlM_append, ih (n / 10) (by omega) (by omega)]
      show List.foldlM _ (n / 10) _ = _
      rw [List.foldlM_cons, hpush (n / 10) (n % 10) (by omega) (by omega), Nat.div_add_mod']
      rfl

/-- A number that fits is read as it was written. -/
theorem parseUInt_showUInt {limit n : ℕ} (h : n ≤ limit) :
    parseUInt limit (showUInt n) = .ok n := by
  have hsign : ∀ cs, showUInt n ≠ '+' :: cs := by
    intro cs heq
    have hmem : '+' ∈ Nat.toDigits 10 n := by
      rw [show Nat.toDigits 10 n = '+' :: cs from heq]
      exact List.mem_cons_self
    obtain ⟨d, hd⟩ := digit_of_mem_toDigits (by decide) (by decide) hmem
    rw [show digit 10 '+' = none by decide] at hd
    cases hd
  unfold parseUInt
  dsimp only
  split
  · next heq => exact absurd heq (hsign _)
  · rw [if_neg (show showUInt n ≠ [] from Nat.toDigits_ne_nil)]
    exact foldlM_pushDigit h

/-- A boolean is read back. -/
theorem parseBool_showBool (b : Bool) : parseBool (showBool b) = .ok b := by
  cases b <;> decide

/-- A hexadecimal text has no white space around it. -/
theorem trimmed_of_isHex {text : List Char} {bytes : ℕ} (h : isHex text bytes = true) :
    trimmed text = text := by
  rw [isHex, Bool.and_eq_true, List.all_eq_true] at h
  -- a digit is not white space
  have hdigit : ∀ c ∈ text, HostWire.isWhitespace c = false := by
    intro c hc
    have hrange := range_of_digit (h.2 c hc)
    rw [HostWire.isWhitespace, decide_eq_false_iff_not]
    omega
  apply trim_of_ends
  · intro c hc
    exact hdigit c (List.mem_of_mem_head? hc)
  · intro c hc
    exact hdigit c (List.mem_of_getLast? hc)

namespace Settings

theorem addressOk_trimmed {text : List Char} (h : addressOk text = true) :
    addressOk (trimmed text) = true := by
  have hsub : (trimmed text).Sublist text :=
    (List.rdropWhile_prefix _ _).sublist.trans (List.dropWhile_suffix _).sublist
  have hlen := (hsub.flatMap String.utf8EncodeChar).length_le
  simp only [addressOk, Bool.and_eq_true, decide_eq_true_eq, Bool.not_eq_true',
    List.contains_eq_mem, decide_eq_false_iff_not] at h ⊢
  obtain ⟨⟨hsize, hzero⟩, hnewline⟩ := h
  exact ⟨⟨Nat.le_trans hlen hsize, fun hmem => hzero (hsub.subset hmem)⟩,
    fun hmem => hnewline (hsub.subset hmem)⟩

variable {pipewire : Bool} {s : Settings}

/-- What `validate` accepts. -/
structure Valid (pipewire : Bool) (s : Settings) : Prop where
  transport : transports.contains s.transport = true
  lanFingerprint : s.lanFingerprint ≠ [] → isHex s.lanFingerprint 32 = true
  lanKey : s.lanKey ≠ [] → isHex s.lanKey 16 = true
  rotation : s.rotation = 0 ∨ s.rotation = 90 ∨ s.rotation = 180 ∨ s.rotation = 270
  wish : s.qualityWish.valid = true
  decode : decoders.contains s.decode = true
  lanHost : addressOk s.lanHost = true
  output : addressOk s.output = true
  outputKind : backendTaken pipewire s.outputKind = true

/-- What is accepted. -/
theorem validate_eq_ok : s.validate pipewire = .ok () ↔ s.Valid pipewire := by
  constructor
  · intro h
    unfold validate at h
    split at h
    · cases h
    split at h
    · cases h
    split at h
    · cases h
    split at h
    · cases h
    split at h
    · cases h
    split at h
    · cases h
    next htransport hhex hrotation hwish hdecode haddress =>
    simp only [Bool.not_eq_true', Bool.not_eq_false] at htransport hwish hdecode
    simp only [Bool.or_eq_true, Bool.not_eq_true', not_or, Bool.not_eq_false] at haddress
    have hkind : backendTaken pipewire s.outputKind = true := by
      split at h
      · cases h
      next backend hparse =>
      split at h
      · cases h
      next havailable =>
      rw [backendTaken, hparse]
      simpa using havailable
    refine ⟨htransport, ?_, ?_, ?_, hwish, hdecode, haddress.1, haddress.2, hkind⟩
    · intro hne
      exact Bool.eq_true_of_not_eq_false fun hfalse => hhex (.inl ⟨hne, hfalse⟩)
    · intro hne
      exact Bool.eq_true_of_not_eq_false fun hfalse => hhex (.inr ⟨hne, hfalse⟩)
    · tauto
  · intro h
    have hhex : ¬((s.lanFingerprint ≠ [] ∧ isHex s.lanFingerprint 32 = false) ∨
        (s.lanKey ≠ [] ∧ isHex s.lanKey 16 = false)) := by
      rintro (⟨hne, hfalse⟩ | ⟨hne, hfalse⟩)
      · rw [h.lanFingerprint hne] at hfalse
        cases hfalse
      · rw [h.lanKey hne] at hfalse
        cases hfalse
    have hrotation : ¬(s.rotation ≠ 0 ∧ s.rotation ≠ 90 ∧ s.rotation ≠ 180 ∧ s.rotation ≠ 270) := by
      have := h.rotation
      tauto
    rw [validate, h.transport, if_neg (by decide), if_neg hhex, if_neg hrotation, h.wish,
      if_neg (by decide), h.decode, if_neg (by decide), h.lanHost, h.output, if_neg (by decide)]
    obtain ⟨backend, hparse, havailable⟩ := (Option.any_eq_true _ _).mp h.outputKind
    rw [hparse]
    exact if_neg (by rw [havailable]; decide)

theorem Valid.trimmed_lanFingerprint (h : s.Valid pipewire) :
    trimmed s.lanFingerprint = s.lanFingerprint := by
  by_cases hne : s.lanFingerprint = []
  · rw [hne]
    rfl
  · exact trimmed_of_isHex (h.lanFingerprint hne)

theorem Valid.trimmed_lanKey (h : s.Valid pipewire) : trimmed s.lanKey = s.lanKey := by
  by_cases hne : s.lanKey = []
  · rw [hne]
    rfl
  · exact trimmed_of_isHex (h.lanKey hne)

/-- What is accepted is accepted as it is written. -/
theorem Valid.persisted (h : s.Valid pipewire) : s.persisted.Valid pipewire where
  transport := h.transport
  lanFingerprint := h.lanFingerprint
  lanKey := h.lanKey
  rotation := h.rotation
  wish := h.wish
  decode := h.decode
  lanHost := addressOk_trimmed h.lanHost
  output := addressOk_trimmed h.output
  outputKind := by
    have htrim : trimmed (trimmed s.outputKind) = trimmed s.outputKind := trim_trim
    show backendTaken pipewire (trimmed s.outputKind) = true
    rw [backendTaken, Backend.parse, htrim]
    exact h.outputKind

/-- A clamped wish is as valid as the wish was. -/
theorem clampWish_valid (cap : EditionCap) {wish : Wish} (h : wish.valid = true) :
    (cap.clampWish wish).1.valid = true := by
  have hfps (w : Wish) (hw : w.valid = true) : (if cap.maxFps < wish.fps then { w with fps := 0 }
      else w).valid = true := by
    split
    · simp only [Wish.valid, Bool.and_eq_true] at hw ⊢
      exact ⟨hw.1, rfl⟩
    · exact hw
  apply hfps
  split
  · simp only [Wish.valid, Bool.and_eq_true] at h ⊢
    exact ⟨⟨⟨⟨rfl, rfl⟩, rfl⟩, rfl⟩, h.2⟩
  · exact h

/-- What is accepted is accepted under an edition. -/
theorem Valid.clampQualityToEdition (h : s.Valid pipewire) (cap : EditionCap) :
    (s.clampQualityToEdition cap).Valid pipewire := by
  unfold Settings.clampQualityToEdition
  dsimp only
  split
  · exact { h with wish := clampWish_valid cap h.wish }
  · exact h

/-- The values of accepted settings are read as the settings, within the cap of the edition. -/
theorem fromValues_clamped (h : s.Valid pipewire) :
    fromValues pipewire (fun key => some (s.values key)) =
      .ok (s.persisted.clampQualityToEdition activeEdition) := by
  have hlenient {key : Key} {limit n : ℕ} (hkey : s.values key = showUInt n) (hn : n ≤ limit) :
      lenient (fun key => some (s.values key)) key limit = (n, true) := by
    rw [lenient]
    dsimp only
    rw [hkey, parseUInt_showUInt hn]
  have hlast : s.lastConnected.toNat ≤ 2 ^ 64 - 1 := by
    have := s.lastConnected.toNat_lt
    omega
  have hword (w : UInt16) : w.toNat ≤ 0xffff := by
    have := w.toNat_lt
    omega
  have hassign : assign (fun key => some (s.values key)) s.mirror s.rotation.toNat s.verticalFlip =
      s.persisted := by
    rw [assign, hlenient (n := s.lastConnected.toNat) rfl hlast,
      hlenient (n := s.qualityWidth.toNat) rfl (hword _),
      hlenient (n := s.qualityHeight.toNat) rfl (hword _),
      hlenient (n := s.qualityFps.toNat) rfl (hword _)]
    simp only [Option.getD_some, values, UInt64.ofNat_toNat, UInt16.ofNat_toNat,
      h.trimmed_lanFingerprint, h.trimmed_lanKey]
    rfl
  have hparses : qualityParses (fun key => some (s.values key)) = true := by
    rw [qualityParses, hlenient (n := s.qualityWidth.toNat) rfl (hword _),
      hlenient (n := s.qualityHeight.toNat) rfl (hword _),
      hlenient (n := s.qualityFps.toNat) rfl (hword _)]
    rfl
  have hcheck : checkQuality (fun key => some (s.values key)) s.persisted = s.persisted := by
    have hwish : s.persisted.qualityWish.valid = true := h.wish
    rw [checkQuality, hparses, hwish]
    rfl
  have hmirror : parseBool (s.values .mirror) = .ok s.mirror := parseBool_showBool s.mirror
  have hflip : parseBool (s.values .verticalFlip) = .ok s.verticalFlip :=
    parseBool_showBool s.verticalFlip
  have hrotation : parseUInt 0xffff (s.values .rotation) = .ok s.rotation.toNat :=
    parseUInt_showUInt (hword _)
  have hvalid := validate_eq_ok.mpr (h.persisted.clampQualityToEdition activeEdition)
  simp only [fromValues, field, hmirror, hrotation, hflip, hassign, hcheck, hvalid]

/-- The values of accepted settings are read as the settings. -/
theorem fromValues_values (h : s.Valid pipewire)
    (hcap : (activeEdition.clampWish s.qualityWish).2 = false) :
    fromValues pipewire (fun key => some (s.values key)) = .ok s.persisted := by
  have hclamp : s.persisted.clampQualityToEdition activeEdition = s.persisted := by
    rw [clampQualityToEdition]
    exact if_neg (Bool.eq_false_iff.mp hcap)
  rw [fromValues_clamped h, hclamp]

end Settings

/-! ## Saving and loading -/

/-- Without a fallback a load is a read. -/
theorem load_of_read {pipewire : Bool} {file : Option File} {s : Settings} (written : Result Unit)
    (h : read pipewire file [] = .ok s) (hclamped : s.qualityClamped = false) :
    load pipewire written file [] = .ok s := by
  rw [load, h]
  exact if_neg (Bool.eq_false_iff.mp hclamped)

/-- Settings that were saved are loaded as they were, and every line of the old file that is not a
known key in its section stays, in its order. -/
theorem save_load {pipewire : Bool} {umask : UInt32} {s : Settings} {old : Option File} {new : File}
    (hcap : (activeEdition.clampWish s.qualityWish).2 = false)
    (hsave : save pipewire umask s old = .ok new) (hsize : tooLarge new.text = false)
    (written : Result Unit) :
    load pipewire written (some new) [] = .ok s.persisted ∧
      ∀ file, old = some file →
        (keptLines false (lines file.text)).Sublist (new.text.splitOn '\n') := by
  unfold save at hsave
  split at hsave
  · cases hsave
  next data hdata =>
  split at hsave
  · cases hsave
  next text htext =>
  obtain rfl := Except.ok.inj hsave
  -- what a save checks before it writes
  unfold saveText at htext
  split at htext
  · cases htext
  next hvalid =>
  split at htext
  · cases htext
  split at htext
  · cases htext
  obtain rfl := Except.ok.inj htext
  constructor
  · apply load_of_read written
    · have hread : readFile (some ⟨merged s.values data, createdMode umask⟩) =
          .ok (merged s.values data) := readFile_of_private hsize (isPrivate_createdMode umask)
      rw [read, hread]
      dsimp only
      rw [parseIni_merged]
      exact Settings.fromValues_values (Settings.validate_eq_ok.mp hvalid) hcap
    · rfl
  · rintro file rfl
    rw [(readFile_eq_ok hdata).1]
    exact keptLines_sublist_merged s.values file.text

/-- Settings with pairing keys, and with an address that takes every kind of escape. -/
def paired : Settings :=
  { Settings.default with
    transport := ['l', 'a', 'n']
    lanHost := ['h', '\t', '\x01', 'f', ';', '"', '\\', 'é']
    lanFingerprint := List.replicate 64 'a'
    lanKey := List.replicate 32 '7'
    outputKind := ['p', 'i', 'p', 'e', 'w', 'i', 'r', 'e', ' ']
    rotation := 270
    qualityWidth := 1280
    qualityHeight := 720
    qualityFps := 30 }

/-- A file with a comment, a foreign key, and a known key of another section. -/
def shared : File where
  text := "; mine\n[Window]\nlanKey=left\n[General]\n".toList ++
    "lanHost = \"a\\x1\"\r\ncolour=blue\nmirror=0\n".toList
  mode := 0o600

/-- Settings with a key and foreign lines are read back. -/
theorem save_load_paired :
    ∃ new, save true 0o022 paired (some shared) = .ok new ∧
      load true (.ok ()) (some new) [] = .ok paired.persisted ∧
      (["; mine", "[Window]", "lanKey=left", "[General]", "colour=blue"].map String.toList).Sublist
        (new.text.splitOn '\n') := by
  have hsave : save true 0o022 paired (some shared) =
      .ok ⟨merged paired.values shared.text, createdMode 0o022⟩ := by
    decide +kernel
  have hkept : keptLines false (lines shared.text) =
      ["; mine", "[Window]", "lanKey=left", "[General]", "colour=blue"].map String.toList := by
    decide +kernel
  have h := save_load (by decide) hsave (by decide +kernel) (.ok ())
  exact ⟨_, hsave, h.1, hkept ▸ h.2 _ rfl⟩

end HostSettings
end MobileWebcamBridge
