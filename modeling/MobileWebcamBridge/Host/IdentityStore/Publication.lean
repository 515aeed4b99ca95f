import MobileWebcamBridge.Host.IdentityStore

/-!
# A published key is never lost

A call owns the names it has created, and no two calls own one. The file behind a name under which a
key is written or reserved has no other name, so writing it and renaming over it touch no key; a key
reaches the path by a link, when it is complete, and leaves it for a reserved name.
-/

set_option autoImplicit false

namespace MobileWebcamBridge
namespace IdentityStore

open HostIdentity Directory

variable {C : Crypto}

/-! ## Statements -/

/-- The file is the complete one of a key. -/
def Holds (d : Disk) (n : ℕ) (identity : Identity C) : Prop := d.files[n]? = some (keyFile identity)

/-- The path holds the identity, complete. -/
def AtPath (d : Disk) (identity : Identity C) : Prop :=
  ∃ n, d.entry .identity = some n ∧ Holds d n identity

/-- The file was the key of the path at some time: from the start or since it was published. -/
def Key (start : Disk) (tr : List (Event C)) (n : ℕ) (identity : Identity C) : Prop :=
  (start.entry .identity = some n ∧ Holds start n identity) ∨ ∃ i, .published i n identity ∈ tr

/-- No key was moved aside. -/
def NoneAside (tr : List (Event C)) : Prop := ∀ i n slot, .aside i n slot ∉ tr

/-- Every entry is a file, and the path holds a complete key, if anything. -/
def Clean (C : Crypto) (start : Disk) : Prop :=
  start.Closed ∧ ∀ n, start.entry .identity = some n →
    ∃ identity : Identity C, Holds start n identity

/-- What no interleaving of calls breaks. -/
structure Safe (start : Disk) (tr : List (Event C)) (d : Disk) : Prop where
  /-- The path is absent or holds a complete key. -/
  path : ∀ n, d.entry .identity = some n → ∃ identity : Identity C, Holds d n identity
  /-- While nothing is moved aside, what a load returns is the key at the path. -/
  loads : NoneAside tr → ∀ i identity, .loaded i identity ∈ tr → AtPath d identity
  agree : NoneAside tr → ∀ i j identity identity', .loaded i identity ∈ tr →
    .loaded j identity' ∈ tr → identity = identity'
  /-- Every key that was ever at the path is there or at the slot it was moved to. -/
  keys : ∀ n identity, Key start tr n identity → Holds d n identity ∧
    (d.entry .identity = some n ∨ ∃ i slot, .aside i n slot ∈ tr ∧ d.entry (.corrupt slot) = some n)
  quarantine : ∀ i n slot, .aside i n slot ∈ tr → d.entry (.corrupt slot) = some n

/-! ## The invariant -/

/-- The name the call has created and not yet given up. -/
def Phase.name? : Phase C → Option Name
  | .writing identity _ | .syncing identity _ | .linking identity _ | .syncingDir identity
  | .reopening identity | .rereading identity _ | .cleaning identity _ =>
    some (.temporary identity.clientId)
  | .movingAside slot | .discarding slot _ => some (.corrupt slot)
  | _ => none

/-- The file was opened as the key of the path. -/
def Opened (start : Disk) (tr : List (Event C)) (d : Disk) (n : ℕ) : Prop :=
  (∃ identity : Identity C, Key start tr n identity) ∧ (NoneAside tr → d.entry .identity = some n)

/-- The name is there, and nothing was moved to it. -/
def Reserved (tr : List (Event C)) (d : Disk) (slot : Slot) : Prop :=
  (∃ n, d.Only (.corrupt slot) n) ∧ ∀ i n, .aside i n slot ∉ tr

/-- The identity's temporary file is there. -/
def Owned (d : Disk) (identity : Identity C) : Prop :=
  ∃ n, d.entry (.temporary identity.clientId) = some n

/-- What holds of a call at each of its phases. -/
def Knows (start : Disk) (tr : List (Event C)) (d : Disk) : Phase C → Prop
  | .movingAside slot | .discarding slot _ => Reserved tr d slot
  | .reading n => Opened start tr d n
  | .writing identity n => d.Only (.temporary identity.clientId) n
  | .syncing identity n | .linking identity n =>
    d.Only (.temporary identity.clientId) n ∧ Holds d n identity
  | .syncingDir identity => Owned d identity ∧ (NoneAside tr → AtPath d identity)
  | .reopening identity => Owned d identity
  | .rereading identity n => Owned d identity ∧ Opened start tr d n
  | .cleaning identity result =>
    Owned d identity ∧ ∀ found, result = .ok found → NoneAside tr → AtPath d found
  | _ => True

/-- What holds of the disk. -/
structure Sound (start : Disk) (tr : List (Event C)) (d : Disk) : Prop where
  closed : d.Closed
  path : ∀ n, d.entry .identity = some n → ∃ identity : Identity C, Key start tr n identity
  holds : ∀ n identity, Key start tr n identity → Holds d n identity
  named : ∀ n identity, Key start tr n identity →
    d.entry .identity = some n ∨ ∃ i slot, .aside i n slot ∈ tr
  aside : ∀ i n slot, .aside i n slot ∈ tr → d.entry (.corrupt slot) = some n

/-- The directory is sound, the calls know what they did, and no two use one name. -/
structure Inv (start : Disk) (tr : List (Event C)) (s : State C) : Prop where
  sound : Sound start tr s.disk
  knows : ∀ (i : ℕ) (c : Call C), s.calls[i]? = some c → Knows start tr s.disk c.phase
  distinct : ∀ (i j : ℕ) (c c' : Call C) (a : Name), s.calls[i]? = some c → s.calls[j]? = some c' →
    c.phase.name? = some a → c'.phase.name? = some a → i = j
  loads : NoneAside tr → ∀ i identity, .loaded i identity ∈ tr → AtPath s.disk identity

variable {start d d' : Disk} {tr es : List (Event C)} {n : ℕ} {identity : Identity C} {a : Name}

/-- A key stays one after more events. -/
theorem Key.append (h : Key start tr n identity) (es : List (Event C)) :
    Key start (tr ++ es) n identity := by
  rcases h with h | ⟨i, hmem⟩
  · exact .inl h
  · exact .inr ⟨i, List.mem_append_left _ hmem⟩

theorem NoneAside.of_append (h : NoneAside (tr ++ es)) : NoneAside tr :=
  fun i n slot hmem => h i n slot (List.mem_append_left _ hmem)

/-- A key has a name that nobody is writing under. -/
theorem Sound.ne_of_only (h : Sound start tr d) (hkey : Key start tr n identity)
    {clientId : List UInt8} {m : ℕ} (honly : d.Only (.temporary clientId) m) : n ≠ m := by
  rcases h.named n identity hkey with hpath | ⟨i, slot, hmem⟩
  · exact honly.ne (by simp) hpath
  · exact honly.ne (by simp) (h.aside i n slot hmem)

/-- The key at the path is the only one its file holds. -/
theorem Sound.atPath (h : Sound start tr d) (hentry : d.entry .identity = some n)
    (hkey : Key start tr n identity) : AtPath d identity :=
  ⟨n, hentry, h.holds n identity hkey⟩

/-! ## What a step leaves -/

/-- What a step of a call that owns `own` leaves of what the others know. -/
structure Frame (start : Disk) (tr es : List (Event C)) (d d' : Disk) (own : Option Name) :
    Prop where
  keeps : ∀ a, a ≠ .identity → own ≠ some a → Keeps d d' a
  content : ∀ n (identity : Identity C), Key start tr n identity → d'.files[n]? = d.files[n]?
  path : NoneAside es → ∀ n, d.entry .identity = some n → d'.entry .identity = some n
  aside : ∀ i n slot, .aside i n slot ∈ es → own = some (.corrupt slot)

variable {own : Option Name}

/-- What the path holds stays, where nothing is moved aside. -/
theorem Frame.atPath (h : Frame start tr es d d' own) (hsound : Sound start tr d)
    (hes : NoneAside es) (hat : AtPath d identity) : AtPath d' identity := by
  obtain ⟨n, hentry, hholds⟩ := hat
  obtain ⟨found, hkey⟩ := hsound.path n hentry
  refine ⟨n, h.path hes n hentry, ?_⟩
  rw [Holds, h.content n found hkey]
  exact hholds

theorem NoneAside.of_append_right (h : NoneAside (tr ++ es)) : NoneAside es :=
  fun i n slot hmem => h i n slot (List.mem_append_right _ hmem)

/-- An open file stays known through the steps of others. -/
theorem Opened.frame (h : Opened start tr d n) (hf : Frame start tr es d d' own) :
    Opened start (tr ++ es) d' n := by
  obtain ⟨⟨identity, hkey⟩, hpath⟩ := h
  refine ⟨⟨identity, hkey.append es⟩, fun hnone => ?_⟩
  exact hf.path hnone.of_append_right n (hpath hnone.of_append)

/-- A temporary file stays its caller's. -/
theorem Owned.keeps (h : Owned d identity) (hk : Keeps d d' (.temporary identity.clientId)) :
    Owned d' identity := by
  obtain ⟨n, hn⟩ := h
  exact ⟨n, hk.entry n hn⟩

/-- What a file holds stays, while only its name leads to it. -/
theorem Only.holds (h : d.Only a n) (hk : Keeps d d' a) (hholds : Holds d n identity) :
    Holds d' n identity := by
  rw [Holds, hk.content n h.1]
  exact hholds

/-- What a call knows stays true while another moves. -/
theorem Knows.frame {phase : Phase C} (h : Knows start tr d phase) (hsound : Sound start tr d)
    (hf : Frame start tr es d d' own) (hown : ∀ a, phase.name? = some a → own ≠ some a) :
    Knows start (tr ++ es) d' phase := by
  have htemporary (identity : Identity C)
      (hname : phase.name? = some (.temporary identity.clientId)) :
      Keeps d d' (.temporary identity.clientId) :=
    hf.keeps _ (by simp) (hown _ hname)
  have hslot (slot : Slot) (hname : phase.name? = some (.corrupt slot)) (hr : Reserved tr d slot) :
      Reserved (tr ++ es) d' slot := by
    obtain ⟨⟨n, honly⟩, hfree⟩ := hr
    refine ⟨⟨n, (hf.keeps _ (by simp) (hown _ hname)).only n honly⟩, fun i m hmem => ?_⟩
    rcases List.mem_append.mp hmem with hmem | hmem
    · exact hfree i m hmem
    · exact hown _ hname (hf.aside i m slot hmem)
  have hat {identity : Identity C} (hat : NoneAside tr → AtPath d identity)
      (hnone : NoneAside (tr ++ es)) : AtPath d' identity :=
    hf.atPath hsound hnone.of_append_right (hat hnone.of_append)
  cases phase with
  | movingAside slot => exact hslot slot rfl h
  | discarding slot error => exact hslot slot rfl h
  | reading n => exact Opened.frame h hf
  | writing identity n => exact (htemporary identity rfl).only n h
  | syncing identity n =>
    exact ⟨(htemporary identity rfl).only n h.1, Only.holds h.1 (htemporary identity rfl) h.2⟩
  | linking identity n =>
    exact ⟨(htemporary identity rfl).only n h.1, Only.holds h.1 (htemporary identity rfl) h.2⟩
  | syncingDir identity => exact ⟨h.1.keeps (htemporary identity rfl), hat h.2⟩
  | reopening identity => exact Owned.keeps h (htemporary identity rfl)
  | rereading identity n => exact ⟨h.1.keeps (htemporary identity rfl), h.2.frame hf⟩
  | cleaning identity result =>
    exact ⟨h.1.keeps (htemporary identity rfl), fun found hfound => hat (h.2 found hfound)⟩
  | _ => trivial

/-- What a call owns is there. -/
theorem Knows.entry {phase : Phase C} (h : Knows start tr d phase) (hname : phase.name? = some a) :
    ∃ n, d.entry a = some n := by
  cases phase with
  | movingAside | discarding =>
    obtain rfl := Option.some.inj hname
    obtain ⟨⟨n, honly⟩, -⟩ := h
    exact ⟨n, honly.1⟩
  | writing identity n =>
    obtain rfl := Option.some.inj hname
    have honly : d.Only (.temporary identity.clientId) n := h
    exact ⟨n, honly.1⟩
  | syncing | linking =>
    obtain rfl := Option.some.inj hname
    exact ⟨_, h.1.1⟩
  | syncingDir | rereading | cleaning =>
    obtain rfl := Option.some.inj hname
    exact h.1
  | reopening =>
    obtain rfl := Option.some.inj hname
    exact h
  | _ => cases hname

/-! ## The steps of a call -/

/-- What a step of a call establishes. -/
structure Good (start : Disk) (tr : List (Event C)) (d : Disk) (c : Call C) (d' : Disk)
    (c' : Call C) (es : List (Event C)) : Prop where
  sound : Sound start (tr ++ es) d'
  frame : Frame start tr es d d' c.phase.name?
  knows : Knows start (tr ++ es) d' c'.phase
  name : ∀ a, c'.phase.name? = some a → c.phase.name? = some a ∨ d.entry a = none
  loads : ∀ i identity, .loaded i identity ∈ es → NoneAside (tr ++ es) → AtPath d' identity

/-- Events that are about no key. -/
def Plain (es : List (Event C)) : Prop :=
  (∀ i n identity, .published i n identity ∉ es) ∧ NoneAside es

theorem plain_nil : Plain ([] : List (Event C)) := ⟨by simp, by simp [NoneAside]⟩

/-- Returning publishes nothing and moves nothing aside. -/
theorem plain_outcome (path : String) (i : ℕ) (aside : Option Slot) (result : Result (Identity C)) :
    Plain [outcome path i aside result] := by
  unfold outcome Plain NoneAside
  split
  · split
    · simp
    · simp
  · split
    · simp
    · simp

theorem Key.of_plain (h : Key start (tr ++ es) n identity) (hes : Plain es) :
    Key start tr n identity := by
  rcases h with h | ⟨i, hmem⟩
  · exact .inl h
  · rcases List.mem_append.mp hmem with hmem | hmem
    · exact .inr ⟨i, hmem⟩
    · exact absurd hmem (hes.1 i n identity)

/-- A step that neither publishes nor moves aside. -/
theorem Sound.plain (h : Sound start tr d) (hes : Plain es) (hclosed : d'.Closed)
    (hf : Frame start tr es d d' own) (hpath : d'.entry .identity = d.entry .identity)
    (hown : ∀ slot, own = some (.corrupt slot) → ∀ i n, .aside i n slot ∉ tr) :
    Sound start (tr ++ es) d' := by
  have hnot (i n : ℕ) (slot : Slot) (hmem : .aside i n slot ∈ tr ++ es) : .aside i n slot ∈ tr := by
    rcases List.mem_append.mp hmem with hmem | hmem
    · exact hmem
    · exact absurd hmem (hes.2 i n slot)
  constructor
  · exact hclosed
  · intro n hn
    rw [hpath] at hn
    obtain ⟨identity, hkey⟩ := h.path n hn
    exact ⟨identity, hkey.append es⟩
  · intro n identity hkey
    have hkey := hkey.of_plain hes
    rw [Holds, hf.content n identity hkey]
    exact h.holds n identity hkey
  · intro n identity hkey
    rw [hpath]
    rcases h.named n identity (hkey.of_plain hes) with hentry | ⟨i, slot, hmem⟩
    · exact .inl hentry
    · exact .inr ⟨i, slot, List.mem_append_left _ hmem⟩
  · intro i n slot hmem
    have hmem := hnot i n slot hmem
    exact (hf.keeps (.corrupt slot) (by simp) fun heq => hown slot heq i n hmem).entry n
      (h.aside i n slot hmem)

theorem frame_refl (es : List (Event C)) (own : Option Name) (hes : NoneAside es) :
    Frame start tr es d d own where
  keeps a _ _ := Keeps.refl d a
  content _ _ _ := rfl
  path _ _ h := h
  aside i n slot hmem := absurd hmem (hes i n slot)

/-- Creating a file leaves everything else alone. -/
theorem Sound.frame_create (h : Sound start tr d) (own : Option Name) (hfree : d.entry a = none)
    (ha : a ≠ .identity) (x : StoredFile) : Frame start tr [] d (d.create a x) own where
  keeps b _ _ := keeps_create h.closed hfree b
  content _ identity hkey :=
    content_create (List.getElem?_eq_some_iff.mp (h.holds _ identity hkey)).1 a x
  path _ _ hn := by
    rw [entry_create_of_ne (Ne.symm ha)]
    exact hn
  aside _ _ _ hmem := absurd hmem List.not_mem_nil

/-- So does writing to one's own temporary file. -/
theorem Sound.frame_write (h : Sound start tr d) {clientId : List UInt8} {m : ℕ}
    (honly : d.Only (.temporary clientId) m) (x : StoredFile) :
    Frame start tr [] d (d.write m x) (some (.temporary clientId)) where
  keeps _ _ hb := keeps_write honly fun heq => hb (congrArg some heq.symm)
  content _ _ hkey := content_write_of_ne (h.ne_of_only hkey honly) x
  path _ _ hn := hn
  aside _ _ _ hmem := absurd hmem List.not_mem_nil

/-- So does removing it. -/
theorem frame_removed (env : Env) (hes : NoneAside es) (ha : a ≠ .identity) :
    Frame start tr es d (removed d env a) (some a) := by
  unfold removed
  split
  · constructor
    · intro b _ hb
      exact keeps_remove fun heq => hb (congrArg some heq.symm)
    · intro _ _ _
      rfl
    · intro _ n hn
      rw [entry_remove_of_ne (Ne.symm ha)]
      exact hn
    · intro i n slot hmem
      exact absurd hmem (hes i n slot)
  · exact frame_refl es _ hes

/-- Removing another name leaves the path alone. -/
theorem entry_removed (d : Disk) (env : Env) (ha : a ≠ .identity) :
    (removed d env a).entry .identity = d.entry .identity := by
  unfold removed
  split
  · exact entry_remove_of_ne (Ne.symm ha)
  · rfl

theorem closed_removed (h : d.Closed) (env : Env) (a : Name) : (removed d env a).Closed := by
  unfold removed
  split
  · exact h.remove a
  · exact h

/-- A step that changes nothing on the disk. -/
theorem Sound.goes (h : Sound start tr d) {c c' : Call C} (hknows : Knows start tr d c'.phase)
    (hname : ∀ a, c'.phase.name? = some a → c.phase.name? = some a) :
    Good start tr d c d c' [] where
  sound := by
    rw [List.append_nil]
    exact h
  frame := frame_refl [] _ plain_nil.2
  knows := by
    rw [List.append_nil]
    exact hknows
  name a ha := .inl (hname a ha)
  loads _ _ hmem := absurd hmem List.not_mem_nil

/-- A call loads what it returns. -/
theorem loaded_of_outcome {path : String} {i j : ℕ} {aside : Option Slot}
    {result : Result (Identity C)} (h : .loaded j identity ∈ [outcome path i aside result]) :
    result = .ok identity := by
  unfold outcome at h
  split at h
  · split at h
    · obtain ⟨-, rfl⟩ := by simpa using h
      rfl
    · simp at h
  · split at h
    · simp at h
    · simp at h

/-- A call that ends without owning a name. -/
theorem Sound.ends (h : Sound start tr d) {c c' : Call C} {path : String} {i : ℕ}
    {result : Result (Identity C)} (hc' : c'.phase = .returned)
    (hresult : ∀ identity, result = .ok identity → NoneAside tr → AtPath d identity) :
    Good start tr d c d c' [outcome path i c.aside result] := by
  have hplain := plain_outcome path i c.aside result
  have hf : Frame start tr [outcome path i c.aside result] d d none := frame_refl _ _ hplain.2
  constructor
  · exact h.plain hplain h.closed hf rfl (by simp)
  · exact frame_refl _ _ hplain.2
  · rw [hc']
    trivial
  · rw [hc']
    intro a ha
    cases ha
  · intro j identity hmem hnone
    exact hresult identity (loaded_of_outcome hmem) hnone.of_append

/-- A call that gives up its name and ends. -/
theorem Sound.endsRemoving (h : Sound start tr d) {c c' : Call C} {path : String} {i : ℕ}
    {result : Result (Identity C)} (env : Env) (hc' : c'.phase = .returned)
    (hname : c.phase.name? = some a) (ha : a ≠ .identity)
    (hfree : ∀ slot, a = .corrupt slot → ∀ i n, .aside i n slot ∉ tr)
    (hresult : ∀ identity, result = .ok identity → NoneAside tr → AtPath d identity) :
    Good start tr d c (removed d env a) c' [outcome path i c.aside result] := by
  have hplain := plain_outcome path i c.aside result
  have hf : Frame start tr [outcome path i c.aside result] d (removed d env a) (some a) :=
    frame_removed env hplain.2 ha
  constructor
  · apply h.plain hplain (closed_removed h.closed env a) hf (entry_removed d env ha)
    intro slot heq
    exact hfree slot (Option.some.inj heq)
  · rw [hname]
    exact hf
  · rw [hc']
    trivial
  · rw [hc']
    intro b hb
    cases hb
  · intro j identity hmem hnone
    exact hf.atPath h hplain.2 (hresult identity (loaded_of_outcome hmem) hnone.of_append)

/-- A step on the disk that is about no key. -/
theorem Sound.touches (h : Sound start tr d) {c c' : Call C} (hclosed : d'.Closed)
    (hf : Frame start tr [] d d' c.phase.name?) (hpath : d'.entry .identity = d.entry .identity)
    (hown : ∀ slot, c.phase.name? = some (.corrupt slot) → ∀ i n, .aside i n slot ∉ tr)
    (hknows : Knows start tr d' c'.phase)
    (hname : ∀ a, c'.phase.name? = some a → c.phase.name? = some a ∨ d.entry a = none) :
    Good start tr d c d' c' [] where
  sound := h.plain plain_nil hclosed hf hpath hown
  frame := hf
  knows := by
    rw [List.append_nil]
    exact hknows
  name := hname
  loads _ _ hmem := absurd hmem List.not_mem_nil

/-- The complete key becomes the key of the path, which had none. -/
theorem Sound.publishes (h : Sound start tr d) {c c' : Call C} {i : ℕ}
    (hc : c.phase.name? = some (.temporary identity.clientId))
    (hc' : c'.phase = .syncingDir identity)
    (honly : d.Only (.temporary identity.clientId) n) (hholds : Holds d n identity)
    (hfree : d.entry .identity = none) :
    Good start tr d c (d.link n .identity) c' [.published i n identity] := by
  have hentry : (d.link n .identity).entry .identity = some n := entry_link_self
  have hkey : Key start (tr ++ [Event.published i n identity]) n identity :=
    .inr ⟨i, List.mem_append_right _ List.mem_cons_self⟩
  have hof {m : ℕ} {found : Identity C}
      (hm : Key start (tr ++ [Event.published i n identity]) m found) :
      Key start tr m found ∨ (m = n ∧ found = identity) := by
    rcases hm with hm | ⟨j, hmem⟩
    · exact .inl (.inl hm)
    · rcases List.mem_append.mp hmem with hmem | hmem
      · exact .inl (.inr ⟨j, hmem⟩)
      · obtain ⟨-, rfl, rfl⟩ := by simpa using hmem
        exact .inr ⟨rfl, rfl⟩
  have hin (j m : ℕ) (slot : Slot) (hmem : .aside j m slot ∈ tr ++ [Event.published i n identity]) :
      .aside j m slot ∈ tr := by
    simpa using hmem
  constructor
  · constructor
    · exact h.closed.link (h.closed _ n honly.1) .identity
    · intro m hm
      rw [hentry] at hm
      obtain rfl := Option.some.inj hm
      exact ⟨identity, hkey⟩
    · intro m found hm
      rcases hof hm with hm | ⟨rfl, rfl⟩
      · exact h.holds m found hm
      · exact hholds
    · intro m found hm
      rcases hof hm with hm | ⟨rfl, rfl⟩
      · -- the path had no key, so this one is aside
        rcases h.named m found hm with hpath | ⟨j, slot, hmem⟩
        · rw [hfree] at hpath
          cases hpath
        · exact .inr ⟨j, slot, List.mem_append_left _ hmem⟩
      · exact .inl hentry
    · intro j m slot hmem
      rw [entry_link_of_ne (by simp)]
      exact h.aside j m slot (hin j m slot hmem)
  · rw [hc]
    constructor
    · intro a _ ha
      exact keeps_link honly hfree fun heq => ha (congrArg some heq.symm)
    · intro _ _ _
      rfl
    · intro _ m hm
      rw [hfree] at hm
      cases hm
    · intro j m slot hmem
      simp at hmem
  · rw [hc']
    refine ⟨⟨n, ?_⟩, fun _ => ⟨n, hentry, hholds⟩⟩
    rw [entry_link_of_ne (by simp)]
    exact honly.1
  · rw [hc', hc]
    intro a ha
    exact .inl ha
  · intro j found hmem
    simp at hmem

/-- The key of the path moves to the reserved name. -/
theorem Sound.movesAside (h : Sound start tr d) {c c' : Call C} {i : ℕ} {slot : Slot}
    (hc : c.phase = .movingAside slot) (hc' : c'.phase = .opening) (hr : Reserved tr d slot)
    (hpath : d.entry .identity = some n) :
    Good start tr d c (d.rename .identity (.corrupt slot)) c' [.aside i n slot] := by
  obtain ⟨⟨m, honly⟩, hfree⟩ := hr
  -- the reserved file is another one
  have hne : d.entry (.corrupt slot) ≠ d.entry .identity := by
    intro heq
    have hname := honly.2 .identity (heq ▸ honly.1)
    cases hname
  have hslot : (d.rename .identity (.corrupt slot)).entry (.corrupt slot) = some n := by
    rw [rename_of_ne hne, Function.update_self]
    exact hpath
  have hnone : (d.rename .identity (.corrupt slot)).entry .identity = none := by
    rw [rename_of_ne hne, Function.update_of_ne (by simp), Function.update_self]
  have hof {k : ℕ} {found : Identity C} (hk : Key start (tr ++ [Event.aside i n slot]) k found) :
      Key start tr k found := by
    rcases hk with hk | ⟨j, hmem⟩
    · exact .inl hk
    · exact .inr ⟨j, by simpa using hmem⟩
  have hlast : .aside i n slot ∈ tr ++ [Event.aside i n slot] :=
    List.mem_append_right _ List.mem_cons_self
  constructor
  · constructor
    · exact h.closed.rename _ _
    · intro k hk
      rw [hnone] at hk
      cases hk
    · intro k found hk
      rw [Holds, files_rename]
      exact h.holds k found (hof hk)
    · intro k found hk
      rcases h.named k found (hof hk) with hentry | ⟨j, slot', hmem⟩
      · obtain rfl := Option.some.inj (hpath.symm.trans hentry)
        exact .inr ⟨i, slot, hlast⟩
      · exact .inr ⟨j, slot', List.mem_append_left _ hmem⟩
    · intro j k slot' hmem
      rcases List.mem_append.mp hmem with hbefore | hnew
      · have hslots : slot' ≠ slot := by
          rintro rfl
          exact hfree j k hbefore
        exact (keeps_rename (by simp) (by simpa using hslots)).entry k (h.aside j k slot' hbefore)
      · obtain ⟨-, rfl, rfl⟩ := by simpa using hnew
        exact hslot
  · rw [hc]
    constructor
    · intro a ha hown
      exact keeps_rename ha fun heq => hown (congrArg some heq.symm)
    · intro _ _ _
      rw [files_rename]
    · intro hnone
      exact absurd List.mem_cons_self (hnone i n slot)
    · intro j k slot' hmem
      obtain ⟨-, -, rfl⟩ := by simpa using hmem
      rfl
  · rw [hc']
    trivial
  · rw [hc']
    intro a ha
    cases ha
  · intro j found hmem
    simp at hmem

variable {path : String} {i : ℕ} {c c' : Call C} {env : Env}

/-- A step of `replace_at` does what the others rely on. -/
theorem stepReplace_good (h : Sound start tr d) (hk : Knows start tr d c.phase)
    (hs : stepReplace path d i c env = some (d', c', es)) : Good start tr d c d' c' es := by
  unfold stepReplace at hs
  split at hs
  · split at hs
    · next hphase _ _ _ _ =>
      obtain ⟨rfl, rfl, rfl⟩ := by simpa [Call.goes] using hs
      exact h.goes trivial (by simp [Phase.name?])
    · obtain ⟨rfl, rfl, rfl⟩ := by simpa [Call.ends] using hs
      exact h.ends rfl (by simp)
  · next slot hphase =>
    split at hs
    · obtain ⟨rfl, rfl, rfl⟩ := by simpa [Call.ends] using hs
      exact h.ends rfl (by simp)
    split at hs
    · obtain ⟨rfl, rfl, rfl⟩ := by simpa [Call.ends] using hs
      exact h.ends rfl (by simp)
    · obtain ⟨rfl, rfl, rfl⟩ := by simpa [Call.goes] using hs
      exact h.goes trivial (by simp [Phase.name?])
    · next hfree =>
      obtain ⟨rfl, rfl, rfl⟩ := by simpa [Call.goes] using hs
      -- no key was moved to a name that is free
      have hnone (j n : ℕ) : .aside j n slot ∉ tr := by
        intro hmem
        rw [h.aside j n slot hmem] at hfree
        cases hfree
      apply h.touches (h.closed.create _ _) (h.frame_create _ hfree (by simp) _)
      · exact entry_create_of_ne (by simp)
      · rw [hphase]
        intro slot hname
        cases hname
      · exact ⟨⟨_, only_create h.closed⟩, hnone⟩
      · intro a ha
        obtain rfl := Option.some.inj ha
        exact .inr hfree
  · next slot hphase =>
    rw [hphase] at hk
    split at hs
    · obtain ⟨rfl, rfl, rfl⟩ := by simpa [Call.goes] using hs
      exact h.goes hk (by simp [Phase.name?, hphase])
    · obtain ⟨rfl, rfl, rfl⟩ := by simpa [Call.goes] using hs
      exact h.goes hk (by simp [Phase.name?, hphase])
    · next hpath =>
      obtain ⟨rfl, rfl, rfl⟩ := by simpa using hs
      exact h.movesAside hphase rfl hk hpath
  · next slot e hphase =>
    rw [hphase] at hk
    obtain ⟨rfl, rfl, rfl⟩ := by simpa [Call.ends] using hs
    apply h.endsRemoving env rfl (by rw [hphase]; rfl) (by simp)
    · rintro slot ⟨⟩
      exact hk.2
    · intro identity hresult
      cases hresult
  · cases hs

/-- What is read of the file that was opened at the path is its key. -/
theorem Opened.atPath (ho : Opened start tr d n (C := C)) (h : Sound start tr d)
    {stored : StoredFile}
    (hstored : d.files[n]? = some stored) (hread : readStored C stored = .ok identity)
    (hnone : NoneAside tr) : AtPath d identity := by
  obtain ⟨⟨found, hkey⟩, hpath⟩ := ho
  have hholds := h.holds n found hkey
  obtain rfl : stored = keyFile found := Option.some.inj (hstored.symm.trans hholds)
  rw [readStored_keyFile] at hread
  obtain rfl := Except.ok.inj hread
  exact ⟨n, hpath hnone, hholds⟩

/-- So does a step of `load_at`. -/
theorem stepLoad_good (h : Sound start tr d) (hk : Knows start tr d c.phase)
    (hs : stepLoad path d i c env = some (d', c', es)) : Good start tr d c d' c' es := by
  unfold stepLoad at hs
  split at hs
  · split at hs
    · obtain ⟨rfl, rfl, rfl⟩ := by simpa [Call.ends] using hs
      exact h.ends rfl (by simp)
    · obtain ⟨rfl, rfl, rfl⟩ := by simpa [Call.goes] using hs
      exact h.goes trivial (by simp [Phase.name?])
    · next n _ hpath =>
      obtain ⟨rfl, rfl, rfl⟩ := by simpa [Call.goes] using hs
      exact h.goes ⟨h.path n hpath, fun _ => hpath⟩ (by simp [Phase.name?])
  · next n hphase =>
    rw [hphase] at hk
    split at hs
    · cases hs
    · obtain ⟨rfl, rfl, rfl⟩ := by simpa [Call.ends] using hs
      exact h.ends rfl (by simp)
    · next stored hstored =>
      obtain ⟨rfl, rfl, rfl⟩ := by simpa [Call.ends] using hs
      exact h.ends rfl fun identity hread hnone => Opened.atPath hk h hstored hread hnone
  · split at hs
    · obtain ⟨rfl, rfl, rfl⟩ := by simpa [Call.ends] using hs
      exact h.ends rfl (by simp)
    · cases hs
    · obtain ⟨rfl, rfl, rfl⟩ := by simpa [Call.goes] using hs
      exact h.goes trivial (by simp [Phase.name?])
  · next identity hphase =>
    split at hs
    · obtain ⟨rfl, rfl, rfl⟩ := by simpa [Call.ends] using hs
      exact h.ends rfl (by simp)
    · obtain ⟨rfl, rfl, rfl⟩ := by simpa [Call.ends] using hs
      exact h.ends rfl (by simp)
    · next hfree =>
      obtain ⟨rfl, rfl, rfl⟩ := by simpa [Call.goes] using hs
      apply h.touches (h.closed.create _ _) (h.frame_create _ hfree (by simp) _)
      · exact entry_create_of_ne (by simp)
      · rw [hphase]
        intro slot hname
        cases hname
      · exact only_create h.closed
      · intro a ha
        obtain rfl := Option.some.inj ha
        exact .inr hfree
  · next identity n hphase =>
    rw [hphase] at hk
    have honly : d.Only (.temporary identity.clientId) n := hk
    have hname : c.phase.name? = some (.temporary identity.clientId) := by
      rw [hphase]
      rfl
    -- the file that is written has no other name
    have hwrite (x : StoredFile) : Frame start tr [] d (d.write n x) c.phase.name? := by
      rw [hname]
      exact h.frame_write honly x
    have hslot (slot : Slot) (heq : c.phase.name? = some (.corrupt slot)) (j m : ℕ) :
        .aside j m slot ∉ tr := by
      rw [hname] at heq
      cases heq
    split at hs
    · obtain ⟨rfl, rfl, rfl⟩ := by simpa [Call.goes] using hs
      apply h.touches (h.closed.write _ _) (hwrite _) rfl hslot
      · exact ⟨⟨n, honly.1⟩, by simp⟩
      · intro a ha
        exact .inl (hname.trans ha)
    · obtain ⟨rfl, rfl, rfl⟩ := by simpa [Call.goes] using hs
      apply h.touches (h.closed.write _ _) (hwrite _) rfl hslot
      · exact ⟨honly, content_write (h.closed _ n honly.1) _⟩
      · intro a ha
        exact .inl (hname.trans ha)
  · next identity n hphase =>
    rw [hphase] at hk
    split at hs
    · obtain ⟨rfl, rfl, rfl⟩ := by simpa [Call.goes] using hs
      exact h.goes ⟨⟨n, hk.1.1⟩, by simp⟩ (by simp [Phase.name?, hphase])
    · obtain ⟨rfl, rfl, rfl⟩ := by simpa [Call.goes] using hs
      exact h.goes hk (by simp [Phase.name?, hphase])
  · next identity n hphase =>
    rw [hphase] at hk
    obtain ⟨honly, hholds⟩ := hk
    split at hs
    · obtain ⟨rfl, rfl, rfl⟩ := by simpa [Call.goes] using hs
      exact h.goes ⟨⟨n, honly.1⟩, by simp⟩ (by simp [Phase.name?, hphase])
    · obtain ⟨rfl, rfl, rfl⟩ := by simpa [Call.goes] using hs
      exact h.goes ⟨⟨n, honly.1⟩, by simp⟩ (by simp [Phase.name?, hphase])
    · obtain ⟨rfl, rfl, rfl⟩ := by simpa [Call.goes] using hs
      exact h.goes ⟨n, honly.1⟩ (by simp [Phase.name?, hphase])
    · next hentry hfree =>
      obtain rfl := Option.some.inj (honly.1.symm.trans hentry)
      obtain ⟨rfl, rfl, rfl⟩ := by simpa using hs
      exact h.publishes (by rw [hphase]; rfl) rfl honly hholds hfree
  · next identity hphase =>
    rw [hphase] at hk
    split at hs
    · obtain ⟨rfl, rfl, rfl⟩ := by simpa [Call.goes] using hs
      exact h.goes ⟨hk.1, by simp⟩ (by simp [Phase.name?, hphase])
    · obtain ⟨rfl, rfl, rfl⟩ := by simpa [Call.goes] using hs
      refine h.goes ⟨hk.1, ?_⟩ (by simp [Phase.name?, hphase])
      rintro found ⟨⟩
      exact hk.2
  · next identity hphase =>
    rw [hphase] at hk
    split at hs
    · obtain ⟨rfl, rfl, rfl⟩ := by simpa [Call.goes] using hs
      exact h.goes ⟨hk, by simp⟩ (by simp [Phase.name?, hphase])
    · obtain ⟨rfl, rfl, rfl⟩ := by simpa [Call.goes] using hs
      exact h.goes ⟨hk, by simp⟩ (by simp [Phase.name?, hphase])
    · next n _ hpath =>
      obtain ⟨rfl, rfl, rfl⟩ := by simpa [Call.goes] using hs
      exact h.goes ⟨hk, h.path n hpath, fun _ => hpath⟩ (by simp [Phase.name?, hphase])
  · next identity n hphase =>
    rw [hphase] at hk
    split at hs
    · cases hs
    · obtain ⟨rfl, rfl, rfl⟩ := by simpa [Call.goes] using hs
      exact h.goes ⟨hk.1, by simp⟩ (by simp [Phase.name?, hphase])
    · next stored hstored =>
      obtain ⟨rfl, rfl, rfl⟩ := by simpa [Call.goes] using hs
      refine h.goes ⟨hk.1, ?_⟩ (by simp [Phase.name?, hphase])
      exact fun found hread hnone => hk.2.atPath h hstored hread hnone
  · next identity result hphase =>
    rw [hphase] at hk
    obtain ⟨rfl, rfl, rfl⟩ := by simpa [Call.ends] using hs
    apply h.endsRemoving env rfl (by rw [hphase]; rfl) (by simp)
    · rintro slot ⟨⟩
    · exact hk.2
  · cases hs

/-- So does every step. -/
theorem stepCall_good (h : Sound start tr d) (hk : Knows start tr d c.phase)
    (hs : stepCall path d i c env = some (d', c', es)) : Good start tr d c d' c' es := by
  unfold stepCall at hs
  split at hs
  · exact stepReplace_good h hk hs
  · exact stepReplace_good h hk hs
  · exact stepReplace_good h hk hs
  · exact stepReplace_good h hk hs
  · exact stepLoad_good h hk hs

/-! ## Runs -/

variable {s s' : State C}

/-- The invariant holds of a clean directory. -/
theorem Inv.initial (h : Clean C start) : Inv start [] (⟨start, []⟩ : State C) := by
  have hkey {n : ℕ} {identity : Identity C} (hk : Key start [] n identity) :
      start.entry .identity = some n ∧ Holds start n identity := by
    rcases hk with hk | ⟨i, hmem⟩
    · exact hk
    · exact absurd hmem List.not_mem_nil
  constructor
  · constructor
    · exact h.1
    · intro n hn
      obtain ⟨identity, hholds⟩ := h.2 n hn
      exact ⟨identity, .inl ⟨hn, hholds⟩⟩
    · intro n identity hk
      exact (hkey hk).2
    · intro n identity hk
      exact .inl (hkey hk).1
    · intro i n slot hmem
      exact absurd hmem List.not_mem_nil
  · intro i c hc
    simp at hc
  · intro i j c c' a hc
    simp at hc
  · intro _ i identity hmem
    exact absurd hmem List.not_mem_nil

/-- A new call owns nothing and knows nothing. -/
theorem Inv.calls (h : Inv start tr s) {c : Call C} (hname : c.phase.name? = none)
    (hk : Knows start tr s.disk c.phase) : Inv start tr { s with calls := s.calls ++ [c] } := by
  have hcases (i : ℕ) (c' : Call C) (hc' : (s.calls ++ [c])[i]? = some c') :
      s.calls[i]? = some c' ∨ c' = c := by
    rcases Nat.lt_or_ge i s.calls.length with hi | hi
    · rw [List.getElem?_append_left hi] at hc'
      exact .inl hc'
    · rw [List.getElem?_append_right hi] at hc'
      exact .inr (List.mem_singleton.mp (List.mem_of_getElem? hc'))
  constructor
  · exact h.sound
  · intro i c' hc'
    rcases hcases i c' hc' with hc' | rfl
    · exact h.knows i c' hc'
    · exact hk
  · intro i j c₁ c₂ a h₁ h₂ ha₁ ha₂
    rcases hcases i c₁ h₁ with h₁ | rfl
    · rcases hcases j c₂ h₂ with h₂ | rfl
      · exact h.distinct i j c₁ c₂ a h₁ h₂ ha₁ ha₂
      · rw [hname] at ha₂
        cases ha₂
    · rw [hname] at ha₁
      cases ha₁
  · exact h.loads

/-- A step of one call. -/
theorem Inv.update (h : Inv start tr s) (hc : s.calls[i]? = some c)
    (hg : Good start tr s.disk c d' c' es) : Inv start (tr ++ es) ⟨d', s.calls.set i c'⟩ := by
  have hi : i < s.calls.length := (List.getElem?_eq_some_iff.mp hc).1
  have hself : (s.calls.set i c')[i]? = some c' := List.getElem?_set_self hi
  have hother {j : ℕ} (hj : j ≠ i) : (s.calls.set i c')[j]? = s.calls[j]? :=
    List.getElem?_set_ne (Ne.symm hj)
  -- no other call owns what this one owns now
  have hapart (j : ℕ) (c'' : Call C) (a : Name) (hj : j ≠ i) (hc'' : s.calls[j]? = some c'')
      (ha : c''.phase.name? = some a) : c'.phase.name? ≠ some a := by
    intro ha'
    rcases hg.name a ha' with hold | hfree
    · exact hj (h.distinct j i c'' c a hc'' hc ha hold)
    · obtain ⟨n, hn⟩ := (h.knows j c'' hc'').entry ha
      rw [hfree] at hn
      cases hn
  constructor
  · exact hg.sound
  · intro j c'' hc''
    by_cases hj : j = i
    · subst hj
      obtain rfl := Option.some.inj (hself.symm.trans hc'')
      exact hg.knows
    · rw [hother hj] at hc''
      apply (h.knows j c'' hc'').frame h.sound hg.frame
      intro a ha hown
      exact hj (h.distinct j i c'' c a hc'' hc ha hown)
  · intro j k c₁ c₂ a h₁ h₂ ha₁ ha₂
    by_cases hj : j = i
    · by_cases hk : k = i
      · exact hj.trans hk.symm
      · subst hj
        obtain rfl := Option.some.inj (hself.symm.trans h₁)
        rw [hother hk] at h₂
        exact absurd ha₁ (hapart k c₂ a hk h₂ ha₂)
    · rw [hother hj] at h₁
      by_cases hk : k = i
      · subst hk
        obtain rfl := Option.some.inj (hself.symm.trans h₂)
        exact absurd ha₂ (hapart j c₁ a hj h₁ ha₁)
      · rw [hother hk] at h₂
        exact h.distinct j k c₁ c₂ a h₁ h₂ ha₁ ha₂
  · intro hnone j identity hmem
    rcases List.mem_append.mp hmem with hmem | hmem
    · exact hg.frame.atPath h.sound hnone.of_append_right (h.loads hnone.of_append j identity hmem)
    · exact hg.loads j identity hmem hnone

/-- Every step keeps the invariant. -/
theorem Inv.step (h : Inv start tr s) {l : Label} (hs : step path s l = some (s', es)) :
    Inv start (tr ++ es) s' := by
  cases l with
  | load =>
    obtain ⟨rfl, rfl⟩ := by simpa [IdentityStore.step] using hs
    rw [List.append_nil]
    exact h.calls rfl trivial
  | replace =>
    obtain ⟨rfl, rfl⟩ := by simpa [IdentityStore.step] using hs
    rw [List.append_nil]
    exact h.calls rfl trivial
  | step i env =>
    unfold IdentityStore.step at hs
    dsimp only at hs
    split at hs
    · cases hs
    next c hc =>
    split at hs
    · cases hs
    next d' c' es' hcall =>
    obtain ⟨rfl, rfl⟩ := by simpa using hs
    exact h.update hc (stepCall_good h.sound (h.knows i c hc) hcall)
  | crash i =>
    unfold IdentityStore.step at hs
    dsimp only at hs
    split at hs
    · cases hs
    next c hc =>
    obtain ⟨rfl, rfl⟩ := by simpa using hs
    exact h.update hc (h.sound.goes trivial (by simp [Phase.name?]))

/-- A complete file is that of one key. -/
theorem Holds.eq {identity' : Identity C} (h : Holds d n identity) (h' : Holds d n identity') :
    identity = identity' := by
  have heq : keyFile identity = keyFile identity' := Option.some.inj (h.symm.trans h')
  have hread := readStored_keyFile identity
  rw [heq, readStored_keyFile] at hread
  exact (Except.ok.inj hread).symm

/-- The invariant says what is claimed. -/
theorem Inv.safe (h : Inv start tr s) : Safe start tr s.disk := by
  constructor
  · intro n hn
    obtain ⟨identity, hkey⟩ := h.sound.path n hn
    exact ⟨identity, h.sound.holds n identity hkey⟩
  · exact h.loads
  · intro hnone i j identity identity' hmem hmem'
    obtain ⟨n, hn, hholds⟩ := h.loads hnone i identity hmem
    obtain ⟨n', hn', hholds'⟩ := h.loads hnone j identity' hmem'
    obtain rfl := Option.some.inj (hn.symm.trans hn')
    exact hholds.eq hholds'
  · intro n identity hkey
    refine ⟨h.sound.holds n identity hkey, ?_⟩
    rcases h.sound.named n identity hkey with hpath | ⟨i, slot, hmem⟩
    · exact .inl hpath
    · exact .inr ⟨i, slot, hmem, h.sound.aside i n slot hmem⟩
  · exact h.sound.aside

/-- Whatever calls run and crash on a clean directory, no key is lost and loads agree. -/
theorem store_safe (hclean : Clean C start) (h : (system C path start).Reaches tr s) :
    Safe start tr s.disk := by
  have hinv : Inv start tr s := by
    apply h.invariant
    · rintro s rfl
      exact Inv.initial hclean
    · intro tr s l s' es _ _ hinv hs
      exact hinv.step hs
  exact hinv.safe

/-! ## A run -/

/-- The public point of a pair. -/
def samplePoint : List UInt8 :=
  [0x4, 0x60, 0xfe, 0xd4, 0xba, 0x25, 0x5a, 0x9d, 0x31, 0xc9, 0x61, 0xeb, 0x74, 0xc6, 0x35, 0x6d,
    0x68, 0xc0, 0x49, 0xb8, 0x92, 0x3b, 0x61, 0xfa, 0x6c, 0xe6, 0x69, 0x62, 0x2e, 0x60, 0xf2,
    0x9f, 0xb6, 0x79, 0x3, 0xfe, 0x10, 0x8, 0xb8, 0xbc, 0x99, 0xa4, 0x1a, 0xe9, 0xe9, 0x56, 0x28,
    0xbc, 0x64, 0xf2, 0xf1, 0xb2, 0xc, 0x2d, 0x7e, 0x9f, 0x51, 0x77, 0xa3, 0xc2, 0x94, 0xd4, 0x46,
    0x22, 0x99]

/-- Its encoding, which holds the private key and the point. -/
def sampleDer : List UInt8 :=
  [0x30, 0x81, 0x87, 0x2, 0x1, 0x0, 0x30, 0x13, 0x6, 0x7, 0x2a, 0x86, 0x48, 0xce, 0x3d, 0x2, 0x1,
    0x6, 0x8, 0x2a, 0x86, 0x48, 0xce, 0x3d, 0x3, 0x1, 0x7, 0x4, 0x6d, 0x30, 0x6b, 0x2, 0x1, 0x1,
    0x4, 0x20, 0xc9, 0xaf, 0xa9, 0xd8, 0x45, 0xba, 0x75, 0x16, 0x6b, 0x5c, 0x21, 0x57, 0x67, 0xb1,
    0xd6, 0x93, 0x4e, 0x50, 0xc3, 0xdb, 0x36, 0xe8, 0x9b, 0x12, 0x7b, 0x8a, 0x62, 0x2b, 0x12, 0xf,
    0x67, 0x21, 0xa1, 0x44, 0x3, 0x42, 0x0] ++ samplePoint

/-- A digest whose first half is the ID. -/
def sampleDigest : List UInt8 :=
  [0xb1, 0x8b, 0x86, 0xce, 0x13, 0x89, 0xe4, 0x6d, 0xe8, 0x7a, 0xa4, 0xa5, 0x13, 0x1c, 0xe8, 0x3c,
    0x11, 0x60, 0xfa, 0x33, 0xc0, 0x87, 0xab, 0x15, 0xb8, 0x63, 0x57, 0x4d, 0x31, 0xd8, 0xff,
    0x3c]

/-- The key operations on this one pair. -/
def sampleCrypto : Crypto where
  publicKey der := if der = sampleDer then some samplePoint else none
  sha256 key := if key = samplePoint then sampleDigest else []
  short der key h := by
    split at h
    · next hder =>
      rw [hder]
      decide +kernel
    · cases h

/-- An identity to run the store with. -/
def sample : Identity sampleCrypto :=
  ⟨sampleDer, samplePoint, sampleDigest.take 16, by decide, by decide⟩

/-- The first load publishes a key, the second reads it, and a replacement moves it aside. -/
def threeCalls : List Label :=
  let step (i : ℕ) : Label := .step i ⟨.ok (), sampleDer, 0, 0⟩
  .load :: List.replicate 8 (step 0) ++ (.load :: List.replicate 2 (step 1)) ++
    (.replace :: List.replicate 3 (step 2))

/-- A directory without a file. -/
def emptyDisk : Disk := ⟨[], fun _ => none⟩

/-- Three calls at once load one key. -/
theorem store_safe_threeCalls :
    .loaded 0 sample ∈ (system sampleCrypto "identity" emptyDisk).trace ⟨emptyDisk, []⟩ threeCalls ∧
      .loaded 1 sample ∈ (system sampleCrypto "identity" emptyDisk).trace
        ⟨emptyDisk, []⟩ threeCalls ∧
      Safe emptyDisk ((system sampleCrypto "identity" emptyDisk).trace ⟨emptyDisk, []⟩ threeCalls)
        ((system sampleCrypto "identity" emptyDisk).final ⟨emptyDisk, []⟩ threeCalls).disk := by
  have hclean : Clean sampleCrypto emptyDisk := by
    constructor
    · intro a n h
      cases h
    · intro n h
      cases h
  have hrun : (system sampleCrypto "identity" emptyDisk).Reaches _ _ :=
    EventSystem.reaches_trace threeCalls rfl (by decide +kernel)
  exact ⟨by decide +kernel, by decide +kernel, store_safe hclean hrun⟩

end IdentityStore
end MobileWebcamBridge
