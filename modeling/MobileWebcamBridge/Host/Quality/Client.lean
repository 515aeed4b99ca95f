import MobileWebcamBridge.Host.Quality
import MobileWebcamBridge.Host.Wire

/-!
# `quality/client.rs`: what the GUI knows of a connection's quality

`aspectError` is the value of the `f64` expression in `Wish::resolve`.
-/

set_option autoImplicit false

namespace MobileWebcamBridge
namespace HostQuality

/-- What the window knows of the phone's modes and of its own request. -/
structure Client where
  modes : Option (List Mode)
  permission : Option UInt8
  pending : Option Mode
  staged : Bool
  applied : Option Tuple
  error : Option String
  migratedToAuto : Bool
  initialWish : Wish
  initialChecked : Bool
deriving DecidableEq, Repr

namespace Client

/-- Nothing is known before the first list. -/
def new (initialWish : Wish) : Client where
  modes := none
  permission := none
  pending := none
  staged := false
  applied := none
  error := none
  migratedToAuto := false
  initialWish
  initialChecked := false

/-- The camera may be used and there are modes. -/
def ready (c : Client) : Bool :=
  c.permission == some HostWire.PERMISSION_READY && c.modes.any fun modes => !modes.isEmpty

/-- The mode of the list that comes closest to a wish. -/
def resolve (aspectError : Mode → ℚ) (c : Client) (wish : Wish) : Option Mode :=
  c.modes.bind (wish.resolve aspectError)

/-- A request for a wish, if none is under way. -/
def begin (aspectError : Mode → ℚ) (c : Client) (wish : Wish) : Client × Option Mode :=
  if c.pending.isSome then (c, none)
  else if !c.ready then
    ({ c with error := some "camera capabilities or permission are not ready" }, none)
  else
    match c.resolve aspectError wish with
    | none =>
      ({ c with error := some "the saved/requested quality is not supported by this phone" }, none)
    | some mode =>
      let c := { c with error := none, initialChecked := true }
      if c.applied = some mode.tuple then (c, none)
      else ({ c with pending := some mode, staged := false }, some mode)

/-- A capability list; the first one may ask for the saved wish. -/
def advertise (aspectError : Mode → ℚ) (c : Client) (permission : UInt8) (modes : List Mode) :
    Client × Option Mode :=
  let c := { c with permission := some permission, modes := some (modes.filter Mode.usable) }
  if !c.ready || c.initialChecked then (c, none)
  else
    let c := { c with initialChecked := true }
    if (c.resolve aspectError c.initialWish).isSome then c.begin aspectError c.initialWish
    else
      { c with migratedToAuto := true, initialWish := .default }.begin aspectError .default

/-- The phone has accepted the request. -/
def progress (c : Client) (staged : Bool) : Client :=
  if c.pending.isSome then { c with staged, applied := none } else c

/-- The request has failed. -/
def failed (c : Client) (reason : String) : Client :=
  { c with pending := none, staged := false, error := some reason }

/-- The receiver shows a mode; any other than the one requested is a failure. -/
def confirmed (c : Client) (width height fps : UInt16) : Client × Bool :=
  if c.pending.map Mode.tuple ≠ some (width, height, fps) then
    (c.failed "the receiver confirmed an unexpected quality", false)
  else
    ({ c with
        applied := some (width, height, fps)
        pending := none
        staged := false
        error := none },
      true)

/-- The session has ended. -/
def disconnected (c : Client) : Client :=
  { c with modes := none, permission := none, pending := none, staged := false, applied := none }

/-- A client that is ready has a list. -/
theorem modes_of_ready {c : Client} (h : c.ready = true) : c.modes.isSome = true := by
  unfold ready at h
  cases hmodes : c.modes with
  | none => simp [hmodes] at h
  | some modes => rfl

/-- A confirmation is of the mode requested, or a failure. -/
theorem confirmed_cases (c : Client) (width height fps : UInt16) :
    (c.pending.map Mode.tuple = some (width, height, fps) ∧
      c.confirmed width height fps =
        ({ c with
            applied := some (width, height, fps)
            pending := none
            staged := false
            error := none },
          true)) ∨
    (c.pending.map Mode.tuple ≠ some (width, height, fps) ∧
      c.confirmed width height fps =
        (c.failed "the receiver confirmed an unexpected quality", false)) := by
  unfold confirmed
  split
  · next h => exact .inr ⟨h, rfl⟩
  · next h => exact .inl ⟨not_not.mp h, rfl⟩

/-! ## Beginning an apply -/

/-- A client either keeps its apply as it was, or begins one for a mode it was free to take. -/
structure Begins (c c' : Client) (queued : Option Mode) : Prop where
  applied : c'.applied = c.applied
  checked : c.initialChecked = true → c'.initialChecked = true
  kept : queued = none → c'.pending = c.pending ∧ c'.staged = c.staged
  begun : ∀ mode, queued = some mode → c.pending = none ∧ c'.pending = some mode ∧
    c'.staged = false ∧ c.applied ≠ some mode.tuple ∧ c'.initialChecked = true

variable {aspectError : Mode → ℚ} {c : Client}

/-- A call that asks for nothing leaves the request alone. -/
theorem Begins.refused (c c' : Client) (happlied : c'.applied = c.applied)
    (hchecked : c.initialChecked = true → c'.initialChecked = true)
    (hpending : c'.pending = c.pending) (hstaged : c'.staged = c.staged) : Begins c c' none where
  applied := happlied
  checked := hchecked
  kept _ := ⟨hpending, hstaged⟩
  begun _ h := by cases h

/-- `begin` asks only when it is ready and no request is under way. -/
theorem begin_begins (wish : Wish) :
    Begins c (c.begin aspectError wish).1 (c.begin aspectError wish).2 := by
  unfold begin
  split
  · exact .refused c _ rfl id rfl rfl
  next hfree =>
  split
  · exact .refused c _ rfl id rfl rfl
  split
  · exact .refused c _ rfl id rfl rfl
  dsimp only
  split
  · exact .refused c _ rfl (fun _ => rfl) rfl rfl
  next hnew =>
  constructor
  · rfl
  · exact fun _ => rfl
  · intro h
    cases h
  · intro mode hmode
    obtain rfl := Option.some.inj hmode
    exact ⟨by simpa using hfree, rfl, rfl, hnew, rfl⟩

/-- What precedes the decision leaves the apply alone. -/
theorem Begins.after {c₀ c' : Client} {queued : Option Mode} (h : Begins c c' queued)
    (happlied : c.applied = c₀.applied) (hpending : c.pending = c₀.pending)
    (hstaged : c.staged = c₀.staged) (hchecked : c.initialChecked = true) :
    Begins c₀ c' queued where
  applied := h.applied.trans happlied
  checked _ := h.checked hchecked
  kept hq := ⟨(h.kept hq).1.trans hpending, (h.kept hq).2.trans hstaged⟩
  begun mode hq := by
    obtain ⟨hfree, hbegun⟩ := h.begun mode hq
    rw [happlied] at hbegun
    exact ⟨hpending ▸ hfree, hbegun⟩

/-- So does the first capability list. -/
theorem advertise_begins (permission : UInt8) (modes : List Mode) :
    Begins c (c.advertise aspectError permission modes).1
      (c.advertise aspectError permission modes).2 := by
  unfold advertise
  dsimp only
  split
  · exact .refused c _ rfl id rfl rfl
  split
  · exact (begin_begins _).after rfl rfl rfl rfl
  · exact (begin_begins _).after rfl rfl rfl rfl

/-- An advertisement begins an apply once at most, and not after the user has. -/
theorem advertise_once {permission : UInt8} {modes : List Mode} {mode : Mode}
    (h : (c.advertise aspectError permission modes).2 = some mode) : c.initialChecked = false := by
  unfold advertise at h
  dsimp only at h
  split at h
  · cases h
  · next hunchecked =>
    simp only [Bool.or_eq_true, not_or, Bool.not_eq_true] at hunchecked
    exact hunchecked.2

/-- A wish that resolves is taken when no apply is under way, unless it is what is applied. -/
theorem begin_of_ready {wish : Wish} {mode : Mode} (hpending : c.pending = none)
    (hready : c.ready = true) (hresolve : c.resolve aspectError wish = some mode) :
    (c.begin aspectError wish).2 = if c.applied = some mode.tuple then none else some mode := by
  unfold begin
  by_cases h : c.applied = some mode.tuple
  · simp [hpending, hready, hresolve, h]
  · simp [hpending, hready, hresolve, h]

end Client

end HostQuality
end MobileWebcamBridge
