import MobileWebcamBridge.Host.Session.Runs

/-!
# The watch over an apply

At every return of a call the GUI's deadline runs exactly while a request waits for the worker and
not for the phone's user. An advertisement starts one request of a client's life at most, and once
a request is answered the next wish is taken.
-/

set_option autoImplicit false

namespace MobileWebcamBridge
namespace HostSession
namespace Session

open HostControl HostQuality.Client Trace
open HostQuality hiding Event

variable {aspectError : Mode → ℚ} {s : Session} {now : ℕ} {finished : Bool} {waited : Waited}

/-- A request under way has a deadline until it is staged, and none is left without one. -/
structure Watched (s : Session) : Prop where
  deadline : s.qualityDeadline.isSome = (s.quality.pending.isSome && !s.quality.staged)
  staged : s.quality.staged = true → s.quality.pending.isSome = true
  fresh : ∀ mode, s.quality.pending = some mode → s.quality.applied ≠ some mode.tuple
  child : s.events = true → s.child = true
  modes : s.quality.modes.isSome = true → s.events = true

/-- A client without a request, and no deadline. -/
theorem Watched.idle {s' : Session} (hpending : s'.quality.pending = none)
    (hstaged : s'.quality.staged = false) (hdeadline : s'.qualityDeadline = none)
    (hchild : s'.events = true → s'.child = true)
    (hmodes : s'.quality.modes.isSome = true → s'.events = true) : Watched s' where
  deadline := by simp [hdeadline, hpending]
  staged h := by simp [hstaged] at h
  fresh mode h := by simp [hpending] at h
  child := hchild
  modes := hmodes

/-- What leaves the client and the deadline alone. -/
theorem Watched.same {s' : Session} (h : Watched s) (hquality : s'.quality = s.quality)
    (hdeadline : s'.qualityDeadline = s.qualityDeadline) (hevents : s'.events = s.events)
    (hchild : s'.child = s.child) : Watched s' where
  deadline := by rw [hdeadline, hquality, h.deadline]
  staged := by
    rw [hquality]
    exact h.staged
  fresh := by
    rw [hquality]
    exact h.fresh
  child := by
    rw [hevents, hchild]
    exact h.child
  modes := by
    rw [hquality, hevents]
    exact h.modes

variable (now) in
/-- A client that may have begun a request, which the deadline then watches. -/
theorem Watched.begins {s' : Session} {queued : Option Mode} (h : Watched s)
    (hbegins : Begins s.quality s'.quality queued)
    (hdeadline : s'.qualityDeadline =
      if queued.isSome then some (applyExpiry now) else s.qualityDeadline)
    (hevents : s'.events = s.events) (hchild : s'.child = s.child) (hopen : s.events = true) :
    Watched s' := by
  cases queued with
  | none =>
    obtain ⟨hpending, hstaged⟩ := hbegins.kept rfl
    refine ⟨?_, ?_, ?_, ?_, fun _ => hevents.trans hopen⟩
    · rw [hpending, hstaged, ← h.deadline]
      simp [hdeadline]
    · rw [hpending, hstaged]
      exact h.staged
    · rw [hpending, hbegins.applied]
      exact h.fresh
    · rw [hevents, hchild]
      exact h.child
  | some mode =>
    obtain ⟨-, hpending, hstaged, hnew, -⟩ := hbegins.begun mode rfl
    refine ⟨?_, ?_, ?_, ?_, fun _ => hevents.trans hopen⟩
    · simp [hdeadline, hpending, hstaged]
    · simp [hpending]
    · intro m hm
      obtain rfl := Option.some.inj (hpending.symm.trans hm)
      rw [hbegins.applied]
      exact hnew
    · rw [hevents, hchild]
      exact h.child

/-- A request that is accepted keeps its deadline until it is staged. -/
theorem Watched.progress (h : Watched s) (staged : Bool) :
    Watched { s with
      quality := s.quality.progress staged
      qualityDeadline :=
        if staged then none
        else if s.quality.staged && (s.quality.progress staged).pending.isSome then
          some (applyExpiry now)
        else s.qualityDeadline } := by
  cases hpending : s.quality.pending with
  | none =>
    have hsame : s.quality.progress staged = s.quality := by simp [Client.progress, hpending]
    have hnone : s.qualityDeadline = none := by
      have := h.deadline
      simpa [hpending] using this
    apply h.same
    · exact hsame
    · simp [hsame, hpending, hnone]
    · rfl
    · rfl
  | some mode =>
    have hprogress : s.quality.progress staged = { s.quality with staged, applied := none } := by
      simp [Client.progress, hpending]
    refine ⟨?_, ?_, ?_, h.child, ?_⟩
    · have hdeadline := h.deadline
      rw [hpending] at hdeadline
      cases staged
      · cases hs : s.quality.staged
        · simpa [hprogress, hpending, hs] using hdeadline
        · simp [hprogress, hpending]
      · simp [hprogress, hpending]
    · simp [hprogress, hpending]
    · simp [hprogress]
    · rw [hprogress]
      exact h.modes

/-- Statistics change the label only, and only with no request under way. -/
theorem labelled_cases (c : Client) (stats : Stats) :
    labelled c stats = c ∨ (c.pending = none ∧ labelled c stats = { c with
      applied :=
        some (stats.width.toUInt16, stats.height.toUInt16, stats.targetFps.toUInt16) }) := by
  unfold labelled
  split
  · next h =>
    obtain ⟨-, hnone⟩ := (Bool.and_eq_true _ _).mp h
    exact .inr ⟨by simpa using hnone, rfl⟩
  · exact .inl rfl

variable (aspectError now finished) in
/-- Every event keeps the watch. -/
theorem Watched.act (h : Watched s) (hopen : s.events = true) (event : Event) :
    Watched (s.act aspectError now finished event).1 := by
  cases event with
  | pairingInfo addresses fingerprint key =>
    simp only [Session.act]
    split
    · exact h.same rfl rfl rfl rfl
    · exact h
  | connecting => exact h.same rfl rfl rfl rfl
  | waiting => exact h.same rfl rfl rfl rfl
  | authorizationPending clientId =>
    simp only [Session.act]
    split
    · exact h.same rfl rfl rfl rfl
    · exact h.same rfl rfl rfl rfl
  | stats stats =>
    -- statistics are recorded as applied only while no request is under way
    rcases labelled_cases s.quality stats with hsame | ⟨hnone, hsame⟩
    · exact h.same hsame rfl rfl rfl
    · simp only [Session.act, hsame]
      refine ⟨h.deadline, h.staged, ?_, h.child, h.modes⟩
      intro mode hmode
      cases hnone.symm.trans hmode
  | error message => exact h.same rfl rfl rfl rfl
  | usbPermission device => exact h.same rfl rfl rfl rfl
  | qualityCapabilities permission revision epoch modes =>
    have hbegins : Begins s.quality (s.quality.advertise aspectError permission modes).1 _ :=
      advertise_begins permission modes
    simp only [Session.act]
    split
    · next quality hadvertise =>
      rw [hadvertise] at hbegins
      exact h.begins now hbegins rfl rfl rfl hopen
    · next quality mode hadvertise =>
      rw [hadvertise] at hbegins
      exact h.begins now hbegins rfl rfl rfl hopen
  | qualityProgress staged => exact h.progress staged
  | qualityApplied width height fps =>
    rcases confirmed_cases s.quality width height fps with ⟨-, hq⟩ | ⟨-, hq⟩
    · simp only [Session.act, hq]
      exact .idle rfl rfl rfl h.child (fun _ => hopen)
    · simp only [Session.act, hq]
      exact .idle rfl rfl rfl h.child (fun _ => hopen)
  | qualityFailed reason terminal =>
    simp only [Session.act]
    split
    · exact .idle rfl rfl rfl h.child h.modes
    · exact .idle rfl rfl rfl h.child h.modes
  | stopped => exact h

variable (aspectError) in
/-- An event is passed over, or acted on. -/
theorem handle_cases (s : Session) (now : ℕ) (finished : Bool) (event : Event) :
    (s.handle aspectError now finished event).1 = s ∧
      (s.handle aspectError now finished event).2.2 = none ∧ s.answers finished event = false ∨
    s.handle aspectError now finished event = s.act aspectError now finished event ∧
      s.state ≠ .stopping ∧ finished = false ∧ event ≠ .stopped := by
  unfold Session.handle
  split
  · next h => exact .inl ⟨rfl, rfl, by rw [h]; rfl⟩
  next hevent =>
  split
  · next h =>
    have hdeaf : (decide (s.state = .stopping) || finished) = true := by simpa using h
    refine .inl ⟨rfl, rfl, ?_⟩
    cases event <;> simp [answers, hdeaf]
  · next h =>
    obtain ⟨hstate, hfinished⟩ := not_or.mp h
    exact .inr ⟨rfl, hstate, by simpa using hfinished, hevent⟩

/-- An event leaves the worker alone. -/
theorem act_frame (s : Session) (now : ℕ) (finished : Bool) (event : Event) :
    (s.act aspectError now finished event).1.events = s.events ∧
      (s.act aspectError now finished event).1.child = s.child ∧
      (s.act aspectError now finished event).1.deadline = s.deadline := by
  unfold Session.act
  split
  · split <;> exact ⟨rfl, rfl, rfl⟩
  · exact ⟨rfl, rfl, rfl⟩
  · exact ⟨rfl, rfl, rfl⟩
  · split <;> exact ⟨rfl, rfl, rfl⟩
  · exact ⟨rfl, rfl, rfl⟩
  · exact ⟨rfl, rfl, rfl⟩
  · exact ⟨rfl, rfl, rfl⟩
  · split <;> exact ⟨rfl, rfl, rfl⟩
  · exact ⟨rfl, rfl, rfl⟩
  · split <;> exact ⟨rfl, rfl, rfl⟩
  · dsimp only
    split <;> exact ⟨rfl, rfl, rfl⟩
  · exact ⟨rfl, rfl, rfl⟩

/-- What an event may do to the request: keep or end it, or begin one. -/
structure Requests (c c' : Client) (queued : Option Mode) : Prop where
  checked : c.initialChecked = true → c'.initialChecked = true
  kept : queued = none → c'.pending = c.pending ∨ c'.pending = none
  once : ∀ mode, queued = some mode → c.initialChecked = false ∧ c'.initialChecked = true

theorem Requests.same (c : Client) {c' : Client} (hchecked : c'.initialChecked = c.initialChecked)
    (hpending : c'.pending = c.pending ∨ c'.pending = none) : Requests c c' none where
  checked h := hchecked.trans h
  kept _ := hpending
  once _ h := by cases h

variable (aspectError) in
/-- What an event asks for. -/
theorem act_requests (s : Session) (now : ℕ) (finished : Bool) (event : Event) :
    Requests s.quality (s.act aspectError now finished event).1.quality
      (s.act aspectError now finished event).2.2 := by
  cases event with
  | stats stats =>
    rcases labelled_cases s.quality stats with hsame | ⟨hnone, hsame⟩
    · simp only [Session.act, hsame]
      exact .same _ rfl (.inl rfl)
    · simp only [Session.act, hsame]
      exact .same _ rfl (.inl rfl)
  | qualityCapabilities permission revision epoch modes =>
    have hbegins : Begins s.quality (s.quality.advertise aspectError permission modes).1 _ :=
      advertise_begins permission modes
    simp only [Session.act]
    split
    · next quality hadvertise =>
      rw [hadvertise] at hbegins
      exact ⟨hbegins.checked, fun hq => .inl (hbegins.kept hq).1, fun _ hq => by cases hq⟩
    · next quality mode hadvertise =>
      rw [hadvertise] at hbegins
      refine ⟨hbegins.checked, (fun hq => by cases hq), fun _ _ => ⟨?_, ?_⟩⟩
      · exact advertise_once (congrArg Prod.snd hadvertise)
      · exact (hbegins.begun mode rfl).2.2.2.2
  | qualityProgress staged =>
    simp only [Session.act, Client.progress]
    split
    · exact .same _ rfl (.inl rfl)
    · exact .same _ rfl (.inl rfl)
  | qualityApplied width height fps =>
    rcases confirmed_cases s.quality width height fps with ⟨-, hq⟩ | ⟨-, hq⟩
    · simp only [Session.act, hq]
      exact .same _ rfl (.inr rfl)
    · simp only [Session.act, hq]
      exact .same _ rfl (.inr rfl)
  | qualityFailed reason terminal =>
    simp only [Session.act]
    split
    · exact .same _ rfl (.inr rfl)
    · exact .same _ rfl (.inr rfl)
  | pairingInfo addresses fingerprint key =>
    simp only [Session.act]
    split
    · exact .same _ rfl (.inl rfl)
    · exact .same _ rfl (.inl rfl)
  | authorizationPending clientId =>
    simp only [Session.act]
    split
    · exact .same _ rfl (.inl rfl)
    · exact .same _ rfl (.inl rfl)
  | connecting => exact .same _ rfl (.inl rfl)
  | waiting => exact .same _ rfl (.inl rfl)
  | error message => exact .same _ rfl (.inl rfl)
  | usbPermission device => exact .same _ rfl (.inl rfl)
  | stopped => exact .same _ rfl (.inl rfl)

/-- A result that is acted on leaves no request under way. -/
theorem pending_of_answers {event : Event} (h : s.answers finished event = true) :
    (s.act aspectError now finished event).1.quality.pending = none := by
  cases event with
  | qualityApplied width height fps =>
    rcases confirmed_cases s.quality width height fps with ⟨-, hq⟩ | ⟨-, hq⟩
    · simp only [Session.act, hq]
    · simp only [Session.act, hq]
      rfl
  | qualityFailed reason terminal =>
    simp only [Session.act]
    split <;> rfl
  | _ => cases h

theorem not_answers_of_queued {event : Event} {mode : Mode}
    (h : (s.act aspectError now finished event).2.2 = some mode) :
    s.answers finished event = false := by
  cases event with
  | qualityApplied width height fps =>
    simp only [Session.act] at h
    split at h <;> cases h
  | qualityFailed reason terminal =>
    simp only [Session.act] at h
    split at h <;> cases h
  | _ => rfl

/-! ## Whole runs -/

/-- Whether the client in use has begun a request. -/
def began (tr : List Note) : Bool :=
  tr.foldl (fun b note =>
    match note with
    | .born => false
    | .advertised _ => true
    | .begun _ => true
    | _ => b) false

/-- Whether a request was answered and none has begun since. -/
def answered (tr : List Note) : Bool :=
  tr.foldl (fun b note =>
    match note with
    | .answered => true
    | .advertised _ => false
    | .begun _ => false
    | _ => b) false

/-- An advertisement begins the first request of a client, or none. -/
def Once (x : List Note) (note : Note) : Prop := ∀ mode, note = .advertised mode → began x = false

/-- What every run keeps. -/
structure Kept (tr : List Note) (s : Session) : Prop where
  watched : Watched s
  checked : began tr = true → s.quality.initialChecked = true
  free : answered tr = true → s.quality.pending = none
  once : Each Once tr

variable {tr : List Note}

/-- A change that asks for nothing. -/
theorem Kept.quiet {s' : Session} (h : Kept tr s) (hwatched : Watched s')
    (hchecked : s'.quality.initialChecked = s.quality.initialChecked)
    (hpending : s'.quality.pending = s.quality.pending ∨ s'.quality.pending = none) :
    Kept tr s' where
  watched := hwatched
  checked hb := hchecked.trans (h.checked hb)
  free ha := by
    rcases hpending with hp | hp
    · exact hp.trans (h.free ha)
    · exact hp
  once := h.once

variable (aspectError now finished) in
/-- Every event keeps what the runs keep. -/
theorem Kept.handle (h : Kept tr s) (hopen : s.events = true) (event : Event) :
    Kept (tr ++ handled aspectError s now finished event)
      (s.handle aspectError now finished event).1 := by
  rcases handle_cases aspectError s now finished event with
    ⟨hsame, hqueued, hdeaf⟩ | ⟨hact, -, -, -⟩
  · rw [hsame]
    simpa [handled, hdeaf, hqueued] using h
  have hwatched := h.watched.act aspectError now finished hopen event
  have hrequests := act_requests aspectError s now finished event
  rw [hact]
  unfold handled
  rw [hact]
  cases hqueued : (s.act aspectError now finished event).2.2 with
  | none =>
    have hchecked (hb : began tr = true) := hrequests.checked (h.checked hb)
    cases hanswers : s.answers finished event with
    | false =>
      refine ⟨hwatched, ?_, ?_, ?_⟩
      · simpa using hchecked
      · intro ha
        have hnone := h.free (by simpa using ha)
        rcases hrequests.kept hqueued with hp | hp
        · exact hp.trans hnone
        · exact hp
      · simpa using h.once
    | true =>
      refine ⟨hwatched, ?_, fun _ => pending_of_answers hanswers, ?_⟩
      · simpa [began] using hchecked
      · apply h.once.append
        exact each_cons.mpr ⟨(fun mode hm => by cases hm), each_nil⟩
  | some mode =>
    obtain ⟨hunchecked, hchecked⟩ := hrequests.once mode hqueued
    have hfirst : began tr = false := by
      by_contra hb
      have := h.checked (by simpa using hb)
      rw [hunchecked] at this
      cases this
    rw [not_answers_of_queued hqueued]
    refine ⟨hwatched, fun _ => hchecked, ?_, ?_⟩
    · intro ha
      simp [answered] at ha
    · apply h.once.append
      refine each_cons.mpr ⟨fun _ _ => ?_, each_nil⟩
      rw [List.append_nil]
      exact hfirst

theorem events_handle (s : Session) (now : ℕ) (finished : Bool) (event : Event) :
    (s.handle aspectError now finished event).1.events = s.events := by
  rcases handle_cases aspectError s now finished event with ⟨hs, -⟩ | ⟨hs, -⟩
  · rw [hs]
  · rw [hs]
    exact (act_frame s now finished event).1

/-- What the loop of `poll` preserves, by induction on the events it takes. -/
theorem Kept.drain (received : List (ℕ × Event)) : ∀ {tr : List Note} {s : Session}
    (finished : Bool), Kept tr s → s.events = true →
    Kept (tr ++ drained aspectError s finished received)
        (s.drain aspectError finished received).1 ∧
      (s.drain aspectError finished received).1.events = true := by
  induction received with
  | nil =>
    intro tr s finished h hopen
    simpa [drained, Session.drain] using ⟨h, hopen⟩
  | cons p rest ih =>
    intro tr s finished h hopen
    obtain ⟨now, event⟩ := p
    have hone := h.handle aspectError now finished hopen event
    have hrest := ih (s.handle aspectError now finished event).2.1 hone
      ((events_handle s now finished event).trans hopen)
    rw [List.append_assoc] at hrest
    exact hrest

/-- The end of a poll keeps the watch. -/
theorem Watched.settle (h : Watched s) (now : ℕ) (finished : Bool) (waited : Waited) :
    Watched (s.settle now finished waited).1 ∧
      (s.settle now finished waited).1.quality.initialChecked = s.quality.initialChecked ∧
      ((s.settle now finished waited).1.quality.pending = s.quality.pending ∨
        (s.settle now finished waited).1.quality.pending = none) := by
  rcases settle_cases s now finished waited with ⟨hsettle, -⟩ | ⟨quality, state, hsettle, hq, -⟩
  · rw [hsettle]
    rcases refresh_cases s now with hr | ⟨-, hr⟩
    · rw [hr]
      exact ⟨h, rfl, .inl rfl⟩
    · rw [hr]
      exact ⟨h.same rfl rfl rfl rfl, rfl, .inl rfl⟩
  · rw [hsettle]
    refine ⟨.idle rfl rfl rfl (fun h => by cases h) (fun h => by cases h), ?_, .inr rfl⟩
    rcases hq with rfl | ⟨reason, rfl⟩
    · rfl
    · rfl

/-- A stop keeps the watch. -/
theorem Watched.stop (h : Watched s) (now : ℕ) : Watched (s.stop now) := by
  unfold Session.stop
  dsimp only
  split
  · exact .idle rfl rfl rfl h.child h.modes
  · exact .idle rfl rfl rfl h.child h.modes

/-- So does a request. -/
theorem Kept.prepareQuality (h : Kept tr s) (now : ℕ) (width height fps : UInt16) :
    Kept (tr ++ (s.prepareQuality aspectError now width height fps).2.2.toList.map .begun)
      (s.prepareQuality aspectError now width height fps).1 := by
  unfold Session.prepareQuality
  dsimp only
  split
  · simpa using h
  next hgate =>
  simp only [Bool.or_eq_true, not_or, Bool.not_eq_true, Bool.not_eq_false'] at hgate
  obtain ⟨⟨⟨⟨⟨hchild, -⟩, -⟩, -⟩, hready⟩, -⟩ := hgate
  have hopen : s.events = true := h.watched.modes (modes_of_ready hready)
  have hbegins : Begins s.quality (s.quality.begin aspectError ⟨width, height, fps⟩).1 _ :=
    begin_begins _
  split
  · next quality hbegin =>
    rw [hbegin] at hbegins
    have hwatched : Watched { s with quality } :=
      h.watched.begins now hbegins rfl rfl rfl hopen
    simp only [Option.toList_none, List.map_nil, List.append_nil]
    refine ⟨hwatched, fun hb => hbegins.checked (h.checked hb), fun ha => ?_, h.once⟩
    exact (hbegins.kept rfl).1.trans (h.free ha)
  · next quality mode hbegin =>
    rw [hbegin] at hbegins
    refine ⟨h.watched.begins now hbegins rfl rfl rfl hopen, ?_, ?_, ?_⟩
    · exact fun _ => (hbegins.begun mode rfl).2.2.2.2
    · intro ha
      simp [answered] at ha
    · apply h.once.append
      exact each_cons.mpr ⟨(fun m hm => by cases hm), each_nil⟩

theorem Kept.awaited (h : Kept tr s) (waited : Waited) (child : Bool) :
    Kept (tr ++ waitNotes child waited) s := by
  unfold waitNotes
  split
  · refine ⟨h.watched, ?_, ?_, ?_⟩
    · simpa [began] using h.checked
    · simpa [answered] using h.free
    · apply h.once.append
      exact each_cons.mpr ⟨(fun m hm => by cases hm), each_nil⟩
  · rwa [List.append_nil]

/-- So does a poll. -/
theorem Kept.poll (h : Kept tr s) (received : List (ℕ × Event)) (now : ℕ) (waited : Waited) :
    Kept (tr ++ drained aspectError s false (if s.events then received else []))
      (s.poll aspectError received now waited).1 := by
  have hdrained : Kept (tr ++ drained aspectError s false (if s.events then received else []))
      (s.drain aspectError false (if s.events then received else [])).1 := by
    cases hopen : s.events with
    | true => exact (h.drain received false hopen).1
    | false => simpa [drained, Session.drain] using h
  obtain ⟨hwatched, hchecked, hpending⟩ := hdrained.watched.settle now
    (s.drain aspectError false (if s.events then received else [])).2.1 waited
  exact hdrained.quiet hwatched hchecked hpending

/-- So does every call. -/
theorem Kept.call {c : Call} {s' : Session} {notes : List Note} (h : Kept tr s)
    (hcall : call aspectError s c = some (s', notes)) : Kept (tr ++ notes) s' := by
  cases c with
  | start settings =>
    simp only [HostSession.call] at hcall
    split at hcall
    · cases hcall
    · obtain ⟨rfl, rfl⟩ := by simpa using hcall
      refine ⟨.idle rfl rfl rfl (fun _ => rfl) (fun h => by cases h), ?_, fun _ => rfl, ?_⟩
      · intro hb
        simp [began] at hb
      · apply h.once.append
        exact each_cons.mpr ⟨(fun m hm => by cases hm), each_nil⟩
  | prepareQuality now width height fps =>
    obtain ⟨rfl, rfl⟩ := by simpa [HostSession.call] using hcall
    exact h.prepareQuality now width height fps
  | transform settings =>
    obtain ⟨rfl, rfl⟩ := by simpa [HostSession.call] using hcall
    rw [List.append_nil]
    unfold Session.transform
    split
    · exact h.quiet (h.watched.same rfl rfl rfl rfl) rfl (.inl rfl)
    · exact h
  | stop now =>
    obtain ⟨rfl, rfl⟩ := by simpa [HostSession.call] using hcall
    rw [List.append_nil]
    refine h.quiet (h.watched.stop now) ?_ (.inr ?_)
    · unfold Session.stop
      dsimp only
      split <;> rfl
    · unfold Session.stop
      dsimp only
      split <;> rfl
  | poll received now waited =>
    obtain ⟨rfl, rfl⟩ := by simpa [HostSession.call] using hcall
    rw [← List.append_assoc]
    exact (h.poll received now waited).awaited waited s.child

/-- So does every run. -/
theorem kept_of_reaches (h : (calls aspectError (· = .new)).Reaches tr s) : Kept tr s := by
  refine h.invariant (fun s hs => ?_) fun tr s c s' notes _ _ hkept hstep => hkept.call hstep
  obtain rfl := hs
  refine ⟨.idle rfl rfl rfl (fun h => by cases h) (fun h => by cases h), ?_, ?_, each_nil⟩
  · intro hb
    cases hb
  · intro ha
    cases ha

/-- An explicit wish that resolves is taken, and starts one request unless it is what is applied. -/
def Takes (aspectError : Mode → ℚ) (s : Session) : Prop :=
  ∀ now width height fps mode,
    s.quality.resolve aspectError ⟨width, height, fps⟩ = some mode →
    (s.prepareQuality aspectError now width height fps).2.1 = true ∧
      if s.quality.applied = some mode.tuple then
        (s.prepareQuality aspectError now width height fps).2.2 = none ∧
          (s.prepareQuality aspectError now width height fps).1.quality.pending = none
      else
        (s.prepareQuality aspectError now width height fps).2.2 = some mode ∧
          (s.prepareQuality aspectError now width height fps).1.quality.pending = some mode ∧
          (s.prepareQuality aspectError now width height fps).1.pending.quality =
            some (.prepareQuality mode.width mode.height mode.fps)

/-- A session that is ready takes a request. -/
theorem takes_of_ready (hchild : s.child = true) (hstopping : s.state ≠ .stopping)
    (hfailed : s.state.isFailed = false) (hpending : s.quality.pending = none)
    (hready : s.quality.ready = true) : Takes aspectError s := by
  intro now width height fps mode hresolve
  have htaken := begin_of_ready hpending hready hresolve
  have hbegins : Begins s.quality (s.quality.begin aspectError ⟨width, height, fps⟩).1 _ :=
    begin_begins _
  have hgate : (!s.child || s.state == .stopping || s.state.isFailed || s.quality.pending.isSome ||
      !s.quality.ready || (s.quality.resolve aspectError ⟨width, height, fps⟩).isNone) = false := by
    simp [hchild, hstopping, hfailed, hpending, hready, hresolve]
  simp only [Session.prepareQuality, hgate]
  cases hbegin : s.quality.begin aspectError ⟨width, height, fps⟩ with
  | mk quality queued =>
    rw [hbegin] at htaken hbegins
    by_cases happlied : s.quality.applied = some mode.tuple
    · rw [if_pos happlied] at htaken ⊢
      obtain rfl := htaken
      exact ⟨rfl, rfl, (hbegins.kept rfl).1.trans hpending⟩
    · rw [if_neg happlied] at htaken ⊢
      obtain rfl := htaken
      exact ⟨rfl, rfl, (hbegins.begun mode rfl).2.1, rfl⟩

theorem ready_of_resolve {wish : Wish} {mode : Mode}
    (hpermission : s.quality.permission = some HostWire.PERMISSION_READY)
    (h : s.quality.resolve aspectError wish = some mode) : s.quality.ready = true := by
  unfold Client.resolve at h
  cases hmodes : s.quality.modes with
  | none => simp [hmodes] at h
  | some modes =>
    rw [hmodes] at h
    have hmem := (Wish.resolve_mem h).1
    have hsome : modes ≠ [] := List.ne_nil_of_mem hmem
    simp [Client.ready, hpermission, hmodes, hsome]

/-- The watch over an apply holds at every return, an advertisement starts a client's first request
or none, and once a request is answered, while the camera is ready, the next wish is taken. -/
theorem apply_watched (h : (calls aspectError (· = .new)).Reaches tr s) :
    s.qualityDeadline.isSome = (s.quality.pending.isSome && !s.quality.staged) ∧
      (s.quality.staged = true → s.quality.pending.isSome = true) ∧
      (∀ mode, s.quality.pending = some mode → s.quality.applied ≠ some mode.tuple) ∧
      Each Once tr ∧
      (answered tr = true → s.state ≠ .stopping → s.state.isFailed = false →
        s.quality.permission = some HostWire.PERMISSION_READY → Takes aspectError s) := by
  have hkept := kept_of_reaches h
  refine ⟨hkept.watched.deadline, hkept.watched.staged, hkept.watched.fresh, hkept.once, ?_⟩
  intro hanswered hstopping hfailed hpermission now width height fps mode hresolve
  have hready := ready_of_resolve hpermission hresolve
  have hchild := hkept.watched.child (hkept.watched.modes (modes_of_ready hready))
  exact takes_of_ready hchild hstopping hfailed (hkept.free hanswered) hready now width height fps
    mode hresolve

/-! ## A refused wish -/

/-- The mode of the run. -/
def hd : Mode := ⟨1280, 720, 30, 6000000⟩

/-- A request that the phone refuses. -/
def desk : List Call :=
  [.start HostSettings.Settings.default,
    .poll [(0, .qualityCapabilities HostWire.PERMISSION_READY 1 41 [hd])] 0 .running,
    .poll [(10, .qualityFailed "camera permission is not granted" false)] 10 .running]

/-- The advertisement that follows the result may take the camera away. -/
def permissionLost : List Call :=
  desk ++ [Call.poll [(20, .qualityCapabilities HostWire.PERMISSION_PENDING 2 41 [hd])] 20 .running]

/-- The notes of a script. -/
def deskTrace (script : List Call) : List Note :=
  (calls (fun _ => 0) (· = .new)).trace .new script

/-- The session after a script. -/
def deskFinal (script : List Call) : Session := (calls (fun _ => 0) (· = .new)).final .new script

/-- After a refusal the next request is taken. -/
theorem apply_watched_desk : Takes (fun _ => 0) (deskFinal desk) := by
  have hrun : (calls (fun _ => 0) (· = .new)).Reaches (deskTrace desk) (deskFinal desk) :=
    EventSystem.reaches_trace desk rfl (by decide +kernel)
  exact (apply_watched hrun).2.2.2.2 (by decide +kernel) (by decide +kernel) (by decide +kernel)
    (by decide +kernel)

/-- A wish that resolves among the advertised modes is refused while the permission is pending. -/
theorem wish_refused :
    ∃ tr s, (calls (fun _ => 0) (· = .new)).Reaches tr s ∧ answered tr = true ∧
      s.state ≠ .stopping ∧ s.state.isFailed = false ∧ ¬ Takes (fun _ => 0) s := by
  refine ⟨deskTrace permissionLost, deskFinal permissionLost,
    EventSystem.reaches_trace permissionLost rfl (by decide +kernel), by decide +kernel,
    by decide +kernel, by decide +kernel, fun h => ?_⟩
  have hrefused : ((deskFinal permissionLost).prepareQuality (fun _ => 0) 30 1280 720 30).2.1 =
      false := by decide +kernel
  have htaken := (h 30 1280 720 30 hd (by decide +kernel)).1
  rw [hrefused] at htaken
  cases htaken

end Session
end HostSession
end MobileWebcamBridge
