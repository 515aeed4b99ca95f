import MobileWebcamBridge.Lib.EventSystem
import MobileWebcamBridge.Wire

/-!
# `FramedOutbound`: the phone's one outbound writer

Three layers:

* the state and, for each `synchronized (lock)` block of the source, one function on it;
* `Task`, what a thread still has to do of a call: every synchronized block, every access to an
  atomic outside the lock and every semaphore operation is a task of its own, so the schedules of
  `system` cover every interleaving of the blocks;
* `system`, the UI thread, any number of other threads and the writer thread over one state.

The UI thread alone begins captures and sends quality replies. Frames and events carry two
numbers the source does not have: the capture token the call presented, and the position of a
picture unit among those offered to the capture. No branch reads them.
-/

namespace MobileWebcamBridge

open Wire VideoWire

/-! ## State -/

/-- A frame in a queue. -/
structure FramedOutbound.Frame where
  header : Header
  payload : Payload
  /-- The token it was queued with; without one, the generation current then. -/
  token : ℕ := 0
  serial : ℕ := 0
deriving DecidableEq, Repr

/-- The writer's fields. -/
structure FramedOutbound where
  videoCapacity : ℕ
  running : Bool
  sequence : ℕ
  controlQueue : List FramedOutbound.Frame
  videoQueue : List FramedOutbound.Frame
  controlOverflowed : Bool
  wake : ℕ
  generation : ℕ
  videoEnabled : Bool
  latestCodecConfig : List UInt8
  latestVideoConfig : Option VideoConfig
  recovering : Bool
  lastFence : Option (FrameType × ℕ)
  droppedVideoFrames : ℕ
  /-- Picture units offered to the current generation so far. -/
  offered : ℕ
deriving DecidableEq, Repr

namespace FramedOutbound

/-- Why a picture unit that was offered is not written. -/
inductive Loss
  | unconfigured | recovering | overflow | recovery | cleared
deriving DecidableEq, Repr

/-- What the blocks do, for the properties below. -/
inductive Event
  | began (generation : ℕ)
  | fenced (key : FrameType × ℕ)
  | codecConfigSet (token : ℕ) (config : List UInt8)
  | configKept (token : ℕ) (config : VideoConfig)
  | offered (token serial : ℕ) (unit : AccessUnit)
  | lost (token serial : ℕ) (loss : Loss)
  | admitted (frame : Frame)
  | overflowed
  | needIdr
  | wrote (frame : Frame)
  | writerFailed
deriving DecidableEq, Repr

/-- The most frames of the control queue. -/
def MAX_CONTROL_FRAMES : ℕ := 32

/-- A constructed writer; `none` is the failed `require` on the capacity. -/
def new (videoCapacity : ℕ) : Option FramedOutbound :=
  if 1 ≤ videoCapacity then
    some {
      videoCapacity, running := false, sequence := 1, controlQueue := [], videoQueue := []
      controlOverflowed := false, wake := 0, generation := 0, videoEnabled := false
      latestCodecConfig := [], latestVideoConfig := none, recovering := false
      lastFence := none, droppedVideoFrames := 0, offered := 0 }
  else none

/-- A `VIDEO_CONFIG`. -/
def Frame.isVideoConfig (f : Frame) : Bool := f.header.type == .videoConfig
/-- A `VIDEO_AU`. -/
def Frame.isAccessUnit (f : Frame) : Bool := f.header.type == .videoAu
/-- A frame of some capture generation. -/
def Frame.isVideo (f : Frame) : Bool := f.isVideoConfig || f.isAccessUnit

/-- The key a reply frame was fenced under: `PAUSED`, or a `QUALITY_RESULT` that says staged. -/
def Frame.fenceKey (f : Frame) : Option (FrameType × ℕ) :=
  match f.header.type, f.payload with
  | .paused, .epoch e => some (.paused, e.requestId)
  | .qualityResult, .qualityResult r =>
    if r.status = .staged then some (.qualityResult, r.requestId) else none
  | _, _ => none

/-! ## The synchronized blocks -/

/-- The events for clearing the video queue. -/
def lostQueued (o : FramedOutbound) (loss : Loss) : List Event :=
  o.videoQueue.map fun f => .lost f.token f.serial loss

/-- Everything of the old capture goes. -/
def clearVideo (o : FramedOutbound) : FramedOutbound :=
  { o with
    droppedVideoFrames := o.droppedVideoFrames + o.videoQueue.length
    videoQueue := []
    controlQueue := o.controlQueue.filter fun f => !f.isVideoConfig
    latestCodecConfig := []
    latestVideoConfig := none
    recovering := false }

/-- A capture begins, under the next token. -/
def beginCapture (o : FramedOutbound) : FramedOutbound :=
  { o.clearVideo with generation := o.generation + 1, videoEnabled := true, offered := 0 }

/-- No token is accepted from here on. -/
def stopVideo (o : FramedOutbound) : FramedOutbound :=
  { o.clearVideo with videoEnabled := false }

/-- Whether a token is the running capture's. -/
def accepts (o : FramedOutbound) (token : ℕ) : Bool :=
  o.running && o.videoEnabled && token == o.generation

/-- The first reply to a request stops the video; a replay does not. -/
def fenceOnce (o : FramedOutbound) (key : FrameType × ℕ) : FramedOutbound :=
  if o.lastFence = some key then o else { o.stopVideo with lastFence := some key }

/-- The parameter sets of the running capture are kept. -/
def setCodecConfig (o : FramedOutbound) (config : CodecConfig) (token : ℕ) :
    FramedOutbound × List Event :=
  if o.accepts token then
    ({ o with latestCodecConfig := joinCodecConfig config },
      [.codecConfigSet token (joinCodecConfig config)])
  else (o, [])

/-- The first block of `sendVideoConfig`: `none` when the token is refused. -/
def keepVideoConfig (o : FramedOutbound) (config : VideoConfig) (token : ℕ) :
    Option FramedOutbound :=
  if o.accepts token then some { o with latestVideoConfig := some config } else none

/-- The overflow branch of `sendAccessUnit`. -/
def makeRoom (o : FramedOutbound) (unit : AccessUnit) : FramedOutbound :=
  { o with
    droppedVideoFrames :=
      o.droppedVideoFrames + o.videoQueue.length + (if unit.keyFrame then 0 else 1)
    videoQueue := []
    recovering := true }

/-- `nextSequence`. -/
def nextSequence (sequence : ℕ) : ℕ := if sequence = 2147483647 then 1 else sequence + 1

/-- The frame `sendAccessUnit` queues. -/
def unitFrame (o : FramedOutbound) (unit : AccessUnit) (token serial : ℕ) : Frame :=
  { header :=
      { type := .videoAu, sequence := o.sequence, ptsUs := unit.presentationTimeUs
        flags :=
          { keyframe := unit.keyFrame
            configIncluded := unit.keyFrame && !o.latestCodecConfig.isEmpty
            discontinuity := unit.keyFrame && o.recovering } }
    payload := .raw (if unit.keyFrame then o.latestCodecConfig ++ unit.data else unit.data)
    token := token
    serial := serial }

/-- The queueing branch of `sendAccessUnit`: a keyframe ends the recovery. -/
def queueUnit (o : FramedOutbound) (unit : AccessUnit) (token serial : ℕ) : FramedOutbound :=
  { o with
    recovering := if unit.keyFrame then false else o.recovering
    sequence := nextSequence o.sequence
    videoQueue := o.videoQueue ++ [o.unitFrame unit token serial]
    wake := o.wake + 1 }

/-- The block of `sendAccessUnit`, and whether it asks for an IDR afterwards. -/
def offerUnit (o : FramedOutbound) (unit : AccessUnit) (token : ℕ) :
    FramedOutbound × List Event × Bool :=
  if !o.accepts token then (o, [], false)
  else
    let n := o.offered
    let offer := Event.offered token n unit
    let o := { o with offered := n + 1 }
    if o.latestVideoConfig.isNone then (o, [offer, .lost token n .unconfigured], false)
    else if o.recovering && !unit.keyFrame then
      ({ o with droppedVideoFrames := o.droppedVideoFrames + 1 },
        [offer, .lost token n .recovering], false)
    else if o.videoQueue.length < o.videoCapacity then (o.queueUnit unit token n, [offer], false)
    else if unit.keyFrame then
      ((o.makeRoom unit).queueUnit unit token n, offer :: o.lostQueued .overflow, true)
    else
      (o.makeRoom unit, offer :: .lost token n .overflow :: o.lostQueued .overflow, true)

/-- The block of `forceRecovery`: what it goes on to send, if video is enabled at all. -/
def recover (o : FramedOutbound) : Option (FramedOutbound × Option VideoConfig) :=
  if o.videoEnabled && o.running then
    some ({ o with
      droppedVideoFrames := o.droppedVideoFrames + o.videoQueue.length
      videoQueue := []
      recovering := true }, o.latestVideoConfig)
  else none

/-- What became of a control frame. -/
inductive Admission
  | refused | full | admitted
deriving DecidableEq, Repr

/-- The frame with the token it is queued with. -/
def stamped (o : FramedOutbound) (frame : Frame) (token : Option ℕ) : Frame :=
  { frame with token := token.getD o.generation }

/-- The block of `enqueueControl`, inside the lock. -/
def enqueueControl (o : FramedOutbound) (frame : Frame) (token : Option ℕ) :
    FramedOutbound × Admission :=
  if !o.running || token.any (fun t => !o.accepts t) then (o, .refused)
  else if o.controlQueue.length ≥ MAX_CONTROL_FRAMES then (o, .full)
  else ({ o with controlQueue := o.controlQueue ++ [o.stamped frame token] }, .admitted)

/-- The block of the writer loop: control before video. -/
def dequeue (o : FramedOutbound) : FramedOutbound × Option Frame :=
  match o.controlQueue, o.videoQueue with
  | f :: fs, _ => ({ o with controlQueue := fs }, some f)
  | [], f :: fs => ({ o with videoQueue := fs }, some f)
  | [], [] => (o, none)

/-! ## Calls and what a thread still has to do of them -/

/-- The calls of the writer's users. -/
inductive Call
  | beginCapture
  | stopVideo
  | pauseQuality (epoch : Epoch)
  | sendQualityResult (result : QualityResult)
  | sendCapabilities (capabilities : Capabilities)
  | sendPairingInfo (payload : List UInt8)
  | sendAuthorization (type : FrameType) (payload : Payload)
  | sendPong (request : Header) (payload : List UInt8)
  | setCodecConfig (config : CodecConfig) (token : ℕ)
  | sendVideoConfig (width height fps bitrate token : ℕ)
  | sendAccessUnit (unit : AccessUnit) (token : ℕ)
  | forceRecovery
  | close
deriving DecidableEq, Repr

/-- The parts of a call, one for each synchronized block. -/
inductive Task
  | beginCapture
  | stopVideo
  | fence (key : FrameType × ℕ)
  | setCodecConfig (config : CodecConfig) (token : ℕ)
  | keepVideoConfig (config : VideoConfig) (token : ℕ)
  | offerUnit (unit : AccessUnit) (token : ℕ)
  | recover
  /-- `nextSequence()` for a frame about to be enqueued. -/
  | number (frame : Frame) (token : Option ℕ)
  /-- The test of `enqueueControl` outside the lock. -/
  | guard (frame : Frame) (token : Option ℕ)
  | enqueue (frame : Frame) (token : Option ℕ)
  | release
  | overflow
  | needIdr
  | halt
  | clear
deriving DecidableEq, Repr

/-- A control frame before it is numbered. -/
def controlFrame (type : FrameType) (payload : Payload) : Frame :=
  { header := { type, sequence := 0 }, payload }

/-- `sendControl`. -/
def sendControl (type : FrameType) (payload : Payload) : List Task :=
  [.number (controlFrame type payload) none]

/-- What a thread that enters the call has to do. -/
def Call.tasks : Call → List Task
  | .beginCapture => [.beginCapture]
  | .stopVideo => [.stopVideo]
  | .pauseQuality e => .fence (.paused, e.requestId) :: sendControl .paused (.epoch e)
  | .sendQualityResult r =>
    (if r.status = .staged then [.fence (.qualityResult, r.requestId)] else []) ++
      sendControl .qualityResult (.qualityResult r)
  | .sendCapabilities c => sendControl .qualityCapabilities (.capabilities c)
  | .sendPairingInfo p => sendControl .pairingInfo (.raw p)
  | .sendAuthorization type p =>
    -- the failed `require` throws before anything is sent
    if type = .clientChallenge ∨ type = .clientAuthResult then sendControl type p else []
  | .sendPong request p =>
    [.guard { header := { request with type := .pong }, payload := .raw p } none]
  | .setCodecConfig config token => [.setCodecConfig config token]
  | .sendVideoConfig w h f b token =>
    match encodeConfig w h f b with
    | some config => [.keepVideoConfig config token]
    | none => []
  | .sendAccessUnit unit token =>
    if unit.codecConfig && !unit.keyFrame then [] else [.offerUnit unit token]
  | .forceRecovery => [.recover]
  | .close => [.halt, .release, .clear]

/-- The calls only the UI thread makes. -/
def Call.uiOnly : Call → Bool
  | .beginCapture | .pauseQuality _ | .sendQualityResult _ => true
  | _ => false

/-- `enqueueVideoConfig`. -/
def enqueueVideoConfig (config : VideoConfig) (token : ℕ) : Task :=
  .number (controlFrame .videoConfig (.videoConfig config)) (some token)

/-- Runs one task: the state after it, what the thread does before the rest of its program,
and the events. -/
def runTask (o : FramedOutbound) : Task → FramedOutbound × List Task × List Event
  | .beginCapture =>
    (o.beginCapture, [], o.lostQueued .cleared ++ [Event.began (o.generation + 1)])
  | .stopVideo => (o.stopVideo, [], o.lostQueued .cleared)
  | .fence key =>
    (o.fenceOnce key, [],
      (if o.lastFence = some key then [] else o.lostQueued .cleared) ++ [Event.fenced key])
  | .setCodecConfig config token =>
    let (o', es) := o.setCodecConfig config token
    (o', [], es)
  | .keepVideoConfig config token =>
    match o.keepVideoConfig config token with
    | some o' => (o', [enqueueVideoConfig config token, .needIdr], [.configKept token config])
    | none => (o, [], [])
  | .offerUnit unit token =>
    let (o', es, requestIdr) := o.offerUnit unit token
    (o', if requestIdr then [.needIdr] else [], es)
  | .recover =>
    match o.recover with
    | some (o', some config) =>
      (o', [enqueueVideoConfig config o.generation, .needIdr], o.lostQueued .recovery)
    | some (o', none) => (o', [.needIdr], o.lostQueued .recovery)
    | none => (o, [], [])
  | .number frame token =>
    ({ o with sequence := nextSequence o.sequence },
      [.guard { frame with header := { frame.header with sequence := o.sequence } } token], [])
  | .guard frame token =>
    (o, if !o.running || o.controlOverflowed then [] else [.enqueue frame token], [])
  | .enqueue frame token =>
    match o.enqueueControl frame token with
    | (o', .admitted) => (o', [.release], [.admitted (o.stamped frame token)])
    | (o', .full) => (o', [.overflow], [])
    | (o', .refused) => (o', [], [])
  | .release => ({ o with wake := o.wake + 1 }, [], [])
  | .overflow =>
    ({ o with controlOverflowed := true }, [], if o.controlOverflowed then [] else [.overflowed])
  | .needIdr => (o, [], [.needIdr])
  | .halt => ({ o with running := false }, [], [])
  | .clear => (
      { o.clearVideo with controlQueue := [], videoEnabled := false }, [], o.lostQueued .cleared)

/-! ## Threads -/

/-- Where the writer thread is in its loop. -/
inductive Writer
  | unstarted | stopped | acquire | take | write (frame : Frame)
deriving DecidableEq, Repr

/-- The frame the writer holds. -/
def Writer.hand : Writer → List Frame
  | .write f => [f]
  | _ => []

@[simp] theorem Writer.hand_write (f : Frame) : (Writer.write f).hand = [f] := rfl

/-- The writer with everything its threads have yet to do. -/
structure Threads where
  out : FramedOutbound
  ui : List Task
  others : List (List Task)
  writer : Writer
deriving DecidableEq, Repr

/-- A thread enters a call, or takes its next step. -/
inductive Label
  /-- The session's one `start()`. -/
  | start
  /-- The UI thread enters a sequence of calls. -/
  | ui (calls : List Call)
  | uiStep
  /-- Another thread enters a call. -/
  | spawn (call : Call)
  | step (thread : ℕ)
  | writerStep
  /-- The write throws. -/
  | writerThrows
deriving DecidableEq, Repr

/-- The writer loop's own test, between two frames. -/
def loopTest (o : FramedOutbound) : Writer := if o.running then .acquire else .stopped

/-- The next step of the writer thread. -/
def writerStep (s : Threads) : Option (Threads × List Event) :=
  match s.writer with
  | .unstarted | .stopped => none
  | .acquire =>
    if s.out.wake = 0 then none
    else
      let s := { s with out := { s.out with wake := s.out.wake - 1 } }
      some ({ s with writer := if s.out.running then .take else .stopped }, [])
  | .take =>
    match s.out.dequeue with
    | (o, some f) => some ({ s with out := o, writer := .write f }, [])
    | (o, none) => some ({ s with out := o, writer := loopTest o }, [])
  | .write f => some ({ s with writer := loopTest s.out }, [.wrote f])

/-- One step of one thread. -/
def step (s : Threads) : Label → Option (Threads × List Event)
  | .start =>
    if s.writer = .unstarted then
      some ({ s with out := { s.out with running := true }, writer := .acquire }, [])
    else none
  | .ui calls => if s.ui = [] then some ({ s with ui := calls.flatMap Call.tasks }, []) else none
  | .uiStep =>
    match s.ui with
    | [] => none
    | t :: ts =>
      let (o, more, es) := s.out.runTask t
      some ({ s with out := o, ui := more ++ ts }, es)
  | .spawn call =>
    if call.uiOnly then none else some ({ s with others := s.others ++ [call.tasks] }, [])
  | .step i =>
    match s.others[i]? with
    | some (t :: ts) =>
      let (o, more, es) := s.out.runTask t
      some ({ s with out := o, others := s.others.set i (more ++ ts) }, es)
    | _ => none
  | .writerStep => writerStep s
  | .writerThrows =>
    match s.writer with
    | .write _ =>
      some ({ s with out := { s.out with running := false }, writer := .stopped },
        if s.out.running then [.writerFailed] else [])
    | _ => none

/-- The threads before `start()`. -/
def idle (o : FramedOutbound) : Threads :=
  { out := o, ui := [], others := [], writer := .unstarted }

/-- Every interleaving of the threads over a writer of some capacity. -/
def system : EventSystem Threads Label Event where
  start s := ∃ capacity o, new capacity = some o ∧ s = idle o
  step := step

end FramedOutbound
end MobileWebcamBridge
