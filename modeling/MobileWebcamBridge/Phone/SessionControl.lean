import MobileWebcamBridge.Wire

/-!
# `SessionControl`: the dispatcher of an authorized host's frames

A frame as `Wire.readHostFrame` returns it, with what its payload decodes to, and what the
dispatcher does with it. The three rate limits share one window.
-/

set_option autoImplicit false

namespace MobileWebcamBridge

open Wire

/-- A host frame; `proof` and `command` are what its payload decodes to, if it does. -/
structure HostFrame where
  header : Header
  payload : List UInt8
  proof : Option ClientAuth
  command : Option HostCommand
deriving DecidableEq, Repr

namespace SessionControl

/-- A count of messages since the start of a one-second window. -/
structure Window where
  start : ℤ
  count : ℕ
deriving DecidableEq, Repr

/-- The window after one more message at `now` (`System.nanoTime()`). -/
def Window.admitted (w : Window) (now : ℤ) : Window :=
  if now - w.start ≥ 1000000000 then { start := now, count := 1 }
  else { w with count := w.count + 1 }

/-- The most keep-alives that are answered. -/
def MAX_PINGS_PER_SECOND : ℕ := 64
/-- The most keyframes that are asked of the encoder. -/
def MAX_IDR_REQUESTS_PER_SECOND : ℕ := 8
/-- The most greetings that are looked at. -/
def MAX_HELLO_PER_SECOND : ℕ := 8

/-- What the dispatcher acts on. -/
inductive Action
  | ping (request : Header) (payload : List UInt8)
  | hello
  | idrRequest
  | quality (command : HostCommand)
deriving DecidableEq, Repr

end SessionControl

/-- The three windows of a session. -/
structure SessionControl where
  ping : SessionControl.Window
  hello : SessionControl.Window
  idr : SessionControl.Window
deriving DecidableEq, Repr

namespace SessionControl

/-- `none` is an exception, `some none` a message that is dropped. -/
def dispatch (k : SessionControl) (now : ℤ) (frame : HostFrame) :
    SessionControl × Option (Option Action) :=
  match frame.header.type with
  | .ping =>
    let w := k.ping.admitted now
    ({ k with ping := w },
      if w.count ≤ MAX_PINGS_PER_SECOND then some (some (.ping frame.header frame.payload))
      else none)
  | .hostHello =>
    let w := k.hello.admitted now
    ({ k with hello := w }, some (if w.count ≤ MAX_HELLO_PER_SECOND then some .hello else none))
  | .videoIdrRequest =>
    let w := k.idr.admitted now
    ({ k with idr := w },
      some (if w.count ≤ MAX_IDR_REQUESTS_PER_SECOND then some .idrRequest else none))
  | .prepareQuality | .commitQuality =>
    -- the payload's own decoder throws
    (k, frame.command.map fun command => some (.quality command))
  | _ => (k, none)

end SessionControl
end MobileWebcamBridge
