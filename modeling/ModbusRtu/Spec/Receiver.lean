import ModbusRtu.Base.Transducer
import ModbusRtu.Code.Rtu
import ModbusRtu.Logic.Frames

/-!
# The receiver

What the state diagram of the slave describes: how frames are made of bytes and
silence, when a frame is handed over and when its reply is sent. There are no
status bits, no buffers and no callbacks to install here, and nothing waits for
the main loop.

Where it differs from the diagram it follows the code: a frame that fails its
check leaves the receiver `deaf`, still idle to look at, until the next signal
of any kind sends it back to `init`.
-/

namespace ModbusRtu

open Base

/-- What happens to the receiver. -/
inductive Signal
  | byte (data : UInt8)
  | lineError (data : UInt8)
  | sent
  | timeout
  deriving DecidableEq, Repr

/-- What the receiver does. -/
inductive Output
  | start1t5
  | start3t5
  | stop
  | reset
  | suspend
  | resume
  /-- The frame is handed to the application. -/
  | handed (frame : List UInt8)
  /-- The reply is sent. -/
  | reply (adu : List UInt8)
  deriving DecidableEq, Repr

/-- Where the receiver is. The diagram's `SOF` is a `frame` of one byte, its
`RECV` a longer one. -/
inductive Phase
  | init
  | idle
  | deaf
  | frame (bytes : List UInt8)
  | ended (bytes : List UInt8)
  | busy
  deriving DecidableEq, Repr

/-- What the receiver is built for. -/
structure Application (U : Type) where
  capacity : Nat
  /-- What is made of an accepted frame; without a reply it is `[]`. -/
  answer : U → List UInt8 → U × List UInt8
  /-- A reply is sent before anything else happens. -/
  sendsAtOnce : Bool
  suspends : Bool
  resumes : Bool

structure Receiver (U : Type) where
  phase : Phase
  userData : U
  stats : Stats

/-- The timer runs. -/
def Phase.Timed : Phase → Prop
  | .init | .frame _ | .ended _ => True
  | .idle | .deaf | .busy => False

instance : DecidablePred Phase.Timed
  | .init | .frame _ | .ended _ => .isTrue trivial
  | .idle | .deaf | .busy => .isFalse id

namespace Receiver

variable {U : Type}

/-- The wait for silence begins. -/
def restart (r : Receiver U) : Receiver U × List Output :=
  ({ r with phase := .init }, [.stop, .start3t5])

def fail (r : Receiver U) : Receiver U × List Output :=
  restart { r with stats.errCntr := r.stats.errCntr + 1 }

/-- An error behind what has been put out. -/
def failAfter (r : Receiver U) (out : List Output) : Receiver U × List Output :=
  (r.fail.1, out ++ r.fail.2)

variable (app : Application U) (r : Receiver U)

def byte (data : UInt8) : Receiver U × List Output :=
  match r.phase with
  | .idle =>
      ({ r with phase := .frame [data] },
        .start1t5 :: if app.suspends then [.suspend] else [])
  -- taken for the first byte of a frame, before the error is noticed
  | .deaf => r.failAfter [.start1t5]
  | .frame bytes =>
      if bytes.length < app.capacity then
        ({ r with phase := .frame (bytes ++ [data]) }, [.reset])
      else r.failAfter [.reset]
  | .init | .ended _ | .busy => r.fail

/-- What becomes of a frame. -/
def processed (bytes : List UInt8) : Receiver U × List Output :=
  if Accepted bytes then
    let (userData, reply) := app.answer r.userData bytes
    let r := { r with userData := userData }
    if reply = [] then ({ r with phase := .idle }, [.handed bytes])
    else if app.sendsAtOnce then
      ({ r with phase := .init }, [.handed bytes, .reply (withCrc reply), .stop, .start3t5])
    else ({ r with phase := .busy }, [.handed bytes, .reply (withCrc reply)])
  else
    let crcErr := if bytes.length < aduMinSize then 0 else 1
    ({ r with phase := .deaf, stats.crcErrCntr := r.stats.crcErrCntr + crcErr }, [])

/-- The end of a frame is confirmed. -/
def confirmed (bytes : List UInt8) : Receiver U × List Output :=
  let (r, out) := processed app r bytes
  (r, .stop :: out ++ if app.resumes then [.resume] else [])

def timeout : Receiver U × List Output :=
  match r.phase with
  | .init => ({ r with phase := .idle }, [.stop])
  | .frame bytes =>
      if bytes.length = 1 then r.fail
      else ({ r with phase := .ended bytes }, [.stop, .start3t5])
  | .ended bytes => confirmed app r bytes
  -- no timer runs
  | .idle | .deaf | .busy => (r, [])

def step : Signal → Receiver U × List Output
  | .byte data => byte app r data
  | .lineError _ =>
      fail { r with stats.serialRecvErrCntr := r.stats.serialRecvErrCntr + 1 }
  | .sent => if r.phase = .busy then r.restart else r.fail
  | .timeout => timeout app r

end Receiver

/-- The receiver as a machine. -/
def receiver {U : Type} (app : Application U) : Transducer (Receiver U) Signal Output where
  enabled r signal := signal = .timeout → r.phase.Timed
  step := Receiver.step app

instance {U : Type} (app : Application U) (r : Receiver U) (signal : Signal) :
    Decidable ((receiver app).enabled r signal) :=
  inferInstanceAs (Decidable (signal = .timeout → r.phase.Timed))

end ModbusRtu
