import Mathlib.Data.List.GetD
import Mathlib.Data.UInt

/-!
# Reading from and writing to the serial device

`linux/tty.c`: `tty_read` and `tty_write` call by call, with every outcome of
`poll`, `read` and `write` that `validate_syscall_result` lets pass, and
`tty_read_ll`, which sleeps instead of polling. Any other outcome, and a `read`
or `write` of no bytes, fails a check, which ends the program.

Before that, the rates of `tty_bps` and the times `linux/rtu_impl.c` works out
from them.
-/

namespace ModbusRtu

/-! ## Line rates -/

/-- The rates `tty_bps` knows. -/
inductive Speed
  | b1200 | b2400 | b4800 | b9600 | b19200 | b38400 | b57600 | b115200
  deriving DecidableEq, Repr

def ttyBps : Speed → Nat
  | .b1200 => 1200
  | .b2400 => 2400
  | .b4800 => 4800
  | .b9600 => 9600
  | .b19200 => 19200
  | .b38400 => 38400
  | .b57600 => 57600
  | .b115200 => 115200

def calc1t5Us (rate : Speed) : Nat :=
  let bps := ttyBps rate
  if 19200 > bps then 8250000 / bps else 750

def calc3t5Us (rate : Speed) : Nat :=
  let bps := ttyBps rate
  if 19200 > bps then 19250000 / bps else 1750

def calcTminMs (rate : Speed) (size : Nat) : Nat :=
  let bps := ttyBps rate
  (size * 11000) / bps

def calcTmaxMs (rate : Speed) (size : Nat) : Nat := 10 + calcTminMs rate size

/-! ## The loops -/

/-- How `poll` ends: with `-1` and `EINTR`, with `0`, or with a positive number. -/
inductive PollResult
  | interrupted
  | timeout
  | ready
  deriving DecidableEq, Repr

/-- What a round of a loop gets from the system. -/
structure TtyRound (α : Type) where
  poll : PollResult
  /-- The requested event is in `events[0].revents`, where an interrupted `poll` may leave it. -/
  device : Bool
  /-- The same for `events[1]`; never without `aux`. -/
  aux : Bool
  /-- The time since the start of the call, after `poll`. -/
  elapsedMs : Int
  /-- What `read` or `write` has to give if it is called; `none` is `-1` with `EINTR`. -/
  transfer : Option α

structure TtyState where
  /-- `curr`, as an offset from `begin`. -/
  curr : Int
  buf : Int → UInt8
  elapsedMs : Int
  /-- A `break` has been taken. -/
  left : Bool
  /-- The calls of `read` or `write` so far: the bytes each has moved, or `none`. -/
  calls : List (Option (List UInt8))

namespace TtyState

def start (buf : Int → UInt8) : TtyState :=
  { curr := 0, buf := buf, elapsedMs := 0, left := false, calls := [] }

/-- The loop has been left, or its condition has failed. -/
def returned (size : Nat) (timeout : Int) (s : TtyState) : Bool :=
  s.left || !(s.curr ≠ size && (0 > timeout || timeout ≥ s.elapsedMs))

/-- The bytes `[begin, curr)`. -/
def front (s : TtyState) : List UInt8 := (List.range s.curr.toNat).map fun k : Nat => s.buf k

end TtyState

/-- `read(fd, curr, room)` where `arrived` is there to be read. -/
def readCall (arrived : List UInt8) (room : Nat) (curr : Int) (buf : Int → UInt8) :
    List UInt8 × (Int → UInt8) :=
  let data := arrived.take room
  (data, fun i =>
    if curr ≤ i ∧ i < curr + data.length then data.getD (i - curr).toNat 0 else buf i)

/-- `write(fd, curr, room)` where the driver takes at most `accepted` bytes. -/
def writeCall (accepted room : Nat) (curr : Int) (buf : Int → UInt8) :
    List UInt8 × (Int → UInt8) :=
  ((List.range (min accepted room)).map fun k : Nat => buf (curr + k), buf)

/-- The call of `read` or `write` in the body of a loop. With `once` the loop is left after it. -/
def ttyTransfer {α : Type} (call : α → Nat → Int → (Int → UInt8) → List UInt8 × (Int → UInt8))
    (size : Nat) (once : Bool) (transfer : Option α) (s : TtyState) : TtyState :=
  match transfer with
  | none =>
      -- the result of the call is added as it is
      { s with curr := s.curr - 1, calls := s.calls ++ [none], left := once }
  | some x =>
      let moved := call x (size - s.curr).toNat s.curr s.buf
      { s with
        curr := s.curr + moved.1.length, buf := moved.2, calls := s.calls ++ [some moved.1]
        left := once }

/-- The body of both loops. -/
def ttyRound {α : Type} (call : α → Nat → Int → (Int → UInt8) → List UInt8 × (Int → UInt8))
    (size : Nat) (once : Bool) (round : TtyRound α) (s : TtyState) : TtyState :=
  let s := { s with elapsedMs := round.elapsedMs }
  if round.poll = .timeout then s
  else
    let s := if round.device then ttyTransfer call size once round.transfer s else s
    if s.left then s else { s with left := round.aux }

/-- Both loops, as far as the rounds go. -/
def ttyLoop {α : Type} (call : α → Nat → Int → (Int → UInt8) → List UInt8 × (Int → UInt8))
    (size : Nat) (timeout : Int) (once : Bool) : List (TtyRound α) → TtyState → TtyState
  | [], s => s
  | round :: rounds, s =>
      if s.returned size timeout then s
      else ttyLoop call size timeout once rounds (ttyRound call size once round s)

/-- `tty_read` into the `size` bytes from `begin` on. -/
def ttyReadLoop (size : Nat) (timeout : Int) (buf : Int → UInt8)
    (rounds : List (TtyRound { arrived : List UInt8 // arrived ≠ [] })) : TtyState :=
  ttyLoop (fun arrived => readCall arrived.val) size timeout (0 > timeout) rounds (.start buf)

/-- `tty_write` of the `size` bytes from `begin` on. -/
def ttyWriteLoop (size : Nat) (timeout : Int) (buf : Int → UInt8)
    (rounds : List (TtyRound { accepted : Nat // 0 < accepted })) : TtyState :=
  ttyLoop (fun accepted => writeCall accepted.val) size timeout false rounds (.start buf)

/-! ## The read that sleeps -/

/-- What a round of `tty_read_ll` gets from the system. -/
structure LlRound where
  /-- `usleep`, if it is called, is interrupted. -/
  woken : Bool
  /-- What there is to be read, if anything; `none` is `-1` with `EINTR`. -/
  arrived : Option (List UInt8)
  /-- `timestamp_us() - start_us`, behind `read`. -/
  sinceStartUs : Int

structure LlState where
  /-- `curr`, as an offset from `begin`. -/
  curr : Int
  buf : Int → UInt8
  elapsedUs : Int
  /-- The `break` has been taken. -/
  left : Bool
  /-- The clock, since the start of the call, when it was last read. -/
  nowUs : Int
  /-- What `usleep` has been called with so far. -/
  sleeps : List Int

namespace LlState

def start (buf : Int → UInt8) : LlState :=
  { curr := 0, buf := buf, elapsedUs := 0, left := false, nowUs := 0, sleeps := [] }

/-- The loop has been left, or its condition has failed. -/
def returned (delayUs : Int) (s : LlState) : Bool := s.left || !(delayUs > s.elapsedUs)

/-- The bytes `[begin, curr)`. -/
def front (s : LlState) : List UInt8 := (List.range s.curr.toNat).map fun k : Nat => s.buf k

/-- `elapsed_us += timestamp_us() - start_us`: the time since the start is added up. -/
def elapse (sinceStartUs : Int) (s : LlState) : LlState :=
  { s with elapsedUs := s.elapsedUs + sinceStartUs, nowUs := sinceStartUs }

end LlState

/-- The body of the loop. -/
def ttyReadLlRound (size : Nat) (delayUs : Int) (round : LlRound) (s : LlState) : LlState :=
  let s := if s.elapsedUs ≠ 0 then { s with sleeps := s.sleeps ++ [delayUs - s.elapsedUs] } else s
  match round.arrived with
  | none => s.elapse round.sinceStartUs
  | some arrived =>
      let r := readCall arrived (size - s.curr).toNat s.curr s.buf
      if 0 < r.1.length then { s with curr := s.curr + r.1.length, buf := r.2, left := true }
      else s.elapse round.sinceStartUs

/-- The loop, as far as the rounds go. -/
def ttyReadLlLoop (size : Nat) (delayUs : Int) : List LlRound → LlState → LlState
  | [], s => s
  | round :: rounds, s =>
      if s.returned delayUs then s
      else ttyReadLlLoop size delayUs rounds (ttyReadLlRound size delayUs round s)

/-- `tty_read_ll` into the `size` bytes from `begin` on. -/
def ttyReadLl (size : Nat) (delayUs : Int) (buf : Int → UInt8) (rounds : List LlRound) : LlState :=
  ttyReadLlLoop size delayUs rounds (.start buf)

end ModbusRtu
