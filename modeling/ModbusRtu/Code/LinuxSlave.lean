import ModbusRtu.Base.System
import ModbusRtu.Code.Rtu
import ModbusRtu.Code.Tty

/-!
# The Linux slave

`linux/rtu_impl.c`: the state machine on a serial device, with a timer that is
a time stamp and a timeout. The state machine notes its calls to the platform;
here they are carried out, in order, and each may fail a `CHECK`, which ends
the program. The callbacks look at nothing of the state machine but what the
call carries.

What comes from the system is given: the readings of the clock, the fate of
each `tty_write` and, round by round, what `tty_read` or `tty_read_ll` comes
back with (`Reading.ofTty`, `Reading.ofTtyLl`).
-/

namespace ModbusRtu

open Base

/-! ## The platform -/

/-- The checks that depend on the course of a run, and what else ends the program. -/
inductive Check
  /-- `CHECK(-1 == impl->timer.timeout_us)`. -/
  | timerStopped
  /-- `CHECK(-1 != impl->timer.timeout_us)`. -/
  | timerStarted
  /-- `CHECK(state->timer_cb)`. -/
  | timerCb
  /-- `CHECK(end == curr)`, behind `tty_write`. -/
  | written
  /-- A check of `tty_read`, `tty_read_ll`, `tty_write` or `tty_drain`: the system
  has refused a call, or has moved no bytes. -/
  | device
  /-- No check: `recv_impl` has run over the end of `buf`. -/
  | pastBuf
  deriving DecidableEq, Repr

/-- How a reply gets written. -/
inductive Writing
  /-- `tty_write` comes to the end of the reply, and `tty_drain` returns. -/
  | whole
  /-- `tty_write` runs out of time. -/
  | short
  | failed
  deriving DecidableEq, Repr

/-- What the system does for the slave. -/
structure Host where
  /-- The readings of `timestamp_us`, in order. -/
  clock : Nat → Int
  /-- How a reply is written: its number, its bytes, the time in milliseconds. -/
  writes : Nat → List UInt8 → Nat → Writing

/-- `impl->timer`. A timeout of `-1` is a timer that is stopped. -/
structure ImplTimer where
  timeout1t5Us : Int
  timeout3t5Us : Int
  timestampUs : Int
  timeoutUs : Int
  startCntr : UInt64
  stopCntr : UInt64
  resetCntr : UInt64
  deriving DecidableEq, Repr

/-- `rtu_impl_t`, with the readings of the clock and the replies written so far. -/
structure RtuImpl where
  rate : Speed
  timer : ImplTimer
  readings : Nat
  replies : Nat
  deriving DecidableEq, Repr

namespace RtuImpl

variable (host : Host) (impl : RtuImpl)

def timestampUs : Int × RtuImpl :=
  (host.clock impl.readings, { impl with readings := impl.readings + 1 })

/-- What `timer_start_1t5` and `timer_start_3t5` share. -/
def timerStart (timeoutUs : Int) : Except Check RtuImpl :=
  if impl.timer.timeoutUs = -1 then
    let (now, impl) := impl.timestampUs host
    let timer := { impl.timer with
      timestampUs := now, timeoutUs := timeoutUs, startCntr := impl.timer.startCntr + 1 }
    .ok { impl with timer := timer }
  else .error .timerStopped

def timerStart1t5 : Except Check RtuImpl := impl.timerStart host impl.timer.timeout1t5Us

def timerStart3t5 : Except Check RtuImpl := impl.timerStart host impl.timer.timeout3t5Us

def timerStop : RtuImpl :=
  if impl.timer.timeoutUs = -1 then impl
  else
    let timer := { impl.timer with timeoutUs := -1, stopCntr := impl.timer.stopCntr + 1 }
    { impl with timer := timer }

def timerReset : Except Check RtuImpl :=
  if impl.timer.timeoutUs = -1 then .error .timerStarted
  else
    let (now, impl) := impl.timestampUs host
    let timer := { impl.timer with timestampUs := now, resetCntr := impl.timer.resetCntr + 1 }
    .ok { impl with timer := timer }

/-- `send_impl`, without the end of the transmission, which is part of the state machine. -/
def sendImpl (adu : List UInt8) : Except Check RtuImpl :=
  let timeout := calcTmaxMs impl.rate adu.length
  match host.writes impl.replies adu timeout with
  | .whole => .ok { impl with replies := impl.replies + 1 }
  | .short => .error .written
  | .failed => .error .device

/-- A call of the state machine is carried out. -/
def answer : Call → Except Check RtuImpl
  | .timerStart1t5 _ => impl.timerStart1t5 host
  | .timerStart3t5 _ => impl.timerStart3t5 host
  | .timerStop => .ok impl.timerStop
  | .timerReset _ => impl.timerReset host
  | .serialSend adu => impl.sendImpl host adu
  -- `pdu_cb_proxy` only passes its arguments on
  | .pduCb _ => .ok impl
  -- both callbacks are `NULL`
  | .suspendCb | .resumeCb => .ok impl
  | .rxStore _ | .txStore _ | .logTp => .ok impl

end RtuImpl

/-! ## The slave -/

variable {U : Type}

/-- The state machine as `modbus_rtu_run` sets it up. -/
def linuxConfig (pduCb : U → PduArgs → U × List UInt8) : Config U where
  pduCb := pduCb
  serialSend := .sync
  suspendCb := false
  resumeCb := false

structure LinuxSlave (pduCb : U → PduArgs → U × List UInt8) where
  state : State (linuxConfig pduCb)
  impl : RtuImpl

namespace LinuxSlave

/-- How the reading of a round ends. -/
inductive Reading
  /-- With the bytes from `buf` to `end`. -/
  | bytes (chunk : List UInt8) (fits : chunk.length ≤ aduCapacity)
  /-- With `end` in front of `buf`. -/
  | behind
  /-- With a check of `tty_read` or `tty_read_ll` that fails. -/
  | failed

namespace Reading

/-- The reading that `tty_read` comes back with. -/
def ofTty (s : TtyState) : Reading :=
  if h : s.front.length ≤ aduCapacity ∧ 0 ≤ s.curr then .bytes s.front h.1 else .behind

/-- The reading that `tty_read_ll` comes back with. -/
def ofTtyLl (s : LlState) : Reading :=
  if h : s.front.length ≤ aduCapacity ∧ 0 ≤ s.curr then .bytes s.front h.1 else .behind

/-- The bytes that have been read. -/
def chunk : Reading → List UInt8
  | bytes chunk _ => chunk
  | behind | failed => []

end Reading

variable {pduCb : U → PduArgs → U × List UInt8} (host : Host)

/-- An entry point of the state machine is called, and its calls are carried out. -/
def enter (a : Action) (slave : LinuxSlave pduCb) : Except Check (LinuxSlave pduCb) := do
  let state := slave.state.step a
  let impl ← (callsSince slave.state state).foldlM (RtuImpl.answer host) slave.impl
  return { state := state, impl := impl }

/-- A callback, and the event behind it. -/
def attend (a : Action) (slave : LinuxSlave pduCb) : Except Check (LinuxSlave pduCb) := do
  let slave ← slave.enter host a
  slave.enter host .event

/-- The loop of `recv_impl` over the bytes that have been read. -/
def recvBytes (chunk : List UInt8) (slave : LinuxSlave pduCb) : Except Check (LinuxSlave pduCb) :=
  chunk.foldlM (fun slave data => slave.attend host (.recv data)) slave

def recvImpl (reading : Reading) (slave : LinuxSlave pduCb) : Except Check (LinuxSlave pduCb) :=
  match reading with
  | .bytes chunk _ => slave.recvBytes host chunk
  | .behind => do
      -- nothing stops the loop at the end of `buf`, which is all zeros
      let _ ← slave.recvBytes host (List.replicate aduCapacity 0)
      throw .pastBuf
  | .failed => throw .device

def timeoutImpl (slave : LinuxSlave pduCb) : Except Check (LinuxSlave pduCb) :=
  if slave.impl.timer.timeoutUs = -1 then .ok slave
  else
    let (now, impl) := slave.impl.timestampUs host
    let slave := { slave with impl := impl }
    let elapsed := now - impl.timer.timestampUs
    if elapsed ≥ impl.timer.timeoutUs then
      if slave.state.timerCb = .null then .error .timerCb else slave.attend host .timer
    else .ok slave

/-- What one round of the loop gets from the device, and whether the user's event has occurred. -/
structure Round where
  reading : Reading
  userEvent : Bool

def Round.chunk (round : Round) : List UInt8 := round.reading.chunk

/-- The loop of `modbus_rtu_run`, as far as the rounds go. -/
def loop : List Round → LinuxSlave pduCb → Except Check (LinuxSlave pduCb)
  | [], slave => .ok slave
  | round :: rounds, slave => do
      let slave ← slave.recvImpl host round.reading
      let slave ← slave.timeoutImpl host
      if round.userEvent then return slave else loop rounds slave

/-- The slave in front of its first event. A timeout of `-1` stands for the one of the rate. -/
def start (rate : Speed) (timeout1t5Us timeout3t5Us : Int) (userData : U) : LinuxSlave pduCb where
  state := modbusRtuInit (linuxConfig pduCb) userData
  impl :=
    { rate := rate
      timer :=
        { timeout1t5Us := if timeout1t5Us = -1 then calc1t5Us rate else timeout1t5Us
          timeout3t5Us := if timeout3t5Us = -1 then calc3t5Us rate else timeout3t5Us
          timestampUs := host.clock 0
          timeoutUs := -1
          startCntr := 0
          stopCntr := 0
          resetCntr := 0 }
      readings := 1
      replies := 0 }

def modbusRtuRun (rate : Speed) (timeout1t5Us timeout3t5Us : Int) (userData : U)
    (rounds : List Round) : Except Check (LinuxSlave pduCb) := do
  let slave ← (start host rate timeout1t5Us timeout3t5Us userData).enter host .event
  slave.loop host rounds

end LinuxSlave

end ModbusRtu
