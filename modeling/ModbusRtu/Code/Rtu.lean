import ModbusRtu.Base.Buffer
import ModbusRtu.Base.System
import ModbusRtu.Code.Crc

/-!
# The RTU framing state machine

The slave state machine of `rtu.c`: five entry points (three serial
callbacks, the installed timer callback, `modbusRtuEvent`) over one state
record. The platform timer is part of the state; every call the machine makes
to the platform or to the application, and every byte it stores into one of
its buffers, is noted in `calls`, newest last.

Log output is left out, except that `Call.logTp` marks the branches of
`modbusRtuEvent` that trace an impossible state.
-/

namespace ModbusRtu

open Base

/-! ## State -/

/-- The values of the 3-bit state fields: six named states and the two values
no enumerator names. -/
inductive RtuState
  | init | idle | sof | recv | eof | busy | raw6 | raw7
  deriving DecidableEq, Repr

/-- The status bits. -/
structure Status where
  updated : Bool
  error : Bool
  prev : RtuState
  curr : RtuState
  deriving DecidableEq, Repr

/-- `RTU_STATE_UPDATE`. -/
def Status.update (status : Status) (state : RtuState) : Status :=
  { status with updated := true, prev := status.curr, curr := state }

/-- `RTU_STATE_ERROR`. -/
def Status.raise (status : Status) : Status := { status with updated := true, error := true }

/-- The function installed in `timer_cb`. -/
inductive TimerCb
  | null | silentInterval | interFrameTimeout
  deriving DecidableEq, Repr

/-- The platform timer: a callback comes only while it is armed, and does not
disarm it. -/
inductive Timer
  | stopped | armed1t5 | armed3t5
  deriving DecidableEq, Repr

/-- The arguments of `pdu_cb`. Pointers into the receive buffer are offsets
from `begin`; `src` is the buffer content from `begin` on, past `end` too. -/
structure PduArgs where
  addr : UInt8
  fcode : UInt8
  src : List UInt8
  end_ : Nat
  curr : Nat
  dstSize : Nat
  deriving DecidableEq, Repr

/-- The request bytes `[begin, end)`. -/
def PduArgs.request (args : PduArgs) : List UInt8 := args.src.take args.end_

/-- What the state machine does to its surroundings. A timer call carries the
timer as it was when the call was made, a store the offset in its buffer. -/
inductive Call
  | timerStart1t5 (timer : Timer)
  | timerStart3t5 (timer : Timer)
  | timerStop
  | timerReset (timer : Timer)
  | rxStore (offset : Nat)
  | txStore (offset : Nat)
  | pduCb (args : PduArgs)
  | serialSend (adu : List UInt8)
  | suspendCb
  | resumeCb
  | logTp
  deriving DecidableEq, Repr

/-- How `serial_send` hands over the reply: it returns at once and
`serial_sent_cb` comes later (microcontrollers), or it calls `serial_sent_cb`
and `modbus_rtu_event` itself before it returns (Linux). -/
inductive SerialSend
  | async | sync
  deriving DecidableEq, Repr

structure Stats where
  errCntr : UInt8
  serialRecvErrCntr : UInt8
  crcErrCntr : UInt8
  deriving DecidableEq, Repr

/-- Build parameters and platform callbacks. The reply of `pdu_cb` is what it
stores from `dst_begin` on; it returns the pointer behind it. -/
structure Config (U : Type) where
  rxbufCapacity : Nat := aduCapacity
  txbufCapacity : Nat := aduCapacity
  pduCb : U → PduArgs → U × List UInt8
  serialSend : SerialSend
  /-- `suspend_cb` is set. -/
  suspendCb : Bool
  /-- `resume_cb` is set. -/
  resumeCb : Bool

variable {U : Type} {cfg : Config U}

/-- `modbus_rtu_state_t`, with the platform timer and the calls made so far. -/
structure State (cfg : Config U) where
  timerCb : TimerCb
  rxbuf : Buf UInt8 cfg.rxbufCapacity
  txbuf : Buf UInt8 cfg.txbufCapacity
  userData : U
  stats : Stats
  status : Status
  timer : Timer
  calls : List Call

namespace State

def note (s : State cfg) (c : Call) : State cfg := { s with calls := s.calls ++ [c] }

def update (s : State cfg) (state : RtuState) : State cfg :=
  { s with status := s.status.update state }

def raise (s : State cfg) : State cfg := { s with status := s.status.raise }

def timerStart1t5 (s : State cfg) : State cfg :=
  { s with timer := .armed1t5, calls := s.calls ++ [.timerStart1t5 s.timer] }

def timerStart3t5 (s : State cfg) : State cfg :=
  { s with timer := .armed3t5, calls := s.calls ++ [.timerStart3t5 s.timer] }

def timerStop (s : State cfg) : State cfg :=
  { s with timer := .stopped, calls := s.calls ++ [.timerStop] }

def timerReset (s : State cfg) : State cfg :=
  { s with calls := s.calls ++ [.timerReset s.timer] }

/-- One byte stored through the transmit cursor. -/
def txPut (s : State cfg) (data : UInt8) : State cfg :=
  { s with txbuf := s.txbuf.push data, calls := s.calls ++ [.txStore s.txbuf.curr] }

end State

/-! ## Interrupt context -/

def resetRxbuf (s : State cfg) : State cfg := { s with rxbuf := Buf.clear _ 0 }

def resetTxbuf (s : State cfg) : State cfg := { s with txbuf := Buf.clear _ 0 }

def timerSilentIntervalCb (s : State cfg) : State cfg :=
  -- the silence before the first frame, or behind a restart, is over
  if s.status.curr = .init then (s.update .idle).timerStop
  -- the end of a frame is confirmed
  else if s.status.prev = .recv ∧ s.status.curr = .eof then (s.update .idle).timerStop
  else s.raise

def timerInterFrameTimeoutCb (s : State cfg) : State cfg :=
  if s.status.curr = .recv then
    -- 1.5t are over; another 3.5t confirm the end of the frame
    let s := (s.update .eof).timerStop
    { s with timerCb := .silentInterval }.timerStart3t5
  else s.raise

def rxbufAppend (s : State cfg) (data : UInt8) : State cfg :=
  if cfg.rxbufCapacity > s.rxbuf.curr then
    { s with rxbuf := s.rxbuf.push data, calls := s.calls ++ [.rxStore s.rxbuf.curr] }
  else s.raise

def serialRecvCb (s : State cfg) (data : UInt8) : State cfg :=
  if s.status.curr = .idle then
    let s := rxbufAppend (s.update .sof) data
    { s with timerCb := .interFrameTimeout }.timerStart1t5
  else if s.status.curr = .sof ∨ s.status.curr = .recv then
    (rxbufAppend (s.update .recv) data).timerReset
  else s.raise

def serialSentCb (s : State cfg) : State cfg :=
  if s.status.curr = .busy then { s with txbuf := s.txbuf.rewind }.update .init
  else s.raise

def serialRecvErrCb (s : State cfg) (_data : UInt8) : State cfg :=
  { s with stats.serialRecvErrCntr := s.stats.serialRecvErrCntr + 1 }.raise

/-- The timer interrupt: calls whatever is installed in `timer_cb`. -/
def timerIsr (s : State cfg) : State cfg :=
  match s.timerCb with
  | .null => s
  | .silentInterval => timerSilentIntervalCb s
  | .interFrameTimeout => timerInterFrameTimeoutCb s

/-! ## Frame processing -/

/-- The comparison `adu_check` makes between the stored and the computed CRC. -/
def crcMatches (adu : List UInt8) : Bool :=
  let crcReceived : Crc :=
    { low := adu.getD (adu.length - 2) 0, high := adu.getD (adu.length - 1) 0 }
  let crcCalculated := modbusRtuCalcCrc (adu.take (adu.length - 2))
  crcReceived.toWord == crcCalculated.toWord

def aduCheck (s : State cfg) (adu : List UInt8) : Bool × State cfg :=
  if aduMinSize > adu.length then (false, s)
  else if !crcMatches adu then
    (false, { s with stats.crcErrCntr := s.stats.crcErrCntr + 1 })
  else (true, s)

/-- The arguments `adu_process` passes for the frame in `rxbuf`. -/
def pduArgs (s : State cfg) : PduArgs where
  addr := s.rxbuf.cells.toList.getD 0 0
  fcode := s.rxbuf.cells.toList.getD 1 0
  src := s.rxbuf.cells.toList
  end_ := s.rxbuf.curr - 2
  curr := 2
  dstSize := cfg.txbufCapacity - 2

/-- `pdu_cb` runs on the frame in `rxbuf` and stores its reply from the start
of `txbuf` on. -/
def callPduCb (s : State cfg) : State cfg :=
  let args := pduArgs s
  let (userData, reply) := cfg.pduCb s.userData args
  let s := { s with userData := userData, txbuf := s.txbuf.rewind }.note (.pduCb args)
  reply.foldl State.txPut s

/-- `adu_process`, with the platform's `serial_send`. -/
def aduProcess (send : State cfg → State cfg) (s : State cfg) : State cfg :=
  match aduCheck s s.rxbuf.filled with
  | (true, s) =>
      let s := callPduCb s
      -- apart from a reset, the only place that puts the receive cursor back
      let s := { s with rxbuf := s.rxbuf.rewind }
      if s.txbuf.curr ≠ 0 then
        let crc := modbusRtuCalcCrc s.txbuf.filled
        send (((s.txPut crc.low).txPut crc.high).update .busy)
      else s
  | (false, s) => s.raise

/-! ## Main loop -/

def modbusRtuInit (cfg : Config U) (userData : U) : State cfg where
  timerCb := .null
  rxbuf := Buf.clear _ 0
  txbuf := Buf.clear _ 0
  userData := userData
  stats := { errCntr := 0, serialRecvErrCntr := 0, crcErrCntr := 0 }
  status := { updated := true, error := false, prev := .init, curr := .init }
  timer := .stopped
  calls := []

/-- The code behind the label `restart`. -/
def restart (s : State cfg) : State cfg :=
  let s := (resetTxbuf (resetRxbuf s)).timerStop
  { s with timerCb := .silentInterval }.timerStart3t5

/-- The code behind the label `error`. -/
def errorRestart (s : State cfg) : State cfg :=
  let s := { s with stats.errCntr := s.stats.errCntr + 1 }.update .init
  restart { s with status := { s.status with updated := false, error := false } }

/-- `modbus_rtu_event`, with the platform's `serial_send`. -/
def eventWith (send : State cfg → State cfg) (s : State cfg) : State cfg :=
  if !s.status.updated then s
  else
    let s := { s with status := { s.status with updated := false } }
    if s.status.error then errorRestart s
    else match s.status.curr with
      | .init => restart s
      | .idle =>
          if s.status.prev = .init then s
          else if s.status.prev = .eof then
            -- meant for a reply still in transmission
            if s.txbuf.curr ≠ 0 then errorRestart (s.note .logTp)
            else
              let s := aduProcess send s
              if cfg.resumeCb then s.note .resumeCb else s
          else errorRestart (s.note .logTp)
      | .sof =>
          -- `suspend_cb` is called before the check of the previous state
          let s := if cfg.suspendCb then s.note .suspendCb else s
          if s.status.prev ≠ .idle then errorRestart (s.note .logTp) else s
      | .recv => s
      | .eof => if s.status.prev ≠ .recv then errorRestart (s.note .logTp) else s
      | .busy => s
      | .raw6 | .raw7 => errorRestart (s.note .logTp)

/-- An asynchronous `serial_send` starts the transmission of `txbuf` up to the
cursor and returns. -/
def startTransmission (s : State cfg) : State cfg := s.note (.serialSend s.txbuf.filled)

/-- `serial_send`. The nested event of the synchronous form finds the machine
in `init`, so its own `serial_send` is never reached. -/
def serialSend (s : State cfg) : State cfg :=
  match cfg.serialSend with
  | .async => startTransmission s
  | .sync => eventWith startTransmission (serialSentCb (startTransmission s))

def modbusRtuEvent (s : State cfg) : State cfg := eventWith serialSend s

def modbusRtuIdle (s : State cfg) : Bool := s.status.curr == .idle

/-! ## The machine as a transition system -/

/-- The entry points, in any order. -/
inductive Action
  | recv (data : UInt8)
  | recvErr (data : UInt8)
  | sent
  | timer
  | event
  deriving DecidableEq, Repr

def State.step (s : State cfg) : Action → State cfg
  | .recv data => serialRecvCb s data
  | .recvErr data => serialRecvErrCb s data
  | .sent => serialSentCb s
  | .timer => timerIsr s
  | .event => modbusRtuEvent s

/-- The entry points called in any order from `modbus_rtu_init` on; the timer
interrupt comes only while the timer is armed. -/
def rtuSystem (cfg : Config U) : System (State cfg) Action where
  init s := ∃ userData, s = modbusRtuInit cfg userData
  enabled s a := a = .timer → s.timer ≠ .stopped
  step := State.step

instance (s : State cfg) (a : Action) : Decidable ((rtuSystem cfg).enabled s a) :=
  inferInstanceAs (Decidable (a = .timer → s.timer ≠ .stopped))

/-- The calls made on the way from `s` to `s'`. -/
def callsSince (s s' : State cfg) : List Call := s'.calls.drop s.calls.length

end ModbusRtu
