import ModbusRtu.Base.System
import ModbusRtu.Code.Rtu

/-!
# The ATmega328P firmware

`atmega328p/rtu_main.c` and the callbacks of `atmega328p/rtu_impl.c`: the main
loop calls `modbus_rtu_event` with interrupts disabled and goes to sleep; the
interrupts call the state machine and wake the loop up.

The drivers are not part of the repository. Of the timer there is what the
state machine knows of it. The transmitter asks for bytes, any number of times,
and reports the end of a transmission once, behind `serial_send`. The loop of
`usart_rx_recv_cb` that empties the queue behind a receive error only makes
bytes go missing, and is left out.
-/

namespace ModbusRtu

open Base

variable {U : Type}

/-- The state machine as `main` sets it up, through `modbus_rtu_impl`. -/
def atmegaConfig (pduCb : U → PduArgs → U × List UInt8) : Config U where
  pduCb := pduCb
  serialSend := .async
  suspendCb := false
  resumeCb := false

/-! ## Interrupts -/

inductive Interrupt
  | usartRxRecv (data : UInt8) (fopErrors : UInt8)
  /-- The transmitter has room for a byte; the driver puts it there. -/
  | usartDataEmpty
  | usartTxComplete
  | tmr
  deriving DecidableEq, Repr

/-- `usart_rx_recv_cb`. -/
def usartRxRecvCb (data fopErrors : UInt8) : Action :=
  if 0 = fopErrors then .recv data else .recvErr data

/-- The entry point of the state machine that the interrupt calls, if any. -/
def Interrupt.calls : Interrupt → Option Action
  | .usartRxRecv data fopErrors => some (usartRxRecvCb data fopErrors)
  | .usartDataEmpty => none
  | .usartTxComplete => some .sent
  | .tmr => some .timer

/-! ## The main loop -/

/-- The statements of the loop in `main`, each the next one to be executed. -/
inductive Statement
  | cli | event | idle | dispatch | sei | sleepCpu
  /-- Behind `sleep_cpu`, until an interrupt comes. -/
  | asleep
  deriving DecidableEq, Repr

structure Firmware (pduCb : U → PduArgs → U × List UInt8) where
  state : State (atmegaConfig pduCb)
  next : Statement
  /-- The global interrupt enable bit. -/
  interrupts : Bool
  /-- A transmission is under way. -/
  sending : Bool

/-- The main loop goes on by one statement, or an interrupt is served. -/
inductive Move
  | main
  | interrupt (i : Interrupt)
  deriving DecidableEq, Repr

def startsTransmission : Call → Bool
  | .serialSend _ => true
  | _ => false

namespace Firmware

variable {pduCb : U → PduArgs → U × List UInt8}

/-- In front of the loop, no interrupt having been enabled so far. -/
def reset (userData : U) : Firmware pduCb where
  state := modbusRtuInit (atmegaConfig pduCb) userData
  next := .cli
  interrupts := false
  sending := false

def main (fw : Firmware pduCb) : Firmware pduCb :=
  match fw.next with
  | .cli => { fw with next := .event, interrupts := false }
  | .event =>
      let state := modbusRtuEvent fw.state
      let sending := fw.sending || (callsSince fw.state state).any startsTransmission
      { fw with state := state, next := .idle, sending := sending }
  | .idle => { fw with next := if modbusRtuIdle fw.state then .dispatch else .sei }
  -- `dispatch` does nothing yet
  | .dispatch => { fw with next := .sei }
  | .sei => { fw with next := .sleepCpu, interrupts := true }
  | .sleepCpu => { fw with next := .asleep }
  | .asleep => fw

/-- The interrupt is served, and a sleeping main loop goes on behind `sleep_cpu`. -/
def serve (fw : Firmware pduCb) (i : Interrupt) : Firmware pduCb where
  state := i.calls.elim fw.state fw.state.step
  next := if fw.next = .asleep then .cli else fw.next
  interrupts := fw.interrupts
  sending := fw.sending && i != .usartTxComplete

def step (fw : Firmware pduCb) : Move → Firmware pduCb
  | .main => fw.main
  | .interrupt i => fw.serve i

/-- The instruction behind `sei` is executed before any interrupt is served. -/
def Serves (fw : Firmware pduCb) : Prop := fw.interrupts = true ∧ fw.next ≠ .sleepCpu

/-- The timer and the transmitter have something to report. -/
def Due (fw : Firmware pduCb) : Interrupt → Prop
  | .usartRxRecv _ _ => True
  | .usartDataEmpty | .usartTxComplete => fw.sending = true
  | .tmr => fw.state.timer ≠ .stopped

def Enabled (fw : Firmware pduCb) : Move → Prop
  | .main => fw.next ≠ .asleep
  | .interrupt i => fw.Serves ∧ fw.Due i

instance (fw : Firmware pduCb) (i : Interrupt) : Decidable (fw.Due i) :=
  match i with
  | .usartRxRecv _ _ => inferInstanceAs (Decidable True)
  | .usartDataEmpty | .usartTxComplete => inferInstanceAs (Decidable (fw.sending = true))
  | .tmr => inferInstanceAs (Decidable (fw.state.timer ≠ .stopped))

instance (fw : Firmware pduCb) (m : Move) : Decidable (fw.Enabled m) :=
  match m with
  | .main => inferInstanceAs (Decidable (fw.next ≠ .asleep))
  | .interrupt i => inferInstanceAs (Decidable ((_ ∧ _) ∧ fw.Due i))

end Firmware

/-- The main loop and the interrupts, in any order the hardware allows. -/
def firmware (pduCb : U → PduArgs → U × List UInt8) : System (Firmware pduCb) Move where
  init fw := ∃ userData, fw = Firmware.reset userData
  enabled := Firmware.Enabled
  step := Firmware.step

instance (pduCb : U → PduArgs → U × List UInt8) (fw : Firmware pduCb) (m : Move) :
    Decidable ((firmware pduCb).enabled fw m) :=
  inferInstanceAs (Decidable (fw.Enabled m))

end ModbusRtu
