import ModbusRtu.Theorems.MemoryApplication

/-!
# The slave is the receiver of the diagram

Every callback of the slave, with the event behind it, is a step of the
receiver of the state diagram (`attended_abstracts`), which unlike the diagram
has a deaf phase behind a frame that fails its check. So every run is a run of
it, with the same frames handed over, the same replies, the same use of the
timer and the same counters (`attended_runs_as_receiver`). Of `pdu_cb` it takes
that it answers a frame as the application of the receiver does (`Implements`).
-/

namespace ModbusRtu

open Base

variable {U : Type} {cfg : Config U} {app : Application U} {s s' : State cfg}

theorem Becomes.outputs_eq {p : Receiver U × List Output} (h : Becomes s s' p) :
    outputs (callsSince s s') = p.2 := by
  obtain ⟨l, hcalls, hout⟩ := h.calls
  rw [callsSince, hcalls, List.drop_left, hout]

/-- The code, attended to, does what the receiver does. -/
theorem attended_abstracts (himp : Implements cfg app) :
    (attendedSlave cfg).Abstracts Steady State.receiver (receiver app) where
  enabled := by
    intro s signal h
    show (signal.action = .timer → s.timer ≠ .stopped) ↔ (signal = .timeout → s.phase.Timed)
    rw [← h.timed_iff]
    cases signal <;> simp [Signal.action]
  keeps h hen := (becomes_step himp h hen).steady
  step h hen := by
    have hbecomes := becomes_step himp h hen
    exact Prod.ext hbecomes.receiver.symm hbecomes.outputs_eq.symm

theorem attendedSlave_legal {signals : List Signal} :
    (attendedSlave cfg).Legal s signals ↔
      (rtuSystem cfg).Legal s (attended (signals.map Signal.action)) := by
  induction signals generalizing s with
  | nil => exact Iff.rfl
  | cons signal signals ih =>
      refine and_congr_right fun hen => ?_
      rw [ih]
      exact (and_iff_right (enabled_event _)).symm

/-- The runs of the code, with an event behind every callback. -/
theorem attendedSlave_run (hwf : Wf s) {signals : List Signal}
    (hlegal : (attendedSlave cfg).Legal s signals) :
    (attendedSlave cfg).run s signals =
      ((rtuSystem cfg).run s (attended (signals.map Signal.action)),
        outputs (callsSince s ((rtuSystem cfg).run s (attended (signals.map Signal.action))))) := by
  induction signals generalizing s with
  | nil =>
      show (s, []) = (s, outputs (s.calls.drop s.calls.length))
      rw [List.drop_length]
      rfl
  | cons signal signals ih =>
      have hwf₁ : Wf (modbusRtuEvent (s.step signal.action)) :=
        modbusRtuEvent_wf (wf_invariant.step s _ hwf hlegal.1)
      have hrun : (attendedSlave cfg).run ((attendedSlave cfg).step s signal).1 signals = _ :=
        ih hwf₁ hlegal.2
      have hlegal' : (rtuSystem cfg).Legal s
          ([signal.action, .event] ++ attended (signals.map Signal.action)) :=
        ⟨hlegal.1, enabled_event _, attendedSlave_legal.mp hlegal.2⟩
      have hsince := callsSince_run_append hwf hlegal'
      rw [Transducer.run_cons, hrun]
      refine Prod.ext rfl ?_
      exact (List.filterMap_append.symm).trans (congrArg outputs hsince.symm)

/-- The receiver that is switched on. -/
def Receiver.powerUp (userData : U) : Receiver U where
  phase := .init
  userData := userData
  stats := { errCntr := 0, serialRecvErrCntr := 0, crcErrCntr := 0 }

/-- From power-up on, with one event behind every callback and a `pdu_cb` that
implements the application: for every sequence of bytes, line errors,
transmissions and timeouts, the slave can go through it if and only if the
receiver can, the one of the diagram with its deaf phase. Its state then stands
for the receiver's, and its calls are the receiver's outputs. -/
theorem attended_runs_as_receiver (himp : Implements cfg app) (userData : U)
    (signals : List Signal) :
    let start : State cfg := modbusRtuEvent (modbusRtuInit cfg userData)
    let end_ := (rtuSystem cfg).run start (attended (signals.map Signal.action))
    ((rtuSystem cfg).Legal start (attended (signals.map Signal.action)) ↔
        (receiver app).Legal (.powerUp userData) signals) ∧
      ((receiver app).Legal (.powerUp userData) signals →
        (receiver app).run (.powerUp userData) signals =
          (end_.receiver, outputs (callsSince start end_))) := by
  intro start end_
  have hwf : Wf start := modbusRtuEvent_wf (modbusRtuInit_wf userData)
  have hsteady : Steady start :=
    steady_of_not_updated hwf rfl (by rintro (hc | hc) <;> cases hc)
  have hlegal : (rtuSystem cfg).Legal start (attended (signals.map Signal.action)) ↔
      (receiver app).Legal (.powerUp userData) signals :=
    attendedSlave_legal.symm.trans ((attended_abstracts himp).legal hsteady)
  refine ⟨hlegal, fun h => ?_⟩
  have hslave : (attendedSlave cfg).Legal start signals := attendedSlave_legal.mpr (hlegal.mpr h)
  have hrun : (receiver app).run (.powerUp userData) signals = _ :=
    ((attended_abstracts himp).run hsteady hslave).2
  rw [hrun, attendedSlave_run hwf hslave]

/-- The memory server on Linux: a byte is written. -/
theorem attended_runs_as_receiver_write :
    let impl : RtuMemoryImpl :=
      { selfAddr := 0x11, memory := { header := ⟨0x1000, 0x1400⟩, bytes := fun _ => 0 } }
    let start : State (slaveConfig .int32 .sync) := modbusRtuEvent (modbusRtuInit _ impl)
    let request := withCrc [0x11, 0x42, 0x10, 0x00, 0x01, 0x07]
    let signals := .timeout :: request.map .byte ++ [.timeout, .timeout]
    let end_ := (rtuSystem _).run start (attended (signals.map Signal.action))
    outputs (callsSince start end_) = .stop :: .start1t5 :: List.replicate 7 .reset ++
        [.stop, .start3t5, .stop, .handed request, .reply (withCrc [0x11, 0x42, 0x10, 0x00, 0x01]),
          .stop, .start3t5] ∧
      end_.receiver.phase = .init := by
  intro impl start request signals end_
  have hrequest : request = [0x11, 0x42, 0x10, 0x00, 0x01, 0x07, 0x3f, 0xc7] := by decide
  have hanswer : ((memoryApplication .int32 .sync).answer impl
      [0x11, 0x42, 0x10, 0x00, 0x01, 0x07, 0x3f, 0xc7]).2 = [0x11, 0x42, 0x10, 0x00, 0x01] := rfl
  have hat : (memoryApplication .int32 .sync).sendsAtOnce = true := rfl
  have hresumes : (memoryApplication .int32 .sync).resumes = false := rfl
  have hsuspends : (memoryApplication .int32 .sync).suspends = false := rfl
  have hacc : Accepted [0x11, 0x42, 0x10, 0x00, 0x01, 0x07, 0x3f, 0xc7] := by decide
  have hcap : (memoryApplication .int32 .sync).capacity = 256 := rfl
  have hlegal : (receiver (memoryApplication .int32 .sync)).Legal (.powerUp impl) signals := by
    simp [signals, hrequest, Transducer.Legal, receiver, Receiver.step, Receiver.byte,
      Receiver.timeout, Receiver.powerUp, Phase.Timed, hcap]
  obtain ⟨r, hphase, hreceiver⟩ : ∃ r : Receiver RtuMemoryImpl, r.phase = .init ∧
      (receiver (memoryApplication .int32 .sync)).run (.powerUp impl) signals = (r,
        .stop :: .start1t5 :: List.replicate 7 .reset ++
          [.stop, .start3t5, .stop, .handed request,
            .reply (withCrc [0x11, 0x42, 0x10, 0x00, 0x01]), .stop, .start3t5]) := by
    simp [signals, hrequest, Transducer.run, receiver, Receiver.step, Receiver.byte,
      Receiver.timeout, Receiver.confirmed, Receiver.processed, Receiver.powerUp, hacc, hcap,
      hanswer, hat, hresumes, hsuspends]
  have hrun := (attended_runs_as_receiver (implements_memory .int32 .sync) impl signals).2 hlegal
  rw [hreceiver] at hrun
  obtain ⟨hend, hout⟩ := Prod.mk.inj hrun
  exact ⟨hout.symm, by rw [← hend, hphase]⟩

end ModbusRtu
