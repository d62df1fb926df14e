import ModbusRtu.Theorems.LinuxFrames
import ModbusRtu.Theorems.Serving

/-!
# The memory server on Linux

`rtu_main.c` runs `modbus_rtu_run` with the memory handler. All the layers come
together: the bytes the device gives are frames to the state machine, the state
machine takes those a receiver which goes deaf takes, and the handler executes
and answers the requests among them (`serves_line`).
-/

namespace ModbusRtu.LinuxSlave

open Base

variable {w : IntWidth} {host : Host} {slave slave' : LinuxSlave (rtuMemoryImplPduCb w)}
  {m : Nat → UInt8} {frames : List (List UInt8)}

/-- In every run of the memory server, with the timeouts of any rate, once no
timer runs: over any sequence of frames, damaged ones, frames of other slaves
and documented requests, each read in any number of rounds that keep pace
(`InPace`) and followed by silence, the requests among the frames it takes are
executed and the replies given to `tty_write`, each one whole and in their
order, and nothing else is. -/
theorem serves_line {rate : Speed} {impl : RtuMemoryImpl} {rounds : List Round}
    (hrun : modbusRtuRun host rate (-1) (-1) impl rounds = .ok slave)
    (hstop : slave.impl.timer.timeoutUs = -1) (hne : ∀ f ∈ frames, f ≠ [])
    (hmemory : slave.state.userData.memory.Represents m)
    (hdoc : ∀ f ∈ frames, Accepted f →
      Answerable slave.state.userData.selfAddr slave.state.userData.memory.header f)
    (h : HearsAll host slave frames slave') :
    ∃ m', Serves slave.state.userData.selfAddr slave.state.userData.memory.header m
        ((frameHearing aduCapacity).survivors slave.state.status.error frames)
        (sends (callsSince slave.state slave'.state)) m' ∧
      slave'.state.userData.memory.Represents m' := by
  have hbetween : slave.Between := modbusRtuRun_between hrun
  have hrest : AtRest slave.state.status.error slave.state := hbetween.atRest hstop
  have hkeeps : @Keeps w .sync slave.state.userData.selfAddr slave.state.userData.memory.header m
      slave.state := ⟨⟨_, hrest⟩, rfl, rfl, hmemory⟩
  have htraffic : @Traffic RtuMemoryImpl (slaveConfig w .sync) slave.state frames slave'.state :=
    h.traffic hbetween (timeouts_le_of_run hrun)
  obtain ⟨m', hserves, hkeeps'⟩ := (htraffic.reactions hrest hne).serves hrest hkeeps hdoc
  exact ⟨m', hserves, hkeeps'.memory⟩

/-- A write that is read in two rounds. -/
theorem serves_line_write :
    let impl : RtuMemoryImpl :=
      { selfAddr := 0x11, memory := { header := ⟨0x1000, 0x1400⟩, bytes := fun _ => 0 } }
    let own := withCrc (0x11 :: (Request.wrBytes 0x1000 [7]).encode)
    ∃ n m', ∃ slave slave' : LinuxSlave (rtuMemoryImplPduCb .int32),
      modbusRtuRun (steadyHost 500) .b19200 (-1) (-1) impl (List.replicate n silent) = .ok slave ∧
      HearsAll (steadyHost 500) slave [own] slave' ∧
      Serves 0x11 ⟨0x1000, 0x1400⟩ impl.memory.cell [own]
        (sends (callsSince slave.state slave'.state)) m' ∧
      slave'.state.userData.memory.Represents m' := by
  intro impl own
  have hgoes : (steadyHost 500).GoesOn := steadyHost_goesOn (by decide)
  obtain ⟨n, slave, hrun, hstop, herr, hdata⟩ :=
    powers_up hgoes (fun _ _ _ => rfl) (rtuMemoryImplPduCb .int32) .b19200 impl
  let rounds : List Round := [⟨.bytes (own.take 3) (by decide), false⟩,
    ⟨.bytes (own.drop 3) (by decide), false⟩]
  have hreads : ∀ round ∈ rounds, round.Reads :=
    List.forall_mem_cons.mpr ⟨⟨_, _, rfl⟩, List.forall_mem_singleton.mpr ⟨_, _, rfl⟩⟩
  obtain ⟨slave', hhears⟩ := exists_hears hgoes (fun _ _ _ => rfl) (modbusRtuRun_between hrun)
    (timeouts_le_of_run hrun) hreads (steadyHost_inPace hrun hreads (by decide))
  have hall : HearsAll (steadyHost 500) slave [own] slave' := .frame hhears (.nothing slave')
  have hmemory : slave.state.userData.memory.Represents impl.memory.cell := by
    rw [hdata]
    exact represents_self impl.memory
  have hdoc : ∀ f ∈ [own], Accepted f → Answerable slave.state.userData.selfAddr
      slave.state.userData.memory.header f := by
    intro f hf _ _
    rw [hdata, List.mem_singleton.mp hf]
    exact ⟨.wrBytes 0x1000 [7], rfl, by decide, by decide⟩
  obtain ⟨m', hserves, hmemory'⟩ := serves_line hrun hstop (by decide) hmemory hdoc hall
  have hsurvives : (frameHearing aduCapacity).survivors false [own] = [own] := by decide
  rw [herr, hdata, hsurvives] at hserves
  exact ⟨n, m', slave, slave', hrun, hall, hserves, hmemory'⟩

end ModbusRtu.LinuxSlave
