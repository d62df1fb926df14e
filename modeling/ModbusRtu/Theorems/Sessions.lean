import ModbusRtu.Base.Unreliable
import ModbusRtu.Theorems.Operations
import ModbusRtu.Theorems.Serving

/-!
# Sessions over a bad line

A master works through a list of operations, and each time the request or the
reply may be lost or damaged. What it sees of an attempt is a result or `NULL`.
The slave executes an attempt or it does not, and an attempt with a result it
has executed, with just that result (`session_explained`). An operation may as
well be executed twice; so a master that repeats each of them until it has a
result gets what it would get over a perfect line (`retried_operations`). It
need not repeat for long: of two attempts the line leaves alone the second
succeeds (`second_attempt_succeeds`).

A damaged reply is taken to have lost its CRC, and a reply that comes late not
to be there in the next attempt: the master does not empty its input before it
sends, and would take it for its own.
-/

namespace ModbusRtu

open Base

/-! ## Attempts -/

section

variable {w : IntWidth} {send : SerialSend} {s s' : State (slaveConfig w send)}

/-- What the slave hears of a request: the request itself, or frames that are
rejected, or nothing at all. -/
inductive Arrives (s : State (slaveConfig w send)) (request : List UInt8) :
    State (slaveConfig w send) → Prop
  | whole {t} : Exchange s request t → Arrives s request t
  | broken {frames t} : (∀ f ∈ frames, f ≠ [] ∧ ¬Accepted f) → Traffic s frames t →
      Arrives s request t

/-- The request goes out, and what the slave has sent arrives at the master, in
time, with no `read` interrupted, and nothing else with it. -/
structure Faithful (line : SerialLine) (size : Nat) (s s' : State (slaveConfig w send)) : Prop where
  writes : line.writes = true
  smooth : Smooth (line.tmaxMs size) line.rounds
  arrived : line.rounds.flatMap TtyRound.arrived = (sends (callsSince s s')).flatten

/-- One attempt at an operation. What the master reads has no CRC of its own, or
it is what the slave has sent in this attempt: nothing damaged keeps its CRC,
and of an earlier attempt nothing is still to come. -/
def Attempt (slaveAddr : UInt8) (op : Operation) (s : State (slaveConfig w send))
    (result : Option (List Data16)) (s' : State (slaveConfig w send)) : Prop :=
  ∃ line c request, op.perform line slaveAddr = some c ∧ c.written = some request ∧
    c.result = result ∧ Arrives s request s' ∧
    ∀ adu, Answered line op.replySize adu → adu <+: (sends (callsSince s s')).flatten

/-- One attempt that the line leaves alone. -/
def CleanAttempt (slaveAddr : UInt8) (op : Operation) (s : State (slaveConfig w send))
    (result : Option (List Data16)) (s' : State (slaveConfig w send)) : Prop :=
  ∃ line c request, op.perform line slaveAddr = some c ∧ c.written = some request ∧
    c.result = result ∧ Exchange s request s' ∧ Faithful line op.replySize s s'

theorem Faithful.answered_prefix {line : SerialLine} {size : Nat} (hline : Faithful line size s s')
    {adu : List UInt8} (hans : Answered line size adu) :
    adu <+: (sends (callsSince s s')).flatten := by
  rw [hans.eq_take hline.smooth, ← hline.arrived]
  exact List.take_prefix _ _

/-- The memory with the operations of the master. -/
def memoryObj : Obj Operation (Nat → UInt8) (List Data16) where
  exec op m := replay m op.request.writes
  out op m := op.answer m

variable {slaveAddr : UInt8} {h : Header} {m : Nat → UInt8} {op : Operation}
  {line : SerialLine} {c : Course}

/-- Nothing is read without having been sent. -/
theorem result_of_silence (hlegal : op.request.Legal)
    (hperform : op.perform line slaveAddr = some c) (hsends : sends (callsSince s s') = [])
    (hline : ∀ adu, Answered line op.replySize adu → adu <+: (sends (callsSince s s')).flatten) :
    c.result = none := by
  by_contra hsome
  obtain ⟨adu, hans, -⟩ := Operation.answered_of_result hlegal hperform hsome
  have hsent := hline adu hans
  rw [hsends, List.flatten_nil, List.prefix_nil] at hsent
  have hlen := hans.length_eq
  rw [hsent] at hlen
  cases op <;> simp [Operation.replySize] at hlen

/-- A result that is made of the reply is the right one. -/
theorem result_of_sent (hlegal : op.request.Legal)
    (hperform : op.perform line slaveAddr = some c)
    (hsends : sends (callsSince s s') = [withCrc (slaveAddr :: op.request.reply m)])
    (hline : ∀ adu, Answered line op.replySize adu → adu <+: (sends (callsSince s s')).flatten) :
    ∀ x ∈ c.result, x = op.answer m := by
  intro x hx
  have hsome : c.result ≠ none := by
    rw [Option.mem_def.mp hx]
    exact Option.some_ne_none x
  obtain ⟨adu, hans, hfinish⟩ := Operation.answered_of_result hlegal hperform hsome
  have hsent := hline adu hans
  rw [hsends, List.flatten_singleton] at hsent
  have hadu := hsent.eq_of_length (hans.length_eq.trans (Operation.length_reply hlegal).symm)
  rw [hfinish, hadu, Operation.finish_reply hlegal] at hx
  exact (Option.some_inj.mp hx).symm

/-- An attempt is executed, with the result it brings, or it is not, and brings none. -/
theorem Attempt.explained {result : Option (List Data16)}
    (hattempt : Attempt slaveAddr op s result s') (hkeeps : Keeps slaveAddr h m s)
    (hlegal : op.request.Legal) (hwithin : op.request.Within h) :
    (Keeps slaveAddr h (memoryObj.exec op m) s' ∧ ∀ x ∈ result, x = memoryObj.out op m) ∨
      Keeps slaveAddr h m s' ∧ result = none := by
  obtain ⟨line, c, request, hperform, hwritten, rfl, harrives, hline⟩ := hattempt
  obtain ⟨deaf, hrest⟩ := hkeeps.rest
  rw [Operation.request_eq hlegal hperform hwritten] at harrives
  cases harrives with
  | whole hexch =>
      cases deaf with
      | true =>
          obtain ⟨hquiet', hdata, hsends⟩ := hexch.lost hrest (by simp [withCrc])
          exact .inr ⟨hkeeps.congr hquiet'.atRest hdata,
            result_of_silence hlegal hperform hsends hline⟩
      | false =>
          obtain ⟨-, hkeeps', hsends⟩ := hkeeps.served hrest.quiet hlegal hwithin hexch
          exact .inl ⟨hkeeps', result_of_sent hlegal hperform hsends hline⟩
  | broken hbad htraffic =>
      obtain ⟨hdata, hsends⟩ := htraffic.rejected hrest hbad
      obtain ⟨deaf', hrest'⟩ := htraffic.atRest hrest fun f hf => (hbad f hf).1
      exact .inr ⟨hkeeps.congr hrest' hdata, result_of_silence hlegal hperform hsends hline⟩

/-! ## Attempts that nothing happens to -/

variable {result : Option (List Data16)}

theorem CleanAttempt.attempt (h : CleanAttempt slaveAddr op s result s') :
    Attempt slaveAddr op s result s' := by
  obtain ⟨line, c, request, hperform, hwritten, hresult, hexch, hline⟩ := h
  exact ⟨line, c, request, hperform, hwritten, hresult, .whole hexch,
    fun _ hans => hline.answered_prefix hans⟩

/-- Its request comes through. -/
theorem CleanAttempt.exchange (h : CleanAttempt slaveAddr op s result s')
    (hlegal : op.request.Legal) :
    Exchange s (withCrc (slaveAddr :: op.request.encode)) s' ∧
      ∀ m, sends (callsSince s s') = [withCrc (slaveAddr :: op.request.reply m)] →
        result = some (op.answer m) := by
  obtain ⟨line, c, request, hperform, hwritten, rfl, hexch, hline⟩ := h
  have hrequest := Operation.request_eq hlegal hperform hwritten
  refine ⟨hrequest ▸ hexch, ?_⟩
  intro m hsends
  have harrived := hline.arrived
  rw [hsends, List.flatten_singleton] at harrived
  rw [Operation.result_of_reply hlegal hline.writes hline.smooth harrived] at hperform
  rw [← Option.some_inj.mp hperform]

theorem exists_cleanAttempt (slaveAddr : UInt8) (hlegal : op.request.Legal) {deaf : Bool}
    (hrest : AtRest deaf s) : ∃ result s', CleanAttempt slaveAddr op s result s' := by
  have hne : withCrc (slaveAddr :: op.request.encode) ≠ [] := by simp [withCrc]
  obtain ⟨s', hexch, -⟩ := exchange_reacts hrest hne
  exact ⟨_, s', .bringing (sends (callsSince s s')).flatten, _, _, Operation.perform_eq hlegal,
    rfl, rfl, hexch, rfl, SerialLine.smooth_bringing _ _, SerialLine.arrived_bringing _⟩

/-- Without an error pending it succeeds. -/
theorem CleanAttempt.succeeds (hclean : CleanAttempt slaveAddr op s result s') (hquiet : Quiet s)
    (hkeeps : Keeps slaveAddr h m s) (hlegal : op.request.Legal) (hwithin : op.request.Within h) :
    result = some (memoryObj.out op m) ∧ Quiet s' ∧ Keeps slaveAddr h (memoryObj.exec op m) s' := by
  obtain ⟨hexch, hresult⟩ := hclean.exchange hlegal
  obtain ⟨hquiet', hkeeps', hsends⟩ := hkeeps.served hquiet hlegal hwithin hexch
  exact ⟨hresult m hsends, hquiet', hkeeps'⟩

/-- An attempt whose request gets lost. -/
theorem lostAttempt (slaveAddr : UInt8) (hlegal : op.request.Legal)
    (s : State (slaveConfig w send)) : Attempt slaveAddr op s none s := by
  refine ⟨{ SerialLine.bringing [] with writes := false }, _, _, Operation.perform_eq hlegal, rfl,
    rfl, .broken (fun f hf => absurd hf List.not_mem_nil) (.nothing s), ?_⟩
  exact fun adu hans => absurd hans.writes Bool.false_ne_true

/-! ## Sessions -/

/-- Attempts one after the other, with what they bring. -/
inductive Session (slaveAddr : UInt8) :
    State (slaveConfig w send) → List (Operation × Option (List Data16)) →
      State (slaveConfig w send) → Prop
  | nothing (t) : Session slaveAddr t [] t
  | attempt {t u v : State (slaveConfig w send)} {op result tries} :
      Attempt slaveAddr op t result u → Session slaveAddr u tries v →
      Session slaveAddr t ((op, result) :: tries) v

variable {tries : List (Operation × Option (List Data16))}

theorem Session.explained (hsession : Session slaveAddr s tries s') (hkeeps : Keeps slaveAddr h m s)
    (hops : ∀ p ∈ tries, p.1.request.Legal ∧ p.1.request.Within h) :
    ∃ m', memoryObj.Explains m tries m' ∧ Keeps slaveAddr h m' s' := by
  induction hsession generalizing m with
  | nothing t => exact ⟨m, .nothing m, hkeeps⟩
  | @attempt t u v op result tries hattempt _ ih =>
      obtain ⟨hlegal, hwithin⟩ := hops _ List.mem_cons_self
      have hrest : ∀ p ∈ tries, p.1.request.Legal ∧ p.1.request.Within h := fun p hp =>
        hops p (List.mem_cons_of_mem _ hp)
      rcases hattempt.explained hkeeps hlegal hwithin with ⟨hkeeps', hout⟩ | ⟨hkeeps', rfl⟩
      · obtain ⟨m', hexplains, hkeeps''⟩ := ih hkeeps' hrest
        exact ⟨m', .done hout hexplains, hkeeps''⟩
      · obtain ⟨m', hexplains, hkeeps''⟩ := ih hkeeps' hrest
        exact ⟨m', .lost hexplains, hkeeps''⟩

/-- A write done twice is a write, and a read changes nothing. -/
theorem idempotent (op : Operation) : memoryObj.Idempotent op := by
  intro m
  have hexec : memoryObj.exec op (memoryObj.exec op m) = memoryObj.exec op m := by
    funext a
    show replay (replay m _) _ a = replay m _ a
    rw [replay_apply, replay_apply]
    cases lastWrite a op.request.writes <;> rfl
  refine ⟨hexec, ?_⟩
  cases op with
  | rdHoldingRegisters | rdBytes => rfl
  | wrRegisters | wrBytes => rfl

/-! ## A sample session -/

theorem freshSlave_quiet : Quiet freshSlave :=
  ⟨wf_invariant.holds freshSlave_reachable, rfl, rfl⟩

/-- A write that takes two attempts, and a read behind it. -/
def sampleGoals : List (Nat × Operation × List Data16) :=
  [(1, .wrBytes 0x1000 [7], []), (0, .rdBytes 0x1000 1, [⟨0, 7⟩])]

theorem sampleGoals_legal : ∀ p ∈ sampleGoals,
    p.2.1.request.Legal ∧ p.2.1.request.Within freshSlave.userData.memory.header := by
  decide

theorem sampleSession :
    ∃ s', Session freshSlave.userData.selfAddr freshSlave
      (sampleGoals.flatMap Obj.triedUntil) s' := by
  have hwr := sampleGoals_legal _ List.mem_cons_self
  have hrd := sampleGoals_legal _ (List.mem_cons_of_mem _ List.mem_cons_self)
  have hkeeps := keeps_of_reachable freshSlave_reachable rfl rfl
    (represents_self freshSlave.userData.memory)
  obtain ⟨r₁, s₁, hclean₁⟩ := exists_cleanAttempt freshSlave.userData.selfAddr hwr.1
    freshSlave_quiet.atRest
  obtain ⟨rfl, hquiet₁, hkeeps₁⟩ := hclean₁.succeeds freshSlave_quiet hkeeps hwr.1 hwr.2
  obtain ⟨r₂, s₂, hclean₂⟩ := exists_cleanAttempt freshSlave.userData.selfAddr hrd.1
    hquiet₁.atRest
  obtain ⟨rfl, -, -⟩ := hclean₂.succeeds hquiet₁ hkeeps₁ hrd.1 hrd.2
  exact ⟨s₂, .attempt (lostAttempt _ hwr.1 _) (.attempt hclean₁.attempt
    (.attempt hclean₂.attempt (.nothing s₂)))⟩

/-! ## Over a bad line -/

/-- Whatever the line does to the requests and replies of a session, as long as
nothing damaged keeps a CRC of its own and no reply comes as late as the next
attempt: each attempt is executed whole or not
at all, those with a result are executed, the result is what the memory held at
that time, and the memory of the slave is what the executed operations make of
it, in their order. -/
theorem session_explained (hreach : (rtuSystem (slaveConfig w send)).Reachable s)
    (hidle : s.status.curr = .idle) (hrest : s.status.updated = s.status.error)
    (hmemory : s.userData.memory.Represents m)
    (hops : ∀ p ∈ tries, p.1.request.Legal ∧ p.1.request.Within s.userData.memory.header)
    (hsession : Session s.userData.selfAddr s tries s') :
    ∃ m', memoryObj.Explains m tries m' ∧ s'.userData.memory.Represents m' := by
  obtain ⟨m', hexplains, hkeeps⟩ :=
    hsession.explained (keeps_of_reachable hreach hidle hrest hmemory) hops
  exact ⟨m', hexplains, hkeeps.memory⟩

theorem session_explained_lost_request :
    ∃ s' m', memoryObj.Explains freshSlave.userData.memory.cell
        (sampleGoals.flatMap Obj.triedUntil) m' ∧ s'.userData.memory.Represents m' ∧
      Session freshSlave.userData.selfAddr freshSlave (sampleGoals.flatMap Obj.triedUntil) s' := by
  obtain ⟨s', hsession⟩ := sampleSession
  obtain ⟨m', hexplains, hmemory⟩ := session_explained freshSlave_reachable rfl rfl
    (represents_self freshSlave.userData.memory) (by decide) hsession
  exact ⟨s', m', hexplains, hmemory, hsession⟩

/-- On such a line, a master that repeats each operation until it has a result
gets the results that it would get if each were executed once, and that is what
the memory shows. -/
theorem retried_operations (hreach : (rtuSystem (slaveConfig w send)).Reachable s)
    (hidle : s.status.curr = .idle) (hrest : s.status.updated = s.status.error)
    (hmemory : s.userData.memory.Represents m) {goals : List (Nat × Operation × List Data16)}
    (hops : ∀ p ∈ goals,
      p.2.1.request.Legal ∧ p.2.1.request.Within s.userData.memory.header)
    (hsession : Session s.userData.selfAddr s (goals.flatMap Obj.triedUntil) s') :
    goals.map (fun p => p.2.2) = memoryObj.outs m (goals.map fun p => p.2.1) ∧
      s'.userData.memory.Represents (memoryObj.run m (goals.map fun p => p.2.1)) := by
  have hops' : ∀ p ∈ goals.flatMap Obj.triedUntil,
      p.1.request.Legal ∧ p.1.request.Within s.userData.memory.header := by
    intro p hp
    obtain ⟨goal, hgoal, hp⟩ := List.mem_flatMap.mp hp
    have hop : p.1 = goal.2.1 := by
      rcases List.mem_append.mp hp with hp | hp
      · rw [List.eq_of_mem_replicate hp]
      · rw [List.mem_singleton.mp hp]
    rw [hop]
    exact hops goal hgoal
  obtain ⟨m', hexplains, hkeeps⟩ :=
    hsession.explained (keeps_of_reachable hreach hidle hrest hmemory) hops'
  obtain ⟨houts, rfl⟩ := hexplains.retried_all fun p _ => idempotent p.2.1
  exact ⟨houts, hkeeps.memory⟩

theorem retried_operations_write_read :
    ∃ s', Session freshSlave.userData.selfAddr freshSlave
        (sampleGoals.flatMap Obj.triedUntil) s' ∧
      s'.userData.memory.Represents (memoryObj.run freshSlave.userData.memory.cell
        [.wrBytes 0x1000 [7], .rdBytes 0x1000 1]) := by
  obtain ⟨s', hsession⟩ := sampleSession
  obtain ⟨-, hmemory⟩ := retried_operations freshSlave_reachable rfl rfl
    (represents_self freshSlave.userData.memory) sampleGoals_legal hsession
  exact ⟨s', hsession, hmemory⟩

end

end ModbusRtu
