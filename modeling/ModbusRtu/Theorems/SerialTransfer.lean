import ModbusRtu.Code.Tty

/-!
# Interrupted calls in a serial transfer

`tty_read` and `tty_write` add the result of `read` or `write` to their pointer,
`-1` included. `ttyRound_cases` says what a round does; as long as no `read` or
`write` is interrupted, the pointer stays in its range and the bytes in front of
it are those the calls have moved (`Tracks`), whatever `poll` does. One
interrupted `read` or `write` puts the pointer a byte behind, for good.
-/

namespace ModbusRtu

/-- The bytes moved by the calls that succeeded. -/
def moved (calls : List (Option (List UInt8))) : List UInt8 := (calls.filterMap id).flatten

theorem moved_append_none (calls : List (Option (List UInt8))) :
    moved (calls ++ [none]) = moved calls := by
  simp [moved]

theorem moved_append_some (calls : List (Option (List UInt8))) (data : List UInt8) :
    moved (calls ++ [some data]) = moved calls ++ data := by
  simp [moved]

/-- The round calls `read` or `write`, which is interrupted. -/
def TtyRound.Interrupted {α : Type} (round : TtyRound α) : Prop :=
  round.poll ≠ .timeout ∧ round.device = true ∧ round.transfer = none

instance {α : Type} (round : TtyRound α) : Decidable round.Interrupted :=
  inferInstanceAs (Decidable (_ ∧ _ ∧ _))

/-! ## A round -/

section

variable {α : Type} {call : α → Nat → Int → (Int → UInt8) → List UInt8 × (Int → UInt8)}
  {size : Nat} {timeout : Int} {once : Bool} {round : TtyRound α} {rounds : List (TtyRound α)}
  {s : TtyState}

/-- All of a state but what its loop looks at to end. -/
def TtyState.core (s : TtyState) : Int × (Int → UInt8) × List (Option (List UInt8)) :=
  (s.curr, s.buf, s.calls)

theorem TtyState.core_eq_iff {s : TtyState} {curr : Int} {buf : Int → UInt8}
    {calls : List (Option (List UInt8))} :
    s.core = (curr, buf, calls) ↔ s.curr = curr ∧ s.buf = buf ∧ s.calls = calls := by
  rw [core, Prod.mk.injEq, Prod.mk.injEq]

theorem core_ite_left (s : TtyState) (left : Bool) :
    (if s.left then s else { s with left := left }).core = s.core := by
  split <;> rfl

/-- A round without a call, with an interrupted one, or with one that moves bytes. -/
theorem ttyRound_cases (call : α → Nat → Int → (Int → UInt8) → List UInt8 × (Int → UInt8))
    (size : Nat) (once : Bool) (round : TtyRound α) (s : TtyState) :
    (¬round.Interrupted ∧ (ttyRound call size once round s).core = s.core) ∨
    (round.Interrupted ∧
      (ttyRound call size once round s).core = (s.curr - 1, s.buf, s.calls ++ [none])) ∨
    (¬round.Interrupted ∧ ∃ x, (ttyRound call size once round s).core =
      (s.curr + (call x (size - s.curr).toNat s.curr s.buf).1.length,
        (call x (size - s.curr).toNat s.curr s.buf).2,
        s.calls ++ [some (call x (size - s.curr).toNat s.curr s.buf).1])) := by
  by_cases hpoll : round.poll = .timeout
  · refine .inl ⟨fun h => h.1 hpoll, ?_⟩
    rw [ttyRound, if_pos hpoll]
    rfl
  · rw [ttyRound, if_neg hpoll]
    simp only [core_ite_left]
    by_cases hdevice : round.device = true
    · rw [if_pos hdevice]
      cases htransfer : round.transfer with
      | none => exact .inr (.inl ⟨⟨hpoll, hdevice, htransfer⟩, rfl⟩)
      | some x =>
          refine .inr (.inr ⟨?_, x, rfl⟩)
          intro hinterrupted
          exact absurd (hinterrupted.2.2.symm.trans htransfer) (by simp)
    · rw [if_neg hdevice]
      exact .inl ⟨fun h => hdevice h.2.1, rfl⟩

/-- What both `read` and `write` do with the room they are given: they move at most as many bytes,
these are in the buffer from the pointer on, and what is in front of it stays. -/
structure MovesBytes (call : α → Nat → Int → (Int → UInt8) → List UInt8 × (Int → UInt8)) :
    Prop where
  length_le : ∀ x room curr buf, (call x room curr buf).1.length ≤ room
  stored : ∀ x room curr buf,
    (List.range (call x room curr buf).1.length).map
      (fun k : Nat => (call x room curr buf).2 (curr + k)) = (call x room curr buf).1
  kept : ∀ x room curr buf, ∀ i < curr, (call x room curr buf).2 i = buf i

theorem movesBytes_readCall :
    MovesBytes fun arrived : { arrived : List UInt8 // arrived ≠ [] } =>
      readCall arrived.val where
  length_le x room curr buf := List.length_take_le _ _
  stored x room curr buf := by
    apply List.ext_getElem
    · simp
    · intro k hk hk'
      have hoffset : (curr + (k : Int) - curr).toNat = k := by omega
      simp only [readCall] at hk' ⊢
      rw [List.getElem_map, List.getElem_range, if_pos (by omega), hoffset]
      exact List.getD_eq_getElem _ _ hk'
  kept x room curr buf i hi := by
    simp only [readCall]
    rw [if_neg (by omega)]

theorem movesBytes_writeCall :
    MovesBytes fun accepted : { accepted : Nat // 0 < accepted } => writeCall accepted.val where
  length_le x room curr buf := by simp [writeCall]
  stored x room curr buf := by simp [writeCall]
  kept x room curr buf i hi := rfl

/-- One more round. -/
theorem ttyLoop_concat :
    ttyLoop call size timeout once (rounds ++ [round]) s =
      if (ttyLoop call size timeout once rounds s).returned size timeout then
        ttyLoop call size timeout once rounds s
      else ttyRound call size once round (ttyLoop call size timeout once rounds s) := by
  induction rounds generalizing s with
  | nil => rfl
  | cons first rounds ih =>
      rw [List.cons_append, ttyLoop, ttyLoop]
      by_cases hreturned : s.returned size timeout = true
      · simp only [if_pos hreturned]
      · simp only [if_neg hreturned]
        exact ih

/-! ## What a run keeps -/

/-- The pointer is in its range, with the bytes moved so far in front of it. -/
structure Tracks (size : Nat) (s : TtyState) : Prop where
  nonneg : 0 ≤ s.curr
  le : s.curr ≤ size
  front : s.front = moved s.calls

theorem tracks_start (size : Nat) (buf : Int → UInt8) : Tracks size (.start buf) where
  nonneg := Int.le_refl 0
  le := Int.natCast_nonneg size
  front := rfl

/-- Bytes that are moved from the pointer on join those in front of it. -/
theorem front_moved (hcall : MovesBytes call) {x : α} {room : Nat} (hnonneg : 0 ≤ s.curr) :
    (List.range (s.curr + (call x room s.curr s.buf).1.length).toNat).map
        (fun k : Nat => (call x room s.curr s.buf).2 k) =
      s.front ++ (call x room s.curr s.buf).1 := by
  obtain ⟨n, hn⟩ := Int.eq_ofNat_of_zero_le hnonneg
  have hstored := hcall.stored x room s.curr s.buf
  have hkept := hcall.kept x room s.curr s.buf
  have hlen : (s.curr + (call x room s.curr s.buf).1.length).toNat =
      n + (call x room s.curr s.buf).1.length := by omega
  rw [hlen, List.range_add, List.map_append, TtyState.front, List.map_map]
  congr 1
  · have htoNat : s.curr.toNat = n := by omega
    rw [htoNat]
    refine List.map_congr_left fun k hk => hkept k ?_
    have hlt := List.mem_range.mp hk
    omega
  · refine Eq.trans (List.map_congr_left fun k _ => ?_) hstored
    show (call x room s.curr s.buf).2 ((n + k : Nat) : Int) = _
    rw [hn]
    rfl

theorem Tracks.step (hcall : MovesBytes call) (hs : Tracks size s) (hround : ¬round.Interrupted) :
    Tracks size (ttyRound call size once round s) := by
  obtain ⟨hnonneg, hle, hfront⟩ := hs
  rcases ttyRound_cases call size once round s with
    ⟨-, hcore⟩ | ⟨hinterrupted, -⟩ | ⟨-, x, hcore⟩
  · obtain ⟨hcurr, hbuf, hcalls⟩ := TtyState.core_eq_iff.mp hcore
    refine ⟨hcurr ▸ hnonneg, hcurr ▸ hle, ?_⟩
    rw [TtyState.front, hcurr, hbuf, hcalls]
    exact hfront
  · exact absurd hinterrupted hround
  · obtain ⟨hcurr, hbuf, hcalls⟩ := TtyState.core_eq_iff.mp hcore
    have hroom := hcall.length_le x (size - s.curr).toNat s.curr s.buf
    refine ⟨by omega, by omega, ?_⟩
    rw [TtyState.front, hcurr, hbuf, front_moved hcall hnonneg, hfront, hcalls, moved_append_some]

/-- No interrupted call: every state of the run keeps track. -/
theorem Tracks.run (hcall : MovesBytes call) (hs : Tracks size s)
    (hrounds : ∀ round ∈ rounds, ¬round.Interrupted) :
    Tracks size (ttyLoop call size timeout once rounds s) := by
  induction rounds generalizing s with
  | nil => exact hs
  | cons round rounds ih =>
      rw [ttyLoop]
      split
      · exact hs
      · exact ih (hs.step hcall (hrounds round List.mem_cons_self))
          (fun r hr => hrounds r (List.mem_cons_of_mem _ hr))

/-! ## What an interruption does -/

/-- The pointer is behind by the number of interrupted calls. -/
def Lags (s : TtyState) : Prop := s.curr + s.calls.count none = (moved s.calls).length

theorem Lags.step (hs : Lags s) : Lags (ttyRound call size once round s) := by
  rw [Lags] at hs ⊢
  rcases ttyRound_cases call size once round s with ⟨-, hcore⟩ | ⟨-, hcore⟩ | ⟨-, x, hcore⟩
  · obtain ⟨hcurr, -, hcalls⟩ := TtyState.core_eq_iff.mp hcore
    rw [hcurr, hcalls]
    exact hs
  · obtain ⟨hcurr, -, hcalls⟩ := TtyState.core_eq_iff.mp hcore
    rw [hcurr, hcalls, moved_append_none, List.count_append, List.count_singleton_self]
    omega
  · obtain ⟨hcurr, -, hcalls⟩ := TtyState.core_eq_iff.mp hcore
    have hnone : [some (call x (size - s.curr).toNat s.curr s.buf).1].count none = 0 := rfl
    rw [hcurr, hcalls, moved_append_some, List.count_append, hnone, List.length_append]
    omega

theorem Lags.run (hs : Lags s) : Lags (ttyLoop call size timeout once rounds s) := by
  induction rounds generalizing s with
  | nil => exact hs
  | cons round rounds ih =>
      rw [ttyLoop]
      split
      · exact hs
      · exact ih hs.step

/-- An interrupted call is never forgotten. -/
theorem none_mem_step (h : none ∈ s.calls ∨ round.Interrupted) :
    none ∈ (ttyRound call size once round s).calls := by
  rcases ttyRound_cases call size once round s with
    ⟨hround, hcore⟩ | ⟨-, hcore⟩ | ⟨hround, x, hcore⟩
  · obtain ⟨-, -, hcalls⟩ := TtyState.core_eq_iff.mp hcore
    rw [hcalls]
    exact h.resolve_right hround
  · obtain ⟨-, -, hcalls⟩ := TtyState.core_eq_iff.mp hcore
    rw [hcalls]
    exact List.mem_append_right _ (List.mem_singleton_self _)
  · obtain ⟨-, -, hcalls⟩ := TtyState.core_eq_iff.mp hcore
    rw [hcalls]
    exact List.mem_append_left _ (h.resolve_right hround)

/-- A loop that goes through all of its rounds has seen the interrupted one among them. -/
theorem none_mem_run
    (hall : ∀ k < rounds.length,
      (ttyLoop call size timeout once (rounds.take k) s).returned size timeout = false)
    (h : none ∈ s.calls ∨ ∃ round ∈ rounds, round.Interrupted) :
    none ∈ (ttyLoop call size timeout once rounds s).calls := by
  induction rounds generalizing s with
  | nil =>
      rcases h with hmem | ⟨round, hround, -⟩
      · exact hmem
      · exact absurd hround (List.not_mem_nil)
  | cons round rounds ih =>
      have hnow : s.returned size timeout = false := hall 0 (Nat.succ_pos _)
      rw [ttyLoop, hnow]
      refine ih ?_ ?_
      · intro k hk
        have hlater := hall (k + 1) (Nat.succ_lt_succ hk)
        rw [List.take_succ_cons, ttyLoop, hnow] at hlater
        exact hlater
      · rcases h with hmem | ⟨r, hr, hinterrupted⟩
        · exact .inl (none_mem_step (.inl hmem))
        · rcases List.mem_cons.mp hr with rfl | hr
          · exact .inl (none_mem_step (.inr hinterrupted))
          · exact .inr ⟨r, hr, hinterrupted⟩

end

/-! ## Transfers -/

section

variable {α : Type} (size : Nat) (timeout : Int) (run : List (TtyRound α) → TtyState)
  (rounds : List (TtyRound α))

/-- The pointer is in its range after every round, and once the call has returned, the bytes in
front of it are those that were moved, in their order. -/
structure Intact : Prop where
  inside : ∀ k, 0 ≤ (run (rounds.take k)).curr ∧ (run (rounds.take k)).curr ≤ size
  front : (run rounds).returned size timeout = true →
    (run rounds).front = moved (run rounds).calls

/-- The rounds are those of a call that returns: it goes through all of them and through no more. -/
def Complete : Prop :=
  (∀ k < rounds.length, (run (rounds.take k)).returned size timeout = false) ∧
    (run rounds).returned size timeout = true

/-- Without an interrupted `read` or `write` a transfer is intact as far as it goes, and a complete
one is intact only then. -/
def IntactUnlessInterrupted : Prop :=
  ∀ rounds, ((∀ round ∈ rounds, ¬round.Interrupted) → Intact size timeout run rounds) ∧
    (Complete size timeout run rounds →
      (Intact size timeout run rounds ↔ ∀ round ∈ rounds, ¬round.Interrupted))

end

section

variable {α : Type} {call : α → Nat → Int → (Int → UInt8) → List UInt8 × (Int → UInt8)}
  (hcall : MovesBytes call) (size : Nat) (timeout : Int) (once : Bool) (buf : Int → UInt8)

include hcall in
theorem intact_of_uninterrupted {rounds : List (TtyRound α)}
    (hrounds : ∀ round ∈ rounds, ¬round.Interrupted) :
    Intact size timeout (fun rounds => ttyLoop call size timeout once rounds (.start buf))
      rounds where
  inside k := by
    have htracks : Tracks size (ttyLoop call size timeout once (rounds.take k) (.start buf)) :=
      (tracks_start size buf).run hcall fun round hround =>
        hrounds round (List.mem_of_mem_take hround)
    exact ⟨htracks.nonneg, htracks.le⟩
  front _ := ((tracks_start size buf).run hcall hrounds).front

theorem uninterrupted_of_intact {rounds : List (TtyRound α)}
    (hcomplete : Complete size timeout
      (fun rounds => ttyLoop call size timeout once rounds (.start buf)) rounds)
    (hintact : Intact size timeout
      (fun rounds => ttyLoop call size timeout once rounds (.start buf)) rounds) :
    ∀ round ∈ rounds, ¬round.Interrupted := by
  intro round hround hinterrupted
  have hnone := none_mem_run hcomplete.1 (.inr ⟨round, hround, hinterrupted⟩)
  have hcount := List.count_pos_iff.mpr hnone
  have hlags : Lags (ttyLoop call size timeout once rounds (.start buf)) := Lags.run rfl
  have hinside := hintact.inside rounds.length
  rw [List.take_length] at hinside
  -- as many bytes in front of the pointer as were moved leave no room for a lag
  have hlen := congrArg List.length (hintact.front hcomplete.2)
  rw [TtyState.front, List.length_map, List.length_range] at hlen
  rw [Lags] at hlags
  omega

include hcall in
theorem intact_iff_uninterrupted :
    IntactUnlessInterrupted size timeout
      (fun rounds => ttyLoop call size timeout once rounds (.start buf)) := by
  intro rounds
  refine ⟨intact_of_uninterrupted hcall size timeout once buf, fun hcomplete => ⟨?_, ?_⟩⟩
  · exact uninterrupted_of_intact size timeout once buf hcomplete
  · exact intact_of_uninterrupted hcall size timeout once buf

end

/-- A serial transfer is intact exactly if none of its `read` or `write` calls is interrupted; an
interrupted `poll` does no harm. -/
theorem serial_transfer_intact_iff (size : Nat) (timeout : Int) (buf : Int → UInt8) :
    IntactUnlessInterrupted size timeout (ttyReadLoop size timeout buf) ∧
      IntactUnlessInterrupted size timeout (ttyWriteLoop size timeout buf) :=
  ⟨intact_iff_uninterrupted movesBytes_readCall size timeout _ buf,
    intact_iff_uninterrupted movesBytes_writeCall size timeout _ buf⟩

/-- A `read` that is interrupted first, and a `write` that is interrupted behind the first byte and
sends it again. -/
theorem interrupted_transfer_not_intact :
    ¬Intact 2 1000 (ttyReadLoop 2 1000 fun _ => 0)
        [{ poll := .ready, device := true, aux := false, elapsedMs := 1, transfer := none }] ∧
      ¬Intact 2 1000 (ttyWriteLoop 2 1000 fun i => if i = 0 then 1 else 2)
        [{ poll := .ready, device := true, aux := false, elapsedMs := 1
           transfer := some ⟨1, by decide⟩ },
          { poll := .ready, device := true, aux := false, elapsedMs := 2, transfer := none },
          { poll := .ready, device := true, aux := false, elapsedMs := 3
            transfer := some ⟨2, by decide⟩ }] := by
  constructor
  · intro hintact
    exact absurd (hintact.inside 1).1 (by decide)
  · intro hintact
    exact absurd (hintact.front (by decide)) (by decide)

/-! ## Reads that go smoothly -/

/-- What a round has for `tty_read`, if its call is not interrupted. -/
def TtyRound.arrived (round : TtyRound { arrived : List UInt8 // arrived ≠ [] }) : List UInt8 :=
  if round.poll = .timeout ∨ round.device = false then []
  else (round.transfer.map Subtype.val).getD []

/-- What the rounds bring is what the calls give. -/
theorem ttyRound_arrived (size : Nat) (once : Bool)
    (round : TtyRound { arrived : List UInt8 // arrived ≠ [] }) (s : TtyState) :
    let s' := ttyRound (fun arrived => readCall arrived.val) size once round s
    let data := round.arrived.take (size - s.curr).toNat
    (round.Interrupted ∧ round.arrived = [] ∧ s'.calls = s.calls ++ [none]) ∨
    (¬round.Interrupted ∧ round.arrived = [] ∧ s'.calls = s.calls) ∨
    (¬round.Interrupted ∧ round.arrived ≠ [] ∧ s'.calls = s.calls ++ [some data] ∧
      s'.curr = s.curr + data.length) := by
  by_cases hpoll : round.poll = .timeout
  · refine .inr (.inl ⟨fun h => h.1 hpoll, if_pos (.inl hpoll), ?_⟩)
    rw [ttyRound, if_pos hpoll]
  · rw [ttyRound, if_neg hpoll]
    by_cases hdevice : round.device = true
    · rw [if_pos hdevice]
      cases htransfer : round.transfer with
      | none =>
          refine .inl ⟨⟨hpoll, hdevice, htransfer⟩, ?_, ?_⟩
          · simp [TtyRound.arrived, htransfer]
          · exact (TtyState.core_eq_iff.mp (core_ite_left _ _)).2.2
      | some x =>
          have harrived : round.arrived = x.val := by
            simp [TtyRound.arrived, hpoll, hdevice, htransfer]
          have hround : ¬round.Interrupted := by
            intro hinterrupted
            exact absurd (hinterrupted.2.2.symm.trans htransfer) (by simp)
          have hcore := TtyState.core_eq_iff.mp
            (core_ite_left (ttyTransfer (fun arrived => readCall arrived.val) size once (some x)
              { s with elapsedMs := round.elapsedMs }) round.aux)
          simp only [harrived]
          exact .inr (.inr ⟨hround, x.property, hcore.2.2, hcore.1⟩)
    · rw [if_neg hdevice]
      refine .inr (.inl ⟨fun h => hdevice h.2.1, if_pos (.inr (by simpa using hdevice)), ?_⟩)
      exact (TtyState.core_eq_iff.mp (core_ite_left _ _)).2.2

/-- Nothing but `poll` is interrupted, the time is not over, and there is no auxiliary event. -/
structure Smooth (timeout : Int)
    (rounds : List (TtyRound { arrived : List UInt8 // arrived ≠ [] })) : Prop where
  limit : 0 ≤ timeout
  calls : ∀ round ∈ rounds, ¬round.Interrupted
  inTime : ∀ round ∈ rounds, round.elapsedMs ≤ timeout
  aux : ∀ round ∈ rounds, round.aux = false

section

variable {size : Nat} {timeout : Int} {round : TtyRound { arrived : List UInt8 // arrived ≠ [] }}
  {rounds : List (TtyRound { arrived : List UInt8 // arrived ≠ [] })} {s : TtyState}

theorem Tracks.length_moved (hs : Tracks size s) : (moved s.calls).length = s.curr.toNat := by
  rw [← hs.front, TtyState.front, List.length_map, List.length_range]

/-- A round brings what has arrived, as far as there is room for it. -/
theorem ttyRound_smooth (size : Nat) (hleft : s.left = false) (hround : ¬round.Interrupted)
    (haux : round.aux = false) :
    let s' := ttyRound (fun arrived => readCall arrived.val) size false round s
    s'.left = false ∧ s'.elapsedMs = round.elapsedMs ∧
      moved s'.calls = moved s.calls ++ round.arrived.take (size - s.curr).toNat := by
  intro s'
  have hends : s'.left = false ∧ s'.elapsedMs = round.elapsedMs := by
    show (ttyRound _ size false round s).left = false ∧
      (ttyRound _ size false round s).elapsedMs = round.elapsedMs
    rw [ttyRound]
    split
    · exact ⟨hleft, rfl⟩
    · cases hdevice : round.device <;> cases htransfer : round.transfer <;>
        simp [ttyTransfer, hleft, haux]
  refine ⟨hends.1, hends.2, ?_⟩
  rcases ttyRound_arrived size false round s with
    ⟨hinterrupted, -⟩ | ⟨-, harrived, hcalls⟩ | ⟨-, -, hcalls, -⟩
  · exact absurd hinterrupted hround
  · rw [hcalls, harrived, List.take_nil, List.append_nil]
  · rw [hcalls, moved_append_some]

/-- A smooth read brings the front of what arrives. -/
theorem moved_of_smooth (hs : Tracks size s) (hleft : s.left = false)
    (htime : s.elapsedMs ≤ timeout) (hsmooth : Smooth timeout rounds) :
    moved (ttyLoop (fun arrived => readCall arrived.val) size timeout false rounds s).calls =
      moved s.calls ++ (rounds.flatMap TtyRound.arrived).take (size - s.curr).toNat := by
  induction rounds generalizing s with
  | nil => rw [ttyLoop, List.flatMap_nil, List.take_nil, List.append_nil]
  | cons round rounds ih =>
      obtain ⟨hlimit, hcalls, hinTime, haux⟩ := hsmooth
      have hround := hcalls round List.mem_cons_self
      have hreturned : s.returned size timeout = decide (s.curr = size) := by
        rw [TtyState.returned, hleft]
        simp [htime]
      rw [ttyLoop, hreturned]
      by_cases hend : s.curr = size
      · have hroom : ((size : Int) - s.curr).toNat = 0 := by omega
        rw [if_pos (decide_eq_true hend), hroom, List.take_zero, List.append_nil]
      · rw [if_neg (by simpa using hend)]
        obtain ⟨hleft', htime', hmoved⟩ :=
          ttyRound_smooth size hleft hround (haux round List.mem_cons_self)
        have hs' : Tracks size
            (ttyRound (fun arrived => readCall arrived.val) size false round s) :=
          hs.step movesBytes_readCall hround
        rw [ih hs' hleft' (htime' ▸ hinTime round List.mem_cons_self)
          ⟨hlimit, fun r hr => hcalls r (List.mem_cons_of_mem _ hr),
            fun r hr => hinTime r (List.mem_cons_of_mem _ hr),
            fun r hr => haux r (List.mem_cons_of_mem _ hr)⟩, hmoved, List.append_assoc,
          List.flatMap_cons, List.take_append]
        congr 2
        -- the room behind this round
        have hlen := hs'.length_moved
        rw [hmoved, List.length_append, hs.length_moved, List.length_take] at hlen
        have hnonneg := hs.nonneg
        have hnonneg' := hs'.nonneg
        have hle := hs.le
        congr 1
        omega

theorem moved_ttyReadLoop (buf : Int → UInt8) (hsmooth : Smooth timeout rounds) :
    moved (ttyReadLoop size timeout buf rounds).calls =
      (rounds.flatMap TtyRound.arrived).take size := by
  have honce : decide (0 > timeout) = false := decide_eq_false (by have := hsmooth.limit; omega)
  have hrun := moved_of_smooth (tracks_start size buf) rfl hsmooth.limit hsmooth
  show moved (ttyLoop _ size timeout (decide (0 > timeout)) rounds (.start buf)).calls = _
  rw [honce, hrun]
  simp [moved, TtyState.start]

/-- So it gets to its end exactly if enough arrives. -/
theorem ttyReadLoop_smooth (buf : Int → UInt8) (hsmooth : Smooth timeout rounds) :
    let s := ttyReadLoop size timeout buf rounds
    (s.curr = size ↔ size ≤ (rounds.flatMap TtyRound.arrived).length) ∧
      (s.curr = size → s.front = (rounds.flatMap TtyRound.arrived).take size) := by
  intro s
  have htracks : Tracks size s := (tracks_start size buf).run movesBytes_readCall hsmooth.calls
  have hmoved : moved s.calls = _ := moved_ttyReadLoop buf hsmooth
  have hlen := htracks.length_moved
  rw [hmoved, List.length_take] at hlen
  have hnonneg := htracks.nonneg
  have hle := htracks.le
  refine ⟨by omega, fun _ => ?_⟩
  rw [htracks.front, hmoved]

end

end ModbusRtu
