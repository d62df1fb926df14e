import Mathlib.Logic.Function.Iterate

/-!
# Counted loops that stop on equality

The loop `for (; i != e; i = next i) body`, which stops only when the counter
hits the bound exactly, over an arbitrary counter type and an arbitrary monad
for the body (so a body may leave the loop early).

`forNe` is cut off by fuel; `forNe_eq_foldlM` says when the fuel is enough: if
the counter first meets its bound after `n` advances, any fuel from `n` on
gives the fold of the body over those `n` counter values. `forU16_eq_foldlM`
is the instance for a wrapping 16-bit counter, which always meets its bound.
-/

namespace ModbusRtu.Base

variable {ι σ : Type} {m : Type → Type} [Monad m]

/-- `for (; i != e; i = next i) body`, cut off after `fuel` rounds. -/
def forNe [DecidableEq ι] (next : ι → ι) (e : ι) (body : ι → σ → m σ) : Nat → ι → σ → m σ
  | 0, _, s => pure s
  | fuel + 1, i, s =>
      if i = e then pure s
      else do
        let s ← body i s
        forNe next e body fuel (next i) s

/-- If the counter first meets the bound after `n` advances, every fuel from
`n` on runs the body for exactly those `n` counter values, in order. -/
theorem forNe_eq_foldlM [DecidableEq ι] {next : ι → ι} {e : ι} (body : ι → σ → m σ) {n : Nat}
    {i : ι} (hend : next^[n] i = e) (hbefore : ∀ k < n, next^[k] i ≠ e) {fuel : Nat}
    (hfuel : n ≤ fuel) (s : σ) :
    forNe next e body fuel i s = (List.range n).foldlM (fun s k => body (next^[k] i) s) s := by
  induction n generalizing i fuel s with
  | zero =>
      cases fuel with
      | zero => rfl
      | succ fuel =>
          have hnow : i = e := hend
          rw [forNe, if_pos hnow]
          rfl
  | succ n ih =>
      -- the bound is not met yet, so one unit of fuel pays for one round
      obtain ⟨fuel, rfl⟩ : ∃ f, fuel = f + 1 := ⟨fuel - 1, by omega⟩
      have hne : i ≠ e := hbefore 0 (by omega)
      rw [forNe, if_neg hne, List.range_succ_eq_map, List.foldlM_cons]
      congr 1
      funext t
      rw [ih hend (fun k hk => hbefore (k + 1) (by omega)) (by omega) t, List.foldlM_map]
      rfl

/-! ## Wrapping 16-bit counters -/

/-- `for (; i != e; ++i) body` on 16-bit counters. -/
def forU16 (i e : UInt16) (body : UInt16 → σ → m σ) (s : σ) : m σ :=
  forNe (· + 1) e body UInt16.size i s

theorem iterate_succ_u16 (i : UInt16) (k : Nat) : (· + 1)^[k] i = i + UInt16.ofNat k := by
  induction k with
  | zero => simp
  | succ k ih =>
      rw [Function.iterate_succ_apply', ih, UInt16.ofNat_add, UInt16.add_assoc]
      rfl

/-- A wrapping counter meets its bound after as many rounds as the wrapped
difference says, so the loop is the fold over those rounds. -/
theorem forU16_eq_foldlM (i e : UInt16) (body : UInt16 → σ → m σ) (s : σ) :
    forU16 i e body s =
      (List.range (e - i).toNat).foldlM (fun s k => body (i + UInt16.ofNat k) s) s := by
  have hlt : (e - i).toNat < UInt16.size := (e - i).toNat_lt_size
  have hiter : ∀ k, (· + 1)^[k] i = i + UInt16.ofNat k := iterate_succ_u16 i
  have hend : (· + 1)^[(e - i).toNat] i = e := by
    rw [hiter, UInt16.ofNat_toNat, UInt16.add_comm, UInt16.sub_add_cancel]
  -- an earlier meeting would give a smaller wrapped difference
  have hbefore : ∀ k < (e - i).toNat, (· + 1)^[k] i ≠ e := by
    intro k hk he
    rw [hiter] at he
    have hk' : (UInt16.ofNat k).toNat = (e - i).toNat := by
      rw [← he, UInt16.add_comm, UInt16.add_sub_cancel]
    rw [UInt16.toNat_ofNat_of_lt' (Nat.lt_trans hk hlt)] at hk'
    omega
  rw [forU16, forNe_eq_foldlM body hend hbefore (Nat.le_of_lt hlt)]
  simp only [hiter]

/-- The loop with a body that never leaves early. -/
theorem forU16_id (i e : UInt16) (body : UInt16 → σ → Id σ) (s : σ) :
    forU16 i e body s =
      (List.range (e - i).toNat).foldl (fun s k => body (i + UInt16.ofNat k) s) s := by
  rw [forU16_eq_foldlM]
  exact List.idRun_foldlM

end ModbusRtu.Base
