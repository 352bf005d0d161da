/-
Purpose: The arithmetic of a pool whose `assets` are owned in proportion to `shares`. Joining mints shares pro rata
  and leaving pays assets pro rata, both rounded down.
-/
import Mathlib.Algebra.Order.Ring.Nat
import Mathlib.Tactic.Linarith
import Mathlib.Tactic.Ring

namespace Payout.Lib

open Nat

variable {part whole of part' bound group free locked : Nat}

/-- `part` of a quantity of which there are `of`, expressed in a quantity of which there are `whole`, rounded
    down. -/
def proRata (part whole of : Nat) : Nat :=
  part * whole / of

theorem proRata_mul_le (part whole of : Nat) : proRata part whole of * of ≤ part * whole :=
  div_mul_le_self _ _

theorem proRata_le_whole (le : part ≤ of) : proRata part whole of ≤ whole := by
  apply Nat.div_le_of_le_mul
  exact Nat.mul_le_mul_right whole le

theorem proRata_mono (le : part ≤ part') : proRata part whole of ≤ proRata part' whole of :=
  Nat.div_le_div_right (Nat.mul_le_mul_right whole le)

/-- A pro-rata amount is at most `bound` exactly when the next amount is out of reach. -/
theorem proRata_le_iff (pos : 0 < of) : proRata part whole of ≤ bound ↔ part * whole < (bound + 1) * of := by
  unfold proRata
  rw [← Nat.lt_succ_iff, Nat.div_lt_iff_lt_mul pos]

@[simp] theorem proRata_zero_of (part whole : Nat) : proRata part whole 0 = 0 :=
  Nat.div_zero _

@[simp] theorem proRata_zero_part (whole of : Nat) : proRata 0 whole of = 0 := by
  simp [proRata]

/-- Parts of at most everything are paid at most the whole. -/
theorem sum_proRata_le {parts : List Nat} (inside : parts.sum ≤ of) :
    (parts.map fun part => proRata part whole of).sum ≤ whole := by
  rcases Nat.eq_zero_or_pos of with none | pos
  · simp [none, List.map_const']
  apply Nat.le_of_mul_le_mul_right _ pos
  have paid : ∀ parts : List Nat,
      (parts.map fun part => proRata part whole of).sum * of ≤ parts.sum * whole := by
    intro parts
    induction parts with
    | nil => simp
    | cons part rest ih =>
      rw [List.map_cons, List.sum_cons, List.sum_cons, Nat.add_mul, Nat.add_mul]
      exact Nat.add_le_add (proRata_mul_le part whole of) ih
  calc (parts.map fun part => proRata part whole of).sum * of ≤ parts.sum * whole := paid parts
    _ ≤ of * whole := mul_le_mul_right whole inside
    _ = whole * of := mul_comm of whole

/-- A share of the pool `(assets', shares')` is worth at least a share of `(assets, shares)`, with the
    denominators cleared. -/
def PriceLe (assets shares assets' shares' : Nat) : Prop :=
  assets * shares' ≤ assets' * shares

namespace PriceLe

variable {assets shares assets' shares' assets'' shares'' : Nat}

theorem refl (assets shares : Nat) : PriceLe assets shares assets shares :=
  le_refl _

/-- The price order composes through a pool that has shares. -/
theorem trans (pos : 0 < shares') (one : PriceLe assets shares assets' shares')
    (two : PriceLe assets' shares' assets'' shares'') : PriceLe assets shares assets'' shares'' := by
  unfold PriceLe at *
  apply le_of_mul_le_mul_right _ pos
  calc assets * shares'' * shares' = assets * shares' * shares'' := by ring
    _ ≤ assets' * shares * shares'' := mul_le_mul_right _ one
    _ = assets' * shares'' * shares := by ring
    _ ≤ assets'' * shares' * shares := mul_le_mul_right _ two
    _ = assets'' * shares * shares' := by ring

/-- A pool that is priced at least as high as a pool with assets has assets while it has shares. -/
theorem assets_pos (le : PriceLe assets shares assets' shares') (pos : 0 < assets)
    (left : 0 < shares') : 0 < assets' := by
  by_contra none
  have empty : assets' = 0 := by omega
  have product : 0 < assets * shares' := mul_pos pos left
  simp only [PriceLe, empty, zero_mul] at le
  omega

end PriceLe

section Moves

variable {assets shares amount minted paid : Nat}

/-- Joining with at most the pro-rata shares does not lower the price. -/
theorem priceLe_join (fair : minted * assets ≤ amount * shares) :
    PriceLe assets shares (assets + amount) (shares + minted) := by
  unfold PriceLe
  rw [mul_add, add_mul, mul_comm assets minted]
  omega

/-- Leaving with at most the pro-rata assets does not lower the price. -/
theorem priceLe_leave (held : part ≤ shares) (fair : paid * shares ≤ part * assets) :
    PriceLe assets shares (assets - paid) (shares - part) := by
  unfold PriceLe
  rw [Nat.mul_sub, Nat.sub_mul, Nat.mul_comm assets part]
  have le : part * assets ≤ assets * shares := by
    rw [Nat.mul_comm assets]
    exact mul_le_mul_right assets held
  omega

/-- Assets that cover a group of shares still cover it after assets came in, whatever shares were minted
    for them. -/
theorem proRata_join_le (held : group ≤ shares) (covered : proRata group assets shares ≤ free) :
    proRata group (assets + amount) (shares + minted) ≤ free + amount := by
  rcases Nat.eq_zero_or_pos shares with none | pos
  · have empty : group = 0 := by omega
    simp [empty]
  · rw [proRata_le_iff pos] at covered
    rw [proRata_le_iff (by omega)]
    have share : group * amount ≤ shares * amount := mul_le_mul_right amount held
    nlinarith [zero_le ((free + amount + 1) * minted)]

/-- Assets that cover a group of shares still cover the rest of the group after one part of it has been
    paid out of them. -/
theorem proRata_leave_le (inside : part ≤ group) (held : group ≤ shares)
    (covered : proRata group assets shares ≤ free) :
    proRata (group - part) (assets - proRata part assets shares) (shares - part) ≤
      free - proRata part assets shares := by
  rcases Nat.eq_zero_or_pos (shares - part) with none | pos
  · simp [none]
  have within : proRata part assets shares ≤ free := (proRata_mono inside).trans covered
  have funded : proRata part assets shares ≤ assets := proRata_le_whole (inside.trans held)
  have fair := proRata_mul_le part assets shares
  rw [proRata_le_iff (by omega)] at covered
  rw [proRata_le_iff pos]
  generalize proRata part assets shares = paidOut at *
  -- Over the integers: the slack of the group, scaled by the shares that remain, bounds the new slack.
  zify [inside, inside.trans held, within, funded] at *
  have slack : 0 < ((free + 1) * shares - group * assets : ℤ) := by linarith
  have scaled := mul_pos pos slack
  have rest : (0 : ℤ) ≤ shares - group := by linarith
  have bound := mul_nonneg rest (sub_nonneg.mpr fair)
  have shareCount : (0 : ℤ) < shares := by linarith
  by_contra negated
  have key := mul_nonneg shareCount.le (sub_nonneg.mpr (not_lt.mp negated))
  nlinarith

/-- A pool with locked assets that covers a group of shares still covers it after somebody joined. -/
theorem covers_join (held : group ≤ shares) (covered : proRata group assets shares + locked ≤ assets) :
    proRata group (assets + amount) (shares + minted) + locked ≤ assets + amount := by
  have unlocked : proRata group assets shares ≤ assets - locked := by omega
  have joined : proRata group (assets + amount) (shares + minted) ≤ assets - locked + amount :=
    proRata_join_le held unlocked
  omega

/-- A pool with locked assets that covers a group of shares still covers the rest of the group after a part of
    it left. -/
theorem covers_leave (inside : part ≤ group) (held : group ≤ shares)
    (covered : proRata group assets shares + locked ≤ assets) :
    proRata (group - part) (assets - proRata part assets shares) (shares - part) + locked ≤
      assets - proRata part assets shares := by
  have unlocked : proRata group assets shares ≤ assets - locked := by omega
  have left := proRata_leave_le inside held unlocked
  have within : proRata part assets shares ≤ proRata group assets shares := proRata_mono inside
  omega

end Moves

end Payout.Lib
