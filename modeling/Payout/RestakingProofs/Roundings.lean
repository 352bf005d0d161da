/-
Purpose: What rounding does to the amounts of a vault: how a burned amount is split, whether the reserve for all tickets
  covers their payouts one by one, and whether the fee on rewards passes the check of its rate.
-/
import Payout.RestakingProofs.Redemption

namespace Payout.Restaking

open Lib List Nat

namespace Vault

variable {self : Vault} {program vault : Bool} {amountIn : Nat} {tickets : List Nat}

/-! ### The split of a burned amount -/

/-- A split that is computed has computed the sum of the two fees. -/
theorem fees_lt_of_calculateBurnSummary (computed : self.calculateBurnSummary program vault amountIn = .ok summary) :
    self.fees amountIn < 2 ^ 64 := by
  simp only [calculateBurnSummary, Config.calculateProgramFee, calculateWithdrawalFee, ok_iffs] at computed
  obtain ⟨_, programComputed, _, withdrawalComputed, _, ⟨fits, -⟩, -⟩ := computed
  rwa [Bps.feeOf_eq_share programComputed, Bps.feeOf_eq_share withdrawalComputed] at fits

/-- An amount of VRT in circulation is split as it should be exactly if its two fees, rounded up, add up to a 64-bit
    number. -/
theorem burn_split_iff (shares : 0 < self.vrtSupply) (supplyFits : self.vrtSupply < 2 ^ 64)
    (tokensFit : self.tokensDeposited < 2 ^ 64) (held : amountIn ≤ self.vrtSupply) :
    (∃ summary, self.calculateBurnSummary program vault amountIn = .ok summary ∧
      summary.programFeeAmount + summary.vaultFeeAmount + summary.burnAmount = amountIn ∧
      summary.outAmount = summary.burnAmount * self.tokensDeposited / self.vrtSupply ∧
      summary.outAmount ≤ self.tokensDeposited ∧
      (amountIn < self.programFeeBps.share amountIn + self.withdrawalFeeBps.share amountIn →
        summary.programFeeAmount = (if program then 0 else self.programFeeBps.share amountIn) ∧
        summary.vaultFeeAmount = if vault then 0 else amountIn - self.programFeeBps.share amountIn)) ↔
      self.programFeeBps.share amountIn + self.withdrawalFeeBps.share amountIn < 2 ^ 64 := by
  constructor
  · rintro ⟨summary, computed, -⟩
    exact fees_lt_of_calculateBurnSummary computed
  intro fits
  refine ⟨_, calculateBurnSummary_of_le held shares supplyFits tokensFit fits, ?_, rfl, ?_, fun exceeds => ⟨rfl, ?_⟩⟩
  · have sum := self.burnSummary_sum program vault amountIn
    omega
  · exact proRata_le_whole ((self.burnAmount_le program vault amountIn).trans held)
  · simp only [burnSummary, vaultFee, min_eq_right (show amountIn - self.programFeeBps.share amountIn ≤
      self.withdrawalFeeBps.share amountIn by omega)]

/-- A vault at a price of one, with two fees. -/
def Sample.costly (program withdrawal : Bps) (amount : Nat) : Vault :=
  { Sample.state.vault with
    vrtSupply := amount, tokensDeposited := amount, programFeeBps := program, withdrawalFeeBps := withdrawal }

/-- Fees of 90 and 20 on 100 leave 10 for the vault fee. -/
theorem burn_split_iff_sample : ∃ summary,
    (Sample.costly ⟨9000, by decide⟩ ⟨2000, by decide⟩ 100).calculateBurnSummary false false 100 = .ok summary ∧
      summary.programFeeAmount = 90 ∧ summary.vaultFeeAmount = 10 := by
  have split := @burn_split_iff (Sample.costly ⟨9000, by decide⟩ ⟨2000, by decide⟩ 100) false false 100 (by decide)
    (by decide) (by decide) (by decide)
  obtain ⟨summary, computed, -, -, -, cut⟩ := split.mpr (by decide)
  exact ⟨summary, computed, cut (by decide)⟩

/-- The fees exceed the amount, and the type. -/
theorem burn_of_full_fees_fails :
    (Sample.costly ⟨10000, by decide⟩ ⟨10000, by decide⟩ (2 ^ 64 - 1)).calculateBurnSummary false false (2 ^ 64 - 1) =
      .error .vaultOverflow := by
  decide +kernel

/-! ### The reserve and the payouts -/

/-- The vault after a payout. -/
def paidOut (self : Vault) (summary : BurnSummary) : Vault :=
  { self with
    tokensDeposited := self.tokensDeposited - summary.outAmount
    vrtSupply := self.vrtSupply - summary.burnAmount }

/-- Redeem tickets one after another, with every fee. A redemption that fails pays nothing. -/
def redeemAll (self : Vault) : List Nat → Nat
  | [] => 0
  | amount :: rest =>
    match self.calculateBurnSummary false false amount with
    | .ok summary => summary.outAmount + (self.paidOut summary).redeemAll rest
    | .error _ => self.redeemAll rest

/-- What the fees take of tickets and what they leave of them. -/
theorem sum_netOfFees_add (self : Vault) (tickets : List Nat) :
    (tickets.map self.netOfFees).sum + (tickets.map fun amount => min amount (self.fees amount)).sum = tickets.sum := by
  rw [← sum_map_add]
  conv_rhs => rw [← map_id tickets]
  congr 1
  apply map_congr_left
  intro amount mem
  rw [self.netOfFees_eq, id]
  omega

/-- Tickets are paid at most what their parts without fees are worth together. -/
theorem redeemAll_le (held : tickets.sum ≤ self.vrtSupply) :
    self.redeemAll tickets ≤ proRata (tickets.map self.netOfFees).sum self.tokensDeposited self.vrtSupply := by
  induction tickets generalizing self with
  | nil => exact zero_le _
  | cons amount rest ih =>
    rw [sum_cons] at held
    have net := self.netOfFees_eq amount
    have nets := self.sum_netOfFees_add rest
    have inside : self.netOfFees amount ≤ self.netOfFees amount + (rest.map self.netOfFees).sum := le_add_right _ _
    rw [redeemAll, map_cons, sum_cons]
    split
    · rename_i summary computed
      obtain ⟨rfl, -⟩ := calculateBurnSummary_ok computed
      have first : proRata (self.netOfFees amount) self.tokensDeposited self.vrtSupply ≤ _ := proRata_mono inside
      -- what the others are worth after the payout, of what all were worth before it
      have left := proRata_leave_le inside (by omega) (le_refl (proRata _ self.tokensDeposited self.vrtSupply))
      rw [Nat.add_sub_cancel_left] at left
      have within : rest.sum ≤ (self.paidOut (self.burnSummary false false amount)).vrtSupply := by
        change rest.sum ≤ self.vrtSupply - self.netOfFees amount
        omega
      have others := (ih within).trans left
      change proRata (self.netOfFees amount) self.tokensDeposited self.vrtSupply + redeemAll _ rest ≤ _
      omega
    · exact (ih (by omega)).trans (proRata_mono (by omega))

/-- At a price of one, every ticket is paid what the fees leave of it. -/
theorem redeemAll_eq (one : self.tokensDeposited = self.vrtSupply) (fits : self.vrtSupply < 2 ^ 64)
    (held : tickets.sum ≤ self.vrtSupply) (computed : ∀ amount ∈ tickets, self.fees amount < 2 ^ 64) :
    self.redeemAll tickets = (tickets.map self.netOfFees).sum := by
  induction tickets generalizing self with
  | nil => rfl
  | cons amount rest ih =>
    rw [sum_cons] at held
    obtain ⟨first, others⟩ := forall_mem_cons.mp computed
    have net := self.netOfFees_eq amount
    rw [redeemAll, map_cons, sum_cons]
    split
    · rename_i summary computed
      obtain ⟨rfl, shares⟩ := calculateBurnSummary_ok computed
      have paid : (self.burnSummary false false amount).outAmount = self.netOfFees amount := by
        change proRata (self.netOfFees amount) self.tokensDeposited self.vrtSupply = _
        rw [proRata, one, Nat.mul_div_cancel _ (Nat.pos_of_ne_zero shares)]
      have left : (self.paidOut (self.burnSummary false false amount)).vrtSupply =
        self.vrtSupply - self.netOfFees amount := rfl
      have same : (self.paidOut (self.burnSummary false false amount)).tokensDeposited =
          (self.paidOut (self.burnSummary false false amount)).vrtSupply := by
        rw [left, paidOut, paid, one]
      rw [paid, ih same (by omega) (by omega) others]
      rfl
    · rename_i error failed
      have none : self.vrtSupply = 0 := by
        by_contra shares
        rw [calculateBurnSummary_of_le (by omega) (by omega) fits (one ▸ fits) first] at failed
        cases failed
      rw [ih one fits (by omega) others]
      omega

theorem fees_mono (self : Vault) (le : amount ≤ amount') : self.fees amount ≤ self.fees amount' :=
  Nat.add_le_add ((gc_mul_ceilDiv (by decide)).monotone_l (Nat.mul_le_mul_right _ le))
    ((gc_mul_ceilDiv (by decide)).monotone_l (Nat.mul_le_mul_right _ le))

theorem calculateSupportedAssetsRequestedForWithdrawal_of_le (shares : 0 < self.vrtSupply)
    (supplyFits : self.vrtSupply < 2 ^ 64) (tokensFit : self.tokensDeposited < 2 ^ 64)
    (held : self.vrtReserve ≤ self.vrtSupply) (feesFit : self.fees self.vrtReserve < 2 ^ 64) :
    self.calculateSupportedAssetsRequestedForWithdrawal = .ok self.requested := by
  have reserve := lt_of_le_of_lt held supplyFits
  unfold vrtReserve at reserve
  simp only [calculateSupportedAssetsRequestedForWithdrawal, if_neg shares.ne', ok_iffs, Option.bind_eq_some_iff]
  exact ⟨self.vrtReserve, ⟨_, ⟨by omega, rfl⟩, reserve, rfl⟩, _,
    calculateBurnSummary_of_le held shares supplyFits tokensFit feesFit, rfl⟩

/-- At a price of one nothing but the fees is rounded, so that payouts covered by the reserve leave all its fees. -/
theorem fees_of_covered (self : Vault) (one : self.tokensDeposited = self.vrtSupply)
    (supplyFits : self.vrtSupply < 2 ^ 64) (shares : 0 < self.vrtSupply) (all : tickets.sum = self.vrtReserve)
    (held : self.vrtReserve ≤ self.vrtSupply)
    (computed : self.calculateSupportedAssetsRequestedForWithdrawal = .ok reserved)
    (covered : self.redeemAll tickets ≤ reserved) :
    self.fees self.vrtReserve < 2 ^ 64 ∧ (tickets.map self.netOfFees).sum ≤ self.netOfFees self.vrtReserve := by
  have reservedEq := calculateSupportedAssetsRequestedForWithdrawal_ok computed
  rw [requested, proRata, one, Nat.mul_div_cancel _ shares] at reservedEq
  simp only [calculateSupportedAssetsRequestedForWithdrawal, if_neg shares.ne', ok_iffs,
    Option.bind_eq_some_iff] at computed
  obtain ⟨_, ⟨_, ⟨-, rfl⟩, -, rfl⟩, _, split, -⟩ := computed
  have feesFit : self.fees self.vrtReserve < 2 ^ 64 := fees_lt_of_calculateBurnSummary split
  refine ⟨feesFit, ?_⟩
  rwa [reservedEq, redeemAll_eq one supplyFits (all.trans_le held) fun amount mem =>
    lt_of_le_of_lt (self.fees_mono (all ▸ le_sum_of_mem mem)) feesFit] at covered

/-- The reserve covers the payouts at every price, in whatever order the tickets are redeemed, exactly if its fees can
    be computed and take no more of the whole than the fees of the tickets, each cut to its ticket, take together. -/
theorem reserve_covers_payouts_iff {tickets : List Nat} (all : tickets.sum = self.vrtReserve)
    (fits : self.vrtReserve < 2 ^ 64) :
    (∀ tokensDeposited vrtSupply : Nat, tokensDeposited < 2 ^ 64 → vrtSupply < 2 ^ 64 → 0 < vrtSupply →
      self.vrtReserve ≤ vrtSupply →
      ∃ requested, { self with tokensDeposited, vrtSupply }.calculateSupportedAssetsRequestedForWithdrawal =
          .ok requested ∧
        ∀ order : List Nat, order.Perm tickets → { self with tokensDeposited, vrtSupply }.redeemAll order ≤ requested) ↔
      self.fees self.vrtReserve < 2 ^ 64 ∧ min self.vrtReserve (self.fees self.vrtReserve) ≤
        (tickets.map fun amount => min amount (self.fees amount)).sum := by
  have parts := self.sum_netOfFees_add tickets
  have whole := self.netOfFees_eq self.vrtReserve
  constructor
  · intro covers
    rcases Nat.eq_zero_or_pos self.vrtReserve with none | some
    · simp [none, fees_zero]
    obtain ⟨requested, computed, within⟩ := covers self.vrtReserve self.vrtReserve fits fits some le_rfl
    have taken : self.fees self.vrtReserve < 2 ^ 64 ∧
        (tickets.map self.netOfFees).sum ≤ self.netOfFees self.vrtReserve :=
      fees_of_covered { self with tokensDeposited := self.vrtReserve, vrtSupply := self.vrtReserve } rfl fits some all
        le_rfl computed (within tickets (List.Perm.refl tickets))
    omega
  · rintro ⟨feesFit, covered⟩ tokensDeposited vrtSupply tokensFit supplyFits shares held
    refine ⟨_, calculateSupportedAssetsRequestedForWithdrawal_of_le shares supplyFits tokensFit held feesFit, ?_⟩
    intro order same
    refine (redeemAll_le ((same.sum_eq.trans all).trans_le held)).trans (proRata_mono ?_)
    rw [(same.map _).sum_eq]
    change (tickets.map self.netOfFees).sum ≤ self.netOfFees self.vrtReserve
    omega

def Sample.reserving (enqueued : Nat) : Vault :=
  { Sample.costly ⟨1, by decide⟩ ⟨1, by decide⟩ 20000 with vrtEnqueuedForCooldownAmount := enqueued }

theorem reserve_covers_payouts_iff_sample : ∃ requested,
    (Sample.reserving 10001).calculateSupportedAssetsRequestedForWithdrawal = .ok requested ∧
      (Sample.reserving 10001).redeemAll [5001, 5000] ≤ requested := by
  have covers := (@reserve_covers_payouts_iff (Sample.reserving 10001) [5000, 5001] (by decide) (by decide)).mpr
    (by decide) 20000 20000 (by decide) (by decide) (by decide) (by decide)
  obtain ⟨requested, computed, within⟩ := covers
  exact ⟨requested, computed, within [5001, 5000] (List.Perm.swap 5000 5001 [])⟩

/-- A ticket of one VRT is lost to its fees, which are then larger than it and are taken off the reserve in full. -/
theorem reserve_short_of_payouts : (Sample.reserving 10001).calculateSupportedAssetsRequestedForWithdrawal = .ok 9997 ∧
    (Sample.reserving 10001).redeemAll [1, 10000] = 9998 := by
  decide +kernel

/-! ### The check of the reward fee -/

/-- The VRT minted for the fee on the rewards of a new balance. -/
def vrtRewardFee (self : Vault) (newStBalance : Nat) : Nat :=
  let stRewardFee := self.rewardFeeBps.share (newStBalance - self.tokensDeposited)
  proRata stRewardFee self.vrtSupply (newStBalance - stRewardFee)

/-- The price cut to four decimals turns rewards into at least their value in VRT, up to rounding, … -/
theorem lt_rewardsInVrt (rewards) (shares : 0 < supply) (price : supply ≤ balance) :
    rewards * supply < (rewards * maxBps / (balance * maxBps / supply) + 1) * balance := by
  have cut : balance * maxBps / supply * supply ≤ balance * maxBps := Nat.div_mul_le_self _ _
  have pos : 0 < balance * maxBps / supply :=
    Nat.div_pos (price.trans (Nat.le_mul_of_pos_right _ (by decide))) shares
  have rounded := lt_mul_of_div_lt (lt_succ_self (rewards * maxBps / (balance * maxBps / supply))) pos
  generalize balance * maxBps / supply = ratio at *
  generalize rewards * maxBps / ratio = value at *
  change _ * 10000 < _ at rounded
  change _ ≤ _ * 10000 at cut
  nlinarith

/-- … and to at most one ten-thousandth more, if the price is at least one. -/
theorem rewardsInVrt_le (rewards) (shares : 0 < supply) (price : supply ≤ balance) :
    rewards * maxBps / (balance * maxBps / supply) * 9999 * balance ≤ maxBps * (rewards * supply) := by
  have cut : balance * maxBps < (balance * maxBps / supply + 1) * supply :=
    lt_mul_of_div_lt (lt_succ_self _) shares
  have rounded := div_mul_le_self (rewards * maxBps) (balance * maxBps / supply)
  generalize balance * maxBps / supply = ratio at *
  generalize rewards * maxBps / ratio = value at *
  change _ ≤ _ * 10000 at rounded
  change _ * 10000 < _ at cut
  change _ ≤ 10000 * _
  nlinarith

/-- The fee minted at the price without the fee has, at the price with it, the value of the fee, up to rounding. -/
theorem vrtRewardFee_bounds (shares : 0 < self.vrtSupply) (price : self.vrtSupply ≤ self.tokensDeposited)
    (above : self.tokensDeposited < newStBalance) :
    let fee := self.rewardFeeBps.share (newStBalance - self.tokensDeposited)
    let minted := self.vrtRewardFee newStBalance
    minted * newStBalance ≤ fee * (self.vrtSupply + minted) ∧
      fee * (self.vrtSupply + minted) < (minted + 1) * newStBalance ∧
      self.vrtSupply + minted ≤ newStBalance := by
  intro fee minted
  have feeLe : fee ≤ newStBalance - self.tokensDeposited := self.rewardFeeBps.share_le _
  obtain ⟨rest, restEq⟩ : ∃ rest, newStBalance = rest + fee := ⟨newStBalance - fee, by omega⟩
  have mintedEq : minted = fee * self.vrtSupply / rest := by
    change fee * self.vrtSupply / (newStBalance - fee) = _
    rw [restEq, Nat.add_sub_cancel]
  have low : minted * rest ≤ fee * self.vrtSupply := mintedEq ▸ Nat.div_mul_le_self _ _
  have high : fee * self.vrtSupply < (minted + 1) * rest :=
    mintedEq ▸ lt_mul_of_div_lt (lt_succ_self _) (by omega)
  have mintedLe : minted ≤ fee := by
    rw [mintedEq]
    apply Nat.div_le_of_le_mul
    rw [Nat.mul_comm]
    exact mul_le_mul_right fee (by omega)
  refine ⟨?_, ?_, by omega⟩
  · rw [restEq]
    nlinarith
  · rw [restEq]
    nlinarith

section

variable {rate rewards supply balance : Nat} (rateLe : rate ≤ 10000) (sizeable : 10000 * balance ≤ rewards * supply)
  (pos : 0 < balance)
include rateLe sizeable pos

/-- A sizeable fee's rate is not too high … -/
theorem effectiveRate_le (price : supply ≤ balance) (rounded : 10000 * fee ≤ rewards * rate + 9999)
    (worth : minted * balance ≤ fee * supply) (valued : rewards * supply < (value + 1) * balance) :
    10000 * minted < (rate + 51) * value := by
  by_contra tooHigh
  have bound : 10000 * (minted * balance) ≤ rate * (rewards * supply) + 9999 * balance := by nlinarith
  have scaled : (rate + 51) * value * balance ≤ 10000 * minted * balance := mul_le_mul_right _ (not_lt.mp tooHigh)
  have left : (rate + 51) * (rewards * supply) ≤ (rate + 51) * ((value + 1) * balance) :=
    mul_le_mul_left _ valued.le
  nlinarith

/-- … and not too low. -/
theorem le_effectiveRate (rounded : rewards * rate ≤ 10000 * fee) (worth : fee * supply < (minted + 1) * balance)
    (valued : value * 9999 * balance ≤ 10000 * (rewards * supply)) : (rate - 50) * value ≤ 10000 * minted := by
  obtain small | ⟨low, rfl⟩ : rate ≤ 50 ∨ ∃ low, rate = low + 50 := by
    rcases le_total rate 50 with small | large
    · exact .inl small
    · exact .inr ⟨rate - 50, by omega⟩
  · simp [Nat.sub_eq_zero_of_le small]
  rw [Nat.add_sub_cancel]
  by_contra tooLow
  have bound : (low + 50) * (rewards * supply) < 10000 * ((minted + 1) * balance) := by nlinarith
  have scaled : 10000 * minted * balance ≤ low * value * balance := mul_le_mul_right _ (not_le.mp tooLow).le
  have left : low * (value * 9999 * balance) ≤ low * (10000 * (rewards * supply)) := mul_le_mul_left _ valued
  nlinarith

end

/-- A fee of the right value on rewards worth ten thousand VRT or more passes the check. -/
theorem checkRewardFeeEffectiveRate_of_sizeable {stRewards vrtRewardFee : Nat} (shares : 0 < self.vrtSupply)
    (price : self.vrtSupply ≤ self.tokensDeposited) (fits : self.tokensDeposited < 2 ^ 64)
    (rewardsLe : stRewards ≤ self.tokensDeposited) (feeLe : vrtRewardFee ≤ self.vrtSupply)
    (sizeable : maxBps * self.tokensDeposited ≤ stRewards * self.vrtSupply)
    (low : vrtRewardFee * self.tokensDeposited ≤ self.rewardFeeBps.share stRewards * self.vrtSupply)
    (high : self.rewardFeeBps.share stRewards * self.vrtSupply < (vrtRewardFee + 1) * self.tokensDeposited) :
    self.checkRewardFeeEffectiveRate stRewards vrtRewardFee maxRewardDeltaBps = .ok () := by
  have rateLe := self.rewardFeeBps.le_maxBps
  have least : stRewards * self.rewardFeeBps.value ≤ maxBps * self.rewardFeeBps.share stRewards :=
    le_smul_ceilDiv (show 0 < maxBps by decide)
  have under : maxBps * self.rewardFeeBps.share stRewards ≤ stRewards * self.rewardFeeBps.value + 9999 := by
    rw [Bps.share, ceilDiv_eq_add_pred_div]
    exact mul_div_le _ _
  have valueLow := lt_rewardsInVrt stRewards shares price
  have valueHigh := rewardsInVrt_le stRewards shares price
  have notHigh := effectiveRate_le rateLe sizeable (by omega) price under low valueLow
  have notLow := le_effectiveRate rateLe sizeable (by omega) least high valueHigh
  simp only [checkRewardFeeEffectiveRate, ok_iffs]
  refine ⟨by decide, ?_⟩
  split
  · rfl
  rename_i charged
  simp only [ok_iffs, Option.bind_eq_some_iff, mulDiv_eq_some]
  have wide : ∀ amount < 2 ^ 64, amount * maxBps < 2 ^ 128 := fun amount small =>
    (Nat.mul_lt_mul_of_pos_right small (by decide)).trans (by decide)
  have ratio : 0 < self.tokensDeposited * maxBps / self.vrtSupply :=
    Nat.div_pos (price.trans (Nat.le_mul_of_pos_right _ (by decide))) shares
  have value : 0 < stRewards * maxBps / (self.tokensDeposited * maxBps / self.vrtSupply) := by
    apply pos_of_ne_zero
    intro none
    rw [none] at valueLow
    change 10000 * _ ≤ _ at sizeable
    omega
  have rateUpper : vrtRewardFee * maxBps / (stRewards * maxBps / (self.tokensDeposited * maxBps / self.vrtSupply)) <
      self.rewardFeeBps.value + 51 := by
    rw [div_lt_iff_lt_mul value, mul_comm vrtRewardFee]
    exact notHigh
  have rateLower : self.rewardFeeBps.value - 50 ≤
      vrtRewardFee * maxBps / (stRewards * maxBps / (self.tokensDeposited * maxBps / self.vrtSupply)) := by
    rw [le_div_iff_mul_le value, mul_comm vrtRewardFee]
    exact notLow
  refine ⟨?_, _, ⟨_, ⟨wide _ fits, rfl⟩, shares.ne', rfl⟩, _, ⟨_, ⟨wide _ (by omega), rfl⟩, ratio.ne', rfl⟩, _,
    ⟨wide _ (by omega), value.ne', ?_, rfl⟩, ?_⟩
  · rintro rfl
    have rate : 1 ≤ self.rewardFeeBps.value := pos_of_ne_zero fun none => charged ⟨.inr none, rfl⟩
    change 10000 * _ ≤ _ at sizeable
    change _ ≤ 10000 * _ at least
    nlinarith
  · change _ ≤ 10000 at rateLe
    omega
  · unfold maxRewardDeltaBps
    split <;> omega

/-- Rewards worth at least ten thousand VRT after the update are booked, at any price from one up. -/
theorem sizeable_rewards_booked {newStBalance : Nat} (shares : 1 ≤ self.vrtSupply)
    (price : self.vrtSupply ≤ self.tokensDeposited) (above : self.tokensDeposited < newStBalance)
    (fits : newStBalance < 2 ^ 64)
    (sizeable : 10000 ≤ (newStBalance - self.tokensDeposited) *
      (self.vrtSupply + self.vrtRewardFee newStBalance) / newStBalance) :
    self.updateBalance newStBalance = .ok (self.vrtRewardFee newStBalance,
      { self with
        vrtSupply := self.vrtSupply + self.vrtRewardFee newStBalance
        tokensDeposited := newStBalance }) := by
  obtain ⟨low, high, supplyLe⟩ := vrtRewardFee_bounds shares price above
  have feeLe := self.rewardFeeBps.share_le (newStBalance - self.tokensDeposited)
  rw [le_div_iff_mul_le (by omega)] at sizeable
  simp only [updateBalance, calculateStRewardFee, calculateVrtMintAmount, incrementVrtSupply, ok_iffs]
  refine ⟨self.rewardFeeBps.share (newStBalance - self.tokensDeposited), ?_, _, ⟨by omega, rfl⟩,
    self.vrtRewardFee newStBalance, ?_, _, ⟨_, ⟨by omega, rfl⟩, rfl⟩, (), ?_, rfl⟩
  · rw [if_neg (by omega)]
    exact Bps.feeOf_of_lt (by omega)
  · rw [if_neg (by omega), okOr_eq_ok, mulDiv_eq_some]
    refine ⟨?_, by omega, ?_, rfl⟩
    · calc self.rewardFeeBps.share (newStBalance - self.tokensDeposited) * self.vrtSupply
        _ < 2 ^ 64 * 2 ^ 64 := mul_lt_mul'' (by omega) (by omega)
        _ ≤ 2 ^ 128 := by decide
    · change self.vrtRewardFee newStBalance < _
      omega
  · exact checkRewardFeeEffectiveRate_of_sizeable (by change 0 < self.vrtSupply + _; omega) supplyLe fits
      (sub_le _ _) (le_add_left _ _) sizeable low high

theorem sizeable_rewards_booked_sample :
    ∃ after, { Sample.costly ⟨0, by decide⟩ ⟨0, by decide⟩ 100000 with rewardFeeBps := ⟨1000, by decide⟩ }.updateBalance
      200000 = .ok (5263, after) :=
  ⟨_, sizeable_rewards_booked (by decide) (by decide) (by decide) (by decide) (by decide +kernel)⟩

end Vault

end Payout.Restaking
