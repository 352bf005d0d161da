/-
Purpose: The whole payout of an epoch. The first block of the epoch pays the vote accounts and opens the interval in
  the state that `Opened` describes, provided that nothing overflows; from there every stake reward is paid exactly
  once, and capitalization, balances and the sysvar agree about it.
-/
import Payout.RewardsProofs.Interval

namespace Payout.Rewards

open Lib Payout.Runtime StakeProgram List PartitionedStakeReward EpochRewardCalculateParamInfo Bank Store

/-! ### The vote accounts -/

/-- A vote account with its reward, unless its balance would overflow. -/
def creditedVote (entry : (_ : Pubkey) × VoteReward) : Option (Pubkey × RewardInfo × VoteAccount) :=
  if entry.2.voteAccount.lamports + entry.2.voteRewards < 2 ^ 64 then
    some (entry.1,
      { rewardType := .voting
        lamports := asI64 entry.2.voteRewards
        postBalance := entry.2.voteAccount.lamports + entry.2.voteRewards
        commission := some entry.2.commission },
      { entry.2.voteAccount with lamports := entry.2.voteAccount.lamports + entry.2.voteRewards })
  else none

theorem calcVoteAccountsToStore_accounts (voteRewards) :
    (calcVoteAccountsToStore voteRewards).accountsWithRewards = voteRewards.entries.filterMap creditedVote := by
  have credited : ∀ (entries : List ((_ : Pubkey) × VoteReward)) (result : VoteRewardsAccounts),
      (entries.foldl (fun result entry => creditVoteAccount result entry.1 entry.2) result).accountsWithRewards =
        result.accountsWithRewards ++ entries.filterMap creditedVote := by
    intro entries
    induction entries with
    | nil => intro result; simp
    | cons entry rest ih =>
      intro result
      rw [foldl_cons, ih, filterMap_cons]
      unfold creditVoteAccount creditedVote
      split_ifs with fits
      · rw [checkedAdd_eq_some.mpr ⟨fits, rfl⟩]
        simp
      · rw [show checkedAdd 64 entry.2.voteAccount.lamports entry.2.voteRewards = none from if_neg fits]
  exact credited voteRewards.entries VoteRewardsAccounts.empty

/-- All lamports of the vote accounts. -/
def voteLamports (accounts : Store Pubkey VoteAccount) : Nat := Store.total (fun _ account => account.lamports) accounts

/-- Storing the vote accounts with their rewards raises their balances by what they are credited with. -/
theorem voteLamports_stored
    (current : ∀ votePubkey reward, voteRewards.lookup votePubkey = some reward →
      accounts.lookup votePubkey = some reward.voteAccount) :
    voteLamports (insertAll (·.1) (·.2.2)
        (calcVoteAccountsToStore voteRewards).accountsWithRewards accounts) =
      voteLamports accounts + totalCredited voteRewards := by
  rw [calcVoteAccountsToStore_accounts]
  -- The gain of an account is the difference to the balance it had.
  let gain : Pubkey × RewardInfo × VoteAccount → Nat := fun credited =>
    credited.2.2.lamports - ((accounts.lookup credited.1).map VoteAccount.lamports).getD 0
  have found : ∀ entry ∈ voteRewards.entries, accounts.lookup entry.1 = some entry.2.voteAccount :=
    fun entry mem => current entry.1 entry.2 (mem_entries_iff.mp mem)
  have nodup : ((voteRewards.entries.filterMap creditedVote).map fun credited => credited.1).Nodup := by
    have keys : (voteRewards.entries.map Sigma.fst).Nodup := voteRewards.nodupKeys
    refine List.Nodup.sublist (map_filterMap_sublist ?_ _) keys
    intro entry credited same
    obtain ⟨-, same⟩ := Option.ite_none_right_eq_some.mp same
    cases same
    rfl
  have gains : ∀ credited ∈ voteRewards.entries.filterMap creditedVote,
      ∃ old, accounts.lookup credited.1 = some old ∧ credited.2.2.lamports = old.lamports + gain credited := by
    intro credited mem
    obtain ⟨entry, inside, same⟩ := mem_filterMap.mp mem
    obtain ⟨-, same⟩ := Option.ite_none_right_eq_some.mp same
    cases same
    refine ⟨_, found entry inside, ?_⟩
    simp only [gain, found entry inside, Option.map_some, Option.getD_some]
    omega
  have total : total (fun _ account => account.lamports) (insertAll (·.1)
      (·.2.2) (voteRewards.entries.filterMap creditedVote) accounts) = _ :=
    total_insertAll _ gain nodup gains
  have sum : ((voteRewards.entries.filterMap creditedVote).map gain).sum = totalCredited voteRewards := by
    change _ = (voteRewards.entries.map fun entry => creditable entry.2).sum
    generalize voteRewards.entries = entries at found
    induction entries with
    | nil => rfl
    | cons entry rest ih =>
      have rest := ih fun other mem => found other (mem_cons_of_mem _ mem)
      rw [filterMap_cons, map_cons, sum_cons, ← rest]
      unfold creditedVote creditable
      split_ifs
      · simp [gain, found entry mem_cons_self]
      · simp
  rw [voteLamports, total, sum, voteLamports]

/-! ### What the first block calculates -/

/-- What an epoch pays: rewards of cached vote accounts and of the delegations, at most `rewards` together. -/
structure Calculated (params : EpochRewardCalculateParamInfo) (rewards : Nat)
    (calculation : CalculateValidatorRewardsResult) : Prop where
  votes : ∃ voteRewards : VoteRewards,
    calculation.voteRewardsAccounts = calcVoteAccountsToStore voteRewards ∧
      calculation.voteRewardsAccounts.totalVoteRewardsLamports = totalCredited voteRewards ∧
      ∀ votePubkey reward, voteRewards.lookup votePubkey = some reward →
        OfCached params.cachedVoteAccounts votePubkey reward
  rewards_le : calculation.pointValue.rewards ≤ rewards
  stakes : calculation.stakeRewardCalculation.totalStakeRewardsLamports =
    (calculation.stakeRewardCalculation.stakeRewards.computed.map stakeReward).sum
  enough : calculation.voteRewardsAccounts.totalVoteRewardsLamports +
    (calculation.stakeRewardCalculation.stakeRewards.computed.map stakeReward).sum ≤ calculation.pointValue.rewards
  computed : ∀ reward ∈ calculation.stakeRewardCalculation.stakeRewards.computed,
    ∃ account, (reward.stakePubkey, account) ∈ params.stakeDelegations ∧
      reward.stake.delegation.stake = wrappingAdd 64 account.stake.delegation.stake reward.stakeReward
  keys : (calculation.stakeRewardCalculation.stakeRewards.computed.map stakePubkey).Sublist
    (params.stakeDelegations.map Prod.fst)

section Calculate

variable {params : EpochRewardCalculateParamInfo} {rewardedEpoch : Epoch} {pointValue : PointValue}
  {redeemed : List (Option DelegationRewards)}

/-- The stake reward of a delegation is for its account as it is. -/
theorem redeemed_stakeReward {rewards : DelegationRewards}
    (one : params.redeemDelegationRewards rewardedEpoch pointValue delegation = .ok (some rewards)) :
    rewards.stakeReward.stakePubkey = delegation.1 ∧
      rewards.stakeReward.stake.delegation.stake =
        wrappingAdd 64 delegation.2.stake.delegation.stake rewards.stakeReward.stakeReward := by
  cases cached : params.cachedVoteAccounts.lookup delegation.2.delegation.voterPubkey with
  | none =>
    rw [redeemDelegationRewards_of_absent cached] at one
    cases one
  | some =>
    rw [redeemDelegationRewards_of_cached cached] at one
    obtain ⟨_, -, rfl⟩ := map_map_eq_ok_some.mp one
    exact ⟨rfl, rfl⟩

/-- The rewards that were computed are those of the delegations, in order. -/
theorem computed_of_redeemed (delegations)
    (each : List.Forall₂ (fun delegation result =>
      params.redeemDelegationRewards rewardedEpoch pointValue delegation = .ok result) delegations redeemed) :
    (∀ reward ∈ (redeemed.map (Option.map DelegationRewards.stakeReward)).reduceOption,
      ∃ account, (reward.stakePubkey, account) ∈ delegations ∧
        reward.stake.delegation.stake = wrappingAdd 64 account.stake.delegation.stake reward.stakeReward) ∧
    ((redeemed.map (Option.map DelegationRewards.stakeReward)).reduceOption.map
      stakePubkey).Sublist (delegations.map Prod.fst) ∧
    ((redeemed.map (Option.map DelegationRewards.stakeReward)).reduceOption.map
      stakeReward).sum = (redeemed.map stakerPart).sum := by
  induction each with
  | nil => exact ⟨nofun, .slnil, rfl⟩
  | @cons delegation result _ _ one _ ih =>
    obtain ⟨accounts, keys, sum⟩ := ih
    cases result with
    | none =>
      simp only [map_cons, Option.map_none, reduceOption_cons_of_none, sum_cons]
      refine ⟨?_, keys.cons _, by simpa [stakerPart] using sum⟩
      intro reward mem
      obtain ⟨account, inside, stake⟩ := accounts reward mem
      exact ⟨account, mem_cons_of_mem _ inside, stake⟩
    | some =>
      obtain ⟨pubkey, stake⟩ := redeemed_stakeReward one
      simp only [map_cons, Option.map_some, reduceOption_cons_of_some, sum_cons, stakerPart_some, mem_cons]
      refine ⟨?_, pubkey ▸ keys.cons_cons _, by rw [sum]⟩
      rintro reward (rfl | mem)
      · exact ⟨delegation.2, .inl (by rw [pubkey]), stake⟩
      · obtain ⟨account, inside, stake⟩ := accounts reward mem
        exact ⟨account, .inr inside, stake⟩

/-- The first block calculates what the epoch pays, without a panic. -/
theorem calculateRewardsForPartitioning_ok (splitting) {rewards : Nat} (fits : rewards < 2 ^ 64)
    (sumFits : params.totalPoints < 2 ^ 128)
    (products : params.ProductsFit rewardedEpoch { rewards, points := params.totalPoints }) :
    ∃ calculation, params.calculateRewardsForPartitioning splitting rewardedEpoch rewards = .ok calculation ∧
      Calculated params rewards calculation := by
  simp only [calculateRewardsForPartitioning, calculateValidatorRewards, calculateRewardPointsPartitioned_eq splitting
    rewards sumFits]
  split_ifs with pos
  · obtain ⟨redeemed, all, worth⟩ := redeemed_ok fits rfl products
    obtain ⟨accumulated, stakes, votes, voted⟩ := accumulated_totals splitting all (worth.trans_lt fits)
    obtain ⟨accounts, keys, sum⟩ := computed_of_redeemed params.stakeDelegations (mapM_ok_iff.mp all)
    rw [sum_paid] at worth
    have cached := allCached_of_redeemed all
    simp only [calculateStakeVoteRewards_eq splitting all]
    refine ⟨_, rfl, ⟨⟨_, rfl, votes, ?_⟩, le_refl _, stakes.trans sum.symm, ?_, accounts, keys⟩⟩
    · intro votePubkey reward found
      rw [accumulated.lookup] at found
      exact cached.owed votePubkey reward found
    · change (calcVoteAccountsToStore _).totalVoteRewardsLamports +
        ((redeemed.map (Option.map DelegationRewards.stakeReward)).reduceOption.map _).sum ≤ rewards
      rw [votes, sum]
      change (redeemed.map stakerPart).sum + (redeemed.map voterPart).sum ≤ rewards at worth
      omega
  · refine ⟨.empty, rfl, ⟨⟨∅, rfl, rfl, ?_⟩, Nat.zero_le _, rfl, le_refl 0, forall_mem_nil _, nil_sublist _⟩⟩
    intro votePubkey reward found
    simp at found

end Calculate

/-! ### The first block of an epoch -/

section Boundary

variable (env : Outside) (parent : Bank) (block : Block)

/-- The first bank of an epoch before it calculates the rewards. The vote accounts are saved in this block. -/
def firstBank : Bank :=
  { parent with
    slot := block.slot
    epoch := env.getEpoch parent.epochSchedule block.slot
    blockHeight := parent.blockHeight + 1
    lastBlockhash := block.lastBlockhash
    rewards := []
    stakeHistory := block.stakeHistory
    epochStakes := parent.epochStakes.insert (env.getLeaderScheduleEpoch parent.epochSchedule block.slot)
      parent.voteAccounts }

/-- What the first block of an epoch calculates the rewards from. -/
def boundaryParams : EpochRewardCalculateParamInfo :=
  { stakeHistory := block.stakeHistory
    stakeDelegations := parent.filterStakeDelegations
    cachedVoteAccounts := parent.voteAccounts }

/-- The balance of the account of the sysvar. -/
def sysvarLamports (bank : Bank) : Nat := (bank.epochRewardsAccount.map SysvarAccount.lamports).getD 0

/-- What the account of the sysvar lacks to be rent exempt; a new account has at least one lamport. -/
def sysvarGrowth : Nat :=
  match parent.epochRewardsAccount with
  | some old => max env.sysvarMinimumBalance old.lamports - old.lamports
  | none => max env.sysvarMinimumBalance 1

/-- The first block of an epoch, in which nothing overflows: neither the points nor the products, nor
    capitalization with all rewards, nor the heights of the blocks of an epoch. The rewards fit into the
    signed record that is kept of them, and no delegation overflows with them before the balance of its account does. -/
structure Boundary : Prop where
  newEpoch : parent.epoch < env.getEpoch parent.epochSchedule block.slot
  saved : parent.epochStakes.lookup (env.getLeaderScheduleEpoch parent.epochSchedule block.slot) = none
  stores : parent.stakeAccountStoresPerBlock ≠ 0
  rewards : block.validatorRewards < 2 ^ 63
  points : (boundaryParams parent block).totalPoints < 2 ^ 128
  products : (boundaryParams parent block).ProductsFit parent.epoch
    { rewards := block.validatorRewards, points := (boundaryParams parent block).totalPoints }
  covered : Store.All (fun _ account => account.stake.delegation.stake ≤ account.lamports ∨
    account.stake.delegation.stake + block.validatorRewards < 2 ^ 64) parent.stakeDelegations
  capitalization : parent.capitalization + sysvarGrowth env parent + block.validatorRewards < 2 ^ 64
  heights : parent.blockHeight + 2 + parent.epochSchedule.slotsPerEpoch < 2 ^ 64

end Boundary

section First

variable {env : Outside} {parent : Bank} {block : Block}

/-- Between one block and the slots of the epoch store the rewards. -/
theorem getRewardDistributionNumBlocks_ok (documented : env.Documented) (bank : Bank)
    (stores : bank.stakeAccountStoresPerBlock ≠ 0) (rewards) :
    ∃ numPartitions, bank.getRewardDistributionNumBlocks rewards = .ok numPartitions ∧ 0 < numPartitions ∧
      numPartitions < env.getSlotsInEpoch bank.epochSchedule bank.epoch ∧
      numPartitions ≤ bank.epochSchedule.slotsPerEpoch := by
  have minimum := documented.minimumSlotsPerEpoch bank.epochSchedule bank.epoch
  have long := bank.epochSchedule.minimum
  unfold getRewardDistributionNumBlocks
  split_ifs with warmup
  · exact ⟨1, rfl, by omega, by omega, by omega⟩
  have full := documented.slotsPerEpoch bank.epochSchedule bank.epoch fun warming =>
    not_lt.mp fun before => warmup ⟨warming, before⟩
  refine ⟨_, by simp only [rejectIf, stores, if_false]; rfl, ?_, ?_, ?_⟩
  · exact lt_min (by omega) (by omega)
  · rw [full]
    exact (min_le_right _ _).trans_lt (max_lt (by simp only [maxFactorOfRewardBlocksInEpoch]; omega) (by omega))
  · exact (min_le_right _ _).trans (max_le (by simp only [maxFactorOfRewardBlocksInEpoch]; omega) (by omega))

/-- Opening the sysvar makes its account rent exempt and adds that to capitalization. -/
theorem Bank.updateSysvarAccount_grown (bank epochRewards)
    (fits : bank.capitalization + sysvarGrowth env bank < 2 ^ 64) :
    bank.updateSysvarAccount env epochRewards =
        { bank with
          capitalization := bank.capitalization + sysvarGrowth env bank
          epochRewardsAccount :=
            some { lamports := sysvarLamports bank + sysvarGrowth env bank, epochRewards } } ∧
      env.sysvarMinimumBalance ≤ sysvarLamports bank + sysvarGrowth env bank := by
  unfold updateSysvarAccount sysvarGrowth sysvarLamports at *
  cases held : bank.epochRewardsAccount with
  | none =>
    simp only [held] at fits
    simp only [Option.map_none, Option.getD_none, Nat.zero_add, wrappingAdd_of_lt fits, true_and]
    exact le_max_left _ _
  | some old =>
    simp only [held] at fits
    have balance : old.lamports + (max env.sysvarMinimumBalance old.lamports - old.lamports) =
        max env.sysvarMinimumBalance old.lamports := by omega
    simp only [Option.map_some, Option.getD_some, balance]
    refine ⟨?_, le_max_left _ _⟩
    split_ifs with grows shrinks
    · rw [wrappingAdd_of_lt fits]
    · omega
    · rw [show max env.sysvarMinimumBalance old.lamports - old.lamports = 0 by omega, Nat.add_zero]

/-- The accounts that may earn rewards are accounts of the bank. -/
theorem lookup_of_mem_filterStakeDelegations {bank : Bank} (mem : delegation ∈ bank.filterStakeDelegations) :
    bank.stakeDelegations.lookup delegation.1 = some delegation.2 := by
  have inside : delegation ∈ bank.stakeDelegations.entries.map fun entry => (entry.1, entry.2) := by
    unfold filterStakeDelegations at mem
    split_ifs at mem
    · exact mem_of_mem_filter mem
    · exact mem
  obtain ⟨_, held, rfl⟩ := mem_map.mp inside
  exact mem_entries_iff.mp held

theorem nodup_filterStakeDelegations (bank : Bank) : (bank.filterStakeDelegations.map Prod.fst).Nodup := by
  have keys : (bank.stakeDelegations.entries.map Sigma.fst).Nodup := bank.stakeDelegations.nodupKeys
  have all : ((bank.stakeDelegations.entries.map fun entry => (entry.1, entry.2)).map Prod.fst).Nodup := by
    rw [map_map]
    exact keys
  unfold filterStakeDelegations
  split_ifs
  · exact (filter_sublist.map _).nodup all
  · exact all

/-- What the first block of an epoch leaves behind, compared with its parent. -/
structure Begun (env : Outside) (parent : Bank) (block : Block) (opened : Bank)
    (status : StartBlockHeightAndRewards) (sysvar : SysvarAccount) : Prop where
  isOpen : Opened env opened status sysvar
  capitalization : opened.capitalization =
    parent.capitalization + sysvar.epochRewards.distributedRewards + sysvarGrowth env parent
  balance : sysvar.lamports = sysvarLamports parent + sysvarGrowth env parent
  votes : voteLamports opened.voteAccounts = voteLamports parent.voteAccounts + sysvar.epochRewards.distributedRewards
  accounts : opened.stakeDelegations = parent.stakeDelegations
  stakeStores : opened.stakeStores = parent.stakeStores

/-- The first block of an epoch pays the vote accounts and opens the interval, without a panic. -/
theorem boundary_begun (documented : env.Documented) (splitting : Splitting)
    (boundary : Boundary env parent block) :
    ∃ opened status sysvar, newFromParent env splitting block parent = .ok opened ∧
      Begun env parent block opened status sysvar := by
  have rewards := boundary.rewards
  have capitalization := boundary.capitalization
  have heights := boundary.heights
  obtain ⟨calculation, calculated, facts⟩ := calculateRewardsForPartitioning_ok splitting (by omega)
    boundary.points boundary.products
  have enough := facts.enough
  have rewards_le := facts.rewards_le
  have holds : (firstBank env parent block).getEpochRewardCalculateParamInfo env =
      .ok (boundaryParams parent block) := by
    simp only [getEpochRewardCalculateParamInfo, ok_iffs]
    exact ⟨_, AList.lookup_insert _, rfl⟩
  have paid := calculateRewardsAndDistributeVoteRewards_ok holds calculated (by omega)
    (by rw [facts.stakes]; exact enough)
  obtain ⟨numPartitions, blocks, pos, short, most⟩ := getRewardDistributionNumBlocks_ok documented (firstBank
    env parent block) boundary.stores calculation.stakeRewardCalculation.stakeRewards
  have start : wrappingAdd 64 (parent.blockHeight + 1) rewardCalculationNumBlocks = parent.blockHeight + 2 :=
    wrappingAdd_of_lt (show parent.blockHeight + 1 + 1 < 2 ^ 64 by omega)
  have grownCapitalization : wrappingAdd 64 parent.capitalization
      calculation.voteRewardsAccounts.totalVoteRewardsLamports =
        parent.capitalization + calculation.voteRewardsAccounts.totalVoteRewardsLamports :=
    wrappingAdd_of_lt (by omega)
  let status : StartBlockHeightAndRewards :=
    { distributionStartingBlockHeight := parent.blockHeight + 2
      allStakeRewards := calculation.stakeRewardCalculation.stakeRewards }
  -- The bank right before the sysvar is written.
  let counting : Bank :=
    { (firstBank env parent block).storeVoteAccountsPartitioned calculation.voteRewardsAccounts with
      capitalization := parent.capitalization + calculation.voteRewardsAccounts.totalVoteRewardsLamports
      epochRewardStatus := .active (.calculation status) }
  let epochRewards : EpochRewards :=
    { distributionStartingBlockHeight := parent.blockHeight + 2
      numPartitions
      parentBlockhash := block.lastBlockhash
      totalPoints := calculation.pointValue.points
      totalRewards := calculation.pointValue.rewards
      distributedRewards := calculation.voteRewardsAccounts.totalVoteRewardsLamports
      active := true }
  obtain ⟨grown, rent⟩ := counting.updateSysvarAccount_grown epochRewards
    (show parent.capitalization + calculation.voteRewardsAccounts.totalVoteRewardsLamports +
      sysvarGrowth env parent < 2 ^ 64 by omega)
  have created := createEpochRewardsSysvar_ok env counting (parent.blockHeight + 2) numPartitions
    (show calculation.voteRewardsAccounts.totalVoteRewardsLamports ≤ calculation.pointValue.rewards by omega)
  have begun : (firstBank env parent block).beginPartitionedRewards env splitting parent.epoch
      block.validatorRewards = .ok (counting.updateSysvarAccount env epochRewards) := by
    simp only [beginPartitionedRewards, bind_ok_iff, Prod.exists]
    refine ⟨_, _, paid, numPartitions, blocks, ?_⟩
    simp only [grownCapitalization, start, firstBank, storeVoteAccountsPartitioned]
    exact created
  refine ⟨counting.updateSysvarAccount env epochRewards, status,
    { lamports := sysvarLamports parent + sysvarGrowth env parent, epochRewards }, ?_, ?_⟩
  · have height : okOr (checkedAdd 64 parent.blockHeight 1) RewardsPanic.blockHeight =
        .ok (parent.blockHeight + 1) := okOr_eq_ok.mpr (checkedAdd_eq_some.mpr ⟨by omega, rfl⟩)
    simp only [newFromParent, height, boundary.newEpoch, if_true, updateEpochStakes, boundary.saved]
    change ((firstBank env parent block).beginPartitionedRewards env splitting parent.epoch
      block.validatorRewards >>= distributePartitionedEpochRewards env) = _
    rw [begun, bind_ok_iff]
    refine ⟨_, rfl, ?_⟩
    -- The first block comes before the start of the distribution.
    rw [grown]
    exact if_pos (show parent.blockHeight + 1 < parent.blockHeight + 2 by omega)
  · rw [grown]
    obtain ⟨voteRewards, stored, total, cached⟩ := facts.votes
    constructor
    case isOpen =>
      constructor
      case phase => rfl
      case account => rfl
      case active => rfl
      case rent => exact rent
      case start => rfl
      case pos => exact pos
      case short => exact short
      case ends =>
        have most : numPartitions ≤ parent.epochSchedule.slotsPerEpoch := most
        change parent.blockHeight + 1 + 1 + numPartitions < 2 ^ 64
        omega
      case payable =>
        intro reward mem
        obtain ⟨account, inside, stake⟩ := facts.computed reward mem
        have found := lookup_of_mem_filterStakeDelegations inside
        have covered := boundary.covered reward.stakePubkey account found
        have part : reward.stakeReward ≤ (calculation.stakeRewardCalculation.stakeRewards.computed.map
              stakeReward).sum :=
          single_le_sum (fun _ _ => Nat.zero_le _) _ (mem_map_of_mem mem)
        exact ⟨account, found, stake, fun balance => by omega, by omega⟩
      case nodup => exact facts.keys.nodup (nodup_filterStakeDelegations parent)
      case enough => exact enough
      case capitalization =>
        change parent.capitalization + calculation.voteRewardsAccounts.totalVoteRewardsLamports +
          sysvarGrowth env parent + (calculation.stakeRewardCalculation.stakeRewards.computed.map
            stakeReward).sum < 2 ^ 64
        omega
    case capitalization => rfl
    case balance => rfl
    case votes =>
      change voteLamports (insertAll _ _ calculation.voteRewardsAccounts.accountsWithRewards
        parent.voteAccounts) = _ + calculation.voteRewardsAccounts.totalVoteRewardsLamports
      rw [total, stored]
      exact voteLamports_stored fun votePubkey reward found => (cached votePubkey reward found).1
    case accounts => rfl
    case stakeStores => rfl

/-! ### The whole interval -/

/-- Everything is paid: each of the rewards that were computed, which are for distinct accounts, was stored exactly
    once, unless its account cannot take it, and was burned then; capitalization grew by what the vote accounts
    and the stake accounts were paid and by what the account of the sysvar needed, which is what the balances
    grew by; the sysvar accounts for all of it, within its total, and is closed. -/
structure PaidOut (env : Outside) (parent : Bank) (status : StartBlockHeightAndRewards)
    (sysvar : SysvarAccount) (bank : Bank) : Prop where
  distinct : (status.computed.map stakePubkey).Nodup
  stored : ∃ stores, bank.stakeStores = parent.stakeStores ++ stores ∧
    (stores.map Prod.snd).Perm (status.computed.filterMap (credited env parent.stakeDelegations))
  capitalization : bank.capitalization = parent.capitalization + sysvar.epochRewards.distributedRewards +
    (status.computed.map (creditedAmount env parent.stakeDelegations)).sum + sysvarGrowth env parent
  voteBalances : voteLamports bank.voteAccounts =
    voteLamports parent.voteAccounts + sysvar.epochRewards.distributedRewards
  stakeBalances : stakeLamports bank =
    stakeLamports parent + (status.computed.map (creditedAmount env parent.stakeDelegations)).sum
  sysvarBalance : sysvarLamports bank = sysvarLamports parent + sysvarGrowth env parent
  distributed : bank.getEpochRewardsSysvar.distributedRewards = sysvar.epochRewards.distributedRewards +
    (status.computed.map (creditedAmount env parent.stakeDelegations)).sum +
    (status.computed.map (burnedAmount env parent.stakeDelegations)).sum
  within : bank.getEpochRewardsSysvar.distributedRewards ≤ bank.getEpochRewardsSysvar.totalRewards
  closed : bank.getEpochRewardsSysvar.active = false
  inactive : bank.epochRewardStatus = .inactive

/-- A bank that has all partitions behind it has paid everything. -/
theorem Begun.paidOut (documented : env.Documented) (begun : Begun env parent block opened status sysvar)
    (paying : Paying env opened status sysvar k bank) (after : sysvar.epochRewards.numPartitions ≤ k) :
    PaidOut env parent status sysvar bank := by
  have isOpen := begun.isOpen
  have pos := isOpen.pos
  have all : earlier (sysvar.partitionOf env) k status.computed = status.computed :=
    earlier_of_le (SysvarAccount.partitionOf_lt documented pos) after
  have due : dueBefore env status sysvar k = (status.computed.map stakeReward).sum := by
    rw [dueBefore, all]
  have paid : creditedBefore env opened status sysvar k =
      (status.computed.map (creditedAmount env parent.stakeDelegations)).sum := by
    rw [creditedBefore, all, begun.accounts]
  have parts := sum_creditedAmount_add_burnedAmount env parent.stakeDelegations status.computed
  have account := paying.account
  rw [due, decide_eq_false (by omega)] at account
  have sysvarNow : bank.getEpochRewardsSysvar =
      (sysvar.distributing (status.computed.map stakeReward).sum false).epochRewards := by
    rw [getEpochRewardsSysvar, account]
    rfl
  constructor
  case distinct => exact isOpen.nodup
  case stored =>
    obtain ⟨stores, same, perm⟩ := paying.stores
    rw [all, begun.accounts] at perm
    exact ⟨stores, begun.stakeStores ▸ same, perm⟩
  case capitalization =>
    rw [paying.capitalization, begun.capitalization, paid]
    omega
  case voteBalances => rw [paying.votes, begun.votes]
  case stakeBalances => rw [paying.lamports, paid, stakeLamports, begun.accounts, stakeLamports]
  case sysvarBalance =>
    rw [sysvarLamports, account]
    exact begun.balance
  case distributed =>
    rw [sysvarNow]
    change sysvar.epochRewards.distributedRewards + (status.computed.map stakeReward).sum = _
    omega
  case within =>
    rw [sysvarNow]
    exact isOpen.enough
  case closed => rw [sysvarNow]; rfl
  case inactive => rw [paying.phase, if_neg (by omega), if_neg (by omega)]

/-- Every stake reward is paid exactly once. The first block of an epoch, if nothing overflows in it, opens the
    interval without a panic; no block of the epoch after it panics; and once there are as many of them as
    partitions, everything is paid. -/
theorem stake_rewards_paid_once (documented : env.Documented) (splitting : Splitting)
    (boundary : Boundary env parent block) :
    ∃ opened status sysvar, newFromParent env splitting block parent = .ok opened ∧
      opened.epochRewardStatus = .active (.calculation status) ∧ opened.epochRewardsAccount = some sysvar ∧
      ∀ blocks : List Block,
        (∀ later ∈ blocks, env.getEpoch opened.epochSchedule later.slot = opened.epoch) →
        opened.blockHeight + blocks.length < 2 ^ 64 →
        ∃ bank, descend env splitting blocks opened = .ok bank ∧
          (sysvar.epochRewards.numPartitions ≤ blocks.length → PaidOut env parent status sysvar bank) := by
  obtain ⟨opened, status, sysvar, taken, begun⟩ := boundary_begun documented splitting boundary
  refine ⟨opened, status, sysvar, taken, begun.isOpen.phase, begun.isOpen.account, ?_⟩
  intro blocks inEpoch height
  obtain ⟨bank, descended, paying⟩ :=
    paying_run documented splitting begun.isOpen blocks begun.isOpen.paying inEpoch height
  rw [Nat.zero_add] at paying
  exact ⟨bank, descended, begun.paidOut documented paying⟩

end First

namespace Sample

/-- The first block of epoch 2, with rewards of 9 lamports. -/
def firstBlock : Block :=
  { slot := 64, lastBlockhash := 9, stakeHistory := fun delegation _ => delegation.stake, validatorRewards := 9 }

/-- The account of the sysvar after an earlier epoch. -/
def settledSysvar : SysvarAccount := { lamports := 1454640, epochRewards := .default }

theorem boundaryParams_lastBank (account) :
    boundaryParams (lastBank account) firstBlock = twoDelegations 40 30 2 := rfl

theorem boundary_lastBank : Boundary env (lastBank (some settledSysvar)) firstBlock where
  newEpoch := by decide
  saved := rfl
  stores := by decide
  rewards := by decide
  points := by
    rw [boundaryParams_lastBank]
    decide
  products := by
    rw [boundaryParams_lastBank]
    exact productsFit_twoDelegations (by decide)
  covered := by
    intro pubkey account found
    obtain ⟨rfl, rfl⟩ | ⟨-, found⟩ := lookup_insert_eq_some.mp found
    · exact .inl (le_refl 40)
    · obtain ⟨rfl, rfl⟩ | ⟨-, found⟩ := lookup_insert_eq_some.mp found
      · exact .inl (le_refl 40)
      · cases found
  capitalization := by decide
  heights := by decide

end Sample

open Sample

/-- The theorem at two delegations of 40 lamports and rewards of 9: one block after the first one of the epoch,
    everything is paid. -/
theorem stake_rewards_paid_once_sample :
    ∃ opened status sysvar bank,
      newFromParent env sequential firstBlock
        (lastBank (some settledSysvar)) = .ok opened ∧
      descend env sequential [{ firstBlock with slot := 70 }] opened = .ok bank ∧
      PaidOut env (lastBank (some settledSysvar)) status sysvar bank := by
  obtain ⟨opened, status, sysvar, taken, -, account, run⟩ :=
    stake_rewards_paid_once outside_documented sequential boundary_lastBank
  have view : (newFromParent env sequential firstBlock
      (lastBank (some settledSysvar))).toOption.map (fun bank =>
        (bank.epoch, bank.blockHeight, bank.epochSchedule.slotsPerEpoch,
          bank.epochRewardsAccount.map fun sysvar => sysvar.epochRewards.numPartitions)) =
      some (2, 64, 32, some 1) := by decide
  rw [taken] at view
  simp only [Except.toOption, Option.map_some, account, Option.some.injEq, Prod.mk.injEq] at view
  obtain ⟨epoch, height, slots, partitions⟩ := view
  obtain ⟨bank, descended, paidOut⟩ := run [{ firstBlock with slot := 70 }]
    (by
      intro later mem
      obtain rfl := mem_singleton.mp mem
      change 70 / opened.epochSchedule.slotsPerEpoch = opened.epoch
      rw [slots, epoch])
    (by rw [height]; decide)
  exact ⟨opened, status, sysvar, bank, taken, descended, paidOut (by rw [partitions]; rfl)⟩

/-- The first epoch that pays rewards creates the account of the sysvar. Of 9 lamports, the vote account is paid
    2 and the stake accounts 4, but capitalization grows by the rent of that account as well. -/
theorem capitalization_grows_by_sysvar_rent :
    (descend env sequential [firstBlock, { firstBlock with slot := 70 }]
      (lastBank none)).toOption.map (fun bank =>
        (bank.capitalization, voteLamports bank.voteAccounts, stakeLamports bank,
          bank.getEpochRewardsSysvar.distributedRewards, bank.epochRewardStatus)) =
      some ((lastBank none).capitalization + 6 + 1454640,
        voteLamports (lastBank none).voteAccounts + 2, stakeLamports (lastBank none) + 4,
        6, .inactive) := by
  decide

end Payout.Rewards
