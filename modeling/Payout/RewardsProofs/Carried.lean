/-
Purpose: What the blocks of a reward interval keep, whatever they add up to. Unlike in the account of the whole
  payout, nothing is assumed about overflows: a block that was processed at all leaves the accounts of the partitions
  to come as they were, writes nothing but computed stakes into the others, and keeps the rewards and the sysvar,
  until the interval is closed.
-/
import Payout.RewardsProofs.Interval

namespace Payout.Rewards

open Lib Payout.Runtime StakeProgram List Bank Nat StakeReward Option

variable {after bank : Bank} {splitting : Splitting}

variable {cached : Store Pubkey VoteAccount}

/-! ### Writing the sysvar -/

section Sysvar

variable {env : Outside}

theorem Bank.updateSysvarAccount_frame (env) (bank : Bank) (epochRewards) :
    ∃ lamports capitalization, bank.updateSysvarAccount env epochRewards =
      { bank with capitalization, epochRewardsAccount := some { lamports, epochRewards } } := by
  unfold updateSysvarAccount
  split
  · exact ⟨_, _, rfl⟩
  · exact ⟨_, _, rfl⟩

theorem Bank.updateEpochRewardsSysvar_frame (documented : env.Documented)
    (updated : bank.updateEpochRewardsSysvar env amount = .ok after) :
    ∃ lamports capitalization distributedRewards, after =
      { bank with
        capitalization
        epochRewardsAccount :=
          some { lamports, epochRewards := { bank.getEpochRewardsSysvar with distributedRewards } } } := by
  simp only [updateEpochRewardsSysvar, ok_iffs] at updated
  obtain ⟨-, _, distributed, rfl⟩ := updated
  obtain ⟨distributedRewards, rfl⟩ := documented.distribute_keeps _ _ _ distributed
  obtain ⟨lamports, capitalization, same⟩ := updateSysvarAccount_frame env bank
    { bank.getEpochRewardsSysvar with distributedRewards }
  exact ⟨lamports, capitalization, distributedRewards, same⟩

theorem Bank.setEpochRewardsSysvarToInactive_frame (closed : bank.setEpochRewardsSysvarToInactive env = .ok after) :
    ∃ lamports capitalization, after =
      { bank with
        capitalization
        epochRewardsAccount :=
          some { lamports, epochRewards := { bank.getEpochRewardsSysvar with active := false } } } := by
  simp only [setEpochRewardsSysvarToInactive, ok_iffs] at closed
  obtain ⟨-, rfl⟩ := closed
  exact updateSysvarAccount_frame env bank _

end Sysvar

/-! ### Writing the accounts of a partition -/

section Store

variable {env : Outside}

/-- An account is stored under its own key with the stake that was computed for it. -/
theorem buildUpdatedStakeReward_stake (built : buildUpdatedStakeReward env accounts reward = .ok (.ok stakeReward)) :
    stakeReward.stakePubkey = reward.stakePubkey ∧ stakeReward.stakeAccount.stake = reward.stake := by
  unfold buildUpdatedStakeReward at built
  split at built
  · cases built
  split at built
  · cases built
  simp only [ok_iffs] at built
  obtain ⟨-, built⟩ := built
  split_ifs at built
  · cases built
  · simp only [ok_iffs] at built
    obtain ⟨-, built⟩ := built
    cases built
    exact ⟨rfl, rfl⟩

theorem payStakeReward_updated {results after : DistributionResults}
    (paid : payStakeReward env accounts results reward = .ok after)
    (mem : stakeReward ∈ after.updatedStakeRewards) :
    stakeReward ∈ results.updatedStakeRewards ∨
      (stakeReward.stakePubkey = reward.stakePubkey ∧ stakeReward.stakeAccount.stake = reward.stake) := by
  simp only [payStakeReward, bind_ok_iff] at paid
  obtain ⟨result, built, paid⟩ := paid
  cases result with
  | error =>
    cases paid
    exact .inl mem
  | ok =>
    cases paid
    rcases mem_append.mp mem with before | new
    · exact .inl before
    · obtain rfl := mem_singleton.mp new
      exact .inr (buildUpdatedStakeReward_stake built)

/-- Every account that is stored belongs to a reward at one of the places. -/
theorem foldlM_pay_updated {status : StartBlockHeightAndPartitionedRewards} (indices : List Nat)
    {results after : DistributionResults}
    (paid : indices.foldlM (fun results index => do
      let reward ← status.rewardAt index
      payStakeReward env accounts results reward) results = .ok after)
    {stakeReward : StakeReward} (mem : stakeReward ∈ after.updatedStakeRewards) :
    stakeReward ∈ results.updatedStakeRewards ∨ ∃ index ∈ indices, ∃ reward,
      status.rewardAt index = .ok reward ∧ stakeReward.stakePubkey = reward.stakePubkey ∧
        stakeReward.stakeAccount.stake = reward.stake := by
  induction indices generalizing results with
  | nil =>
    cases paid
    exact .inl mem
  | cons index rest ih =>
    simp only [foldlM_cons, bind_ok_iff] at paid
    obtain ⟨_, ⟨reward, found, one⟩, others⟩ := paid
    rcases ih others with before | ⟨later, inside, known⟩
    · rcases payStakeReward_updated one before with before | new
      · exact .inl before
      · exact .inr ⟨index, mem_cons_self, reward, found, new⟩
    · exact .inr ⟨later, mem_cons_of_mem _ inside, known⟩

/-- The block of a partition stores accounts of this partition, each with a stake that was computed for it. -/
theorem storeStakeAccountsInPartition_stored {results : DistributionResults} {status : StartBlockHeightAndRewards}
    {sysvar : SysvarAccount}
    (stored : bank.storeStakeAccountsInPartition env (status.partitioned env sysvar) k = .ok (after, results)) :
    after = bank.storeStakeAccounts results.updatedStakeRewards ∧
      ∀ stakeReward ∈ results.updatedStakeRewards, ∃ reward ∈ status.computed,
        sysvar.partitionOf env reward.stakePubkey = k ∧ stakeReward.stakePubkey = reward.stakePubkey ∧
          stakeReward.stakeAccount.stake = reward.stake := by
  simp only [storeStakeAccountsInPartition, ok_iffs, Prod.mk.injEq] at stored
  obtain ⟨indices, table, results, paid, rfl, rfl⟩ := stored
  refine ⟨rfl, ?_⟩
  intro stakeReward mem
  rcases foldlM_pay_updated indices paid mem with none | ⟨index, inside, reward, found, known⟩
  · cases none
  -- An index of the table is the place of a reward that hashes to this partition.
  change (partitionTable _ _ status.allStakeRewards.enumeratedRewardsIter)[k]? = some indices at table
  rw [partitionTable, getElem?_map] at table
  obtain ⟨partition, range, rfl⟩ := map_eq_some_iff.mp table
  obtain ⟨bound, same⟩ := List.getElem?_eq_some_iff.mp range
  rw [List.getElem_range] at same
  subst same
  obtain ⟨place, here, rfl⟩ := mem_map.mp inside
  obtain ⟨listed, hashed⟩ := mem_filter.mp here
  have held := getElem?_of_mem_enumeratedRewardsIter listed
  simp only [StartBlockHeightAndPartitionedRewards.rewardAt, ok_iffs] at found
  obtain ⟨_, placed, rfl⟩ := found
  obtain rfl : place.2 = reward := some.inj (some.inj (held.symm.trans placed))
  refine ⟨place.2, ?_, of_decide_eq_true hashed, known⟩
  rw [StartBlockHeightAndRewards.computed, ← map_snd_enumeratedRewardsIter]
  exact mem_map_of_mem listed

end Store

/-! ### The blocks of an interval -/

/-- A later bank of the epoch: what the rewards are calculated from, other than the accounts, is the same. -/
structure SameEpoch (env : Outside) (opened bank : Bank) : Prop where
  epoch : bank.epoch = opened.epoch
  schedule : bank.epochSchedule = opened.epochSchedule
  history : bank.stakeHistory = opened.stakeHistory
  minimumForRewards : bank.isStakeMinimumDelegationForRewardsActive = opened.isStakeMinimumDelegationForRewardsActive
  raisedMinimum : bank.isStakeRaiseMinimumDelegationTo1SolActive = opened.isStakeRaiseMinimumDelegationTo1SolActive
  epochStakes : bank.epochStakes = opened.epochStakes
  leaderSchedule : env.getLeaderScheduleEpoch bank.epochSchedule bank.slot =
    env.getLeaderScheduleEpoch opened.epochSchedule opened.slot

/-- A block of the epoch of `opened`, with the leader schedule of that bank. -/
structure Block.Within (env : Outside) (opened : Bank) (block : Block) : Prop where
  epoch : env.getEpoch opened.epochSchedule block.slot = opened.epoch
  leaderSchedule : env.getLeaderScheduleEpoch opened.epochSchedule block.slot =
    env.getLeaderScheduleEpoch opened.epochSchedule opened.slot

/-- A bank as its parent left it, before it distributes anything. -/
structure Child (parent bank : Bank) : Prop where
  height : bank.blockHeight = parent.blockHeight + 1
  fits : bank.blockHeight < 2 ^ 64
  accounts : bank.stakeDelegations = parent.stakeDelegations
  account : bank.epochRewardsAccount = parent.epochRewardsAccount
  phase : bank.epochRewardStatus = parent.epochRewardStatus

section Interval

variable (env : Outside) (opened : Bank) (status : StartBlockHeightAndRewards) (sysvar : SysvarAccount)

/-- A bank `k` blocks after the interval was opened, which is still open: the accounts of the partitions from `k`
    on are as they were, and the others as they were or with a stake that was computed for them. -/
structure Carrying (k : Nat) (bank : Bank) : Prop where
  sameEpoch : SameEpoch env opened bank
  height : bank.blockHeight = opened.blockHeight + k
  phase : bank.epochRewardStatus = .active
    (if k = 0 then .calculation status else .distribution (status.partitioned env sysvar))
  account : ∃ lamports distributedRewards, bank.epochRewardsAccount =
    some { lamports, epochRewards := { sysvar.epochRewards with distributedRewards } }
  unpaid : ∀ pubkey, k ≤ sysvar.partitionOf env pubkey →
    bank.stakeDelegations.lookup pubkey = opened.stakeDelegations.lookup pubkey
  touched : ∀ pubkey account, bank.stakeDelegations.lookup pubkey = some account →
    opened.stakeDelegations.lookup pubkey = some account ∨
      ∃ reward ∈ status.computed, reward.stakePubkey = pubkey ∧ account.stake = reward.stake

/-- The interval is over. -/
structure Closed (bank : Bank) : Prop where
  sameEpoch : SameEpoch env opened bank
  phase : bank.epochRewardStatus = .inactive
  account : bank.getEpochRewardsSysvar.active = false

end Interval

section Step

variable {env : Outside} {opened : Bank} {status : StartBlockHeightAndRewards} {sysvar : SysvarAccount} {k : Nat}
  {parent : Bank} {block : Block}

/-- A block of the epoch takes over everything the rewards are calculated from. -/
theorem newFromParent_within
    (saved : opened.epochStakes.lookup (env.getLeaderScheduleEpoch opened.epochSchedule opened.slot) = some cached)
    (same : SameEpoch env opened parent) (within : block.Within env opened)
    (taken : newFromParent env splitting block parent = .ok after) :
    ∃ bank, Child parent bank ∧ SameEpoch env opened bank ∧
      bank.distributePartitionedEpochRewards env = .ok after := by
  have inEpoch : env.getEpoch parent.epochSchedule block.slot = parent.epoch := by
    rw [same.schedule, same.epoch, within.epoch]
  have known : parent.epochStakes.lookup (env.getLeaderScheduleEpoch parent.epochSchedule block.slot) =
      some cached := by
    rw [same.epochStakes, same.schedule, within.leaderSchedule, saved]
  simp only [newFromParent, ok_iffs] at taken
  obtain ⟨_, ⟨fits, rfl⟩, taken⟩ := taken
  rw [inEpoch, if_neg (lt_irrefl _)] at taken
  simp only [updateEpochStakes, known, ok_iffs, exists_eq_left'] at taken
  let bank : Bank := { parent with
    slot := block.slot
    blockHeight := parent.blockHeight + 1
    lastBlockhash := block.lastBlockhash
    rewards := [] }
  refine ⟨bank, ⟨rfl, fits, rfl, rfl, rfl⟩, ?_, taken⟩
  exact
    { same with
      leaderSchedule := (congrArg (env.getLeaderScheduleEpoch · block.slot) same.schedule).trans
        within.leaderSchedule }

section

variable (carrying : Carrying env opened status sysvar k parent)
include carrying

/-- What a block writes into the accounts of its partition leaves the partitions to come alone. -/
theorem Carrying.stored
    (computed : ∀ stakeReward ∈ updated, ∃ reward ∈ status.computed, sysvar.partitionOf env reward.stakePubkey = k ∧
      stakeReward.stakePubkey = reward.stakePubkey ∧ stakeReward.stakeAccount.stake = reward.stake) :
    (∀ pubkey, k + 1 ≤ sysvar.partitionOf env pubkey →
      (Store.insertAll stakePubkey stakeAccount updated parent.stakeDelegations).lookup
        pubkey = opened.stakeDelegations.lookup pubkey) ∧
    ∀ pubkey account,
      (Store.insertAll stakePubkey stakeAccount updated parent.stakeDelegations).lookup
        pubkey = some account →
      opened.stakeDelegations.lookup pubkey = some account ∨
        ∃ reward ∈ status.computed, reward.stakePubkey = pubkey ∧ account.stake = reward.stake := by
  constructor
  · intro pubkey later
    rw [Store.lookup_insertAll_of_notMem]
    · exact carrying.unpaid pubkey (by omega)
    · intro stored
      obtain ⟨stakeReward, mem, rfl⟩ := mem_map.mp stored
      obtain ⟨reward, -, here, same, -⟩ := computed stakeReward mem
      rw [same] at later
      omega
  · intro pubkey account found
    rcases Store.lookup_insertAll_cases found with before | ⟨stakeReward, mem, rfl, rfl⟩
    · exact carrying.touched pubkey account before
    · obtain ⟨reward, listed, -, same, stake⟩ := computed stakeReward mem
      exact .inr ⟨reward, listed, same.symm, stake⟩

/-- The block of a partition leaves the bank one block further, or closes the interval. -/
theorem Carrying.distributed (documented : env.Documented)
    (start : status.distributionStartingBlockHeight = opened.blockHeight + 1) (child : Child parent bank)
    (same : SameEpoch env opened bank)
    (distributed : bank.distributePartition env (status.partitioned env sysvar) = .ok after) :
    Carrying env opened status sysvar (k + 1) after ∨ Closed env opened after := by
  obtain ⟨height, fits, accounts, account, -⟩ := child
  obtain ⟨lamports, distributedRewards, held⟩ := carrying.account
  have index : bank.blockHeight - (opened.blockHeight + 1) = k := by
    rw [height, carrying.height]
    omega
  have begins : (status.partitioned env sysvar).distributionStartingBlockHeight = opened.blockHeight + 1 := start
  simp only [distributePartition, ok_iffs, begins] at distributed
  obtain ⟨-, distributed⟩ := distributed
  split_ifs at distributed with inside
  · rw [index, bind_ok_iff] at distributed
    obtain ⟨_, paying, distributed⟩ := distributed
    simp only [distributeEpochRewardsInPartition, ok_iffs, Prod.exists] at paying
    obtain ⟨stored, _, storing, _, counting, rfl⟩ := paying
    obtain ⟨rfl, computed⟩ := storeStakeAccountsInPartition_stored storing
    obtain ⟨lamports', _, distributedRewards', rfl⟩ := updateEpochRewardsSysvar_frame documented counting
    obtain ⟨later, touched⟩ := carrying.stored computed
    split_ifs at distributed with final
    · obtain ⟨_, _, rfl⟩ := setEpochRewardsSysvarToInactive_frame distributed
      exact .inr ⟨{ same with }, rfl, rfl⟩
    cases distributed
    refine .inl
      { sameEpoch := { same with }
        height := height.trans (by rw [carrying.height, add_assoc])
        phase := by rw [if_neg (succ_ne_zero k)]; rfl
        account := ⟨lamports', distributedRewards', ?_⟩
        unpaid := ?_
        touched := ?_ }
    · have read : bank.getEpochRewardsSysvar = { sysvar.epochRewards with distributedRewards } := by
        rw [getEpochRewardsSysvar, account, held]
        rfl
      have written := congrArg (fun epochRewards : EpochRewards => some (SysvarAccount.mk lamports'
        { epochRewards with distributedRewards := distributedRewards' })) read
      exact written
    · intro pubkey here
      rw [← later pubkey here, ← accounts]
      rfl
    · intro pubkey account found
      refine touched pubkey account ?_
      rw [← accounts]
      exact found
  · -- Behind the last partition, or where its height does not fit, the interval is closed.
    have final : wrappingAdd 64 (opened.blockHeight + 1)
        (status.partitioned env sysvar).partitionIndices.length ≤ saturatingAdd 64 bank.blockHeight 1 := by
      have reached : opened.blockHeight + 1 ≤ bank.blockHeight := by
        rw [height, carrying.height]
        omega
      have past := not_lt.mp fun before => inside ⟨reached, before⟩
      refine past.trans ?_
      simp only [saturatingAdd]
      omega
    simp only [ok_iffs, exists_eq_left'] at distributed
    rw [if_pos final] at distributed
    obtain ⟨_, _, rfl⟩ := setEpochRewardsSysvarToInactive_frame distributed
    exact .inr ⟨{ same with }, rfl, rfl⟩

/-- What a bank of the interval is going to pay: the rewards that were computed, by partition. -/
theorem Carrying.plan (documented : env.Documented) (pos : 0 < sysvar.epochRewards.numPartitions)
    (account : bank.epochRewardsAccount = parent.epochRewardsAccount)
    (phase : bank.epochRewardStatus = parent.epochRewardStatus) :
    ∃ phase, bank.epochRewardStatus = .active phase ∧
      phase.distributionStartingBlockHeight = status.distributionStartingBlockHeight ∧
      bank.partitionedRewards env phase = .ok (status.partitioned env sysvar) := by
  obtain ⟨_, distributedRewards, held⟩ := carrying.account
  have sysvarNow : bank.getEpochRewardsSysvar = { sysvar.epochRewards with distributedRewards } := by
    rw [getEpochRewardsSysvar, account, held]
    rfl
  rw [phase, carrying.phase]
  by_cases first : k = 0
  · rw [if_pos first]
    exact ⟨_, rfl, rfl, partitionedRewards_ok documented pos (by rw [sysvarNow]) (by rw [sysvarNow]) (.inl rfl)⟩
  · rw [if_neg first]
    exact ⟨_, rfl, rfl, rfl⟩

end

/-- Once the interval is closed, it stays so for the rest of the epoch. -/
theorem Closed.step
    (saved : opened.epochStakes.lookup (env.getLeaderScheduleEpoch opened.epochSchedule opened.slot) = some cached)
    (closed : Closed env opened parent) (within : block.Within env opened)
    (taken : newFromParent env splitting block parent = .ok after) : Closed env opened after := by
  obtain ⟨_, child, same, distributed⟩ := newFromParent_within saved closed.sameEpoch within taken
  have phase := child.phase.trans closed.phase
  simp only [distributePartitionedEpochRewards, phase] at distributed
  cases distributed
  refine ⟨same, phase, ?_⟩
  rw [getEpochRewardsSysvar, child.account]
  exact closed.account

section

variable (documented : env.Documented) (pos : 0 < sysvar.epochRewards.numPartitions)
  (start : status.distributionStartingBlockHeight = opened.blockHeight + 1)
  (saved : opened.epochStakes.lookup (env.getLeaderScheduleEpoch opened.epochSchedule opened.slot) = some cached)

include documented pos start saved

/-- One more block of the epoch leaves the bank one block further, or closes the interval. -/
theorem carrying_step (carrying : Carrying env opened status sysvar k parent)
    (within : block.Within env opened) (taken : newFromParent env splitting block parent = .ok after) :
    Carrying env opened status sysvar (k + 1) after ∨ Closed env opened after := by
  obtain ⟨bank, child, same, distributed⟩ := newFromParent_within saved carrying.sameEpoch within taken
  obtain ⟨phase, active, begins, planned⟩ := carrying.plan documented pos child.account child.phase
  have reached : ¬ bank.blockHeight < phase.distributionStartingBlockHeight := by
    rw [begins, start, child.height, carrying.height]
    omega
  simp only [distributePartitionedEpochRewards, active, if_neg reached, planned] at distributed
  exact carrying.distributed documented start child same distributed

/-- After any number of blocks of the epoch, the bank is as many blocks further, or the interval is closed. -/
theorem carrying_run (blocks) (within : ∀ block ∈ blocks, block.Within env opened)
    (before : Carrying env opened status sysvar k parent ∨ Closed env opened parent)
    (descended : descend env splitting blocks parent = .ok bank) :
    Carrying env opened status sysvar (k + blocks.length) bank ∨ Closed env opened bank := by
  induction blocks generalizing k parent with
  | nil =>
    cases descended
    exact before
  | cons block rest ih =>
    simp only [descend, foldlM_cons, bind_ok_iff] at descended
    obtain ⟨_, taken, descended⟩ := descended
    have here := within block mem_cons_self
    have later := fun other mem => within other (mem_cons_of_mem block mem)
    rw [length_cons, add_comm rest.length 1, ← add_assoc]
    rcases before with carrying | closed
    · exact ih later (carrying_step documented pos start saved carrying here taken) descended
    · exact ih later (.inr (closed.step saved here taken)) descended

end

end Step

/-! ### The first block of an epoch -/

section Start

variable (env : Outside) (parent : Bank) (block : Block)

/-- The vote accounts of the leader schedule, as the first block of an epoch finds or saves them. -/
def startVoteAccounts : Store Pubkey VoteAccount :=
  (parent.epochStakes.lookup (env.getLeaderScheduleEpoch parent.epochSchedule block.slot)).getD
    parent.voteAccounts

/-- What the first block of an epoch calculates the rewards from. -/
def startParams : EpochRewardCalculateParamInfo :=
  { stakeHistory := block.stakeHistory
    stakeDelegations := parent.filterStakeDelegations
    cachedVoteAccounts := startVoteAccounts env parent block }

/-- The interval that the first block of an epoch opened. -/
structure Starting (splitting : Splitting) (opened : Bank) (calculation : CalculateValidatorRewardsResult)
    (status : StartBlockHeightAndRewards) (sysvar : SysvarAccount) : Prop where
  calculated : (startParams env parent block).calculateRewardsForPartitioning splitting parent.epoch
    block.validatorRewards = .ok calculation
  carrying : Carrying env opened status sysvar 0 opened
  active : sysvar.epochRewards.active = true
  pos : 0 < sysvar.epochRewards.numPartitions
  start : status.distributionStartingBlockHeight = opened.blockHeight + 1
  starts : sysvar.epochRewards.distributionStartingBlockHeight = opened.blockHeight + 1
  rewards : status.allStakeRewards = calculation.stakeRewardCalculation.stakeRewards
  totalRewards : sysvar.epochRewards.totalRewards = calculation.pointValue.rewards
  totalPoints : sysvar.epochRewards.totalPoints = calculation.pointValue.points
  saved : opened.epochStakes.lookup (env.getLeaderScheduleEpoch opened.epochSchedule opened.slot) =
    some (startVoteAccounts env parent block)
  history : opened.stakeHistory = block.stakeHistory
  filtered : opened.filterStakeDelegations = parent.filterStakeDelegations
  epoch : opened.epoch = env.getEpoch parent.epochSchedule block.slot

end Start

section Opening

variable {env : Outside} {parent : Bank} {block : Block}

theorem getRewardDistributionNumBlocks_pos {rewards : PartitionedStakeRewards}
    (blocks : bank.getRewardDistributionNumBlocks rewards = .ok numPartitions) : 0 < numPartitions := by
  unfold getRewardDistributionNumBlocks at blocks
  split_ifs at blocks
  · cases blocks
    exact one_pos
  · simp only [ok_iffs] at blocks
    obtain ⟨-, -, rfl⟩ := blocks
    exact lt_min (lt_max_of_lt_right one_pos) (lt_max_of_lt_right one_pos)

/-- The bank with the vote accounts of the leader schedule saved. -/
theorem Bank.updateEpochStakes_eq (bank : Bank) (leaderScheduleEpoch) :
    ∃ epochStakes, bank.updateEpochStakes leaderScheduleEpoch = { bank with epochStakes } ∧
      epochStakes.lookup leaderScheduleEpoch =
        some ((bank.epochStakes.lookup leaderScheduleEpoch).getD bank.voteAccounts) := by
  unfold updateEpochStakes
  cases found : bank.epochStakes.lookup leaderScheduleEpoch with
  | none => exact ⟨_, rfl, AList.lookup_insert _⟩
  | some => exact ⟨bank.epochStakes, rfl, found⟩

/-- What the first block of an epoch writes before it distributes. -/
theorem Bank.beginPartitionedRewards_frame {parentEpoch : Epoch}
    (begun : bank.beginPartitionedRewards env splitting parentEpoch validatorRewards = .ok after) :
    ∃ params calculation numPartitions lamports capitalization,
      bank.getEpochRewardCalculateParamInfo env = .ok params ∧
      params.calculateRewardsForPartitioning splitting parentEpoch validatorRewards = .ok calculation ∧
      0 < numPartitions ∧
      after = { bank.storeVoteAccountsPartitioned calculation.voteRewardsAccounts with
        capitalization
        epochRewardStatus := .active (.calculation
          { distributionStartingBlockHeight := wrappingAdd 64 bank.blockHeight Bank.rewardCalculationNumBlocks
            allStakeRewards := calculation.stakeRewardCalculation.stakeRewards })
        epochRewardsAccount := some
          { lamports
            epochRewards :=
              { distributionStartingBlockHeight :=
                  wrappingAdd 64 bank.blockHeight rewardCalculationNumBlocks
                numPartitions
                parentBlockhash := bank.lastBlockhash
                totalPoints := calculation.pointValue.points
                totalRewards := calculation.pointValue.rewards
                distributedRewards := calculation.voteRewardsAccounts.totalVoteRewardsLamports
                active := true } } } := by
  simp only [beginPartitionedRewards, calculateRewardsAndDistributeVoteRewards, createEpochRewardsSysvar, ok_iffs,
    Prod.exists, Prod.mk.injEq] at begun
  obtain ⟨_, _, ⟨params, held, _, calculated, -, rfl, rfl⟩, numPartitions, blocks, -, rfl⟩ := begun
  obtain ⟨lamports, capitalization, written⟩ := updateSysvarAccount_frame env _ _
  exact ⟨params, _, numPartitions, lamports, capitalization, held, calculated,
    getRewardDistributionNumBlocks_pos blocks, written⟩

/-- A block whose height is the last one there is closes the interval at once. -/
theorem distributePartition_of_last (last : bank.blockHeight + 1 = 2 ^ 64)
    (distributed : bank.distributePartition env partitionRewards = .ok after) :
    after.getEpochRewardsSysvar.active = false := by
  have ends : wrappingAdd 64 partitionRewards.distributionStartingBlockHeight
      partitionRewards.partitionIndices.length < 2 ^ 64 := mod_lt _ (by decide)
  simp only [distributePartition, ok_iffs] at distributed
  obtain ⟨-, distributed⟩ := distributed
  rw [if_neg (by omega), bind_ok_iff] at distributed
  obtain ⟨_, ⟨⟩, distributed⟩ := distributed
  rw [if_pos (by simp only [saturatingAdd]; omega)] at distributed
  obtain ⟨_, _, rfl⟩ := setEpochRewardsSysvarToInactive_frame distributed
  rfl

/-- A first block of an epoch that was processed, and left the sysvar active, opened an interval. -/
theorem starting_of_newFromParent (newEpoch : parent.epoch < env.getEpoch parent.epochSchedule block.slot)
    (taken : newFromParent env splitting block parent = .ok opened)
    (active : opened.getEpochRewardsSysvar.active = true) :
    ∃ calculation status sysvar, Starting env parent block splitting opened calculation status sysvar := by
  simp only [newFromParent, ok_iffs] at taken
  obtain ⟨height, ⟨fits, rfl⟩, taken⟩ := taken
  rw [if_pos newEpoch] at taken
  obtain ⟨epochStakes, saving, saved⟩ := updateEpochStakes_eq
    { parent with
      slot := block.slot
      epoch := env.getEpoch parent.epochSchedule block.slot
      blockHeight := parent.blockHeight + 1
      lastBlockhash := block.lastBlockhash
      rewards := []
      stakeHistory := block.stakeHistory }
    (env.getLeaderScheduleEpoch parent.epochSchedule block.slot)
  simp only [saving, bind_ok_iff] at taken
  obtain ⟨begun, begins, taken⟩ := taken
  obtain ⟨params, calculation, numPartitions, lamports, capitalization, held, calculated, pos, written⟩ :=
    beginPartitionedRewards_frame begins
  simp only [getEpochRewardCalculateParamInfo, saved, ok_iffs, some.injEq, exists_eq_left'] at held
  subst held
  have height : begun.blockHeight = parent.blockHeight + 1 := by rw [written]; rfl
  have phase : begun.epochRewardStatus = .active (.calculation
      { distributionStartingBlockHeight := wrappingAdd 64 (parent.blockHeight + 1) rewardCalculationNumBlocks
        allStakeRewards := calculation.stakeRewardCalculation.stakeRewards }) := by rw [written]
  simp only [distributePartitionedEpochRewards, phase, EpochRewardPhase.distributionStartingBlockHeight,
    height] at taken
  rcases lt_or_ge (parent.blockHeight + 1 + 1) (2 ^ 64) with room | last
  · have start : wrappingAdd 64 (parent.blockHeight + 1) rewardCalculationNumBlocks =
        parent.blockHeight + 1 + 1 := wrappingAdd_of_lt room
    rw [start, if_pos (lt_succ_self _)] at taken
    cases taken
    subst written
    refine ⟨calculation,
      { distributionStartingBlockHeight :=
          wrappingAdd 64 (parent.blockHeight + 1) rewardCalculationNumBlocks
        allStakeRewards := calculation.stakeRewardCalculation.stakeRewards },
      { lamports
        epochRewards :=
          { distributionStartingBlockHeight :=
              wrappingAdd 64 (parent.blockHeight + 1) rewardCalculationNumBlocks
            numPartitions
            parentBlockhash := block.lastBlockhash
            totalPoints := calculation.pointValue.points
            totalRewards := calculation.pointValue.rewards
            distributedRewards := calculation.voteRewardsAccounts.totalVoteRewardsLamports
            active := true } }, ?_⟩
    constructor
    case calculated => exact calculated
    case carrying =>
      exact ⟨⟨rfl, rfl, rfl, rfl, rfl, rfl, rfl⟩, rfl, rfl, ⟨_, _, rfl⟩, fun _ _ => rfl, fun _ _ => .inl⟩
    case active => rfl
    case pos => exact pos
    case start => exact start
    case starts => exact start
    case rewards => rfl
    case totalRewards => rfl
    case totalPoints => rfl
    case saved => exact saved
    case history => rfl
    case filtered => rfl
    case epoch => rfl
  · have start : wrappingAdd 64 (parent.blockHeight + 1) rewardCalculationNumBlocks = 0 := by
      rw [wrappingAdd, rewardCalculationNumBlocks, show parent.blockHeight + 1 + 1 = 2 ^ 64 by omega]
      exact mod_self _
    rw [start, if_neg (not_lt_zero _), bind_ok_iff] at taken
    obtain ⟨partitionRewards, -, distributed⟩ := taken
    have inactive := distributePartition_of_last (by rw [height]; omega) distributed
    cases inactive.symm.trans active

end Opening

end Payout.Rewards
