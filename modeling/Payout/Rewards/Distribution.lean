/-
Purpose: The rewards of an epoch as the banks of a chain pay them. The first block of an epoch calculates the rewards,
  pays the vote accounts and opens the `EpochRewards` sysvar; the blocks after it hash the stake rewards into
  partitions and store one partition each; the last of them closes the sysvar.
Source: gorchain/runtime/src/bank/partitioned_epoch_rewards/distribution.rs, calculation.rs, mod.rs, sysvar.rs and
  epoch_rewards_hasher.rs, gorchain/runtime/src/bank.rs
-/
import Payout.Rewards.Calculation
import Payout.StakeProgram.StakeInstruction

namespace Payout.Rewards

open Lib Payout.Runtime StakeProgram

abbrev Slot := Nat

abbrev Hash := Nat

/-! ### Data -/

/-- The sysvar that tells how far the distribution is. -/
structure EpochRewards where
  distributionStartingBlockHeight : Nat
  numPartitions : Nat
  parentBlockhash : Hash
  totalPoints : Nat
  totalRewards : Nat
  distributedRewards : Nat
  active : Bool
deriving DecidableEq, Repr

/-- `EpochRewards::default()`. -/
def EpochRewards.default : EpochRewards :=
  { distributionStartingBlockHeight := 0
    numPartitions := 0
    parentBlockhash := 0
    totalPoints := 0
    totalRewards := 0
    distributedRewards := 0
    active := false }

/-- `EpochSchedule::custom` asserts that an epoch has at least `MINIMUM_SLOTS_PER_EPOCH` slots. -/
structure EpochSchedule where
  slotsPerEpoch : Nat
  warmup : Bool
  firstNormalEpoch : Epoch
  minimum : 32 ≤ slotsPerEpoch
deriving DecidableEq, Repr

structure StartBlockHeightAndRewards where
  distributionStartingBlockHeight : Nat
  allStakeRewards : PartitionedStakeRewards
deriving DecidableEq, Repr

/-- The indices of the rewards of each partition, one partition per block. -/
structure StartBlockHeightAndPartitionedRewards where
  distributionStartingBlockHeight : Nat
  allStakeRewards : PartitionedStakeRewards
  partitionIndices : List (List Nat)
deriving DecidableEq, Repr

inductive EpochRewardPhase where
  | calculation (status : StartBlockHeightAndRewards)
  | distribution (status : StartBlockHeightAndPartitionedRewards)
deriving DecidableEq, Repr

inductive EpochRewardStatus where
  | active (phase : EpochRewardPhase)
  | inactive
deriving DecidableEq, Repr

def EpochRewardPhase.distributionStartingBlockHeight : EpochRewardPhase → Nat
  | .calculation status => status.distributionStartingBlockHeight
  | .distribution status => status.distributionStartingBlockHeight

/-- The functions from outside that the rewards rest on. -/
structure Outside where
  /-- `EpochRewards::distribute`, which panics when more is distributed than is left. -/
  distribute : EpochRewards → Nat → Option EpochRewards
  /-- `EpochSchedule::get_epoch`. -/
  getEpoch : EpochSchedule → Slot → Epoch
  /-- `EpochSchedule::get_slots_in_epoch`. -/
  getSlotsInEpoch : EpochSchedule → Epoch → Nat
  /-- `EpochSchedule::get_leader_schedule_epoch`. -/
  getLeaderScheduleEpoch : EpochSchedule → Slot → Epoch
  /-- `EpochRewardsHasher::hash_address_to_partition`. -/
  hashAddressToPartition : (numPartitions : Nat) → (parentBlockhash : Hash) → Pubkey → Nat
  /-- `Rent::minimum_balance` of the account of the sysvar. -/
  sysvarMinimumBalance : Nat
  /-- `bincode::serialized_size`. -/
  serializedSize : StakeStateV2 → Nat

/-- What is documented about the functions from outside. -/
structure Outside.Documented (env : Outside) : Prop where
  /-- What is left can be distributed. -/
  distribute_some : ∀ (epochRewards : EpochRewards) (amount : Nat),
    epochRewards.distributedRewards + amount ≤ epochRewards.totalRewards →
      env.distribute epochRewards amount =
        some { epochRewards with distributedRewards := epochRewards.distributedRewards + amount }
  /-- Distributing changes nothing else. -/
  distribute_keeps : ∀ (epochRewards : EpochRewards) (amount : Nat) (after : EpochRewards),
    env.distribute epochRewards amount = some after →
      ∃ distributedRewards, after = { epochRewards with distributedRewards }
  /-- No epoch is shorter than `MINIMUM_SLOTS_PER_EPOCH`. -/
  minimumSlotsPerEpoch : ∀ epochSchedule epoch, 32 ≤ env.getSlotsInEpoch epochSchedule epoch
  /-- Once warmed up, or without a warmup, epochs have their full length. -/
  slotsPerEpoch : ∀ (epochSchedule : EpochSchedule) epoch,
    (epochSchedule.warmup = true → epochSchedule.firstNormalEpoch ≤ epoch) →
      env.getSlotsInEpoch epochSchedule epoch = epochSchedule.slotsPerEpoch
  /-- The hash of an address is one of the partitions. -/
  hash_lt : ∀ numPartitions parentBlockhash pubkey, 0 < numPartitions →
    env.hashAddressToPartition numPartitions parentBlockhash pubkey < numPartitions

/-- A stake account with its reward, ready to be stored. -/
structure StakeReward where
  stakePubkey : Pubkey
  stakeRewardInfo : RewardInfo
  stakeAccount : StakeAccount
deriving DecidableEq, Repr

/-- The account of the sysvar. -/
structure SysvarAccount where
  lamports : Nat
  epochRewards : EpochRewards
deriving DecidableEq, Repr

/-- The parts of a bank that the rewards read and write. `stakeStores` is the log of the stake accounts that were
    stored with their rewards, each with the slot it was stored in. -/
structure Bank where
  slot : Slot
  epoch : Epoch
  blockHeight : Nat
  capitalization : Nat
  lastBlockhash : Hash
  epochSchedule : EpochSchedule
  stakeAccountStoresPerBlock : Nat
  isStakeMinimumDelegationForRewardsActive : Bool
  isStakeRaiseMinimumDelegationTo1SolActive : Bool
  stakeHistory : StakeHistory
  stakeDelegations : Store Pubkey StakeAccount
  voteAccounts : Store Pubkey VoteAccount
  /-- The vote accounts of the epoch stakes. -/
  epochStakes : Store Epoch (Store Pubkey VoteAccount)
  epochRewardStatus : EpochRewardStatus
  epochRewardsAccount : Option SysvarAccount
  rewards : List (Pubkey × RewardInfo)
  stakeStores : List (Slot × StakeReward)

namespace Bank

variable (env : Outside) (splitting : Splitting) (bank : Bank)

/-! ### The sysvar -/

def getEpochRewardsSysvar : EpochRewards :=
  (bank.epochRewardsAccount.map SysvarAccount.epochRewards).getD .default

/-- Write the sysvar. Its account holds what rent asks for, and capitalization follows its balance. -/
def updateSysvarAccount (epochRewards : EpochRewards) : Bank :=
  match bank.epochRewardsAccount with
  | some old =>
    let lamports := max env.sysvarMinimumBalance old.lamports
    let capitalization :=
      if old.lamports < lamports then wrappingAdd 64 bank.capitalization (lamports - old.lamports)
      else if lamports < old.lamports then wrappingSub 64 bank.capitalization (old.lamports - lamports)
      else bank.capitalization
    { bank with capitalization, epochRewardsAccount := some { lamports, epochRewards } }
  | none =>
    -- a new account starts with one lamport
    let lamports := max env.sysvarMinimumBalance 1
    { bank with
      capitalization := wrappingAdd 64 bank.capitalization lamports
      epochRewardsAccount := some { lamports, epochRewards } }

def createEpochRewardsSysvar (distributedRewards distributionStartingBlockHeight numPartitions : Nat)
    (pointValue : PointValue) : Except RewardsPanic Bank := do
  rejectIf (pointValue.rewards < distributedRewards) .sysvarRewards
  pure (bank.updateSysvarAccount env
    { distributionStartingBlockHeight
      numPartitions
      parentBlockhash := bank.lastBlockhash
      totalPoints := pointValue.points
      totalRewards := pointValue.rewards
      distributedRewards
      active := true })

def updateEpochRewardsSysvar (distributed : Nat) : Except RewardsPanic Bank := do
  let epochRewards := bank.getEpochRewardsSysvar
  rejectIf (epochRewards.active = false) .sysvarInactive
  let epochRewards ← okOr (env.distribute epochRewards distributed) .sysvarDistribute
  pure (bank.updateSysvarAccount env epochRewards)

def setEpochRewardsSysvarToInactive : Except RewardsPanic Bank := do
  let epochRewards := bank.getEpochRewardsSysvar
  rejectIf (epochRewards.totalRewards < epochRewards.distributedRewards) .sysvarTotal
  pure (bank.updateSysvarAccount env { epochRewards with active := false })

/-! ### Calculation -/

/-- The delegations that may earn rewards. -/
def filterStakeDelegations : List (Pubkey × StakeAccount) :=
  let stakeDelegations := bank.stakeDelegations.entries.map fun entry => (entry.1, entry.2)
  if bank.isStakeMinimumDelegationForRewardsActive then
    let minStakeDelegation :=
      max (getMinimumDelegation bank.isStakeRaiseMinimumDelegationTo1SolActive) lamportsPerSol
    stakeDelegations.filter fun delegation => minStakeDelegation ≤ delegation.2.delegation.stake
  else stakeDelegations

def getEpochRewardCalculateParamInfo : Except RewardsPanic EpochRewardCalculateParamInfo := do
  let leaderScheduleEpoch := env.getLeaderScheduleEpoch bank.epochSchedule bank.slot
  let cachedVoteAccounts ← okOr (bank.epochStakes.lookup leaderScheduleEpoch) .epochStakes
  pure { stakeHistory := bank.stakeHistory, stakeDelegations := bank.filterStakeDelegations, cachedVoteAccounts }

/-- Store the vote accounts with their rewards and record the rewards. -/
def storeVoteAccountsPartitioned (voteAccountRewards : VoteRewardsAccounts) : Bank :=
  { bank with
    voteAccounts := Store.insertAll (·.1) (·.2.2)
      voteAccountRewards.accountsWithRewards bank.voteAccounts
    rewards := bank.rewards ++
      voteAccountRewards.accountsWithRewards.map fun credited => (credited.1, credited.2.1) }

/-- Calculate what the last epoch pays, and pay the vote accounts. -/
def calculateRewardsAndDistributeVoteRewards (prevEpoch : Epoch) (validatorRewards : Nat) :
    Except RewardsPanic (Bank × CalculateValidatorRewardsResult) := do
  let params ← bank.getEpochRewardCalculateParamInfo env
  let calculation ← params.calculateRewardsForPartitioning splitting prevEpoch validatorRewards
  let totalVoteRewards := calculation.voteRewardsAccounts.totalVoteRewardsLamports
  let bank := bank.storeVoteAccountsPartitioned calculation.voteRewardsAccounts
  -- no more is paid than was expected
  rejectIf (calculation.pointValue.rewards <
    wrappingAdd 64 totalVoteRewards calculation.stakeRewardCalculation.totalStakeRewardsLamports)
    .paidMoreThanExpected
  pure ({ bank with capitalization := wrappingAdd 64 bank.capitalization totalVoteRewards }, calculation)

def rewardCalculationNumBlocks : Nat := 1

def maxFactorOfRewardBlocksInEpoch : Nat := 10

/-- The number of blocks that store the stake rewards. -/
def getRewardDistributionNumBlocks (rewards : PartitionedStakeRewards) : Except RewardsPanic Nat :=
  if bank.epochSchedule.warmup = true ∧ bank.epoch < bank.epochSchedule.firstNormalEpoch then .ok 1
  else do
    rejectIf (bank.stakeAccountStoresPerBlock = 0) .storesPerBlock
    let numChunks := rewards.numRewards ⌈/⌉ bank.stakeAccountStoresPerBlock
    -- at most a tenth of the slots of an epoch
    pure (min (max numChunks 1) (max (bank.epochSchedule.slotsPerEpoch / maxFactorOfRewardBlocksInEpoch) 1))

/-- The first block of an epoch calculates the rewards and pays the vote accounts. -/
def beginPartitionedRewards (parentEpoch : Epoch) (validatorRewards : Nat) : Except RewardsPanic Bank := do
  let (bank, calculation) ←
    bank.calculateRewardsAndDistributeVoteRewards env splitting parentEpoch validatorRewards
  let stakeRewards := calculation.stakeRewardCalculation.stakeRewards
  let distributionStartingBlockHeight := wrappingAdd 64 bank.blockHeight rewardCalculationNumBlocks
  let numPartitions ← bank.getRewardDistributionNumBlocks stakeRewards
  let bank := { bank with
    epochRewardStatus :=
      .active (.calculation { distributionStartingBlockHeight, allStakeRewards := stakeRewards }) }
  bank.createEpochRewardsSysvar env calculation.voteRewardsAccounts.totalVoteRewardsLamports
    distributionStartingBlockHeight numPartitions calculation.pointValue

end Bank

/-! ### Partitions -/

/-- The rewards with their places in the vector. -/
def PartitionedStakeRewards.enumeratedRewardsIter (stakeRewards : PartitionedStakeRewards) :
    List (Nat × PartitionedStakeReward) :=
  stakeRewards.rewards.zipIdx.filterMap fun place => place.1.map fun reward => (place.2, reward)

/-- Put the index of a reward into its partition. -/
def pushIndex (partitionOf : Pubkey → Nat) (indices : List (List Nat)) (place : Nat × PartitionedStakeReward) :
    Except RewardsPanic (List (List Nat)) :=
  let partitionIndex := partitionOf place.2.stakePubkey
  if partitionIndex < indices.length then
    .ok (indices.modify partitionIndex fun partition => partition ++ [place.1])
  else .error .hashOutOfBound

/-- The indices of the rewards, by the partition their stake accounts hash to. -/
def hashRewardsIntoPartitions (env : Outside) (stakeRewards : PartitionedStakeRewards)
    (parentBlockhash : Hash) (numPartitions : Nat) : Except RewardsPanic (List (List Nat)) :=
  stakeRewards.enumeratedRewardsIter.foldlM
    (pushIndex (env.hashAddressToPartition numPartitions parentBlockhash)) (List.replicate numPartitions [])

/-! ### Distribution -/

inductive DistributionError where
  /-- "stake account not found" -/
  | accountNotFound
  /-- "rewards arithmetic overflowed" -/
  | arithmeticOverflow
  /-- "stake account set_state failed" -/
  | unableToSetState
deriving DecidableEq, Repr

structure DistributionResults where
  lamportsDistributed : Nat
  lamportsBurned : Nat
  updatedStakeRewards : List StakeReward

/-- The stake account with its reward. -/
def buildUpdatedStakeReward (env : Outside) (stakesCacheAccounts : Store Pubkey StakeAccount)
    (reward : PartitionedStakeReward) : Except RewardsPanic (Except DistributionError StakeReward) :=
  match stakesCacheAccounts.lookup reward.stakePubkey with
  | none => .ok (.error .accountNotFound)
  | some account =>
    match checkedAdd 64 account.lamports reward.stakeReward with
    | none => .ok (.error .arithmeticOverflow)
    | some lamports => do
        rejectIf (saturatingAdd 64 account.stake.delegation.stake reward.stakeReward ≠
          reward.stake.delegation.stake) .stakeMismatch
        let state := StakeStateV2.stake account.metadata reward.stake account.stakeFlags
        if account.dataLen < env.serializedSize state then pure (.error .unableToSetState)
        else
          rejectIf (2 ^ 63 ≤ reward.stakeReward) .rewardLamports
          pure (.ok
            { stakePubkey := reward.stakePubkey
              stakeRewardInfo :=
                { rewardType := .staking
                  lamports := reward.stakeReward
                  postBalance := lamports
                  commission := some reward.commission }
              stakeAccount := { account with lamports, stake := reward.stake } })

/-- The reward at an index of a partition. -/
def StartBlockHeightAndPartitionedRewards.rewardAt (partitionRewards : StartBlockHeightAndPartitionedRewards)
    (index : Nat) : Except RewardsPanic PartitionedStakeReward := do
  let place ← okOr partitionRewards.allStakeRewards.rewards[index]? .rewardIndex
  okOr place .rewardEmpty

/-- Pay one reward of a partition, or burn it. -/
def payStakeReward (env : Outside) (stakesCacheAccounts : Store Pubkey StakeAccount)
    (results : DistributionResults) (reward : PartitionedStakeReward) : Except RewardsPanic DistributionResults := do
  match ← buildUpdatedStakeReward env stakesCacheAccounts reward with
  | .ok stakeReward =>
    pure { results with
      lamportsDistributed := wrappingAdd 64 results.lamportsDistributed reward.stakeReward
      updatedStakeRewards := results.updatedStakeRewards ++ [stakeReward] }
  | .error _ =>
    pure { results with lamportsBurned := wrappingAdd 64 results.lamportsBurned reward.stakeReward }

namespace Bank

variable (env : Outside) (splitting : Splitting) (bank : Bank)

/-- Write the stake accounts of a partition. -/
def storeStakeAccounts (updated : List StakeReward) : Bank :=
  { bank with
    stakeDelegations :=
      Store.insertAll StakeReward.stakePubkey StakeReward.stakeAccount updated bank.stakeDelegations
    stakeStores := bank.stakeStores ++ updated.map fun reward => (bank.slot, reward) }

variable (partitionRewards : StartBlockHeightAndPartitionedRewards)

/-- Store the rewards of a partition. -/
def storeStakeAccountsInPartition (partitionIndex : Nat) : Except RewardsPanic (Bank × DistributionResults) := do
  let indices ← okOr partitionRewards.partitionIndices[partitionIndex]? .partitionIndex
  let results ← indices.foldlM
    (fun results index => do
      let reward ← partitionRewards.rewardAt index
      payStakeReward env bank.stakeDelegations results reward)
    { lamportsDistributed := 0, lamportsBurned := 0, updatedStakeRewards := [] }
  pure (bank.storeStakeAccounts results.updatedStakeRewards, results)

/-- Record the rewards that are not zero. -/
def updateRewardHistoryInPartition (stakeRewards : List StakeReward) : Bank :=
  { bank with
    rewards := bank.rewards ++ (stakeRewards.filter fun reward => 0 < reward.stakeRewardInfo.lamports).map
      fun reward => (reward.stakePubkey, reward.stakeRewardInfo) }

/-- Pay a partition: store its accounts and add it to capitalization and to the sysvar. -/
def distributeEpochRewardsInPartition (partitionIndex : Nat) : Except RewardsPanic Bank := do
  let (bank, results) ← bank.storeStakeAccountsInPartition env partitionRewards partitionIndex
  let bank := { bank with capitalization := wrappingAdd 64 bank.capitalization results.lamportsDistributed }
  let bank ← bank.updateEpochRewardsSysvar env
    (wrappingAdd 64 results.lamportsDistributed results.lamportsBurned)
  pure (bank.updateRewardHistoryInPartition results.updatedStakeRewards)

/-- The partitions of the rewards. In the first block that distributes they are hashed. -/
def partitionedRewards (phase : EpochRewardPhase) : Except RewardsPanic StartBlockHeightAndPartitionedRewards :=
  match phase with
  | .calculation status => do
      let epochRewards := bank.getEpochRewardsSysvar
      let partitionIndices ← hashRewardsIntoPartitions env status.allStakeRewards
        epochRewards.parentBlockhash epochRewards.numPartitions
      pure
        { distributionStartingBlockHeight := status.distributionStartingBlockHeight
          allStakeRewards := status.allStakeRewards
          partitionIndices }
  | .distribution status => .ok status

/-- Pay the partition of this block, and close the interval after the last one. -/
def distributePartition : Except RewardsPanic Bank := do
  let start := partitionRewards.distributionStartingBlockHeight
  let distributionEndExclusive := wrappingAdd 64 start partitionRewards.partitionIndices.length
  let bank := { bank with epochRewardStatus := .active (.distribution partitionRewards) }
  rejectIf (env.getSlotsInEpoch bank.epochSchedule bank.epoch ≤ partitionRewards.partitionIndices.length)
    .slotsInEpoch
  let bank ←
    if start ≤ bank.blockHeight ∧ bank.blockHeight < distributionEndExclusive then
      bank.distributeEpochRewardsInPartition env partitionRewards (bank.blockHeight - start)
    else pure bank
  if distributionEndExclusive ≤ saturatingAdd 64 bank.blockHeight 1 then
    let bank : Bank := { bank with epochRewardStatus := .inactive }
    bank.setEpochRewardsSysvarToInactive env
  else pure bank

/-- Pay a partition if the block is inside of the reward interval. -/
def distributePartitionedEpochRewards : Except RewardsPanic Bank :=
  match bank.epochRewardStatus with
  | .inactive => .ok bank
  | .active phase =>
    if bank.blockHeight < phase.distributionStartingBlockHeight then .ok bank
    else do
      let partitionRewards ← bank.partitionedRewards env phase
      bank.distributePartition env partitionRewards

/-! ### Restart -/

/-- The stake rewards, calculated anew from the sysvar and the accounts. -/
def recalculateStakeRewards (epochRewards : EpochRewards) :
    Except RewardsPanic (PartitionedStakeRewards × List (List Nat)) := do
  rejectIf (epochRewards.active = false) .sysvarInactive
  let rewardedEpoch := bank.epoch - 1
  let pointValue := { rewards := epochRewards.totalRewards, points := epochRewards.totalPoints }
  let params ← bank.getEpochRewardCalculateParamInfo env
  let (_, calculation) ← params.calculateStakeVoteRewards splitting rewardedEpoch pointValue
  let partitionIndices ← hashRewardsIntoPartitions env calculation.stakeRewards
    epochRewards.parentBlockhash epochRewards.numPartitions
  pure (calculation.stakeRewards, partitionIndices)

/-- Restore the status of the rewards after a restart. -/
def recalculatePartitionedRewards : Except RewardsPanic Bank :=
  let epochRewards := bank.getEpochRewardsSysvar
  if epochRewards.active then do
    let (allStakeRewards, partitionIndices) ← bank.recalculateStakeRewards env splitting epochRewards
    pure { bank with
      epochRewardStatus := .active (.distribution
        { distributionStartingBlockHeight := epochRewards.distributionStartingBlockHeight
          allStakeRewards
          partitionIndices }) }
  else .ok bank

/-! ### Blocks -/

/-- Save the vote accounts for a leader schedule, unless they have been saved. -/
def updateEpochStakes (leaderScheduleEpoch : Epoch) : Bank :=
  match bank.epochStakes.lookup leaderScheduleEpoch with
  | some _ => bank
  | none => { bank with epochStakes := bank.epochStakes.insert leaderScheduleEpoch bank.voteAccounts }

end Bank

/-- What a block brings along: its slot, the blockhash it builds on and, in the first block of an epoch, the
    stake history and the rewards that inflation allows. -/
structure Block where
  slot : Slot
  lastBlockhash : Hash
  stakeHistory : StakeHistory
  validatorRewards : Nat

/-- `Bank::new_from_parent`. -/
def newFromParent (env : Outside) (splitting : Splitting) (block : Block) (parent : Bank) :
    Except RewardsPanic Bank := do
  let blockHeight ← okOr (checkedAdd 64 parent.blockHeight 1) .blockHeight
  let epoch := env.getEpoch parent.epochSchedule block.slot
  let leaderScheduleEpoch := env.getLeaderScheduleEpoch parent.epochSchedule block.slot
  let bank := { parent with
    slot := block.slot, epoch, blockHeight, lastBlockhash := block.lastBlockhash, rewards := [] }
  let bank ←
    if parent.epoch < epoch then
      let bank := { bank with stakeHistory := block.stakeHistory }
      (bank.updateEpochStakes leaderScheduleEpoch).beginPartitionedRewards env splitting parent.epoch
        block.validatorRewards
    else pure (bank.updateEpochStakes leaderScheduleEpoch)
  bank.distributePartitionedEpochRewards env

end Payout.Rewards
