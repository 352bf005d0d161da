/-
Purpose: What delegations earned in an epoch. A stake earns points for the credits its vote account gathered since the
  stake last observed them; one pass over the delegations adds up their points, a second one redeems the rewards of each
  and accumulates what stake accounts and vote accounts are owed.
Source: gorchain/runtime/src/inflation_rewards/points.rs and mod.rs, gorchain/vote/src/vote_state_view.rs,
  gorchain/runtime/src/bank/partitioned_epoch_rewards/calculation.rs and mod.rs,
  gorchain/runtime/src/bank.rs, gorchain/runtime/src/stake_account.rs, gorchain/vote/src/vote_account.rs
-/
import Payout.StakeProgram.Interface
import Payout.Lib.Traversal

namespace Payout.Rewards

open Lib StakeProgram

/-- Where the code of the rewards panics. -/
inductive RewardsPanic where
  /-- "Rewards intermediate calculation should fit within u128" -/
  | intermediateCalculation
  /-- The unwrapped quotient by the points of the epoch. -/
  | zeroPoints
  /-- "Rewards should fit within u64" -/
  | rewards
  /-- "multiplication of a u64 and u8 should not overflow" -/
  | commissionProduct
  /-- "commission cannot be greater than 100" -/
  | commission
  /-- "calculation should always run after Bank::update_epoch_stakes(leader_schedule_epoch)" -/
  | epochStakes
  /-- Less is to be paid than was paid. -/
  | paidMoreThanExpected
  /-- Less is to be paid than the vote accounts were paid. -/
  | sysvarRewards
  /-- Rewards are distributed while the sysvar is not active. -/
  | sysvarInactive
  /-- More is distributed than the sysvar has left. -/
  | sysvarDistribute
  /-- The interval is over and more was distributed than there was. -/
  | sysvarTotal
  /-- No stake account may be stored in a block. -/
  | storesPerBlock
  /-- A partition outside of the vector of partitions. -/
  | hashOutOfBound
  /-- "epoch rewards status is not in distribution phase, but we are trying to distribute rewards" -/
  | notInDistribution
  /-- The epoch is too short for the partitions. -/
  | slotsInEpoch
  /-- "partition index out of bound" -/
  | partitionIndex
  /-- "partition reward out of bound" -/
  | rewardIndex
  /-- "partition reward is empty" -/
  | rewardEmpty
  /-- The stake to store is not the stake held plus the reward. -/
  | stakeMismatch
  /-- The reward of an account does not fit within i64. -/
  | rewardLamports
  /-- "block height addition overflowed" -/
  | blockHeight
deriving DecidableEq, Repr

/-- `Delegation::stake` at the stake history of the epoch: the effective stake of a delegation in an epoch. -/
abbrev StakeHistory := Delegation → Epoch → Nat

/-- The credits of a vote account at the end and at the beginning of an epoch. -/
structure EpochCreditsItem where
  epoch : Epoch
  credits : Nat
  prevCredits : Nat
deriving DecidableEq, Repr

structure VoteStateView where
  commission : Nat
  epochCredits : List EpochCreditsItem
deriving DecidableEq, Repr

/-- The credits at the end of the last epoch on record. -/
def VoteStateView.credits (voteState : VoteStateView) : Nat :=
  (voteState.epochCredits.getLast?.map EpochCreditsItem.credits).getD 0

/-- Lamports to split over points. -/
structure PointValue where
  rewards : Nat
  points : Nat
deriving DecidableEq, Repr

/-! ### Points -/

structure CalculatedStakePoints where
  points : Nat
  newCreditsObserved : Nat
  forceCreditsUpdateWithSkippedReward : Bool
deriving DecidableEq, Repr

/-- The points of one epoch on record, and the credits observed with it. -/
def earnPoints (stakeHistory : StakeHistory) (stake : Stake) (earned : Nat × Nat) (item : EpochCreditsItem) :
    Nat × Nat :=
  let stakeAmount := stakeHistory stake.delegation item.epoch
  let earnedCredits :=
    if stake.creditsObserved < item.prevCredits then
      -- the staker observed the entire epoch
      wrappingSub 64 item.credits item.prevCredits
    else if stake.creditsObserved < item.credits then
      -- the staker registered sometime during the epoch
      wrappingSub 64 item.credits earned.2
    else 0
  (wrappingAdd 128 earned.1 (wrappingMul 128 stakeAmount earnedCredits), max earned.2 item.credits)

/-- How many points a stake earned, and the credits it has observed once they are paid. -/
def calculateStakePointsAndCredits (stakeHistory : StakeHistory) (stake : Stake) (voteState : VoteStateView) :
    CalculatedStakePoints :=
  if voteState.credits < stake.creditsObserved then
    { points := 0
      newCreditsObserved := voteState.credits
      forceCreditsUpdateWithSkippedReward := true }
  else if voteState.credits = stake.creditsObserved then
    { points := 0
      newCreditsObserved := stake.creditsObserved
      forceCreditsUpdateWithSkippedReward := false }
  else
    let earned := voteState.epochCredits.foldl (earnPoints stakeHistory stake) (0, stake.creditsObserved)
    { points := earned.1
      newCreditsObserved := earned.2
      forceCreditsUpdateWithSkippedReward := false }

/-- Why nothing is redeemed for a stake. -/
inductive RedeemError where
  | noCreditsToRedeem
  | invalidAccountData
deriving DecidableEq, Repr

/-- The points of a stake account. -/
def calculatePoints (stakeHistory : StakeHistory) (stakeState : StakeStateV2) (voteState : VoteStateView) :
    Except RedeemError Nat :=
  match stakeState with
  | .stake _ stake _ => .ok (calculateStakePointsAndCredits stakeHistory stake voteState).points
  | _ => .error .invalidAccountData

/-! ### Rewards -/

/-- The portions of the voter and of the staker, and whether there are two. -/
def commissionSplit (commission on : Nat) : Except RewardsPanic (Nat × Nat × Bool) :=
  match min commission 100 with
  | 0 => .ok (0, on, false)
  | 100 => .ok (on, 0, false)
  | split => do
      let mine ← okOr (checkedMul 128 on split) .commissionProduct
      let rest ← okOr (checkedSub 100 split) .commission
      let theirs ← okOr (checkedMul 128 on rest) .commissionProduct
      pure (mine / 100 % 2 ^ 64, theirs / 100 % 2 ^ 64, true)

structure CalculatedStakeRewards where
  stakerRewards : Nat
  voterRewards : Nat
  newCreditsObserved : Nat
deriving DecidableEq, Repr

section

variable (stakeHistory : StakeHistory) (rewardedEpoch : Epoch) (pointValue : PointValue)

/-- Whether the credits of a stake move on without a reward: it saw more credits than there are, rewards are
    disabled, or the stake was activated in the epoch. -/
def forceCreditsUpdate (stake : Stake) (voteState : VoteStateView) : Bool :=
  if pointValue.rewards = 0 then true
  else if stake.delegation.activationEpoch = rewardedEpoch then true
  else (calculateStakePointsAndCredits stakeHistory stake voteState).forceCreditsUpdateWithSkippedReward

/-- The share of a stake in the rewards, where its credits are not moved on without one. Nothing is paid unless everyone
    gets at least a lamport. -/
def shareOut (stake : Stake) (voteState : VoteStateView) : Except RewardsPanic (Option CalculatedStakeRewards) :=
  let calculated := calculateStakePointsAndCredits stakeHistory stake voteState
  if calculated.points = 0 then .ok none
  else if pointValue.points = 0 then .ok none
  else do
    let product ← okOr (checkedMul 128 calculated.points pointValue.rewards) .intermediateCalculation
    let quotient ← okOr (checkedDiv product pointValue.points) .zeroPoints
    let rewards ← okOr (tryInto 64 quotient) .rewards
    if rewards = 0 then pure none
    else
      let (voterRewards, stakerRewards, isSplit) ← commissionSplit voteState.commission rewards
      if (voterRewards = 0 ∨ stakerRewards = 0) ∧ isSplit = true then pure none
      else
        pure (some { stakerRewards, voterRewards, newCreditsObserved := calculated.newCreditsObserved })

/-- What a stake and its vote account are paid, and the credits the stake has observed then. -/
def calculateStakeRewards (stake : Stake) (voteState : VoteStateView) :
    Except RewardsPanic (Option CalculatedStakeRewards) :=
  let calculated := calculateStakePointsAndCredits stakeHistory stake voteState
  if forceCreditsUpdate stakeHistory rewardedEpoch pointValue stake voteState then
    .ok (some { stakerRewards := 0, voterRewards := 0, newCreditsObserved := calculated.newCreditsObserved })
  else shareOut stakeHistory pointValue stake voteState

/-- The rewards of the staker and of the voter, and the stake with them. -/
def redeemStakeRewards (stake : Stake) (voteState : VoteStateView) :
    Except RewardsPanic (Option (Nat × Nat × Stake)) := do
  match ← calculateStakeRewards stakeHistory rewardedEpoch pointValue stake voteState with
  | none => pure none
  | some calculated =>
    let stake := stake.withCredits calculated.newCreditsObserved
    let stake := stake.withAmount (wrappingAdd 64 stake.delegation.stake calculated.stakerRewards)
    pure (some (calculated.stakerRewards, calculated.voterRewards, stake))

/-- The rewards of the staker and of the voter, and the updated stake. -/
def redeemRewards (stakeState : StakeStateV2) (voteState : VoteStateView) :
    Except RewardsPanic (Except RedeemError (Nat × Nat × Stake)) :=
  match stakeState with
  | .stake _ stake _ => do
      match ← redeemStakeRewards stakeHistory rewardedEpoch pointValue stake voteState with
      | some redeemed => pure (.ok redeemed)
      | none => pure (.error .noCreditsToRedeem)
  | _ => .ok (.error .invalidAccountData)

end

open Payout.Runtime

/-! ### Accounts -/

/-- An account of the stakes cache: its state is always a delegation. -/
structure StakeAccount where
  lamports : Nat
  dataLen : Nat
  metadata : Meta
  stake : Stake
  stakeFlags : StakeFlags
deriving DecidableEq, Repr

namespace StakeAccount

def stakeState (account : StakeAccount) : StakeStateV2 :=
  .stake account.metadata account.stake account.stakeFlags

def delegation (account : StakeAccount) : Delegation := account.stake.delegation

end StakeAccount

/-- An account of the vote accounts cache: it is always owned by the vote program. -/
structure VoteAccount where
  lamports : Nat
  owner : ProgramId
  voteStateView : VoteStateView
  owned : owner = .vote
deriving DecidableEq

/-- What a vote account is owed. -/
structure VoteReward where
  voteAccount : VoteAccount
  commission : Nat
  voteRewards : Nat
deriving DecidableEq

abbrev VoteRewards := Store Pubkey VoteReward

inductive RewardType where
  | fee
  | staking
  | voting
deriving DecidableEq, Repr

/-- What the history of a bank tells about a reward. -/
structure RewardInfo where
  rewardType : RewardType
  lamports : Int
  postBalance : Nat
  commission : Option Nat
deriving DecidableEq, Repr

/-- The cast of a `u64` to an `i64`. -/
def asI64 (n : Nat) : Int := if n < 2 ^ 63 then n else (n : Int) - 2 ^ 64

/-- The stake to be stored in an account, and the reward with it. -/
structure PartitionedStakeReward where
  stakePubkey : Pubkey
  stake : Stake
  stakeReward : Nat
  commission : Nat
deriving DecidableEq, Repr

/-- One place for each delegation, empty where nothing was redeemed. -/
structure PartitionedStakeRewards where
  rewards : List (Option PartitionedStakeReward)
  numRewards : Nat
deriving DecidableEq, Repr

/-- `PartitionedStakeRewards::default()`. -/
def PartitionedStakeRewards.empty : PartitionedStakeRewards := { rewards := [], numRewards := 0 }

/-! ### Accumulated rewards -/

structure DelegationRewards where
  stakeReward : PartitionedStakeReward
  votePubkey : Pubkey
  voteReward : VoteReward
deriving DecidableEq

structure RewardsAccumulator where
  voteRewards : VoteRewards
  numStakeRewards : Nat
  totalStakeRewardsLamports : Nat

namespace RewardsAccumulator

/-- `RewardsAccumulator::default()`. -/
def empty : RewardsAccumulator := { voteRewards := ∅, numStakeRewards := 0, totalStakeRewardsLamports := 0 }

/-- Add to what a vote account is owed. -/
def addVoteReward (voteRewards : VoteRewards) (votePubkey : Pubkey) (voteReward : VoteReward) : VoteRewards :=
  match voteRewards.lookup votePubkey with
  | some dstVoteReward =>
    voteRewards.insert votePubkey
      { dstVoteReward with
        voteRewards := saturatingAdd 64 dstVoteReward.voteRewards voteReward.voteRewards }
  | none => voteRewards.insert votePubkey voteReward

def addReward (accumulator : RewardsAccumulator) (votePubkey : Pubkey) (voteReward : VoteReward)
    (stakersReward : Nat) : RewardsAccumulator :=
  { voteRewards := addVoteReward accumulator.voteRewards votePubkey voteReward
    numStakeRewards := saturatingAdd 64 accumulator.numStakeRewards 1
    totalStakeRewardsLamports := saturatingAdd 64 accumulator.totalStakeRewardsLamports stakersReward }

/-- Extend the accumulator that has more vote rewards by the other. -/
def add (one two : RewardsAccumulator) : RewardsAccumulator :=
  let (dst, src) :=
    if two.voteRewards.entries.length ≤ one.voteRewards.entries.length then (one, two) else (two, one)
  { voteRewards := src.voteRewards.entries.foldl (fun rewards entry => addVoteReward rewards entry.1 entry.2)
      dst.voteRewards
    numStakeRewards := saturatingAdd 64 dst.numStakeRewards src.numStakeRewards
    totalStakeRewardsLamports := saturatingAdd 64 dst.totalStakeRewardsLamports src.totalStakeRewardsLamports }

/-- Add what was redeemed for a delegation, if anything was. -/
def addRedeemed (accumulator : RewardsAccumulator) (redeemed : Option DelegationRewards) : RewardsAccumulator :=
  match redeemed with
  | some rewards => accumulator.addReward rewards.votePubkey rewards.voteReward rewards.stakeReward.stakeReward
  | none => accumulator

end RewardsAccumulator

/-- The vote accounts with their rewards, ready to be stored. -/
structure VoteRewardsAccounts where
  accountsWithRewards : List (Pubkey × RewardInfo × VoteAccount)
  totalVoteRewardsLamports : Nat

/-- `VoteRewardsAccounts::default()`. -/
def VoteRewardsAccounts.empty : VoteRewardsAccounts :=
  { accountsWithRewards := [], totalVoteRewardsLamports := 0 }

/-- Credit a vote account, unless its balance would overflow. -/
def creditVoteAccount (result : VoteRewardsAccounts) (votePubkey : Pubkey) (reward : VoteReward) :
    VoteRewardsAccounts :=
  match checkedAdd 64 reward.voteAccount.lamports reward.voteRewards with
  | none => result
  | some lamports =>
    let info :=
      { rewardType := .voting
        lamports := asI64 reward.voteRewards
        postBalance := lamports
        commission := some reward.commission }
    { accountsWithRewards :=
        result.accountsWithRewards ++ [(votePubkey, info, { reward.voteAccount with lamports })]
      totalVoteRewardsLamports := wrappingAdd 64 result.totalVoteRewardsLamports reward.voteRewards }

def calcVoteAccountsToStore (voteAccountRewards : VoteRewards) : VoteRewardsAccounts :=
  voteAccountRewards.entries.foldl (fun result entry => creditVoteAccount result entry.1 entry.2)
    VoteRewardsAccounts.empty

structure StakeRewardCalculation where
  stakeRewards : PartitionedStakeRewards
  totalStakeRewardsLamports : Nat
deriving DecidableEq, Repr

/-- `StakeRewardCalculation::default()`. -/
def StakeRewardCalculation.empty : StakeRewardCalculation :=
  { stakeRewards := .empty, totalStakeRewardsLamports := 0 }

/-! ### The two passes -/

/-- The delegations that may earn rewards, the vote accounts of the epoch and the stake history. -/
structure EpochRewardCalculateParamInfo where
  stakeHistory : StakeHistory
  stakeDelegations : List (Pubkey × StakeAccount)
  cachedVoteAccounts : Store Pubkey VoteAccount

namespace EpochRewardCalculateParamInfo

variable (splitting : Splitting) (params : EpochRewardCalculateParamInfo)

/-- What the first pass adds for a delegation. -/
def delegationPoints (delegation : Pubkey × StakeAccount) : Nat :=
  match params.cachedVoteAccounts.lookup delegation.2.delegation.voterPubkey with
  | none => 0
  | some voteAccount =>
    if voteAccount.owner ≠ .vote then 0
    else
      (calculatePoints params.stakeHistory delegation.2.stakeState voteAccount.voteStateView).toOption.getD 0

/-- The points of the epoch, if there are any, with the rewards to share out over them. -/
def calculateRewardPointsPartitioned (rewards : Nat) : Option PointValue :=
  let points := (splitting.group params.stakeDelegations).eval 0
    (fun sum delegation => wrappingAdd 128 sum (params.delegationPoints delegation)) (wrappingAdd 128)
  if 0 < points then some { rewards, points } else none

variable (rewardedEpoch : Epoch) (pointValue : PointValue)

/-- The rewards of a delegation and of its vote account, if they can be redeemed. -/
def redeemDelegationRewards (delegation : Pubkey × StakeAccount) : Except RewardsPanic (Option DelegationRewards) :=
  let votePubkey := delegation.2.delegation.voterPubkey
  match params.cachedVoteAccounts.lookup votePubkey with
  | none => .ok none
  | some voteAccount => do
      let voteState := voteAccount.voteStateView
      match ← redeemRewards params.stakeHistory rewardedEpoch pointValue delegation.2.stakeState voteState with
      | .error _ => pure none
      | .ok (stakeReward, voteRewards, stake) =>
        let commission := voteState.commission
        pure (some
          { stakeReward := { stakePubkey := delegation.1, stake, stakeReward, commission }
            votePubkey
            voteReward := { voteAccount, commission, voteRewards } })

/-- The vote accounts and the stake accounts to be paid, with the sum of all stake rewards. -/
def calculateStakeVoteRewards : Except RewardsPanic (VoteRewardsAccounts × StakeRewardCalculation) := do
  let redeemed ← params.stakeDelegations.mapM (params.redeemDelegationRewards rewardedEpoch pointValue)
  let accumulator := (splitting.group redeemed).eval RewardsAccumulator.empty
    RewardsAccumulator.addRedeemed RewardsAccumulator.add
  let stakeRewards :=
    { rewards := redeemed.map (Option.map DelegationRewards.stakeReward)
      numRewards := accumulator.numStakeRewards }
  pure (calcVoteAccountsToStore accumulator.voteRewards,
    { stakeRewards, totalStakeRewardsLamports := accumulator.totalStakeRewardsLamports })

end EpochRewardCalculateParamInfo

/-- What an epoch pays. -/
structure CalculateValidatorRewardsResult where
  voteRewardsAccounts : VoteRewardsAccounts
  stakeRewardCalculation : StakeRewardCalculation
  pointValue : PointValue

/-- `CalculateValidatorRewardsResult::default()`: an epoch without points pays nothing. -/
def CalculateValidatorRewardsResult.empty : CalculateValidatorRewardsResult :=
  { voteRewardsAccounts := .empty
    stakeRewardCalculation := .empty
    pointValue := { rewards := 0, points := 0 } }

namespace EpochRewardCalculateParamInfo

variable (splitting : Splitting) (params : EpochRewardCalculateParamInfo)

/-- What the epoch pays, if there are points. -/
def calculateValidatorRewards (rewardedEpoch : Epoch) (rewards : Nat) :
    Except RewardsPanic (Option CalculateValidatorRewardsResult) :=
  match params.calculateRewardPointsPartitioned splitting rewards with
  | none => .ok none
  | some pointValue => do
      let (voteRewardsAccounts, stakeRewardCalculation) ←
        params.calculateStakeVoteRewards splitting rewardedEpoch pointValue
      pure (some { voteRewardsAccounts, stakeRewardCalculation, pointValue })

/-- What the epoch pays; `validatorRewards` is what inflation allows. -/
def calculateRewardsForPartitioning (prevEpoch : Epoch) (validatorRewards : Nat) :
    Except RewardsPanic CalculateValidatorRewardsResult := do
  let result ← params.calculateValidatorRewards splitting prevEpoch validatorRewards
  pure (result.getD .empty)

end EpochRewardCalculateParamInfo

end Payout.Rewards
