/-
Purpose: What is redeemed for one delegation, and how one partition is paid. The staker and the voter together get at
  most the share that the points of the delegation are worth. Hashing puts every reward into exactly one partition, and
  paying a partition credits each of its rewards or burns it, with nothing lost in between.
-/
import Payout.Lib.SharePool
import Mathlib.Data.List.ReduceOption
import Payout.Rewards.Distribution

namespace Payout.Rewards

section

open Lib Payout.Runtime StakeProgram List

/-- The voter and the staker get no more than there is to split. -/
theorem commissionSplit_ok (commission) (fits : on < 2 ^ 64) :
    ∃ voterRewards stakerRewards isSplit,
      commissionSplit commission on = .ok (voterRewards, stakerRewards, isSplit) ∧
        voterRewards + stakerRewards ≤ on := by
  have percent : min commission 100 ≤ 100 := min_le_right commission 100
  unfold commissionSplit
  split
  · exact ⟨0, on, false, rfl, by omega⟩
  · exact ⟨on, 0, false, rfl, by omega⟩
  generalize min commission 100 = rate at percent
  have mine : on * rate < 2 ^ 128 := by nlinarith
  have theirs : on * (100 - rate) < 2 ^ 128 := by
    have : 100 - rate ≤ 100 := Nat.sub_le 100 rate
    nlinarith
  refine ⟨on * rate / 100 % 2 ^ 64, on * (100 - rate) / 100 % 2 ^ 64, true, ?_, ?_⟩
  · simp only [ok_iffs]
    exact ⟨_, ⟨mine, rfl⟩, _, ⟨percent, rfl⟩, _, ⟨theirs, rfl⟩, rfl⟩
  · have whole : on * rate + on * (100 - rate) = on * 100 := by
      rw [← Nat.mul_add, Nat.add_sub_cancel' percent]
    omega

/-! ### One stake -/

variable {rewardedEpoch : Epoch} {pointValue : PointValue}

section Stake

variable {stakeHistory : StakeHistory} {stake : Stake} {voteState : VoteStateView}

/-- A share of the points that is at most all of them is paid without a panic, and both sides together get at
    most the share of the rewards. -/
theorem calculateStakeRewards_ok (fits : pointValue.rewards < 2 ^ 64)
    (share : (calculateStakePointsAndCredits stakeHistory stake voteState).points ≤ pointValue.points)
    (product : forceCreditsUpdate stakeHistory rewardedEpoch pointValue stake voteState = false →
      (calculateStakePointsAndCredits stakeHistory stake voteState).points * pointValue.rewards < 2 ^ 128) :
    ∃ result, calculateStakeRewards stakeHistory rewardedEpoch pointValue stake voteState = .ok result ∧
      ∀ calculated, result = some calculated →
        calculated.stakerRewards + calculated.voterRewards ≤
          proRata (calculateStakePointsAndCredits stakeHistory stake voteState).points pointValue.rewards
            pointValue.points := by
  simp only [calculateStakeRewards, shareOut]
  generalize calculateStakePointsAndCredits stakeHistory stake voteState = earned at share product ⊢
  split_ifs with forced noPoints noValue
  · refine ⟨_, rfl, ?_⟩
    rintro _ ⟨⟩
    exact Nat.zero_le _
  · exact ⟨none, rfl, nofun⟩
  · exact ⟨none, rfl, nofun⟩
  · have worth : proRata earned.points pointValue.rewards pointValue.points ≤ pointValue.rewards :=
      proRata_le_whole share
    have product := product (by simpa using forced)
    obtain ⟨voterRewards, stakerRewards, isSplit, split, sum⟩ :=
      commissionSplit_ok voteState.commission (worth.trans_lt fits)
    -- The calculation is followed from the end: whatever it returns, the parts are those of the split.
    suffices returns : ∃ result,
        (if proRata earned.points pointValue.rewards pointValue.points = 0 then .ok none
          else if (voterRewards = 0 ∨ stakerRewards = 0) ∧ isSplit = true then .ok none
          else .ok (some
            { stakerRewards, voterRewards, newCreditsObserved := earned.newCreditsObserved })) =
          (.ok result : Except RewardsPanic (Option CalculatedStakeRewards)) ∧
        ∀ calculated, result = some calculated →
          calculated.stakerRewards + calculated.voterRewards ≤
            proRata earned.points pointValue.rewards pointValue.points by
      obtain ⟨result, same, worth'⟩ := returns
      refine ⟨result, ?_, worth'⟩
      simp only [ok_iffs]
      refine ⟨_, ⟨product, rfl⟩, _, ⟨noValue, rfl⟩, _, ⟨worth.trans_lt fits, rfl⟩, ?_⟩
      rw [← same]
      simp only [proRata] at split ⊢
      rw [split]
      rfl
    split_ifs with zero unfair
    · exact ⟨none, rfl, nofun⟩
    · exact ⟨none, rfl, nofun⟩
    · refine ⟨_, rfl, ?_⟩
      rintro _ ⟨⟩
      simp only
      omega

/-- Epochs whose credits were observed earn nothing. -/
theorem foldl_earnPoints_of_observed {items : List EpochCreditsItem}
    (redeemed : ∀ item ∈ items, item.prevCredits ≤ item.credits ∧ item.credits ≤ stake.creditsObserved) :
    items.foldl (earnPoints stakeHistory stake) (0, stake.creditsObserved) = (0, stake.creditsObserved) := by
  induction items with
  | nil => rfl
  | cons item items ih =>
    obtain ⟨⟨grows, seen⟩, others⟩ := forall_mem_cons.mp redeemed
    have turn : earnPoints stakeHistory stake (0, stake.creditsObserved) item = (0, stake.creditsObserved) := by
      rw [earnPoints, if_neg (grows.trans seen).not_gt, if_neg seen.not_gt, max_eq_left seen]
      rfl
    rw [foldl_cons, turn, ih others]

/-- With one epoch to redeem, the points are those of the credits that were not observed. -/
theorem calculateStakePointsAndCredits_of_last (entries : voteState.epochCredits = earlier ++ [item])
    (redeemed : ∀ old ∈ earlier, old.prevCredits ≤ old.credits ∧ old.credits ≤ stake.creditsObserved)
    (started : item.prevCredits ≤ stake.creditsObserved) (within : stake.creditsObserved ≤ item.credits)
    (small : item.credits < 2 ^ 64)
    (fits : stakeHistory stake.delegation item.epoch * (item.credits - stake.creditsObserved) < 2 ^ 128) :
    calculateStakePointsAndCredits stakeHistory stake voteState =
      { points := stakeHistory stake.delegation item.epoch * (item.credits - stake.creditsObserved)
        newCreditsObserved := item.credits
        forceCreditsUpdateWithSkippedReward := false } := by
  have credits : voteState.credits = item.credits := by simp [VoteStateView.credits, entries]
  rw [calculateStakePointsAndCredits, credits, if_neg within.not_gt, entries]
  split_ifs with same
  · rw [same, Nat.sub_self, Nat.mul_zero]
  · rw [foldl_append, foldl_earnPoints_of_observed redeemed, foldl_cons, foldl_nil, earnPoints,
      if_neg started.not_gt, if_pos (by omega), max_eq_right within, wrappingSub_of_le small within, wrappingMul,
      Nat.mod_eq_of_lt fits, wrappingAdd_of_lt (by rw [Nat.zero_add]; exact fits), Nat.zero_add]

/-- A product beyond 128 bits is not survived. -/
theorem calculateStakeRewards_of_overflow
    (forced : forceCreditsUpdate stakeHistory rewardedEpoch pointValue stake voteState = false)
    (share : (calculateStakePointsAndCredits stakeHistory stake voteState).points ≤ pointValue.points)
    (product : 2 ^ 128 ≤ (calculateStakePointsAndCredits stakeHistory stake voteState).points * pointValue.rewards) :
    calculateStakeRewards stakeHistory rewardedEpoch pointValue stake voteState = .error .intermediateCalculation := by
  have points : (calculateStakePointsAndCredits stakeHistory stake voteState).points ≠ 0 := by
    intro none
    rw [none, Nat.zero_mul] at product
    omega
  rw [calculateStakeRewards, forced, if_neg Bool.false_ne_true, shareOut, if_neg points, if_neg (by omega), checkedMul,
    if_neg (by omega)]
  rfl

/-- A cluster of at most 2 ^ 60 lamports, epochs of 432000 slots with at most 16 credits each, a delegation with
    one epoch to redeem, and rewards of at most a thousandth of the supply: the rewards are calculated without a
    panic if and only if none are paid or the product of stake, credits and rewards fits into 128 bits. -/
theorem stake_rewards_fit_iff (supply : Nat) (limited : supply ≤ 2 ^ 60) (stakeHistory : StakeHistory) (stake : Stake)
    (held : stake.delegation.stake ≤ supply)
    (effective : ∀ epoch, stakeHistory stake.delegation epoch ≤ stake.delegation.stake) (voteState : VoteStateView)
    (earlier : List EpochCreditsItem) (item : EpochCreditsItem) (entries : voteState.epochCredits = earlier ++ [item])
    (redeemed : ∀ old ∈ earlier, old.prevCredits ≤ old.credits ∧ old.credits ≤ stake.creditsObserved)
    (started : item.prevCredits ≤ stake.creditsObserved) (within : stake.creditsObserved ≤ item.credits)
    (small : item.credits < 2 ^ 64) (voted : item.credits - item.prevCredits ≤ 16 * 432000) (rewardedEpoch : Epoch)
    (pointValue : PointValue) (inflation : pointValue.rewards ≤ supply / 1000)
    (share : (calculateStakePointsAndCredits stakeHistory stake voteState).points ≤ pointValue.points) :
    (∃ result, calculateStakeRewards stakeHistory rewardedEpoch pointValue stake voteState = .ok result) ↔
      pointValue.rewards = 0 ∨ stake.delegation.activationEpoch = rewardedEpoch ∨
        stakeHistory stake.delegation item.epoch * (item.credits - stake.creditsObserved) * pointValue.rewards <
          2 ^ 128 := by
  have fits : stakeHistory stake.delegation item.epoch * (item.credits - stake.creditsObserved) < 2 ^ 128 :=
    calc stakeHistory stake.delegation item.epoch * (item.credits - stake.creditsObserved)
        ≤ 2 ^ 60 * (16 * 432000) :=
          Nat.mul_le_mul (((effective item.epoch).trans held).trans limited) (by omega)
      _ < 2 ^ 128 := by decide
  have calculated := calculateStakePointsAndCredits_of_last entries redeemed started within small fits
  have forced : forceCreditsUpdate stakeHistory rewardedEpoch pointValue stake voteState = false ↔
      pointValue.rewards ≠ 0 ∧ stake.delegation.activationEpoch ≠ rewardedEpoch := by
    rw [forceCreditsUpdate, calculated]
    split_ifs with disabled activated <;> simp [*]
  constructor
  · rintro ⟨result, returned⟩
    by_contra! panics
    rw [calculateStakeRewards_of_overflow (forced.mpr ⟨panics.1, panics.2.1⟩) share
      (by rw [calculated]; exact panics.2.2)] at returned
    cases returned
  · intro fine
    obtain ⟨result, returned, _⟩ := calculateStakeRewards_ok (by omega) share (fun paid => by
      rw [calculated]
      exact (fine.resolve_left (forced.mp paid).1).resolve_left (forced.mp paid).2)
    exact ⟨result, returned⟩

/-- A delegation from epoch 0 on. -/
def Sample.delegated (amount : Nat) : Stake where
  delegation := .new 2 amount 0
  creditsObserved := 0

/-- A delegation of 40 lamports with two credits. -/
theorem stake_rewards_fit_iff_small :
    ∃ result, calculateStakeRewards (fun delegation _ => delegation.stake) 1 { rewards := 1, points := 80 }
      (Sample.delegated 40) { commission := 0, epochCredits := [⟨1, 2, 0⟩] } = .ok result := by
  refine (stake_rewards_fit_iff 1000 (by decide) _ _ (by decide) (fun _ => le_refl _) _ [] ⟨1, 2, 0⟩ rfl nofun
    (by decide) (by decide) (by decide) (by decide) 1 _ (by decide) (by decide)).mpr (.inr (.inr (by decide)))

/-- The whole supply in one delegation, the most credits of an epoch and a thousandth of the supply as rewards: the
    product takes 133 bits. -/
theorem whole_supply_panics :
    (calculateStakePointsAndCredits (fun delegation _ => delegation.stake) (Sample.delegated (2 ^ 60))
        { commission := 0, epochCredits := [⟨1, 16 * 432000, 0⟩] }).points = 2 ^ 60 * (16 * 432000) ∧
      calculateStakeRewards (fun delegation _ => delegation.stake) 1
        { rewards := 2 ^ 60 / 1000, points := 2 ^ 60 * (16 * 432000) } (Sample.delegated (2 ^ 60))
        { commission := 0, epochCredits := [⟨1, 16 * 432000, 0⟩] } = .error .intermediateCalculation := by
  decide

end Stake

/-! ### One delegation -/

/-- What is redeemed for a delegation that has calculated rewards. -/
def DelegationRewards.of (delegation : Pubkey × StakeAccount) (voteAccount : VoteAccount)
    (calculated : CalculatedStakeRewards) : DelegationRewards :=
  let stake := delegation.2.stake.withCredits calculated.newCreditsObserved
  let commission := voteAccount.voteStateView.commission
  { stakeReward :=
      { stakePubkey := delegation.1
        stake := stake.withAmount (wrappingAdd 64 stake.delegation.stake calculated.stakerRewards)
        stakeReward := calculated.stakerRewards
        commission }
    votePubkey := delegation.2.delegation.voterPubkey
    voteReward := { voteAccount, commission, voteRewards := calculated.voterRewards } }

/-- What the staker and the voter of a delegation get together. -/
def paid (redeemed : Option DelegationRewards) : Nat :=
  (redeemed.map fun rewards => rewards.stakeReward.stakeReward + rewards.voteReward.voteRewards).getD 0

namespace EpochRewardCalculateParamInfo

variable {params : EpochRewardCalculateParamInfo} {delegation : Pubkey × StakeAccount} {voteAccount : VoteAccount}

theorem redeemDelegationRewards_of_absent
    (absent : params.cachedVoteAccounts.lookup delegation.2.delegation.voterPubkey = none) :
    params.redeemDelegationRewards rewardedEpoch pointValue delegation = .ok none := by
  simp [redeemDelegationRewards, absent]

section

variable (cached : params.cachedVoteAccounts.lookup delegation.2.delegation.voterPubkey = some voteAccount)

include cached

/-- With a cached vote account, what is redeemed is what was calculated. -/
theorem redeemDelegationRewards_of_cached :
    params.redeemDelegationRewards rewardedEpoch pointValue delegation =
      (calculateStakeRewards params.stakeHistory rewardedEpoch pointValue delegation.2.stake
        voteAccount.voteStateView).map (Option.map (DelegationRewards.of delegation voteAccount)) := by
  simp only [redeemDelegationRewards, cached, redeemRewards, StakeAccount.stakeState, redeemStakeRewards]
  cases calculateStakeRewards params.stakeHistory rewardedEpoch pointValue delegation.2.stake
    voteAccount.voteStateView with
  | error panic => rfl
  | ok result =>
    cases result with
    | none => rfl
    | some => rfl

theorem delegationPoints_of_cached :
    params.delegationPoints delegation = (calculateStakePointsAndCredits params.stakeHistory delegation.2.stake
        voteAccount.voteStateView).points := by
  simp [delegationPoints, cached, voteAccount.owned, calculatePoints, StakeAccount.stakeState, Except.toOption]

end

/-- No product of points and rewards that is calculated overflows. -/
def ProductsFit (params : EpochRewardCalculateParamInfo) (rewardedEpoch : Epoch) (pointValue : PointValue) : Prop :=
  ∀ delegation ∈ params.stakeDelegations, ∀ voteAccount,
    params.cachedVoteAccounts.lookup delegation.2.delegation.voterPubkey = some voteAccount →
    forceCreditsUpdate params.stakeHistory rewardedEpoch pointValue delegation.2.stake
      voteAccount.voteStateView = false →
    (calculateStakePointsAndCredits params.stakeHistory delegation.2.stake voteAccount.voteStateView).points *
      pointValue.rewards < 2 ^ 128

/-- What is redeemed for a delegation, without a panic, is at most its share of the rewards. -/
theorem redeemDelegationRewards_ok (mem : delegation ∈ params.stakeDelegations)
    (fits : pointValue.rewards < 2 ^ 64) (products : params.ProductsFit rewardedEpoch pointValue)
    (share : params.delegationPoints delegation ≤ pointValue.points) :
    ∃ result, params.redeemDelegationRewards rewardedEpoch pointValue delegation = .ok result ∧
      paid result ≤ proRata (params.delegationPoints delegation) pointValue.rewards pointValue.points := by
  cases cached : params.cachedVoteAccounts.lookup delegation.2.delegation.voterPubkey with
  | none => exact ⟨none, redeemDelegationRewards_of_absent cached, Nat.zero_le _⟩
  | some voteAccount =>
    rw [delegationPoints_of_cached cached] at share ⊢
    obtain ⟨result, returned, worth⟩ :=
      calculateStakeRewards_ok fits share (products delegation mem voteAccount cached)
    rw [redeemDelegationRewards_of_cached cached, returned]
    refine ⟨result.map (DelegationRewards.of delegation voteAccount), rfl, ?_⟩
    cases result with
    | none => exact Nat.zero_le _
    | some calculated => exact worth calculated rfl

end EpochRewardCalculateParamInfo

end

open Lib Payout.Runtime List PartitionedStakeReward Prod PartitionedStakeRewards

variable {reward : PartitionedStakeReward} {status : StartBlockHeightAndPartitionedRewards}
  {partitionOf : Pubkey → Nat} {numPartitions partition : Nat} {account : StakeAccount}

/-! ### Hashing -/

/-- The rewards that were computed: the places of the vector that are not empty. -/
def PartitionedStakeRewards.computed (stakeRewards : PartitionedStakeRewards) : List PartitionedStakeReward :=
  stakeRewards.rewards.reduceOption

/-- The rewards of one partition. -/
def inPartition (partitionOf : Pubkey → Nat) (partition : Nat) (rewards : List PartitionedStakeReward) :
    List PartitionedStakeReward :=
  rewards.filter fun reward => partitionOf reward.stakePubkey = partition

theorem map_snd_enumeratedRewardsIter (stakeRewards : PartitionedStakeRewards) :
    stakeRewards.enumeratedRewardsIter.map snd = stakeRewards.computed := by
  have second : (fun place : Option PartitionedStakeReward × Nat =>
      (place.1.map fun reward => (place.2, reward)).map snd) = id ∘ fst := by
    funext ⟨reward, index⟩
    cases reward <;> rfl
  unfold enumeratedRewardsIter computed reduceOption
  rw [map_filterMap, second, ← filterMap_map, zipIdx_map_fst]

theorem getElem?_of_mem_enumeratedRewardsIter {stakeRewards : PartitionedStakeRewards}
    (mem : place ∈ stakeRewards.enumeratedRewardsIter) : stakeRewards.rewards[place.1]? = some (some place.2) := by
  obtain ⟨⟨_, _⟩, found, same⟩ := mem_filterMap.mp mem
  obtain ⟨_, rfl, rfl⟩ := Option.map_eq_some_iff.mp same
  exact mem_zipIdx_iff_getElem?.mp found

/-- The indices of the places that hash to each partition. -/
def partitionTable (partitionOf : Pubkey → Nat) (numPartitions : Nat)
    (places : List (Nat × PartitionedStakeReward)) : List (List Nat) :=
  (List.range numPartitions).map fun partition =>
    (places.filter fun place => partitionOf place.2.stakePubkey = partition).map Prod.fst

@[simp] theorem length_partitionTable (partitionOf numPartitions places) :
    (partitionTable partitionOf numPartitions places).length = numPartitions := by
  simp [partitionTable]

theorem pushIndex_partitionTable (lt : ∀ pubkey, partitionOf pubkey < numPartitions) (places place) :
    pushIndex partitionOf (partitionTable partitionOf numPartitions places) place =
      .ok (partitionTable partitionOf numPartitions (places ++ [place])) := by
  simp only [pushIndex, length_partitionTable, lt, if_true, Except.ok.injEq]
  apply ext_getElem?
  intro partition
  rw [getElem?_modify]
  simp only [partitionTable, getElem?_map]
  rcases lt_or_ge partition numPartitions with inside | env
  · rw [getElem?_range inside]
    by_cases same : partitionOf place.2.stakePubkey = partition
    · simp [same]
    · simp [same]
  · rw [getElem?_eq_none (by simpa using env)]
    simp

/-- Every reward is put into the partition that its stake account hashes to. -/
theorem hashRewardsIntoPartitions_ok
    (lt : ∀ pubkey, env.hashAddressToPartition numPartitions parentBlockhash pubkey < numPartitions) (stakeRewards) :
    hashRewardsIntoPartitions env stakeRewards parentBlockhash numPartitions =
      .ok (partitionTable (env.hashAddressToPartition numPartitions parentBlockhash) numPartitions
        stakeRewards.enumeratedRewardsIter) := by
  have pushed : ∀ places done : List (Nat × PartitionedStakeReward),
      places.foldlM (pushIndex (env.hashAddressToPartition numPartitions parentBlockhash))
        (partitionTable (env.hashAddressToPartition numPartitions parentBlockhash) numPartitions done) =
        .ok (partitionTable (env.hashAddressToPartition numPartitions parentBlockhash) numPartitions
          (done ++ places)) := by
    intro places
    induction places with
    | nil => intro done; simp [pure, Except.pure]
    | cons place rest ih =>
      intro done
      rw [foldlM_cons, pushIndex_partitionTable lt]
      exact (ih (done ++ [place])).trans (by rw [append_assoc]; rfl)
  have empty : replicate numPartitions [] =
      partitionTable (env.hashAddressToPartition numPartitions parentBlockhash) numPartitions [] := by
    simp [partitionTable, map_const']
  unfold hashRewardsIntoPartitions
  rw [empty]
  exact pushed _ []

/-! ### Paying -/

/-- An account with a reward in it. -/
def StakeReward.of (account : StakeAccount) (reward : PartitionedStakeReward) : StakeReward :=
  { stakePubkey := reward.stakePubkey
    stakeRewardInfo :=
      { rewardType := .staking
        lamports := reward.stakeReward
        postBalance := account.lamports + reward.stakeReward
        commission := some reward.commission }
    stakeAccount := { account with lamports := account.lamports + reward.stakeReward, stake := reward.stake } }

section Pay

variable (env : Outside) (accounts : Store Pubkey StakeAccount)

/-- Whether an account can take a reward: its balance does not overflow and its data is large enough. -/
def Takes (account : StakeAccount) (reward : PartitionedStakeReward) : Prop :=
  account.lamports + reward.stakeReward < 2 ^ 64 ∧
    env.serializedSize (.stake account.metadata reward.stake account.stakeFlags) ≤ account.dataLen

instance (account : StakeAccount) (reward : PartitionedStakeReward) : Decidable (Takes env account reward) :=
  inferInstanceAs (Decidable (_ ∧ _))

variable (reward : PartitionedStakeReward)

/-- The account of a reward with the reward in it, unless it cannot take it. -/
def credited : Option StakeReward :=
  (accounts.lookup reward.stakePubkey).bind fun account =>
    if Takes env account reward then some (.of account reward) else none

/-- How much of a reward is credited: all of it, or nothing. -/
def creditedAmount : Nat :=
  if (credited env accounts reward).isSome then reward.stakeReward else 0

/-- How much of a reward is burned: what is not credited. -/
def burnedAmount : Nat :=
  if (credited env accounts reward).isSome then 0 else reward.stakeReward

/-- A reward that was computed for the account as it is. The delegation overflows only if the balance does, and the
    reward fits into the record that is kept of it. -/
def Payable : Prop :=
  ∃ account, accounts.lookup reward.stakePubkey = some account ∧
    reward.stake.delegation.stake = wrappingAdd 64 account.stake.delegation.stake reward.stakeReward ∧
    (account.lamports + reward.stakeReward < 2 ^ 64 → account.stake.delegation.stake + reward.stakeReward < 2 ^ 64) ∧
    reward.stakeReward < 2 ^ 63

end Pay

section

variable {env : Outside} {accounts : Store Pubkey StakeAccount}

theorem sum_creditedAmount_add_burnedAmount (env accounts) (rewards : List PartitionedStakeReward) :
    (rewards.map (creditedAmount env accounts)).sum + (rewards.map (burnedAmount env accounts)).sum =
      (rewards.map stakeReward).sum := by
  rw [← sum_map_add]
  congr 2
  funext reward
  unfold creditedAmount burnedAmount
  split <;> simp

theorem credited_eq_some {stakeReward : StakeReward} :
    credited env accounts reward = some stakeReward ↔
      ∃ account, accounts.lookup reward.stakePubkey = some account ∧ Takes env account reward ∧
        .of account reward = stakeReward := by
  simp only [credited, Option.bind_eq_some_iff, Option.ite_none_right_eq_some, Option.some.injEq]

theorem credited_stakePubkey {stakeReward : StakeReward} (paid : credited env accounts reward = some stakeReward) :
    stakeReward.stakePubkey = reward.stakePubkey := by
  obtain ⟨_, -, -, rfl⟩ := credited_eq_some.mp paid
  rfl

theorem buildUpdatedStakeReward_of_takes (found : accounts.lookup reward.stakePubkey = some account)
    (takes : Takes env account reward)
    (same : saturatingAdd 64 account.stake.delegation.stake reward.stakeReward = reward.stake.delegation.stake)
    (fits : reward.stakeReward < 2 ^ 63) :
    buildUpdatedStakeReward env accounts reward = .ok (.ok (.of account reward)) := by
  simp only [buildUpdatedStakeReward, found, checkedAdd_eq_some.mpr ⟨takes.1, rfl⟩]
  rw [if_neg (Nat.not_lt.mpr takes.2)]
  simp only [ok_iffs, not_le, ne_eq]
  exact ⟨same, fits, rfl⟩

theorem buildUpdatedStakeReward_of_not_takes (found : accounts.lookup reward.stakePubkey = some account)
    (takes : ¬ Takes env account reward)
    (same : account.lamports + reward.stakeReward < 2 ^ 64 →
      saturatingAdd 64 account.stake.delegation.stake reward.stakeReward = reward.stake.delegation.stake) :
    ∃ error, buildUpdatedStakeReward env accounts reward = .ok (.error error) := by
  by_cases balance : account.lamports + reward.stakeReward < 2 ^ 64
  · have small : account.dataLen < env.serializedSize (.stake account.metadata reward.stake account.stakeFlags) :=
      not_le.mp fun large => takes ⟨balance, large⟩
    refine ⟨.unableToSetState, ?_⟩
    simp only [buildUpdatedStakeReward, found, checkedAdd_eq_some.mpr ⟨balance, rfl⟩]
    rw [if_pos small]
    simp only [bind_ok_iff, rejectIf_eq_ok, exists_const, ne_eq, not_not]
    exact ⟨same balance, rfl⟩
  · refine ⟨.arithmeticOverflow, ?_⟩
    have overflow : checkedAdd 64 account.lamports reward.stakeReward = none := if_neg balance
    simp only [buildUpdatedStakeReward, found, overflow]

theorem payStakeReward_ok (payable : Payable accounts reward)
    (small : results.lamportsDistributed + results.lamportsBurned + reward.stakeReward < 2 ^ 64) :
    payStakeReward env accounts results reward = .ok
        { lamportsDistributed := results.lamportsDistributed + creditedAmount env accounts reward
          lamportsBurned := results.lamportsBurned + burnedAmount env accounts reward
          updatedStakeRewards :=
            results.updatedStakeRewards ++ (credited env accounts reward).toList } := by
  obtain ⟨account, found, stake, covered, fits⟩ := payable
  have same : account.lamports + reward.stakeReward < 2 ^ 64 →
      saturatingAdd 64 account.stake.delegation.stake reward.stakeReward = reward.stake.delegation.stake := by
    intro balance
    rw [stake, saturatingAdd_of_lt (covered balance), wrappingAdd_of_lt (covered balance)]
  unfold payStakeReward creditedAmount burnedAmount credited
  rw [found]
  by_cases takes : Takes env account reward
  · have distributed : wrappingAdd 64 results.lamportsDistributed reward.stakeReward =
        results.lamportsDistributed + reward.stakeReward := wrappingAdd_of_lt (by omega)
    rw [buildUpdatedStakeReward_of_takes found takes (same takes.1) fits, Option.bind_some, if_pos takes]
    simp only [bind_ok_iff, Option.isSome_some, if_true]
    exact ⟨_, rfl, by rw [distributed]; rfl⟩
  · have burned : wrappingAdd 64 results.lamportsBurned reward.stakeReward =
        results.lamportsBurned + reward.stakeReward := wrappingAdd_of_lt (by omega)
    obtain ⟨_, built⟩ := buildUpdatedStakeReward_of_not_takes found takes same
    rw [built, Option.bind_some, if_neg takes]
    simp only [bind_ok_iff, Option.isSome_none, Option.toList_none, append_nil]
    exact ⟨_, rfl, by rw [burned]; rfl⟩

theorem payStakeRewards_ok {rewards : List PartitionedStakeReward}
    (payable : ∀ reward ∈ rewards, Payable accounts reward)
    (small : results.lamportsDistributed + results.lamportsBurned + (rewards.map stakeReward).sum < 2 ^ 64) :
    rewards.foldlM (payStakeReward env accounts) results = .ok
        { lamportsDistributed :=
            results.lamportsDistributed + (rewards.map (creditedAmount env accounts)).sum
          lamportsBurned := results.lamportsBurned + (rewards.map (burnedAmount env accounts)).sum
          updatedStakeRewards :=
            results.updatedStakeRewards ++ rewards.filterMap (credited env accounts) } := by
  induction rewards generalizing results with
  | nil => simp [pure, Except.pure]
  | cons reward rest ih =>
    rw [map_cons, sum_cons] at small
    have one : creditedAmount env accounts reward + burnedAmount env accounts reward = reward.stakeReward := by
      simpa using sum_creditedAmount_add_burnedAmount env accounts [reward]
    rw [foldlM_cons, payStakeReward_ok (payable reward mem_cons_self) (by omega)]
    refine (ih (fun later mem => payable later (mem_cons_of_mem _ mem)) ?_).trans ?_
    · simp only
      omega
    · simp only [map_cons, sum_cons, Nat.add_assoc, append_assoc]
      cases paid : credited env accounts reward with
      | none => simp [paid]
      | some => simp [paid]

/-- The rewards at the places of a list are the rewards of the list. -/
theorem foldlM_rewardAt {places : List (Nat × PartitionedStakeReward)}
    (held : ∀ place ∈ places, status.allStakeRewards.rewards[place.1]? = some (some place.2))
    (pay : β → PartitionedStakeReward → Except RewardsPanic β) (results : β) :
    (places.map fst).foldlM (fun results index => do pay results (← status.rewardAt index)) results =
      (places.map snd).foldlM pay results := by
  induction places generalizing results with
  | nil => rfl
  | cons place rest ih =>
    have reward : status.rewardAt place.1 = .ok place.2 := by
      simp only [StartBlockHeightAndPartitionedRewards.rewardAt, held place mem_cons_self]
      rfl
    rw [map_cons, map_cons, foldlM_cons, foldlM_cons, reward]
    congr 1
    funext next
    exact ih (fun later mem => held later (mem_cons_of_mem _ mem)) next

/-- The block of a partition stores the rewards that hash to it. -/
theorem storeStakeAccountsInPartition_ok {bank : Bank} (inside : partition < numPartitions)
    (table : status.partitionIndices =
      partitionTable partitionOf numPartitions status.allStakeRewards.enumeratedRewardsIter)
    (payable : ∀ reward ∈ inPartition partitionOf partition status.allStakeRewards.computed,
      Payable bank.stakeDelegations reward)
    (small : ((inPartition partitionOf partition status.allStakeRewards.computed).map stakeReward).sum < 2 ^ 64) :
    bank.storeStakeAccountsInPartition env status partition =
      .ok (bank.storeStakeAccounts ((inPartition partitionOf partition status.allStakeRewards.computed).filterMap
          (credited env bank.stakeDelegations)),
        { lamportsDistributed :=
            ((inPartition partitionOf partition status.allStakeRewards.computed).map
              (creditedAmount env bank.stakeDelegations)).sum
          lamportsBurned :=
            ((inPartition partitionOf partition status.allStakeRewards.computed).map
              (burnedAmount env bank.stakeDelegations)).sum
          updatedStakeRewards :=
            (inPartition partitionOf partition status.allStakeRewards.computed).filterMap
              (credited env bank.stakeDelegations) }) := by
  let places := status.allStakeRewards.enumeratedRewardsIter.filter fun place =>
    partitionOf place.2.stakePubkey = partition
  have indices : status.partitionIndices[partition]? = some (places.map fst) := by
    rw [table, partitionTable, getElem?_map, getElem?_range inside]
    rfl
  have rewards : places.map snd = inPartition partitionOf partition status.allStakeRewards.computed := by
    rw [← map_snd_enumeratedRewardsIter, inPartition, filter_map]
    rfl
  have held : ∀ place ∈ places, status.allStakeRewards.rewards[place.1]? = some (some place.2) :=
    fun place mem => getElem?_of_mem_enumeratedRewardsIter (mem_of_mem_filter mem)
  have paid : (inPartition partitionOf partition status.allStakeRewards.computed).foldlM
      (payStakeReward env bank.stakeDelegations)
        { lamportsDistributed := 0, lamportsBurned := 0, updatedStakeRewards := [] } = _ :=
    payStakeRewards_ok payable (by simpa using small)
  simp only [Nat.zero_add, nil_append] at paid
  rw [← rewards] at paid ⊢
  have folded := (foldlM_rewardAt held (payStakeReward env bank.stakeDelegations) _).trans paid
  simp only [Bank.storeStakeAccountsInPartition, ok_iffs]
  exact ⟨_, indices, _, folded, rfl⟩

end

end Payout.Rewards
