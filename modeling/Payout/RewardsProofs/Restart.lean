/-
Purpose: Restarting inside of a reward interval. A bank that is restored from a snapshot calculates the stake rewards
  anew, from the sysvar and from accounts that are partly paid.
-/
import Payout.RewardsProofs.Carried
import Payout.RewardsProofs.EpochBoundary

namespace Payout.Rewards

open Lib Payout.Runtime StakeProgram List PartitionedStakeReward EpochRewardCalculateParamInfo Bank
open Option (map_eq_some_iff map_some)
open CalculatedStakeRewards

variable {redeemed : List (Option DelegationRewards)} {delegation : Pubkey × StakeAccount}
  {params other : EpochRewardCalculateParamInfo} {status : StartBlockHeightAndRewards}
  {result one two : Option CalculatedStakeRewards} {voteAccount : VoteAccount}

/-! ### One stake, calculated twice -/

section Stake

variable (stakeHistory : StakeHistory) (pointValue : PointValue) (stake : Stake) (voteState : VoteStateView)

/-- The credits of a stake are moved on, and nothing is paid. -/
def movedOn : CalculatedStakeRewards :=
  { stakerRewards := 0
    voterRewards := 0
    newCreditsObserved := (calculateStakePointsAndCredits stakeHistory stake voteState).newCreditsObserved }

/-- What the vote account takes all of: the share of the stake, if it is at least a lamport. -/
def TakenByVoter : Prop :=
  let product := (calculateStakePointsAndCredits stakeHistory stake voteState).points * pointValue.rewards
  100 ≤ voteState.commission ∧ product < 2 ^ 128 ∧ 0 < product / pointValue.points ∧
    product / pointValue.points < 2 ^ 64

instance : Decidable (TakenByVoter stakeHistory pointValue stake voteState) :=
  inferInstanceAs (Decidable (_ ∧ _ ∧ _ ∧ _))

/-- Whether a stake is treated alike when two epochs are taken for the rewarded one: it was activated in both or in
    neither, it saw more credits than there are, or its vote account takes everything. -/
def TreatedAlike (rewardedEpoch otherEpoch : Epoch) : Prop :=
  (stake.delegation.activationEpoch = rewardedEpoch ↔ stake.delegation.activationEpoch = otherEpoch) ∨
    voteState.credits < stake.creditsObserved ∨ TakenByVoter stakeHistory pointValue stake voteState

instance (rewardedEpoch otherEpoch : Epoch) :
    Decidable (TreatedAlike stakeHistory pointValue stake voteState rewardedEpoch otherEpoch) :=
  inferInstanceAs (Decidable (_ ∨ _ ∨ _))

end Stake

section Twice

variable {stakeHistory : StakeHistory} {pointValue : PointValue} {stake : Stake} {voteState : VoteStateView}
  {rewardedEpoch : Epoch}

theorem calculateStakeRewards_eq : calculateStakeRewards stakeHistory rewardedEpoch pointValue stake voteState =
    if forceCreditsUpdate stakeHistory rewardedEpoch pointValue stake voteState then
      .ok (some (movedOn stakeHistory stake voteState))
    else shareOut stakeHistory pointValue stake voteState := rfl

theorem forceCreditsUpdateWithSkippedReward_iff :
    (calculateStakePointsAndCredits stakeHistory stake voteState).forceCreditsUpdateWithSkippedReward = true ↔
      voteState.credits < stake.creditsObserved := by
  unfold calculateStakePointsAndCredits
  split_ifs with fewer same
  · simp [fewer]
  · simp [fewer]
  · simp [fewer]

theorem forceCreditsUpdate_iff (enabled : pointValue.rewards ≠ 0) :
    forceCreditsUpdate stakeHistory rewardedEpoch pointValue stake voteState = true ↔
      stake.delegation.activationEpoch = rewardedEpoch ∨ voteState.credits < stake.creditsObserved := by
  unfold forceCreditsUpdate
  rw [if_neg enabled]
  split_ifs with activated
  · simp [activated]
  · rw [forceCreditsUpdateWithSkippedReward_iff]
    simp [activated]

/-- Both sides of a split get something, or nothing is paid; the staker gets nothing of a whole share only at a
    full commission. -/
theorem shareOut_unpaid_iff (points : pointValue.points ≠ 0) :
    (∃ calculated, shareOut stakeHistory pointValue stake voteState = .ok (some calculated) ∧
      calculated.stakerRewards = 0) ↔ TakenByVoter stakeHistory pointValue stake voteState := by
  unfold shareOut TakenByVoter
  generalize calculateStakePointsAndCredits stakeHistory stake voteState = earned
  by_cases none : earned.points = 0
  · simp [none]
  simp only [if_neg none, if_neg points, ok_iffs]
  constructor
  · rintro ⟨calculated, ⟨_, ⟨fits, rfl⟩, _, ⟨-, rfl⟩, _, ⟨small, rfl⟩, returned⟩, unpaid⟩
    split_ifs at returned with zero
    · cases returned
    simp only [bind_ok_iff, Prod.exists] at returned
    obtain ⟨voterRewards, stakerRewards, isSplit, split, returned⟩ := returned
    split_ifs at returned with unfair
    · cases returned
    cases returned
    refine ⟨?_, fits, Nat.pos_of_ne_zero zero, small⟩
    -- A split with an empty side was excluded, so all went to one side, and it was the voter's.
    unfold commissionSplit at split
    split at split
    · cases split
      exact absurd unpaid zero
    · rename_i full
      omega
    · simp only [ok_iffs, Prod.mk.injEq] at split
      obtain ⟨_, -, _, -, _, -, -, -, rfl⟩ := split
      exact absurd ⟨.inr unpaid, rfl⟩ unfair
  · rintro ⟨full, fits, pos, small⟩
    refine ⟨
      { stakerRewards := 0
        voterRewards := earned.points * pointValue.rewards / pointValue.points
        newCreditsObserved := earned.newCreditsObserved },
      ⟨_, ⟨fits, rfl⟩, _, ⟨points, rfl⟩, _, ⟨small, rfl⟩, ?_⟩, rfl⟩
    rw [if_neg pos.ne', bind_ok_iff]
    refine ⟨(earned.points * pointValue.rewards / pointValue.points, 0, false), ?_, by simp⟩
    rw [commissionSplit, min_eq_right full]
    rfl

theorem shareOut_newCreditsObserved
    (shared : shareOut stakeHistory pointValue stake voteState = .ok (some calculated)) :
    calculated.newCreditsObserved = (movedOn stakeHistory stake voteState).newCreditsObserved := by
  simp only [shareOut, movedOn] at shared ⊢
  generalize calculateStakePointsAndCredits stakeHistory stake voteState = earned at shared ⊢
  split_ifs at shared
  · cases shared
  · cases shared
  simp only [bind_ok_iff] at shared
  obtain ⟨_, -, _, -, _, -, shared⟩ := shared
  split_ifs at shared
  · cases shared
  simp only [bind_ok_iff, Prod.exists] at shared
  obtain ⟨_, _, _, -, shared⟩ := shared
  split_ifs at shared
  · cases shared
  · cases shared
    rfl

/-- What an account is stored with. -/
def CalculatedStakeRewards.stored (calculated : CalculatedStakeRewards) : Nat × Nat :=
  (calculated.stakerRewards, calculated.newCreditsObserved)

/-- A share is stored as if the credits were only moved on exactly if the staker gets nothing of it. -/
theorem shareOut_stored_iff :
    (∃ shared, shareOut stakeHistory pointValue stake voteState = .ok shared ∧
      shared.map stored = some (movedOn stakeHistory stake voteState).stored) ↔
    ∃ calculated, shareOut stakeHistory pointValue stake voteState = .ok (some calculated) ∧
      calculated.stakerRewards = 0 := by
  constructor
  · rintro ⟨_, shared, same⟩
    obtain ⟨calculated, rfl, alike⟩ := map_eq_some_iff.mp same
    exact ⟨calculated, shared, congrArg Prod.fst alike⟩
  · rintro ⟨calculated, shared, unpaid⟩
    exact ⟨_, shared, congrArg some (Prod.ext unpaid (shareOut_newCreditsObserved shared))⟩

/-- With another rewarded epoch, a stake is stored with the same exactly if it is treated alike. -/
theorem calculateStakeRewards_agree_iff (enabled : pointValue.rewards ≠ 0) (points : pointValue.points ≠ 0)
    (calculated : calculateStakeRewards stakeHistory rewardedEpoch pointValue stake voteState = .ok result) :
    (∃ other, calculateStakeRewards stakeHistory otherEpoch pointValue stake voteState = .ok other ∧
      other.map stored = result.map stored) ↔
        TreatedAlike stakeHistory pointValue stake voteState rewardedEpoch otherEpoch := by
  by_cases same : (forceCreditsUpdate stakeHistory rewardedEpoch pointValue stake voteState = true ↔
      forceCreditsUpdate stakeHistory otherEpoch pointValue stake voteState = true)
  · -- The two calculations are the same.
    have equal := calculated
    rw [calculateStakeRewards_eq, Bool.eq_iff_iff.mpr same, ← calculateStakeRewards_eq] at equal
    refine iff_of_true ⟨result, equal, rfl⟩ ?_
    rw [forceCreditsUpdate_iff enabled, forceCreditsUpdate_iff enabled] at same
    tauto
  · -- One of them moves the credits on, and the other one shares the rewards out.
    have forced := same
    rw [forceCreditsUpdate_iff enabled, forceCreditsUpdate_iff enabled] at same
    have alike : TreatedAlike stakeHistory pointValue stake voteState rewardedEpoch otherEpoch ↔
        TakenByVoter stakeHistory pointValue stake voteState := by
      unfold TreatedAlike
      tauto
    rw [alike, ← shareOut_unpaid_iff points, ← shareOut_stored_iff]
    rw [calculateStakeRewards_eq] at calculated ⊢
    by_cases here : forceCreditsUpdate stakeHistory rewardedEpoch pointValue stake voteState = true
    · rw [if_pos here] at calculated
      rw [if_neg (fun there => forced (iff_of_true here there))]
      cases calculated
      rfl
    · rw [if_neg here] at calculated
      rw [if_pos (by_contra fun there => forced (iff_of_false here there)), calculated]
      simp [eq_comm]

/-- With all credits observed, nothing is left to be calculated. -/
theorem calculateStakeRewards_of_observed (observed : voteState.credits ≤ stake.creditsObserved) :
    ∃ result, calculateStakeRewards stakeHistory rewardedEpoch pointValue stake voteState = .ok result := by
  have points : (calculateStakePointsAndCredits stakeHistory stake voteState).points = 0 := by
    unfold calculateStakePointsAndCredits
    split_ifs with fewer same
    · rfl
    · rfl
    · omega
  rw [calculateStakeRewards_eq]
  split_ifs
  · exact ⟨_, rfl⟩
  · refine ⟨none, ?_⟩
    rw [shareOut]
    exact if_pos points

/-- A stake that was paid has observed all credits of its vote account. -/
theorem credits_le_newCreditsObserved :
    voteState.credits ≤ (calculateStakePointsAndCredits stakeHistory stake voteState).newCreditsObserved := by
  -- Along the epochs on record, the credits observed only grow.
  have grows : ∀ (items : List EpochCreditsItem) (earned : Nat × Nat),
      earned.2 ≤ (items.foldl (earnPoints stakeHistory stake) earned).2 ∧
        ∀ item ∈ items, item.credits ≤ (items.foldl (earnPoints stakeHistory stake) earned).2 := by
    intro items
    induction items with
    | nil => exact fun earned => ⟨le_refl _, nofun⟩
    | cons first rest ih =>
      intro earned
      obtain ⟨more, others⟩ := ih (earnPoints stakeHistory stake earned first)
      refine ⟨(le_max_left _ _).trans more, ?_⟩
      intro item mem
      rcases mem_cons.mp mem with rfl | mem
      · exact (le_max_right _ _).trans more
      · exact others item mem
  unfold calculateStakePointsAndCredits
  split_ifs with fewer same
  · exact le_refl _
  · exact same.le
  cases last : voteState.epochCredits.getLast? with
  | none => simp [VoteStateView.credits, last]
  | some item =>
    have value : voteState.credits = item.credits := by simp [VoteStateView.credits, last]
    rw [value]
    exact (grows voteState.epochCredits (0, stake.creditsObserved)).2 item (mem_of_getLast? last)

end Twice

/-! ### What a status pays -/

/-- What a block stores for a reward: the account, the stake and the lamports. -/
def PartitionedStakeReward.entry (reward : PartitionedStakeReward) : Pubkey × Stake × Nat :=
  (reward.stakePubkey, reward.stake, reward.stakeReward)

/-- What the block of a height is to store. -/
def StartBlockHeightAndPartitionedRewards.entriesAt (status : StartBlockHeightAndPartitionedRewards)
    (height : Nat) : List (Pubkey × Stake × Nat) :=
  if status.distributionStartingBlockHeight ≤ height then
    (status.partitionIndices[height - status.distributionStartingBlockHeight]?.getD []).filterMap fun index =>
      (status.allStakeRewards.rewards[index]?.join).map PartitionedStakeReward.entry
  else []

/-- What is stored for the rewards that hash to a partition. -/
def entriesIn (partitionOf : Pubkey → Nat) (partition : Nat) (rewards : List PartitionedStakeReward) :
    List (Pubkey × Stake × Nat) :=
  (inPartition partitionOf partition rewards).map entry

/-- The block of a height stores the rewards that hash to its partition. -/
theorem entriesAt_of_table {status : StartBlockHeightAndPartitionedRewards}
    (lt : ∀ pubkey, partitionOf pubkey < numPartitions)
    (table : status.partitionIndices =
      partitionTable partitionOf numPartitions status.allStakeRewards.enumeratedRewardsIter)
    (partition) :
    status.entriesAt (status.distributionStartingBlockHeight + partition) =
      entriesIn partitionOf partition status.allStakeRewards.computed := by
  rw [entriesIn, StartBlockHeightAndPartitionedRewards.entriesAt, if_pos (Nat.le_add_right _ _),
    Nat.add_sub_cancel_left, table, partitionTable, getElem?_map]
  rcases lt_or_ge partition numPartitions with inside | beyond
  · rw [getElem?_range inside, map_some, Option.getD_some, ← map_snd_enumeratedRewardsIter, inPartition,
      filter_map, map_map, filterMap_map]
    have listed : ∀ place ∈ status.allStakeRewards.enumeratedRewardsIter.filter
          (fun place => partitionOf place.2.stakePubkey = partition),
        ((status.allStakeRewards.rewards[place.1]?).join).map entry = some (entry place.2) := by
      intro place mem
      rw [getElem?_of_mem_enumeratedRewardsIter (mem_of_mem_filter mem)]
      rfl
    rw [← filterMap_eq_map]
    exact filterMap_congr listed
  · have none : inPartition partitionOf partition status.allStakeRewards.computed = [] := by
      apply filter_eq_nil_iff.mpr
      intro reward _ here
      have bound := lt reward.stakePubkey
      rw [of_decide_eq_true here] at bound
      omega
    rw [getElem?_eq_none (by simpa using beyond), none]
    rfl

/-! ### Delegations -/

section Delegations

variable {rewardedEpoch : Epoch} {pointValue : PointValue}

/-- What a calculation has for a delegation, if it returns. -/
def EpochRewardCalculateParamInfo.rewardOf (params : EpochRewardCalculateParamInfo) (rewardedEpoch : Epoch)
    (pointValue : PointValue) (delegation : Pubkey × StakeAccount) : Option PartitionedStakeReward :=
  match params.redeemDelegationRewards rewardedEpoch pointValue delegation with
  | .ok result => result.map DelegationRewards.stakeReward
  | .error _ => none

theorem rewardOf_of_ok {result : Option DelegationRewards}
    (redeemed : params.redeemDelegationRewards rewardedEpoch pointValue delegation = .ok result) :
    params.rewardOf rewardedEpoch pointValue delegation = result.map DelegationRewards.stakeReward := by
  rw [rewardOf, redeemed]

theorem rewardOf_stakePubkey (rewarded : params.rewardOf rewardedEpoch pointValue delegation = some reward) :
    reward.stakePubkey = delegation.1 := by
  unfold rewardOf at rewarded
  split at rewarded
  · rename_i result redeemed
    obtain ⟨_, rfl, rfl⟩ := map_eq_some_iff.mp rewarded
    exact (redeemed_stakeReward redeemed).1
  · cases rewarded

/-- The rewards that are computed are those of the delegations, in order. -/
theorem computed_eq_filterMap (delegations)
    (each : List.Forall₂ (fun delegation result =>
      params.redeemDelegationRewards rewardedEpoch pointValue delegation = .ok result) delegations redeemed) :
    (redeemed.map (Option.map DelegationRewards.stakeReward)).reduceOption =
      delegations.filterMap (params.rewardOf rewardedEpoch pointValue) := by
  induction each with
  | nil => rfl
  | @cons delegation result _ _ one _ ih =>
    rw [map_cons, filterMap_cons, rewardOf_of_ok one]
    cases result with
    | none => rw [Option.map_none, reduceOption_cons_of_none, ih]
    | some => rw [map_some, reduceOption_cons_of_some, ih]

end Delegations

/-! ### Entries of delegations -/

section Entries

variable {partitionOf : Pubkey → Nat} {partition : Nat} {delegations others : List (Pubkey × StakeAccount)}
  {reward other : Pubkey × StakeAccount → Option PartitionedStakeReward}

/-- The rewards are those of the accounts that are delegated. -/
def Keyed (reward : Pubkey × StakeAccount → Option PartitionedStakeReward) : Prop :=
  ∀ delegation result, reward delegation = some result → result.stakePubkey = delegation.1

section

variable (keyed : Keyed reward)

include keyed

/-- The entries of a partition are those of the delegations that hash to it. -/
theorem mem_entries_iff {item : Pubkey × Stake × Nat} :
    item ∈ entriesIn partitionOf partition (delegations.filterMap reward) ↔
      ∃ delegation ∈ delegations, partitionOf delegation.1 = partition ∧
        (reward delegation).map entry = some item := by
  constructor
  · intro mem
    obtain ⟨result, inside, rfl⟩ := mem_map.mp mem
    obtain ⟨listed, here⟩ := mem_filter.mp inside
    obtain ⟨delegation, held, rewarded⟩ := mem_filterMap.mp listed
    refine ⟨delegation, held, ?_, by rw [rewarded]; rfl⟩
    rw [← keyed delegation result rewarded]
    exact of_decide_eq_true here
  · rintro ⟨delegation, held, here, entered⟩
    obtain ⟨result, rewarded, rfl⟩ := map_eq_some_iff.mp entered
    refine mem_map_of_mem (mem_filter.mpr ⟨mem_filterMap.mpr ⟨delegation, held, rewarded⟩, ?_⟩)
    rw [keyed delegation result rewarded]
    exact decide_eq_true here

theorem nodup_entries (nodup : (delegations.map Prod.fst).Nodup) :
    (entriesIn partitionOf partition (delegations.filterMap reward)).Nodup := by
  have keys : ((delegations.filterMap reward).map stakePubkey).Nodup :=
    (Store.map_filterMap_sublist keyed delegations).nodup nodup
  apply List.Nodup.of_map Prod.fst
  rw [entriesIn, map_map]
  exact (filter_sublist.map stakePubkey).nodup keys

/-- Two calculations that agree about the delegations of a partition have the same entries for it. -/
theorem entries_perm
    (keyedToo : Keyed other) (nodup : (delegations.map Prod.fst).Nodup) (nodupToo : (others.map Prod.fst).Nodup)
    (members : ∀ delegation : Pubkey × StakeAccount, partitionOf delegation.1 = partition →
      (delegation ∈ delegations ↔ delegation ∈ others))
    (alike : ∀ delegation ∈ delegations, partitionOf delegation.1 = partition →
      (reward delegation).map entry = (other delegation).map entry) :
    (entriesIn partitionOf partition (delegations.filterMap reward)).Perm
      (entriesIn partitionOf partition (others.filterMap other)) := by
  rw [perm_ext_iff_of_nodup (nodup_entries keyed nodup) (nodup_entries keyedToo nodupToo)]
  intro item
  rw [mem_entries_iff keyed, mem_entries_iff keyedToo]
  constructor
  · rintro ⟨delegation, held, here, entered⟩
    exact ⟨delegation, (members delegation here).mp held, here, (alike delegation held here).symm.trans entered⟩
  · rintro ⟨delegation, held, here, entered⟩
    have held := (members delegation here).mpr held
    exact ⟨delegation, held, here, (alike delegation held here).trans entered⟩

end

section

variable (keyed : Keyed reward) (keyedToo : Keyed other) (nodup : (delegations.map Prod.fst).Nodup)
  (perm : ∀ partition, (entriesIn partitionOf partition (delegations.filterMap reward)).Perm
    (entriesIn partitionOf partition (delegations.filterMap other)))
  (held : delegation ∈ delegations)

include keyed keyedToo nodup perm held

theorem entry_of_entries_perm {item : Pubkey × Stake × Nat} (entered : (reward delegation).map entry = some item) :
    (other delegation).map entry = some item := by
  have listed : item ∈ entriesIn partitionOf (partitionOf delegation.1) (delegations.filterMap reward) :=
    (mem_entries_iff keyed).mpr ⟨delegation, held, rfl, entered⟩
  obtain ⟨delegation', held', -, entered'⟩ := (mem_entries_iff keyedToo).mp ((perm _).mem_iff.mp listed)
  -- An entry names its account, and no two delegations are of one account.
  obtain ⟨result, rewarded, rfl⟩ := map_eq_some_iff.mp entered
  obtain ⟨result', rewarded', same⟩ := map_eq_some_iff.mp entered'
  have name : delegation'.1 = delegation.1 := by
    rw [← keyedToo delegation' result' rewarded', ← keyed delegation result rewarded]
    exact congrArg Prod.fst same
  rwa [inj_on_of_nodup_map nodup held' held name] at entered'

/-- Two calculations with the same entries for every partition agree about every delegation. -/
theorem alike_of_entries_perm : (reward delegation).map entry = (other delegation).map entry := by
  apply Option.ext
  intro item
  exact ⟨entry_of_entries_perm keyed keyedToo nodup perm held,
    entry_of_entries_perm keyedToo keyed nodup (fun partition => (perm partition).symm) held⟩

end

end Entries

/-! ### The first calculation and a later one -/

section Alike

variable (env : Outside) (parent : Bank) (block : Block)

/-- The points that the rewards of the epoch are shared out over. -/
def startPoints : Nat := (startParams env parent block).totalPoints % 2 ^ 128

/-- Whether a restart leaves a delegation alone. A delegation without a vote account earns nothing. For the others
    there are points in the epoch, and the delegation is treated alike if the epoch before the new one is taken
    for the one of the parent, unless there are no rewards. -/
def UnaffectedDelegation (delegation : Pubkey × StakeAccount) : Prop :=
  ∀ voteAccount,
    (startVoteAccounts env parent block).lookup delegation.2.delegation.voterPubkey = some voteAccount →
    startPoints env parent block ≠ 0 ∧
      (block.validatorRewards = 0 ∨
        TreatedAlike block.stakeHistory
          { rewards := block.validatorRewards, points := startPoints env parent block }
          delegation.2.stake voteAccount.voteStateView parent.epoch
          (env.getEpoch parent.epochSchedule block.slot - 1))

/-- Whether a restart leaves all delegations alone. -/
def Unaffected : Prop :=
  ∀ delegation ∈ parent.filterStakeDelegations, UnaffectedDelegation env parent block delegation

/-- A delegation is redeemed with the epoch before the new one for the rewarded epoch. -/
def redeemAgain (pointValue : PointValue) (delegation : Pubkey × StakeAccount) :
    Except RewardsPanic (Option DelegationRewards) :=
  (startParams env parent block).redeemDelegationRewards (env.getEpoch parent.epochSchedule block.slot - 1)
    pointValue delegation

/-- What the first block of an epoch calculated, delegation by delegation, and when calculating it again, with the
    epoch before the new one for the rewarded epoch, has the same entry. -/
structure Original (status : StartBlockHeightAndRewards) (pointValue : PointValue)
    (reward : Pubkey × StakeAccount → Option PartitionedStakeReward) : Prop where
  computed : status.computed = parent.filterStakeDelegations.filterMap reward
  keyed : Keyed reward
  observed : ∀ delegation result, reward delegation = some result →
    ∃ voteAccount : VoteAccount,
      (startVoteAccounts env parent block).lookup result.stake.delegation.voterPubkey = some voteAccount ∧
        voteAccount.voteStateView.credits ≤ result.stake.creditsObserved
  alike_iff : ∀ delegation ∈ parent.filterStakeDelegations,
    (∃ result, redeemAgain env parent block pointValue delegation = .ok result ∧
      (result.map DelegationRewards.stakeReward).map entry = (reward delegation).map entry) ↔
      UnaffectedDelegation env parent block delegation

end Alike

/-- The value of a point that the sysvar keeps. -/
def EpochRewards.pointValue (epochRewards : EpochRewards) : PointValue :=
  { rewards := epochRewards.totalRewards, points := epochRewards.totalPoints }

section Calculation

variable {env : Outside} {parent opened : Bank} {block : Block} {splitting : Splitting}

/-- An entry tells what the stake is stored with, and nothing more. -/
theorem entry_eq_iff :
    ((one.map (DelegationRewards.of delegation voteAccount)).map DelegationRewards.stakeReward).map entry =
      ((two.map (DelegationRewards.of delegation voteAccount)).map DelegationRewards.stakeReward).map entry ↔
      one.map stored = two.map stored := by
  cases one with
  | none => cases two <;> simp
  | some =>
    cases two with
    | none => simp
    | some =>
      simp only [map_some, Option.some.injEq, entry, DelegationRewards.of, stored, Prod.mk.injEq, true_and]
      constructor
      · rintro ⟨stake, staker⟩
        exact ⟨staker, congrArg Stake.creditsObserved stake⟩
      · rintro ⟨staker, credits⟩
        rw [staker, credits]
        exact ⟨rfl, rfl⟩

theorem redeemed_entry_iff {again : Except RewardsPanic (Option CalculatedStakeRewards)} :
    (∃ redeemed, again.map (Option.map (DelegationRewards.of delegation voteAccount)) = .ok redeemed ∧
      (redeemed.map DelegationRewards.stakeReward).map entry =
        ((result.map (DelegationRewards.of delegation voteAccount)).map DelegationRewards.stakeReward).map entry) ↔
      ∃ other, again = .ok other ∧ other.map stored = result.map stored := by
  constructor
  · rintro ⟨_, returned, entries⟩
    obtain ⟨other, same, rfl⟩ := map_eq_ok_iff.mp returned
    exact ⟨other, same, entry_eq_iff.mp entries⟩
  · rintro ⟨other, same, stored⟩
    exact ⟨_, map_eq_ok_iff.mpr ⟨other, same, rfl⟩, entry_eq_iff.mpr stored⟩

/-- The stake of a reward has observed the credits of its vote account. -/
theorem rewardOf_observed {result : PartitionedStakeReward}
    (rewarded : params.rewardOf rewardedEpoch pointValue delegation = some result) :
    ∃ voteAccount : VoteAccount,
      params.cachedVoteAccounts.lookup result.stake.delegation.voterPubkey = some voteAccount ∧
        voteAccount.voteStateView.credits ≤ result.stake.creditsObserved := by
  cases cached : params.cachedVoteAccounts.lookup delegation.2.delegation.voterPubkey with
  | none =>
    rw [rewardOf_of_ok (redeemDelegationRewards_of_absent cached)] at rewarded
    cases rewarded
  | some voteAccount =>
    unfold rewardOf at rewarded
    split at rewarded
    · rename_i redeemedResult redeemed
      obtain ⟨_, rfl, rfl⟩ := map_eq_some_iff.mp rewarded
      rw [redeemDelegationRewards_of_cached cached] at redeemed
      obtain ⟨calculated, returned, rfl⟩ := map_map_eq_ok_some.mp redeemed
      refine ⟨voteAccount, cached, ?_⟩
      change _ ≤ calculated.newCreditsObserved
      rw [calculateStakeRewards_eq] at returned
      have credits : calculated.newCreditsObserved =
          (movedOn params.stakeHistory delegation.2.stake voteAccount.voteStateView).newCreditsObserved := by
        split_ifs at returned
        · cases returned
          rfl
        · exact shareOut_newCreditsObserved returned
      rw [credits]
      exact credits_le_newCreditsObserved
    · cases rewarded

/-- Without points, every delegation that has a vote account has an entry when it is calculated again. -/
theorem original_of_no_points (none : startPoints env parent block = 0) (empty : status.computed = []) :
    Original env parent block status { rewards := 0, points := 0 } fun _ => Option.none where
  computed := empty.trans (List.filterMap_eq_nil_iff.mpr fun _ _ => rfl).symm
  keyed := nofun
  observed := nofun
  alike_iff := by
    intro delegation _
    cases cached : (startVoteAccounts env parent block).lookup delegation.2.delegation.voterPubkey with
    | none =>
      refine iff_of_true ⟨_, redeemDelegationRewards_of_absent cached, rfl⟩ ?_
      intro voteAccount found
      cases cached.symm.trans found
    | some voteAccount =>
      refine iff_of_false ?_ fun unaffected => (unaffected voteAccount cached).1 none
      rintro ⟨result, redeemed, entries⟩
      rw [redeemAgain, redeemDelegationRewards_of_cached cached, calculateStakeRewards_eq,
        if_pos (by simp [forceCreditsUpdate])] at redeemed
      cases redeemed
      cases entries

/-- With points, the first block redeemed every delegation with the epoch of its parent. -/
theorem original_of_points (points : startPoints env parent block ≠ 0)
    (all : parent.filterStakeDelegations.mapM ((startParams env parent block).redeemDelegationRewards parent.epoch
      { rewards := block.validatorRewards, points := startPoints env parent block }) = .ok redeemed)
    (computed : status.computed = (redeemed.map (Option.map DelegationRewards.stakeReward)).reduceOption) :
    Original env parent block status
      { rewards := block.validatorRewards, points := startPoints env parent block }
      ((startParams env parent block).rewardOf parent.epoch
        { rewards := block.validatorRewards, points := startPoints env parent block }) where
  computed := computed.trans (computed_eq_filterMap _ (mapM_ok_iff.mp all))
  keyed := fun _ _ => rewardOf_stakePubkey
  observed := fun _ _ => rewardOf_observed
  alike_iff := by
    intro delegation mem
    obtain ⟨_, redeems⟩ := exists_mapM_ok_iff.mp ⟨redeemed, all⟩ delegation mem
    rw [rewardOf_of_ok redeems, redeemAgain]
    cases cached : (startVoteAccounts env parent block).lookup delegation.2.delegation.voterPubkey with
    | none =>
      rw [redeemDelegationRewards_of_absent cached] at redeems ⊢
      cases redeems
      refine iff_of_true ⟨_, rfl, rfl⟩ ?_
      intro voteAccount found
      cases cached.symm.trans found
    | some voteAccount =>
      have unaffected_iff : UnaffectedDelegation env parent block delegation ↔
          (block.validatorRewards = 0 ∨ TreatedAlike block.stakeHistory
            { rewards := block.validatorRewards, points := startPoints env parent block }
            delegation.2.stake voteAccount.voteStateView parent.epoch
            (env.getEpoch parent.epochSchedule block.slot - 1)) := by
        constructor
        · exact fun unaffected => (unaffected voteAccount cached).2
        · intro alike voteAccount' found
          cases cached.symm.trans found
          exact ⟨points, alike⟩
      rw [unaffected_iff]
      rw [redeemDelegationRewards_of_cached cached] at redeems ⊢
      obtain ⟨calculated, returned, rfl⟩ := map_eq_ok_iff.mp redeems
      refine redeemed_entry_iff.trans ?_
      by_cases disabled : block.validatorRewards = 0
      · -- Without rewards, the credits are moved on whatever the epoch.
        refine iff_of_true ⟨calculated, ?_, rfl⟩ (.inl disabled)
        rw [calculateStakeRewards_eq, if_pos (by simp [forceCreditsUpdate, disabled])] at returned ⊢
        exact returned
      · rw [or_iff_right disabled]
        exact calculateStakeRewards_agree_iff disabled points returned

theorem original_of_starting (starting : Starting env parent block splitting opened calculation status sysvar) :
    ∃ reward, Original env parent block status sysvar.epochRewards.pointValue reward := by
  have calculated := starting.calculated
  rw [EpochRewards.pointValue, starting.totalRewards, starting.totalPoints]
  simp only [calculateRewardsForPartitioning,
    calculateValidatorRewards, calculateRewardPointsPartitioned_mod] at calculated
  have computed : status.computed = calculation.stakeRewardCalculation.stakeRewards.computed := by
    rw [StartBlockHeightAndRewards.computed, starting.rewards]
  split_ifs at calculated with points
  · simp only [calculateStakeVoteRewards, ok_iffs] at calculated
    obtain ⟨_, ⟨_, ⟨_, all, rfl⟩, rfl⟩, rfl⟩ := calculated
    exact ⟨_, original_of_points points.ne' all computed⟩
  · cases calculated
    exact ⟨_, original_of_no_points (Nat.eq_zero_of_not_pos points) computed⟩

end Calculation

/-! ### The restart -/

/-- What a bank is going to pay. -/
def Bank.carried (env : Outside) (bank : Bank) : Option StartBlockHeightAndPartitionedRewards :=
  match bank.epochRewardStatus with
  | .active phase => (bank.partitionedRewards env phase).toOption
  | .inactive => none

/-- A bank that was restored from the snapshot of another. The status of the rewards is not in it, and the stores
    may be in another order. -/
structure Restored (bank restored : Bank) : Prop where
  slot : restored.slot = bank.slot
  epoch : restored.epoch = bank.epoch
  schedule : restored.epochSchedule = bank.epochSchedule
  history : restored.stakeHistory = bank.stakeHistory
  minimumForRewards : restored.isStakeMinimumDelegationForRewardsActive = bank.isStakeMinimumDelegationForRewardsActive
  raisedMinimum : restored.isStakeRaiseMinimumDelegationTo1SolActive = bank.isStakeRaiseMinimumDelegationTo1SolActive
  sysvar : restored.epochRewardsAccount = bank.epochRewardsAccount
  delegations : Store.Same restored.stakeDelegations bank.stakeDelegations
  voteAccounts : ∀ epoch accounts, bank.epochStakes.lookup epoch = some accounts →
    ∃ same, restored.epochStakes.lookup epoch = some same ∧ Store.Same same accounts

theorem Restored.refl (bank) : Restored bank bank :=
  ⟨rfl, rfl, rfl, rfl, rfl, rfl, rfl, fun _ => rfl, fun _ accounts found => ⟨accounts, found, fun _ => rfl⟩⟩

/-- Restarting changes no payout: after any blocks of the epoch, while the rewards are active, a restored bank
    calculates the rewards without a panic, and every block to come stores the same entries either way. -/
def RestartsAlike (env : Outside) (opened : Bank) : Prop :=
  ∀ (splitting other : Splitting) (blocks : List Block) (bank restored : Bank),
    (∀ block ∈ blocks, block.Within env opened) →
    descend env splitting blocks opened = .ok bank →
    bank.getEpochRewardsSysvar.active = true → Restored bank restored →
    ∃ carried recalculated rebuilt, bank.carried env = some carried ∧
      restored.recalculatePartitionedRewards env other = .ok recalculated ∧
      recalculated.epochRewardStatus = .active (.distribution rebuilt) ∧
      ∀ height, bank.blockHeight < height → (carried.entriesAt height).Perm (rebuilt.entriesAt height)

theorem mem_filterStakeDelegations_iff {bank : Bank} :
    delegation ∈ bank.filterStakeDelegations ↔
      bank.stakeDelegations.lookup delegation.1 = some delegation.2 ∧
        (bank.isStakeMinimumDelegationForRewardsActive = true →
          max (getMinimumDelegation bank.isStakeRaiseMinimumDelegationTo1SolActive) lamportsPerSol ≤
            delegation.2.delegation.stake) := by
  have listed : delegation ∈ bank.stakeDelegations.entries.map (fun entry => (entry.1, entry.2)) ↔
      bank.stakeDelegations.lookup delegation.1 = some delegation.2 := by
    rw [mem_map]
    constructor
    · rintro ⟨entry, held, rfl⟩
      exact Store.mem_entries_iff.mp held
    · intro found
      exact ⟨⟨delegation.1, delegation.2⟩, Store.mem_entries_iff.mpr found, rfl⟩
  unfold filterStakeDelegations
  split_ifs with active
  · rw [mem_filter, listed]
    simp [active]
  · simp [listed, active]

section Restart

variable {env : Outside} {restored recalculated : Bank} {other : Splitting} {epochRewards : EpochRewards}

/-- A restored bank whose delegations can all be redeemed has their rewards, by partition. -/
theorem recalculatePartitionedRewards_of_redeemed (other) (documented : env.Documented)
    (sysvar : restored.getEpochRewardsSysvar = epochRewards) (pos : 0 < epochRewards.numPartitions)
    (active : epochRewards.active = true) (held : restored.getEpochRewardCalculateParamInfo env = .ok params)
    (returns : ∀ delegation ∈ params.stakeDelegations, ∃ result,
      params.redeemDelegationRewards (restored.epoch - 1) epochRewards.pointValue delegation = .ok result) :
    ∃ rebuilt : StartBlockHeightAndPartitionedRewards,
      restored.recalculatePartitionedRewards env other =
        .ok { restored with epochRewardStatus := .active (.distribution rebuilt) } ∧
      rebuilt.distributionStartingBlockHeight = epochRewards.distributionStartingBlockHeight ∧
      rebuilt.partitionIndices = partitionTable
        (env.hashAddressToPartition epochRewards.numPartitions epochRewards.parentBlockhash)
        epochRewards.numPartitions rebuilt.allStakeRewards.enumeratedRewardsIter ∧
      rebuilt.allStakeRewards.computed =
        params.stakeDelegations.filterMap (params.rewardOf (restored.epoch - 1) epochRewards.pointValue) := by
  obtain ⟨redeemed, all⟩ := exists_mapM_ok_iff.mpr returns
  let stakeRewards : PartitionedStakeRewards :=
    { rewards := redeemed.map (Option.map DelegationRewards.stakeReward)
      numRewards := (accumulate other redeemed).numStakeRewards }
  have hashed := hashRewardsIntoPartitions_ok
    (fun pubkey => documented.hash_lt epochRewards.numPartitions epochRewards.parentBlockhash pubkey pos)
    stakeRewards
  refine ⟨{ distributionStartingBlockHeight := epochRewards.distributionStartingBlockHeight
            allStakeRewards := stakeRewards
            partitionIndices := partitionTable
              (env.hashAddressToPartition epochRewards.numPartitions epochRewards.parentBlockhash)
              epochRewards.numPartitions stakeRewards.enumeratedRewardsIter },
    ?_, rfl, rfl, computed_eq_filterMap _ (mapM_ok_iff.mp all)⟩
  simp only [recalculatePartitionedRewards, recalculateStakeRewards, sysvar, active, if_true, ok_iffs, Prod.exists]
  exact ⟨_, _, ⟨by simp, params, held, _, _, calculateStakeVoteRewards_eq other all, _, hashed, rfl⟩, rfl⟩

/-- A restored bank that calculated the rewards could redeem all delegations. -/
theorem redeemed_of_recalculatePartitionedRewards (sysvar : restored.getEpochRewardsSysvar = epochRewards)
    (active : epochRewards.active = true) (held : restored.getEpochRewardCalculateParamInfo env = .ok params)
    (returned : restored.recalculatePartitionedRewards env other = .ok recalculated) :
    ∀ delegation ∈ params.stakeDelegations, ∃ result, params.redeemDelegationRewards (restored.epoch - 1)
      epochRewards.pointValue delegation = .ok result := by
  simp only [recalculatePartitionedRewards, recalculateStakeRewards, sysvar, active, if_true, ok_iffs, Prod.exists,
    held, exists_eq_left', calculateStakeVoteRewards] at returned
  obtain ⟨_, _, ⟨-, _, _, ⟨redeemed, all, -⟩, -⟩, -⟩ := returned
  exact exists_mapM_ok_iff.mp ⟨redeemed, all⟩

end Restart

section Agreement

variable {env : Outside} {parent opened bank restored : Bank} {block : Block} {splitting other : Splitting}
  {calculation : CalculateValidatorRewardsResult} {sysvar : SysvarAccount} {k : Nat}
  {reward : Pubkey × StakeAccount → Option PartitionedStakeReward}

/-- What a restored bank of the interval reads: the sysvar but for what was distributed, and the vote accounts. -/
structure Reading (env : Outside) (parent : Bank) (block : Block) (sysvar : SysvarAccount) (restored : Bank)
    (epochRewards : EpochRewards) (params : EpochRewardCalculateParamInfo) : Prop where
  epoch : restored.epoch - 1 = env.getEpoch parent.epochSchedule block.slot - 1
  sysvarNow : restored.getEpochRewardsSysvar = epochRewards
  frame : ∃ distributedRewards, epochRewards = { sysvar.epochRewards with distributedRewards }
  held : restored.getEpochRewardCalculateParamInfo env = .ok params
  delegations : params.stakeDelegations = restored.filterStakeDelegations
  redeems : ∀ rewardedEpoch pointValue delegation,
    params.redeemDelegationRewards rewardedEpoch pointValue delegation =
      (startParams env parent block).redeemDelegationRewards rewardedEpoch pointValue delegation

variable (documented : env.Documented)
  (starting : Starting env parent block splitting opened calculation status sysvar)

section

variable (carrying : Carrying env opened status sysvar k bank) (restoring : Restored bank restored)

include starting carrying restoring

theorem reading_of_restored :
    ∃ epochRewards params, Reading env parent block sysvar restored epochRewards params := by
  obtain ⟨_, distributedRewards, account⟩ := carrying.account
  have sameEpoch := carrying.sameEpoch
  obtain ⟨accounts, found, same⟩ := restoring.voteAccounts _ _ (by
    rw [sameEpoch.epochStakes]
    exact starting.saved)
  have held : restored.getEpochRewardCalculateParamInfo env = .ok
      { stakeHistory := restored.stakeHistory
        stakeDelegations := restored.filterStakeDelegations
        cachedVoteAccounts := accounts } := by
    simp only [getEpochRewardCalculateParamInfo, ok_iffs]
    refine ⟨accounts, ?_, rfl⟩
    rw [restoring.schedule, restoring.slot, sameEpoch.leaderSchedule]
    exact found
  refine ⟨{ sysvar.epochRewards with distributedRewards }, _, ?_, ?_, ⟨_, rfl⟩, held, rfl, ?_⟩
  · rw [restoring.epoch, sameEpoch.epoch, starting.epoch]
  · rw [getEpochRewardsSysvar, restoring.sysvar, account]
    rfl
  · intro rewardedEpoch pointValue delegation
    have history : restored.stakeHistory = block.stakeHistory := by
      rw [restoring.history, sameEpoch.history, starting.history]
    simp only [redeemDelegationRewards, startParams, history, same _]

/-- The accounts of the partitions to come are those of the first block, also in a restored bank. -/
theorem mem_filterStakeDelegations_restored
    (same : bank.stakeDelegations.lookup delegation.1 = opened.stakeDelegations.lookup delegation.1) :
    delegation ∈ parent.filterStakeDelegations ↔ delegation ∈ restored.filterStakeDelegations := by
  rw [← starting.filtered, mem_filterStakeDelegations_iff, mem_filterStakeDelegations_iff,
    restoring.delegations delegation.1, same, restoring.minimumForRewards, restoring.raisedMinimum,
    carrying.sameEpoch.minimumForRewards, carrying.sameEpoch.raisedMinimum]

/-- Where a restart leaves all delegations alone, a restored bank can redeem its own: those that are as they were,
    and those that were paid. -/
theorem redeems_restored (original : Original env parent block status sysvar.epochRewards.pointValue reward)
    (unaffected : Unaffected env parent block) : ∀ delegation ∈ restored.filterStakeDelegations,
      ∃ result, redeemAgain env parent block sysvar.epochRewards.pointValue delegation = .ok result := by
  intro delegation mem
  have found := (mem_filterStakeDelegations_iff.mp mem).1
  rw [restoring.delegations] at found
  rcases carrying.touched _ _ found with unchanged | ⟨paidReward, listed, -, stake⟩
  · have before := (mem_filterStakeDelegations_restored starting carrying restoring
      (found.trans unchanged.symm)).mpr mem
    obtain ⟨result, redeemed, -⟩ := (original.alike_iff delegation before).mpr (unaffected delegation before)
    exact ⟨result, redeemed⟩
  · rw [original.computed] at listed
    obtain ⟨origin, -, rewarded⟩ := mem_filterMap.mp listed
    obtain ⟨voteAccount, cached, observed⟩ := original.observed origin paidReward rewarded
    rw [← stake] at cached observed
    have held : (startParams env parent block).cachedVoteAccounts.lookup
        delegation.2.delegation.voterPubkey = some voteAccount := cached
    rw [redeemAgain, redeemDelegationRewards_of_cached held]
    obtain ⟨result, returned⟩ := calculateStakeRewards_of_observed observed
    exact ⟨_, map_eq_ok_iff.mpr ⟨result, returned, rfl⟩⟩

end

include documented starting

theorem entriesAt_carried (original : Original env parent block status sysvar.epochRewards.pointValue reward)
    (partition) : (status.partitioned env sysvar).entriesAt (opened.blockHeight + 1 + partition) =
      entriesIn (sysvar.partitionOf env) partition (parent.filterStakeDelegations.filterMap reward) := by
  have entries : (status.partitioned env sysvar).entriesAt (status.distributionStartingBlockHeight + partition) = _
      := entriesAt_of_table (SysvarAccount.partitionOf_lt documented starting.pos) rfl partition
  rw [starting.start] at entries
  rw [entries, ← original.computed]
  rfl

theorem carried_of_carrying (carrying : Carrying env opened status sysvar k bank) :
    bank.carried env = some (status.partitioned env sysvar) := by
  obtain ⟨_, active, -, planned⟩ := carrying.plan documented starting.pos rfl rfl
  simp only [carried, active, planned]
  rfl

/-- A restored bank of the interval that can redeem its delegations has the entries of these. -/
theorem rebuilt_of_reading (other) {epochRewards : EpochRewards}
    (reading : Reading env parent block sysvar restored epochRewards params)
    (returns : ∀ delegation ∈ restored.filterStakeDelegations, ∃ result,
      redeemAgain env parent block sysvar.epochRewards.pointValue delegation = .ok result) :
    ∃ rebuilt, restored.recalculatePartitionedRewards env other =
        .ok { restored with epochRewardStatus := .active (.distribution rebuilt) } ∧
      ∀ partition, rebuilt.entriesAt (opened.blockHeight + 1 + partition) =
        entriesIn (sysvar.partitionOf env) partition (restored.filterStakeDelegations.filterMap
          ((startParams env parent block).rewardOf (env.getEpoch parent.epochSchedule block.slot - 1)
            sysvar.epochRewards.pointValue)) := by
  obtain ⟨_, rfl⟩ := reading.frame
  obtain ⟨rebuilt, returned, start, table, computed⟩ :=
    recalculatePartitionedRewards_of_redeemed other documented reading.sysvarNow starting.pos
      starting.active reading.held (by
        intro delegation mem
        rw [reading.redeems, reading.epoch]
        rw [reading.delegations] at mem
        exact returns delegation mem)
  refine ⟨rebuilt, returned, ?_⟩
  intro partition
  have rewards : params.rewardOf (restored.epoch - 1) sysvar.epochRewards.pointValue =
      (startParams env parent block).rewardOf (env.getEpoch parent.epochSchedule block.slot - 1)
        sysvar.epochRewards.pointValue := by
    funext delegation
    simp only [rewardOf, reading.redeems, reading.epoch]
  have entries := entriesAt_of_table (SysvarAccount.partitionOf_lt documented starting.pos) table partition
  rw [start, starting.starts, computed, reading.delegations] at entries
  rw [entries]
  exact congrArg (fun reward => entriesIn (sysvar.partitionOf env) partition
    (restored.filterStakeDelegations.filterMap reward)) rewards

/-- If a restart leaves all delegations alone, restarting changes no payout. -/
theorem restartsAlike_of_unaffected (unaffected : Unaffected env parent block) : RestartsAlike env opened := by
  intro splitting' other blocks bank restored within descended active restoring
  obtain ⟨reward, original⟩ := original_of_starting starting
  rcases carrying_run documented starting.pos starting.start starting.saved blocks within
    (.inl starting.carrying) descended with carrying | closed
  · obtain ⟨epochRewards, params, reading⟩ := reading_of_restored starting carrying restoring
    obtain ⟨rebuilt, returned, entries⟩ := rebuilt_of_reading documented starting other reading
      (redeems_restored starting carrying restoring original unaffected)
    refine ⟨_, _, rebuilt, carried_of_carrying documented starting carrying, returned, rfl, ?_⟩
    intro height later
    rw [carrying.height] at later
    obtain ⟨partition, rfl⟩ : ∃ partition, height = opened.blockHeight + 1 + partition :=
      ⟨height - (opened.blockHeight + 1), by omega⟩
    rw [entriesAt_carried documented starting original, entries]
    apply entries_perm original.keyed (fun _ _ => rewardOf_stakePubkey)
      (nodup_filterStakeDelegations parent) (nodup_filterStakeDelegations restored)
    · intro delegation here
      exact mem_filterStakeDelegations_restored starting carrying restoring
        (carrying.unpaid delegation.1 (by omega))
    · intro delegation mem _
      obtain ⟨_, redeemed, alike⟩ := (original.alike_iff delegation mem).mpr (unaffected delegation mem)
      rw [rewardOf_of_ok redeemed, alike]
  · rw [closed.account] at active
    cases active

/-- If restarting changes no payout right after the first block, it leaves all delegations alone. -/
theorem unaffected_of_restartsAlike (active : opened.getEpochRewardsSysvar.active = true)
    (alike : RestartsAlike env opened) :
    Unaffected env parent block := by
  intro delegation mem
  obtain ⟨reward, original⟩ := original_of_starting starting
  obtain ⟨epochRewards, params, reading⟩ := reading_of_restored starting starting.carrying (Restored.refl opened)
  obtain ⟨carried, recalculated, rebuilt, carries, returned, rebuilds, perm⟩ :=
    alike splitting splitting [] opened opened nofun rfl active (Restored.refl opened)
  have returns : ∀ delegation ∈ opened.filterStakeDelegations,
      ∃ result, redeemAgain env parent block sysvar.epochRewards.pointValue delegation = .ok result := by
    obtain ⟨_, rfl⟩ := reading.frame
    have all := redeemed_of_recalculatePartitionedRewards reading.sysvarNow starting.active reading.held returned
    simp only [reading.redeems, reading.epoch, reading.delegations] at all
    exact all
  obtain ⟨rebuilt', returned', entries⟩ := rebuilt_of_reading documented starting splitting reading returns
  cases returned.symm.trans returned'
  obtain rfl : rebuilt' = rebuilt := by
    injection rebuilds with phase
    injection phase
  cases (carried_of_carrying documented starting starting.carrying).symm.trans carries
  rw [starting.filtered] at returns entries
  obtain ⟨result, redeemed⟩ := returns delegation mem
  refine (original.alike_iff delegation mem).mp ⟨result, redeemed, ?_⟩
  rw [← rewardOf_of_ok redeemed]
  refine (@alike_of_entries_perm _ (sysvar.partitionOf env) _ _ _ original.keyed
    (fun _ _ => rewardOf_stakePubkey) (nodup_filterStakeDelegations parent)
    (fun partition => ?_) mem).symm
  rw [← entriesAt_carried documented starting original, ← entries]
  exact perm _ (by omega)

end Agreement

/-- Restarting inside of the reward interval that a block opened changes no payout exactly if every delegation with a
    vote account is left alone: there are points in the epoch, and, unless there are no rewards, it does not
    matter for the delegation whether the epoch of the parent is the one before the new epoch. -/
theorem restart_agrees_iff {env : Outside} {splitting : Splitting} {parent opened : Bank} {block : Block}
    (documented : env.Documented) (newEpoch : parent.epoch < env.getEpoch parent.epochSchedule block.slot)
    (taken : newFromParent env splitting block parent = .ok opened)
    (active : opened.getEpochRewardsSysvar.active = true) :
    RestartsAlike env opened ↔ Unaffected env parent block := by
  obtain ⟨_, _, _, starting⟩ := starting_of_newFromParent newEpoch taken active
  exact ⟨unaffected_of_restartsAlike documented starting active, restartsAlike_of_unaffected documented starting⟩

namespace Sample

theorem opens_lastBank : (newFromParent env sequential firstBlock
    (lastBank (some settledSysvar))).toOption.isSome = true := by
  decide

/-- The first bank of epoch 2. -/
def openedBank : Bank :=
  (newFromParent env sequential firstBlock (lastBank (some settledSysvar))).toOption.get opens_lastBank

/-- Both delegations have been active since epoch 0, and epoch 2 follows the epoch of the parent. -/
theorem unaffected_lastBank : Unaffected env (lastBank (some settledSysvar)) firstBlock := by
  intro delegation mem voteAccount _
  refine ⟨by decide, .inr (.inl ?_)⟩
  rcases mem_pair.mp mem with rfl | rfl
  · decide
  · decide

/-- A bank whose vote account has gathered no credits. -/
def idleBank : Bank :=
  { lastBank (some settledSysvar) with
    voteAccounts := (∅ : Store Pubkey VoteAccount).insert 1 (voting 30 0) }

/-- A bank with a delegation of epoch 0 and one of epoch 1. -/
def youngBank : Bank :=
  { lastBank (some settledSysvar) with
    stakeDelegations := ((∅ : Store Pubkey StakeAccount).insert 11
      { staked 40 with stake := { delegation := .new 1 40 1, creditsObserved := 0 } }).insert 10 (staked 40) }

/-- The first block after epoch 1 is one of epoch 3. A stake is effective after the epoch it is activated in. -/
def lateBlock : Block :=
  { firstBlock with
    slot := 96
    stakeHistory := fun delegation epoch => if epoch ≤ delegation.activationEpoch then 0 else delegation.stake }

/-- What the block after the first one of an epoch stores, without a restart between the two and with one: the
    accounts with the credits they have observed then and the rewards. -/
def storedNext (parent : Bank) (block : Block) : Option (List (Pubkey × Nat × Nat) × List (Pubkey × Nat × Nat)) := do
  let opened ← (newFromParent env sequential block parent).toOption
  let carried ← opened.carried env
  let recalculated ← (opened.recalculatePartitionedRewards env sequential).toOption
  let view := fun entry : Pubkey × Stake × Nat => (entry.1, entry.2.1.creditsObserved, entry.2.2)
  match recalculated.epochRewardStatus with
  | .active (.distribution rebuilt) =>
    some ((carried.entriesAt (opened.blockHeight + 1)).map view,
      (rebuilt.entriesAt (opened.blockHeight + 1)).map view)
  | _ => none

end Sample

open Sample

/-- The theorem at two delegations of 40 lamports: restarting changes no payout. -/
theorem restart_agrees_sample : RestartsAlike env openedBank :=
  (restart_agrees_iff outside_documented (by decide) (eq_ok_get opens_lastBank) (by decide)).mpr
    unaffected_lastBank

/-- Without points, a restarted bank stores both accounts, where nothing is to be stored. After an epoch without a
    block, it does not store the account that was activated in the epoch of the parent. -/
theorem restart_changes_payouts :
    storedNext idleBank firstBlock = some ([], [(10, 0, 0), (11, 0, 0)]) ∧
      storedNext youngBank lateBlock = some ([(10, 2, 6), (11, 2, 0)], [(10, 2, 6)]) := by
  constructor
  · decide
  · decide

end Payout.Rewards
