/-
Purpose: No more is paid than inflation allows. The points of all delegations are the denominator of every share, so
  the shares, each rounded down, add up to at most the rewards, however the delegations are grouped.
-/
import Payout.RewardsProofs.Partitions

namespace Payout.Rewards

open Lib Payout.Runtime StakeProgram List Option Store EpochRewardCalculateParamInfo Nat VoteRewardsAccounts

variable {params : EpochRewardCalculateParamInfo} {cached : Store Pubkey VoteAccount}
  {redeemed before after : List (Option DelegationRewards)} {bank : Bank} {epochRewards : EpochRewards}
  {votePubkey : Pubkey} {one two : Option VoteReward} {amount distributedRewards rewards commission credits : Nat}
  {pointValue : PointValue} {rewardedEpoch : Epoch} (splitting : Splitting) (voteRewards : VoteRewards)

/-! ### The points of all delegations -/

/-- The points of all delegations, added up without a carry. -/
def EpochRewardCalculateParamInfo.totalPoints (params : EpochRewardCalculateParamInfo) : Nat :=
  (params.stakeDelegations.map params.delegationPoints).sum

/-- However the delegations are grouped, the points are their sum, up to the carry. -/
theorem calculateRewardPointsPartitioned_mod (rewards) :
    params.calculateRewardPointsPartitioned splitting rewards =
      if 0 < params.totalPoints % 2 ^ 128 then some { rewards, points := params.totalPoints % 2 ^ 128 }
      else none := by
  have sum : (splitting.group params.stakeDelegations).eval 0
      (fun sum delegation => wrappingAdd 128 sum (params.delegationPoints delegation)) (wrappingAdd 128) =
        params.totalPoints % 2 ^ 128 := by
    have items : params.totalPoints =
        ((splitting.group params.stakeDelegations).items.map params.delegationPoints).sum := by
      rw [splitting.items_group, totalPoints]
    rw [items]
    apply Grouping.eval_induction
      (P := fun sum before => sum = (before.map params.delegationPoints).sum % 2 ^ 128)
    case start => rfl
    case more =>
      rintro _ before delegation rfl
      simp [wrappingAdd]
    case joined =>
      rintro _ _ before after rfl rfl
      simp [wrappingAdd]
  simp only [calculateRewardPointsPartitioned, sum]

theorem calculateRewardPointsPartitioned_eq (rewards) (fits : params.totalPoints < 2 ^ 128) :
    params.calculateRewardPointsPartitioned splitting rewards =
      if 0 < params.totalPoints then some { rewards, points := params.totalPoints } else none := by
  rw [calculateRewardPointsPartitioned_mod, mod_eq_of_lt fits]

/-! ### What is accumulated -/

/-- What a vote account is owed with one more reward. -/
def combine : Option VoteReward → Option VoteReward → Option VoteReward
  | none, more => more
  | some held, none => some held
  | some held, some more =>
    some { held with voteRewards := saturatingAdd 64 held.voteRewards more.voteRewards }

theorem combine_none (held) : combine held none = held := by
  cases held <;> rfl

theorem combine_assoc (one two three) : combine (combine one two) three = combine one (combine two three) := by
  cases one with
  | none => rfl
  | some =>
    cases two with
    | none => rfl
    | some =>
      cases three with
      | none => rfl
      | some => simp [combine, saturatingAdd_assoc]

/-- A reward of a cached vote account, at its commission. -/
def OfCached (cached : Store Pubkey VoteAccount) (votePubkey : Pubkey) (reward : VoteReward) : Prop :=
  cached.lookup votePubkey = some reward.voteAccount ∧
    reward.commission = reward.voteAccount.voteStateView.commission

theorem combine_comm (first : ∀ reward, one = some reward → OfCached cached votePubkey reward)
    (second : ∀ reward, two = some reward → OfCached cached votePubkey reward) :
    combine one two = combine two one := by
  cases one with
  | none => exact (combine_none two).symm
  | some one =>
    cases two with
    | none => rfl
    | some two =>
      obtain ⟨account, commission⟩ := first one rfl
      obtain ⟨account', commission'⟩ := second two rfl
      have same : one.voteAccount = two.voteAccount := some.inj (account.symm.trans account')
      cases one
      cases two
      simp only at same commission commission'
      subst same commission commission'
      simp [combine, saturatingAdd, add_comm]

/-- What a delegation adds to what a vote account is owed. -/
def owedBy (votePubkey : Pubkey) (redeemed : Option DelegationRewards) : Option VoteReward :=
  redeemed.bind fun rewards => if votePubkey = rewards.votePubkey then some rewards.voteReward else none

/-- What a vote account is owed by a list of delegations. -/
def owed (votePubkey : Pubkey) (redeemed : List (Option DelegationRewards)) : Option VoteReward :=
  (redeemed.map (owedBy votePubkey)).foldr combine none

theorem owed_append (votePubkey before after) :
    owed votePubkey (before ++ after) = combine (owed votePubkey before) (owed votePubkey after) := by
  induction before with
  | nil => rfl
  | cons redeemed before ih =>
    change combine _ (owed votePubkey (before ++ after)) = combine (combine _ (owed votePubkey before)) _
    rw [ih, combine_assoc]

/-- Every reward that was redeemed is one of a cached vote account. -/
def AllCached (cached : Store Pubkey VoteAccount) (redeemed : List (Option DelegationRewards)) : Prop :=
  ∀ rewards, some rewards ∈ redeemed → OfCached cached rewards.votePubkey rewards.voteReward

theorem AllCached.append_iff :
    AllCached cached (before ++ after) ↔ AllCached cached before ∧ AllCached cached after := by
  simp only [AllCached, mem_append]
  constructor
  · exact fun all => ⟨fun rewards mem => all rewards (.inl mem),
      fun rewards mem => all rewards (.inr mem)⟩
  · rintro ⟨first, second⟩ rewards (mem | mem)
    · exact first rewards mem
    · exact second rewards mem

theorem combine_ofCached (first : ∀ reward, one = some reward → OfCached cached votePubkey reward)
    (second : ∀ reward, two = some reward → OfCached cached votePubkey reward) :
    ∀ reward, combine one two = some reward → OfCached cached votePubkey reward := by
  intro reward combined
  cases one with
  | none => exact second reward combined
  | some one =>
    cases two with
    | none => exact first reward combined
    | some =>
      cases combined
      exact first one rfl

/-- What a vote account is owed is at the commission of the cached account. -/
theorem AllCached.owed (all : AllCached cached redeemed) (votePubkey) :
    ∀ reward, owed votePubkey redeemed = some reward → OfCached cached votePubkey reward := by
  induction redeemed with
  | nil => exact nofun
  | cons entry rest ih =>
    refine combine_ofCached ?_ (ih fun rewards mem => all rewards (mem_cons_of_mem _ mem))
    intro reward added
    cases entry with
    | none => cases added
    | some rewards =>
      simp only [owedBy, bind_some, ite_none_right_eq_some] at added
      obtain ⟨rfl, same⟩ := added
      cases same
      exact all rewards mem_cons_self

/-- What the stakers get for a delegation. -/
def stakerPart (redeemed : Option DelegationRewards) : Nat :=
  (redeemed.map fun rewards => rewards.stakeReward.stakeReward).getD 0

/-- What the voters get for a delegation. -/
def voterPart (redeemed : Option DelegationRewards) : Nat :=
  (redeemed.map fun rewards => rewards.voteReward.voteRewards).getD 0

@[simp] theorem stakerPart_some (rewards) : stakerPart (some rewards) = rewards.stakeReward.stakeReward := rfl

@[simp] theorem voterPart_some (rewards) : voterPart (some rewards) = rewards.voteReward.voteRewards := rfl

theorem sum_paid (redeemed : List (Option DelegationRewards)) :
    (redeemed.map paid).sum = (redeemed.map stakerPart).sum + (redeemed.map voterPart).sum := by
  rw [← sum_map_add]
  congr 2
  funext entry
  cases entry <;> rfl

/-- All that the vote accounts are owed. -/
def totalOwed (voteRewards : VoteRewards) : Nat := Store.total (fun _ reward => reward.voteRewards) voteRewards

/-- An accumulator over a list of delegations holds what each vote account is owed and what all stakers get. -/
structure Accumulated (cached : Store Pubkey VoteAccount) (accumulator : RewardsAccumulator)
    (redeemed : List (Option DelegationRewards)) : Prop where
  lookup : ∀ votePubkey, accumulator.voteRewards.lookup votePubkey = owed votePubkey redeemed
  num : accumulator.numStakeRewards = min (redeemed.countP Option.isSome) (2 ^ 64 - 1)
  total : accumulator.totalStakeRewardsLamports = min (redeemed.map stakerPart).sum (2 ^ 64 - 1)
  owed_le : totalOwed accumulator.voteRewards ≤ (redeemed.map voterPart).sum

open RewardsAccumulator

theorem lookup_addVoteReward (key votePubkey reward) :
    (addVoteReward voteRewards key reward).lookup votePubkey =
      if votePubkey = key then combine (voteRewards.lookup votePubkey) (some reward)
      else voteRewards.lookup votePubkey := by
  unfold addVoteReward
  split
  · rename_i held found
    rw [lookup_insert_eq_ite]
    split_ifs with same
    · rw [same, found]
      rfl
    · rfl
  · rename_i absent
    rw [lookup_insert_eq_ite]
    split_ifs with same
    · rw [same, absent]
      rfl
    · rfl

theorem totalOwed_addVoteReward_le (key reward) :
    totalOwed (addVoteReward voteRewards key reward) ≤ totalOwed voteRewards + reward.voteRewards := by
  unfold addVoteReward
  split
  · rename_i held found
    have exchanged : totalOwed (voteRewards.insert key
          { held with voteRewards := saturatingAdd 64 held.voteRewards reward.voteRewards }) + held.voteRewards =
        totalOwed voteRewards + saturatingAdd 64 held.voteRewards reward.voteRewards :=
      total_insert_of_present found
    have sum : saturatingAdd 64 held.voteRewards reward.voteRewards ≤ held.voteRewards + reward.voteRewards :=
      min_le_left _ _
    omega
  · rename_i absent
    rw [totalOwed, total_insert_of_absent absent, totalOwed]
    omega

/-- Extending the vote rewards by those of another accumulator adds at most what these are. -/
theorem totalOwed_foldl_le (source target) :
    totalOwed (source.entries.foldl (fun rewards entry => addVoteReward rewards entry.1 entry.2) target) ≤
      totalOwed target + totalOwed source := by
  change _ ≤ _ + (source.entries.map fun entry => entry.2.voteRewards).sum
  induction source.entries generalizing target with
  | nil => simp
  | cons entry rest ih =>
    have added := totalOwed_addVoteReward_le target entry.1 entry.2
    have extended := ih (addVoteReward target entry.1 entry.2)
    rw [foldl_cons, map_cons, sum_cons]
    omega

namespace Accumulated

variable {accumulator one two : RewardsAccumulator}

theorem empty : Accumulated cached empty [] :=
  { lookup := fun _ => rfl, num := rfl, total := rfl, owed_le := le_refl 0 }

theorem addRedeemed (accumulated : Accumulated cached accumulator before) (redeemed) :
    Accumulated cached (accumulator.addRedeemed redeemed) (before ++ [redeemed]) := by
  cases redeemed with
  | none =>
    refine ⟨fun votePubkey => ?_, ?_, ?_, ?_⟩
    · rw [owed_append]
      exact (accumulated.lookup votePubkey).trans (combine_none _).symm
    · simpa [RewardsAccumulator.addRedeemed] using accumulated.num
    · simpa [RewardsAccumulator.addRedeemed, stakerPart] using accumulated.total
    · simpa [RewardsAccumulator.addRedeemed, voterPart] using accumulated.owed_le
  | some rewards =>
    refine ⟨fun votePubkey => ?_, ?_, ?_, ?_⟩
    · rw [owed_append, ← accumulated.lookup]
      simp only [RewardsAccumulator.addRedeemed, addReward, lookup_addVoteReward]
      change _ = combine _ (combine (owedBy votePubkey (some rewards)) none)
      rw [combine_none]
      by_cases same : votePubkey = rewards.votePubkey
      · simp [owedBy, same]
      · simp [owedBy, same, combine_none]
    · simp only [RewardsAccumulator.addRedeemed, addReward, saturatingAdd, accumulated.num,
        countP_append, countP_singleton, isSome_some, if_true]
      omega
    · simp only [RewardsAccumulator.addRedeemed, addReward, saturatingAdd, accumulated.total,
        map_append, sum_append_nat, map_singleton, sum_singleton, stakerPart_some]
      omega
    · have added := totalOwed_addVoteReward_le accumulator.voteRewards rewards.votePubkey rewards.voteReward
      have le := accumulated.owed_le
      simp only [RewardsAccumulator.addRedeemed, addReward, map_append, sum_append_nat,
        map_singleton, sum_singleton, voterPart_some]
      omega

/-- Neighbouring accumulators join, whichever of them is extended. -/
theorem add (all : AllCached cached (before ++ after)) (first : Accumulated cached one before)
    (second : Accumulated cached two after) : Accumulated cached (one.add two) (before ++ after) := by
  obtain ⟨left, right⟩ := AllCached.append_iff.mp all
  -- What is owed and the totals do not depend on which accumulator is the destination.
  have merged : ∀ source target : VoteRewards, ∀ votePubkey,
      (source.entries.foldl (fun rewards entry => addVoteReward rewards entry.1 entry.2) target).lookup
        votePubkey = combine (target.lookup votePubkey) (source.lookup votePubkey) := by
    intro source target votePubkey
    exact lookup_foldl_entries (fun store entry key => lookup_addVoteReward store entry.1 key entry.2)
      combine_none source target votePubkey
  have oneLe := first.owed_le
  have twoLe := second.owed_le
  unfold RewardsAccumulator.add
  split_ifs with larger
  · refine ⟨fun votePubkey => ?_, ?_, ?_, ?_⟩
    · rw [merged, first.lookup, second.lookup, owed_append]
    · simp only [saturatingAdd, first.num, second.num, countP_append]
      omega
    · simp only [saturatingAdd, first.total, second.total, map_append, sum_append_nat]
      omega
    · have extended := totalOwed_foldl_le two.voteRewards one.voteRewards
      simp only [map_append, sum_append_nat]
      omega
  · refine ⟨fun votePubkey => ?_, ?_, ?_, ?_⟩
    · rw [merged, first.lookup, second.lookup, owed_append]
      exact combine_comm (right.owed votePubkey) (left.owed votePubkey)
    · simp only [saturatingAdd, first.num, second.num, countP_append]
      omega
    · simp only [saturatingAdd, first.total, second.total, map_append, sum_append_nat]
      omega
    · have extended := totalOwed_foldl_le one.voteRewards two.voteRewards
      simp only [map_append, sum_append_nat]
      omega

end Accumulated

/-- However the delegations are grouped, the accumulator holds what they are paid. -/
theorem accumulated_eval (all : AllCached cached redeemed) :
    Accumulated cached ((splitting.group redeemed).eval empty
      addRedeemed add) redeemed := by
  have accumulated := Grouping.eval_induction
    (P := fun accumulator before => AllCached cached before → Accumulated cached accumulator before)
    (fun _ => .empty)
    (fun accumulator before entry ih all => (ih (AllCached.append_iff.mp all).1).addRedeemed entry)
    (fun one two before after first second all =>
      .add all (first (AllCached.append_iff.mp all).1) (second (AllCached.append_iff.mp all).2))
    (splitting.group redeemed)
  rw [splitting.items_group] at accumulated
  exact accumulated all

/-! ### What vote accounts are credited with -/

/-- What a vote account is credited with: nothing, if its balance would overflow. -/
def creditable (reward : VoteReward) : Nat :=
  if reward.voteAccount.lamports + reward.voteRewards < 2 ^ 64 then reward.voteRewards else 0

/-- What all vote accounts are credited with. -/
def totalCredited (voteRewards : VoteRewards) : Nat := Store.total (fun _ reward => creditable reward) voteRewards

theorem totalCredited_le : totalCredited voteRewards ≤ totalOwed voteRewards := by
  apply total_mono
  intro votePubkey reward _
  unfold creditable
  split_ifs
  · exact le_refl _
  · exact zero_le _

theorem creditVoteAccount_total (votePubkey reward) (small : result.totalVoteRewardsLamports < 2 ^ 64) :
    (creditVoteAccount result votePubkey reward).totalVoteRewardsLamports =
      (result.totalVoteRewardsLamports + creditable reward) % 2 ^ 64 := by
  unfold creditVoteAccount creditable
  split_ifs with fits
  · rw [checkedAdd_eq_some.mpr ⟨fits, rfl⟩]
    rfl
  · rw [show checkedAdd 64 reward.voteAccount.lamports reward.voteRewards = none from if_neg fits]
    exact (mod_eq_of_lt small).symm

/-- The total over the vote accounts is what they are credited with, as long as it fits. -/
theorem calcVoteAccountsToStore_total {voteRewards : VoteRewards} (fits : totalCredited voteRewards < 2 ^ 64) :
    (calcVoteAccountsToStore voteRewards).totalVoteRewardsLamports = totalCredited voteRewards := by
  have summed : ∀ (entries : List ((_ : Pubkey) × VoteReward)) (result : VoteRewardsAccounts),
      result.totalVoteRewardsLamports < 2 ^ 64 →
      (entries.foldl (fun result entry => creditVoteAccount result entry.1 entry.2)
        result).totalVoteRewardsLamports =
        (result.totalVoteRewardsLamports + (entries.map fun entry => creditable entry.2).sum) % 2 ^ 64 := by
    intro entries
    induction entries with
    | nil => exact fun result small => (mod_eq_of_lt small).symm
    | cons entry rest ih =>
      intro result small
      have credited := creditVoteAccount_total entry.1 entry.2 small
      rw [foldl_cons, ih _ (credited ▸ mod_lt _ (by decide)), credited, map_cons, sum_cons, mod_add_mod, add_assoc]
  have total := summed voteRewards.entries empty (by decide)
  rw [show empty.totalVoteRewardsLamports = 0 from rfl, zero_add] at total
  exact total.trans (mod_eq_of_lt fits)

/-! ### What all delegations are paid -/

section Redeemed

/-- The rewards of a delegation are those of its cached vote account. -/
theorem allCached_of_redeemed
    (all : params.stakeDelegations.mapM (params.redeemDelegationRewards rewardedEpoch pointValue) = .ok redeemed) :
    AllCached params.cachedVoteAccounts redeemed := by
  have each := mapM_ok_iff.mp all
  clear all
  generalize params.stakeDelegations = delegations at each
  induction each with
  | nil => exact nofun
  | @cons delegation entry _ rest one _ ih =>
    intro rewards mem
    rcases mem_cons.mp mem with rfl | mem
    · cases cached : params.cachedVoteAccounts.lookup delegation.2.delegation.voterPubkey with
      | none =>
        rw [redeemDelegationRewards_of_absent cached] at one
        cases one
      | some =>
        rw [redeemDelegationRewards_of_cached cached] at one
        obtain ⟨_, -, rfl⟩ := map_map_eq_ok_some.mp one
        exact ⟨cached, rfl⟩
    · exact ih rewards mem

/-- The second pass redeems, for every delegation, at most its share; together that is at most the rewards. -/
theorem redeemed_ok (fits : pointValue.rewards < 2 ^ 64) (points : pointValue.points = params.totalPoints)
    (products : params.ProductsFit rewardedEpoch pointValue) :
    ∃ redeemed, params.stakeDelegations.mapM (params.redeemDelegationRewards rewardedEpoch pointValue) =
        .ok redeemed ∧ (redeemed.map paid).sum ≤ pointValue.rewards := by
  have each : ∀ delegations ⊆ params.stakeDelegations,
      ∃ redeemed, delegations.mapM (params.redeemDelegationRewards rewardedEpoch pointValue) = .ok redeemed ∧
        (redeemed.map paid).sum ≤ ((delegations.map params.delegationPoints).map
          fun part => proRata part pointValue.rewards pointValue.points).sum := by
    intro delegations
    induction delegations with
    | nil => exact fun _ => ⟨[], rfl, le_refl 0⟩
    | cons delegation rest ih =>
      intro inside
      have mem : delegation ∈ params.stakeDelegations := inside mem_cons_self
      have share : params.delegationPoints delegation ≤ pointValue.points := by
        rw [points]
        exact single_le_sum (fun _ _ => zero_le _) _ (mem_map_of_mem mem)
      obtain ⟨one, redeemedOne, worthOne⟩ :=
        redeemDelegationRewards_ok mem fits products share
      obtain ⟨others, redeemedRest, worthRest⟩ := ih fun _ other => inside (mem_cons_of_mem _ other)
      refine ⟨one :: others, mapM_ok_iff.mpr (.cons redeemedOne (mapM_ok_iff.mp redeemedRest)), ?_⟩
      simp only [map_cons, sum_cons]
      exact Nat.add_le_add worthOne worthRest
  obtain ⟨redeemed, all, worth⟩ := each params.stakeDelegations (List.Subset.refl _)
  exact ⟨redeemed, all, worth.trans (sum_proRata_le points.ge)⟩

/-- What the parallel pass over the delegations accumulates. -/
def accumulate (splitting : Splitting) (redeemed : List (Option DelegationRewards)) : RewardsAccumulator :=
  (splitting.group redeemed).eval RewardsAccumulator.empty RewardsAccumulator.addRedeemed RewardsAccumulator.add

section

variable (all : params.stakeDelegations.mapM (params.redeemDelegationRewards rewardedEpoch pointValue) = .ok redeemed)
include all

theorem calculateStakeVoteRewards_eq :
    params.calculateStakeVoteRewards splitting rewardedEpoch pointValue =
      .ok (calcVoteAccountsToStore (accumulate splitting redeemed).voteRewards,
        { stakeRewards :=
            { rewards := redeemed.map (Option.map DelegationRewards.stakeReward)
              numRewards := (accumulate splitting redeemed).numStakeRewards }
          totalStakeRewardsLamports := (accumulate splitting redeemed).totalStakeRewardsLamports }) := by
  rw [calculateStakeVoteRewards, all]
  rfl

/-- The stakers' total is exact, and the voters' is at most what they were redeemed. -/
theorem accumulated_totals (small : (redeemed.map paid).sum < 2 ^ 64) :
    Accumulated params.cachedVoteAccounts (accumulate splitting redeemed) redeemed ∧
      (accumulate splitting redeemed).totalStakeRewardsLamports = (redeemed.map stakerPart).sum ∧
      (calcVoteAccountsToStore (accumulate splitting redeemed).voteRewards).totalVoteRewardsLamports =
        totalCredited (accumulate splitting redeemed).voteRewards ∧
      totalCredited (accumulate splitting redeemed).voteRewards ≤ (redeemed.map voterPart).sum := by
  rw [sum_paid] at small
  have accumulated : Accumulated params.cachedVoteAccounts (accumulate splitting redeemed) redeemed :=
    accumulated_eval splitting (allCached_of_redeemed all)
  have voted : totalCredited (accumulate splitting redeemed).voteRewards ≤ (redeemed.map voterPart).sum :=
    (totalCredited_le _).trans accumulated.owed_le
  exact ⟨accumulated, accumulated.total.trans (min_eq_left (by omega)),
    calcVoteAccountsToStore_total (by omega), voted⟩

theorem calculateStakeVoteRewards_ok (small : (redeemed.map paid).sum < 2 ^ 64) :
    ∃ totalVoteRewards ≤ (redeemed.map voterPart).sum, ∀ splitting : Splitting,
      ∃ voteRewards stakeRewards,
        params.calculateStakeVoteRewards splitting rewardedEpoch pointValue = .ok (voteRewards, stakeRewards) ∧
          voteRewards.totalVoteRewardsLamports = totalVoteRewards ∧
          stakeRewards.totalStakeRewardsLamports = (redeemed.map stakerPart).sum := by
  -- One chunk with all delegations is the grouping that the others are compared with.
  let oneChunk : Splitting := { group := .fold, items_group := fun _ => rfl }
  obtain ⟨reference, -, -, voted⟩ := accumulated_totals oneChunk all small
  refine ⟨totalCredited (accumulate oneChunk redeemed).voteRewards, voted, ?_⟩
  intro splitting
  obtain ⟨accumulated, stakes, votes, -⟩ := accumulated_totals splitting all small
  refine ⟨_, _, calculateStakeVoteRewards_eq splitting all, ?_, stakes⟩
  rw [votes]
  have same : Store.Same (accumulate splitting redeemed).voteRewards (accumulate oneChunk redeemed).voteRewards :=
    fun votePubkey => (accumulated.lookup votePubkey).trans (reference.lookup votePubkey).symm
  exact same.total_eq

end

end Redeemed

/-! ### The assertions -/

@[simp] theorem Bank.getEpochRewardsSysvar_updateSysvarAccount (env) (bank : Bank) (epochRewards) :
    (bank.updateSysvarAccount env epochRewards).getEpochRewardsSysvar = epochRewards := by
  unfold Bank.updateSysvarAccount
  split <;> rfl

/-- While the sysvar is active, what is left can be distributed. -/
theorem Bank.updateEpochRewardsSysvar_ok (documented : env.Documented)
    (holds : bank.getEpochRewardsSysvar = epochRewards) (active : epochRewards.active = true)
    (left : epochRewards.distributedRewards + amount ≤ epochRewards.totalRewards) :
    bank.updateEpochRewardsSysvar env amount = .ok (bank.updateSysvarAccount env
      { epochRewards with distributedRewards := epochRewards.distributedRewards + amount }) := by
  subst holds
  simp only [updateEpochRewardsSysvar, bind_ok_iff, rejectIf_eq_ok, okOr_eq_ok, pure_ok_iff]
  exact ⟨(), by simp [active], _, documented.distribute_some _ _ left, rfl⟩

/-- Once nothing more than there was has been distributed, the sysvar can be closed. -/
theorem Bank.setEpochRewardsSysvarToInactive_ok (env) (holds : bank.getEpochRewardsSysvar = epochRewards)
    (left : epochRewards.distributedRewards ≤ epochRewards.totalRewards) :
    bank.setEpochRewardsSysvarToInactive env =
      .ok (bank.updateSysvarAccount env { epochRewards with active := false }) := by
  subst holds
  simp only [setEpochRewardsSysvarToInactive, ok_iffs, not_lt, and_true]
  exact left

theorem Bank.createEpochRewardsSysvar_ok (env) (bank : Bank) (startHeight numPartitions)
    (left : distributedRewards ≤ pointValue.rewards) :
    bank.createEpochRewardsSysvar env distributedRewards startHeight numPartitions pointValue =
      .ok (bank.updateSysvarAccount env
        { distributionStartingBlockHeight := startHeight
          numPartitions
          parentBlockhash := bank.lastBlockhash
          totalPoints := pointValue.points
          totalRewards := pointValue.rewards
          distributedRewards
          active := true }) := by
  simp only [createEpochRewardsSysvar, ok_iffs, not_lt, and_true]
  exact left

/-- Any amounts that fit into what is left can be distributed, and then the sysvar can be closed. -/
theorem Bank.updateEpochRewardsSysvar_all {env : Outside} (documented : env.Documented) (amounts : List Nat)
    (holds : bank.getEpochRewardsSysvar = epochRewards) (active : epochRewards.active = true)
    (left : epochRewards.distributedRewards + amounts.sum ≤ epochRewards.totalRewards) :
    ∃ distributed closed,
      amounts.foldlM (fun bank amount => bank.updateEpochRewardsSysvar env amount) bank = .ok distributed ∧
        distributed.setEpochRewardsSysvarToInactive env = .ok closed := by
  induction amounts generalizing bank epochRewards with
  | nil => exact ⟨bank, _, rfl, setEpochRewardsSysvarToInactive_ok env holds left⟩
  | cons amount rest ih =>
    rw [sum_cons] at left
    let next := { epochRewards with distributedRewards := epochRewards.distributedRewards + amount }
    have one : bank.updateEpochRewardsSysvar env amount = .ok (bank.updateSysvarAccount env next) :=
      updateEpochRewardsSysvar_ok documented holds active (by omega)
    obtain ⟨distributed, closed, others, close⟩ :=
      ih (bank.getEpochRewardsSysvar_updateSysvarAccount env next) active
        (show epochRewards.distributedRewards + amount + rest.sum ≤ epochRewards.totalRewards by omega)
    refine ⟨distributed, closed, ?_, close⟩
    rw [foldlM_cons, one]
    exact others

/-- With totals that are at most the rewards, the first block of the epoch does not find that more was paid. -/
theorem Bank.calculateRewardsAndDistributeVoteRewards_ok {splitting : Splitting}
    (holds : bank.getEpochRewardCalculateParamInfo env = .ok params)
    (calculated : params.calculateRewardsForPartitioning splitting rewardedEpoch rewards = .ok calculation)
    (fits : calculation.pointValue.rewards < 2 ^ 64)
    (enough : calculation.voteRewardsAccounts.totalVoteRewardsLamports +
      calculation.stakeRewardCalculation.totalStakeRewardsLamports ≤ calculation.pointValue.rewards) :
    bank.calculateRewardsAndDistributeVoteRewards env splitting rewardedEpoch rewards =
      .ok ({ bank.storeVoteAccountsPartitioned calculation.voteRewardsAccounts with
        capitalization := wrappingAdd 64 bank.capitalization
          calculation.voteRewardsAccounts.totalVoteRewardsLamports }, calculation) := by
  simp only [calculateRewardsAndDistributeVoteRewards, bind_ok_iff, rejectIf_eq_ok, pure_ok_iff]
  refine ⟨params, holds, _, calculated, (), ?_, rfl⟩
  rw [wrappingAdd_of_lt (enough.trans_lt fits), not_lt]
  exact enough

/-- No over-issuance. If the points of all delegations fit, and so does every product that is calculated, the
    stakers and the voters together are redeemed at most the rewards. Every grouping accumulates the same
    totals, which are at most the rewards, and neither the assertion on what was paid nor those of the sysvar
    fire, in whatever amounts the stake rewards are distributed. -/
theorem inflation_not_overissued {params : EpochRewardCalculateParamInfo} {splitting : Splitting}
    {rewardedEpoch : Epoch} {rewards : Nat} {pointValue : PointValue} (fits : rewards < 2 ^ 64)
    (computed : params.calculateRewardPointsPartitioned splitting rewards = some pointValue)
    (sumFits : params.totalPoints < 2 ^ 128) (products : params.ProductsFit rewardedEpoch pointValue) :
    ∃ redeemed totalVoteRewards totalStakeRewards,
      params.stakeDelegations.mapM (params.redeemDelegationRewards rewardedEpoch pointValue) = .ok redeemed ∧
      (redeemed.map paid).sum ≤ pointValue.rewards ∧
      (∀ splitting' : Splitting, ∃ voteRewards stakeRewards,
        params.calculateStakeVoteRewards splitting' rewardedEpoch pointValue = .ok (voteRewards, stakeRewards) ∧
          voteRewards.totalVoteRewardsLamports = totalVoteRewards ∧
          stakeRewards.totalStakeRewardsLamports = totalStakeRewards) ∧
      (∀ (env : Outside) (splitting' : Splitting) (bank : Bank),
        bank.getEpochRewardCalculateParamInfo env = .ok params →
          ∃ paidBank,
            bank.calculateRewardsAndDistributeVoteRewards env splitting' rewardedEpoch rewards = .ok paidBank) ∧
      (∀ (env : Outside) (bank : Bank) (startHeight numPartitions : Nat), env.Documented →
        ∃ created,
          bank.createEpochRewardsSysvar env totalVoteRewards startHeight numPartitions pointValue = .ok created ∧
          ∀ amounts : List Nat, amounts.sum ≤ totalStakeRewards →
            ∃ distributed closed,
              amounts.foldlM (fun bank amount => bank.updateEpochRewardsSysvar env amount) created =
                .ok distributed ∧
              distributed.setEpochRewardsSysvarToInactive env = .ok closed) := by
  -- The denominator of every share is the sum of all points.
  have value : pointValue = { rewards, points := params.totalPoints } := by
    rw [calculateRewardPointsPartitioned_eq splitting rewards sumFits] at computed
    split_ifs at computed
    exact (some.inj computed).symm
  have small : pointValue.rewards < 2 ^ 64 := by
    rw [value]
    exact fits
  obtain ⟨redeemed, all, worth⟩ := redeemed_ok small (by rw [value]) products
  obtain ⟨totalVoteRewards, voted, grouped⟩ := calculateStakeVoteRewards_ok all (worth.trans_lt small)
  have enough : totalVoteRewards + (redeemed.map stakerPart).sum ≤ pointValue.rewards := by
    rw [sum_paid] at worth
    omega
  refine ⟨redeemed, totalVoteRewards, (redeemed.map stakerPart).sum, all, worth, ?_, ?_, ?_⟩
  · exact grouped
  · intro env splitting' bank holds
    obtain ⟨voteRewards, stakeRewards, calculated, votes, stakes⟩ := grouped splitting'
    have computed' : params.calculateRewardPointsPartitioned splitting' rewards = some pointValue := by
      rw [← computed, calculateRewardPointsPartitioned_eq _ _ sumFits, calculateRewardPointsPartitioned_eq _ _ sumFits]
    have result : params.calculateRewardsForPartitioning splitting' rewardedEpoch rewards =
        .ok { voteRewardsAccounts := voteRewards, stakeRewardCalculation := stakeRewards, pointValue } := by
      simp only [calculateRewardsForPartitioning, calculateValidatorRewards, computed', calculated]
      rfl
    exact ⟨_, Bank.calculateRewardsAndDistributeVoteRewards_ok holds result small
      (by simp only [votes, stakes]; exact enough)⟩
  · intro env bank startHeight numPartitions documented
    have left : totalVoteRewards ≤ pointValue.rewards := by omega
    refine ⟨_, bank.createEpochRewardsSysvar_ok env startHeight numPartitions left, ?_⟩
    intro amounts within
    exact Bank.updateEpochRewardsSysvar_all documented amounts
      (bank.getEpochRewardsSysvar_updateSysvarAccount env _) rfl (by simp only; omega)

namespace Sample

/-- All delegations in one chunk. -/
def sequential : Splitting := { group := .fold, items_group := fun _ => rfl }

/-- A delegation to the vote account 1, effective in full and active since epoch 0. -/
def staked (amount : Nat) : StakeAccount :=
  { lamports := amount
    dataLen := 200
    metadata :=
      { rentExemptReserve := 0, authorized := { staker := 7, withdrawer := 7 }, lockup := .default }
    stake := { delegation := .new 1 amount 0, creditsObserved := 0 }
    stakeFlags := .empty }

/-- A vote account that gathered credits in epoch 1. -/
def voting (commission credits : Nat) : VoteAccount :=
  { lamports := 5
    owner := .vote
    voteStateView := { commission, epochCredits := [{ epoch := 1, credits, prevCredits := 0 }] }
    owned := rfl }

/-- Two delegations of the same amount to a vote account. -/
def twoDelegations (amount commission credits : Nat) : EpochRewardCalculateParamInfo :=
  { stakeHistory := fun delegation _ => delegation.stake
    stakeDelegations := [(10, staked amount), (11, staked amount)]
    cachedVoteAccounts := (∅ : Store Pubkey VoteAccount).insert 1 (voting commission credits) }

/-- The products of two delegations of the same amount fit when the one of either does. -/
theorem productsFit_twoDelegations
    (product : (calculateStakePointsAndCredits (twoDelegations amount commission credits).stakeHistory
      (staked amount).stake (voting commission credits).voteStateView).points * pointValue.rewards < 2 ^ 128) :
    (twoDelegations amount commission credits).ProductsFit rewardedEpoch pointValue := by
  rintro delegation mem voteAccount cached -
  have found : (twoDelegations amount commission credits).cachedVoteAccounts.lookup 1 =
      some (voting commission credits) := AList.lookup_insert _
  rcases mem_pair.mp mem with rfl | rfl
  · cases found.symm.trans cached
    exact product
  · cases found.symm.trans cached
    exact product

/-- Epochs without a warmup, the leader schedule one epoch ahead, a single partition, and the rent of the 81 bytes
    of the sysvar. -/
def env : Outside :=
  { distribute := fun epochRewards amount =>
      if epochRewards.distributedRewards + amount ≤ epochRewards.totalRewards then
        some { epochRewards with distributedRewards := epochRewards.distributedRewards + amount }
      else none
    getEpoch := fun epochSchedule slot => slot / epochSchedule.slotsPerEpoch
    getSlotsInEpoch := fun epochSchedule _ => epochSchedule.slotsPerEpoch
    getLeaderScheduleEpoch := fun epochSchedule slot => slot / epochSchedule.slotsPerEpoch + 1
    hashAddressToPartition := fun _ _ _ => 0
    sysvarMinimumBalance := 1454640
    serializedSize := fun _ => 197 }

theorem outside_documented : env.Documented where
  distribute_some := fun _ _ left => if_pos left
  distribute_keeps := by
    intro epochRewards amount after distributed
    obtain ⟨-, same⟩ := ite_none_right_eq_some.mp distributed
    exact ⟨_, (some.inj same).symm⟩
  minimumSlotsPerEpoch := fun epochSchedule _ => epochSchedule.minimum
  slotsPerEpoch := fun _ _ _ => rfl
  hash_lt := fun _ _ _ pos => pos

/-- The last bank of epoch 1, with two delegations of 40 lamports. -/
def lastBank (epochRewardsAccount : Option SysvarAccount) : Bank :=
  { slot := 63
    epoch := 1
    blockHeight := 63
    capitalization := 5000000
    lastBlockhash := 8
    epochSchedule := { slotsPerEpoch := 32, warmup := false, firstNormalEpoch := 0, minimum := le_refl 32 }
    stakeAccountStoresPerBlock := 4096
    isStakeMinimumDelegationForRewardsActive := false
    isStakeRaiseMinimumDelegationTo1SolActive := false
    stakeHistory := fun delegation _ => delegation.stake
    stakeDelegations := ((∅ : Store Pubkey StakeAccount).insert 11 (staked 40)).insert 10 (staked 40)
    voteAccounts := (∅ : Store Pubkey VoteAccount).insert 1 (voting 30 2)
    epochStakes := ∅
    epochRewardStatus := .inactive
    epochRewardsAccount
    rewards := []
    stakeStores := [] }

end Sample

open Sample

/-- The theorem at two delegations of 40 lamports each: of 9 lamports, each is worth 4, of which the staker gets
    2 and the voter 1; the sysvar opens, and closes after both stakers are paid. -/
theorem inflation_not_overissued_sample :
    ∃ redeemed totalVoteRewards totalStakeRewards created,
      (twoDelegations 40 30 2).stakeDelegations.mapM
        ((twoDelegations 40 30 2).redeemDelegationRewards 1 { rewards := 9, points := 160 }) =
          .ok redeemed ∧ (redeemed.map paid).sum ≤ 9 ∧
      (lastBank none).createEpochRewardsSysvar env totalVoteRewards 65 1
        { rewards := 9, points := 160 } = .ok created ∧
      ∀ amounts : List Nat, amounts.sum ≤ totalStakeRewards →
        ∃ distributed closed,
          amounts.foldlM (fun bank amount => bank.updateEpochRewardsSysvar env amount) created = .ok distributed ∧
          distributed.setEpochRewardsSysvarToInactive env = .ok closed := by
  have computed : (twoDelegations 40 30 2).calculateRewardPointsPartitioned sequential 9 =
      some { rewards := 9, points := 160 } := by decide
  have products : (twoDelegations 40 30 2).ProductsFit 1 { rewards := 9, points := 160 } :=
    productsFit_twoDelegations (by decide)
  obtain ⟨redeemed, votes, stakes, all, worth, -, -, sysvar⟩ :=
    inflation_not_overissued (by decide) computed (by decide) products
  obtain ⟨created, opens, closes⟩ := sysvar env (lastBank none) 65 1 outside_documented
  exact ⟨redeemed, votes, stakes, created, all, worth, opens, closes⟩

/-- Where the points of all delegations do not fit, more is redeemed than the rewards, although every product
    fits: two delegations share one lamport, and each of them gets one. -/
theorem overissued_when_points_wrap :
    ∃ pointValue redeemed,
      (twoDelegations (2 ^ 64 - 1) 0 (2 ^ 64 - 1)).calculateRewardPointsPartitioned sequential 1 = some pointValue ∧
      (twoDelegations (2 ^ 64 - 1) 0 (2 ^ 64 - 1)).ProductsFit 1 pointValue ∧
      (twoDelegations (2 ^ 64 - 1) 0 (2 ^ 64 - 1)).stakeDelegations.mapM
        ((twoDelegations (2 ^ 64 - 1) 0 (2 ^ 64 - 1)).redeemDelegationRewards 1 pointValue) = .ok redeemed ∧
      pointValue.rewards = 1 ∧ (redeemed.map paid).sum = 2 := by
  refine ⟨{ rewards := 1, points := 2 ^ 128 - 2 ^ 66 + 2 }, _, by decide,
    productsFit_twoDelegations (by decide), rfl, rfl, by decide⟩

end Payout.Rewards
