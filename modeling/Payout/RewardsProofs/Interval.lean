/-
Purpose: The reward interval of an epoch. The first block of the epoch opens the interval; every block after it pays
  the next partition, until the last one closes it.
-/
import Payout.RewardsProofs.Issuance

namespace Payout.Rewards

open Lib Payout.Runtime StakeProgram List PartitionedStakeReward Bank Store Nat SysvarAccount

/-! ### Partitions paid so far -/

/-- The rewards of the partitions before `k`. -/
def earlier (partitionOf : Pubkey → Nat) (k : Nat) (rewards : List PartitionedStakeReward) :
    List PartitionedStakeReward :=
  rewards.filter fun reward => partitionOf reward.stakePubkey < k

section Earlier

variable {partitionOf : Pubkey → Nat} {rewards : List PartitionedStakeReward}

@[simp] theorem earlier_zero : earlier partitionOf 0 rewards = [] := by
  simp [earlier]

theorem earlier_succ_perm :
    (earlier partitionOf (k + 1) rewards).Perm
      (earlier partitionOf k rewards ++ inPartition partitionOf k rewards) := by
  have split := (filter_append_perm (fun reward => decide (partitionOf reward.stakePubkey < k))
    (earlier partitionOf (k + 1) rewards)).symm
  have before : (earlier partitionOf (k + 1) rewards).filter
      (fun reward => decide (partitionOf reward.stakePubkey < k)) = earlier partitionOf k rewards := by
    rw [earlier, filter_filter, earlier]
    congr 1
    funext reward
    rw [← Bool.decide_and]
    congr 1
    apply propext
    omega
  have last : (earlier partitionOf (k + 1) rewards).filter
      (fun reward => !decide (partitionOf reward.stakePubkey < k)) = inPartition partitionOf k rewards := by
    rw [earlier, filter_filter, inPartition]
    congr 1
    funext reward
    rw [← decide_not, ← Bool.decide_and]
    congr 1
    apply propext
    omega
  rwa [before, last] at split

theorem sum_earlier_succ (measure : PartitionedStakeReward → Nat) :
    ((earlier partitionOf (k + 1) rewards).map measure).sum = ((earlier partitionOf k rewards).map measure).sum +
        ((inPartition partitionOf k rewards).map measure).sum := by
  rw [(earlier_succ_perm.map measure).sum_eq, map_append, List.sum_append]

theorem earlier_of_le (lt : ∀ pubkey, partitionOf pubkey < numPartitions) (after : numPartitions ≤ k) :
    earlier partitionOf k rewards = rewards := by
  apply filter_eq_self.mpr
  intro reward _
  exact decide_eq_true ((lt reward.stakePubkey).trans_le after)

end Earlier

/-! ### The opened interval -/

section Interval

variable (env : Outside) (opened : Bank) (status : StartBlockHeightAndRewards) (sysvar : SysvarAccount)

/-- The partition of a stake account. -/
def SysvarAccount.partitionOf (pubkey : Pubkey) : Nat :=
  env.hashAddressToPartition sysvar.epochRewards.numPartitions sysvar.epochRewards.parentBlockhash pubkey

/-- The partitions of the rewards. -/
def StartBlockHeightAndRewards.partitioned : StartBlockHeightAndPartitionedRewards :=
  { distributionStartingBlockHeight := status.distributionStartingBlockHeight
    allStakeRewards := status.allStakeRewards
    partitionIndices := partitionTable (sysvar.partitionOf env) sysvar.epochRewards.numPartitions
      status.allStakeRewards.enumeratedRewardsIter }

/-- The rewards that the first block of the epoch computed. -/
def StartBlockHeightAndRewards.computed : List PartitionedStakeReward := status.allStakeRewards.computed

/-- The rewards of the partitions before `k`, in lamports. -/
def dueBefore (k : Nat) : Nat :=
  ((earlier (sysvar.partitionOf env) k status.computed).map stakeReward).sum

/-- What the accounts take of the rewards of the partitions before `k`, in lamports. -/
def creditedBefore (k : Nat) : Nat :=
  ((earlier (sysvar.partitionOf env) k status.computed).map
    (creditedAmount env opened.stakeDelegations)).sum

/-- The sysvar once a further amount was distributed. -/
def SysvarAccount.distributing (amount : Nat) (active : Bool) : SysvarAccount :=
  { sysvar with
    epochRewards := { sysvar.epochRewards with
      distributedRewards := sysvar.epochRewards.distributedRewards + amount, active } }

/-- What the first block of an epoch leaves behind: the rewards, an active sysvar that has enough left for all of
    them, and accounts and a capitalization that can take them. -/
structure Opened : Prop where
  phase : opened.epochRewardStatus = .active (.calculation status)
  account : opened.epochRewardsAccount = some sysvar
  active : sysvar.epochRewards.active = true
  rent : env.sysvarMinimumBalance ≤ sysvar.lamports
  start : status.distributionStartingBlockHeight = opened.blockHeight + 1
  pos : 0 < sysvar.epochRewards.numPartitions
  short : sysvar.epochRewards.numPartitions < env.getSlotsInEpoch opened.epochSchedule opened.epoch
  ends : opened.blockHeight + 1 + sysvar.epochRewards.numPartitions < 2 ^ 64
  payable : ∀ reward ∈ status.computed, Payable opened.stakeDelegations reward
  nodup : (status.computed.map stakePubkey).Nodup
  enough : sysvar.epochRewards.distributedRewards +
    (status.computed.map stakeReward).sum ≤ sysvar.epochRewards.totalRewards
  capitalization : opened.capitalization + (status.computed.map stakeReward).sum < 2 ^ 64

/-- All lamports of the stake accounts. -/
def stakeLamports (bank : Bank) : Nat := Store.total (fun _ account => account.lamports) bank.stakeDelegations

/-- A bank `k` blocks after the interval was opened: the partitions before `k` are paid. -/
structure Paying (k : Nat) (bank : Bank) : Prop where
  epoch : bank.epoch = opened.epoch
  schedule : bank.epochSchedule = opened.epochSchedule
  height : bank.blockHeight = opened.blockHeight + k
  phase : bank.epochRewardStatus =
    if k = 0 then .active (.calculation status)
    else if k < sysvar.epochRewards.numPartitions then .active (.distribution (status.partitioned env sysvar))
    else .inactive
  account : bank.epochRewardsAccount =
    some (sysvar.distributing (dueBefore env status sysvar k) (decide (k < sysvar.epochRewards.numPartitions)))
  capitalization : bank.capitalization = opened.capitalization + creditedBefore env opened status sysvar k
  unpaid : ∀ pubkey, k ≤ sysvar.partitionOf env pubkey →
    bank.stakeDelegations.lookup pubkey = opened.stakeDelegations.lookup pubkey
  paid : ∀ reward ∈ status.computed, sysvar.partitionOf env reward.stakePubkey < k →
    ∀ stakeReward, credited env opened.stakeDelegations reward = some stakeReward →
      bank.stakeDelegations.lookup reward.stakePubkey = some stakeReward.stakeAccount
  lamports : stakeLamports bank = stakeLamports opened + creditedBefore env opened status sysvar k
  stores : ∃ stores, bank.stakeStores = opened.stakeStores ++ stores ∧
    (stores.map Prod.snd).Perm ((earlier (sysvar.partitionOf env) k status.computed).filterMap
      (credited env opened.stakeDelegations))
  votes : bank.voteAccounts = opened.voteAccounts

end Interval

section

variable (env : Outside) (opened : Bank) (status : StartBlockHeightAndRewards) (sysvar : SysvarAccount) (k : Nat)

/-- The rewards that are due in the block of a partition. -/
abbrev dueIn : List PartitionedStakeReward :=
  inPartition (sysvar.partitionOf env) k status.computed

theorem dueBefore_le : dueBefore env status sysvar k ≤ (status.computed.map stakeReward).sum :=
  (filter_sublist.map _).sum_le_sum fun _ _ => zero_le _

theorem dueBefore_succ :
    dueBefore env status sysvar (k + 1) = dueBefore env status sysvar k +
      ((dueIn env status sysvar k).map stakeReward).sum :=
  sum_earlier_succ _

theorem creditedBefore_le : creditedBefore env opened status sysvar k ≤ dueBefore env status sysvar k := by
  have parts := sum_creditedAmount_add_burnedAmount env opened.stakeDelegations
    (earlier (sysvar.partitionOf env) k status.computed)
  simp only [creditedBefore, dueBefore]
  omega

theorem creditedBefore_succ :
    creditedBefore env opened status sysvar (k + 1) = creditedBefore env opened status sysvar k +
      ((dueIn env status sysvar k).map (creditedAmount env opened.stakeDelegations)).sum :=
  sum_earlier_succ _

end

/-! ### One block -/

section Step

variable {env : Outside} {opened bank parent : Bank} {status : StartBlockHeightAndRewards} {sysvar : SysvarAccount}
  {k : Nat}

/-- An account of the sysvar that is rent exempt keeps its balance, and capitalization stays. -/
theorem Bank.updateSysvarAccount_settled (account : bank.epochRewardsAccount = some held)
    (rent : env.sysvarMinimumBalance ≤ held.lamports) (epochRewards) :
    bank.updateSysvarAccount env epochRewards =
      { bank with epochRewardsAccount := some { held with epochRewards } } := by
  simp [updateSysvarAccount, account, max_eq_right rent]

theorem SysvarAccount.partitionOf_lt (documented : env.Documented)
    (pos : 0 < sysvar.epochRewards.numPartitions) (pubkey) :
    sysvar.partitionOf env pubkey < sysvar.epochRewards.numPartitions :=
  documented.hash_lt _ _ _ pos

/-- The stake accounts that the block of a partition stores. -/
def paidIn (env : Outside) (opened : Bank) (status : StartBlockHeightAndRewards) (sysvar : SysvarAccount)
    (k : Nat) : List StakeReward :=
  (inPartition (sysvar.partitionOf env) k status.computed).filterMap
    (credited env opened.stakeDelegations)

/-- A bank whose next partition is `k`: the accounts of that partition are as they were, and there is room for it
    in the sysvar and in capitalization. -/
structure ReadyFor (env : Outside) (opened : Bank) (status : StartBlockHeightAndRewards)
    (sysvar : SysvarAccount) (k : Nat) (bank : Bank) : Prop where
  account : bank.epochRewardsAccount = some (sysvar.distributing (dueBefore env status sysvar k) true)
  capitalization : bank.capitalization = opened.capitalization + creditedBefore env opened status sysvar k
  unpaid : ∀ pubkey, k ≤ sysvar.partitionOf env pubkey →
    bank.stakeDelegations.lookup pubkey = opened.stakeDelegations.lookup pubkey

namespace ReadyFor

variable (ready : ReadyFor env opened status sysvar k bank)
include ready

/-- What is credited in the next partition is what the opened accounts take. -/
theorem credited_eq (mem : reward ∈ dueIn env status sysvar k) :
    credited env bank.stakeDelegations reward = credited env opened.stakeDelegations reward := by
  have here := of_decide_eq_true (mem_filter.mp mem).2
  simp only [credited, ready.unpaid _ here.ge]

theorem stored_eq : (dueIn env status sysvar k).filterMap (credited env bank.stakeDelegations) =
    paidIn env opened status sysvar k :=
  filterMap_congr fun _ => ready.credited_eq

theorem creditedAmount_eq : (dueIn env status sysvar k).map (creditedAmount env bank.stakeDelegations) =
    (dueIn env status sysvar k).map (creditedAmount env opened.stakeDelegations) :=
  map_congr_left fun _ mem => by simp only [creditedAmount, ready.credited_eq mem]

theorem payable (isOpen : Opened env opened status sysvar) :
    ∀ reward ∈ dueIn env status sysvar k, Payable bank.stakeDelegations reward := by
  intro reward mem
  have here := of_decide_eq_true (mem_filter.mp mem).2
  rw [Payable, ready.unpaid _ here.ge]
  exact isOpen.payable reward (mem_of_mem_filter mem)

/-- The block of a partition stores its rewards and adds them to capitalization and to the sysvar. -/
theorem distributeEpochRewardsInPartition_ok (documented : env.Documented)
    (isOpen : Opened env opened status sysvar) (inside : k < sysvar.epochRewards.numPartitions) :
    bank.distributeEpochRewardsInPartition env (status.partitioned env sysvar) k =
      .ok (({ bank.storeStakeAccounts (paidIn env opened status sysvar k) with
          capitalization := opened.capitalization + creditedBefore env opened status sysvar (k + 1)
          epochRewardsAccount := some (sysvar.distributing (dueBefore env status sysvar (k + 1)) true) } :
        Bank).updateRewardHistoryInPartition (paidIn env opened status sysvar k)) := by
  have room := isOpen.enough
  have capitalization := isOpen.capitalization
  have all := dueBefore_le env status sysvar (k + 1)
  have some := creditedBefore_le env opened status sysvar (k + 1)
  have due := dueBefore_succ env status sysvar k
  have paidSoFar := creditedBefore_succ env opened status sysvar k
  have part := sum_creditedAmount_add_burnedAmount env bank.stakeDelegations (dueIn env status sysvar k)
  rw [ready.creditedAmount_eq] at part
  have stored : bank.storeStakeAccountsInPartition env (status.partitioned env sysvar) k = _ :=
    storeStakeAccountsInPartition_ok inside rfl (ready.payable isOpen)
    (show ((dueIn env status sysvar k).map stakeReward).sum < 2 ^ 64 by omega)
  rw [show (status.partitioned env sysvar).allStakeRewards.computed = status.computed from rfl,
    ready.stored_eq, ready.creditedAmount_eq] at stored
  have amount : wrappingAdd 64
      ((dueIn env status sysvar k).map (creditedAmount env opened.stakeDelegations)).sum
      ((dueIn env status sysvar k).map (burnedAmount env bank.stakeDelegations)).sum =
        ((dueIn env status sysvar k).map stakeReward).sum := by
    rw [wrappingAdd_of_lt (by omega), part]
  have grown : wrappingAdd 64 bank.capitalization
      ((dueIn env status sysvar k).map (creditedAmount env opened.stakeDelegations)).sum =
        opened.capitalization + creditedBefore env opened status sysvar (k + 1) := by
    rw [ready.capitalization, wrappingAdd_of_lt (by omega)]
    omega
  let storing : Bank := { bank.storeStakeAccounts (paidIn env opened status sysvar k) with
    capitalization := opened.capitalization + creditedBefore env opened status sysvar (k + 1) }
  have held : storing.epochRewardsAccount =
      .some (sysvar.distributing (dueBefore env status sysvar k) true) := ready.account
  have current : storing.getEpochRewardsSysvar =
      (sysvar.distributing (dueBefore env status sysvar k) true).epochRewards := by
    rw [getEpochRewardsSysvar, held]
    rfl
  have updated : storing.updateEpochRewardsSysvar env
      ((dueIn env status sysvar k).map stakeReward).sum = _ :=
    updateEpochRewardsSysvar_ok documented current rfl
    (show sysvar.epochRewards.distributedRewards + dueBefore env status sysvar k + _ ≤
      sysvar.epochRewards.totalRewards by omega)
  rw [updateSysvarAccount_settled held isOpen.rent] at updated
  simp only [distributeEpochRewardsInPartition, ok_iffs, Prod.exists]
  refine ⟨_, _, stored, ?_⟩
  simp only [amount]
  refine ⟨_, (congrArg (updateEpochRewardsSysvar env · _) ?_).trans updated, ?_⟩
  · exact congrArg (fun c => ({ bank.storeStakeAccounts (paidIn env opened status sysvar k) with
      capitalization := c } : Bank)) grown
  · rw [due]
    simp only [distributing, add_assoc, storing]

end ReadyFor

/-- The bank of a block inside of an epoch, before it distributes. -/
abbrev Bank.child (parent : Bank) (block : Block) (epochStakes : Store Epoch (Store Pubkey VoteAccount)) : Bank :=
  { parent with
    slot := block.slot
    blockHeight := parent.blockHeight + 1
    lastBlockhash := block.lastBlockhash
    rewards := []
    epochStakes }

/-- A block inside of an epoch takes everything over from its parent and distributes. -/
theorem newFromParent_inEpoch (splitting) (inEpoch : env.getEpoch parent.epochSchedule block.slot = parent.epoch)
    (height : parent.blockHeight + 1 < 2 ^ 64) :
    ∃ epochStakes, newFromParent env splitting block parent =
      (parent.child block epochStakes).distributePartitionedEpochRewards env := by
  have heights : okOr (checkedAdd 64 parent.blockHeight 1) RewardsPanic.blockHeight =
      .ok (parent.blockHeight + 1) := okOr_eq_ok.mpr (checkedAdd_eq_some.mpr ⟨height, rfl⟩)
  simp only [newFromParent, heights, inEpoch, lt_irrefl, if_false, updateEpochStakes]
  cases parent.epochStakes.lookup (env.getLeaderScheduleEpoch parent.epochSchedule block.slot) with
  | none => exact ⟨_, rfl⟩
  | some => exact ⟨_, rfl⟩

/-- The partitions are the same whether they are hashed now or were hashed before. -/
theorem partitionedRewards_ok (documented : env.Documented) (pos : 0 < sysvar.epochRewards.numPartitions)
    (numPartitions : bank.getEpochRewardsSysvar.numPartitions = sysvar.epochRewards.numPartitions)
    (parentBlockhash : bank.getEpochRewardsSysvar.parentBlockhash = sysvar.epochRewards.parentBlockhash)
    (known : phase = .calculation status ∨ phase = .distribution (status.partitioned env sysvar)) :
    bank.partitionedRewards env phase = .ok (status.partitioned env sysvar) := by
  rcases known with rfl | rfl
  · simp only [partitionedRewards, numPartitions, parentBlockhash]
    have hashed := hashRewardsIntoPartitions_ok (partitionOf_lt documented pos)
      status.allStakeRewards
    exact congrArg (Except.bind · _) hashed
  · rfl

/-- The status of a block of the interval is one of two, with the same start. -/
theorem Paying.phase_of_lt (paying : Paying env opened status sysvar k bank)
    (inside : k < sysvar.epochRewards.numPartitions) :
    ∃ phase, bank.epochRewardStatus = .active phase ∧
      phase.distributionStartingBlockHeight = status.distributionStartingBlockHeight ∧
      (phase = .calculation status ∨ phase = .distribution (status.partitioned env sysvar)) := by
  rw [paying.phase]
  split_ifs with first
  · exact ⟨_, rfl, rfl, .inl rfl⟩
  · exact ⟨_, rfl, rfl, .inr rfl⟩

theorem mem_paidIn {stakeReward : StakeReward} (mem : stakeReward ∈ paidIn env opened status sysvar k) :
    ∃ reward ∈ status.computed, sysvar.partitionOf env reward.stakePubkey = k ∧
      credited env opened.stakeDelegations reward = some stakeReward := by
  obtain ⟨reward, inside, paid⟩ := mem_filterMap.mp mem
  obtain ⟨computed, here⟩ := mem_filter.mp inside
  exact ⟨reward, computed, of_decide_eq_true here, paid⟩

theorem nodup_paidIn (isOpen : Opened env opened status sysvar) :
    ((paidIn env opened status sysvar k).map StakeReward.stakePubkey).Nodup := by
  have sublist : ((paidIn env opened status sysvar k).map StakeReward.stakePubkey).Sublist
      ((dueIn env status sysvar k).map stakePubkey) :=
    map_filterMap_sublist (fun _ _ => credited_stakePubkey) _
  exact (sublist.trans (filter_sublist.map _)).nodup isOpen.nodup

/-- What a block pays adds up to what its partition is credited with. -/
theorem stakeLamports_insertAll (isOpen : Opened env opened status sysvar) {accounts : Store Pubkey StakeAccount}
    (unpaid : ∀ pubkey, k ≤ sysvar.partitionOf env pubkey →
      accounts.lookup pubkey = opened.stakeDelegations.lookup pubkey) :
    total (fun _ account => account.lamports)
        (insertAll StakeReward.stakePubkey StakeReward.stakeAccount
          (paidIn env opened status sysvar k) accounts) =
      total (fun _ account => account.lamports) accounts +
        ((dueIn env status sysvar k).map (creditedAmount env opened.stakeDelegations)).sum := by
  rw [total_insertAll _ (·.stakeRewardInfo.lamports.toNat)
    (nodup_paidIn isOpen)]
  · congr 1
    unfold paidIn dueIn
    induction inPartition (sysvar.partitionOf env) k status.computed with
    | nil => rfl
    | cons reward rest ih =>
      rw [filterMap_cons, map_cons, sum_cons, ← ih]
      cases paid : credited env opened.stakeDelegations reward with
      | none => simp [creditedAmount, paid]
      | some =>
        obtain ⟨_, -, -, rfl⟩ := credited_eq_some.mp paid
        simp [creditedAmount, paid, StakeReward.of]
  · intro stakeReward mem
    obtain ⟨_, -, here, paid⟩ := mem_paidIn mem
    obtain ⟨account, found, -, rfl⟩ := credited_eq_some.mp paid
    exact ⟨account, (unpaid _ here.ge).trans found, rfl⟩

/-- The bank after the block of a partition. -/
def afterPartition (env : Outside) (opened : Bank) (status : StartBlockHeightAndRewards)
    (sysvar : SysvarAccount) (k : Nat) (bank : Bank) : Bank :=
  let paid := paidIn env opened status sysvar k
  let stored := ({ bank.storeStakeAccounts paid with
    capitalization := opened.capitalization + creditedBefore env opened status sysvar (k + 1) } :
      Bank).updateRewardHistoryInPartition paid
  { stored with
    epochRewardStatus :=
      if k + 1 < sysvar.epochRewards.numPartitions then .active (.distribution (status.partitioned env sysvar))
      else .inactive
    epochRewardsAccount := some (sysvar.distributing (dueBefore env status sysvar (k + 1))
      (decide (k + 1 < sysvar.epochRewards.numPartitions))) }

theorem stakeDelegations_afterPartition : (afterPartition env opened status sysvar k bank).stakeDelegations =
    insertAll StakeReward.stakePubkey StakeReward.stakeAccount (paidIn env opened status sysvar k)
      bank.stakeDelegations := rfl

/-- The block that stores the next partition is one block further. -/
theorem Paying.succ (paying : Paying env opened status sysvar k parent) (isOpen : Opened env opened status sysvar)
    (block epochStakes) : Paying env opened status sysvar (k + 1)
      (afterPartition env opened status sysvar k (parent.child block epochStakes)) where
  epoch := paying.epoch
  schedule := paying.schedule
  height := congrArg (· + 1) paying.height
  phase := by rw [if_neg (succ_ne_zero k)]; rfl
  account := rfl
  capitalization := rfl
  unpaid := by
    intro pubkey later
    rw [stakeDelegations_afterPartition, lookup_insertAll_of_notMem]
    · exact paying.unpaid pubkey (by omega)
    · intro stored
      obtain ⟨stakeReward, mem, rfl⟩ := mem_map.mp stored
      obtain ⟨reward, -, here, paid⟩ := mem_paidIn mem
      rw [credited_stakePubkey paid] at later
      omega
  paid := by
    intro reward computed before stakeReward paid
    rw [stakeDelegations_afterPartition, ← credited_stakePubkey paid]
    rcases Nat.lt_succ_iff_lt_or_eq.mp before with earlier | here
    · rw [lookup_insertAll_of_notMem, credited_stakePubkey paid]
      · exact paying.paid reward computed earlier stakeReward paid
      intro stored
      obtain ⟨other, mem, same⟩ := mem_map.mp stored
      obtain ⟨reward', -, here, paid'⟩ := mem_paidIn mem
      rw [credited_stakePubkey paid, credited_stakePubkey paid'] at same
      rw [same] at here
      omega
    · have mem : stakeReward ∈ paidIn env opened status sysvar k :=
        mem_filterMap.mpr ⟨reward, mem_filter.mpr ⟨computed, decide_eq_true here⟩, paid⟩
      exact lookup_insertAll_of_mem (nodup_paidIn isOpen) mem
  lamports := by
    rw [stakeLamports, stakeDelegations_afterPartition, stakeLamports_insertAll isOpen paying.unpaid,
      creditedBefore_succ, ← add_assoc, ← paying.lamports]
    rfl
  stores := by
    obtain ⟨before, same, perm⟩ := paying.stores
    refine ⟨before ++ (paidIn env opened status sysvar k).map fun stakeReward => (block.slot, stakeReward), ?_, ?_⟩
    · rw [← append_assoc, ← same]
      rfl
    · have stored : ((earlier (sysvar.partitionOf env) (k + 1) status.computed).filterMap
          (credited env opened.stakeDelegations)).Perm _ := earlier_succ_perm.filterMap _
      rw [filterMap_append] at stored
      rw [map_append, map_map]
      exact (perm.append (List.Perm.of_eq (map_id' _))).trans stored.symm
  votes := paying.votes

/-- A bank that has all partitions behind it leaves everything as it is. -/
theorem Paying.idle (paying : Paying env opened status sysvar k parent) (documented : env.Documented)
    (pos : 0 < sysvar.epochRewards.numPartitions) (after : sysvar.epochRewards.numPartitions ≤ k) (block : Block)
    (epochStakes) : Paying env opened status sysvar (k + 1) (parent.child block epochStakes) := by
  have lt : ∀ pubkey, sysvar.partitionOf env pubkey < sysvar.epochRewards.numPartitions :=
    partitionOf_lt documented pos
  have same : earlier (sysvar.partitionOf env) (k + 1) status.computed =
      earlier (sysvar.partitionOf env) k status.computed := by
    rw [earlier_of_le lt after, earlier_of_le lt (le_succ_of_le after)]
  have past : ¬ k < sysvar.epochRewards.numPartitions := by omega
  have past' : ¬ k + 1 < sysvar.epochRewards.numPartitions := by omega
  have due : dueBefore env status sysvar (k + 1) = dueBefore env status sysvar k := by
    simp only [dueBefore, same]
  have paid : creditedBefore env opened status sysvar (k + 1) = creditedBefore env opened status sysvar k := by
    simp only [creditedBefore, same]
  constructor
  case epoch => exact paying.epoch
  case schedule => exact paying.schedule
  case height => simp only [paying.height, add_assoc]
  case phase =>
    have phase := paying.phase
    rw [if_neg (by omega), if_neg past] at phase
    rw [if_neg (succ_ne_zero k), if_neg past']
    exact phase
  case account =>
    have account := paying.account
    rw [decide_eq_false past] at account
    rw [decide_eq_false past', due]
    exact account
  case capitalization => rw [paid]; exact paying.capitalization
  case unpaid => exact fun pubkey later => absurd (lt pubkey) (by omega)
  case paid =>
    exact fun reward computed _ => paying.paid reward computed ((lt reward.stakePubkey).trans_le after)
  case lamports => rw [paid]; exact paying.lamports
  case stores => rw [same]; exact paying.stores
  case votes => exact paying.votes

/-- The block of a partition pays it, and the block of the last one closes the interval. -/
theorem distributePartition_ok (documented : env.Documented) (isOpen : Opened env opened status sysvar)
    (inside : k < sysvar.epochRewards.numPartitions) (ready : ReadyFor env opened status sysvar k bank)
    (epoch : bank.epoch = opened.epoch) (schedule : bank.epochSchedule = opened.epochSchedule)
    (height : bank.blockHeight = opened.blockHeight + k + 1) :
    bank.distributePartition env (status.partitioned env sysvar) =
      .ok (afterPartition env opened status sysvar k bank) := by
  have ends := isOpen.ends
  have short := isOpen.short
  have partitions : (status.partitioned env sysvar).partitionIndices.length =
      sysvar.epochRewards.numPartitions := length_partitionTable _ _ _
  have start : (status.partitioned env sysvar).distributionStartingBlockHeight = opened.blockHeight + 1 :=
    isOpen.start
  have last : wrappingAdd 64 (opened.blockHeight + 1) sysvar.epochRewards.numPartitions =
      opened.blockHeight + 1 + sysvar.epochRewards.numPartitions := wrappingAdd_of_lt ends
  have next : saturatingAdd 64 bank.blockHeight 1 = bank.blockHeight + 1 := saturatingAdd_of_lt (by omega)
  have here : opened.blockHeight + 1 ≤ bank.blockHeight ∧
      bank.blockHeight < opened.blockHeight + 1 + sysvar.epochRewards.numPartitions := by
    omega
  have index : bank.blockHeight - (opened.blockHeight + 1) = k := by omega
  have long : ¬ env.getSlotsInEpoch bank.epochSchedule bank.epoch ≤ sysvar.epochRewards.numPartitions := by
    rw [epoch, schedule]
    omega
  let paying : Bank := { bank with epochRewardStatus := .active (.distribution (status.partitioned env sysvar)) }
  have readyToo : ReadyFor env opened status sysvar k paying :=
    { account := ready.account, capitalization := ready.capitalization, unpaid := ready.unpaid }
  have paid := readyToo.distributeEpochRewardsInPartition_ok documented isOpen inside
  simp only [distributePartition, bind_ok_iff, rejectIf_eq_ok, partitions, start, last]
  refine ⟨(), long, ?_⟩
  rw [if_pos here, index, bind_ok_iff]
  refine ⟨_, paid, ?_⟩
  -- The height did not change, so the last partition is told by `k` alone.
  change (if opened.blockHeight + 1 + sysvar.epochRewards.numPartitions ≤
    saturatingAdd 64 bank.blockHeight 1 then _ else _) = _
  rw [next]
  unfold afterPartition
  rcases lt_or_ge (k + 1) sysvar.epochRewards.numPartitions with more | final
  · rw [if_neg (by omega), if_pos more, decide_eq_true more]
    rfl
  rw [if_pos (by omega), if_neg (by omega), decide_eq_false (by omega)]
  have room := isOpen.enough
  have all := dueBefore_le env status sysvar (k + 1)
  let closing : Bank :=
    { ({ paying.storeStakeAccounts (paidIn env opened status sysvar k) with
        capitalization := opened.capitalization + creditedBefore env opened status sysvar (k + 1)
        epochRewardsAccount :=
          some (sysvar.distributing (dueBefore env status sysvar (k + 1)) true) } :
        Bank).updateRewardHistoryInPartition (paidIn env opened status sysvar k) with
      epochRewardStatus := .inactive }
  have held : closing.epochRewardsAccount =
      some (sysvar.distributing (dueBefore env status sysvar (k + 1)) true) := rfl
  have closed := setEpochRewardsSysvarToInactive_ok env
    (show closing.getEpochRewardsSysvar =
      (sysvar.distributing (dueBefore env status sysvar (k + 1)) true).epochRewards from rfl)
    (by simp only [distributing]; omega)
  rw [updateSysvarAccount_settled held isOpen.rent] at closed
  exact closed

section

variable (documented : env.Documented) (splitting : Splitting) (isOpen : Opened env opened status sysvar)
include documented splitting isOpen

/-- One more block of the epoch pays the next partition, or nothing once all are paid, and does not panic. -/
theorem paying_step {block : Block} (paying : Paying env opened status sysvar k parent)
    (inEpoch : env.getEpoch opened.epochSchedule block.slot = opened.epoch)
    (height : opened.blockHeight + k + 1 < 2 ^ 64) :
    ∃ bank, newFromParent env splitting block parent = .ok bank ∧
      Paying env opened status sysvar (k + 1) bank := by
  rw [← paying.schedule, ← paying.epoch] at inEpoch
  obtain ⟨epochStakes, child⟩ := newFromParent_inEpoch splitting inEpoch (by rw [paying.height]; omega)
  rw [child]
  rcases lt_or_ge k sysvar.epochRewards.numPartitions with inside | after
  · obtain ⟨phase, active, start, known⟩ := paying.phase_of_lt inside
    let bank := parent.child block epochStakes
    have account : bank.epochRewardsAccount = some (sysvar.distributing (dueBefore env status sysvar k) true) := by
      rw [← decide_eq_true inside]
      exact paying.account
    have paid : bank.distributePartition env (status.partitioned env sysvar) = _ :=
      distributePartition_ok documented isOpen inside
      { account, capitalization := paying.capitalization, unpaid := paying.unpaid } paying.epoch
      paying.schedule (congrArg (· + 1) paying.height)
    have before : ¬ bank.blockHeight < phase.distributionStartingBlockHeight := by
      rw [start, isOpen.start, show bank.blockHeight = parent.blockHeight + 1 from rfl, paying.height]
      omega
    have sysvarNow : bank.getEpochRewardsSysvar =
        (sysvar.distributing (dueBefore env status sysvar k) true).epochRewards := by
      rw [getEpochRewardsSysvar, account]
      rfl
    have partitions : bank.partitionedRewards env phase = .ok (status.partitioned env sysvar) :=
      partitionedRewards_ok documented isOpen.pos (by rw [sysvarNow]; rfl) (by rw [sysvarNow]; rfl) known
    refine ⟨afterPartition env opened status sysvar k bank, ?_, ?_⟩
    · change bank.distributePartitionedEpochRewards env = _
      rw [distributePartitionedEpochRewards, show bank.epochRewardStatus = .active phase from active]
      simp only [before, if_false, partitions]
      exact paid
    · exact paying.succ isOpen block epochStakes
  · refine ⟨_, ?_, paying.idle documented isOpen.pos after block epochStakes⟩
    have phase := paying.phase
    rw [if_neg (by have := isOpen.pos; omega), if_neg (by omega)] at phase
    simp only [distributePartitionedEpochRewards, phase]

/-- The blocks of an epoch, one after the other. -/
def descend (env : Outside) (splitting : Splitting) (blocks : List Block) (bank : Bank) :
    Except RewardsPanic Bank :=
  blocks.foldlM (fun bank block => newFromParent env splitting block bank) bank

/-- Any number of blocks of the epoch pays as many partitions, without a panic. -/
theorem paying_run (blocks) (paying : Paying env opened status sysvar k parent)
    (inEpoch : ∀ block ∈ blocks, env.getEpoch opened.epochSchedule block.slot = opened.epoch)
    (height : opened.blockHeight + k + blocks.length < 2 ^ 64) :
    ∃ bank, descend env splitting blocks parent = .ok bank ∧
      Paying env opened status sysvar (k + blocks.length) bank := by
  induction blocks generalizing k parent with
  | nil => exact ⟨parent, rfl, paying⟩
  | cons block rest ih =>
    rw [length_cons] at height
    obtain ⟨next, taken, further⟩ :=
      paying_step documented splitting isOpen paying (inEpoch block mem_cons_self) (by omega)
    obtain ⟨bank, descended, reached⟩ :=
      ih further (fun later mem => inEpoch later (mem_cons_of_mem _ mem)) (by omega)
    refine ⟨bank, ?_, ?_⟩
    · rw [descend, foldlM_cons, taken]
      exact descended
    · rw [length_cons, add_comm rest.length 1, ← add_assoc]
      exact reached

end

theorem Opened.paying (isOpen : Opened env opened status sysvar) :
    Paying env opened status sysvar 0 opened where
  epoch := rfl
  schedule := rfl
  height := rfl
  phase := isOpen.phase
  account := by
    rw [isOpen.account, decide_eq_true isOpen.pos]
    simp only [dueBefore, earlier_zero, distributing, map_nil, sum_nil, add_zero, ← isOpen.active]
  capitalization := by simp [creditedBefore]
  unpaid := fun _ _ => rfl
  paid := fun _ _ before => absurd before (not_lt_zero _)
  lamports := by simp [creditedBefore]
  stores := ⟨[], (append_nil _).symm, by simp⟩
  votes := rfl

end Step

end Payout.Rewards
