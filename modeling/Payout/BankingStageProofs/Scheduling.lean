/-
Purpose: What a scheduling pass keeps. The locks are those of the transactions sent and of the batches being filled,
  the tracker counts what was sent, conflicting transactions are on one thread in the order of their locks, and every
  buffered transaction is in one place.
-/
import Payout.BankingStageProofs.Buffer
import Payout.BankingStageProofs.Locks
import Mathlib.Data.List.Flatten

namespace Payout.BankingStage

open Lib List Function TransactionState Nat LockCounts
open InFlightTracker (trackBatch)

variable {thread threadId : ThreadId} {numThreads cost capacity : Nat} {id : TransactionPriorityId}

/-! ### What the threads hold -/

/-- The transactions that a thread was sent and has not finished. -/
def unfinishedOn (unfinished : List (ThreadId × ConsumeWork)) (threadId : ThreadId) : List BatchItem :=
  (unfinished.filter fun sent => sent.1 = threadId).flatMap fun sent => sent.2.items

/-- The transactions that hold locks on a thread. -/
def held (common : SchedulingCommon) (threadId : ThreadId) : List BatchItem :=
  unfinishedOn common.unfinished threadId ++ (common.batches threadId).items

/-- How often the transactions of each thread lock an account. -/
def lockCounts (held : ThreadId → List BatchItem) : LockCounts :=
  fun threadId key => ((held threadId).map fun item => item.transaction.accountKeys.count key).sum

/-- The transactions in the batches being filled. -/
def batched (common : SchedulingCommon) : List BatchItem :=
  (List.range common.numThreads).flatMap fun threadId => (common.batches threadId).items

/-- The transactions sent and in batches. -/
def allTaken (common : SchedulingCommon) : List BatchItem :=
  (common.unfinished.flatMap fun sent => sent.2.items) ++ batched common

def totalCost (items : List BatchItem) : Nat := (items.map (·.cost)).sum

/-- The lock table holds the locks of the transactions that threads hold. -/
structure Locked (common : SchedulingCommon) : Prop where
  fits : common.numThreads ≤ 64
  sameThreads : common.accountLocks.numThreads = common.numThreads
  exact' : common.accountLocks.locks.Exact (lockCounts (held common))
  inRange : ∀ threadId, common.numThreads ≤ threadId → held common threadId = []

/-- The id of a batch before which `count` others were sent. -/
def batchIdAfter (count : Nat) : Nat := wrappingSub 64 0 count

theorem batchIdAfter_succ (count : Nat) : wrappingSub 64 (batchIdAfter count) 1 = batchIdAfter (count + 1) := by
  unfold batchIdAfter wrappingSub
  omega

theorem batchIdAfter_ne {first second : Nat} (lt : first < second) (few : second < 2 ^ 64) :
    batchIdAfter first ≠ batchIdAfter second := by
  unfold batchIdAfter wrappingSub
  omega

/-- The tracker knows the batches that were sent. -/
structure Tracked (common : SchedulingCommon) : Prop where
  num : ∀ threadId, common.inFlightTracker.numInFlightPerThread threadId =
    (unfinishedOn common.unfinished threadId).length % 2 ^ 64
  cus : ∀ threadId, common.inFlightTracker.cusInFlightPerThread threadId =
    totalCost (unfinishedOn common.unfinished threadId) % 2 ^ 64
  entries : ∀ sent ∈ common.unfinished, common.inFlightTracker.batches.lookup sent.2.batchId = some
    { threadId := sent.1, numTransactions := sent.2.items.length, totalCus := totalCost sent.2.items % 2 ^ 64 }
  ids : (common.unfinished.map (·.2.batchId)).Nodup
  /-- Every batch had a transaction that was locked, so that the ids last as long as 64 bits count the locks. -/
  given : ∃ count, common.inFlightTracker.nextId = batchIdAfter count ∧
    count + (batched common).length ≤ common.numLocked ∧
    ∀ sent ∈ common.unfinished, ∃ before < count, sent.2.batchId = batchIdAfter before
  few : common.numLocked ≤ 2 ^ 64

/-- No two of some transactions conflict. -/
def Apart (items : List BatchItem) : Prop :=
  items.Pairwise fun one other => ¬ Conflict one.transaction other.transaction

/-- Conflicting transactions of two batches were locked in the order of the batches. -/
def LockedBefore (first second : List BatchItem) : Prop :=
  ∀ one ∈ first, ∀ other ∈ second, Conflict one.transaction other.transaction → one.lockedAt < other.lockedAt

/-- Batches are free of conflicts and in the order of their locks. -/
structure Ordered (common : SchedulingCommon) : Prop where
  batchCus : ∀ threadId, (common.batches threadId).totalCus = totalCost (common.batches threadId).items % 2 ^ 64
  batchApart : ∀ threadId, Apart (common.batches threadId).items
  apart : ∀ sent ∈ common.unfinished, Apart sent.2.items
  inOrder : common.unfinished.Pairwise fun one other => LockedBefore one.2.items other.2.items
  earlier : ∀ sent ∈ common.unfinished, ∀ threadId, LockedBefore sent.2.items (common.batches threadId).items
  stamps : ∀ threadId, ∀ item ∈ held common threadId, item.lockedAt < common.numLocked

variable {common : SchedulingCommon} {item : BatchItem}

section Held

variable {sent : ThreadId × ConsumeWork}

theorem unfinishedOn_append_singleton :
    unfinishedOn (unfinished ++ [sent]) threadId =
      unfinishedOn unfinished threadId ++ if sent.1 = threadId then sent.2.items else [] := by
  unfold unfinishedOn
  rw [filter_append, flatMap_append]
  congr 1
  split <;> rename_i here <;> simp [here]

theorem totalCost_append (items items') : totalCost (items ++ items') = totalCost items + totalCost items' := by
  rw [totalCost, map_append, sum_append_nat]
  rfl

theorem lockCounts_pos {all : ThreadId → List BatchItem} :
    0 < lockCounts all threadId key ↔ ∃ item ∈ all threadId, key ∈ item.transaction.accountKeys := by
  unfold lockCounts
  rw [List.sum_pos_iff_exists_pos_nat]
  simp [List.count_pos_iff]

/-- A transaction with distinct keys locks an account once. -/
theorem lockCounts_le {all : ThreadId → List BatchItem} (distinct : ∀ item ∈ all threadId, item.transaction.Distinct)
    (key) : lockCounts all threadId key ≤ (all threadId).length := by
  have once : ∀ count ∈ (all threadId).map fun item => item.transaction.accountKeys.count key, count ≤ 1 := by
    intro count mem
    obtain ⟨item, inAll, rfl⟩ := mem_map.mp mem
    exact nodup_iff_count_le_one.mp (.of_map _ (distinct item inAll)) key
  have sum := sum_le_card_nsmul _ 1 once
  rwa [length_map, smul_eq_mul, mul_one] at sum

theorem lockCounts_append (all threadId item) :
    lockCounts (update all threadId (all threadId ++ [item])) =
      (lockCounts all).add threadId item.transaction.accountKeys := by
  funext thread key
  by_cases same : thread = threadId
  · subst same
    simp [lockCounts, add]
  · simp [lockCounts, add, same]

theorem Locked.below (locked : Locked common) : (lockCounts (held common)).Below common.accountLocks.numThreads := by
  intro thread key pos
  obtain ⟨_, mem, -⟩ := lockCounts_pos.mp pos
  by_contra outside
  rw [locked.sameThreads, not_lt] at outside
  rw [locked.inRange thread outside] at mem
  cases mem

theorem Locked.same_thread (locked : Locked common) {one other : BatchItem} (first : one ∈ held common thread)
    (second : other ∈ held common thread') (conflict : Conflict one.transaction other.transaction) :
    thread = thread' := by
  obtain ⟨_, _, _, inOne, inOther, writes⟩ := conflict
  exact locked.exact'.same_thread (lockCounts_pos.mpr ⟨one, first, inOne⟩)
    (lockCounts_pos.mpr ⟨other, second, inOther⟩) writes

theorem held_of_unfinished (mem : sent ∈ common.unfinished) (inItems : item ∈ sent.2.items) :
    item ∈ held common sent.1 :=
  mem_append_left _ (mem_flatMap.mpr ⟨sent, mem_filter.mpr ⟨mem, decide_eq_true rfl⟩, inItems⟩)

theorem Locked.held_subperm (locked : Locked common) (thread) : (held common thread).Subperm (allTaken common) := by
  by_cases inRange : thread < common.numThreads
  · have inBatches :=
      (singleton_sublist.mpr (mem_range.mpr inRange)).flatMap fun thread => (common.batches thread).items
    rw [flatMap_singleton] at inBatches
    exact ((filter_sublist.flatMap _).append inBatches).subperm
  · rw [locked.inRange thread (not_lt.mp inRange)]
    exact nil_subperm

theorem flatMap_update_perm (inRange : threadId < numThreads) (batches : Batches) (batch) :
    ((List.range numThreads).flatMap fun thread => (update batches threadId batch thread).items).Perm
      (batch.items ++ ((List.range numThreads).erase threadId).flatMap fun thread => (batches thread).items) := by
  have first : (range numThreads).Perm (threadId :: (range numThreads).erase threadId) :=
    perm_cons_erase (mem_range.mpr inRange)
  refine (first.flatMap_right _).trans ?_
  rw [flatMap_cons, update_self]
  have others : ∀ thread ∈ (range numThreads).erase threadId,
      (update batches threadId batch thread).items = (batches thread).items := by
    intro thread mem
    have different : thread ≠ threadId := (nodup_range.mem_erase_iff.mp mem).1
    rw [update_of_ne different]
  rw [flatMap_congr others]

theorem batched_perm (inRange : threadId < common.numThreads) :
    (batched common).Perm ((common.batches threadId).items ++
      ((List.range common.numThreads).erase threadId).flatMap fun thread => (common.batches thread).items) := by
  have all := flatMap_update_perm inRange common.batches (common.batches threadId)
  rwa [update_eq_self] at all

end Held

/-! ### Sending batches -/

/-- The locks, the tracker and the batches are as they should be. -/
structure Steady (common : SchedulingCommon) : Prop where
  locked : Locked common
  tracked : Tracked common
  ordered : Ordered common

/-- `num` transactions of batches were sent from one state to the other. -/
structure Sends (common common' : SchedulingCommon) (num : Nat) : Prop where
  numThreads : common'.numThreads = common.numThreads
  numLocked : common'.numLocked = common.numLocked
  locks : common'.accountLocks = common.accountLocks
  holds : held common' = held common
  taken : (allTaken common').Perm (allTaken common)
  counted : num + (batched common').length = (batched common).length
  /-- No batch is filled. -/
  emptied : ∀ threadId, common'.batches threadId = common.batches threadId ∨ common'.batches threadId = .empty

section Sending

variable {common' : SchedulingCommon} {num : Nat}

theorem Sends.refl (common) : Sends common common 0 := by
  constructor
  case taken => exact List.Perm.refl _
  case counted => exact zero_add _
  case emptied => exact fun _ => .inl rfl
  all_goals rfl

theorem Sends.trans (one : Sends common common' num) (two : Sends common' common'' num') :
    Sends common common'' (num + num') := by
  constructor
  case numThreads => exact two.numThreads.trans one.numThreads
  case numLocked => exact two.numLocked.trans one.numLocked
  case locks => exact two.locks.trans one.locks
  case holds => exact two.holds.trans one.holds
  case taken => exact two.taken.trans one.taken
  case counted =>
    have first := one.counted
    have second := two.counted
    omega
  case emptied =>
    intro threadId
    rcases two.emptied threadId with same | empty
    · rw [same]
      exact one.emptied threadId
    · exact .inr empty

theorem Sends.locked (sends : Sends common common' num) (locked : Locked common) : Locked common' := by
  constructor
  case fits => exact sends.numThreads ▸ locked.fits
  case sameThreads => rw [sends.locks, sends.numThreads, locked.sameThreads]
  case exact' =>
    rw [sends.locks, sends.holds]
    exact locked.exact'
  case inRange =>
    rw [sends.numThreads, sends.holds]
    exact locked.inRange

/-- The state after the batch of a thread was sent. -/
def afterSend (common : SchedulingCommon) (threadId : ThreadId) : SchedulingCommon :=
  { common with
    batches := Function.update common.batches threadId .empty
    inFlightTracker := (common.inFlightTracker.trackBatch (common.batches threadId).items.length
      (common.batches threadId).totalCus threadId).1
    unfinished := common.unfinished ++
      [(threadId, { batchId := common.inFlightTracker.nextId, items := (common.batches threadId).items })] }

theorem held_afterSend : held (afterSend common threadId) = held common := by
  funext thread
  simp only [held, afterSend, unfinishedOn_append_singleton]
  by_cases same : thread = threadId
  · subst same
    simp [Batch.empty]
  · simp [same, Ne.symm same]

theorem sends_afterSend (inRange : threadId < common.numThreads) :
    Sends common (afterSend common threadId) (common.batches threadId).items.length := by
  have before := batched_perm inRange
  have after : (batched (afterSend common threadId)).Perm
      (((range common.numThreads).erase threadId).flatMap fun thread => (common.batches thread).items) :=
    flatMap_update_perm inRange common.batches .empty
  constructor
  case numThreads => rfl
  case numLocked => rfl
  case locks => rfl
  case holds => exact held_afterSend
  case taken =>
    unfold allTaken
    rw [show (afterSend common threadId).unfinished = common.unfinished ++ [_] from rfl, flatMap_append,
      flatMap_singleton, append_assoc]
    exact ((after.append_left _).trans before.symm).append_left _
  case counted =>
    rw [before.length_eq, after.length_eq, length_append]
  case emptied =>
    intro thread
    by_cases same : thread = threadId
    · exact .inr (by rw [same]; exact update_self _ _ _)
    · exact .inl (update_of_ne same _ _)

section

variable (steady : Steady common)
include steady

theorem tracked_afterSend (inRange : threadId < common.numThreads) (nonempty : (common.batches threadId).items ≠ []) :
    Tracked (afterSend common threadId) := by
  obtain ⟨-, tracked, ordered⟩ := steady
  obtain ⟨count, next, counted, older⟩ := tracked.given
  have moved := (sends_afterSend inRange).counted
  have some := length_pos_iff.mpr nonempty
  have few := tracked.few
  -- Fewer than 2 ^ 64 ids were given, and the next one is none of them.
  have fresh : ∀ sent ∈ common.unfinished, sent.2.batchId ≠ common.inFlightTracker.nextId := by
    intro sent mem
    obtain ⟨before, earlier, given⟩ := older sent mem
    rw [next, given]
    exact batchIdAfter_ne earlier (by omega)
  constructor
  case num =>
    intro thread
    simp only [afterSend, trackBatch, unfinishedOn_append_singleton, length_append]
    by_cases same : thread = threadId
    · subst same
      simp [tracked.num, wrappingAdd]
    · simp [same, Ne.symm same, tracked.num]
  case cus =>
    intro thread
    simp only [afterSend, trackBatch, unfinishedOn_append_singleton, totalCost_append]
    by_cases same : thread = threadId
    · subst same
      simp [tracked.cus, ordered.batchCus, wrappingAdd]
    · simp [same, Ne.symm same, tracked.cus, totalCost]
  case entries =>
    intro sent mem
    simp only [afterSend, trackBatch]
    rcases mem_append.mp mem with old | new
    · rw [AList.lookup_insert_ne (fresh sent old)]
      exact tracked.entries sent old
    · cases mem_singleton.mp new
      rw [AList.lookup_insert, ordered.batchCus]
  case ids =>
    simp only [afterSend, map_append, map_cons, map_nil]
    refine nodup_append.mpr ⟨tracked.ids, nodup_singleton _, ?_⟩
    intro old isOld new isNew
    cases mem_singleton.mp isNew
    obtain ⟨sent, mem, rfl⟩ := mem_map.mp isOld
    exact fresh sent mem
  case given =>
    refine ⟨count + 1, ?_, show count + 1 + (batched (afterSend common threadId)).length ≤
      common.numLocked by omega, ?_⟩
    · simp only [afterSend, trackBatch, next, batchIdAfter_succ]
    intro sent mem
    rcases mem_append.mp mem with old | new
    · obtain ⟨before, earlier, given⟩ := older sent old
      exact ⟨before, lt_succ_of_lt earlier, given⟩
    · cases mem_singleton.mp new
      exact ⟨count, lt_succ_self _, next⟩
  case few => exact few

theorem ordered_afterSend : Ordered (afterSend common threadId) := by
  obtain ⟨locked, -, ordered⟩ := steady
  have batchOf : ∀ thread, (afterSend common threadId).batches thread =
      if thread = threadId then .empty else common.batches thread := by
    intro thread
    exact update_apply ..
  have nothing : ∀ items : List BatchItem, LockedBefore items Batch.empty.items :=
    fun items one _ other mem => nomatch mem
  constructor
  case batchCus =>
    intro thread
    rw [batchOf]
    split
    · rfl
    · exact ordered.batchCus thread
  case batchApart =>
    intro thread
    rw [batchOf]
    split
    · exact .nil
    · exact ordered.batchApart thread
  case apart =>
    intro sent mem
    rcases mem_append.mp mem with old | new
    · exact ordered.apart sent old
    · cases mem_singleton.mp new
      exact ordered.batchApart threadId
  case inOrder =>
    refine pairwise_append.mpr ⟨ordered.inOrder, pairwise_singleton _ _, ?_⟩
    intro sent mem new isNew
    cases mem_singleton.mp isNew
    exact ordered.earlier sent mem threadId
  case earlier =>
    intro sent mem thread
    rw [batchOf]
    split
    · exact nothing _
    rename_i different
    rcases mem_append.mp mem with old | new
    · exact ordered.earlier sent old thread
    · cases mem_singleton.mp new
      -- Batches of different threads do not conflict.
      intro one inOne other inOther conflict
      exact absurd (locked.same_thread (mem_append_right _ inOne) (mem_append_right _ inOther) conflict).symm different
  case stamps =>
    intro thread
    rw [held_afterSend]
    exact ordered.stamps thread

theorem sendBatch_spec (inRange : threadId < common.numThreads) :
    ∃ common' num, common.sendBatch threadId = (common', num) ∧ Steady common' ∧ Sends common common' num ∧
      common'.batches threadId = .empty := by
  by_cases empty : (common.batches threadId).items.isEmpty = true
  · refine ⟨common, 0, ?_, steady, .refl common, ?_⟩
    · simp only [SchedulingCommon.sendBatch, empty, if_true]
    · have none := isEmpty_iff.mp empty
      have cus := steady.ordered.batchCus threadId
      rw [none] at cus
      exact Batch.mk.injEq .. ▸ ⟨none, cus⟩
  · have sends : Sends common (afterSend common threadId) _ := sends_afterSend inRange
    refine ⟨afterSend common threadId, _, ?_,
      ⟨sends.locked steady.locked, tracked_afterSend steady inRange (by simpa using empty), ordered_afterSend steady⟩,
      sends, update_self _ _ _⟩
    simp only [SchedulingCommon.sendBatch, empty]
    rfl

theorem sendBatches_spec :
    ∃ common' num, common.sendBatches = (common', num) ∧ Steady common' ∧ Sends common common' num ∧
      ∀ threadId, common'.batches threadId = .empty := by
  have all : ∀ threads : List ThreadId, (∀ threadId ∈ threads, threadId < common.numThreads) →
      ∀ (now : SchedulingCommon) (so : Nat), Steady now → Sends common now so →
      ∃ common' num, threads.foldl (fun reached threadIndex =>
          let sent := reached.1.sendBatch threadIndex
          (sent.1, reached.2 + sent.2)) (now, so) = (common', num) ∧ Steady common' ∧ Sends common common' num ∧
        (∀ threadId ∈ threads, common'.batches threadId = .empty) ∧
        ∀ threadId, now.batches threadId = .empty → common'.batches threadId = .empty := by
    intro threads
    induction threads with
    | nil =>
      intro _ now so steady sends
      exact ⟨now, so, rfl, steady, sends, forall_mem_nil _, fun _ empty => empty⟩
    | cons threadId threads ih =>
      intro inRange now so steady sends
      obtain ⟨first, others⟩ := forall_mem_cons.mp inRange
      obtain ⟨next, num, sent, steady, sends', empty⟩ := sendBatch_spec steady (sends.numThreads ▸ first)
      obtain ⟨common', num', rest, steady, sends, emptied, stays⟩ :=
        ih others next (so + num) steady (sends.trans sends')
      refine ⟨common', num', ?_, steady, sends, ?_, ?_⟩
      · rw [foldl_cons]
        simp only [sent]
        exact rest
      · intro thread mem
        rcases mem_cons.mp mem with rfl | mem
        · exact stays _ empty
        · exact emptied thread mem
      · intro thread empty
        apply stays
        rcases sends'.emptied thread with same | isEmpty
        · exact same.trans empty
        · exact isEmpty
  obtain ⟨common', num, sent, steady', sends, emptied, -⟩ :=
    all (range common.numThreads) (fun _ => mem_range.mp) common 0 steady (.refl common)
  refine ⟨common', num, sent, steady', sends, ?_⟩
  intro threadId
  by_cases inRange : threadId < common.numThreads
  · exact emptied threadId (mem_range.mpr inRange)
  have none : held common' threadId = [] := by
    apply steady'.locked.inRange
    rw [sends.numThreads]
    exact not_lt.mp inRange
  have noItems := (append_eq_nil_iff.mp none).2
  have cus := steady'.ordered.batchCus threadId
  rw [noItems] at cus
  exact Batch.mk.injEq .. ▸ ⟨noItems, cus⟩

end

end Sending

/-! ### A scheduling pass -/

/-- The state after a transaction was locked and added to the batch of a thread. -/
def afterAdd (common : SchedulingCommon) (threadId : ThreadId) (locks : LockTable) (item : BatchItem) :
    SchedulingCommon :=
  { common with
    accountLocks := { common.accountLocks with locks := locks }
    batches := Function.update common.batches threadId ((common.batches threadId).add item)
    numLocked := common.numLocked + 1 }

section Adding

variable {locks : LockTable}

theorem held_afterAdd :
    held (afterAdd common threadId locks item) = update (held common) threadId (held common threadId ++ [item]) := by
  funext thread
  by_cases same : thread = threadId
  · subst same
    simp [held, afterAdd, Batch.add]
  · simp [held, afterAdd, same]

theorem batched_afterAdd (inRange : threadId < common.numThreads) :
    (batched (afterAdd common threadId locks item)).Perm (item :: batched common) := by
  have after : (batched (afterAdd common threadId locks item)).Perm (((common.batches threadId).add item).items ++
      ((range common.numThreads).erase threadId).flatMap fun thread => (common.batches thread).items) :=
    flatMap_update_perm inRange common.batches _
  refine after.trans ?_
  rw [Batch.add, append_assoc, singleton_append]
  exact perm_middle.trans ((batched_perm inRange).symm.cons item)

theorem steady_afterAdd (steady : Steady common) (inRange : threadId < common.numThreads)
    (exact' : locks.Exact ((lockCounts (held common)).add threadId item.transaction.accountKeys))
    (apart : ∀ other ∈ (common.batches threadId).items, ¬ Conflict other.transaction item.transaction)
    (stamp : item.lockedAt = common.numLocked) (few : common.numLocked < 2 ^ 64) :
    Steady (afterAdd common threadId locks item) := by
  obtain ⟨locked, tracked, ordered⟩ := steady
  have batchOf : ∀ thread, (afterAdd common threadId locks item).batches thread =
      if thread = threadId then (common.batches threadId).add item else common.batches thread := by
    intro thread
    exact update_apply ..
  have heldOf : ∀ thread, held (afterAdd common threadId locks item) thread =
      if thread = threadId then held common threadId ++ [item] else held common thread := by
    intro thread
    rw [held_afterAdd]
    exact update_apply ..
  constructor
  case tracked =>
    obtain ⟨count, next, counted, older⟩ := tracked.given
    have grown : (batched (afterAdd common threadId locks item)).length = (batched common).length + 1 :=
      (batched_afterAdd inRange).length_eq
    refine { tracked with given := ⟨count, next, ?_, older⟩, few := few }
    rw [grown]
    exact succ_le_succ counted
  case locked =>
    refine { locked with exact' := ?_, inRange := ?_ }
    · rw [held_afterAdd, lockCounts_append]
      exact exact'
    intro thread outside
    have different : thread ≠ threadId := by
      rintro rfl
      exact absurd inRange (not_lt.mpr outside)
    rw [heldOf, if_neg different]
    exact locked.inRange thread outside
  case ordered =>
    constructor
    case batchCus =>
      intro thread
      rw [batchOf]
      split
      · rw [Batch.add, totalCost_append, ordered.batchCus, wrappingAdd, mod_add_mod]
        rfl
      · exact ordered.batchCus thread
    case batchApart =>
      intro thread
      rw [batchOf]
      split
      · refine pairwise_append.mpr ⟨ordered.batchApart threadId, pairwise_singleton _ _, ?_⟩
        intro other mem new isNew
        cases mem_singleton.mp isNew
        exact apart other mem
      · exact ordered.batchApart thread
    case apart => exact ordered.apart
    case inOrder => exact ordered.inOrder
    case earlier =>
      intro sent mem thread
      rw [batchOf]
      split
      · intro one inOne other inOther conflict
        rcases mem_append.mp inOther with old | new
        · exact ordered.earlier sent mem threadId one inOne other old conflict
        · cases mem_singleton.mp new
          rw [stamp]
          exact ordered.stamps sent.1 one (held_of_unfinished mem inOne)
      · exact ordered.earlier sent mem thread
    case stamps =>
      intro thread other mem
      rw [heldOf] at mem
      have later : (afterAdd common threadId locks item).numLocked = common.numLocked + 1 := rfl
      rw [later]
      split at mem
      · rcases mem_append.mp mem with old | new
        · exact lt_succ_of_lt (ordered.stamps threadId other old)
        · cases mem_singleton.mp new
          omega
      · exact lt_succ_of_lt (ordered.stamps thread other mem)

end Adding

theorem chooses_selectThread (common : SchedulingCommon) : Chooses common.selectThread := by
  intro threads nonempty
  have some := ThreadSet.containedThreads_ne_nil nonempty
  have all : ∀ threadId ∈ threads.containedThreads, threads.contains threadId = true :=
    fun threadId => ThreadSet.contains_of_mem_containedThreads
  unfold SchedulingCommon.selectThread
  generalize threads.containedThreads = list at some all
  cases list with
  | nil => exact absurd rfl some
  | cons first others =>
    refine ⟨_, rfl, ?_⟩
    obtain ⟨isFirst, areOthers⟩ := forall_mem_cons.mp all
    clear some all
    -- The best so far is one of the threads.
    induction others generalizing first with
    | nil => exact isFirst
    | cons other others ih =>
      obtain ⟨isOther, rest⟩ := forall_mem_cons.mp areOthers
      rw [foldl_cons]
      split
      · exact ih other isOther rest
      · exact ih first isFirst rest

/-- What a pass over `numThreads` threads keeps; `aside` are ids in its hands. -/
structure PassKeeps (numThreads capacity : Nat) (aside : List TransactionPriorityId) (pass : Pass) : Prop where
  sameThreads : pass.scheduler.common.numThreads = numThreads
  sameCapacity : pass.container.capacity = capacity
  small : capacity < 2 ^ 32
  few : pass.scheduler.common.numLocked + (pass.container.priorityQueue.length + aside.length) ≤ 2 ^ 64
  steady : Steady pass.scheduler.common
  buffered : Buffered pass.container (aside ++ pass.scheduler.unschedulables) (allTaken pass.scheduler.common)
  covered : ∀ threadId, ∀ item ∈ (pass.scheduler.common.batches threadId).items,
    pass.scheduler.workingAccountSet.Covers item.transaction
  counted : pass.numScheduled = pass.numSent + (batched pass.scheduler.common).length

namespace PassKeeps

variable {aside : List TransactionPriorityId} {pass : Pass}

section

variable (keeps : PassKeeps numThreads capacity aside pass)
include keeps

theorem flush :
    PassKeeps numThreads capacity aside pass.flush ∧ pass.flush.scheduler.workingAccountSet = .clear ∧
      ∀ threadId, pass.flush.scheduler.common.batches threadId = .empty := by
  obtain ⟨common', num, sent, steady, sends, emptied⟩ := sendBatches_spec keeps.steady
  have flushed : pass.flush = { pass with
      scheduler := { pass.scheduler with workingAccountSet := .clear, common := common' }
      numSent := pass.numSent + num } := by
    simp only [Pass.flush, sent]
  rw [flushed]
  refine ⟨?_, rfl, emptied⟩
  constructor
  case sameThreads => exact sends.numThreads.trans keeps.sameThreads
  case sameCapacity => exact keeps.sameCapacity
  case small => exact keeps.small
  case few => exact sends.numLocked ▸ keeps.few
  case steady => exact steady
  case buffered => exact keeps.buffered.perm (List.Perm.refl _) sends.taken.symm
  case covered =>
    intro threadId item mem
    rw [emptied threadId] at mem
    cases mem
  case counted =>
    have counted := keeps.counted
    have moved := sends.counted
    dsimp only
    omega

theorem flushIf (condition) [Decidable condition] : PassKeeps numThreads capacity aside (pass.flushIf condition) := by
  unfold Pass.flushIf
  split
  · exact keeps.flush.1
  · exact keeps

theorem removeBusy (target threadId) : PassKeeps numThreads capacity aside (pass.removeBusy target threadId) := by
  unfold Pass.removeBusy
  split
  · exact { keeps with }
  · exact keeps

end

section

variable (keeps : PassKeeps numThreads capacity [id] pass)
include keeps

theorem putAside (error) : PassKeeps numThreads capacity [] (pass.putAside id error) :=
  { keeps with
    few := le_of_succ_le keeps.few
    buffered := keeps.buffered.perm (perm_append_singleton _ _).symm (List.Perm.refl _) }

/-- There is room for the locks of the transaction in hand, since every transaction that holds a lock is buffered. -/
theorem room {transaction : Transaction} (distinct : transaction.Distinct) :
    (lockCounts (held pass.scheduler.common)).Room
      (lockKeys transaction.writeAccountLocks transaction.readAccountLocks) := by
  intro thread key
  rw [(lockKeys_perm transaction).count_eq]
  have own : transaction.accountKeys.count key ≤ 1 := nodup_iff_count_le_one.mp (.of_map _ distinct) key
  have subperm := keeps.steady.locked.held_subperm thread
  have counts := lockCounts_le (fun item mem => (keeps.buffered.placed.isTaken item (subperm.subset mem)).1) key
  have all := keeps.buffered.length_le
  have held := subperm.length_le
  have small := keeps.small
  rw [keeps.sameCapacity, length_append, length_singleton] at all
  omega

/-- A transaction that was locked is added to the batch of its thread. -/
theorem addTransaction {transaction : Transaction} {maxAge : MaxAge}
    (found : pass.container.idToTransactionState.lookup id.id = some (new transaction maxAge id.priority cost))
    (distinct : transaction.Distinct) (checked : pass.scheduler.workingAccountSet.checkLocks transaction = true)
    (inRange : threadId < numThreads)
    (exact' : locks.Exact ((lockCounts (held pass.scheduler.common)).add threadId transaction.accountKeys)) :
    ∃ added, pass.addTransaction id.id
        { transaction := none, maxAge := maxAge, priority := id.priority, cost := cost }
        { pass.scheduler.common.accountLocks with locks := locks }
        { threadId := threadId, transaction := transaction, maxAge := maxAge, cost := cost } = .ok added ∧
      PassKeeps numThreads capacity [] added := by
  obtain ⟨accounts', taken, covers, kept⟩ := takeLocks_spec distinct checked
  have few := keeps.few
  rw [length_singleton] at few
  have inRange : threadId < pass.scheduler.common.numThreads := keeps.sameThreads ▸ inRange
  let item : BatchItem := { id := id.id, transaction := transaction, maxAge := maxAge, cost := cost
                            lockedAt := pass.scheduler.common.numLocked }
  let added : Pass := { pass with
    container := { pass.container with
      idToTransactionState := pass.container.idToTransactionState.insert id.id
        { transaction := none, maxAge := maxAge, priority := id.priority, cost := cost } }
    scheduler := { pass.scheduler with
      workingAccountSet := accounts'
      common := afterAdd pass.scheduler.common threadId locks item }
    numScheduled := pass.numScheduled + 1 }
  refine ⟨added, ?_, ?_⟩
  · simp only [Pass.addTransaction, taken, rejectIf, Bool.true_eq_false, if_false, bind, Except.bind]
    rfl
  constructor
  case sameThreads => exact keeps.sameThreads
  case sameCapacity => exact keeps.sameCapacity
  case small => exact keeps.small
  case few =>
    simp only [added, afterAdd, length_nil]
    omega
  case steady =>
    refine steady_afterAdd keeps.steady inRange exact' ?_ rfl (by omega)
    intro other mem
    exact not_conflict_of_checkLocks checked (keeps.covered threadId other mem)
  case buffered =>
    have scheduled := keeps.buffered.schedule pass.scheduler.common.numLocked found distinct
    exact scheduled.perm (List.Perm.refl _) (((batched_afterAdd inRange).append_left _).trans perm_middle).symm
  case covered =>
    intro thread other mem
    simp only [added, afterAdd] at mem
    by_cases same : thread = threadId
    · rw [same, update_self] at mem
      rcases mem_append.mp mem with old | new
      · exact kept _ (keeps.covered threadId other old)
      · cases mem_singleton.mp new
        exact covers
    · rw [update_of_ne same] at mem
      exact kept _ (keeps.covered thread other mem)
  case counted =>
    have grown : (batched (afterAdd pass.scheduler.common threadId locks item)).length =
        (batched pass.scheduler.common).length + 1 := (batched_afterAdd inRange).length_eq
    have counted := keeps.counted
    simp only [added]
    omega

theorem tryScheduleId (target : Nat) :
    ∃ next, pass.tryScheduleId target id = .ok next ∧ PassKeeps numThreads capacity [] next := by
  obtain ⟨transaction, maxAge, cost, distinct, found⟩ :=
    keeps.buffered.placed.waits id (mem_append_right _ mem_cons_self)
  -- After the batches were sent if they conflict, the transaction passes the check.
  have flushed := keeps.flushIf (pass.scheduler.workingAccountSet.checkLocks transaction = false)
  have checked : (pass.flushIf
      (pass.scheduler.workingAccountSet.checkLocks transaction = false)).scheduler.workingAccountSet.checkLocks
      transaction = true := by
    unfold Pass.flushIf
    split
    · rw [keeps.flush.2.1]
      exact checkLocks_clear
    · rename_i available
      exact Bool.not_eq_false _ ▸ available
  have sameContainer : (pass.flushIf (pass.scheduler.workingAccountSet.checkLocks transaction = false)).container =
      pass.container := by
    unfold Pass.flushIf
    split <;> rfl
  have state : (new transaction maxAge id.priority cost).transaction = some transaction := rfl
  simp only [Pass.tryScheduleId, found, state, okOr, bind, Except.bind]
  generalize pass.flushIf (pass.scheduler.workingAccountSet.checkLocks transaction = false) = ready at *
  rw [← sameContainer] at found
  obtain ⟨locked, -, -⟩ := flushed.steady
  have fits : ready.scheduler.common.accountLocks.numThreads ≤ 64 := locked.sameThreads ▸ locked.fits
  obtain ⟨_, -, answers⟩ := tryLockAccounts_spec locked.exact' locked.below fits ready.schedulableThreads
    (flushed.room distinct)
  rcases answers _ (chooses_selectThread ready.scheduler.common) with
    ⟨error, failed, -⟩ | ⟨threadId, locks, taken, -, inRange, exact'⟩
  · cases error with
    | multipleConflicts =>
      refine ⟨_, ?_, flushed.putAside .unschedulableConflicts⟩
      simp only [tryScheduleTransaction, state, failed, okOr, bind, Except.bind]
    | threadNotAllowed =>
      refine ⟨_, ?_, flushed.putAside .unschedulableThread⟩
      simp only [tryScheduleTransaction, state, failed, okOr, bind, Except.bind]
  · rw [add_perm (lockKeys_perm transaction)] at exact'
    rw [locked.sameThreads, flushed.sameThreads] at inRange
    obtain ⟨added, isAdded, keeps'⟩ := flushed.addTransaction found distinct checked inRange exact'
    refine ⟨_, ?_, (keeps'.flushIf (ready.scheduler.config.targetTransactionsPerBatch ≤
      (added.scheduler.common.batches threadId).items.length)).removeBusy target threadId⟩
    simp only [tryScheduleTransaction, takeTransactionForScheduling, new, taken, okOr, bind, Except.bind, isAdded]

end

theorem scan (keeps : PassKeeps numThreads capacity [] pass) (target scans) :
    ∃ scanned, pass.scan target scans = .ok scanned ∧ PassKeeps numThreads capacity [] scanned := by
  induction scans generalizing pass with
  | zero => exact ⟨pass, rfl, keeps⟩
  | succ scans ih =>
    rw [Pass.scan]
    split
    · exact ⟨pass, rfl, keeps⟩
    rename_i goesOn
    rw [Bool.or_eq_true, not_or] at goesOn
    obtain ⟨id, container, popped, sameCapacity, shorter, buffered⟩ := keeps.buffered.pop goesOn.2
    have inHand : PassKeeps numThreads capacity [id] { pass with container := container } :=
      { keeps with sameCapacity := sameCapacity.trans keeps.sameCapacity, few := shorter ▸ keeps.few, buffered }
    obtain ⟨_, scheduled, keeps'⟩ := inHand.tryScheduleId target
    obtain ⟨scanned, rest, keeps''⟩ := ih keeps'
    refine ⟨scanned, ?_, keeps''⟩
    simp only [popped, okOr, scheduled, bind, Except.bind]
    exact rest

end PassKeeps

/-! ### Between passes -/

/-- Nothing is in the hands of the scheduler. -/
structure Between (numThreads capacity : Nat) (scheduler : GreedyScheduler) (container : TransactionStateContainer) :
    Prop where
  sameThreads : scheduler.common.numThreads = numThreads
  sameCapacity : container.capacity = capacity
  small : capacity < 2 ^ 32
  steady : Steady scheduler.common
  buffered : Buffered container [] (scheduler.common.unfinished.flatMap fun sent => sent.2.items)
  idle : ∀ threadId, scheduler.common.batches threadId = .empty
  noneAside : scheduler.unschedulables = []

theorem batched_eq_nil (idle : ∀ threadId, common.batches threadId = .empty) : batched common = [] := by
  rw [batched, flatMap_eq_nil_iff]
  intro threadId _
  rw [idle threadId]
  rfl

theorem Between.schedule (between : Between numThreads capacity scheduler container)
    (few : scheduler.common.numLocked + container.queueSize ≤ 2 ^ 64) :
    ∃ scheduler' container' summary, scheduler.schedule container = .ok (scheduler', container', summary) ∧
      Between numThreads capacity scheduler' container' := by
  unfold GreedyScheduler.schedule
  dsimp only
  split
  · exact ⟨scheduler, container, _, rfl, between⟩
  have none := batched_eq_nil between.idle
  let start : Pass :=
    { scheduler := scheduler, container := container
      schedulableThreads := scheduler.idleThreads (scheduler.config.targetScheduledCus / scheduler.common.numThreads)
      numScheduled := 0, numSent := 0, numUnschedulableConflicts := 0, numUnschedulableThreads := 0 }
  have keeps : PassKeeps numThreads capacity [] start := by
    constructor
    case sameThreads => exact between.sameThreads
    case sameCapacity => exact between.sameCapacity
    case small => exact between.small
    case few => exact few
    case steady => exact between.steady
    case buffered =>
      have taken : allTaken scheduler.common = scheduler.common.unfinished.flatMap fun sent => sent.2.items := by
        rw [allTaken, none, append_nil]
      simp only [start, between.noneAside, taken, append_nil]
      exact between.buffered
    case covered =>
      intro threadId item mem
      simp only [start, between.idle threadId] at mem
      cases mem
    case counted => simp [start, none]
  have idle : ((range scheduler.common.numThreads).all fun threadId => (scheduler.common.batches threadId).isEmpty) =
      true := by
    apply all_eq_true.mpr
    intro threadId _
    rw [between.idle threadId]
    rfl
  obtain ⟨scanned, isScanned, keeps⟩ := keeps.scan
    (scheduler.config.targetScheduledCus / scheduler.common.numThreads)
    scheduler.config.maxScannedTransactionsPerSchedulingPass
  obtain ⟨last, -, emptied⟩ := keeps.flush
  have noneLeft := batched_eq_nil emptied
  have matches' : scanned.flush.numScheduled = scanned.flush.numSent := by
    have counted := last.counted
    rw [noneLeft, length_nil, add_zero] at counted
    exact counted
  have buffered : Buffered scanned.flush.container (scanned.flush.scheduler.unschedulables ++ [])
      (allTaken scanned.flush.scheduler.common) := by
    rw [append_nil]
    exact last.buffered
  obtain ⟨container', pushed, sameCapacity, buffered⟩ := buffered.push
  refine ⟨{ scanned.flush.scheduler with unschedulables := [] }, container',
    { startingQueueSize := container.queueSize, startingBufferSize := container.bufferSize
      numScheduled := scanned.flush.numScheduled
      numUnschedulableConflicts := scanned.flush.numUnschedulableConflicts
      numUnschedulableThreads := scanned.flush.numUnschedulableThreads }, ?_, ?_⟩
  · simp only [idle, not_true_eq_false, rejectIf, if_false, bind, Except.bind]
    simp only [start] at isScanned
    simp only [isScanned, matches', ne_eq, not_true_eq_false, if_false, pushed]
  constructor
  case sameThreads => exact last.sameThreads
  case sameCapacity => exact sameCapacity.trans last.sameCapacity
  case small => exact between.small
  case steady => exact last.steady
  case buffered =>
    rw [allTaken, noneLeft, append_nil] at buffered
    exact buffered
  case idle => exact emptied
  case noneAside => rfl

end Payout.BankingStage
