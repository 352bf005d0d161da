/-
Purpose: Safety of block production scheduling over whole runs. After any locks and matching unlocks the lock table
  answers a request as a search through the sets that are still held would. A run inserts transactions, makes scheduling
  passes and receives finished batches in any order; every state it reaches is safe, and no call panics.
-/
import Payout.BankingStageProofs.Scheduling
import Payout.Lib.Run

namespace Payout.BankingStage

section

open Lib Payout.Runtime List
open ThreadAwareAccountLocks (tryLockAccounts lockAccounts unlockAccounts)

/-- The accounts that one call locked, and the thread that they are locked for. -/
structure LockSet where
  threadId : ThreadId
  writes : List Pubkey
  reads : List Pubkey
deriving DecidableEq

/-- The set and a request share an account that one of them writes. -/
def LockSet.Conflicts (set : LockSet) (writes reads : List Pubkey) : Prop :=
  ∃ account, account ∈ set.writes ∧ (account ∈ writes ∨ account ∈ reads) ∨ account ∈ set.reads ∧ account ∈ writes

/-- A request can be locked on a thread: every set that it conflicts with is held there. -/
def Schedulable (numThreads : Nat) (sets : List LockSet) (writes reads : List Pubkey) (threadId : ThreadId) : Prop :=
  threadId < numThreads ∧ ∀ set ∈ sets, set.Conflicts writes reads → set.threadId = threadId

/-- How many of some sets lock a key on each thread. -/
def heldCounts (sets : List LockSet) : LockCounts := fun thread key =>
  (sets.map fun set => if thread = set.threadId then (lockKeys set.writes set.reads).count key else 0).sum

/-- Fewer than `limit` locks of an account are held on a thread, those of a request included. -/
def Few (limit : Nat) (sets : List LockSet) (writes reads : List Pubkey) : Prop :=
  ∀ thread key, heldCounts sets thread key + (lockKeys writes reads).count key < limit

/-- A table reached by locks that succeeded, each with fewer than `limit` locks of an account on a thread, and unlocks
    of sets that were held, with the sets that are still held. -/
inductive Holds (numThreads limit : Nat) : ThreadAwareAccountLocks → List LockSet → Prop where
  | new : Holds numThreads limit { numThreads := numThreads, locks := ∅ } []
  | lock {selector allowed threadId} (held : Holds numThreads limit table sets) (few : Few limit sets writes reads)
      (chooses : Chooses selector)
      (locked : table.tryLockAccounts writes reads allowed selector = .ok (.ok (table', threadId))) :
      Holds numThreads limit table' (⟨threadId, writes, reads⟩ :: sets)
  | unlock {set} (held : Holds numThreads limit table sets) (taken : sets.Perm (set :: rest))
      (unlocked : table.unlockAccounts set.writes set.reads set.threadId = .ok table') :
      Holds numThreads limit table' rest

theorem heldCounts_cons (set : LockSet) (sets) :
    heldCounts (set :: sets) = (heldCounts sets).add set.threadId (lockKeys set.writes set.reads) := by
  funext thread key
  simp [heldCounts, LockCounts.add, Nat.add_comm]

theorem heldCounts_perm (perm : sets.Perm sets') : heldCounts sets = heldCounts sets' := by
  funext thread key
  exact (perm.map _).sum_eq

theorem heldCounts_pos : 0 < heldCounts sets thread key ↔
    ∃ set ∈ sets, set.threadId = thread ∧ key ∈ lockKeys set.writes set.reads := by
  induction sets with
  | nil => simp [heldCounts]
  | cons set sets ih =>
    rw [heldCounts_cons, exists_mem_cons_iff, ← ih, LockCounts.add, Nat.add_pos_iff_pos_or_pos, or_comm]
    refine or_congr_left ?_
    split
    · rename_i same
      simp [same, count_pos_iff]
    · rename_i different
      simp [Ne.symm different]

variable {numThreads : Nat} {table : ThreadAwareAccountLocks} {sets : List LockSet} {writes reads : List Pubkey}

theorem mem_lockKeys {account : Pubkey} {write : Bool} :
    (account, write) ∈ lockKeys writes reads ↔ account ∈ if write then writes else reads := by
  cases write <;> simp [lockKeys]

/-- Compatible with the counts means that no set on another thread conflicts. -/
theorem lockable_iff {threadId : ThreadId} :
    Lockable (heldCounts sets) numThreads writes reads threadId ↔
      Schedulable numThreads sets writes reads threadId := by
  refine and_congr_right fun _ => ?_
  constructor
  · intro compatible set mem conflict
    have found : ∃ account write write', (account, write) ∈ lockKeys set.writes set.reads ∧
        (account, write') ∈ lockKeys writes reads ∧ (write = true ∨ write' = true) := by
      simp only [mem_lockKeys]
      obtain ⟨account, ⟨held, written | read⟩ | ⟨held, written⟩⟩ := conflict
      · exact ⟨account, true, true, held, written, .inl rfl⟩
      · exact ⟨account, true, false, held, read, .inl rfl⟩
      · exact ⟨account, false, true, held, written, .inr rfl⟩
    obtain ⟨_, write, _, held, requested, conflict⟩ := found
    exact compatible _ requested _ write (heldCounts_pos.mpr ⟨set, mem, rfl, held⟩) conflict
  · rintro all ⟨account, write'⟩ requested _ write pos conflict
    obtain ⟨set, mem, rfl, held⟩ := heldCounts_pos.mp pos
    rw [mem_lockKeys] at held requested
    refine all set mem ⟨account, ?_⟩
    cases write <;> cases write' <;> simp_all

/-- The table of a run counts the sets that are held. -/
theorem Holds.exact' (fits : numThreads ≤ 64) (held : Holds numThreads (2 ^ 32) table sets) :
    table.numThreads = numThreads ∧ table.locks.Exact (heldCounts sets) ∧ (heldCounts sets).Below numThreads := by
  induction held with
  | new =>
    refine ⟨rfl, fun account => ⟨rfl, rfl, nofun, nofun⟩, ?_⟩
    simp [LockCounts.Below, heldCounts]
  | lock held few chooses locked ih =>
    obtain ⟨rfl, exact', below⟩ := ih
    obtain ⟨_, -, answers⟩ := tryLockAccounts_spec exact' below fits _ few
    rcases answers _ chooses with ⟨_, failed, -⟩ | ⟨_, _, done, -, inRange, exact'⟩
    · cases failed.symm.trans locked
    cases done.symm.trans locked
    rw [heldCounts_cons]
    refine ⟨rfl, exact', ?_⟩
    intro thread key pos
    simp only [LockCounts.add] at pos
    split at pos
    · rename_i same
      exact same ▸ inRange
    · exact below thread key pos
  | unlock held taken unlocked ih =>
    obtain ⟨rfl, exact', below⟩ := ih
    rw [heldCounts_perm taken, heldCounts_cons] at exact' below
    obtain ⟨_, done, exact'⟩ := unlockAccounts_spec exact'
    cases done.symm.trans unlocked
    exact ⟨rfl, exact', fun thread key pos => below thread key (Nat.add_pos_left pos _)⟩

/-- An account has an entry exactly if a set that is held contains it. -/
theorem Holds.entry_iff (fits : numThreads ≤ 64) (held : Holds numThreads (2 ^ 32) table sets) (account : Pubkey) :
    (table.locks.lookup account).isSome = true ↔ ∃ set ∈ sets, account ∈ set.writes ∨ account ∈ set.reads := by
  obtain ⟨-, exact', -⟩ := held.exact' fits
  obtain ⟨written, read, used, -⟩ := exact' account
  have counted : (∃ set ∈ sets, account ∈ set.writes ∨ account ∈ set.reads) ↔
      ∃ thread write, 0 < heldCounts sets thread (account, write) := by
    simp only [heldCounts_pos, mem_lockKeys, Bool.exists_bool, if_true, Bool.false_eq_true, if_false]
    constructor
    · rintro ⟨set, mem, isWritten | isRead⟩
      · exact ⟨_, .inr ⟨set, mem, rfl, isWritten⟩⟩
      · exact ⟨_, .inl ⟨set, mem, rfl, isRead⟩⟩
    · rintro ⟨_, ⟨set, mem, -, isRead⟩ | ⟨set, mem, -, isWritten⟩⟩
      · exact ⟨set, mem, .inr isRead⟩
      · exact ⟨set, mem, .inl isWritten⟩
  rw [counted]
  generalize table.locks.lookup account = entry at *
  rcases entry with _ | ⟨_ | _, _ | _⟩
  · refine iff_of_false nofun ?_
    rintro ⟨thread, _ | _, pos⟩
    · simp [congrFun read thread] at pos
    · simp [congrFun written thread] at pos
  · exact absurd rfl used
  · obtain ⟨-, -, -, thread, reads⟩ := read
    exact iff_of_true rfl ⟨thread, false, reads⟩
  · exact iff_of_true rfl ⟨_, true, (written.pos_iff _).mpr rfl⟩
  · exact iff_of_true rfl ⟨_, true, (written.pos_iff _).mpr rfl⟩

/-- The table is exact: a request is locked if and only if an allowed thread holds all sets that conflict with it,
    there are multiple conflicts if and only if no thread does, and the selector is offered exactly those that do. A
    request that is refused returns no table. -/
theorem tryLockAccounts_exact (pos : 0 < numThreads) (fits : numThreads ≤ 64)
    (held : Holds numThreads (2 ^ 32) table sets) (writes reads : List Pubkey) (few : Few (2 ^ 32) sets writes reads)
    (allowed : ThreadSet) :
    (∃ offered : ThreadSet,
      (∀ threadId, offered.contains threadId = true ↔
        allowed.contains threadId = true ∧ Schedulable numThreads sets writes reads threadId) ∧
      ∀ selector, Chooses selector → ∃ result, table.tryLockAccounts writes reads allowed selector = .ok result ∧
        ((∃ locked, result = .ok locked) ↔
          ∃ threadId, allowed.contains threadId = true ∧ Schedulable numThreads sets writes reads threadId) ∧
        (∀ locked threadId, result = .ok (locked, threadId) → selector offered = .ok threadId) ∧
        (result = .error .multipleConflicts ↔ ∀ threadId, ¬ Schedulable numThreads sets writes reads threadId)) ∧
    (∀ account, (table.locks.lookup account).isSome = true ↔
      ∃ set ∈ sets, account ∈ set.writes ∨ account ∈ set.reads) ∧
    ∀ set ∈ sets, ∃ after, table.unlockAccounts set.writes set.reads set.threadId = .ok after := by
  have entries := held.entry_iff fits
  obtain ⟨rfl, exact', below⟩ := held.exact' fits
  refine ⟨?_, entries, ?_⟩
  · obtain ⟨offered, offers, answers⟩ := tryLockAccounts_spec exact' below fits allowed few
    simp only [lockable_iff] at offers answers
    refine ⟨offered, offers, ?_⟩
    intro selector chooses
    simp only [← offers]
    rcases answers selector chooses with ⟨_, failed, empty, several⟩ | ⟨threadId, _, done, ⟨selected, contained⟩, -⟩
    · refine ⟨_, failed, iff_of_false nofun ?_, nofun, by simpa using several pos⟩
      rintro ⟨threadId, contained⟩
      exact ThreadSet.isEmpty_iff.mp empty threadId contained
    · refine ⟨_, done, iff_of_true ⟨_, rfl⟩ ⟨threadId, contained⟩, ?_, iff_of_false nofun ?_⟩
      · rintro _ _ ⟨⟩
        exact selected
      · exact fun none => none threadId ((offers threadId).mp contained).2
  · intro set mem
    rw [heldCounts_perm (perm_cons_erase mem), heldCounts_cons] at exact'
    obtain ⟨_, unlocked, -⟩ := unlockAccounts_spec exact'
    exact ⟨_, unlocked⟩

/-- The first writer is let in, with the selector of the greedy scheduler. -/
theorem tryLockAccounts_exact_writer : ∃ locked, tryLockAccounts ⟨2, ∅⟩ [7] [] (.any 2)
    (SchedulingCommon.new 2).selectThread = .ok (.ok locked) := by
  obtain ⟨⟨_, _, answers⟩, -⟩ := tryLockAccounts_exact (by decide) (by decide) (.new : Holds 2 _ _ []) [7] [] (by
    intro thread key
    have once : (lockKeys [7] []).count key ≤ 1 := nodup_iff_count_le_one.mp (by decide) key
    exact Nat.lt_of_le_of_lt (Nat.add_le_add_left once 0) (by decide)) (.any 2)
  obtain ⟨_, computed, succeeds, -⟩ := answers _ (chooses_selectThread (.new 2))
  obtain ⟨locked, rfl⟩ := succeeds.mpr ⟨0, by decide, by decide, nofun⟩
  exact ⟨locked, computed⟩

/-- Account 7 is locked for writing on the only thread as often as asked for, and the counter wraps. -/
theorem holds_replicate (limit n : Nat) (small : n < limit) :
    ∃ table, Holds 1 limit table (replicate n ⟨0, [7], []⟩) ∧ table.numThreads = 1 ∧
      table.locks.lookup 7 = if n = 0 then none
        else some { writeLocks := some { threadId := 0, lockCount := n % 2 ^ 32 }, readLocks := none } := by
  induction n with
  | zero => exact ⟨_, .new, rfl, rfl⟩
  | succ n ih =>
    obtain ⟨⟨_, locks⟩, held, rfl, found⟩ := ih (Nat.lt_of_succ_lt small)
    have few : Few limit (replicate n ⟨0, [7], []⟩) [7] [] := by
      intro thread key
      have once : (lockKeys [7] []).count key ≤ 1 := nodup_iff_count_le_one.mp (by decide) key
      have before : heldCounts (replicate n ⟨0, [7], []⟩) thread key ≤ n := by
        rw [heldCounts, map_replicate, sum_replicate, smul_eq_mul]
        split
        · exact mul_le_of_le_one_right (Nat.zero_le _) once
        · exact Nat.zero_le _
      omega
    have schedulable : LockTable.accountsSchedulableThreads locks 1 [7] [] = .ok (some (.only 0)) := by
      simp only [LockTable.accountsSchedulableThreads, LockTable.keepSchedulable, LockTable.schedulableThreads, found]
      split_ifs
      · rfl
      · dsimp only [bind, Except.bind]
        rfl
    have written : LockTable.writeLockAccount locks 7 0 = .ok (locks.insert 7
        { writeLocks := some { threadId := 0, lockCount := (n + 1) % 2 ^ 32 }, readLocks := none }) := by
      simp only [LockTable.writeLockAccount, found]
      split_ifs with none
      · rw [none]
        rfl
      · simp [rejectIf, wrappingAdd, bind, Except.bind]
    have locked : tryLockAccounts ⟨1, locks⟩ [7] [] (.any 1) (SchedulingCommon.new 1).selectThread =
        .ok (.ok (⟨1, locks.insert 7
          { writeLocks := some { threadId := 0, lockCount := (n + 1) % 2 ^ 32 }, readLocks := none }⟩, 0)) := by
      have chosen : (SchedulingCommon.new 1).selectThread ((ThreadSet.only 0).inter (.any 1)) = .ok 0 := by
        decide +kernel
      have nonempty : ((ThreadSet.only 0).inter (.any 1)).isEmpty = false := by decide
      simp only [tryLockAccounts, schedulable, nonempty, chosen, written,
        lockAccounts, foldlM_cons, foldlM_nil, bind, Except.bind]
      rfl
    refine ⟨_, .lock held few (chooses_selectThread (.new 1)) locked, rfl, ?_⟩
    rw [if_neg (Nat.succ_ne_zero n)]
    exact AList.lookup_insert _

/-- After 2 ^ 32 + 1 locks of an account the counter is 1, and an unlock drops the entry with 2 ^ 32 locks held. -/
theorem lock_counter_wraps : ∃ table sets, Holds 1 (2 ^ 33) table sets ∧ sets.length = 2 ^ 32 ∧
    (∀ set ∈ sets, 7 ∈ set.writes) ∧ table.locks.lookup 7 = none := by
  obtain ⟨⟨_, locks⟩, held, rfl, found⟩ := holds_replicate (2 ^ 33) (2 ^ 32 + 1) (by decide)
  rw [replicate_succ] at held
  have unlocked : unlockAccounts ⟨1, locks⟩ [7] [] 0 = .ok ⟨1, locks.erase 7⟩ := by
    simp only [unlockAccounts, foldlM_cons, foldlM_nil, LockTable.writeUnlockAccount, found]
    rfl
  refine ⟨_, _, held.unlock (List.Perm.refl _) unlocked, length_replicate, ?_, AList.lookup_erase _ _⟩
  intro set mem
  rw [eq_of_mem_replicate mem]
  exact mem_singleton_self 7

end

open Lib List Function LockCounts SchedulingCommon

/-! ### Finished batches -/

section Completing

variable {threadId : ThreadId} {before after : List (ThreadId × ConsumeWork)}

theorem foldlM_unlockAccounts (transactions : List Transaction) {accountLocks : ThreadAwareAccountLocks}
    (exact' : accountLocks.locks.Exact (counts.add threadId (transactions.flatMap (·.accountKeys)))) :
    ∃ locks', transactions.foldlM
        (fun (accountLocks : ThreadAwareAccountLocks) transaction =>
          accountLocks.unlockAccounts transaction.writeAccountLocks transaction.readAccountLocks threadId)
        accountLocks = .ok { accountLocks with locks := locks' } ∧ locks'.Exact counts := by
  induction transactions generalizing accountLocks with
  | nil => exact ⟨accountLocks.locks, rfl, by rwa [flatMap_nil, add_nil] at exact'⟩
  | cons transaction transactions ih =>
    rw [flatMap_cons, add_perm perm_append_comm, add_append, ← add_perm (lockKeys_perm transaction)] at exact'
    obtain ⟨locks, unlocked, exact'⟩ := unlockAccounts_spec exact'
    have next : ({ accountLocks with locks := locks } : ThreadAwareAccountLocks).locks.Exact
        (counts.add threadId (transactions.flatMap (·.accountKeys))) := exact'
    obtain ⟨locks', rest, exact'⟩ := ih next
    refine ⟨locks', ?_, exact'⟩
    rw [foldlM_cons, unlocked]
    exact rest

theorem unfinishedOn_middle (before after threadId work thread) :
    (unfinishedOn (before ++ (threadId, work) :: after) thread).Perm
      ((if threadId = thread then work.items else []) ++ unfinishedOn (before ++ after) thread) := by
  have moved : (before ++ (threadId, work) :: after).Perm ((threadId, work) :: (before ++ after)) := perm_middle
  refine ((moved.filter _).flatMap_right _).trans ?_
  unfold unfinishedOn
  rw [filter_cons]
  split <;> rename_i here <;> simp_all

theorem totalCost_perm (perm : items.Perm items') : totalCost items = totalCost items' :=
  (perm.map _).sum_eq

theorem lockCounts_split {all rest : ThreadId → List BatchItem}
    (perm : ∀ thread, (all thread).Perm ((if threadId = thread then items else []) ++ rest thread)) :
    lockCounts all = (lockCounts rest).add threadId ((items.map (·.transaction)).flatMap (·.accountKeys)) := by
  funext thread key
  have sums := ((perm thread).map fun item => item.transaction.accountKeys.count key).sum_eq
  rw [lockCounts, sums, map_append, sum_append, add, Nat.add_comm]
  congr 1
  by_cases same : threadId = thread
  · subst same
    rw [if_pos rfl, if_pos rfl, count_flatMap, map_map]
    rfl
  · simp [same, Ne.symm same]

theorem completeBatch_spec (steady : Steady common) (sent : common.unfinished = before ++ (threadId, work) :: after) :
    ∃ tracker locks,
      completeBatch { common with unfinished := before ++ after } work.batchId
          (work.items.map (·.transaction)) =
        .ok { common with
          unfinished := before ++ after
          inFlightTracker := tracker
          accountLocks := { common.accountLocks with locks := locks } } ∧
      Steady { common with
        unfinished := before ++ after
        inFlightTracker := tracker
        accountLocks := { common.accountLocks with locks := locks } } := by
  obtain ⟨locked, tracked, ordered⟩ := steady
  have split := unfinishedOn_middle before after threadId work
  rw [← sent] at split
  have mem : (threadId, work) ∈ common.unfinished := by simp [sent]
  have others : ∀ other ∈ before ++ after, other ∈ common.unfinished := by
    intro other inOthers
    rw [sent]
    rcases mem_append.mp inOthers with isBefore | isAfter
    · exact mem_append_left _ isBefore
    · exact mem_append_right _ (mem_cons_of_mem _ isAfter)
  have entry := tracked.entries _ mem
  have ids := tracked.ids
  rw [sent, map_append, map_cons] at ids
  obtain ⟨fresh, ids⟩ := nodup_cons.mp (perm_middle.nodup_iff.mp ids)
  rw [← map_append] at fresh ids
  -- What is left of the counters of the thread.
  have numLeft : wrappingSub 64 (common.inFlightTracker.numInFlightPerThread threadId) work.items.length =
      (unfinishedOn (before ++ after) threadId).length % 2 ^ 64 := by
    rw [tracked.num, (split threadId).length_eq, if_pos rfl, length_append, wrappingSub_add_mod]
  have cusLeft : wrappingSub 64 (common.inFlightTracker.cusInFlightPerThread threadId)
      (totalCost work.items % 2 ^ 64) = totalCost (unfinishedOn (before ++ after) threadId) % 2 ^ 64 := by
    rw [tracked.cus, totalCost_perm (split threadId), if_pos rfl, totalCost_append, wrappingSub_mod,
      wrappingSub_add_mod]
  let rest : SchedulingCommon := { common with unfinished := before ++ after }
  have heldSplit : ∀ thread, (held common thread).Perm
      ((if threadId = thread then work.items else []) ++ held rest thread) := by
    intro thread
    refine ((split thread).append_right _).trans ?_
    rw [append_assoc]
    exact List.Perm.refl _
  have exact' := locked.exact'
  rw [lockCounts_split heldSplit] at exact'
  obtain ⟨locks, unlocked, exact'⟩ := foldlM_unlockAccounts (work.items.map (·.transaction)) exact'
  refine ⟨{ common.inFlightTracker with
    numInFlightPerThread := update common.inFlightTracker.numInFlightPerThread threadId
      ((unfinishedOn (before ++ after) threadId).length % 2 ^ 64)
    cusInFlightPerThread := update common.inFlightTracker.cusInFlightPerThread threadId
      (totalCost (unfinishedOn (before ++ after) threadId) % 2 ^ 64)
    batches := common.inFlightTracker.batches.erase work.batchId }, locks, ?_, ?_⟩
  · simp only [completeBatch, InFlightTracker.completeBatch, entry, numLeft, cusLeft, okOr, unlocked, bind, Except.bind]
  have elsewhere : ∀ thread, thread ≠ threadId →
      (unfinishedOn common.unfinished thread).Perm (unfinishedOn (before ++ after) thread) := by
    intro thread different
    have here := split thread
    rwa [if_neg (Ne.symm different), nil_append] at here
  have heldSubset : ∀ thread, ∀ item ∈ held rest thread, item ∈ held common thread := by
    intro thread item inRest
    exact (heldSplit thread).mem_iff.mpr (mem_append_right _ inRest)
  constructor
  case locked =>
    refine { locked with exact', inRange := ?_ }
    intro thread outside
    have none := locked.inRange thread outside
    apply eq_nil_iff_forall_not_mem.mpr
    intro item inRest
    have some := heldSubset thread item inRest
    rw [none] at some
    cases some
  case tracked =>
    constructor
    case num =>
      intro thread
      by_cases same : thread = threadId
      · subst same
        exact update_self _ _ _
      · refine (update_of_ne same _ _).trans ?_
        rw [tracked.num, (elsewhere thread same).length_eq]
    case cus =>
      intro thread
      by_cases same : thread = threadId
      · subst same
        exact update_self _ _ _
      · refine (update_of_ne same _ _).trans ?_
        rw [tracked.cus, totalCost_perm (elsewhere thread same)]
    case entries =>
      intro other inOthers
      have different : other.2.batchId ≠ work.batchId := by
        intro same
        rw [← same] at fresh
        exact fresh (mem_map_of_mem inOthers)
      exact (AList.lookup_erase_ne different).trans (tracked.entries other (others other inOthers))
    case ids => exact ids
    case given =>
      obtain ⟨count, next, counted, older⟩ := tracked.given
      exact ⟨count, next, counted, fun other inOthers => older other (others other inOthers)⟩
    case few => exact tracked.few
  case ordered =>
    have sublist : (before ++ after).Sublist common.unfinished := by
      rw [sent]
      exact (sublist_cons_self _ _).append_left before
    constructor
    case batchCus => exact ordered.batchCus
    case batchApart => exact ordered.batchApart
    case apart => exact fun other inOthers => ordered.apart other (others other inOthers)
    case inOrder => exact ordered.inOrder.sublist sublist
    case earlier => exact fun other inOthers => ordered.earlier other (others other inOthers)
    case stamps => exact fun thread item inRest => ordered.stamps thread item (heldSubset thread item inRest)

end Completing

/-- The transactions of a finished batch are retried or removed. -/
theorem retryOrRemove_spec (items) :
    ∀ (index : Nat) (retryable : List Nat) (container : TransactionStateContainer), container.capacity = capacity →
      Buffered container [] (items ++ rest) → retryable.Pairwise (· < ·) →
      (∀ retryableIndex ∈ retryable, index ≤ retryableIndex ∧ retryableIndex < index + items.length) →
      ∃ container', retryOrRemove index items retryable container = .ok (container', []) ∧
        container'.capacity = capacity ∧ Buffered container' [] rest := by
  induction items with
  | nil =>
    intro index retryable container sameCapacity buffered _ inRange
    cases retryable with
    | nil => exact ⟨container, rfl, sameCapacity, buffered⟩
    | cons first others =>
      have here := inRange first mem_cons_self
      rw [length_nil] at here
      omega
  | cons item items ih =>
    intro index retryable container sameCapacity buffered sorted inRange
    cases retryable with
    | nil =>
      obtain ⟨removed, isRemoved, same, buffered⟩ := buffered.removeById
      obtain ⟨container', done, result⟩ := ih (index + 1) [] removed (same.trans sameCapacity) buffered .nil
        nofun
      refine ⟨container', ?_, result⟩
      simp only [retryOrRemove, isRemoved, bind]
      exact done
    | cons first others =>
      obtain ⟨above, sorted'⟩ := pairwise_cons.mp sorted
      rw [length_cons] at inRange
      by_cases here : first = index
      · subst here
        obtain ⟨retried, isRetried, same, buffered⟩ := buffered.retryTransaction
        obtain ⟨container', done, result⟩ :=
          ih (first + 1) others retried (same.trans sameCapacity) buffered sorted' (by
          intro other mem
          have later := above other mem
          have bounds := inRange other (mem_cons_of_mem _ mem)
          omega)
        refine ⟨container', ?_, result⟩
        simp only [retryOrRemove, if_true, isRetried, bind]
        exact done
      · obtain ⟨removed, isRemoved, same, buffered⟩ := buffered.removeById
        obtain ⟨container', done, result⟩ := ih (index + 1) (first :: others) removed (same.trans sameCapacity) buffered
          sorted (by
            intro other mem
            have bounds := inRange other mem
            have firstBounds := inRange first mem_cons_self
            rcases mem_cons.mp mem with rfl | mem
            · omega
            · have later := above other mem
              omega)
        refine ⟨container', ?_, result⟩
        simp only [retryOrRemove, here, if_false, isRemoved, bind]
        exact done

/-! ### Runs -/

structure SchedulingSystem where
  scheduler : GreedyScheduler
  container : TransactionStateContainer

/-- What happens to the scheduler; a batch is named by its position among those that are not finished. -/
inductive SchedulingCall where
  | insertNewTransaction (id : TransactionId) (transaction : Transaction) (maxAge : MaxAge) (priority cost : Nat)
  | schedule
  | tryReceiveCompleted (finished : Option (Nat × List Nat))

namespace SchedulingSystem

def new (numThreads capacity : Nat) (config : GreedySchedulerConfig) : SchedulingSystem :=
  { scheduler := .new numThreads config, container := .withCapacity capacity }

/-- A worker finishes a batch and hands it back. -/
def receive (system : SchedulingSystem) (position : Nat) (retryableIndexes : List Nat) :
    Except Panic SchedulingSystem := do
  let unfinished := system.scheduler.common.unfinished
  let (_, work) ← okOr unfinished[position]? .untrackedBatch
  let (common, container, _, _) ← SchedulingCommon.tryReceiveCompleted
    { system.scheduler.common with unfinished := unfinished.eraseIdx position }
    (some (work, retryableIndexes)) system.container
  .ok { scheduler := { system.scheduler with common := common }, container := container }

def step (call : SchedulingCall) (system : SchedulingSystem) : Except Panic SchedulingSystem :=
  match call with
  | .insertNewTransaction id transaction maxAge priority cost => do
      let (container, _) ← system.container.insertNewTransaction id transaction maxAge priority cost
      .ok { system with container := container }
  | .schedule => do
      let (scheduler, container, _) ← system.scheduler.schedule system.container
      .ok { scheduler := scheduler, container := container }
  | .tryReceiveCompleted none => do
      let (common, container, _, _) ← system.scheduler.common.tryReceiveCompleted none system.container
      .ok { scheduler := { system.scheduler with common := common }, container := container }
  | .tryReceiveCompleted (some (position, retryableIndexes)) => system.receive position retryableIndexes

end SchedulingSystem

/-- The calls that are made: a new transaction gets a vacant id and has distinct account keys; 64 bits count the
    transactions locked so far and those that a pass finds in the queue; a finished batch was sent and not finished
    before, and the indexes to retry are sorted and in range. -/
def SchedulingCall.Allowed (system : SchedulingSystem) : SchedulingCall → Prop
  | .insertNewTransaction id transaction _ _ _ =>
    system.container.idToTransactionState.lookup id = none ∧ transaction.Distinct
  | .schedule => system.scheduler.common.numLocked + system.container.queueSize ≤ 2 ^ 64
  | .tryReceiveCompleted none => True
  | .tryReceiveCompleted (some (position, retryableIndexes)) => ∃ sent ∈ system.scheduler.common.unfinished[position]?,
      retryableIndexes.Pairwise (· < ·) ∧ ∀ index ∈ retryableIndexes, index < sent.2.items.length

instance (system : SchedulingSystem) (call : SchedulingCall) : Decidable (call.Allowed system) := by
  unfold SchedulingCall.Allowed
  split <;> infer_instance

/-- A safe state of the scheduler and its buffer. -/
structure SafeScheduling (numThreads capacity : Nat) (system : SchedulingSystem) : Prop where
  /-- The queue and the unfinished batches hold exactly the buffered transactions, each of them once. -/
  once : (system.container.priorityQueue.map (·.id) ++
    (system.scheduler.common.unfinished.flatMap fun sent => sent.2.items).map (·.id)).Nodup
  buffered : ∀ id, (system.container.idToTransactionState.lookup id).isSome = true ↔
    id ∈ system.container.priorityQueue.map (·.id) ++
      (system.scheduler.common.unfinished.flatMap fun sent => sent.2.items).map (·.id)
  /-- The batches were sent to workers. -/
  workers : ∀ sent ∈ system.scheduler.common.unfinished, sent.2.items ≠ [] → sent.1 < numThreads
  /-- No batch contains two transactions that conflict. -/
  apart : ∀ sent ∈ system.scheduler.common.unfinished,
    sent.2.items.Pairwise fun one other => ¬ Conflict one.transaction other.transaction
  /-- Of two batches with conflicting transactions, both went to one worker in the order of the locks. -/
  inOrder : system.scheduler.common.unfinished.Pairwise fun first second =>
    ∀ one ∈ first.2.items, ∀ other ∈ second.2.items,
      Conflict one.transaction other.transaction → first.1 = second.1 ∧ one.lockedAt < other.lockedAt
  /-- The lock table holds exactly the locks of the unfinished batches. -/
  locks : system.scheduler.common.accountLocks.locks.Exact
    (lockCounts (unfinishedOn system.scheduler.common.unfinished))
  /-- The counters of a thread are sums over its unfinished batches, that of costs in 64 bits. -/
  numInFlight : ∀ threadId, system.scheduler.common.inFlightTracker.numInFlightPerThread threadId =
    (unfinishedOn system.scheduler.common.unfinished threadId).length
  cusInFlight : ∀ threadId, system.scheduler.common.inFlightTracker.cusInFlightPerThread threadId =
    totalCost (unfinishedOn system.scheduler.common.unfinished threadId) % 2 ^ 64
  /-- The costs counted are those of the buffered transactions. -/
  costs : ∀ sent ∈ system.scheduler.common.unfinished, ∀ item ∈ sent.2.items, ∃ state,
    system.container.idToTransactionState.lookup item.id = some state ∧ state.cost = item.cost
  within : system.container.capacity = capacity ∧ system.container.bufferSize ≤ capacity

section Safety

variable {numThreads capacity : Nat} {system : SchedulingSystem}

theorem Between.new (fits : numThreads ≤ 64) (small : capacity < 2 ^ 32) :
    Between numThreads capacity (.new numThreads config) (.withCapacity capacity) := by
  have nothing : ∀ threadId, held (SchedulingCommon.new numThreads) threadId = [] := fun _ => rfl
  constructor
  case sameThreads => rfl
  case sameCapacity => rfl
  case small => exact small
  case buffered => exact ⟨Placed.empty, Nat.zero_le _⟩
  case idle => exact fun _ => rfl
  case noneAside => rfl
  case steady =>
    constructor
    case locked =>
      constructor
      case fits => exact fits
      case sameThreads => rfl
      case exact' =>
        intro account
        constructor
        case written => rfl
        case read => rfl
        case used => exact nofun
        case together => exact nofun
      case inRange => exact fun threadId _ => nothing threadId
    case tracked =>
      constructor
      case num => exact fun _ => rfl
      case cus => exact fun _ => rfl
      case entries => exact nofun
      case ids => exact .nil
      case given =>
        have none : batched (SchedulingCommon.new numThreads) = [] := batched_eq_nil fun _ => rfl
        exact ⟨0, rfl, ((Nat.zero_add _).trans (congrArg length none)).le, nofun⟩
      case few => exact Nat.zero_le _
    case ordered =>
      constructor
      case batchCus => exact fun _ => rfl
      case batchApart => exact fun _ => .nil
      case apart => exact nofun
      case inOrder => exact .nil
      case earlier => exact nofun
      case stamps =>
        intro threadId item mem
        cases mem

section

variable (between : Between numThreads capacity system.scheduler system.container)
include between

theorem Between.safe : SafeScheduling numThreads capacity system := by
  have steady := between.steady
  have placed := between.buffered.placed
  rw [append_nil] at placed
  have noBatches : held system.scheduler.common = unfinishedOn system.scheduler.common.unfinished := by
    funext threadId
    rw [held, between.idle threadId]
    exact append_nil _
  constructor
  case once => exact placed.once
  case buffered => exact fun id => (placed.everywhere id).symm
  case workers =>
    intro sent mem nonempty
    obtain ⟨_, inItems⟩ := exists_mem_of_ne_nil _ nonempty
    have isHeld := held_of_unfinished mem inItems
    by_contra outside
    rw [steady.locked.inRange sent.1 (between.sameThreads ▸ Nat.not_lt.mp outside)] at isHeld
    cases isHeld
  case apart => exact steady.ordered.apart
  case inOrder =>
    refine steady.ordered.inOrder.imp_of_mem ?_
    intro first second inFirst inSecond before one isOne other isOther conflict
    exact ⟨steady.locked.same_thread (held_of_unfinished inFirst isOne) (held_of_unfinished inSecond isOther) conflict,
      before one isOne other isOther conflict⟩
  case locks =>
    rw [← noBatches]
    exact steady.locked.exact'
  case numInFlight =>
    intro threadId
    have all := between.buffered.length_le
    have small := between.small
    have few := (steady.locked.held_subperm threadId).length_le
    rw [noBatches, allTaken, batched_eq_nil between.idle, append_nil] at few
    rw [between.sameCapacity] at all
    exact (steady.tracked.num threadId).trans (Nat.mod_eq_of_lt (by omega))
  case cusInFlight => exact steady.tracked.cus
  case costs =>
    intro sent mem item inItems
    obtain ⟨-, _, found⟩ := placed.isTaken item (mem_flatMap.mpr ⟨sent, mem, inItems⟩)
    exact ⟨_, found, rfl⟩
  case within => exact ⟨between.sameCapacity, between.sameCapacity ▸ between.buffered.within⟩

theorem Between.receive (isSent : system.scheduler.common.unfinished[position]? = some sent)
    (sorted : retryableIndexes.Pairwise (· < ·)) (inRange : ∀ index ∈ retryableIndexes, index < sent.2.items.length) :
    ∃ system', system.receive position retryableIndexes = .ok system' ∧
      Between numThreads capacity system'.scheduler system'.container := by
  obtain ⟨threadId, work⟩ := sent
  obtain ⟨small, isSent'⟩ := List.getElem?_eq_some_iff.mp isSent
  -- The batches before and after it.
  have split : system.scheduler.common.unfinished = system.scheduler.common.unfinished.take position ++
      (threadId, work) :: system.scheduler.common.unfinished.drop (position + 1) := by
    rw [← isSent', cons_getElem_drop_succ, take_append_drop]
  have erased := eraseIdx_eq_take_drop_succ system.scheduler.common.unfinished position
  generalize system.scheduler.common.unfinished.take position = before at split erased
  generalize system.scheduler.common.unfinished.drop (position + 1) = after at split erased
  obtain ⟨tracker, locks, completed, steady⟩ := completeBatch_spec between.steady split
  have taken : Buffered system.container [] (work.items ++ (before ++ after).flatMap fun sent => sent.2.items) := by
    refine between.buffered.perm (List.Perm.refl _) ?_
    rw [split]
    exact (perm_middle (a := (threadId, work))).flatMap_right _
  obtain ⟨container', done, sameCapacity, buffered⟩ := retryOrRemove_spec work.items 0 retryableIndexes system.container
    between.sameCapacity taken sorted (by
      intro index mem
      have bound := inRange index mem
      dsimp only at bound
      omega)
  let common' : SchedulingCommon := { system.scheduler.common with
    unfinished := before ++ after
    inFlightTracker := tracker
    accountLocks := { system.scheduler.common.accountLocks with locks := locks } }
  refine ⟨{ scheduler := { system.scheduler with common := common' }, container := container' }, ?_, ?_⟩
  · simp only [SchedulingSystem.receive, tryReceiveCompleted, isSent, okOr, erased, completed, done, rejectIf,
      ne_eq, not_true_eq_false, if_false, bind, Except.bind]
    rfl
  · exact { between with sameCapacity, steady, buffered }

/-- Every call that is made succeeds, and nothing is left in the hands of the scheduler. -/
theorem Between.step (call) (allowed : call.Allowed system) :
    ∃ system', system.step call = .ok system' ∧ Between numThreads capacity system'.scheduler system'.container := by
  cases call with
  | insertNewTransaction id transaction maxAge priority cost =>
    obtain ⟨vacant, distinct⟩ := allowed
    obtain ⟨container', _, inserted, sameCapacity, buffered⟩ :=
      between.buffered.insertNewTransaction vacant distinct maxAge priority cost
    refine ⟨{ system with container := container' }, ?_, ?_⟩
    · simp only [SchedulingSystem.step, inserted, bind, Except.bind]
    · exact { between with sameCapacity := sameCapacity.trans between.sameCapacity, buffered }
  | schedule =>
    obtain ⟨scheduler', container', _, scheduled, between'⟩ := between.schedule allowed
    exact ⟨{ scheduler := scheduler', container := container' },
      by simp only [SchedulingSystem.step, scheduled, bind, Except.bind], between'⟩
  | tryReceiveCompleted finished =>
    cases finished with
    | none => exact ⟨system, rfl, between⟩
    | some =>
      obtain ⟨_, isSent, sorted, inRange⟩ := allowed
      exact between.receive isSent sorted inRange

end

end Safety

/-- Block production scheduling is safe: every state that a run reaches is safe, and no call panics there. -/
theorem scheduling_safe {numThreads capacity : Nat} (fits : numThreads ≤ 64) (small : capacity < 2 ^ 32)
    (config : GreedySchedulerConfig) {calls : List SchedulingCall} {system : SchedulingSystem}
    (run : Run SchedulingSystem.step (fun system call => call.Allowed system) (.new numThreads capacity config) calls
      system) :
    SafeScheduling numThreads capacity system ∧
      ∀ call : SchedulingCall, call.Allowed system → ∃ system', system.step call = .ok system' := by
  have between : Between numThreads capacity system.scheduler system.container := by
    refine run.invariant (P := fun system => Between numThreads capacity system.scheduler system.container) ?_
      (Between.new fits small)
    intro before call after between allowed taken
    obtain ⟨_, taken', between'⟩ := between.step call allowed
    cases taken.symm.trans taken'
    exact between'
  refine ⟨between.safe, ?_⟩
  intro call allowed
  obtain ⟨system', taken, -⟩ := between.step call allowed
  exact ⟨system', taken⟩

namespace Sample

def config : GreedySchedulerConfig :=
  { targetScheduledCus := 100, maxScannedTransactionsPerSchedulingPass := 10, targetTransactionsPerBatch := 2 }

def maxAge : MaxAge := { sanitizedEpoch := 0, altInvalidationSlot := 0 }

/-- Two transactions write account 7 and one reads account 8 with one of them; the buffer holds only three. -/
def calls : List SchedulingCall :=
  [.insertNewTransaction 0 ⟨[(7, true), (8, false)]⟩ maxAge 5 10, .insertNewTransaction 1 ⟨[(7, true)]⟩ maxAge 4 10,
    .insertNewTransaction 2 ⟨[(8, false)]⟩ maxAge 3 10, .insertNewTransaction 3 ⟨[(9, true)]⟩ maxAge 2 10,
    .schedule, .tryReceiveCompleted none, .tryReceiveCompleted (some (1, [0])), .schedule]

theorem calls_run :
    (exec SchedulingSystem.step (fun system call => call.Allowed system) calls (.new 2 3 config)).isSome = true := by
  decide +kernel

/-- Two transactions for one worker, the second with the highest cost there is. -/
def costlyCalls : List SchedulingCall :=
  [.insertNewTransaction 0 ⟨[(7, true)]⟩ maxAge 5 10,
    .insertNewTransaction 1 ⟨[(8, true)]⟩ maxAge 4 (2 ^ 64 - 1), .schedule]

theorem costlyCalls_run :
    (exec SchedulingSystem.step (fun system call => call.Allowed system) costlyCalls (.new 1 2 config)).isSome =
      true := by
  decide +kernel

end Sample

open Sample

theorem scheduling_safe_sample :
    (2 ≤ 64 ∧ 3 < 2 ^ 32 ∧ Run SchedulingSystem.step (fun system call => call.Allowed system) (.new 2 3 config) calls
      ((exec SchedulingSystem.step (fun system call => call.Allowed system) calls (.new 2 3 config)).get
        calls_run)) ∧
    SafeScheduling 2 3
      ((exec SchedulingSystem.step (fun system call => call.Allowed system) calls (.new 2 3 config)).get
        calls_run) :=
  ⟨⟨by decide, by decide, run_exec_get calls_run⟩,
    (scheduling_safe (by decide) (by decide) config (run_exec_get calls_run)).1⟩

/-- The costs in flight on the worker are 2 ^ 64 + 9, and its counter is 9. -/
theorem in_flight_costs_wrap :
    let last := (exec SchedulingSystem.step (fun system call => call.Allowed system) costlyCalls (.new 1 2 config)).get
      costlyCalls_run
    Run SchedulingSystem.step (fun system call => call.Allowed system) (.new 1 2 config) costlyCalls last ∧
      totalCost (unfinishedOn last.scheduler.common.unfinished 0) = 2 ^ 64 + 9 ∧
      last.scheduler.common.inFlightTracker.cusInFlightPerThread 0 = 9 :=
  ⟨run_exec_get costlyCalls_run, by decide +kernel⟩

end Payout.BankingStage
