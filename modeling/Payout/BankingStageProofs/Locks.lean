/-
Purpose: The lock table as counts. A table represents how many times every account is locked for writing and for
  reading on every thread; locking and unlocking move the counts, and the threads an account can be scheduled on are
  those that no other thread's locks conflict with.
-/
import Payout.BankingStage.GreedyScheduler
import Payout.Lib.BitSet

namespace Payout.BankingStage

open Lib Payout.Runtime List Function LockTable ThreadAwareAccountLocks
open BitVec hiding and_assoc and_comm
open Bool hiding and_assoc and_comm
open ThreadSet hiding none any insert

variable {new writer other : ThreadId} {key : Pubkey × Bool} {write write' : Bool} {locks : LockTable}
  {writes reads : List Pubkey}

/-! ### Sets of threads -/

variable {threadId : ThreadId} {counts : LockCounts}

namespace ThreadSet

variable {set other : ThreadSet}

theorem contains_iff : set.contains threadId = true ↔ set.bits.getLsbD threadId = true := by
  rw [contains, bne_iff_ne]
  exact and_flag_ne_zero_iff

theorem contains_any {numThreads : Nat} (fits : numThreads ≤ 64) :
    (any numThreads).contains threadId = true ↔ threadId < numThreads := by
  rw [contains_iff, any, maxThreads]
  split
  · rename_i all
    rw [getLsbD_allOnes, decide_eq_true_eq, all]
  · rename_i notAll
    exact getLsbD_ones_below (by omega)

theorem contains_only (fits : only' < 64) : (only only').contains threadId = true ↔ threadId = only' := by
  rw [contains_iff, only, asFlag, getLsbD_one_shiftLeft]
  constructor
  · exact And.right
  · intro same
    exact ⟨same ▸ fits, same⟩

theorem contains_insert (fits : new < 64) :
    (set.insert new).contains threadId = true ↔ threadId = new ∨ set.contains threadId = true := by
  rw [contains_iff, contains_iff, insert, asFlag, getLsbD_or, or_eq_true, getLsbD_one_shiftLeft]
  constructor
  · rintro (old | ⟨-, same⟩)
    · exact .inr old
    · exact .inl same
  · rintro (same | old)
    · exact .inr ⟨same ▸ fits, same⟩
    · exact .inl old

theorem contains_remove :
    (set.remove removed).contains threadId = true ↔ threadId ≠ removed ∧ set.contains threadId = true := by
  rw [contains_iff, contains_iff, remove, asFlag, getLsbD_and, and_eq_true, getLsbD_not,
    and_eq_true, decide_eq_true_eq, not_eq_true', ← not_eq_true, getLsbD_one_shiftLeft]
  constructor
  · rintro ⟨old, small, different⟩
    exact ⟨fun same => different ⟨small, same⟩, old⟩
  · rintro ⟨different, old⟩
    exact ⟨old, lt_of_getLsbD old, fun same => different same.2⟩

theorem contains_inter :
    (set.inter other).contains threadId = true ↔ set.contains threadId = true ∧ other.contains threadId = true := by
  rw [contains_iff, contains_iff, contains_iff, inter, getLsbD_and, and_eq_true]

theorem not_contains_none : ¬ none.contains threadId = true := by
  rw [contains_iff, none]
  simp

theorem isEmpty_iff : set.isEmpty = true ↔ ∀ threadId, ¬ set.contains threadId = true := by
  rw [isEmpty, beq_iff_eq]
  constructor
  · rintro rfl threadId
    exact not_contains_none
  intro empty
  have zero : set.bits = 0#64 := by
    by_contra nonzero
    exact empty _ (contains_iff.mpr (getLsbD_true_ctz_of_ne_zero nonzero))
  cases set
  cases zero
  rfl

theorem exists_of_not_isEmpty (nonempty : ¬ set.isEmpty = true) : ∃ threadId, set.contains threadId = true := by
  by_contra none
  push Not at none
  exact nonempty (isEmpty_iff.mpr fun threadId => none threadId)

theorem onlyOneContained_eq_some :
    set.onlyOneContained = some threadId ↔ ∀ other, set.contains other = true ↔ other = threadId := by
  simp only [contains_iff]
  rw [← cpop_eq_one_iff, onlyOneContained, numThreads]
  split <;> simp_all

theorem contains_of_mem_containedThreads (mem : threadId ∈ set.containedThreads) : set.contains threadId = true := by
  have all : ∀ turns (bits : BitVec 64), threadId ∈ containedThreadsFrom turns bits → bits.getLsbD threadId = true := by
    intro turns
    induction turns with
    | zero => exact nofun
    | succ turns ih =>
      intro bits mem
      rw [containedThreadsFrom] at mem
      split at mem
      · cases mem
      rename_i nonzero
      rcases mem_cons.mp mem with rfl | later
      · exact getLsbD_true_ctz_of_ne_zero nonzero
      · have both := ih _ later
        rw [getLsbD_and, and_eq_true] at both
        exact both.1
  exact contains_iff.mpr (all _ _ mem)

theorem containedThreads_ne_nil (nonempty : ¬ set.isEmpty = true) : set.containedThreads ≠ [] := by
  have nonzero : set.bits ≠ 0#64 := by
    intro zero
    apply nonempty
    rw [isEmpty, beq_iff_eq]
    cases set
    cases zero
    rfl
  rw [containedThreads, maxThreads, containedThreadsFrom, if_neg nonzero]
  exact cons_ne_nil _ _

end ThreadSet

/-! ### Counts of locks -/

/-- How many times each thread holds a lock: an account, and whether it is for writing. -/
abbrev LockCounts := ThreadId → Pubkey × Bool → Nat

/-- The counts with some more locks on a thread. -/
def LockCounts.add (counts : LockCounts) (threadId : ThreadId) (keys : List (Pubkey × Bool)) : LockCounts :=
  fun thread key => counts thread key + if thread = threadId then keys.count key else 0

namespace LockCounts

variable {keys keys' : List (Pubkey × Bool)}

theorem add_nil : counts.add threadId [] = counts := by
  funext thread key
  simp [add]

theorem add_append : counts.add threadId (keys ++ keys') = (counts.add threadId keys).add threadId keys' := by
  funext thread key
  simp only [add, count_append]
  split <;> omega

theorem add_perm (perm : keys.Perm keys') : counts.add threadId keys = counts.add threadId keys' := by
  funext thread key
  simp only [add, perm.count_eq]

/-- The counters have room for some more locks on any thread. -/
def Room (counts : LockCounts) (keys : List (Pubkey × Bool)) : Prop :=
  ∀ thread key, counts thread key + keys.count key < 2 ^ 32

theorem Room.append (room : counts.Room (keys ++ keys')) :
    counts.Room keys ∧ (counts.add threadId keys).Room keys' := by
  constructor <;> intro thread key <;> have all := room thread key <;> rw [count_append] at all
  · omega
  · simp only [add]
    split <;> omega

end LockCounts

/-- How often the threads hold the locks of an account for writing, or for reading. -/
abbrev LockCounts.of (counts : LockCounts) (account : Pubkey) (write : Bool) (thread : ThreadId) : Nat :=
  counts thread (account, write)

def WriteCounts : Option AccountWriteLocks → (ThreadId → Nat) → Prop
  | none, writers => writers = fun _ => 0
  | some locks, writers => (0 < locks.lockCount ∧ locks.lockCount < 2 ^ 32) ∧
      writers = Function.update (fun _ => 0) locks.threadId locks.lockCount

def ReadCounts : Option AccountReadLocks → (ThreadId → Nat) → Prop
  | none, readers => readers = fun _ => 0
  | some locks, readers =>
    locks.lockCounts = readers ∧ (∀ threadId, locks.threadSet.contains threadId = true ↔ 0 < readers threadId) ∧
      (∀ threadId, readers threadId < 2 ^ 32) ∧ ∃ threadId, 0 < readers threadId

/-- The entry of an account says how often it is locked on which thread, and the locks agree. -/
structure Represents (entry : Option AccountLocks) (counts : Bool → ThreadId → Nat) : Prop where
  written : WriteCounts (entry.getD .default).writeLocks (counts true)
  read : ReadCounts (entry.getD .default).readLocks (counts false)
  used : entry ≠ some .default
  /-- Readers are on the thread of the writers. -/
  together : ∀ writer reader, 0 < counts true writer → 0 < counts false reader → reader = writer

/-- The table holds exactly the locks that are counted. -/
def LockTable.Exact (locks : LockTable) (counts : LockCounts) : Prop :=
  ∀ account, Represents (locks.lookup account) (counts.of account)

/-- No lock on another thread conflicts with a lock of the key on this thread. -/
def Compatible (counts : LockCounts) (threadId : ThreadId) (key : Pubkey × Bool) : Prop :=
  ∀ thread write, 0 < counts thread (key.1, write) → (write = true ∨ key.2 = true) → thread = threadId

section Counts

variable {writers readers : ThreadId → Nat} {writeLock : AccountWriteLocks} {readLock : AccountReadLocks}

theorem WriteCounts.pos_iff (written : WriteCounts (some writeLock) writers) (thread) :
    0 < writers thread ↔ thread = writeLock.threadId := by
  obtain ⟨pos, rfl⟩ := written
  by_cases same : thread = writeLock.threadId
  · subst same
    simpa using pos.1
  · simp [same]

theorem WriteCounts.lock_some (written : WriteCounts (some writeLock) writers)
    (room : writers writeLock.threadId + 1 < 2 ^ 32) :
    WriteCounts (some { writeLock with lockCount := wrappingAdd 32 writeLock.lockCount 1 })
      (update writers writeLock.threadId (writers writeLock.threadId + 1)) := by
  obtain ⟨_, rfl⟩ := written
  rw [update_self] at room ⊢
  rw [wrappingAdd_of_lt room]
  exact ⟨⟨Nat.succ_pos _, room⟩, update_idem ..⟩

theorem WriteCounts.lock_none (written : WriteCounts none writers) :
    WriteCounts (some { threadId := threadId, lockCount := 1 }) (update writers threadId (writers threadId + 1)) := by
  cases written
  exact ⟨⟨Nat.one_pos, Nat.one_lt_two_pow (by decide)⟩, rfl⟩

theorem WriteCounts.unlock (written : WriteCounts (some writeLock) (update writers threadId (writers threadId + 1))) :
    writeLock.threadId = threadId ∧ ∃ left, wrappingSub 32 writeLock.lockCount 1 = left ∧
      WriteCounts (if left = 0 then none else some { writeLock with lockCount := left }) writers := by
  obtain ⟨⟨pos, small⟩, counted⟩ := written
  have same : writeLock.threadId = threadId := by
    by_contra different
    have here := congrFun counted threadId
    rw [update_self, update_of_ne (Ne.symm different)] at here
    omega
  subst same
  have here := congrFun counted writeLock.threadId
  rw [update_self, update_self] at here
  have elsewhere : ∀ thread, thread ≠ writeLock.threadId → writers thread = 0 := by
    intro thread different
    have there := congrFun counted thread
    rwa [update_of_ne different, update_of_ne different] at there
  refine ⟨rfl, writers writeLock.threadId, ?_, ?_⟩
  · rw [wrappingSub_of_le small pos, ← here, Nat.add_sub_cancel]
  split
  · rename_i none
    funext thread
    by_cases same : thread = writeLock.threadId
    · rw [same, none]
    · exact elsewhere thread same
  · rename_i some
    refine ⟨⟨Nat.pos_of_ne_zero some, by dsimp only; omega⟩, ?_⟩
    funext thread
    by_cases same : thread = writeLock.threadId
    · rw [same, update_self]
    · rw [update_of_ne same, elsewhere thread same]

theorem ReadCounts.onlyOneContained (read : ReadCounts (some readLock) readers)
    (here : ∀ reader, 0 < readers reader → reader = threadId) :
    readLock.threadSet.onlyOneContained = some threadId := by
  obtain ⟨-, contained, -, reader, reads⟩ := read
  rw [onlyOneContained_eq_some]
  intro other
  rw [contained]
  constructor
  · exact here other
  · rintro rfl
    exact here reader reads ▸ reads

theorem ReadCounts.lock_some (read : ReadCounts (some readLock) readers) (fits : threadId < 64)
    (room : readers threadId + 1 < 2 ^ 32) :
    ReadCounts (some
      { threadSet := readLock.threadSet.insert threadId
        lockCounts := update readLock.lockCounts threadId (wrappingAdd 32 (readLock.lockCounts threadId) 1) })
      (update readers threadId (readers threadId + 1)) := by
  obtain ⟨rfl, contained, small, -⟩ := read
  rw [wrappingAdd_of_lt room]
  refine ⟨rfl, ?_, (forall_update_iff _ fun _ count => count < 2 ^ 32).mpr ⟨room, fun thread _ => small thread⟩,
    threadId, by simp⟩
  intro thread
  rw [contains_insert fits, contained]
  by_cases same : thread = threadId
  · simp [same]
  · simp [same]

theorem ReadCounts.lock_none (read : ReadCounts none readers) (fits : threadId < 64) :
    ReadCounts (some { threadSet := .only threadId, lockCounts := update (fun _ => 0) threadId 1 })
      (update readers threadId (readers threadId + 1)) := by
  cases read
  refine ⟨rfl, ?_, (forall_update_iff _ fun _ count => count < 2 ^ 32).mpr (by simp), threadId, by simp⟩
  intro thread
  rw [contains_only fits]
  by_cases same : thread = threadId
  · simp [same]
  · simp [same]

theorem ReadCounts.unlock (read : ReadCounts (some readLock) (update readers threadId (readers threadId + 1))) :
    readLock.threadSet.contains threadId = true ∧ wrappingSub 32 (readLock.lockCounts threadId) 1 = readers threadId ∧
      let threadSet := if readers threadId = 0 then readLock.threadSet.remove threadId else readLock.threadSet
      ReadCounts (if readers threadId = 0 ∧ threadSet.isEmpty then none
        else some { threadSet := threadSet
                    lockCounts := update readLock.lockCounts threadId (readers threadId) }) readers := by
  obtain ⟨counted, contained, small, -⟩ := read
  obtain ⟨here, others⟩ := (forall_update_iff _ fun _ count => count < 2 ^ 32).mp small
  refine ⟨(contained threadId).mpr (by simp), ?_, ?_⟩
  · rw [counted, update_self]
    exact wrappingSub_of_le here (Nat.le_add_left ..)
  intro threadSet
  have counts : update readLock.lockCounts threadId (readers threadId) = readers := by
    rw [counted, update_idem, update_eq_self]
  -- The threads left are those that still read.
  have left : ∀ thread, threadSet.contains thread = true ↔ 0 < readers thread := by
    intro thread
    simp only [threadSet]
    by_cases same : thread = threadId
    · subst same
      split
      · rename_i none
        rw [contains_remove, none]
        simp
      · rename_i some
        rw [contained, update_self]
        omega
    · have others := contained thread
      rw [update_of_ne same] at others
      split
      · rw [contains_remove, others]
        exact and_iff_right same
      · exact others
  split
  · rename_i gone
    funext thread
    have empty := isEmpty_iff.mp gone.2 thread
    rw [left] at empty
    omega
  · rename_i stays
    refine ⟨counts, left, fun thread => ?_, ?_⟩
    · by_cases same : thread = threadId
      · exact same ▸ Nat.lt_of_succ_lt here
      · exact others thread same
    by_cases zero : readers threadId = 0
    · obtain ⟨thread, inSet⟩ := exists_of_not_isEmpty fun empty => stays ⟨zero, empty⟩
      exact ⟨thread, (left thread).mp inSet⟩
    · exact ⟨threadId, Nat.pos_of_ne_zero zero⟩

end Counts

namespace LockTable.Exact

variable {locks' : LockTable} {counts' : LockCounts} {account : Pubkey}

theorem add_same (counts : LockCounts) (threadId account write) :
    (counts.add threadId [(account, write)]).of account write =
      update (counts.of account write) threadId (counts threadId (account, write) + 1) := by
  funext thread
  by_cases same : thread = threadId
  · simp [same, LockCounts.add]
  · simp [same, LockCounts.add]

theorem add_other (counts : LockCounts) (threadId) (different : (other, write') ≠ (account, write)) :
    (counts.add threadId [(account, write)]).of other write' = counts.of other write' := by
  funext thread
  simp [LockCounts.add, count_eq_zero, different]

theorem add_elsewhere (other) (different : other ≠ account) :
    (counts.add threadId [(account, write)]).of other = counts.of other :=
  funext fun _ => add_other counts threadId fun same => different (Prod.ext_iff.mp same).1

section

variable (exact' : locks.Exact counts) (same : ∀ other, other ≠ account → counts'.of other = counts.of other)

include exact' same

/-- Two tables that differ in one account, with counts that differ in it. -/
theorem change (lookup : ∀ other, other ≠ account → locks'.lookup other = locks.lookup other)
    (here : Represents (locks'.lookup account) (counts'.of account)) : locks'.Exact counts' := by
  intro other
  by_cases isAccount : other = account
  · exact isAccount ▸ here
  · rw [lookup other isAccount, same other isAccount]
    exact exact' other

theorem insert (here : Represents (some entry) (counts'.of account)) :
    LockTable.Exact (locks.insert account entry) counts' := by
  refine exact'.change same (fun other => AList.lookup_insert_ne) ?_
  rw [AList.lookup_insert]
  exact here

theorem erase (here : Represents none (counts'.of account)) : LockTable.Exact (locks.erase account) counts' := by
  refine exact'.change same (fun other => AList.lookup_erase_ne) ?_
  rw [AList.lookup_erase]
  exact here

end

/-- An entry that counts one more lock, which is compatible with the others. -/
theorem lock (exact' : locks.Exact counts) (compatible : Compatible counts threadId (account, write))
    (used : entry ≠ .default)
    (written : WriteCounts entry.writeLocks ((counts.add threadId [(account, write)]).of account true))
    (read : ReadCounts entry.readLocks ((counts.add threadId [(account, write)]).of account false)) :
    LockTable.Exact (locks.insert account entry) (counts.add threadId [(account, write)]) := by
  refine exact'.insert add_elsewhere ⟨written, read, fun default => used (Option.some.inj default), ?_⟩
  intro writer reader writes reads
  have here : writer = threadId := by
    by_contra different
    simp only [LockCounts.add, if_neg different] at writes
    exact different (compatible writer true writes (.inl rfl))
  subst here
  by_contra different
  simp only [LockCounts.add, if_neg different] at reads
  cases write with
  | true => exact different (compatible reader false reads (.inr rfl))
  | false =>
    rw [add_other counts writer (by simp)] at writes
    exact different ((exact' account).together _ _ writes reads)

theorem writeLock (exact' : locks.Exact counts) (compatible : Compatible counts threadId (account, true))
    (room : counts threadId (account, true) + 1 < 2 ^ 32) :
    ∃ locks', locks.writeLockAccount account threadId = .ok locks' ∧
      locks'.Exact (counts.add threadId [(account, true)]) := by
  obtain ⟨written, read, -, -⟩ := exact' account
  simp only [writeLockAccount]
  generalize (locks.lookup account).getD .default = entry at written read
  have done : ∀ writeLocks, WriteCounts (some writeLocks) (update (counts.of account true) threadId
        (counts threadId (account, true) + 1)) →
      LockTable.Exact (locks.insert account { entry with writeLocks := some writeLocks })
        (counts.add threadId [(account, true)]) := by
    intro writeLocks written
    rw [← add_same] at written
    exact exact'.lock compatible (by simp [AccountLocks.default]) written
      (by rwa [add_other counts threadId (by simp)])
  have passes : (entry.readLocks.any fun locks => locks.threadSet.onlyOneContained ≠ some threadId) = false := by
    cases found : entry.readLocks with
    | none => rfl
    | some =>
      rw [found] at read
      simp [read.onlyOneContained fun reader reads => compatible reader false reads (.inr rfl)]
  simp only [passes, rejectIf, bind, Except.bind]
  cases found : entry.writeLocks with
  | none =>
    rw [found] at written
    exact ⟨_, rfl, done _ written.lock_none⟩
  | some =>
    rw [found] at written
    obtain rfl := compatible _ true ((written.pos_iff _).mpr rfl) (.inl rfl)
    exact ⟨_, by simp, done _ (written.lock_some room)⟩

theorem readLock (exact' : locks.Exact counts) (compatible : Compatible counts threadId (account, false))
    (fits : threadId < 64) (room : counts threadId (account, false) + 1 < 2 ^ 32) :
    ∃ locks', locks.readLockAccount account threadId = .ok locks' ∧
      locks'.Exact (counts.add threadId [(account, false)]) := by
  obtain ⟨written, read, -, -⟩ := exact' account
  simp only [readLockAccount]
  generalize (locks.lookup account).getD .default = entry at written read
  have done : ∀ readLocks, ReadCounts (some readLocks) (update (counts.of account false) threadId
        (counts threadId (account, false) + 1)) →
      LockTable.Exact (locks.insert account { entry with readLocks := some readLocks })
        (counts.add threadId [(account, false)]) := by
    intro readLocks read
    rw [← add_same] at read
    exact exact'.lock compatible (by simp [AccountLocks.default]) (by rwa [add_other counts threadId (by simp)]) read
  have passes : (entry.writeLocks.any fun writeLocks => writeLocks.threadId ≠ threadId) = false := by
    cases found : entry.writeLocks with
    | none => rfl
    | some =>
      rw [found] at written
      simp [compatible _ true ((written.pos_iff _).mpr rfl) (.inl rfl)]
  simp only [passes, rejectIf, bind, Except.bind]
  cases found : entry.readLocks with
  | none =>
    rw [found] at read
    exact ⟨_, rfl, done _ (read.lock_none fits)⟩
  | some =>
    rw [found] at read
    exact ⟨_, rfl, done _ (read.lock_some fits room)⟩

/-- The entry of an account is left with the locks that are counted, or removed if there are none. -/
theorem settle (exact' : locks.Exact (counts.add threadId [(account, write)]))
    (written : WriteCounts writeLocks (counts.of account true))
    (read : ReadCounts readLocks (counts.of account false)) :
    LockTable.Exact (if writeLocks.isNone ∧ readLocks.isNone then locks.erase account
      else locks.insert account ⟨writeLocks, readLocks⟩) counts := by
  have elsewhere : ∀ other, other ≠ account → counts.of other = (counts.add threadId [(account, write)]).of other :=
    fun other different => (add_elsewhere other different).symm
  have together : ∀ writer reader, 0 < counts writer (account, true) → 0 < counts reader (account, false) →
      reader = writer := by
    intro writer reader writes reads
    exact (exact' account).together writer reader (by simp only [LockCounts.add]; omega)
      (by simp only [LockCounts.add]; omega)
  split
  · rename_i none
    simp only [Option.isNone_iff_eq_none] at none
    obtain ⟨rfl, rfl⟩ := none
    exact exact'.erase elsewhere ⟨written, read, nofun, together⟩
  · refine exact'.insert elsewhere ⟨written, read, ?_, together⟩
    grind [AccountLocks.default]

/-- An account that is locked has an entry. -/
theorem present (exact' : locks.Exact (counts.add threadId [(account, write)])) :
    ∃ entry, locks.lookup account = some entry := by
  rw [← Option.isSome_iff_exists, Option.isSome_iff_ne_none]
  intro absent
  obtain ⟨written, read, -, -⟩ := exact' account
  rw [absent] at written read
  have here : (counts.add threadId [(account, write)]).of account write threadId = 0 := by
    cases write with
    | true => exact congrFun written threadId
    | false => exact congrFun read threadId
  rw [add_same, update_self] at here
  omega

theorem writeUnlock (exact' : locks.Exact (counts.add threadId [(account, true)])) :
    ∃ locks', locks.writeUnlockAccount account threadId = .ok locks' ∧ locks'.Exact counts := by
  obtain ⟨entry, found⟩ := exact'.present
  obtain ⟨written, read, -, -⟩ := exact' account
  rw [found, Option.getD_some] at written read
  rw [add_same] at written
  rw [add_other counts threadId (by simp)] at read
  cases locked : entry.writeLocks with
  | none =>
    rw [locked] at written
    have here := congrFun written threadId
    simp at here
  | some =>
    rw [locked] at written
    obtain ⟨here, left, subtracted, written⟩ := written.unlock
    refine ⟨_, ?_, exact'.settle written read⟩
    simp only [writeUnlockAccount, found, locked, okOr, subtracted, here, rejectIf, ne_eq, not_true_eq_false,
      if_false, bind, Except.bind]
    by_cases zero : left = 0
    · cases entry.readLocks <;> simp [zero]
    · simp [zero]

theorem readUnlock (exact' : locks.Exact (counts.add threadId [(account, false)])) :
    ∃ locks', locks.readUnlockAccount account threadId = .ok locks' ∧ locks'.Exact counts := by
  obtain ⟨entry, found⟩ := exact'.present
  obtain ⟨written, read, -, -⟩ := exact' account
  rw [found, Option.getD_some] at written read
  rw [add_other counts threadId (by simp)] at written
  rw [add_same] at read
  cases locked : entry.readLocks with
  | none =>
    rw [locked] at read
    have here := congrFun read threadId
    simp at here
  | some readLocks =>
    rw [locked] at read
    obtain ⟨contained, subtracted, read⟩ := read.unlock
    simp only [readUnlockAccount, found, locked, okOr, subtracted, contained, rejectIf, not_true_eq_false,
      if_false, bind, Except.bind]
    generalize (if counts threadId (account, false) = 0 then readLocks.threadSet.remove threadId
      else readLocks.threadSet) = threadSet at read ⊢
    refine ⟨_, ?_, exact'.settle written read⟩
    by_cases gone : counts threadId (account, false) = 0 ∧ threadSet.isEmpty = true
    · cases entry.writeLocks <;> simp [gone]
    · simp [gone]

/-- The write locks of an account are on one thread. -/
theorem writer_unique (exact' : locks.Exact counts) (writes : 0 < counts writer (account, true))
    (writes' : 0 < counts writer' (account, true)) : writer = writer' := by
  have written := (exact' account).written
  cases found : ((locks.lookup account).getD .default).writeLocks with
  | none =>
    rw [found] at written
    have none : counts writer (account, true) = 0 := congrFun written writer
    omega
  | some =>
    rw [found] at written
    exact ((written.pos_iff writer).mp writes).trans ((written.pos_iff writer').mp writes').symm

/-- Locks of an account of which one is for writing are on one thread. -/
theorem same_thread (exact' : locks.Exact counts) (first : 0 < counts one (account, write))
    (second : 0 < counts other (account, write')) (conflict : write = true ∨ write' = true) : one = other := by
  cases write with
  | true =>
    cases write' with
    | true => exact exact'.writer_unique first second
    | false => exact ((exact' account).together _ _ first second).symm
  | false =>
    cases write' with
    | true => exact (exact' account).together _ _ second first
    | false => exact absurd conflict (by decide)

end LockTable.Exact

/-! ### Locking transactions -/

/-- Only threads below a number hold locks. -/
def LockCounts.Below (counts : LockCounts) (numThreads : Nat) : Prop :=
  ∀ thread key, 0 < counts thread key → thread < numThreads

section Locking

variable {numThreads : Nat}

section

variable (exact' : locks.Exact counts) (below : counts.Below numThreads) (fits : numThreads ≤ 64)
include exact' below fits

theorem schedulableThreads_spec (write account) :
    ∃ threads, locks.schedulableThreads numThreads write account = .ok threads ∧
      ∀ thread < numThreads, threads.contains thread = true ↔ Compatible counts thread (account, write) := by
  obtain ⟨written, read, used, together⟩ := exact' account
  -- A set with the only thread of all locks is right, if one of them conflicts.
  have only : ∀ only' write'', 0 < counts only' (account, write'') → (write'' = true ∨ write = true) →
      (∀ thread write', 0 < counts thread (account, write') → thread = only') →
      ∀ thread, (ThreadSet.only only').contains thread = true ↔ Compatible counts thread (account, write) := by
    intro only' write'' held conflict all thread
    rw [contains_only (lt_of_lt_of_le (below _ _ held) fits)]
    constructor
    · rintro rfl other write' pos _
      exact all other write' pos
    · exact fun compatible => (compatible only' write'' held conflict).symm
  unfold schedulableThreads
  split
  · rename_i absent
    rw [absent] at written read
    refine ⟨_, rfl, ?_⟩
    intro thread inRange
    refine iff_of_true ((contains_any fits).mpr inRange) ?_
    intro other write' pos _
    cases write' with
    | true => simp [congrFun written other] at pos
    | false => simp [congrFun read other] at pos
  · rename_i readLocks found
    rw [found] at written read
    have unwritten : ∀ other, counts other (account, true) = 0 := congrFun written
    cases write with
    | false =>
      refine ⟨_, rfl, ?_⟩
      intro thread inRange
      refine iff_of_true ((contains_any fits).mpr inRange) ?_
      intro other write' pos conflict
      cases write' with
      | true => simp [unwritten other] at pos
      | false => simp at conflict
    | true =>
      refine ⟨_, rfl, ?_⟩
      intro thread _
      split
      · rename_i reader onlyOne
        have contained := onlyOneContained_eq_some.mp onlyOne
        refine only reader false ((read.2.1 reader).mp ((contained reader).mpr rfl)) (.inr rfl) ?_ thread
        intro other write' pos
        cases write' with
        | true => simp [unwritten other] at pos
        | false => exact (contained other).mp ((read.2.1 other).mpr pos)
      · rename_i several
        refine iff_of_false not_contains_none ?_
        intro compatible
        have single := read.onlyOneContained fun reader reads => compatible reader false reads (.inr rfl)
        cases several.symm.trans single
  · rename_i writeLocks found
    rw [found] at written read
    have writes : 0 < counts writeLocks.threadId (account, true) := (written.pos_iff _).mpr rfl
    refine ⟨_, rfl, fun thread _ => only _ true writes (.inl rfl) ?_ thread⟩
    intro other write' pos
    cases write' with
    | true => exact (written.pos_iff other).mp pos
    | false => simp [congrFun read other] at pos
  · rename_i writeLocks readLocks found
    rw [found] at written read
    have writes : 0 < counts writeLocks.threadId (account, true) := (written.pos_iff _).mpr rfl
    have single := read.onlyOneContained fun reader => together _ reader writes
    refine ⟨readLocks.threadSet, by simp [single, rejectIf, bind, Except.bind], ?_⟩
    intro thread _
    rw [onlyOneContained_eq_some.mp single thread,
      ← contains_only (lt_of_lt_of_le (below _ _ writes) fits)]
    refine only _ true writes (.inl rfl) ?_ thread
    intro other write' pos
    cases write' with
    | true => exact (written.pos_iff other).mp pos
    | false => exact together _ _ writes pos
  · rename_i found
    exact absurd found used

/-- Of some threads those are kept on which all accounts can be locked, and no result means that there are none. -/
theorem keepSchedulable_spec (write accounts) (threads : ThreadSet)
    (inRange : ∀ thread, threads.contains thread = true → thread < numThreads) :
    ∃ result, locks.keepSchedulable numThreads write accounts threads = .ok result ∧
      (∀ thread, (result.getD .none).contains thread = true ↔
        threads.contains thread = true ∧ ∀ account ∈ accounts, Compatible counts thread (account, write)) ∧
      (¬ threads.isEmpty = true → ∀ left, result = some left → ¬ left.isEmpty = true) := by
  induction accounts generalizing threads with
  | nil =>
    refine ⟨_, rfl, fun thread => ?_, ?_⟩
    · simp
    · rintro nonempty left ⟨⟩
      exact nonempty
  | cons account accounts ih =>
    obtain ⟨allowed, computed, exactly⟩ := schedulableThreads_spec exact' below fits write account
    have kept : ∀ thread, (threads.inter allowed).contains thread = true ↔
        threads.contains thread = true ∧ Compatible counts thread (account, write) := by
      intro thread
      rw [contains_inter]
      exact and_congr_right fun contained => exactly thread (inRange thread contained)
    have split : ∀ thread, (threads.contains thread = true ∧
        ∀ other ∈ account :: accounts, Compatible counts thread (other, write)) ↔
        (threads.inter allowed).contains thread = true ∧
          ∀ other ∈ accounts, Compatible counts thread (other, write) := by
      simp [kept, and_assoc]
    simp only [keepSchedulable, computed, bind, Except.bind, split]
    split
    · rename_i empty
      refine ⟨_, rfl, fun thread => ?_, nofun⟩
      exact iff_of_false not_contains_none fun both => isEmpty_iff.mp empty thread both.1
    · rename_i nonempty
      obtain ⟨result, computed, rest, some'⟩ := ih (threads.inter allowed) fun thread contained =>
        inRange thread ((kept thread).mp contained).1
      exact ⟨result, computed, rest, fun _ => some' nonempty⟩

end

/-- The keys of accounts to write and to read. -/
def lockKeys (writeAccountLocks readAccountLocks : List Pubkey) : List (Pubkey × Bool) :=
  writeAccountLocks.map (·, true) ++ readAccountLocks.map (·, false)

/-- All of the accounts can be locked on the thread. -/
def Lockable (counts : LockCounts) (numThreads : Nat) (writes reads : List Pubkey) (thread : ThreadId) : Prop :=
  thread < numThreads ∧ ∀ key ∈ lockKeys writes reads, Compatible counts thread key

theorem accountsSchedulableThreads_spec (exact' : locks.Exact counts) (below : counts.Below numThreads)
    (fits : numThreads ≤ 64) (writes reads) :
    ∃ result, locks.accountsSchedulableThreads numThreads writes reads = .ok result ∧
      (∀ thread, (result.getD .none).contains thread = true ↔ Lockable counts numThreads writes reads thread) ∧
      (0 < numThreads → ∀ left, result = some left → ¬ left.isEmpty = true) := by
  have all : ∀ thread, (ThreadSet.any numThreads).contains thread = true ↔ thread < numThreads := fun _ =>
    contains_any fits
  obtain ⟨result, computed, kept, some'⟩ := keepSchedulable_spec exact' below fits true writes (.any numThreads)
    fun thread => (all thread).mp
  have split : ∀ thread, Lockable counts numThreads writes reads thread ↔
      (result.getD .none).contains thread = true ∧ ∀ account ∈ reads, Compatible counts thread (account, false) := by
    simp [Lockable, kept, all, lockKeys, or_imp, forall_and, and_assoc]
  simp only [split]
  cases result with
  | none =>
    refine ⟨none, ?_, ?_, nofun⟩
    · simp only [accountsSchedulableThreads, computed, bind, Except.bind]
    · exact fun thread => iff_of_false not_contains_none fun both => not_contains_none both.1
  | some written =>
    obtain ⟨result, computed', kept', some''⟩ := keepSchedulable_spec exact' below fits false reads written
      fun thread contained => (all thread).mp ((kept thread).mp contained).1
    refine ⟨result, ?_, kept', ?_⟩
    · simp only [accountsSchedulableThreads, computed, computed', bind, Except.bind]
    · intro pos
      refine some'' (some' ?_ written rfl)
      exact fun empty => isEmpty_iff.mp empty 0 ((all 0).mpr pos)

theorem Compatible.add {keys : List (Pubkey × Bool)} (compatible : Compatible counts threadId key) :
    Compatible (counts.add threadId keys) threadId key := by
  intro thread write pos conflict
  by_contra different
  simp only [LockCounts.add, if_neg different, Nat.add_zero] at pos
  exact different (compatible thread write pos conflict)

theorem foldlM_lock (lock : LockTable → Pubkey → Except Panic LockTable)
    (locked : ∀ locks counts account, locks.Exact counts → Compatible counts threadId (account, write) →
      counts threadId (account, write) + 1 < 2 ^ 32 →
      ∃ locks', lock locks account = .ok locks' ∧ locks'.Exact (counts.add threadId [(account, write)]))
    (accounts : List Pubkey) {counts : LockCounts} (exact' : locks.Exact counts)
    (compatible : ∀ account ∈ accounts, Compatible counts threadId (account, write))
    (room : counts.Room (accounts.map (·, write))) :
    ∃ locks', accounts.foldlM lock locks = .ok locks' ∧
      locks'.Exact (counts.add threadId (accounts.map (·, write))) := by
  induction accounts generalizing locks counts with
  | nil => exact ⟨locks, rfl, by rwa [map_nil, LockCounts.add_nil]⟩
  | cons account accounts ih =>
    obtain ⟨first, others⟩ := forall_mem_cons.mp compatible
    have here := room threadId (account, write)
    rw [map_cons, count_cons_self] at here
    rw [map_cons, ← singleton_append] at room
    obtain ⟨_, taken, exact'⟩ := locked locks counts account exact' first (by omega)
    obtain ⟨last, taken', exact'⟩ := ih exact' (fun other mem => (others other mem).add) room.append.2
    refine ⟨last, ?_, ?_⟩
    · rw [foldlM_cons, taken]
      exact taken'
    · rwa [map_cons, ← singleton_append, LockCounts.add_append]

theorem foldlM_unlock (unlock : LockTable → Pubkey → Except Panic LockTable)
    (unlocked : ∀ locks counts account, locks.Exact (LockCounts.add counts threadId [(account, write)]) →
      ∃ locks', unlock locks account = .ok locks' ∧ locks'.Exact counts)
    (accounts : List Pubkey) (exact' : locks.Exact (counts.add threadId (accounts.map (·, write)))) :
    ∃ locks', accounts.foldlM unlock locks = .ok locks' ∧ locks'.Exact counts := by
  induction accounts generalizing locks with
  | nil => exact ⟨locks, rfl, by rwa [map_nil, LockCounts.add_nil] at exact'⟩
  | cons account accounts ih =>
    have last : (((account, write) :: accounts.map (·, write))).Perm (accounts.map (·, write) ++ [(account, write)]) :=
      (perm_append_singleton _ _).symm
    rw [map_cons, LockCounts.add_perm last, LockCounts.add_append] at exact'
    obtain ⟨_, taken, exact'⟩ := unlocked locks _ account exact'
    obtain ⟨left, taken', exact'⟩ := ih exact'
    refine ⟨left, ?_, exact'⟩
    rw [foldlM_cons, taken]
    exact taken'

variable {accountLocks : ThreadAwareAccountLocks}

theorem lockAccounts_spec (exact' : accountLocks.locks.Exact counts) (inRange : threadId < accountLocks.numThreads)
    (fits : accountLocks.numThreads ≤ 64) (compatible : ∀ key ∈ lockKeys writes reads, Compatible counts threadId key)
    (room : counts.Room (lockKeys writes reads)) :
    ∃ locks', accountLocks.lockAccounts writes reads threadId = .ok { accountLocks with locks := locks' } ∧
      locks'.Exact (counts.add threadId (lockKeys writes reads)) := by
  have small : threadId < 64 := lt_of_lt_of_le inRange fits
  obtain ⟨roomWrites, roomReads⟩ := room.append
  obtain ⟨_, locked, exact'⟩ := foldlM_lock (fun locks account => locks.writeLockAccount account threadId)
    (fun _ _ _ exact' => exact'.writeLock) writes exact'
    (fun account mem => compatible _ (mem_append_left _ (mem_map_of_mem mem))) roomWrites
  obtain ⟨locks', locked', exact'⟩ := foldlM_lock (fun locks account => locks.readLockAccount account threadId)
    (fun _ _ _ exact' compatible => exact'.readLock compatible small) reads exact'
    (fun account mem => (compatible _ (mem_append_right _ (mem_map_of_mem mem))).add) roomReads
  refine ⟨locks', ?_, by rwa [lockKeys, LockCounts.add_append]⟩
  simp only [lockAccounts, rejectIf, inRange, not_true_eq_false, if_false, locked, locked', bind, Except.bind]

/-- The selector chooses from the threads that it is given. -/
def Chooses (selector : ThreadSet → Except Panic ThreadId) : Prop :=
  ∀ threads : ThreadSet, ¬ threads.isEmpty = true →
    ∃ threadId, selector threads = .ok threadId ∧ threads.contains threadId = true

/-- Accounts are locked on one of the allowed threads on which all of them can be locked, or not at all. -/
theorem tryLockAccounts_spec (exact' : accountLocks.locks.Exact counts) (below : counts.Below accountLocks.numThreads)
    (fits : accountLocks.numThreads ≤ 64) (allowed) (room : counts.Room (lockKeys writes reads)) :
    ∃ offered : ThreadSet,
      (∀ thread, offered.contains thread = true ↔
        allowed.contains thread = true ∧ Lockable counts accountLocks.numThreads writes reads thread) ∧
      ∀ selector, Chooses selector →
        (∃ error, accountLocks.tryLockAccounts writes reads allowed selector = .ok (.error error) ∧
          offered.isEmpty = true ∧ (0 < accountLocks.numThreads → (error = .multipleConflicts ↔
            ∀ thread, ¬ Lockable counts accountLocks.numThreads writes reads thread))) ∨
        ∃ threadId locks', accountLocks.tryLockAccounts writes reads allowed selector =
            .ok (.ok ({ accountLocks with locks := locks' }, threadId)) ∧
          (selector offered = .ok threadId ∧ offered.contains threadId = true) ∧
          threadId < accountLocks.numThreads ∧ locks'.Exact (counts.add threadId (lockKeys writes reads)) := by
  obtain ⟨result, computed, exactly, nonempty⟩ := accountsSchedulableThreads_spec exact' below fits writes reads
  have offers : ∀ thread, ((result.getD .none).inter allowed).contains thread = true ↔
      allowed.contains thread = true ∧ Lockable counts accountLocks.numThreads writes reads thread := by
    intro thread
    rw [contains_inter, exactly, and_comm]
  refine ⟨_, offers, ?_⟩
  intro selector chooses
  simp only [tryLockAccounts, computed, bind, Except.bind, ← exactly]
  cases result with
  | none =>
    refine .inl ⟨_, rfl, isEmpty_iff.mpr ?_, fun _ => iff_of_true rfl fun _ => not_contains_none⟩
    exact fun thread contained => not_contains_none (contains_inter.mp contained).1
  | some schedulable =>
    dsimp only [Option.getD_some] at offers ⊢
    split
    · rename_i empty
      refine .inl ⟨_, rfl, empty, fun pos => iff_of_false nofun fun none => ?_⟩
      exact nonempty pos _ rfl (isEmpty_iff.mpr none)
    · rename_i left
      obtain ⟨threadId, selected, contained⟩ := chooses _ left
      obtain ⟨-, inRange, compatible⟩ := (offers threadId).mp contained
      obtain ⟨locks', locked, exact'⟩ := lockAccounts_spec exact' inRange fits compatible room
      exact .inr ⟨threadId, locks', by simp only [selected, locked], ⟨selected, contained⟩, inRange, exact'⟩

theorem unlockAccounts_spec (exact' : accountLocks.locks.Exact (counts.add threadId (lockKeys writes reads))) :
    ∃ locks', accountLocks.unlockAccounts writes reads threadId = .ok { accountLocks with locks := locks' } ∧
      locks'.Exact counts := by
  rw [lockKeys, LockCounts.add_perm perm_append_comm, LockCounts.add_append] at exact'
  obtain ⟨_, unlocked, exact'⟩ :=
    foldlM_unlock (fun locks account => locks.writeUnlockAccount account threadId)
      (fun _ _ _ exact' => exact'.writeUnlock) writes exact'
  obtain ⟨locks', unlocked', exact'⟩ :=
    foldlM_unlock (fun locks account => locks.readUnlockAccount account threadId)
      (fun _ _ _ exact' => exact'.readUnlock) reads exact'
  refine ⟨locks', ?_, exact'⟩
  simp only [unlockAccounts, unlocked, unlocked', bind, Except.bind]

theorem lockKeys_perm (transaction : Transaction) :
    (lockKeys transaction.writeAccountLocks transaction.readAccountLocks).Perm transaction.accountKeys := by
  unfold lockKeys Transaction.writeAccountLocks Transaction.readAccountLocks
  induction transaction.accountKeys with
  | nil => exact .nil
  | cons key keys ih =>
    obtain ⟨_, writable⟩ := key
    cases writable with
    | true => exact ih.cons _
    | false => exact perm_middle.trans (ih.cons _)

end Locking

end Payout.BankingStage
