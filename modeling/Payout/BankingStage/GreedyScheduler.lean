/-
Purpose: Scheduling of buffered transactions to worker threads. An account may be locked again on a thread that holds
  it already, so that conflicting transactions queue up on one worker. The buffer is a queue of ids by priority and the
  states of all transactions by id. A pass takes transactions by priority and puts each into the batch of a thread on
  which its accounts can be locked; batches are sent when one is full, when the next transaction conflicts with them,
  and at the end.
Source: gorchain/core/src/banking_stage/transaction_scheduler/{thread_aware_account_locks, transaction_state_container,
  transaction_state, transaction_priority_id, greedy_scheduler, scheduler_common, in_flight_tracker,
  batch_id_generator}.rs, gorchain/core/src/banking_stage/{read_write_account_set, scheduler_messages}.rs
Trusted boundary: the slab gives a new transaction any id that is vacant, and has no more room than it was asked for;
  the channels to and from the workers stay connected; additions and subtractions without a check wrap, as they do in
  a release build
-/
import Payout.Runtime.TransactionContext
import Mathlib.Data.Finset.Insert
import Mathlib.Data.Prod.Lex

namespace Payout.BankingStage

open Lib Payout.Runtime

/-- The ways to panic while transactions are scheduled. -/
inductive Panic where
  | readLockOnOtherThread
  | writeLockOnOtherThread
  | missingWriteLock
  | missingReadLock
  | mixedLocksOnOtherThread
  | entryWithoutLocks
  | threadOutOfRange
  | noThread
  | containerFull
  | emptyQueue
  | missingTransaction
  | transactionPending
  | transactionNotPending
  | batchesNotEmpty
  | locksUnavailable
  | untrackedBatch
  | sentMismatch
  | retryableIndexesNotInOrder
deriving Repr, DecidableEq

abbrev ThreadId := Nat

def maxThreads : Nat := 64

/-! ### Sets of threads -/

/-- A set of threads, one bit for each. -/
structure ThreadSet where
  bits : BitVec 64
deriving DecidableEq, Repr

namespace ThreadSet

def asFlag (threadId : ThreadId) : BitVec 64 := 1#64 <<< threadId

def none : ThreadSet := ⟨0#64⟩

def any (numThreads : Nat) : ThreadSet :=
  if numThreads = maxThreads then ⟨BitVec.allOnes 64⟩ else ⟨asFlag numThreads - 1#64⟩

def only (threadId : ThreadId) : ThreadSet := ⟨asFlag threadId⟩

variable (set : ThreadSet)

def numThreads : Nat := set.bits.cpop.toNat

def onlyOneContained : Option ThreadId :=
  if set.numThreads = 1 then some set.bits.ctz.toNat else .none

def isEmpty : Bool := set == none

def contains (threadId : ThreadId) : Bool := set.bits &&& asFlag threadId != 0#64

def insert (threadId : ThreadId) : ThreadSet := ⟨set.bits ||| asFlag threadId⟩

def remove (threadId : ThreadId) : ThreadSet := ⟨set.bits &&& ~~~ asFlag threadId⟩

def inter (one other : ThreadSet) : ThreadSet := ⟨one.bits &&& other.bits⟩

/-- The threads of a set: the lowest bit is taken and cleared, as often as there are bits. -/
def containedThreadsFrom : Nat → BitVec 64 → List ThreadId
  | 0, _ => []
  | turns + 1, bits =>
    if bits = 0#64 then [] else bits.ctz.toNat :: containedThreadsFrom turns (bits &&& (bits - 1#64))

def containedThreads : List ThreadId := containedThreadsFrom maxThreads set.bits

end ThreadSet

/-! ### Locks -/

/-- Locks are counted in 32 bits. -/
structure AccountWriteLocks where
  threadId : ThreadId
  lockCount : Nat

structure AccountReadLocks where
  threadSet : ThreadSet
  lockCounts : ThreadId → Nat

structure AccountLocks where
  writeLocks : Option AccountWriteLocks
  readLocks : Option AccountReadLocks

namespace AccountLocks

def default : AccountLocks := { writeLocks := none, readLocks := none }

end AccountLocks

inductive TryLockError where
  | multipleConflicts
  | threadNotAllowed
deriving Repr, DecidableEq

/-- An account has an entry if it has a lock. -/
abbrev LockTable := Store Pubkey AccountLocks

structure ThreadAwareAccountLocks where
  numThreads : Nat
  locks : LockTable

namespace LockTable

variable (locks : LockTable)

/-- The threads on which an account can be locked, for writing or for reading. -/
def schedulableThreads (numThreads : Nat) (write : Bool) (account : Pubkey) : Except Panic ThreadSet :=
  match locks.lookup account with
  | none => .ok (.any numThreads)
  | some { writeLocks := none, readLocks := some readLocks } =>
    if write then
      .ok (match readLocks.threadSet.onlyOneContained with
        | some threadId => .only threadId
        | none => .none)
    else .ok (.any numThreads)
  | some { writeLocks := some writeLocks, readLocks := none } => .ok (.only writeLocks.threadId)
  | some { writeLocks := some writeLocks, readLocks := some readLocks } => do
      rejectIf (readLocks.threadSet.onlyOneContained ≠ some writeLocks.threadId) .mixedLocksOnOtherThread
      .ok readLocks.threadSet
  | some { writeLocks := none, readLocks := none } => .error .entryWithoutLocks

/-- Keep the threads on which all of some accounts can be locked; there is no result as soon as none is left. -/
def keepSchedulable (numThreads : Nat) (write : Bool) :
    List Pubkey → ThreadSet → Except Panic (Option ThreadSet)
  | [], threads => .ok (some threads)
  | account :: accounts, threads => do
      let allowed ← schedulableThreads locks numThreads write account
      let left := threads.inter allowed
      if left.isEmpty then .ok none else keepSchedulable numThreads write accounts left

def accountsSchedulableThreads (numThreads : Nat) (writeAccountLocks readAccountLocks : List Pubkey) :
    Except Panic (Option ThreadSet) := do
  match ← keepSchedulable locks numThreads true writeAccountLocks (.any numThreads) with
  | none => .ok none
  | some threads => keepSchedulable locks numThreads false readAccountLocks threads

def writeLockAccount (account : Pubkey) (threadId : ThreadId) : Except Panic LockTable := do
  let entry := (locks.lookup account).getD .default
  rejectIf (entry.readLocks.any fun readLocks => readLocks.threadSet.onlyOneContained ≠ some threadId)
    .readLockOnOtherThread
  match entry.writeLocks with
  | some writeLocks => do
      rejectIf (writeLocks.threadId ≠ threadId) .writeLockOnOtherThread
      .ok (locks.insert account
        { entry with writeLocks := some { writeLocks with lockCount := wrappingAdd 32 writeLocks.lockCount 1 } })
  | none => .ok (locks.insert account { entry with writeLocks := some { threadId := threadId, lockCount := 1 } })

/-- An entry without locks is removed. -/
def writeUnlockAccount (account : Pubkey) (threadId : ThreadId) : Except Panic LockTable := do
  let entry ← okOr (locks.lookup account) .missingWriteLock
  let writeLocks ← okOr entry.writeLocks .missingWriteLock
  rejectIf (writeLocks.threadId ≠ threadId) .writeLockOnOtherThread
  let lockCount := wrappingSub 32 writeLocks.lockCount 1
  if lockCount = 0 then
    if entry.readLocks.isNone then .ok (locks.erase account)
    else .ok (locks.insert account { entry with writeLocks := none })
  else .ok (locks.insert account { entry with writeLocks := some { writeLocks with lockCount := lockCount } })

def readLockAccount (account : Pubkey) (threadId : ThreadId) : Except Panic LockTable := do
  let entry := (locks.lookup account).getD .default
  rejectIf (entry.writeLocks.any fun writeLocks => writeLocks.threadId ≠ threadId) .writeLockOnOtherThread
  match entry.readLocks with
  | some readLocks =>
    .ok (locks.insert account { entry with
      readLocks := some
        { threadSet := readLocks.threadSet.insert threadId
          lockCounts :=
            Function.update readLocks.lockCounts threadId (wrappingAdd 32 (readLocks.lockCounts threadId) 1) } })
  | none =>
    .ok (locks.insert account { entry with
      readLocks := some
        { threadSet := .only threadId, lockCounts := Function.update (fun _ => 0) threadId 1 } })

/-- An entry without locks is removed. -/
def readUnlockAccount (account : Pubkey) (threadId : ThreadId) : Except Panic LockTable := do
  let entry ← okOr (locks.lookup account) .missingReadLock
  let readLocks ← okOr entry.readLocks .missingReadLock
  rejectIf (¬ readLocks.threadSet.contains threadId) .readLockOnOtherThread
  let lockCount := wrappingSub 32 (readLocks.lockCounts threadId) 1
  let lockCounts := Function.update readLocks.lockCounts threadId lockCount
  let threadSet := if lockCount = 0 then readLocks.threadSet.remove threadId else readLocks.threadSet
  if lockCount = 0 ∧ threadSet.isEmpty then
    if entry.writeLocks.isNone then .ok (locks.erase account)
    else .ok (locks.insert account { entry with readLocks := none })
  else .ok (locks.insert account { entry with readLocks := some { threadSet := threadSet, lockCounts := lockCounts } })

end LockTable

namespace ThreadAwareAccountLocks

variable (accountLocks : ThreadAwareAccountLocks)

def lockAccounts (writeAccountLocks readAccountLocks : List Pubkey) (threadId : ThreadId) :
    Except Panic ThreadAwareAccountLocks := do
  rejectIf (¬ threadId < accountLocks.numThreads) .threadOutOfRange
  let written ← writeAccountLocks.foldlM (fun locks account => LockTable.writeLockAccount locks account threadId)
    accountLocks.locks
  let locks ← readAccountLocks.foldlM (fun locks account => LockTable.readLockAccount locks account threadId) written
  .ok { accountLocks with locks := locks }

/-- Lock accounts on an allowed thread on which all of them can be locked; the selector chooses among these. -/
def tryLockAccounts (writeAccountLocks readAccountLocks : List Pubkey) (allowedThreads : ThreadSet)
    (threadSelector : ThreadSet → Except Panic ThreadId) :
    Except Panic (Except TryLockError (ThreadAwareAccountLocks × ThreadId)) := do
  match ← LockTable.accountsSchedulableThreads accountLocks.locks accountLocks.numThreads writeAccountLocks
    readAccountLocks with
  | none => .ok (.error .multipleConflicts)
  | some schedulable =>
    let schedulable := schedulable.inter allowedThreads
    if schedulable.isEmpty then .ok (.error .threadNotAllowed)
    else do
      let threadId ← threadSelector schedulable
      let locked ← accountLocks.lockAccounts writeAccountLocks readAccountLocks threadId
      .ok (.ok (locked, threadId))

def unlockAccounts (writeAccountLocks readAccountLocks : List Pubkey) (threadId : ThreadId) :
    Except Panic ThreadAwareAccountLocks := do
  let written ← writeAccountLocks.foldlM (fun locks account => LockTable.writeUnlockAccount locks account threadId)
    accountLocks.locks
  let locks ← readAccountLocks.foldlM (fun locks account => LockTable.readUnlockAccount locks account threadId) written
  .ok { accountLocks with locks := locks }

end ThreadAwareAccountLocks

/-- The account keys of a transaction, each with whether the transaction may write the account. -/
structure Transaction where
  accountKeys : List (Pubkey × Bool)
deriving DecidableEq, Repr

namespace Transaction

def writeAccountLocks (transaction : Transaction) : List Pubkey :=
  transaction.accountKeys.filterMap fun (key, writable) => if writable then some key else none

def readAccountLocks (transaction : Transaction) : List Pubkey :=
  transaction.accountKeys.filterMap fun (key, writable) => if writable then none else some key

end Transaction

/-! ### The accounts of the batches being filled -/

structure ReadWriteAccountSet where
  readSet : Finset Pubkey
  writeSet : Finset Pubkey

namespace ReadWriteAccountSet

def clear : ReadWriteAccountSet := { readSet := ∅, writeSet := ∅ }

variable (accounts : ReadWriteAccountSet)

def canRead (pubkey : Pubkey) : Bool := pubkey ∉ accounts.writeSet

def canWrite (pubkey : Pubkey) : Bool := pubkey ∉ accounts.writeSet ∧ pubkey ∉ accounts.readSet

def checkLocks (transaction : Transaction) : Bool :=
  transaction.accountKeys.all fun (pubkey, writable) =>
    if writable then accounts.canWrite pubkey else accounts.canRead pubkey

def addRead (pubkey : Pubkey) : ReadWriteAccountSet × Bool :=
  ({ accounts with readSet := insert pubkey accounts.readSet }, accounts.canRead pubkey)

def addWrite (pubkey : Pubkey) : ReadWriteAccountSet × Bool :=
  ({ accounts with writeSet := insert pubkey accounts.writeSet }, accounts.canWrite pubkey)

/-- All accounts are added, and whether all were available is returned. -/
def takeLocks (transaction : Transaction) : ReadWriteAccountSet × Bool :=
  transaction.accountKeys.foldl
    (fun (accounts, allAvailable) (pubkey, writable) =>
      let (accounts, available) := if writable then accounts.addWrite pubkey else accounts.addRead pubkey
      (accounts, allAvailable && available))
    (accounts, true)

end ReadWriteAccountSet

/-! ### Transaction states -/

abbrev TransactionId := Nat

structure MaxAge where
  sanitizedEpoch : Nat
  altInvalidationSlot : Nat
deriving DecidableEq, Repr

/-- A transaction that is scheduled or being processed is taken out of its state. -/
structure TransactionState where
  transaction : Option Transaction
  maxAge : MaxAge
  priority : Nat
  cost : Nat
deriving DecidableEq, Repr

namespace TransactionState

def new (transaction : Transaction) (maxAge : MaxAge) (priority cost : Nat) : TransactionState :=
  { transaction := some transaction, maxAge := maxAge, priority := priority, cost := cost }

def takeTransactionForScheduling (state : TransactionState) :
    Except Panic (TransactionState × Transaction × MaxAge) := do
  let transaction ← okOr state.transaction .transactionPending
  .ok ({ state with transaction := none }, transaction, state.maxAge)

def retryTransaction (state : TransactionState) (transaction : Transaction) : Except Panic TransactionState := do
  rejectIf state.transaction.isSome .transactionNotPending
  .ok { state with transaction := some transaction }

end TransactionState

/-! ### The container -/

structure TransactionPriorityId where
  priority : Nat
  id : TransactionId
deriving DecidableEq, Repr

namespace TransactionPriorityId

theorem toLex_injective : Function.Injective fun one : TransactionPriorityId => toLex (one.priority, one.id) := by
  rintro ⟨priority, id⟩ ⟨priority', id'⟩ same
  simpa using same

/-- By priority, and then by id. -/
instance : LinearOrder TransactionPriorityId :=
  LinearOrder.lift' (fun one => toLex (one.priority, one.id)) toLex_injective

end TransactionPriorityId

structure TransactionStateContainer where
  capacity : Nat
  priorityQueue : List TransactionPriorityId
  idToTransactionState : Store TransactionId TransactionState

def extraCapacity : Nat := 64

namespace TransactionStateContainer

def withCapacity (capacity : Nat) : TransactionStateContainer :=
  { capacity := capacity, priorityQueue := [], idToTransactionState := ∅ }

variable (container : TransactionStateContainer)

def queueSize : Nat := container.priorityQueue.length

def bufferSize : Nat := container.idToTransactionState.entries.length

def isEmpty : Bool := container.priorityQueue.isEmpty

/-- Take the highest priority. -/
def pop : Option (TransactionPriorityId × TransactionStateContainer) :=
  container.priorityQueue.max?.map fun id => (id, { container with priorityQueue := container.priorityQueue.erase id })

def removeById (id : TransactionId) : Except Panic TransactionStateContainer := do
  let _ ← okOr (container.idToTransactionState.lookup id) .missingTransaction
  .ok { container with idToTransactionState := container.idToTransactionState.erase id }

/-- Drop the lowest priority from the queue and the states. -/
def dropMin : Except Panic TransactionStateContainer := do
  let priorityId ← okOr container.priorityQueue.min? .emptyQueue
  removeById { container with priorityQueue := container.priorityQueue.erase priorityId } priorityId.id

def dropMany : Nat → TransactionStateContainer → Except Panic TransactionStateContainer
  | 0, container => .ok container
  | more + 1, container => container.dropMin >>= dropMany more

/-- The number of transactions dropped to be within the capacity is returned. -/
def pushIdsIntoQueue (priorityIds : List TransactionPriorityId) : Except Panic (TransactionStateContainer × Nat) := do
  let pushed := { container with priorityQueue := priorityIds.reverse ++ container.priorityQueue }
  let numDropped := pushed.bufferSize - pushed.capacity
  let left ← dropMany numDropped pushed
  .ok (left, numDropped)

def retryTransaction (transactionId : TransactionId) (transaction : Transaction) :
    Except Panic TransactionStateContainer := do
  let state ← okOr (container.idToTransactionState.lookup transactionId) .missingTransaction
  let retried ← state.retryTransaction transaction
  let (pushed, _) ← pushIdsIntoQueue
    { container with idToTransactionState := container.idToTransactionState.insert transactionId retried }
    [{ priority := state.priority, id := transactionId }]
  .ok pushed

/-- The id is the key of the vacant entry. Whether a transaction was dropped is returned. -/
def insertNewTransaction (id : TransactionId) (transaction : Transaction) (maxAge : MaxAge) (priority cost : Nat) :
    Except Panic (TransactionStateContainer × Bool) := do
  rejectIf (¬ container.bufferSize < container.capacity + extraCapacity) .containerFull
  let (pushed, numDropped) ← pushIdsIntoQueue
    { container with
      idToTransactionState :=
        container.idToTransactionState.insert id (TransactionState.new transaction maxAge priority cost) }
    [{ priority := priority, id := id }]
  .ok (pushed, 0 < numDropped)

end TransactionStateContainer

open Function

/-- Batch ids of 64 bits count down from zero. -/
abbrev TransactionBatchId := Nat

/-! ### Batches -/

/-- A transaction in a batch: an element of each of the vectors of ids, transactions and maximal ages. -/
structure BatchItem where
  id : TransactionId
  transaction : Transaction
  maxAge : MaxAge
  /-- What was added to the cost of the batch. Only statements read it. -/
  cost : Nat
  /-- How many transactions had been locked before. Only statements read it. -/
  lockedAt : Nat
deriving DecidableEq, Repr

structure Batch where
  items : List BatchItem
  totalCus : Nat
deriving DecidableEq, Repr

namespace Batch

def empty : Batch := { items := [], totalCus := 0 }

def isEmpty (batch : Batch) : Bool := batch.items.isEmpty && batch.totalCus == 0

def add (batch : Batch) (item : BatchItem) : Batch :=
  { items := batch.items ++ [item], totalCus := wrappingAdd 64 batch.totalCus item.cost }

end Batch

/-- A batch for every thread. -/
abbrev Batches := ThreadId → Batch

structure ConsumeWork where
  batchId : TransactionBatchId
  items : List BatchItem
deriving DecidableEq, Repr

/-! ### Batches in flight -/

structure BatchEntry where
  threadId : ThreadId
  numTransactions : Nat
  totalCus : Nat
deriving DecidableEq, Repr

structure InFlightTracker where
  numInFlightPerThread : ThreadId → Nat
  cusInFlightPerThread : ThreadId → Nat
  batches : Store TransactionBatchId BatchEntry
  nextId : TransactionBatchId

namespace InFlightTracker

def new : InFlightTracker :=
  { numInFlightPerThread := fun _ => 0, cusInFlightPerThread := fun _ => 0, batches := ∅, nextId := 0 }

variable (tracker : InFlightTracker)

def trackBatch (numTransactions totalCus : Nat) (threadId : ThreadId) : InFlightTracker × TransactionBatchId :=
  let batchId := tracker.nextId
  ({ numInFlightPerThread := update tracker.numInFlightPerThread threadId
        (wrappingAdd 64 (tracker.numInFlightPerThread threadId) numTransactions)
     cusInFlightPerThread := update tracker.cusInFlightPerThread threadId
        (wrappingAdd 64 (tracker.cusInFlightPerThread threadId) totalCus)
     batches := tracker.batches.insert batchId
        { threadId := threadId, numTransactions := numTransactions, totalCus := totalCus }
     nextId := wrappingSub 64 tracker.nextId 1 }, batchId)

def completeBatch (batchId : TransactionBatchId) : Except Panic (InFlightTracker × ThreadId) := do
  let entry ← okOr (tracker.batches.lookup batchId) .untrackedBatch
  .ok ({ tracker with
    numInFlightPerThread := update tracker.numInFlightPerThread entry.threadId
      (wrappingSub 64 (tracker.numInFlightPerThread entry.threadId) entry.numTransactions)
    cusInFlightPerThread := update tracker.cusInFlightPerThread entry.threadId
      (wrappingSub 64 (tracker.cusInFlightPerThread entry.threadId) entry.totalCus)
    batches := tracker.batches.erase batchId }, entry.threadId)

end InFlightTracker

/-! ### Sending batches -/

structure SchedulingCommon where
  numThreads : Nat
  inFlightTracker : InFlightTracker
  accountLocks : ThreadAwareAccountLocks
  batches : Batches
  /-- What the workers were sent and have not finished, in the order of sending. -/
  unfinished : List (ThreadId × ConsumeWork)
  /-- The number of transactions locked so far. Only `lockedAt` of batch items depends on it. -/
  numLocked : Nat

namespace SchedulingCommon

def new (numThreads : Nat) : SchedulingCommon :=
  { numThreads := numThreads
    inFlightTracker := .new
    accountLocks := { numThreads := numThreads, locks := ∅ }
    batches := fun _ => .empty
    unfinished := []
    numLocked := 0 }

variable (common : SchedulingCommon)

/-- The number of transactions sent is returned. -/
def sendBatch (threadIndex : ThreadId) : SchedulingCommon × Nat :=
  let batch := common.batches threadIndex
  if batch.items.isEmpty then (common, 0)
  else
    let (tracker, batchId) := common.inFlightTracker.trackBatch batch.items.length batch.totalCus threadIndex
    ({ common with
        batches := update common.batches threadIndex .empty
        inFlightTracker := tracker
        unfinished := common.unfinished ++ [(threadIndex, { batchId := batchId, items := batch.items })] },
      batch.items.length)

def sendBatches : SchedulingCommon × Nat :=
  (List.range common.numThreads).foldl
    (fun (common, numSent) threadIndex =>
      let (common, num) := common.sendBatch threadIndex
      (common, numSent + num))
    (common, 0)

/-- The thread with the least compute units, and then the fewest transactions, the first of them in the set. -/
def selectThread (threadSet : ThreadSet) : Except Panic ThreadId :=
  let work threadId := toLex
    (wrappingAdd 64 (common.batches threadId).totalCus (common.inFlightTracker.cusInFlightPerThread threadId),
      wrappingAdd 64 (common.batches threadId).items.length (common.inFlightTracker.numInFlightPerThread threadId))
  match threadSet.containedThreads with
  | [] => .error .noThread
  | first :: others =>
    .ok (others.foldl (fun best threadId => if work threadId < work best then threadId else best) first)

end SchedulingCommon

/-! ### Scheduling -/

structure GreedySchedulerConfig where
  targetScheduledCus : Nat
  maxScannedTransactionsPerSchedulingPass : Nat
  targetTransactionsPerBatch : Nat

structure GreedyScheduler where
  common : SchedulingCommon
  workingAccountSet : ReadWriteAccountSet
  unschedulables : List TransactionPriorityId
  config : GreedySchedulerConfig

inductive TransactionSchedulingError where
  | unschedulableConflicts
  | unschedulableThread
deriving DecidableEq, Repr

structure TransactionSchedulingInfo where
  threadId : ThreadId
  transaction : Transaction
  maxAge : MaxAge
  cost : Nat

structure SchedulingSummary where
  startingQueueSize : Nat
  startingBufferSize : Nat
  numScheduled : Nat
  numUnschedulableConflicts : Nat
  numUnschedulableThreads : Nat
deriving DecidableEq, Repr

/-- Lock a transaction on a thread and take it out of its state. -/
def tryScheduleTransaction (state : TransactionState) (accountLocks : ThreadAwareAccountLocks)
    (schedulableThreads : ThreadSet) (threadSelector : ThreadSet → Except Panic ThreadId) :
    Except Panic (Except TransactionSchedulingError
      (TransactionState × ThreadAwareAccountLocks × TransactionSchedulingInfo)) := do
  let transaction ← okOr state.transaction .transactionPending
  match ← accountLocks.tryLockAccounts transaction.writeAccountLocks transaction.readAccountLocks schedulableThreads
    threadSelector with
  | .error .multipleConflicts => .ok (.error .unschedulableConflicts)
  | .error .threadNotAllowed => .ok (.error .unschedulableThread)
  | .ok (locked, threadId) => do
      let (state, transaction, maxAge) ← state.takeTransactionForScheduling
      .ok (.ok (state, locked,
        { threadId := threadId, transaction := transaction, maxAge := maxAge, cost := state.cost }))

/-- What a pass changes as it scans the queue. -/
structure Pass where
  scheduler : GreedyScheduler
  container : TransactionStateContainer
  schedulableThreads : ThreadSet
  numScheduled : Nat
  numSent : Nat
  numUnschedulableConflicts : Nat
  numUnschedulableThreads : Nat

namespace Pass

variable (pass : Pass)

/-- Clear the working accounts and send all batches. -/
def flush : Pass :=
  let (common, num) := pass.scheduler.common.sendBatches
  { pass with
    scheduler := { pass.scheduler with workingAccountSet := .clear, common := common }
    numSent := pass.numSent + num }

def flushIf (condition : Prop) [Decidable condition] : Pass := if condition then pass.flush else pass

/-- Put a transaction that cannot be scheduled aside. -/
def putAside (id : TransactionPriorityId) (error : TransactionSchedulingError) : Pass :=
  { pass with
    scheduler := { pass.scheduler with unschedulables := pass.scheduler.unschedulables ++ [id] }
    numUnschedulableConflicts :=
      pass.numUnschedulableConflicts + if error = .unschedulableConflicts then 1 else 0
    numUnschedulableThreads := pass.numUnschedulableThreads + if error = .unschedulableThread then 1 else 0 }

/-- A thread that has its share of the work is not given more. -/
def removeBusy (targetCuPerThread : Nat) (threadId : ThreadId) : Pass :=
  if targetCuPerThread ≤ wrappingAdd 64 (pass.scheduler.common.inFlightTracker.cusInFlightPerThread threadId)
      (pass.scheduler.common.batches threadId).totalCus then
    { pass with schedulableThreads := pass.schedulableThreads.remove threadId }
  else pass

/-- Add a transaction that was locked to the batch of its thread. -/
def addTransaction (id : TransactionId) (state : TransactionState) (accountLocks : ThreadAwareAccountLocks)
    (info : TransactionSchedulingInfo) : Except Panic Pass := do
  let (accounts, available) := pass.scheduler.workingAccountSet.takeLocks info.transaction
  rejectIf (available = false) .locksUnavailable
  let common := pass.scheduler.common
  let item : BatchItem :=
    { id := id, transaction := info.transaction, maxAge := info.maxAge, cost := info.cost,
      lockedAt := common.numLocked }
  .ok { pass with
    container := { pass.container with
      idToTransactionState := pass.container.idToTransactionState.insert id state }
    scheduler := { pass.scheduler with
      workingAccountSet := accounts
      common := { common with
        accountLocks := accountLocks
        batches := update common.batches info.threadId ((common.batches info.threadId).add item)
        numLocked := common.numLocked + 1 } }
    numScheduled := pass.numScheduled + 1 }

/-- Try to schedule the transaction with an id that was taken from the queue. -/
def tryScheduleId (targetCuPerThread : Nat) (id : TransactionPriorityId) : Except Panic Pass := do
  let state ← okOr (pass.container.idToTransactionState.lookup id.id) .missingTransaction
  let transaction ← okOr state.transaction .transactionPending
  let pass := pass.flushIf (pass.scheduler.workingAccountSet.checkLocks transaction = false)
  match ← tryScheduleTransaction state pass.scheduler.common.accountLocks pass.schedulableThreads
    pass.scheduler.common.selectThread with
  | .error error => .ok (pass.putAside id error)
  | .ok (state, accountLocks, info) => do
      let added ← pass.addTransaction id.id state accountLocks info
      let sent := added.flushIf (pass.scheduler.config.targetTransactionsPerBatch ≤
        (added.scheduler.common.batches info.threadId).items.length)
      .ok (sent.removeBusy targetCuPerThread info.threadId)

/-- Scan the queue by priority, as long as there are scans, threads and transactions left. -/
def scan (targetCuPerThread : Nat) : Nat → Pass → Except Panic Pass
  | 0, pass => .ok pass
  | scans + 1, pass =>
    if pass.schedulableThreads.isEmpty || pass.container.isEmpty then .ok pass
    else do
      let (id, container) ← okOr pass.container.pop .emptyQueue
      let next ← tryScheduleId { pass with container := container } targetCuPerThread id
      scan targetCuPerThread scans next

end Pass

namespace GreedyScheduler

def new (numThreads : Nat) (config : GreedySchedulerConfig) : GreedyScheduler :=
  { common := .new numThreads, workingAccountSet := .clear, unschedulables := [], config := config }

variable (scheduler : GreedyScheduler)

/-- The threads with less than their share of compute units in flight. -/
def idleThreads (targetCuPerThread : Nat) : ThreadSet :=
  (List.range scheduler.common.numThreads).foldl
    (fun threads threadId =>
      if targetCuPerThread ≤ scheduler.common.inFlightTracker.cusInFlightPerThread threadId then threads.remove threadId
      else threads)
    (.any scheduler.common.numThreads)

/-- One scheduling pass. -/
def schedule (container : TransactionStateContainer) :
    Except Panic (GreedyScheduler × TransactionStateContainer × SchedulingSummary) := do
  let targetCuPerThread := scheduler.config.targetScheduledCus / scheduler.common.numThreads
  let schedulableThreads := scheduler.idleThreads targetCuPerThread
  if schedulableThreads.isEmpty then
    .ok (scheduler, container,
      { startingQueueSize := container.queueSize, startingBufferSize := container.bufferSize, numScheduled := 0
        numUnschedulableConflicts := 0, numUnschedulableThreads := 0 })
  else do
    rejectIf (¬ (List.range scheduler.common.numThreads).all fun threadId =>
      (scheduler.common.batches threadId).isEmpty)
      .batchesNotEmpty
    let scanned ← Pass.scan targetCuPerThread scheduler.config.maxScannedTransactionsPerSchedulingPass
      { scheduler := scheduler, container := container, schedulableThreads := schedulableThreads, numScheduled := 0
        numSent := 0, numUnschedulableConflicts := 0, numUnschedulableThreads := 0 }
    let last := scanned.flush
    rejectIf (last.numScheduled ≠ last.numSent) .sentMismatch
    let (pushed, _) ← last.container.pushIdsIntoQueue last.scheduler.unschedulables
    .ok ({ last.scheduler with unschedulables := [] }, pushed,
      { startingQueueSize := container.queueSize, startingBufferSize := container.bufferSize
        numScheduled := last.numScheduled
        numUnschedulableConflicts := last.numUnschedulableConflicts
        numUnschedulableThreads := last.numUnschedulableThreads })

end GreedyScheduler

/-! ### Finished batches -/

namespace SchedulingCommon

variable (common : SchedulingCommon)

/-- Stop tracking a batch and free the locks of its transactions. -/
def completeBatch (batchId : TransactionBatchId) (transactions : List Transaction) : Except Panic SchedulingCommon := do
  let (tracker, threadId) ← common.inFlightTracker.completeBatch batchId
  let accountLocks ← transactions.foldlM
    (fun (accountLocks : ThreadAwareAccountLocks) transaction =>
      accountLocks.unlockAccounts transaction.writeAccountLocks transaction.readAccountLocks threadId)
    common.accountLocks
  .ok { common with inFlightTracker := tracker, accountLocks := accountLocks }

/-- Retry the transactions at the retryable indexes and remove the others; the indexes are expected in order. The
    indexes that were not met are returned. -/
def retryOrRemove : Nat → List BatchItem → List Nat → TransactionStateContainer →
    Except Panic (TransactionStateContainer × List Nat)
  | _, [], retryable, container => .ok (container, retryable)
  | index, item :: items, retryable, container =>
    match retryable with
    | [] => do
        let removed ← container.removeById item.id
        retryOrRemove (index + 1) items [] removed
    | retryableIndex :: others =>
      if retryableIndex = index then do
        let retried ← container.retryTransaction item.id item.transaction
        retryOrRemove (index + 1) items others retried
      else do
        let removed ← container.removeById item.id
        retryOrRemove (index + 1) items (retryableIndex :: others) removed

/-- Receive a batch that a worker has finished, if there is one; the numbers of its transactions and of those to retry
    are returned. -/
def tryReceiveCompleted (finished : Option (ConsumeWork × List Nat)) (container : TransactionStateContainer) :
    Except Panic (SchedulingCommon × TransactionStateContainer × Nat × Nat) :=
  match finished with
  | none => .ok (common, container, 0, 0)
  | some (work, retryableIndexes) => do
      let completed ← common.completeBatch work.batchId (work.items.map (·.transaction))
      let (container, unmet) ← retryOrRemove 0 work.items retryableIndexes container
      rejectIf (unmet ≠ []) .retryableIndexesNotInOrder
      .ok (completed, container, work.items.length, retryableIndexes.length)

end SchedulingCommon

end Payout.BankingStage
