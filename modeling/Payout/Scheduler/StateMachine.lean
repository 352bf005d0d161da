/-
Purpose: The state machine of the unified scheduler, in use, and what it is for. An address has a usage queue, which
  knows how the address is used and which tasks wait for it. A session keeps the tasks that are active and those that
  run, and what has happened; the active tasks stand in the order of their submission, and a task may be returned once
  none before it conflicts with it.
Source: gorchain/unified-scheduler-logic/src/lib.rs
-/
import Payout.Runtime.TransactionContext
import Mathlib.Logic.Function.Basic
import Payout.Lib.Run

namespace Payout.Scheduler

open Lib Payout.Runtime

/-! ### Panics and counters -/

/-- What a counter counts. -/
inductive Counter where
  | totalTaskCount
  | activeTaskCount
  | runningTaskCount
  | handledTaskCount
  | unblockedTaskCount
  | blockedUsageCount
  | readonlyUsage
  | clearedTaskCount
deriving Repr, DecidableEq

/-- The ways to panic. A loop that takes more turns than it has elements to take is `endless`. -/
inductive Panic where
  | overflow (counter : Counter)
  | underflow (counter : Counter)
  | maxRunningTaskCount
  | unreachable
  | unusedQueue
  | unlockedReadonly
  | shouldNeverFail
  | returnedBufferedTask
  | activeTask
  | runningTask
  | unblockedTask
  | endless
deriving Repr, DecidableEq

/-- The counters are `u32`. -/
def increment (counter : Counter) (count : Nat) : Except Panic Nat :=
  okOr (checkedAdd 32 count 1) (.overflow counter)

def decrement (counter : Counter) (count : Nat) : Except Panic Nat :=
  okOr (checkedSub count 1) (.underflow counter)

/-! ### Tasks -/

inductive RequestedUsage where
  | readonly
  | writable
deriving Repr, DecidableEq

inductive Usage where
  | readonly (count : Nat)
  | writable
deriving Repr, DecidableEq

def RequestedUsage.toUsage : RequestedUsage → Usage
  | .readonly => .readonly 1
  | .writable => .writable

/-- The usage queue of an address goes by the address: the loader returns the same one for it each time. -/
structure LockContext where
  usageQueue : Pubkey
  requestedUsage : RequestedUsage
deriving Repr, DecidableEq

/-- A task is shared by reference; `reference` tells apart two tasks that lock the same addresses. -/
structure Task where
  reference : Nat
  lockContexts : List LockContext
deriving Repr, DecidableEq

/-- The task of a transaction, given its account keys and which of them are writable. -/
def createTask (reference : Nat) (accountKeys : List Pubkey) (isWritable : Nat → Bool) : Task :=
  { reference
    lockContexts := accountKeys.zipIdx.map fun (address, index) =>
      { usageQueue := address
        requestedUsage := if isWritable index then .writable else .readonly } }

/-! ### Usage queues -/

abbrev UsageFromTask := RequestedUsage × Task

structure UsageQueueInner where
  currentUsage : Option Usage := none
  blockedUsagesFromTasks : List UsageFromTask := []
deriving Repr, DecidableEq

namespace UsageQueueInner

variable (usageQueue : UsageQueueInner)

/-- Lock the queue, unless its usage does not allow it. -/
def tryLock (requestedUsage : RequestedUsage) : Except Panic (Option UsageQueueInner) := do
  let newUsage ← match usageQueue.currentUsage with
    | none => pure (some requestedUsage.toUsage)
    | some (.readonly count) =>
      match requestedUsage with
      | .readonly => do
          let count ← increment .readonlyUsage count
          pure (some (.readonly count))
      | .writable => pure none
    | some .writable => pure none
  pure (newUsage.map fun usage => { usageQueue with currentUsage := some usage })

/-- The queue is unused now, and its first blocked usage may go on. -/
def release : Option UsageFromTask × UsageQueueInner :=
  (usageQueue.blockedUsagesFromTasks.head?,
    { currentUsage := none
      blockedUsagesFromTasks := usageQueue.blockedUsagesFromTasks.tail })

def unlock (requestedUsage : RequestedUsage) : Except Panic (Option UsageFromTask × UsageQueueInner) :=
  match usageQueue.currentUsage with
  | some (.readonly count) =>
    match requestedUsage with
    | .readonly =>
      if count = 1 then pure usageQueue.release
      else do
        let count ← decrement .readonlyUsage count
        pure (none, { usageQueue with currentUsage := some (.readonly count) })
    | .writable => .error .unreachable
  | some .writable =>
    match requestedUsage with
    | .writable => pure usageQueue.release
    | .readonly => .error .unreachable
  | none => .error .unreachable

def pushBlockedUsageFromTask (usageFromTask : UsageFromTask) : Except Panic UsageQueueInner := do
  rejectIf (usageQueue.currentUsage = none) .unusedQueue
  pure { usageQueue with blockedUsagesFromTasks := usageQueue.blockedUsagesFromTasks ++ [usageFromTask] }

def popUnblockedReadonlyUsageFromTask : Except Panic (Option UsageFromTask × UsageQueueInner) :=
  match usageQueue.blockedUsagesFromTasks with
  | (.readonly, task) :: blockedUsages =>
    match usageQueue.currentUsage with
    | some (.readonly _) =>
      pure (some (.readonly, task), { usageQueue with blockedUsagesFromTasks := blockedUsages })
    | _ => .error .unlockedReadonly
  | _ => pure (none, usageQueue)

def hasNoBlockedUsage : Bool := usageQueue.blockedUsagesFromTasks.isEmpty

end UsageQueueInner

/-! ### The state machine -/

structure SchedulingStateMachine where
  unblockedTaskQueue : List Task
  activeTaskCount : Nat
  runningTaskCount : Nat
  maxRunningTaskCount : Nat
  handledTaskCount : Nat
  unblockedTaskCount : Nat
  totalTaskCount : Nat
  -- the cells of the tasks
  blockedUsageCount : Task → Nat
  -- the cells of the usage queues
  usageQueues : Pubkey → UsageQueueInner

namespace SchedulingStateMachine

/-- A state machine without tasks. -/
def new (maxRunningTaskCount : Nat) : SchedulingStateMachine :=
  { unblockedTaskQueue := []
    activeTaskCount := 0
    runningTaskCount := 0
    maxRunningTaskCount
    handledTaskCount := 0
    unblockedTaskCount := 0
    totalTaskCount := 0
    blockedUsageCount := fun _ => 0
    usageQueues := fun _ => {} }

/-- No maximum is the largest one. -/
def exclusivelyInitializeCurrentThreadForScheduling (maxRunningTaskCount : Option Nat) :
    Except Panic SchedulingStateMachine := do
  let maxRunningTaskCount ← okOr (tryInto 32 (maxRunningTaskCount.getD (2 ^ 32 - 1))) .maxRunningTaskCount
  pure (new maxRunningTaskCount)

variable (machine : SchedulingStateMachine)

def isTaskRunnable : Bool := machine.runningTaskCount < machine.maxRunningTaskCount

def setUsageQueue (address : Pubkey) (usageQueue : UsageQueueInner) : SchedulingStateMachine :=
  { machine with usageQueues := Function.update machine.usageQueues address usageQueue }

variable (task : Task)

/-- Locks the address of a context for a task, or makes the task wait for it. -/
def tryLockUsageQueue (state : SchedulingStateMachine × Nat) (context : LockContext) :
    Except Panic (SchedulingStateMachine × Nat) := do
  let (machine, blockedUsageCount) := state
  let usageQueue := machine.usageQueues context.usageQueue
  let lockResult ←
    if usageQueue.hasNoBlockedUsage then usageQueue.tryLock context.requestedUsage else pure none
  match lockResult with
  | some usageQueue => pure (machine.setUsageQueue context.usageQueue usageQueue, blockedUsageCount)
  | none => do
      let blockedUsageCount ← increment .blockedUsageCount blockedUsageCount
      let usageQueue ← usageQueue.pushBlockedUsageFromTask (context.requestedUsage, task)
      pure (machine.setUsageQueue context.usageQueue usageQueue, blockedUsageCount)

def tryLockUsageQueues : Except Panic (Option Task × SchedulingStateMachine) := do
  let (machine, blockedUsageCount) ← task.lockContexts.foldlM (tryLockUsageQueue task) (machine, 0)
  if blockedUsageCount = 0 then pure (some task, machine)
  else
    pure (none,
      { machine with blockedUsageCount := Function.update machine.blockedUsageCount task blockedUsageCount })

/-- One usage of the task is no longer blocked; with the last one the task is unblocked. -/
def tryUnblock : Except Panic SchedulingStateMachine := do
  let count ← decrement .blockedUsageCount (machine.blockedUsageCount task)
  let machine := { machine with blockedUsageCount := Function.update machine.blockedUsageCount task count }
  pure (if count = 0 then { machine with unblockedTaskQueue := machine.unblockedTaskQueue ++ [task] } else machine)

/-- The loop over the usages that an unlocked queue sets free, of at most `turns` turns. -/
def unblockUsages : Nat → SchedulingStateMachine → UsageQueueInner → Option UsageFromTask →
    Except Panic (SchedulingStateMachine × UsageQueueInner)
  | _, machine, usageQueue, none => pure (machine, usageQueue)
  | 0, _, _, some _ => .error .endless
  | turns + 1, machine, usageQueue, some (requestedUsage, task) => do
      let machine ← machine.tryUnblock task
      match ← usageQueue.tryLock requestedUsage with
      | none => .error .shouldNeverFail
      | some usageQueue =>
        let (unblocked, usageQueue) ←
          if requestedUsage = .readonly then usageQueue.popUnblockedReadonlyUsageFromTask
          else pure (none, usageQueue)
        unblockUsages turns machine usageQueue unblocked

/-- Unlocks the address of a context. A turn of the loop takes one blocked usage from the queue. -/
def unlockUsageQueue (machine : SchedulingStateMachine) (context : LockContext) :
    Except Panic SchedulingStateMachine := do
  let usageQueue := machine.usageQueues context.usageQueue
  let turns := usageQueue.blockedUsagesFromTasks.length
  let (unblocked, usageQueue) ← usageQueue.unlock context.requestedUsage
  let (machine, usageQueue) ← unblockUsages turns machine usageQueue unblocked
  pure (machine.setUsageQueue context.usageQueue usageQueue)

def unlockUsageQueues : Except Panic SchedulingStateMachine :=
  task.lockContexts.foldlM unlockUsageQueue machine

def scheduleOrBufferTask (forceBuffering : Bool) : Except Panic (Option Task × SchedulingStateMachine) := do
  let totalTaskCount ← increment .totalTaskCount machine.totalTaskCount
  let activeTaskCount ← increment .activeTaskCount machine.activeTaskCount
  let machine := { machine with totalTaskCount, activeTaskCount }
  match ← machine.tryLockUsageQueues task with
  | (none, machine) => pure (none, machine)
  | (some task, machine) =>
    if !machine.isTaskRunnable || forceBuffering then do
      let unblockedTaskCount ← increment .unblockedTaskCount machine.unblockedTaskCount
      pure (none, { machine with
        unblockedTaskCount
        unblockedTaskQueue := machine.unblockedTaskQueue ++ [task] })
    else do
      let runningTaskCount ← increment .runningTaskCount machine.runningTaskCount
      pure (some task, { machine with runningTaskCount })

def scheduleTask : Except Panic (Option Task × SchedulingStateMachine) :=
  machine.scheduleOrBufferTask task false

def bufferTask : Except Panic SchedulingStateMachine := do
  let (returned, machine) ← machine.scheduleOrBufferTask task true
  rejectIf (returned ≠ none) .returnedBufferedTask
  pure machine

def scheduleNextUnblockedTask : Except Panic (Option Task × SchedulingStateMachine) :=
  if !machine.isTaskRunnable then pure (none, machine)
  else
    match machine.unblockedTaskQueue with
    | [] => pure (none, machine)
    | task :: unblockedTaskQueue => do
        let runningTaskCount ← increment .runningTaskCount machine.runningTaskCount
        let unblockedTaskCount ← increment .unblockedTaskCount machine.unblockedTaskCount
        pure (some task, { machine with unblockedTaskQueue, runningTaskCount, unblockedTaskCount })

def descheduleTask : Except Panic SchedulingStateMachine := do
  let runningTaskCount ← decrement .runningTaskCount machine.runningTaskCount
  let activeTaskCount ← decrement .activeTaskCount machine.activeTaskCount
  let handledTaskCount ← increment .handledTaskCount machine.handledTaskCount
  { machine with runningTaskCount, activeTaskCount, handledTaskCount }.unlockUsageQueues task

def reinitialize : Except Panic SchedulingStateMachine := do
  rejectIf (machine.activeTaskCount ≠ 0) .activeTask
  rejectIf (machine.runningTaskCount ≠ 0) .runningTask
  rejectIf (machine.unblockedTaskQueue.length ≠ 0) .unblockedTask
  pure { machine with
    activeTaskCount := 0
    handledTaskCount := 0
    unblockedTaskCount := 0
    totalTaskCount := 0 }

/-- The loop of `clearAndReinitialize`, of at most `turns` turns, with the number of tasks cleared before. -/
def clear : Nat → SchedulingStateMachine → Nat → Except Panic (Nat × SchedulingStateMachine)
  | 0, _, _ => .error .endless
  | turns + 1, machine, count => do
      match ← machine.scheduleNextUnblockedTask with
      | (none, machine) => pure (count, machine)
      | (some task, machine) =>
        let machine ← machine.descheduleTask task
        let count ← increment .clearedTaskCount count
        clear turns machine count

/-- A turn deschedules one of the active tasks, and the last turn finds none. -/
def clearAndReinitialize : Except Panic (Nat × SchedulingStateMachine) := do
  let (count, machine) ← clear (machine.activeTaskCount + 1) machine 0
  let machine ← reinitialize machine
  pure (count, machine)

end SchedulingStateMachine

open SchedulingStateMachine

/-- The addresses of the task are pairwise distinct. -/
def Task.Distinct (task : Task) : Prop := (task.lockContexts.map LockContext.usageQueue).Nodup

/-- The tasks share an address that one of them writes. -/
def Task.Conflicts (a b : Task) : Prop :=
  ∃ one ∈ a.lockContexts, ∃ two ∈ b.lockContexts, one.usageQueue = two.usageQueue ∧
    (one.requestedUsage = .writable ∨ two.requestedUsage = .writable)

instance (task : Task) : Decidable task.Distinct := inferInstanceAs (Decidable (List.Nodup _))

instance (a b : Task) : Decidable (a.Conflicts b) :=
  inferInstanceAs (Decidable (∃ one ∈ a.lockContexts, ∃ two ∈ b.lockContexts, _))

inductive Call where
  | scheduleTask (task : Task)
  | bufferTask (task : Task)
  | scheduleOrBufferTask (task : Task) (forceBuffering : Bool)
  | scheduleNextUnblockedTask
  | descheduleTask (task : Task)
  | reinitialize
  | clearAndReinitialize
deriving Repr, DecidableEq

inductive Event where
  | submitted (task : Task)
  | returned (task : Task)
  | descheduled (task : Task)
  -- all active tasks are descheduled, and their number is returned
  | cleared (count : Nat)
deriving Repr, DecidableEq

structure Session where
  machine : SchedulingStateMachine
  -- submitted and not descheduled, in the order of submission
  active : List Task
  -- returned and not descheduled
  running : List Task
  history : List Event

namespace Session

/-- A session with a new state machine. -/
def start (machine : SchedulingStateMachine) : Session :=
  { machine
    active := []
    running := []
    history := [] }

/-- A task is submitted with distinct addresses and while it is not active; it is descheduled while it runs. The state
    machine is not rewound while tasks are active, nor cleared while tasks run. -/
def Permits (session : Session) : Call → Prop
  | .scheduleTask task | .bufferTask task | .scheduleOrBufferTask task _ =>
    task.Distinct ∧ task ∉ session.active
  | .scheduleNextUnblockedTask => True
  | .descheduleTask task => task ∈ session.running
  | Call.reinitialize => session.active = []
  | Call.clearAndReinitialize => session.running = []

instance (session : Session) (call : Call) : Decidable (session.Permits call) := by
  unfold Permits
  split <;> infer_instance

/-- The session after a submission. -/
def submitted (session : Session) (task : Task) (result : Option Task × SchedulingStateMachine) : Session :=
  { machine := result.2
    active := session.active ++ [task]
    running := session.running ++ result.1.toList
    history := session.history ++ .submitted task :: result.1.toList.map .returned }

def call (session : Session) : Call → Except Panic Session
  | .scheduleTask task => do
      let result ← session.machine.scheduleTask task
      pure (session.submitted task result)
  | .bufferTask task => do
      let machine ← session.machine.bufferTask task
      pure (session.submitted task (none, machine))
  | .scheduleOrBufferTask task forceBuffering => do
      let result ← session.machine.scheduleOrBufferTask task forceBuffering
      pure (session.submitted task result)
  | .scheduleNextUnblockedTask => do
      let (returned, machine) ← session.machine.scheduleNextUnblockedTask
      pure { session with
        machine
        running := session.running ++ returned.toList
        history := session.history ++ returned.toList.map .returned }
  | .descheduleTask task => do
      let machine ← session.machine.descheduleTask task
      pure
        { machine
          active := session.active.erase task
          running := session.running.erase task
          history := session.history ++ [.descheduled task] }
  | Call.reinitialize => do
      let machine ← reinitialize session.machine
      pure { session with machine }
  | Call.clearAndReinitialize => do
      let (count, machine) ← clearAndReinitialize session.machine
      pure
        { machine
          active := []
          running := []
          history := session.history ++ [.cleared count] }

/-- The session is reached by permitted calls on a new state machine. -/
def Reached (maxRunningTaskCount : Option Nat) (session : Session) : Prop :=
  ∃ machine calls,
    exclusivelyInitializeCurrentThreadForScheduling maxRunningTaskCount = .ok machine ∧
      Run (fun call session => Session.call session call) Permits (start machine) calls session

end Session

/-- The active tasks in the order of their submission, and those of them that run. -/
structure Order where
  active : List Task
  running : List Task

namespace Order

def after (order : Order) : Event → Order
  | .submitted task => { order with active := order.active ++ [task] }
  | .returned task => { order with running := order.running ++ [task] }
  | .descheduled task =>
    { active := order.active.erase task
      running := order.running.erase task }
  | .cleared _ =>
    { active := []
      running := [] }

def Allows (order : Order) : Event → Prop
  | .submitted task => task ∉ order.active
  | .returned task => task ∈ order.active ∧ task ∉ order.running ∧
      ∀ other, List.Sublist [other, task] order.active → ¬ other.Conflicts task
  | .descheduled task => task ∈ order.running
  | .cleared count => order.running = [] ∧ count = order.active.length

/-- The events are allowed one after the other, and lead from one order to another. -/
def Leads (order : Order) (events : List Event) (order' : Order) : Prop :=
  Run (fun event order => (.ok (after order event) : Except Panic Order)) Allows order events order'

/-- The history is in order. -/
def Follows (history : List Event) (order : Order) : Prop :=
  Leads { active := [], running := [] } history order

theorem Follows.snoc (follows : Follows history order) (allowed : order.Allows event) :
    Follows (history ++ [event]) (order.after event) :=
  Run.snoc follows allowed rfl

/-- The tasks that are active and were not returned yet. -/
def pending (order : Order) : List Task := order.active.filter (· ∉ order.running)

end Order

end Payout.Scheduler
