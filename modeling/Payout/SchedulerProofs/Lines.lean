/-
Purpose: The lines of all addresses, from the active tasks in the order of their submission. A task is placed
  according to how many of its usages wait: it is running or unblocked if none does, and blocked with their number
  otherwise.
-/
import Payout.SchedulerProofs.UsageQueues

namespace Payout.Scheduler

open Lib.ReaderWriter Payout.Runtime List Function SchedulingStateMachine Prod LockContext

variable {task : Task} {active running : List Task} {machine : SchedulingStateMachine}

variable {other : Task} {address : Pubkey} {requested : RequestedUsage} {tasks : List Task}
  {contexts : List LockContext}

/-! ### The line of an address -/

/-- What a task requests of an address: nothing, or one usage if its addresses are distinct. -/
def Task.requestsAt (task : Task) (address : Pubkey) : List UsageFromTask :=
  (task.lockContexts.filter (·.usageQueue = address)).map fun context => (context.requestedUsage, task)

/-- The requests for an address by tasks in the order of their submission. -/
def lineAt (tasks : List Task) (address : Pubkey) : List UsageFromTask :=
  tasks.flatMap (·.requestsAt address)

theorem mem_requestsAt :
    (requested, other) ∈ task.requestsAt address ↔
      { usageQueue := address, requestedUsage := requested } ∈ task.lockContexts ∧ other = task := by
  simp only [Task.requestsAt, mem_map, mem_filter, decide_eq_true_eq, Prod.mk.injEq]
  constructor
  · rintro ⟨context, ⟨mem, rfl⟩, rfl, rfl⟩
    exact ⟨mem, rfl⟩
  · rintro ⟨mem, rfl⟩
    exact ⟨_, ⟨mem, rfl⟩, rfl, rfl⟩

theorem mem_lineAt :
    (requested, task) ∈ lineAt tasks address ↔
      task ∈ tasks ∧ { usageQueue := address, requestedUsage := requested } ∈ task.lockContexts := by
  simp only [lineAt, mem_flatMap, mem_requestsAt]
  constructor
  · rintro ⟨other, mem, context, rfl⟩
    exact ⟨mem, context⟩
  · rintro ⟨mem, context⟩
    exact ⟨task, mem, context, rfl⟩

theorem lineAt_append (front back address) :
    lineAt (front ++ back) address = lineAt front address ++ lineAt back address :=
  flatMap_append

theorem lineAt_cons (task tasks address) :
    lineAt (task :: tasks) address = task.requestsAt address ++ lineAt tasks address :=
  flatMap_cons

theorem Task.Distinct.eq_of_usageQueue (distinct : task.Distinct) (mem : one ∈ task.lockContexts)
    (mem' : two ∈ task.lockContexts) (same : one.usageQueue = two.usageQueue) : one = two :=
  inj_on_of_nodup_map distinct mem mem' same

theorem Task.Distinct.nodup (distinct : task.Distinct) : task.lockContexts.Nodup :=
  List.Nodup.of_map _ distinct

theorem requestsAt_of_mem (distinct : task.Distinct) (mem : context ∈ task.lockContexts) :
    task.requestsAt context.usageQueue = [(context.requestedUsage, task)] := by
  have only : task.lockContexts.filter (·.usageQueue = context.usageQueue) = [context] := by
    have same : task.lockContexts.filter (·.usageQueue = context.usageQueue) =
        task.lockContexts.filter (· = context) := by
      apply filter_congr
      intro other otherMem
      rw [decide_eq_decide]
      exact ⟨distinct.eq_of_usageQueue otherMem mem, fun same => same ▸ rfl⟩
    rw [same, filter_eq, count_eq_one_of_mem distinct.nodup mem, replicate_one]
  rw [Task.requestsAt, only, map_singleton]

theorem requestsAt_of_not_mem (absent : address ∉ task.lockContexts.map usageQueue) : task.requestsAt address = [] := by
  rw [eq_nil_iff_forall_not_mem]
  rintro ⟨requested, other⟩ mem
  exact absent (mem_map_of_mem (mem_requestsAt.mp mem).1)

/-- A task stands at most once in a line, and the tasks stand in it in the order of their submission. -/
theorem lineAt_sublist (distinct : ∀ task ∈ tasks, task.Distinct) (address) :
    ((lineAt tasks address).map snd).Sublist tasks := by
  induction tasks with
  | nil => exact .slnil
  | cons task tasks ih =>
    obtain ⟨first, others⟩ := forall_mem_cons.mp distinct
    rw [lineAt_cons, map_append]
    by_cases mem : address ∈ task.lockContexts.map usageQueue
    · obtain ⟨_, contextMem, rfl⟩ := mem_map.mp mem
      rw [requestsAt_of_mem first contextMem]
      exact (ih others).cons_cons task
    · rw [requestsAt_of_not_mem mem]
      exact (ih others).cons task

theorem lineAt_erase (mem : task ∈ tasks) (distinct : task.Distinct) (contextMem : context ∈ task.lockContexts) :
    lineAt (tasks.erase task) context.usageQueue =
      (lineAt tasks context.usageQueue).erase (context.requestedUsage, task) := by
  obtain ⟨front, _, absent, rfl, erased⟩ := exists_erase_eq mem
  have clear : (context.requestedUsage, task) ∉ lineAt front context.usageQueue := by
    intro inFront
    exact absent (mem_lineAt.mp inFront).1
  rw [erased, lineAt_append, lineAt_append, lineAt_cons, requestsAt_of_mem distinct contextMem,
    erase_append_right _ clear, singleton_append, erase_cons_head]

theorem lineAt_erase_elsewhere (mem : task ∈ tasks) (absent : address ∉ task.lockContexts.map usageQueue) :
    lineAt (tasks.erase task) address = lineAt tasks address := by
  obtain ⟨_, _, -, rfl, erased⟩ := exists_erase_eq mem
  rw [erased, lineAt_append, lineAt_append, lineAt_cons, requestsAt_of_not_mem absent, nil_append]

/-! ### The place of a task -/

/-- How many usages a task waits for. -/
def Task.waitsIn (task : Task) (lines : Pubkey → List UsageFromTask) : Nat := waits lines task task.lockContexts

/-- The tasks are running or unblocked if they wait for nothing, and know for how many usages they wait otherwise. -/
structure Placed (tasks running : List Task) (lines : Pubkey → List UsageFromTask)
    (machine : SchedulingStateMachine) : Prop where
  tracked : machine.usageQueues = .ofLines lines
  counts : ∀ task ∈ tasks, task.waitsIn lines ≠ 0 → machine.blockedUsageCount task = task.waitsIn lines
  ready : (running ++ machine.unblockedTaskQueue).Perm (tasks.filter (·.waitsIn lines = 0))

/-- Locking and unlocking does not change the counters. -/
structure SameCounters (before after : SchedulingStateMachine) : Prop where
  activeTaskCount : after.activeTaskCount = before.activeTaskCount
  runningTaskCount : after.runningTaskCount = before.runningTaskCount
  maxRunningTaskCount : after.maxRunningTaskCount = before.maxRunningTaskCount
  handledTaskCount : after.handledTaskCount = before.handledTaskCount
  unblockedTaskCount : after.unblockedTaskCount = before.unblockedTaskCount
  totalTaskCount : after.totalTaskCount = before.totalTaskCount

theorem SameCounters.trans (first : SameCounters one two) (second : SameCounters two three) :
    SameCounters one three where
  activeTaskCount := second.activeTaskCount.trans first.activeTaskCount
  runningTaskCount := second.runningTaskCount.trans first.runningTaskCount
  maxRunningTaskCount := second.maxRunningTaskCount.trans first.maxRunningTaskCount
  handledTaskCount := second.handledTaskCount.trans first.handledTaskCount
  unblockedTaskCount := second.unblockedTaskCount.trans first.unblockedTaskCount
  totalTaskCount := second.totalTaskCount.trans first.totalTaskCount

theorem countP_eq_succ [DecidableEq α] {items : List α} (nodup : items.Nodup) (mem : item ∈ items)
    (yes : p item = true) (no : q item = false) (same : ∀ other ∈ items, other ≠ item → p other = q other) :
    items.countP p = items.countP q + 1 := by
  have parts := perm_cons_erase mem
  have rest : (items.erase item).countP p = (items.erase item).countP q := by
    apply countP_congr
    intro other otherMem
    obtain ⟨differ, otherMem⟩ := nodup.mem_erase_iff.mp otherMem
    rw [same other otherMem differ]
  rw [parts.countP_eq, parts.countP_eq, countP_cons_of_pos yes, countP_cons_of_neg (by simp [no]), rest]

section Unlocking

variable {lines : Pubkey → List UsageFromTask} {context : LockContext}

/-- The lines hold requests of the active tasks, each at most once. -/
structure Within (active : List Task) (lines : Pubkey → List UsageFromTask) : Prop where
  nodup : active.Nodup
  distinct : ∀ task ∈ active, task.Distinct
  sublist : ∀ address, (lines address).Sublist (lineAt active address)

namespace Within

section

variable (within : Within active lines)
include within

theorem owners (address) : ((lines address).map snd).Nodup :=
  (((within.sublist address).map snd).trans (lineAt_sublist within.distinct address)).nodup within.nodup

theorem line_nodup (address) : (lines address).Nodup :=
  List.Nodup.of_map _ (within.owners address)

theorem length_le (address) : (lines address).length ≤ active.length := by
  have whole := (((within.sublist address).map snd).trans (lineAt_sublist within.distinct address)).length_le
  rwa [length_map] at whole

theorem erase (address request) :
    Within active (Function.update lines address ((lines address).erase request)) where
  nodup := within.nodup
  distinct := within.distinct
  sublist := by
    intro other
    by_cases same : other = address
    · subst same
      rw [update_self]
      exact erase_sublist.trans (within.sublist other)
    · rw [update_of_ne same]
      exact within.sublist other

end

end Within

/-- The tasks that are unblocked at an address. -/
def freedTasks (lines : Pubkey → List UsageFromTask) (task : Task) (context : LockContext) : List Task :=
  (freed (lines context.usageQueue) (context.requestedUsage, task)).map Prod.snd

/-- The lines after a task has left that of a context. -/
def leaveLine (lines : Pubkey → List UsageFromTask) (task : Task) (context : LockContext) :
    Pubkey → List UsageFromTask :=
  Function.update lines context.usageQueue ((lines context.usageQueue).erase (context.requestedUsage, task))

/-- What is known of an address when a task unlocks it. -/
structure Holding (active : List Task) (lines : Pubkey → List UsageFromTask) (task : Task)
    (context : LockContext) : Prop extends Within active lines where
  holds : (context.requestedUsage, task) ∈ granted isReadonly (lines context.usageQueue)

namespace Holding

section

variable (holding : Holding active lines task context)
include holding

theorem freedTasks_nodup : (freedTasks lines task context).Nodup := by
  have whole := holding.owners context.usageQueue
  have parts :
      (freed (lines context.usageQueue) (context.requestedUsage, task)).Sublist (lines context.usageQueue) := by
    unfold freed
    split_ifs
    · have upper : (granted isReadonly (waiting isReadonly (lines context.usageQueue))).Sublist
          (waiting isReadonly (lines context.usageQueue)) := by
        conv_rhs => rw [← granted_append_waiting isReadonly (waiting isReadonly (lines context.usageQueue))]
        exact sublist_append_left _ _
      have lower : (waiting isReadonly (lines context.usageQueue)).Sublist (lines context.usageQueue) := by
        conv_rhs => rw [← granted_append_waiting isReadonly (lines context.usageQueue)]
        exact sublist_append_right _ _
      exact upper.trans lower
    · exact nil_sublist _
  exact (parts.map snd).nodup whole

/-- A task that is unblocked is another active task, with a context at the address. -/
theorem mem_freedTasks (free : other ∈ freedTasks lines task context) :
    other ∈ active.erase task ∧ ∃ own ∈ other.lockContexts, own.usageQueue = context.usageQueue ∧
      (own.requestedUsage, other) ∈ freed (lines context.usageQueue) (context.requestedUsage, task) := by
  obtain ⟨⟨_, _⟩, granted, rfl⟩ := mem_map.mp free
  have behind := waiting_of_freed granted
  obtain ⟨isActive, own⟩ :=
    mem_lineAt.mp ((holding.sublist _).subset (mem_granted_or_waiting.mpr (.inr behind)))
  refine ⟨?_, _, own, rfl, granted⟩
  rw [holding.nodup.mem_erase_iff]
  refine ⟨?_, isActive⟩
  rintro rfl
  -- The task that unlocks stands in the line already, among the holders.
  have owners := holding.owners context.usageQueue
  rw [← granted_append_waiting isReadonly (lines context.usageQueue), map_append, nodup_append] at owners
  exact owners.2.2 _ (mem_map_of_mem holding.holds) _ (mem_map_of_mem behind) rfl

theorem waitsIn_freed (free : other ∈ freedTasks lines task context) :
    other.waitsIn lines = other.waitsIn (leaveLine lines task context) + 1 := by
  obtain ⟨mem, own, ownMem, here, free⟩ := holding.mem_freedTasks free
  have distinct := holding.distinct other (mem_of_mem_erase mem)
  refine countP_eq_succ distinct.nodup ownMem ?_ ?_ ?_
  · rw [decide_eq_true_eq, here]
    exact waiting_of_freed free
  · rw [decide_eq_false_iff_not, leaveLine, here, update_self]
    exact not_waiting_of_freed (holding.line_nodup _) free
  · intro another anotherMem differ
    have elsewhere : another.usageQueue ≠ context.usageQueue := by
      intro same
      exact differ (distinct.eq_of_usageQueue anotherMem ownMem (same.trans here.symm))
    rw [leaveLine, update_of_ne elsewhere]

theorem waitsIn_bound (bound : other ∉ freedTasks lines task context) :
    other.waitsIn (leaveLine lines task context) = other.waitsIn lines := by
  apply countP_congr
  intro own _
  rw [decide_eq_true_eq, decide_eq_true_eq, leaveLine]
  by_cases here : own.usageQueue = context.usageQueue
  · rw [here, update_self]
    refine waiting_erase_iff holding.holds ?_
    intro free
    exact bound (mem_map_of_mem free)
  · rw [update_of_ne here]

end

end Holding

/-- Unlocking an address leaves all tasks but its own in their place. -/
theorem unlockUsageQueue_placed (holding : Holding active lines task context) (few : active.length < 2 ^ 32)
    (placed : Placed (active.erase task) running lines machine) :
    ∃ after, machine.unlockUsageQueue context = .ok after ∧ SameCounters machine after ∧
      Placed (active.erase task) running (leaveLine lines task context) after := by
  have waited : ∀ other ∈ freedTasks lines task context,
      machine.blockedUsageCount other = other.waitsIn (leaveLine lines task context) + 1 := by
    intro other free
    have count := holding.waitsIn_freed free
    rw [← count]
    exact placed.counts other (holding.mem_freedTasks free).1 (by omega)
  refine ⟨_, unlockUsageQueue_eq placed.tracked holding.holds ((holding.length_le _).trans_lt few)
    holding.freedTasks_nodup ?_, ⟨rfl, rfl, rfl, rfl, rfl, rfl⟩, ?_⟩
  · intro other free
    rw [waited other free]
    exact Nat.succ_ne_zero _
  constructor
  case tracked => rfl
  case counts =>
    intro other mem waits
    by_cases free : other ∈ freedTasks lines task context
    · refine (if_pos free).trans ?_
      rw [waited other free, Nat.add_sub_cancel]
    · refine (if_neg free).trans ?_
      rw [holding.waitsIn_bound free] at waits ⊢
      exact placed.counts other mem waits
  case ready =>
    have others := holding.nodup.erase task
    have wasReady : ∀ other, other ∈ running ++ machine.unblockedTaskQueue ↔
        other ∈ active.erase task ∧ other.waitsIn lines = 0 := by
      intro other
      rw [placed.ready.mem_iff, mem_filter, decide_eq_true_eq]
    have nodup : (running ++ machine.unblockedTaskQueue).Nodup := placed.ready.nodup_iff.mpr (others.filter _)
    have nowReady : (running ++ (machine.unblocked (freedTasks lines task context)).unblockedTaskQueue).Nodup := by
      refine (append_assoc _ _ _).symm ▸ nodup.append (holding.freedTasks_nodup.filter _) ?_
      intro other before after
      have count := holding.waitsIn_freed (mem_of_mem_filter after)
      have zero := ((wasReady other).mp before).2
      omega
    refine (perm_ext_iff_of_nodup nowReady (others.filter _)).mpr ?_
    intro other
    rw [unblocked, ← append_assoc, mem_append, wasReady, mem_filter, mem_filter, decide_eq_true_eq, decide_eq_true_eq]
    by_cases free : other ∈ freedTasks lines task context
    · have count := holding.waitsIn_freed free
      have mem := (holding.mem_freedTasks free).1
      rw [waited other free]
      constructor
      · rintro (⟨-, zero⟩ | ⟨-, one⟩)
        · omega
        · exact ⟨mem, by omega⟩
      · rintro ⟨-, zero⟩
        exact .inr ⟨free, by omega⟩
    · rw [holding.waitsIn_bound free]
      constructor
      · rintro (was | ⟨now, -⟩)
        · exact was
        · exact absurd now free
      · exact .inl

theorem foldl_leaveLine_elsewhere (absent : address ∉ contexts.map usageQueue) :
    contexts.foldl (leaveLine · task ·) lines address = lines address := by
  induction contexts generalizing lines with
  | nil => rfl
  | cons context contexts ih =>
    rw [map_cons, mem_cons, not_or] at absent
    rw [foldl_cons, ih absent.2, leaveLine, update_of_ne absent.1]

theorem foldl_leaveLine (distinct : (contexts.map usageQueue).Nodup) (mem : context ∈ contexts) :
    contexts.foldl (leaveLine · task ·) lines context.usageQueue =
      (lines context.usageQueue).erase (context.requestedUsage, task) := by
  induction contexts generalizing lines with
  | nil => cases mem
  | cons first contexts ih =>
    obtain ⟨absent, others⟩ := nodup_cons.mp distinct
    rcases mem_cons.mp mem with rfl | mem
    · rw [foldl_cons, foldl_leaveLine_elsewhere absent, leaveLine, update_self]
    · have elsewhere : context.usageQueue ≠ first.usageQueue := by
        intro same
        exact absent (same ▸ mem_map_of_mem mem)
      rw [foldl_cons, ih others mem, leaveLine, update_of_ne elsewhere]

/-- The loop over the contexts of a task that holds the lock of all of them. -/
theorem foldlM_unlockUsageQueue (distinct : (contexts.map usageQueue).Nodup) (within : Within active lines)
    (holds : ∀ context ∈ contexts, (context.requestedUsage, task) ∈ granted isReadonly (lines context.usageQueue))
    (few : active.length < 2 ^ 32) (placed : Placed (active.erase task) running lines machine) :
    ∃ after, contexts.foldlM SchedulingStateMachine.unlockUsageQueue machine = .ok after ∧
      SameCounters machine after ∧
      Placed (active.erase task) running (contexts.foldl (leaveLine · task ·) lines) after := by
  induction contexts generalizing lines machine with
  | nil => exact ⟨machine, rfl, ⟨rfl, rfl, rfl, rfl, rfl, rfl⟩, placed⟩
  | cons context contexts ih =>
    obtain ⟨absent, others⟩ := nodup_cons.mp distinct
    obtain ⟨first, rest⟩ := forall_mem_cons.mp holds
    have holding : Holding active lines task context := { within with holds := first }
    obtain ⟨_, unlocked, counters, placed⟩ := unlockUsageQueue_placed holding few placed
    have still : ∀ other ∈ contexts,
        (other.requestedUsage, task) ∈ granted isReadonly (leaveLine lines task context other.usageQueue) := by
      intro other mem
      have elsewhere : other.usageQueue ≠ context.usageQueue := by
        intro same
        exact absent (same ▸ mem_map_of_mem mem)
      rw [leaveLine, update_of_ne elsewhere]
      exact rest other mem
    obtain ⟨after, all, more, placed⟩ := ih others (within.erase _ _) still placed
    refine ⟨after, ?_, counters.trans more, placed⟩
    rw [foldlM_cons, unlocked]
    exact all

theorem within_lineAt (nodup : active.Nodup) (distinct : ∀ task ∈ active, task.Distinct) :
    Within active (lineAt active) :=
  ⟨nodup, distinct, fun _ => .refl _⟩

/-- A task that waits for nothing holds the locks of all its addresses. -/
theorem granted_of_ready (mem : task ∈ active) (ready : task.waitsIn (lineAt active) = 0)
    (contextMem : context ∈ task.lockContexts) :
    (context.requestedUsage, task) ∈ granted isReadonly (lineAt active context.usageQueue) := by
  have none := countP_eq_zero.mp ready context contextMem
  rw [decide_eq_true_eq] at none
  exact (mem_granted_or_waiting.mp (mem_lineAt.mpr ⟨mem, contextMem⟩)).resolve_right none

/-- Unlocking the addresses of a task leaves the others in their place. -/
theorem unlockUsageQueues_placed (nodup : active.Nodup) (distinct : ∀ task ∈ active, task.Distinct)
    (few : active.length < 2 ^ 32) (mem : task ∈ active) (ready : task.waitsIn (lineAt active) = 0)
    (placed : Placed (active.erase task) running (lineAt active) machine) :
    ∃ after, machine.unlockUsageQueues task = .ok after ∧ SameCounters machine after ∧
      Placed (active.erase task) running (lineAt (active.erase task)) after := by
  have own := distinct task mem
  have left : task.lockContexts.foldl (leaveLine · task ·) (lineAt active) = lineAt (active.erase task) := by
    funext address
    by_cases here : address ∈ task.lockContexts.map usageQueue
    · obtain ⟨_, contextMem, rfl⟩ := mem_map.mp here
      rw [foldl_leaveLine own contextMem, lineAt_erase mem own contextMem]
    · rw [foldl_leaveLine_elsewhere here, lineAt_erase_elsewhere mem here]
  rw [← left]
  exact foldlM_unlockUsageQueue own (within_lineAt nodup distinct)
    (fun context => granted_of_ready mem ready) few placed

end Unlocking

/-! ### Locking the addresses of a task -/

section Locking

theorem joinLines_lineAt (active task) :
    joinLines task task.lockContexts (lineAt active) = lineAt (active ++ [task]) := by
  funext address
  rw [lineAt_append]
  exact congrArg _ (append_nil _).symm

/-- A task that is submitted does not change what the tasks before it wait for. -/
theorem waitsIn_submitted (own : task.Distinct) (differ : other ≠ task) :
    other.waitsIn (lineAt (active ++ [task])) = other.waitsIn (lineAt active) := by
  apply countP_congr
  intro context _
  rw [decide_eq_true_eq, decide_eq_true_eq, lineAt_append]
  by_cases here : context.usageQueue ∈ task.lockContexts.map usageQueue
  · obtain ⟨theirs, mem, same⟩ := mem_map.mp here
    have single : lineAt [task] context.usageQueue = [(theirs.requestedUsage, task)] := by
      rw [← same, lineAt_cons, requestsAt_of_mem own mem]
      rfl
    rw [single]
    refine mem_waiting_join ?_
    intro equal
    exact differ (congrArg snd equal)
  · rw [lineAt_cons, requestsAt_of_not_mem here]
    exact (append_nil (lineAt active context.usageQueue)).symm ▸ Iff.rfl

/-- The tasks that wait for nothing once another one is submitted. -/
theorem ready_submitted (own : task.Distinct) (absent : task ∉ active) :
    (active ++ [task]).filter (·.waitsIn (lineAt (active ++ [task])) = 0) =
      active.filter (·.waitsIn (lineAt active) = 0) ++
        if task.waitsIn (lineAt (active ++ [task])) = 0 then [task] else [] := by
  have before : active.filter (·.waitsIn (lineAt (active ++ [task])) = 0) =
      active.filter (·.waitsIn (lineAt active) = 0) := by
    apply filter_congr
    intro other mem
    have differ : other ≠ task := fun same => absent (same ▸ mem)
    rw [waitsIn_submitted own differ]
  rw [filter_append, before]
  congr 1
  by_cases ready : task.waitsIn (lineAt (active ++ [task])) = 0
  · simp [ready]
  · simp [ready]

/-- The task has locked all its addresses, and is neither running nor unblocked yet. -/
structure Locked (active running : List Task) (task : Task) (machine after : SchedulingStateMachine) : Prop where
  counters : SameCounters machine after
  tracked : after.usageQueues = .ofLines (lineAt (active ++ [task]))
  counts : ∀ other ∈ active ++ [task], other.waitsIn (lineAt (active ++ [task])) ≠ 0 →
    after.blockedUsageCount other = other.waitsIn (lineAt (active ++ [task]))
  ready : (running ++ after.unblockedTaskQueue ++ [task]).Perm
    ((active ++ [task]).filter (·.waitsIn (lineAt (active ++ [task])) = 0))

theorem tryLockUsageQueues_placed (distinct : ∀ task ∈ active, task.Distinct) (few : active.length + 1 < 2 ^ 32)
    (own : task.Distinct) (absent : task ∉ active) (placed : Placed active running (lineAt active) machine) :
    (∃ after, machine.tryLockUsageQueues task = .ok (some task, after) ∧ Locked active running task machine after) ∨
    (∃ after, machine.tryLockUsageQueues task = .ok (none, after) ∧ SameCounters machine after ∧
      Placed (active ++ [task]) running (lineAt (active ++ [task])) after) ∨
    (machine.tryLockUsageQueues task = .error (.overflow .blockedUsageCount) ∧
      2 ^ 32 ≤ task.lockContexts.length) := by
  have fits : ∀ context ∈ task.lockContexts, (lineAt active context.usageQueue).length + 1 < 2 ^ 32 := by
    intro context _
    have short := (lineAt_sublist distinct context.usageQueue).length_le
    rw [length_map] at short
    omega
  have loop := foldlM_tryLockUsageQueue task own placed.tracked fits (Nat.two_pow_pos 32)
  rw [joinLines_lineAt, Nat.zero_add] at loop
  have waited : ∀ other ∈ active, other.waitsIn (lineAt (active ++ [task])) ≠ 0 →
      machine.blockedUsageCount other = other.waitsIn (lineAt (active ++ [task])) := by
    intro other mem waits
    have differ : other ≠ task := fun same => absent (same ▸ mem)
    rw [waitsIn_submitted own differ] at waits ⊢
    exact placed.counts other mem waits
  have readyAfter := ready_submitted own absent
  by_cases ready : task.waitsIn (lineAt (active ++ [task])) = 0
  · refine .inl ⟨{ machine with usageQueues := .ofLines (lineAt (active ++ [task])) }, ?_, ?_⟩
    · have free : waits (lineAt (active ++ [task])) task task.lockContexts = 0 := ready
      rw [tryLockUsageQueues, loop, free, if_pos (Nat.two_pow_pos 32)]
      rfl
    constructor
    case counters => exact ⟨rfl, rfl, rfl, rfl, rfl, rfl⟩
    case tracked => rfl
    case counts =>
      intro other mem waits
      rcases mem_append.mp mem with mem | mem
      · exact waited other mem waits
      · rw [mem_singleton.mp mem, ready] at waits
        exact absurd rfl waits
    case ready =>
      rw [readyAfter, if_pos ready]
      exact placed.ready.append_right [task]
  · refine .inr ?_
    by_cases room : waits (lineAt (active ++ [task])) task task.lockContexts < 2 ^ 32
    · refine .inl ⟨{ machine with
          usageQueues := .ofLines (lineAt (active ++ [task]))
          blockedUsageCount := update machine.blockedUsageCount task
            (task.waitsIn (lineAt (active ++ [task]))) }, ?_, ⟨rfl, rfl, rfl, rfl, rfl, rfl⟩, ?_⟩
      · rw [tryLockUsageQueues, loop, if_pos room]
        exact if_neg ready
      constructor
      case tracked => rfl
      case counts =>
        intro other mem waits
        by_cases same : other = task
        · subst same
          exact update_self ..
        · refine (update_of_ne same ..).trans (waited other ?_ waits)
          exact (mem_append.mp mem).resolve_right (fun mem => same (mem_singleton.mp mem))
      case ready =>
        rw [readyAfter, if_neg ready, append_nil]
        exact placed.ready
    · refine .inr ⟨?_, ?_⟩
      · rw [tryLockUsageQueues, loop, if_neg room]
        rfl
      · exact (Nat.not_lt.mp room).trans countP_le_length

end Locking

end Payout.Scheduler
