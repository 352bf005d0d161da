/-
Purpose: A usage queue is the fair lock of an address. The usages that were requested of the address stand in a line;
  the current usage is that of the requests that hold the lock, and the blocked usages are those that wait.
-/
import Payout.Lib.ReaderWriter
import Payout.Scheduler.StateMachine

namespace Payout.Scheduler

open Lib Lib.ReaderWriter Payout.Runtime List Function SchedulingStateMachine UsageQueueInner Nat Prod

variable {count turns : Nat} {line rest : List UsageFromTask} {request other : UsageFromTask} {task : Task}
  {contexts : List LockContext} {context : LockContext} {tasks : List Task}

def isReadonly (usage : UsageFromTask) : Bool := usage.1 = .readonly

/-- The usage of an address by those that hold its lock. -/
def usageOf : List UsageFromTask → Option Usage
  | [] => none
  | (.readonly, _) :: others => some (.readonly (others.length + 1))
  | (.writable, _) :: _ => some .writable

/-- The usage queue of an address, from the requests in the order in which they were made. -/
def UsageQueueInner.ofLine (line : List UsageFromTask) : UsageQueueInner :=
  { currentUsage := usageOf (granted isReadonly line)
    blockedUsagesFromTasks := waiting isReadonly line }

/-- How many of the usages a task waits for. -/
def waits (lines : Pubkey → List UsageFromTask) (task : Task) (contexts : List LockContext) : Nat :=
  contexts.countP fun context =>
    (context.requestedUsage, task) ∈ waiting isReadonly (lines context.usageQueue)

/-! ### Counters -/

theorem increment_of_lt (fits : count + 1 < 2 ^ 32) : increment counter count = .ok (count + 1) := by
  simp only [increment, checkedAdd, if_pos fits, okOr]

theorem increment_of_le (full : 2 ^ 32 ≤ count + 1) : increment counter count = .error (.overflow counter) := by
  simp only [increment, checkedAdd, if_neg (not_lt.mpr full), okOr]

theorem decrement_succ (counter count) : decrement counter (count + 1) = .ok count := by
  simp [decrement, checkedSub, okOr]

/-! ### Locking -/

/-- The usage by so many readers. -/
def readers : Nat → Option Usage
  | 0 => none
  | count + 1 => some (.readonly (count + 1))

theorem usageOf_readers (all : ∀ usage ∈ holders, isReadonly usage = true) :
    usageOf holders = readers holders.length := by
  rcases holders with _ | ⟨⟨requested, _⟩, _⟩
  · rfl
  · cases requested with
    | readonly => rfl
    | writable => cases all _ mem_cons_self

theorem tryLock_readers (blocked) (fits : count + 1 < 2 ^ 32) :
    ({ currentUsage := readers count, blockedUsagesFromTasks := blocked } : UsageQueueInner).tryLock .readonly =
      .ok (some { currentUsage := readers (count + 1), blockedUsagesFromTasks := blocked }) := by
  cases count with
  | zero => rfl
  | succ =>
    simp only [tryLock, readers, increment_of_lt fits]
    rfl

theorem usageOf_granted_ne_none (held : line ≠ []) : usageOf (granted isReadonly line) ≠ none := by
  rcases line with _ | ⟨⟨requested, _⟩, _⟩
  · exact absurd rfl held
  · cases requested with
    | readonly => exact Option.some_ne_none _
    | writable => exact Option.some_ne_none _

/-- What is tried first for a request: the lock, unless other requests wait for it. -/
def tryJoin (usageQueue : UsageQueueInner) (requestedUsage : RequestedUsage) : Except Panic (Option UsageQueueInner) :=
  if usageQueue.hasNoBlockedUsage then usageQueue.tryLock requestedUsage else pure none

/-- The request is granted at once. -/
def Granted (line : List UsageFromTask) (request : UsageFromTask) : Prop :=
  tryJoin (.ofLine line) request.1 = .ok (some (.ofLine (line ++ [request]))) ∧
    request ∉ waiting isReadonly (line ++ [request])

/-- The request waits, in a queue that is in use. -/
def Refused (line : List UsageFromTask) (request : UsageFromTask) : Prop :=
  tryJoin (.ofLine line) request.1 = .ok none ∧ request ∈ waiting isReadonly (line ++ [request]) ∧
    (UsageQueueInner.ofLine line).pushBlockedUsageFromTask request = .ok (.ofLine (line ++ [request]))

theorem refused_of_behind (held : line ≠ []) (tried : tryJoin (.ofLine line) request.1 = .ok none)
    (same : granted isReadonly (line ++ [request]) = granted isReadonly line)
    (behind : waiting isReadonly (line ++ [request]) = waiting isReadonly line ++ [request]) :
    Refused line request := by
  refine ⟨tried, ?_, ?_⟩
  · rw [behind]
    exact mem_append_right _ (mem_singleton_self request)
  · have used : (ofLine line).currentUsage ≠ none := usageOf_granted_ne_none held
    simp only [pushBlockedUsageFromTask, rejectIf, if_neg used]
    simp only [ofLine, same, behind]
    rfl

theorem granted_or_refused (line request) (fits : line.length + 1 < 2 ^ 32) :
    Granted line request ∨ Refused line request := by
  by_cases nobody : waiting isReadonly line = []
  · have attempt : tryJoin (.ofLine line) request.1 = (ofLine line).tryLock request.1 :=
      if_pos (by simp [hasNoBlockedUsage, ofLine, nobody])
    have whole : granted isReadonly line = line := by
      have parts := granted_append_waiting isReadonly line
      rwa [nobody, append_nil] at parts
    have division := split isReadonly line
    rw [nobody, whole] at division
    cases division with
    | free =>
      refine .inl ⟨?_, ?_⟩
      · rcases request with ⟨_ | _, _⟩
        · rfl
        · rfl
      · rcases request with ⟨_ | _, _⟩
        · exact not_mem_nil
        · exact not_mem_nil
    | exclusive holder _ alone =>
      -- The only holder writes, and nobody joins it.
      refine .inr ?_
      obtain ⟨same, behind⟩ := join_refused (x := request) nobody (cons_ne_nil _ _)
        (.inr ⟨holder, by rw [whole]; exact mem_singleton_self holder, alone⟩)
      refine refused_of_behind (cons_ne_nil _ _) ?_ same (by rw [behind, nobody]; rfl)
      rw [attempt]
      rcases holder with ⟨_ | _, _⟩
      · cases alone
      · rfl
    | shared holder holders _ all _ =>
      have readonly : (ofLine (holder :: holders)) =
          { currentUsage := readers (holder :: holders).length
            blockedUsagesFromTasks := [] } := by
        rw [ofLine, nobody, whole, usageOf_readers all]
      cases requested : request.1 with
      | readonly =>
        have isShared : isReadonly request = true := by simp [isReadonly, requested]
        obtain ⟨joined, behind⟩ := join_shared nobody (by rwa [whole]) isShared
        refine .inl ⟨?_, by rw [behind]; exact not_mem_nil⟩
        have readonlyAfter : ∀ usage ∈ holder :: holders ++ [request], isReadonly usage = true := by
          rw [forall_mem_append]
          exact ⟨all, by simpa using isShared⟩
        rw [attempt, readonly, requested, tryLock_readers [] fits, ofLine, joined, behind, whole,
          usageOf_readers readonlyAfter, length_append]
        rfl
      | writable =>
        refine .inr ?_
        obtain ⟨same, behind⟩ := join_refused (x := request) nobody (cons_ne_nil _ _)
          (.inl (by simp [isReadonly, requested]))
        refine refused_of_behind (cons_ne_nil _ _) ?_ same (by rw [behind, nobody]; rfl)
        rw [attempt, readonly, requested]
        rfl
  · obtain ⟨same, behind⟩ := join_waiting nobody request
    refine .inr (refused_of_behind ?_ ?_ same behind)
    · rintro rfl
      exact nobody rfl
    · refine if_neg ?_
      simpa [hasNoBlockedUsage, ofLine] using nobody

variable {machine : SchedulingStateMachine} {lines : Pubkey → List UsageFromTask}

section Locking

/-- A line for every address. -/
def UsageQueueInner.ofLines (lines : Pubkey → List UsageFromTask) (address : Pubkey) : UsageQueueInner :=
  .ofLine (lines address)

theorem setUsageQueue_ofLine (tracked : machine.usageQueues = .ofLines lines) (address line) :
    machine.setUsageQueue address (.ofLine line) =
      { machine with usageQueues := .ofLines (update lines address line) } := by
  have updated : update (ofLines lines) address (.ofLine line) = .ofLines (update lines address line) := by
    funext other
    by_cases same : other = address
    · subst same
      simp [ofLines]
    · simp [ofLines, same]
  rw [setUsageQueue, tracked, updated]

theorem tryLockUsageQueue_eq (tracked : machine.usageQueues = .ofLines lines) (task count context)
    (fits : (lines context.usageQueue).length + 1 < 2 ^ 32) :
    tryLockUsageQueue task (machine, count) context = (if (context.requestedUsage, task) ∈
          waiting isReadonly (lines context.usageQueue ++ [(context.requestedUsage, task)])
        then increment .blockedUsageCount count else pure count) >>= fun count =>
      pure ({ machine with usageQueues := .ofLines (update lines context.usageQueue
        (lines context.usageQueue ++ [(context.requestedUsage, task)])) }, count) := by
  rw [← setUsageQueue_ofLine tracked]
  have queue : machine.usageQueues context.usageQueue = .ofLine (lines context.usageQueue) := by
    rw [tracked]
    rfl
  simp only [tryLockUsageQueue, queue]
  rcases granted_or_refused (lines context.usageQueue) (context.requestedUsage, task) fits with
    ⟨tried, free⟩ | ⟨tried, blocked, pushed⟩
  · rw [if_neg free]
    rw [tryJoin] at tried
    split_ifs at tried ⊢
    · rw [tried]
      rfl
    · cases tried
  · rw [if_pos blocked]
    simp only [pushed]
    rw [tryJoin] at tried
    split_ifs at tried ⊢
    · rw [tried]
      rfl
    · rfl

/-- The lines after a task has joined those of its contexts. -/
def joinLines (task : Task) (contexts : List LockContext) (lines : Pubkey → List UsageFromTask) (address : Pubkey) :
    List UsageFromTask :=
  lines address ++ (contexts.filter (·.usageQueue = address)).map fun context => (context.requestedUsage, task)

theorem joinLines_cons :
    joinLines task contexts (update lines context.usageQueue
        (lines context.usageQueue ++ [(context.requestedUsage, task)])) =
      joinLines task (context :: contexts) lines := by
  funext address
  by_cases here : context.usageQueue = address
  · subst here
    simp [joinLines]
  · simp [joinLines, here, update_of_ne (Ne.symm here)]

theorem joinLines_of_not_mem (absent : address ∉ contexts.map LockContext.usageQueue) :
    joinLines task contexts lines address = lines address := by
  have none : contexts.filter (·.usageQueue = address) = [] := by
    rw [filter_eq_nil_iff]
    intro context mem
    rw [decide_eq_true_eq]
    rintro rfl
    exact absent (mem_map_of_mem mem)
  rw [joinLines, none, map_nil, append_nil]

theorem foldlM_tryLockUsageQueue (task) (distinct : (contexts.map LockContext.usageQueue).Nodup)
    (tracked : machine.usageQueues = .ofLines lines)
    (fits : ∀ context ∈ contexts, (lines context.usageQueue).length + 1 < 2 ^ 32) (small : count < 2 ^ 32) :
    contexts.foldlM (tryLockUsageQueue task) (machine, count) =
      if count + waits (joinLines task contexts lines) task contexts < 2 ^ 32 then
        .ok ({ machine with usageQueues := .ofLines (joinLines task contexts lines) },
          count + waits (joinLines task contexts lines) task contexts)
      else .error (.overflow .blockedUsageCount) := by
  induction contexts generalizing machine lines count with
  | nil =>
    have same : joinLines task [] lines = lines := funext fun _ => append_nil _
    rw [same, if_pos (by simpa [waits] using small), ← tracked]
    rfl
  | cons context contexts ih =>
    obtain ⟨absent, others⟩ := nodup_cons.mp distinct
    obtain ⟨first, rest⟩ := forall_mem_cons.mp fits
    have here : joinLines task (context :: contexts) lines context.usageQueue =
        lines context.usageQueue ++ [(context.requestedUsage, task)] := by
      rw [← joinLines_cons, joinLines_of_not_mem absent, update_self]
    have restFits : ∀ other ∈ contexts, (update lines context.usageQueue
        (lines context.usageQueue ++ [(context.requestedUsage, task)]) other.usageQueue).length + 1 < 2 ^ 32 := by
      intro other mem
      have elsewhere : other.usageQueue ≠ context.usageQueue := by
        intro same
        exact absent (same ▸ mem_map_of_mem mem)
      rw [update_of_ne elsewhere]
      exact rest other mem
    have counted : waits (joinLines task (context :: contexts) lines) task (context :: contexts) =
        waits (joinLines task (context :: contexts) lines) task contexts +
          if (context.requestedUsage, task) ∈
            waiting isReadonly (lines context.usageQueue ++ [(context.requestedUsage, task)]) then 1 else 0 := by
      rw [waits, countP_cons, here]
      simp only [decide_eq_true_eq]
      rfl
    have step := fun (machine' : SchedulingStateMachine) (tracked' : machine'.usageQueues = _) (count : Nat)
      (small : count < 2 ^ 32) => ih others tracked' restFits small
    simp only [joinLines_cons] at step
    rw [foldlM_cons, tryLockUsageQueue_eq tracked task count context first, counted]
    by_cases blocked : (context.requestedUsage, task) ∈
        waiting isReadonly (lines context.usageQueue ++ [(context.requestedUsage, task)])
    · rw [if_pos blocked, if_pos blocked]
      by_cases full : 2 ^ 32 ≤ count + 1
      · rw [increment_of_le full, if_neg (by omega)]
        rfl
      · rw [increment_of_lt (by omega)]
        refine (step _ rfl (count + 1) (by omega)).trans ?_
        rw [add_assoc, add_comm 1]
    · rw [if_neg blocked, if_neg blocked]
      exact step _ rfl count small

end Locking

/-! ### Unlocking -/

/-- Each of the tasks has one usage less to wait for, and those that waited for one are unblocked. -/
def SchedulingStateMachine.unblocked (machine : SchedulingStateMachine) (tasks : List Task) : SchedulingStateMachine :=
  { machine with
    unblockedTaskQueue := machine.unblockedTaskQueue ++ tasks.filter (machine.blockedUsageCount · = 1)
    blockedUsageCount := fun task =>
      if task ∈ tasks then machine.blockedUsageCount task - 1 else machine.blockedUsageCount task }

section Unlocking

theorem tryUnblock_eq (blocked : machine.blockedUsageCount task ≠ 0) :
    machine.tryUnblock task = .ok (machine.unblocked [task]) := by
  obtain ⟨count, waited⟩ := exists_eq_succ_of_ne_zero blocked
  have updated : update machine.blockedUsageCount task count = fun other =>
      if other ∈ [task] then machine.blockedUsageCount other - 1 else machine.blockedUsageCount other := by
    funext other
    by_cases same : other = task
    · subst same
      simp [waited]
    · simp [same]
  have unfolded : machine.tryUnblock task = .ok (if count = 0 then
      { machine with
        unblockedTaskQueue := machine.unblockedTaskQueue ++ [task]
        blockedUsageCount := update machine.blockedUsageCount task count }
      else { machine with blockedUsageCount := update machine.blockedUsageCount task count }) := by
    simp only [tryUnblock, waited, succ_eq_add_one, decrement_succ]
    rfl
  rw [unfolded, updated, unblocked]
  by_cases last : count = 0
  · have one : [task].filter (machine.blockedUsageCount · = 1) = [task] := by simp [waited, last]
    rw [if_pos last, one]
  · have more : [task].filter (machine.blockedUsageCount · = 1) = [] := by simp [waited, last]
    rw [if_neg last, more, append_nil]

theorem unblocked_cons (absent : task ∉ tasks) :
    (machine.unblocked [task]).unblocked tasks = machine.unblocked (task :: tasks) := by
  have others : tasks.filter ((machine.unblocked [task]).blockedUsageCount · = 1) =
      tasks.filter (machine.blockedUsageCount · = 1) := by
    apply filter_congr
    intro other mem
    have differ : other ≠ task := fun same => absent (same ▸ mem)
    simp [unblocked, differ]
  have counts : ((machine.unblocked [task]).unblocked tasks).blockedUsageCount =
      (machine.unblocked (task :: tasks)).blockedUsageCount := by
    funext other
    by_cases same : other = task
    · subst same
      simp [unblocked, absent]
    · simp [unblocked, same]
  have queue : ((machine.unblocked [task]).unblocked tasks).unblockedTaskQueue =
      (machine.unblocked (task :: tasks)).unblockedTaskQueue := by
    rw [unblocked, others]
    simp only [unblocked, append_assoc, ← filter_append, singleton_append]
  calc (machine.unblocked [task]).unblocked tasks
      = { machine with
          unblockedTaskQueue := ((machine.unblocked [task]).unblocked tasks).unblockedTaskQueue
          blockedUsageCount := ((machine.unblocked [task]).unblocked tasks).blockedUsageCount } := rfl
    _ = machine.unblocked (task :: tasks) := by rw [queue, counts]; rfl

theorem foldlM_tryUnblock (nodup : tasks.Nodup) (blocked : ∀ task ∈ tasks, machine.blockedUsageCount task ≠ 0) :
    tasks.foldlM tryUnblock machine = .ok (machine.unblocked tasks) := by
  induction tasks generalizing machine with
  | nil =>
    have same : machine.unblocked [] = machine := by
      simp [unblocked]
    rw [same]
    rfl
  | cons task tasks ih =>
    obtain ⟨absent, rest⟩ := nodup_cons.mp nodup
    obtain ⟨first, others⟩ := forall_mem_cons.mp blocked
    rw [foldlM_cons, tryUnblock_eq first, ← unblocked_cons absent]
    refine ih rest ?_
    intro other mem
    have differ : other ≠ task := fun same => absent (same ▸ mem)
    simpa [unblocked, differ] using others other mem

theorem unblockUsages_reader (room : count + 1 < 2 ^ 32) (turns rest task) :
    unblockUsages (turns + 1) machine
        { currentUsage := readers count
          blockedUsagesFromTasks := rest } (some (.readonly, task)) =
      machine.tryUnblock task >>= fun machine =>
        ({ currentUsage := readers (count + 1)
           blockedUsagesFromTasks := rest } : UsageQueueInner).popUnblockedReadonlyUsageFromTask >>=
          fun popped => unblockUsages turns machine popped.2 popped.1 := by
  simp only [unblockUsages]
  cases machine.tryUnblock task with
  | error => rfl
  | ok =>
    have locked := tryLock_readers rest room
    simp only [bind, Except.bind, locked, if_true]

/-- The loop sets one reader free after the other, up to the first usage that is not readonly. -/
theorem unblockUsages_readers (enough : rest.length ≤ turns) (fits : count + rest.length + 1 < 2 ^ 32) (task) :
    unblockUsages (turns + 1) machine
        { currentUsage := readers count
          blockedUsagesFromTasks := rest } (some (.readonly, task)) =
      (task :: (rest.takeWhile isReadonly).map snd).foldlM tryUnblock machine >>=
        fun machine => pure (machine,
          { currentUsage := readers (count + (rest.takeWhile isReadonly).length + 1)
            blockedUsagesFromTasks := rest.dropWhile isReadonly }) := by
  induction rest generalizing machine turns count task with
  | nil =>
    have room : count + 1 < 2 ^ 32 := fits
    rw [unblockUsages_reader room, foldlM_cons]
    cases machine.tryUnblock task with
    | error => rfl
    | ok =>
      cases turns with
      | zero => rfl
      | succ => rfl
  | cons next rest ih =>
    rw [length_cons] at fits enough
    obtain ⟨turns, rfl⟩ : ∃ fewer, turns = fewer + 1 := exists_eq_succ_of_ne_zero (by omega)
    rw [unblockUsages_reader (by omega), foldlM_cons]
    cases machine.tryUnblock task with
    | error => rfl
    | ok machine =>
      rcases next with ⟨_ | _, other⟩
      · have total : count + 1 + (rest.takeWhile isReadonly).length + 1 =
            count + (((.readonly, other) :: rest).takeWhile isReadonly).length + 1 := by
          simp [isReadonly]
          omega
        rw [← total]
        exact ih (le_of_succ_le_succ enough) (show count + 1 + rest.length + 1 < 2 ^ 32 by omega) other
      · rfl

/-- What is unblocked when a line has moved up: those that hold the lock now. -/
theorem unblockUsages_line (enough : line.length ≤ turns) (fits : line.length < 2 ^ 32) :
    unblockUsages turns machine
        { currentUsage := none
          blockedUsagesFromTasks := line.tail } line.head? =
      ((granted isReadonly line).map snd).foldlM tryUnblock machine >>=
        fun machine => pure (machine, .ofLine line) := by
  rcases line with _ | ⟨⟨requested, task⟩, rest⟩
  · cases turns with
    | zero => rfl
    | succ => rfl
  rw [length_cons] at enough fits
  obtain ⟨turns, rfl⟩ : ∃ fewer, turns = fewer + 1 := exists_eq_succ_of_ne_zero (by omega)
  cases requested with
  | readonly =>
    have unblocked : unblockUsages (turns + 1) machine
        { currentUsage := readers 0
          blockedUsagesFromTasks := rest } (some (.readonly, task)) = _ :=
      unblockUsages_readers (le_of_succ_le_succ enough) (by omega) task
    rw [zero_add] at unblocked
    exact unblocked
  | writable =>
    simp only [head?_cons, unblockUsages]
    cases unblocked : machine.tryUnblock task with
    | error panic =>
      have fails : ((granted isReadonly ((.writable, task) :: rest)).map snd).foldlM
          tryUnblock machine = .error panic := by
        simp [granted, isReadonly, unblocked]
      rw [fails]
      rfl
    | ok after =>
      have returns : ((granted isReadonly ((.writable, task) :: rest)).map snd).foldlM
          tryUnblock machine = .ok after := by
        simp [granted, isReadonly, unblocked]
      rw [returns]
      cases turns with
      | zero => rfl
      | succ => rfl

/-- The requests that are granted once a request leaves the line. -/
def freed (line : List UsageFromTask) (request : UsageFromTask) : List UsageFromTask :=
  if granted isReadonly line = [request] then granted isReadonly (waiting isReadonly line) else []

theorem waiting_of_freed (free : other ∈ freed line request) : other ∈ waiting isReadonly line := by
  unfold freed at free
  split_ifs at free with last
  · exact mem_granted_or_waiting.mpr (.inl free)
  · cases free

theorem not_waiting_of_freed (nodup : line.Nodup) (free : other ∈ freed line request) :
    other ∉ waiting isReadonly (line.erase request) := by
  unfold freed at free
  split_ifs at free with last
  · rw [leave_last last]
    refine not_mem_waiting_of_granted ?_ free
    rw [← leave_last last]
    exact nodup.erase request
  · cases free

theorem waiting_erase_iff (holds : request ∈ granted isReadonly line) (bound : other ∉ freed line request) :
    other ∈ waiting isReadonly (line.erase request) ↔ other ∈ waiting isReadonly line := by
  unfold freed at bound
  split_ifs at bound with last
  · rw [leave_last last]
    constructor
    · intro waits
      exact mem_granted_or_waiting.mpr (.inr waits)
    · intro waits
      exact (mem_granted_or_waiting.mp waits).resolve_left bound
  · rw [(leave_shared holds last).2]

/-- Unlocking takes the request from the line and unblocks those that are granted then. -/
theorem unlock_leave (machine) (holds : request ∈ granted isReadonly line) (fits : line.length < 2 ^ 32) :
    ((UsageQueueInner.ofLine line).unlock request.1 >>= fun unlocked =>
        unblockUsages (waiting isReadonly line).length machine unlocked.2 unlocked.1) =
      ((freed line request).map snd).foldlM tryUnblock machine >>=
        fun machine => pure (machine, .ofLine (line.erase request)) := by
  have shorter : (waiting isReadonly line).length < 2 ^ 32 := by
    have whole := congrArg length (granted_append_waiting isReadonly line)
    rw [length_append] at whole
    omega
  by_cases last : granted isReadonly line = [request]
  · rw [freed, if_pos last, leave_last last, ← unblockUsages_line le_rfl shorter]
    have released : (ofLine line).unlock request.1 = .ok (ofLine line).release := by
      rcases request with ⟨_ | _, _⟩
      · simp only [unlock, ofLine, last, usageOf]
        rfl
      · simp only [unlock, ofLine, last, usageOf]
        rfl
    rw [released]
    rfl
  · -- The other readers go on, and nobody is unblocked.
    obtain ⟨fewer, same⟩ := leave_shared holds last
    have all := all_shared holds last
    have requested : request.1 = .readonly := by simpa [isReadonly] using all request holds
    have remaining := length_erase_of_mem holds
    have several : 2 ≤ (granted isReadonly line).length := by
      have nonempty := length_pos_of_mem holds
      by_contra few
      obtain ⟨only, one⟩ := length_eq_one_iff.mp (show (granted isReadonly line).length = 1 by omega)
      rw [one, mem_singleton] at holds
      exact last (by rw [one, holds])
    have unlocked : (ofLine line).unlock request.1 = .ok (none, .ofLine (line.erase request)) := by
      obtain ⟨count, held⟩ := Nat.exists_eq_add_of_le several
      rw [ofLine, ofLine, fewer, same, usageOf_readers all,
        usageOf_readers (fun usage mem => all usage (mem_of_mem_erase mem)), remaining, requested, held,
        Nat.add_comm 2]
      simp only [unlock, readers]
      rw [if_neg (by omega), decrement_succ]
      rfl
    rw [freed, if_neg last, unlocked]
    cases (waiting isReadonly line).length with
    | zero => rfl
    | succ => rfl

theorem unlockUsageQueue_eq (tracked : machine.usageQueues = .ofLines lines)
    (holds : (context.requestedUsage, task) ∈ granted isReadonly (lines context.usageQueue))
    (fits : (lines context.usageQueue).length < 2 ^ 32)
    (nodup : ((freed (lines context.usageQueue) (context.requestedUsage, task)).map snd).Nodup)
    (blocked : ∀ other ∈ (freed (lines context.usageQueue) (context.requestedUsage, task)).map snd,
      machine.blockedUsageCount other ≠ 0) :
    machine.unlockUsageQueue context =
      .ok { machine.unblocked ((freed (lines context.usageQueue) (context.requestedUsage, task)).map snd) with
        usageQueues := .ofLines (update lines context.usageQueue
          ((lines context.usageQueue).erase (context.requestedUsage, task))) } := by
  have unlocked := unlock_leave machine holds fits
  rw [foldlM_tryUnblock nodup blocked] at unlocked
  have queue : machine.usageQueues context.usageQueue = .ofLine (lines context.usageQueue) := by
    rw [tracked]
    rfl
  have unfolded : machine.unlockUsageQueue context =
      ((ofLine (lines context.usageQueue)).unlock context.requestedUsage >>= fun unlocked =>
        unblockUsages (waiting isReadonly (lines context.usageQueue)).length machine
          unlocked.2 unlocked.1) >>= fun unblocked =>
        pure (unblocked.1.setUsageQueue context.usageQueue unblocked.2) := by
    simp only [unlockUsageQueue, queue, bind_assoc]
    rfl
  rw [unfolded, unlocked]
  refine congrArg Except.ok (setUsageQueue_ofLine ?_ _ _)
  exact tracked

end Unlocking

end Payout.Scheduler
