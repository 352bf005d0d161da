/-
Purpose: The invariant between two calls and along a session: the usage queues are the lines of the active tasks, and
  the counters count. Whatever is called, as long as it is permitted, tasks that run or are unblocked do not conflict,
  no more tasks run than may run, and nothing panics but a counter that overflows.
-/
import Payout.SchedulerProofs.Lines

namespace Payout.Scheduler

section

open Lib Lib.ReaderWriter List SchedulingStateMachine

variable {first : Task} {rest running : List Task}

/-- The counters, with so many tasks active and running. An active task that does not run will still be counted as
    unblocked, and may have been before. -/
structure Counted (limit active running : Nat) (machine : SchedulingStateMachine) : Prop where
  maximum : machine.maxRunningTaskCount = limit
  activeTasks : machine.activeTaskCount = active
  runningTasks : machine.runningTaskCount = running
  limited : running ≤ limit
  handled : machine.handledTaskCount + active = machine.totalTaskCount
  total : machine.totalTaskCount < 2 ^ 32
  unblocked : machine.unblockedTaskCount + active ≤ 2 * machine.totalTaskCount + running
  fits : machine.unblockedTaskCount < 2 ^ 32

structure Consistent (limit : Nat) (active running : List Task) (machine : SchedulingStateMachine) : Prop where
  pos : 1 ≤ limit
  bounded : limit < 2 ^ 32
  nodup : active.Nodup
  distinct : ∀ task ∈ active, task.Distinct
  placed : Placed active running (lineAt active) machine
  counted : Counted limit active.length running.length machine

/-- A call that overflows a counter. -/
structure Overflowing (counter : Counter) (machine : SchedulingStateMachine) (addresses : Nat) : Prop where
  counter : counter = .totalTaskCount ∨ counter = .unblockedTaskCount ∨ counter = .blockedUsageCount
  many : 2 ^ 31 ≤ machine.totalTaskCount + 1 ∨ 2 ^ 32 ≤ addresses

variable {limit : Nat} {active : List Task} {machine : SchedulingStateMachine} {task : Task}

section Ready

namespace Consistent

section

variable (consistent : Consistent limit active running machine)

include consistent

theorem mem_ready :
    task ∈ running ++ machine.unblockedTaskQueue ↔ task ∈ active ∧ task.waitsIn (lineAt active) = 0 := by
  rw [consistent.placed.ready.mem_iff, mem_filter, decide_eq_true_eq]

theorem ready_length_le : running.length + machine.unblockedTaskQueue.length ≤ active.length := by
  rw [← length_append, consistent.placed.ready.length_eq]
  exact length_filter_le _ _

theorem few : active.length < 2 ^ 32 := by
  have handled := consistent.counted.handled
  have total := consistent.counted.total
  omega

end

end Consistent

theorem readonly_of_granted (one : (mine, a) ∈ granted isReadonly line) (two : (theirs, b) ∈ granted isReadonly line)
    (differ : a ≠ b) : ¬ (mine = .writable ∨ theirs = .writable) := by
  obtain ⟨mineShared, theirsShared⟩ := shared_of_granted one two (fun same => differ (congrArg Prod.snd same))
  simp only [isReadonly, decide_eq_true_eq] at mineShared theirsShared
  subst mineShared theirsShared
  rintro (writes | writes)
  · cases writes
  · cases writes

theorem not_conflicts_of_ready (one : a ∈ active) (two : b ∈ active) (oneReady : a.waitsIn (lineAt active) = 0)
    (twoReady : b.waitsIn (lineAt active) = 0) (differ : a ≠ b) : ¬ a.Conflicts b := by
  rintro ⟨mine, mineMem, theirs, theirsMem, same, writes⟩
  have mineHeld := granted_of_ready one oneReady mineMem
  have theirsHeld := granted_of_ready two twoReady theirsMem
  rw [← same] at theirsHeld
  exact readonly_of_granted mineHeld theirsHeld differ writes

theorem first_ready (nodup : (first :: rest).Nodup) (distinct : ∀ task ∈ first :: rest, task.Distinct) :
    first.waitsIn (lineAt (first :: rest)) = 0 := by
  apply countP_eq_zero.mpr
  intro context mem
  rw [decide_eq_true_eq]
  have within := within_lineAt nodup distinct
  refine not_mem_waiting_of_granted (within.line_nodup _) ?_
  rw [lineAt_cons, requestsAt_of_mem (distinct first mem_cons_self) mem]
  exact head_granted _ _

theorem exists_unblocked (consistent : Consistent limit active [] machine) (some : active ≠ []) :
    machine.unblockedTaskQueue ≠ [] := by
  obtain ⟨_, _, rfl⟩ := exists_cons_of_ne_nil some
  have ready := first_ready consistent.nodup consistent.distinct
  have mem := consistent.mem_ready.mpr ⟨mem_cons_self, ready⟩
  exact ne_nil_of_mem mem

end Ready

/-! ### Submissions -/

section Submission

/-- The parts of the invariant that a submission changes in the same way wherever it places the task. -/
theorem Consistent.submitted (consistent : Consistent limit active running machine) (own : task.Distinct)
    (absent : task ∉ active) {after : SchedulingStateMachine}
    (placed : Placed (active ++ [task]) running' (lineAt (active ++ [task])) after)
    (counted : Counted limit (active.length + 1) running'.length after) :
    Consistent limit (active ++ [task]) running' after where
  pos := consistent.pos
  bounded := consistent.bounded
  nodup := by
    rw [nodup_append]
    refine ⟨consistent.nodup, nodup_singleton task, ?_⟩
    rintro other mem _ (_ | _) rfl
    · exact absent mem
    · contradiction
  distinct := by
    intro other mem
    rcases mem_append.mp mem with mem | mem
    · exact consistent.distinct other mem
    · rw [mem_singleton.mp mem]
      exact own
  placed := placed
  counted := by rwa [length_append]

/-- The counters of a submission, before the task runs or is buffered. -/
theorem Counted.submitted {running : Nat} {active : Nat} (counted : Counted limit active running machine)
    (room : machine.totalTaskCount + 1 < 2 ^ 32) {after : SchedulingStateMachine}
    (same : SameCounters
      { machine with
        totalTaskCount := machine.totalTaskCount + 1
        activeTaskCount := machine.activeTaskCount + 1 } after) :
    Counted limit (active + 1) running after ∧
      after.unblockedTaskCount + 1 + (active + 1) ≤ 2 * after.totalTaskCount + running := by
  obtain ⟨maximum, activeTasks, runningTasks, limited, handled, total, unblocked, fits⟩ := counted
  obtain ⟨activeSame, runningSame, maximumSame, handledSame, unblockedSame, totalSame⟩ := same
  simp only at activeSame runningSame maximumSame handledSame unblockedSame totalSame
  constructor
  · constructor <;> omega
  · omega

theorem scheduleOrBufferTask_spec (consistent : Consistent limit active running machine) (own : task.Distinct)
    (absent : task ∉ active) (forceBuffering) :
    (∃ returned after, machine.scheduleOrBufferTask task forceBuffering = .ok (returned, after) ∧
      (returned = none ∨ returned = some task ∧ forceBuffering = false) ∧
      Consistent limit (active ++ [task]) (running ++ returned.toList) after) ∨
    ∃ counter, machine.scheduleOrBufferTask task forceBuffering = .error (.overflow counter) ∧
      Overflowing counter machine task.lockContexts.length := by
  obtain ⟨maximum, activeTasks, runningTasks, limited, handled, total, unblocked, fits⟩ := consistent.counted
  have ready := consistent.ready_length_le
  unfold scheduleOrBufferTask
  by_cases full : 2 ^ 32 ≤ machine.totalTaskCount + 1
  · refine .inr ⟨.totalTaskCount, ?_, .inl rfl, .inl (by omega)⟩
    rw [increment_of_le full]
    rfl
  rw [increment_of_lt (by omega), increment_of_lt (by omega)]
  have placed : Placed active running (lineAt active)
      { machine with
        totalTaskCount := machine.totalTaskCount + 1
        activeTaskCount := machine.activeTaskCount + 1 } :=
    ⟨consistent.placed.tracked, consistent.placed.counts, consistent.placed.ready⟩
  rcases tryLockUsageQueues_placed consistent.distinct (by omega) own absent placed with
    ⟨after, tried, locked⟩ | ⟨after, tried, same, blocked⟩ | ⟨tried, many⟩
  · obtain ⟨counted, twice⟩ := consistent.counted.submitted (Nat.lt_of_not_le full) locked.counters
    by_cases buffered : (!after.isTaskRunnable || forceBuffering) = true
    · by_cases fullUnblocked : 2 ^ 32 ≤ after.unblockedTaskCount + 1
      · have sameTotal : after.totalTaskCount = machine.totalTaskCount + 1 := locked.counters.totalTaskCount
        refine .inr ⟨.unblockedTaskCount, ?_, .inr (.inl rfl), .inl (by omega)⟩
        simp only [bind, Except.bind, tried, if_pos buffered, increment_of_le fullUnblocked]
      refine .inl ⟨none, { after with
        unblockedTaskCount := after.unblockedTaskCount + 1
        unblockedTaskQueue := after.unblockedTaskQueue ++ [task] }, ?_, .inl rfl, ?_⟩
      · simp only [bind, Except.bind, tried, if_pos buffered, increment_of_lt (Nat.lt_of_not_le fullUnblocked)]
        rfl
      rw [Option.toList_none, append_nil]
      refine consistent.submitted own absent ⟨locked.tracked, locked.counts, ?_⟩
        { counted with
          unblocked := twice
          fits := Nat.lt_of_not_le fullUnblocked }
      have readyAfter := locked.ready
      rwa [append_assoc] at readyAfter
    · obtain ⟨runnable, unforced⟩ : after.isTaskRunnable = true ∧ forceBuffering = false := by
        simpa using buffered
      have below : after.runningTaskCount < after.maxRunningTaskCount := by
        simpa [isTaskRunnable] using runnable
      rw [counted.runningTasks, counted.maximum] at below
      refine .inl ⟨some task, { after with runningTaskCount := after.runningTaskCount + 1 }, ?_,
        .inr ⟨rfl, unforced⟩, ?_⟩
      · have room : after.runningTaskCount + 1 < 2 ^ 32 := by
          rw [counted.runningTasks]
          omega
        simp only [bind, Except.bind, tried, if_neg buffered, increment_of_lt room]
        rfl
      · refine consistent.submitted own absent ⟨locked.tracked, locked.counts, ?_⟩ ?_
        · refine .trans ?_ locked.ready
          rw [Option.toList_some, append_assoc, append_assoc]
          exact perm_append_comm.append_left running
        · rw [Option.toList_some, length_append, length_singleton]
          exact { counted with
            runningTasks := congrArg (· + 1) counted.runningTasks
            limited := below
            unblocked := counted.unblocked.trans (Nat.le_succ _) }
  · -- The task waits for some of its addresses.
    refine .inl ⟨none, after, ?_, .inl rfl, ?_⟩
    · simp only [bind, Except.bind, tried]
      rfl
    · rw [Option.toList_none, append_nil]
      exact consistent.submitted own absent blocked
        (consistent.counted.submitted (Nat.lt_of_not_le full) same).1
  · refine .inr ⟨.blockedUsageCount, ?_, .inr (.inr rfl), .inr many⟩
    simp only [bind, Except.bind, tried]

end Submission

/-! ### Running and descheduling -/

section Running

/-- The next unblocked task is returned while fewer tasks run than may run. -/
theorem scheduleNextUnblockedTask_some (consistent : Consistent limit active running machine)
    (below : running.length < limit) (queue : machine.unblockedTaskQueue = task :: rest) :
    (2 ^ 32 ≤ machine.unblockedTaskCount + 1 ∧
      machine.scheduleNextUnblockedTask = .error (.overflow .unblockedTaskCount)) ∨
    ∃ after, machine.scheduleNextUnblockedTask = .ok (some task, after) ∧
      after.unblockedTaskCount = machine.unblockedTaskCount + 1 ∧ after.totalTaskCount = machine.totalTaskCount ∧
      Consistent limit active (running ++ [task]) after := by
  obtain ⟨maximum, activeTasks, runningTasks, limited, handled, total, unblocked, fits⟩ := consistent.counted
  have bounded := consistent.bounded
  have runnable : (!machine.isTaskRunnable) = false := by
    simp [isTaskRunnable, maximum, runningTasks, below]
  have room : machine.runningTaskCount + 1 < 2 ^ 32 := by omega
  simp only [scheduleNextUnblockedTask, runnable, Bool.false_eq_true, if_false, queue, increment_of_lt room]
  by_cases full : 2 ^ 32 ≤ machine.unblockedTaskCount + 1
  · refine .inl ⟨full, ?_⟩
    rw [increment_of_le full]
    rfl
  refine .inr ⟨{ machine with
    unblockedTaskQueue := rest
    runningTaskCount := machine.runningTaskCount + 1
    unblockedTaskCount := machine.unblockedTaskCount + 1 }, ?_, rfl, rfl, ?_⟩
  · rw [increment_of_lt (Nat.lt_of_not_le full)]
    rfl
  have ready := consistent.placed.ready
  rw [queue] at ready
  refine { consistent with
    placed := { consistent.placed with ready := ?_ }
    counted := ?_ }
  · rwa [append_assoc, singleton_append]
  rw [length_append, length_singleton]
  exact { consistent.counted with
    runningTasks := congrArg (· + 1) runningTasks
    limited := below
    unblocked := by simp only; omega
    fits := Nat.lt_of_not_le full }

theorem scheduleNextUnblockedTask_none (consistent : Consistent limit active running machine)
    (idle : limit ≤ running.length ∨ machine.unblockedTaskQueue = []) :
    machine.scheduleNextUnblockedTask = .ok (none, machine) := by
  obtain ⟨maximum, _, runningTasks, _, _, _, _, _⟩ := consistent.counted
  unfold scheduleNextUnblockedTask
  split_ifs with stopped
  · rfl
  · rcases idle with full | empty
    · simp [isTaskRunnable, maximum, runningTasks, Nat.not_lt.mpr full] at stopped
    · rw [empty]
      rfl

theorem ready_erase (nodup : active.Nodup) (task) :
    (active.filter (·.waitsIn lines = 0)).erase task = (active.erase task).filter (·.waitsIn lines = 0) := by
  rw [(nodup.filter _).erase_eq_filter, nodup.erase_eq_filter, filter_filter, filter_filter]
  apply filter_congr
  intro other _
  exact Bool.and_comm _ _

theorem descheduleTask_spec (consistent : Consistent limit active running machine) (runs : task ∈ running) :
    ∃ after, machine.descheduleTask task = .ok after ∧
      after.unblockedTaskCount = machine.unblockedTaskCount ∧ after.totalTaskCount = machine.totalTaskCount ∧
      Consistent limit (active.erase task) (running.erase task) after := by
  obtain ⟨maximum, activeTasks, runningTasks, limited, handled, total, unblocked, fits⟩ := consistent.counted
  obtain ⟨mem, ready⟩ := consistent.mem_ready.mp (mem_append_left machine.unblockedTaskQueue runs)
  have fewerActive := length_erase_add_one mem
  have fewerRunning := length_erase_add_one runs
  have placed : Placed (active.erase task) (running.erase task) (lineAt active)
      { machine with
        runningTaskCount := (running.erase task).length
        activeTaskCount := (active.erase task).length
        handledTaskCount := machine.handledTaskCount + 1 } := by
    refine ⟨consistent.placed.tracked, fun other otherMem => consistent.placed.counts other
      (mem_of_mem_erase otherMem), ?_⟩
    have others := consistent.placed.ready.erase task
    rwa [erase_append_left _ runs, ready_erase consistent.nodup] at others
  obtain ⟨after, unlocked, same, placed⟩ := unlockUsageQueues_placed consistent.nodup consistent.distinct
    consistent.few mem ready placed
  obtain ⟨activeSame, runningSame, maximumSame, handledSame, unblockedSame, totalSame⟩ := same
  simp only at activeSame runningSame maximumSame handledSame unblockedSame totalSame
  refine ⟨after, ?_, unblockedSame, totalSame, ?_⟩
  · have room : machine.handledTaskCount + 1 < 2 ^ 32 := by omega
    simp only [descheduleTask, runningTasks, activeTasks, ← fewerActive, ← fewerRunning,
      decrement_succ, increment_of_lt room]
    exact unlocked
  · exact { consistent with
      nodup := consistent.nodup.erase task
      distinct := fun other otherMem => consistent.distinct other (mem_of_mem_erase otherMem)
      placed
      counted := by constructor <;> omega }

end Running

/-! ### Clearing -/

section Clearing

/-- As after the initialization. -/
structure Rewound (machine : SchedulingStateMachine) : Prop where
  unblockedTaskQueue : machine.unblockedTaskQueue = []
  activeTaskCount : machine.activeTaskCount = 0
  runningTaskCount : machine.runningTaskCount = 0
  handledTaskCount : machine.handledTaskCount = 0
  unblockedTaskCount : machine.unblockedTaskCount = 0
  totalTaskCount : machine.totalTaskCount = 0
  usageQueues : ∀ address, machine.usageQueues address = {}

/-- Without active tasks the usage queues are as they were created. -/
theorem usageQueues_initial (consistent : Consistent limit [] running machine) (address) :
    machine.usageQueues address = {} := by
  rw [consistent.placed.tracked]
  rfl

theorem reinitialize_spec (consistent : Consistent limit [] [] machine) :
    ∃ after, reinitialize machine = .ok after ∧ Rewound after ∧
      Consistent limit [] [] after := by
  obtain ⟨_, activeTasks, runningTasks, _, handled, total, unblocked, fits⟩ := consistent.counted
  have queue : machine.unblockedTaskQueue = [] := by
    have short := consistent.ready_length_le
    exact eq_nil_of_length_eq_zero (by simpa using short)
  refine ⟨{ machine with
    activeTaskCount := 0
    handledTaskCount := 0
    unblockedTaskCount := 0
    totalTaskCount := 0 }, ?_, ?_, ?_⟩
  · simp only [rejectIf, reinitialize, activeTasks, runningTasks, queue, length_nil,
      ne_eq, not_true_eq_false, if_false]
    rfl
  · have initial := usageQueues_initial consistent
    exact ⟨queue, rfl, runningTasks, rfl, rfl, rfl, initial⟩
  refine { consistent with
    placed := ⟨consistent.placed.tracked, consistent.placed.counts, consistent.placed.ready⟩
    counted := ?_ }
  exact { consistent.counted with
    activeTasks := rfl
    handled := rfl
    total := Nat.two_pow_pos 32
    unblocked := Nat.zero_le _
    fits := Nat.two_pow_pos 32 }

/-- The loop runs and deschedules one task after the other, until none is active. -/
theorem clear_spec {turns count : Nat} (consistent : Consistent limit active [] machine)
    (enough : active.length < turns) (small : count + active.length < 2 ^ 32) :
    (∃ after, clear turns machine count = .ok (count + active.length, after) ∧
      machine.unblockedTaskCount + active.length < 2 ^ 32 ∧ Consistent limit [] [] after) ∨
    clear turns machine count = .error (.overflow .unblockedTaskCount) ∧
      2 ^ 32 ≤ machine.unblockedTaskCount + active.length := by
  induction turns generalizing active machine count with
  | zero => omega
  | succ turns ih =>
    by_cases none : active = []
    · subst none
      have short := consistent.ready_length_le
      have queue : machine.unblockedTaskQueue = [] := eq_nil_of_length_eq_zero (by simpa using short)
      refine .inl ⟨machine, ?_, consistent.counted.fits, consistent⟩
      rw [clear, scheduleNextUnblockedTask_none consistent (.inr queue)]
      rfl
    · obtain ⟨task, rest, queue⟩ := exists_cons_of_ne_nil (exists_unblocked consistent none)
      have someActive := length_pos_iff.mpr none
      rcases scheduleNextUnblockedTask_some consistent consistent.pos queue with
        ⟨full, overflows⟩ | ⟨middle, scheduled, countedOne, -, running⟩
      · refine .inr ⟨?_, by omega⟩
        rw [clear, overflows]
        rfl
      obtain ⟨after, descheduled, countedSame, -, rested⟩ :=
        descheduleTask_spec running (mem_append_right [] (mem_singleton_self task))
      have mem : task ∈ active := (running.mem_ready.mp
        (mem_append_left _ (mem_append_right [] (mem_singleton_self task)))).1
      have fewer := length_erase_add_one mem
      have idle : ([] ++ [task]).erase task = [] := by simp
      rw [idle] at rested
      have turn : clear (turns + 1) machine count = clear turns after (count + 1) := by
        rw [clear, scheduled]
        simp only [bind, Except.bind, descheduled]
        rw [increment_of_lt (by omega)]
      have total : count + active.length = count + 1 + (active.erase task).length := by omega
      rw [turn, total]
      rw [total] at small
      rcases ih rested (by omega) small with ⟨last, cleared, room, empty⟩ | ⟨overflows, many⟩
      · exact .inl ⟨last, cleared, by omega, empty⟩
      · exact .inr ⟨overflows, by omega⟩

theorem clearAndReinitialize_spec (consistent : Consistent limit active [] machine) :
    (∃ after, clearAndReinitialize machine = .ok (active.length, after) ∧
      machine.unblockedTaskCount + active.length < 2 ^ 32 ∧ Rewound after ∧ Consistent limit [] [] after) ∨
    clearAndReinitialize machine = .error (.overflow .unblockedTaskCount) ∧
      2 ^ 32 ≤ machine.unblockedTaskCount + active.length := by
  have enough : active.length < machine.activeTaskCount + 1 := by
    rw [consistent.counted.activeTasks]
    exact Nat.lt_succ_self _
  have small : 0 + active.length < 2 ^ 32 := by
    rw [Nat.zero_add]
    exact consistent.few
  rcases clear_spec consistent enough small with ⟨_, cleared, room, empty⟩ | ⟨overflows, many⟩
  · obtain ⟨after, reset, rewound, initial⟩ := reinitialize_spec empty
    refine .inl ⟨after, ?_, room, rewound, initial⟩
    rw [Nat.zero_add] at cleared
    simp only [bind, Except.bind, clearAndReinitialize, cleared, reset]
    rfl
  · refine .inr ⟨?_, many⟩
    simp only [bind, Except.bind, clearAndReinitialize, overflows]

end Clearing

end

open Lib List SchedulingStateMachine Session

/-- The addresses of the task that is submitted. -/
def Call.addresses : Call → Nat
  | .scheduleTask task | .bufferTask task | .scheduleOrBufferTask task _ => task.lockContexts.length
  | _ => 0

def Session.Sound (limit : Nat) (session : Session) : Prop :=
  Consistent limit session.active session.running session.machine

/-- A call returns and keeps the invariant, or overflows a counter. -/
def Session.Safe (limit : Nat) (session : Session) (call : Call) : Prop :=
  (∃ after, session.call call = .ok after ∧ after.Sound limit) ∨
    ∃ counter, session.call call = .error (.overflow counter) ∧ Overflowing counter session.machine call.addresses

section Calls

variable {limit : Nat} {session : Session} {task : Task}

section

variable (sound : session.Sound limit)

include sound

theorem safe_scheduleOrBufferTask (own : task.Distinct) (absent : task ∉ session.active) (forceBuffering) :
    session.Safe limit (.scheduleOrBufferTask task forceBuffering) := by
  rcases scheduleOrBufferTask_spec sound own absent forceBuffering with
    ⟨returned, after, scheduled, -, kept⟩ | ⟨counter, overflows, many⟩
  · refine .inl ⟨session.submitted task (returned, after), ?_, kept⟩
    simp only [call, scheduled]
    rfl
  · refine .inr ⟨counter, ?_, many⟩
    simp only [call, overflows]
    rfl

/-- A buffered task is never returned, so that the result may be dropped. -/
theorem safe_bufferTask (own : task.Distinct) (absent : task ∉ session.active) :
    session.Safe limit (.bufferTask task) := by
  rcases scheduleOrBufferTask_spec sound own absent true with
    ⟨returned, after, scheduled, kind, kept⟩ | ⟨counter, overflows, many⟩
  · rcases kind with rfl | ⟨-, unforced⟩
    · refine .inl ⟨session.submitted task (none, after), ?_, kept⟩
      simp only [call, bufferTask, scheduled]
      rfl
    · cases unforced
  · refine .inr ⟨counter, ?_, many⟩
    simp only [call, bufferTask, overflows]
    rfl

theorem safe_scheduleNextUnblockedTask : session.Safe limit .scheduleNextUnblockedTask := by
  by_cases idle : limit ≤ session.running.length ∨ session.machine.unblockedTaskQueue = []
  · refine .inl ⟨session, ?_, sound⟩
    simp only [call, scheduleNextUnblockedTask_none sound idle, bind, Except.bind, Option.toList_none,
      map_nil, append_nil]
    rfl
  · rw [not_or, not_le] at idle
    obtain ⟨next, rest, queue⟩ := exists_cons_of_ne_nil idle.2
    have unblocked := sound.counted.unblocked
    have limited := sound.ready_length_le
    rcases scheduleNextUnblockedTask_some sound idle.1 queue with
      ⟨full, overflows⟩ | ⟨after, scheduled, -, -, kept⟩
    · refine .inr ⟨.unblockedTaskCount, ?_, .inr (.inl rfl), .inl (by omega)⟩
      simp only [call, overflows]
      rfl
    refine .inl ⟨{ session with
      machine := after
      running := session.running ++ [next]
      history := session.history ++ [.returned next] }, ?_, kept⟩
    simp only [call, scheduled]
    rfl

theorem safe_descheduleTask (runs : task ∈ session.running) : session.Safe limit (.descheduleTask task) := by
  obtain ⟨after, descheduled, -, -, kept⟩ := descheduleTask_spec sound runs
  refine .inl ⟨{
    machine := after
    active := session.active.erase task
    running := session.running.erase task
    history := session.history ++ [.descheduled task] }, ?_, kept⟩
  simp only [call, descheduled]
  rfl

theorem safe_reinitialize (inactive : session.active = []) : session.Safe limit Call.reinitialize := by
  have idle : session.running = [] := by
    have short := sound.ready_length_le
    rw [inactive] at short
    exact eq_nil_of_length_eq_zero (Nat.eq_zero_of_le_zero (Nat.le_of_add_right_le short))
  rw [Session.Sound, inactive, idle] at sound
  obtain ⟨after, reset, -, kept⟩ := reinitialize_spec sound
  refine .inl ⟨{ session with machine := after }, ?_, ?_⟩
  · simp only [call, reset]
    rfl
  · rw [Session.Sound, inactive, idle]
    exact kept

theorem safe_clearAndReinitialize (idle : session.running = []) : session.Safe limit Call.clearAndReinitialize := by
  rw [Session.Sound, idle] at sound
  have unblocked := sound.counted.unblocked
  rw [length_nil] at unblocked
  rcases clearAndReinitialize_spec sound with ⟨after, cleared, -, -, kept⟩ | ⟨overflows, many⟩
  · refine .inl ⟨{
      machine := after
      active := []
      running := []
      history := session.history ++ [.cleared session.active.length] }, ?_, kept⟩
    simp only [call, cleared]
    rfl
  · refine .inr ⟨.unblockedTaskCount, ?_, .inr (.inl rfl), .inl (by omega)⟩
    simp only [call, overflows]
    rfl

theorem call_spec {call : Call} (permitted : session.Permits call) : session.Safe limit call := by
  cases call with
  | scheduleTask => exact safe_scheduleOrBufferTask sound permitted.1 permitted.2 false
  | bufferTask => exact safe_bufferTask sound permitted.1 permitted.2
  | scheduleOrBufferTask task forceBuffering =>
    exact safe_scheduleOrBufferTask sound permitted.1 permitted.2 forceBuffering
  | scheduleNextUnblockedTask => exact safe_scheduleNextUnblockedTask sound
  | descheduleTask => exact safe_descheduleTask sound permitted
  | reinitialize => exact safe_reinitialize sound permitted
  | clearAndReinitialize => exact safe_clearAndReinitialize sound permitted

theorem call_sound {call : Call} (permitted : session.Permits call) {after : Session}
    (called : session.call call = .ok after) : after.Sound limit := by
  rcases call_spec sound permitted with ⟨_, returns, kept⟩ | ⟨_, overflows, -⟩
  · rw [called] at returns
    cases returns
    exact kept
  · rw [called] at overflows
    cases overflows

end

end Calls

/-! ### Sessions -/

/-- The maximum, if there is one, is a positive `u32`. -/
def Bounds (maxRunningTaskCount : Option Nat) : Prop := ∀ count ∈ maxRunningTaskCount, 1 ≤ count ∧ count < 2 ^ 32

section Sessions

variable {maxRunningTaskCount : Option Nat} {session : Session}

theorem limit_bounds (bounds : Bounds maxRunningTaskCount) :
    1 ≤ maxRunningTaskCount.getD (2 ^ 32 - 1) ∧ maxRunningTaskCount.getD (2 ^ 32 - 1) < 2 ^ 32 := by
  cases maxRunningTaskCount with
  | none => exact ⟨by decide, by decide⟩
  | some count => exact bounds count rfl

theorem start_sound (bounds : Bounds maxRunningTaskCount) : ∃ machine,
    exclusivelyInitializeCurrentThreadForScheduling maxRunningTaskCount = .ok machine ∧
      (Session.start machine).Sound (maxRunningTaskCount.getD (2 ^ 32 - 1)) := by
  obtain ⟨pos, bounded⟩ := limit_bounds bounds
  refine ⟨.new (maxRunningTaskCount.getD (2 ^ 32 - 1)), ?_, ?_⟩
  · simp only [exclusivelyInitializeCurrentThreadForScheduling, tryInto, if_pos bounded, okOr]
    rfl
  constructor
  case pos => exact pos
  case bounded => exact bounded
  case nodup => exact nodup_nil
  case distinct => exact forall_mem_nil _
  case placed => exact ⟨rfl, forall_mem_nil _, .refl []⟩
  case counted =>
    exact ⟨rfl, rfl, rfl, Nat.zero_le _, rfl, Nat.two_pow_pos 32, Nat.zero_le _, Nat.two_pow_pos 32⟩

theorem Session.Reached.bounds (pos : ∀ count ∈ maxRunningTaskCount, 1 ≤ count)
    (reached : session.Reached maxRunningTaskCount) : Bounds maxRunningTaskCount := by
  obtain ⟨_, _, created, -⟩ := reached
  simp only [exclusivelyInitializeCurrentThreadForScheduling, ok_iffs] at created
  obtain ⟨_, ⟨fits, -⟩, -⟩ := created
  rintro count ⟨⟩
  exact ⟨pos count rfl, fits⟩

theorem Session.Reached.sound (bounds : Bounds maxRunningTaskCount) (reached : session.Reached maxRunningTaskCount) :
    session.Sound (maxRunningTaskCount.getD (2 ^ 32 - 1)) := by
  obtain ⟨_, _, created, run⟩ := reached
  obtain ⟨_, created', start⟩ := start_sound bounds
  rw [created] at created'
  cases created'
  refine run.invariant ?_ start
  intro before call after sound permitted called
  exact call_sound sound permitted called

/-- What is reached from a session by permitted calls is reached. -/
theorem Session.Reached.trans {after : Session} (reached : session.Reached maxRunningTaskCount)
    (run : Run (fun call session => Session.call session call) Session.Permits session calls after) :
    after.Reached maxRunningTaskCount := by
  obtain ⟨machine, before, created, start⟩ := reached
  exact ⟨machine, before ++ calls, created, Run.trans start run⟩

/-- Mutual exclusion: tasks that run or are unblocked do not conflict, no more tasks run than may run, and a permitted
    call returns unless it overflows a counter. -/
theorem mutual_exclusion (maxRunningTaskCount : Option Nat) (bounds : Bounds maxRunningTaskCount) :
    (∃ machine, exclusivelyInitializeCurrentThreadForScheduling maxRunningTaskCount = .ok machine) ∧
    ∀ session : Session, session.Reached maxRunningTaskCount →
      (∀ a ∈ session.running ++ session.machine.unblockedTaskQueue,
        ∀ b ∈ session.running ++ session.machine.unblockedTaskQueue, a ≠ b → ¬ a.Conflicts b) ∧
      session.machine.runningTaskCount = session.running.length ∧
      session.running.length ≤ maxRunningTaskCount.getD (2 ^ 32 - 1) ∧
      ∀ call, session.Permits call →
        (∃ after, session.call call = .ok after) ∨
        ∃ counter, session.call call = .error (.overflow counter) ∧
          Overflowing counter session.machine call.addresses := by
  constructor
  · obtain ⟨machine, created, -⟩ := start_sound bounds
    exact ⟨machine, created⟩
  intro session reached
  have sound := reached.sound bounds
  refine ⟨?_, sound.counted.runningTasks, sound.counted.limited, ?_⟩
  · intro a one b two differ
    obtain ⟨oneActive, oneReady⟩ := sound.mem_ready.mp one
    obtain ⟨twoActive, twoReady⟩ := sound.mem_ready.mp two
    exact not_conflicts_of_ready oneActive twoActive oneReady twoReady differ
  · intro call permitted
    rcases call_spec sound permitted with ⟨after, returns, -⟩ | overflows
    · exact .inl ⟨after, returns⟩
    · exact .inr overflows

end Sessions

namespace Sample

/-- A task that writes an address, two that read it and one that uses another address. -/
def writer : Task := createTask 0 [7] fun _ => true
def reader : Task := createTask 1 [7, 8] fun _ => false
def anotherReader : Task := createTask 2 [7] fun _ => false
def bystander : Task := createTask 3 [9] fun _ => true

def calls : List Call :=
  [.scheduleTask writer, .scheduleTask reader, .scheduleTask anotherReader, .bufferTask bystander,
    .descheduleTask writer, .scheduleNextUnblockedTask]

def session : Session :=
  (exec (fun call session => Session.call session call) Session.Permits calls (Session.start (.new 1))).getD
    (Session.start (.new 1))

theorem reached_of_returns {calls : List Call}
    (returns : (exec (fun call session => Session.call session call) Session.Permits calls
      (Session.start (.new 1))).isSome = true) :
    Session.Reached (some 1) ((exec (fun call session => Session.call session call) Session.Permits calls
      (Session.start (.new 1))).getD (Session.start (.new 1))) := by
  refine ⟨.new 1, calls, rfl, ?_⟩
  have run := run_exec_get returns
  rwa [Option.get_eq_getD] at run

end Sample

open Sample

/-- The theorem at a session in which one task runs and two are unblocked. -/
theorem mutual_exclusion_sample :
    session.running = [bystander] ∧
    session.machine.unblockedTaskQueue = [reader, anotherReader] ∧
    ¬ bystander.Conflicts reader ∧ ¬ reader.Conflicts anotherReader ∧
    session.running.length ≤ 1 := by
  have running : session.running = [bystander] := by decide
  have unblocked : session.machine.unblockedTaskQueue = [reader, anotherReader] := by decide
  have bounds : Bounds (some 1) := by
    rintro count ⟨⟩
    exact ⟨by decide, by decide⟩
  obtain ⟨exclusive, -, limited, -⟩ := (mutual_exclusion (some 1) bounds).2 session (reached_of_returns (by decide))
  rw [running, unblocked] at exclusive
  refine ⟨running, unblocked, ?_, ?_, limited⟩
  · exact exclusive _ (by decide) _ (by decide) (by decide)
  · exact exclusive _ (by decide) _ (by decide) (by decide)

/-! ### Many tasks -/

namespace Sample

/-- A task without addresses. -/
def task (reference : Nat) : Task := createTask reference [] fun _ => false

def tasks (count : Nat) : List Task := (List.range count).map task

theorem tasks_succ (count) : tasks (count + 1) = tasks count ++ [task count] := by
  rw [tasks, tasks, range_succ, map_append, map_singleton]

/-- So many tasks are buffered. -/
def buffered (count : Nat) : Session :=
  { machine :=
      { new 1 with
        unblockedTaskQueue := tasks count
        activeTaskCount := count
        unblockedTaskCount := count
        totalTaskCount := count }
    active := tasks count
    running := []
    history := (tasks count).map .submitted }

theorem buffered_permits (count) : (buffered count).Permits (.bufferTask (task count)) := by
  refine ⟨nodup_nil, ?_⟩
  intro mem
  obtain ⟨reference, below, same⟩ := mem_map.mp mem
  have equal : reference = count := congrArg Task.reference same
  exact absurd (mem_range.mp below) (by omega)

theorem task_locked (machine : SchedulingStateMachine) (reference) :
    machine.tryLockUsageQueues (task reference) = .ok (some (task reference), machine) := rfl

theorem buffered_call {count : Nat} (room : count + 1 < 2 ^ 32) :
    (buffered count).call (.bufferTask (task count)) = .ok (buffered (count + 1)) := by
  simp only [buffered, call, bufferTask, scheduleOrBufferTask, increment_of_lt room, tasks_succ, map_append,
    map_singleton, bind, Except.bind, task_locked, Bool.or_true, if_true]
  rfl

theorem buffered_reached {count : Nat} (room : count < 2 ^ 32) : (buffered count).Reached (some 1) := by
  refine ⟨.new 1, (tasks count).map .bufferTask, rfl, ?_⟩
  induction count with
  | zero => exact .refl _
  | succ count ih =>
    rw [tasks_succ, map_append, map_singleton]
    exact (ih (Nat.lt_of_succ_lt room)).snoc (buffered_permits count) (buffered_call room)

theorem buffered_overflows {count : Nat} (full : 2 ^ 32 ≤ count + 1) :
    (buffered count).call (.bufferTask (task count)) = .error (.overflow .totalTaskCount) := by
  simp only [buffered, call, bufferTask, scheduleOrBufferTask, increment_of_le full]
  rfl

end Sample

/-- After 2 ^ 32 - 1 buffered tasks the next one overflows the count of all tasks, and a maximum of 2 ^ 32 is not
    accepted. -/
theorem total_task_count_overflows :
    ((buffered (2 ^ 32 - 1)).Reached (some 1) ∧
      (buffered (2 ^ 32 - 1)).Permits (.bufferTask (task (2 ^ 32 - 1))) ∧
      (buffered (2 ^ 32 - 1)).call (.bufferTask (task (2 ^ 32 - 1))) = .error (.overflow .totalTaskCount)) ∧
    (exclusivelyInitializeCurrentThreadForScheduling (some (2 ^ 32))).toOption = none := by
  constructor
  · exact ⟨buffered_reached (by decide), buffered_permits _, buffered_overflows (by decide)⟩
  · rfl

end Payout.Scheduler
