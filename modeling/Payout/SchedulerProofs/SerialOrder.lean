/-
Purpose: A session refines the order of the tasks; nothing is lost and nothing is stuck. If no active task runs, one
  is unblocked, so that running and descheduling the next unblocked task, again and again, returns every task.
-/
import Mathlib.Data.List.Flatten
import Payout.Lib.Footprint
import Payout.SchedulerProofs.Invariant

namespace Payout.Scheduler

section

open Lib Lib.ReaderWriter Payout.Runtime List Session Order.Follows Run Scheduler.Order List.Subset

variable {order : Order} {task a b : Task} {returned : Option Task} {event : Event}
  {events before between waiting rest : List Event} {cleared : Nat}

variable {history : List Event}

/-! ### Sessions follow the order -/

section Refinement

variable {limit : Nat} {active running : List Task} {machine : SchedulingStateMachine}

/-- A task that waits for nothing does not conflict with the tasks submitted before it. -/
theorem not_conflicts_of_before (nodup : active.Nodup) (distinct : ∀ task ∈ active, task.Distinct)
    (before : List.Sublist [a, b] active) (ready : b.waitsIn (lineAt active) = 0) : ¬ a.Conflicts b := by
  rintro ⟨mine, mineMem, theirs, theirsMem, same, writes⟩
  have oneMem : a ∈ active := before.subset (by simp)
  have twoMem : b ∈ active := before.subset (by simp)
  have differ : a ≠ b := by
    have pair := before.nodup nodup
    simpa using pair
  have within := within_lineAt nodup distinct
  have theirsHeld := granted_of_ready twoMem ready theirsMem
  have inLine : List.Sublist [(mine.requestedUsage, a), (theirs.requestedUsage, b)]
      (lineAt active theirs.usageQueue) := by
    have parts : lineAt [a, b] theirs.usageQueue = [(mine.requestedUsage, a), (theirs.requestedUsage, b)] := by
      rw [lineAt_cons, lineAt_cons, requestsAt_of_mem (distinct b twoMem) theirsMem, ← same,
        requestsAt_of_mem (distinct a oneMem) mineMem]
      rfl
    rw [← parts]
    exact before.flatMap _
  have mineHeld := mem_granted_of_before (within.line_nodup _) inLine theirsHeld
  exact readonly_of_granted mineHeld theirsHeld differ writes

theorem returned_allowed (consistent : Consistent limit active (running ++ [task]) machine) :
    Order.Allows { active, running } (.returned task) := by
  have last : task ∈ running ++ [task] := mem_append_right _ (mem_singleton_self task)
  obtain ⟨mem, ready⟩ := consistent.mem_ready.mp (mem_append_left _ last)
  refine ⟨mem, ?_, ?_⟩
  · have nodup := (nodup_append.mp (consistent.placed.ready.nodup_iff.mpr (consistent.nodup.filter _))).1
    rw [nodup_append] at nodup
    intro before
    exact nodup.2.2 task before task (mem_singleton_self task) rfl
  · intro other before
    exact not_conflicts_of_before consistent.nodup consistent.distinct before ready

variable {session after : Session}

/-- The history of the session is in order. -/
def Session.InOrder (session : Session) : Prop :=
  Order.Follows session.history { active := session.active, running := session.running }

theorem submitted_inOrder (inOrder : session.InOrder) (absent : task ∉ session.active)
    (kind : returned = none ∨ returned = some task) (sound : (session.submitted task (returned, machine)).Sound limit) :
    (session.submitted task (returned, machine)).InOrder := by
  have submission : Order.Follows (session.history ++ [.submitted task])
      { active := session.active ++ [task], running := session.running } := snoc inOrder absent
  rcases kind with rfl | rfl
  · rw [Session.InOrder, submitted, Option.toList_none, append_nil]
    exact submission
  · have allowed : Order.Allows { active := session.active ++ [task], running := session.running } (.returned task) :=
      returned_allowed sound
    have both := submission.snoc allowed
    rw [append_assoc] at both
    exact both

section

variable (sound : session.Sound limit) (inOrder : session.InOrder)
include sound inOrder

theorem scheduleOrBufferTask_inOrder (own : task.Distinct) (absent : task ∉ session.active)
    (called : session.machine.scheduleOrBufferTask task forceBuffering = .ok (returned, machine)) :
    (session.submitted task (returned, machine)).InOrder := by
  rcases scheduleOrBufferTask_spec sound own absent forceBuffering with
    ⟨returned', after', scheduled, kind, kept⟩ | ⟨counter, overflows, -⟩
  · rw [called] at scheduled
    cases scheduled
    refine submitted_inOrder inOrder absent ?_ kept
    rcases kind with none | ⟨some, -⟩
    · exact .inl none
    · exact .inr some
  · rw [called] at overflows
    cases overflows

theorem scheduleNextUnblockedTask_inOrder (called : session.call .scheduleNextUnblockedTask = .ok after) :
    after.InOrder := by
  simp only [call, ok_iffs, Prod.exists] at called
  obtain ⟨_, machine, scheduled, rfl⟩ := called
  by_cases idle : limit ≤ session.running.length ∨ session.machine.unblockedTaskQueue = []
  · rw [scheduleNextUnblockedTask_none sound idle] at scheduled
    cases scheduled
    simp only [Session.InOrder, Option.toList_none, map_nil, append_nil]
    exact inOrder
  · rw [not_or, not_le] at idle
    obtain ⟨_, _, queue⟩ := exists_cons_of_ne_nil idle.2
    rcases scheduleNextUnblockedTask_some sound idle.1 queue with ⟨-, overflows⟩ | ⟨_, returns, -, -, kept⟩
    · rw [overflows] at scheduled
      cases scheduled
    · rw [returns] at scheduled
      cases scheduled
      exact snoc inOrder (returned_allowed kept)

theorem call_inOrder {call : Call} (permitted : session.Permits call) (called : session.call call = .ok after) :
    after.InOrder := by
  cases call with
  | bufferTask =>
    simp only [call, SchedulingStateMachine.bufferTask, ok_iffs, Prod.exists] at called
    obtain ⟨_, ⟨_, _, scheduled, rfl, rfl⟩, rfl⟩ := called
    exact scheduleOrBufferTask_inOrder sound inOrder permitted.1 permitted.2 scheduled
  | scheduleTask task | scheduleOrBufferTask task forceBuffering =>
    simp only [call, ok_iffs, Prod.exists] at called
    obtain ⟨_, _, scheduled, rfl⟩ := called
    exact scheduleOrBufferTask_inOrder sound inOrder permitted.1 permitted.2 scheduled
  | scheduleNextUnblockedTask => exact scheduleNextUnblockedTask_inOrder sound inOrder called
  | descheduleTask =>
    simp only [call, ok_iffs] at called
    obtain ⟨_, -, rfl⟩ := called
    exact snoc inOrder permitted
  | reinitialize =>
    simp only [call, ok_iffs] at called
    obtain ⟨_, -, rfl⟩ := called
    exact inOrder
  | clearAndReinitialize =>
    simp only [call, ok_iffs, Prod.exists] at called
    obtain ⟨_, _, cleared, rfl⟩ := called
    refine snoc inOrder ⟨permitted, ?_⟩
    have idle : session.running = [] := permitted
    rw [Session.Sound, idle] at sound
    rcases clearAndReinitialize_spec sound with ⟨_, returns, -⟩ | ⟨overflows, -⟩
    · rw [returns] at cleared
      cases cleared
      rfl
    · rw [overflows] at cleared
      cases cleared

end

theorem Session.Reached.inOrder (bounds : Bounds maxRunningTaskCount) (reached : session.Reached maxRunningTaskCount) :
    session.InOrder := by
  obtain ⟨_, _, created, run⟩ := reached
  obtain ⟨_, created', start⟩ := start_sound bounds
  rw [created] at created'
  cases created'
  have both := run.invariant
    (P := fun session => session.Sound (maxRunningTaskCount.getD (2 ^ 32 - 1)) ∧ session.InOrder)
    (fun _ _ _ kept permitted called =>
      ⟨call_sound kept.1 permitted called, call_inOrder kept.1 kept.2 permitted called⟩)
    ⟨start, refl _⟩
  exact both.2

end Refinement

/-! ### Conflicting tasks -/

/-- The task is descheduled, by itself or with all active tasks. -/
def Event.Ends (task : Task) : Event → Prop
  | .descheduled other => other = task
  | .cleared _ => True
  | _ => False

namespace Order

/-- Tasks that run are active. -/
structure WellFormed (order : Order) : Prop where
  nodup : order.active.Nodup
  running : order.running ⊆ order.active
  once : order.running.Nodup

theorem WellFormed.after (wellFormed : order.WellFormed) (allowed : order.Allows event) :
    (order.after event).WellFormed := by
  cases event with
  | submitted =>
    refine ⟨?_, fun other mem => mem_append_left _ (wellFormed.running mem), wellFormed.once⟩
    rw [after, ← concat_eq_append]
    exact wellFormed.nodup.concat allowed
  | returned =>
    obtain ⟨mem, first, -⟩ := allowed
    refine ⟨wellFormed.nodup, ?_, ?_⟩
    · refine append_subset.mpr ⟨wellFormed.running, ?_⟩
      intro other single
      rw [mem_singleton.mp single]
      exact mem
    · rw [after, ← concat_eq_append]
      exact wellFormed.once.concat first
  | descheduled task =>
    refine ⟨wellFormed.nodup.erase task, ?_, wellFormed.once.erase task⟩
    intro other mem
    obtain ⟨differ, mem⟩ := wellFormed.once.mem_erase_iff.mp mem
    exact wellFormed.nodup.mem_erase_iff.mpr ⟨differ, wellFormed.running mem⟩
  | cleared => exact ⟨nodup_nil, refl [], nodup_nil⟩

theorem Leads.wellFormed (leads : order.Leads events order') (wellFormed : order.WellFormed) : order'.WellFormed := by
  refine invariant ?_ leads wellFormed
  rintro before event after kept allowed ⟨⟩
  exact kept.after allowed

theorem Follows.wellFormed (follows : Follows history order) : order.WellFormed :=
  Leads.wellFormed follows ⟨nodup_nil, refl [], nodup_nil⟩

section Conflicts

theorem Leads.active (leads : order.Leads events order') (active : ∀ event ∈ events, ¬ event.Ends a)
    (mem : a ∈ order.active) : a ∈ order'.active := by
  refine invariant (P := fun order => a ∈ order.active) ?_ (restrict active leads) mem
  rintro before event after mem ⟨allowed, goesOn⟩ ⟨⟩
  cases event with
  | submitted => exact mem_append_left _ mem
  | returned => exact mem
  | descheduled => exact (mem_erase_of_ne (Ne.symm goesOn)).mpr mem
  | cleared => exact absurd trivial goesOn

/-- Until the first of two conflicting tasks is descheduled, the second is not returned. -/
theorem Leads.waits (leads : order.Leads events order') (active : ∀ event ∈ events, ¬ event.Ends a)
    (conflict : a.Conflicts b) (before : List.Sublist [a, b] order.active) (waits : b ∉ order.running) :
    List.Sublist [a, b] order'.active ∧ b ∉ order'.running := by
  refine invariant (P := fun order => List.Sublist [a, b] order.active ∧ b ∉ order.running) ?_
    (restrict active leads) ⟨before, waits⟩
  rintro order event after ⟨before, waits⟩ ⟨allowed, goesOn⟩ ⟨⟩
  cases event with
  | submitted => exact ⟨before.trans (sublist_append_left _ _), waits⟩
  | returned =>
    refine ⟨before, ?_⟩
    intro mem
    rcases mem_append.mp mem with mem | mem
    · exact waits mem
    · rw [mem_singleton] at mem
      subst mem
      exact allowed.2.2 a before conflict
  | descheduled task =>
    have other : task ≠ b := by
      rintro rfl
      exact waits allowed
    have absent : task ∉ [a, b] := by
      simp only [mem_cons, not_mem_nil, or_false, not_or]
      exact ⟨goesOn, other⟩
    refine ⟨?_, fun mem => waits (mem_of_mem_erase mem)⟩
    have kept := before.erase task
    rwa [erase_of_not_mem absent] at kept
  | cleared => exact absurd trivial goesOn

/-- A task is returned only after the conflicting tasks submitted before it are descheduled. -/
theorem ends_before_return
    (follows : Follows (before ++ .submitted a :: (between ++ .submitted b :: (waiting ++ .returned b :: rest))) order)
    (conflict : a.Conflicts b) : ∃ event ∈ between ++ waiting, event.Ends a := by
  by_contra none
  push Not at none
  rw [forall_mem_append] at none
  obtain ⟨_, start, later⟩ := split follows
  cases later with
  | cons allowed taken later =>
    cases taken
    have wellFormed := (Follows.wellFormed start).after allowed
    obtain ⟨two, first, later⟩ := split later
    have active : a ∈ two.active := Leads.active first none.1 (mem_append_right _ (mem_singleton_self a))
    cases later with
    | cons allowed taken later =>
      cases taken
      have unreturned : b ∉ two.running := fun mem => allowed ((Leads.wellFormed first wellFormed).running mem)
      have ordered : List.Sublist [a, b] (two.active ++ [b]) :=
        (singleton_sublist.mpr active).append (List.Sublist.refl [b])
      obtain ⟨_, second, later⟩ := split later
      obtain ⟨ordered, -⟩ := Leads.waits second none.2 conflict ordered unreturned
      cases later with
      | cons allowed => exact allowed.2.2 a ordered conflict

end Conflicts

end Order

/-! ### Serial execution -/

/-- The tasks in the order of their submission. -/
def submittedTasks (history : List Event) : List Task :=
  history.filterMap fun
    | .submitted task => some task
    | _ => none

/-- The tasks in the order in which they were returned. -/
def returnedTasks (history : List Event) : List Task :=
  history.filterMap fun
    | .returned task => some task
    | _ => none

def descheduledTasks (history : List Event) : List Task :=
  history.filterMap fun
    | .descheduled task => some task
    | _ => none

def Task.Touches (task : Task) (address : Pubkey) : Prop := ∃ context ∈ task.lockContexts, context.usageQueue = address

def Task.Writes (task : Task) (address : Pubkey) : Prop :=
  ∃ context ∈ task.lockContexts, context.usageQueue = address ∧ context.requestedUsage = .writable

theorem independent_of_not_conflicts (apart : ¬ a.Conflicts b) : Independent Task.Touches Task.Writes a b := by
  intro address
  constructor
  · rintro ⟨⟨mine, mineMem, mineHere, writes⟩, theirs, theirsMem, theirsHere⟩
    exact apart ⟨mine, mineMem, theirs, theirsMem, mineHere.trans theirsHere.symm, .inl writes⟩
  · rintro ⟨⟨mine, mineMem, mineHere⟩, theirs, theirsMem, theirsHere, writes⟩
    exact apart ⟨mine, mineMem, theirs, theirsMem, mineHere.trans theirsHere.symm, .inr writes⟩

namespace Order

section Pending

theorem pending_submitted (wellFormed : order.WellFormed) (allowed : order.Allows (.submitted task)) :
    (order.after (.submitted task)).pending = order.pending ++ [task] := by
  have waits : task ∉ order.running := fun mem => allowed (wellFormed.running mem)
  have last : [task].filter (· ∉ order.running) = [task] := by simp [waits]
  rw [pending, after, filter_append, last, pending]

/-- A task is returned from behind tasks that it does not conflict with. -/
theorem pending_returned (wellFormed : order.WellFormed) (allowed : order.Allows (.returned task)) :
    ∃ front back, order.pending = front ++ task :: back ∧ (order.after (.returned task)).pending = front ++ back ∧
      ∀ other ∈ front, ¬ other.Conflicts task := by
  obtain ⟨mem, waits, alone⟩ := allowed
  obtain ⟨front, back, active⟩ := append_of_mem mem
  have nodup := wellFormed.nodup
  rw [active] at nodup
  obtain ⟨notFront, notBack⟩ : task ∉ front ∧ task ∉ back := by
    rw [nodup_middle, nodup_cons, mem_append, not_or] at nodup
    exact nodup.1
  have same : ∀ part : List Task, task ∉ part →
      part.filter (· ∉ order.running ++ [task]) = part.filter (· ∉ order.running) := by
    intro part absent
    apply filter_congr
    intro other otherMem
    have differ : other ≠ task := fun equal => absent (equal ▸ otherMem)
    simp [differ]
  refine ⟨front.filter (· ∉ order.running), back.filter (· ∉ order.running), ?_, ?_, ?_⟩
  · rw [pending, active, filter_append, filter_cons_of_pos (by simpa using waits)]
  · rw [pending, after, active, filter_append, filter_cons_of_neg (by simp), same front notFront, same back notBack]
  · intro other inFront
    refine alone other ?_
    rw [active]
    exact (singleton_sublist.mpr (mem_of_mem_filter inFront)).append (singleton_sublist.mpr mem_cons_self)

theorem pending_descheduled (wellFormed : order.WellFormed) (allowed : order.Allows (.descheduled task)) :
    (order.after (.descheduled task)).pending = order.pending := by
  have runs : task ∈ order.running := allowed
  simp only [pending, after]
  rw [wellFormed.nodup.erase_eq_filter, filter_filter]
  apply filter_congr
  intro other _
  by_cases same : other = task
  · subst same
    simp [runs]
  · simp [same, mem_erase_of_ne same]

end Pending

/-- The tasks that were returned, followed by those that are pending, are all tasks in the order of their submission but
    for moves before independent tasks, unless tasks were cleared. -/
structure Serial (history : List Event) (order : Order) (cleared : Nat) : Prop where
  wellFormed : order.WellFormed
  total : (submittedTasks history).length = (descheduledTasks history).length + order.active.length + cleared
  kept : (∀ count, .cleared count ∉ history) → cleared = 0
  rearranged : cleared = 0 → Rearranged (Independent Task.Touches Task.Writes) (submittedTasks history)
    (returnedTasks history ++ order.pending)

theorem serial_step (serial : Serial history order cleared) (allowed : order.Allows event) :
    ∃ cleared, Serial (history ++ [event]) (order.after event) cleared := by
  obtain ⟨wellFormed, total, kept, same⟩ := serial
  have formed := wellFormed.after allowed
  have keeps : (∀ count, .cleared count ∉ history ++ [event]) → cleared = 0 :=
    fun none => kept (fun count mem => none count (mem_append_left _ mem))
  have submissions : submittedTasks (history ++ [event]) = submittedTasks history ++ submittedTasks [event] :=
    filterMap_append
  have returns : returnedTasks (history ++ [event]) = returnedTasks history ++ returnedTasks [event] :=
    filterMap_append
  have ends : descheduledTasks (history ++ [event]) = descheduledTasks history ++ descheduledTasks [event] :=
    filterMap_append
  cases event with
  | submitted task =>
    change submittedTasks _ = _ ++ [task] at submissions
    change returnedTasks _ = _ ++ [] at returns
    change descheduledTasks _ = _ ++ [] at ends
    rw [append_nil] at returns ends
    refine ⟨cleared, formed, ?_, keeps, ?_⟩
    · rw [submissions, ends, after, length_append, length_append, total]
      omega
    · intro none
      rw [submissions, returns, pending_submitted wellFormed allowed, ← append_assoc]
      exact (same none).append [task]
  | returned =>
    change submittedTasks _ = _ ++ [] at submissions
    change descheduledTasks _ = _ ++ [] at ends
    rw [append_nil] at submissions ends
    obtain ⟨_, _, pendingBefore, pendingAfter, apart⟩ := pending_returned wellFormed allowed
    refine ⟨cleared, formed, ?_, keeps, ?_⟩
    · rw [submissions, ends]
      exact total
    · intro none
      have before := same none
      rw [pendingBefore] at before
      rw [submissions, returns, pendingAfter, append_assoc]
      exact before.move (fun other mem => independent_of_not_conflicts (apart other mem))
  | descheduled task =>
    change submittedTasks _ = _ ++ [] at submissions
    change returnedTasks _ = _ ++ [] at returns
    change descheduledTasks _ = _ ++ [task] at ends
    rw [append_nil] at submissions returns
    refine ⟨cleared, formed, ?_, keeps, ?_⟩
    · have fewer := length_erase_add_one (wellFormed.running allowed)
      have left : (order.after (.descheduled task)).active = order.active.erase task := rfl
      rw [submissions, ends, total, ← fewer, left, length_append, length_singleton]
      omega
    · intro none
      rw [submissions, returns, pending_descheduled wellFormed allowed]
      exact same none
  | cleared count =>
    change submittedTasks _ = _ ++ [] at submissions
    change returnedTasks _ = _ ++ [] at returns
    change descheduledTasks _ = _ ++ [] at ends
    rw [append_nil] at submissions returns ends
    refine ⟨cleared + order.active.length, formed, ?_, ?_, ?_⟩
    · rw [submissions, ends, total, after, length_nil]
      omega
    · intro none
      exact absurd (mem_append_right _ (mem_singleton_self _)) (none count)
    intro none
    have inactive : order.active = [] := eq_nil_of_length_eq_zero (by omega)
    have idle : order.pending = [] := by rw [pending, inactive, filter_nil]
    have before := same (by omega)
    rw [idle] at before
    rw [submissions, returns]
    exact before

theorem Follows.serial (follows : Follows history order) : ∃ cleared, Serial history order cleared := by
  refine record (P := fun history order => ∃ cleared, Serial history order cleared) ?_ follows
    ⟨0, ⟨nodup_nil, refl [], nodup_nil⟩, rfl, fun _ => rfl, fun _ => .refl⟩
  rintro done order event after ⟨cleared, serial⟩ allowed ⟨⟩
  exact serial_step serial allowed

/-- Without active tasks, and if none was cleared, the tasks were returned in the order of their submission but for
    moves before independent tasks. -/
theorem Serial.rearranged_of_inactive (serial : Serial history order cleared) (inactive : order.active = [])
    (none : cleared = 0) :
    Rearranged (Independent Task.Touches Task.Writes) (submittedTasks history) (returnedTasks history) := by
  have idle : order.pending = [] := by rw [pending, inactive, filter_nil]
  have all := serial.rearranged none
  rwa [idle, append_nil] at all

theorem Follows.rearranged (follows : Follows history order)
    (completed : (descheduledTasks history).Perm (submittedTasks history)) :
    Rearranged (Independent Task.Touches Task.Writes) (submittedTasks history) (returnedTasks history) := by
  obtain ⟨cleared, serial⟩ := follows.serial
  have total := serial.total
  have equal := completed.length_eq
  exact serial.rearranged_of_inactive (eq_nil_of_length_eq_zero (by omega)) (by omega)

end Order

/-- Order preservation: of two conflicting tasks the first one is descheduled before the second one is returned, and a
    session that completes all its tasks computes what they compute one by one in the order of their submission. -/
theorem order_preservation (maxRunningTaskCount : Option Nat) (pos : ∀ count ∈ maxRunningTaskCount, 1 ≤ count)
    (session : Session) (reached : session.Reached maxRunningTaskCount) :
    (∀ (a b : Task) (before between waiting rest : List Event), a.Conflicts b →
      session.history = before ++ .submitted a :: (between ++ .submitted b :: (waiting ++ .returned b :: rest)) →
      ∃ event ∈ between ++ waiting, event.Ends a) ∧
    ((descheduledTasks session.history).Perm (submittedTasks session.history) →
      (returnedTasks session.history).Perm (submittedTasks session.history) ∧
      ∀ (V : Type) (execute : Task → (Pubkey → V) → Pubkey → V),
        Footprint execute Task.Touches Task.Writes → ∀ store,
          perform execute (returnedTasks session.history) store =
            perform execute (submittedTasks session.history) store) := by
  have inOrder := reached.inOrder (reached.bounds pos)
  constructor
  · intro a b before between waiting rest conflict history
    rw [Session.InOrder, history] at inOrder
    exact ends_before_return inOrder conflict
  · intro completed
    have rearranged := inOrder.rearranged completed
    refine ⟨rearranged.perm, ?_⟩
    intro V execute footprint store
    exact footprint.perform_rearranged rearranged store

namespace Sample

/-- All tasks complete, the last one before the one that was submitted before it. -/
def completingCalls : List Call :=
  [.scheduleTask writer, .scheduleTask reader, .bufferTask bystander, .descheduleTask writer,
    .scheduleNextUnblockedTask, .descheduleTask bystander, .scheduleNextUnblockedTask, .descheduleTask reader]

def completed : Session :=
  (exec (fun call session => Session.call session call) Session.Permits completingCalls
    (Session.start (.new 1))).getD (Session.start (.new 1))

theorem completed_history : completed.history =
    [.submitted writer, .returned writer, .submitted reader, .submitted bystander, .descheduled writer,
      .returned bystander, .descheduled bystander, .returned reader, .descheduled reader] := by
  decide

/-- A task sets its writable addresses to the sum of all it reads. -/
def execute (task : Task) (store : Pubkey → Nat) (address : Pubkey) : Nat :=
  if { usageQueue := address, requestedUsage := .writable } ∈ task.lockContexts then
    (task.lockContexts.map fun context => store context.usageQueue).sum + 1
  else store address

theorem execute_footprint : Footprint execute Task.Touches Task.Writes where
  covers := by
    rintro task address ⟨context, mem, here, -⟩
    exact ⟨context, mem, here⟩
  frame := by
    intro task address store unwritten
    refine if_neg ?_
    intro mem
    exact unwritten ⟨_, mem, rfl, rfl⟩
  reads := by
    intro task store store' same address touched
    have values : (task.lockContexts.map fun context => store context.usageQueue) =
        task.lockContexts.map fun context => store' context.usageQueue := by
      apply map_congr_left
      intro context mem
      exact same _ ⟨context, mem, rfl⟩
    rw [execute, execute, values, same address touched]

end Sample

open Sample

/-- The theorem at a session that returns the tasks in another order than that of their submission. -/
theorem order_preservation_sample :
    (∃ event ∈ [Event.returned writer, .submitted bystander, .descheduled writer,
        .returned bystander, .descheduled bystander], event.Ends writer) ∧
    perform execute [writer, bystander, reader] (fun _ => 1) =
      perform execute [writer, reader, bystander] (fun _ => 1) := by
  have pos : ∀ count ∈ some 1, 1 ≤ count := by
    rintro count ⟨⟩
    exact le_rfl
  obtain ⟨ordered, serial⟩ := order_preservation (some 1) pos completed (reached_of_returns (by decide))
  rw [completed_history] at ordered serial
  constructor
  · exact ordered writer reader [] [.returned writer]
      [.submitted bystander, .descheduled writer, .returned bystander,
        .descheduled bystander] [.descheduled reader] (by decide) rfl
  · exact (serial (by decide)).2 Nat execute execute_footprint (fun _ => 1)

end

open Lib Lib.ReaderWriter List SchedulingStateMachine

/-- The tasks that stand in the queue of blocked usages of some address. -/
def SchedulingStateMachine.Blocks (machine : SchedulingStateMachine) (task : Task) : Prop :=
  ∃ address requested, (requested, task) ∈ (machine.usageQueues address).blockedUsagesFromTasks

section Blocked

variable {active running : List Task} {task : Task}

/-- A task stands in a queue exactly if it is active and waits for something. -/
theorem blocks_iff (consistent : Consistent limit active running machine) :
    machine.Blocks task ↔ task ∈ active ∧ task.waitsIn (lineAt active) ≠ 0 := by
  have queue : ∀ address, (machine.usageQueues address).blockedUsagesFromTasks =
      waiting isReadonly (lineAt active address) := by
    intro address
    rw [consistent.placed.tracked]
    rfl
  constructor
  · rintro ⟨address, requested, blocked⟩
    rw [queue] at blocked
    obtain ⟨mem, context⟩ := mem_lineAt.mp (mem_granted_or_waiting.mpr (.inr blocked))
    refine ⟨mem, ?_⟩
    intro ready
    have free := countP_eq_zero.mp ready _ context
    rw [decide_eq_true_eq] at free
    exact free blocked
  · rintro ⟨-, waits⟩
    obtain ⟨context, -, blocked⟩ := countP_pos_iff.mp (Nat.pos_of_ne_zero waits)
    rw [decide_eq_true_eq] at blocked
    refine ⟨context.usageQueue, context.requestedUsage, ?_⟩
    rwa [queue]

theorem active_partition (consistent : Consistent limit active running machine) :
    ∃ blocked : List Task, (∀ task, task ∈ blocked ↔ machine.Blocks task) ∧
      (running ++ machine.unblockedTaskQueue ++ blocked).Perm active := by
  refine ⟨active.filter (fun task => !decide (task.waitsIn (lineAt active) = 0)), ?_, ?_⟩
  · intro task
    rw [blocks_iff consistent, mem_filter]
    simp
  · exact (consistent.placed.ready.append_right _).trans (filter_append_perm _ active)

end Blocked

/-! ### Running the next unblocked task -/

section Drain

variable {session : Session}

/-- Runs the next unblocked task and deschedules it. -/
def drainCalls (tasks : List Task) : List Call :=
  tasks.flatMap fun task => [.scheduleNextUnblockedTask, .descheduleTask task]

def drainEvents (tasks : List Task) : List Event := tasks.flatMap fun task => [.returned task, .descheduled task]

theorem cleared_not_mem_drainEvents (tasks count) : .cleared count ∉ drainEvents tasks := by
  simp [drainEvents]

theorem drain_step (sound : session.Sound limit) (idle : session.running = []) (some : session.active ≠ [])
    (room : session.machine.unblockedTaskCount + session.active.length < 2 ^ 32) :
    ∃ task after, task ∈ session.active ∧
      Run (fun call session => Session.call session call) Session.Permits session
        [.scheduleNextUnblockedTask, .descheduleTask task] after ∧
      after.history = session.history ++ [.returned task, .descheduled task] ∧
      after.active = session.active.erase task ∧ after.running = [] ∧
      after.machine.unblockedTaskCount = session.machine.unblockedTaskCount + 1 ∧ after.Sound limit := by
  have consistent : Consistent limit session.active [] session.machine := by
    rw [← idle]
    exact sound
  obtain ⟨task, rest, queue⟩ := exists_cons_of_ne_nil (exists_unblocked consistent some)
  have someActive := length_pos_iff.mpr some
  rcases scheduleNextUnblockedTask_some consistent consistent.pos queue with
    ⟨full, -⟩ | ⟨middle, scheduled, counted, -, running⟩
  · omega
  obtain ⟨last, descheduled, countedSame, -, rested⟩ :=
    descheduleTask_spec running (mem_append_right [] (mem_singleton_self task))
  have mem : task ∈ session.active := (running.mem_ready.mp
    (mem_append_left _ (mem_append_right [] (mem_singleton_self task)))).1
  have none : ([] ++ [task]).erase task = [] := by simp
  rw [none] at rested
  refine ⟨task, {
    machine := last
    active := session.active.erase task
    running := []
    history := session.history ++ [.returned task, .descheduled task] }, mem, ?_, rfl, rfl, rfl, ?_, rested⟩
  · have runs : session.call .scheduleNextUnblockedTask = .ok { session with
        machine := middle
        running := [task]
        history := session.history ++ [.returned task] } := by
      simp only [Session.call, scheduled, idle]
      rfl
    refine .cons trivial runs (.cons ?_ ?_ (.refl _))
    · exact mem_singleton_self task
    · simp only [Session.call, descheduled, erase_cons_head, append_assoc]
      rfl
  · exact countedSame.trans counted

theorem drain (sound : session.Sound limit) (idle : session.running = [])
    (room : session.machine.unblockedTaskCount + session.active.length < 2 ^ 32) :
    ∃ tasks after, tasks.Perm session.active ∧
      Run (fun call session => Session.call session call) Session.Permits session (drainCalls tasks) after ∧
      after.history = session.history ++ drainEvents tasks ∧ after.active = [] := by
  induction count : session.active.length generalizing session with
  | zero =>
    have inactive := eq_nil_of_length_eq_zero count
    refine ⟨[], session, ?_, .refl session, (append_nil _).symm, inactive⟩
    rw [inactive]
  | succ fewer ih =>
    have some : session.active ≠ [] := ne_nil_of_length_eq_add_one count
    obtain ⟨task, middle, mem, first, history, active, running, counted, kept⟩ := drain_step sound idle some room
    have left := length_erase_add_one mem
    rw [← active] at left
    obtain ⟨tasks, after, perm, rest, historyAfter, inactive⟩ := ih kept running (by omega) (by omega)
    refine ⟨task :: tasks, after, ?_, first.trans rest, ?_, inactive⟩
    · rw [active] at perm
      exact (perm.cons task).trans (perm_cons_erase mem).symm
    · rw [historyAfter, history, append_assoc]
      rfl

end Drain

/-- Nothing is lost: the active tasks run, are unblocked or are blocked. Nothing is stuck: if none of them runs, one is
    unblocked, and running the next unblocked one again and again returns each of them, and every task that was ever
    submitted, once. Without active tasks the usage queues are unused, and clearing returns the number of the tasks
    and leaves the state machine as it was created. -/
theorem nothing_lost (maxRunningTaskCount : Option Nat) (pos : ∀ count ∈ maxRunningTaskCount, 1 ≤ count)
    (session : Session) (reached : session.Reached maxRunningTaskCount) :
    (∃ blocked : List Task, (∀ task, task ∈ blocked ↔ session.machine.Blocks task) ∧
      session.active.Nodup ∧ (session.running ++ session.machine.unblockedTaskQueue ++ blocked).Perm session.active ∧
      session.machine.activeTaskCount =
        session.running.length + session.machine.unblockedTaskQueue.length + blocked.length) ∧
    (session.machine.activeTaskCount ≠ 0 → session.machine.runningTaskCount = 0 →
      session.machine.unblockedTaskQueue ≠ []) ∧
    (session.machine.activeTaskCount = 0 → ∀ address, session.machine.usageQueues address = {}) ∧
    (session.machine.runningTaskCount = 0 →
      session.machine.unblockedTaskCount + session.machine.activeTaskCount < 2 ^ 32 →
      (∃ tasks after, tasks.Perm session.active ∧
        Run (fun call session => Session.call session call) Session.Permits session (drainCalls tasks) after ∧
        after.history = session.history ++ drainEvents tasks ∧ after.active = [] ∧
        ((∀ count, .cleared count ∉ session.history) →
          (returnedTasks after.history).Perm (submittedTasks after.history))) ∧
      ∃ machine, clearAndReinitialize session.machine = .ok (session.active.length, machine) ∧
        Rewound machine) ∧
    (session.machine.runningTaskCount = 0 → session.machine.totalTaskCount < 2 ^ 31 →
      session.machine.unblockedTaskCount + session.machine.activeTaskCount < 2 ^ 32) := by
  have sound := reached.sound (reached.bounds pos)
  obtain ⟨maximum, activeTasks, runningTasks, limited, handled, total, unblocked, fits⟩ := sound.counted
  rw [activeTasks, runningTasks, ne_eq, length_eq_zero_iff, length_eq_zero_iff]
  refine ⟨?_, ?_, ?_, ?_, ?_⟩
  · obtain ⟨blocked, mem, perm⟩ := active_partition sound
    refine ⟨blocked, mem, sound.nodup, perm, ?_⟩
    rw [← perm.length_eq, length_append, length_append]
  · intro some idle
    rw [Session.Sound, idle] at sound
    exact exists_unblocked sound some
  · intro inactive
    rw [Session.Sound, inactive] at sound
    exact usageQueues_initial sound
  · intro idle room
    constructor
    · obtain ⟨tasks, after, perm, run, history, inactive⟩ := drain sound idle room
      refine ⟨tasks, after, perm, run, history, inactive, ?_⟩
      intro uncleared
      have inOrder := (reached.trans run).inOrder (reached.bounds pos)
      obtain ⟨_, serial⟩ := Order.Follows.serial inOrder
      refine (serial.rearranged_of_inactive inactive (serial.kept ?_)).perm
      intro count mem
      rw [history, mem_append] at mem
      exact mem.elim (uncleared count) (cleared_not_mem_drainEvents tasks count)
    · rw [Session.Sound, idle] at sound
      rcases clearAndReinitialize_spec sound with ⟨machine, cleared, -, rewound, -⟩ | ⟨-, many⟩
      · exact ⟨machine, cleared, rewound⟩
      · omega
  · intro idle few
    rw [idle, length_nil] at unblocked
    omega

namespace Sample

/-- One task is unblocked and another one waits for it. -/
def waitingCalls : List Call := [.bufferTask writer, .bufferTask reader]

def waitingSession : Session :=
  (exec (fun call session => Session.call session call) Session.Permits waitingCalls
    (Session.start (.new 1))).getD (Session.start (.new 1))

/-- Clearing many buffered tasks counts each of them a second time. -/
theorem buffered_clear_overflows {count : Nat} (room : count < 2 ^ 32) (full : 2 ^ 32 ≤ count + count) :
    clearAndReinitialize (buffered count).machine = .error (.overflow .unblockedTaskCount) := by
  have bounds : Bounds (some 1) := by
    rintro limit ⟨⟩
    exact ⟨by decide, by decide⟩
  have sound := (buffered_reached room).sound bounds
  have active : (buffered count).active.length = count := by
    rw [buffered, tasks, length_map, length_range]
  have unblocked : (buffered count).machine.unblockedTaskCount = count := rfl
  rcases clearAndReinitialize_spec sound with ⟨-, -, fits, -⟩ | ⟨overflows, -⟩
  · omega
  · exact overflows

end Sample

open Sample

/-- The theorem at a session with an unblocked and a blocked task. -/
theorem nothing_lost_sample :
    waitingSession.machine.unblockedTaskQueue = [writer] ∧
    waitingSession.active = [writer, reader] ∧
    (∃ tasks after, tasks.Perm [writer, reader] ∧
      Run (fun call session => Session.call session call) Session.Permits waitingSession (drainCalls tasks)
        after ∧
      (returnedTasks after.history).Perm (submittedTasks after.history)) ∧
    ∃ machine, clearAndReinitialize waitingSession.machine = .ok (2, machine) ∧
      Rewound machine := by
  have pos : ∀ count ∈ some 1, 1 ≤ count := by
    rintro count ⟨⟩
    exact le_rfl
  have active : waitingSession.active = [writer, reader] := by decide
  have submissions : waitingSession.history = [.submitted writer, .submitted reader] := by decide
  obtain ⟨-, -, -, idle, -⟩ := nothing_lost (some 1) pos waitingSession (reached_of_returns (by decide))
  obtain ⟨⟨tasks, after, perm, run, -, -, returned⟩, cleared⟩ := idle (by decide) (by decide)
  rw [active] at perm cleared
  refine ⟨by decide, active, ⟨tasks, after, perm, run, returned ?_⟩, cleared⟩
  rw [submissions]
  simp

/-- With 2 ^ 31 buffered tasks the state machine cannot be cleared. -/
theorem clearing_overflows :
    (buffered (2 ^ 31)).Reached (some 1) ∧
    (buffered (2 ^ 31)).Permits Call.clearAndReinitialize ∧
    clearAndReinitialize (buffered (2 ^ 31)).machine = .error (.overflow .unblockedTaskCount) :=
  ⟨buffered_reached (by decide), rfl, buffered_clear_overflows (by decide) (by decide)⟩

end Payout.Scheduler
