/-
Purpose: The slot toggle that activates and deactivates features by slot time. A toggle stores two slot numbers and
  its state is decoded from them, their order and the current epoch; it only ever moves along Inactive, WarmUp, Active,
  Cooldown and back to Inactive.
Source: core/src/slot_toggle.rs
-/
import Payout.Restaking.Core
import Payout.Lib.Run

namespace Payout.Restaking

open Lib

/-- The slots at which a feature was last added and last removed. -/
structure SlotToggle where
  slotAdded : Nat
  slotRemoved : Nat
deriving DecidableEq, Repr

/-- The state of a toggle. -/
inductive SlotToggleState where
  | inactive
  | warmUp
  | active
  | cooldown
deriving DecidableEq, Repr

namespace SlotToggle

/-- A new toggle is inactive: both slots are the slot of its creation. -/
def new (slot : Nat) : SlotToggle :=
  { slotAdded := slot, slotRemoved := slot }

variable (toggle : SlotToggle)

/-- The state at a slot, decoded from the two stored slots. -/
def state (slot epochLength : Nat) : Except ProgramError SlotToggleState := do
  let currentEpoch ← getEpoch slot epochLength
  match compare toggle.slotAdded toggle.slotRemoved with
  | .eq => pure .inactive
  | .lt =>
    let slotRemovedEpoch ← getEpoch toggle.slotRemoved epochLength
    let cooldownEpoch ← okOr (checkedAdd 64 slotRemovedEpoch 1) .arithmeticOverflow
    if currentEpoch > cooldownEpoch then pure .inactive else pure .cooldown
  | .gt =>
    let slotAddedEpoch ← getEpoch toggle.slotAdded epochLength
    let warmUpEpoch ← okOr (checkedAdd 64 slotAddedEpoch 1) .arithmeticOverflow
    if currentEpoch > warmUpEpoch then pure .active else pure .warmUp

/-- Activate an inactive feature. The boolean says whether the call took effect. -/
def activate (slot epochLength : Nat) : Except ProgramError (Bool × SlotToggle) := do
  match ← toggle.state slot epochLength with
  | .inactive =>
    -- only possible on the first activation, at the slot of the creation
    if toggle.slotAdded = slot then pure (false, toggle)
    else pure (true, { toggle with slotAdded := slot })
  | _ => pure (false, toggle)

/-- Deactivate an active feature. The boolean says whether the call took effect. -/
def deactivate (slot epochLength : Nat) : Except ProgramError (Bool × SlotToggle) := do
  match ← toggle.state slot epochLength with
  | .active => pure (true, { toggle with slotRemoved := slot })
  | _ => pure (false, toggle)

/-! ### The state by the order of the two slots -/

variable {toggle : SlotToggle} {slot epochLength : Nat}

theorem state_of_eq (pos : 0 < epochLength) (same : toggle.slotAdded = toggle.slotRemoved) :
    toggle.state slot epochLength = .ok .inactive := by
  simp [state, getEpoch_of_pos pos, same, bind, Except.bind, pure, Except.pure]

theorem next_epoch (fits : slot / epochLength < u64Max) :
    checkedAdd 64 (slot / epochLength) 1 = some (slot / epochLength + 1) := by
  simp only [checkedAdd_eq_some, and_true]
  unfold u64Max at fits
  omega

/-- After a removal the toggle cools down through the next epoch and is inactive from then on. -/
theorem state_of_lt (pos : 0 < epochLength) (removed : toggle.slotAdded < toggle.slotRemoved)
    (fits : toggle.slotRemoved / epochLength < u64Max) :
    toggle.state slot epochLength = .ok
      (if slot / epochLength > toggle.slotRemoved / epochLength + 1 then .inactive else .cooldown) := by
  have order : compare toggle.slotAdded toggle.slotRemoved = .lt := Nat.compare_eq_lt.mpr removed
  simp only [state, getEpoch_of_pos pos, order, next_epoch fits, okOr, bind, Except.bind, pure, Except.pure]
  split <;> rfl

/-- After an addition the toggle warms up through the next epoch and is active from then on. -/
theorem state_of_gt (pos : 0 < epochLength) (added : toggle.slotRemoved < toggle.slotAdded)
    (fits : toggle.slotAdded / epochLength < u64Max) :
    toggle.state slot epochLength = .ok
      (if slot / epochLength > toggle.slotAdded / epochLength + 1 then .active else .warmUp) := by
  have order : compare toggle.slotAdded toggle.slotRemoved = .gt := Nat.compare_eq_gt.mpr added
  simp only [state, getEpoch_of_pos pos, order, next_epoch fits, okOr, bind, Except.bind, pure, Except.pure]
  split <;> rfl

end SlotToggle

open SlotToggle

variable {early late epochLength slot creation : Nat}

/-- A toggle with the slot of the last call on it. -/
structure ToggleClock where
  toggle : SlotToggle
  slot : Nat
deriving DecidableEq, Repr

/-- The two calls on a toggle. -/
inductive ToggleCall where
  | activate
  | deactivate
deriving DecidableEq, Repr

/-- The next state on the cycle. -/
def SlotToggleState.next : SlotToggleState → SlotToggleState
  | .inactive => .warmUp
  | .warmUp => .active
  | .active => .cooldown
  | .cooldown => .inactive

/-- The state a successful call starts. -/
def ToggleCall.starts : ToggleCall → SlotToggleState
  | .activate => .warmUp
  | .deactivate => .cooldown

/-- The state a successful call leads to once its warm-up or cooldown is over. -/
def ToggleCall.settles : ToggleCall → SlotToggleState
  | .activate => .active
  | .deactivate => .inactive

/-- Staying in a state or moving one step along the cycle. -/
def SlotToggleState.Moves (before after : SlotToggleState) : Prop :=
  after = before ∨ after = before.next

namespace ToggleClock

/-- Run one call on the toggle at a slot. -/
def call (clock : ToggleClock) (event : ToggleCall) (slot epochLength : Nat) :
    Except ProgramError (Bool × SlotToggle) :=
  match event with
  | .activate => clock.toggle.activate slot epochLength
  | .deactivate => clock.toggle.deactivate slot epochLength

/-- One call as a step: the toggle it leaves, and the slot it was made at. -/
def apply (epochLength : Nat) (event : ToggleCall × Nat) (clock : ToggleClock) : Except ProgramError ToggleClock := do
  let (_, toggle) ← clock.call event.1 event.2 epochLength
  pure { toggle := toggle, slot := event.2 }

/-- Calls are made at nondecreasing slots whose epoch has a successor. -/
def Timely (epochLength : Nat) (clock : ToggleClock) (event : ToggleCall × Nat) : Prop :=
  clock.slot ≤ event.2 ∧ event.2 / epochLength < u64Max

/-- A timely call that does not take effect. -/
def Idle (epochLength : Nat) (clock : ToggleClock) (event : ToggleCall × Nat) : Prop :=
  Timely epochLength clock event ∧
    clock.call event.1 event.2 epochLength = .ok (false, clock.toggle)

/-- Runs of timely calls from the creation of a toggle. -/
abbrev Reached (epochLength creation : Nat) (events : List (ToggleCall × Nat)) (clock : ToggleClock) : Prop :=
  Run (apply epochLength) (Timely epochLength) ⟨new creation, creation⟩ events clock

end ToggleClock

/-- The invariant of a toggle at `now`: both slots are past, and unless they are still equal the later one
    was written by a call at a slot whose epoch has a successor. -/
structure SlotToggle.Settled (epochLength now : Nat) (toggle : SlotToggle) : Prop where
  addedPast : toggle.slotAdded ≤ now
  removedPast : toggle.slotRemoved ≤ now
  fits : toggle.slotAdded ≠ toggle.slotRemoved →
    toggle.slotAdded / epochLength < u64Max ∧ toggle.slotRemoved / epochLength < u64Max

namespace SlotToggle

variable {toggle : SlotToggle} {now : Nat}

/-- A state that turns into the next one once an epoch is over moves along the cycle. -/
theorem moves_of_le (next : after = before.next) (le : early ≤ late) (bound) :
    SlotToggleState.Moves (if early > bound then after else before)
      (if late > bound then after else before) := by
  by_cases earlyOver : early > bound
  · have lateOver : late > bound := by omega
    simp [earlyOver, lateOver, SlotToggleState.Moves]
  · by_cases lateOver : late > bound
    · simp [earlyOver, lateOver, SlotToggleState.Moves, next]
    · simp [earlyOver, lateOver, SlotToggleState.Moves]

section

variable (settled : toggle.Settled epochLength now) (pos : 0 < epochLength)
include settled pos

/-- A settled toggle has a state at every slot, and between any two later slots it moves along the cycle. -/
theorem Settled.moves (le : early ≤ late) :
    ∃ before after, toggle.state early epochLength = .ok before ∧
      toggle.state late epochLength = .ok after ∧ before.Moves after := by
  have epochs : early / epochLength ≤ late / epochLength := Nat.div_le_div_right le
  rcases lt_trichotomy toggle.slotAdded toggle.slotRemoved with removed | same | added
  · have fits := (settled.fits (by omega)).2
    exact ⟨_, _, state_of_lt pos removed fits, state_of_lt pos removed fits, moves_of_le rfl epochs _⟩
  · exact ⟨_, _, state_of_eq pos same, state_of_eq pos same, .inl rfl⟩
  · have fits := (settled.fits (by omega)).1
    exact ⟨_, _, state_of_gt pos added fits, state_of_gt pos added fits, moves_of_le rfl epochs _⟩

/-- An inactive settled toggle was last removed strictly before any slot it can be activated at. -/
theorem Settled.removed_lt_of_inactive (later : now ≤ slot) (inactive : toggle.state slot epochLength = .ok .inactive)
    (fresh : toggle.slotAdded ≠ slot) : toggle.slotRemoved < slot := by
  have addedPast := settled.addedPast
  rcases lt_trichotomy toggle.slotAdded toggle.slotRemoved with removed | same | added
  · rw [state_of_lt pos removed (settled.fits (by omega)).2] at inactive
    by_contra notLater
    have epochs : slot / epochLength ≤ toggle.slotRemoved / epochLength :=
      Nat.div_le_div_right (by omega)
    have notOver : ¬ slot / epochLength > toggle.slotRemoved / epochLength + 1 := by omega
    simp [notOver] at inactive
  · omega
  · omega

/-- An active settled toggle was last added strictly before, and last removed before that. -/
theorem Settled.added_lt_of_active (active : toggle.state slot epochLength = .ok .active) :
    toggle.slotRemoved < toggle.slotAdded ∧ toggle.slotAdded < slot := by
  rcases lt_trichotomy toggle.slotAdded toggle.slotRemoved with removed | same | added
  · rw [state_of_lt pos removed (settled.fits (by omega)).2] at active
    split at active <;> simp at active
  · rw [state_of_eq pos same] at active
    simp at active
  refine ⟨added, ?_⟩
  rw [state_of_gt pos added (settled.fits (by omega)).1] at active
  by_contra notLater
  have epochs : slot / epochLength ≤ toggle.slotAdded / epochLength :=
    Nat.div_le_div_right (by omega)
  have notOver : ¬ slot / epochLength > toggle.slotAdded / epochLength + 1 := by omega
  simp [notOver] at active

end

end SlotToggle

/-- What one timely call on a settled toggle does: it takes effect exactly in the state before the one it
    starts, and then the toggle stays in the started state through the next epoch. -/
structure CallOutcome (epochLength : Nat) (clock : ToggleClock) (event : ToggleCall) (slot : Nat)
    (before : SlotToggleState) (effect : Bool) (toggle : SlotToggle) : Prop where
  /-- The call returns this flag and this toggle. -/
  result : clock.call event slot epochLength = .ok (effect, toggle)
  /-- A call without effect changes nothing. -/
  unchanged : effect = false → toggle = clock.toggle
  /-- A call with effect leaves the state before the one it starts. -/
  leaves : effect = true → before.next = event.starts
  /-- The state a call starts lasts for the rest of its epoch and the whole next one. -/
  lasts : effect = true → ∀ later, slot ≤ later → toggle.state later epochLength = .ok
    (if later / epochLength > slot / epochLength + 1 then event.settles else event.starts)

/-- Every timely call on a settled toggle has an outcome, and leaves a settled toggle. -/
theorem call_outcome (pos : 0 < epochLength) (settled : clock.toggle.Settled epochLength clock.slot)
    (timely : ToggleClock.Timely epochLength clock (event, slot)) :
    ∃ before effect toggle, clock.toggle.state slot epochLength = .ok before ∧
      CallOutcome epochLength clock event slot before effect toggle ∧
      toggle.Settled epochLength slot := by
  obtain ⟨later, fitsNow⟩ := timely
  obtain ⟨before, _, atSlot, _, _⟩ := settled.moves pos (le_refl slot)
  have idle : clock.toggle.Settled epochLength slot :=
    ⟨settled.addedPast.trans later, settled.removedPast.trans later, settled.fits⟩
  cases event with
  | activate =>
    cases before with
    | inactive =>
      by_cases creation : clock.toggle.slotAdded = slot
      · refine ⟨.inactive, false, clock.toggle, atSlot, ⟨?_, by simp, by simp, by simp⟩, idle⟩
        simp [ToggleClock.call, activate, atSlot, creation, bind, Except.bind, pure, Except.pure]
      have removed := settled.removed_lt_of_inactive pos later atSlot creation
      refine ⟨.inactive, true, { clock.toggle with slotAdded := slot }, atSlot,
        ⟨?_, by simp, fun _ => rfl, ?_⟩, ⟨le_refl slot, removed.le, ?_⟩⟩
      · simp [ToggleClock.call, activate, atSlot, creation, bind, Except.bind, pure, Except.pure]
      · intro _ query _
        exact state_of_gt pos removed fitsNow
      · intro _
        have epochs : clock.toggle.slotRemoved / epochLength ≤ slot / epochLength := Nat.div_le_div_right removed.le
        exact ⟨fitsNow, lt_of_le_of_lt epochs fitsNow⟩
    | warmUp | active | cooldown =>
      refine ⟨_, false, clock.toggle, atSlot, ⟨?_, by simp, by simp, by simp⟩, idle⟩
      simp [ToggleClock.call, activate, atSlot, bind, Except.bind, pure, Except.pure]
  | deactivate =>
    cases before with
    | active =>
      obtain ⟨_, added⟩ := settled.added_lt_of_active pos atSlot
      refine ⟨.active, true, { clock.toggle with slotRemoved := slot }, atSlot,
        ⟨?_, by simp, fun _ => rfl, ?_⟩, ⟨added.le, le_refl slot, ?_⟩⟩
      · simp [ToggleClock.call, deactivate, atSlot, bind, Except.bind, pure, Except.pure]
      · intro _ query _
        exact state_of_lt pos added fitsNow
      · intro _
        have epochs : clock.toggle.slotAdded / epochLength ≤ slot / epochLength := Nat.div_le_div_right added.le
        exact ⟨lt_of_le_of_lt epochs fitsNow, fitsNow⟩
    | inactive | warmUp | cooldown =>
      refine ⟨_, false, clock.toggle, atSlot, ⟨?_, by simp, by simp, by simp⟩, idle⟩
      simp [ToggleClock.call, deactivate, atSlot, bind, Except.bind, pure, Except.pure]

theorem settled_step (pos : 0 < epochLength) (clock event after)
    (settled : clock.toggle.Settled epochLength clock.slot) (timely : ToggleClock.Timely epochLength clock event)
    (taken : ToggleClock.apply epochLength event clock = .ok after) : after.toggle.Settled epochLength after.slot := by
  obtain ⟨_, _, _, _, outcome, kept⟩ := call_outcome pos settled timely
  simp only [ToggleClock.apply, outcome.result, bind, Except.bind, pure, Except.pure, Except.ok.injEq] at taken
  subst taken
  exact kept

theorem settled_run (pos : 0 < epochLength) (reached : ToggleClock.Reached epochLength creation events clock) :
    clock.toggle.Settled epochLength clock.slot :=
  Run.invariant (P := fun clock => clock.toggle.Settled epochLength clock.slot)
    (settled_step pos) reached ⟨le_refl creation, le_refl creation, fun differ => (differ rfl).elim⟩

/-! ### The state until the next successful call -/

/-- A run of calls without effect leaves the toggle as it was, at a slot no earlier than before. -/
theorem toggle_of_idle_run
    (run : Run (ToggleClock.apply epochLength) (ToggleClock.Idle epochLength) before events after) :
    after.toggle = before.toggle ∧ before.slot ≤ after.slot := by
  induction run with
  | refl => exact ⟨rfl, le_refl _⟩
  | cons meets taken _ ih =>
    obtain ⟨timely, unchanged⟩ := meets
    simp only [ToggleClock.apply, unchanged, bind, Except.bind, pure, Except.pure, Except.ok.injEq] at taken
    subst taken
    exact ⟨ih.1, timely.1.trans ih.2⟩

/-- After any sequence of calls on a new toggle at nondecreasing slots, each in an epoch that has a successor:
    as time passes the observed state stays or moves one step along the cycle; a call moves it at most one
    step, and returns true exactly when that step enters the state the call starts; and after a call that
    returned true the started state lasts for the rest of its epoch and the whole next one, and the settled
    state from then on, until the next call that takes effect. -/
theorem toggle_follows_cycle (epochLength creation : Nat) (pos : 0 < epochLength)
    (events : List (ToggleCall × Nat)) (clock : ToggleClock)
    (reached : ToggleClock.Reached epochLength creation events clock) :
    (∀ early late, clock.slot ≤ early → early ≤ late →
      ∃ before after, clock.toggle.state early epochLength = .ok before ∧
        clock.toggle.state late epochLength = .ok after ∧ before.Moves after) ∧
    (∀ event slot, ToggleClock.Timely epochLength clock (event, slot) →
      ∃ before after effect toggle, clock.toggle.state slot epochLength = .ok before ∧
        clock.call event slot epochLength = .ok (effect, toggle) ∧
        toggle.state slot epochLength = .ok after ∧ before.Moves after ∧
        (effect = true ↔ before ≠ after ∧ after = event.starts) ∧
        (effect = false → toggle = clock.toggle) ∧
        (effect = true → ∀ idle last,
          Run (ToggleClock.apply epochLength) (ToggleClock.Idle epochLength) ⟨toggle, slot⟩ idle last →
          ∀ later, last.slot ≤ later → last.toggle.state later epochLength = .ok
            (if later / epochLength ≤ slot / epochLength + 1 then event.starts
              else event.settles))) := by
  have settled := settled_run pos reached
  refine ⟨fun early late _ => settled.moves pos, ?_⟩
  intro event slot timely
  obtain ⟨before, effect, toggle, atSlot, outcome, kept⟩ := call_outcome pos settled timely
  cases effect with
  | false =>
    have same := outcome.unchanged rfl
    refine ⟨before, before, false, toggle, atSlot, outcome.result, same ▸ atSlot, .inl rfl, ?_,
      fun _ => same, ?_⟩ <;> simp
  | true =>
    have started : toggle.state slot epochLength = .ok event.starts := by
      rw [outcome.lasts rfl slot (le_refl slot), if_neg (by omega)]
    have leaves := outcome.leaves rfl
    have moved : before ≠ event.starts := by
      rw [← leaves]
      cases before <;> simp [SlotToggleState.next]
    refine ⟨before, event.starts, true, toggle, atSlot, outcome.result, started, .inr leaves.symm,
      by simp [moved], by simp, ?_⟩
    intro _ idle last run later lastLe
    obtain ⟨same, slotLe⟩ := toggle_of_idle_run run
    rw [same, outcome.lasts rfl later (slotLe.trans lastLe)]
    by_cases settled : later / epochLength > slot / epochLength + 1
    · rw [if_pos settled, if_neg (by omega)]
    · rw [if_neg settled, if_pos (by omega)]

/-- The cycle of a toggle created at slot 100 in epochs of 10 slots, activated at slot 105. -/
theorem toggle_follows_cycle_activated :
    ToggleClock.Reached 10 100 [(.activate, 105)] ⟨⟨105, 100⟩, 105⟩ ∧
      ∃ before after, state ⟨105, 100⟩ 119 10 = .ok before ∧
        state ⟨105, 100⟩ 120 10 = .ok after ∧ before.Moves after := by
  have reached : ToggleClock.Reached 10 100 [(.activate, 105)] ⟨⟨105, 100⟩, 105⟩ :=
    .cons ⟨by decide, by decide⟩ rfl (.refl _)
  exact ⟨reached, (toggle_follows_cycle 10 100 (by decide) _ _ reached).1 119 120 (by decide) (by decide)⟩

/-- In the last epoch of one-slot epochs a call takes effect, and the state it starts cannot be read: the
    epoch after it is not representable. -/
theorem toggle_unreadable_in_last_epoch :
    (ToggleClock.mk (new 0) 0).call .activate u64Max 1 = .ok (true, { slotAdded := u64Max, slotRemoved := 0 }) ∧
      state { slotAdded := u64Max, slotRemoved := 0 } u64Max 1 = .error .arithmeticOverflow := by
  constructor <;> decide

end Payout.Restaking
