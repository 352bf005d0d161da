/-
Purpose: Imperative code that may fail on the way. A loop has a test, a turn and a measure that every turn lowers; it
  is executed with the measure of its start as the number of turns, and the loop equation shows that this is all the
  turns it ever takes. A method that changes a value in place leaves a value behind also when it fails.
-/
import Payout.Lib.Checked

namespace Payout.Lib

section

variable {State Error : Type} {test : State → Bool} {turn : State → Except Error State}
  {measure : State → Nat} {s t : State}

/-- The loop cut off after `turns` turns and one more, which at measure zero can only fail. -/
def whileTurns (test : State → Bool) (turn : State → Except Error State) : Nat → State → Except Error State
  | 0, s => if test s then turn s else .ok s
  | turns + 1, s => if test s then turn s >>= whileTurns test turn turns else .ok s

/-- Take turns while the test holds. -/
def whileLoop (test : State → Bool) (turn : State → Except Error State) (measure : State → Nat) (s : State) :
    Except Error State :=
  whileTurns test turn (measure s) s

/-- Every turn that is taken lowers the measure. -/
def Decreases (test : State → Bool) (turn : State → Except Error State) (measure : State → Nat) : Prop :=
  ∀ s t, test s = true → turn s = .ok t → measure t < measure s

/-- A turn at measure zero fails, so it does not matter what would follow it. -/
theorem turn_at_zero (decreases : Decreases test turn measure) (zero : measure s = 0) (here : test s = true)
    (next : State → Except Error State) : turn s >>= next = turn s := by
  cases taken : turn s with
  | error => rfl
  | ok t => exact absurd (decreases s t here taken) (by omega)

theorem whileTurns_stopped (stopped : ¬ test s = true) (turns : Nat) : whileTurns test turn turns s = .ok s := by
  cases turns <;> rw [whileTurns, if_neg stopped]

section

variable (decreases : Decreases test turn measure)
include decreases

/-- Once the turns cover the measure, their number does not matter. -/
theorem whileTurns_eq {turns turns' : Nat} (enough : measure s ≤ turns) (enough' : measure s ≤ turns') :
    whileTurns test turn turns s = whileTurns test turn turns' s := by
  induction turns generalizing s turns' with
  | zero =>
    have zero : measure s = 0 := Nat.le_zero.mp enough
    cases turns' with
    | zero => rfl
    | succ =>
      by_cases here : test s = true
      · simp only [whileTurns, here, if_true, turn_at_zero decreases zero here]
      · rw [whileTurns_stopped here, whileTurns_stopped here]
  | succ turns ih =>
    by_cases here : test s = true
    · cases turns' with
      | zero =>
        simp only [whileTurns, here, if_true, turn_at_zero decreases (Nat.le_zero.mp enough') here]
      | succ turns' =>
        simp only [whileTurns, here, if_true]
        cases taken : turn s with
        | error => rfl
        | ok t =>
          have lower := decreases s t here taken
          exact ih (by omega) (by omega)
    · rw [whileTurns_stopped here, whileTurns_stopped here]

/-- The loop equation. -/
theorem whileLoop_eq (s : State) :
    whileLoop test turn measure s =
      if test s then turn s >>= whileLoop test turn measure else .ok s := by
  by_cases here : test s = true
  · have unrolled : whileLoop test turn measure s = whileTurns test turn (measure s + 1) s :=
      whileTurns_eq decreases le_rfl (Nat.le_succ _)
    rw [unrolled, whileTurns, if_pos here, if_pos here]
    cases taken : turn s with
    | error => rfl
    | ok t => exact whileTurns_eq decreases (decreases s t here taken).le le_rfl
  · rw [if_neg here, whileLoop, whileTurns_stopped here]

section

variable {P : State → Prop} (kept : ∀ s t, P s → test s = true → turn s = .ok t → P t)

include kept

/-- What every turn keeps holds when the loop ends, and then the test fails. -/
theorem whileLoop_invariant (ended : whileLoop test turn measure s = .ok t) (start : P s) : P t ∧ test t = false := by
  induction size : measure s using Nat.strong_induction_on generalizing s with
  | _ size ih =>
    subst size
    rw [whileLoop_eq decreases] at ended
    split at ended
    · rename_i here
      obtain ⟨m, taken, rest⟩ := bind_ok_iff.mp ended
      exact ih (measure m) (decreases s m here taken) rest (kept s m start here taken) rfl
    · rename_i stopped
      cases ended
      exact ⟨start, Bool.eq_false_iff.mpr stopped⟩

/-- A loop that fails does so in a turn from a state that has what every turn keeps. -/
theorem whileLoop_error {e : Error} (failed : whileLoop test turn measure s = .error e) (start : P s) :
    ∃ t, P t ∧ test t = true ∧ turn t = .error e := by
  induction size : measure s using Nat.strong_induction_on generalizing s with
  | _ size ih =>
    subst size
    rw [whileLoop_eq decreases] at failed
    split at failed
    · rename_i here
      rcases bind_error_iff.mp failed with now | ⟨m, taken, rest⟩
      · exact ⟨s, start, here, now⟩
      · exact ih (measure m) (decreases s m here taken) rest (kept s m start here taken) rfl
    · cases failed

end

end

end

/-- A method on a mutable value. Writes made before a failure stay. -/
abbrev Mutation (S E A : Type) := ExceptT E (StateM S) A

namespace Mutation

variable {S E A B : Type} {method : Mutation S E A} {self : S} {outcome : Except E (A × S)}

/-- Call the method on a value. -/
def call (method : Mutation S E A) (self : S) : Except E A × S := method.run.run self

/-- A call that fails leaves the value as it was. -/
def Atomic (method : Mutation S E A) (self : S) : Prop :=
  ∀ error, (method.call self).1 = .error error → (method.call self).2 = self

/-- The method leaves the value of an outcome that succeeds, and the value it was called on otherwise. -/
def Commits (method : Mutation S E A) (self : S) (outcome : Except E (A × S)) : Prop :=
  method.call self = match outcome with
    | .ok (result, after) => (.ok result, after)
    | .error error => (.error error, self)

theorem Commits.wrote {after : S} (called : method.call self = (.ok result, after)) :
    method.Commits self (.ok (result, after)) :=
  called

/-- A method that reads the value first. -/
theorem Commits.get {next : S → Mutation S E A} (rest : (next self).Commits self outcome) :
    Commits (MonadState.get >>= next) self outcome :=
  rest

/-- A method that begins with a check. -/
theorem Commits.check {checked : Except E B} {next : B → Mutation S E A} {outcome : B → Except E (A × S)}
    (rest : ∀ b, checked = .ok b → (next b).Commits self (outcome b)) :
    Commits (liftM checked >>= next) self (checked >>= outcome) := by
  cases checked with
  | error => rfl
  | ok b => exact rest b rfl

/-- A check after a write that is known to pass. -/
theorem Commits.write {write : S → S} {checked : S → Except E B} {next : B → Mutation S E A} {after : S}
    (passes : checked (write self) = .ok b) (called : (next b).call (write self) = (.ok result, after)) :
    Commits (modify write >>= fun _ => MonadState.get >>= fun value => liftM (checked value) >>= next) self
      (.ok (result, after)) := by
  change (liftM (checked (write self)) >>= next).call (write self) = _
  rw [passes]
  exact called

theorem Commits.atomic (commits : method.Commits self outcome) : method.Atomic self := by
  intro error failed
  rw [commits] at failed ⊢
  rcases outcome with _ | ⟨_, _⟩
  · rfl
  · cases failed

/-- What holds before and after a successful call holds in any case. -/
theorem Commits.keeps {P : S → Prop} (commits : method.Commits self outcome) (before : P self)
    (succeeded : ∀ result after, outcome = .ok (result, after) → P after) : P (method.call self).2 := by
  rw [commits]
  rcases outcome with _ | ⟨result, after⟩
  · exact before
  · exact succeeded result after rfl

end Mutation

end Payout.Lib
