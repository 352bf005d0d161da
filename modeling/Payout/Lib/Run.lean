/-
Purpose: Runs of a labelled transition function. A step may fail, and a failed step leaves no state behind, so a run
  is a list of labels whose steps all succeeded in turn.
-/
import Mathlib.Data.List.Induction
import Mathlib.Logic.Basic

namespace Payout.Lib

open List

variable {State Label Error : Type} {done rest labels : List Label} {P I : State → Prop}
  {C guard : State → Label → Prop}

variable {step : Label → State → Except Error State}

variable {guard' : State → Label → Prop}

/-- `Run step guard s labels t`: the labels, in order, lead from `s` to `t`, every step succeeding and
    meeting the guard. -/
inductive Run (step : Label → State → Except Error State) (guard : State → Label → Prop) :
    State → List Label → State → Prop where
  | refl (s : State) : Run step guard s [] s
  | cons {s m t : State} {label : Label} {labels : List Label}
      (meets : guard s label) (taken : step label s = .ok m) (rest : Run step guard m labels t) :
      Run step guard s (label :: labels) t

namespace Run

variable {s m t : State} {label : Label} {labels' : List Label}

/-- Runs compose. -/
theorem trans (one : Run step guard s labels m) (two : Run step guard m labels' t) :
    Run step guard s (labels ++ labels') t := by
  induction one with
  | refl => exact two
  | cons meets taken _ ih => exact .cons meets taken (ih two)

/-- A run extended by one more step. -/
theorem snoc (run : Run step guard s labels m) (meets : guard m label)
    (taken : step label m = .ok t) : Run step guard s (labels ++ [label]) t :=
  run.trans (.cons meets taken (.refl t))

/-- A run passes through a state between any two parts of its labels. -/
theorem split (run : Run step guard s (labels ++ labels') t) :
    ∃ m, Run step guard s labels m ∧ Run step guard m labels' t := by
  induction labels generalizing s with
  | nil => exact ⟨s, .refl s, run⟩
  | cons label labels ih =>
    cases run with
    | cons meets taken rest =>
      obtain ⟨m, one, two⟩ := ih rest
      exact ⟨m, .cons meets taken one, two⟩

/-- Runs with the same labels lead to the same state, whatever their guards. -/
theorem deterministic (one : Run step guard s labels m) (two : Run step guard' s labels t) : m = t := by
  induction one with
  | refl =>
    cases two
    rfl
  | cons _ taken _ ih =>
    cases two with
    | cons _ taken' rest =>
      cases taken.symm.trans taken'
      exact ih rest

/-- A guard may say what is known of all labels. -/
theorem restrict {allowed : Label → Prop} (all : ∀ label ∈ labels, allowed label)
    (run : Run step guard s labels t) : Run step (fun s label => guard s label ∧ allowed label) s labels t := by
  induction run with
  | refl => exact .refl _
  | cons meets taken _ ih =>
    obtain ⟨first, others⟩ := forall_mem_cons.mp all
    exact .cons ⟨meets, first⟩ taken (ih others)

theorem weaken (weaker : ∀ s label, guard s label → guard' s label) (run : Run step guard s labels t) :
    Run step guard' s labels t := by
  induction run with
  | refl => exact .refl _
  | cons meets taken _ ih => exact .cons (weaker _ _ meets) taken ih

/-- Every step of a run meets its guard in the state that the steps before it lead to. -/
theorem meets (run : Run step guard s labels t) (isSplit : labels = done ++ label :: rest)
    (reached : Run step guard' s done m) : guard m label := by
  subst isSplit
  obtain ⟨_, before, after⟩ := run.split
  cases reached.deterministic before
  cases after with
  | cons meets => exact meets

/-- A property kept by every step that meets the guard is kept by every run. -/
theorem invariant (kept : ∀ s label s', P s → guard s label → step label s = .ok s' → P s')
    (run : Run step guard s labels t) (start : P s) : P t := by
  induction run with
  | refl => exact start
  | cons meets taken _ ih => exact ih (kept _ _ _ start meets taken)

/-- A property of the labels so far and the state they lead to, kept by every step. -/
theorem record {P : List Label → State → Prop}
    (kept : ∀ done s label s', P done s → guard s label → step label s = .ok s' → P (done ++ [label]) s')
    (run : Run step guard s labels t) (start : P [] s) : P labels t := by
  have later : ∀ done, P done s → P (done ++ labels) t := by
    clear start
    induction run with
    | refl =>
      intro done here
      rwa [append_nil]
    | cons meets taken _ ih =>
      intro done here
      have next := ih _ (kept done _ _ _ here meets taken)
      rwa [append_assoc, singleton_append] at next
  exact later [] start

/-- A property that holds at the end of a run held all along, or there is a last step that brought it about. Steps from
    states that have it to states that have it are `allowed`. -/
theorem onset {allowed : Label → Prop} (run : Run step guard s labels t) (present : P t)
    (keeps : ∀ s label s', P s → P s' → step label s = .ok s' → allowed label) :
    (P s ∧ ∀ label ∈ labels, allowed label) ∨
      ∃ done label rest m next, labels = done ++ label :: rest ∧ Run step guard s done m ∧ ¬ P m ∧
        step label m = .ok next ∧ P next ∧ ∀ later ∈ rest, allowed later := by
  induction run with
  | refl => exact .inl ⟨present, forall_mem_nil _⟩
  | @cons s _ _ first labels meets taken _ ih =>
    rcases ih present with ⟨here, all⟩ | ⟨done, label, rest, m, next, rfl, reached, last⟩
    · by_cases before : P s
      · exact .inl ⟨before, forall_mem_cons.mpr ⟨keeps _ _ _ before here taken, all⟩⟩
      · exact .inr ⟨[], first, labels, s, _, rfl, .refl s, before, taken, here, all⟩
    · exact .inr ⟨first :: done, label, rest, m, next, rfl, .cons meets taken reached, last⟩

/-- When a property holds after a step exactly if the step meets a condition, it holds in all states of a run exactly if
    all steps of the run meet the condition. -/
theorem always_iff (kept : ∀ s label s', I s → guard s label → step label s = .ok s' → I s')
    (exact' : ∀ s label s', I s → P s → guard s label → step label s = .ok s' → (P s' ↔ C s label))
    (run : Run step guard s labels t) (inv : I s) (start : P s) :
    (∀ done rest m, labels = done ++ rest → Run step guard s done m → P m) ↔
      ∀ done label rest m, labels = done ++ label :: rest → Run step guard s done m → C m label := by
  constructor
  · intro always done label rest m isSplit reached
    subst isSplit
    obtain ⟨_, before, after⟩ := run.split
    cases reached.deterministic before
    cases after with
    | cons meets taken _ =>
      have here := always done (label :: rest) _ rfl reached
      have next := always (done ++ [label]) rest _ (append_cons ..) (reached.snoc meets taken)
      exact (exact' _ _ _ (reached.invariant kept inv) here meets taken).mp next
  · intro conditions done
    -- From the start to the last of the steps done.
    induction done using reverseRecOn with
    | nil =>
      intro rest m _ reached
      cases reached
      exact start
    | append_singleton done label ih =>
      intro rest m isSplit reached
      rw [append_assoc, singleton_append] at isSplit
      obtain ⟨m', before, after⟩ := reached.split
      have here := ih (label :: rest) m' isSplit before
      cases after with
      | cons meets taken last =>
        cases last
        exact (exact' _ _ _ (before.invariant kept inv) here meets taken).mpr
          (conditions done label rest m' isSplit before)

end Run

/-- Execute the labels in order, stopping at the first step that fails or misses the guard. -/
def exec (step : Label → State → Except Error State) (guard : State → Label → Prop)
    [∀ s label, Decidable (guard s label)] : List Label → State → Option State
  | [], s => some s
  | label :: labels, s =>
    if guard s label then
      match step label s with
      | .ok m => exec step guard labels m
      | .error _ => none
    else none

/-- What `exec` reaches is reached by a run. -/
theorem run_of_exec [∀ s label, Decidable (guard s label)] {s t : State} (reached : exec step guard labels s = some t) :
    Run step guard s labels t := by
  induction labels generalizing s with
  | nil =>
    simp only [exec, Option.some.injEq] at reached
    exact reached ▸ .refl s
  | cons label labels ih =>
    simp only [exec] at reached
    split at reached
    · rename_i meets
      split at reached
      · rename_i m taken
        exact .cons meets taken (ih reached)
      · simp at reached
    · simp at reached

/-- The state `exec` reaches, with the run that leads to it. -/
theorem run_exec_get [∀ s label, Decidable (guard s label)] {s : State}
    (reached : (exec step guard labels s).isSome = true) :
    Run step guard s labels ((exec step guard labels s).get reached) :=
  run_of_exec (Option.some_get reached).symm

end Payout.Lib
