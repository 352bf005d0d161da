/-
Purpose: Actions on a store that touch only their own keys. Two actions are independent if neither writes a key the
  other one touches; independent actions commute, so that a sequence may be rearranged by moving an action before
  those it is independent of without changing what is computed.
-/
import Mathlib.Data.List.Perm.Basic

namespace Payout.Lib

open List

variable {A K V : Type}

/-- An action changes the keys it writes and no other, and what it leaves at the keys it touches depends on what it
    found there. -/
structure Footprint (act : A → (K → V) → K → V) (touches writes : A → K → Prop) : Prop where
  covers : ∀ {a k}, writes a k → touches a k
  frame : ∀ {a k} (store : K → V), ¬ writes a k → act a store k = store k
  reads : ∀ {a} {store store' : K → V}, (∀ k, touches a k → store k = store' k) →
    ∀ {k}, touches a k → act a store k = act a store' k

/-- Neither action writes a key the other one touches. -/
def Independent (touches writes : A → K → Prop) (a b : A) : Prop :=
  ∀ k, ¬ (writes a k ∧ touches b k) ∧ ¬ (touches a k ∧ writes b k)

/-- The store after a sequence of actions. -/
def perform (act : A → (K → V) → K → V) (actions : List A) (store : K → V) : K → V :=
  actions.foldl (fun store a => act a store) store

theorem perform_append (act : A → (K → V) → K → V) (front back : List A) (store : K → V) :
    perform act (front ++ back) store = perform act back (perform act front store) :=
  foldl_append

/-- The actions, rearranged by moving one before others that it is apart from. -/
inductive Rearranged (apart : A → A → Prop) (actions : List A) : List A → Prop where
  | refl : Rearranged apart actions actions
  | move {done before after : List A} {b : A}
      (rearranged : Rearranged apart actions (done ++ (before ++ b :: after))) (free : ∀ a ∈ before, apart a b) :
      Rearranged apart actions (done ++ b :: (before ++ after))

namespace Rearranged

variable {apart : A → A → Prop} {actions actions' : List A}

theorem append (rearranged : Rearranged apart actions actions') (more : List A) :
    Rearranged apart (actions ++ more) (actions' ++ more) := by
  induction rearranged with
  | refl => exact .refl
  | move _ free ih =>
    simp only [append_assoc, cons_append] at ih ⊢
    exact ih.move free

theorem perm (rearranged : Rearranged apart actions actions') : actions'.Perm actions := by
  induction rearranged with
  | refl => exact .refl _
  | move _ _ ih => exact (perm_middle.symm.append_left _).trans ih

end Rearranged

namespace Footprint

variable {act : A → (K → V) → K → V} {touches writes : A → K → Prop} {a b : A}

section

variable (footprint : Footprint act touches writes)
include footprint

/-- What an action leaves at a key it writes is not changed by an independent action before it. -/
theorem act_act_of_writes (apart : Independent touches writes a b) (store : K → V) {k : K} (written : writes a k) :
    act a (act b store) k = act a store k := by
  refine footprint.reads ?_ (footprint.covers written)
  intro key touched
  exact footprint.frame store (fun other => (apart key).2 ⟨touched, other⟩)

/-- Independent actions commute. -/
theorem commute (apart : Independent touches writes a b) (store : K → V) :
    act b (act a store) = act a (act b store) := by
  have flipped : Independent touches writes b a := fun k =>
    ⟨fun both => (apart k).2 both.symm, fun both => (apart k).1 both.symm⟩
  funext k
  by_cases one : writes a k
  · have untouched : ¬ writes b k := fun two => (apart k).1 ⟨one, footprint.covers two⟩
    rw [footprint.frame _ untouched, footprint.act_act_of_writes apart store one]
  · by_cases two : writes b k
    · rw [footprint.frame (act b store) one, footprint.act_act_of_writes flipped store two]
    · rw [footprint.frame _ two, footprint.frame _ one, footprint.frame _ one, footprint.frame _ two]

/-- An action moves before those it is independent of. -/
theorem perform_move {before : List A} (apart : ∀ a ∈ before, Independent touches writes a b) (after : List A)
    (store : K → V) : perform act (before ++ b :: after) store = perform act (b :: (before ++ after)) store := by
  induction before generalizing store with
  | nil => rfl
  | cons a before ih =>
    obtain ⟨first, others⟩ := forall_mem_cons.mp apart
    calc perform act (a :: (before ++ b :: after)) store
        = perform act (before ++ b :: after) (act a store) := rfl
      _ = perform act (before ++ after) (act b (act a store)) := ih others _
      _ = perform act (before ++ after) (act a (act b store)) := by rw [footprint.commute first]

/-- Rearranged actions compute the same. -/
theorem perform_rearranged {actions actions' : List A}
    (rearranged : Rearranged (Independent touches writes) actions actions') (store : K → V) :
    perform act actions' store = perform act actions store := by
  induction rearranged with
  | refl => rfl
  | move _ free ih => rw [← ih, perform_append, perform_append _ _ (_ ++ _), footprint.perform_move free]

end

end Footprint

end Payout.Lib
