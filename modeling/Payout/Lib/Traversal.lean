/-
Purpose: Visiting everything once. `turn start n k` is the index visited at turn `k` of a rotation that starts anywhere
  and wraps around; the first `n` turns visit every index exactly once. A parallel fold cuts a list into consecutive
  chunks, folds each chunk from the same initial accumulator and joins the accumulators of neighbours in any tree it
  likes.
-/
import Mathlib.Data.Nat.ModEq
import Mathlib.Logic.Basic

namespace Payout.Lib

open Nat

/-- The index visited at turn `k` of a rotation of `n` indices. -/
def turn (start n k : Nat) : Nat :=
  (start + k) % n

theorem turn_lt {start n k : Nat} (pos : 0 < n) : turn start n k < n :=
  mod_lt _ pos

theorem turn_succ (start n k : Nat) : (turn start n k + 1) % n = turn start n (k + 1) := by
  simp [turn, add_assoc]

/-- No index is visited twice in one rotation. -/
theorem turn_injective {start n j k : Nat} (jLt : j < n) (kLt : k < n)
    (same : turn start n j = turn start n k) : j = k := by
  have congruent : j ≡ k [MOD n] := Nat.ModEq.add_left_cancel' start same
  exact Nat.ModEq.eq_of_lt_of_lt congruent jLt kLt

/-- Every index is visited in one rotation. -/
theorem exists_turn (start : Nat) {n i : Nat} (iLt : i < n) : ∃ k, k < n ∧ turn start n k = i := by
  have pos : 0 < n := by omega
  have startLt : start % n < n := mod_lt _ pos
  refine ⟨(i + (n - start % n)) % n, mod_lt _ pos, ?_⟩
  have whole : start % n + (i + (n - start % n)) = i + n := by omega
  calc turn start n ((i + (n - start % n)) % n)
      = (start % n + (i + (n - start % n))) % n := by simp [turn]
    _ = i := by rw [whole, add_mod_right, mod_eq_of_lt iLt]

variable {α β : Type}

/-- How a list is cut into chunks and how the results of the chunks are joined. -/
inductive Grouping (α : Type) where
  | fold (items : List α)
  | reduce (left right : Grouping α)

namespace Grouping

/-- All items, in order. -/
def items : Grouping α → List α
  | .fold items => items
  | .reduce left right => left.items ++ right.items

/-- Fold every chunk and join the results. -/
def eval (init : β) (step : β → α → β) (join : β → β → β) : Grouping α → β
  | .fold items => items.foldl step init
  | .reduce left right => join (left.eval init step join) (right.eval init step join)

section Induction

variable {init : β} {step : β → α → β} {join : β → β → β} {P : β → List α → Prop}

/-- What one more item keeps holds after a chunk. -/
theorem foldl_induction (more : ∀ acc before item, P acc before → P (step acc item) (before ++ [item]))
    (chunk before : List α) (acc : β) (start : P acc before) : P (chunk.foldl step acc) (before ++ chunk) := by
  induction chunk generalizing before acc with
  | nil => simpa using start
  | cons item rest ih => simpa using ih (before ++ [item]) (step acc item) (more acc before item start)

/-- What holds initially and is kept by one more item and by joins holds of every grouping. -/
theorem eval_induction (start : P init [])
    (more : ∀ acc before item, P acc before → P (step acc item) (before ++ [item]))
    (joined : ∀ one two before after, P one before → P two after → P (join one two) (before ++ after))
    (grouping : Grouping α) : P (grouping.eval init step join) grouping.items := by
  induction grouping with
  | fold items => exact foldl_induction more items [] init start
  | reduce left right one two => exact joined _ _ _ _ one two

end Induction

end Grouping

/-- How a scheduler groups the lists it is given. -/
structure Splitting where
  group : {γ : Type} → List γ → Grouping γ
  /-- Nothing is lost, added or moved. -/
  items_group : ∀ {γ : Type} (list : List γ), (group list).items = list

end Payout.Lib
