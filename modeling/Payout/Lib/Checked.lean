/-
Purpose: Failing computations and fixed-width unsigned arithmetic. A fallible function returns an `Except`; the
  combinators below are the shapes early returns and the question mark take in it, each with the inversion lemma that
  peels a successful computation apart.
-/
import Mathlib.Algebra.Order.Floor.Div
import Mathlib.Data.List.Forall2
import Mathlib.Tactic.Linarith

namespace Payout.Lib

open List Except Nat

variable {ε α β : Type} {condition : Prop} {w a b c wide narrow d a' rate whole : Nat} {error : ε} {items : List α}

/-! ### Early returns -/

/-- Stop with `error` when `condition` holds. -/
def rejectIf (condition : Prop) [Decidable condition] (error : ε) : Except ε Unit :=
  if condition then .error error else .ok ()

/-- The value of an option, or `error`. -/
def okOr (value : Option α) (error : ε) : Except ε α :=
  match value with
  | some a => .ok a
  | none => .error error

@[simp] theorem rejectIf_eq_ok [Decidable condition] {u : Unit} : rejectIf condition error = .ok u ↔ ¬ condition := by
  unfold rejectIf
  split <;> simp_all

@[simp] theorem okOr_eq_ok {value : Option α} {a : α} : okOr value error = .ok a ↔ value = some a := by
  cases value <;> simp [okOr]

/-- A sequence of two computations succeeds exactly when both do. -/
theorem bind_ok_iff {first : Except ε α} {next : α → Except ε β} {b : β} :
    (first >>= next) = .ok b ↔ ∃ a, first = .ok a ∧ next a = .ok b := by
  constructor
  · intro succeeded
    cases first with
    | error => cases succeeded
    | ok a => exact ⟨a, rfl, succeeded⟩
  · rintro ⟨a, rfl, succeeded⟩
    exact succeeded

/-- What a failed sequence of two computations returns, whichever of them failed. -/
theorem bind_error_iff {first : Except ε α} {next : α → Except ε β} {e : ε} :
    (first >>= next) = .error e ↔ first = .error e ∨ ∃ a, first = .ok a ∧ next a = .error e := by
  cases first with
  | error e' =>
    have stopped : (error e' >>= next) = .error e' := rfl
    simp [stopped]
  | ok a =>
    have passed : (ok a >>= next) = next a := rfl
    simp [passed]

theorem rejectIf_eq_error [Decidable condition] {e : ε} :
    rejectIf condition error = .error e ↔ condition ∧ error = e := by
  unfold rejectIf
  split <;> simp_all

theorem okOr_eq_error {value : Option α} {e : ε} : okOr value error = .error e ↔ value = none ∧ error = e := by
  cases value <;> simp [okOr]

theorem pure_ne_error {a : α} {e : ε} : (pure a : Except ε α) ≠ .error e :=
  nofun

@[simp] theorem pure_ok_iff {a b : α} : (pure a : Except ε α) = .ok b ↔ a = b :=
  ⟨ok.inj, congrArg ok⟩

/-- A computation over a list succeeds exactly when it succeeds for every item. -/
theorem mapM_ok_iff {f : α → Except ε β} {results : List β} :
    items.mapM f = .ok results ↔ List.Forall₂ (fun item result => f item = .ok result) items results := by
  induction items generalizing results with
  | nil =>
    rw [mapM_nil, pure_ok_iff, forall₂_nil_left_iff]
    exact eq_comm
  | cons item items ih =>
    rw [mapM_cons, forall₂_cons_left_iff]
    simp only [bind_ok_iff, pure_ok_iff, ih]
    constructor
    · rintro ⟨result, one, rest, all, rfl⟩
      exact ⟨result, rest, one, all, rfl⟩
    · rintro ⟨result, rest, one, all, rfl⟩
      exact ⟨result, one, rest, all, rfl⟩

/-- A computation over a list returns exactly when it returns for every item. -/
theorem exists_mapM_ok_iff {f : α → Except ε β} :
    (∃ results, items.mapM f = .ok results) ↔ ∀ item ∈ items, ∃ result, f item = .ok result := by
  induction items with
  | nil => exact iff_of_true ⟨[], rfl⟩ nofun
  | cons first rest ih =>
    simp only [mapM_cons, bind_ok_iff, pure_ok_iff, forall_mem_cons, ← ih]
    constructor
    · rintro ⟨_, result, one, results, others, rfl⟩
      exact ⟨⟨result, one⟩, results, others⟩
    · rintro ⟨⟨result, one⟩, results, others⟩
      exact ⟨_, result, one, results, others, rfl⟩

/-- What a computation of lists returns altogether, in terms of what every list holds. -/
theorem mem_flatten_of_mapM {f : α → Except ε (List β)} {results : List (List β)} {R : α → β → Prop}
    (computed : items.mapM f = .ok results)
    (holds : ∀ item ∈ items, ∃ result, f item = .ok result ∧ ∀ b, b ∈ result ↔ R item b) (b : β) :
    b ∈ results.flatten ↔ ∃ item ∈ items, R item b := by
  have each := mapM_ok_iff.mp computed
  clear computed
  induction each with
  | nil => simp
  | cons one _ rest =>
    obtain ⟨⟨_, same, spec⟩, others⟩ := forall_mem_cons.mp holds
    cases same.symm.trans one
    rw [flatten_cons, mem_append, spec b, exists_mem_cons_iff]
    exact or_congr_right (rest others)

theorem map_eq_ok_iff {result : Except ε α} {f : α → β} {b : β} :
    result.map f = .ok b ↔ ∃ a, result = .ok a ∧ f a = b := by
  cases result with
  | error => simp [Except.map]
  | ok => simp [Except.map]

/-- What a computation of an optional value returned, under a map of the value. -/
theorem map_map_eq_ok_some {result : Except ε (Option α)} {f : α → β} {b : β} :
    result.map (Option.map f) = .ok (some b) ↔ ∃ a, result = .ok (some a) ∧ f a = b := by
  rcases result with _ | _ | _
  · simp [Except.map]
  · simp [Except.map]
  · simp [Except.map]

/-- The value of a computation that is known to succeed. -/
theorem eq_ok_get {result : Except ε α} (succeeds : result.toOption.isSome = true) :
    result = .ok (result.toOption.get succeeds) := by
  cases result with
  | error => simp [Except.toOption] at succeeds
  | ok => rfl

/-! ### Unsigned arithmetic of width `w` -/

/-- Addition that fails when the sum does not fit. -/
def checkedAdd (w a b : Nat) : Option Nat :=
  if a + b < 2 ^ w then some (a + b) else none

/-- Subtraction that fails below zero. -/
def checkedSub (a b : Nat) : Option Nat :=
  if b ≤ a then some (a - b) else none

/-- Addition that stops at the largest value. -/
def saturatingAdd (w a b : Nat) : Nat :=
  min (a + b) (2 ^ w - 1)

/-- Addition that drops the carry. -/
def wrappingAdd (w a b : Nat) : Nat :=
  (a + b) % 2 ^ w

/-- Subtraction that borrows from beyond the width. -/
def wrappingSub (w a b : Nat) : Nat :=
  (a + (2 ^ w - b % 2 ^ w)) % 2 ^ w

/-- Multiplication that drops what does not fit. -/
def wrappingMul (w a b : Nat) : Nat :=
  a * b % 2 ^ w

/-- Multiplication that fails when the product does not fit. -/
def checkedMul (w a b : Nat) : Option Nat :=
  if a * b < 2 ^ w then some (a * b) else none

/-- Division that fails on a zero divisor. -/
def checkedDiv (a b : Nat) : Option Nat :=
  if b = 0 then none else some (a / b)

/-- Remainder that fails on a zero divisor. -/
def checkedRem (a b : Nat) : Option Nat :=
  if b = 0 then none else some (a % b)

/-- Conversion to a narrower width, failing when the value does not fit. -/
def tryInto (w a : Nat) : Option Nat :=
  if a < 2 ^ w then some a else none

/-- The quotient `a * b / c` with a product of width `wide`, converted to width `narrow`. -/
def mulDiv (wide narrow a b c : Nat) : Option Nat :=
  ((checkedMul wide a b).bind fun product => checkedDiv product c).bind (tryInto narrow)

@[simp] theorem checkedAdd_eq_some : checkedAdd w a b = some c ↔ a + b < 2 ^ w ∧ a + b = c := by
  unfold checkedAdd
  split <;> simp_all

@[simp] theorem checkedSub_eq_some : checkedSub a b = some c ↔ b ≤ a ∧ a - b = c := by
  unfold checkedSub
  split <;> simp_all

theorem le_saturatingAdd (fits : a ≤ 2 ^ w - 1) : a ≤ saturatingAdd w a b :=
  le_min (le_add_right a b) fits

theorem saturatingAdd_of_lt (fits : a + b < 2 ^ w) : saturatingAdd w a b = a + b :=
  min_eq_left (by omega)

theorem saturatingAdd_assoc (w a b c : Nat) :
    saturatingAdd w (saturatingAdd w a b) c = saturatingAdd w a (saturatingAdd w b c) := by
  simp only [saturatingAdd]
  omega

theorem wrappingAdd_of_lt (fits : a + b < 2 ^ w) : wrappingAdd w a b = a + b :=
  mod_eq_of_lt fits

theorem wrappingSub_of_le (fits : a < 2 ^ w) (le : b ≤ a) : wrappingSub w a b = a - b := by
  rw [wrappingSub, mod_eq_of_lt (le.trans_lt fits), show a + (2 ^ w - b) = a - b + 2 ^ w by omega,
    add_mod_right, mod_eq_of_lt (by omega)]

theorem wrappingSub_mod (w a b : Nat) : wrappingSub w a (b % 2 ^ w) = wrappingSub w a b := by
  rw [wrappingSub, mod_mod, wrappingSub]

/-- What is left of a sum that wrapped. -/
theorem wrappingSub_add_mod (w a b : Nat) : wrappingSub w ((a + b) % 2 ^ w) a = b % 2 ^ w := by
  have small := mod_lt a (Nat.two_pow_pos w)
  have split := mod_add_div a (2 ^ w)
  rw [wrappingSub, mod_add_mod, ← add_mul_mod_self_left b (2 ^ w) (a / 2 ^ w + 1), mul_succ]
  congr 1
  omega

@[simp] theorem checkedMul_eq_some : checkedMul w a b = some c ↔ a * b < 2 ^ w ∧ a * b = c := by
  unfold checkedMul
  split <;> simp_all

@[simp] theorem checkedDiv_eq_some : checkedDiv a b = some c ↔ b ≠ 0 ∧ a / b = c := by
  unfold checkedDiv
  split <;> simp_all

@[simp] theorem checkedRem_eq_some : checkedRem a b = some c ↔ b ≠ 0 ∧ a % b = c := by
  unfold checkedRem
  split <;> simp_all

@[simp] theorem tryInto_eq_some : tryInto w a = some b ↔ a < 2 ^ w ∧ a = b := by
  unfold tryInto
  split <;> simp_all

@[simp] theorem mulDiv_eq_some : mulDiv wide narrow a b c = some d ↔
    a * b < 2 ^ wide ∧ c ≠ 0 ∧ a * b / c < 2 ^ narrow ∧ a * b / c = d := by
  simp only [mulDiv, Option.bind_eq_some_iff, checkedMul_eq_some, checkedDiv_eq_some, tryInto_eq_some]
  constructor
  · rintro ⟨_, ⟨_, ⟨product, rfl⟩, divisor, rfl⟩, fits, same⟩
    exact ⟨product, divisor, fits, same⟩
  · rintro ⟨product, divisor, fits, same⟩
    exact ⟨_, ⟨_, ⟨product, rfl⟩, divisor, rfl⟩, fits, same⟩

/-- The simp set that takes a computation that returned apart: a sequence, a check with its unit, the value of an
    option, a plain value, and checked arithmetic. -/
theorem ok_iffs :
    (∀ {ε α β : Type} {first : Except ε α} {next : α → Except ε β} {b : β},
      (first >>= next) = .ok b ↔ ∃ a, first = .ok a ∧ next a = .ok b) ∧
    (∀ {ε : Type} {condition : Prop} [Decidable condition] {error : ε} {u : Unit},
      rejectIf condition error = .ok u ↔ ¬ condition) ∧
    (∀ {p : Prop}, (∃ _ : Unit, p) ↔ p) ∧ (∀ {p : Prop}, ¬ ¬ p ↔ p) ∧
    (∀ {ε α : Type} {value : Option α} {error : ε} {a : α}, okOr value error = .ok a ↔ value = some a) ∧
    (∀ {ε α : Type} {a b : α}, (pure a : Except ε α) = .ok b ↔ a = b) ∧
    (∀ {ε α : Type} {a b : α}, (ok a : Except ε α) = .ok b ↔ a = b) ∧
    (∀ {w a b c}, checkedAdd w a b = some c ↔ a + b < 2 ^ w ∧ a + b = c) ∧
    (∀ {a b c}, checkedSub a b = some c ↔ b ≤ a ∧ a - b = c) ∧
    (∀ {w a b c}, checkedMul w a b = some c ↔ a * b < 2 ^ w ∧ a * b = c) ∧
    (∀ {a b c}, checkedDiv a b = some c ↔ b ≠ 0 ∧ a / b = c) ∧
    ∀ {w a b}, tryInto w a = some b ↔ a < 2 ^ w ∧ a = b :=
  ⟨bind_ok_iff, rejectIf_eq_ok, exists_const _, not_not, okOr_eq_ok, pure_ok_iff, Eq.to_iff (ok.injEq ..),
    checkedAdd_eq_some, checkedSub_eq_some, checkedMul_eq_some, checkedDiv_eq_some, tryInto_eq_some⟩

/-! ### Rounding up -/

/-- Rounding up two amounts separately is never cheaper than rounding up their sum. -/
theorem ceilDiv_add_le (pos : 0 < b) : (a + a') ⌈/⌉ b ≤ a ⌈/⌉ b + a' ⌈/⌉ b := by
  rw [ceilDiv_le_iff_le_mul pos, Nat.mul_add]
  exact Nat.add_le_add (le_smul_ceilDiv pos) (le_smul_ceilDiv pos)

/-- A share of at most the whole, rounded up, is at most the whole. -/
theorem mul_ceilDiv_le (pos : 0 < whole) (le : rate ≤ whole) : (a * rate) ⌈/⌉ whole ≤ a := by
  rw [ceilDiv_le_iff_le_mul pos, mul_comm whole a]
  exact mul_le_mul_left a le

end Payout.Lib
