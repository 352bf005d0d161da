/-
Purpose: A lock that is shared or exclusive and is granted in the order of the requests. The requests stand in a line;
  those at its head hold the lock, and the others wait.
-/
import Mathlib.Data.List.Nodup
import Mathlib.Data.List.TakeWhile

namespace Payout.Lib.ReaderWriter

open List

variable {α : Type} (shared : α → Bool)

/-- The requests that hold the lock: an exclusive one at the head of the line, or all shared ones there. -/
def granted : List α → List α
  | [] => []
  | first :: rest => if shared first then first :: rest.takeWhile shared else [first]

/-- The requests behind those that hold the lock. -/
def waiting : List α → List α
  | [] => []
  | first :: rest => if shared first then rest.dropWhile shared else rest

theorem granted_append_waiting (line : List α) : granted shared line ++ waiting shared line = line := by
  cases line with
  | nil => rfl
  | cons =>
    simp only [granted, waiting]
    split_ifs with isShared
    · rw [cons_append, takeWhile_append_dropWhile]
    · rfl

/-- The ways a line divides: the lock is free, held by one exclusive request, or shared up to the first exclusive
    one. -/
inductive Split : List α → List α → Prop where
  | free : Split [] []
  | exclusive (holder : α) (rest : List α) (alone : shared holder = false) : Split [holder] rest
  | shared (holder : α) (holders rest : List α) (all : ∀ x ∈ holder :: holders, shared x = true)
      (next : ∀ x ∈ rest.head?, shared x = false) : Split (holder :: holders) rest

theorem split (line : List α) : Split shared (granted shared line) (waiting shared line) := by
  cases line with
  | nil => exact .free
  | cons first rest =>
    simp only [granted, waiting]
    split_ifs with isShared
    · refine .shared first _ _ ?_ ?_
      · rw [forall_mem_cons]
        exact ⟨isShared, fun x => mem_takeWhile_imp⟩
      · intro x head
        have first := head?_dropWhile_not shared rest
        rw [Option.mem_def.mp head] at first
        simpa using first
    · exact .exclusive first rest (by simpa using isShared)

variable {shared} {line holders rest : List α} {x y : α}

/-- A division of a line is the division of the line. -/
theorem Split.eq (division : Split shared holders rest) :
    granted shared (holders ++ rest) = holders ∧ waiting shared (holders ++ rest) = rest := by
  cases division with
  | free => exact ⟨rfl, rfl⟩
  | exclusive holder rest alone => simp [granted, waiting, alone]
  | shared holder holders rest all next =>
    obtain ⟨first, others⟩ := forall_mem_cons.mp all
    have stop : rest.takeWhile shared = [] ∧ rest.dropWhile shared = rest := by
      cases rest with
      | nil => exact ⟨rfl, rfl⟩
      | cons y => simp [next y rfl]
    simp [granted, waiting, first, takeWhile_append_of_pos others, dropWhile_append_of_pos others, stop]

/-! ### Joining the line -/

/-- Behind a request that waits, a new one waits. -/
theorem join_waiting (some : waiting shared line ≠ []) (x : α) :
    granted shared (line ++ [x]) = granted shared line ∧ waiting shared (line ++ [x]) = waiting shared line ++ [x] := by
  have division : Split shared (granted shared line) (waiting shared line ++ [x]) := by
    cases h : waiting shared line with
    | nil => exact absurd h some
    | cons =>
      have whole := split shared line
      rw [h] at whole
      generalize granted shared line = held at whole
      cases whole with
      | exclusive holder _ alone => exact .exclusive holder _ alone
      | shared holder holders _ all next => exact .shared holder holders _ all next
  have parts := division.eq
  rwa [← append_assoc, granted_append_waiting] at parts

/-- A shared request joins a lock that is free or shared, if none waits. -/
theorem join_shared (none : waiting shared line = []) (all : ∀ y ∈ granted shared line, shared y = true)
    (isShared : shared x = true) :
    granted shared (line ++ [x]) = granted shared line ++ [x] ∧ waiting shared (line ++ [x]) = [] := by
  have held : granted shared line = line := by
    have whole := granted_append_waiting shared line
    rwa [none, append_nil] at whole
  rw [held] at all ⊢
  have division : Split shared (line ++ [x]) [] := by
    cases line with
    | nil => exact .shared x [] [] (by simpa using isShared) nofun
    | cons first others =>
      refine .shared first (others ++ [x]) [] ?_ nofun
      rw [← cons_append, forall_mem_append]
      exact ⟨all, by simpa using isShared⟩
  have parts := division.eq
  rwa [append_nil] at parts

/-- A request that cannot share the lock is the first to wait. -/
theorem join_refused (none : waiting shared line = []) (held : line ≠ [])
    (refused : shared x = false ∨ ∃ y ∈ granted shared line, shared y = false) :
    granted shared (line ++ [x]) = granted shared line ∧ waiting shared (line ++ [x]) = [x] := by
  have same : granted shared line = line := by
    have whole := granted_append_waiting shared line
    rwa [none, append_nil] at whole
  have division : Split shared line [x] := by
    have whole := split shared line
    rw [same, none] at whole
    rw [same] at refused
    cases whole with
    | free => exact absurd rfl held
    | exclusive holder _ alone => exact .exclusive holder _ alone
    | shared holder holders _ all _ =>
      refine .shared holder holders _ all ?_
      rcases refused with isExclusive | ⟨y, mem, isExclusive⟩
      · rintro y ⟨⟩
        exact isExclusive
      · rw [all y mem] at isExclusive
        cases isExclusive
  rw [same]
  exact division.eq

/-- Whoever joins the line, those in it wait as before. -/
theorem mem_waiting_join (differ : y ≠ x) : y ∈ waiting shared (line ++ [x]) ↔ y ∈ waiting shared line := by
  by_cases none : waiting shared line = []
  · by_cases free : line = []
    · subst free
      simp [waiting]
    by_cases joins : shared x = true ∧ ∀ z ∈ granted shared line, shared z = true
    · rw [(join_shared none joins.2 joins.1).2, none]
    have refused : shared x = false ∨ ∃ z ∈ granted shared line, shared z = false := by
      by_contra nobody
      push Not at nobody
      exact joins ⟨by simpa using nobody.1, fun z mem => by simpa using nobody.2 z mem⟩
    rw [(join_refused none free refused).2, none]
    simp [differ]
  · rw [(join_waiting none x).2, mem_append]
    simp [differ]

/-! ### Leaving the line -/

/-- Several holders share the lock. -/
theorem all_shared (holds : x ∈ granted shared line) (others : granted shared line ≠ [x]) :
    ∀ y ∈ granted shared line, shared y = true := by
  have whole := split shared line
  generalize granted shared line = held at whole holds others
  generalize waiting shared line = behind at whole
  cases whole with
  | free => cases holds
  | exclusive =>
    rw [mem_singleton.mp holds] at others
    exact absurd rfl others
  | shared holder holders _ all => exact all

section Leaving

variable [BEq α] [LawfulBEq α]

/-- Behind the last holder the line moves up. -/
theorem leave_last (last : granted shared line = [x]) : line.erase x = waiting shared line := by
  conv_lhs => rw [← granted_append_waiting shared line, last]
  exact erase_cons_head x _

/-- One of several holders leaves, and those who wait go on waiting. -/
theorem leave_shared (holds : x ∈ granted shared line) (others : granted shared line ≠ [x]) :
    granted shared (line.erase x) = (granted shared line).erase x ∧
      waiting shared (line.erase x) = waiting shared line := by
  have left : line.erase x = (granted shared line).erase x ++ waiting shared line := by
    conv_lhs => rw [← granted_append_waiting shared line]
    exact erase_append_left _ holds
  have division : Split shared ((granted shared line).erase x) (waiting shared line) := by
    have whole := split shared line
    have all := all_shared holds others
    generalize granted shared line = held at whole holds others all
    generalize waiting shared line = behind at whole
    cases whole with
    | free => cases holds
    | exclusive holder _ alone =>
      rw [all holder (mem_singleton_self holder)] at alone
      cases alone
    | shared holder holders _ _ next =>
      cases remaining : (holder :: holders).erase x with
      | nil =>
        have one : (holder :: holders).length = 1 := by
          have shorter := length_erase_of_mem holds
          rw [remaining] at shorter
          simp only [length_nil, length_cons] at shorter ⊢
          omega
        obtain rfl : holders = [] := eq_nil_of_length_eq_zero (by simpa using one)
        rw [mem_singleton.mp holds] at others
        exact absurd rfl others
      | cons first others =>
        refine .shared first others _ ?_ next
        intro y mem
        rw [← remaining] at mem
        exact all y (mem_of_mem_erase mem)
  rw [left]
  exact division.eq

end Leaving

/-! ### Who holds the lock -/

theorem mem_granted_or_waiting : x ∈ line ↔ x ∈ granted shared line ∨ x ∈ waiting shared line := by
  conv_lhs => rw [← granted_append_waiting shared line]
  exact mem_append

theorem not_mem_waiting_of_granted (nodup : line.Nodup) (holds : x ∈ granted shared line) :
    x ∉ waiting shared line := by
  rw [← granted_append_waiting shared line, nodup_append] at nodup
  intro waits
  exact nodup.2.2 x holds x waits rfl

theorem head_granted (first : α) (rest : List α) : first ∈ granted shared (first :: rest) := by
  simp only [granted]
  split_ifs
  · exact mem_cons_self
  · exact mem_singleton_self first

/-- Two requests hold the lock together only if both share it. -/
theorem shared_of_granted (one : x ∈ granted shared line) (two : y ∈ granted shared line) (distinct : x ≠ y) :
    shared x = true ∧ shared y = true := by
  have whole := split shared line
  generalize granted shared line = held at whole one two
  generalize waiting shared line = behind at whole
  cases whole with
  | free => cases one
  | exclusive =>
    rw [mem_singleton] at one two
    exact absurd (one.trans two.symm) distinct
  | shared holder holders _ all => exact ⟨all x one, all y two⟩

/-- Who stands before a holder holds the lock as well. -/
theorem mem_granted_of_before (nodup : line.Nodup) (before : List.Sublist [x, y] line)
    (holds : y ∈ granted shared line) : x ∈ granted shared line := by
  have free := not_mem_waiting_of_granted nodup holds
  rw [← granted_append_waiting shared line, sublist_append_iff] at before
  obtain ⟨front, _, parts, inFront, inBack⟩ := before
  rcases front with _ | ⟨_, _⟩
  · rw [nil_append] at parts
    subst parts
    exact absurd (inBack.subset (by simp)) free
  · obtain ⟨rfl, -⟩ := cons.inj parts
    exact inFront.subset mem_cons_self

end Payout.Lib.ReaderWriter
