/-
Purpose: Sets of small numbers as the bits of a word: the number of bits is the size of the set, and the number of
  trailing zeros is one of its members.
-/
import Mathlib.Data.Finset.Card

namespace Payout.Lib

open Finset Bool

variable {w : Nat} {x : BitVec w}

theorem cpopNatRec_eq_card (n : Nat) : x.cpopNatRec n 0 = ((range n).filter fun i => x.getLsbD i = true).card := by
  induction n with
  | zero => rfl
  | succ n ih =>
    have recursion : x.cpopNatRec (n + 1) 0 = x.cpopNatRec n (0 + (x.getLsbD n).toNat) := rfl
    rw [recursion, BitVec.cpopNatRec_eq, ih, range_add_one, filter_insert]
    cases bit : x.getLsbD n with
    | true => simp
    | false => simp

/-- A word with a single bit has it after the trailing zeros. -/
theorem cpop_eq_one_iff {i : Nat} : x.cpop.toNat = 1 ∧ x.ctz.toNat = i ↔ ∀ j, x.getLsbD j = true ↔ j = i := by
  rw [BitVec.toNat_cpop, cpopNatRec_eq_card, card_eq_one]
  constructor
  · rintro ⟨⟨only, isOnly⟩, rfl⟩
    have inRange : ∀ j, x.getLsbD j = true ↔ j = only := by
      intro j
      have mem : j ∈ (range w).filter (fun i => x.getLsbD i = true) ↔ j ∈ ({only} : Finset Nat) := by
        rw [isOnly]
      rw [mem_filter, mem_range, mem_singleton] at mem
      rw [← mem]
      exact ⟨fun set => ⟨BitVec.lt_of_getLsbD set, set⟩, And.right⟩
    have nonzero : x ≠ 0#w := by
      rintro rfl
      simpa using (inRange only).mpr rfl
    rw [(inRange _).mp (BitVec.getLsbD_true_ctz_of_ne_zero nonzero)]
    exact inRange
  · intro exact'
    have nonzero : x ≠ 0#w := by
      rintro rfl
      simpa using (exact' i).mpr rfl
    refine ⟨⟨i, ?_⟩, (exact' _).mp (BitVec.getLsbD_true_ctz_of_ne_zero nonzero)⟩
    ext j
    rw [mem_filter, mem_range, mem_singleton, exact' j]
    exact ⟨And.right, fun same => ⟨BitVec.lt_of_getLsbD ((exact' j).mpr same), same⟩⟩

theorem getLsbD_one_shiftLeft {i j : Nat} : (1#w <<< i).getLsbD j = true ↔ j < w ∧ j = i := by
  rw [BitVec.getLsbD_shiftLeft, BitVec.getLsbD_one]
  simp only [and_eq_true, decide_eq_true_eq, not_eq_true', decide_eq_false_iff_not]
  omega

/-- One less than a flag are the bits below it. -/
theorem getLsbD_ones_below {i j : Nat} (fits : i < w) : (1#w <<< i - 1#w).getLsbD j = true ↔ j < i := by
  have value : (1#w <<< i - 1#w) = BitVec.ofNat w (2 ^ i - 1) := by
    apply BitVec.eq_of_toNat_eq
    have small : 2 ^ i < 2 ^ w := Nat.pow_lt_pow_right (by omega) fits
    have pos : 0 < 2 ^ i := Nat.two_pow_pos i
    have one : 1 % 2 ^ w = 1 := Nat.mod_eq_of_lt (by omega)
    simp only [BitVec.toNat_sub, BitVec.toNat_shiftLeft, BitVec.toNat_ofNat, one, Nat.shiftLeft_eq, Nat.one_mul,
      Nat.mod_eq_of_lt small]
    rw [Nat.mod_eq_of_lt (show 2 ^ i - 1 < 2 ^ w by omega)]
    rw [show 2 ^ w - 1 + 2 ^ i = 2 ^ i - 1 + 2 ^ w by omega, Nat.add_mod_right]
    exact Nat.mod_eq_of_lt (by omega)
  rw [value, BitVec.getLsbD_ofNat, Nat.testBit_two_pow_sub_one]
  simp only [and_eq_true, decide_eq_true_eq]
  omega

theorem and_flag_ne_zero_iff {i : Nat} : x &&& 1#w <<< i ≠ 0#w ↔ x.getLsbD i = true := by
  constructor
  · intro nonzero
    have bit := BitVec.getLsbD_true_ctz_of_ne_zero nonzero
    rw [BitVec.getLsbD_and, and_eq_true, getLsbD_one_shiftLeft] at bit
    rw [← bit.2.2]
    exact bit.1
  · intro set zero
    have bit : (x &&& 1#w <<< i).getLsbD i = true := by
      rw [BitVec.getLsbD_and, and_eq_true, getLsbD_one_shiftLeft]
      exact ⟨set, BitVec.lt_of_getLsbD set, rfl⟩
    rw [zero] at bit
    simp at bit

end Payout.Lib
