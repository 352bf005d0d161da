/-
Purpose: The methods that change a vault or its stake as the code runs them, every field written where the code writes
  it. They do all or nothing still, like the functions that return the changed vault.
Source: vault_core/src/delegation_state.rs, vault_core/src/vault.rs
-/
import Payout.Lib.Imperative
import Payout.Restaking.Vault

namespace Payout.Restaking.InPlace

open Lib Mutation VaultError

/-! ### Stake -/

abbrev StakeMethod := Mutation DelegationState VaultError Unit

namespace DelegationState

/-- Each amount with the one of `other`; nothing is written before all three are computed. -/
def combine (operation : Nat → Nat → Option Nat) (error : VaultError) (other : DelegationState) : StakeMethod := do
  let self ← get
  let stakedAmount ← okOr (operation self.stakedAmount other.stakedAmount) error
  let enqueuedForCooldownAmount ←
    okOr (operation self.enqueuedForCooldownAmount other.enqueuedForCooldownAmount) error
  let coolingDownAmount ← okOr (operation self.coolingDownAmount other.coolingDownAmount) error
  modify ({ · with stakedAmount })
  modify ({ · with enqueuedForCooldownAmount })
  modify ({ · with coolingDownAmount })

def subtract := combine checkedSub vaultSecurityUnderflow

def accumulate := combine (checkedAdd 64) vaultSecurityOverflow

/-- The closure of `slash`: take as much as possible from an amount. It returns what is left of both. -/
def applySlash (amount remainingSlash : Nat) : Except VaultError (Nat × Nat) :=
  if amount = 0 ∨ remainingSlash = 0 then .ok (amount, remainingSlash)
  else do
    let slashAmount := min amount remainingSlash
    let amount ← okOr (checkedSub amount slashAmount) vaultSecurityUnderflow
    let remainingSlash ← okOr (checkedSub remainingSlash slashAmount) vaultSecurityUnderflow
    pure (amount, remainingSlash)

def slash (slashAmount : Nat) : StakeMethod := do
  let totalSecurityAmount ← (← get).totalSecurity
  rejectIf (totalSecurityAmount < slashAmount) vaultSlashUnderflow
  let (stakedAmount, remainingSlash) ← applySlash (← get).stakedAmount slashAmount
  modify ({ · with stakedAmount })
  let (enqueuedForCooldownAmount, remainingSlash) ← applySlash (← get).enqueuedForCooldownAmount remainingSlash
  modify ({ · with enqueuedForCooldownAmount })
  let (coolingDownAmount, remainingSlash) ← applySlash (← get).coolingDownAmount remainingSlash
  modify ({ · with coolingDownAmount })
  rejectIf (0 < remainingSlash) vaultSlashIncomplete

def cooldown (amount : Nat) : StakeMethod := do
  rejectIf (amount = 0) vaultCooldownZero
  let self ← get
  let stakedAmount ← okOr (checkedSub self.stakedAmount amount) vaultSecurityUnderflow
  let enqueuedForCooldownAmount ← okOr (checkedAdd 64 self.enqueuedForCooldownAmount amount) vaultSecurityOverflow
  modify ({ · with stakedAmount })
  modify ({ · with enqueuedForCooldownAmount })

def delegate (amount : Nat) : StakeMethod := do
  rejectIf (amount = 0) vaultDelegationZero
  let stakedAmount ← okOr (checkedAdd 64 (← get).stakedAmount amount) vaultSecurityOverflow
  modify ({ · with stakedAmount })

variable (self other : DelegationState) (amount : Nat)

theorem combine_atomic (operation error) : (combine operation error other).Atomic self := by
  apply Commits.atomic
  exact .get (.check fun _ _ => .check fun _ _ => .check fun _ _ => .wrote rfl)

theorem cooldown_atomic : (cooldown amount).Atomic self := by
  apply Commits.atomic
  exact .check fun _ _ => .get (.check fun _ _ => .check fun _ _ => .wrote rfl)

theorem delegate_commits : (delegate amount).Commits self (self.delegate amount >>= fun after => pure ((), after)) := by
  simp only [Restaking.DelegationState.delegate, bind_assoc, pure_bind]
  exact .check fun _ _ => .get (.check fun _ _ => .wrote rfl)

/-- As much as possible is taken. -/
theorem applySlash_eq (remainingSlash) :
    applySlash amount remainingSlash = .ok (amount - remainingSlash, remainingSlash - amount) := by
  unfold applySlash
  split
  · rename_i nothing
    rcases nothing with rfl | rfl <;> simp
  · simp [checkedSub, okOr, bind, Except.bind, pure, Except.pure]
    omega

/-- What a slash leaves: it takes from the stake, then from what is enqueued, then from what is cooling down. -/
def slashed : DelegationState where
  stakedAmount := self.stakedAmount - amount
  enqueuedForCooldownAmount := self.enqueuedForCooldownAmount - (amount - self.stakedAmount)
  coolingDownAmount := self.coolingDownAmount - (amount - self.stakedAmount - self.enqueuedForCooldownAmount)

theorem slash_commits : (slash amount).Commits self (do
    let total ← self.totalSecurity
    rejectIf (total < amount) vaultSlashUnderflow
    .ok ((), slashed self amount)) := by
  refine .get (.check fun total computed => .check fun _ within => .get (.wrote ?_))
  simp only [rejectIf_eq_ok, DelegationState.totalSecurity_eq_ok, DelegationState.total] at within computed
  have complete : rejectIf (0 < amount - self.stakedAmount - self.enqueuedForCooldownAmount - self.coolingDownAmount)
      vaultSlashIncomplete = .ok () := by
    rw [rejectIf_eq_ok]
    omega
  simp only [applySlash_eq]
  exact congrArg (·, slashed self amount) complete

/-- A slash is never left incomplete, and takes exactly its amount. -/
theorem slash_exact {called : Except VaultError Unit × DelegationState} (slashes : (slash amount).call self = called) :
    called.1 ≠ .error vaultSlashIncomplete ∧ (called.1 = .ok () → called.2 = slashed self amount ∧
      ∃ total, self.totalSecurity = .ok total ∧ amount ≤ total ∧ called.2.totalSecurity = .ok (total - amount)) := by
  have commits : called = _ := slashes.symm.trans (slash_commits self amount)
  cases computed : self.totalSecurity with
  | error =>
    obtain ⟨-, rfl⟩ := okOr_eq_error.mp computed
    simp [commits, computed, bind, Except.bind]
  | ok total =>
    by_cases exceeds : total < amount
    · simp [commits, computed, rejectIf, exceeds, bind, Except.bind]
    · simp only [computed, rejectIf, exceeds, if_false, bind, Except.bind] at commits
      subst commits
      refine ⟨by simp, fun _ => ⟨rfl, total, rfl, by omega, ?_⟩⟩
      rw [DelegationState.totalSecurity_eq_ok] at computed ⊢
      simp only [DelegationState.total, slashed] at computed ⊢
      omega

end DelegationState

/-! ### The vault -/

namespace Vault

def mintWithFee (amountIn minAmountOut : Nat) : Mutation Vault VaultError MintSummary := do
  rejectIf (amountIn = 0) vaultMintZero
  let self ← get
  let vaultTokenAmountAfterDeposit ← okOr (checkedAdd 64 self.tokensDeposited amountIn) vaultOverflow
  rejectIf (self.depositCapacity < vaultTokenAmountAfterDeposit) vaultCapacityExceeded
  let vrtMintAmount ← self.calculateVrtMintAmount amountIn
  let vrtToFeeWallet ← self.calculateDepositFee vrtMintAmount
  let vrtToDepositor ← okOr (checkedSub vrtMintAmount vrtToFeeWallet) vaultUnderflow
  rejectIf (vrtToDepositor < minAmountOut) slippageError
  let vrtSupply ← okOr (checkedAdd 64 self.vrtSupply vrtMintAmount) vaultOverflow
  modify ({ · with vrtSupply })
  modify ({ · with tokensDeposited := vaultTokenAmountAfterDeposit })
  pure { vrtToDepositor, vrtToFeeWallet }

/-- The supply is written before the tokens are subtracted. -/
def burnWithFee (isStakerProgramFeeWallet isStakerVaultFeeWallet : Bool) (amountIn : Nat) :
    Mutation Vault VaultError BurnSummary := do
  rejectIf (amountIn = 0) vaultBurnZero
  let self ← get
  rejectIf (self.vrtSupply < amountIn) vaultInsufficientFunds
  let summary ← self.calculateBurnSummary isStakerProgramFeeWallet isStakerVaultFeeWallet amountIn
  let totalSecurity ← self.delegationState.totalSecurity
  let maxWithdrawable ← okOr (checkedSub self.tokensDeposited totalSecurity) vaultUnderflow
  rejectIf (maxWithdrawable < summary.outAmount) vaultUnderflow
  let vrtSupply ← okOr (checkedSub self.vrtSupply summary.burnAmount) vaultUnderflow
  modify ({ · with vrtSupply })
  let tokensDeposited ← okOr (checkedSub (← get).tokensDeposited summary.outAmount) vaultUnderflow
  modify ({ · with tokensDeposited })
  pure summary

/-- The stake is changed by its own method, and the question mark comes after it. -/
def delegate (amount : Nat) : Mutation Vault VaultError Unit := do
  rejectIf (amount = 0) vaultDelegationZero
  let self ← get
  rejectIf (self.tokensDeposited = 0 ∨ self.vrtSupply = 0) vaultUnderflow
  let amountToReserveForVrts ← self.calculateSupportedAssetsRequestedForWithdrawal
  let totalSecurity ← self.delegationState.totalSecurity
  let amountAvailableForDelegation ← okOr ((checkedSub self.tokensDeposited totalSecurity).bind
    fun rest => checkedSub rest amountToReserveForVrts) vaultUnderflow
  rejectIf (amountAvailableForDelegation < amount) vaultInsufficientFunds
  let (delegated, delegationState) := (DelegationState.delegate amount).call self.delegationState
  modify ({ · with delegationState })
  delegated

variable (self : Vault) (amount : Nat)

theorem mintWithFee_commits (amountIn minAmountOut) :
    (mintWithFee amountIn minAmountOut).Commits self (self.mintWithFee amountIn minAmountOut) :=
  .check fun _ _ => .get (.check fun _ _ => .check fun _ _ => .check fun _ _ => .check fun _ _ => .check fun _ _ =>
    .check fun _ _ => .check fun _ _ => .wrote rfl)

/-- The tokens paid are among those that are not delegated, so the second subtraction does not fail. -/
theorem burnWithFee_commits (program vault amountIn) :
    (burnWithFee program vault amountIn).Commits self (self.burnWithFee program vault amountIn) := by
  refine .check fun _ _ => .get (.check fun _ _ => .check fun summary _ => .check fun _ _ =>
    .check fun _ free => .check fun _ within => .check fun _ _ => ?_)
  simp only [rejectIf_eq_ok, okOr_eq_ok, checkedSub_eq_some] at within free
  have paid : okOr (checkedSub self.tokensDeposited summary.outAmount) vaultUnderflow =
      .ok (self.tokensDeposited - summary.outAmount) := by
    simp only [okOr_eq_ok, checkedSub_eq_some, and_true]
    omega
  rw [paid]
  exact .write paid rfl

theorem delegate_commits : (delegate amount).Commits self (self.delegate amount >>= fun after => pure ((), after)) := by
  simp only [Restaking.Vault.delegate, bind_assoc, pure_bind]
  refine .check fun _ _ => .get (.check fun _ _ => .check fun _ _ => .check fun _ _ => .check fun _ _ =>
    .check fun _ _ => ?_)
  rw [DelegationState.delegate_commits]
  cases self.delegationState.delegate amount <;> rfl

end Vault

/-! ### All or nothing -/

/-- The delegated tokens are among those deposited. -/
structure Secured (vault : Vault) : Prop where
  fits : vault.tokensDeposited < 2 ^ 64
  covered : ∃ total, vault.delegationState.totalSecurity = .ok total ∧ total ≤ vault.tokensDeposited

theorem secured_iff {vault : Vault} :
    Secured vault ↔ vault.tokensDeposited < 2 ^ 64 ∧ vault.delegationState.total ≤ vault.tokensDeposited := by
  constructor
  · rintro ⟨fits, _, computed, covered⟩
    obtain ⟨-, rfl⟩ := DelegationState.totalSecurity_eq_ok.mp computed
    exact ⟨fits, covered⟩
  · rintro ⟨fits, covered⟩
    exact ⟨fits, _, DelegationState.totalSecurity_eq_ok.mpr ⟨by omega, rfl⟩, covered⟩

/-- Every method of a vault and of its stake returns or leaves the value as it was; the delegated tokens stay among
    those deposited; and a slash takes all of its amount, in order. -/
theorem methods_all_or_nothing (vault : Vault) (secured : Secured vault) (state : DelegationState) :
    (∀ amountIn minAmountOut, (Vault.mintWithFee amountIn minAmountOut).Atomic vault ∧
      Secured ((Vault.mintWithFee amountIn minAmountOut).call vault).2) ∧
    (∀ program vaultWallet amountIn, (Vault.burnWithFee program vaultWallet amountIn).Atomic vault ∧
      Secured ((Vault.burnWithFee program vaultWallet amountIn).call vault).2) ∧
    (∀ amount, (Vault.delegate amount).Atomic vault ∧ Secured ((Vault.delegate amount).call vault).2) ∧
    (∀ other, (DelegationState.accumulate other).Atomic state ∧ (DelegationState.subtract other).Atomic state) ∧
    ∀ amount, (DelegationState.cooldown amount).Atomic state ∧ (DelegationState.delegate amount).Atomic state ∧
      (DelegationState.slash amount).Atomic state ∧ ∀ called, (DelegationState.slash amount).call state = called →
        called.1 ≠ .error vaultSlashIncomplete ∧ (called.1 = .ok () →
          called.2 = DelegationState.slashed state amount ∧ ∃ total, state.totalSecurity = .ok total ∧
            amount ≤ total ∧ called.2.totalSecurity = .ok (total - amount)) := by
  obtain ⟨fits, covered⟩ := secured_iff.mp secured
  refine ⟨fun amountIn minAmountOut => ?mint, fun program vaultWallet amountIn => ?burn, fun amount => ?delegate,
    fun other => ⟨DelegationState.combine_atomic state other _ _, DelegationState.combine_atomic state other _ _⟩,
    fun amount => ⟨DelegationState.cooldown_atomic state amount, (DelegationState.delegate_commits state amount).atomic,
      (DelegationState.slash_commits state amount).atomic, fun _ => DelegationState.slash_exact state amount⟩⟩
  case mint =>
    have commits := Vault.mintWithFee_commits vault amountIn minAmountOut
    refine ⟨commits.atomic, commits.keeps secured fun _ _ minted => secured_iff.mpr ?_⟩
    obtain ⟨checked, rfl⟩ := Vault.mintWithFee_ok minted
    exact ⟨checked.tokensFit, by dsimp only [Vault.afterMint]; omega⟩
  case burn =>
    have commits := Vault.burnWithFee_commits vault program vaultWallet amountIn
    refine ⟨commits.atomic, commits.keeps secured fun _ _ burned => secured_iff.mpr ?_⟩
    obtain ⟨checked, rfl⟩ := Vault.burnWithFee_ok burned
    have available := checked.available
    exact ⟨by dsimp only [Vault.afterBurn]; omega, by dsimp only [Vault.afterBurn]; omega⟩
  case delegate =>
    have commits := Vault.delegate_commits vault amount
    refine ⟨commits.atomic, commits.keeps secured fun _ after delegated => secured_iff.mpr ?_⟩
    simp only [bind_ok_iff, pure_ok_iff, Prod.mk.injEq, true_and, exists_eq_right] at delegated
    obtain ⟨available, rfl⟩ := Vault.delegate_ok delegated
    refine ⟨fits, ?_⟩
    simp only [DelegationState.total] at covered available ⊢
    omega

/-- Four of ten tokens are delegated. -/
def sampleVault : Vault :=
  let noFee : Bps := ⟨0, Nat.zero_le _⟩
  { Vault.empty .default .default .default 0 .default noFee noFee noFee noFee 0 with
    vrtSupply := 10, tokensDeposited := 10, delegationState := { stakedAmount := 3, coolingDownAmount := 1 } }

theorem methods_all_or_nothing_sample : Secured sampleVault ∧
    ((Vault.burnWithFee false false 8).call sampleVault).2 = sampleVault ∧
    ((DelegationState.slash 4).call sampleVault.delegationState).2.totalSecurity = .ok 0 := by
  have secured : Secured sampleVault := ⟨by decide, 4, rfl, by decide⟩
  obtain ⟨-, burns, -, -, slashes⟩ := methods_all_or_nothing sampleVault secured sampleVault.delegationState
  obtain ⟨-, -, -, exact'⟩ := slashes 4
  obtain ⟨-, _, computed, -, left⟩ := (exact' _ rfl).2 rfl
  cases computed
  exact ⟨secured, (burns false false 8).1 vaultUnderflow rfl, left⟩

end Payout.Restaking.InPlace
