/-
Purpose: What the restaking programs share: addresses, errors, the epoch of a slot and the basis-point scale; and the
  accounts around a vault. The configuration has a positive epoch length and rates that are at most the whole, so
  neither has to be assumed again later. Delegations and pending withdrawals live at addresses derived from the vault,
  so they form stores, keyed by the operator and by the base. The tracker of an update cycle visits the operators in
  index order, from an index that depends on the epoch and wrapping around.
Source: core/src/{lib, error}.rs, vault_sdk/src/error.rs, vault_core/src/{lib, config, delegation_state,
  vault_operator_delegation, vault_staker_withdrawal_ticket, vault_update_state_tracker}.rs
-/
import Payout.Lib.Checked
import Mathlib.Algebra.Group.Defs
import Payout.Lib.Traversal

namespace Payout.Restaking

open Lib

/-- An account address. -/
inductive Pubkey where
  /-- A key pair, or an address of a program outside this one. -/
  | wallet (id : Nat)
  /-- `Vault::find_program_address(base)`. -/
  | vault (base : Pubkey)
  /-- `BurnVault::find_program_address(base)`. -/
  | burnVault (base : Pubkey)
  /-- `VaultStakerWithdrawalTicket::find_program_address(vault, base)`. -/
  | withdrawalTicket (vault base : Pubkey)
  /-- `get_associated_token_address(owner, mint)`. -/
  | associatedToken (owner mint : Pubkey)
deriving DecidableEq, Repr, Inhabited

namespace Pubkey

/-- `Pubkey::default()`. -/
def default : Pubkey := .wallet 0

/-- Derived addresses lie off the curve: no transaction carries their signature. -/
def isWallet : Pubkey → Bool
  | .wallet _ => true
  | _ => false

end Pubkey

/-- The errors of the vault program that the modelled functions return. -/
inductive VaultError where
  | vaultInitialAmountFailed
  | vaultInsufficientFunds
  | vaultOverflow
  | vaultOperatorAdminInvalid
  | vaultAdminInvalid
  | vaultCapacityAdminInvalid
  | vaultMintBurnAdminInvalid
  | vaultDelegationAdminInvalid
  | vaultCapacityExceeded
  | vaultFeeAdminInvalid
  | configAdminInvalid
  | configFeeAdminInvalid
  | vaultFeeCapExceeded
  | vaultFeeChangeTooSoon
  | vaultFeeBumpTooLarge
  | vaultUnderflow
  | vaultUpdateNeeded
  | vaultIsUpdated
  | vaultOperatorDelegationIsUpdated
  | vaultUpdateIncorrectIndex
  | vaultUpdateStateNotFinishedUpdating
  | vaultSecurityOverflow
  | vaultSecurityUnderflow
  | vaultSlashUnderflow
  | vaultSlashIncomplete
  | slippageError
  | vaultStakerWithdrawalTicketNotWithdrawable
  | vaultStakerWithdrawalTicketInvalidStaker
  | operatorOverflow
  | vaultDelegationZero
  | vaultCooldownZero
  | vaultBurnZero
  | vaultEnqueueWithdrawalAmountZero
  | vaultMintZero
  | vaultIsPaused
  | invalidDepositor
  | invalidDepositTokenAccount
  | vaultRewardFeeDeltaTooLarge
  | vaultRewardFeeIsZero
  | vrtOutCannotBeZero
  | nonZeroAdditionalAssetsNeededForWithdrawalAtEndOfUpdate
  | arithmeticOverflow
  | arithmeticUnderflow
  | divisionByZero
deriving DecidableEq, Repr

/-- The error of an instruction: one of the vault's, one of the token program's, or one of the runtime's. -/
inductive ProgramError where
  | vault (error : VaultError)
  /-- `CoreError::BadEpochLength`. -/
  | badEpochLength
  | missingRequiredSignature
  | invalidAccountData
  | invalidAccountOwner
  | invalidArgument
  | invalidInstructionData
  | accountAlreadyInitialized
  | arithmeticOverflow
  /-- `TokenError::InsufficientFunds`. -/
  | tokenInsufficientFunds
  /-- `TokenError::MintMismatch`. -/
  | tokenMintMismatch
  /-- `TokenError::OwnerMismatch`. -/
  | tokenOwnerMismatch
  /-- `TokenError::Overflow`. -/
  | tokenOverflow
  /-- `TokenError::NonNativeHasBalance`. -/
  | tokenNonNativeHasBalance
deriving DecidableEq, Repr

/-- The question mark on a `VaultError` inside a function that returns a `ProgramError`. -/
def asProgramError {α : Type} (result : Except VaultError α) : Except ProgramError α :=
  result.mapError .vault

@[simp] theorem asProgramError_eq_ok : asProgramError result = .ok a ↔ result = .ok a := by
  cases result <;> simp [asProgramError, Except.mapError]

theorem asProgramError_eq_error : asProgramError result = .error (.vault error) ↔ result = .error error := by
  cases result <;> simp [asProgramError, Except.mapError]

/-- `MAX_BPS`: the whole, in basis points. -/
def maxBps : Nat := 10000

/-- A rate in basis points. Every setter of a rate rejects more than the whole. -/
@[ext] structure Bps where
  value : Nat
  le_maxBps : value ≤ maxBps
deriving DecidableEq, Repr

namespace Bps

instance : Coe Bps Nat := ⟨value⟩

/-- The rate `value`, unless it exceeds the whole. -/
def check (value : Nat) : Option Bps :=
  if le : value ≤ maxBps then some ⟨value, le⟩ else none

@[simp] theorem check_eq_some {value : Nat} : check value = some rate ↔ rate.value = value := by
  unfold check
  split
  · simp [Bps.ext_iff, eq_comm]
  · have := rate.le_maxBps
    simp only [reduceCtorEq, false_iff]
    omega

/-- The share of an amount at a rate, rounded up. -/
def share (rate : Bps) (amount : Nat) : Nat := (amount * rate.value) ⌈/⌉ maxBps

/-- The share of a 64-bit amount, computed in 128 bits. -/
def feeOf (rate : Bps) (amount : Nat) : Except VaultError Nat :=
  okOr ((checkedMul 128 amount rate.value).bind fun product => tryInto 64 (product ⌈/⌉ maxBps))
    .vaultOverflow

theorem share_le (rate : Bps) (amount) : rate.share amount ≤ amount :=
  mul_ceilDiv_le (by decide) rate.le_maxBps

@[simp] theorem share_zero (rate : Bps) : rate.share 0 = 0 :=
  Nat.le_zero.mp (rate.share_le 0)

/-- Rounding up once costs at most as much as rounding up twice. -/
theorem share_add_le (rate : Bps) (amount amount') :
    rate.share (amount + amount') ≤ rate.share amount + rate.share amount' := by
  unfold share
  rw [Nat.add_mul]
  exact ceilDiv_add_le (by decide)

theorem feeOf_eq_share {rate : Bps} (computed : rate.feeOf amount = .ok fee) : fee = rate.share amount := by
  simp only [feeOf, okOr_eq_ok, Option.bind_eq_some_iff, checkedMul_eq_some, tryInto_eq_some] at computed
  obtain ⟨_, ⟨_, rfl⟩, _, rfl⟩ := computed
  rfl

theorem feeOf_of_lt {rate : Bps} (fits : amount < 2 ^ 64) : rate.feeOf amount = .ok (rate.share amount) := by
  have rateLe := rate.le_maxBps
  have shareLe := rate.share_le amount
  have product : amount * rate.value < 2 ^ 128 := by
    calc amount * rate.value ≤ amount * maxBps := Nat.mul_le_mul_left amount rateLe
      _ < 2 ^ 64 * maxBps := Nat.mul_lt_mul_of_pos_right fits (by decide)
      _ ≤ 2 ^ 128 := by decide
  simp only [feeOf, okOr_eq_ok, Option.bind_eq_some_iff, checkedMul_eq_some, tryInto_eq_some]
  exact ⟨_, ⟨product, rfl⟩, lt_of_le_of_lt shareLe fits, rfl⟩

end Bps

/-- `u64::MAX`. -/
def u64Max : Nat := 2 ^ 64 - 1

/-- The epoch of a slot. -/
def getEpoch (slot epochLength : Nat) : Except ProgramError Nat :=
  okOr (checkedDiv slot epochLength) .badEpochLength

theorem getEpoch_of_pos (pos : 0 < epochLength) : getEpoch slot epochLength = .ok (slot / epochLength) := by
  simp [getEpoch, pos.ne']

/-- The vault configuration account. -/
structure Config where
  admin : Pubkey
  /-- The length of an epoch in slots. -/
  epochLength : Nat
  epochLength_pos : 0 < epochLength
  /-- The number of vaults managed by the program. -/
  numVaults : Nat
  /-- The cap on the deposit and the withdrawal fee. -/
  depositWithdrawalFeeCapBps : Bps
  /-- The most a fee can increase, relative to its value. -/
  feeRateOfChangeBps : Bps
  /-- The amount a fee can increase above the rate of change. -/
  feeBumpBps : Bps
  programFeeBps : Bps
  programFeeWallet : Pubkey
  feeAdmin : Pubkey
deriving Repr

namespace Config

/-- The settings `InitializeConfig` writes: epochs of `DEFAULT_SLOTS_PER_EPOCH` slots, fees capped at 20%,
    changing by at most 25% or 0.1% at a time. -/
def new (admin programFeeWallet : Pubkey) (programFeeBps : Bps) : Config where
  admin := admin
  epochLength := 432000
  epochLength_pos := by decide
  numVaults := 0
  depositWithdrawalFeeCapBps := ⟨2000, by decide⟩
  feeRateOfChangeBps := ⟨2500, by decide⟩
  feeBumpBps := ⟨10, by decide⟩
  programFeeBps := programFeeBps
  programFeeWallet := programFeeWallet
  feeAdmin := admin

def setProgramFeeBps (self : Config) (newFeeBps : Nat) : Except ProgramError Config := do
  let programFeeBps ← okOr (Bps.check newFeeBps) .invalidInstructionData
  pure { self with programFeeBps }

def incrementNumVaults (self : Config) : Except VaultError Config := do
  let numVaults ← okOr (checkedAdd 64 self.numVaults 1) .vaultOverflow
  pure { self with numVaults }

/-- The program fee on a withdrawal. -/
def calculateProgramFee (programFeeBps : Bps) (vrtAmount : Nat) : Except VaultError Nat :=
  programFeeBps.feeOf vrtAmount

/-- The epoch of a slot: the epoch length is positive, so it always exists. -/
def epochOf (self : Config) (slot : Nat) : Nat :=
  slot / self.epochLength

@[simp] theorem getEpoch_epochLength (self : Config) (slot) :
    getEpoch slot self.epochLength = .ok (self.epochOf slot) :=
  getEpoch_of_pos self.epochLength_pos

theorem epochOf_mono (self : Config) (le : slot ≤ slot') : self.epochOf slot ≤ self.epochOf slot' :=
  Nat.div_le_div_right le

end Config

/-- Stake by the stage of its deactivation. -/
@[ext] structure DelegationState where
  /-- Stake that is currently active on the operator. -/
  stakedAmount : Nat := 0
  /-- Stake that was deactivated in the current epoch. -/
  enqueuedForCooldownAmount : Nat := 0
  /-- Stake that was deactivated in the previous epoch. -/
  coolingDownAmount : Nat := 0
deriving DecidableEq, Repr, Inhabited

namespace DelegationState

/-- Component-wise sum. -/
def add (left right : DelegationState) : DelegationState where
  stakedAmount := left.stakedAmount + right.stakedAmount
  enqueuedForCooldownAmount := left.enqueuedForCooldownAmount + right.enqueuedForCooldownAmount
  coolingDownAmount := left.coolingDownAmount + right.coolingDownAmount

instance : Zero DelegationState := ⟨{}⟩

instance : Add DelegationState := ⟨add⟩

@[simp] theorem zero_stakedAmount : (0 : DelegationState).stakedAmount = 0 := rfl

@[simp] theorem zero_enqueued : (0 : DelegationState).enqueuedForCooldownAmount = 0 := rfl

@[simp] theorem zero_coolingDown : (0 : DelegationState).coolingDownAmount = 0 := rfl

variable (left right : DelegationState)

@[simp] theorem add_stakedAmount : (left + right).stakedAmount = left.stakedAmount + right.stakedAmount := rfl

@[simp] theorem add_enqueued : (left + right).enqueuedForCooldownAmount =
    left.enqueuedForCooldownAmount + right.enqueuedForCooldownAmount := rfl

@[simp] theorem add_coolingDown :
    (left + right).coolingDownAmount = left.coolingDownAmount + right.coolingDownAmount := rfl

/-- Delegation states are summed over the operators of a vault. -/
instance : AddCommMonoid DelegationState where
  add_assoc a b c := by ext <;> simp [Nat.add_assoc]
  zero_add a := by ext <;> simp
  add_zero a := by ext <;> simp
  add_comm a b := by ext <;> simp [Nat.add_comm]
  nsmul := nsmulRec

/-- Accumulate the state of `other` into `self`. -/
def accumulate (self other : DelegationState) : Except VaultError DelegationState := do
  let stakedAmount ← okOr (checkedAdd 64 self.stakedAmount other.stakedAmount)
    .vaultSecurityOverflow
  let enqueuedForCooldownAmount ← okOr
    (checkedAdd 64 self.enqueuedForCooldownAmount other.enqueuedForCooldownAmount)
    .vaultSecurityOverflow
  let coolingDownAmount ← okOr (checkedAdd 64 self.coolingDownAmount other.coolingDownAmount)
    .vaultSecurityOverflow
  pure { stakedAmount, enqueuedForCooldownAmount, coolingDownAmount }

variable (self : DelegationState)

/-- All stake that can be applied for security: active and cooling down. -/
def totalSecurity : Except VaultError Nat :=
  okOr ((checkedAdd 64 self.stakedAmount self.enqueuedForCooldownAmount).bind
    fun sum => checkedAdd 64 sum self.coolingDownAmount) .vaultSecurityOverflow

/-- Age the cooling stake by one epoch. -/
def update : DelegationState :=
  { self with
    coolingDownAmount := self.enqueuedForCooldownAmount
    enqueuedForCooldownAmount := 0 }

/-- Age the cooling stake by a number of epochs. Two transitions empty it: enqueued to cooling down, and
    cooling down to not allocated. -/
def updateFor (epochDiff : Nat) : DelegationState :=
  match epochDiff with
  | 0 => self
  | 1 => self.update
  | _ => self.update.update

/-- Move stake from staked to enqueued for cooldown. -/
def cooldown (amount : Nat) : Except VaultError DelegationState := do
  rejectIf (amount = 0) .vaultCooldownZero
  let stakedAmount ← okOr (checkedSub self.stakedAmount amount) .vaultSecurityUnderflow
  let enqueuedForCooldownAmount ← okOr (checkedAdd 64 self.enqueuedForCooldownAmount amount)
    .vaultSecurityOverflow
  pure { self with stakedAmount, enqueuedForCooldownAmount }

/-- Delegate assets to the operator. -/
def delegate (amount : Nat) : Except VaultError DelegationState := do
  rejectIf (amount = 0) .vaultDelegationZero
  let stakedAmount ← okOr (checkedAdd 64 self.stakedAmount amount) .vaultSecurityOverflow
  pure { self with stakedAmount }

/-- The sum of the three components. -/
def total : Nat :=
  self.stakedAmount + self.enqueuedForCooldownAmount + self.coolingDownAmount

@[simp] theorem total_add : (left + right).total = left.total + right.total := by
  simp only [total, add_stakedAmount, add_enqueued, add_coolingDown]
  omega

variable {self after : DelegationState}

theorem accumulate_eq_add (accumulated : self.accumulate other = .ok after) : after = self + other := by
  simp only [accumulate, ok_iffs] at accumulated
  obtain ⟨_, ⟨_, rfl⟩, _, ⟨_, rfl⟩, _, ⟨_, rfl⟩, rfl⟩ := accumulated
  rfl

theorem totalSecurity_eq_ok : self.totalSecurity = .ok amount ↔ self.total < 2 ^ 64 ∧ self.total = amount := by
  simp only [totalSecurity, okOr_eq_ok, Option.bind_eq_some_iff, checkedAdd_eq_some, total]
  constructor
  · rintro ⟨_, ⟨_, rfl⟩, fits, same⟩
    exact ⟨fits, same⟩
  · rintro ⟨fits, same⟩
    exact ⟨_, ⟨by omega, rfl⟩, fits, same⟩

/-- Cooling down moves stake between two components and leaves the third. -/
theorem cooldown_eq_ok : self.cooldown amount = .ok after ↔
    0 < amount ∧ amount ≤ self.stakedAmount ∧
      self.enqueuedForCooldownAmount + amount < 2 ^ 64 ∧
      after = { self with
        stakedAmount := self.stakedAmount - amount
        enqueuedForCooldownAmount := self.enqueuedForCooldownAmount + amount } := by
  simp only [cooldown, ok_iffs]
  constructor
  · rintro ⟨pos, _, ⟨within, rfl⟩, _, ⟨fits, rfl⟩, rfl⟩
    exact ⟨by omega, within, fits, rfl⟩
  · rintro ⟨pos, within, fits, rfl⟩
    exact ⟨by omega, _, ⟨within, rfl⟩, _, ⟨fits, rfl⟩, rfl⟩

@[simp] theorem updateFor_stakedAmount (self : DelegationState) (epochDiff) :
    (self.updateFor epochDiff).stakedAmount = self.stakedAmount := by
  unfold updateFor
  split <;> rfl

theorem delegate_eq_ok : self.delegate amount = .ok after ↔
    0 < amount ∧ self.stakedAmount + amount < 2 ^ 64 ∧
      after = { self with stakedAmount := self.stakedAmount + amount } := by
  simp only [delegate, ok_iffs]
  constructor
  · rintro ⟨pos, _, ⟨fits, rfl⟩, rfl⟩
    exact ⟨by omega, fits, rfl⟩
  · rintro ⟨pos, fits, rfl⟩
    exact ⟨by omega, _, ⟨fits, rfl⟩, rfl⟩

end DelegationState

/-- The delegation of a vault to an operator. -/
structure VaultOperatorDelegation where
  delegationState : DelegationState
  /-- The last slot `update` was called. -/
  lastUpdateSlot : Nat
  index : Nat
deriving DecidableEq, Repr

namespace VaultOperatorDelegation

def new (index slot : Nat) : VaultOperatorDelegation where
  delegationState := 0
  lastUpdateSlot := slot
  index := index

def checkIsAlreadyUpdated (self : VaultOperatorDelegation) (slot epochLength : Nat) : Except ProgramError Unit := do
  let lastUpdateEpoch ← getEpoch self.lastUpdateSlot epochLength
  let currentEpoch ← getEpoch slot epochLength
  rejectIf (lastUpdateEpoch ≥ currentEpoch) (.vault .vaultOperatorDelegationIsUpdated)

/-- Age the delegation to the epoch of `slot`. -/
def update (self : VaultOperatorDelegation) (slot epochLength : Nat) :
    Except ProgramError VaultOperatorDelegation := do
  let lastUpdateEpoch ← getEpoch self.lastUpdateSlot epochLength
  let currentEpoch ← getEpoch slot epochLength
  let epochDiff ← okOr (checkedSub currentEpoch lastUpdateEpoch) (.vault .arithmeticUnderflow)
  pure { self with
    delegationState := self.delegationState.updateFor epochDiff
    lastUpdateSlot := slot }

variable {self after : VaultOperatorDelegation} {config : Config} {slot : Nat}

theorem checkIsAlreadyUpdated_ok (checked : self.checkIsAlreadyUpdated slot config.epochLength = .ok u) :
    config.epochOf self.lastUpdateSlot < config.epochOf slot := by
  simp only [checkIsAlreadyUpdated, Config.getEpoch_epochLength, ok_iffs, exists_eq_left'] at checked
  omega

theorem update_ok (updated : self.update slot config.epochLength = .ok after) :
    after = { self with
      delegationState := self.delegationState.updateFor
        (config.epochOf slot - config.epochOf self.lastUpdateSlot)
      lastUpdateSlot := slot } := by
  simp only [update, Config.getEpoch_epochLength, ok_iffs, exists_eq_left'] at updated
  obtain ⟨_, ⟨_, rfl⟩, rfl⟩ := updated
  rfl

end VaultOperatorDelegation

/-- A pending withdrawal. -/
structure VaultStakerWithdrawalTicket where
  /-- The staker withdrawing from the vault. -/
  staker : Pubkey
  /-- The VRT held by the ticket's token account at the time of creation. -/
  vrtAmount : Nat
  /-- The slot the withdrawal was enqueued. -/
  slotUnstaked : Nat
deriving DecidableEq, Repr

namespace VaultStakerWithdrawalTicket

def checkStaker (self : VaultStakerWithdrawalTicket) (staker : Pubkey) : Except VaultError Unit :=
  rejectIf (self.staker ≠ staker) .vaultStakerWithdrawalTicketInvalidStaker

/-- A ticket is withdrawable once more than one full epoch has passed since unstaking. -/
def isWithdrawable (self : VaultStakerWithdrawalTicket) (slot epochLength : Nat) : Except ProgramError Bool := do
  let currentEpoch ← getEpoch slot epochLength
  let epochUnstaked ← getEpoch self.slotUnstaked epochLength
  let fullEpoch ← okOr (checkedAdd 64 epochUnstaked 1) (.vault .arithmeticOverflow)
  pure (decide (fullEpoch < currentEpoch))

theorem isWithdrawable_ok {self : VaultStakerWithdrawalTicket} {config : Config}
    (withdrawable : self.isWithdrawable slot config.epochLength = .ok true) :
    config.epochOf self.slotUnstaked + 2 ≤ config.epochOf slot := by
  simp only [isWithdrawable, Config.getEpoch_epochLength, ok_iffs, exists_eq_left',
    decide_eq_true_eq] at withdrawable
  omega

end VaultStakerWithdrawalTicket

/-- How the assets to unstake are taken from the operators. -/
inductive WithdrawalAllocationMethod where
  /-- Take as much as possible from each operator visited. -/
  | greedy
deriving DecidableEq, Repr

/-- The tracker of the update cycle of an epoch. -/
structure VaultUpdateStateTracker where
  ncnEpoch : Nat
  /-- `u64::MAX` until the first operator has been visited. -/
  lastUpdatedIndex : Nat
  /-- The total over the operators visited. -/
  delegationState : DelegationState
  withdrawalAllocationMethod : WithdrawalAllocationMethod
deriving DecidableEq, Repr

namespace VaultUpdateStateTracker

def new (ncnEpoch : Nat) (withdrawalAllocationMethod : WithdrawalAllocationMethod) :
    VaultUpdateStateTracker where
  ncnEpoch := ncnEpoch
  lastUpdatedIndex := u64Max
  delegationState := 0
  withdrawalAllocationMethod := withdrawalAllocationMethod

/-- Accept only the next index of the rotation. -/
def checkAndUpdateIndex (self : VaultUpdateStateTracker) (index numOperators : Nat) :
    Except VaultError VaultUpdateStateTracker := do
  if self.lastUpdatedIndex = u64Max then
    let startIndex ← okOr (checkedRem self.ncnEpoch numOperators) .divisionByZero
    rejectIf (index ≠ startIndex) .vaultUpdateIncorrectIndex
  else
    let nextIndex ← okOr ((checkedAdd 64 self.lastUpdatedIndex 1).bind
      fun next => checkedRem next numOperators) .arithmeticOverflow
    rejectIf (index ≠ nextIndex) .vaultUpdateIncorrectIndex
  pure { self with lastUpdatedIndex := index }

/-- Whether the last index visited is the one before the start. -/
def allOperatorsUpdated (self : VaultUpdateStateTracker) (numOperators : Nat) : Except VaultError Bool :=
  if self.lastUpdatedIndex = u64Max then .ok false
  else do
    let startIndex ← okOr (checkedRem self.ncnEpoch numOperators) .divisionByZero
    if startIndex = 0 then
      let last ← okOr (checkedSub numOperators 1) .arithmeticUnderflow
      pure (decide (self.lastUpdatedIndex = last))
    else
      let last ← okOr (checkedSub startIndex 1) .arithmeticUnderflow
      pure (decide (self.lastUpdatedIndex = last))

/-! ### The rotation the tracker follows -/

/-- The index stored after `visited` operators of a rotation have been visited. -/
def indexAfter (ncnEpoch numOperators : Nat) : Nat → Nat
  | 0 => u64Max
  | visited + 1 => turn ncnEpoch numOperators visited

variable {self after : VaultUpdateStateTracker} {index numOperators visited : Nat}

section

variable (fits : numOperators < 2 ^ 64)
include fits

theorem indexAfter_succ_ne (pos : 0 < numOperators) (ncnEpoch visited) :
    indexAfter ncnEpoch numOperators (visited + 1) ≠ u64Max := by
  have below : turn ncnEpoch numOperators visited < numOperators := turn_lt pos
  simp only [indexAfter, u64Max]
  omega

/-- A tracker that has visited some operators accepts exactly the next one of the rotation. -/
theorem checkAndUpdateIndex_ok (stored : self.lastUpdatedIndex = indexAfter self.ncnEpoch numOperators visited)
    (checked : self.checkAndUpdateIndex index numOperators = .ok after) :
    index = turn self.ncnEpoch numOperators visited ∧ 0 < numOperators ∧
      after = { self with lastUpdatedIndex := index } := by
  unfold checkAndUpdateIndex at checked
  cases visited with
  | zero =>
    have first : self.lastUpdatedIndex = u64Max := stored
    simp only [if_pos first, ok_iffs, checkedRem_eq_some] at checked
    obtain ⟨_, ⟨some, rfl⟩, same, rfl⟩ := checked
    exact ⟨by simpa [turn] using same, by omega, rfl⟩
  | succ visited =>
    by_cases sentinel : self.lastUpdatedIndex = u64Max
    · -- the sentinel is out of the range of the indices
      rcases Nat.eq_zero_or_pos numOperators with none | pos
      · subst none
        simp [if_pos sentinel, bind_ok_iff] at checked
      · exact absurd (stored ▸ sentinel) (indexAfter_succ_ne fits pos _ _)
    · simp only [if_neg sentinel, ok_iffs, Option.bind_eq_some_iff, checkedRem_eq_some] at checked
      obtain ⟨_, ⟨_, ⟨_, rfl⟩, some, rfl⟩, same, rfl⟩ := checked
      refine ⟨?_, by omega, rfl⟩
      rw [same, stored, indexAfter, turn_succ]

/-- A tracker reports all operators updated once it has gone through a whole rotation. -/
theorem allOperatorsUpdated_eq (pos : 0 < numOperators) (visitedLe : visited ≤ numOperators)
    (stored : self.lastUpdatedIndex = indexAfter self.ncnEpoch numOperators visited) :
    self.allOperatorsUpdated numOperators = .ok (decide (visited = numOperators)) := by
  unfold allOperatorsUpdated
  cases visited with
  | zero =>
    have first : self.lastUpdatedIndex = u64Max := stored
    rw [if_pos first, decide_eq_false (by omega)]
  | succ visited =>
    have startLt : self.ncnEpoch % numOperators < numOperators := Nat.mod_lt _ pos
    -- the last turn of the rotation ends right before its start, whichever index that is
    have wrap : turn self.ncnEpoch numOperators (numOperators - 1) =
        (self.ncnEpoch % numOperators + (numOperators - 1)) % numOperators := by simp [turn]
    have last : self.lastUpdatedIndex = turn self.ncnEpoch numOperators (numOperators - 1) ↔
        visited + 1 = numOperators := by
      rw [stored]
      constructor
      · intro same
        have counted := turn_injective (by omega) (by omega) same
        omega
      · rintro rfl
        rfl
    simp only [if_neg (stored ▸ indexAfter_succ_ne fits pos _ _), ok_iffs, checkedRem_eq_some]
    refine ⟨_, ⟨pos.ne', rfl⟩, ?_⟩
    split
    · rename_i start
      rw [start, Nat.zero_add, Nat.mod_eq_of_lt (by omega)] at wrap
      simp only [ok_iffs, decide_eq_decide]
      exact ⟨_, ⟨by omega, rfl⟩, wrap ▸ last⟩
    · have shifted : self.ncnEpoch % numOperators + (numOperators - 1) =
          (self.ncnEpoch % numOperators - 1) + numOperators := by omega
      rw [shifted, Nat.add_mod_right, Nat.mod_eq_of_lt (by omega)] at wrap
      simp only [ok_iffs, decide_eq_decide]
      exact ⟨_, ⟨by omega, rfl⟩, wrap ▸ last⟩

theorem visited_of_allOperatorsUpdated (visitedLe : visited ≤ numOperators)
    (stored : self.lastUpdatedIndex = indexAfter self.ncnEpoch numOperators visited)
    (finished : self.allOperatorsUpdated numOperators = .ok true) : visited = numOperators := by
  rcases Nat.eq_zero_or_pos numOperators with none | pos
  · omega
  · rw [allOperatorsUpdated_eq fits pos visitedLe stored, Except.ok.injEq, decide_eq_true_eq] at finished
    exact finished

end

end VaultUpdateStateTracker

end Payout.Restaking
