/-
Purpose: The vault account: its fields, the checks on admins, freshness and pausing, its fees with the limits on how
  they may change, and its asset accounting: minting against deposits, burning for withdrawals, rewards, the assets
  reserved for outstanding withdrawals and what may be delegated.
Source: vault_core/src/vault.rs, vault_program/src/update_vault_balance.rs
-/
import Payout.Restaking.Core
import Payout.Lib.SharePool

namespace Payout.Restaking

open Lib Bps

/-- The vault account. -/
structure Vault where
  /-- The base account of the VRT. -/
  base : Pubkey
  vrtMint : Pubkey
  /-- Mint of the token that is supported by the VRT. -/
  supportedMint : Pubkey
  /-- The total number of VRT in circulation. -/
  vrtSupply : Nat
  /-- The total number of tokens deposited. -/
  tokensDeposited : Nat
  depositCapacity : Nat
  /-- Rolled-up stake state for all operators. -/
  delegationState : DelegationState
  /-- The additional assets that need unstaking to fulfill VRT withdrawals. -/
  additionalAssetsNeedUnstaking : Nat
  vrtEnqueuedForCooldownAmount : Nat
  vrtCoolingDownAmount : Nat
  vrtReadyToClaimAmount : Nat
  admin : Pubkey
  delegationAdmin : Pubkey
  operatorAdmin : Pubkey
  ncnAdmin : Pubkey
  slasherAdmin : Pubkey
  capacityAdmin : Pubkey
  feeAdmin : Pubkey
  delegateAssetAdmin : Pubkey
  feeWallet : Pubkey
  /-- Optional mint and burn signer; the default key stands for none. -/
  mintBurnAdmin : Pubkey
  metadataAdmin : Pubkey
  vaultIndex : Nat
  /-- Number of operator delegations tracked by this vault. -/
  operatorCount : Nat
  lastFeeChangeSlot : Nat
  /-- The slot of the last time the delegations were updated. -/
  lastFullStateUpdateSlot : Nat
  depositFeeBps : Bps
  withdrawalFeeBps : Bps
  /-- The withdrawal fee from the next update cycle on. -/
  nextWithdrawalFeeBps : Bps
  rewardFeeBps : Bps
  /-- Copied from the configuration. -/
  programFeeBps : Bps
  isPaused : Bool
  lastStartStateUpdateSlot : Nat
deriving DecidableEq, Repr

/-- What `load_signer` sees: the accounts that signed the transaction. Derived addresses lie off the curve
    and never do. -/
structure Signers where
  keys : List Pubkey
  wallets : ∀ key ∈ keys, key.isWallet = true

/-- `load_signer`. -/
def loadSigner (signers : Signers) (key : Pubkey) : Except ProgramError Unit :=
  rejectIf (key ∉ signers.keys) .missingRequiredSignature

theorem isWallet_of_loadSigner (signed : loadSigner signers key = .ok u) : key.isWallet = true := by
  simp only [loadSigner, rejectIf_eq_ok, not_not] at signed
  exact signers.wallets key signed

namespace Vault

/-- `MAX_REWARD_DELTA_BPS`. -/
def maxRewardDeltaBps : Nat := 50

/-- A vault without deposits: every role is the admin's, and nobody has to sign for minting. -/
def empty (vrtMint supportedMint admin : Pubkey) (vaultIndex : Nat) (base : Pubkey)
    (depositFeeBps withdrawalFeeBps rewardFeeBps programFeeBps : Bps) (currentSlot : Nat) : Vault where
  base := base
  vrtMint := vrtMint
  supportedMint := supportedMint
  admin := admin
  delegationAdmin := admin
  operatorAdmin := admin
  ncnAdmin := admin
  slasherAdmin := admin
  capacityAdmin := admin
  feeAdmin := admin
  delegateAssetAdmin := admin
  feeWallet := admin
  metadataAdmin := admin
  mintBurnAdmin := .default
  depositCapacity := u64Max
  vaultIndex := vaultIndex
  vrtSupply := 0
  tokensDeposited := 0
  vrtEnqueuedForCooldownAmount := 0
  vrtCoolingDownAmount := 0
  vrtReadyToClaimAmount := 0
  lastFeeChangeSlot := currentSlot
  lastFullStateUpdateSlot := currentSlot
  lastStartStateUpdateSlot := currentSlot
  depositFeeBps := depositFeeBps
  withdrawalFeeBps := withdrawalFeeBps
  nextWithdrawalFeeBps := withdrawalFeeBps
  rewardFeeBps := rewardFeeBps
  programFeeBps := programFeeBps
  operatorCount := 0
  delegationState := 0
  additionalAssetsNeedUnstaking := 0
  isPaused := false

/-- `Vault::new`: a vault without deposits, with fees of at most the whole. -/
def new (vrtMint supportedMint admin : Pubkey) (vaultIndex : Nat) (base : Pubkey)
    (depositFeeBps withdrawalFeeBps rewardFeeBps : Nat) (programFeeBpsFromConfig : Bps)
    (currentSlot : Nat) : Except VaultError Vault := do
  let depositFeeBps ← okOr (check depositFeeBps) .vaultFeeCapExceeded
  let withdrawalFeeBps ← okOr (check withdrawalFeeBps) .vaultFeeCapExceeded
  let rewardFeeBps ← okOr (check rewardFeeBps) .vaultFeeCapExceeded
  pure (empty vrtMint supportedMint admin vaultIndex base depositFeeBps withdrawalFeeBps rewardFeeBps
    programFeeBpsFromConfig currentSlot)

variable (self : Vault)

/-- The address of the vault: `Vault::find_program_address(base)`. -/
def key : Pubkey := .vault self.base

/-! ### Counters -/

def incrementOperatorCount : Except VaultError Vault := do
  let operatorCount ← okOr (checkedAdd 64 self.operatorCount 1) .operatorOverflow
  pure { self with operatorCount }

def incrementVrtSupply (amount : Nat) : Except VaultError Vault := do
  let vrtSupply ← okOr (checkedAdd 64 self.vrtSupply amount) .vaultOverflow
  pure { self with vrtSupply }

def incrementVrtEnqueuedForCooldownAmount (amount : Nat) : Except VaultError Vault := do
  let vrtEnqueuedForCooldownAmount ← okOr (checkedAdd 64 self.vrtEnqueuedForCooldownAmount amount)
    .vaultOverflow
  pure { self with vrtEnqueuedForCooldownAmount }

def incrementVrtReadyToClaimAmount (amount : Nat) : Except VaultError Vault := do
  let vrtReadyToClaimAmount ← okOr (checkedAdd 64 self.vrtReadyToClaimAmount amount) .vaultOverflow
  pure { self with vrtReadyToClaimAmount }

def decrementVrtReadyToClaimAmount (amount : Nat) : Except VaultError Vault := do
  let vrtReadyToClaimAmount ← okOr (checkedSub self.vrtReadyToClaimAmount amount) .vaultUnderflow
  pure { self with vrtReadyToClaimAmount }

def decrementAdditionalAssetsNeedUnstaking (amount : Nat) : Except VaultError Vault := do
  let additionalAssetsNeedUnstaking ← okOr (checkedSub self.additionalAssetsNeedUnstaking amount)
    .vaultUnderflow
  pure { self with additionalAssetsNeedUnstaking }

/-! ### Checks -/

def checkIsPaused : Except VaultError Unit :=
  rejectIf (self.isPaused = true) .vaultIsPaused

def checkVrtMint (vrtMint : Pubkey) : Except ProgramError Unit :=
  rejectIf (self.vrtMint ≠ vrtMint) .invalidAccountData

def checkAdmin (admin : Pubkey) : Except ProgramError Unit :=
  rejectIf (self.admin ≠ admin) (.vault .vaultAdminInvalid)

def checkDelegationAdmin (delegationAdmin : Pubkey) : Except VaultError Unit :=
  rejectIf (self.delegationAdmin ≠ delegationAdmin) .vaultDelegationAdminInvalid

def checkOperatorAdmin (operatorAdmin : Pubkey) : Except VaultError Unit :=
  rejectIf (self.operatorAdmin ≠ operatorAdmin) .vaultOperatorAdminInvalid

def checkCapacityAdmin (capacityAdmin : Pubkey) : Except VaultError Unit :=
  rejectIf (self.capacityAdmin ≠ capacityAdmin) .vaultCapacityAdminInvalid

def checkFeeAdmin (feeAdmin : Pubkey) : Except VaultError Unit :=
  rejectIf (self.feeAdmin ≠ feeAdmin) .vaultFeeAdminInvalid

/-- A vault with a mint and burn admin needs that admin's signature. -/
def checkMintBurnAdmin (signers : Signers) (mintBurnAdmin : Option Pubkey) : Except VaultError Unit :=
  if self.mintBurnAdmin ≠ .default then
    match mintBurnAdmin with
    | some burnSigner => do
        rejectIf (burnSigner ∉ signers.keys) .vaultMintBurnAdminInvalid
        rejectIf (burnSigner ≠ self.mintBurnAdmin) .vaultMintBurnAdminInvalid
    | none => .error .vaultMintBurnAdminInvalid
  else pure ()

/-- Whether an epoch has begun since the last full update. -/
def isUpdateNeeded (slot epochLength : Nat) : Except ProgramError Bool := do
  let lastUpdatedEpoch ← getEpoch self.lastFullStateUpdateSlot epochLength
  let currentEpoch ← getEpoch slot epochLength
  pure (decide (lastUpdatedEpoch < currentEpoch))

def checkUpdateStateOk (slot epochLength : Nat) : Except ProgramError Unit := do
  let needed ← self.isUpdateNeeded slot epochLength
  rejectIf (needed = true) (.vault .vaultUpdateNeeded)

theorem checkUpdateStateOk_eq_ok {self : Vault} {config : Config} :
    self.checkUpdateStateOk slot config.epochLength = .ok u ↔
      config.epochOf slot ≤ config.epochOf self.lastFullStateUpdateSlot := by
  simp only [checkUpdateStateOk, isUpdateNeeded, Config.getEpoch_epochLength, ok_iffs, exists_eq_left',
    decide_eq_true_eq, not_lt]

/-- Replace the secondary admins that were equal to the old admin. -/
def updateSecondaryAdmin (oldAdmin newAdmin : Pubkey) : Vault :=
  let replaced (admin : Pubkey) : Pubkey := if admin = oldAdmin then newAdmin else admin
  { self with
    delegationAdmin := replaced self.delegationAdmin
    operatorAdmin := replaced self.operatorAdmin
    ncnAdmin := replaced self.ncnAdmin
    slasherAdmin := replaced self.slasherAdmin
    capacityAdmin := replaced self.capacityAdmin
    feeWallet := replaced self.feeWallet
    mintBurnAdmin := replaced self.mintBurnAdmin
    delegateAssetAdmin := replaced self.delegateAssetAdmin
    feeAdmin := replaced self.feeAdmin
    metadataAdmin := replaced self.metadataAdmin }

/-! ### Fees -/

/-- A full epoch must pass before fees can be changed again. -/
def checkCanModifyFees (slot epochLength : Nat) : Except ProgramError Unit := do
  let currentEpoch ← getEpoch slot epochLength
  let lastFeeChangeEpoch ← getEpoch self.lastFeeChangeSlot epochLength
  let fullEpoch ← okOr (checkedAdd 64 lastFeeChangeEpoch 1) (.vault .arithmeticOverflow)
  rejectIf (currentEpoch ≤ fullEpoch) (.vault .vaultFeeChangeTooSoon)

/-- A fee may rise by the bump, or by the rate of change relative to its current value. -/
def checkFeeChangeOk (currentFeeBps newFeeBps feeCapBps feeBumpBps feeRateOfChangeBps : Nat) :
    Except VaultError Unit := do
  rejectIf (maxBps < currentFeeBps ∨ maxBps < newFeeBps ∨ maxBps < feeCapBps ∨ maxBps < feeBumpBps ∨
    maxBps < feeRateOfChangeBps) .vaultFeeCapExceeded
  let feeDelta := newFeeBps - currentFeeBps
  let feeCapBps := min feeCapBps maxBps
  rejectIf (feeCapBps < newFeeBps) .vaultFeeCapExceeded
  if feeBumpBps < feeDelta then
    -- a rise from zero divides by zero and counts as the largest
    let percentageIncreaseBps := (mulDiv 128 64 feeDelta maxBps currentFeeBps).getD u64Max
    rejectIf (feeRateOfChangeBps < percentageIncreaseBps) .vaultFeeBumpTooLarge
  else pure ()

/-- The common body of the two fee setters: the new rate, if it is within the cap and the limits of change. -/
def changedFee (currentFeeBps : Bps) (newFeeBps depositWithdrawalFeeCapBps feeBumpBps
    feeRateOfChangeBps : Nat) : Except VaultError Bps := do
  let rate ← okOr (check newFeeBps) .vaultFeeCapExceeded
  rejectIf (depositWithdrawalFeeCapBps < newFeeBps) .vaultFeeCapExceeded
  checkFeeChangeOk currentFeeBps newFeeBps depositWithdrawalFeeCapBps feeBumpBps feeRateOfChangeBps
  pure rate

def setWithdrawalFeeBps (withdrawalFeeBps : Nat) : Except VaultError Vault := do
  let withdrawalFeeBps ← okOr (check withdrawalFeeBps) .vaultFeeCapExceeded
  pure { self with withdrawalFeeBps }

/-- The next withdrawal fee is checked against the fee in force now. -/
def setNextWithdrawalFeeBps (withdrawalFeeBps depositWithdrawalFeeCapBps feeBumpBps
    feeRateOfChangeBps : Nat) : Except VaultError Vault := do
  let nextWithdrawalFeeBps ← changedFee self.withdrawalFeeBps withdrawalFeeBps
    depositWithdrawalFeeCapBps feeBumpBps feeRateOfChangeBps
  pure { self with nextWithdrawalFeeBps }

def setDepositFeeBps (depositFeeBps depositWithdrawalFeeCapBps feeBumpBps
    feeRateOfChangeBps : Nat) : Except VaultError Vault := do
  let depositFeeBps ← changedFee self.depositFeeBps depositFeeBps depositWithdrawalFeeCapBps
    feeBumpBps feeRateOfChangeBps
  pure { self with depositFeeBps }

def setRewardFeeBps (rewardFeeBps : Nat) : Except VaultError Vault := do
  let rewardFeeBps ← okOr (check rewardFeeBps) .vaultFeeCapExceeded
  pure { self with rewardFeeBps }

def setProgramFeeBps (programFeeBps : Nat) : Except ProgramError Vault := do
  let programFeeBps ← okOr (check programFeeBps) .invalidInstructionData
  pure { self with programFeeBps }

/-- Only used by `InitializeVault`, with the signature of the base account. -/
def initializeVaultOverrideDepositFeeBps (signers : Signers) (depositFeeBps : Nat)
    (base : Pubkey) : Except ProgramError Vault := do
  loadSigner signers base
  let depositFeeBps ← okOr (check depositFeeBps) (.vault .vaultFeeCapExceeded)
  pure { self with depositFeeBps }

end Vault

open DelegationState Option

structure BurnSummary where
  /-- VRT transferred to the vault fee account. -/
  vaultFeeAmount : Nat
  /-- VRT transferred to the program fee account. -/
  programFeeAmount : Nat
  /-- VRT of the staker that is burned. -/
  burnAmount : Nat
  /-- Tokens returned to the staker. -/
  outAmount : Nat
deriving DecidableEq, Repr

structure MintSummary where
  vrtToDepositor : Nat
  vrtToFeeWallet : Nat
deriving DecidableEq, Repr

namespace Vault

/-! ### Minting -/

variable (self : Vault)

/-- VRT for an amount of tokens: pro rata, or one for one while no tokens are deposited. -/
def calculateVrtMintAmount (amount : Nat) : Except VaultError Nat :=
  if self.tokensDeposited = 0 then .ok amount
  else okOr (mulDiv 128 64 amount self.vrtSupply self.tokensDeposited) .vaultOverflow

def calculateDepositFee (vrtAmount : Nat) : Except VaultError Nat :=
  self.depositFeeBps.feeOf vrtAmount

def calculateWithdrawalFee (vrtAmount : Nat) : Except VaultError Nat :=
  self.withdrawalFeeBps.feeOf vrtAmount

/-- Deposit tokens, minting VRT to the depositor and the fee wallet. -/
def mintWithFee (amountIn minAmountOut : Nat) : Except VaultError (MintSummary × Vault) := do
  rejectIf (amountIn = 0) .vaultMintZero
  let vaultTokenAmountAfterDeposit ← okOr (checkedAdd 64 self.tokensDeposited amountIn)
    .vaultOverflow
  rejectIf (self.depositCapacity < vaultTokenAmountAfterDeposit) .vaultCapacityExceeded
  let vrtMintAmount ← self.calculateVrtMintAmount amountIn
  let vrtToFeeWallet ← self.calculateDepositFee vrtMintAmount
  let vrtToDepositor ← okOr (checkedSub vrtMintAmount vrtToFeeWallet) .vaultUnderflow
  rejectIf (vrtToDepositor < minAmountOut) .slippageError
  let vrtSupply ← okOr (checkedAdd 64 self.vrtSupply vrtMintAmount) .vaultOverflow
  pure ({ vrtToDepositor, vrtToFeeWallet },
    { self with vrtSupply, tokensDeposited := vaultTokenAmountAfterDeposit })

/-! ### Rewards -/

/-- The reward fee in supported tokens. -/
def calculateStRewardFee (newStSupply : Nat) : Except VaultError Nat :=
  let stRewards := newStSupply - self.tokensDeposited
  if stRewards = 0 then .ok 0 else self.rewardFeeBps.feeOf stRewards

/-- Check that the reward fee's actual rate is near the expected one. -/
def checkRewardFeeEffectiveRate (stRewards vrtRewardFee maxDeltaBps : Nat) : Except VaultError Unit := do
  rejectIf (maxBps < maxDeltaBps) .vaultFeeCapExceeded
  if (stRewards = 0 ∨ self.rewardFeeBps.value = 0) ∧ vrtRewardFee = 0 then pure ()
  else
    rejectIf (vrtRewardFee = 0) .vaultRewardFeeIsZero
    let stVrtRatio ← okOr ((checkedMul 128 self.tokensDeposited maxBps).bind
      fun product => checkedDiv product self.vrtSupply) .vaultOverflow
    let rewardsInVrt ← okOr ((checkedMul 128 stRewards maxBps).bind
      fun product => checkedDiv product stVrtRatio) .vaultOverflow
    let effectiveRateBps ← okOr (mulDiv 128 16 vrtRewardFee maxBps rewardsInVrt) .vaultOverflow
    let expectedRateBps := self.rewardFeeBps.value
    let delta := if expectedRateBps < effectiveRateBps then effectiveRateBps - expectedRateBps
      else expectedRateBps - effectiveRateBps
    rejectIf (maxDeltaBps < delta) .vaultRewardFeeDeltaTooLarge

/-- The accounting of `process_update_vault_balance`: record the balance of the vault's token account, and
    mint VRT for the fee on the rewards at the price that leaves the fee out. The first component is the
    VRT minted. -/
def updateBalance (newStBalance : Nat) : Except VaultError (Nat × Vault) := do
  let stRewards := newStBalance - self.tokensDeposited
  let stRewardFee ← self.calculateStRewardFee newStBalance
  let stBalanceAfterFees ← okOr (checkedSub newStBalance stRewardFee) .arithmeticUnderflow
  let vrtRewardFee ← { self with tokensDeposited := stBalanceAfterFees }.calculateVrtMintAmount
    stRewardFee
  let updated ← { self with tokensDeposited := newStBalance }.incrementVrtSupply vrtRewardFee
  updated.checkRewardFeeEffectiveRate stRewards vrtRewardFee maxRewardDeltaBps
  pure (vrtRewardFee, updated)

/-! ### Burning -/

/-- How an amount of VRT splits into fees and a burned part, and what the burned part is paid. -/
def calculateBurnSummary (isStakerProgramFeeWallet isStakerVaultFeeWallet : Bool)
    (amountIn : Nat) : Except VaultError BurnSummary := do
  let programFeeAmount ← Config.calculateProgramFee self.programFeeBps amountIn
  let vaultFeeAmount ← self.calculateWithdrawalFee amountIn
  let fees ← okOr (checkedAdd 64 programFeeAmount vaultFeeAmount) .vaultOverflow
  -- the program fee goes first if together they exceed the amount
  let vaultFeeAmount ← (if amountIn < fees then okOr (checkedSub amountIn programFeeAmount) .vaultUnderflow
    else .ok vaultFeeAmount : Except VaultError Nat)
  let programFeeAmount := if isStakerProgramFeeWallet then 0 else programFeeAmount
  let vaultFeeAmount := if isStakerVaultFeeWallet then 0 else vaultFeeAmount
  let burnAmount ← okOr ((checkedSub amountIn programFeeAmount).bind
    fun rest => checkedSub rest vaultFeeAmount) .vaultUnderflow
  let outAmount ← okOr (mulDiv 128 64 burnAmount self.tokensDeposited self.vrtSupply) .vaultOverflow
  pure { vaultFeeAmount, programFeeAmount, burnAmount, outAmount }

/-- Burn VRT for tokens that are not delegated. -/
def burnWithFee (isStakerProgramFeeWallet isStakerVaultFeeWallet : Bool)
    (amountIn : Nat) : Except VaultError (BurnSummary × Vault) := do
  rejectIf (amountIn = 0) .vaultBurnZero
  rejectIf (self.vrtSupply < amountIn) .vaultInsufficientFunds
  let summary ← self.calculateBurnSummary isStakerProgramFeeWallet isStakerVaultFeeWallet amountIn
  let totalSecurity ← self.delegationState.totalSecurity
  let maxWithdrawable ← okOr (checkedSub self.tokensDeposited totalSecurity) .vaultUnderflow
  rejectIf (maxWithdrawable < summary.outAmount) .vaultUnderflow
  let vrtSupply ← okOr (checkedSub self.vrtSupply summary.burnAmount) .vaultUnderflow
  let tokensDeposited ← okOr (checkedSub self.tokensDeposited summary.outAmount) .vaultUnderflow
  pure (summary, { self with vrtSupply, tokensDeposited })

/-! ### Reserves and delegation -/

/-- The tokens that should be reserved for the VRT in withdrawal tickets. -/
def calculateSupportedAssetsRequestedForWithdrawal : Except VaultError Nat :=
  if self.vrtSupply = 0 then .ok 0
  else do
    let vrtReserve ← okOr ((checkedAdd 64 self.vrtEnqueuedForCooldownAmount self.vrtCoolingDownAmount).bind
      fun sum => checkedAdd 64 sum self.vrtReadyToClaimAmount) .vaultOverflow
    let summary ← self.calculateBurnSummary false false vrtReserve
    pure summary.outAmount

/-- The staked tokens that have to be undelegated to meet the withdrawals, after the stake has been aged to
    the current epoch. -/
def calculateAdditionalSupportedAssetsNeededToUnstake (slot epochLength : Nat) : Except ProgramError Nat := do
  let amountRequestedForWithdrawals ← asProgramError
    self.calculateSupportedAssetsRequestedForWithdrawal
  let lastEpochUpdate ← getEpoch self.lastFullStateUpdateSlot epochLength
  let currentEpoch ← getEpoch slot epochLength
  let epochDiff ← okOr (checkedSub currentEpoch lastEpochUpdate) (.vault .arithmeticUnderflow)
  let delegationStateAfterUpdate := self.delegationState.updateFor epochDiff
  let totalDelegatedAfterUpdate ← asProgramError delegationStateAfterUpdate.totalSecurity
  let undelegatedAfterUpdate ← okOr (checkedSub self.tokensDeposited totalDelegatedAfterUpdate)
    (.vault .vaultUnderflow)
  let assetsWithdrawingAfterUpdate ← okOr
    (checkedAdd 64 delegationStateAfterUpdate.enqueuedForCooldownAmount
      delegationStateAfterUpdate.coolingDownAmount) (.vault .vaultOverflow)
  let availableForWithdrawal ← okOr
    (checkedAdd 64 undelegatedAfterUpdate assetsWithdrawingAfterUpdate) (.vault .vaultOverflow)
  pure (amountRequestedForWithdrawals - availableForWithdrawal)

/-- Delegate tokens that are neither delegated nor reserved. -/
def delegate (amount : Nat) : Except VaultError Vault := do
  rejectIf (amount = 0) .vaultDelegationZero
  rejectIf (self.tokensDeposited = 0 ∨ self.vrtSupply = 0) .vaultUnderflow
  let amountToReserveForVrts ← self.calculateSupportedAssetsRequestedForWithdrawal
  let totalSecurity ← self.delegationState.totalSecurity
  let amountAvailableForDelegation ← okOr ((checkedSub self.tokensDeposited totalSecurity).bind
    fun rest => checkedSub rest amountToReserveForVrts) .vaultUnderflow
  rejectIf (amountAvailableForDelegation < amount) .vaultInsufficientFunds
  let delegationState ← self.delegationState.delegate amount
  pure { self with delegationState }

/-! ### What a successful call returned -/

variable {self after : Vault} {amount : Nat}

/-- The VRT minted for an amount are never worth more than the amount. -/
theorem calculateVrtMintAmount_fair (computed : self.calculateVrtMintAmount amount = .ok minted) :
    minted * self.tokensDeposited ≤ amount * self.vrtSupply := by
  unfold calculateVrtMintAmount at computed
  split at computed
  · rename_i none
    simp [none]
  · simp only [okOr_eq_ok, mulDiv_eq_some] at computed
    obtain ⟨_, _, _, rfl⟩ := computed
    exact Nat.div_mul_le_self _ _

/-- The vault after a deposit: the tokens and the VRT minted for them are added. -/
def afterMint (before : Vault) (amountIn : Nat) (summary : MintSummary) : Vault :=
  { before with
    vrtSupply := before.vrtSupply + (summary.vrtToDepositor + summary.vrtToFeeWallet)
    tokensDeposited := before.tokensDeposited + amountIn }

/-- What a deposit that succeeds was checked for. -/
structure Minted (before : Vault) (amountIn : Nat) (summary : MintSummary) : Prop where
  pos : 0 < amountIn
  minted : before.calculateVrtMintAmount amountIn = .ok (summary.vrtToDepositor + summary.vrtToFeeWallet)
  tokensFit : before.tokensDeposited + amountIn < 2 ^ 64
  supplyFits : before.vrtSupply + (summary.vrtToDepositor + summary.vrtToFeeWallet) < 2 ^ 64

theorem mintWithFee_ok (minted : self.mintWithFee amountIn minAmountOut = .ok (summary, after)) :
    Minted self amountIn summary ∧ after = self.afterMint amountIn summary := by
  simp only [mintWithFee, ok_iffs, Prod.mk.injEq] at minted
  obtain ⟨pos, _, ⟨tokensFit, rfl⟩, _, amount, computed, fee, _, _, ⟨feeLe, rfl⟩, _, _,
    ⟨supplyFits, rfl⟩, rfl, rfl⟩ := minted
  have whole : amount - fee + fee = amount := by omega
  refine ⟨⟨by omega, ?_, tokensFit, ?_⟩, ?_⟩
  · rw [computed, whole]
  · rw [whole]
    exact supplyFits
  · rw [afterMint, whole]

/-- The vault after a balance update: the balance is recorded and the VRT of the reward fee are added. -/
def afterUpdate (before : Vault) (newStBalance vrtRewardFee : Nat) : Vault :=
  { before with
    vrtSupply := before.vrtSupply + vrtRewardFee
    tokensDeposited := newStBalance }

/-- What a balance update that succeeds was checked for. -/
structure BalanceUpdated (before : Vault) (newStBalance vrtRewardFee : Nat) : Prop where
  supplyFits : before.vrtSupply + vrtRewardFee < 2 ^ 64
  /-- The fee is at most the rewards, and its VRT are minted at the price that leaves it out. -/
  fair : ∃ fee, fee ≤ newStBalance - before.tokensDeposited ∧
    vrtRewardFee * (newStBalance - fee) ≤ fee * before.vrtSupply

theorem calculateStRewardFee_le (computed : self.calculateStRewardFee newStSupply = .ok fee) :
    fee ≤ newStSupply - self.tokensDeposited := by
  unfold calculateStRewardFee at computed
  dsimp only at computed
  split at computed
  · simp only [Except.ok.injEq] at computed
    omega
  · rw [feeOf_eq_share computed]
    exact share_le _ _

theorem updateBalance_ok (updated : self.updateBalance newStBalance = .ok (vrtRewardFee, after)) :
    BalanceUpdated self newStBalance vrtRewardFee ∧ after = self.afterUpdate newStBalance vrtRewardFee := by
  simp only [updateBalance, incrementVrtSupply, ok_iffs, Prod.mk.injEq] at updated
  obtain ⟨fee, feeComputed, _, ⟨_, rfl⟩, minted, mintComputed, _, ⟨_, ⟨supplyFits, rfl⟩, rfl⟩, _, _, rfl,
    rfl⟩ := updated
  exact ⟨⟨supplyFits, fee, calculateStRewardFee_le feeComputed, calculateVrtMintAmount_fair mintComputed⟩, rfl⟩

/-! ### The split of a burned amount -/

/-- The vault fee, cut to what the program fee leaves. -/
def vaultFee (amount : Nat) : Nat :=
  min (self.withdrawalFeeBps.share amount) (amount - self.programFeeBps.share amount)

/-- What remains of an amount after both fees. -/
def netOfFees (amount : Nat) : Nat :=
  amount - self.programFeeBps.share amount - self.vaultFee amount

/-- The closed form of `calculateBurnSummary`. -/
def burnSummary (isStakerProgramFeeWallet isStakerVaultFeeWallet : Bool) (amountIn : Nat) : BurnSummary :=
  let programFeeAmount := if isStakerProgramFeeWallet then 0 else self.programFeeBps.share amountIn
  let vaultFeeAmount := if isStakerVaultFeeWallet then 0 else self.vaultFee amountIn
  let burnAmount := amountIn - programFeeAmount - vaultFeeAmount
  { vaultFeeAmount, programFeeAmount, burnAmount
    outAmount := proRata burnAmount self.tokensDeposited self.vrtSupply }

variable {program vault : Bool} {amountIn : Nat} {summary : BurnSummary}

theorem fees_le (self : Vault) (amount) : self.programFeeBps.share amount + self.vaultFee amount ≤ amount := by
  have programLe := self.programFeeBps.share_le amount
  have vaultLe : self.vaultFee amount ≤ amount - self.programFeeBps.share amount := min_le_right _ _
  omega

/-- The fees and the burned part add up to the amount, whichever fees are waived. -/
theorem burnSummary_sum (self : Vault) (program vault amountIn) :
    (self.burnSummary program vault amountIn).vaultFeeAmount +
      (self.burnSummary program vault amountIn).programFeeAmount +
      (self.burnSummary program vault amountIn).burnAmount = amountIn := by
  have fees := self.fees_le amountIn
  simp only [burnSummary]
  split <;> split <;> omega

theorem burnAmount_le (self : Vault) (program vault amountIn) :
    (self.burnSummary program vault amountIn).burnAmount ≤ amountIn := by
  have sum := self.burnSummary_sum program vault amountIn
  omega

/-- The vault fee as the code computes it, by cases on whether the fees exceed the amount. -/
theorem vaultFee_eq_ite (self : Vault) (amount) :
    (if amount < self.programFeeBps.share amount + self.withdrawalFeeBps.share amount then
      amount - self.programFeeBps.share amount else self.withdrawalFeeBps.share amount) =
      self.vaultFee amount := by
  unfold vaultFee
  split <;> omega

theorem calculateBurnSummary_ok (computed : self.calculateBurnSummary program vault amountIn = .ok summary) :
    summary = self.burnSummary program vault amountIn ∧ self.vrtSupply ≠ 0 := by
  simp only [calculateBurnSummary, Config.calculateProgramFee, calculateWithdrawalFee, ok_iffs,
    mulDiv_eq_some] at computed
  obtain ⟨programFee, programComputed, withdrawalFee, withdrawalComputed, fees, ⟨_, rfl⟩, vaultFee,
    vaultComputed, burned, burnComputed, out, ⟨_, shares, _, rfl⟩, rfl⟩ := computed
  have programEq := feeOf_eq_share programComputed
  have withdrawalEq := feeOf_eq_share withdrawalComputed
  subst programEq withdrawalEq
  have vaultEq : vaultFee = self.vaultFee amountIn := by
    rw [← self.vaultFee_eq_ite]
    split at vaultComputed
    · rename_i exceeds
      simp only [okOr_eq_ok, checkedSub_eq_some] at vaultComputed
      rw [if_pos exceeds, vaultComputed.2]
    · rename_i fits
      simp only [Except.ok.injEq] at vaultComputed
      rw [if_neg fits, vaultComputed]
  subst vaultEq
  simp only [bind_eq_some_iff, checkedSub_eq_some] at burnComputed
  obtain ⟨_, ⟨_, rfl⟩, _, rfl⟩ := burnComputed
  exact ⟨rfl, shares⟩

/-- The split of an amount of VRT in circulation is computed whenever the sum of its two fees is. -/
theorem calculateBurnSummary_of_le (held : amountIn ≤ self.vrtSupply) (shares : 0 < self.vrtSupply)
    (supplyFits : self.vrtSupply < 2 ^ 64) (tokensFit : self.tokensDeposited < 2 ^ 64)
    (feesFit : self.programFeeBps.share amountIn + self.withdrawalFeeBps.share amountIn < 2 ^ 64) :
    self.calculateBurnSummary program vault amountIn = .ok (self.burnSummary program vault amountIn) := by
  have amountFits : amountIn < 2 ^ 64 := by omega
  have feesLe := self.fees_le amountIn
  have burnLe := self.burnAmount_le program vault amountIn
  have outLe : (self.burnSummary program vault amountIn).outAmount ≤ self.tokensDeposited :=
    proRata_le_whole (burnLe.trans held)
  have burnFits : (self.burnSummary program vault amountIn).burnAmount < 2 ^ 64 := by omega
  simp only [calculateBurnSummary, Config.calculateProgramFee, calculateWithdrawalFee, ok_iffs,
    mulDiv_eq_some, bind_eq_some_iff]
  refine ⟨_, feeOf_of_lt amountFits, _, feeOf_of_lt amountFits, _, ⟨feesFit, rfl⟩,
    self.vaultFee amountIn, ?_, _, ⟨_, ⟨?_, rfl⟩, ?_, rfl⟩, _, ⟨?_, by omega, ?_, rfl⟩, rfl⟩
  · rw [← self.vaultFee_eq_ite]
    split
    · simp only [okOr_eq_ok, checkedSub_eq_some, and_true]
      omega
    · rfl
  · split <;> omega
  · split <;> split <;> omega
  · exact lt_of_lt_of_le (Nat.mul_lt_mul'' burnFits tokensFit) (by decide)
  · exact lt_of_le_of_lt outLe tokensFit

/-- The vault after a burn: the burned VRT and the tokens paid for them are taken out. -/
def afterBurn (before : Vault) (summary : BurnSummary) : Vault :=
  { before with
    vrtSupply := before.vrtSupply - summary.burnAmount
    tokensDeposited := before.tokensDeposited - summary.outAmount }

/-- What a burn that succeeds was checked for. -/
structure Burned (before : Vault) (program vault : Bool) (amountIn : Nat) (summary : BurnSummary) : Prop where
  pos : 0 < amountIn
  held : amountIn ≤ before.vrtSupply
  split : summary = before.burnSummary program vault amountIn
  /-- The tokens paid are not delegated. -/
  available : before.delegationState.total + summary.outAmount ≤ before.tokensDeposited

theorem burnWithFee_ok (burned : self.burnWithFee program vault amountIn = .ok (summary, after)) :
    Burned self program vault amountIn summary ∧ after = self.afterBurn summary := by
  simp only [burnWithFee, ok_iffs, totalSecurity_eq_ok, Prod.mk.injEq] at burned
  obtain ⟨pos, held, _, computed, _, ⟨_, rfl⟩, _, ⟨secured, rfl⟩, available, _, ⟨_, rfl⟩, _,
    ⟨_, rfl⟩, rfl, rfl⟩ := burned
  obtain ⟨split, _⟩ := calculateBurnSummary_ok computed
  exact ⟨⟨by omega, by omega, split, by omega⟩, rfl⟩

theorem Burned.burnAmount_le (burned : Burned self program vault amountIn summary) :
    summary.burnAmount ≤ amountIn := by
  rw [burned.split]
  exact self.burnAmount_le program vault amountIn

/-- A burn of VRT in circulation succeeds whenever its payout is not delegated. -/
theorem burnWithFee_of_available (pos : 0 < amountIn) (held : amountIn ≤ self.vrtSupply)
    (supplyFits : self.vrtSupply < 2 ^ 64) (tokensFit : self.tokensDeposited < 2 ^ 64)
    (feesFit : self.programFeeBps.share amountIn + self.withdrawalFeeBps.share amountIn < 2 ^ 64)
    (available : self.delegationState.total + (self.burnSummary program vault amountIn).outAmount ≤
      self.tokensDeposited) :
    ∃ after, self.burnWithFee program vault amountIn = .ok (self.burnSummary program vault amountIn, after) := by
  have burnLe := self.burnAmount_le program vault amountIn
  refine ⟨self.afterBurn (self.burnSummary program vault amountIn), ?_⟩
  simp only [burnWithFee, ok_iffs, totalSecurity_eq_ok]
  refine ⟨by omega, by omega, _, calculateBurnSummary_of_le held (by omega) supplyFits tokensFit feesFit, _,
    ⟨by omega, rfl⟩, _, ⟨by omega, rfl⟩, by omega, _, ⟨by omega, rfl⟩, _, ⟨by omega, rfl⟩, rfl⟩

/-! ### Reserves and delegation in closed form -/

/-- The VRT in withdrawal tickets, whatever stage they are in. -/
def vrtReserve : Nat :=
  self.vrtEnqueuedForCooldownAmount + self.vrtCoolingDownAmount + self.vrtReadyToClaimAmount

/-- The tokens reserved for the VRT in withdrawal tickets; nothing while there is no VRT. -/
def requested : Nat :=
  proRata (self.netOfFees self.vrtReserve) self.tokensDeposited self.vrtSupply

theorem calculateSupportedAssetsRequestedForWithdrawal_ok
    (computed : self.calculateSupportedAssetsRequestedForWithdrawal = .ok amount) : amount = self.requested := by
  unfold calculateSupportedAssetsRequestedForWithdrawal at computed
  split at computed
  · rename_i none
    simp only [Except.ok.injEq] at computed
    simp [requested, none, ← computed]
  · simp only [ok_iffs, bind_eq_some_iff] at computed
    obtain ⟨_, ⟨_, ⟨_, rfl⟩, _, rfl⟩, _, summary, rfl⟩ := computed
    rw [(calculateBurnSummary_ok summary).1]
    rfl

/-- What has to be unstaked is what the reserve exceeds the tokens that are not staked by: all other stake
    is on its way back. -/
theorem calculateAdditionalSupportedAssetsNeededToUnstake_ok
    (computed : self.calculateAdditionalSupportedAssetsNeededToUnstake slot epochLength = .ok amount) :
    self.calculateSupportedAssetsRequestedForWithdrawal = .ok self.requested ∧
      amount = self.requested - (self.tokensDeposited - self.delegationState.stakedAmount) ∧
      self.delegationState.stakedAmount ≤ self.tokensDeposited := by
  simp only [calculateAdditionalSupportedAssetsNeededToUnstake, ok_iffs, asProgramError_eq_ok,
    totalSecurity_eq_ok] at computed
  obtain ⟨_, requestComputed, _, _, _, _, epochDiff, _, _, ⟨_, rfl⟩, _, ⟨covered, rfl⟩, _, ⟨_, rfl⟩, _,
    ⟨_, rfl⟩, rfl⟩ := computed
  have closedForm := calculateSupportedAssetsRequestedForWithdrawal_ok requestComputed
  rw [← closedForm]
  have staked := self.delegationState.updateFor_stakedAmount epochDiff
  simp only [total] at covered
  unfold total
  exact ⟨requestComputed, by omega, by omega⟩

/-- A delegation adds to the staked tokens what is neither delegated nor reserved. -/
theorem delegate_ok (delegated : self.delegate amount = .ok after) :
    self.delegationState.total + self.requested + amount ≤ self.tokensDeposited ∧
      after = { self with delegationState := { self.delegationState with
        stakedAmount := self.delegationState.stakedAmount + amount } } := by
  simp only [delegate, ok_iffs, bind_eq_some_iff, totalSecurity_eq_ok, delegate_eq_ok] at delegated
  obtain ⟨_, _, reserved, reserveComputed, _, ⟨_, rfl⟩, _, ⟨_, ⟨secured, rfl⟩, covered, rfl⟩,
    available, _, ⟨_, _, rfl⟩, rfl⟩ := delegated
  have reserve := calculateSupportedAssetsRequestedForWithdrawal_ok reserveComputed
  exact ⟨by omega, rfl⟩

end Vault

end Payout.Restaking
