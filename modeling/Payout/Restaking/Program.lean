/-
Purpose: The instructions of the vault program on one vault: the vault with its operator delegations, update trackers
  and withdrawal tickets, the configuration, the clock and the token ledger. As a transition system, an action is an
  instruction on the vault, a token operation by somebody else, or the passage of time.
Source: vault_program/src
-/
import Payout.Restaking.Token
import Payout.Restaking.Vault
import Payout.Lib.Run

namespace Payout.Restaking

open Lib

/-- The accounts of one vault, with the clock, the configuration and all token accounts. -/
structure State where
  slot : Nat
  config : Config
  vault : Vault
  /-- `VaultOperatorDelegation` accounts by operator. -/
  operatorDelegations : Store Pubkey VaultOperatorDelegation
  /-- `VaultUpdateStateTracker` accounts by epoch. -/
  updateStateTrackers : Store Nat VaultUpdateStateTracker
  /-- `VaultStakerWithdrawalTicket` accounts by base. -/
  withdrawalTickets : Store Pubkey VaultStakerWithdrawalTicket
  ledger : TokenLedger

variable (state : State)

/-- The address of the ticket of a base account. -/
def State.ticketKey (base : Pubkey) : Pubkey :=
  .withdrawalTicket state.vault.key base

/-! ### Creating the vault -/

/-- The accounts of `InitializeVault`. -/
structure InitializeVaultAccounts where
  vrtMint : Pubkey
  stMint : Pubkey
  adminStTokenAccount : Pubkey
  vaultStTokenAccount : Pubkey
  admin : Pubkey
  base : Pubkey
deriving DecidableEq, Repr

/-- The vault with its initial deposit recorded: one VRT for one token, free of the deposit fee. -/
def initialVault (slot : Nat) (config : Config) (signers : Signers) (accounts : InitializeVaultAccounts)
    (depositFeeBps withdrawalFeeBps rewardFeeBps initializeTokenAmount : Nat) : Except ProgramError Vault := do
  let vault ← asProgramError (Vault.new accounts.vrtMint accounts.stMint accounts.admin config.numVaults
    accounts.base depositFeeBps withdrawalFeeBps rewardFeeBps config.programFeeBps slot)
  let vault ← vault.initializeVaultOverrideDepositFeeBps signers 0 accounts.base
  let (summary, vault) ← asProgramError (vault.mintWithFee initializeTokenAmount initializeTokenAmount)
  rejectIf (summary.vrtToDepositor ≠ initializeTokenAmount ∨ summary.vrtToFeeWallet ≠ 0)
    (.vault .vaultInitialAmountFailed)
  vault.initializeVaultOverrideDepositFeeBps signers depositFeeBps accounts.base

/-- `InitializeVault`: the vault's address is derived from `base`, and the VRT of the initial deposit go to
    the burn vault, which never gives them back. -/
def processInitializeVault (slot : Nat) (config : Config) (ledger : TokenLedger) (signers : Signers)
    (accounts : InitializeVaultAccounts) (depositFeeBps withdrawalFeeBps rewardFeeBps initializeTokenAmount : Nat) :
    Except ProgramError State := do
  let vaultKey := Pubkey.vault accounts.base
  let burnVaultVrtTokenAccount := Pubkey.associatedToken (.burnVault accounts.base) accounts.vrtMint
  loadSystemAccount ledger accounts.vrtMint
  loadSigner signers accounts.vrtMint
  loadTokenMint ledger accounts.stMint
  loadTokenAccount ledger accounts.adminStTokenAccount accounts.admin accounts.stMint
  loadTokenAccount ledger accounts.vaultStTokenAccount vaultKey accounts.stMint
  loadSystemAccount ledger burnVaultVrtTokenAccount
  loadSigner signers accounts.admin
  loadSigner signers accounts.base
  rejectIf (initializeTokenAmount = 0) (.vault .vaultInitialAmountFailed)
  rejectIf (config.depositWithdrawalFeeCapBps.value < depositFeeBps ∨
    config.depositWithdrawalFeeCapBps.value < withdrawalFeeBps ∨ maxBps < rewardFeeBps)
    (.vault .vaultFeeCapExceeded)
  let ledger ← ledger.createMint accounts.vrtMint vaultKey
  let vault ← initialVault slot config signers accounts depositFeeBps withdrawalFeeBps rewardFeeBps
    initializeTokenAmount
  let ledger ← ledger.transfer accounts.adminStTokenAccount accounts.vaultStTokenAccount accounts.admin
    initializeTokenAmount
  let ledger ← ledger.createAccount burnVaultVrtTokenAccount (.burnVault accounts.base) accounts.vrtMint
  let ledger ← ledger.mintTo accounts.vrtMint burnVaultVrtTokenAccount vaultKey initializeTokenAmount
  let config ← asProgramError config.incrementNumVaults
  pure {
    slot, config, vault, ledger
    operatorDelegations := ∅
    updateStateTrackers := ∅
    withdrawalTickets := ∅ }

/-! ### Deposits and withdrawals -/

/-- The accounts of `MintTo`. -/
structure MintToAccounts where
  vrtMint : Pubkey
  depositor : Pubkey
  depositorTokenAccount : Pubkey
  vaultTokenAccount : Pubkey
  depositorVrtTokenAccount : Pubkey
  vaultFeeTokenAccount : Pubkey
  mintBurnAdmin : Option Pubkey
deriving DecidableEq, Repr

variable (signers : Signers)

/-- `MintTo`. -/
def processMint (accounts : MintToAccounts) (amountIn minAmountOut : Nat) : Except ProgramError State := do
  let vault := state.vault
  loadTokenMint state.ledger accounts.vrtMint
  loadSigner signers accounts.depositor
  loadAssociatedTokenAccount state.ledger accounts.depositorTokenAccount accounts.depositor
    vault.supportedMint
  loadAssociatedTokenAccount state.ledger accounts.vaultTokenAccount vault.key vault.supportedMint
  loadAssociatedTokenAccount state.ledger accounts.depositorVrtTokenAccount accounts.depositor
    accounts.vrtMint
  loadAssociatedTokenAccount state.ledger accounts.vaultFeeTokenAccount vault.feeWallet accounts.vrtMint
  asProgramError (vault.checkMintBurnAdmin signers accounts.mintBurnAdmin)
  vault.checkVrtMint accounts.vrtMint
  vault.checkUpdateStateOk state.slot state.config.epochLength
  asProgramError vault.checkIsPaused
  rejectIf (accounts.depositor = vault.key) (.vault .invalidDepositor)
  -- a transfer from the vault to itself would mint VRT for nothing
  rejectIf (accounts.depositorTokenAccount = accounts.vaultTokenAccount)
    (.vault .invalidDepositTokenAccount)
  let (summary, vault) ← asProgramError (vault.mintWithFee amountIn minAmountOut)
  rejectIf (summary.vrtToDepositor = 0) (.vault .vrtOutCannotBeZero)
  let ledger ← state.ledger.transfer accounts.depositorTokenAccount accounts.vaultTokenAccount
    accounts.depositor amountIn
  let ledger ← ledger.mintTo accounts.vrtMint accounts.depositorVrtTokenAccount vault.key
    summary.vrtToDepositor
  let ledger ← ledger.mintTo accounts.vrtMint accounts.vaultFeeTokenAccount vault.key
    summary.vrtToFeeWallet
  pure { state with vault, ledger }

/-- The accounts of `EnqueueWithdrawal`. -/
structure EnqueueWithdrawalAccounts where
  vaultStakerWithdrawalTicketTokenAccount : Pubkey
  staker : Pubkey
  stakerVrtTokenAccount : Pubkey
  base : Pubkey
  mintBurnAdmin : Option Pubkey
deriving DecidableEq, Repr

/-- `EnqueueWithdrawal`. -/
def processEnqueueWithdrawal (accounts : EnqueueWithdrawalAccounts)
    (vrtAmount : Nat) : Except ProgramError State := do
  let vault := state.vault
  rejectIf (state.withdrawalTickets.lookup accounts.base ≠ none) .accountAlreadyInitialized
  loadAssociatedTokenAccount state.ledger accounts.vaultStakerWithdrawalTicketTokenAccount
    (state.ticketKey accounts.base) vault.vrtMint
  loadSigner signers accounts.staker
  loadAssociatedTokenAccount state.ledger accounts.stakerVrtTokenAccount accounts.staker vault.vrtMint
  loadSigner signers accounts.base
  asProgramError (vault.checkMintBurnAdmin signers accounts.mintBurnAdmin)
  vault.checkUpdateStateOk state.slot state.config.epochLength
  asProgramError vault.checkIsPaused
  rejectIf (vrtAmount = 0) (.vault .vaultEnqueueWithdrawalAmountZero)
  let withdrawalTickets := state.withdrawalTickets.insert accounts.base
    { staker := accounts.staker, vrtAmount, slotUnstaked := state.slot }
  let vault ← asProgramError (vault.incrementVrtEnqueuedForCooldownAmount vrtAmount)
  let ledger ← state.ledger.transfer accounts.stakerVrtTokenAccount
    accounts.vaultStakerWithdrawalTicketTokenAccount accounts.staker vrtAmount
  pure { state with vault, withdrawalTickets, ledger }

/-- `ChangeWithdrawalTicketOwner`. -/
def processChangeWithdrawalTicketOwner (base oldOwner newOwner : Pubkey) : Except ProgramError State := do
  let ticket ← okOr (state.withdrawalTickets.lookup base) .invalidAccountOwner
  loadSigner signers oldOwner
  asProgramError state.vault.checkIsPaused
  asProgramError (ticket.checkStaker oldOwner)
  pure { state with
    withdrawalTickets := state.withdrawalTickets.insert base { ticket with staker := newOwner } }

/-- The accounts of `BurnWithdrawalTicket`; the ticket is given by its base. -/
structure BurnWithdrawalTicketAccounts where
  vaultTokenAccount : Pubkey
  vrtMint : Pubkey
  staker : Pubkey
  stakerTokenAccount : Pubkey
  base : Pubkey
  vaultStakerWithdrawalTicketTokenAccount : Pubkey
  vaultFeeTokenAccount : Pubkey
  programFeeTokenAccount : Pubkey
  mintBurnAdmin : Option Pubkey
deriving DecidableEq, Repr

/-- The token movements of `BurnWithdrawalTicket`: the two fees leave the ticket's account, the rest of its
    VRT is burned, the account is closed, and the staker is paid from the vault's account. -/
def payOutTicket (ledger : TokenLedger) (accounts : BurnWithdrawalTicketAccounts)
    (vaultKey ticketKey : Pubkey) (vaultFeeAmount programFeeAmount burnAmount outAmount : Nat) :
    Except ProgramError TokenLedger := do
  let ticketAccount := accounts.vaultStakerWithdrawalTicketTokenAccount
  let ledger ← ledger.transfer ticketAccount accounts.vaultFeeTokenAccount ticketKey vaultFeeAmount
  let ledger ← ledger.transfer ticketAccount accounts.programFeeTokenAccount ticketKey programFeeAmount
  let ledger ← ledger.burn ticketAccount accounts.vrtMint ticketKey burnAmount
  let ledger ← ledger.closeAccount ticketAccount ticketKey
  ledger.transfer accounts.vaultTokenAccount accounts.stakerTokenAccount vaultKey outAmount

/-- `BurnWithdrawalTicket`. Anybody may call it for the staker. -/
def processBurnWithdrawalTicket (accounts : BurnWithdrawalTicketAccounts) : Except ProgramError State := do
  let vault := state.vault
  loadAssociatedTokenAccount state.ledger accounts.vaultTokenAccount vault.key vault.supportedMint
  loadTokenMint state.ledger accounts.vrtMint
  loadAssociatedTokenAccount state.ledger accounts.stakerTokenAccount accounts.staker vault.supportedMint
  let ticket ← okOr (state.withdrawalTickets.lookup accounts.base) .invalidAccountOwner
  loadAssociatedTokenAccount state.ledger accounts.vaultStakerWithdrawalTicketTokenAccount
    (state.ticketKey accounts.base) vault.vrtMint
  let ticketVrtAmount := state.ledger.balance accounts.vaultStakerWithdrawalTicketTokenAccount
  loadAssociatedTokenAccount state.ledger accounts.vaultFeeTokenAccount vault.feeWallet vault.vrtMint
  loadAssociatedTokenAccount state.ledger accounts.programFeeTokenAccount state.config.programFeeWallet
    vault.vrtMint
  asProgramError (vault.checkMintBurnAdmin signers accounts.mintBurnAdmin)
  vault.checkVrtMint accounts.vrtMint
  vault.checkUpdateStateOk state.slot state.config.epochLength
  asProgramError vault.checkIsPaused
  asProgramError (ticket.checkStaker accounts.staker)
  let withdrawable ← ticket.isWithdrawable state.slot state.config.epochLength
  rejectIf (withdrawable = false) (.vault .vaultStakerWithdrawalTicketNotWithdrawable)
  let isStakerProgramFeeWallet := decide (state.config.programFeeWallet = accounts.staker)
  let isStakerVaultFeeWallet := decide (vault.feeWallet = accounts.staker)
  let (summary, vault) ← asProgramError
    (vault.burnWithFee isStakerProgramFeeWallet isStakerVaultFeeWallet ticket.vrtAmount)
  -- VRT sent to the ticket after its creation go to the program fee wallet
  let extraVrtInAccount ← okOr (checkedSub ticketVrtAmount ticket.vrtAmount) (.vault .arithmeticUnderflow)
  let programFeeAmount ← okOr (checkedAdd 64 summary.programFeeAmount extraVrtInAccount)
    (.vault .arithmeticOverflow)
  let vault ← asProgramError (vault.decrementVrtReadyToClaimAmount ticket.vrtAmount)
  let ledger ← payOutTicket state.ledger accounts vault.key (state.ticketKey accounts.base)
    summary.vaultFeeAmount programFeeAmount summary.burnAmount summary.outAmount
  pure { state with
    vault, ledger
    withdrawalTickets := state.withdrawalTickets.erase accounts.base }

/-- The accounts of `UpdateVaultBalance`. -/
structure UpdateVaultBalanceAccounts where
  vaultTokenAccount : Pubkey
  vrtMint : Pubkey
  vaultFeeTokenAccount : Pubkey
deriving DecidableEq, Repr

/-- `UpdateVaultBalance`. -/
def processUpdateVaultBalance (accounts : UpdateVaultBalanceAccounts) : Except ProgramError State := do
  let vault := state.vault
  loadTokenMint state.ledger accounts.vrtMint
  loadAssociatedTokenAccount state.ledger accounts.vaultFeeTokenAccount vault.feeWallet accounts.vrtMint
  loadAssociatedTokenAccount state.ledger accounts.vaultTokenAccount vault.key vault.supportedMint
  vault.checkUpdateStateOk state.slot state.config.epochLength
  vault.checkVrtMint accounts.vrtMint
  asProgramError vault.checkIsPaused
  let newStBalance := state.ledger.balance accounts.vaultTokenAccount
  let (vrtRewardFee, vault) ← asProgramError (vault.updateBalance newStBalance)
  if vrtRewardFee > 0 then
    let ledger ← state.ledger.mintTo accounts.vrtMint accounts.vaultFeeTokenAccount vault.key vrtRewardFee
    pure { state with vault, ledger }
  else pure { state with vault }

/-! ### Delegations -/

/-- `InitializeVaultOperatorDelegation`. -/
def processInitializeVaultOperatorDelegation (operator vaultOperatorAdmin payer : Pubkey) :
    Except ProgramError State := do
  let vault := state.vault
  rejectIf (state.operatorDelegations.lookup operator ≠ none) .accountAlreadyInitialized
  loadSigner signers vaultOperatorAdmin
  loadSigner signers payer
  asProgramError (vault.checkOperatorAdmin vaultOperatorAdmin)
  vault.checkUpdateStateOk state.slot state.config.epochLength
  asProgramError vault.checkIsPaused
  let operatorDelegations := state.operatorDelegations.insert operator
    (VaultOperatorDelegation.new vault.operatorCount state.slot)
  let vault ← asProgramError vault.incrementOperatorCount
  pure { state with vault, operatorDelegations }

/-- `AddDelegation`. -/
def processAddDelegation (operator vaultDelegationAdmin : Pubkey) (amount : Nat) : Except ProgramError State := do
  let vault := state.vault
  let delegation ← okOr (state.operatorDelegations.lookup operator) .invalidAccountOwner
  loadSigner signers vaultDelegationAdmin
  asProgramError (vault.checkDelegationAdmin vaultDelegationAdmin)
  vault.checkUpdateStateOk state.slot state.config.epochLength
  asProgramError vault.checkIsPaused
  let vault ← asProgramError (vault.delegate amount)
  let delegationState ← asProgramError (delegation.delegationState.delegate amount)
  pure { state with
    vault
    operatorDelegations := state.operatorDelegations.insert operator { delegation with delegationState } }

/-- `CooldownDelegation`. -/
def processCooldownDelegation (operator vaultDelegationAdmin : Pubkey)
    (amount : Nat) : Except ProgramError State := do
  let vault := state.vault
  let delegation ← okOr (state.operatorDelegations.lookup operator) .invalidAccountOwner
  loadSigner signers vaultDelegationAdmin
  asProgramError (vault.checkDelegationAdmin vaultDelegationAdmin)
  vault.checkUpdateStateOk state.slot state.config.epochLength
  asProgramError vault.checkIsPaused
  let delegationState ← asProgramError (delegation.delegationState.cooldown amount)
  let vaultDelegationState ← asProgramError (vault.delegationState.cooldown amount)
  pure { state with
    vault := { vault with delegationState := vaultDelegationState }
    operatorDelegations := state.operatorDelegations.insert operator { delegation with delegationState } }

/-! ### Update cycles -/

/-- The vault at the start of an update cycle: a cycle that follows a completed one brings the new fees into
    force and computes what has to be unstaked; one that resumes an abandoned cycle carries on. -/
def startUpdate (vault : Vault) (config : Config) (slot : Nat) : Except ProgramError Vault := do
  let lastStartStateUpdateEpoch ← getEpoch vault.lastStartStateUpdateSlot config.epochLength
  let lastFullStateUpdateEpoch ← getEpoch vault.lastFullStateUpdateSlot config.epochLength
  if lastFullStateUpdateEpoch ≠ lastStartStateUpdateEpoch then
    pure { vault with lastStartStateUpdateSlot := slot }
  else
    let vault ← asProgramError (vault.setWithdrawalFeeBps vault.nextWithdrawalFeeBps)
    let vault ← vault.setProgramFeeBps config.programFeeBps
    let additionalAssetsNeedUnstaking ←
      vault.calculateAdditionalSupportedAssetsNeededToUnstake slot config.epochLength
    pure { vault with additionalAssetsNeedUnstaking, lastStartStateUpdateSlot := slot }

/-- `InitializeVaultUpdateStateTracker`. -/
def processInitializeVaultUpdateStateTracker (payer : Pubkey)
    (withdrawalAllocationMethod : WithdrawalAllocationMethod) : Except ProgramError State := do
  loadSigner signers payer
  let ncnEpoch ← getEpoch state.slot state.config.epochLength
  rejectIf (state.updateStateTrackers.lookup ncnEpoch ≠ none) .accountAlreadyInitialized
  rejectIf ((state.vault.checkUpdateStateOk state.slot state.config.epochLength).isOk = true)
    (.vault .vaultIsUpdated)
  asProgramError state.vault.checkIsPaused
  let vault ← startUpdate state.vault state.config state.slot
  pure { state with
    vault
    updateStateTrackers := state.updateStateTrackers.insert ncnEpoch
      (VaultUpdateStateTracker.new ncnEpoch withdrawalAllocationMethod) }

/-- Force stake of an operator into cooldown to meet the withdrawals. An operator that was already updated in
    an abandoned cycle has given its share. -/
def forceCooldown (vault : Vault) (delegation : VaultOperatorDelegation) (hasBeenPartiallyUpdated : Bool) :
    Except VaultError (Vault × VaultOperatorDelegation) :=
  if hasBeenPartiallyUpdated = false ∧ 0 < vault.additionalAssetsNeedUnstaking ∧
      0 < delegation.delegationState.stakedAmount then do
    let maxCooldown := min delegation.delegationState.stakedAmount vault.additionalAssetsNeedUnstaking
    let delegationState ← delegation.delegationState.cooldown maxCooldown
    let vault ← vault.decrementAdditionalAssetsNeedUnstaking maxCooldown
    pure (vault, { delegation with delegationState })
  else pure (vault, delegation)

/-- `CrankVaultUpdateStateTracker`. -/
def processCrankVaultUpdateStateTracker (operator : Pubkey) : Except ProgramError State := do
  let vault := state.vault
  let epochLength := state.config.epochLength
  let delegation ← okOr (state.operatorDelegations.lookup operator) .invalidAccountOwner
  let ncnEpoch ← getEpoch state.slot epochLength
  let lastFullStateUpdateEpoch ← getEpoch vault.lastFullStateUpdateSlot epochLength
  let operatorLastUpdatedEpoch ← getEpoch delegation.lastUpdateSlot epochLength
  let hasBeenPartiallyUpdated := decide (lastFullStateUpdateEpoch < operatorLastUpdatedEpoch)
  let tracker ← okOr (state.updateStateTrackers.lookup ncnEpoch) .invalidAccountOwner
  asProgramError vault.checkIsPaused
  delegation.checkIsAlreadyUpdated state.slot epochLength
  let tracker ← asProgramError (tracker.checkAndUpdateIndex delegation.index vault.operatorCount)
  let (vault, delegation) ← (match tracker.withdrawalAllocationMethod with
    | .greedy => asProgramError (forceCooldown vault delegation hasBeenPartiallyUpdated))
  let delegation ← delegation.update state.slot epochLength
  let delegationState ← asProgramError (tracker.delegationState.accumulate delegation.delegationState)
  pure { state with
    vault
    operatorDelegations := state.operatorDelegations.insert operator delegation
    updateStateTrackers := state.updateStateTrackers.insert ncnEpoch { tracker with delegationState } }

/-- Shift the VRT amounts down by one epoch a number of times, accumulating in the amount ready to claim. -/
def shiftVrtAmounts : Nat → Vault → Except VaultError Vault
  | 0, vault => .ok vault
  | times + 1, vault => do
      let shifted ← vault.incrementVrtReadyToClaimAmount vault.vrtCoolingDownAmount
      shiftVrtAmounts times { shifted with
        vrtCoolingDownAmount := shifted.vrtEnqueuedForCooldownAmount
        vrtEnqueuedForCooldownAmount := 0 }

/-- The vault after a completed update cycle. -/
def finishUpdate (vault : Vault) (tracker : VaultUpdateStateTracker)
    (slot currentNcnEpoch lastUpdatedEpoch : Nat) : Except VaultError Vault := do
  let allUpdated ← (if vault.operatorCount > 0 then tracker.allOperatorsUpdated vault.operatorCount
    else .ok true : Except VaultError Bool)
  rejectIf (allUpdated = false) .vaultUpdateStateNotFinishedUpdating
  rejectIf (vault.additionalAssetsNeedUnstaking > 0)
    .nonZeroAdditionalAssetsNeededForWithdrawalAtEndOfUpdate
  let epochDiff ← okOr (checkedSub currentNcnEpoch lastUpdatedEpoch) .vaultUnderflow
  shiftVrtAmounts (min epochDiff 2)
    { vault with delegationState := tracker.delegationState, lastFullStateUpdateSlot := slot }

/-- `CloseVaultUpdateStateTracker`. A tracker of an old epoch is only closed. -/
def processCloseVaultUpdateStateTracker (payer : Pubkey) (ncnEpoch : Nat) : Except ProgramError State := do
  let tracker ← okOr (state.updateStateTrackers.lookup ncnEpoch) .invalidAccountOwner
  loadSigner signers payer
  asProgramError state.vault.checkIsPaused
  let currentNcnEpoch ← getEpoch state.slot state.config.epochLength
  let lastUpdatedEpoch ← getEpoch state.vault.lastFullStateUpdateSlot state.config.epochLength
  let updateStateTrackers := state.updateStateTrackers.erase ncnEpoch
  if ncnEpoch ≠ currentNcnEpoch then pure { state with updateStateTrackers }
  else
    let vault ← asProgramError
      (finishUpdate state.vault tracker state.slot currentNcnEpoch lastUpdatedEpoch)
    pure { state with vault, updateStateTrackers }

/-! ### Settings -/

/-- `SetFees`. -/
def processSetFees (vaultFeeAdmin : Pubkey)
    (depositFeeBps withdrawalFeeBps rewardFeeBps : Option Nat) : Except ProgramError State := do
  let vault := state.vault
  let cap := state.config.depositWithdrawalFeeCapBps.value
  let bump := state.config.feeBumpBps.value
  let rate := state.config.feeRateOfChangeBps.value
  loadSigner signers vaultFeeAdmin
  asProgramError (vault.checkFeeAdmin vaultFeeAdmin)
  vault.checkCanModifyFees state.slot state.config.epochLength
  rejectIf (depositFeeBps = none ∧ withdrawalFeeBps = none ∧ rewardFeeBps = none) .invalidInstructionData
  let vault ← (match depositFeeBps with
    | some fee => asProgramError (vault.setDepositFeeBps fee cap bump rate)
    | none => .ok vault)
  let vault ← (match withdrawalFeeBps with
    | some fee => asProgramError (vault.setNextWithdrawalFeeBps fee cap bump rate)
    | none => .ok vault)
  let vault ← (match rewardFeeBps with
    | some fee => asProgramError (vault.setRewardFeeBps fee)
    | none => .ok vault)
  pure { state with vault := { vault with lastFeeChangeSlot := state.slot } }

/-- `SetProgramFee`. -/
def processSetProgramFee (configAdmin : Pubkey) (newFeeBps : Nat) : Except ProgramError State := do
  loadSigner signers configAdmin
  rejectIf (configAdmin ≠ state.config.admin) (.vault .configAdminInvalid)
  let config ← state.config.setProgramFeeBps newFeeBps
  pure { state with config }

/-- `SetProgramFeeWallet`. -/
def processSetProgramFeeWallet (configFeeAdmin newFeeWallet : Pubkey) : Except ProgramError State := do
  loadSigner signers configFeeAdmin
  rejectIf (configFeeAdmin ≠ state.config.feeAdmin) (.vault .configFeeAdminInvalid)
  pure { state with config := { state.config with programFeeWallet := newFeeWallet } }

/-- The roles `SetSecondaryAdmin` assigns. -/
inductive VaultAdminRole where
  | delegationAdmin
  | operatorAdmin
  | ncnAdmin
  | slasherAdmin
  | capacityAdmin
  | feeWallet
  | mintBurnAdmin
  | delegateAssetAdmin
  | feeAdmin
  | metadataAdmin
deriving DecidableEq, Repr

/-- The vault with a role given to another key. -/
def Vault.withRole (vault : Vault) (role : VaultAdminRole) (newAdmin : Pubkey) : Vault :=
  match role with
  | .delegationAdmin => { vault with delegationAdmin := newAdmin }
  | .operatorAdmin => { vault with operatorAdmin := newAdmin }
  | .ncnAdmin => { vault with ncnAdmin := newAdmin }
  | .slasherAdmin => { vault with slasherAdmin := newAdmin }
  | .capacityAdmin => { vault with capacityAdmin := newAdmin }
  | .feeWallet => { vault with feeWallet := newAdmin }
  | .mintBurnAdmin => { vault with mintBurnAdmin := newAdmin }
  | .delegateAssetAdmin => { vault with delegateAssetAdmin := newAdmin }
  | .feeAdmin => { vault with feeAdmin := newAdmin }
  | .metadataAdmin => { vault with metadataAdmin := newAdmin }

/-- `SetSecondaryAdmin`. -/
def processSetSecondaryAdmin (admin newAdmin : Pubkey) (role : VaultAdminRole) : Except ProgramError State := do
  loadSigner signers admin
  state.vault.checkAdmin admin
  pure { state with vault := state.vault.withRole role newAdmin }

/-- `SetAdmin`. -/
def processSetAdmin (oldAdmin newAdmin : Pubkey) : Except ProgramError State := do
  loadSigner signers oldAdmin
  loadSigner signers newAdmin
  state.vault.checkAdmin oldAdmin
  pure { state with
    vault := { state.vault with admin := newAdmin }.updateSecondaryAdmin oldAdmin newAdmin }

/-- `SetDepositCapacity`. -/
def processSetDepositCapacity (vaultCapacityAdmin : Pubkey) (capacity : Nat) : Except ProgramError State := do
  loadSigner signers vaultCapacityAdmin
  asProgramError (state.vault.checkCapacityAdmin vaultCapacityAdmin)
  pure { state with vault := { state.vault with depositCapacity := capacity } }

/-- `SetIsPaused`. -/
def processSetIsPaused (admin : Pubkey) (isPaused : Bool) : Except ProgramError State := do
  loadSigner signers admin
  state.vault.checkAdmin admin
  pure { state with vault := { state.vault with isPaused } }

/-- A token operation outside this vault's instructions. -/
inductive TokenAction where
  | createMint (key mintAuthority : Pubkey)
  | createAccount (key owner mint : Pubkey)
  | transfer (source destination : Pubkey) (amount : Nat)
  | mintTo (mint destination : Pubkey) (amount : Nat)
  | burn (source : Pubkey) (amount : Nat)
  | closeAccount (key : Pubkey)
  | setOwner (key newOwner : Pubkey)
deriving DecidableEq, Repr

/-- Whether somebody outside this vault's instructions can spend from an account. The vault's account of its
    supported mint is spent from by `BurnWithdrawalTicket` only; its other accounts may be delegated to
    somebody by `DelegateTokenAccount`. Accounts of the vault's tickets and of burn vaults are never spent
    from by others; other vaults act through their own instructions. -/
def mayDebit (vault : Vault) (account : TokenAccount) : Bool :=
  match account.owner with
  | .wallet _ => true
  | .vault base => decide (base ≠ vault.base) || decide (account.mint ≠ vault.supportedMint)
  | .withdrawalTicket ticketVault _ => decide (ticketVault ≠ vault.key)
  | .burnVault _ => false
  | .associatedToken _ _ => false

/-- Run a token operation in the name of the owner of the account it spends from. -/
def processTokenAction (vault : Vault) (ledger : TokenLedger) : TokenAction → Except ProgramError TokenLedger
  | .createMint key mintAuthority => ledger.createMint key mintAuthority
  | .createAccount key owner mint => ledger.createAccount key owner mint
  | .transfer source destination amount => do
      let account ← okOr (ledger.accounts.lookup source) .invalidAccountData
      rejectIf (mayDebit vault account = false) .missingRequiredSignature
      ledger.transfer source destination account.owner amount
  | .mintTo mint destination amount => do
      let minted ← okOr (ledger.mints.lookup mint) .invalidAccountData
      rejectIf (minted.mintAuthority = vault.key) .missingRequiredSignature
      ledger.mintTo mint destination minted.mintAuthority amount
  | .burn source amount => do
      let account ← okOr (ledger.accounts.lookup source) .invalidAccountData
      rejectIf (mayDebit vault account = false) .missingRequiredSignature
      ledger.burn source account.mint account.owner amount
  | .closeAccount key => do
      let account ← okOr (ledger.accounts.lookup key) .invalidAccountData
      rejectIf (mayDebit vault account = false) .missingRequiredSignature
      ledger.closeAccount key account.owner
  | .setOwner key newOwner => ledger.setOwner key newOwner

/-- Whether an operation is a burn of the vault's VRT by their holder. -/
def TokenAction.burnsVrt (vault : Vault) (ledger : TokenLedger) : TokenAction → Bool
  | .burn source _ =>
    match ledger.accounts.lookup source with
    | some account => decide (account.mint = vault.vrtMint)
    | none => false
  | _ => false

/-- What can happen to a vault. -/
inductive Action where
  | mintTo (signers : Signers) (accounts : MintToAccounts) (amountIn minAmountOut : Nat)
  | enqueueWithdrawal (signers : Signers) (accounts : EnqueueWithdrawalAccounts) (vrtAmount : Nat)
  | changeWithdrawalTicketOwner (signers : Signers) (base oldOwner newOwner : Pubkey)
  | burnWithdrawalTicket (signers : Signers) (accounts : BurnWithdrawalTicketAccounts)
  | updateVaultBalance (accounts : UpdateVaultBalanceAccounts)
  | initializeVaultOperatorDelegation (signers : Signers) (operator vaultOperatorAdmin payer : Pubkey)
  | addDelegation (signers : Signers) (operator vaultDelegationAdmin : Pubkey) (amount : Nat)
  | cooldownDelegation (signers : Signers) (operator vaultDelegationAdmin : Pubkey) (amount : Nat)
  | initializeVaultUpdateStateTracker (signers : Signers) (payer : Pubkey)
      (withdrawalAllocationMethod : WithdrawalAllocationMethod)
  | crankVaultUpdateStateTracker (operator : Pubkey)
  | closeVaultUpdateStateTracker (signers : Signers) (payer : Pubkey) (ncnEpoch : Nat)
  | setFees (signers : Signers) (vaultFeeAdmin : Pubkey)
      (depositFeeBps withdrawalFeeBps rewardFeeBps : Option Nat)
  | setProgramFee (signers : Signers) (configAdmin : Pubkey) (newFeeBps : Nat)
  | setProgramFeeWallet (signers : Signers) (configFeeAdmin newFeeWallet : Pubkey)
  | setSecondaryAdmin (signers : Signers) (admin newAdmin : Pubkey) (role : VaultAdminRole)
  | setAdmin (signers : Signers) (oldAdmin newAdmin : Pubkey)
  | setDepositCapacity (signers : Signers) (vaultCapacityAdmin : Pubkey) (capacity : Nat)
  | setIsPaused (signers : Signers) (admin : Pubkey) (isPaused : Bool)
  | token (action : TokenAction)
  | wait (slot : Nat)

/-- Actions that write settings of the vault or of the program and no books. -/
def Action.administrative : Action → Bool
  | .setProgramFee .. | .setProgramFeeWallet .. | .setSecondaryAdmin .. | .setAdmin ..
  | .setDepositCapacity .. | .setIsPaused .. => true
  | _ => false

namespace State

/-- Run one action. -/
def apply (action : Action) (state : State) : Except ProgramError State :=
  match action with
  | .mintTo signers accounts amountIn minAmountOut =>
    processMint state signers accounts amountIn minAmountOut
  | .enqueueWithdrawal signers accounts vrtAmount =>
    processEnqueueWithdrawal state signers accounts vrtAmount
  | .changeWithdrawalTicketOwner signers base oldOwner newOwner =>
    processChangeWithdrawalTicketOwner state signers base oldOwner newOwner
  | .burnWithdrawalTicket signers accounts => processBurnWithdrawalTicket state signers accounts
  | .updateVaultBalance accounts => processUpdateVaultBalance state accounts
  | .initializeVaultOperatorDelegation signers operator vaultOperatorAdmin payer =>
    processInitializeVaultOperatorDelegation state signers operator vaultOperatorAdmin payer
  | .addDelegation signers operator vaultDelegationAdmin amount =>
    processAddDelegation state signers operator vaultDelegationAdmin amount
  | .cooldownDelegation signers operator vaultDelegationAdmin amount =>
    processCooldownDelegation state signers operator vaultDelegationAdmin amount
  | .initializeVaultUpdateStateTracker signers payer withdrawalAllocationMethod =>
    processInitializeVaultUpdateStateTracker state signers payer withdrawalAllocationMethod
  | .crankVaultUpdateStateTracker operator => processCrankVaultUpdateStateTracker state operator
  | .closeVaultUpdateStateTracker signers payer ncnEpoch =>
    processCloseVaultUpdateStateTracker state signers payer ncnEpoch
  | .setFees signers vaultFeeAdmin depositFeeBps withdrawalFeeBps rewardFeeBps =>
    processSetFees state signers vaultFeeAdmin depositFeeBps withdrawalFeeBps rewardFeeBps
  | .setProgramFee signers configAdmin newFeeBps =>
    processSetProgramFee state signers configAdmin newFeeBps
  | .setProgramFeeWallet signers configFeeAdmin newFeeWallet =>
    processSetProgramFeeWallet state signers configFeeAdmin newFeeWallet
  | .setSecondaryAdmin signers admin newAdmin role =>
    processSetSecondaryAdmin state signers admin newAdmin role
  | .setAdmin signers oldAdmin newAdmin => processSetAdmin state signers oldAdmin newAdmin
  | .setDepositCapacity signers vaultCapacityAdmin capacity =>
    processSetDepositCapacity state signers vaultCapacityAdmin capacity
  | .setIsPaused signers admin isPaused => processSetIsPaused state signers admin isPaused
  | .token action => do
      let ledger ← processTokenAction state.vault state.ledger action
      pure { state with ledger }
  | .wait slot => do
      -- the clock never goes back
      rejectIf (slot < state.slot) .invalidArgument
      pure { state with slot }

/-- A run of actions, each of which succeeded and met a condition on the state it started from. -/
abbrev Steps (guard : State → Action → Prop) : State → List Action → State → Prop :=
  Run State.apply guard

/-- The condition of unrestricted runs. -/
def anything (_ : State) (_ : Action) : Prop := True

instance (state : State) (action : Action) : Decidable (anything state action) :=
  inferInstanceAs (Decidable True)

/-- The epoch of a slot. -/
def epochOf (state : State) (slot : Nat) : Nat := state.config.epochOf slot

/-- The current epoch. -/
def epoch (state : State) : Nat := state.config.epochOf state.slot

/-- The epoch of the last full update. -/
def fullEpoch (state : State) : Nat := state.config.epochOf state.vault.lastFullStateUpdateSlot

/-- The epoch in which the last update cycle was started or resumed. -/
def startEpoch (state : State) : Nat := state.config.epochOf state.vault.lastStartStateUpdateSlot

end State

/-- A state `InitializeVault` leaves behind, for some configuration, token accounts and arguments. -/
def Initialized : Prop :=
  ∃ slot config ledger signers accounts depositFeeBps withdrawalFeeBps rewardFeeBps initializeTokenAmount,
    processInitializeVault slot config ledger signers accounts depositFeeBps withdrawalFeeBps rewardFeeBps
      initializeTokenAmount = .ok state

end Payout.Restaking
