/-
Purpose: The stake program. An instruction that works on one account returns that account; one that borrows several in
  turn passes the accounts of the transaction on. A stake account that is not in a transient state is inactive, still
  waiting for its first epoch, or fully active; two accounts merge by these kinds. The accounts of a cluster evolve by
  instructions, lamports sent to accounts, rewards credited at the turn of an epoch, and the clock moving on.
Source: gorchain/programs/stake/src/{stake_state, stake_instruction, lib}.rs,
  gorchain/runtime/src/bank/partitioned_epoch_rewards/distribution.rs
-/
import Payout.StakeProgram.Interface
import Payout.Lib.Run

namespace Payout.StakeProgram

open Lib Payout.Runtime

/-- An error of the stake program as an error of the instruction. -/
def asInstructionError {α : Type} : Except StakeError α → Except Error α
  | .ok a => .ok a
  | .error e => .error (.custom e)

@[simp] theorem asInstructionError_eq_ok : asInstructionError result = .ok a ↔ result = .ok a := by
  cases result <;> simp [asInstructionError]

/-- The source's `checked_add`. -/
def checkedAddFunds (a b : Nat) : Except Error Nat :=
  okOr (checkedAdd 64 a b) .insufficientFunds

/-- The credits observed of two stakes merged: the average of both, weighted by the stakes and rounded up. -/
def stakeWeightedCreditsObserved (stake : Stake) (absorbedLamports absorbedCreditsObserved : Nat) : Option Nat :=
  if stake.creditsObserved = absorbedCreditsObserved then some stake.creditsObserved
  else do
    let totalStake ← checkedAdd 64 stake.delegation.stake absorbedLamports
    let stakeWeightedCredits ← checkedMul 128 stake.creditsObserved stake.delegation.stake
    let absorbedWeightedCredits ← checkedMul 128 absorbedCreditsObserved absorbedLamports
    -- Discard fractional credits by taking the ceiling
    let weightedCredits ← checkedAdd 128 stakeWeightedCredits absorbedWeightedCredits
    let weightedCredits ← checkedAdd 128 weightedCredits totalStake
    let totalWeightedCredits ← checkedSub weightedCredits 1
    let credits ← checkedDiv totalWeightedCredits totalStake
    tryInto 64 credits

/-- Add absorbed lamports to a stake. -/
def mergeDelegationStakeAndCreditsObserved (stake : Stake)
    (absorbedLamports absorbedCreditsObserved : Nat) : Except Error Stake := do
  let creditsObserved ←
    okOr (stakeWeightedCreditsObserved stake absorbedLamports absorbedCreditsObserved) .arithmeticOverflow
  let amount ← checkedAddFunds stake.delegation.stake absorbedLamports
  pure ((stake.withAmount amount).withCredits creditsObserved)

/-- The kinds of stake accounts that merge. -/
inductive MergeKind where
  | inactive (metadata : Meta) (stakeLamports : Nat) (stakeFlags : StakeFlags)
  | activationEpoch (metadata : Meta) (stake : Stake) (stakeFlags : StakeFlags)
  | fullyActive (metadata : Meta) (stake : Stake)
deriving DecidableEq, Repr

namespace MergeKind

/-- The metadata of the account. -/
def metadata : MergeKind → Meta
  | .inactive metadata _ _ => metadata
  | .activationEpoch metadata _ _ => metadata
  | .fullyActive metadata _ => metadata

/-- The stake of the account, unless it is inactive. -/
def activeStake : MergeKind → Option Stake
  | .inactive _ _ _ => none
  | .activationEpoch _ stake _ => some stake
  | .fullyActive _ stake => some stake

/-- The kind of an account. A stake that is effective in part, or effective and deactivating, has none. -/
def getIfMergeable (api : Interface) (stakeState : StakeStateV2) (stakeLamports : Nat) (clock : Clock) :
    Except Error MergeKind :=
  match stakeState with
  | .stake metadata stake stakeFlags =>
    let status := api.stakeActivatingAndDeactivating stake.delegation clock.epoch
    if status.effective = 0 ∧ status.activating = 0 ∧ status.deactivating = 0 then
      .ok (.inactive metadata stakeLamports stakeFlags)
    else if status.effective = 0 then .ok (.activationEpoch metadata stake stakeFlags)
    else if status.activating = 0 ∧ status.deactivating = 0 then .ok (.fullyActive metadata stake)
    else .error (.custom .mergeTransientStake)
  | .initialized metadata => .ok (.inactive metadata stakeLamports StakeFlags.empty)
  | _ => .error .invalidAccountData

/-- Accounts merge under equal authorities and lockups, or lockups that have both expired. -/
def metasCanMerge (api : Interface) (stake source : Meta) (clock : Clock) : Except Error Unit :=
  let canMergeLockups := stake.lockup = source.lockup ∨
    (api.isInForce stake.lockup clock none = false ∧
      api.isInForce source.lockup clock none = false)
  if stake.authorized = source.authorized ∧ canMergeLockups then .ok ()
  else .error (.custom .mergeMismatch)

/-- Active delegations merge under one voter, unless one of them is deactivated. -/
def activeDelegationsCanMerge (stake source : Delegation) : Except Error Unit :=
  if stake.voterPubkey ≠ source.voterPubkey then .error (.custom .mergeMismatch)
  else if stake.deactivationEpoch = u64Max ∧ source.deactivationEpoch = u64Max then .ok ()
  else .error (.custom .mergeMismatch)

/-- The state of an account that absorbs another, where it changes. -/
def mergedState (kind source : MergeKind) : Except Error (Option StakeStateV2) :=
  match kind, source with
  | .inactive .., .inactive .. => .ok none
  | .inactive .., .activationEpoch .. => .ok none
  | .activationEpoch metadata stake stakeFlags, .inactive _ sourceLamports sourceStakeFlags => do
      let amount ← checkedAddFunds stake.delegation.stake sourceLamports
      pure (some (.stake metadata (stake.withAmount amount) (stakeFlags.union sourceStakeFlags)))
  | .activationEpoch metadata stake stakeFlags,
      .activationEpoch sourceMeta sourceStake sourceStakeFlags => do
      let sourceLamports ← checkedAddFunds sourceMeta.rentExemptReserve sourceStake.delegation.stake
      let stake ← mergeDelegationStakeAndCreditsObserved stake sourceLamports sourceStake.creditsObserved
      pure (some (.stake metadata stake (stakeFlags.union sourceStakeFlags)))
  | .fullyActive metadata stake, .fullyActive _ sourceStake => do
      -- the reserve of the source is not staked: it would be active at once
      let stake ← mergeDelegationStakeAndCreditsObserved stake sourceStake.delegation.stake
        sourceStake.creditsObserved
      pure (some (.stake metadata stake StakeFlags.empty))
  | _, _ => .error (.custom .mergeMismatch)

/-- Check that two accounts merge, and say what the first becomes. -/
def merge (api : Interface) (kind source : MergeKind) (clock : Clock) : Except Error (Option StakeStateV2) := do
  metasCanMerge api kind.metadata source.metadata clock
  match kind.activeStake, source.activeStake with
  | some stake, some sourceStake =>
    activeDelegationsCanMerge stake.delegation sourceStake.delegation
    mergedState kind source
  | _, _ => mergedState kind source

end MergeKind

open MergeKind StakeFlags

/-- The sysvars and the feature that the stake program reads. -/
structure InvokeContext where
  clock : Clock
  /-- The `active` field of the epoch rewards sysvar. -/
  epochRewardsActive : Bool
  isStakeRaiseMinimumDelegationTo1SolActive : Bool
deriving DecidableEq, Repr

abbrev StakeAccount := BorrowedAccount AccountData

abbrev StakeAccounts := Accounts AccountData

def lamportsPerSol : Nat := 1000000000

/-- The smallest stake that can be delegated. -/
def getMinimumDelegation (isStakeRaiseMinimumDelegationTo1SolActive : Bool) : Nat :=
  if isStakeRaiseMinimumDelegationTo1SolActive then 1 * lamportsPerSol else 1

theorem getMinimumDelegation_pos (active) : 0 < getMinimumDelegation active := by
  cases active <;> decide

/-- The smallest stake that can be delegated now. -/
def InvokeContext.minimumDelegation (invoke : InvokeContext) : Nat :=
  getMinimumDelegation invoke.isStakeRaiseMinimumDelegationTo1SolActive

/-- `get_state` of a stake account. -/
def getState (account : Account AccountData) : Except Error StakeStateV2 :=
  match account.data with
  | .stake state => .ok state
  | _ => .error .invalidAccountData

/-- `get_state` of a vote account. -/
def getVoteState (account : Account AccountData) : Except Error VoteState :=
  match account.data with
  | .vote state => .ok state
  | _ => .error .invalidAccountData

section Instructions

variable (api : Interface) (invoke : InvokeContext) (context : InstructionContext)

variable (account : StakeAccount)

/-- `set_state` by the stake program. -/
def setState (state : StakeStateV2) : Except Error StakeAccount :=
  account.setState .stake (api.serializedSize state) (.stake state)

/-- Give an account authorities, a lockup and its reserve. -/
def initializeAccount (authorized : Authorized) (lockup : Lockup) : Except Error StakeAccount := do
  rejectIf (account.dataLen ≠ api.sizeOf) .invalidAccountData
  match ← getState account.toAccount with
  | .uninitialized =>
    let rentExemptReserve := api.minimumBalance account.dataLen
    if rentExemptReserve ≤ account.lamports then
      setState api account (.initialized { rentExemptReserve, authorized, lockup })
    else .error .insufficientFunds
  | _ => .error .invalidAccountData

/-- Name another staker or withdrawer. -/
def authorize (signers : Finset Pubkey) (newAuthority : Pubkey)
    (stakeAuthorize : StakeAuthorize) (custodian : Option Pubkey) : Except Error StakeAccount := do
  match ← getState account.toAccount with
  | .stake metadata stake stakeFlags =>
    let authorized ← api.authorize metadata.authorized signers newAuthority stakeAuthorize
      (metadata.lockup, invoke.clock, custodian)
    setState api account (.stake { metadata with authorized } stake stakeFlags)
  | .initialized metadata =>
    let authorized ← api.authorize metadata.authorized signers newAuthority stakeAuthorize
      (metadata.lockup, invoke.clock, custodian)
    setState api account (.initialized { metadata with authorized })
  | _ => .error .invalidAccountData

/-- The signature a seed gives: that of the address derived from a base that signed. -/
def seedSigners (authorityBase : Pubkey) (authoritySeed : String) (authorityOwner : Pubkey) :
    Except Error (Finset Pubkey) :=
  if authorityBase ∈ context.signers then do
    let derived ← api.createWithSeed authorityBase authoritySeed authorityOwner
    pure {derived}
  else pure ∅

/-- Name another staker or withdrawer, signed through a seed. -/
def authorizeWithSeed (authorityBase : Pubkey) (authoritySeed : String)
    (authorityOwner newAuthority : Pubkey) (stakeAuthorize : StakeAuthorize) (custodian : Option Pubkey) :
    Except Error StakeAccount := do
  let signers ← seedSigners api context authorityBase authoritySeed authorityOwner
  authorize api invoke account signers newAuthority stakeAuthorize custodian

/-- What can be delegated of an account: all but the reserve, if that is enough. -/
def validateDelegatedAmount (metadata : Meta) : Except Error Nat := do
  let stakeAmount := account.lamports - metadata.rentExemptReserve
  rejectIf (stakeAmount < invoke.minimumDelegation) (.custom .insufficientDelegation)
  pure stakeAmount

/-- A new delegation. -/
def newStake (stake : Nat) (voterPubkey : Pubkey) (voteState : VoteState) (activationEpoch : Epoch) : Stake :=
  { delegation := .new voterPubkey stake activationEpoch, creditsObserved := voteState.credits }

/-- Delegate a stake again. A stake that is effective can only take back a deactivation of this epoch, and
    keeps the amount it had; any other stake starts over with what the account holds. -/
def redelegateStake (stake : Stake) (stakeLamports : Nat) (voterPubkey : Pubkey) (voteState : VoteState) :
    Except StakeError Stake :=
  if api.stake stake.delegation invoke.clock.epoch ≠ 0 then
    if stake.delegation.voterPubkey = voterPubkey ∧
        invoke.clock.epoch = stake.delegation.deactivationEpoch then
      .ok (stake.deactivatedAt u64Max)
    else .error .tooSoonToRedelegate
  else
    .ok { delegation :=
            { voterPubkey, stake := stakeLamports, activationEpoch := invoke.clock.epoch,
              deactivationEpoch := u64Max }
          creditsObserved := voteState.credits }

variable (accounts : StakeAccounts)

/-- Delegate the lamports of an account to a vote account. -/
def delegate (stakeAccount voteAccount : Pubkey) : Except Error StakeAccounts := do
  let vote ← tryBorrow context accounts voteAccount
  rejectIf (vote.owner ≠ .vote) .incorrectProgramId
  update context accounts stakeAccount fun account => do
    match ← getState account.toAccount with
    | .initialized metadata =>
      api.check metadata.authorized context.signers .staker
      let stakeAmount ← validateDelegatedAmount invoke account metadata
      let voteState ← getVoteState vote.toAccount
      setState api account
        (.stake metadata (newStake stakeAmount voteAccount voteState invoke.clock.epoch) empty)
    | .stake metadata stake stakeFlags =>
      api.check metadata.authorized context.signers .staker
      let stakeAmount ← validateDelegatedAmount invoke account metadata
      let voteState ← getVoteState vote.toAccount
      let stake ←
        asInstructionError (redelegateStake api invoke stake stakeAmount voteAccount voteState)
      setState api account (.stake metadata stake stakeFlags)
    | _ => .error .invalidAccountData

/-- Deactivate a stake. -/
def deactivate : Except Error StakeAccount := do
  match ← getState account.toAccount with
  | .stake metadata stake stakeFlags =>
    api.check metadata.authorized context.signers .staker
    let stake ← asInstructionError (api.deactivate stake invoke.clock.epoch)
    setState api account (.stake metadata stake stakeFlags)
  | _ => .error .invalidAccountData

/-- Set the lockup of an account. -/
def setLockup (lockup : LockupArgs) : Except Error StakeAccount := do
  match ← getState account.toAccount with
  | .initialized metadata =>
    let metadata ← api.setLockup metadata lockup context.signers invoke.clock
    setState api account (.initialized metadata)
  | .stake metadata stake stakeFlags =>
    let metadata ← api.setLockup metadata lockup context.signers invoke.clock
    setState api account (.stake metadata stake stakeFlags)
  | _ => .error .invalidAccountData

/-! ### Split -/

structure ValidatedSplitInfo where
  sourceRemainingBalance : Nat
  destinationRentExemptReserve : Nat
deriving DecidableEq, Repr

/-- Check that both accounts of a split keep enough: the source its reserve and what is required beyond it,
    or nothing at all, and the destination the same with what it already has. -/
def validateSplitAmount (source destination : Account AccountData) (lamports : Nat) (sourceMeta : Meta)
    (additionalRequiredLamports : Nat) (sourceIsActive : Bool) : Except Error ValidatedSplitInfo := do
  rejectIf (lamports = 0) .insufficientFunds
  rejectIf (source.lamports < lamports) .insufficientFunds
  let sourceMinimumBalance := saturatingAdd 64 sourceMeta.rentExemptReserve additionalRequiredLamports
  let sourceRemainingBalance := source.lamports - lamports
  rejectIf (sourceRemainingBalance ≠ 0 ∧ sourceRemainingBalance < sourceMinimumBalance) .insufficientFunds
  let destinationRentExemptReserve := api.minimumBalance destination.dataLen
  -- a part of an active stake goes to an account that already has its reserve
  rejectIf (sourceIsActive = true ∧ sourceRemainingBalance ≠ 0 ∧
    destination.lamports < destinationRentExemptReserve) .insufficientFunds
  let destinationMinimumBalance := saturatingAdd 64 destinationRentExemptReserve additionalRequiredLamports
  let destinationBalanceDeficit := destinationMinimumBalance - destination.lamports
  rejectIf (lamports < destinationBalanceDeficit) .insufficientFunds
  pure { sourceRemainingBalance, destinationRentExemptReserve }

/-- What a split takes from the stake of the source, and what the stake of the destination becomes. -/
def splitStakeAmounts (info : ValidatedSplitInfo) (metadata : Meta) (stake : Stake)
    (splitLamportBalance lamports minimumDelegation : Nat) : Except Error (Nat × Nat) :=
  if info.sourceRemainingBalance = 0 then
    -- the whole stake moves, whatever the destination already has
    let remainingStakeDelta := lamports - metadata.rentExemptReserve
    .ok (remainingStakeDelta, remainingStakeDelta)
  else if stake.delegation.stake - lamports < minimumDelegation then
    .error (.custom .insufficientDelegation)
  else .ok (lamports, lamports - (info.destinationRentExemptReserve - splitLamportBalance))

/-- Write the states of both accounts of a split. -/
def splitStates (source split : StakeAccount) (lamports : Nat) :
    StakeStateV2 → Except Error StakeAccounts
  | .stake metadata stake stakeFlags => do
      api.check metadata.authorized context.signers .staker
      let minimumDelegation := invoke.minimumDelegation
      let isActive := decide (0 < api.stake stake.delegation invoke.clock.epoch)
      let info ← validateSplitAmount api source.toAccount split.toAccount lamports metadata
        minimumDelegation isActive
      let (remainingStakeDelta, splitStakeAmount) ←
        splitStakeAmounts info metadata stake split.lamports lamports minimumDelegation
      rejectIf (splitStakeAmount < minimumDelegation) (.custom .insufficientDelegation)
      let (stake, splitStake) ←
        asInstructionError (api.split stake remainingStakeDelta splitStakeAmount)
      let splitMeta := { metadata with rentExemptReserve := info.destinationRentExemptReserve }
      let accounts ← update context accounts source.key
        (setState api · (.stake metadata stake stakeFlags))
      update context accounts split.key (setState api · (.stake splitMeta splitStake stakeFlags))
  | .initialized metadata => do
      api.check metadata.authorized context.signers .staker
      let info ← validateSplitAmount api source.toAccount split.toAccount lamports metadata 0 false
      let splitMeta := { metadata with rentExemptReserve := info.destinationRentExemptReserve }
      update context accounts split.key (setState api · (.initialized splitMeta))
  | .uninitialized => do
      rejectIf (source.key ∉ context.signers) .missingRequiredSignature
      pure accounts
  | .rewardsPool => .error .invalidAccountData

/-- Deinitialize an account all of whose lamports are about to leave. -/
def deinitializeIfDrained (lamports : Nat) (account : StakeAccount) : Except Error StakeAccount :=
  if lamports = account.lamports then setState api account .uninitialized else .ok account

/-- Split a part off a stake account, into an uninitialized account. -/
def split (accounts : StakeAccounts) (stakeAccount : Pubkey) (lamports : Nat) (splitAccount : Pubkey) :
    Except Error StakeAccounts := do
  let split ← tryBorrow context accounts splitAccount
  rejectIf (split.owner ≠ .stake) .incorrectProgramId
  rejectIf (split.dataLen ≠ api.sizeOf) .invalidAccountData
  let splitState ← getState split.toAccount
  rejectIf (splitState ≠ .uninitialized) .invalidAccountData
  let source ← tryBorrow context accounts stakeAccount
  rejectIf (source.lamports < lamports) .insufficientFunds
  let stakeState ← getState source.toAccount
  let accounts ← splitStates api invoke context accounts source split lamports stakeState
  let accounts ← update context accounts stakeAccount (deinitializeIfDrained api lamports)
  let accounts ← update context accounts splitAccount (·.checkedAddLamports .stake lamports)
  update context accounts stakeAccount (·.checkedSubLamports .stake lamports)

/-! ### Merge and move -/

/-- Write a state, if there is one to write. -/
def setStateIfSome : Option StakeStateV2 → Except Error StakeAccount
  | some state => setState api account state
  | none => .ok account

/-- Merge an account into another of the same kind and close it. -/
def merge (stakeAccount sourceAccount : Pubkey) : Except Error StakeAccounts := do
  let source ← tryBorrow context accounts sourceAccount
  rejectIf (source.owner ≠ .stake) .incorrectProgramId
  -- Close the stake_account-reference loophole
  rejectIf (stakeAccount = sourceAccount) .invalidArgument
  let account ← tryBorrow context accounts stakeAccount
  let stakeState ← getState account.toAccount
  let stakeMergeKind ← getIfMergeable api stakeState account.lamports invoke.clock
  api.check stakeMergeKind.metadata.authorized context.signers .staker
  let sourceState ← getState source.toAccount
  let sourceMergeKind ← getIfMergeable api sourceState source.lamports invoke.clock
  let mergedState ← stakeMergeKind.merge api sourceMergeKind invoke.clock
  let account ← setStateIfSome api account mergedState
  let source ← setState api source .uninitialized
  let lamports := source.lamports
  let source ← source.checkedSubLamports .stake lamports
  let account ← account.checkedAddLamports .stake lamports
  pure (release (release accounts source) account)

/-- What moving stake and moving lamports check alike. -/
def moveStakeOrLamportsSharedChecks (source : StakeAccount) (lamports : Nat) (destination : StakeAccount)
    (stakeAuthority : Pubkey) : Except Error (MergeKind × MergeKind) := do
  rejectIf (stakeAuthority ∉ context.signers) .missingRequiredSignature
  rejectIf (source.owner ≠ .stake ∨ destination.owner ≠ .stake) .incorrectProgramId
  rejectIf (source.key = destination.key) .invalidInstructionData
  rejectIf (source.isWritable = false ∨ destination.isWritable = false) .invalidInstructionData
  rejectIf (lamports = 0) .invalidArgument
  let sourceState ← getState source.toAccount
  let sourceMergeKind ← getIfMergeable api sourceState source.lamports invoke.clock
  api.check sourceMergeKind.metadata.authorized {stakeAuthority} .staker
  let destinationState ← getState destination.toAccount
  let destinationMergeKind ←
    getIfMergeable api destinationState destination.lamports invoke.clock
  metasCanMerge api sourceMergeKind.metadata destinationMergeKind.metadata invoke.clock
  pure (sourceMergeKind, destinationMergeKind)

/-- The stake of an account that stake is moved to. An inactive account takes over the delegation of the
    source. -/
def receivedStake (sourceStake : Stake) (lamports minimumDelegation : Nat) :
    MergeKind → Except Error (Meta × Stake)
  | .fullyActive destinationMeta destinationStake => do
      rejectIf (sourceStake.delegation.voterPubkey ≠ destinationStake.delegation.voterPubkey)
        (.custom .voteAddressMismatch)
      let destinationFinalStake ←
        okOr (checkedAdd 64 destinationStake.delegation.stake lamports) .arithmeticOverflow
      rejectIf (destinationFinalStake < minimumDelegation) .invalidArgument
      let destinationStake ←
        mergeDelegationStakeAndCreditsObserved destinationStake lamports sourceStake.creditsObserved
      pure (destinationMeta, destinationStake)
  | .inactive destinationMeta _ _ => do
      rejectIf (lamports < minimumDelegation) .invalidArgument
      pure (destinationMeta, sourceStake.withAmount lamports)
  | .activationEpoch .. => .error .invalidAccountData

/-- The state of an account that stake is moved from. -/
def remainingState (sourceMeta : Meta) (sourceStake : Stake) (sourceFinalStake : Nat) : StakeStateV2 :=
  if sourceFinalStake = 0 then .initialized sourceMeta
  else .stake sourceMeta (sourceStake.withAmount sourceFinalStake) empty

/-- Move stake from a fully active account to a fully active or an inactive one. -/
def moveStake (sourceAccount : Pubkey) (lamports : Nat)
    (destinationAccount stakeAuthority : Pubkey) : Except Error StakeAccounts := do
  let source ← tryBorrow context accounts sourceAccount
  rejectIf (destinationAccount = sourceAccount) .accountBorrowFailed
  let destination ← tryBorrow context accounts destinationAccount
  let kinds ← moveStakeOrLamportsSharedChecks api invoke context source lamports destination
    stakeAuthority
  rejectIf (source.dataLen ≠ api.sizeOf ∨ destination.dataLen ≠ api.sizeOf) .invalidAccountData
  match kinds.1 with
  | .fullyActive sourceMeta sourceStake =>
    let minimumDelegation := invoke.minimumDelegation
    let sourceFinalStake ← okOr (checkedSub sourceStake.delegation.stake lamports) .invalidArgument
    rejectIf (sourceFinalStake ≠ 0 ∧ sourceFinalStake < minimumDelegation) .invalidArgument
    let (destinationMeta, destinationStake) ←
      receivedStake sourceStake lamports minimumDelegation kinds.2
    let destination ←
      setState api destination (.stake destinationMeta destinationStake empty)
    let source ← setState api source (remainingState sourceMeta sourceStake sourceFinalStake)
    let source ← source.checkedSubLamports .stake lamports
    let destination ← destination.checkedAddLamports .stake lamports
    rejectIf (source.lamports < sourceMeta.rentExemptReserve ∨
      destination.lamports < destinationMeta.rentExemptReserve) .invalidArgument
    pure (release (release accounts source) destination)
  | _ => .error .invalidAccountData

/-- The lamports of an account beyond its stake and its reserve. -/
def freeLamports (source : Account AccountData) : MergeKind → Except Error Nat
  | .fullyActive sourceMeta sourceStake =>
    .ok (source.lamports - sourceStake.delegation.stake - sourceMeta.rentExemptReserve)
  | .inactive sourceMeta sourceLamports _ => .ok (sourceLamports - sourceMeta.rentExemptReserve)
  | .activationEpoch .. => .error .invalidAccountData

/-- Move lamports that are not staked. -/
def moveLamports (sourceAccount : Pubkey) (lamports : Nat)
    (destinationAccount stakeAuthority : Pubkey) : Except Error StakeAccounts := do
  let source ← tryBorrow context accounts sourceAccount
  rejectIf (destinationAccount = sourceAccount) .accountBorrowFailed
  let destination ← tryBorrow context accounts destinationAccount
  let kinds ← moveStakeOrLamportsSharedChecks api invoke context source lamports destination
    stakeAuthority
  let sourceFreeLamports ← freeLamports source.toAccount kinds.1
  rejectIf (sourceFreeLamports < lamports) .invalidArgument
  let source ← source.checkedSubLamports .stake lamports
  let destination ← destination.checkedAddLamports .stake lamports
  pure (release (release accounts source) destination)

/-! ### Withdraw -/

/-- The lockup of an account, what must stay in it, and whether any of it is staked. A stake that is not
    deactivated counts in full: it may become effective in full. -/
def withdrawReserve (key : Pubkey) (signers : Finset Pubkey) :
    StakeStateV2 → Except Error (Lockup × Nat × Bool)
  | .stake metadata stake _ => do
      api.check metadata.authorized signers .withdrawer
      let staked :=
        if stake.delegation.deactivationEpoch ≤ invoke.clock.epoch then
          api.stake stake.delegation invoke.clock.epoch
        else stake.delegation.stake
      let stakedAndReserve ← checkedAddFunds staked metadata.rentExemptReserve
      pure (metadata.lockup, stakedAndReserve, decide (staked ≠ 0))
  | .initialized metadata => do
      api.check metadata.authorized signers .withdrawer
      pure (metadata.lockup, metadata.rentExemptReserve, false)
  | .uninitialized => do
      rejectIf (key ∉ signers) .missingRequiredSignature
      pure (Lockup.default, 0, false)
  | .rewardsPool => .error .invalidAccountData

/-- Take lamports out of an account, and close it if they are all. -/
def withdrawFrom (lamports reserve : Nat) (isStaked : Bool) : Except Error StakeAccount :=
  if lamports = account.lamports then do
    -- if the stake is active, we mustn't allow the account to go away
    rejectIf (isStaked = true) .insufficientFunds
    let account ← setState api account .uninitialized
    account.checkedSubLamports .stake lamports
  else do
    let lamportsAndReserve ← checkedAddFunds lamports reserve
    rejectIf (account.lamports < lamportsAndReserve) .insufficientFunds
    account.checkedSubLamports .stake lamports

/-- Withdraw lamports that are not staked to any account. -/
def withdraw (stakeAccount : Pubkey) (lamports : Nat)
    (recipient withdrawAuthority : Pubkey) (custodian : Option Pubkey) : Except Error StakeAccounts := do
  rejectIf (withdrawAuthority ∉ context.signers) .missingRequiredSignature
  let accounts ← update context accounts stakeAccount fun account => do
    let state ← getState account.toAccount
    let (lockup, reserve, isStaked) ← withdrawReserve api invoke account.key {withdrawAuthority} state
    -- only a custodian that signed can lift the lockup
    let custodian := custodian.filter fun key => decide (key ∈ context.signers)
    rejectIf (api.isInForce lockup invoke.clock custodian = true) (.custom .lockupInForce)
    withdrawFrom api account lamports reserve isStaked
  update context accounts recipient (·.checkedAddLamports .stake lamports)

/-! ### Delinquent validators -/

/-- Deactivate a stake whose validator has not voted for long, by anyone. -/
def deactivateDelinquent (stakeAccount : Pubkey)
    (delinquentVoteAccount referenceVoteAccount : Pubkey) : Except Error StakeAccounts := do
  rejectIf (delinquentVoteAccount = stakeAccount) .accountBorrowFailed
  let delinquent ← tryBorrow context accounts delinquentVoteAccount
  rejectIf (delinquent.owner ≠ .vote) .incorrectProgramId
  let delinquentVoteState ← getVoteState delinquent.toAccount
  rejectIf (referenceVoteAccount = stakeAccount ∨ referenceVoteAccount = delinquentVoteAccount)
    .accountBorrowFailed
  let reference ← tryBorrow context accounts referenceVoteAccount
  rejectIf (reference.owner ≠ .vote) .incorrectProgramId
  let referenceVoteState ← getVoteState reference.toAccount
  rejectIf (api.acceptableReferenceEpochCredits referenceVoteState.epochCredits
    invoke.clock.epoch = false) (.custom .insufficientReferenceVotes)
  update context accounts stakeAccount fun account => do
    match ← getState account.toAccount with
    | .stake metadata stake stakeFlags =>
      rejectIf (stake.delegation.voterPubkey ≠ delinquentVoteAccount) (.custom .voteAddressMismatch)
      if api.eligibleForDeactivateDelinquent delinquentVoteState.epochCredits
          invoke.clock.epoch = true then
        let stake ← asInstructionError (api.deactivate stake invoke.clock.epoch)
        setState api account (.stake metadata stake stakeFlags)
      else .error (.custom .minimumDelinquentEpochsForDeactivationNotMet)
    | _ => .error .invalidAccountData

end Instructions

/-- An instruction, with the accounts it is given. -/
inductive StakeInstruction where
  | initializeAccount (stakeAccount : Pubkey) (authorized : Authorized) (lockup : Lockup)
  | authorize (stakeAccount newAuthority : Pubkey) (stakeAuthorize : StakeAuthorize)
      (custodian : Option Pubkey)
  | delegateStake (stakeAccount voteAccount : Pubkey)
  | split (stakeAccount splitAccount : Pubkey) (lamports : Nat)
  | withdraw (stakeAccount recipient withdrawAuthority : Pubkey) (custodian : Option Pubkey) (lamports : Nat)
  | deactivate (stakeAccount : Pubkey)
  | setLockup (stakeAccount : Pubkey) (lockup : LockupArgs)
  | merge (stakeAccount sourceAccount : Pubkey)
  | authorizeWithSeed (stakeAccount authorityBase : Pubkey) (authoritySeed : String)
      (authorityOwner newAuthority : Pubkey) (stakeAuthorize : StakeAuthorize) (custodian : Option Pubkey)
  | initializeChecked (stakeAccount staker withdrawer : Pubkey)
  | authorizeChecked (stakeAccount newAuthority : Pubkey) (stakeAuthorize : StakeAuthorize)
      (custodian : Option Pubkey)
  | authorizeCheckedWithSeed (stakeAccount authorityBase : Pubkey) (authoritySeed : String)
      (authorityOwner newAuthority : Pubkey) (stakeAuthorize : StakeAuthorize) (custodian : Option Pubkey)
  | setLockupChecked (stakeAccount : Pubkey) (unixTimestamp : Option Int) (epoch : Option Epoch)
      (custodian : Option Pubkey)
  | deactivateDelinquent (stakeAccount delinquentVoteAccount referenceVoteAccount : Pubkey)
  | moveStake (sourceAccount destinationAccount stakeAuthority : Pubkey) (lamports : Nat)
  | moveLamports (sourceAccount destinationAccount stakeAuthority : Pubkey) (lamports : Nat)
deriving DecidableEq, Repr

section Entrypoint

variable (api : Interface) (invoke : InvokeContext) (context : InstructionContext)

variable (accounts : StakeAccounts)

/-- The source's `get_stake_account`: the first account of the instruction. -/
def getStakeAccount (key : Pubkey) : Except Error StakeAccount := do
  let me ← tryBorrow context accounts key
  rejectIf (me.owner ≠ .stake) .invalidAccountOwner
  pure me

/-- Run an instruction on the first account alone. -/
def onStakeAccount (key : Pubkey)
    (change : StakeAccount → Except Error StakeAccount) : Except Error StakeAccounts := do
  let me ← getStakeAccount context accounts key
  let me ← change me
  pure (release accounts me)

/-- Process an instruction. -/
def processInstruction (instruction : StakeInstruction) : Except Error StakeAccounts := do
  rejectIf (invoke.epochRewardsActive = true) (.custom .epochRewardsActive)
  match instruction with
  | .initializeAccount stakeAccount authorized lockup =>
    onStakeAccount context accounts stakeAccount (initializeAccount api · authorized lockup)
  | .authorize stakeAccount newAuthority stakeAuthorize custodian =>
    onStakeAccount context accounts stakeAccount
      (authorize api invoke · context.signers newAuthority stakeAuthorize custodian)
  | .authorizeWithSeed stakeAccount authorityBase authoritySeed authorityOwner newAuthority stakeAuthorize
      custodian =>
      onStakeAccount context accounts stakeAccount
        (authorizeWithSeed api invoke context · authorityBase authoritySeed authorityOwner newAuthority
          stakeAuthorize custodian)
  | .delegateStake stakeAccount voteAccount => do
      let _ ← getStakeAccount context accounts stakeAccount
      delegate api invoke context accounts stakeAccount voteAccount
  | .split stakeAccount splitAccount lamports => do
      let _ ← getStakeAccount context accounts stakeAccount
      split api invoke context accounts stakeAccount lamports splitAccount
  | .merge stakeAccount sourceAccount => do
      let _ ← getStakeAccount context accounts stakeAccount
      merge api invoke context accounts stakeAccount sourceAccount
  | .withdraw stakeAccount recipient withdrawAuthority custodian lamports => do
      let _ ← getStakeAccount context accounts stakeAccount
      withdraw api invoke context accounts stakeAccount lamports recipient withdrawAuthority custodian
  | .deactivate stakeAccount =>
    onStakeAccount context accounts stakeAccount (deactivate api invoke context)
  | .setLockup stakeAccount lockup =>
    onStakeAccount context accounts stakeAccount (setLockup api invoke context · lockup)
  | .initializeChecked stakeAccount staker withdrawer =>
    onStakeAccount context accounts stakeAccount fun me => do
      rejectIf (withdrawer ∉ context.signers) .missingRequiredSignature
      initializeAccount api me { staker, withdrawer } Lockup.default
  | .authorizeChecked stakeAccount newAuthority stakeAuthorize custodian =>
    onStakeAccount context accounts stakeAccount fun me => do
      rejectIf (newAuthority ∉ context.signers) .missingRequiredSignature
      authorize api invoke me context.signers newAuthority stakeAuthorize custodian
  | .authorizeCheckedWithSeed stakeAccount authorityBase authoritySeed authorityOwner newAuthority
      stakeAuthorize custodian =>
      onStakeAccount context accounts stakeAccount fun me => do
        rejectIf (newAuthority ∉ context.signers) .missingRequiredSignature
        authorizeWithSeed api invoke context me authorityBase authoritySeed authorityOwner newAuthority
          stakeAuthorize custodian
  | .setLockupChecked stakeAccount unixTimestamp epoch custodian =>
    onStakeAccount context accounts stakeAccount fun me => do
      rejectIf (∃ key ∈ custodian, key ∉ context.signers) .missingRequiredSignature
      setLockup api invoke context me { unixTimestamp, epoch, custodian }
  | .deactivateDelinquent stakeAccount delinquentVoteAccount referenceVoteAccount => do
      let _ ← getStakeAccount context accounts stakeAccount
      deactivateDelinquent api invoke context accounts stakeAccount delinquentVoteAccount
        referenceVoteAccount
  | .moveStake sourceAccount destinationAccount stakeAuthority lamports =>
    moveStake api invoke context accounts sourceAccount lamports destinationAccount stakeAuthority
  | .moveLamports sourceAccount destinationAccount stakeAuthority lamports =>
    moveLamports api invoke context accounts sourceAccount lamports destinationAccount stakeAuthority

end Entrypoint

/-- Credit a reward: the same amount to the lamports of an account and to its delegation. -/
def buildUpdatedStakeReward (account : Account AccountData) (stakeReward creditsObserved : Nat) :
    Except Error (Account AccountData) := do
  match ← getState account with
  | .stake metadata stake stakeFlags =>
    let lamports ← okOr (checkedAdd 64 account.lamports stakeReward) .arithmeticOverflow
    let amount ← okOr (checkedAdd 64 stake.delegation.stake stakeReward) .arithmeticOverflow
    pure { account with
      lamports
      data := .stake (.stake metadata ((stake.withAmount amount).withCredits creditsObserved) stakeFlags) }
  | _ => .error .invalidAccountData

/-- The accounts and the sysvars the stake program reads. -/
structure State where
  accounts : StakeAccounts
  invoke : InvokeContext

/-- What can happen to the accounts. -/
inductive Action where
  /-- An instruction of the stake program. -/
  | instruction (context : InstructionContext) (instruction : StakeInstruction)
  /-- Lamports sent to an account. -/
  | donate (account : Pubkey) (lamports : Nat)
  /-- A reward credited to a stake account. -/
  | reward (stakeAccount : Pubkey) (stakeReward creditsObserved : Nat)
  /-- The clock moves on; rewards may start or stop being distributed, and the feature may be activated. -/
  | advance (invoke : InvokeContext)

namespace State

/-- Run one action. -/
def apply (api : Interface) (action : Action) (state : State) : Except Error State :=
  match action with
  | .instruction context instruction => do
      let accounts ← processInstruction api state.invoke context state.accounts instruction
      pure { state with accounts }
  | .donate key lamports => do
      let account ← okOr (state.accounts.lookup key) .missingAccount
      let lamports ← okOr (checkedAdd 64 account.lamports lamports) .arithmeticOverflow
      pure { state with accounts := state.accounts.insert key { account with lamports } }
  | .reward key stakeReward creditsObserved => do
      let account ← okOr (state.accounts.lookup key) .missingAccount
      rejectIf (account.owner ≠ .stake) .invalidAccountOwner
      let account ← buildUpdatedStakeReward account stakeReward creditsObserved
      pure { state with accounts := state.accounts.insert key account }
  | .advance invoke => do
      -- epochs never go back, and they are 64-bit integers
      rejectIf (invoke.clock.epoch < state.invoke.clock.epoch ∨ u64Max < invoke.clock.epoch) .invalidArgument
      pure { state with invoke }

end State

/-- The lamports an action brings in from outside. -/
def Action.inflow : Action → Nat
  | .donate _ lamports => lamports
  | .reward _ stakeReward _ => stakeReward
  | _ => 0

/-- The lamports of all accounts together. -/
def totalLamports (accounts : StakeAccounts) : Nat :=
  Store.total (fun _ account => account.lamports) accounts

end Payout.StakeProgram
