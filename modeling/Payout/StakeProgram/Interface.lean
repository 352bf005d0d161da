/-
Purpose: The data of stake accounts, and the functions the stake program takes from the crates around it.
Source: gorchain/programs/stake/src/stake_state.rs and stake_instruction.rs, where these are imported
-/
import Payout.Runtime.TransactionContext

namespace Payout.StakeProgram

open Payout.Runtime

/-! ### Data -/

abbrev Epoch := Nat

structure Clock where
  epoch : Epoch
  unixTimestamp : Int
deriving DecidableEq, Repr

/-- Who may manage a stake account. -/
structure Authorized where
  staker : Pubkey
  withdrawer : Pubkey
deriving DecidableEq, Repr

inductive StakeAuthorize where
  | staker
  | withdrawer
deriving DecidableEq, Repr

/-- Until when the lamports of a stake account stay in it, unless the custodian agrees. -/
structure Lockup where
  unixTimestamp : Int
  epoch : Epoch
  custodian : Pubkey
deriving DecidableEq, Repr

/-- `Lockup::default()`: no lockup. -/
def Lockup.default : Lockup := { unixTimestamp := 0, epoch := 0, custodian := 0 }

structure LockupArgs where
  unixTimestamp : Option Int
  epoch : Option Epoch
  custodian : Option Pubkey
deriving DecidableEq, Repr

structure Meta where
  rentExemptReserve : Nat
  authorized : Authorized
  lockup : Lockup
deriving DecidableEq, Repr

/-- A stake delegated to a vote account. The deactivation epoch is `u64::MAX` until it is deactivated. -/
structure Delegation where
  voterPubkey : Pubkey
  stake : Nat
  activationEpoch : Epoch
  deactivationEpoch : Epoch
deriving DecidableEq, Repr

/-- `Delegation::new`. -/
def Delegation.new (voterPubkey : Pubkey) (stake : Nat) (activationEpoch : Epoch) : Delegation :=
  { voterPubkey, stake, activationEpoch, deactivationEpoch := u64Max }

structure Stake where
  delegation : Delegation
  creditsObserved : Nat
deriving DecidableEq, Repr

namespace Stake

/-- The stake with another amount delegated. -/
def withAmount (stake : Stake) (amount : Nat) : Stake :=
  { stake with delegation := { stake.delegation with stake := amount } }

/-- The stake with other credits observed. -/
def withCredits (stake : Stake) (creditsObserved : Nat) : Stake := { stake with creditsObserved }

/-- The stake with another deactivation epoch. -/
def deactivatedAt (stake : Stake) (epoch : Epoch) : Stake :=
  { stake with delegation := { stake.delegation with deactivationEpoch := epoch } }

end Stake

/-- The bits of `StakeFlags`. -/
abbrev StakeFlags := UInt8

/-- `StakeFlags::empty`. -/
def StakeFlags.empty : StakeFlags := 0

/-- `StakeFlags::union`. -/
def StakeFlags.union (one two : StakeFlags) : StakeFlags := one ||| two

inductive StakeStateV2 where
  | uninitialized
  | initialized (metadata : Meta)
  | stake (metadata : Meta) (stake : Stake) (stakeFlags : StakeFlags)
  | rewardsPool
deriving DecidableEq, Repr

namespace StakeStateV2

/-- `StakeStateV2::meta`. -/
def metadata? : StakeStateV2 → Option Meta
  | .initialized metadata => some metadata
  | .stake metadata _ _ => some metadata
  | _ => none

/-- The state with other metadata, where it has any. -/
def withMeta (metadata : Meta) : StakeStateV2 → StakeStateV2
  | .initialized _ => .initialized metadata
  | .stake _ delegated stakeFlags => .stake metadata delegated stakeFlags
  | state => state

end StakeStateV2

/-- How much of a delegation is effective, on its way in and on its way out. -/
structure StakeActivationStatus where
  effective : Nat
  activating : Nat
  deactivating : Nat
deriving DecidableEq, Repr

/-- What a vote account says about the credits of its validator. -/
structure VoteState where
  /-- `VoteStateV3::credits`. -/
  credits : Nat
  /-- Epoch, credits and previous credits of every epoch it voted in. -/
  epochCredits : List (Epoch × Nat × Nat)
deriving DecidableEq, Repr

/-- The errors of the stake program. -/
inductive StakeError where
  | lockupInForce
  | alreadyDeactivated
  | tooSoonToRedelegate
  | insufficientStake
  | mergeTransientStake
  | mergeMismatch
  | custodianMissing
  | custodianSignatureMissing
  | insufficientReferenceVotes
  | voteAddressMismatch
  | minimumDelinquentEpochsForDeactivationNotMet
  | insufficientDelegation
  | epochRewardsActive
deriving DecidableEq, Repr

/-- What an instruction of the stake program fails with. -/
abbrev Error := InstructionError StakeError

/-- What the data of an account deserialises to. -/
inductive AccountData where
  | stake (state : StakeStateV2)
  | vote (state : VoteState)
  | other
deriving DecidableEq, Repr

/-! ### Functions from outside -/

/-- The functions of the stake interface, of the rent calculator and of the address derivation that the stake
    program calls. -/
structure Interface where
  /-- `StakeStateV2::size_of`. -/
  sizeOf : Nat
  /-- `bincode::serialized_size`. -/
  serializedSize : StakeStateV2 → Nat
  /-- `Rent::minimum_balance`, for the rent in force. -/
  minimumBalance : (dataLen : Nat) → Nat
  /-- `Delegation::stake_activating_and_deactivating`, with the stake history of the epoch. -/
  stakeActivatingAndDeactivating : Delegation → Epoch → StakeActivationStatus
  /-- `Stake::split`: the stake that stays and the stake split off. -/
  split : Stake → (remainingStakeDelta splitStakeAmount : Nat) → Except StakeError (Stake × Stake)
  /-- `Stake::deactivate`. -/
  deactivate : Stake → Epoch → Except StakeError Stake
  /-- `Authorized::check`. -/
  check : Authorized → (signers : Finset Pubkey) → StakeAuthorize → Except Error Unit
  /-- `Authorized::authorize`. -/
  authorize : Authorized → (signers : Finset Pubkey) → (newAuthorized : Pubkey) → StakeAuthorize →
    Lockup × Clock × Option Pubkey → Except Error Authorized
  /-- `Meta::set_lockup`. -/
  setLockup : Meta → LockupArgs → (signers : Finset Pubkey) → Clock → Except Error Meta
  /-- `Lockup::is_in_force`. -/
  isInForce : Lockup → Clock → (custodian : Option Pubkey) → Bool
  /-- `Pubkey::create_with_seed`. -/
  createWithSeed : (base : Pubkey) → (seed : String) → (owner : Pubkey) → Except Error Pubkey
  /-- `acceptable_reference_epoch_credits`. -/
  acceptableReferenceEpochCredits : List (Epoch × Nat × Nat) → Epoch → Bool
  /-- `eligible_for_deactivate_delinquent`. -/
  eligibleForDeactivateDelinquent : List (Epoch × Nat × Nat) → Epoch → Bool

namespace Interface

/-- `Delegation::stake`: the effective stake of a delegation. -/
def stake (api : Interface) (delegation : Delegation) (epoch : Epoch) : Nat :=
  (api.stakeActivatingAndDeactivating delegation epoch).effective

/-- The reserve of a stake account. -/
def reserve (api : Interface) : Nat := api.minimumBalance api.sizeOf

/-- What is documented about the functions from outside. -/
structure Documented (api : Interface) : Prop where
  /-- A balance is a 64-bit integer. -/
  minimumBalance_le : ∀ dataLen, api.minimumBalance dataLen ≤ u64Max
  /-- The effective stake is between nothing and the whole delegation. -/
  stake_le : ∀ delegation epoch, api.stake delegation epoch ≤ delegation.stake
  /-- A delegation that warms up is effective in part and activating in the other part. -/
  warmup : ∀ delegation epoch, delegation.activationEpoch ≤ epoch → epoch < delegation.deactivationEpoch →
    (api.stakeActivatingAndDeactivating delegation epoch).effective +
        (api.stakeActivatingAndDeactivating delegation epoch).activating = delegation.stake ∧
      (api.stakeActivatingAndDeactivating delegation epoch).deactivating = 0
  /-- From its deactivation epoch on, what is effective of a delegation is deactivating, and nothing more of
      it activates. -/
  cooldown : ∀ delegation epoch, delegation.deactivationEpoch ≤ epoch →
    (api.stakeActivatingAndDeactivating delegation epoch).activating = 0 ∧
      (api.stakeActivatingAndDeactivating delegation epoch).deactivating = api.stake delegation epoch
  /-- A deactivated delegation cools down. -/
  stake_antitone : ∀ delegation epoch later, delegation.deactivationEpoch ≤ epoch → epoch ≤ later →
    api.stake delegation later ≤ api.stake delegation epoch
  /-- A split takes from a stake no more than it has, and the part split off is like the rest. -/
  split_ok : ∀ stake remainingStakeDelta splitStakeAmount rest part,
    api.split stake remainingStakeDelta splitStakeAmount = .ok (rest, part) →
      remainingStakeDelta ≤ stake.delegation.stake ∧
        rest = stake.withAmount (stake.delegation.stake - remainingStakeDelta) ∧
        part = stake.withAmount splitStakeAmount
  /-- A stake is deactivated once. -/
  deactivate_ok : ∀ stake epoch deactivated, api.deactivate stake epoch = .ok deactivated →
    stake.delegation.deactivationEpoch = u64Max ∧ deactivated = stake.deactivatedAt epoch
  /-- Setting a lockup leaves the reserve and the authorities as they are. -/
  setLockup_ok : ∀ metadata lockup signers clock changed,
    api.setLockup metadata lockup signers clock = .ok changed →
      ∃ newLockup, changed = { metadata with lockup := newLockup }

/-- What is documented about the signatures that the authorities and the lockup of an account ask for. -/
structure Authorizing (api : Interface) : Prop where
  /-- The check for a withdrawal asks for the signature of the withdrawer. -/
  check_withdrawer : ∀ authorized signers,
    api.check authorized signers .withdrawer = .ok () → authorized.withdrawer ∈ signers
  /-- Naming another staker leaves the withdrawer as it is. -/
  authorize_staker : ∀ authorized signers newAuthorized lockup changed,
    api.authorize authorized signers newAuthorized .staker lockup = .ok changed →
      changed.withdrawer = authorized.withdrawer
  /-- Naming another withdrawer asks for the signature of the present one. -/
  authorize_withdrawer : ∀ authorized signers newAuthorized lockup changed,
    api.authorize authorized signers newAuthorized .withdrawer lockup = .ok changed →
      authorized.withdrawer ∈ signers
  /-- A lockup in force is changed by its custodian. -/
  setLockup_custodian : ∀ metadata lockup signers clock changed,
    api.setLockup metadata lockup signers clock = .ok changed →
      api.isInForce metadata.lockup clock none = true → metadata.lockup.custodian ∈ signers
  /-- Setting a lockup leaves the authorities as they are. -/
  setLockup_authorized : ∀ metadata lockup signers clock changed,
    api.setLockup metadata lockup signers clock = .ok changed →
      changed.authorized = metadata.authorized

end Interface

end Payout.StakeProgram
