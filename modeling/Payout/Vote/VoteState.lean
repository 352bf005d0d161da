/-
Purpose: The on-chain vote state and how a proposed tower replaces it. A proposal is first walked against the recent
  slot hashes, dropping the votes that are too old to be verified, and the rest is then compared with the votes the
  account holds.
Source: gorchain/programs/vote/src/vote_state/mod.rs
Trusted boundary: VoteInterface (solana_vote_interface is not part of the repository)
-/
import Payout.Lib.Imperative

namespace Payout.Vote

open Lib

/-- The depth of a full tower, `MAX_LOCKOUT_HISTORY`. -/
def maxLockoutHistory : Nat := 31

/-! ### Votes -/

/-- A vote for a slot with the number of votes that confirm it. -/
structure Lockout where
  slot : Nat
  confirmationCount : Nat
deriving Repr, DecidableEq

/-- A vote of an account, with the number of slots it took to land. -/
structure LandedVote where
  latency : Nat
  lockout : Lockout
deriving Repr, DecidableEq

namespace LandedVote

def slot (vote : LandedVote) : Nat := vote.lockout.slot

def confirmationCount (vote : LandedVote) : Nat := vote.lockout.confirmationCount

/-- A proposed vote has not landed yet: its latency is zero. -/
def ofLockout (lockout : Lockout) : LandedVote := { latency := 0, lockout := lockout }

theorem map_lockout_ofLockout (lockouts : List Lockout) : (lockouts.map ofLockout).map lockout = lockouts := by
  rw [List.map_map]
  exact List.map_id _

end LandedVote

/-- A vote state: the votes, oldest first, the root, and the fields a new tower leaves alone or that only the vote
    interface writes. -/
structure VoteState (Rest : Type) where
  votes : List LandedVote
  rootSlot : Option Nat
  rest : Rest
deriving Repr, DecidableEq

/-- The votes of an account without their latencies. -/
def VoteState.lockouts {Rest : Type} (voteState : VoteState Rest) : List Lockout :=
  voteState.votes.map LandedVote.lockout

/-! ### Failures -/

inductive VoteError where
  | voteTooOld
  | slotsMismatch
  | slotHashMismatch
  | emptySlots
  | timestampTooOld
  | tooManyVotes
  | rootRollBack
  | zeroConfirmations
  | confirmationTooLarge
  | slotSmallerThanRoot
  | slotsNotOrdered
  | confirmationsNotOrdered
  | newVoteStateLockoutMismatch
  | lockoutConflict
  | confirmationRollBack
  | rootOnDifferentFork
  | assertionFailed
deriving Repr, DecidableEq

inductive Panic where
  | emptyNewState
  | earnedCreditsOverflow
  | indexOutOfBounds
  | lastProposedSlot
deriving Repr, DecidableEq

/-- An instruction fails with an error it returns or by a panic. -/
inductive Failure where
  | error (error : VoteError)
  | panic (reason : Panic)
deriving Repr, DecidableEq

/-! ### What the vote interface provides -/

/-- The functions of the vote interface. Credits and timestamps are kept in the other fields of a vote state. -/
structure VoteInterface (Rest : Type) where
  lastLockedOutSlot : Lockout → Nat
  isLockedOutAtSlot : Lockout → Nat → Bool
  increaseConfirmationCount : Lockout → Nat → Lockout
  containsSlot : VoteState Rest → Nat → Bool
  creditsForVoteAtIndex : VoteState Rest → Nat → Nat
  computeVoteLatency : Nat → Nat → Nat
  incrementCredits : Rest → Nat → Nat → Rest
  processTimestamp : Rest → Nat → Int → Except VoteError Rest

variable {Rest Hash : Type} [DecidableEq Hash] (api : VoteInterface Rest)

/-! ### Checking a proposal against the slot hashes -/

variable (voteState : VoteState Rest)

/-- The root of a proposal. One that is too old to be verified gives way to the latest vote of the account that is
    not newer, or else to the account's root. -/
def overwriteRoot (earliestSlotHashInHistory : Nat) : Option Nat → Option Nat
  | none => none
  | some root =>
    if root < earliestSlotHashInHistory then
      match voteState.votes.reverse.find? fun vote => vote.slot ≤ root with
      | some vote => some vote.slot
      | none => voteState.rootSlot
    else some root

/-- Where the walk over a proposal and the slot hashes stands. -/
structure Walk where
  rootToCheck : Option Nat
  proposedLockoutsIndex : Nat
  slotHashesIndex : Nat
  indicesToFilter : List Nat
deriving Repr, DecidableEq

variable (proposedLockouts : List Lockout)

/-- One turn of the walk: the root, if it is still to be checked, or else the next proposed slot against the next newer
    slot hash. -/
def checkSlot (slotHashes : List (Nat × Hash))
    (earliestSlotHashInHistory : Nat) (walk : Walk) : Except Failure Walk := do
  let index := walk.proposedLockoutsIndex
  let proposed ← okOr proposedLockouts[index]? (.panic .indexOutOfBounds)
  let proposedVoteSlot := walk.rootToCheck.getD proposed.slot
  rejectIf (walk.rootToCheck.isNone ∧ 0 < index ∧
    proposedLockouts[index - 1]?.any fun previous => proposedVoteSlot ≤ previous.slot) (.error .slotsNotOrdered)
  let ancestor ← okOr slotHashes[walk.slotHashesIndex - 1]? (.panic .indexOutOfBounds)
  match compare proposedVoteSlot ancestor.1 with
  | .lt =>
    if walk.slotHashesIndex = slotHashes.length then do
      rejectIf (earliestSlotHashInHistory ≤ proposedVoteSlot) (.error .assertionFailed)
      match walk.rootToCheck with
      | some newProposedRoot =>
        rejectIf (earliestSlotHashInHistory ≤ newProposedRoot) (.error .assertionFailed)
        .ok { walk with rootToCheck := none }
      | none =>
        -- too old to be in the history and not a vote of the account either
        if api.containsSlot voteState proposedVoteSlot then
          .ok { walk with proposedLockoutsIndex := index + 1 }
        else
          .ok { walk with proposedLockoutsIndex := index + 1, indicesToFilter := walk.indicesToFilter ++ [index] }
    else if walk.rootToCheck.isSome then .error (.error .rootOnDifferentFork)
    else .error (.error .slotsMismatch)
  | .gt => .ok { walk with slotHashesIndex := walk.slotHashesIndex - 1 }
  | .eq =>
    if walk.rootToCheck.isSome then .ok { walk with rootToCheck := none }
    else .ok { walk with proposedLockoutsIndex := index + 1, slotHashesIndex := walk.slotHashesIndex - 1 }

/-- The walk goes on while proposed slots and slot hashes are left. -/
def walking (walk : Walk) : Bool :=
  walk.proposedLockoutsIndex < proposedLockouts.length && 0 < walk.slotHashesIndex

/-- The turns the walk can still take. -/
def Walk.left (walk : Walk) : Nat :=
  (proposedLockouts.length - walk.proposedLockoutsIndex) + walk.slotHashesIndex + walk.rootToCheck.toList.length

/-- Drop the votes at the given indices, which are in order. -/
def retainVotes (indicesToFilter : List Nat) : Nat → Nat → List Lockout → List Lockout
  | _, _, [] => []
  | proposedLockoutsIndex, filterVotesIndex, lockout :: rest =>
    if indicesToFilter[filterVotesIndex]? = some proposedLockoutsIndex then
      retainVotes indicesToFilter (proposedLockoutsIndex + 1) (filterVotesIndex + 1) rest
    else lockout :: retainVotes indicesToFilter (proposedLockoutsIndex + 1) filterVotesIndex rest

/-- The votes and the root of a proposal that are left to be applied. -/
def checkAndFilterProposedVoteState (proposedRoot : Option Nat) (proposedHash : Hash) (slotHashes : List (Nat × Hash)) :
    Except Failure (List Lockout × Option Nat) := do
  let last ← okOr proposedLockouts.getLast? (.error .emptySlots)
  rejectIf (∃ vote ∈ voteState.votes.getLast?, last.slot ≤ vote.slot) (.error .voteTooOld)
  let earliest ← okOr slotHashes.getLast? (.error .slotsMismatch)
  rejectIf (last.slot < earliest.1) (.error .voteTooOld)
  let root := overwriteRoot voteState earliest.1 proposedRoot
  let walk ← whileLoop (walking proposedLockouts)
    (checkSlot api voteState proposedLockouts slotHashes earliest.1) (Walk.left proposedLockouts)
    { rootToCheck := root, proposedLockoutsIndex := 0, slotHashesIndex := slotHashes.length, indicesToFilter := [] }
  rejectIf (walk.proposedLockoutsIndex ≠ proposedLockouts.length) (.error .slotsMismatch)
  let newest ← okOr slotHashes[walk.slotHashesIndex]? (.panic .indexOutOfBounds)
  rejectIf (last.slot ≠ newest.1) (.panic .lastProposedSlot)
  rejectIf (newest.2 ≠ proposedHash) (.error .slotHashMismatch)
  .ok (retainVotes walk.indicesToFilter 0 0 proposedLockouts, root)

/-! ### Applying a proposal -/

/-- A root may neither go back nor be given up. -/
def checkRoot (newRoot currentRoot : Option Nat) : Except Failure Unit :=
  match newRoot, currentRoot with
  | some newRoot, some currentRoot => rejectIf (newRoot < currentRoot) (.error .rootRollBack)
  | none, some _ => .error (.error .rootRollBack)
  | _, none => .ok ()

/-- One proposed vote, after the vote before it. A tower without votes has slot 0 as its root, so that root is not
    held against the votes. -/
def checkVote (newRoot : Option Nat) (previousVote : Option LandedVote) (vote : LandedVote) :
    Except Failure Unit := do
  rejectIf (vote.confirmationCount = 0) (.error .zeroConfirmations)
  rejectIf (maxLockoutHistory < vote.confirmationCount) (.error .confirmationTooLarge)
  rejectIf (∃ root ∈ newRoot, vote.slot ≤ root ∧ root ≠ 0) (.error .slotSmallerThanRoot)
  match previousVote with
  | none => .ok ()
  | some previous =>
    rejectIf (vote.slot ≤ previous.slot) (.error .slotsNotOrdered)
    rejectIf (previous.confirmationCount ≤ vote.confirmationCount) (.error .confirmationsNotOrdered)
    rejectIf (api.lastLockedOutSlot previous.lockout < vote.slot) (.error .newVoteStateLockoutMismatch)

/-- The votes of a proposal in order. -/
def checkVotes (newRoot : Option Nat) : Option LandedVote → List LandedVote → Except Failure Unit
  | _, [] => .ok ()
  | previousVote, vote :: votes => do
      checkVote api newRoot previousVote vote
      checkVotes newRoot (some vote) votes

/-- The credits earned by the votes of the account that the new root covers, and the votes it does not cover. -/
def rootVotes (voteState : VoteState Rest) (newRoot : Nat) :
    Nat → Nat → List LandedVote → Except Failure (Nat × List LandedVote)
  | _, earnedCredits, [] => .ok (earnedCredits, [])
  | index, earnedCredits, vote :: votes =>
    if vote.slot ≤ newRoot then do
      let earned ← okOr (checkedAdd 64 earnedCredits (api.creditsForVoteAtIndex voteState index))
        (.panic .earnedCreditsOverflow)
      rootVotes voteState newRoot (index + 1) earned votes
    else .ok (earnedCredits, vote :: votes)

/-- Skip the votes of the account that the new root covers, if there is one. -/
def skipRooted : Option Nat → Except Failure (Nat × List LandedVote)
  | some newRoot => rootVotes api voteState newRoot 0 0 voteState.votes
  | none => .ok (0, voteState.votes)

/-- The account's votes that are left against the proposed votes that are left. A vote the proposal leaves out must have
    expired, and one it keeps must not lose confirmations and keeps its latency. -/
def compareVotes : List LandedVote → List LandedVote → Except Failure (List LandedVote)
  | [], newVotes => .ok newVotes
  | _ :: _, [] => .ok []
  | currentVote :: currentVotes, newVote :: newVotes =>
    match compare currentVote.slot newVote.slot with
    | .lt => do
        rejectIf (newVote.slot ≤ api.lastLockedOutSlot currentVote.lockout) (.error .lockoutConflict)
        compareVotes currentVotes (newVote :: newVotes)
    | .eq => do
        rejectIf (newVote.confirmationCount < currentVote.confirmationCount) (.error .confirmationRollBack)
        let rest ← compareVotes currentVotes newVotes
        .ok ({ newVote with latency := currentVote.latency } :: rest)
    | .gt => do
        let rest ← compareVotes (currentVote :: currentVotes) newVotes
        .ok (newVote :: rest)
termination_by currentVotes newVotes => currentVotes.length + newVotes.length

/-- A vote that was not in the account gets the latency of this instruction. -/
def setLatency (currentSlot : Nat) (vote : LandedVote) : LandedVote :=
  if vote.latency = 0 then { vote with latency := api.computeVoteLatency vote.slot currentSlot } else vote

/-- Record the time of the newest vote, if the instruction gives one. -/
def recordTimestamp (rest : Rest) (votes : List LandedVote) : Option Int → Except Failure Rest
  | some timestamp => do
      let last ← okOr votes.getLast? (.panic .emptyNewState)
      (api.processTimestamp rest last.slot timestamp).mapError .error
  | none => .ok rest

/-- Replace the votes and the root of an account. -/
def processNewVoteState (newState : List LandedVote) (newRoot : Option Nat)
    (timestamp : Option Int) (epoch : Nat) (currentSlot : Nat) : Except Failure (VoteState Rest) := do
  rejectIf (newState = []) (.panic .emptyNewState)
  rejectIf (maxLockoutHistory < newState.length) (.error .tooManyVotes)
  checkRoot newRoot voteState.rootSlot
  checkVotes api newRoot none newState
  let (earnedCredits, currentVotes) ← skipRooted api voteState newRoot
  let compared ← compareVotes api currentVotes newState
  let votes := compared.map (setLatency api currentSlot)
  let credited := if voteState.rootSlot ≠ newRoot
    then api.incrementCredits voteState.rest epoch earnedCredits else voteState.rest
  let rest ← recordTimestamp api credited votes timestamp
  .ok { votes := votes, rootSlot := newRoot, rest := rest }

/-! ### The two instructions that propose a tower -/

/-- The proposal of a `VoteStateUpdate` instruction. -/
structure VoteStateUpdate (Hash : Type) where
  lockouts : List Lockout
  root : Option Nat
  hash : Hash
  timestamp : Option Int
deriving Repr

/-- The proposal of a `TowerSync` instruction. Its block id is not looked at. -/
structure TowerSync (Hash : Type) where
  lockouts : List Lockout
  root : Option Nat
  hash : Hash
  timestamp : Option Int
  blockId : Hash
deriving Repr

/-- Check a proposal and apply what is left of it. -/
def applyProposal (slotHashes : List (Nat × Hash)) (epoch : Nat) (slot : Nat)
    (lockouts : List Lockout) (root : Option Nat) (hash : Hash) (timestamp : Option Int) :
    Except Failure (VoteState Rest) := do
  let (lockouts, root) ← checkAndFilterProposedVoteState api voteState lockouts root hash slotHashes
  processNewVoteState api voteState (lockouts.map LandedVote.ofLockout) root timestamp epoch slot

def doProcessVoteStateUpdate (slotHashes : List (Nat × Hash)) (epoch : Nat)
    (slot : Nat) (voteStateUpdate : VoteStateUpdate Hash) : Except Failure (VoteState Rest) :=
  applyProposal api voteState slotHashes epoch slot voteStateUpdate.lockouts voteStateUpdate.root
    voteStateUpdate.hash voteStateUpdate.timestamp

def doProcessTowerSync (slotHashes : List (Nat × Hash)) (epoch : Nat)
    (slot : Nat) (towerSync : TowerSync Hash) : Except Failure (VoteState Rest) :=
  applyProposal api voteState slotHashes epoch slot towerSync.lockouts towerSync.root towerSync.hash
    towerSync.timestamp

/-! ### What is documented of the vote interface -/

/-- A vote is locked out for two to the number of its confirmations slots, and earns at most sixteen credits. -/
structure VoteInterface.Documented (api : VoteInterface Rest) : Prop where
  lastLockedOutSlot_eq : ∀ lockout, api.lastLockedOutSlot lockout =
    saturatingAdd 64 lockout.slot (2 ^ min lockout.confirmationCount maxLockoutHistory)
  isLockedOutAtSlot_iff : ∀ lockout slot,
    api.isLockedOutAtSlot lockout slot = true ↔ slot ≤ api.lastLockedOutSlot lockout
  increaseConfirmationCount_eq : ∀ lockout by', api.increaseConfirmationCount lockout by' =
    { lockout with confirmationCount := saturatingAdd 32 lockout.confirmationCount by' }
  creditsForVoteAtIndex_le : ∀ voteState index, api.creditsForVoteAtIndex voteState index ≤ 16

/-- A vote state contains the slots of its votes. -/
def VoteInterface.ContainsVotes (api : VoteInterface Rest) : Prop :=
  ∀ voteState slot, api.containsSlot voteState slot = true ↔ ∃ vote ∈ voteState.votes, vote.slot = slot

namespace Sample

/-- An interface that counts the credits of one epoch and accepts every timestamp. -/
def voteInterface : VoteInterface Nat where
  lastLockedOutSlot lockout := saturatingAdd 64 lockout.slot (2 ^ min lockout.confirmationCount maxLockoutHistory)
  isLockedOutAtSlot lockout slot :=
    slot ≤ saturatingAdd 64 lockout.slot (2 ^ min lockout.confirmationCount maxLockoutHistory)
  increaseConfirmationCount lockout by' :=
    { lockout with confirmationCount := saturatingAdd 32 lockout.confirmationCount by' }
  containsSlot voteState slot := voteState.votes.any fun vote => vote.slot = slot
  creditsForVoteAtIndex voteState index :=
    match voteState.votes[index]? with
    | some vote => if vote.latency = 0 then 1 else max 1 (16 - (vote.latency - 2))
    | none => 0
  computeVoteLatency votedForSlot currentSlot := min (currentSlot - votedForSlot) 255
  incrementCredits credits _ earned := saturatingAdd 64 credits earned
  processTimestamp credits _ _ := .ok credits

theorem voteInterface_documented : voteInterface.Documented where
  lastLockedOutSlot_eq _ := rfl
  isLockedOutAtSlot_iff _ _ := decide_eq_true_iff
  increaseConfirmationCount_eq _ _ := rfl
  creditsForVoteAtIndex_le voteState index := by
    simp only [voteInterface]
    split
    · split <;> omega
    · omega

end Sample

end Payout.Vote
