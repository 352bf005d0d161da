/-
Purpose: The tower a validator keeps of its own votes. A new vote pops the votes it has outlived, roots the oldest
  vote of a full tower, and raises the confirmations of the votes it stands on. A slot is locked out if a vote for it
  would leave a vote on another fork in the tower.
Source: gorchain/core/src/consensus/tower_vote_state.rs, gorchain/core/src/consensus.rs
Trusted boundary: VoteInterface (lockouts are computed by solana_vote_interface)
-/
import Payout.Vote.VoteState
import Mathlib.Data.List.DropRight
import Payout.Lib.Run
import Mathlib.Data.Finset.Basic
import Mathlib.Logic.Relation

namespace Payout.Consensus

open Vote

/-- Votes, oldest first, and the root below them. -/
structure TowerVoteState where
  votes : List Lockout
  rootSlot : Option Nat
deriving Repr, DecidableEq

namespace TowerVoteState

variable {Rest : Type} (api : VoteInterface Rest)

/-- The tower before the first vote. -/
def empty : TowerVoteState := { votes := [], rootSlot := none }

variable (tower : TowerVoteState)

def lastVotedSlot : Option Nat :=
  tower.votes.getLast?.map Lockout.slot

/-- Pop the recent votes that are not locked out at the next slot. -/
def popExpiredVotes (votes : List Lockout) (nextVoteSlot : Nat) : List Lockout :=
  votes.rdropWhile fun vote => !api.isLockedOutAtSlot vote nextVoteSlot

/-- Raise the confirmations of the votes from position `i` on that have seen fewer than stand on them now. -/
def doubleLockouts (stackDepth : Nat) : Nat → List Lockout → List Lockout
  | _, [] => []
  | i, vote :: votes =>
    (if i + vote.confirmationCount < stackDepth then api.increaseConfirmationCount vote 1 else vote) ::
      doubleLockouts stackDepth (i + 1) votes

/-- The oldest vote of a full tower becomes the root. -/
def popRoot : TowerVoteState :=
  if tower.votes.length = maxLockoutHistory then
    { votes := tower.votes.tail, rootSlot := tower.votes.head?.map Lockout.slot }
  else tower

/-- Vote for a slot. One that is not newer than the last vote is ignored. -/
def processNextVoteSlot (nextVoteSlot : Nat) : TowerVoteState :=
  if tower.lastVotedSlot.any fun lastVotedSlot => nextVoteSlot ≤ lastVotedSlot then tower
  else
    let popped := popRoot { tower with votes := popExpiredVotes api tower.votes nextVoteSlot }
    let votes := popped.votes ++ [{ slot := nextVoteSlot, confirmationCount := 1 }]
    { popped with votes := doubleLockouts api votes.length 0 votes }

/-- The towers after each vote of a sequence. -/
def towers (tower : TowerVoteState) : List Nat → List TowerVoteState
  | [] => []
  | slot :: slots =>
    let next := tower.processNextVoteSlot api slot
    next :: next.towers slots

end TowerVoteState

open Lib

/-! ### Block trees -/

/-- Blocks are named by their slots, and a block comes after its parent. -/
structure BlockTree where
  parent : Nat → Option Nat
  parent_lt : ∀ slot above, parent above = some slot → slot < above

namespace BlockTree

/-- A block on the way from another one down to the root of the tree. -/
def Ancestor (tree : BlockTree) : Nat → Nat → Prop :=
  Relation.TransGen fun slot above => tree.parent above = some slot

/-- The same block or an ancestor. -/
def Reaches (tree : BlockTree) : Nat → Nat → Prop :=
  Relation.ReflTransGen fun slot above => tree.parent above = some slot

/-- Of any two of the slots, one reaches the other. -/
def OneChain (tree : BlockTree) (slots : List Nat) : Prop :=
  ∀ one ∈ slots, ∀ other ∈ slots, tree.Reaches one other ∨ tree.Reaches other one

end BlockTree

/-! ### Voting -/

inductive Panic where
  | voteTooOld
  | noRoot
  | rootNotAncestor
deriving Repr, DecidableEq

namespace TowerVoteState

variable {Rest : Type} (api : VoteInterface Rest)

variable (tower : TowerVoteState)

def root : Except Panic Nat :=
  okOr tower.rootSlot .noRoot

/-- A slot is recent if it is newer than the last vote, or than the root before the first vote. -/
def isRecent (slot : Nat) : Bool :=
  match tower.lastVotedSlot, tower.rootSlot with
  | some lastVotedSlot, _ => lastVotedSlot < slot
  | none, some root => root < slot
  | none, none => true

/-- Simulate a vote for the slot. Any other slot that stays in the tower must be an ancestor of it. -/
def isLockedOut (slot : Nat) (ancestors : Finset Nat) : Except Panic Bool :=
  if !tower.isRecent slot then .ok true
  else
    let simulated := tower.processNextVoteSlot api slot
    if simulated.votes.any fun vote => slot ≠ vote.slot ∧ vote.slot ∉ ancestors then .ok true
    else do
      rejectIf (∃ root ∈ simulated.rootSlot, slot ≠ root ∧ root ∉ ancestors) .rootNotAncestor
      .ok false

/-- Record a vote; the root is returned if it is a new one. -/
def recordBankVoteAndUpdateLockouts (voteSlot : Nat) : Except Panic (TowerVoteState × Option Nat) := do
  rejectIf (∃ lastVotedSlot ∈ tower.lastVotedSlot, voteSlot ≤ lastVotedSlot) .voteTooOld
  let oldRoot ← tower.root
  let voted := tower.processNextVoteSlot api voteSlot
  let newRoot ← voted.root
  .ok (voted, if oldRoot ≠ newRoot then some newRoot else none)

end TowerVoteState

/-! ### Runs of a tower -/

/-- A slot to vote for, with its ancestors. -/
structure Ballot where
  slot : Nat
  ancestors : Finset Nat

/-- Votes are recorded on recent slots that are not locked out, with their true ancestors. -/
def Allowed {Rest : Type} (api : VoteInterface Rest) (tree : BlockTree) (tower : TowerVoteState)
    (ballot : Ballot) : Prop :=
  (∀ slot, slot ∈ ballot.ancestors ↔ tree.Ancestor slot ballot.slot) ∧ tower.isRecent ballot.slot = true ∧
    tower.isLockedOut api ballot.slot ballot.ancestors = .ok false

/-- Record the vote of a ballot. -/
def castBallot {Rest : Type} (api : VoteInterface Rest) (ballot : Ballot) (tower : TowerVoteState) :
    Except Panic TowerVoteState :=
  (tower.recordBankVoteAndUpdateLockouts api ballot.slot).map Prod.fst

/-- A tower without votes at a root. -/
def TowerVoteState.startingAt (root : Nat) : TowerVoteState := { votes := [], rootSlot := some root }

end Payout.Consensus
