/-
Purpose: The fork choice tree and the votes on their way to it. Every block knows the stake that voted for it and for
  its subtree, the height of the subtree and the best block in it; these values are maintained by batches of update
  operations that are applied from the newest block to the oldest. Votes seen in replayed blocks are kept in a dirty set
  until they are handed over to the fork choice.
Source: gorchain/core/src/consensus/{heaviest_subtree_fork_choice, tree_diff,
  latest_validator_votes_for_frozen_banks}.rs
Trusted boundary: Stakes are sums of 64 bits, which wrap as they do in a release build. The stakes of an epoch are
  given, and whether a block is frozen is decided by the caller.
-/
import Payout.Runtime.TransactionContext
import Mathlib.Data.List.Dedup
import Mathlib.Data.List.Sort
import Mathlib.Data.Prod.Lex

namespace Payout.ForkChoice

open Lib Payout.Runtime

/-! ### Keys -/

/-- A block: its slot and its hash. -/
structure SlotHashKey where
  slot : Nat
  hash : Nat
deriving Repr, DecidableEq

namespace SlotHashKey

/-- Keys are ordered by their slots, and by their hashes within a slot. -/
instance : LinearOrder SlotHashKey where
  le one other := one.slot < other.slot ∨ (one.slot = other.slot ∧ one.hash ≤ other.hash)
  lt one other := one.slot < other.slot ∨ (one.slot = other.slot ∧ one.hash < other.hash)
  le_refl one := .inr ⟨rfl, le_rfl⟩
  le_trans one two three := by
    intro first second
    omega
  lt_iff_le_not_ge one other := by omega
  le_antisymm one other := by
    intro le ge
    have slots : one.slot = other.slot := by omega
    have hashes : one.hash = other.hash := by omega
    cases one
    cases other
    simp_all
  le_total one other := by omega
  toDecidableLE _ _ := inferInstanceAs (Decidable (_ ∨ _))
  toDecidableLT _ _ := inferInstanceAs (Decidable (_ ∨ _))

/-- The default key, which stands for no block. -/
def default : SlotHashKey := { slot := 0, hash := 0 }

end SlotHashKey

/-! ### Update operations -/

/-- What an operation does to a block, in the order of the source. -/
inductive UpdateLabel where
  | aggregate
  | add
  | markValid (slot : Nat)
  | markInvalid (slot : Nat)
  | subtract
deriving Repr, DecidableEq

namespace UpdateLabel

def rank : UpdateLabel → Nat ×ₗ Nat
  | aggregate => toLex (0, 0)
  | add => toLex (1, 0)
  | markValid slot => toLex (2, slot)
  | markInvalid slot => toLex (3, slot)
  | subtract => toLex (4, 0)

theorem rank_injective : Function.Injective rank := by
  intro one other same
  cases one <;> cases other <;> simp_all [rank]

instance : LinearOrder UpdateLabel := LinearOrder.lift' rank rank_injective

end UpdateLabel

inductive UpdateOperation where
  | add (stake : Nat)
  | markValid (slot : Nat)
  | markInvalid (slot : Nat)
  | subtract (stake : Nat)
  | aggregate
deriving Repr, DecidableEq

/-- Operations under the block and the label they are for. -/
abbrev UpdateOperations := SortedMap (SlotHashKey ×ₗ UpdateLabel) UpdateOperation

/-! ### The tree -/

structure ForkInfo where
  stakeVotedAt : Nat
  stakeVotedSubtree : Nat
  height : Nat
  bestSlot : SlotHashKey
  deepestSlot : SlotHashKey
  parent : Option SlotHashKey
  children : List SlotHashKey
  latestInvalidAncestor : Option Nat
  isDuplicateConfirmed : Bool
deriving Repr, DecidableEq

abbrev ForkInfos := Store SlotHashKey ForkInfo

structure HeaviestSubtreeForkChoice where
  forkInfos : ForkInfos
  latestVotes : Store Pubkey SlotHashKey
  treeRoot : SlotHashKey

/-- The ways to panic: an `expect` or `unwrap` of a block that is not there, an assertion, or a walk that does not come
    to an end. -/
inductive Panic where
  | missing
  | duplicateConfirmed
  | updateStake
  | multipleVotes
  | notNewer
  | splitRoot
  | notAChild
  | endless
deriving Repr, DecidableEq

namespace ForkInfo

def isCandidate (info : ForkInfo) : Bool := info.latestInvalidAncestor.isNone

def setDuplicateConfirmed (info : ForkInfo) : ForkInfo :=
  { info with isDuplicateConfirmed := true, latestInvalidAncestor := none }

def updateWithNewlyValidAncestor (info : ForkInfo) (newlyValidAncestor : Nat) : ForkInfo :=
  match info.latestInvalidAncestor with
  | some latestInvalidAncestor =>
    if latestInvalidAncestor ≤ newlyValidAncestor then { info with latestInvalidAncestor := none } else info
  | none => info

def updateWithNewlyInvalidAncestor (info : ForkInfo) (newlyInvalidAncestor : Nat) : Except Panic ForkInfo := do
  rejectIf (info.isDuplicateConfirmed = true) .duplicateConfirmed
  .ok (match info.latestInvalidAncestor with
    | some latestInvalidAncestor =>
      if latestInvalidAncestor < newlyInvalidAncestor then
        { info with latestInvalidAncestor := some newlyInvalidAncestor }
      else info
    | none => { info with latestInvalidAncestor := some newlyInvalidAncestor })

end ForkInfo

namespace UpdateOperation

def updateStake (operation : UpdateOperation) (newStake : Nat) : Except Panic UpdateOperation :=
  match operation with
  | add stake => .ok (add (wrappingAdd 64 stake newStake))
  | subtract stake => .ok (subtract (wrappingAdd 64 stake newStake))
  | _ => .error .updateStake

end UpdateOperation

namespace ForkInfos

variable (infos : ForkInfos)

def parent (key : SlotHashKey) : Option SlotHashKey :=
  (infos.lookup key).bind ForkInfo.parent

/-- The blocks below a block, nearest first. Slots fall on the way, so there are at most as many as the slot number. -/
def ancestorsFrom : Nat → SlotHashKey → List SlotHashKey
  | 0, _ => []
  | turns + 1, key =>
    match parent infos key with
    | some parent => parent :: ancestorsFrom turns parent
    | none => []

def ancestorIterator (key : SlotHashKey) : List SlotHashKey := ancestorsFrom infos key.slot key

/-! ### Walks over subtrees -/

/-- The blocks reached from a block without passing another one. -/
def reachable (root2 : SlotHashKey) : Nat → SlotHashKey → Except Panic (List SlotHashKey)
  | 0, _ => .error .endless
  | turns + 1, key =>
    if key = root2 then .ok []
    else do
      let info ← okOr (infos.lookup key) .missing
      let below ← info.children.mapM (reachable root2 turns)
      .ok (key :: below.flatten)

/-- The greatest slot of a block. -/
def maxSlot : Nat := infos.entries.foldr (fun entry greatest => max entry.1.slot greatest) 0

/-- The blocks of one subtree that are not of another. Slots rise on the way, so it has no more turns than there are
    slots. -/
def subtreeDiff (root1 root2 : SlotHashKey) : Except Panic (List SlotHashKey) :=
  match infos.lookup root1 with
  | none => .ok []
  | some _ => do
      let keys ← reachable infos root2 (maxSlot infos + 1) root1
      .ok keys.dedup

/-! ### New leaves -/

/-- No candidate among the children is heavier, or as heavy with a smaller key. -/
def noBetterChild (maybeBestChild : SlotHashKey) (weight : Nat) : List SlotHashKey → Except Panic Bool
  | [] => .ok true
  | child :: children => do
      let info ← okOr (infos.lookup child) .missing
      if info.isCandidate ∧
          (weight < info.stakeVotedSubtree ∨ (weight = info.stakeVotedSubtree ∧ child < maybeBestChild)) then .ok false
      else noBetterChild maybeBestChild weight children

def isBestChild (maybeBestChild : SlotHashKey) : Except Panic Bool := do
  let info ← okOr (infos.lookup maybeBestChild) .missing
  match info.parent with
  | none => .ok true
  | some parent => do
      let parentInfo ← okOr (infos.lookup parent) .missing
      noBetterChild infos maybeBestChild info.stakeVotedSubtree parentInfo.children

/-- No child is deeper, or as deep and heavier, or as deep and as heavy with a smaller key. -/
def noDeeperChild (maybeDeepestChild : SlotHashKey) (height weight : Nat) : List SlotHashKey → Except Panic Bool
  | [] => .ok true
  | child :: children => do
      let info ← okOr (infos.lookup child) .missing
      if height < info.height ∨ (height = info.height ∧ (weight < info.stakeVotedSubtree ∨
          (weight = info.stakeVotedSubtree ∧ child < maybeDeepestChild))) then .ok false
      else noDeeperChild maybeDeepestChild height weight children

def isDeepestChild (maybeDeepestChild : SlotHashKey) : Except Panic Bool := do
  let info ← okOr (infos.lookup maybeDeepestChild) .missing
  match info.parent with
  | none => .ok true
  | some parent => do
      let parentInfo ← okOr (infos.lookup parent) .missing
      noDeeperChild infos maybeDeepestChild info.height info.stakeVotedSubtree parentInfo.children

/-- Make a new leaf the best block of the ancestors whose best block was that of its parent. -/
def propagateBest (leaf parentBest : SlotHashKey) : Nat → Option SlotHashKey → ForkInfos → Except Panic ForkInfos
  | _, none, infos => .ok infos
  | 0, some _, _ => .error .endless
  | turns + 1, some ancestor, infos => do
      let info ← okOr (infos.lookup ancestor) .missing
      if info.bestSlot = parentBest then
        propagateBest leaf parentBest turns info.parent (infos.insert ancestor { info with bestSlot := leaf })
      else .ok infos

/-- Make a new leaf the deepest block of the ancestors above which it is the deepest one. -/
def propagateDeepest (leaf : SlotHashKey) :
    Nat → SlotHashKey → Nat → Option SlotHashKey → ForkInfos → Except Panic ForkInfos
  | _, _, _, none, infos => .ok infos
  | 0, _, _, some _, _ => .error .endless
  | turns + 1, currentChild, currentHeight, some ancestor, infos => do
      let deepest ← isDeepestChild infos currentChild
      if deepest then do
        let info ← okOr (infos.lookup ancestor) .missing
        propagateDeepest leaf turns ancestor (currentHeight + 1) info.parent
          (infos.insert ancestor { info with deepestSlot := leaf, height := currentHeight + 1 })
      else .ok infos

def propagateNewLeaf (leaf parent : SlotHashKey) : Except Panic ForkInfos := do
  let parentInfo ← okOr (infos.lookup parent) .missing
  let best ← isBestChild infos leaf
  let infos ← if best then propagateBest leaf parentInfo.bestSlot (leaf.slot + 1) (some parent) infos else .ok infos
  propagateDeepest leaf (leaf.slot + 1) leaf 1 (some parent) infos

/-! ### Aggregation -/

/-- What has been gathered from the children of a block so far. -/
structure Aggregate where
  stakeVotedSubtree : Nat
  bestChildStake : Nat
  bestChildKey : SlotHashKey
  bestSlot : SlotHashKey
  deepestChildHeight : Nat
  deepestChildStake : Nat
  deepestChildKey : SlotHashKey
  deepestSlot : SlotHashKey
  isDuplicateConfirmed : Bool
deriving Repr, DecidableEq

namespace Aggregate

/-- Children that are not candidates count for the weight, but cannot be the best. -/
def addChild (key : SlotHashKey) (gathered : Aggregate) (childKey : SlotHashKey) (child : ForkInfo) : Aggregate :=
  let counted := { gathered with
    stakeVotedSubtree := wrappingAdd 64 gathered.stakeVotedSubtree child.stakeVotedSubtree
    isDuplicateConfirmed := gathered.isDuplicateConfirmed || child.isDuplicateConfirmed }
  let compared :=
    if child.isCandidate ∧ (gathered.bestChildKey = key ∨ gathered.bestChildStake < child.stakeVotedSubtree ∨
        (child.stakeVotedSubtree = gathered.bestChildStake ∧ childKey < gathered.bestChildKey)) then
      { counted with
        bestChildStake := child.stakeVotedSubtree
        bestChildKey := childKey
        bestSlot := child.bestSlot }
    else counted
  if gathered.deepestChildKey = key ∨ gathered.deepestChildHeight < child.height ∨
      (child.height = gathered.deepestChildHeight ∧ (gathered.deepestChildStake < child.stakeVotedSubtree ∨
        (child.stakeVotedSubtree = gathered.deepestChildStake ∧ childKey < gathered.deepestChildKey))) then
    { compared with
      deepestChildHeight := child.height
      deepestChildStake := child.stakeVotedSubtree
      deepestChildKey := childKey
      deepestSlot := child.deepestSlot }
  else compared

end Aggregate

def gather (key : SlotHashKey) : List SlotHashKey → Aggregate → Except Panic Aggregate
  | [], gathered => .ok gathered
  | childKey :: children, gathered => do
      let child ← okOr (infos.lookup childKey) .missing
      gather key children (gathered.addChild key childKey child)

/-- Recompute the values of a block from its children. -/
def aggregateSlot (key : SlotHashKey) : Except Panic ForkInfos :=
  match infos.lookup key with
  | none => .ok infos
  | some info => do
      let gathered ← gather infos key info.children
        { stakeVotedSubtree := info.stakeVotedAt, bestChildStake := 0, bestChildKey := key, bestSlot := key,
          deepestChildHeight := 0, deepestChildStake := 0, deepestChildKey := key, deepestSlot := key,
          isDuplicateConfirmed := false }
      let confirmed := if gathered.isDuplicateConfirmed then info.setDuplicateConfirmed else info
      .ok (infos.insert key { confirmed with
        stakeVotedSubtree := gathered.stakeVotedSubtree
        height := gathered.deepestChildHeight + 1
        bestSlot := gathered.bestSlot
        deepestSlot := gathered.deepestSlot })

/-! ### Batches of operations -/

def markForkValid (forkToModifyKey : SlotHashKey) (validSlot : Nat) : ForkInfos :=
  match infos.lookup forkToModifyKey with
  | none => infos
  | some info =>
    let updated := info.updateWithNewlyValidAncestor validSlot
    infos.insert forkToModifyKey
      (if forkToModifyKey.slot = validSlot then { updated with isDuplicateConfirmed := true } else updated)

def markForkInvalid (forkToModifyKey : SlotHashKey) (invalidSlot : Nat) : Except Panic ForkInfos :=
  match infos.lookup forkToModifyKey with
  | none => .ok infos
  | some info => do
      let updated ← info.updateWithNewlyInvalidAncestor invalidSlot
      .ok (infos.insert forkToModifyKey updated)

def addSlotStake (key : SlotHashKey) (stake : Nat) : ForkInfos :=
  match infos.lookup key with
  | none => infos
  | some info => infos.insert key { info with
      stakeVotedAt := wrappingAdd 64 info.stakeVotedAt stake
      stakeVotedSubtree := wrappingAdd 64 info.stakeVotedSubtree stake }

def subtractSlotStake (key : SlotHashKey) (stake : Nat) : ForkInfos :=
  match infos.lookup key with
  | none => infos
  | some info => infos.insert key { info with
      stakeVotedAt := wrappingSub 64 info.stakeVotedAt stake
      stakeVotedSubtree := wrappingSub 64 info.stakeVotedSubtree stake }

def applyOperation (key : SlotHashKey) : UpdateOperation → Except Panic ForkInfos
  | .markValid validSlot => .ok (markForkValid infos key validSlot)
  | .markInvalid invalidSlot => markForkInvalid infos key invalidSlot
  | .aggregate => aggregateSlot infos key
  | .add stake => .ok (addSlotStake infos key stake)
  | .subtract stake => .ok (subtractSlotStake infos key stake)

/-- Apply the operations from the greatest key to the smallest. -/
def processUpdateOperations (operations : UpdateOperations) : Except Panic ForkInfos :=
  operations.entries.reverse.foldlM (fun infos entry => applyOperation infos (ofLex entry.1).1 entry.2) infos

/-- Schedule the aggregation of a block, with a mark if there is one. Nothing is done if it was scheduled before. -/
def doInsertAggregateOperation (operations : UpdateOperations) (modifyForkValidity : Option UpdateOperation)
    (key : SlotHashKey) : Option UpdateOperations :=
  if (operations.lookup (toLex (key, .aggregate))).isSome then none
  else
    let marked := match modifyForkValidity with
      | some (.markValid slot) => operations.insert (toLex (key, .markValid slot)) (.markValid slot)
      | some (.markInvalid slot) => operations.insert (toLex (key, .markInvalid slot)) (.markInvalid slot)
      | _ => operations
    some (marked.insert (toLex (key, .aggregate)) .aggregate)

/-- Schedule aggregations up to the first block for which that was done before. -/
def insertAcross (modifyForkValidity : Option UpdateOperation) :
    List SlotHashKey → UpdateOperations → UpdateOperations
  | [], operations => operations
  | ancestor :: ancestors, operations =>
    match doInsertAggregateOperation operations modifyForkValidity ancestor with
    | some inserted => insertAcross modifyForkValidity ancestors inserted
    | none => operations

def insertAggregateOperations (operations : UpdateOperations) (key : SlotHashKey) : UpdateOperations :=
  insertAcross none (ancestorIterator infos key) operations

/-- Schedule the aggregation and a mark for all of some blocks. -/
def insertMarks (mark : UpdateOperation) (keys : List SlotHashKey) (operations : UpdateOperations) : UpdateOperations :=
  keys.foldl (fun operations key => (doInsertAggregateOperation operations (some mark) key).getD operations) operations

end ForkInfos

/-! ### The operations of the tree -/

namespace HeaviestSubtreeForkChoice

variable (tree : HeaviestSubtreeForkChoice)

def bestSlot (key : SlotHashKey) : Option SlotHashKey :=
  (tree.forkInfos.lookup key).map ForkInfo.bestSlot

def bestOverallSlot : Except Panic SlotHashKey :=
  okOr (tree.bestSlot tree.treeRoot) .missing

/-- Put a key among the children, which are in order. -/
def insertChild (key : SlotHashKey) (children : List SlotHashKey) : List SlotHashKey :=
  if key ∈ children then children else children.orderedInsert (· ≤ ·) key

/-- Add a block on top of its parent; the first one has none. -/
def addNewLeafSlot (key : SlotHashKey) (parent : Option SlotHashKey) : Except Panic HeaviestSubtreeForkChoice :=
  match tree.forkInfos.lookup key with
  | some _ => .ok tree
  | none => do
      let leaf : ForkInfo :=
        { stakeVotedAt := 0, stakeVotedSubtree := 0, height := 1, bestSlot := key, deepestSlot := key, parent := parent,
          children := [],
          latestInvalidAncestor := do (← tree.forkInfos.lookup (← parent)).latestInvalidAncestor,
          isDuplicateConfirmed := parent.isNone }
      let infos := tree.forkInfos.insert key leaf
      match parent with
      | none => .ok { tree with forkInfos := infos }
      | some parent => do
          let parentInfo ← okOr (infos.lookup parent) .missing
          let linked := infos.insert parent { parentInfo with children := insertChild key parentInfo.children }
          let propagated ← ForkInfos.propagateNewLeaf linked key parent
          .ok { tree with forkInfos := propagated }

/-- A tree of one block. -/
def new (treeRoot : SlotHashKey) : Except Panic HeaviestSubtreeForkChoice :=
  addNewLeafSlot { forkInfos := ∅, latestVotes := ∅, treeRoot := treeRoot } treeRoot none

/-! ### Votes -/

/-- The stakes of vote accounts by epoch, and the epochs of slots. -/
structure EpochStakes where
  stakes : Nat → Option (Pubkey → Nat)
  epoch : Nat → Nat

variable (epochStakes : EpochStakes)

def EpochStakes.stakeAt (slot : Nat) (pubkey : Pubkey) : Nat :=
  match epochStakes.stakes (epochStakes.epoch slot) with
  | some stakes => stakes pubkey
  | none => 0

/-- Add stake to the operation under a label, or start one. -/
def addStake (operations : UpdateOperations) (key : SlotHashKey) (label : UpdateLabel) (start : UpdateOperation)
    (stake : Nat) : Except Panic UpdateOperations := do
  let operation ← match operations.lookup (toLex (key, label)) with
    | some operation => operation.updateStake stake
    | none => .ok start
  .ok (operations.insert (toLex (key, label)) operation)

/-- Where a batch of votes stands. -/
structure Batch where
  latestVotes : Store Pubkey SlotHashKey
  observedPubkeys : Store Pubkey Nat
  operations : UpdateOperations

/-- A vote is passed over if the validator's latest vote is newer, or for the same slot and a smaller or equal hash. -/
def outdated (newVote : SlotHashKey) : Option SlotHashKey → Prop
  | some latest => newVote.slot < latest.slot ∨ (newVote.slot = latest.slot ∧ latest.hash ≤ newVote.hash)
  | none => False

instance (newVote : SlotHashKey) (latest : Option SlotHashKey) : Decidable (outdated newVote latest) := by
  unfold outdated
  split <;> infer_instance

/-- Take the stake of a validator off its previous vote. -/
def subtractOld (infos : ForkInfos) (epochStakes : EpochStakes) (pubkey : Pubkey) (newVote : SlotHashKey)
    (old : Option SlotHashKey) (operations : UpdateOperations) : Except Panic UpdateOperations :=
  match old with
  | none => .ok operations
  | some old => do
      rejectIf (¬ if newVote.slot = old.slot then newVote.hash < old.hash else old.slot < newVote.slot) .notNewer
      let stakeUpdate := epochStakes.stakeAt old.slot pubkey
      if 0 < stakeUpdate then do
        let subtracted ← addStake operations old .subtract (.subtract stakeUpdate) stakeUpdate
        .ok (infos.insertAggregateOperations subtracted old)
      else .ok operations

/-- One vote of a batch. -/
def generateUpdate (batch : Batch) (vote : Pubkey × SlotHashKey) : Except Panic Batch :=
  let (pubkey, newVote) := vote
  if newVote.slot < tree.treeRoot.slot then .ok batch
  else do
    rejectIf ((batch.observedPubkeys.lookup pubkey).isSome) .multipleVotes
    let observed := batch.observedPubkeys.insert pubkey newVote.slot
    let old := batch.latestVotes.lookup pubkey
    if outdated newVote old then .ok { batch with observedPubkeys := observed }
    else do
      let subtracted ← subtractOld tree.forkInfos epochStakes pubkey newVote old batch.operations
      let stakeUpdate := epochStakes.stakeAt newVote.slot pubkey
      let added ← addStake subtracted newVote .add (.add stakeUpdate) stakeUpdate
      .ok { latestVotes := batch.latestVotes.insert pubkey newVote
            observedPubkeys := observed
            operations := tree.forkInfos.insertAggregateOperations added newVote }

def generateUpdateOperations (pubkeyVotes : List (Pubkey × SlotHashKey)) : Except Panic Batch :=
  pubkeyVotes.foldlM (tree.generateUpdate epochStakes)
    { latestVotes := tree.latestVotes, observedPubkeys := ∅, operations := .empty }

/-- Count new votes; the best block is returned. -/
def addVotes (pubkeyVotes : List (Pubkey × SlotHashKey)) :
    Except Panic (HeaviestSubtreeForkChoice × SlotHashKey) := do
  let batch ← tree.generateUpdateOperations epochStakes pubkeyVotes
  let infos ← tree.forkInfos.processUpdateOperations batch.operations
  let updated := { tree with forkInfos := infos, latestVotes := batch.latestVotes }
  let best ← updated.bestOverallSlot
  .ok (updated, best)

/-! ### Roots and subtrees -/

def remove (infos : ForkInfos) (key : SlotHashKey) : Except Panic ForkInfos := do
  let _ ← okOr (infos.lookup key) .missing
  .ok (infos.erase key)

/-- Drop everything that is not above the new root. -/
def setTreeRoot (newRoot : SlotHashKey) : Except Panic HeaviestSubtreeForkChoice := do
  let removeSet ← tree.forkInfos.subtreeDiff tree.treeRoot newRoot
  let infos ← removeSet.foldlM remove tree.forkInfos
  let info ← okOr (infos.lookup newRoot) .missing
  .ok { tree with forkInfos := infos.insert newRoot { info with parent := none }, treeRoot := newRoot }

/-- Move the blocks to visit, and those above them, from one tree to another. Each turn takes a block away. -/
def splitNodes : Nat → List SlotHashKey → ForkInfos → ForkInfos → Except Panic (ForkInfos × ForkInfos)
  | _, [], infos, split => .ok (infos, split)
  | 0, _ :: _, _, _ => .error .missing
  | turns + 1, current :: toVisit, infos, split => do
      let info ← okOr (infos.lookup current) .missing
      splitNodes turns (info.children.reverse ++ toVisit) (infos.erase current) (split.insert current info)

/-- The votes for the blocks of a tree. -/
def retainVotes (votes : Store Pubkey SlotHashKey) (infos : ForkInfos) : Store Pubkey SlotHashKey :=
  Store.retain (fun _ vote => (infos.lookup vote).isSome) votes

/-- Split off the subtree at a block; the rest and the subtree are returned. -/
def splitOff (key : SlotHashKey) : Except Panic (HeaviestSubtreeForkChoice × HeaviestSubtreeForkChoice) := do
  rejectIf (tree.treeRoot = key) .splitRoot
  let node ← okOr (tree.forkInfos.lookup key) .missing
  let parent ← okOr node.parent .missing
  let operations := tree.forkInfos.insertAggregateOperations .empty key
  let parentInfo ← okOr (tree.forkInfos.lookup parent) .missing
  rejectIf (key ∉ parentInfo.children) .notAChild
  let unlinked := tree.forkInfos.insert parent { parentInfo with children := parentInfo.children.erase key }
  let aggregated ← ForkInfos.processUpdateOperations unlinked operations
  let (infos, split) ← splitNodes aggregated.entries.length [key] aggregated ∅
  let parentInfo ← okOr (infos.lookup parent) .missing
  let rest := infos.insert parent { parentInfo with children := parentInfo.children.erase key }
  let splitInfos := split.insert key { node with parent := none }
  .ok ({ tree with forkInfos := rest, latestVotes := retainVotes tree.latestVotes rest },
    { forkInfos := splitInfos, latestVotes := retainVotes tree.latestVotes splitInfos, treeRoot := key })

/-! ### Validity of forks -/

def markForkInvalidCandidate (invalidKey : SlotHashKey) : Except Panic HeaviestSubtreeForkChoice :=
  match tree.forkInfos.lookup invalidKey with
  | none => .ok tree
  | some info => do
      rejectIf (info.isDuplicateConfirmed = true) .duplicateConfirmed
      let subtree ← tree.forkInfos.subtreeDiff invalidKey .default
      let marked := ForkInfos.insertMarks (.markInvalid invalidKey.slot) subtree .empty
      let operations := tree.forkInfos.insertAggregateOperations marked invalidKey
      let infos ← tree.forkInfos.processUpdateOperations operations
      .ok { tree with forkInfos := infos }

/-- The blocks of a path that are not duplicate confirmed yet. -/
def newlyDuplicateConfirmed (path : List SlotHashKey) (infos : List ForkInfo) : List SlotHashKey :=
  (path.zip infos).filterMap fun (key, info) => if info.isDuplicateConfirmed then none else some key

/-- Mark a block valid; the blocks that are duplicate confirmed by it are returned. -/
def markForkValidCandidate (validKey : SlotHashKey) :
    Except Panic (HeaviestSubtreeForkChoice × List SlotHashKey) := do
  let path := validKey :: tree.forkInfos.ancestorIterator validKey
  let pathInfos ← path.mapM fun key => okOr (tree.forkInfos.lookup key) .missing
  let subtree ← tree.forkInfos.subtreeDiff validKey .default
  let marked := ForkInfos.insertMarks (.markValid validKey.slot) subtree .empty
  let operations := tree.forkInfos.insertAggregateOperations marked validKey
  let infos ← tree.forkInfos.processUpdateOperations operations
  .ok ({ tree with forkInfos := infos }, newlyDuplicateConfirmed path pathInfos)

end HeaviestSubtreeForkChoice

/-- The latest slot a validator voted for, with the hashes it voted for at that slot. -/
abbrev FrozenVotes := Store Pubkey (Nat × List Nat)

structure LatestValidatorVotesForFrozenBanks where
  maxGossipFrozenVotes : FrozenVotes
  maxReplayFrozenVotes : FrozenVotes
  forkChoiceDirtySet : FrozenVotes

/-- The assertion that a hash is not in the dirty set yet. -/
inductive VotePanic where
  | hashAlreadyDirty
deriving Repr, DecidableEq

namespace LatestValidatorVotesForFrozenBanks

def default : LatestValidatorVotesForFrozenBanks :=
  { maxGossipFrozenVotes := ∅, maxReplayFrozenVotes := ∅, forkChoiceDirtySet := ∅ }

variable (votes : LatestValidatorVotesForFrozenBanks)

def voteMap (isReplayVote : Bool) : FrozenVotes :=
  if isReplayVote then votes.maxReplayFrozenVotes else votes.maxGossipFrozenVotes

variable (votePubkey : Pubkey)

/-- Write the entry of a validator in one of the two maps. -/
def setVote (entry : Nat × List Nat) (isReplayVote : Bool) : LatestValidatorVotesForFrozenBanks :=
  if isReplayVote then { votes with maxReplayFrozenVotes := votes.maxReplayFrozenVotes.insert votePubkey entry }
  else { votes with maxGossipFrozenVotes := votes.maxGossipFrozenVotes.insert votePubkey entry }

/-- A vote for a new slot takes the place of what is in the dirty set; only votes seen in replay get there. -/
def insertDirty (voteSlot frozenHash : Nat) (isReplayVote : Bool) : LatestValidatorVotesForFrozenBanks :=
  if isReplayVote then
    { votes with forkChoiceDirtySet := votes.forkChoiceDirtySet.insert votePubkey (voteSlot, [frozenHash]) }
  else votes

/-- A vote for another hash of the latest slot is added to the entry of the dirty set. An entry that is not there is
    created with slot zero. -/
def pushDirty (frozenHash : Nat) (isReplayVote : Bool) : Except VotePanic LatestValidatorVotesForFrozenBanks :=
  if isReplayVote then do
    let (slot, dirtyFrozenHashes) := (votes.forkChoiceDirtySet.lookup votePubkey).getD (0, [])
    rejectIf (frozenHash ∈ dirtyFrozenHashes) .hashAlreadyDirty
    .ok { votes with
      forkChoiceDirtySet := votes.forkChoiceDirtySet.insert votePubkey (slot, dirtyFrozenHashes ++ [frozenHash]) }
  else .ok votes

/-- Record a vote, if the bank of its slot is frozen and it is newer than the latest one. Whether the vote was added is
    returned with the latest slot. -/
def checkAddVote (voteSlot : Nat) (frozenHash : Option Nat) (isReplayVote : Bool) :
    Except VotePanic (LatestValidatorVotesForFrozenBanks × Bool × Option Nat) :=
  match frozenHash, (votes.voteMap isReplayVote).lookup votePubkey with
  | some frozenHash, some (latestFrozenVoteSlot, latestFrozenVoteHashes) =>
    if latestFrozenVoteSlot < voteSlot then
      .ok ((votes.insertDirty votePubkey voteSlot frozenHash isReplayVote).setVote votePubkey (voteSlot, [frozenHash])
        isReplayVote, true, some voteSlot)
    else if voteSlot = latestFrozenVoteSlot ∧ frozenHash ∉ latestFrozenVoteHashes then do
      let pushed ← votes.pushDirty votePubkey frozenHash isReplayVote
      .ok (pushed.setVote votePubkey (latestFrozenVoteSlot, latestFrozenVoteHashes ++ [frozenHash]) isReplayVote, true,
        some voteSlot)
    else .ok (votes, false, some latestFrozenVoteSlot)
  | some frozenHash, none =>
    .ok ((votes.insertDirty votePubkey voteSlot frozenHash isReplayVote).setVote votePubkey (voteSlot, [frozenHash])
      isReplayVote, true, some voteSlot)
  | none, latest => .ok (votes, false, latest.map Prod.fst)

/-- Empty the dirty set; the votes in it that are not below the root are returned. -/
def takeVotesDirtySet (root : Nat) : List (Pubkey × SlotHashKey) × LatestValidatorVotesForFrozenBanks :=
  ((votes.forkChoiceDirtySet.entries.filter fun entry => root ≤ entry.2.1).flatMap fun entry =>
      entry.2.2.map fun hash => (entry.1, { slot := entry.2.1, hash := hash }),
    { votes with forkChoiceDirtySet := ∅ })

end LatestValidatorVotesForFrozenBanks

end Payout.ForkChoice
