/-
Purpose: Runs of the fork choice tree. Whatever calls are made, none of them fails, the values of every block are
  those of the votes and of its children, and the best block is the end of the walk over the heaviest candidates.
-/
import Payout.ForkChoiceProofs.Leaf
import Payout.ForkChoiceProofs.MarkBatches
import Payout.Lib.Run

namespace Payout.ForkChoice

open Lib Payout.Runtime Store ForkInfos ForkInfos.StakeKind Option List

namespace HeaviestSubtreeForkChoice

/-- The stake of a validator at a slot is fixed. -/
def EpochStakes.Fixed (epochStakes : EpochStakes) (stake : Pubkey → Nat → Nat) : Prop :=
  ∀ slot pubkey, epochStakes.stakeAt slot pubkey = stake pubkey slot

/-- Where a batch stands: the stakes that were moved so far, and the votes of the validators that were not looked at. -/
structure Batched (tree : HeaviestSubtreeForkChoice) (stake : Pubkey → Nat → Nat) (untouched : Store Pubkey SlotHashKey)
    (batch : Batch) : Prop where
  schedule : tree.forkInfos.Schedule batch.operations
  noMarks : ∀ entry ∈ batch.operations.entries, ¬ entry.2.IsMark
  moved : ∀ key, (tally stake tree.latestVotes key + ForkInfos.due batch.operations key .add) % 2 ^ 64 =
    (tally stake batch.latestVotes key + ForkInfos.due batch.operations key .subtract) % 2 ^ 64
  owned : ∀ key, ForkInfos.due batch.operations key .subtract + tally stake untouched key ≤
    tally stake tree.latestVotes key
  untouched : ∀ pubkey, batch.observedPubkeys.lookup pubkey = none →
    untouched.lookup pubkey = batch.latestVotes.lookup pubkey
  votes : ∀ pubkey key, batch.latestVotes.lookup pubkey = some key →
    tree.latestVotes.lookup pubkey = some key ∨ ∃ info, tree.forkInfos.lookup key = some info

variable {tree : HeaviestSubtreeForkChoice} {stake : Pubkey → Nat → Nat} {untouched votes : Store Pubkey SlotHashKey}
  {batch : Batch} {epochStakes : EpochStakes} {infos : ForkInfos} {operations : UpdateOperations} {pubkey : Pubkey}
  {key newVote : SlotHashKey} {old : Option SlotHashKey}

/-! ### Tallies -/

/-- What a validator's vote counts for at a block. -/
def share (stake : Pubkey → Nat → Nat) (pubkey : Pubkey) (vote : Option SlotHashKey) (key : SlotHashKey) : Nat :=
  if vote = some key then stake pubkey key.slot else 0

theorem share_some (stake pubkey vote key) :
    share stake pubkey (some vote) key = if key = vote then stake pubkey vote.slot else 0 := by
  by_cases same : key = vote
  · subst same
    rw [share, if_pos rfl, if_pos rfl]
  · rw [share, if_neg (fun equal => same (some.inj equal).symm), if_neg same]

theorem tally_insert (stake votes pubkey newVote key) :
    tally stake (votes.insert pubkey newVote) key + share stake pubkey (votes.lookup pubkey) key =
      tally stake votes key + share stake pubkey (some newVote) key := by
  cases found : votes.lookup pubkey with
  | none =>
    rw [tally, total_insert_of_absent found, tally]
    simp only [share, some.injEq, reduceCtorEq, if_false]
    omega
  | some old =>
    have moved : tally stake (votes.insert pubkey newVote) key + (if old = key then stake pubkey key.slot else 0) =
        tally stake votes key + (if newVote = key then stake pubkey key.slot else 0) := total_insert_of_present found
    simpa only [share, some.injEq] using moved

theorem tally_erase (key) :
    tally stake votes key = share stake pubkey (votes.lookup pubkey) key + tally stake (votes.erase pubkey) key := by
  cases found : votes.lookup pubkey with
  | none =>
    rw [erase_of_absent found]
    simp [share]
  | some =>
    rw [tally, total_eq_add_erase found, tally]
    simp only [share, some.injEq]

/-! ### One vote -/

/-- A stake is moved under a label of a block, with the aggregations that belong to it. -/
theorem addStake_schedule (kind : ForkInfos.StakeKind) (amount key) (linked : infos.Linked)
    (schedule : infos.Schedule operations) (noMarks : ∀ entry ∈ operations.entries, ¬ entry.2.IsMark) :
    ∃ moved, addStake operations key kind.label (kind.make amount) amount = .ok moved ∧
      infos.Schedule (infos.insertAggregateOperations moved key) ∧
      (∀ entry ∈ (infos.insertAggregateOperations moved key).entries, ¬ entry.2.IsMark) ∧
      ∀ other label, label ≠ .aggregate →
        Counted (due (infos.insertAggregateOperations moved key) other label)
          (due operations other label + if other = key ∧ label = kind.label then amount else 0) := by
  obtain ⟨moved, succeeded, open', movedMarks, due⟩ := addStake_ok kind amount schedule noMarks
  obtain ⟨closed, extended, -⟩ := insertAggregateOperations_schedule linked open'
  refine ⟨moved, succeeded, closed, ?_, ?_⟩
  · intro entry mem
    rcases extended.added entry mem with old | ⟨_, rfl⟩
    · exact movedMarks entry old
    · exact id
  · intro other label noAggregate
    rw [extended.due label noAggregate]
    exact due other label

/-- A vote that is not outdated is newer than the previous one, whose stake is taken off. -/
theorem subtractOld_ok (pubkey : Pubkey) (linked : infos.Linked) (stakes : epochStakes.Fixed stake)
    (current : ¬ outdated newVote old) (schedule : infos.Schedule operations)
    (noMarks : ∀ entry ∈ operations.entries, ¬ entry.2.IsMark) :
    ∃ operations', subtractOld infos epochStakes pubkey newVote old operations = .ok operations' ∧
      infos.Schedule operations' ∧ (∀ entry ∈ operations'.entries, ¬ entry.2.IsMark) ∧
      (∀ key, Counted (due operations' key .add) (due operations key .add)) ∧
      ∀ key, Counted (due operations' key .subtract) (due operations key .subtract + share stake pubkey old key) := by
  cases old with
  | none => exact ⟨operations, rfl, schedule, noMarks, fun _ => ⟨le_rfl, rfl⟩, fun _ => ⟨le_rfl, rfl⟩⟩
  | some old =>
    have newer : if newVote.slot = old.slot then newVote.hash < old.hash else old.slot < newVote.slot := by
      simp only [outdated] at current
      split
      · omega
      · omega
    have stakeAt : epochStakes.stakeAt old.slot pubkey = stake pubkey old.slot := stakes old.slot pubkey
    simp only [subtractOld, stakeAt]
    by_cases pos : 0 < stake pubkey old.slot
    · obtain ⟨moved, succeeded, closed, movedMarks, due⟩ :=
        addStake_schedule .subtracting (stake pubkey old.slot) old linked schedule noMarks
      refine ⟨infos.insertAggregateOperations moved old, ?_, closed, movedMarks, ?_, ?_⟩
      · simp only [ok_iffs, if_pos pos]
        exact ⟨newer, moved, succeeded, rfl⟩
      · intro key
        simpa [subtracting] using due key .add (by decide)
      · intro key
        simpa [share_some, subtracting] using due key .subtract (by decide)
    · refine ⟨operations, ?_, schedule, noMarks, fun _ => ⟨le_rfl, rfl⟩, ?_⟩
      · simp only [ok_iffs, if_neg pos]
        exact ⟨newer, trivial⟩
      · intro key
        have zero : stake pubkey old.slot = 0 := by omega
        exact ⟨by simp [share_some, zero], by simp [share_some, zero]⟩

/-- A vote of a validator that was not looked at moves its stake. -/
theorem generateUpdate_ok (batched : Batched tree stake untouched batch) (linked : tree.forkInfos.Linked)
    (stakes : epochStakes.Fixed stake) (fresh : batch.observedPubkeys.lookup pubkey = none)
    (present : ∃ info, tree.forkInfos.lookup newVote = some info) :
    ∃ batch' untouched', tree.generateUpdate epochStakes batch (pubkey, newVote) = .ok batch' ∧
      Batched tree stake untouched' batch' ∧
      ∀ other, other ≠ pubkey → batch'.observedPubkeys.lookup other = batch.observedPubkeys.lookup other := by
  unfold generateUpdate
  dsimp only
  by_cases rooted : newVote.slot < tree.treeRoot.slot
  · rw [if_pos rooted]
    exact ⟨batch, untouched, rfl, batched, fun _ _ => rfl⟩
  rw [if_neg rooted]
  have unobserved : ¬ (batch.observedPubkeys.lookup pubkey).isSome = true := by simp [fresh]
  -- The validator is looked at now.
  have stillUntouched : ∀ other, (batch.observedPubkeys.insert pubkey newVote.slot).lookup other = none →
      other ≠ pubkey ∧ (untouched.erase pubkey).lookup other = batch.latestVotes.lookup other := by
    intro other absent
    rw [lookup_insert_eq_ite] at absent
    split at absent
    · cases absent
    · rename_i different
      exact ⟨different, (AList.lookup_erase_ne different).trans (batched.untouched other absent)⟩
  have known : untouched.lookup pubkey = batch.latestVotes.lookup pubkey := batched.untouched pubkey fresh
  have less : ∀ key, tally stake untouched key =
      share stake pubkey (batch.latestVotes.lookup pubkey) key + tally stake (untouched.erase pubkey) key := by
    intro key
    rw [← known]
    exact tally_erase key
  by_cases current : outdated newVote (batch.latestVotes.lookup pubkey)
  · refine ⟨{ batch with observedPubkeys := batch.observedPubkeys.insert pubkey newVote.slot }, untouched.erase pubkey,
      ?_, ?_, fun other => AList.lookup_insert_ne⟩
    · simp only [ok_iffs, if_pos current]
      exact ⟨unobserved, trivial⟩
    refine { batched with owned := ?_, untouched := fun other absent => (stillUntouched other absent).2 }
    intro key
    have owned := batched.owned key
    have less := less key
    dsimp only
    omega
  · obtain ⟨subtracted, subtractOk, schedule, noMarks, addSame, subtractDue⟩ :=
      subtractOld_ok pubkey linked stakes current batched.schedule batched.noMarks
    obtain ⟨added, addOk, closed, addedMarks, due⟩ :=
      addStake_schedule .adding (stake pubkey newVote.slot) newVote linked schedule noMarks
    have subtractAfter : ∀ key, Counted
        (ForkInfos.due (tree.forkInfos.insertAggregateOperations added newVote) key .subtract)
        (ForkInfos.due batch.operations key .subtract + share stake pubkey (batch.latestVotes.lookup pubkey) key) := by
      intro key
      have kept := due key .subtract (by decide)
      simp only [adding, reduceCtorEq, and_false, if_false, Nat.add_zero] at kept
      exact ⟨kept.le.trans (subtractDue key).le, kept.mod.trans (subtractDue key).mod⟩
    have addAfter : ∀ key, ForkInfos.due (tree.forkInfos.insertAggregateOperations added newVote) key .add %
        2 ^ 64 = (ForkInfos.due batch.operations key .add + share stake pubkey (some newVote) key) % 2 ^ 64 := by
      intro key
      have more := (due key .add (by decide)).mod
      simp only [adding, and_true, ← share_some] at more
      rw [more, Nat.add_mod, (addSame key).mod, ← Nat.add_mod]
    refine ⟨{ latestVotes := batch.latestVotes.insert pubkey newVote
              observedPubkeys := batch.observedPubkeys.insert pubkey newVote.slot
              operations := tree.forkInfos.insertAggregateOperations added newVote },
      untouched.erase pubkey, ?_, ?_, fun other => AList.lookup_insert_ne⟩
    · have stakeAt : epochStakes.stakeAt newVote.slot pubkey = stake pubkey newVote.slot := stakes newVote.slot pubkey
      simp only [ok_iffs, if_neg current, stakeAt]
      exact ⟨unobserved, subtracted, subtractOk, added, addOk, rfl⟩
    constructor
    case schedule => exact closed
    case noMarks => exact addedMarks
    case moved =>
      intro key
      have before := batched.moved key
      have inserted := tally_insert stake batch.latestVotes pubkey newVote key
      have subtracted := (subtractAfter key).mod
      have added := addAfter key
      dsimp only
      omega
    case owned =>
      intro key
      have owned := batched.owned key
      have less := less key
      have subtracted := (subtractAfter key).le
      dsimp only
      omega
    case untouched =>
      intro other absent
      obtain ⟨different, same⟩ := stillUntouched other absent
      exact same.trans (AList.lookup_insert_ne different).symm
    case votes =>
      intro other key found
      rcases lookup_insert_eq_some.mp found with ⟨-, rfl⟩ | ⟨-, found⟩
      · exact .inr present
      · exact batched.votes other key found

/-! ### A batch of votes -/

/-- A batch with one vote per validator, for blocks that are there. -/
structure OneVoteEach (tree : HeaviestSubtreeForkChoice) (pubkeyVotes : List (Pubkey × SlotHashKey)) : Prop where
  distinct : (pubkeyVotes.map Prod.fst).Nodup
  present : ∀ vote ∈ pubkeyVotes, ∃ info, tree.forkInfos.lookup vote.2 = some info

variable {ancestry : Ancestry}

theorem generateUpdates_ok (batched : Batched tree stake untouched batch) (linked : tree.forkInfos.Linked)
    (stakes : epochStakes.Fixed stake) (each : OneVoteEach tree pubkeyVotes)
    (fresh : ∀ vote ∈ pubkeyVotes, batch.observedPubkeys.lookup vote.1 = none) :
    ∃ batch' untouched', pubkeyVotes.foldlM (tree.generateUpdate epochStakes) batch = .ok batch' ∧
      Batched tree stake untouched' batch' := by
  induction pubkeyVotes generalizing batch untouched with
  | nil => exact ⟨batch, untouched, rfl, batched⟩
  | cons vote rest ih =>
    obtain ⟨first, present⟩ := forall_mem_cons.mp each.present
    obtain ⟨freshFirst, freshRest⟩ := forall_mem_cons.mp fresh
    obtain ⟨different, distinct⟩ := nodup_cons.mp each.distinct
    obtain ⟨next, _, succeeded, batched', others⟩ := generateUpdate_ok batched linked stakes freshFirst first
    have stillFresh : ∀ later ∈ rest, next.observedPubkeys.lookup later.1 = none := by
      intro later mem
      rw [others later.1 fun same => different (same ▸ mem_map_of_mem mem)]
      exact freshRest later mem
    obtain ⟨last, untouched'', rest', batched''⟩ := ih batched' ⟨distinct, present⟩ stillFresh
    exact ⟨last, untouched'', by rw [foldlM_cons]; exact bind_ok_iff.mpr ⟨next, succeeded, rest'⟩, batched''⟩

theorem batched_start (tree stake) :
    Batched tree stake tree.latestVotes
      { latestVotes := tree.latestVotes, observedPubkeys := ∅, operations := .empty } where
  schedule := ⟨nofun, nofun, nofun⟩
  noMarks := nofun
  moved _ := rfl
  owned _ := (Nat.zero_add _).le
  untouched _ _ := rfl
  votes _ _ found := .inl found

theorem Batched.pending (batched : Batched tree stake untouched batch) (sound : Sound ancestry stake tree) :
    tree.forkInfos.Pending batch.operations.entries.reverse := by
  refine batched.schedule.pending sound.shape.linked (fun key info found => .inl (sound.settled key info found))
    sound.small ?_
  intro entry mem slot info invalidates found
  have isMark : entry.2.IsMark := by
    rw [invalidates]
    trivial
  exact absurd isMark (batched.noMarks entry mem)

theorem addVotes_sound (sound : Sound ancestry stake tree) (stakes : epochStakes.Fixed stake)
    (each : OneVoteEach tree pubkeyVotes) :
    ∃ tree' best, tree.addVotes epochStakes pubkeyVotes = .ok (tree', best) ∧
      Sound ancestry stake tree' ∧ ForkInfos.SameLinks tree.forkInfos tree'.forkInfos := by
  obtain ⟨batch, _, generated, batched⟩ :=
    generateUpdates_ok (batched_start tree stake) sound.shape.linked stakes each fun _ _ => rfl
  have accounted : ForkInfos.Accounted (tally stake batch.latestVotes) tree.forkInfos
      batch.operations.entries.reverse := by
    intro key info found
    rw [dueIn_reverse, dueIn_reverse, sound.counted key info found, Nat.mod_add_mod]
    exact batched.moved key
  obtain ⟨infos, processed, -, same, values, -⟩ := (batched.pending sound).finish
    (P := fun _ _ => True) accounted trivial (fun _ _ _ _ _ _ => trivial) (fun _ _ _ _ _ _ _ _ _ => trivial)
  have shape := same.shape sound.shape
  obtain ⟨rootInfo, foundRoot⟩ := shape.rooted
  refine ⟨{ tree with forkInfos := infos, latestVotes := batch.latestVotes }, rootInfo.bestSlot, ?_, ?_⟩
  · simp only [addVotes, bind_ok_iff]
    refine ⟨batch, generated, infos, processed, rootInfo.bestSlot, ?_, rfl⟩
    simp [bestOverallSlot, bestSlot, foundRoot]
  refine ⟨?_, same⟩
  constructor
  case shape => exact shape
  case settled => exact fun key info found => (values key info found).1
  case counted => exact fun key info found => (values key info found).2
  case dropped =>
    intro pubkey key voted gone ancestor below
    rw [same.absent_iff] at gone ⊢
    rcases batched.votes pubkey key voted with before | ⟨_, present⟩
    · exact sound.dropped pubkey key before gone ancestor below
    · rw [gone] at present
      cases present

/-! ### Weights -/

/-- The stake of all validators with a vote, each as it is at the slot of its vote. -/
def votedStake (stake : Pubkey → Nat → Nat) (votes : Store Pubkey SlotHashKey) : Nat :=
  total (fun pubkey vote => stake pubkey vote.slot) votes

open Classical in
/-- The stake of the validators whose vote is for a block or for one above it. -/
noncomputable def subtreeTally (ancestry : Ancestry) (stake : Pubkey → Nat → Nat) (votes : Store Pubkey SlotHashKey)
    (key : SlotHashKey) : Nat :=
  total (fun pubkey vote => if ancestry.Below key vote then stake pubkey vote.slot else 0) votes

theorem subtreeTally_le (ancestry stake votes key) :
    subtreeTally ancestry stake votes key ≤ votedStake stake votes := by
  apply total_mono
  intro pubkey vote _
  split
  · exact le_rfl
  · exact Nat.zero_le _

/-- A block above another one is that block, or above one of its children. -/
theorem child_below (shape : infos.Shape ancestry root) (below : ancestry.Below key vote)
    (found : infos.lookup key = some info) (present : infos.lookup vote = some voteInfo) :
    vote = key ∨ ∃ child ∈ info.children, ancestry.Below child vote := by
  induction below generalizing voteInfo with
  | self => exact .inl rfl
  | parent known rest ih =>
    obtain ⟨-, aboveInfo, foundAbove, mem⟩ := shape.parent_below present known rest found
    rcases ih found foundAbove with rfl | ⟨child, memberChild, belowChild⟩
    · cases found.symm.trans foundAbove
      exact .inr ⟨_, mem, .self _⟩
    · exact .inr ⟨child, memberChild, .parent known belowChild⟩

section

variable (sound : Sound ancestry stake tree) (found : tree.forkInfos.lookup key = some info)
include sound found

open Classical in
/-- A vote for a block or above it is for the block itself, or above exactly one of its children. -/
theorem share_eq (voted : tree.latestVotes.lookup pubkey = some vote) (amount : Nat) :
    (if ancestry.Below key vote then amount else 0) =
      (if vote = key then amount else 0) +
        (info.children.map fun child => if ancestry.Below child vote then amount else 0).sum := by
  have parent : ∀ child ∈ info.children, ancestry.parent child = some key := by
    intro child mem
    obtain ⟨childInfo, foundChild, knows⟩ := sound.shape.linked.child key info found child mem
    exact (sound.shape.parent child childInfo key foundChild knows).1
  have none (outside : ∀ child ∈ info.children, ¬ ancestry.Below child vote) :
      (info.children.map fun child => if ancestry.Below child vote then amount else 0).sum = 0 := by
    rw [map_congr_left fun child mem => if_neg (outside child mem)]
    simp
  by_cases below : ancestry.Below key vote
  case neg =>
    have other : vote ≠ key := fun same => below (same ▸ .self _)
    rw [if_neg below, if_neg other, none fun child mem belowChild =>
      below (belowChild.toParent (parent child mem))]
  rw [if_pos below]
  by_cases isKey : vote = key
  · subst isKey
    rw [if_pos rfl, none, Nat.add_zero]
    intro child mem belowChild
    exact (belowChild.slot_le).not_gt (ancestry.older child vote (parent child mem))
  · -- A vote for a block that was dropped is not above a block that is there.
    have present : ∃ voteInfo, tree.forkInfos.lookup vote = some voteInfo := by
      rw [← isSome_iff_exists, isSome_iff_ne_none]
      intro gone
      rw [sound.dropped pubkey vote voted gone key below] at found
      cases found
    obtain ⟨_, foundVote⟩ := present
    obtain same | ⟨child, mem, belowChild⟩ := child_below sound.shape below found foundVote
    · exact absurd same isKey
    have only : ∀ other, other ≠ child → other ∈ info.children →
        (if ancestry.Below other vote then amount else 0) = 0 := by
      intro other different memberOther
      refine if_neg fun belowOther => different ?_
      rcases belowOther.comparable belowChild with under | under
      · exact under.eq_of_parent (parent other memberOther) (parent child mem)
      · exact (under.eq_of_parent (parent child mem) (parent other memberOther)).symm
    rw [if_neg isKey, Nat.zero_add, sum_map_eq_nsmul_single child _ only,
      count_eq_one_of_mem (sound.shape.nodup key info found) mem, if_pos belowChild, one_nsmul]

open Classical in
theorem subtreeTally_eq : subtreeTally ancestry stake tree.latestVotes key =
    tally stake tree.latestVotes key +
      (info.children.map (subtreeTally ancestry stake tree.latestVotes)).sum := by
  have children : (info.children.map (subtreeTally ancestry stake tree.latestVotes)).sum =
      total (fun pubkey vote => (info.children.map fun child =>
        if ancestry.Below child vote then stake pubkey vote.slot else 0).sum) tree.latestVotes :=
    (total_sum _ _).symm
  rw [children, tally, ← total_add]
  apply total_congr
  intro pubkey vote voted
  rw [share_eq sound found voted]
  congr 1
  split
  · rename_i same
    rw [same]
  · rfl

end

variable (sound : Sound ancestry stake tree) (bounded : votedStake stake tree.latestVotes < 2 ^ 64)
include sound bounded

/-- While the stakes of all votes fit into 64 bits together, the weight of a block is the stake that voted for it or
    above it. -/
theorem weight_eq (found : tree.forkInfos.lookup key = some info) :
    info.stakeVotedSubtree = subtreeTally ancestry stake tree.latestVotes key := by
  induction level : info.height using Nat.strong_induction_on generalizing key info with
  | _ height ih =>
    have settled := sound.settled key info found
    have children : ∀ child ∈ info.children, tree.forkInfos.weight child =
        subtreeTally ancestry stake tree.latestVotes child := by
      intro child mem
      obtain ⟨childInfo, foundChild, -⟩ := sound.shape.linked.child key info found child mem
      rw [weight_of foundChild]
      exact ih childInfo.height (level ▸ settled.child_height_lt mem foundChild) foundChild rfl
    rw [settled.weight, sound.counted key info found, Nat.mod_add_mod, map_congr_left children,
      ← subtreeTally_eq sound found]
    exact Nat.mod_eq_of_lt ((subtreeTally_le ancestry stake _ key).trans_lt bounded)

theorem exact_values (found : tree.forkInfos.lookup key = some info) :
    info.stakeVotedAt = tally stake tree.latestVotes key ∧
    info.stakeVotedSubtree = info.stakeVotedAt + (info.children.map tree.forkInfos.weight).sum := by
  have total := weight_eq sound bounded found
  have split := subtreeTally_eq sound found
  have le := subtreeTally_le ancestry stake tree.latestVotes key
  have stakeAt : info.stakeVotedAt = tally stake tree.latestVotes key := by
    rw [sound.counted key info found]
    exact Nat.mod_eq_of_lt (by omega)
  refine ⟨stakeAt, ?_⟩
  rw [total, split, stakeAt]
  congr 2
  apply map_congr_left
  intro child mem
  obtain ⟨childInfo, foundChild, -⟩ := sound.shape.linked.child key info found child mem
  rw [weight_of foundChild, weight_eq sound bounded foundChild]

/-- What a batch of votes subtracts was counted before. -/
theorem Batched.covered (batched : Batched tree stake untouched batch) :
    tree.forkInfos.Covered batch.operations.entries.reverse := by
  refine (batched.pending sound).covered ?_
  intro entry mem amount info subtracts found
  rw [mem_reverse] at mem
  have label := batched.schedule.labelled entry mem
  rw [subtracts] at label
  have same : entry = (toLex (entry.key, .subtract), .subtract amount) :=
    Prod.ext (ofLex.injective (Prod.ext rfl label)) subtracts
  have due : due batch.operations entry.key .subtract = amount := by
    rw [due, SortedMap.lookup_eq_some_iff.mpr (same ▸ mem)]
    rfl
  have owned := batched.owned entry.key
  obtain ⟨stakeAt, subtree⟩ := exact_values sound bounded found
  omega

end HeaviestSubtreeForkChoice

namespace HeaviestSubtreeForkChoice

open ForkInfos

/-! ### Calls -/

/-- A call of the fork choice tree. -/
inductive Call where
  | addNewLeafSlot (key parent : SlotHashKey)
  | addVotes (epochStakes : EpochStakes) (pubkeyVotes : List (Pubkey × SlotHashKey))
  | setTreeRoot (newRoot : SlotHashKey)
  | markForkInvalidCandidate (key : SlotHashKey)
  | markForkValidCandidate (key : SlotHashKey)
  | splitOff (key : SlotHashKey)

/-- What a call does to the tree. -/
def step : Call → HeaviestSubtreeForkChoice → Except Panic HeaviestSubtreeForkChoice
  | .addNewLeafSlot key parent, tree => tree.addNewLeafSlot key (some parent)
  | .addVotes epochStakes pubkeyVotes, tree => (tree.addVotes epochStakes pubkeyVotes).map Prod.fst
  | .setTreeRoot newRoot, tree => tree.setTreeRoot newRoot
  | .markForkInvalidCandidate key, tree => tree.markForkInvalidCandidate key
  | .markForkValidCandidate key, tree => (tree.markForkValidCandidate key).map Prod.fst
  | .splitOff key, tree => (tree.splitOff key).map Prod.fst

/-- How the tree is used: blocks are added on top of their parents, there is one vote per validator in a batch and it is
    for a block of the tree, and what is rooted, marked or split off is in the tree. -/
def Fits (ancestry : Ancestry) (tree : HeaviestSubtreeForkChoice) : Call → Prop
  | .addNewLeafSlot key parent =>
    (tree.forkInfos.lookup parent).isSome = true ∧ ancestry.parent key = some parent
  | .addVotes _ pubkeyVotes => (pubkeyVotes.map Prod.fst).Nodup ∧
      ∀ vote ∈ pubkeyVotes, (tree.forkInfos.lookup vote.2).isSome = true
  | .setTreeRoot newRoot => (tree.forkInfos.lookup newRoot).isSome = true
  | .markForkInvalidCandidate key =>
    (tree.forkInfos.lookup key).all (fun info => !info.isDuplicateConfirmed) = true
  | .markForkValidCandidate key => (tree.forkInfos.lookup key).isSome = true
  | .splitOff key => tree.treeRoot ≠ key ∧ (tree.forkInfos.lookup key).isSome = true

instance (ancestry : Ancestry) (tree : HeaviestSubtreeForkChoice) (call : Call) :
    Decidable (Fits ancestry tree call) := by
  unfold Fits
  split <;> infer_instance

/-- The stakes at a slot are the same whenever votes are counted. -/
def SameStakes (stake : Pubkey → Nat → Nat) : Call → Prop
  | .addVotes epochStakes _ => epochStakes.Fixed stake
  | _ => True

section Runs

variable {ancestry : Ancestry} {stake : Pubkey → Nat → Nat} {tree start : HeaviestSubtreeForkChoice} {calls : List Call}
  {call : Call} {root : SlotHashKey}

theorem step_sound (sound : Sound ancestry stake tree) (fits : Fits ancestry tree call)
    (same : SameStakes stake call) :
    ∃ tree', step call tree = .ok tree' ∧ Sound ancestry stake tree' := by
  cases call with
  | addNewLeafSlot =>
    obtain ⟨present, known⟩ := fits
    obtain ⟨_, found⟩ := isSome_iff_exists.mp present
    exact addNewLeafSlot_sound sound found known
  | addVotes epochStakes pubkeyVotes =>
    obtain ⟨distinct, present⟩ := fits
    have each : OneVoteEach tree pubkeyVotes :=
      ⟨distinct, fun vote mem => isSome_iff_exists.mp (present vote mem)⟩
    obtain ⟨tree', _, succeeded, sound', -⟩ := addVotes_sound sound same each
    exact ⟨tree', by simp [step, succeeded, Except.map], sound'⟩
  | setTreeRoot =>
    obtain ⟨_, found⟩ := isSome_iff_exists.mp fits
    exact setTreeRoot_sound sound found
  | markForkInvalidCandidate =>
    refine markForkInvalidCandidate_sound sound ?_
    rintro ⟨info, found, confirmed⟩
    simp [Fits, found, confirmed] at fits
  | markForkValidCandidate =>
    obtain ⟨_, found⟩ := isSome_iff_exists.mp fits
    obtain ⟨-, infos, _, succeeded, sound', -⟩ := markForkValidCandidate_remarked sound found
    exact ⟨{ tree with forkInfos := infos }, by simp [step, succeeded, Except.map], sound'⟩
  | splitOff =>
    obtain ⟨notRoot, present⟩ := fits
    obtain ⟨_, found⟩ := isSome_iff_exists.mp present
    obtain ⟨rest, _, succeeded, sound'⟩ := splitOff_sound sound notRoot found
    exact ⟨rest, by simp [step, succeeded, Except.map], sound'⟩

/-! ### The first block -/

/-- The first block, which is confirmed. -/
def rootInfo (root : SlotHashKey) : ForkInfo :=
  { stakeVotedAt := 0, stakeVotedSubtree := 0, height := 1, bestSlot := root, deepestSlot := root, parent := none,
    children := [], latestInvalidAncestor := none, isDuplicateConfirmed := true }

theorem new_sound (created : new root = .ok start) : Sound ancestry stake start := by
  have isStart : start =
      { forkInfos := (∅ : ForkInfos).insert root (rootInfo root), latestVotes := ∅, treeRoot := root } :=
    (Except.ok.inj created).symm
  subst isStart
  have only : ∀ key info, ((∅ : ForkInfos).insert root (rootInfo root)).lookup key = some info →
      key = root ∧ info = rootInfo root := by
    intro key info found
    rcases Store.lookup_insert_eq_some.mp found with here | ⟨-, none⟩
    · exact here
    · rw [AList.lookup_empty] at none
      cases none
  constructor
  case shape =>
    constructor
    case linked =>
      constructor
      case child =>
        intro key info found child mem
        obtain ⟨-, rfl⟩ := only key info found
        cases mem
      case older =>
        intro key info parent found knows
        obtain ⟨-, rfl⟩ := only key info found
        cases knows
    case nodup =>
      intro key info found
      obtain ⟨-, rfl⟩ := only key info found
      exact List.nodup_nil
    case parent =>
      intro key info above found knows
      obtain ⟨-, rfl⟩ := only key info found
      cases knows
    case rooted => exact ⟨rootInfo root, AList.lookup_insert _⟩
    case top =>
      intro key info found
      obtain ⟨isRoot, rfl⟩ := only key info found
      exact iff_of_true rfl isRoot
  case settled =>
    intro key info found
    obtain ⟨rfl, rfl⟩ := only key info found
    exact ⟨⟨.inl rfl, fun _ => .inl ⟨rfl, List.forall_mem_nil _⟩⟩, rfl, rfl, List.forall_mem_nil _⟩
  case counted =>
    intro key info found
    obtain ⟨-, rfl⟩ := only key info found
    rfl
  case dropped => simp

theorem sound_of_run (created : new root = .ok start)
    (run : Run step (fun tree call => Fits ancestry tree call ∧ SameStakes stake call) start calls
      tree) : Sound ancestry stake tree := by
  refine run.invariant (P := Sound ancestry stake) ?_ (new_sound created)
  rintro tree call tree' sound ⟨fits, same⟩ taken
  obtain ⟨_, succeeded, sound'⟩ := step_sound sound fits same
  cases succeeded.symm.trans taken
  exact sound'

/-! ### The walk to the best block -/

/-- The walk from a block without candidates among its children does not leave it. -/
theorem walk_eq_of_none {tree : ForkInfos} (walk : tree.Walk key last)
    (none : ∀ child ∈ ((tree.lookup key).map ForkInfo.children).getD [], ¬ tree.Candidate child) : last = key := by
  cases walk with
  | stop => rfl
  | move found best _ =>
    rw [found] at none
    exact absurd best.candidate (none _ best.member)

/-- From a candidate of a settled tree, the walk over the heaviest candidates ends at its best block. -/
theorem walk_to_best {tree : ForkInfos} (settled : ∀ key info, tree.lookup key = some info → tree.Settled key info)
    (linked : tree.Linked) (found : tree.lookup key = some info) (candidate : info.isCandidate) :
    tree.Walk key info.bestSlot := by
  induction level : info.height using Nat.strong_induction_on generalizing key info with
  | _ height ih =>
    rcases (settled key info found).best candidate with ⟨self, none⟩ | ⟨child, bestChild, same⟩
    · rw [self]
      exact .stop found none
    obtain ⟨childInfo, foundChild, -⟩ := linked.child key info found child bestChild.member
    rw [best_of foundChild, some.injEq] at same
    have lower := level ▸ (settled key info found).child_height_lt bestChild.member foundChild
    have isCandidate := (candidate_iff foundChild).mp bestChild.candidate
    have rest := ih childInfo.height lower foundChild isCandidate rfl
    exact .move found bestChild (same ▸ rest)

/-- In every run from one block, every call that fits succeeds, every block has the height that follows from its
    children, and, while the root is a candidate, the best block is where the walk from the root over the heaviest
    candidates ends. While the stakes of the latest votes fit into 64 bits together, every block has the stake of the
    validators whose latest vote it is and the weight that follows from its children, and no batch of votes takes off
    more than there is. -/
theorem values_maintained (ancestry : Ancestry) (stake : Pubkey → Nat → Nat) (root : SlotHashKey)
    {start tree : HeaviestSubtreeForkChoice} {calls : List Call} (created : new root = .ok start)
    (run : Run step (fun tree call => Fits ancestry tree call ∧ SameStakes stake call) start calls
      tree) :
    (∀ call, Fits ancestry tree call → SameStakes stake call →
      ∃ tree', step call tree = .ok tree') ∧
    (∀ key info, tree.forkInfos.lookup key = some info →
      info.height = 1 + tree.forkInfos.tallest info.children) ∧
    (votedStake stake tree.latestVotes < 2 ^ 64 →
      (∀ key info, tree.forkInfos.lookup key = some info →
        info.stakeVotedAt = tally stake tree.latestVotes key ∧
        info.stakeVotedSubtree = info.stakeVotedAt + (info.children.map tree.forkInfos.weight).sum) ∧
      ∀ epochStakes pubkeyVotes batch, Fits ancestry tree (.addVotes epochStakes pubkeyVotes) →
        epochStakes.Fixed stake → tree.generateUpdateOperations epochStakes pubkeyVotes = .ok batch →
        tree.forkInfos.Covered batch.operations.entries.reverse) ∧
    ∃ best, tree.bestOverallSlot = .ok best ∧
      (tree.forkInfos.Candidate tree.treeRoot → tree.forkInfos.Walk tree.treeRoot best) := by
  have sound := sound_of_run created run
  refine ⟨?_, fun key info found => (sound.settled key info found).height, ?_, ?_⟩
  · intro call fits same
    obtain ⟨tree', succeeded, -⟩ := step_sound sound fits same
    exact ⟨tree', succeeded⟩
  · intro bounded
    refine ⟨fun key info => exact_values sound bounded, ?_⟩
    rintro epochStakes pubkeyVotes batch ⟨distinct, present⟩ stakes generated
    have each : OneVoteEach tree pubkeyVotes :=
      ⟨distinct, fun vote mem => isSome_iff_exists.mp (present vote mem)⟩
    obtain ⟨_, _, generated', batched⟩ :=
      generateUpdates_ok (batched_start tree stake) sound.shape.linked stakes each fun _ _ => rfl
    cases generated'.symm.trans generated
    exact batched.covered sound bounded
  · obtain ⟨info, found⟩ := sound.shape.rooted
    refine ⟨info.bestSlot, by simp [bestOverallSlot, bestSlot, found], ?_⟩
    intro candidate
    exact walk_to_best sound.settled sound.shape.linked found ((candidate_iff found).mp candidate)

end Runs

/-! ### A run -/

namespace Sample

def block (slot : Nat) : SlotHashKey := { slot := slot, hash := 1 }

/-- Two blocks on top of one, and another one on top of the second of them. -/
def ancestry : Ancestry where
  parent key :=
    if key = block 1 then some (block 0)
    else if key = block 2 then some (block 1)
    else if key = block 3 then some (block 1)
    else if key = block 4 then some (block 3)
    else none
  older := by
    intro key above known
    split_ifs at known with one two three four
    all_goals
      cases known
      subst_vars
      decide

def stake (pubkey : Pubkey) (_ : Nat) : Nat := pubkey

def epochStakes : EpochStakes :=
  { stakes := fun epoch => some fun pubkey => stake pubkey epoch, epoch := fun slot => slot }

/-- Every kind of call: blocks and votes, a vote that moves, marks, a new root and a split. -/
def calls : List Call :=
  [.addNewLeafSlot (block 1) (block 0), .addNewLeafSlot (block 2) (block 1), .addNewLeafSlot (block 3) (block 1),
    .addVotes epochStakes [(7, block 2), (8, block 3)], .markForkInvalidCandidate (block 3),
    .addNewLeafSlot (block 4) (block 3), .markForkValidCandidate (block 4), .addVotes epochStakes [(7, block 4)],
    .setTreeRoot (block 1), .splitOff (block 2)]

def start : HeaviestSubtreeForkChoice :=
  { forkInfos := (∅ : ForkInfos).insert (block 0) (rootInfo (block 0)), latestVotes := ∅, treeRoot := block 0 }

theorem calls_fit : (exec step (Fits ancestry) calls start).isSome = true := by decide +kernel

def reached : HeaviestSubtreeForkChoice := (exec step (Fits ancestry) calls start).get calls_fit

theorem reached_run : Run step (fun tree call => Fits ancestry tree call ∧ SameStakes stake call) start calls
    reached := by
  refine (run_exec_get calls_fit).restrict ?_
  simp [calls, SameStakes, EpochStakes.Fixed, EpochStakes.stakeAt, epochStakes]

end Sample

open Sample

/-- In the sample run both votes end up in one branch, the last block is the best one, the root can be moved on to it,
    and a vote can be moved to it. -/
theorem values_maintained_sample :
    (∃ tree', step (.setTreeRoot (block 4)) reached = .ok tree') ∧
    ((reached.forkInfos.lookup (block 3)).map fun info =>
      (info.stakeVotedAt, info.stakeVotedSubtree, info.height, info.children)) = some (8, 15, 2, [block 4]) ∧
    (∃ info, reached.forkInfos.lookup (block 3) = some info ∧
      info.stakeVotedAt = tally stake reached.latestVotes (block 3)) ∧
    (∃ batch, reached.generateUpdateOperations epochStakes [(8, block 4)] = .ok batch ∧
      (toLex (block 3, .subtract), .subtract 8) ∈ batch.operations.entries ∧
      reached.forkInfos.Covered batch.operations.entries.reverse) ∧
    reached.bestOverallSlot = .ok (block 4) ∧
    reached.forkInfos.Walk reached.treeRoot (block 4) := by
  obtain ⟨succeeds, -, exact', best, isBest, walk⟩ :=
    values_maintained ancestry stake (block 0) rfl reached_run
  have isLast : reached.bestOverallSlot = .ok (block 4) := by decide +kernel
  cases isBest.symm.trans isLast
  have candidate : reached.forkInfos.Candidate reached.treeRoot := by decide +kernel
  have present : (reached.forkInfos.lookup (block 3)).isSome = true := by decide +kernel
  obtain ⟨info, found⟩ := isSome_iff_exists.mp present
  obtain ⟨values, covered⟩ := exact' (by decide +kernel)
  have moves : ((reached.generateUpdateOperations epochStakes [(8, block 4)]).toOption.any fun batch =>
      decide ((toLex (block 3, .subtract), .subtract 8) ∈ batch.operations.entries)) = true := by decide +kernel
  cases generated : reached.generateUpdateOperations epochStakes [(8, block 4)] with
  | error => cases generated ▸ moves
  | ok batch =>
    rw [generated] at moves
    exact ⟨succeeds (.setTreeRoot (block 4)) (by decide +kernel) trivial, by decide +kernel,
      ⟨info, found, (values (block 3) info found).1⟩,
      ⟨batch, rfl, of_decide_eq_true moves,
        covered epochStakes _ batch (by decide +kernel) (fun _ _ => rfl) generated⟩,
      isLast, walk candidate⟩

/-! ### Where the best block is not the end of the walk -/

namespace Sample

/-- A block that was marked invalid becomes the root, and a block is added to it. -/
def markedRoot : List Call :=
  [.addNewLeafSlot (block 1) (block 0), .markForkInvalidCandidate (block 1), .setTreeRoot (block 1),
    .addNewLeafSlot (block 2) (block 1)]

theorem markedRoot_fits : (exec step (Fits ancestry) markedRoot start).isSome = true := by decide +kernel

/-- A block with a vote is dropped by a new root, and added again on top of it. -/
def otherParent : List Call :=
  [.addNewLeafSlot (block 1) (block 0), .addNewLeafSlot (block 2) (block 0), .addNewLeafSlot (block 3) (block 1),
    .addVotes epochStakes [(7, block 3)], .setTreeRoot (block 2), .addNewLeafSlot (block 3) (block 2)]

/-- Two validators vote for the first block, with half of what 64 bits can count each. -/
def halves : List Call := [.addVotes epochStakes [(2 ^ 63, block 0), (2 ^ 63 + 1, block 0)]]

end Sample

/-- Below a root that is marked, the best block is a block that is marked too, though the walk does not leave the root.
    A block that was dropped and comes back on top of another parent has no stake, though it is a validator's latest
    vote; when that validator votes again, more is taken from it than there is. And stakes of more than 64 bits wrap. -/
theorem marked_root_other_parent_or_wrap :
    (∃ tree, Run step (fun tree call => Fits ancestry tree call ∧ SameStakes stake call)
        start markedRoot tree ∧
      tree.bestOverallSlot = .ok (block 2) ∧
      ¬ tree.forkInfos.Walk tree.treeRoot (block 2)) ∧
    (∃ tree, Run step (fun _ _ => True) start otherParent tree ∧
      ((tree.forkInfos.lookup (block 3)).map ForkInfo.stakeVotedAt) = some 0 ∧
      tally stake tree.latestVotes (block 3) = 7 ∧
      ((step (.addNewLeafSlot (block 4) (block 3)) tree >>=
        step (.addVotes epochStakes [(7, block 4)])).toOption.bind fun tree =>
          (tree.forkInfos.lookup (block 3)).map ForkInfo.stakeVotedAt) = some (2 ^ 64 - 7)) ∧
    ∃ tree, Run step (fun tree call => Fits ancestry tree call ∧ SameStakes stake call)
        start halves tree ∧
      ((tree.forkInfos.lookup (block 0)).map ForkInfo.stakeVotedAt) = some 1 ∧
      tally stake tree.latestVotes (block 0) = 2 ^ 64 + 1 := by
  refine ⟨?_, ?_, ?_⟩
  · refine ⟨(exec step (Fits ancestry) markedRoot start).get markedRoot_fits,
      (run_exec_get markedRoot_fits).restrict ?_, by decide +kernel, ?_⟩
    · simp [markedRoot, SameStakes]
    · intro walk
      have stays := walk_eq_of_none walk (by decide +kernel)
      exact absurd stays (by decide +kernel)
  · exact ⟨_, run_exec_get (by decide +kernel), by decide +kernel, by decide +kernel, by decide +kernel⟩
  · refine ⟨_, (run_exec_get (by decide +kernel)).restrict ?_, by decide +kernel, by decide +kernel⟩
    simp [halves, SameStakes, EpochStakes.Fixed, EpochStakes.stakeAt, epochStakes]

end HeaviestSubtreeForkChoice

end Payout.ForkChoice
