/-
Purpose: What is kept by all operations of the fork choice tree, and how a batch keeps it: the links of the tree are
  left alone, every block is settled, and the stake at a block is moved by what is due there. A walk over a subtree
  comes to an end and finds exactly what can be reached.
-/
import Payout.ForkChoiceProofs.Schedule

namespace Payout.ForkChoice

section

open Lib Payout.Runtime Option SortedMap List

variable {target : SlotHashKey → Nat}

/-- Every block has one parent, which is older: the hash of a block covers the hash of its parent. -/
structure Ancestry where
  parent : SlotHashKey → Option SlotHashKey
  older : ∀ key above, parent key = some above → above.slot < key.slot

variable {ancestry : Ancestry} {infos : ForkInfos}

namespace Ancestry

/-- A block is reached from another one by going from parent to parent. -/
inductive Below (ancestry : Ancestry) : SlotHashKey → SlotHashKey → Prop where
  | self (key : SlotHashKey) : Below ancestry key key
  | parent {key above ancestor : SlotHashKey} (known : ancestry.parent key = some above)
      (rest : Below ancestry ancestor above) : Below ancestry ancestor key

theorem Below.slot_le (below : ancestry.Below one two) : one.slot ≤ two.slot := by
  induction below with
  | self => exact le_rfl
  | parent known _ ih =>
    have older := ancestry.older _ _ known
    omega

theorem Below.toParent (below : ancestry.Below one two) (known : ancestry.parent one = some three) :
    ancestry.Below three two := by
  induction below with
  | self => exact .parent known (.self three)
  | parent step _ ih => exact .parent step (ih known)

/-- Of two blocks below another one, one is below the other. -/
theorem Below.comparable (one : ancestry.Below first key) (two : ancestry.Below second key) :
    ancestry.Below first second ∨ ancestry.Below second first := by
  induction one with
  | self => exact .inr two
  | parent known rest ih =>
    cases two with
    | self => exact .inl (.parent known rest)
    | parent known' rest' =>
      cases known.symm.trans known'
      exact ih rest'

theorem Below.eq_of_parent (below : ancestry.Below first second) (parent : ancestry.parent first = some above)
    (parent' : ancestry.parent second = some above) : first = second := by
  cases below with
  | self => rfl
  | parent known rest =>
    cases known.symm.trans parent'
    have le := rest.slot_le
    have older := ancestry.older first above parent
    omega

end Ancestry

namespace ForkInfos

/-- The tree is one, in the order of the blocks' parents. -/
structure Shape (ancestry : Ancestry) (infos : ForkInfos) (root : SlotHashKey) : Prop where
  linked : infos.Linked
  nodup : ∀ key info, infos.lookup key = some info → info.children.Nodup
  parent : ∀ key info above, infos.lookup key = some info → info.parent = some above →
    ancestry.parent key = some above ∧ ∃ aboveInfo, infos.lookup above = some aboveInfo ∧ key ∈ aboveInfo.children
  rooted : ∃ info, infos.lookup root = some info
  top : ∀ key info, infos.lookup key = some info → (info.parent = none ↔ key = root)

/-- Where a block hangs in the tree. -/
def links (infos : ForkInfos) (key : SlotHashKey) : Option (Option SlotHashKey × List SlotHashKey) :=
  (infos.lookup key).map fun info => (info.parent, info.children)

/-- Two trees with the same links. -/
def SameLinks (infos infos' : ForkInfos) : Prop := ∀ key, infos'.links key = infos.links key

variable {infos' : ForkInfos} {key above root : SlotHashKey} {info info' : ForkInfo} {todo : List Entry} {entry : Entry}

theorem SameLinks.refl (infos) : SameLinks infos infos := fun _ => rfl

section

variable (same : SameLinks infos infos')
include same

theorem SameLinks.lookup (found : infos'.lookup key = some info') :
    ∃ info, infos.lookup key = some info ∧ info'.parent = info.parent ∧ info'.children = info.children := by
  have links := same key
  rw [ForkInfos.links, ForkInfos.links, found] at links
  obtain ⟨info, foundOld, pair⟩ := map_eq_some_iff.mp links.symm
  obtain ⟨parents, children⟩ := Prod.mk.inj pair
  exact ⟨info, foundOld, parents.symm, children.symm⟩

theorem SameLinks.absent_iff : infos'.lookup key = none ↔ infos.lookup key = none := by
  have links := same key
  rw [ForkInfos.links, ForkInfos.links] at links
  rw [← map_eq_none_iff, links, map_eq_none_iff]

theorem SameLinks.symm : SameLinks infos' infos := fun key => (same key).symm

theorem SameLinks.shape (shape : Shape ancestry infos root) :
    Shape ancestry infos' root where
  linked := by
    constructor
    case child =>
      intro key info' found child mem
      obtain ⟨info, foundOld, -, children⟩ := same.lookup found
      obtain ⟨_, foundChild, knows⟩ := shape.linked.child key info foundOld child (children ▸ mem)
      obtain ⟨childInfo', foundChild', parents, -⟩ := same.symm.lookup foundChild
      exact ⟨childInfo', foundChild', parents ▸ knows⟩
    case older =>
      intro key info' above found knows
      obtain ⟨info, foundOld, parents, -⟩ := same.lookup found
      exact shape.linked.older key info above foundOld (parents ▸ knows)
  nodup := by
    intro key info' found
    obtain ⟨info, foundOld, -, children⟩ := same.lookup found
    exact children ▸ shape.nodup key info foundOld
  parent := by
    intro key info' above found knows
    obtain ⟨info, foundOld, parents, -⟩ := same.lookup found
    obtain ⟨known, _, foundAbove, mem⟩ := shape.parent key info above foundOld (parents ▸ knows)
    obtain ⟨aboveInfo', foundAbove', -, children⟩ := same.symm.lookup foundAbove
    exact ⟨known, aboveInfo', foundAbove', children ▸ mem⟩
  rooted := by
    obtain ⟨_, found⟩ := shape.rooted
    obtain ⟨info', found', -⟩ := same.symm.lookup found
    exact ⟨info', found'⟩
  top := by
    intro key info' found
    obtain ⟨info, foundOld, parents, -⟩ := same.lookup found
    rw [parents]
    exact shape.top key info foundOld

end

theorem Effect.links (effect : Effect infos key info info' operation) :
    info'.parent = info.parent ∧ info'.children = info.children := by
  cases operation with
  | aggregate => exact ⟨effect.1.parent, effect.1.children⟩
  | add =>
    cases effect
    exact ⟨rfl, rfl⟩
  | subtract =>
    cases effect
    exact ⟨rfl, rfl⟩
  | markValid slot =>
    cases effect
    have same := newlyValid_same info slot
    split
    · exact ⟨same.parent, same.children⟩
    · exact ⟨same.parent, same.children⟩
  | markInvalid =>
    have same := newlyInvalid_same effect
    exact ⟨same.parent, same.children⟩

theorem SameLinks.write (same : SameLinks infos infos') (found : infos'.lookup key = some info)
    (parents : info'.parent = info.parent) (children : info'.children = info.children) :
    SameLinks infos (infos'.insert key info') := by
  intro other
  rw [← same other, ForkInfos.links, ForkInfos.links, Store.lookup_insert_eq_ite]
  split
  · rename_i sameKey
    rw [sameKey, found, map_some, map_some, parents, children]
  · rfl

/-! ### The stake at a block -/

/-- The stake that is still to be moved under a label of a block. -/
def dueIn (todo : List Entry) (key : SlotHashKey) (label : UpdateLabel) : Nat :=
  ((SortedMap.lookupEntries (toLex (key, label)) todo).map UpdateOperation.stake).getD 0

theorem dueIn_cons (entry todo key label) :
    dueIn (entry :: todo) key label =
      if entry.1 = toLex (key, label) then entry.2.stake else dueIn todo key label := by
  rw [dueIn, lookupEntries_cons]
  split
  · rfl
  · rfl

theorem dueIn_reverse (operations key label) :
    dueIn operations.entries.reverse key label = due operations key label := by
  rw [dueIn, lookupEntries_reverse, due]

section

variable (pending : Pending infos (entry :: todo))
include pending

/-- Nothing is left to be moved under the label of the first operation. -/
theorem Pending.dueIn_eq_zero (label) (first : entry.1 = toLex (key, label)) : dueIn todo key label = 0 := by
  have none : lookupEntries (toLex (key, label)) todo = none := by
    rw [lookupEntries, map_eq_none_iff, find?_eq_none]
    intro later mem
    have less := rel_of_pairwise_cons pending.descending mem
    rw [first] at less
    simpa using less.ne
  rw [dueIn, none]
  rfl

/-- An operation on another block or under another label moves nothing. -/
theorem Pending.dueIn_tail (label) (other : key ≠ entry.key ∨ label ≠ entry.2.label) :
    dueIn (entry :: todo) key label = dueIn todo key label := by
  rw [dueIn_cons, if_neg]
  intro same
  have keys : entry.key = key := congrArg (fun pair => (ofLex pair).1) same
  have labels : (ofLex entry.1).2 = label := congrArg (fun pair => (ofLex pair).2) same
  rw [pending.labelled entry mem_cons_self] at labels
  rcases other with otherKey | otherLabel
  · exact otherKey keys.symm
  · exact otherLabel labels.symm

theorem Pending.dueIn_first : dueIn (entry :: todo) entry.key entry.2.label = entry.2.stake := by
  rw [dueIn_cons, if_pos]
  rw [← pending.labelled entry mem_cons_self]
  rfl

end

/-- What will be the stake at every block when everything due was moved. -/
def Accounted (target : SlotHashKey → Nat) (infos : ForkInfos) (todo : List Entry) : Prop :=
  ∀ key info, infos.lookup key = some info →
    (info.stakeVotedAt + dueIn todo key .add) % 2 ^ 64 = (target key + dueIn todo key .subtract) % 2 ^ 64

theorem accounted_of_noStakes {operations : UpdateOperations}
    (counted : ∀ key info, infos.lookup key = some info → info.stakeVotedAt = target key % 2 ^ 64)
    (noStakes : ∀ entry ∈ operations.entries, entry.2.stake = 0) :
    Accounted target infos operations.entries.reverse := by
  intro key info found
  rw [dueIn_reverse, dueIn_reverse, due_eq_zero noStakes, due_eq_zero noStakes, counted key info found, Nat.mod_add_mod]

section

variable (accounted : Accounted target infos (entry :: todo)) (pending : Pending infos (entry :: todo))
include accounted pending

theorem Accounted.skip (absent : infos.lookup entry.key = none) : Accounted target infos todo := by
  intro key info found
  have other : key ≠ entry.key := by
    rintro rfl
    cases absent.symm.trans found
  have before := accounted key info found
  rwa [pending.dueIn_tail _ (.inl other), pending.dueIn_tail _ (.inl other)] at before

theorem Accounted.write (found : infos.lookup entry.key = some info)
    (effect : Effect infos entry.key info info' entry.2) : Accounted target (infos.insert entry.key info') todo := by
  intro key keyInfo present
  rcases Store.lookup_insert_eq_some.mp present with ⟨rfl, rfl⟩ | ⟨other, present⟩
  case inr =>
    have before := accounted key keyInfo present
    rwa [pending.dueIn_tail _ (.inl other), pending.dueIn_tail _ (.inl other)] at before
  case inl =>
    have before := accounted entry.key info found
    have unmoved : entry.2.label ≠ .add → entry.2.label ≠ .subtract → keyInfo.stakeVotedAt = info.stakeVotedAt →
        (keyInfo.stakeVotedAt + dueIn todo entry.key .add) % 2 ^ 64 =
          (target entry.key + dueIn todo entry.key .subtract) % 2 ^ 64 := by
      intro notAdd notSubtract same
      rw [pending.dueIn_tail _ (.inr notAdd.symm), pending.dueIn_tail _ (.inr notSubtract.symm)] at before
      rwa [same]
    have first := pending.dueIn_first
    have label : entry.1 = toLex (entry.key, entry.2.label) := by
      rw [← pending.labelled entry mem_cons_self]
      rfl
    cases operation : entry.2 with
    | aggregate =>
      rw [operation] at effect unmoved
      exact unmoved nofun nofun effect.1.stakeVotedAt
    | add stake =>
      rw [operation] at effect first label
      cases effect
      rw [pending.dueIn_tail .subtract (.inr (by rw [operation]; exact nofun))] at before
      have left := pending.dueIn_eq_zero .add label
      dsimp only [UpdateOperation.label, UpdateOperation.stake] at first
      dsimp only [ForkInfo.restake, wrappingAdd]
      omega
    | subtract stake =>
      rw [operation] at effect first label
      cases effect
      rw [pending.dueIn_tail .add (.inr (by rw [operation]; exact nofun))] at before
      have left := pending.dueIn_eq_zero .subtract label
      dsimp only [UpdateOperation.label, UpdateOperation.stake] at first
      dsimp only [ForkInfo.restake, wrappingAdd]
      omega
    | markValid slot =>
      rw [operation] at effect unmoved
      cases effect
      refine unmoved nofun nofun ?_
      have same := newlyValid_same info slot
      split
      · exact same.stakeVotedAt
      · exact same.stakeVotedAt
    | markInvalid =>
      rw [operation] at effect unmoved
      exact unmoved nofun nofun (newlyInvalid_same effect).stakeVotedAt

end

/-- A batch settles all blocks, leaves the links alone and moves what is due. -/
theorem Pending.finish {P : ForkInfos → List Entry → Prop} (pending : Pending infos todo)
    (accounted : Accounted target infos todo) (start : P infos todo)
    (skipped : ∀ infos entry todo, Pending infos (entry :: todo) → P infos (entry :: todo) →
      infos.lookup entry.key = none → P infos todo)
    (written : ∀ infos entry todo info info', Pending infos (entry :: todo) → P infos (entry :: todo) →
      infos.lookup entry.key = some info → Effect infos entry.key info info' entry.2 →
      P (infos.insert entry.key info') todo) :
    ∃ infos', todo.foldlM (fun infos entry => infos.applyOperation (ofLex entry.1).1 entry.2) infos = .ok infos' ∧
      infos'.Linked ∧ SameLinks infos infos' ∧
      (∀ key info, infos'.lookup key = some info → infos'.Settled key info ∧ info.stakeVotedAt = target key % 2 ^ 64) ∧
      P infos' [] := by
  obtain ⟨infos', processed, done, same, moved, reached⟩ := pending.process
    (P := fun infos' todo => SameLinks infos infos' ∧ Accounted target infos' todo ∧ P infos' todo)
    ⟨.refl infos, accounted, start⟩
    (fun infos' entry todo pending ⟨same, moved, reached⟩ absent =>
      ⟨same, moved.skip pending absent, skipped infos' entry todo pending reached absent⟩)
    (fun infos' entry todo info info' pending ⟨same, moved, reached⟩ found effect =>
      ⟨same.write found effect.links.1 effect.links.2, moved.write pending found effect,
        written infos' entry todo info info' pending reached found effect⟩)
  refine ⟨infos', processed, done.linked, same, ?_, reached⟩
  intro key info found
  refine ⟨?_, (Nat.mod_eq_of_lt (done.small key info found)).symm.trans (moved key info found)⟩
  rcases done.settled key info found with settled | scheduled
  · exact settled
  · cases scheduled

end ForkInfos

/-! ### The state -/

/-- The stake of the validators whose vote is for a block, as it is at the slot of the block. -/
def tally (stake : Pubkey → Nat → Nat) (votes : Store Pubkey SlotHashKey) (key : SlotHashKey) : Nat :=
  Store.total (fun pubkey vote => if vote = key then stake pubkey key.slot else 0) votes

/-- What holds after every operation: the tree is one, its values are those of the votes, and the votes for blocks that
    were dropped are for blocks that cannot come back. -/
structure Sound (ancestry : Ancestry) (stake : Pubkey → Nat → Nat) (tree : HeaviestSubtreeForkChoice) : Prop where
  shape : tree.forkInfos.Shape ancestry tree.treeRoot
  settled : ∀ key info, tree.forkInfos.lookup key = some info → tree.forkInfos.Settled key info
  counted : ∀ key info, tree.forkInfos.lookup key = some info →
    info.stakeVotedAt = tally stake tree.latestVotes key % 2 ^ 64
  dropped : ∀ pubkey key, tree.latestVotes.lookup pubkey = some key →
    tree.forkInfos.lookup key = none →
    ∀ ancestor, ancestry.Below ancestor key → tree.forkInfos.lookup ancestor = none

namespace Sound

variable {stake : Pubkey → Nat → Nat}

theorem small (sound : Sound ancestry stake tree) :
    ∀ key info, tree.forkInfos.lookup key = some info → info.stakeVotedAt < 2 ^ 64 := by
  intro key info found
  rw [sound.counted key info found]
  exact Nat.mod_lt _ (Nat.two_pow_pos 64)

theorem ofValues (sound : Sound ancestry stake tree) (same : ForkInfos.SameLinks tree.forkInfos infos)
    (values : ∀ key info, infos.lookup key = some info →
      infos.Settled key info ∧ info.stakeVotedAt = tally stake tree.latestVotes key % 2 ^ 64) :
    Sound ancestry stake { tree with forkInfos := infos } where
  shape := same.shape sound.shape
  settled key info found := (values key info found).1
  counted key info found := (values key info found).2
  dropped := by
    intro pubkey key voted gone ancestor below
    rw [same.absent_iff] at gone ⊢
    exact sound.dropped pubkey key voted gone ancestor below

end Sound

end

open Lib Payout.Runtime List

variable {avoid top key : SlotHashKey} {info : ForkInfo} {keys : List SlotHashKey} {ancestry : Ancestry}
  {mark : UpdateOperation}

namespace ForkInfos

/-- A block is reached from the top by going to children, without passing a block to be avoided. -/
inductive Passes (infos : ForkInfos) (avoid top : SlotHashKey) : SlotHashKey → Prop where
  | self (other : top ≠ avoid) : Passes infos avoid top top
  | child {key child info} (before : Passes infos avoid top key)
      (found : infos.lookup key = some info) (mem : child ∈ info.children) (other : child ≠ avoid) :
      Passes infos avoid top child

variable {infos : ForkInfos} {child : SlotHashKey}

namespace Passes

theorem ne_avoid (passes : infos.Passes avoid top key) : key ≠ avoid := by
  cases passes with
  | self other => exact other
  | child _ _ _ other => exact other

theorem top_ne_avoid (passes : infos.Passes avoid top key) : top ≠ avoid := by
  induction passes with
  | self other => exact other
  | child _ _ _ _ ih => exact ih

theorem ofChild (other : top ≠ avoid) (found : infos.lookup top = some info) (mem : child ∈ info.children)
    (passes : infos.Passes avoid child key) : infos.Passes avoid top key := by
  induction passes with
  | self otherChild => exact .child (.self other) found mem otherChild
  | child _ foundKey memberKey otherKey ih => exact .child ih foundKey memberKey otherKey

theorem cases_child (passes : infos.Passes avoid top key) :
    key = top ∨ ∃ info child, infos.lookup top = some info ∧ child ∈ info.children ∧ infos.Passes avoid child key := by
  induction passes with
  | self => exact .inl rfl
  | child before found mem other ih =>
    rcases ih with rfl | ⟨info, child, foundTop, memberTop, rest⟩
    · exact .inr ⟨_, _, found, mem, .self other⟩
    · exact .inr ⟨info, child, foundTop, memberTop, .child rest found mem other⟩

theorem present (linked : infos.Linked) (foundTop : infos.lookup top = some info)
    (passes : infos.Passes avoid top key) : ∃ info, infos.lookup key = some info := by
  cases passes with
  | self => exact ⟨info, foundTop⟩
  | child before found mem =>
    obtain ⟨childInfo, foundChild, -⟩ := linked.child _ _ found _ mem
    exact ⟨childInfo, foundChild⟩

/-- The parent of a block that is reached is reached, unless the block is the top. -/
theorem parent (linked : infos.Linked) (passes : infos.Passes avoid top key) (knows : infos.parent key = some above) :
    key = top ∨ infos.Passes avoid top above := by
  cases passes with
  | self => exact .inl rfl
  | child before found mem =>
    have same := knows.symm.trans (linked.parent_child found mem)
    rw [Option.some.injEq] at same
    exact .inr (same ▸ before)

end Passes

/-! ### The walk -/

theorem slot_le_maxSlot (found : infos.lookup key = some info) : key.slot ≤ infos.maxSlot := by
  have mem : (⟨key, info⟩ : (_ : SlotHashKey) × ForkInfo) ∈ infos.entries := Store.mem_entries_iff.mpr found
  have all : ∀ entries : List ((_ : SlotHashKey) × ForkInfo), ⟨key, info⟩ ∈ entries →
      key.slot ≤ entries.foldr (fun entry greatest => max entry.1.slot greatest) 0 := by
    intro entries mem
    induction entries with
    | nil => cases mem
    | cons first rest ih =>
      rw [foldr_cons]
      rcases mem_cons.mp mem with rfl | later
      · exact le_max_left _ _
      · exact (ih later).trans (le_max_right _ _)
  exact all infos.entries mem

/-- The walk from a block comes to an end and finds what is reached from there. -/
theorem reachable_ok (linked : infos.Linked) (turns) (found : infos.lookup key = some info)
    (enough : infos.maxSlot < turns + key.slot) :
    ∃ keys, infos.reachable avoid turns key = .ok keys ∧ ∀ other, other ∈ keys ↔ infos.Passes avoid key other := by
  induction turns generalizing key info with
  | zero =>
    have le := slot_le_maxSlot found
    omega
  | succ turns ih =>
    unfold reachable
    by_cases avoided : key = avoid
    · rw [if_pos avoided]
      refine ⟨[], rfl, fun other => ⟨nofun, ?_⟩⟩
      intro passes
      exact absurd avoided passes.top_ne_avoid
    rw [if_neg avoided]
    have children : ∀ child ∈ info.children, ∃ keys, infos.reachable avoid turns child = .ok keys ∧
        ∀ other, other ∈ keys ↔ infos.Passes avoid child other := by
      intro child mem
      obtain ⟨childInfo, foundChild, knows⟩ := linked.child key info found child mem
      have older := linked.older child childInfo key foundChild knows
      exact ih foundChild (by omega)
    obtain ⟨below, walked⟩ := exists_mapM_ok_iff.mpr fun child mem =>
      (children child mem).imp fun keys spec => spec.1
    have members := mem_flatten_of_mapM walked children
    refine ⟨key :: below.flatten, ?_, ?_⟩
    · exact bind_ok_iff.mpr ⟨info, okOr_eq_ok.mpr found, bind_ok_iff.mpr ⟨below, walked, rfl⟩⟩
    intro other
    rw [mem_cons, members]
    constructor
    · rintro (rfl | ⟨child, mem, passes⟩)
      · exact .self avoided
      · exact .ofChild avoided found mem passes
    intro passes
    rcases passes.cases_child with same | ⟨_, child, found', mem, rest⟩
    · exact .inl same
    · rw [found, Option.some.injEq] at found'
      subst found'
      exact .inr ⟨child, mem, rest⟩

theorem subtreeDiff_ok (linked : infos.Linked) (found : infos.lookup top = some info) (avoid) :
    ∃ keys, infos.subtreeDiff top avoid = .ok keys ∧ keys.Nodup ∧ ∀ key, key ∈ keys ↔ infos.Passes avoid top key := by
  obtain ⟨keys, walked, spec⟩ := reachable_ok linked (infos.maxSlot + 1) found (by omega)
  refine ⟨keys.dedup, ?_, nodup_dedup keys, fun key => mem_dedup.trans (spec key)⟩
  simp only [subtreeDiff, found]
  exact bind_ok_iff.mpr ⟨keys, walked, rfl⟩

/-! ### Marks on a subtree -/

/-- The batch that marks a subtree. -/
def markBatch (infos : ForkInfos) (mark : UpdateOperation) (keys : List SlotHashKey) (top : SlotHashKey) :
    UpdateOperations :=
  infos.insertAggregateOperations (insertMarks mark keys .empty) top

section

variable (linked : infos.Linked) (isMark : mark.IsMark) (subtree : ∀ key, key ∈ keys ↔ infos.Passes avoid top key)

include linked isMark subtree

theorem insertMarks_schedule :
    ScheduleBut (· = top) infos (insertMarks mark keys .empty) where
  labelled := by
    intro entry mem
    obtain ⟨_, -, rfl | rfl⟩ := (mem_insertMarks isMark entry).mp mem
    · rfl
    · rfl
  marks := by
    intro entry mem _
    obtain ⟨key, marked, rfl | rfl⟩ := (mem_insertMarks isMark entry).mp mem
    · exact (mem_insertMarks isMark _).mpr ⟨key, marked, .inr rfl⟩
    · exact mem
  parents := by
    intro entry mem other above knows
    obtain ⟨key, marked, same⟩ := (mem_insertMarks isMark entry).mp mem
    have sameKey : Entry.key entry = key := by
      rcases same with rfl | rfl
      · rfl
      · rfl
    rw [sameKey] at other knows
    rcases ((subtree key).mp marked).parent linked knows with isTop | passes
    · exact absurd isTop other
    · exact (mem_insertMarks isMark _).mpr ⟨above, (subtree above).mpr passes, .inr rfl⟩

theorem markBatch_schedule :
    infos.Schedule (infos.markBatch mark keys top) ∧ ∀ entry ∈ (infos.markBatch mark keys top).entries,
      Marking mark keys entry ∨ ∃ key, entry = Entry.aggregate key := by
  obtain ⟨schedule, extended, -⟩ :=
    insertAggregateOperations_schedule linked (insertMarks_schedule linked isMark subtree)
  refine ⟨schedule, ?_⟩
  intro entry mem
  rcases extended.added entry mem with old | new
  · exact .inl ((mem_insertMarks isMark entry).mp old)
  · exact .inr new

theorem markEntry_mem_markBatch (mem : key ∈ keys) :
    (toLex (key, mark.label), mark) ∈ (infos.markBatch mark keys top).entries := by
  obtain ⟨-, extended, -⟩ := insertAggregateOperations_schedule linked (insertMarks_schedule linked isMark subtree)
  exact extended.kept _ ((mem_insertMarks isMark _).mpr ⟨key, mem, .inl rfl⟩)

end

theorem mark_stake (isMark : mark.IsMark) : mark.stake = 0 := by
  cases mark with
  | markValid => rfl
  | markInvalid => rfl
  | add => exact isMark.elim
  | subtract => exact isMark.elim
  | aggregate => exact isMark.elim

theorem Passes.unconfirmed (settled : ∀ key info, infos.lookup key = some info → infos.Settled key info)
    (passes : infos.Passes avoid top key) (unconfirmed : ¬ infos.Confirmed top) : ¬ infos.Confirmed key := by
  induction passes with
  | self => exact unconfirmed
  | child _ found mem _ ih =>
    intro confirmed
    exact ih ⟨_, found, ((settled _ _ found).confirmed _ mem confirmed).1⟩

end ForkInfos

namespace HeaviestSubtreeForkChoice

open ForkInfos

variable {stake : Pubkey → Nat → Nat}

/-- The batch that marks a subtree succeeds, unless it marks a confirmed block invalid. -/
theorem markBatch_pending (sound : Sound ancestry stake tree) (isMark : mark.IsMark)
    (subtree : ∀ key, key ∈ keys ↔ tree.forkInfos.Passes avoid top key)
    (unconfirmed : ∀ slot, mark = .markInvalid slot → ¬ tree.forkInfos.Confirmed top) :
    tree.forkInfos.Pending (tree.forkInfos.markBatch mark keys top).entries.reverse ∧
      Accounted (tally stake tree.latestVotes) tree.forkInfos
        (tree.forkInfos.markBatch mark keys top).entries.reverse := by
  obtain ⟨schedule, entries⟩ := markBatch_schedule sound.shape.linked isMark subtree
  constructor
  · refine schedule.pending sound.shape.linked (fun key info found => .inl (sound.settled key info found))
      sound.small ?_
    intro entry mem slot info invalidates found
    rcases entries _ mem with ⟨other, marked, rfl | rfl⟩ | ⟨other, rfl⟩
    · have passes := (subtree other).mp marked
      have none := passes.unconfirmed sound.settled (unconfirmed slot invalidates)
      have foundOther : tree.forkInfos.lookup other = some info := found
      rwa [confirmed_iff foundOther, Bool.not_eq_true] at none
    · cases invalidates
    · cases invalidates
  · apply accounted_of_noStakes sound.counted
    intro entry mem
    rcases entries _ mem with ⟨other, -, rfl | rfl⟩ | ⟨other, rfl⟩
    · exact mark_stake isMark
    · rfl
    · rfl

theorem ancestorsFrom_present {infos : ForkInfos} (shape : infos.Shape ancestry root) (turns) :
    ∀ ancestor ∈ infos.ancestorsFrom turns key, ∃ info, infos.lookup ancestor = some info := by
  induction turns generalizing key with
  | zero => exact forall_mem_nil _
  | succ turns ih =>
    simp only [ancestorsFrom]
    cases knows : infos.parent key with
    | none => exact forall_mem_nil _
    | some above =>
      obtain ⟨info, found, knows⟩ := parent_eq_some.mp knows
      obtain ⟨-, aboveInfo, foundAbove, -⟩ := shape.parent key info above found knows
      exact forall_mem_cons.mpr ⟨⟨aboveInfo, foundAbove⟩, ih⟩

theorem path_present (sound : Sound ancestry stake tree) (found : tree.forkInfos.lookup key = some info) :
    ∃ path, (key :: tree.forkInfos.ancestorIterator key).mapM (fun ancestor =>
      okOr (tree.forkInfos.lookup ancestor) Panic.missing) = .ok path := by
  apply exists_mapM_ok_iff.mpr
  simp only [okOr_eq_ok]
  exact forall_mem_cons.mpr ⟨⟨info, found⟩, ancestorsFrom_present sound.shape key.slot⟩

end HeaviestSubtreeForkChoice

end Payout.ForkChoice
