/-
Purpose: Dropping blocks. A new root drops those that are not above it; they cannot come back, since a block below
  them is missing. A subtree that is split off is taken out block by block, and with it the votes for its blocks.
-/
import Payout.ForkChoiceProofs.Sound

namespace Payout.ForkChoice

section

open Lib Payout.Runtime AList Option HeaviestSubtreeForkChoice List

variable {ancestry : Ancestry} {newRoot : SlotHashKey} {newInfo : ForkInfo}

namespace ForkInfos

/-- A tree without some of its blocks. -/
structure Cut (gone : SlotHashKey → Prop) (infos infos' : ForkInfos) : Prop where
  absent : ∀ key, gone key → infos'.lookup key = none
  kept : ∀ key, ¬ gone key → infos'.lookup key = infos.lookup key

variable {infos infos' : ForkInfos} {gone : SlotHashKey → Prop} {key root : SlotHashKey} {info : ForkInfo}
  {keys : List SlotHashKey}

theorem Cut.lookup (cut : Cut gone infos infos') (found : infos'.lookup key = some info) :
    ¬ gone key ∧ infos.lookup key = some info := by
  have here : ¬ gone key := by
    intro isGone
    rw [cut.absent key isGone] at found
    cases found
  exact ⟨here, by rw [← cut.kept key here]; exact found⟩

theorem removeAll_ok (nodup : keys.Nodup) (present : ∀ key ∈ keys, ∃ info, infos.lookup key = some info) :
    ∃ infos', keys.foldlM remove infos = .ok infos' ∧ Cut (· ∈ keys) infos infos' := by
  induction keys generalizing infos with
  | nil => exact ⟨infos, rfl, nofun, fun _ _ => rfl⟩
  | cons key rest ih =>
    obtain ⟨⟨info, found⟩, others⟩ := forall_mem_cons.mp present
    obtain ⟨fresh, nodup⟩ := nodup_cons.mp nodup
    have stillThere : ∀ other ∈ rest, ∃ info, (infos.erase key).lookup other = some info := by
      intro other mem
      obtain ⟨otherInfo, foundOther⟩ := others other mem
      have different : other ≠ key := fun same => fresh (same ▸ mem)
      exact ⟨otherInfo, (lookup_erase_ne different).trans foundOther⟩
    obtain ⟨infos', removed, cut⟩ := ih nodup stillThere
    refine ⟨infos', ?_, ?_, ?_⟩
    · rw [foldlM_cons]
      refine bind_ok_iff.mpr ⟨infos.erase key, ?_, removed⟩
      simp [remove, found, bind_ok_iff]
    · intro other mem
      by_cases later : other ∈ rest
      · exact cut.absent other later
      · rw [cut.kept other later, mem_cons.mp mem |>.resolve_right later]
        exact lookup_erase key infos
    · intro other notMember
      obtain ⟨different, notLater⟩ := ne_and_not_mem_of_not_mem_cons notMember
      rw [cut.kept other notLater]
      exact lookup_erase_ne different

section

variable (shape : infos.Shape ancestry root)
include shape

/-- Blocks that cannot be reached around another block are not older than it. -/
theorem Shape.slot_le (found : infos.lookup key = some info) (unreached : ¬ infos.Passes avoid root key) :
    avoid.slot ≤ key.slot := by
  induction slot : key.slot using Nat.strong_induction_on generalizing key info with
  | _ slot ih =>
    by_cases isAvoid : key = avoid
    · rw [← isAvoid, slot]
    cases knows : info.parent with
    | none =>
      have isRoot := (shape.top key info found).mp knows
      exact absurd (isRoot ▸ .self (isRoot ▸ isAvoid)) unreached
    | some above =>
      obtain ⟨-, aboveInfo, foundAbove, mem⟩ := shape.parent key info above found knows
      have older := shape.linked.older key info above found knows
      have unreachedAbove : ¬ infos.Passes avoid root above :=
        fun passes => unreached (.child passes foundAbove mem isAvoid)
      have le := ih above.slot (slot ▸ older) foundAbove unreachedAbove rfl
      omega

theorem Shape.root_slot_le (found : infos.lookup key = some info) : root.slot ≤ key.slot :=
  shape.slot_le found fun passes => passes.top_ne_avoid rfl

/-- On the way from one block of the tree down to another one, no block is missing. -/
theorem Shape.parent_below (found : infos.lookup key = some info) (known : ancestry.parent key = some above)
    (below : ancestry.Below ancestor above) (foundAncestor : infos.lookup ancestor = some ancestorInfo) :
    info.parent = some above ∧ ∃ aboveInfo, infos.lookup above = some aboveInfo ∧ key ∈ aboveInfo.children := by
  cases knows : info.parent with
  | none =>
    -- Everything below the root is older than the root, and not there.
    have isRoot := (shape.top key info found).mp knows
    have le := below.slot_le
    have older := ancestry.older key above known
    have rootLe := shape.root_slot_le foundAncestor
    rw [isRoot] at older
    omega
  | some above' =>
    obtain ⟨known', present⟩ := shape.parent key info above' found knows
    cases known.symm.trans known'
    exact ⟨rfl, present⟩

/-- A block that is reached from the root takes all blocks below it along. -/
theorem Shape.passes_below (passes : infos.Passes avoid root key) (below : ancestry.Below ancestor key)
    (found : infos.lookup ancestor = some ancestorInfo) : infos.Passes avoid root ancestor := by
  induction below with
  | self => exact passes
  | @parent key above ancestor known rest ih =>
    obtain ⟨rootInfo, foundRoot⟩ := shape.rooted
    obtain ⟨info, foundKey⟩ := passes.present shape.linked foundRoot
    obtain ⟨knows, -⟩ := shape.parent_below foundKey known rest found
    rcases passes.parent shape.linked (parent_eq_some.mpr ⟨info, foundKey, knows⟩) with isRoot | passesAbove
    · rw [(shape.top key info foundKey).mpr isRoot] at knows
      cases knows
    · exact ih passesAbove found

end

/-- What is left above a new root: the blocks that cannot be reached around it, the new root without its parent. -/
theorem rerooted_cases (cut : Cut (infos.Passes newRoot root) infos infos')
    (found : (infos'.insert newRoot { newInfo with parent := none }).lookup key = some info)
    (foundRoot : infos.lookup newRoot = some newInfo) :
    ∃ old, infos.lookup key = some old ∧ ¬ infos.Passes newRoot root key ∧ info.children = old.children ∧
      info.stakeVotedAt = old.stakeVotedAt ∧
      ((key = newRoot ∧ info.parent = none) ∨ (key ≠ newRoot ∧ info = old)) := by
  rcases Store.lookup_insert_eq_some.mp found with ⟨rfl, rfl⟩ | ⟨other, found⟩
  · exact ⟨newInfo, foundRoot, fun passes => passes.ne_avoid rfl, rfl, rfl, .inl ⟨rfl, rfl⟩⟩
  · obtain ⟨here, foundOld⟩ := cut.lookup found
    exact ⟨info, foundOld, here, rfl, rfl, .inr ⟨other, rfl⟩⟩

/-- The children of a block that is left are left, and the new root is none of them. -/
theorem Shape.children_left (shape : infos.Shape ancestry root) (foundRoot : infos.lookup newRoot = some newInfo)
    (found : infos.lookup key = some info) (here : ¬ infos.Passes newRoot root key) (mem : child ∈ info.children) :
    ¬ infos.Passes newRoot root child ∧ child ≠ newRoot := by
  obtain ⟨childInfo, foundChild, knows⟩ := shape.linked.child key info found child mem
  constructor
  · intro passes
    rcases passes.parent shape.linked (parent_eq_some.mpr ⟨childInfo, foundChild, knows⟩) with isRoot | passesKey
    · rw [(shape.top child childInfo foundChild).mpr isRoot] at knows
      cases knows
    · exact here passesKey
  · rintro rfl
    have le := shape.slot_le found here
    have older := shape.linked.older child childInfo key foundChild knows
    omega

theorem Shape.reroot (shape : infos.Shape ancestry root) (foundRoot : infos.lookup newRoot = some newInfo)
    (cut : Cut (infos.Passes newRoot root) infos infos') :
    Shape ancestry (infos'.insert newRoot { newInfo with parent := none }) newRoot := by
  -- A block that is left is still found, the new root with another parent.
  have left : ∀ key info, infos.lookup key = some info → ¬ infos.Passes newRoot root key → ∃ info',
      (infos'.insert newRoot { newInfo with parent := none }).lookup key = some info' ∧
      info'.children = info.children ∧ (key ≠ newRoot → info'.parent = info.parent) := by
    intro key info found here
    by_cases isNew : key = newRoot
    · subst isNew
      cases foundRoot.symm.trans found
      exact ⟨_, lookup_insert _, rfl, fun other => absurd rfl other⟩
    · exact ⟨info, by rw [lookup_insert_ne isNew, cut.kept key here, found], rfl, fun _ => rfl⟩
  constructor
  case linked =>
    constructor
    case child =>
      intro key info found child mem
      obtain ⟨old, foundOld, here, children, -, -⟩ := rerooted_cases cut found foundRoot
      rw [children] at mem
      obtain ⟨childHere, notNew⟩ := shape.children_left foundRoot foundOld here mem
      obtain ⟨childInfo, foundChild, knows⟩ := shape.linked.child key old foundOld child mem
      obtain ⟨childInfo', foundChild', -, sameParent⟩ := left child childInfo foundChild childHere
      exact ⟨childInfo', foundChild', (sameParent notNew).trans knows⟩
    case older =>
      intro key info above found knows
      obtain ⟨_, foundOld, -, -, -, ⟨-, none⟩ | ⟨-, rfl⟩⟩ := rerooted_cases cut found foundRoot
      · rw [none] at knows
        cases knows
      · exact shape.linked.older key info above foundOld knows
  case nodup =>
    intro key info found
    obtain ⟨old, foundOld, -, children, -⟩ := rerooted_cases cut found foundRoot
    exact children ▸ shape.nodup key old foundOld
  case parent =>
    intro key info above found knows
    obtain ⟨_, foundOld, here, -, -, ⟨-, none⟩ | ⟨notNew, rfl⟩⟩ := rerooted_cases cut found foundRoot
    · rw [none] at knows
      cases knows
    · obtain ⟨known, aboveInfo, foundAbove, mem⟩ := shape.parent key info above foundOld knows
      have aboveHere : ¬ infos.Passes newRoot root above :=
        fun passes => here (.child passes foundAbove mem notNew)
      obtain ⟨aboveInfo', foundAbove', children, -⟩ := left above aboveInfo foundAbove aboveHere
      exact ⟨known, aboveInfo', foundAbove', children ▸ mem⟩
  case rooted => exact ⟨_, lookup_insert _⟩
  case top =>
    intro key info found
    obtain ⟨_, foundOld, here, -, -, ⟨isNew, none⟩ | ⟨notNew, rfl⟩⟩ := rerooted_cases cut found foundRoot
    · exact iff_of_true none isNew
    · refine iff_of_false ?_ notNew
      intro none
      have isRoot := (shape.top key info foundOld).mp none
      exact here (isRoot ▸ .self (isRoot ▸ notNew))

end ForkInfos

namespace HeaviestSubtreeForkChoice

open ForkInfos

variable {tree : HeaviestSubtreeForkChoice} {stake : Pubkey → Nat → Nat}

/-- Moving the root to a block of the tree keeps the tree sound. -/
theorem setTreeRoot_sound (sound : Sound ancestry stake tree)
    (foundRoot : tree.forkInfos.lookup newRoot = some newInfo) :
    ∃ tree', tree.setTreeRoot newRoot = .ok tree' ∧ Sound ancestry stake tree' := by
  obtain ⟨_, foundOldRoot⟩ := sound.shape.rooted
  obtain ⟨keys, walked, nodup, subtree⟩ := subtreeDiff_ok sound.shape.linked foundOldRoot newRoot
  obtain ⟨infos, removed, cutKeys⟩ := removeAll_ok nodup fun key mem =>
    ((subtree key).mp mem).present sound.shape.linked foundOldRoot
  have cut : Cut (tree.forkInfos.Passes newRoot tree.treeRoot) tree.forkInfos infos :=
    ⟨fun key passes => cutKeys.absent key ((subtree key).mpr passes),
      fun key here => cutKeys.kept key fun mem => here ((subtree key).mp mem)⟩
  have foundNew : infos.lookup newRoot = some newInfo := by
    rw [cut.kept newRoot fun passes => passes.ne_avoid rfl]
    exact foundRoot
  have children : ∀ key old, tree.forkInfos.lookup key = some old →
      ¬ tree.forkInfos.Passes newRoot tree.treeRoot key → ∀ child ∈ old.children,
      (infos.insert newRoot { newInfo with parent := none }).lookup child = tree.forkInfos.lookup child := by
    intro key old found here child mem
    obtain ⟨childHere, notNew⟩ := sound.shape.children_left foundRoot found here mem
    rw [lookup_insert_ne notNew, cut.kept child childHere]
  refine ⟨{ tree with
    forkInfos := infos.insert newRoot { newInfo with parent := none }, treeRoot := newRoot }, ?_, ?_⟩
  · simp only [setTreeRoot, ok_iffs]
    exact ⟨keys, walked, infos, removed, newInfo, foundNew, rfl⟩
  constructor
  case shape => exact sound.shape.reroot foundRoot cut
  case settled =>
    intro key info found
    obtain ⟨old, foundOld, here, _, -, same⟩ := rerooted_cases cut found foundRoot
    have settled := (sound.settled key old foundOld).congr (children key old foundOld here)
    rcases same with ⟨rfl, -⟩ | ⟨-, rfl⟩
    · -- Only the parent of the new root was written.
      cases foundRoot.symm.trans foundOld
      rw [lookup_insert, some.injEq] at found
      subst found
      exact ⟨⟨settled.within, settled.best⟩, settled.weight, settled.height, settled.confirmed⟩
    · exact settled
  case counted =>
    intro key info found
    obtain ⟨old, foundOld, -, -, sameStake, -⟩ := rerooted_cases cut found foundRoot
    rw [sameStake]
    exact sound.counted key old foundOld
  case dropped =>
    intro pubkey key voted gone ancestor below
    by_contra stillThere
    obtain ⟨_, found⟩ := ne_none_iff_exists'.mp stillThere
    obtain ⟨_, foundOld, here, -⟩ := rerooted_cases cut found foundRoot
    cases before : tree.forkInfos.lookup key with
    | none =>
      rw [sound.dropped pubkey key voted before ancestor below] at foundOld
      cases foundOld
    | some =>
      -- The block was dropped now, so everything below it was dropped with it.
      have passes : tree.forkInfos.Passes newRoot tree.treeRoot key := by
        by_contra keyHere
        rw [Store.lookup_insert_eq_ite] at gone
        split at gone
        · cases gone
        · rw [cut.kept key keyHere, before] at gone
          cases gone
      exact here (sound.shape.passes_below passes below foundOld)

end HeaviestSubtreeForkChoice

end

open Lib Payout.Runtime List Option Store AList HeaviestSubtreeForkChoice

namespace ForkInfos

/-- A block of the subtree at a block. -/
inductive Under (infos : ForkInfos) (top : SlotHashKey) : SlotHashKey → Prop where
  | self : Under infos top top
  | child {key child info} (before : Under infos top key)
      (found : infos.lookup key = some info) (mem : child ∈ info.children) : Under infos top child

variable {base infos : ForkInfos} {start key child above : SlotHashKey} {info : ForkInfo} {toVisit : List SlotHashKey}

theorem Under.slot_le (linked : base.Linked) (under : base.Under start key) : start.slot ≤ key.slot := by
  induction under with
  | self => exact le_rfl
  | child _ found mem ih =>
    obtain ⟨childInfo, foundChild, knows⟩ := linked.child _ _ found _ mem
    have older := linked.older _ _ _ foundChild knows
    omega

/-- The parent of a block of a subtree is in the subtree, unless the block is its top. -/
theorem Under.parent (linked : base.Linked) (under : base.Under start key) (knows : base.parent key = some above) :
    key = start ∨ base.Under start above := by
  cases under with
  | self => exact .inl rfl
  | child before found mem =>
    have same := knows.symm.trans (linked.parent_child found mem)
    rw [some.injEq] at same
    exact .inr (same ▸ before)

/-! ### Taking a subtree out -/

/-- Where the walk over a subtree stands: the blocks to visit are the children of those that were taken. -/
structure Splitting (base : ForkInfos) (start : SlotHashKey) (toVisit : List SlotHashKey) (infos : ForkInfos) :
    Prop where
  cut : ∀ key, infos.lookup key = none ∨ infos.lookup key = base.lookup key
  nodup : toVisit.Nodup
  present : ∀ key ∈ toVisit, ∃ info, infos.lookup key = some info
  top : start ∈ toVisit ∨ infos.lookup start = none
  frontier : ∀ key info child, base.lookup key = some info → child ∈ info.children → infos.lookup key = none →
    child ∈ toVisit ∨ infos.lookup child = none
  waiting : ∀ key info child, infos.lookup key = some info → child ∈ info.children →
    child ∉ toVisit ∧ ∃ childInfo, infos.lookup child = some childInfo
  under : ∀ key, key ∈ toVisit ∨ (infos.lookup key = none ∧ base.lookup key ≠ none) → base.Under start key

namespace Splitting

theorem base_lookup (splitting : Splitting base start toVisit infos) (found : infos.lookup key = some info) :
    base.lookup key = some info := by
  rcases splitting.cut key with none | same
  · rw [none] at found
    cases found
  · rw [← same]
    exact found

theorem begin (linked : base.Linked) (found : base.lookup start = some info)
    (orphan : ∀ key info, base.lookup key = some info → start ∉ info.children) : Splitting base start [start] base where
  cut _ := .inr rfl
  nodup := List.nodup_singleton start
  present := by
    intro key mem
    rw [mem_singleton.mp mem]
    exact ⟨info, found⟩
  top := .inl mem_cons_self
  frontier := by
    intro key info child foundKey _ none
    cases none.symm.trans foundKey
  waiting := by
    intro key info child foundKey mem
    obtain ⟨childInfo, foundChild, -⟩ := linked.child key info foundKey child mem
    refine ⟨?_, childInfo, foundChild⟩
    intro isStart
    exact orphan key info foundKey (mem_singleton.mp isStart ▸ mem)
  under := by
    rintro key (mem | ⟨none, some⟩)
    · rw [mem_singleton.mp mem]
      exact .self
    · exact absurd none some

theorem turn (splitting : Splitting base start (current :: toVisit) infos) (linked : base.Linked)
    (children : info.children.Nodup) (found : infos.lookup current = some info) :
    Splitting base start (info.children.reverse ++ toVisit) (infos.erase current) := by
  have foundBase := splitting.base_lookup found
  obtain ⟨fresh, nodup⟩ := nodup_cons.mp splitting.nodup
  have isChild : ∀ child ∈ info.children, child ∉ current :: toVisit ∧
      ∃ childInfo, infos.lookup child = some childInfo :=
    fun child => splitting.waiting current info child found
  constructor
  case cut =>
    intro key
    by_cases same : key = current
    · exact .inl (same ▸ lookup_erase key infos)
    · rw [lookup_erase_ne same]
      exact splitting.cut key
  case nodup =>
    refine nodup_append'.mpr ⟨nodup_reverse.mpr children, nodup, ?_⟩
    intro child mem later
    exact (isChild child (mem_reverse.mp mem)).1 (mem_cons_of_mem _ later)
  case present =>
    intro key mem
    rcases mem_append.mp mem with new | old
    · obtain ⟨notVisited, childInfo, foundChild⟩ := isChild key (mem_reverse.mp new)
      have other : key ≠ current := fun same => notVisited (same ▸ mem_cons_self)
      exact ⟨childInfo, (lookup_erase_ne other).trans foundChild⟩
    · obtain ⟨keyInfo, foundKey⟩ := splitting.present key (mem_cons_of_mem _ old)
      have other : key ≠ current := fun same => fresh (same ▸ old)
      exact ⟨keyInfo, (lookup_erase_ne other).trans foundKey⟩
  case top =>
    by_cases same : start = current
    · exact .inr (same ▸ lookup_erase start infos)
    · rw [lookup_erase_ne same]
      rcases splitting.top with mem | none
      · exact .inl (mem_append_right _ ((mem_cons.mp mem).resolve_left same))
      · exact .inr none
  case frontier =>
    intro key keyInfo child foundKey mem none
    by_cases same : key = current
    · subst same
      cases foundBase.symm.trans foundKey
      exact .inl (mem_append_left _ (mem_reverse.mpr mem))
    · rw [lookup_erase_ne same] at none
      by_cases taken : child = current
      · exact .inr (taken ▸ lookup_erase child infos)
      · rw [lookup_erase_ne taken]
        rcases splitting.frontier key keyInfo child foundKey mem none with visited | gone
        · exact .inl (mem_append_right _ ((mem_cons.mp visited).resolve_left taken))
        · exact .inr gone
  case waiting =>
    intro key keyInfo child foundKey mem
    obtain ⟨other, foundKey⟩ := lookup_erase_eq_some.mp foundKey
    obtain ⟨notVisited, childInfo, foundChild⟩ := splitting.waiting key keyInfo child foundKey mem
    have notTaken : child ≠ current := fun same => notVisited (same ▸ mem_cons_self)
    refine ⟨?_, childInfo, (lookup_erase_ne notTaken).trans foundChild⟩
    intro visited
    rcases mem_append.mp visited with new | old
    · -- A block has one parent only.
      obtain ⟨_, foundOne, knowsKey⟩ := linked.child key keyInfo (splitting.base_lookup foundKey) child mem
      obtain ⟨_, foundTwo, knowsCurrent⟩ := linked.child current info foundBase child (mem_reverse.mp new)
      cases foundOne.symm.trans foundTwo
      rw [knowsKey, some.injEq] at knowsCurrent
      exact other knowsCurrent
    · exact notVisited (mem_cons_of_mem _ old)
  case under =>
    have underCurrent := splitting.under current (.inl mem_cons_self)
    rintro key (mem | ⟨none, some⟩)
    · rcases mem_append.mp mem with new | old
      · exact .child underCurrent foundBase (mem_reverse.mp new)
      · exact splitting.under key (.inl (mem_cons_of_mem _ old))
    · by_cases same : key = current
      · exact same ▸ underCurrent
      · rw [lookup_erase_ne same] at none
        exact splitting.under key (.inr ⟨none, some⟩)

/-- When nothing is left to visit, the subtree was taken and nothing else. -/
theorem done (splitting : Splitting base start [] infos) : Cut (base.Under start) base infos where
  absent := by
    intro key under
    induction under with
    | self => exact splitting.top.resolve_left not_mem_nil
    | child _ found mem ih => exact (splitting.frontier _ _ _ found mem ih).resolve_left not_mem_nil
  kept := by
    intro key here
    rcases splitting.cut key with none | same
    · by_contra other
      exact here (splitting.under key (.inr ⟨none, fun baseNone => other (none.trans baseNone.symm)⟩))
    · exact same

end Splitting

theorem splitNodes_ok (linked : base.Linked) (children : ∀ key info, base.lookup key = some info → info.children.Nodup)
    (turns split) (enough : infos.entries.length ≤ turns) (splitting : Splitting base start toVisit infos) :
    ∃ rest taken, splitNodes turns toVisit infos split = .ok (rest, taken) ∧
      Cut (base.Under start) base rest := by
  induction turns generalizing toVisit infos split with
  | zero =>
    cases toVisit with
    | nil => exact ⟨infos, split, rfl, splitting.done⟩
    | cons current toVisit =>
      obtain ⟨info, found⟩ := splitting.present current mem_cons_self
      have fewer := length_erase found
      omega
  | succ turns ih =>
    cases toVisit with
    | nil => exact ⟨infos, split, rfl, splitting.done⟩
    | cons current toVisit =>
      obtain ⟨info, found⟩ := splitting.present current mem_cons_self
      have fewer := length_erase found
      have nodup := children current info (splitting.base_lookup found)
      obtain ⟨rest, taken, succeeded, cut⟩ :=
        ih (split.insert current info) (by omega) (splitting.turn linked nodup found)
      refine ⟨rest, taken, ?_, cut⟩
      simp only [splitNodes, found, okOr]
      exact succeeded

/-! ### What is left -/

/-- A tree in which a block was taken from the children of its parent. -/
structure Unlinked (key : SlotHashKey) (infos base : ForkInfos) : Prop where
  before : ∀ other info, base.lookup other = some info → ∃ old, infos.lookup other = some old ∧
    info.parent = old.parent ∧ info.children = old.children.erase key
  after : ∀ other old, infos.lookup other = some old → ∃ info, base.lookup other = some info ∧
    info.parent = old.parent ∧ info.children = old.children.erase key

variable {ancestry : Ancestry} {root parent : SlotHashKey}

theorem Shape.unlinked (shape : infos.Shape ancestry root) (knows : infos.parent key = some parent)
    (found : infos.lookup parent = some parentInfo)
    (same : SameLinks (infos.insert parent { parentInfo with children := parentInfo.children.erase key }) base) :
    Unlinked key infos base := by
  have unaffected : ∀ other old, other ≠ parent → infos.lookup other = some old →
      old.children.erase key = old.children := by
    intro other old different foundOther
    apply erase_of_not_mem
    intro mem
    obtain ⟨keyInfo, foundKey, knowsOther⟩ := shape.linked.child other old foundOther key mem
    have twice := knows.symm.trans (parent_eq_some.mpr ⟨keyInfo, foundKey, knowsOther⟩)
    rw [some.injEq] at twice
    exact different twice.symm
  constructor
  case before =>
    intro other info foundOther
    obtain ⟨old, foundOld, parents, children⟩ := same.lookup foundOther
    rcases lookup_insert_eq_some.mp foundOld with ⟨rfl, rfl⟩ | ⟨different, foundOld⟩
    · exact ⟨parentInfo, found, parents, children⟩
    · exact ⟨old, foundOld, parents, children.trans (unaffected other old different foundOld).symm⟩
  case after =>
    intro other old foundOld
    by_cases isParent : other = parent
    · subst isParent
      cases found.symm.trans foundOld
      obtain ⟨info, foundInfo, parents, children⟩ := same.symm.lookup (lookup_insert _)
      exact ⟨info, foundInfo, parents.symm, children.symm⟩
    · rw [unaffected other old isParent foundOld]
      obtain ⟨info, foundInfo, parents, children⟩ := same.symm.lookup ((lookup_insert_ne isParent).trans foundOld)
      exact ⟨info, foundInfo, parents.symm, children.symm⟩

theorem Unlinked.orphan (unlinked : Unlinked key infos base) (shape : infos.Shape ancestry root) (other info)
    (found : base.lookup other = some info) : key ∉ info.children := by
  obtain ⟨old, foundOld, -, children⟩ := unlinked.before other info found
  rw [children]
  exact (shape.nodup other old foundOld).not_mem_erase

theorem Unlinked.children_left (unlinked : Unlinked key infos base) (shape : infos.Shape ancestry root)
    (linked : base.Linked) (found : base.lookup other = some info) (here : ¬ base.Under key other)
    (mem : child ∈ info.children) : ¬ base.Under key child := by
  intro under
  rcases under.parent linked (linked.parent_child found mem) with rfl | underOther
  · exact unlinked.orphan shape other info found mem
  · exact here underOther

theorem Shape.split (shape : infos.Shape ancestry root) (unlinked : Unlinked key infos base) (linked : base.Linked)
    (notRoot : root ≠ key) (cut : Cut (base.Under key) base rest) : Shape ancestry rest root := by
  constructor
  case linked =>
    constructor
    case child =>
      intro other info found child mem
      obtain ⟨here, foundBase⟩ := cut.lookup found
      obtain ⟨childInfo, foundChild, knows⟩ := linked.child other info foundBase child mem
      have childHere := unlinked.children_left shape linked foundBase here mem
      exact ⟨childInfo, (cut.kept child childHere).trans foundChild, knows⟩
    case older =>
      intro other info above found knows
      exact linked.older other info above (cut.lookup found).2 knows
  case nodup =>
    intro other info found
    obtain ⟨old, foundOld, -, children⟩ := unlinked.before other info (cut.lookup found).2
    exact children ▸ (shape.nodup other old foundOld).erase key
  case parent =>
    intro other info above found knows
    obtain ⟨here, foundBase⟩ := cut.lookup found
    obtain ⟨old, foundOld, parents, -⟩ := unlinked.before other info foundBase
    obtain ⟨known, oldAbove, foundAbove, mem⟩ := shape.parent other old above foundOld (parents ▸ knows)
    obtain ⟨aboveInfo, foundAboveBase, -, children⟩ := unlinked.after above oldAbove foundAbove
    have notKey : other ≠ key := fun same => here (same ▸ .self)
    have stillMember : other ∈ aboveInfo.children := children ▸ (mem_erase_of_ne notKey).mpr mem
    have aboveHere : ¬ base.Under key above := fun under => here (.child under foundAboveBase stillMember)
    exact ⟨known, aboveInfo, (cut.kept above aboveHere).trans foundAboveBase, stillMember⟩
  case rooted =>
    obtain ⟨oldRoot, foundRoot⟩ := shape.rooted
    obtain ⟨rootInfo, foundBase, parents, -⟩ := unlinked.after root oldRoot foundRoot
    refine ⟨rootInfo, (cut.kept root ?_).trans foundBase⟩
    intro under
    cases under with
    | self => exact notRoot rfl
    | child _ found mem =>
      obtain ⟨_, foundTwice, knows⟩ := linked.child _ _ found _ mem
      cases foundBase.symm.trans foundTwice
      rw [parents, (shape.top root oldRoot foundRoot).mpr rfl] at knows
      cases knows
  case top =>
    intro other info found
    obtain ⟨old, foundOld, parents, -⟩ := unlinked.before other info (cut.lookup found).2
    rw [parents]
    exact shape.top other old foundOld

end ForkInfos

namespace HeaviestSubtreeForkChoice

open ForkInfos

variable {ancestry : Ancestry} {stake : Pubkey → Nat → Nat} {key parent : SlotHashKey}

/-- The blocks below the subtree are scheduled, and they are all that is unsettled without it. -/
theorem unlink_pending {unlinked : ForkInfos} (sound : Sound ancestry stake tree)
    (knows : tree.forkInfos.parent key = some parent)
    (found : tree.forkInfos.lookup parent = some parentInfo) (unlinks : unlinked =
      tree.forkInfos.insert parent { parentInfo with children := parentInfo.children.erase key }) :
    Pending unlinked (tree.forkInfos.insertAggregateOperations .empty key).entries.reverse ∧
      Accounted (tally stake tree.latestVotes) unlinked
        (tree.forkInfos.insertAggregateOperations .empty key).entries.reverse := by
  have linked := sound.shape.linked
  have start : ScheduleBut (· = key) tree.forkInfos .empty := ⟨nofun, nofun, nofun⟩
  obtain ⟨schedule, extended, scheduled⟩ := insertAggregateOperations_schedule linked start
  have aggregates : ∀ entry ∈ (tree.forkInfos.insertAggregateOperations .empty key).entries,
      ∃ other, entry = Entry.aggregate other :=
    fun entry mem => (extended.added entry mem).resolve_left not_mem_nil
  have parentScheduled := scheduled parent knows
  -- Every block is as before, but for the children of the parent.
  have before : ∀ other info, unlinked.lookup other = some info →
      ∃ old, tree.forkInfos.lookup other = some old ∧ info.stakeVotedAt = old.stakeVotedAt := by
    intro other info foundOther
    rw [unlinks] at foundOther
    rcases lookup_insert_eq_some.mp foundOther with ⟨rfl, rfl⟩ | ⟨-, foundOther⟩
    · exact ⟨parentInfo, found, rfl⟩
    · exact ⟨info, foundOther, rfl⟩
  constructor
  · have same : ∀ other, unlinked.parent other = tree.forkInfos.parent other :=
      fun other => unlinks ▸ parent_write found rfl
    subst unlinks
    refine ScheduleBut.pending ⟨schedule.labelled, schedule.marks, ?_⟩
      (linked.write found rfl fun child => mem_of_mem_erase) ?_ ?_ ?_
    · intro entry mem open' above knowsAbove
      rw [same] at knowsAbove
      exact schedule.parents entry mem open' above knowsAbove
    · intro other info foundOther
      rcases lookup_insert_eq_some.mp foundOther with ⟨rfl, rfl⟩ | ⟨-, foundOther⟩
      · exact .inr parentScheduled
      · by_cases isParent : tree.forkInfos.parent parent = some other
        · exact .inr (schedule.parents _ parentScheduled id other isParent)
        · exact .inl ((sound.settled other info foundOther).write linked foundOther isParent)
    · intro other info foundOther
      obtain ⟨old, foundOld, sameAt⟩ := before other info foundOther
      rw [sameAt]
      exact sound.small other old foundOld
    · intro entry mem slot info invalidates _
      obtain ⟨_, rfl⟩ := aggregates _ mem
      cases invalidates
  · apply accounted_of_noStakes
    · intro other info foundOther
      obtain ⟨old, foundOld, sameAt⟩ := before other info foundOther
      rw [sameAt]
      exact sound.counted other old foundOld
    · intro entry mem
      obtain ⟨_, rfl⟩ := aggregates _ mem
      rfl

theorem tally_retainVotes (found : infos.lookup key = some info) :
    tally stake (retainVotes votes infos) key = tally stake votes key := by
  apply total_retain
  intro pubkey vote _ dropped
  rw [if_neg]
  rintro rfl
  rw [found] at dropped
  cases dropped

theorem splitOff_sound (sound : Sound ancestry stake tree) (notRoot : tree.treeRoot ≠ key)
    (found : tree.forkInfos.lookup key = some node) :
    ∃ rest split, tree.splitOff key = .ok (rest, split) ∧ Sound ancestry stake rest := by
  -- The block hangs under its parent.
  obtain ⟨parent, knows⟩ : ∃ parent, node.parent = some parent := by
    cases knows : node.parent with
    | none => exact absurd ((sound.shape.top key node found).mp knows).symm notRoot
    | some parent => exact ⟨parent, rfl⟩
  obtain ⟨-, parentInfo, foundParent, mem⟩ := sound.shape.parent key node parent found knows
  have knowsParent := parent_eq_some.mpr ⟨node, found, knows⟩
  -- The rest is settled without the subtree.
  obtain ⟨pending, accounted⟩ := unlink_pending sound knowsParent foundParent rfl
  obtain ⟨base, processed, linked, same, values, -⟩ := pending.finish (P := fun _ _ => True) accounted trivial
    (fun _ _ _ _ _ _ => trivial) (fun _ _ _ _ _ _ _ _ _ => trivial)
  have unlinked := sound.shape.unlinked knowsParent foundParent same
  -- The subtree is taken out.
  obtain ⟨keyInfo, foundKey, -⟩ := unlinked.after key node found
  have nodup : ∀ other info, base.lookup other = some info → info.children.Nodup := by
    intro other info foundOther
    obtain ⟨old, foundOld, -, children⟩ := unlinked.before other info foundOther
    exact children ▸ (sound.shape.nodup other old foundOld).erase key
  obtain ⟨rest, taken, walked, cut⟩ := splitNodes_ok linked nodup base.entries.length ∅ le_rfl
    (Splitting.begin linked foundKey (unlinked.orphan sound.shape))
  obtain ⟨parentBase, foundBase, -⟩ := unlinked.after parent parentInfo foundParent
  have parentHere : ¬ base.Under key parent := by
    intro under
    have le := under.slot_le linked
    have older := sound.shape.linked.older key node parent found knows
    omega
  have foundRest : rest.lookup parent = some parentBase := (cut.kept parent parentHere).trans foundBase
  have again : { parentBase with children := parentBase.children.erase key } = parentBase := by
    rw [erase_of_not_mem (unlinked.orphan sound.shape parent parentBase foundBase)]
  have cutAgain : Cut (base.Under key) base (rest.insert parent parentBase) := by
    have unchanged : ∀ other, (rest.insert parent parentBase).lookup other = rest.lookup other := by
      intro other
      rw [lookup_insert_eq_ite]
      split
      · rename_i isParent
        rw [isParent, foundRest]
      · rfl
    exact ⟨fun other gone => (unchanged other).trans (cut.absent other gone),
      fun other here => (unchanged other).trans (cut.kept other here)⟩
  have shape := sound.shape.split unlinked linked notRoot cutAgain
  refine ⟨{ tree with
      forkInfos := rest.insert parent parentBase
      latestVotes := retainVotes tree.latestVotes (rest.insert parent parentBase) },
    { forkInfos := taken.insert key { node with parent := none }
      latestVotes := retainVotes tree.latestVotes (taken.insert key { node with parent := none })
      treeRoot := key }, ?_, ?_⟩
  · simp only [splitOff, ok_iffs, Prod.exists]
    refine ⟨notRoot, node, found, parent, knows, parentInfo, foundParent, mem, base, processed,
      rest, taken, walked, parentBase, foundRest, ?_⟩
    rw [again]
  constructor
  case shape => exact shape
  case settled =>
    intro other info foundOther
    obtain ⟨here, foundOther⟩ := cutAgain.lookup foundOther
    refine (values other info foundOther).1.congr fun child mem => cutAgain.kept child ?_
    exact unlinked.children_left sound.shape linked foundOther here mem
  case counted =>
    intro other info foundOther
    rw [tally_retainVotes foundOther]
    exact (values other info (cutAgain.lookup foundOther).2).2
  case dropped =>
    intro pubkey vote voted gone
    obtain ⟨-, present⟩ := lookup_retain_eq_some.mp voted
    rw [gone] at present
    cases present

end HeaviestSubtreeForkChoice

end Payout.ForkChoice
