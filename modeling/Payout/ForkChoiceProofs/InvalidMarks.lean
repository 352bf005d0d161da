/-
Purpose: Runs of marks. A block carries the slot of its latest ancestor that was marked invalid and has not been
  duplicate confirmed since, exactly as long as no block is confirmed of which another branch carries the mark.
-/
import Payout.ForkChoiceProofs.Invariants

namespace Payout.ForkChoice

open Lib List Function Option Set

variable {tree : HeaviestSubtreeForkChoice}

/-! ### A tree and its marks -/

/-- A call that adds or marks a block. -/
inductive MarkCall where
  | addNewLeafSlot (key parent : SlotHashKey)
  | markForkInvalidCandidate (key : SlotHashKey)
  | markForkValidCandidate (key : SlotHashKey)
deriving Repr, DecidableEq

/-- A tree, and the blocks that were marked invalid and have not been duplicate confirmed since. -/
structure MarkedTree where
  tree : HeaviestSubtreeForkChoice
  marked : List SlotHashKey

namespace MarkedTree

open ForkInfos HeaviestSubtreeForkChoice

/-- Marking a block valid confirms it and all its ancestors. -/
def step : MarkCall → MarkedTree → Except Panic MarkedTree
  | .addNewLeafSlot key parent, state =>
    (state.tree.addNewLeafSlot key (some parent)).map fun tree => { state with tree := tree }
  | .markForkInvalidCandidate key, state =>
    (state.tree.markForkInvalidCandidate key).map fun tree =>
      { tree := tree
        marked := if (state.tree.forkInfos.lookup key).isSome then key :: state.marked else state.marked }
  | .markForkValidCandidate key, state =>
    (state.tree.markForkValidCandidate key).map fun result =>
      { tree := result.1
        marked := state.marked.filter fun node => node ∉ state.tree.forkInfos.pathTo key }

/-- A block is newer than its parent. -/
def Newer : MarkCall → Prop
  | .addNewLeafSlot key parent => parent.slot < key.slot
  | _ => True

instance (call : MarkCall) : Decidable (Newer call) := by
  unfold Newer
  split <;> infer_instance

/-- Every block carries the slot of the latest marked block on its path, and is a candidate if there is none. -/
def Exact (state : MarkedTree) : Prop :=
  ∀ key info, state.tree.forkInfos.lookup key = some info →
    (∀ slot, info.latestInvalidAncestor = some slot ↔ IsGreatest
      { slot | ∃ node ∈ state.tree.forkInfos.pathTo key, node ∈ state.marked ∧ node.slot = slot } slot) ∧
    (info.isCandidate = false ↔ ∃ node ∈ state.tree.forkInfos.pathTo key, node ∈ state.marked)

/-- No block that is on another branch than the valid one has an ancestor of it as its latest invalid ancestor. -/
def LeavesNoMark (state : MarkedTree) : MarkCall → Prop
  | .markForkValidCandidate valid => Store.All (fun key info =>
    valid ∉ state.tree.forkInfos.pathTo key → key ∉ state.tree.forkInfos.pathTo valid →
    ∀ node ∈ state.tree.forkInfos.pathTo valid, node ∈ state.tree.forkInfos.pathTo key →
      info.latestInvalidAncestor ≠ some node.slot) state.tree.forkInfos
  | _ => True

instance (state : MarkedTree) (call : MarkCall) : Decidable (LeavesNoMark state call) := by
  unfold LeavesNoMark
  split <;> infer_instance

/-- The slots of the marked blocks below a block. -/
def slots (infos : ForkInfos) (marked : List SlotHashKey) (key : SlotHashKey) : Set Nat :=
  { slot | ∃ node ∈ marked, infos.Under node key ∧ node.slot = slot }

/-- What holds whatever is marked. -/
structure Tidy (state : MarkedTree) : Prop where
  noVotes : state.tree.latestVotes = ∅
  sound : ∃ ancestry, Sound ancestry (fun _ _ => 0) state.tree
  root : state.tree.forkInfos.Confirmed state.tree.treeRoot
  marked : ∀ node ∈ state.marked, node ≠ state.tree.treeRoot ∧
    ∃ info, state.tree.forkInfos.lookup node = some info

variable {state state' : MarkedTree} {ancestry : Ancestry} {root key node parent valid : SlotHashKey}
  {infos : ForkInfos} {info parentInfo : ForkInfo} {marked : List SlotHashKey} {call : MarkCall}

/-- The marks are exact if every block has the latest of the marks below it. -/
theorem exact_iff (shape : state.tree.forkInfos.Shape ancestry root) :
    state.Exact ↔ ∀ key info, state.tree.forkInfos.lookup key = some info →
      Latest (slots state.tree.forkInfos state.marked key) info.latestInvalidAncestor := by
  have isSlots : ∀ key, { slot | ∃ node ∈ state.tree.forkInfos.pathTo key, node ∈ state.marked ∧ node.slot = slot } =
      slots state.tree.forkInfos state.marked key := by
    intro key
    ext slot
    simp only [slots, mem_ofPred_eq, mem_pathTo_iff shape]
    exact exists_congr fun node => and_left_comm
  have isMarked : ∀ key, (∃ node ∈ state.tree.forkInfos.pathTo key, node ∈ state.marked) ↔
      (slots state.tree.forkInfos state.marked key).Nonempty := by
    intro key
    rw [← isSlots]
    constructor
    · rintro ⟨node, onPath, isMarked⟩
      exact ⟨node.slot, node, onPath, isMarked, rfl⟩
    · rintro ⟨slot, node, onPath, isMarked, -⟩
      exact ⟨node, onPath, isMarked⟩
  simp only [Exact, isSlots, isMarked, ForkInfo.isCandidate]
  refine forall_congr' fun key => forall_congr' fun info => forall_congr' fun found => ?_
  exact ⟨fun both => .of_iff both.1 both.2, fun latest => ⟨latest.eq_some_iff, latest.isNone_eq_false_iff⟩⟩

theorem SameLinks.slots (same : SameLinks infos infos') (marked key) :
    slots infos' marked key = slots infos marked key := by
  simp only [MarkedTree.slots, same.under_iff]

/-! ### New leaves -/

/-- A block gets a parent. -/
def hang (ancestry : Ancestry) (key parent : SlotHashKey) (newer : parent.slot < key.slot) : Ancestry where
  parent := update ancestry.parent key (some parent)
  older := by
    intro other above known
    by_cases same : other = key
    · subst same
      rw [update_self, some.injEq] at known
      exact known ▸ newer
    · rw [update_of_ne same] at known
      exact ancestry.older other above known

/-- Without votes, nothing is said of a block that is not in the tree. -/
theorem hang_sound (sound : Sound ancestry stake tree) (noVotes : tree.latestVotes = ∅)
    (absent : tree.forkInfos.lookup key = none) (newer : parent.slot < key.slot) :
    Sound (hang ancestry key parent newer) stake tree where
  shape :=
    { sound.shape with
      parent := by
        intro other info above found knows
        obtain ⟨known, rest⟩ := sound.shape.parent other info above found knows
        have differs : other ≠ key := by
          rintro rfl
          cases absent.symm.trans found
        exact ⟨(update_of_ne differs _ _).trans known, rest⟩ }
  settled := sound.settled
  counted := sound.counted
  dropped := by
    intro pubkey vote voted
    rw [noVotes, AList.lookup_empty] at voted
    cases voted

/-- What adding a leaf does to marks: it has that of its parent, and the others keep theirs. -/
structure Added (before after : ForkInfos) (leaf parent : SlotHashKey) : Prop where
  stays : ∀ key, before.Confirmed key → after.Confirmed key
  present : ∀ key info, before.lookup key = some info → ∃ info', after.lookup key = some info'
  others : ∀ key info, after.lookup key = some info → key ≠ leaf → ∃ old, before.lookup key = some old ∧
    info.latestInvalidAncestor = old.latestInvalidAncestor ∧ ∀ node, after.Under node key ↔ before.Under node key
  leaf : ∀ info, after.lookup leaf = some info → ∃ old, before.lookup parent = some old ∧
    info.latestInvalidAncestor = old.latestInvalidAncestor ∧
    ∀ node, after.Under node leaf ↔ node = leaf ∨ before.Under node parent

theorem grown_under_iff (leaf : NewLeaf ancestry infos root key parent parentInfo) (differs : other ≠ key) :
    Under (grown infos key parent parentInfo) node other ↔ infos.Under node other := by
  constructor
  · intro under
    induction under with
    | self => exact .self
    | child _ found mem ih =>
      rcases grown_cases found with ⟨-, rfl⟩ | ⟨rfl, rfl⟩ | ⟨notLeaf, -, foundOld⟩
      · cases mem
      · exact .child (ih leaf.different) leaf.found ((mem_insertChild.mp mem).resolve_left differs)
      · exact .child (ih notLeaf) foundOld mem
  · intro under
    clear differs
    induction under with
    | self => exact .self
    | child _ found mem ih =>
      obtain ⟨_, foundNew, -, children, -⟩ := leaf.before found
      exact .child ih foundNew (children _ mem)

theorem grown_under_leaf_iff (leaf : NewLeaf ancestry infos root key parent parentInfo) :
    Under (grown infos key parent parentInfo) node key ↔ node = key ∨ infos.Under node parent := by
  rw [under_iff_parent leaf.shape_grown]
  have knows : ForkInfos.parent (grown infos key parent parentInfo) key = some parent :=
    parent_eq_some.mpr ⟨_, leaf.grown_leaf, rfl⟩
  rw [knows]
  simp only [some.injEq, exists_eq_left', grown_under_iff leaf leaf.different]

theorem addNewLeafSlot_added (sound : Sound ancestry stake tree)
    (absent : tree.forkInfos.lookup key = none) (found : tree.forkInfos.lookup parent = some parentInfo)
    (known : ancestry.parent key = some parent) :
    ∃ infos, tree.addNewLeafSlot key (some parent) = .ok { tree with forkInfos := infos } ∧
      Added tree.forkInfos infos key parent := by
  have leaf : NewLeaf ancestry tree.forkInfos tree.treeRoot key parent parentInfo :=
    ⟨sound.shape, absent, found, known⟩
  obtain ⟨infos, propagated, same, values⟩ := leaf.propagateNewLeaf_ok sound.settled
  have present : ∀ other old, tree.forkInfos.lookup other = some old → ∃ info, infos.lookup other = some info ∧
      info.isDuplicateConfirmed = old.isDuplicateConfirmed := by
    intro other old foundOld
    obtain ⟨_, foundGrown, -, -, -, -, -, -, confirmed⟩ := leaf.before foundOld
    obtain ⟨info, foundNew, -⟩ := same.symm.lookup foundGrown
    obtain ⟨-, _, foundAgain, -, -, sameConfirmed⟩ := values other info foundNew
    cases foundGrown.symm.trans foundAgain
    exact ⟨info, foundNew, sameConfirmed.trans confirmed⟩
  refine ⟨infos, ?_, ?_, ?_, ?_, ?_⟩
  · rw [addNewLeafSlot_eq absent found leaf.different, propagated]
    rfl
  · rintro other ⟨old, foundOld, confirmed⟩
    obtain ⟨info, foundNew, sameConfirmed⟩ := present other old foundOld
    exact ⟨info, foundNew, sameConfirmed.trans confirmed⟩
  · intro other old foundOld
    obtain ⟨info, foundNew, -⟩ := present other old foundOld
    exact ⟨info, foundNew⟩
  · intro other info foundNew differs
    obtain ⟨-, old, foundGrown, -, latest, -⟩ := values other info foundNew
    have under : ∀ node, infos.Under node other ↔ tree.forkInfos.Under node other :=
      fun node => same.under_iff.trans (grown_under_iff leaf differs)
    rcases grown_cases foundGrown with ⟨isLeaf, -⟩ | ⟨rfl, rfl⟩ | ⟨-, -, foundOld⟩
    · exact absurd isLeaf differs
    · exact ⟨parentInfo, found, latest, under⟩
    · exact ⟨old, foundOld, latest, under⟩
  · intro info foundNew
    obtain ⟨-, _, foundGrown, -, latest, -⟩ := values key info foundNew
    cases leaf.grown_leaf.symm.trans foundGrown
    exact ⟨parentInfo, found, latest, fun node => same.under_iff.trans (grown_under_leaf_iff leaf)⟩

/-! ### One step -/

theorem addNewLeafSlot_exact (tidy : state.Tidy) (newer : parent.slot < key.slot)
    (taken : step (.addNewLeafSlot key parent) state = .ok state') : state'.Tidy ∧ (state.Exact → state'.Exact) := by
  obtain ⟨ancestry, sound⟩ := tidy.sound
  obtain ⟨tree, added, rfl⟩ := map_eq_ok_iff.mp taken
  cases absent : state.tree.forkInfos.lookup key with
  | some =>
    simp only [addNewLeafSlot, absent, Except.ok.injEq] at added
    subst added
    exact ⟨tidy, id⟩
  | none =>
    cases found : state.tree.forkInfos.lookup parent with
    | none =>
      have different : parent ≠ key := fun same => lt_irrefl _ (same ▸ newer)
      simp only [addNewLeafSlot, absent, AList.lookup_insert_ne different, found, okOr, bind, Except.bind] at added
      cases added
    | some =>
      have sound' := hang_sound sound tidy.noVotes absent newer
      have known : (hang ancestry key parent newer).parent key = some parent := update_self ..
      obtain ⟨_, nextOk, nextSound⟩ := addNewLeafSlot_sound sound' found known
      obtain ⟨infos, infosOk, grows⟩ := addNewLeafSlot_added sound' absent found known
      cases nextOk.symm.trans added
      cases infosOk.symm.trans added
      constructor
      · refine ⟨tidy.noVotes, ⟨_, nextSound⟩, grows.stays _ tidy.root, ?_⟩
        intro node marked
        obtain ⟨notRoot, info, foundNode⟩ := tidy.marked node marked
        exact ⟨notRoot, grows.present node info foundNode⟩
      · rw [exact_iff sound.shape, exact_iff nextSound.shape]
        intro exact' other info foundNew
        by_cases isLeaf : other = key
        · subst isLeaf
          obtain ⟨old, foundOld, latest, under⟩ := grows.leaf info foundNew
          have same : slots infos state.marked other = slots state.tree.forkInfos state.marked parent := by
            ext slot
            refine exists_congr fun node => and_congr_right fun marked => and_congr_left fun _ => ?_
            rw [under, or_iff_right]
            rintro rfl
            obtain ⟨-, _, foundNode⟩ := tidy.marked node marked
            cases absent.symm.trans foundNode
          rw [latest, same]
          exact exact' parent old foundOld
        · obtain ⟨old, foundOld, latest, under⟩ := grows.others other info foundNew isLeaf
          have same : slots infos state.marked other = slots state.tree.forkInfos state.marked other := by
            simp only [slots, under]
          rw [latest, same]
          exact exact' other old foundOld

theorem isBlock_of_ne_root (sound : Sound ancestry (fun _ _ => 0) state.tree) (notRoot : key ≠ state.tree.treeRoot)
    (found : state.tree.forkInfos.lookup key = some info) : key ≠ .default := by
  rintro rfl
  cases knows : info.parent with
  | none => exact notRoot ((sound.shape.top _ info found).mp knows)
  | some above => exact absurd (sound.shape.linked.older _ info above found knows) (Nat.not_lt_zero _)

theorem markForkInvalidCandidate_exact (tidy : state.Tidy)
    (taken : step (.markForkInvalidCandidate key) state = .ok state') :
    state'.Tidy ∧ (state.Exact → state'.Exact) := by
  obtain ⟨ancestry, sound⟩ := tidy.sound
  obtain ⟨tree, marks, rfl⟩ := map_eq_ok_iff.mp taken
  cases found : state.tree.forkInfos.lookup key with
  | none =>
    simp only [markForkInvalidCandidate, found, Except.ok.injEq] at marks
    subst marks
    exact ⟨tidy, id⟩
  | some info =>
    rw [isSome_some, if_pos rfl]
    have unconfirmed : ¬ state.tree.forkInfos.Confirmed key := by
      simp only [markForkInvalidCandidate, found, ok_iffs] at marks
      rw [confirmed_iff found]
      exact marks.1
    have notRoot : key ≠ state.tree.treeRoot := by
      rintro rfl
      exact unconfirmed tidy.root
    obtain ⟨infos, infosOk, sound', invalidated⟩ :=
      markForkInvalidCandidate_marks sound found unconfirmed (isBlock_of_ne_root sound notRoot found)
    cases infosOk.symm.trans marks
    have present : ∀ other old, state.tree.forkInfos.lookup other = some old →
        ∃ info, infos.lookup other = some info := by
      intro other old foundOld
      obtain ⟨new, foundNew, -⟩ := invalidated.same.symm.lookup foundOld
      exact ⟨new, foundNew⟩
    constructor
    · refine ⟨tidy.noVotes, ⟨ancestry, sound'⟩, invalidated.stays _ tidy.root, ?_⟩
      refine forall_mem_cons.mpr ⟨⟨notRoot, present key info found⟩, ?_⟩
      intro node marked
      obtain ⟨nodeNotRoot, old, foundOld⟩ := tidy.marked node marked
      exact ⟨nodeNotRoot, present node old foundOld⟩
    · rw [exact_iff sound.shape, exact_iff sound'.shape]
      intro exact' other new foundNew
      obtain ⟨old, foundOld, -⟩ := invalidated.same.lookup foundNew
      rw [SameLinks.slots invalidated.same]
      by_cases within : state.tree.forkInfos.Under key other
      · have more : slots state.tree.forkInfos (key :: state.marked) other =
            insert key.slot (slots state.tree.forkInfos state.marked other) := by
          ext slot
          simp only [slots, mem_cons, or_and_right, exists_or, exists_eq_left, within, true_and,
            mem_insert_iff, mem_ofPred_eq]
          rw [eq_comm]
        rw [invalidated.within other new old foundNew foundOld within, more]
        exact (exact' other old foundOld).insert key.slot
      · have same : slots state.tree.forkInfos (key :: state.marked) other =
            slots state.tree.forkInfos state.marked other := by
          ext slot
          simp only [slots, mem_cons, or_and_right, exists_or, exists_eq_left, within, false_and, false_or,
            mem_ofPred_eq]
        rw [invalidated.outside other new old foundNew foundOld within, same]
        exact exact' other old foundOld

/-- The marks that are left when a block is confirmed with its ancestors. -/
theorem slots_confirmed (shape : infos.Shape ancestry root) :
    slots infos (marked.filter fun node => node ∉ infos.pathTo valid) key =
      { slot | ∃ node ∈ marked, ¬ infos.Under node valid ∧ infos.Under node key ∧ node.slot = slot } := by
  ext slot
  simp only [slots, mem_filter, decide_eq_true_eq, mem_pathTo_iff shape, mem_ofPred_eq, and_assoc]

/-- In the subtree of the block that is confirmed, the marks above it are left. -/
theorem slots_confirmed_within (shape : infos.Shape ancestry root) (within : infos.Under valid key) :
    slots infos (marked.filter fun node => node ∉ infos.pathTo valid) key =
      { slot | slot ∈ slots infos marked key ∧ valid.slot < slot } := by
  rw [slots_confirmed shape]
  ext slot
  constructor
  · rintro ⟨node, isMarked, notBelow, under, rfl⟩
    refine ⟨⟨node, isMarked, under, rfl⟩, ?_⟩
    rcases under.comparable shape.linked within with below | above
    · exact absurd below notBelow
    · refine lt_of_le_of_ne (above.slot_le shape.linked) fun same => notBelow ?_
      rw [within.eq_of_slot shape.linked under same]
      exact .self
  · rintro ⟨⟨node, isMarked, under, rfl⟩, less⟩
    refine ⟨node, isMarked, ?_, under, rfl⟩
    intro below
    have le := below.slot_le shape.linked
    omega

/-- In the subtree of the block that is marked valid, the marks are exact. -/
theorem within_exact (tidy : state.Tidy) (sound : Sound ancestry (fun _ _ => 0) state.tree)
    (exact' : Latest (slots state.tree.forkInfos state.marked key) latest) :
    Latest { slot | slot ∈ slots state.tree.forkInfos state.marked key ∧ valid.slot < slot }
      (if valid = .default then latest else UpdateOperation.remark (.markValid valid.slot) latest) := by
  split
  · -- The block is the root, which was never marked, so all marks are above it.
    rename_i isFirst
    refine exact'.subset (fun slot mem => mem.1) ?_
    rintro slot rfl
    refine ⟨exact'.1, ?_⟩
    obtain ⟨node, isMarked, -, rfl⟩ := exact'.1
    obtain ⟨notRoot, nodeInfo, foundNode⟩ := tidy.marked node isMarked
    cases knows : nodeInfo.parent with
    | none => exact absurd ((sound.shape.top _ nodeInfo foundNode).mp knows) notRoot
    | some above =>
      have older := sound.shape.linked.older _ nodeInfo above foundNode knows
      rw [isFirst]
      exact Nat.zero_lt_of_lt older
  · exact exact'.above valid.slot

/-- On another branch, the marks are exact if the latest one is not on the path of the block that is confirmed. -/
theorem outside_exact_iff (shape : infos.Shape ancestry root) (exact' : Latest (slots infos marked key) latest) :
    Latest (slots infos (marked.filter fun node => node ∉ infos.pathTo valid) key) latest ↔
      ∀ node, infos.Under node valid → infos.Under node key → latest ≠ some node.slot := by
  rw [slots_confirmed shape]
  constructor
  · rintro after node below under rfl
    obtain ⟨_, -, notBelow, underOther, same⟩ := after.1
    rw [underOther.eq_of_slot shape.linked under same] at notBelow
    exact notBelow below
  · intro apart
    refine exact'.subset ?_ ?_
    · rintro slot ⟨node, isMarked, -, under, isSlot⟩
      exact ⟨node, isMarked, under, isSlot⟩
    · rintro slot rfl
      obtain ⟨node, isMarked, under, rfl⟩ := exact'.1
      exact ⟨node, isMarked, fun below => apart node below under rfl, under, rfl⟩

/-- Marking a block valid keeps the marks exact if it leaves no mark behind. -/
theorem markForkValidCandidate_exact (tidy : state.Tidy)
    (taken : step (.markForkValidCandidate valid) state = .ok state') :
    state'.Tidy ∧ (state.Exact → (state'.Exact ↔ state.LeavesNoMark (.markForkValidCandidate valid))) := by
  obtain ⟨ancestry, sound⟩ := tidy.sound
  obtain ⟨⟨tree, _⟩, marks, rfl⟩ := map_eq_ok_iff.mp taken
  obtain ⟨info, found⟩ : ∃ info, state.tree.forkInfos.lookup valid = some info := by
    simp only [markForkValidCandidate, bind_ok_iff] at marks
    obtain ⟨path, looked, -⟩ := marks
    obtain ⟨info, found⟩ := exists_mapM_ok_iff.mp ⟨path, looked⟩ valid mem_cons_self
    exact ⟨info, okOr_eq_ok.mp found⟩
  have first : valid = .default → state.tree.forkInfos.Confirmed valid := by
    intro isFirst
    by_cases isRoot : valid = state.tree.treeRoot
    · exact isRoot ▸ tidy.root
    · exact absurd isFirst (isBlock_of_ne_root sound isRoot found)
  obtain ⟨_, _, infosOk, sound', validated⟩ := markForkValidCandidate_marks sound found first
  cases infosOk.symm.trans marks
  constructor
  · refine ⟨tidy.noVotes, ⟨ancestry, sound'⟩, validated.stays _ tidy.root, ?_⟩
    intro node marked
    obtain ⟨notRoot, _, foundOld⟩ := tidy.marked node (mem_of_mem_filter marked)
    obtain ⟨new, foundNew, -⟩ := validated.same.symm.lookup foundOld
    exact ⟨notRoot, new, foundNew⟩
  · rw [exact_iff sound.shape, exact_iff sound'.shape]
    intro exact'
    simp only [LeavesNoMark, Store.All, mem_pathTo_iff sound.shape, SameLinks.slots validated.same]
    constructor
    · intro after other old foundOld outside notBelow
      obtain ⟨new, foundNew, -⟩ := validated.same.symm.lookup foundOld
      have latest := after other new foundNew
      rw [validated.outside other new old foundNew foundOld outside notBelow] at latest
      exact (outside_exact_iff sound.shape (exact' other old foundOld)).mp latest
    · intro apart other new foundNew
      obtain ⟨old, foundOld, -⟩ := validated.same.lookup foundNew
      by_cases within : state.tree.forkInfos.Under valid other
      · rw [validated.within other new old foundNew foundOld within, slots_confirmed_within sound.shape within]
        exact within_exact tidy sound (exact' other old foundOld)
      by_cases below : state.tree.forkInfos.Under other valid
      · have different : other ≠ valid := by
          rintro rfl
          exact within .self
        rw [validated.below other new foundNew below different, slots_confirmed sound.shape]
        refine eq_empty_of_forall_notMem ?_
        rintro slot ⟨node, -, notBelow, under, -⟩
        exact notBelow (under.trans below)
      · rw [validated.outside other new old foundNew foundOld within below]
        exact (outside_exact_iff sound.shape (exact' other old foundOld)).mpr (apart other old foundOld within below)

theorem step_tidy (tidy : state.Tidy) (newer : Newer call) (taken : step call state = .ok state') : state'.Tidy := by
  cases call with
  | addNewLeafSlot => exact (addNewLeafSlot_exact tidy newer taken).1
  | markForkInvalidCandidate => exact (markForkInvalidCandidate_exact tidy taken).1
  | markForkValidCandidate => exact (markForkValidCandidate_exact tidy taken).1

theorem step_exact_iff (tidy : state.Tidy) (exact' : state.Exact) (newer : Newer call)
    (taken : step call state = .ok state') : state'.Exact ↔ state.LeavesNoMark call := by
  cases call with
  | addNewLeafSlot => exact iff_of_true ((addNewLeafSlot_exact tidy newer taken).2 exact') trivial
  | markForkInvalidCandidate => exact iff_of_true ((markForkInvalidCandidate_exact tidy taken).2 exact') trivial
  | markForkValidCandidate => exact (markForkValidCandidate_exact tidy taken).2 exact'

/-! ### Runs -/

theorem new_tidy (created : new root = .ok tree) : Tidy { tree := tree, marked := [] } := by
  have sound : Sound ⟨fun _ => none, nofun⟩ (fun _ _ => 0) tree := new_sound created
  cases created
  exact ⟨rfl, ⟨_, sound⟩, ⟨rootInfo root, AList.lookup_insert _, rfl⟩, nofun⟩

theorem new_exact (created : new root = .ok tree) : Exact { tree := tree, marked := [] } := by
  cases created
  intro key info found
  rcases Store.lookup_insert_eq_some.mp found with ⟨rfl, rfl⟩ | ⟨-, none⟩
  · simp [IsGreatest, ForkInfo.isCandidate]
  · cases none

/-- In every run from one block, the marks of all states are exact if and only if no block is marked valid while a
    branch beside it carries the mark of one of its ancestors. -/
theorem marks_exact_iff {tree : HeaviestSubtreeForkChoice} {calls : List MarkCall} {reached : MarkedTree}
    (created : new root = .ok tree)
    (run : Run step (fun _ call => Newer call) { tree := tree, marked := [] } calls reached) :
    (∀ done rest state, calls = done ++ rest →
      Run step (fun _ call => Newer call) { tree := tree, marked := [] } done state → state.Exact) ↔
    ∀ done call rest state, calls = done ++ call :: rest →
      Run step (fun _ call => Newer call) { tree := tree, marked := [] } done state →
        state.LeavesNoMark call :=
  run.always_iff (I := Tidy) (P := Exact) (fun _ _ _ tidy newer => step_tidy tidy newer)
    (fun _ _ _ tidy exact' newer => step_exact_iff tidy exact' newer) (new_tidy created) (new_exact created)

/-! ### Runs with two branches -/

namespace Sample

open HeaviestSubtreeForkChoice.Sample

def start : MarkedTree := { tree := HeaviestSubtreeForkChoice.Sample.start, marked := [] }

/-- Two blocks on top of one that is marked invalid. One of them is marked too, and the other one is confirmed. -/
def bothMarked : List MarkCall :=
  [.addNewLeafSlot (block 1) (block 0), .addNewLeafSlot (block 2) (block 1), .addNewLeafSlot (block 3) (block 1),
    .markForkInvalidCandidate (block 1), .markForkInvalidCandidate (block 3), .markForkValidCandidate (block 2)]

theorem bothMarked_fit :
    (exec step (fun state call => Newer call ∧ state.LeavesNoMark call) bothMarked start).isSome = true := by
  decide +kernel

def bothMarkedReached : MarkedTree :=
  (exec step (fun state call => Newer call ∧ state.LeavesNoMark call) bothMarked start).get bothMarked_fit

/-- The same, but only the block that both are on top of is marked. -/
def oneMarked : List MarkCall :=
  [.addNewLeafSlot (block 1) (block 0), .addNewLeafSlot (block 2) (block 1), .addNewLeafSlot (block 3) (block 1),
    .markForkInvalidCandidate (block 1), .markForkValidCandidate (block 2)]

theorem oneMarked_succeeds : (exec step (fun _ call => Newer call) oneMarked start).isSome = true := by decide +kernel

end Sample

open Sample

/-- The block with a mark of its own keeps it, and the others are rid of theirs. -/
theorem marks_exact_both_marked : bothMarkedReached.Exact ∧
    bothMarkedReached.marked = [HeaviestSubtreeForkChoice.Sample.block 3] ∧
    ((bothMarkedReached.tree.forkInfos.lookup (HeaviestSubtreeForkChoice.Sample.block 3)).map
      ForkInfo.latestInvalidAncestor) = some (some 3) := by
  have created : new (HeaviestSubtreeForkChoice.Sample.block 0) = .ok HeaviestSubtreeForkChoice.Sample.start := rfl
  have run : Run step (fun _ call => Newer call) start bothMarked bothMarkedReached :=
    (run_exec_get bothMarked_fit).weaken fun _ _ both => both.1
  refine ⟨?_, by decide +kernel, by decide +kernel⟩
  refine (marks_exact_iff created run).mpr ?_ bothMarked [] bothMarkedReached (append_nil _).symm run
  intro done call rest state isSplit before
  exact ((run_exec_get bothMarked_fit).meets isSplit before).2

/-- When one of two blocks is marked valid, the block below them is confirmed, but the other one keeps its mark. -/
theorem sibling_keeps_mark : ∃ state, Run step (fun _ call => Newer call) start oneMarked state ∧
    state.marked = [] ∧
    ((state.tree.forkInfos.lookup (HeaviestSubtreeForkChoice.Sample.block 1)).map
      ForkInfo.isDuplicateConfirmed) = some true ∧
    ((state.tree.forkInfos.lookup (HeaviestSubtreeForkChoice.Sample.block 3)).map
      ForkInfo.latestInvalidAncestor) = some (some 1) ∧ ¬ state.Exact := by
  let state := (exec step (fun _ call => Newer call) oneMarked start).get oneMarked_succeeds
  have keeps : ((state.tree.forkInfos.lookup (HeaviestSubtreeForkChoice.Sample.block 3)).map
      ForkInfo.latestInvalidAncestor) = some (some 1) := by decide +kernel
  have none : state.marked = [] := by decide +kernel
  refine ⟨state, run_exec_get oneMarked_succeeds, none, by decide +kernel, keeps, ?_⟩
  intro exact'
  obtain ⟨info, found, latest⟩ := map_eq_some_iff.mp keeps
  obtain ⟨_, -, isMarked, -⟩ := ((exact' _ info found).1 1).mp latest |>.1
  rw [none] at isMarked
  cases isMarked

end MarkedTree

end Payout.ForkChoice
