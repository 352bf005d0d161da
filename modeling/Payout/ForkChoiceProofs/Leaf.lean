/-
Purpose: A new leaf. It weighs nothing, so only the best blocks and the heights below it can change, and the walk down
  from it puts them right.
-/
import Payout.ForkChoiceProofs.Climb

namespace Payout.ForkChoice

open Lib Payout.Runtime List Option Function AList HeaviestSubtreeForkChoice

variable {other : SlotHashKey}

variable {key parent : SlotHashKey} {parentInfo : ForkInfo} {ancestry : Ancestry}

namespace ForkInfos

variable {infos tree : ForkInfos} {root child : SlotHashKey} {info : ForkInfo} {children : List SlotHashKey}

/-! ### The tree with the leaf -/

/-- A leaf as it is added. -/
def leafInfo (key parent : SlotHashKey) (latestInvalidAncestor : Option Nat) : ForkInfo :=
  { stakeVotedAt := 0, stakeVotedSubtree := 0, height := 1, bestSlot := key, deepestSlot := key, parent := some parent,
    children := [], latestInvalidAncestor := latestInvalidAncestor, isDuplicateConfirmed := false }

/-- The tree with a leaf among the children of its parent, before anything else was changed. -/
def grown (infos : ForkInfos) (key parent : SlotHashKey) (parentInfo : ForkInfo) : ForkInfos :=
  (infos.insert key (leafInfo key parent parentInfo.latestInvalidAncestor)).insert parent
    { parentInfo with children := HeaviestSubtreeForkChoice.insertChild key parentInfo.children }

/-- What is known when a block is compared with the children of its parent. -/
theorem noBetterChild_ok (found : tree.lookup key = some info)
    (present : ∀ child ∈ children, ∃ info, tree.lookup child = some info) :
    (tree.noBetterChild key info.stakeVotedSubtree children = .ok true ∧
      ∀ child ∈ children, tree.Candidate child → tree.Preferred key child) ∨
    (tree.noBetterChild key info.stakeVotedSubtree children = .ok false ∧
      ∃ child ∈ children, child ≠ key ∧ tree.Candidate child ∧ tree.Preferred child key) := by
  induction children with
  | nil => exact .inl ⟨rfl, nofun⟩
  | cons child rest ih =>
    obtain ⟨⟨childInfo, foundChild⟩, others⟩ := forall_mem_cons.mp present
    simp only [noBetterChild, foundChild, okOr, bind, Except.bind]
    rw [← weight_of found, ← weight_of foundChild] at *
    split
    case isTrue better =>
      obtain ⟨candidate, better⟩ := better
      refine .inr ⟨rfl, child, mem_cons_self, ?_, (candidate_iff foundChild).mpr candidate, ?_⟩
      · rintro rfl
        rcases better with heavier | ⟨-, less⟩
        · exact lt_irrefl _ heavier
        · exact lt_irrefl _ less
      · rcases better with heavier | ⟨same, less⟩
        · exact .inl heavier
        · exact .inr ⟨same, less.le⟩
    case isFalse notBetter =>
      rcases ih others with ⟨succeeded, preferred⟩ | ⟨succeeded, other, mem, spec⟩
      · refine .inl ⟨succeeded, forall_mem_cons.mpr ⟨?_, preferred⟩⟩
        intro candidate
        have isCandidate := (candidate_iff foundChild).mp candidate
        rcases Nat.lt_trichotomy (tree.weight child) (tree.weight key) with lighter | same | heavier
        · exact .inl lighter
        · exact .inr ⟨same, not_lt.mp fun less => notBetter ⟨isCandidate, .inr ⟨same.symm, less⟩⟩⟩
        · exact absurd ⟨isCandidate, .inl heavier⟩ notBetter
      · exact .inr ⟨succeeded, other, mem_cons_of_mem _ mem, spec⟩

theorem mem_insertChild : child ∈ insertChild key children ↔ child = key ∨ child ∈ children := by
  unfold insertChild
  split
  · rename_i mem
    constructor
    · exact .inr
    · rintro (rfl | old)
      · exact mem
      · exact old
  · exact mem_orderedInsert _

theorem insertChild_perm (fresh : key ∉ children) : (insertChild key children).Perm (key :: children) := by
  rw [insertChild, if_neg fresh]
  exact perm_orderedInsert _ key children

theorem grown_parent : (grown infos key parent parentInfo).lookup parent =
    some { parentInfo with children := insertChild key parentInfo.children } :=
  lookup_insert _

theorem grown_other (notParent : other ≠ parent) (notLeaf : other ≠ key) :
    (grown infos key parent parentInfo).lookup other = infos.lookup other := by
  rw [grown, lookup_insert_ne notParent, lookup_insert_ne notLeaf]

theorem grown_cases (found : (grown infos key parent parentInfo).lookup other = some info) :
    (other = key ∧ info = leafInfo key parent parentInfo.latestInvalidAncestor) ∨
    (other = parent ∧
      info = { parentInfo with children := insertChild key parentInfo.children }) ∨
    (other ≠ key ∧ other ≠ parent ∧ infos.lookup other = some info) := by
  rcases Store.lookup_insert_eq_some.mp found with isParent | ⟨notParent, found⟩
  · exact .inr (.inl isParent)
  · rcases Store.lookup_insert_eq_some.mp found with isLeaf | ⟨notLeaf, found⟩
    · exact .inl isLeaf
    · exact .inr (.inr ⟨notLeaf, notParent, found⟩)

theorem bestBlock_parent (infos key parent parentInfo) :
    bestBlock (grown infos key parent parentInfo) parent = parentInfo.bestSlot := by
  rw [bestBlock_of grown_parent]

theorem leaf_under_parent : Under (grown infos key parent parentInfo) parent key :=
  .child .self grown_parent (mem_insertChild.mpr (.inl rfl))

/-- What is assumed of a leaf that is added. -/
structure NewLeaf (ancestry : Ancestry) (infos : ForkInfos) (root key parent : SlotHashKey) (parentInfo : ForkInfo) :
    Prop where
  shape : infos.Shape ancestry root
  absent : infos.lookup key = none
  found : infos.lookup parent = some parentInfo
  known : ancestry.parent key = some parent

namespace NewLeaf

variable (leaf : NewLeaf ancestry infos root key parent parentInfo)

include leaf

theorem older : parent.slot < key.slot := ancestry.older key parent leaf.known

theorem different : parent ≠ key := fun same => lt_irrefl _ (same ▸ leaf.older)

theorem notChild (found : infos.lookup other = some info) : key ∉ info.children := by
  intro mem
  obtain ⟨_, foundChild, -⟩ := leaf.shape.linked.child other info found key mem
  rw [leaf.absent] at foundChild
  cases foundChild

theorem grown_leaf : (grown infos key parent parentInfo).lookup key =
    some (leafInfo key parent parentInfo.latestInvalidAncestor) := by
  rw [grown, lookup_insert_ne leaf.different.symm, lookup_insert]

/-- A block that was there before is there with the same values. -/
theorem before (found : infos.lookup other = some old) :
    ∃ info, (grown infos key parent parentInfo).lookup other = some info ∧ info.parent = old.parent ∧
      (∀ child ∈ old.children, child ∈ info.children) ∧
      info.stakeVotedSubtree = old.stakeVotedSubtree ∧ info.height = old.height ∧ info.bestSlot = old.bestSlot ∧
      info.latestInvalidAncestor = old.latestInvalidAncestor ∧
        info.isDuplicateConfirmed = old.isDuplicateConfirmed := by
  by_cases isParent : other = parent
  · subst isParent
    cases leaf.found.symm.trans found
    exact ⟨_, grown_parent, rfl, fun child mem => mem_insertChild.mpr (.inr mem), rfl, rfl, rfl, rfl, rfl⟩
  · have notLeaf : other ≠ key := by
      rintro rfl
      rw [leaf.absent] at found
      cases found
    exact ⟨old, (grown_other isParent notLeaf).trans found, rfl, fun _ mem => mem, rfl, rfl, rfl, rfl, rfl⟩

theorem alike (found : infos.lookup other = some old) :
    Alike infos (grown infos key parent parentInfo) other ∧
      height (grown infos key parent parentInfo) other = infos.height other ∧
      (Confirmed (grown infos key parent parentInfo) other ↔ infos.Confirmed other) := by
  obtain ⟨_, foundNew, -, -, weight, height, best, mark, confirmed⟩ := leaf.before found
  refine ⟨⟨?_, ?_, ?_⟩, ?_, ?_⟩
  · rw [weight_of foundNew, weight_of found, weight]
  · rw [candidate_iff foundNew, candidate_iff found, ForkInfo.isCandidate, ForkInfo.isCandidate, mark]
  · rw [best_of foundNew, best_of found, best]
  · rw [height_of foundNew, height_of found, height]
  · rw [confirmed_iff foundNew, confirmed_iff found, confirmed]

theorem shape_grown : Shape ancestry (grown infos key parent parentInfo) root := by
  constructor
  case linked =>
    constructor
    case child =>
      intro other info found child mem
      have old : ∀ oldInfo, infos.lookup other = some oldInfo → child ∈ oldInfo.children → ∃ childInfo,
          (grown infos key parent parentInfo).lookup child = some childInfo ∧ childInfo.parent = some other := by
        intro oldInfo foundOld memberOld
        obtain ⟨_, foundChild, knows⟩ := leaf.shape.linked.child other oldInfo foundOld child memberOld
        obtain ⟨childInfo', foundChild', parents, -⟩ := leaf.before foundChild
        exact ⟨childInfo', foundChild', parents ▸ knows⟩
      rcases grown_cases found with ⟨rfl, rfl⟩ | ⟨rfl, rfl⟩ | ⟨-, -, foundOld⟩
      · cases mem
      · rcases mem_insertChild.mp mem with rfl | memberOld
        · exact ⟨_, leaf.grown_leaf, rfl⟩
        · exact old parentInfo leaf.found memberOld
      · exact old info foundOld mem
    case older =>
      intro other info above found knows
      rcases grown_cases found with ⟨rfl, rfl⟩ | ⟨rfl, rfl⟩ | ⟨-, -, foundOld⟩
      · cases knows
        exact leaf.older
      · exact leaf.shape.linked.older other parentInfo above leaf.found knows
      · exact leaf.shape.linked.older other info above foundOld knows
  case nodup =>
    intro other info found
    rcases grown_cases found with ⟨rfl, rfl⟩ | ⟨rfl, rfl⟩ | ⟨-, -, foundOld⟩
    · exact nodup_nil
    · refine (insertChild_perm (leaf.notChild leaf.found)).nodup_iff.mpr ?_
      exact nodup_cons.mpr ⟨leaf.notChild leaf.found, leaf.shape.nodup other parentInfo leaf.found⟩
    · exact leaf.shape.nodup other info foundOld
  case parent =>
    intro other info above found knows
    have old : ∀ oldInfo, infos.lookup other = some oldInfo → oldInfo.parent = some above →
        ancestry.parent other = some above ∧ ∃ aboveInfo,
          (grown infos key parent parentInfo).lookup above = some aboveInfo ∧ other ∈ aboveInfo.children := by
      intro oldInfo foundOld knowsOld
      obtain ⟨known, _, foundAbove, mem⟩ := leaf.shape.parent other oldInfo above foundOld knowsOld
      obtain ⟨aboveInfo', foundAbove', -, children, -⟩ := leaf.before foundAbove
      exact ⟨known, aboveInfo', foundAbove', children other mem⟩
    rcases grown_cases found with ⟨rfl, rfl⟩ | ⟨rfl, rfl⟩ | ⟨-, -, foundOld⟩
    · cases knows
      exact ⟨leaf.known, _, grown_parent, mem_insertChild.mpr (.inl rfl)⟩
    · exact old parentInfo leaf.found knows
    · exact old info foundOld knows
  case rooted =>
    obtain ⟨_, foundRoot⟩ := leaf.shape.rooted
    obtain ⟨info, found, -⟩ := leaf.before foundRoot
    exact ⟨info, found⟩
  case top =>
    intro other info found
    rcases grown_cases found with ⟨rfl, rfl⟩ | ⟨rfl, rfl⟩ | ⟨-, -, foundOld⟩
    · refine iff_of_false (by rintro ⟨⟩) ?_
      rintro rfl
      obtain ⟨_, foundRoot⟩ := leaf.shape.rooted
      rw [leaf.absent] at foundRoot
      cases foundRoot
    · exact leaf.shape.top other parentInfo leaf.found
    · exact leaf.shape.top other info foundOld

section

variable (settled : ∀ key info, infos.lookup key = some info → infos.Settled key info)
  (found : (grown infos key parent parentInfo).lookup other = some info)
include settled found

theorem weights_grown :
    info.stakeVotedSubtree =
      (info.stakeVotedAt + (info.children.map (weight (grown infos key parent parentInfo))).sum) % 2 ^ 64 := by
  have old : ∀ oldInfo, infos.lookup other = some oldInfo → oldInfo.children.map
      (weight (grown infos key parent parentInfo)) = oldInfo.children.map infos.weight := by
    intro oldInfo foundOld
    apply map_congr_left
    intro child mem
    obtain ⟨_, foundChild, -⟩ := leaf.shape.linked.child other oldInfo foundOld child mem
    exact (leaf.alike foundChild).1.weight
  rcases grown_cases found with ⟨rfl, rfl⟩ | ⟨rfl, rfl⟩ | ⟨-, -, foundOld⟩
  · rfl
  · -- The leaf weighs nothing.
    have perm := (insertChild_perm (leaf.notChild leaf.found)).map (weight (grown infos key other parentInfo))
    rw [perm.sum_eq, map_cons, sum_cons, weight_of leaf.grown_leaf, old parentInfo leaf.found]
    simpa only [leafInfo, Nat.zero_add] using (settled other parentInfo leaf.found).weight
  · rw [old info foundOld]
    exact (settled other info foundOld).weight

theorem confirms_grown :
    ∀ child ∈ info.children, Confirmed (grown infos key parent parentInfo) child →
      info.isDuplicateConfirmed = true ∧ info.latestInvalidAncestor = none := by
  have old : ∀ oldInfo, infos.lookup other = some oldInfo → ∀ child ∈ oldInfo.children,
      Confirmed (grown infos key parent parentInfo) child →
      oldInfo.isDuplicateConfirmed = true ∧ oldInfo.latestInvalidAncestor = none := by
    intro oldInfo foundOld child mem confirmed
    obtain ⟨_, foundChild, -⟩ := leaf.shape.linked.child other oldInfo foundOld child mem
    rw [(leaf.alike foundChild).2.2] at confirmed
    exact (settled other oldInfo foundOld).confirmed child mem confirmed
  rcases grown_cases found with ⟨rfl, rfl⟩ | ⟨rfl, rfl⟩ | ⟨-, -, foundOld⟩
  · exact nofun
  · intro child mem confirmed
    rcases mem_insertChild.mp mem with rfl | memberOld
    · rw [confirmed_iff leaf.grown_leaf] at confirmed
      cases confirmed
    · exact old parentInfo leaf.found child memberOld confirmed
  · exact old info foundOld

end

/-! ### Best blocks -/

theorem under_grown (under : infos.Under one other) : Under (grown infos key parent parentInfo) one other := by
  induction under with
  | self => exact .self
  | child _ found mem ih =>
    obtain ⟨_, foundNew, -, children, -⟩ := leaf.before found
    exact .child ih foundNew (children _ mem)

theorem bestBlock_leaf : bestBlock (grown infos key parent parentInfo) key = key := bestBlock_of leaf.grown_leaf

section

variable (settled : ∀ key info, infos.lookup key = some info → infos.Settled key info)

include settled

/-- All best blocks but that of the parent fit when the leaf is added. -/
theorem leads_other (found : (grown infos key parent parentInfo).lookup other = some info)
    (notParent : other ≠ parent) :
    LeadsBy (grown infos key parent parentInfo) (bestBlock (grown infos key parent parentInfo)) other info := by
  rcases grown_cases found with ⟨rfl, rfl⟩ | ⟨isParent, -⟩ | ⟨-, -, foundOld⟩
  · exact ⟨.inl leaf.bestBlock_leaf, fun _ => .inl ⟨leaf.bestBlock_leaf, nofun⟩⟩
  · exact absurd isParent notParent
  · refine Leads.byBestBlock ((settled other info foundOld).toLeads.congr ?_) found
    intro child mem
    obtain ⟨_, foundChild, -⟩ := leaf.shape.linked.child other info foundOld child mem
    exact (leaf.alike foundChild).1

/-- A leaf that is not the best child leaves its parent the best block it had. -/
theorem leads_parent (mem : better ∈ insertChild key parentInfo.children) (notLeaf : better ≠ key)
    (candidate : Candidate (grown infos key parent parentInfo) better)
    (preferred : Preferred (grown infos key parent parentInfo) better key) :
    LeadsBy (grown infos key parent parentInfo) (bestBlock (grown infos key parent parentInfo)) parent
      { parentInfo with children := insertChild key parentInfo.children } := by
  have leads := (settled parent parentInfo leaf.found).toLeads
  have alike : ∀ child ∈ parentInfo.children, Alike infos (grown infos key parent parentInfo) child := by
    intro child memberChild
    obtain ⟨_, foundChild, -⟩ := leaf.shape.linked.child parent parentInfo leaf.found child memberChild
    exact (leaf.alike foundChild).1
  have leads' := leads.congr alike
  have oldMember : better ∈ parentInfo.children := (mem_insertChild.mp mem).resolve_left notLeaf
  refine Leads.byBestBlock ⟨?_, ?_⟩ grown_parent
  · rcases leads'.within with self | ⟨child, memberChild, same⟩
    · exact .inl self
    · exact .inr ⟨child, mem_insertChild.mpr (.inr memberChild), same⟩
  intro isCandidate
  rcases leads'.best isCandidate with ⟨-, none⟩ | ⟨child, bestChild, same⟩
  · exact absurd candidate (none better oldMember)
  · refine .inr ⟨child, ⟨mem_insertChild.mpr (.inr bestChild.member), bestChild.candidate, ?_⟩, same⟩
    intro other memberOther candidateOther
    rcases mem_insertChild.mp memberOther with rfl | oldOther
    · exact (bestChild.preferred better oldMember candidate).trans preferred
    · exact bestChild.preferred other oldOther candidateOther

theorem climbed
    (preferred : ∀ child ∈ insertChild key parentInfo.children, Candidate (grown infos key parent parentInfo) child →
      Preferred (grown infos key parent parentInfo) key child) :
    Climbed (grown infos key parent parentInfo) key parentInfo.bestSlot
      (Function.update (bestBlock (grown infos key parent parentInfo)) parent key) parent := by
  have shape := leaf.shape_grown
  have old : ∀ {other oldInfo}, infos.lookup other = some oldInfo →
      Under (grown infos key parent parentInfo) other oldInfo.bestSlot :=
    fun found => leaf.under_grown (best_under settled leaf.shape.linked found)
  constructor
  case changed => exact update_self _ _ _
  case had => exact old leaf.found
  case has => exact leaf_under_parent
  case under =>
    intro other info found
    by_cases isParent : other = parent
    · rw [isParent, update_self]
      exact leaf_under_parent
    · rw [update_of_ne isParent, bestBlock_of found]
      rcases grown_cases found with ⟨rfl, rfl⟩ | ⟨isParent', -⟩ | ⟨-, -, foundOld⟩
      · exact .self
      · exact absurd isParent' isParent
      · exact old foundOld
  case leads =>
    intro other info found notAbove
    by_cases isParent : other = parent
    · subst isParent
      rw [grown_parent, some.injEq] at found
      subst found
      have chosen : update (bestBlock (grown infos key other parentInfo)) other key key =
          update (bestBlock (grown infos key other parentInfo)) other key other := by
        rw [update_self, update_of_ne leaf.different.symm]
        exact leaf.bestBlock_leaf
      refine ⟨.inr ⟨key, mem_insertChild.mpr (.inl rfl), chosen⟩, ?_⟩
      intro candidate
      refine .inr ⟨key, ⟨mem_insertChild.mpr (.inl rfl), ?_, preferred⟩, chosen⟩
      exact (candidate_iff leaf.grown_leaf).mpr candidate
    · refine (leaf.leads_other settled found isParent).congr (update_of_ne isParent _ _) ?_
      intro child mem
      exact update_of_ne (shape.linked.child_ne found notAbove mem) _ _
  case parent =>
    intro other info found isAbove
    have undone : update (update (bestBlock (grown infos key parent parentInfo)) parent key) parent
        parentInfo.bestSlot = bestBlock (grown infos key parent parentInfo) := by
      rw [update_idem, ← bestBlock_parent infos key parent parentInfo, update_eq_self]
    rw [undone]
    refine leaf.leads_other settled found ?_
    rintro rfl
    exact lt_irrefl _ (shape.linked.older_parent isAbove)

end

theorem hung_grown : Hung (grown infos key parent parentInfo) := by
  intro other above knows
  obtain ⟨info, found, knows⟩ := parent_eq_some.mp knows
  exact (leaf.shape_grown.parent other info above found knows).2

section

variable (settled : ∀ key info, infos.lookup key = some info → infos.Settled key info)
include settled

theorem propagateBest_grown :
    ∃ isBest best infos', isBestChild (grown infos key parent parentInfo) key = .ok isBest ∧
      (if isBest then propagateBest key parentInfo.bestSlot (key.slot + 1) (some parent)
        (grown infos key parent parentInfo) else .ok (grown infos key parent parentInfo)) = .ok infos' ∧
      Rebest (grown infos key parent parentInfo) best infos' ∧
      ∀ other info, (grown infos key parent parentInfo).lookup other = some info →
        LeadsBy (grown infos key parent parentInfo) best other info := by
  have linked := leaf.shape_grown.linked
  have present : ∀ child ∈ insertChild key parentInfo.children,
      ∃ info, (grown infos key parent parentInfo).lookup child = some info := by
    intro child mem
    obtain ⟨childInfo, foundChild, -⟩ := linked.child parent _ grown_parent child mem
    exact ⟨childInfo, foundChild⟩
  have unfolded : isBestChild (grown infos key parent parentInfo) key =
      noBetterChild (grown infos key parent parentInfo) key
        (leafInfo key parent parentInfo.latestInvalidAncestor).stakeVotedSubtree
        (insertChild key parentInfo.children) := by
    simp only [isBestChild, leaf.grown_leaf, grown_parent, okOr, bind, Except.bind, leafInfo]
  rw [unfolded]
  rcases noBetterChild_ok leaf.grown_leaf present with
    ⟨compared, preferred⟩ | ⟨compared, better, mem, notLeaf, candidate, preferred⟩
  · have older := leaf.older
    obtain ⟨best, infos', succeeded, rebest, leads⟩ := propagateBest_ok linked leaf.hung_grown key.slot older.le
      ((rebest_self _).write grown_parent) (leaf.climbed settled preferred)
    refine ⟨true, best, infos', compared, ?_, rebest, leads⟩
    have knows : parentInfo.parent = ForkInfos.parent (grown infos key parent parentInfo) parent := by
      rw [ForkInfos.parent, grown_parent, bind_some]
    rw [← knows] at succeeded
    simp only [if_true, propagateBest, grown_parent, okOr, bind, Except.bind]
    exact succeeded
  · refine ⟨false, _, _, compared, rfl, rebest_self _, ?_⟩
    intro other info found
    by_cases isParent : other = parent
    · subst isParent
      rw [grown_parent, some.injEq] at found
      subst found
      exact leaf.leads_parent settled mem notLeaf candidate preferred
    · exact leaf.leads_other settled found isParent

/-! ### Heights -/

/-- All heights but that of the parent fit when the leaf is added. -/
theorem raised {best : SlotHashKey → SlotHashKey} (rebest : Rebest (grown infos key parent parentInfo) best tree) :
    Raised tree tree.height key 0 := by
  -- Other best blocks do not matter for the heights.
  have heights : ∀ {other info}, (grown infos key parent parentInfo).lookup other = some info →
      tree.height other = info.height := by
    intro other info found
    have looked : tree.lookup other = some { info with bestSlot := best other } := by
      rw [rebest other, found, map_some]
    rw [height_of looked]
  have old : ∀ {other oldInfo}, infos.lookup other = some oldInfo → tree.height other = oldInfo.height := by
    intro other oldInfo foundOld
    obtain ⟨_, found, -, -, -, height, -⟩ := leaf.before foundOld
    rw [heights found, height]
  have oldChildren : ∀ {other oldInfo}, infos.lookup other = some oldInfo →
      greatest tree.height oldInfo.children = infos.tallest oldInfo.children := by
    intro other oldInfo foundOld
    refine greatest_congr ?_
    intro child mem
    obtain ⟨_, foundChild, -⟩ := leaf.shape.linked.child other oldInfo foundOld child mem
    rw [old foundChild, height_of foundChild]
  have knows : tree.parent key = some parent := by
    rw [ForkInfos.parent, rebest key, leaf.grown_leaf]
    rfl
  constructor
  case rose => exact Nat.zero_le _
  case levels =>
    intro other info found notParent
    rw [knows] at notParent
    rw [rebest other] at found
    obtain ⟨grownInfo, foundGrown, rfl⟩ := map_eq_some_iff.mp found
    rw [LevelBy, heights foundGrown]
    rcases grown_cases foundGrown with ⟨rfl, rfl⟩ | ⟨rfl, -⟩ | ⟨-, -, foundOld⟩
    · rfl
    · exact absurd rfl notParent
    · rw [oldChildren foundOld]
      exact (settled other grownInfo foundOld).height
  case parent =>
    intro other info found isParent
    cases knows.symm.trans isParent
    rw [rebest parent, grown_parent, map_some, some.injEq] at found
    subst found
    rw [LevelBy, update_of_ne leaf.different, old leaf.found, (settled parent parentInfo leaf.found).height,
      ← oldChildren leaf.found]
    congr 1
    -- The leaf counts for nothing among the children.
    have others : ∀ child ∈ parentInfo.children, update tree.height key 0 child = tree.height child := by
      intro child mem
      apply update_of_ne
      rintro rfl
      exact leaf.notChild leaf.found mem
    apply le_antisymm
    · refine greatest_le_iff.mpr ?_
      intro child mem
      rw [← others child mem]
      exact le_greatest _ (mem_insertChild.mpr (.inr mem))
    · refine greatest_le_iff.mpr ?_
      intro child mem
      rcases mem_insertChild.mp mem with rfl | memberOld
      · rw [update_self]
        exact Nat.zero_le _
      · rw [others child memberOld]
        exact le_greatest _ memberOld

theorem propagateNewLeaf_ok :
    ∃ infos', propagateNewLeaf (grown infos key parent parentInfo) key parent = .ok infos' ∧
      SameLinks (grown infos key parent parentInfo) infos' ∧
      ∀ other info, infos'.lookup other = some info → infos'.Settled other info ∧
        ∃ old, (grown infos key parent parentInfo).lookup other = some old ∧ info.stakeVotedAt = old.stakeVotedAt ∧
          info.latestInvalidAncestor = old.latestInvalidAncestor ∧
          info.isDuplicateConfirmed = old.isDuplicateConfirmed := by
  obtain ⟨isBest, best, tree, compared, bestOk, rebest, leads⟩ := leaf.propagateBest_grown settled
  have sameTree : SameLinks (grown infos key parent parentInfo) tree := by
    intro other
    rw [links, links, rebest other, Option.map_map]
    rfl
  have shape := sameTree.shape leaf.shape_grown
  have hung : tree.Hung := by
    intro other above knows
    obtain ⟨info, found, knows⟩ := parent_eq_some.mp knows
    exact (shape.parent other info above found knows).2
  have foundLeaf : tree.lookup key = some { leafInfo key parent parentInfo.latestInvalidAncestor with
      bestSlot := best key } := by
    rw [rebest key, leaf.grown_leaf, map_some]
  obtain ⟨level, deepest, infos', deepestOk, relevel, levels⟩ := propagateDeepest_ok key shape.linked hung
    (key.slot + 1) (Nat.le_succ _) (relevel_self tree) (leaf.raised settled rebest)
  rw [height_of foundLeaf, ForkInfos.parent, foundLeaf, bind_some] at deepestOk
  have revalue : Revalue (grown infos key parent parentInfo) best level deepest infos' := by
    intro other
    rw [relevel other, rebest other, Option.map_map]
    rfl
  refine ⟨infos', ?_, ?_, ?_⟩
  · simp only [propagateNewLeaf, grown_parent, okOr, compared, bind, Except.bind]
    cases isBest with
    | false =>
      cases bestOk
      exact deepestOk
    | true =>
      simp only [if_true] at bestOk ⊢
      rw [bestOk]
      exact deepestOk
  · intro other
    rw [links, links, revalue other, Option.map_map]
    rfl
  · intro other info found
    rw [revalue other] at found
    obtain ⟨old, foundOld, rfl⟩ := map_eq_some_iff.mp found
    have foundTree : tree.lookup other = some { old with bestSlot := best other } := by
      rw [rebest other, foundOld, map_some]
    have level := levels other _ foundTree
    refine ⟨?_, old, foundOld, rfl, rfl, rfl⟩
    exact revalue.settled leaf.shape_grown.linked foundOld (leaf.weights_grown settled foundOld)
      (leaf.confirms_grown settled foundOld) (leads other old foundOld) level

end

end NewLeaf

end ForkInfos

namespace HeaviestSubtreeForkChoice

open ForkInfos

variable {tree : HeaviestSubtreeForkChoice} {stake : Pubkey → Nat → Nat}

/-- A new leaf on top of a block of the tree is linked and propagated. -/
theorem addNewLeafSlot_eq (absent : tree.forkInfos.lookup key = none)
    (found : tree.forkInfos.lookup parent = some parentInfo) (different : parent ≠ key) :
    tree.addNewLeafSlot key (some parent) =
      (propagateNewLeaf (grown tree.forkInfos key parent parentInfo) key parent).map
        fun infos => { tree with forkInfos := infos } := by
  have looked : (tree.forkInfos.insert key (leafInfo key parent parentInfo.latestInvalidAncestor)).lookup parent =
      some parentInfo := (lookup_insert_ne different).trans found
  rw [leafInfo] at looked
  simp only [addNewLeafSlot, absent, bind, Option.bind, found, Option.isNone_some, looked, okOr, Except.bind]
  rfl

theorem addNewLeafSlot_sound (sound : Sound ancestry stake tree)
    (found : tree.forkInfos.lookup parent = some parentInfo) (known : ancestry.parent key = some parent) :
    ∃ tree', tree.addNewLeafSlot key (some parent) = .ok tree' ∧
      Sound ancestry stake tree' := by
  cases present : tree.forkInfos.lookup key with
  | some => exact ⟨tree, by simp only [addNewLeafSlot, present], sound⟩
  | none =>
    have leaf : NewLeaf ancestry tree.forkInfos tree.treeRoot key parent parentInfo :=
      ⟨sound.shape, present, found, known⟩
    obtain ⟨infos, propagated, same, values⟩ := leaf.propagateNewLeaf_ok sound.settled
    have noVotes : ∀ pubkey, tree.latestVotes.lookup pubkey ≠ some key := by
      intro pubkey voted
      have gone := sound.dropped pubkey key voted present parent (.parent known (.self parent))
      cases found.symm.trans gone
    refine ⟨{ tree with forkInfos := infos }, ?_, ?_⟩
    · rw [addNewLeafSlot_eq present found leaf.different, propagated]
      rfl
    constructor
    case shape => exact same.shape leaf.shape_grown
    case settled => exact fun other info foundOther => (values other info foundOther).1
    case counted =>
      intro other info foundOther
      obtain ⟨-, old, foundOld, stakeAt, -⟩ := values other info foundOther
      rw [stakeAt]
      rcases grown_cases foundOld with ⟨rfl, rfl⟩ | ⟨rfl, rfl⟩ | ⟨-, -, foundOld⟩
      · -- Nobody voted for a block that was not there.
        have none : tally stake tree.latestVotes other = 0 := by
          refine Store.total_eq_zero ?_
          intro pubkey vote voted
          rw [if_neg]
          rintro rfl
          exact noVotes pubkey voted
        rw [none]
        rfl
      · exact sound.counted other parentInfo found
      · exact sound.counted other old foundOld
    case dropped =>
      intro pubkey vote voted gone ancestor below
      have absentBefore : tree.forkInfos.lookup vote = none := by
        cases before : tree.forkInfos.lookup vote with
        | none => rfl
        | some =>
          obtain ⟨_, foundVote, -⟩ := leaf.before before
          rw [same.absent_iff, foundVote] at gone
          cases gone
      have droppedBefore := sound.dropped pubkey vote voted absentBefore
      rw [same.absent_iff]
      -- The leaf is not below the vote, since its parent is not.
      have notParent : ancestor ≠ parent := by
        rintro rfl
        rw [droppedBefore ancestor below] at found
        cases found
      have notLeaf : ancestor ≠ key := by
        rintro rfl
        rw [droppedBefore parent (below.toParent known)] at found
        cases found
      rw [grown_other notParent notLeaf]
      exact droppedBefore ancestor below

end HeaviestSubtreeForkChoice

end Payout.ForkChoice
