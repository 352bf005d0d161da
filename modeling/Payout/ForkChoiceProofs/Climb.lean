/-
Purpose: The walk of a new leaf down to the root, which makes it the best block where the best block was that of its
  parent, and the deepest one where it is.
-/
import Payout.ForkChoiceProofs.Split

namespace Payout.ForkChoice

open Lib Option Function List

namespace ForkInfos

variable {tree infos : ForkInfos} {key child above leaf parentBest other : SlotHashKey} {info : ForkInfo}

/-! ### Subtrees of siblings -/

theorem Under.trans (first : tree.Under top key) (second : tree.Under key other) : tree.Under top other := by
  induction second with
  | self => exact first
  | child _ found mem ih => exact .child ih found mem

theorem Under.ofParent (found : tree.lookup key = some info) (mem : child ∈ info.children)
    (under : tree.Under child other) : tree.Under key other :=
  (Under.child .self found mem).trans under

theorem Under.comparable (linked : tree.Linked) (first : tree.Under one key) (second : tree.Under other key) :
    tree.Under one other ∨ tree.Under other one := by
  induction first with
  | self => exact .inr second
  | child before found mem ih =>
    rcases second.parent linked (linked.parent_child found mem) with rfl | secondAbove
    · exact .inl (.child before found mem)
    · exact ih secondAbove

theorem Under.siblings (linked : tree.Linked) (found : tree.lookup key = some info) (memberOne : one ∈ info.children)
    (memberOther : other ∈ info.children) (first : tree.Under one child) (second : tree.Under other child) :
    one = other := by
  have apart : ∀ {one other : SlotHashKey}, one ∈ info.children → other ∈ info.children → tree.Under one other →
      other = one := by
    intro one other memberOne memberOther under
    rcases under.parent linked (linked.parent_child found memberOther) with same | underKey
    · exact same
    · have le := underKey.slot_le linked
      have older := linked.older_parent (linked.parent_child found memberOne)
      omega
  rcases first.comparable linked second with under | under
  · exact (apart memberOne memberOther under).symm
  · exact apart memberOther memberOne under

theorem best_under (settled : ∀ key info, tree.lookup key = some info → tree.Settled key info)
    (linked : tree.Linked) (found : tree.lookup key = some info) : tree.Under key info.bestSlot := by
  induction level : info.height using Nat.strong_induction_on generalizing key info with
  | _ height ih =>
    rcases (settled key info found).within with self | ⟨child, mem, same⟩
    · rw [self]
      exact .self
    obtain ⟨childInfo, foundChild, -⟩ := linked.child key info found child mem
    rw [best_of foundChild, some.injEq] at same
    have lower : childInfo.height < height := by
      have le : tree.height child ≤ tree.tallest info.children := le_greatest tree.height mem
      rw [height_of foundChild] at le
      rw [← level, (settled key info found).height]
      omega
    rw [← same]
    exact .ofParent found mem (ih childInfo.height lower foundChild rfl)

/-! ### The best block -/

/-- A tree with other best blocks. -/
def Rebest (tree : ForkInfos) (best : SlotHashKey → SlotHashKey) (infos : ForkInfos) : Prop :=
  ∀ key, infos.lookup key = (tree.lookup key).map fun info => { info with bestSlot := best key }

/-- The best blocks fit those of the children. -/
structure LeadsBy (tree : ForkInfos) (best : SlotHashKey → SlotHashKey) (key : SlotHashKey) (info : ForkInfo) :
    Prop where
  within : best key = key ∨ ∃ child ∈ info.children, best child = best key
  best : info.isCandidate → (best key = key ∧ ∀ child ∈ info.children, ¬ tree.Candidate child) ∨
    ∃ child, tree.BestChild info.children child ∧ best child = best key

variable {best : SlotHashKey → SlotHashKey}

theorem LeadsBy.congr (leads : LeadsBy tree best key info) (self : best' key = best key)
    (children : ∀ child ∈ info.children, best' child = best child) : LeadsBy tree best' key info where
  within := by
    rw [self]
    rcases leads.within with same | ⟨child, mem, same⟩
    · exact .inl same
    · exact .inr ⟨child, mem, (children child mem).trans same⟩
  best := by
    intro candidate
    rw [self]
    rcases leads.best candidate with none | ⟨child, bestChild, same⟩
    · exact .inl none
    · exact .inr ⟨child, bestChild, (children child bestChild.member).trans same⟩

/-- The best block of a block, or itself if it is not there. -/
def bestBlock (tree : ForkInfos) (key : SlotHashKey) : SlotHashKey := (tree.best key).getD key

theorem bestBlock_of (found : tree.lookup key = some info) : tree.bestBlock key = info.bestSlot := by
  rw [bestBlock, best_of found, getD_some]

theorem rebest_self (tree) : Rebest tree tree.bestBlock tree := by
  intro key
  cases found : tree.lookup key with
  | none => rfl
  | some => rw [map_some, bestBlock_of found]

theorem Leads.byBestBlock (leads : tree.Leads key info) (found : tree.lookup key = some info) :
    LeadsBy tree tree.bestBlock key info := by
  have same : ∀ child, tree.best child = some info.bestSlot → tree.bestBlock child = tree.bestBlock key := by
    intro child best
    rw [bestBlock_of found, bestBlock, best, getD_some]
  constructor
  case within =>
    rcases leads.within with self | ⟨child, mem, best⟩
    · exact .inl ((bestBlock_of found).trans self)
    · exact .inr ⟨child, mem, same child best⟩
  case best =>
    intro candidate
    rcases leads.best candidate with ⟨self, none⟩ | ⟨child, bestChild, best⟩
    · exact .inl ⟨(bestBlock_of found).trans self, none⟩
    · exact .inr ⟨child, bestChild, same child best⟩

/-- Where the walk of a leaf stands, when it has become the best block of a block: all best blocks fit but that of the
    parent, which fits what the block had before. -/
structure Climbed (tree : ForkInfos) (leaf parentBest : SlotHashKey) (best : SlotHashKey → SlotHashKey)
    (key : SlotHashKey) : Prop where
  changed : best key = leaf
  had : tree.Under key parentBest
  has : tree.Under key leaf
  under : ∀ other info, tree.lookup other = some info → tree.Under other (best other)
  leads : ∀ other info, tree.lookup other = some info → tree.parent key ≠ some other → LeadsBy tree best other info
  parent : ∀ other info, tree.lookup other = some info → tree.parent key = some other →
    LeadsBy tree (Function.update best key parentBest) other info

/-- What holds of the parent of a block and of all others holds of all. -/
theorem forall_of_parent {P : SlotHashKey → ForkInfo → Prop} (found : tree.lookup above = some info)
    (knows : tree.parent key = some above) (here : P above info)
    (others : ∀ other info, tree.lookup other = some info → tree.parent key ≠ some other → P other info) :
    ∀ other info, tree.lookup other = some info → P other info := by
  intro other otherInfo foundOther
  by_cases isAbove : other = above
  · subst isAbove
    cases found.symm.trans foundOther
    exact here
  · refine others other otherInfo foundOther ?_
    rw [knows]
    exact fun isOther => isAbove (some.inj isOther).symm

theorem Rebest.write (rebest : Rebest tree best infos) (found : tree.lookup key = some info) :
    Rebest tree (update best key leaf) (infos.insert key { info with bestSlot := leaf }) := by
  intro other
  rw [Store.lookup_insert_eq_ite]
  by_cases same : other = key
  · subst same
    rw [if_pos rfl, found, map_some, update_self]
  · rw [if_neg same, rebest other, update_of_ne same]

section

variable (climbed : Climbed tree leaf parentBest best key) (linked : tree.Linked)
  (found : tree.lookup above = some info) (knows : tree.parent key = some above)
include climbed linked found knows

/-- The leaf becomes the best block of a parent that had the same best block as the block before. -/
theorem Climbed.turn (mem : key ∈ info.children) (same : best above = parentBest) :
    Climbed tree leaf parentBest (update best above leaf) above := by
  have older := linked.older_parent knows
  have different := linked.ne_parent knows
  have hasLeaf : tree.Under above leaf := .ofParent found mem climbed.has
  constructor
  case changed => exact update_self above leaf best
  case had => exact .ofParent found mem climbed.had
  case has => exact hasLeaf
  case under =>
    intro other otherInfo foundOther
    by_cases isAbove : other = above
    · rw [isAbove, update_self]
      exact hasLeaf
    · rw [update_of_ne isAbove]
      exact climbed.under other otherInfo foundOther
  case leads =>
    refine forall_of_parent found knows ?_ ?_
    · -- The parent chooses the block it chose before, as no other child has the best block of the block.
      intro _
      have before := climbed.parent above info found knows
      constructor
      case within =>
        refine .inr ⟨key, mem, ?_⟩
        rw [update_self, update_of_ne different]
        exact climbed.changed
      case best =>
        intro candidate
        rcases before.best candidate with ⟨self, -⟩ | ⟨child, bestChild, sameBest⟩
        · rw [update_of_ne different.symm, same] at self
          have le := climbed.had.slot_le linked
          rw [self] at le
          omega
        · rw [update_of_ne different.symm, same] at sameBest
          have isKey : child = key := by
            by_contra notKey
            rw [update_of_ne notKey] at sameBest
            obtain ⟨childInfo, foundChild, -⟩ := linked.child above info found child bestChild.member
            have underChild := climbed.under child childInfo foundChild
            rw [sameBest] at underChild
            exact notKey (underChild.siblings linked found bestChild.member mem climbed.had)
          subst isKey
          refine .inr ⟨child, bestChild, ?_⟩
          rw [update_self, update_of_ne different]
          exact climbed.changed
    · intro other otherInfo foundOther notOld notParent
      refine (climbed.leads other otherInfo foundOther notOld).congr
        (update_of_ne (by rintro rfl; exact notOld knows) _ _) ?_
      intro child memberChild
      exact update_of_ne (linked.child_ne foundOther notParent memberChild) _ _
  case parent =>
    intro other otherInfo foundOther isParent
    have undone : update (update best above leaf) above parentBest = best := by
      rw [update_idem, ← same, update_eq_self]
    rw [undone]
    refine climbed.leads other otherInfo foundOther ?_
    rw [knows]
    exact fun isOther => linked.ne_parent isParent (some.inj isOther)

/-- A parent with another best block than the block before keeps it. -/
theorem Climbed.stop (differs : best above ≠ parentBest) : LeadsBy tree best above info := by
  have different := (linked.ne_parent knows).symm
  have before := climbed.parent above info found knows
  -- The child whose best block is that of the parent is another one.
  have others : ∀ child, update best key parentBest child = best above → best child = best above := by
    intro child same
    by_cases isKey : child = key
    · rw [isKey, update_self] at same
      exact absurd same.symm differs
    · rwa [update_of_ne isKey] at same
  have self : update best key parentBest above = best above := update_of_ne different _ _
  constructor
  case within =>
    rcases before.within with isSelf | ⟨child, mem, same⟩
    · exact .inl (self ▸ isSelf)
    · exact .inr ⟨child, mem, others child (self ▸ same)⟩
  case best =>
    intro candidate
    rcases before.best candidate with ⟨isSelf, none⟩ | ⟨child, bestChild, same⟩
    · exact .inl ⟨self ▸ isSelf, none⟩
    · exact .inr ⟨child, bestChild, others child (self ▸ same)⟩

end

/-- The parent of a block is there, with the block among its children. -/
def Hung (tree : ForkInfos) : Prop :=
  ∀ key above, tree.parent key = some above → ∃ info, tree.lookup above = some info ∧ key ∈ info.children

/-- The walk of a leaf comes to an end, and then all best blocks fit. -/
theorem propagateBest_ok (linked : tree.Linked) (hung : tree.Hung) (turns) (enough : key.slot ≤ turns)
    (rebest : Rebest tree best infos) (climbed : Climbed tree leaf parentBest best key) :
    ∃ best' infos', propagateBest leaf parentBest turns (tree.parent key) infos = .ok infos' ∧
      Rebest tree best' infos' ∧ ∀ other info, tree.lookup other = some info → LeadsBy tree best' other info := by
  induction turns generalizing key best infos with
  | zero =>
    cases knows : tree.parent key with
    | none =>
      refine ⟨best, infos, rfl, rebest, fun other info found => climbed.leads other info found ?_⟩
      rw [knows]
      exact nofun
    | some above =>
      have older := linked.older_parent knows
      omega
  | succ turns ih =>
    cases knows : tree.parent key with
    | none =>
      refine ⟨best, infos, rfl, rebest, fun other info found => climbed.leads other info found ?_⟩
      rw [knows]
      exact nofun
    | some above =>
      obtain ⟨info, found, mem⟩ := hung key above knows
      have older := linked.older_parent knows
      have looked : infos.lookup above = some { info with bestSlot := best above } := by
        rw [rebest above, found, map_some]
      have knowsNext : info.parent = tree.parent above := by
        rw [ForkInfos.parent, found, bind_some]
      simp only [propagateBest, looked, okOr, bind, Except.bind]
      split
      case isTrue same =>
        obtain ⟨best', infos', succeeded, rebest', leads⟩ :=
          ih (by omega) (rebest.write found) (climbed.turn linked found knows mem same)
        rw [← knowsNext] at succeeded
        exact ⟨best', infos', succeeded, rebest', leads⟩
      case isFalse differs =>
        exact ⟨best, infos, rfl, rebest,
          forall_of_parent found knows (climbed.stop linked found knows differs) climbed.leads⟩

/-! ### The height -/

/-- A tree with other heights and deepest blocks. -/
def Relevel (tree : ForkInfos) (level : SlotHashKey → Nat) (deepest : SlotHashKey → SlotHashKey) (infos : ForkInfos) :
    Prop :=
  ∀ key, infos.lookup key =
    (tree.lookup key).map fun info => { info with height := level key, deepestSlot := deepest key }

/-- The heights fit those of the children. -/
def LevelBy (level : SlotHashKey → Nat) (key : SlotHashKey) (info : ForkInfo) : Prop :=
  level key = 1 + greatest level info.children

/-- Where the walk of a leaf stands, when a block has become higher than it was: all heights fit but that of the parent,
    which fits the height the block had before. -/
structure Raised (tree : ForkInfos) (level : SlotHashKey → Nat) (key : SlotHashKey) (before : Nat) : Prop where
  rose : before ≤ level key
  levels : ∀ other info, tree.lookup other = some info → tree.parent key ≠ some other → LevelBy level other info
  parent : ∀ other info, tree.lookup other = some info → tree.parent key = some other →
    LevelBy (Function.update level key before) other info

variable {level : SlotHashKey → Nat} {deepest : SlotHashKey → SlotHashKey} {before : Nat}

/-- The deepest block of a block, or itself if it is not there. -/
def deepestBlock (tree : ForkInfos) (key : SlotHashKey) : SlotHashKey :=
  ((tree.lookup key).map ForkInfo.deepestSlot).getD key

theorem relevel_self (tree) : Relevel tree tree.height tree.deepestBlock tree := by
  intro key
  cases found : tree.lookup key with
  | none => rfl
  | some => rw [map_some, height_of found, deepestBlock, found, map_some, getD_some]

theorem Relevel.write {height : Nat} (relevel : Relevel tree level deepest infos)
    (found : tree.lookup key = some info) :
    Relevel tree (update level key height) (update deepest key leaf)
      (infos.insert key { info with height := height, deepestSlot := leaf }) := by
  intro other
  rw [Store.lookup_insert_eq_ite]
  by_cases same : other = key
  · subst same
    rw [if_pos rfl, found, map_some, update_self, update_self]
  · rw [if_neg same, relevel other, update_of_ne same, update_of_ne same]

section

variable (raised : Raised tree level key before) (linked : tree.Linked) (found : tree.lookup above = some info)
  (knows : tree.parent key = some above)
include raised linked found knows

/-- A block that is the deepest child gives its parent a new height. -/
theorem Raised.turn (mem : key ∈ info.children) (tallest : ∀ child ∈ info.children, level child ≤ level key) :
    Raised tree (update level above (level key + 1)) above (level above) := by
  have older := linked.older_parent knows
  have different := linked.ne_parent knows
  constructor
  case rose =>
    have fits := raised.parent above info found knows
    rw [LevelBy, update_of_ne different.symm] at fits
    have bound : greatest (update level key before) info.children ≤ level key := by
      refine greatest_le_iff.mpr ?_
      intro child memberChild
      by_cases isKey : child = key
      · rw [isKey, update_self]
        exact raised.rose
      · rw [update_of_ne isKey]
        exact tallest child memberChild
    rw [update_self]
    omega
  case levels =>
    refine forall_of_parent found knows ?_ ?_
    · intro _
      have same : greatest (update level above (level key + 1)) info.children = level key := by
        apply le_antisymm
        · refine greatest_le_iff.mpr ?_
          intro child memberChild
          rw [update_of_ne (linked.ne_parent (linked.parent_child found memberChild))]
          exact tallest child memberChild
        · have le := le_greatest (update level above (level key + 1)) mem
          rwa [update_of_ne different] at le
      rw [LevelBy, update_self, same, Nat.add_comm]
    · intro other otherInfo foundOther notOld notParent
      have fits := raised.levels other otherInfo foundOther notOld
      rw [LevelBy, update_of_ne (by rintro rfl; exact notOld knows), fits]
      congr 1
      refine (greatest_congr ?_).symm
      intro child memberChild
      exact update_of_ne (linked.child_ne foundOther notParent memberChild) _ _
  case parent =>
    intro other otherInfo foundOther isParent
    rw [update_idem, update_eq_self]
    refine raised.levels other otherInfo foundOther ?_
    rw [knows]
    exact fun isOther => linked.ne_parent isParent (some.inj isOther)

/-- A block that is not the deepest child leaves its parent the height it had. -/
theorem Raised.stop (mem : other ∈ info.children) (notKey : other ≠ key) (higher : level key ≤ level other) :
    LevelBy level above info := by
  have different := (linked.ne_parent knows).symm
  have fits := raised.parent above info found knows
  rw [LevelBy, update_of_ne different] at fits
  rw [LevelBy, fits]
  congr 1
  apply le_antisymm
  · refine greatest_le_iff.mpr ?_
    intro child memberChild
    by_cases isKey : child = key
    · rw [isKey, update_self]
      exact (raised.rose.trans higher).trans (le_greatest level mem)
    · rw [update_of_ne isKey]
      exact le_greatest level memberChild
  · refine greatest_le_iff.mpr ?_
    intro child memberChild
    by_cases isKey : child = key
    · have le := le_greatest (update level key before) mem
      rw [update_of_ne notKey] at le
      rw [isKey]
      exact higher.trans le
    · have le := le_greatest (update level key before) memberChild
      rwa [update_of_ne isKey] at le

end

/-- What is known when a block is compared with the children of its parent. -/
theorem noDeeperChild_ok (key height weight) (present : ∀ child ∈ children, ∃ info, infos.lookup child = some info) :
    (infos.noDeeperChild key height weight children = .ok true ∧
      ∀ child ∈ children, infos.height child ≤ height) ∨
    (infos.noDeeperChild key height weight children = .ok false ∧
      ∃ child ∈ children, height ≤ infos.height child ∧
        (height = infos.height child → weight = infos.weight child → child ≠ key)) := by
  induction children with
  | nil => exact .inl ⟨rfl, nofun⟩
  | cons child rest ih =>
    obtain ⟨⟨_, found⟩, others⟩ := forall_mem_cons.mp present
    simp only [noDeeperChild, found, okOr, bind, Except.bind]
    split
    case isTrue deeper =>
      refine .inr ⟨rfl, child, mem_cons_self, ?_⟩
      rw [height_of found, weight_of found]
      rcases deeper with higher | ⟨same, heavier | ⟨-, less⟩⟩
      · exact ⟨higher.le, fun same => absurd same higher.ne⟩
      · exact ⟨same.le, fun _ sameWeight => absurd sameWeight heavier.ne⟩
      · exact ⟨same.le, fun _ _ => less.ne⟩
    case isFalse notDeeper =>
      rcases ih others with ⟨succeeded, lower⟩ | ⟨succeeded, other, mem, spec⟩
      · refine .inl ⟨succeeded, forall_mem_cons.mpr ⟨?_, lower⟩⟩
        rw [height_of found]
        exact not_lt.mp fun higher => notDeeper (.inl higher)
      · exact .inr ⟨succeeded, other, mem_cons_of_mem _ mem, spec⟩

/-- The comparison of a block with the children of its parent succeeds. -/
theorem isDeepestChild_ok (relevel : Relevel tree level deepest infos) (linked : tree.Linked)
    (found : tree.lookup above = some info) (knows : tree.parent key = some above) :
    (infos.isDeepestChild key = .ok true ∧ ∀ child ∈ info.children, level child ≤ level key) ∨
    (infos.isDeepestChild key = .ok false ∧ ∃ child ∈ info.children, child ≠ key ∧ level key ≤ level child) := by
  obtain ⟨keyInfo, foundKey, knowsKey⟩ := parent_eq_some.mp knows
  have looked : ∀ {other otherInfo}, tree.lookup other = some otherInfo → infos.lookup other =
      some { otherInfo with height := level other, deepestSlot := deepest other } := by
    intro other otherInfo foundOther
    rw [relevel other, foundOther, map_some]
  have heights : ∀ child ∈ info.children, infos.height child = level child := by
    intro child mem
    obtain ⟨_, foundChild, -⟩ := linked.child above info found child mem
    exact height_of (looked foundChild)
  have present : ∀ child ∈ info.children, ∃ childInfo, infos.lookup child = some childInfo := by
    intro child mem
    obtain ⟨_, foundChild, -⟩ := linked.child above info found child mem
    exact ⟨_, looked foundChild⟩
  have unfolded : infos.isDeepestChild key =
      infos.noDeeperChild key (level key) keyInfo.stakeVotedSubtree info.children := by
    simp only [isDeepestChild, looked foundKey, looked found, okOr, bind, Except.bind, knowsKey]
  rw [unfolded]
  rcases noDeeperChild_ok key (level key) keyInfo.stakeVotedSubtree present with
    ⟨succeeded, lower⟩ | ⟨succeeded, child, mem, higher, other⟩
  · exact .inl ⟨succeeded, fun child mem => heights child mem ▸ lower child mem⟩
  · refine .inr ⟨succeeded, child, mem, ?_, heights child mem ▸ higher⟩
    rintro rfl
    exact other (height_of (looked foundKey)).symm (weight_of (looked foundKey)).symm rfl

/-- The walk of a leaf comes to an end, and then all heights fit. -/
theorem propagateDeepest_ok (leaf) (linked : tree.Linked) (hung : tree.Hung) (turns) (enough : key.slot ≤ turns)
    (relevel : Relevel tree level deepest infos) (raised : Raised tree level key before) :
    ∃ level' deepest' infos', propagateDeepest leaf turns key (level key) (tree.parent key) infos = .ok infos' ∧
      Relevel tree level' deepest' infos' ∧ ∀ other info, tree.lookup other = some info →
        LevelBy level' other info := by
  induction turns generalizing key level deepest infos before with
  | zero =>
    cases knows : tree.parent key with
    | none =>
      refine ⟨level, deepest, infos, rfl, relevel, fun other info found => raised.levels other info found ?_⟩
      rw [knows]
      exact nofun
    | some above =>
      have older := linked.older_parent knows
      omega
  | succ turns ih =>
    cases knows : tree.parent key with
    | none =>
      refine ⟨level, deepest, infos, rfl, relevel, fun other info found => raised.levels other info found ?_⟩
      rw [knows]
      exact nofun
    | some above =>
      obtain ⟨info, found, mem⟩ := hung key above knows
      have older := linked.older_parent knows
      have looked : infos.lookup above = some { info with height := level above, deepestSlot := deepest above } := by
        rw [relevel above, found, map_some]
      have knowsNext : info.parent = tree.parent above := by
        rw [ForkInfos.parent, found, bind_some]
      rcases isDeepestChild_ok relevel linked found knows with
        ⟨compared, tallest⟩ | ⟨compared, child, memberChild, notKey, higher⟩
      · obtain ⟨level', deepest', infos', succeeded, relevel', levels⟩ :=
          ih (by omega) (relevel.write found) (raised.turn linked found knows mem tallest)
        rw [update_self, ← knowsNext] at succeeded
        refine ⟨level', deepest', infos', ?_, relevel', levels⟩
        simp only [propagateDeepest, compared, looked, okOr, bind, Except.bind, if_true]
        exact succeeded
      · refine ⟨level, deepest, infos, ?_, relevel, forall_of_parent found knows
          (raised.stop linked found knows memberChild notKey higher) raised.levels⟩
        simp only [propagateDeepest, compared, bind, Except.bind]
        rfl

/-! ### Both together -/

/-- A tree with other best blocks, heights and deepest blocks. -/
def Revalue (tree : ForkInfos) (best : SlotHashKey → SlotHashKey) (level : SlotHashKey → Nat)
    (deepest : SlotHashKey → SlotHashKey) (infos : ForkInfos) : Prop :=
  ∀ key, infos.lookup key = (tree.lookup key).map fun info =>
    { info with bestSlot := best key, height := level key, deepestSlot := deepest key }

theorem Revalue.settled (revalue : Revalue tree best level deepest infos) (linked : tree.Linked)
    (found : tree.lookup key = some info)
    (weight : info.stakeVotedSubtree = (info.stakeVotedAt + (info.children.map tree.weight).sum) % 2 ^ 64)
    (confirmed : ∀ child ∈ info.children, tree.Confirmed child → info.isDuplicateConfirmed = true ∧
      info.latestInvalidAncestor = none) (leads : LeadsBy tree best key info) (levels : LevelBy level key info) :
    infos.Settled key
      { info with bestSlot := best key, height := level key, deepestSlot := deepest key } := by
  have child : ∀ child ∈ info.children, infos.weight child = tree.weight child ∧
      (infos.Candidate child ↔ tree.Candidate child) ∧ (infos.Confirmed child ↔ tree.Confirmed child) ∧
      infos.best child = some (best child) ∧ infos.height child = level child := by
    intro child mem
    obtain ⟨_, foundChild, -⟩ := linked.child key info found child mem
    have looked := revalue child
    rw [foundChild, map_some] at looked
    refine ⟨?_, ?_, ?_, ?_, ?_⟩
    · rw [weight_of looked, weight_of foundChild]
    · rw [candidate_iff looked, candidate_iff foundChild]
      rfl
    · rw [confirmed_iff looked, confirmed_iff foundChild]
    · rw [best_of looked]
    · rw [height_of looked]
  constructor
  case weight =>
    rw [map_congr_left fun other mem => (child other mem).1]
    exact weight
  case height =>
    rw [tallest, greatest_congr fun other mem => (child other mem).2.2.2.2]
    exact levels
  case confirmed =>
    intro other mem isConfirmed
    exact confirmed other mem ((child other mem).2.2.1.mp isConfirmed)
  case toLeads =>
    constructor
    case within =>
      rcases leads.within with self | ⟨other, mem, same⟩
      · exact .inl self
      · exact .inr ⟨other, mem, same ▸ (child other mem).2.2.2.1⟩
    case best =>
      intro candidate
      rcases leads.best candidate with ⟨self, none⟩ | ⟨other, bestChild, same⟩
      · exact .inl ⟨self, fun other mem => (child other mem).2.1.not.mpr (none other mem)⟩
      · refine .inr ⟨other, ?_, same ▸ (child other bestChild.member).2.2.2.1⟩
        exact bestChild.congr (fun other mem => (child other mem).1) fun other mem => (child other mem).2.1

end ForkInfos

end Payout.ForkChoice
