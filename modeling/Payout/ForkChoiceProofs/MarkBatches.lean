/-
Purpose: What marking a block does to the marks of all others. A block that is marked invalid is the invalid ancestor
  of its subtree; a block that is marked valid takes marks off its subtree and off its ancestors, and nothing else.
-/
import Payout.ForkChoiceProofs.Climb
import Mathlib.Order.Bounds.Basic

namespace Payout.ForkChoice

open Lib Payout.Runtime List UpdateOperation Store

/-! ### The latest of some slots -/

/-- The greatest of a set of slots, if there is one. -/
def Latest (slots : Set Nat) : Option Nat → Prop
  | some slot => IsGreatest slots slot
  | none => slots = ∅

/-- What a mark does to the latest invalid ancestor of a block. -/
def UpdateOperation.remark : UpdateOperation → Option Nat → Option Nat
  | markValid slot, some latest => if latest ≤ slot then none else some latest
  | markInvalid slot, some latest => some (max latest slot)
  | markInvalid slot, none => some slot
  | _, latest => latest

namespace Latest

variable {slots : Set Nat} {latest : Option Nat}

theorem eq_some_iff (is : Latest slots latest) (slot) : latest = some slot ↔ IsGreatest slots slot := by
  cases latest with
  | none =>
    have empty : slots = ∅ := is
    rw [empty]
    exact ⟨nofun, fun greatest => greatest.1.elim⟩
  | some =>
    rw [Option.some.injEq]
    exact ⟨fun same => same ▸ is, is.unique⟩

theorem isNone_eq_false_iff (is : Latest slots latest) : latest.isNone = false ↔ slots.Nonempty := by
  cases latest with
  | none =>
    have empty : slots = ∅ := is
    simp [empty]
  | some last => exact iff_of_true rfl ⟨last, is.1⟩

theorem of_iff (values : ∀ slot, latest = some slot ↔ IsGreatest slots slot)
    (isNone : latest.isNone = false ↔ slots.Nonempty) : Latest slots latest := by
  cases latest with
  | none => exact Set.not_nonempty_iff_eq_empty.mp fun nonempty => nomatch isNone.mpr nonempty
  | some last => exact (values last).mp rfl

theorem insert (is : Latest slots latest) (slot) :
    Latest (Insert.insert slot slots) (remark (.markInvalid slot) latest) := by
  cases latest with
  | none =>
    have empty : slots = ∅ := is
    rw [empty]
    exact ⟨Set.mem_insert _ _, by simp [upperBounds]⟩
  | some last =>
    have greatest : IsGreatest slots last := is
    have new := greatest.insert slot
    rwa [max_comm] at new

theorem above (is : Latest slots latest) (bound) :
    Latest { slot | slot ∈ slots ∧ bound < slot } (remark (.markValid bound) latest) := by
  cases latest with
  | none =>
    have empty : slots = ∅ := is
    rw [empty]
    exact Set.eq_empty_of_forall_notMem fun slot mem => mem.1
  | some last =>
    have greatest : IsGreatest slots last := is
    rw [remark]
    split
    · rename_i le
      refine Set.eq_empty_of_forall_notMem ?_
      rintro slot ⟨mem, above⟩
      have below := greatest.2 mem
      omega
    · rename_i notLe
      exact ⟨⟨greatest.1, not_le.mp notLe⟩, fun slot mem => greatest.2 mem.1⟩

/-- A set with fewer slots has the same latest one if that is still there. -/
theorem subset (is : Latest slots latest) (subset : fewer ⊆ slots) (still : ∀ slot, latest = some slot → slot ∈ fewer) :
    Latest fewer latest := by
  cases latest with
  | none =>
    have empty : slots = ∅ := is
    exact Set.subset_empty_iff.mp (empty ▸ subset)
  | some last => exact ⟨still last rfl, fun slot mem => is.2 (subset mem)⟩

end Latest

variable {ancestry : Ancestry} {key top : SlotHashKey} {info : ForkInfo} {mark : UpdateOperation}
  {keys : List SlotHashKey}

namespace ForkInfos

/-! ### Paths -/

/-- The blocks from a block down to the root. -/
def pathTo (infos : ForkInfos) (key : SlotHashKey) : List SlotHashKey := key :: infos.ancestorIterator key

variable {infos before : ForkInfos} {root node valid other : SlotHashKey} {info' : ForkInfo} {todo : List Entry}
  {entry : Entry}

section

variable (shape : infos.Shape ancestry root)
include shape

theorem Shape.hung : infos.Hung := by
  intro other above knows
  obtain ⟨info, found, knows⟩ := parent_eq_some.mp knows
  exact (shape.parent other info above found knows).2

theorem under_iff_parent :
    infos.Under node key ↔ node = key ∨ ∃ above, infos.parent key = some above ∧ infos.Under node above := by
  constructor
  · intro under
    cases under with
    | self => exact .inl rfl
    | child before found mem =>
      exact .inr ⟨_, shape.linked.parent_child found mem, before⟩
  · rintro (rfl | ⟨above, knows, under⟩)
    · exact .self
    · obtain ⟨_, foundAbove, mem⟩ := shape.hung key above knows
      exact .child under foundAbove mem

theorem mem_ancestorsFrom_iff (turns) (enough : key.slot ≤ turns) :
    node ∈ infos.ancestorsFrom turns key ↔ ∃ above, infos.parent key = some above ∧ infos.Under node above := by
  induction turns generalizing key with
  | zero =>
    refine ⟨nofun, ?_⟩
    rintro ⟨above, knows, -⟩
    have older := shape.linked.older_parent knows
    omega
  | succ turns ih =>
    simp only [ancestorsFrom]
    cases knows : infos.parent key with
    | none => simp
    | some above =>
      have older := shape.linked.older_parent knows
      rw [mem_cons, ih (by omega), ← under_iff_parent shape]
      simp

theorem mem_pathTo_iff : node ∈ infos.pathTo key ↔ infos.Under node key := by
  rw [pathTo, mem_cons, ancestorIterator, mem_ancestorsFrom_iff shape _ le_rfl, under_iff_parent shape]

end

theorem Under.eq_of_slot (linked : infos.Linked) (first : infos.Under node key) (second : infos.Under other key)
    (same : node.slot = other.slot) : node = other := by
  have strict : ∀ {one two : SlotHashKey}, infos.Under one two → one.slot = two.slot → one = two := by
    intro one two under same
    cases under with
    | self => rfl
    | child before found mem =>
      have le := before.slot_le linked
      obtain ⟨childInfo, foundChild, knows⟩ := linked.child _ _ found _ mem
      have older := linked.older _ _ _ foundChild knows
      omega
  rcases first.comparable linked second with under | under
  · exact strict under same
  · exact (strict under same.symm).symm

theorem SameLinks.under (same : SameLinks infos infos') (under : infos.Under node key) : infos'.Under node key := by
  induction under with
  | self => exact .self
  | child _ found mem ih =>
    obtain ⟨_, found', -, children⟩ := same.symm.lookup found
    exact .child ih found' (children ▸ mem)

theorem SameLinks.under_iff (same : SameLinks infos infos') : infos'.Under node key ↔ infos.Under node key :=
  ⟨same.symm.under, same.under⟩

theorem Passes.under (passes : infos.Passes node top key) : infos.Under top key := by
  induction passes with
  | self => exact .self
  | child _ found mem _ ih => exact .child ih found mem

/-- The walk for marks visits a whole subtree: the key that stands for no block is in none. -/
theorem passes_iff_under (linked : infos.Linked) (isBlock : top ≠ .default) :
    infos.Passes .default top key ↔ infos.Under top key := by
  refine ⟨Passes.under, ?_⟩
  intro under
  induction under with
  | self => exact .self isBlock
  | child _ found mem ih =>
    refine .child ih found mem ?_
    rintro rfl
    obtain ⟨_, foundChild, knows⟩ := linked.child _ _ found _ mem
    exact absurd (linked.older _ _ _ foundChild knows) (Nat.not_lt_zero _)

/-! ### What a batch of marks does -/

/-- A mark changes the latest invalid ancestor, and confirms the block that it is for. -/
theorem Effect.remark (isMark : mark.IsMark) (effect : Effect infos key info info' mark) :
    info'.latestInvalidAncestor = mark.remark info.latestInvalidAncestor ∧
      (info'.isDuplicateConfirmed = true ↔ info.isDuplicateConfirmed = true ∨ mark = .markValid key.slot) := by
  cases mark with
  | aggregate => exact isMark.elim
  | add => exact isMark.elim
  | subtract => exact isMark.elim
  | markValid slot =>
    cases effect
    have cleared : (info.updateWithNewlyValidAncestor slot).latestInvalidAncestor =
        remark (.markValid slot) info.latestInvalidAncestor := by
      unfold ForkInfo.updateWithNewlyValidAncestor
      cases latest : info.latestInvalidAncestor with
      | none => simp [remark, latest]
      | some =>
        dsimp only [remark]
        split
        · rfl
        · exact latest
    have confirmed := (newlyValid_same info slot).confirmed
    split
    · rename_i same
      exact ⟨cleared, iff_of_true rfl (.inr (congrArg _ same.symm))⟩
    · rename_i other
      refine ⟨cleared, ?_⟩
      rw [confirmed, markValid.injEq, or_iff_left (Ne.symm other)]
  | markInvalid slot =>
    have same := (newlyInvalid_same effect).confirmed
    refine ⟨?_, by simp [same]⟩
    simp only [Effect, ForkInfo.updateWithNewlyInvalidAncestor, ok_iffs] at effect
    obtain ⟨-, rfl⟩ := effect
    cases latest : info.latestInvalidAncestor with
    | none => rfl
    | some last =>
      dsimp only [remark]
      split
      · rename_i less
        rw [max_eq_right less.le]
      · rename_i notLess
        rw [max_eq_left (not_lt.mp notLess), latest]

/-- The entry that marks a block. -/
def markEntry (mark : UpdateOperation) (key : SlotHashKey) : Entry := (toLex (key, mark.label), mark)

/-- What is known of the marks of a batch: they are for a subtree, the block they name is its top, and they leave alone
    the blocks that are confirmed. -/
structure Marks (before : ForkInfos) (mark : UpdateOperation) (keys : List SlotHashKey) (top : SlotHashKey) : Prop where
  linked : before.Linked
  settled : ∀ key info, before.lookup key = some info → before.Settled key info
  isMark : mark.IsMark
  named : ∀ slot, mark = .markValid slot → slot = top.slot
  subtree : ∀ key ∈ keys, before.Under top key
  quiet : ∀ key ∈ keys, before.Confirmed key → mark.remark none = none

/-- How far the marks of a batch have come. The blocks below the top may be confirmed by it. -/
structure Remarked (before : ForkInfos) (mark : UpdateOperation) (keys : List SlotHashKey) (top : SlotHashKey)
    (infos : ForkInfos) (todo : List Entry) : Prop where
  same : SameLinks before infos
  entries : ∀ entry ∈ todo, (∃ key ∈ keys, entry = markEntry mark key) ∨ ∃ key, entry = Entry.aggregate key
  stays : ∀ key, before.Confirmed key → infos.Confirmed key
  confirmed : ∀ key, infos.Confirmed key → before.Confirmed key ∨ (mark = .markValid top.slot ∧ before.Under key top)
  latest : ∀ key info old, infos.lookup key = some info → before.lookup key = some old →
    (mark = .markValid top.slot → before.Under key top → key = top) → info.latestInvalidAncestor =
      if key ∈ keys ∧ markEntry mark key ∉ todo then mark.remark old.latestInvalidAncestor
      else old.latestInvalidAncestor
  top : ∀ info, mark = .markValid top.slot → top ∈ keys → infos.lookup top = some info → markEntry mark top ∉ todo →
    info.isDuplicateConfirmed = true

theorem confirmed_insert_iff (found : infos.lookup key = some info) :
    Confirmed (infos.insert key info') other ↔
      (other = key ∧ info'.isDuplicateConfirmed = true) ∨ (other ≠ key ∧ infos.Confirmed other) := by
  simp only [Confirmed, lookup_insert_eq_some]
  constructor
  · rintro ⟨otherInfo, ⟨rfl, rfl⟩ | ⟨differs, foundOther⟩, confirmed⟩
    · exact .inl ⟨rfl, confirmed⟩
    · exact .inr ⟨differs, otherInfo, foundOther, confirmed⟩
  · rintro (⟨rfl, confirmed⟩ | ⟨differs, otherInfo, foundOther, confirmed⟩)
    · exact ⟨info', .inl ⟨rfl, rfl⟩, confirmed⟩
    · exact ⟨otherInfo, .inr ⟨differs, foundOther⟩, confirmed⟩

namespace Remarked

theorem tail_entries (remarked : Remarked before mark keys top infos (entry :: todo)) :
    ∀ later ∈ todo, (∃ key ∈ keys, later = markEntry mark key) ∨ ∃ key, later = Entry.aggregate key :=
  fun later mem => remarked.entries later (mem_cons_of_mem _ mem)

theorem skip (remarked : Remarked before mark keys top infos (entry :: todo)) (absent : infos.lookup entry.key = none) :
    Remarked before mark keys top infos todo := by
  refine { remarked with entries := remarked.tail_entries, latest := ?_, top := ?_ }
  · intro key info old found foundOld below
    have other : markEntry mark key ≠ entry := by
      rintro rfl
      cases absent.symm.trans found
    rw [remarked.latest key info old found foundOld below]
    simp only [mem_cons, other, false_or]
  · intro info valid mem found done
    refine remarked.top info valid mem found ?_
    rw [mem_cons, not_or]
    refine ⟨?_, done⟩
    rintro rfl
    cases absent.symm.trans found

section

variable (marks : Marks before mark keys top) (remarked : Remarked before mark keys top infos (entry :: todo))

include marks remarked

theorem write_mark (pending : Pending infos (entry :: todo)) (mem : key ∈ keys)
    (isEntry : entry = markEntry mark key) (found : infos.lookup key = some info)
    (effect : Effect infos key info info' mark) : Remarked before mark keys top (infos.insert key info') todo := by
  obtain ⟨latest, confirms⟩ := effect.remark marks.isMark
  have done : markEntry mark key ∉ todo := by
    intro later
    have less := rel_of_pairwise_cons pending.descending later
    rw [isEntry] at less
    exact lt_irrefl _ less
  have others : ∀ {other : SlotHashKey}, other ≠ key → (markEntry mark other ∉ todo ↔
      markEntry mark other ∉ entry :: todo) := by
    intro other differs
    rw [mem_cons, or_iff_right]
    rw [isEntry]
    intro same
    exact differs (congrArg Entry.key same)
  constructor
  case same => exact remarked.same.write found effect.links.1 effect.links.2
  case entries => exact remarked.tail_entries
  case stays =>
    intro other confirmed
    rw [confirmed_insert_iff found]
    by_cases isKey : other = key
    · subst isKey
      exact .inl ⟨rfl, confirms.mpr (.inl ((confirmed_iff found).mp (remarked.stays _ confirmed)))⟩
    · exact .inr ⟨isKey, remarked.stays other confirmed⟩
  case confirmed =>
    intro other confirmed
    rcases (confirmed_insert_iff found).mp confirmed with ⟨rfl, itself⟩ | ⟨-, confirmed⟩
    · rcases confirms.mp itself with old | valid
      · exact remarked.confirmed _ ((confirmed_iff found).mpr old)
      · -- Only the top of the subtree has the slot that is named.
        have slots := marks.named _ valid
        have isTop := Under.eq_of_slot marks.linked .self (marks.subtree _ mem) slots
        exact .inr ⟨slots ▸ valid, isTop ▸ .self⟩
    · exact remarked.confirmed other confirmed
  case latest =>
    intro other otherInfo old present foundOld below
    rcases lookup_insert_eq_some.mp present with ⟨rfl, rfl⟩ | ⟨differs, present⟩
    · have still := remarked.latest other info old found foundOld below
      have pendingMark : markEntry mark other ∈ entry :: todo := isEntry ▸ mem_cons_self
      rw [if_neg (fun both => both.2 pendingMark)] at still
      rw [if_pos ⟨mem, done⟩, latest, still]
    · simp only [others differs]
      exact remarked.latest other otherInfo old present foundOld below
  case top =>
    intro topInfo valid topMember present topDone
    rcases lookup_insert_eq_some.mp present with ⟨rfl, rfl⟩ | ⟨differs, present⟩
    · exact confirms.mpr (.inr valid)
    · exact remarked.top topInfo valid topMember present ((others differs).mp topDone)

/-- A block is aggregated. It is confirmed with one of its children only if it was before, or if it is below the top. -/
theorem write_aggregate (isEntry : entry = Entry.aggregate key) (found : infos.lookup key = some info)
    (aggregated : Aggregated infos info info') : Remarked before mark keys top (infos.insert key info') todo := by
  obtain ⟨old, foundOld, -, children⟩ := remarked.same.lookup found
  have entries : ∀ other, markEntry mark other ∈ entry :: todo ↔ markEntry mark other ∈ todo := by
    intro other
    rw [mem_cons, or_iff_right]
    rw [isEntry]
    intro same
    have isAggregate : mark = .aggregate := congrArg Prod.snd same
    exact (isAggregate ▸ marks.isMark : UpdateOperation.IsMark .aggregate)
  have withChild : ∀ child ∈ info.children, infos.Confirmed child →
      (old.isDuplicateConfirmed = true ∧ old.latestInvalidAncestor = none) ∨
        (mark = .markValid top.slot ∧ before.Under key top ∧ key ≠ top) := by
    intro child mem confirmed
    rw [children] at mem
    rcases remarked.confirmed child confirmed with confirmedOld | ⟨valid, under⟩
    · exact .inl ((marks.settled key old foundOld).confirmed child mem confirmedOld)
    refine .inr ⟨valid, (Under.ofParent foundOld mem under), ?_⟩
    rintro rfl
    have le := under.slot_le marks.linked
    obtain ⟨childInfo, foundChild, knows⟩ := marks.linked.child _ _ foundOld _ mem
    have older := marks.linked.older _ _ _ foundChild knows
    omega
  constructor
  case same => exact remarked.same.write found aggregated.parent aggregated.children
  case entries => exact remarked.tail_entries
  case stays =>
    intro other confirmed
    rw [confirmed_insert_iff found]
    by_cases isKey : other = key
    · subst isKey
      exact .inl ⟨rfl, aggregated.confirmed.mpr (.inl ((confirmed_iff found).mp (remarked.stays _ confirmed)))⟩
    · exact .inr ⟨isKey, remarked.stays other confirmed⟩
  case confirmed =>
    intro other confirmed
    rcases (confirmed_insert_iff found).mp confirmed with ⟨rfl, written⟩ | ⟨-, confirmed⟩
    · rcases aggregated.confirmed.mp written with itself | ⟨child, mem, confirmedChild⟩
      · exact remarked.confirmed _ ((confirmed_iff found).mpr itself)
      · rcases withChild child mem confirmedChild with ⟨confirmedOld, -⟩ | ⟨valid, under, -⟩
        · exact .inl ((confirmed_iff foundOld).mpr confirmedOld)
        · exact .inr ⟨valid, under⟩
    · exact remarked.confirmed other confirmed
  case latest =>
    intro other otherInfo otherOld present foundOther below
    simp only [← entries]
    rcases lookup_insert_eq_some.mp present with ⟨rfl, rfl⟩ | ⟨differs, present⟩
    case inr => exact remarked.latest other otherInfo otherOld present foundOther below
    case inl =>
      cases foundOld.symm.trans foundOther
      by_cases some : ∃ child ∈ info.children, infos.Confirmed child
      case neg => rw [aggregated.kept some, remarked.latest other info old found foundOld below]
      case pos =>
        rw [aggregated.cleared some]
        obtain ⟨child, mem, confirmed⟩ := some
        rcases withChild child mem confirmed with ⟨confirmedOld, none⟩ | ⟨valid, under, notTop⟩
        · rw [none]
          split
          · rename_i done
            exact (marks.quiet other done.1 ((confirmed_iff foundOld).mpr confirmedOld)).symm
          · rfl
        · exact absurd (below valid under) notTop
  case top =>
    intro topInfo valid topMember present topDone
    rw [← entries] at topDone
    rcases lookup_insert_eq_some.mp present with ⟨rfl, rfl⟩ | ⟨_, present⟩
    · exact aggregated.confirmed.mpr (.inl (remarked.top info valid topMember found topDone))
    · exact remarked.top topInfo valid topMember present topDone

theorem write (pending : Pending infos (entry :: todo)) (found : infos.lookup entry.key = some info)
    (effect : Effect infos entry.key info info' entry.2) :
    Remarked before mark keys top (infos.insert entry.key info') todo := by
  rcases remarked.entries entry mem_cons_self with ⟨key, mem, isEntry⟩ | ⟨key, isEntry⟩
  · subst isEntry
    exact remarked.write_mark marks pending mem rfl found effect
  · subst isEntry
    exact remarked.write_aggregate marks rfl found effect.1

end

end Remarked

theorem remarked_start (marks : Marks before mark keys top) (subtree : ∀ key, key ∈ keys ↔ before.Passes node top key) :
    Remarked before mark keys top before (before.markBatch mark keys top).entries.reverse where
  same := .refl before
  entries := by
    intro entry mem
    rcases (markBatch_schedule marks.linked marks.isMark subtree).2 entry (mem_reverse.mp mem) with
      ⟨key, marked, isMark | isAggregate⟩ | isAggregate
    · exact .inl ⟨key, marked, isMark⟩
    · exact .inr ⟨key, isAggregate⟩
    · exact .inr isAggregate
  stays key confirmed := confirmed
  confirmed key confirmed := .inl confirmed
  latest := by
    intro key info old found foundOld _
    cases found.symm.trans foundOld
    rw [if_neg]
    rintro ⟨marked, done⟩
    exact done (mem_reverse.mpr (markEntry_mem_markBatch marks.linked marks.isMark subtree marked))
  top := by
    intro info valid marked found done
    exact absurd (mem_reverse.mpr (markEntry_mem_markBatch marks.linked marks.isMark subtree marked)) done

/-- A block was marked invalid: the blocks of its subtree have it as an invalid ancestor. -/
structure Invalidated (before after : ForkInfos) (top : SlotHashKey) : Prop where
  same : SameLinks before after
  stays : ∀ key, before.Confirmed key → after.Confirmed key
  within : ∀ key info old, after.lookup key = some info → before.lookup key = some old → before.Under top key →
    info.latestInvalidAncestor = UpdateOperation.remark (.markInvalid top.slot) old.latestInvalidAncestor
  outside : ∀ key info old, after.lookup key = some info → before.lookup key = some old → ¬ before.Under top key →
    info.latestInvalidAncestor = old.latestInvalidAncestor

/-- A block was marked valid: its subtree and its ancestors are rid of marks up to its slot, and nothing else is.
    Nothing is done if the block has the key that stands for no block. -/
structure Validated (before after : ForkInfos) (top : SlotHashKey) : Prop where
  same : SameLinks before after
  stays : ∀ key, before.Confirmed key → after.Confirmed key
  below : ∀ key info, after.lookup key = some info → before.Under key top → key ≠ top →
    info.latestInvalidAncestor = none
  within : ∀ key info old, after.lookup key = some info → before.lookup key = some old → before.Under top key →
    info.latestInvalidAncestor = if top = .default then old.latestInvalidAncestor
      else UpdateOperation.remark (.markValid top.slot) old.latestInvalidAncestor
  outside : ∀ key info old, after.lookup key = some info → before.lookup key = some old → ¬ before.Under top key →
    ¬ before.Under key top → info.latestInvalidAncestor = old.latestInvalidAncestor

/-- When all blocks are settled, all blocks below a confirmed one are confirmed and carry no mark. -/
theorem Under.confirmed (settled : ∀ key info, infos.lookup key = some info → infos.Settled key info)
    (under : infos.Under key top) (confirmed : infos.Confirmed top) :
    infos.Confirmed key ∧ (key ≠ top → ∀ info, infos.lookup key = some info → info.latestInvalidAncestor = none) := by
  induction under with
  | self => exact ⟨confirmed, fun other => absurd rfl other⟩
  | @child middle _ _ _ found mem ih =>
    have itself := (settled _ _ found).confirmed _ mem confirmed
    have above := ih ⟨_, found, itself.1⟩
    refine ⟨above.1, ?_⟩
    intro _ info foundKey
    by_cases same : key = middle
    · subst same
      cases found.symm.trans foundKey
      exact itself.2
    · exact above.2 same info foundKey

end ForkInfos

namespace HeaviestSubtreeForkChoice

open ForkInfos

variable {tree : HeaviestSubtreeForkChoice} {stake : Pubkey → Nat → Nat}

section

variable (sound : Sound ancestry stake tree)

include sound

theorem markBatch_remarked (marks : Marks tree.forkInfos mark keys top)
    (subtree : ∀ key, key ∈ keys ↔ tree.forkInfos.Passes avoid top key)
    (unconfirmed : ∀ slot, mark = .markInvalid slot → ¬ tree.forkInfos.Confirmed top) :
    ∃ infos, tree.forkInfos.processUpdateOperations (tree.forkInfos.markBatch mark keys top) = .ok infos ∧
      Sound ancestry stake { tree with forkInfos := infos } ∧
      Remarked tree.forkInfos mark keys top infos [] := by
  obtain ⟨pending, accounted⟩ := markBatch_pending sound marks.isMark subtree unconfirmed
  obtain ⟨infos, processed, -, same, values, remarked⟩ := pending.finish
    (P := Remarked tree.forkInfos mark keys top) accounted (remarked_start marks subtree)
    (fun _ _ _ _ remarked => remarked.skip)
    (fun _ _ _ _ _ pending remarked found => remarked.write marks pending found)
  exact ⟨infos, processed, sound.ofValues same values, remarked⟩

theorem markForkInvalidCandidate_remarked (found : tree.forkInfos.lookup key = some info)
    (unconfirmed : ¬ tree.forkInfos.Confirmed key) :
    ∃ keys infos, tree.markForkInvalidCandidate key = .ok { tree with forkInfos := infos } ∧
      Sound ancestry stake { tree with forkInfos := infos } ∧
      (∀ other, other ∈ keys ↔ tree.forkInfos.Passes .default key other) ∧
      Remarked tree.forkInfos (.markInvalid key.slot) keys key infos [] := by
  obtain ⟨keys, walked, -, subtree⟩ := subtreeDiff_ok sound.shape.linked found .default
  have marks : Marks tree.forkInfos (.markInvalid key.slot) keys key := by
    refine ⟨sound.shape.linked, sound.settled, trivial, nofun, fun other mem => ((subtree other).mp mem).under, ?_⟩
    intro other mem confirmed
    exact absurd confirmed (((subtree other).mp mem).unconfirmed sound.settled unconfirmed)
  obtain ⟨infos, processed, sound', remarked⟩ := markBatch_remarked sound marks subtree fun _ _ => unconfirmed
  refine ⟨keys, infos, ?_, sound', subtree, remarked⟩
  rw [confirmed_iff found] at unconfirmed
  simp only [markForkInvalidCandidate, found, ok_iffs]
  exact ⟨unconfirmed, keys, walked, infos, processed, rfl⟩

/-- Marking a block that is not confirmed invalid keeps the tree sound. -/
theorem markForkInvalidCandidate_sound (unconfirmed : ¬ tree.forkInfos.Confirmed key) :
    ∃ tree', tree.markForkInvalidCandidate key = .ok tree' ∧ Sound ancestry stake tree' := by
  cases found : tree.forkInfos.lookup key with
  | none => exact ⟨tree, by simp only [markForkInvalidCandidate, found], sound⟩
  | some =>
    obtain ⟨-, _, marked, sound', -⟩ := markForkInvalidCandidate_remarked sound found unconfirmed
    exact ⟨_, marked, sound'⟩

section

variable (found : tree.forkInfos.lookup key = some info)
include found

theorem markForkInvalidCandidate_marks (unconfirmed : ¬ tree.forkInfos.Confirmed key) (isBlock : key ≠ .default) :
    ∃ infos, tree.markForkInvalidCandidate key = .ok { tree with forkInfos := infos } ∧
      Sound ancestry stake { tree with forkInfos := infos } ∧ Invalidated tree.forkInfos infos key := by
  obtain ⟨keys, infos, marked, sound', subtree, remarked⟩ := markForkInvalidCandidate_remarked sound found unconfirmed
  have under : ∀ other, other ∈ keys ↔ tree.forkInfos.Under key other :=
    fun other => (subtree other).trans (passes_iff_under sound.shape.linked isBlock)
  refine ⟨infos, marked, sound', remarked.same, remarked.stays, ?_, ?_⟩
  · intro other after old foundAfter foundOld within
    have latest := remarked.latest other after old foundAfter foundOld nofun
    rwa [if_pos ⟨(under other).mpr within, not_mem_nil⟩] at latest
  · intro other after old foundAfter foundOld outside
    have latest := remarked.latest other after old foundAfter foundOld nofun
    rwa [if_neg (fun both => outside ((under other).mp both.1))] at latest

theorem markForkValidCandidate_remarked :
    ∃ keys infos confirmed,
      tree.markForkValidCandidate key = .ok ({ tree with forkInfos := infos }, confirmed) ∧
      Sound ancestry stake { tree with forkInfos := infos } ∧
      (∀ other, other ∈ keys ↔ tree.forkInfos.Passes .default key other) ∧
      Remarked tree.forkInfos (.markValid key.slot) keys key infos [] := by
  obtain ⟨keys, walked, -, subtree⟩ := subtreeDiff_ok sound.shape.linked found .default
  have marks : Marks tree.forkInfos (.markValid key.slot) keys key :=
    ⟨sound.shape.linked, sound.settled, trivial, fun _ same => (markValid.inj same).symm,
      fun other mem => ((subtree other).mp mem).under, fun _ _ _ => rfl⟩
  obtain ⟨infos, processed, sound', remarked⟩ := markBatch_remarked sound marks subtree nofun
  obtain ⟨path, looked⟩ := path_present sound found
  refine ⟨keys, infos, newlyDuplicateConfirmed (key :: tree.forkInfos.ancestorIterator key) path, ?_, sound',
    subtree, remarked⟩
  simp only [markForkValidCandidate, bind_ok_iff]
  exact ⟨path, looked, keys, walked, infos, processed, rfl⟩

/-- Marking a block valid takes marks off its subtree and its ancestors. -/
theorem markForkValidCandidate_marks (first : key = .default → tree.forkInfos.Confirmed key) :
    ∃ infos confirmed, tree.markForkValidCandidate key = .ok ({ tree with forkInfos := infos }, confirmed) ∧
      Sound ancestry stake { tree with forkInfos := infos } ∧ Validated tree.forkInfos infos key := by
  obtain ⟨keys, infos, newly, marked, sound', subtree, remarked⟩ := markForkValidCandidate_remarked sound found
  refine ⟨infos, newly, marked, sound', remarked.same, remarked.stays, ?_, ?_, ?_⟩
  · intro other after foundAfter below differs
    obtain ⟨top, foundTop, -⟩ := remarked.same.symm.lookup found
    have confirmed : infos.Confirmed key := by
      by_cases isFirst : key = .default
      · exact remarked.stays key (first isFirst)
      · have mem := (subtree key).mpr (.self isFirst)
        exact ⟨top, foundTop, remarked.top top rfl mem foundTop not_mem_nil⟩
    exact (Under.confirmed sound'.settled (remarked.same.under below) confirmed).2 differs after foundAfter
  · intro other after old foundAfter foundOld above
    have latest := remarked.latest other after old foundAfter foundOld
      fun _ below => Under.eq_of_slot sound.shape.linked .self below
        (le_antisymm (above.slot_le sound.shape.linked) (below.slot_le sound.shape.linked)) |>.symm
    by_cases isFirst : key = .default
    · have none : other ∉ keys := fun mem => ((subtree other).mp mem).top_ne_avoid isFirst
      rw [if_neg fun both => none both.1] at latest
      rw [latest, if_pos isFirst]
    · have mem := (subtree other).mpr ((passes_iff_under sound.shape.linked isFirst).mpr above)
      rw [if_pos ⟨mem, not_mem_nil⟩] at latest
      rw [latest, if_neg isFirst]
  · intro other after old foundAfter foundOld outside notBelow
    have latest := remarked.latest other after old foundAfter foundOld fun _ below => absurd below notBelow
    rwa [if_neg (fun both => outside ((subtree other).mp both.1).under)] at latest

end

end

end HeaviestSubtreeForkChoice

end Payout.ForkChoice
