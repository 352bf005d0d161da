/-
Purpose: Batches of update operations settle a tree. While a batch is processed, every block is settled or is still
  scheduled for aggregation; operations are taken from the newest block to the oldest. Whoever changes a block schedules
  the aggregation of all blocks below it, though the walk down stops at the first one that was scheduled before.
-/
import Payout.ForkChoiceProofs.Settled

namespace Payout.ForkChoice

open Lib List Store UpdateLabel

/-! ### Entries of a batch -/

namespace UpdateOperation

def label : UpdateOperation → UpdateLabel
  | add _ => .add
  | markValid slot => .markValid slot
  | markInvalid slot => .markInvalid slot
  | subtract _ => .subtract
  | aggregate => .aggregate

/-- The operation marks a block valid or invalid. -/
def IsMark : UpdateOperation → Prop
  | markValid _ => True
  | markInvalid _ => True
  | _ => False

/-- The stake an operation moves. -/
def stake : UpdateOperation → Nat
  | add stake => stake
  | subtract stake => stake
  | _ => 0

end UpdateOperation

theorem UpdateLabel.lt_iff {one other : UpdateLabel} : one < other ↔ one.rank < other.rank := Iff.rfl

theorem UpdateLabel.le_subtract (label : UpdateLabel) : label ≤ .subtract := by
  rw [← not_lt, lt_iff]
  cases label <;> simp [rank, Prod.Lex.toLex_lt_toLex]

theorem UpdateLabel.aggregate_le (label : UpdateLabel) : .aggregate ≤ label := by
  rw [← not_lt, lt_iff]
  cases label <;> simp [rank, Prod.Lex.toLex_lt_toLex]

/-- An operation of a batch, under the block and label it is for. -/
abbrev Entry := (SlotHashKey ×ₗ UpdateLabel) × UpdateOperation

namespace Entry

def key (entry : Entry) : SlotHashKey := (ofLex entry.1).1

/-- The aggregation of a block. -/
def aggregate (key : SlotHashKey) : Entry := (toLex (key, .aggregate), .aggregate)

theorem lt_iff {one other : Entry} : one.1 < other.1 ↔
    one.key < other.key ∨ (one.key = other.key ∧ (ofLex one.1).2 < (ofLex other.1).2) :=
  Prod.Lex.lt_iff

end Entry

/-- A stake is added at a block and to its subtree. To take one off is to add what is missing to a whole turn. -/
def ForkInfo.restake (info : ForkInfo) (stake : Nat) : ForkInfo :=
  { info with
    stakeVotedAt := wrappingAdd 64 info.stakeVotedAt stake
    stakeVotedSubtree := wrappingAdd 64 info.stakeVotedSubtree stake }

namespace ForkInfos

/-- What holds while a batch is processed, with the operations to do. -/
structure Pending (infos : ForkInfos) (todo : List Entry) : Prop where
  linked : infos.Linked
  settled : ∀ key info, infos.lookup key = some info → infos.Settled key info ∨ .aggregate key ∈ todo
  small : ∀ key info, infos.lookup key = some info → info.stakeVotedAt < 2 ^ 64
  descending : todo.Pairwise fun one other => other.1 < one.1
  labelled : ∀ entry ∈ todo, (ofLex entry.1).2 = entry.2.label
  parents : ∀ entry ∈ todo, ∀ parent, infos.parent entry.key = some parent → .aggregate parent ∈ todo
  marks : ∀ entry ∈ todo, entry.2.IsMark → .aggregate entry.key ∈ todo
  unconfirmed : ∀ entry ∈ todo, ∀ slot info, entry.2 = .markInvalid slot → infos.lookup entry.key = some info →
    info.isDuplicateConfirmed = false

variable {infos : ForkInfos} {entry later : Entry} {todo : List Entry} {key other parent : SlotHashKey}
  {info info' : ForkInfo}

theorem parent_eq_some : infos.parent key = some parent ↔
    ∃ info, infos.lookup key = some info ∧ info.parent = some parent := by
  rw [ForkInfos.parent, Option.bind_eq_some_iff]

section

variable (linked : infos.Linked)
include linked

theorem Linked.older_parent (knows : infos.parent key = some parent) : parent.slot < key.slot := by
  obtain ⟨info, found, knows⟩ := parent_eq_some.mp knows
  exact linked.older key info parent found knows

theorem Linked.ne_parent (knows : infos.parent key = some parent) : key ≠ parent := by
  rintro rfl
  exact lt_irrefl _ (linked.older_parent knows)

theorem Linked.parent_child {child : SlotHashKey} (found : infos.lookup key = some info)
    (mem : child ∈ info.children) : infos.parent child = some key :=
  parent_eq_some.mpr (linked.child key info found child mem)

/-- A block is no child of another block than its parent. -/
theorem Linked.child_ne {child : SlotHashKey} (found : infos.lookup other = some info)
    (notParent : infos.parent key ≠ some other) (mem : child ∈ info.children) : child ≠ key := by
  rintro rfl
  exact notParent (linked.parent_child found mem)

/-! ### Writing a block -/

/-- Writing a block keeps the tree linked if it keeps the block's parent and adds no children. -/
theorem Linked.write (found : infos.lookup key = some info) (parents : info'.parent = info.parent)
    (children : ∀ child ∈ info'.children, child ∈ info.children) : Linked (infos.insert key info') := by
  have before : ∀ other otherInfo, (infos.insert key info').lookup other = some otherInfo →
      ∃ old, infos.lookup other = some old ∧ otherInfo.parent = old.parent ∧
        ∀ child ∈ otherInfo.children, child ∈ old.children := by
    intro other otherInfo present
    rcases lookup_insert_eq_some.mp present with ⟨rfl, rfl⟩ | ⟨-, present⟩
    · exact ⟨info, found, parents, children⟩
    · exact ⟨otherInfo, present, rfl, fun _ mem => mem⟩
  constructor
  case child =>
    intro other otherInfo present child mem
    obtain ⟨old, foundOld, -, oldChildren⟩ := before other otherInfo present
    obtain ⟨childInfo, foundChild, knows⟩ := linked.child other old foundOld child (oldChildren child mem)
    by_cases same : child = key
    · subst same
      rw [found, Option.some.injEq] at foundChild
      exact ⟨info', AList.lookup_insert _, by rw [parents, foundChild, knows]⟩
    · exact ⟨childInfo, (AList.lookup_insert_ne same).trans foundChild, knows⟩
  case older =>
    intro other otherInfo parent present knows
    obtain ⟨old, foundOld, sameParent, -⟩ := before other otherInfo present
    exact linked.older other old parent foundOld (sameParent ▸ knows)

end

theorem parent_write (found : infos.lookup key = some info) (parents : info'.parent = info.parent) :
    ForkInfos.parent (infos.insert key info') other = infos.parent other := by
  rw [ForkInfos.parent, ForkInfos.parent, lookup_insert_eq_ite]
  split
  · rename_i same
    rw [same, found]
    exact parents
  · rfl

theorem Settled.write {otherInfo : ForkInfo} (settled : infos.Settled other otherInfo) (linked : infos.Linked)
    (foundOther : infos.lookup other = some otherInfo) (notParent : infos.parent key ≠ some other) :
    Settled (infos.insert key info') other otherInfo := by
  apply settled.congr
  intro child mem
  exact AList.lookup_insert_ne (linked.child_ne foundOther notParent mem)

namespace Pending

/-- What is still to do for the block of the first operation comes earlier in the order of labels. -/
theorem label_lt (pending : Pending infos (entry :: todo)) (mem : later ∈ todo) (same : later.key = entry.key) :
    later.2.label < entry.2.label := by
  have less := rel_of_pairwise_cons pending.descending mem
  rcases Entry.lt_iff.mp less with older | ⟨-, lower⟩
  · exact absurd same older.ne
  · rwa [pending.labelled later (mem_cons_of_mem _ mem), pending.labelled entry mem_cons_self] at lower

/-- The aggregations a later operation relies on are still to do. -/
theorem later_aggregate (pending : Pending infos (entry :: todo)) (mem : later ∈ todo)
    (scheduled : .aggregate key ∈ entry :: todo) (before : (Entry.aggregate key).1 < later.1) :
    .aggregate key ∈ todo := by
  rcases mem_cons.mp scheduled with same | member'
  · have less := rel_of_pairwise_cons pending.descending mem
    rw [← same] at less
    exact absurd before less.not_gt
  · exact member'

theorem mark_after_aggregate {operation : UpdateOperation} (mark : operation.IsMark) : aggregate < operation.label := by
  cases operation with
  | markValid => exact lt_iff.mpr (Prod.Lex.toLex_lt_toLex.mpr (.inl Nat.zero_lt_two))
  | markInvalid => exact lt_iff.mpr (Prod.Lex.toLex_lt_toLex.mpr (.inl (Nat.zero_lt_succ 2)))
  | add => exact mark.elim
  | subtract => exact mark.elim
  | aggregate => exact mark.elim

section

variable (pending : Pending infos (entry :: todo))

include pending

theorem tail_parents : ∀ later ∈ todo, ∀ parent, infos.parent later.key = some parent → .aggregate parent ∈ todo := by
  intro later mem parent knows
  have scheduled := pending.parents later (mem_cons_of_mem _ mem) parent knows
  exact pending.later_aggregate mem scheduled (Entry.lt_iff.mpr (.inl (.inl (pending.linked.older_parent knows))))

theorem tail_marks : ∀ later ∈ todo, later.2.IsMark → .aggregate later.key ∈ todo := by
  intro later mem mark
  have scheduled := pending.marks later (mem_cons_of_mem _ mem) mark
  refine pending.later_aggregate mem scheduled (Entry.lt_iff.mpr (.inr ⟨rfl, ?_⟩))
  rw [pending.labelled later (mem_cons_of_mem _ mem)]
  exact mark_after_aggregate mark

/-- The parent of the block of the first operation is aggregated later. -/
theorem parent_later (knows : infos.parent entry.key = some parent) : .aggregate parent ∈ todo := by
  rcases mem_cons.mp (pending.parents entry mem_cons_self parent knows) with same | mem
  · have older := pending.linked.older_parent knows
    rw [← same] at older
    exact absurd older (lt_irrefl _)
  · exact mem

theorem skip (absent : infos.lookup entry.key = none) :
    Pending infos todo where
  linked := pending.linked
  settled := by
    intro key info found
    rcases pending.settled key info found with settled | scheduled
    · exact .inl settled
    · rcases mem_cons.mp scheduled with same | mem
      · have sameKey : entry.key = key := by rw [← same]; rfl
        rw [sameKey, found] at absent
        exact absurd absent (Option.some_ne_none _)
      · exact .inr mem
  small := pending.small
  descending := pending.descending.of_cons
  labelled later mem := pending.labelled later (mem_cons_of_mem _ mem)
  parents := pending.tail_parents
  marks := pending.tail_marks
  unconfirmed later mem := pending.unconfirmed later (mem_cons_of_mem _ mem)

theorem write (found : infos.lookup entry.key = some info) (parents : info'.parent = info.parent)
    (children : info'.children = info.children)
    (self : Settled (infos.insert entry.key info') entry.key info' ∨ .aggregate entry.key ∈ todo)
    (small : info'.stakeVotedAt < 2 ^ 64)
    (unconfirmed : ∀ slot, .markInvalid slot < entry.2.label → info'.isDuplicateConfirmed = info.isDuplicateConfirmed) :
    Pending (infos.insert entry.key info') todo where
  linked := pending.linked.write found parents fun _ mem => children ▸ mem
  settled := by
    intro key keyInfo present
    rcases lookup_insert_eq_some.mp present with ⟨rfl, rfl⟩ | ⟨other, present⟩
    · exact self
    by_cases isParent : infos.parent entry.key = some key
    · exact .inr (pending.parent_later isParent)
    · rcases pending.settled key keyInfo present with settled | scheduled
      · exact .inl (settled.write pending.linked present isParent)
      · rcases mem_cons.mp scheduled with same | mem
        · exact absurd (by rw [← same]; rfl) other
        · exact .inr mem
  small := by
    intro key keyInfo present
    rcases lookup_insert_eq_some.mp present with ⟨-, rfl⟩ | ⟨-, present⟩
    · exact small
    · exact pending.small key keyInfo present
  descending := pending.descending.of_cons
  labelled later mem := pending.labelled later (mem_cons_of_mem _ mem)
  parents := by
    intro later mem parent knows
    rw [parent_write found parents] at knows
    exact pending.tail_parents later mem parent knows
  marks := pending.tail_marks
  unconfirmed := by
    intro later mem slot laterInfo invalidates present
    rcases lookup_insert_eq_some.mp present with ⟨same, rfl⟩ | ⟨-, present⟩
    · have lower := pending.label_lt mem same
      rw [invalidates] at lower
      rw [unconfirmed slot lower]
      exact pending.unconfirmed later (mem_cons_of_mem _ mem) slot info invalidates (same ▸ found)
    · exact pending.unconfirmed later (mem_cons_of_mem _ mem) slot laterInfo invalidates present

end

end Pending

/-! ### Operations -/

/-- What an operation does to a block that is there. -/
def Effect (infos : ForkInfos) (key : SlotHashKey) (info info' : ForkInfo) : UpdateOperation → Prop
  | .aggregate => Aggregated infos info info' ∧ Settled (infos.insert key info') key info'
  | .add stake => info' = info.restake stake
  | .subtract stake => info' = info.restake (2 ^ 64 - stake % 2 ^ 64)
  | .markValid slot => info' = if key.slot = slot
      then { info.updateWithNewlyValidAncestor slot with isDuplicateConfirmed := true }
      else info.updateWithNewlyValidAncestor slot
  | .markInvalid slot => info.updateWithNewlyInvalidAncestor slot = .ok info'

/-- All but the mark of a block is kept by marking it. -/
structure SameButMark (info info' : ForkInfo) : Prop where
  stakeVotedAt : info'.stakeVotedAt = info.stakeVotedAt
  parent : info'.parent = info.parent
  children : info'.children = info.children
  confirmed : info'.isDuplicateConfirmed = info.isDuplicateConfirmed

theorem newlyValid_same (info slot) : SameButMark info (info.updateWithNewlyValidAncestor slot) := by
  unfold ForkInfo.updateWithNewlyValidAncestor
  split
  · split <;> exact ⟨rfl, rfl, rfl, rfl⟩
  · exact ⟨rfl, rfl, rfl, rfl⟩

theorem newlyInvalid_same (updated : info.updateWithNewlyInvalidAncestor slot = .ok info') :
    SameButMark info info' := by
  simp only [ForkInfo.updateWithNewlyInvalidAncestor, ok_iffs] at updated
  obtain ⟨-, rfl⟩ := updated
  split
  · split <;> exact ⟨rfl, rfl, rfl, rfl⟩
  · exact ⟨rfl, rfl, rfl, rfl⟩

/-- Changing the stake of a block and of its subtree alike keeps it settled. -/
theorem Settled.restake (settled : infos.Settled key info) (stake) : infos.Settled key (info.restake stake) := by
  refine { settled with weight := ?_ }
  have before := settled.weight
  dsimp only [ForkInfo.restake, wrappingAdd]
  omega

namespace Pending

/-- An operation that is no aggregation leaves the aggregation of its block to be done. -/
theorem still_scheduled (scheduled : .aggregate key ∈ entry :: todo) (other : entry.2 ≠ .aggregate) :
    .aggregate key ∈ todo := by
  rcases mem_cons.mp scheduled with same | mem
  · exact absurd (congrArg Prod.snd same.symm) other
  · exact mem

section

variable (pending : Pending infos (entry :: todo))
include pending

/-- Changing the stake of a block and of its subtree alike is no work for the block itself. -/
theorem restake (found : infos.lookup entry.key = some info) (other : entry.2 ≠ .aggregate) (stake) :
    Pending (infos.insert entry.key (info.restake stake)) todo := by
  refine pending.write found rfl rfl ?_ (Nat.mod_lt _ (Nat.two_pow_pos 64)) fun _ _ => rfl
  rcases pending.settled entry.key info found with settled | scheduled
  · exact .inl ((settled.restake stake).congr (pending.linked.agree found _))
  · exact .inr (still_scheduled scheduled other)

theorem mark (found : infos.lookup entry.key = some info) (isMark : entry.2.IsMark) (same : SameButMark info info')
    (isConfirmed) (unconfirmed : ∀ slot, .markInvalid slot < entry.2.label → isConfirmed = info.isDuplicateConfirmed) :
    Pending (infos.insert entry.key { info' with isDuplicateConfirmed := isConfirmed }) todo := by
  have other : entry.2 ≠ .aggregate := by
    intro aggregates
    rw [aggregates] at isMark
    exact isMark
  have scheduled := still_scheduled (pending.marks entry mem_cons_self isMark) other
  refine pending.write found same.parent same.children (.inr scheduled) ?_ unconfirmed
  rw [same.stakeVotedAt]
  exact pending.small entry.key info found

theorem step :
    (infos.lookup entry.key = none ∧ infos.applyOperation entry.key entry.2 = .ok infos ∧ Pending infos todo) ∨
    ∃ info info', infos.lookup entry.key = some info ∧
      infos.applyOperation entry.key entry.2 = .ok (infos.insert entry.key info') ∧
      Effect infos entry.key info info' entry.2 ∧ Pending (infos.insert entry.key info') todo := by
  cases found : infos.lookup entry.key with
  | none =>
    refine .inl ⟨rfl, ?_, pending.skip found⟩
    cases entry.2 <;> simp [applyOperation, markForkValid, markForkInvalid, aggregateSlot, addSlotStake,
      subtractSlotStake, found]
  | some info =>
    refine .inr ⟨info, ?_⟩
    cases operation : entry.2 with
    | aggregate =>
      obtain ⟨info', succeeded, aggregated, settled⟩ := aggregateSlot_settled pending.linked found
        (pending.small entry.key info found)
      refine ⟨info', rfl, succeeded, ⟨aggregated, settled⟩, ?_⟩
      refine pending.write found aggregated.parent aggregated.children (.inl settled)
        (aggregated.stakeVotedAt ▸ pending.small entry.key info found) ?_
      intro slot lower
      rw [operation] at lower
      exact absurd lower (aggregate_le _).not_gt
    | add stake =>
      refine ⟨_, rfl, ?_, rfl, pending.restake found (by simp [operation]) stake⟩
      simp only [applyOperation, addSlotStake, found, ForkInfo.restake]
    | subtract stake =>
      refine ⟨_, rfl, ?_, rfl, pending.restake found (by simp [operation]) (2 ^ 64 - stake % 2 ^ 64)⟩
      simp only [applyOperation, subtractSlotStake, found, ForkInfo.restake, wrappingAdd, wrappingSub]
    | markValid slot =>
      refine ⟨_, rfl, by simp only [applyOperation, markForkValid, found], rfl, ?_⟩
      have lowest : ∀ slot', ¬ markInvalid slot' < entry.2.label := by
        intro slot'
        rw [operation, lt_iff]
        simp [UpdateOperation.label, rank, Prod.Lex.toLex_lt_toLex]
      have isMark : entry.2.IsMark := by
        rw [operation]
        trivial
      split
      · exact pending.mark found isMark (newlyValid_same info slot) true
          fun slot' lower => absurd lower (lowest slot')
      · exact pending.mark found isMark (newlyValid_same info slot) _
          fun slot' lower => absurd lower (lowest slot')
    | markInvalid slot =>
      have unconfirmed := pending.unconfirmed entry mem_cons_self slot info operation found
      have isMark : entry.2.IsMark := by
        rw [operation]
        trivial
      cases updated : info.updateWithNewlyInvalidAncestor slot with
      | error =>
        simp [ForkInfo.updateWithNewlyInvalidAncestor, bind_error_iff, rejectIf_eq_error, unconfirmed] at updated
      | ok info' =>
        have same := newlyInvalid_same updated
        refine ⟨info', rfl, ?_, updated, ?_⟩
        · simp only [applyOperation, markForkInvalid, found, updated]
          rfl
        · exact pending.mark found isMark same info'.isDuplicateConfirmed fun _ _ => same.confirmed

end

/-- A batch succeeds, and what every one of its operations keeps holds in the end. -/
theorem process {P : ForkInfos → List Entry → Prop} (pending : Pending infos todo) (start : P infos todo)
    (skipped : ∀ infos entry todo, Pending infos (entry :: todo) → P infos (entry :: todo) → infos.lookup entry.key =
      none → P infos todo)
    (written : ∀ infos entry todo info info', Pending infos (entry :: todo) → P infos (entry :: todo) → infos.lookup
      entry.key = some info → Effect infos entry.key info info' entry.2 → P (infos.insert entry.key info') todo) :
    ∃ infos', todo.foldlM (fun infos entry => infos.applyOperation (ofLex entry.1).1 entry.2) infos = .ok infos' ∧
      Pending infos' [] ∧ P infos' [] := by
  induction todo generalizing infos with
  | nil => exact ⟨infos, rfl, pending, start⟩
  | cons entry todo ih =>
    rw [foldlM_cons]
    rcases pending.step with ⟨absent, succeeded, rest⟩ | ⟨info, info', found, succeeded, effect, rest⟩
    · obtain ⟨infos', processed, done, reached⟩ := ih rest (skipped infos entry todo pending start absent)
      exact ⟨infos', bind_ok_iff.mpr ⟨infos, succeeded, processed⟩, done, reached⟩
    · obtain ⟨infos', processed, done, reached⟩ :=
        ih rest (written infos entry todo info info' pending start found effect)
      exact ⟨infos', bind_ok_iff.mpr ⟨_, succeeded, processed⟩, done, reached⟩

end Pending

/-- Every subtraction among some operations finds the stake it takes off. -/
def Covered : ForkInfos → List Entry → Prop
  | _, [] => True
  | infos, entry :: todo =>
    (∀ stake info, entry.2 = .subtract stake → infos.lookup entry.key = some info →
      stake ≤ info.stakeVotedAt ∧ stake ≤ info.stakeVotedSubtree) ∧
    ∀ infos', infos.applyOperation entry.key entry.2 = .ok infos' → Covered infos' todo

/-- A batch that can be afforded at the start can be afforded throughout. -/
theorem Pending.covered (pending : Pending infos todo)
    (afforded : ∀ entry ∈ todo, ∀ stake info, entry.2 = .subtract stake → infos.lookup entry.key = some info →
      stake ≤ info.stakeVotedAt ∧ stake ≤ info.stakeVotedSubtree) : Covered infos todo := by
  induction todo generalizing infos with
  | nil => trivial
  | cons entry todo ih =>
    obtain ⟨first, others⟩ := forall_mem_cons.mp afforded
    refine ⟨first, fun infos' applied => ?_⟩
    rcases pending.step with ⟨-, succeeded, rest⟩ | ⟨info, info', -, succeeded, -, rest⟩
    · cases succeeded.symm.trans applied
      exact ih rest others
    · cases succeeded.symm.trans applied
      refine ih rest ?_
      intro later mem stake laterInfo subtracts present
      rcases lookup_insert_eq_some.mp present with ⟨same, -⟩ | ⟨-, present⟩
      · -- Subtractions come first, so none is left for the block that is written.
        have lower := pending.label_lt mem same
        rw [subtracts] at lower
        exact absurd lower (le_subtract _).not_gt
      · exact others later mem stake laterInfo subtracts present

end ForkInfos

open Option HeaviestSubtreeForkChoice SortedMap Entry

namespace ForkInfos

/-- A batch that schedules the aggregation of all blocks below those it changes, but perhaps not of those below the
    blocks left open. -/
structure ScheduleBut (left : SlotHashKey → Prop) (infos : ForkInfos) (operations : UpdateOperations) : Prop where
  labelled : ∀ entry ∈ operations.entries, (ofLex entry.1).2 = entry.2.label
  marks : ∀ entry ∈ operations.entries, entry.2.IsMark → Entry.aggregate (Entry.key entry) ∈ operations.entries
  parents : ∀ entry ∈ operations.entries, ¬ left (Entry.key entry) → ∀ parent,
    infos.parent (Entry.key entry) = some parent → Entry.aggregate parent ∈ operations.entries

abbrev Schedule := ScheduleBut fun _ => False

/-- A batch to which only aggregations were added. -/
structure Extended (operations operations' : UpdateOperations) : Prop where
  kept : ∀ entry ∈ operations.entries, entry ∈ operations'.entries
  added : ∀ entry ∈ operations'.entries, entry ∈ operations.entries ∨ ∃ key, entry = Entry.aggregate key

variable {infos : ForkInfos} {operations operations' : UpdateOperations} {key parent : SlotHashKey}
  {left : SlotHashKey → Prop} {mark : UpdateOperation}

theorem Extended.refl (operations) : Extended operations operations :=
  ⟨fun _ mem => mem, fun _ => .inl⟩

theorem Extended.trans (first : Extended operations operations') (second : Extended operations' operations'') :
    Extended operations operations'' where
  kept entry mem := second.kept entry (first.kept entry mem)
  added := by
    intro entry mem
    rcases second.added entry mem with old | new
    · exact first.added entry old
    · exact .inr new

/-- A batch does not care about blocks that have no parent or whose parent is scheduled. -/
theorem ScheduleBut.close (schedule : ScheduleBut left infos operations)
    (closed : ∀ key, left key → ¬ left' key → ∀ parent, infos.parent key = some parent →
      aggregate parent ∈ operations.entries) : ScheduleBut left' infos operations where
  labelled := schedule.labelled
  marks := schedule.marks
  parents := by
    intro entry mem notLeft parent knows
    by_cases wasLeft : left (key entry)
    · exact closed _ wasLeft notLeft parent knows
    · exact schedule.parents entry mem wasLeft parent knows

/-- A batch is closed once the parent of the block left open is scheduled. -/
theorem ScheduleBut.done (schedule : ScheduleBut (· = key) infos operations)
    (scheduled : ∀ parent, infos.parent key = some parent → aggregate parent ∈ operations.entries) :
    Schedule infos operations ∧ Extended operations operations ∧
      ∀ parent, infos.parent key = some parent → aggregate parent ∈ operations.entries := by
  refine ⟨schedule.close ?_, .refl operations, scheduled⟩
  rintro other rfl -
  exact scheduled

/-! ### Aggregations -/

theorem ScheduleBut.mem_of_isSome (schedule : ScheduleBut left infos operations)
    (scheduled : (operations.lookup (toLex (key, .aggregate))).isSome = true) :
    aggregate key ∈ operations.entries := by
  obtain ⟨operation, found⟩ := isSome_iff_exists.mp scheduled
  have mem := lookup_eq_some_iff.mp found
  have label := schedule.labelled _ mem
  cases operation with
  | aggregate => exact mem
  | add => cases label
  | subtract => cases label
  | markValid => cases label
  | markInvalid => cases label

/-- A block that is not scheduled is scheduled with nothing else. -/
theorem extended_insert (fresh : ¬ (operations.lookup (toLex (key, .aggregate))).isSome = true) :
    Extended operations (operations.insert (toLex (key, .aggregate)) .aggregate) where
  kept := by
    intro entry mem
    refine mem_insert.mpr (.inr ⟨?_, mem⟩)
    intro same
    have found : operations.lookup entry.1 = some entry.2 := lookup_eq_some_iff.mpr mem
    rw [same] at found
    exact fresh (by rw [found]; rfl)
  added := by
    intro entry mem
    rcases mem_insert.mp mem with new | ⟨-, old⟩
    · exact .inr ⟨key, new⟩
    · exact .inl old

/-- Adding aggregations of blocks that are left open keeps a batch. -/
theorem ScheduleBut.extend (schedule : ScheduleBut left infos operations) (extended : Extended operations operations')
    (open' : ∀ key, aggregate key ∈ operations'.entries → aggregate key ∈ operations.entries ∨ left' key)
    (still : ∀ key, left key → left' key ∨ ∀ parent, infos.parent key = some parent →
      aggregate parent ∈ operations'.entries) : ScheduleBut left' infos operations' where
  labelled := by
    intro entry mem
    rcases extended.added entry mem with old | ⟨_, rfl⟩
    · exact schedule.labelled entry old
    · rfl
  marks := by
    intro entry mem mark
    rcases extended.added entry mem with old | ⟨_, rfl⟩
    · exact extended.kept _ (schedule.marks entry old mark)
    · exact mark.elim
  parents := by
    intro entry mem notLeft parent knows
    have fromOld : entry ∈ operations.entries → aggregate parent ∈ operations'.entries := by
      intro old
      by_cases wasLeft : left (key entry)
      · rcases still _ wasLeft with isLeft | closed
        · exact absurd isLeft notLeft
        · exact closed parent knows
      · exact extended.kept _ (schedule.parents entry old wasLeft parent knows)
    rcases extended.added entry mem with old | ⟨key, rfl⟩
    · exact fromOld old
    · rcases open' key mem with old | isLeft
      · exact fromOld old
      · exact absurd isLeft notLeft

/-- The walk down from the only block left open closes a batch. It may stop early, because the blocks below a scheduled
    one were scheduled with it. -/
theorem insertAcross_schedule (linked : infos.Linked) (turns) (enough : key.slot ≤ turns)
    (schedule : ScheduleBut (· = key) infos operations) :
    Schedule infos (insertAcross none (infos.ancestorsFrom turns key) operations) ∧
      Extended operations (insertAcross none (infos.ancestorsFrom turns key) operations) ∧
      ∀ parent, infos.parent key = some parent →
        aggregate parent ∈ (insertAcross none (infos.ancestorsFrom turns key) operations).entries := by
  induction turns generalizing key operations with
  | zero =>
    apply schedule.done
    intro parent knows
    have older := linked.older_parent knows
    omega
  | succ turns ih =>
    simp only [ancestorsFrom]
    cases knows : infos.parent key with
    | none =>
      refine ⟨(schedule.done ?_).1, .refl operations, nofun⟩
      intro parent knows'
      rw [knows] at knows'
      cases knows'
    | some parent =>
      simp only [insertAcross, doInsertAggregateOperation, some.injEq, forall_eq']
      by_cases scheduled : (operations.lookup (toLex (parent, .aggregate))).isSome = true
      · have mem := schedule.mem_of_isSome scheduled
        simp only [if_pos scheduled]
        simpa only [knows, some.injEq, forall_eq'] using schedule.done (by simpa [knows] using mem)
      simp only [if_neg scheduled]
      have extended := extended_insert scheduled
      have older := linked.older_parent knows
      -- The parent is scheduled now, and left open in turn.
      have next : ScheduleBut (· = parent) infos
          (operations.insert (toLex (parent, .aggregate)) .aggregate) := by
        refine schedule.extend extended ?_ ?_
        · intro other mem
          rcases mem_insert.mp mem with new | ⟨-, old⟩
          · exact .inr (congrArg Entry.key new)
          · exact .inl old
        · rintro other rfl
          refine .inr fun parent' knows' => ?_
          rw [knows, some.injEq] at knows'
          subst knows'
          exact mem_insert.mpr (.inl rfl)
      obtain ⟨closed, further, -⟩ := ih (by omega) next
      exact ⟨closed, extended.trans further, further.kept _ (mem_insert.mpr (.inl rfl))⟩

theorem insertAggregateOperations_schedule (linked : infos.Linked)
    (schedule : ScheduleBut (· = key) infos operations) :
    Schedule infos (infos.insertAggregateOperations operations key) ∧
      Extended operations (infos.insertAggregateOperations operations key) ∧
      ∀ parent, infos.parent key = some parent →
        aggregate parent ∈ (infos.insertAggregateOperations operations key).entries :=
  insertAcross_schedule linked key.slot le_rfl schedule

/-- A batch is ready to be processed if it covers what is unsettled. -/
theorem ScheduleBut.pending (schedule : Schedule infos operations) (linked : infos.Linked)
    (settled : ∀ key info, infos.lookup key = some info →
      infos.Settled key info ∨ aggregate key ∈ operations.entries)
    (small : ∀ key info, infos.lookup key = some info → info.stakeVotedAt < 2 ^ 64)
    (unconfirmed : ∀ entry ∈ operations.entries, ∀ slot info, entry.2 = .markInvalid slot →
      infos.lookup (Entry.key entry) = some info → info.isDuplicateConfirmed = false) :
    Pending infos operations.entries.reverse where
  linked := linked
  settled := by simpa only [List.mem_reverse] using settled
  small := small
  descending := List.pairwise_reverse.mpr operations.sorted
  labelled := by simpa only [List.mem_reverse] using schedule.labelled
  parents := by
    simpa only [mem_reverse, not_false_eq_true, forall_const] using schedule.parents
  marks := by simpa only [mem_reverse] using schedule.marks
  unconfirmed := by simpa only [mem_reverse] using unconfirmed

/-! ### Marks -/

theorem doInsert_mark (isMark : mark.IsMark) :
    doInsertAggregateOperation operations (some mark) key =
      if (operations.lookup (toLex (key, .aggregate))).isSome then none
      else some ((operations.insert (toLex (key, mark.label)) mark).insert (toLex (key, .aggregate)) .aggregate) := by
  cases mark with
  | markValid => rfl
  | markInvalid => rfl
  | add => exact isMark.elim
  | subtract => exact isMark.elim
  | aggregate => exact isMark.elim

/-- The operations that mark some blocks. -/
def Marking (mark : UpdateOperation) (keys : List SlotHashKey) (entry : Entry) : Prop :=
  ∃ key ∈ keys, entry = (toLex (key, mark.label), mark) ∨ entry = Entry.aggregate key

theorem insertMark_mem (isMark : mark.IsMark) (exact' : ∀ entry, entry ∈ operations.entries ↔ Marking mark seen entry)
    (entry : Entry) :
    entry ∈ ((doInsertAggregateOperation operations (some mark) key).getD operations).entries ↔
      Marking mark (seen ++ [key]) entry := by
  have split : Marking mark (seen ++ [key]) entry ↔ Marking mark seen entry ∨
      entry = (toLex (key, mark.label), mark) ∨ entry = aggregate key := by
    simp only [Marking, mem_append, mem_singleton, or_and_right, exists_or, exists_eq_left]
  have aggregates : ∀ operation, (toLex (key, .aggregate), operation) ∈ operations.entries → key ∈ seen := by
    intro operation mem
    obtain ⟨other, _, same⟩ := (exact' _).mp mem
    have sameKey : key = other := by
      rcases same with same | same
      · exact congrArg Entry.key same
      · exact congrArg Entry.key same
    rwa [sameKey]
  rw [doInsert_mark isMark, split]
  split_ifs with scheduled
  · -- The block was marked before.
    obtain ⟨operation, found⟩ := isSome_iff_exists.mp scheduled
    have wasSeen := aggregates operation (lookup_eq_some_iff.mp found)
    rw [getD_none, exact']
    constructor
    · exact .inl
    · rintro (old | new)
      · exact old
      · exact ⟨key, wasSeen, new⟩
  · have unseen : key ∉ seen := by
      intro wasSeen
      have mem : aggregate key ∈ operations.entries := (exact' _).mpr ⟨key, wasSeen, .inr rfl⟩
      have found : operations.lookup (toLex (key, .aggregate)) = some .aggregate :=
        lookup_eq_some_iff.mpr mem
      exact scheduled (by rw [found]; rfl)
    have otherKey : Marking mark seen entry → Entry.key entry ≠ key := by
      rintro ⟨other, seenOther, rfl | rfl⟩ same
      · exact unseen ((same : other = key) ▸ seenOther)
      · exact unseen ((same : other = key) ▸ seenOther)
    rw [getD_some, mem_insert, mem_insert, exact']
    constructor
    · rintro (new | ⟨-, new | ⟨-, old⟩⟩)
      · exact .inr (.inr new)
      · exact .inr (.inl new)
      · exact .inl old
    · have different : (toLex (key, mark.label) : SlotHashKey ×ₗ UpdateLabel) ≠ toLex (key, .aggregate) := by
        intro same
        have labels : mark.label = .aggregate := congrArg (fun pair => (ofLex pair).2) same
        exact absurd (Pending.mark_after_aggregate isMark) (labels ▸ lt_irrefl _)
      rintro (old | rfl | rfl)
      · have other := otherKey old
        refine .inr ⟨fun same => other ?_, .inr ⟨fun same => other ?_, old⟩⟩
        · rw [Entry.key, same]
          rfl
        · rw [Entry.key, same]
          rfl
      · exact .inr ⟨different, .inl rfl⟩
      · exact .inl rfl

/-- The batch that marks some blocks marks and schedules them and nothing else. -/
theorem mem_insertMarks {keys : List SlotHashKey} (isMark : mark.IsMark) (entry : Entry) :
    entry ∈ (insertMarks mark keys .empty).entries ↔ Marking mark keys entry := by
  have run : ∀ (rest seen : List SlotHashKey) (operations : UpdateOperations),
      (∀ entry, entry ∈ operations.entries ↔ Marking mark seen entry) →
      (entry ∈ (insertMarks mark rest operations).entries ↔ Marking mark (seen ++ rest) entry) := by
    intro rest
    induction rest with
    | nil =>
      intro seen operations exact'
      rw [append_nil]
      exact exact' entry
    | cons key rest ih =>
      intro seen operations exact'
      have next := ih (seen ++ [key]) _ fun entry => insertMark_mem isMark exact' entry
      rwa [append_assoc, singleton_append] at next
  have start := run keys [] .empty (by simp [empty, Marking])
  rwa [nil_append] at start

/-! ### Stakes -/

/-- The stake that is moved under a label of a block. -/
def due (operations : UpdateOperations) (key : SlotHashKey) (label : UpdateLabel) : Nat :=
  ((operations.lookup (toLex (key, label))).map UpdateOperation.stake).getD 0

theorem add_ne_aggregate : UpdateLabel.add ≠ .aggregate := nofun

theorem subtract_ne_aggregate : UpdateLabel.subtract ≠ .aggregate := nofun

/-- The two kinds of operations with a stake. -/
structure StakeKind where
  label : UpdateLabel
  make : Nat → UpdateOperation
  only : ∀ operation, operation.label = label ↔ ∃ stake, operation = make stake
  stake : ∀ amount, (make amount).stake = amount
  more : ∀ amount extra, (make amount).updateStake extra = .ok (make (wrappingAdd 64 amount extra))
  noMark : ∀ amount, ¬ (make amount).IsMark
  noAggregate : label ≠ .aggregate

def StakeKind.adding : StakeKind where
  label := .add
  make := .add
  only operation := by cases operation <;> simp [UpdateOperation.label]
  stake _ := rfl
  more _ _ := rfl
  noMark _ := id
  noAggregate := add_ne_aggregate

def StakeKind.subtracting : StakeKind where
  label := .subtract
  make := .subtract
  only operation := by cases operation <;> simp [UpdateOperation.label]
  stake _ := rfl
  more _ _ := rfl
  noMark _ := id
  noAggregate := subtract_ne_aggregate

theorem due_eq_zero (noStakes : ∀ entry ∈ operations.entries, entry.2.stake = 0) (key label) :
    due operations key label = 0 := by
  cases found : operations.lookup (toLex (key, label)) with
  | none => simp [due, found]
  | some =>
    have none := noStakes _ (lookup_eq_some_iff.mp found)
    simpa [due, found] using none

theorem Extended.due (extended : Extended operations operations') (label) (noAggregate : label ≠ .aggregate) :
    due operations' key label = due operations key label := by
  have same : operations'.lookup (toLex (key, label)) = operations.lookup (toLex (key, label)) := by
    apply ext
    intro operation
    rw [SortedMap.lookup_eq_some_iff, SortedMap.lookup_eq_some_iff]
    constructor
    · intro mem
      rcases extended.added _ mem with old | ⟨_, new⟩
      · exact old
      · have aggregates : label = .aggregate := congrArg (fun entry : Entry => (ofLex entry.1).2) new
        exact absurd aggregates noAggregate
    · exact extended.kept _
  rw [ForkInfos.due, ForkInfos.due, same]

/-- An amount that was counted up to a total with 64 bits. -/
structure Counted (amount total : Nat) : Prop where
  le : amount ≤ total
  mod : amount % 2 ^ 64 = total % 2 ^ 64

/-- Adding a stake under a label of a block succeeds, and leaves open what is below the block. -/
theorem addStake_ok (kind : StakeKind) (stake) (schedule : Schedule infos operations)
    (noMarks : ∀ entry ∈ operations.entries, ¬ entry.2.IsMark) :
    ∃ operations',
      HeaviestSubtreeForkChoice.addStake operations key kind.label (kind.make stake) stake = .ok operations' ∧
      ScheduleBut (· = key) infos operations' ∧
      (∀ entry ∈ operations'.entries, ¬ entry.2.IsMark) ∧
      ∀ other label, Counted (due operations' other label)
        (due operations other label + if other = key ∧ label = kind.label then stake else 0) := by
  -- Whatever is under the label before, it is an operation of the kind with the stake that is due.
  have written : ∃ total, addStake operations key kind.label (kind.make stake) stake =
      .ok (operations.insert (toLex (key, kind.label)) (kind.make total)) ∧
      Counted total (due operations key kind.label + stake) := by
    cases found : operations.lookup (toLex (key, kind.label)) with
    | none => exact ⟨stake, by simp [addStake, found, bind_ok_iff], by simp [due, found], by simp [due, found]⟩
    | some operation =>
      have label := schedule.labelled _ (lookup_eq_some_iff.mp found)
      obtain ⟨amount, rfl⟩ := (kind.only operation).mp label.symm
      refine ⟨wrappingAdd 64 amount stake, by simp [addStake, found, bind_ok_iff, kind.more], ?_, ?_⟩
      · simpa [due, found, kind.stake, wrappingAdd] using Nat.mod_le _ _
      · simp [due, found, kind.stake, wrappingAdd]
  obtain ⟨total, succeeded, counted⟩ := written
  have labelOf : ∀ amount, (kind.make amount).label = kind.label :=
    fun amount => (kind.only _).mpr ⟨amount, rfl⟩
  have aggregatesKept : ∀ other, aggregate other ∈ operations.entries → aggregate other ∈
      (operations.insert (toLex (key, kind.label)) (kind.make total)).entries := by
    intro other mem
    refine mem_insert.mpr (.inr ⟨?_, mem⟩)
    intro same
    have label : .aggregate = kind.label := congrArg (fun pair => (ofLex pair).2) same
    exact kind.noAggregate label.symm
  refine ⟨_, succeeded, ⟨?_, ?_, ?_⟩, ?_, ?_⟩
  · intro entry mem
    rcases mem_insert.mp mem with rfl | ⟨-, old⟩
    · exact (labelOf _).symm
    · exact schedule.labelled entry old
  · intro entry mem mark
    rcases mem_insert.mp mem with rfl | ⟨-, old⟩
    · exact absurd mark (kind.noMark _)
    · exact aggregatesKept _ (schedule.marks entry old mark)
  · intro entry mem other parent knows
    rcases mem_insert.mp mem with rfl | ⟨-, old⟩
    · exact absurd rfl other
    · exact aggregatesKept _ (schedule.parents entry old id parent knows)
  · intro entry mem
    rcases mem_insert.mp mem with rfl | ⟨-, old⟩
    · exact kind.noMark _
    · exact noMarks entry old
  · intro other label
    rw [due, lookup_insert]
    by_cases same : other = key ∧ label = kind.label
    · obtain ⟨rfl, rfl⟩ := same
      simpa [kind.stake] using counted
    · rw [if_neg same, if_neg]
      · exact ⟨le_rfl, rfl⟩
      · intro samePair
        exact same (Prod.ext_iff.mp (toLex.injective samePair))

end ForkInfos

end Payout.ForkChoice
