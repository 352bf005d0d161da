/-
Purpose: What the values of a block say about its children, and that aggregating a block makes them say it.
-/
import Payout.ForkChoice.HeaviestSubtree

namespace Payout.ForkChoice

open Lib List

variable {gathered : Aggregate}

namespace ForkInfos

variable (infos : ForkInfos)

/-! ### Reading a tree -/

def weight (key : SlotHashKey) : Nat :=
  match infos.lookup key with
  | some info => info.stakeVotedSubtree
  | none => 0

def height (key : SlotHashKey) : Nat :=
  match infos.lookup key with
  | some info => info.height
  | none => 0

def best (key : SlotHashKey) : Option SlotHashKey := (infos.lookup key).map ForkInfo.bestSlot

/-- The greatest number of some blocks. -/
def greatest (number : SlotHashKey → Nat) (keys : List SlotHashKey) : Nat := (keys.map number).foldr max 0

/-- The greatest height of some blocks. -/
def tallest (keys : List SlotHashKey) : Nat := greatest infos.height keys

def Candidate (key : SlotHashKey) : Prop := ∃ info, infos.lookup key = some info ∧ info.isCandidate

instance (key : SlotHashKey) : Decidable (infos.Candidate key) :=
  match found : infos.lookup key with
  | none => isFalse (by rintro ⟨info, foundInfo, _⟩; rw [found] at foundInfo; exact nomatch foundInfo)
  | some info => decidable_of_iff (info.isCandidate = true) (by simp [Candidate, found])

def Confirmed (key : SlotHashKey) : Prop :=
  ∃ info, infos.lookup key = some info ∧ info.isDuplicateConfirmed = true

/-- A block is preferred to another one if it is heavier, or as heavy with a smaller key. -/
def Preferred (one other : SlotHashKey) : Prop :=
  infos.weight other < infos.weight one ∨ (infos.weight other = infos.weight one ∧ one ≤ other)

/-- The candidate that is preferred to all others. -/
structure BestChild (children : List SlotHashKey) (child : SlotHashKey) : Prop where
  member : child ∈ children
  candidate : infos.Candidate child
  preferred : ∀ other ∈ children, infos.Candidate other → infos.Preferred child other

/-- Walk from a block to its best child, and on from there, up to a block without candidates. -/
inductive Walk : SlotHashKey → SlotHashKey → Prop where
  | stop {key info} (found : infos.lookup key = some info)
      (none : ∀ child ∈ info.children, ¬ infos.Candidate child) : Walk key key
  | move {key child last info} (found : infos.lookup key = some info)
      (best : infos.BestChild info.children child) (rest : Walk child last) : Walk key last

/-- The best block of a block with these children, as far as the children know. -/
def Chosen (key : SlotHashKey) (children : List SlotHashKey) (best : SlotHashKey) : Prop :=
  (best = key ∧ ∀ child ∈ children, ¬ infos.Candidate child) ∨
    ∃ child, infos.BestChild children child ∧ infos.best child = some best

/-- The best block of a block is that of a child or the block itself, and the chosen one if the block is a candidate. -/
structure Leads (key : SlotHashKey) (info : ForkInfo) : Prop where
  within : info.bestSlot = key ∨ ∃ child ∈ info.children, infos.best child = some info.bestSlot
  best : info.isCandidate → infos.Chosen key info.children info.bestSlot

/-- The values of a block are those of its children put together. -/
structure Settled (key : SlotHashKey) (info : ForkInfo) : Prop extends Leads infos key info where
  weight : info.stakeVotedSubtree = (info.stakeVotedAt + (info.children.map infos.weight).sum) % 2 ^ 64
  height : info.height = 1 + infos.tallest info.children
  confirmed : ∀ child ∈ info.children, infos.Confirmed child →
    info.isDuplicateConfirmed = true ∧ info.latestInvalidAncestor = none

/-- Every child is there and knows its parent, and parents are older. -/
structure Linked : Prop where
  child : ∀ key info, infos.lookup key = some info → ∀ child ∈ info.children,
    ∃ childInfo, infos.lookup child = some childInfo ∧ childInfo.parent = some key
  older : ∀ key info parent, infos.lookup key = some info → info.parent = some parent → parent.slot < key.slot

variable {infos} {infos' : ForkInfos} {key child other : SlotHashKey} {info childInfo : ForkInfo}
  {children keys : List SlotHashKey}

section

variable (found : infos.lookup key = some info)
include found

theorem weight_of : infos.weight key = info.stakeVotedSubtree := by
  rw [weight, found]

theorem height_of : infos.height key = info.height := by
  rw [height, found]

theorem best_of : infos.best key = some info.bestSlot := by
  rw [best, found, Option.map_some]

theorem candidate_iff : infos.Candidate key ↔ info.isCandidate := by
  simp [Candidate, found]

theorem confirmed_iff : infos.Confirmed key ↔ info.isDuplicateConfirmed = true := by
  simp [Confirmed, found]

end

theorem Preferred.trans (first : infos.Preferred one other) (second : infos.Preferred other third) :
    infos.Preferred one third := by
  rcases first with lighter | ⟨same, le⟩
  · rcases second with lighter' | ⟨same', _⟩
    · exact .inl (lighter'.trans lighter)
    · exact .inl (same' ▸ lighter)
  · rcases second with lighter' | ⟨same', le'⟩
    · exact .inl (same ▸ lighter')
    · exact .inr ⟨same'.trans same, le.trans le'⟩

theorem greatest_le_iff : greatest number keys ≤ bound ↔ ∀ key ∈ keys, number key ≤ bound := by
  induction keys with
  | nil => simp [greatest]
  | cons first rest ih =>
    rw [forall_mem_cons, ← ih]
    exact max_le_iff

theorem le_greatest (number) (mem : key ∈ keys) : number key ≤ greatest number keys :=
  greatest_le_iff.mp le_rfl key mem

theorem greatest_congr (same : ∀ key ∈ keys, number' key = number key) :
    greatest number' keys = greatest number keys := by
  rw [greatest, greatest, map_congr_left same]

theorem tallest_append_singleton : infos.tallest (keys ++ [key]) = max (infos.tallest keys) (infos.height key) := by
  apply le_antisymm
  · refine greatest_le_iff.mpr ?_
    intro other mem
    rcases mem_append.mp mem with old | new
    · exact (le_greatest infos.height old).trans (le_max_left _ _)
    · rw [mem_singleton.mp new]
      exact le_max_right _ _
  · apply max_le
    · refine greatest_le_iff.mpr ?_
      intro other mem
      exact le_greatest infos.height (mem_append_left _ mem)
    · exact le_greatest infos.height (mem_append_right _ (mem_singleton_self key))

/-! ### The values depend on the children only -/

/-- Two trees in which a block is equally heavy, is or is not a candidate, and has the same best block. -/
structure Alike (infos infos' : ForkInfos) (key : SlotHashKey) : Prop where
  weight : infos'.weight key = infos.weight key
  candidate : infos'.Candidate key ↔ infos.Candidate key
  best : infos'.best key = infos.best key

theorem BestChild.congr (best : infos.BestChild children child)
    (weights : ∀ child ∈ children, infos'.weight child = infos.weight child)
    (candidates : ∀ child ∈ children, infos'.Candidate child ↔ infos.Candidate child) :
    infos'.BestChild children child where
  member := best.member
  candidate := (candidates child best.member).mpr best.candidate
  preferred := by
    intro other mem candidate
    have preferred := best.preferred other mem ((candidates other mem).mp candidate)
    rwa [Preferred, ← weights other mem, ← weights child best.member] at preferred

/-- The choice of a block depends on how its children compare, and on the best block of the one that is chosen. -/
theorem Leads.congr (leads : infos.Leads key info) (alike : ∀ child ∈ info.children, Alike infos infos' child) :
    infos'.Leads key info where
  within := by
    rcases leads.within with self | ⟨child, mem, same⟩
    · exact .inl self
    · exact .inr ⟨child, mem, (alike child mem).best.trans same⟩
  best := by
    intro candidate
    rcases leads.best candidate with ⟨same, none⟩ | ⟨child, bestChild, same⟩
    · exact .inl ⟨same, fun child mem => (alike child mem).candidate.not.mpr (none child mem)⟩
    · refine .inr ⟨child, ?_, (alike child bestChild.member).best.trans same⟩
      exact bestChild.congr (fun other mem => (alike other mem).weight)
        fun other mem => (alike other mem).candidate

/-- Two trees that hold the same under some keys. -/
def Agree (infos infos' : ForkInfos) (keys : List SlotHashKey) : Prop :=
  ∀ key ∈ keys, infos'.lookup key = infos.lookup key

theorem Agree.alike (agree : Agree infos infos' keys) : ∀ key ∈ keys, Alike infos infos' key := by
  intro key mem
  have same := agree key mem
  exact ⟨by rw [weight, weight, same], by rw [Candidate, Candidate, same], by rw [ForkInfos.best, ForkInfos.best, same]⟩

theorem Settled.congr (settled : infos.Settled key info) (agree : Agree infos infos' info.children) :
    infos'.Settled key info where
  toLeads := settled.toLeads.congr agree.alike
  weight := by
    rw [map_congr_left fun child mem => (agree.alike child mem).weight]
    exact settled.weight
  height := by
    have heights : ∀ child ∈ info.children, infos'.height child = infos.height child :=
      fun child mem => by rw [ForkInfos.height, ForkInfos.height, agree child mem]
    rw [tallest, greatest_congr heights]
    exact settled.height
  confirmed := by
    intro child mem confirmed
    rw [Confirmed, agree child mem] at confirmed
    exact settled.confirmed child mem confirmed

theorem Settled.child_height_lt (settled : infos.Settled key info) (mem : child ∈ info.children)
    (found : infos.lookup child = some childInfo) : childInfo.height < info.height := by
  have le : infos.height child ≤ infos.tallest info.children := le_greatest infos.height mem
  rw [height_of found] at le
  rw [settled.height]
  omega

theorem Linked.agree (linked : infos.Linked) (found : infos.lookup key = some info) (info') :
    Agree infos (infos.insert key info') info.children := by
  intro child mem
  apply AList.lookup_insert_ne
  rintro rfl
  obtain ⟨_, foundChild, knows⟩ := linked.child child info found child mem
  exact lt_irrefl _ (linked.older _ _ _ foundChild knows)

/-! ### Aggregation -/

/-- What was gathered from some children. -/
structure Gathered (infos : ForkInfos) (key : SlotHashKey) (stakeVotedAt : Nat) (seen : List SlotHashKey)
    (gathered : Aggregate) : Prop where
  weight : gathered.stakeVotedSubtree = (stakeVotedAt + (seen.map infos.weight).sum) % 2 ^ 64
  height : gathered.deepestChildHeight = infos.tallest seen
  first : gathered.deepestChildKey = key → gathered.deepestChildHeight = 0
  best : (gathered.bestChildKey = key ∧ gathered.bestSlot = key ∧ ∀ child ∈ seen, ¬ infos.Candidate child) ∨
    (gathered.bestChildKey ≠ key ∧ infos.BestChild seen gathered.bestChildKey ∧
      gathered.bestChildStake = infos.weight gathered.bestChildKey ∧
      infos.best gathered.bestChildKey = some gathered.bestSlot)
  confirmed : gathered.isDuplicateConfirmed = true ↔ ∃ child ∈ seen, infos.Confirmed child

namespace Aggregate

theorem addChild_weight : (gathered.addChild key child childInfo).stakeVotedSubtree =
    wrappingAdd 64 gathered.stakeVotedSubtree childInfo.stakeVotedSubtree := by
  simp only [addChild]
  split_ifs <;> rfl

theorem addChild_confirmed : (gathered.addChild key child childInfo).isDuplicateConfirmed =
    (gathered.isDuplicateConfirmed || childInfo.isDuplicateConfirmed) := by
  simp only [addChild]
  split_ifs <;> rfl

/-- A child is taken for the deepest one if it is the first or at least as deep, and passed over if it is not deeper. -/
theorem addChild_deepest (gathered : Aggregate) (key child childInfo) :
    ((gathered.deepestChildKey = key ∨ gathered.deepestChildHeight ≤ childInfo.height) ∧
      (gathered.addChild key child childInfo).deepestChildKey = child ∧
      (gathered.addChild key child childInfo).deepestChildHeight = childInfo.height) ∨
    (childInfo.height ≤ gathered.deepestChildHeight ∧
      (gathered.addChild key child childInfo).deepestChildKey = gathered.deepestChildKey ∧
      (gathered.addChild key child childInfo).deepestChildHeight = gathered.deepestChildHeight) := by
  unfold addChild
  dsimp only
  split
  case isTrue deeper =>
    refine .inl ⟨?_, rfl, rfl⟩
    rcases deeper with first | higher | ⟨same, -⟩
    · exact .inl first
    · exact .inr higher.le
    · exact .inr same.ge
  case isFalse passed =>
    refine .inr ⟨not_lt.mp fun higher => passed (.inr (.inl higher)), ?_⟩
    split <;> exact ⟨rfl, rfl⟩

/-- What makes a child the best one so far. -/
def Better (gathered : Aggregate) (key child : SlotHashKey) (childInfo : ForkInfo) : Prop :=
  childInfo.isCandidate ∧ (gathered.bestChildKey = key ∨ gathered.bestChildStake < childInfo.stakeVotedSubtree ∨
    (childInfo.stakeVotedSubtree = gathered.bestChildStake ∧ child < gathered.bestChildKey))

theorem addChild_best (gathered : Aggregate) (key child childInfo) :
    (gathered.Better key child childInfo ∧
      (gathered.addChild key child childInfo).bestChildKey = child ∧
      (gathered.addChild key child childInfo).bestChildStake = childInfo.stakeVotedSubtree ∧
      (gathered.addChild key child childInfo).bestSlot = childInfo.bestSlot) ∨
    (¬ gathered.Better key child childInfo ∧
      (gathered.addChild key child childInfo).bestChildKey = gathered.bestChildKey ∧
      (gathered.addChild key child childInfo).bestChildStake = gathered.bestChildStake ∧
      (gathered.addChild key child childInfo).bestSlot = gathered.bestSlot) := by
  have deepestAside : ∀ (deeper : Prop) [Decidable deeper] (one other : Aggregate),
      other.bestChildKey = one.bestChildKey → other.bestChildStake = one.bestChildStake →
      other.bestSlot = one.bestSlot →
      (if deeper then other else one).bestChildKey = one.bestChildKey ∧
        (if deeper then other else one).bestChildStake = one.bestChildStake ∧
        (if deeper then other else one).bestSlot = one.bestSlot := by
    intro deeper _ one other key stake slot
    split
    · exact ⟨key, stake, slot⟩
    · exact ⟨rfl, rfl, rfl⟩
  by_cases better : gathered.Better key child childInfo
  · refine .inl ⟨better, ?_⟩
    rw [Better] at better
    simp only [addChild, if_pos better]
    exact deepestAside _ _ _ rfl rfl rfl
  · refine .inr ⟨better, ?_⟩
    rw [Better] at better
    simp only [addChild, if_neg better]
    exact deepestAside _ _ _ rfl rfl rfl

end Aggregate

variable {stakeVotedAt : Nat}

/-- A child that is passed over was no candidate, or is not preferred to the best one so far. -/
theorem not_better (same : gathered.bestChildStake = infos.weight gathered.bestChildKey)
    (found : infos.lookup child = some childInfo) (passed : ¬ gathered.Better key child childInfo)
    (candidate : childInfo.isCandidate) : infos.Preferred gathered.bestChildKey child := by
  rw [Aggregate.Better, same, ← weight_of found] at passed
  have notLess : ¬ (infos.weight gathered.bestChildKey < infos.weight child) :=
    fun less => passed ⟨candidate, .inr (.inl less)⟩
  rcases Nat.lt_or_ge (infos.weight child) (infos.weight gathered.bestChildKey) with lighter | heavier
  · exact .inl lighter
  · have equal : infos.weight child = infos.weight gathered.bestChildKey := by omega
    exact .inr ⟨equal, not_lt.mp fun less => passed ⟨candidate, .inr (.inr ⟨equal, less⟩)⟩⟩

/-- Some more blocks leave the best one the best if it is preferred to them. -/
theorem BestChild.append_singleton {best : SlotHashKey} (held : infos.BestChild seen best)
    (preferred : infos.Candidate child → infos.Preferred best child) : infos.BestChild (seen ++ [child]) best where
  member := List.mem_append_left _ held.member
  candidate := held.candidate
  preferred := by
    intro other mem candidate
    rcases mem_append.mp mem with old | new
    · exact held.preferred other old candidate
    · rw [mem_singleton] at new
      subst new
      exact preferred candidate

theorem Gathered.addChild (held : Gathered infos key stakeVotedAt seen gathered)
    (found : infos.lookup child = some childInfo) (other : child ≠ key) :
    Gathered infos key stakeVotedAt (seen ++ [child]) (gathered.addChild key child childInfo) where
  weight := by
    rw [Aggregate.addChild_weight, wrappingAdd, held.weight, Nat.mod_add_mod, map_append, sum_append, map_singleton,
      sum_singleton, weight_of found, Nat.add_assoc]
  height := by
    rw [tallest_append_singleton, height_of found, ← held.height]
    rcases Aggregate.addChild_deepest gathered key child childInfo with ⟨deeper, -, same⟩ | ⟨lower, -, same⟩
    · have le : gathered.deepestChildHeight ≤ childInfo.height := by
        rcases deeper with first | le
        · rw [held.first first]
          exact Nat.zero_le _
        · exact le
      rw [same, max_eq_right le]
    · rw [same, max_eq_left lower]
  first := by
    intro first
    rcases Aggregate.addChild_deepest gathered key child childInfo with ⟨-, taken, -⟩ | ⟨-, kept, same⟩
    · exact absurd (taken.symm.trans first) other
    · rw [same]
      exact held.first (kept.symm.trans first)
  best := by
    rcases Aggregate.addChild_best gathered key child childInfo with
      ⟨⟨candidate, better⟩, takenKey, takenStake, takenSlot⟩ | ⟨passed, keptKey, keptStake, keptSlot⟩
    · rw [takenKey, takenStake, takenSlot]
      refine .inr ⟨other, ?_, (weight_of found).symm, best_of found⟩
      · refine ⟨by simp, (candidate_iff found).mpr candidate, ?_⟩
        intro old mem oldCandidate
        rcases mem_append.mp mem with before | new
        · -- The new best child is preferred to the one before, which is preferred to all others.
          rcases held.best with ⟨_, _, none⟩ | ⟨taken, best, stake, _⟩
          · exact absurd oldCandidate (none old before)
          have preferred : infos.Preferred child gathered.bestChildKey := by
            rw [stake, ← weight_of found] at better
            rcases better with first | heavier | ⟨equal, less⟩
            · exact absurd first taken
            · exact .inl heavier
            · exact .inr ⟨equal.symm, less.le⟩
          exact preferred.trans (best.preferred old before oldCandidate)
        · rw [mem_singleton.mp new]
          exact .inr ⟨rfl, le_refl child⟩
    · rw [keptKey, keptStake, keptSlot]
      rcases held.best with ⟨self, slot, none⟩ | ⟨taken, best, stake, slot⟩
      · refine .inl ⟨self, slot, ?_⟩
        intro old mem candidate
        rcases mem_append.mp mem with before | new
        · exact none old before candidate
        · rw [mem_singleton.mp new, candidate_iff found] at candidate
          exact passed ⟨candidate, .inl self⟩
      · refine .inr ⟨taken, best.append_singleton ?_, stake, slot⟩
        intro candidate
        exact not_better stake found passed ((candidate_iff found).mp candidate)
  confirmed := by
    rw [Aggregate.addChild_confirmed, Bool.or_eq_true, held.confirmed, ← confirmed_iff found]
    simp only [mem_append, mem_singleton, or_and_right, exists_or, exists_eq_left]

theorem gather_ok (held : Gathered infos key stakeVotedAt seen gathered)
    (present : ∀ child ∈ children, child ≠ key ∧ ∃ childInfo, infos.lookup child = some childInfo) :
    ∃ all, gather infos key children gathered = .ok all ∧ Gathered infos key stakeVotedAt (seen ++ children) all := by
  induction children generalizing seen gathered with
  | nil => exact ⟨gathered, rfl, by rwa [append_nil]⟩
  | cons child rest ih =>
    obtain ⟨⟨other, _, found⟩, others⟩ := forall_mem_cons.mp present
    obtain ⟨all, succeeded, gatheredAll⟩ := ih (held.addChild found other) others
    refine ⟨all, ?_, by simpa using gatheredAll⟩
    simp only [gather, found, okOr]
    exact succeeded

/-- What aggregating a block does to it: only its values change, and it is confirmed if a child is. -/
structure Aggregated (infos : ForkInfos) (info info' : ForkInfo) : Prop where
  parent : info'.parent = info.parent
  children : info'.children = info.children
  stakeVotedAt : info'.stakeVotedAt = info.stakeVotedAt
  confirmed : (info'.isDuplicateConfirmed = true ↔
    info.isDuplicateConfirmed = true ∨ ∃ child ∈ info.children, infos.Confirmed child)
  cleared : (∃ child ∈ info.children, infos.Confirmed child) → info'.latestInvalidAncestor = none
  kept : ¬ (∃ child ∈ info.children, infos.Confirmed child) → info'.latestInvalidAncestor = info.latestInvalidAncestor

theorem aggregateSlot_settled (linked : infos.Linked) (found : infos.lookup key = some info)
    (small : info.stakeVotedAt < 2 ^ 64) :
    ∃ info', infos.aggregateSlot key = .ok (infos.insert key info') ∧ Aggregated infos info info' ∧
      Settled (infos.insert key info') key info' := by
  have present : ∀ child ∈ info.children, child ≠ key ∧ ∃ childInfo, infos.lookup child = some childInfo := by
    intro child mem
    obtain ⟨childInfo, foundChild, knows⟩ := linked.child key info found child mem
    refine ⟨?_, childInfo, foundChild⟩
    rintro rfl
    exact lt_irrefl _ (linked.older _ _ _ foundChild knows)
  have start : Gathered infos key info.stakeVotedAt []
      { stakeVotedSubtree := info.stakeVotedAt, bestChildStake := 0, bestChildKey := key, bestSlot := key,
        deepestChildHeight := 0, deepestChildStake := 0, deepestChildKey := key, deepestSlot := key,
        isDuplicateConfirmed := false } :=
    { weight := (Nat.mod_eq_of_lt small).symm, height := rfl, first := fun _ => rfl,
      best := .inl ⟨rfl, rfl, nofun⟩, confirmed := by simp }
  obtain ⟨all, succeeded, gathered⟩ := gather_ok start present
  rw [nil_append] at gathered
  -- Only the mark and the confirmation depend on the children.
  have kept : ∀ isConfirmed : Bool,
      (if isConfirmed then info.setDuplicateConfirmed else info).parent = info.parent ∧
      (if isConfirmed then info.setDuplicateConfirmed else info).children = info.children ∧
      (if isConfirmed then info.setDuplicateConfirmed else info).stakeVotedAt = info.stakeVotedAt := by
    intro isConfirmed
    cases isConfirmed <;> exact ⟨rfl, rfl, rfl⟩
  obtain ⟨parent, children, stakeVotedAt⟩ := kept all.isDuplicateConfirmed
  have confirmed : ∀ child ∈ info.children, infos.Confirmed child → all.isDuplicateConfirmed = true :=
    fun child mem childConfirmed => gathered.confirmed.mpr ⟨child, mem, childConfirmed⟩
  refine ⟨{ (if all.isDuplicateConfirmed then info.setDuplicateConfirmed else info) with
      stakeVotedSubtree := all.stakeVotedSubtree, height := all.deepestChildHeight + 1, bestSlot := all.bestSlot,
      deepestSlot := all.deepestSlot }, ?_, ?_, ?_⟩
  · simp only [aggregateSlot, found]
    rw [succeeded]
    rfl
  · refine ⟨parent, children, stakeVotedAt, ?_, ?_, ?_⟩
    · simp only [← gathered.confirmed]
      cases all.isDuplicateConfirmed <;> simp [ForkInfo.setDuplicateConfirmed]
    · intro some
      simp only [gathered.confirmed.mpr some, if_true, ForkInfo.setDuplicateConfirmed]
    · intro none
      rw [← gathered.confirmed] at none
      simp only [if_neg none]
  · have aggregated : infos.Settled key { (if all.isDuplicateConfirmed then info.setDuplicateConfirmed else info) with
        stakeVotedSubtree := all.stakeVotedSubtree, height := all.deepestChildHeight + 1, bestSlot := all.bestSlot,
        deepestSlot := all.deepestSlot } := by
      constructor
      case weight => simp only [stakeVotedAt, children, gathered.weight]
      case height => simp only [children, gathered.height, Nat.add_comm]
      case toLeads =>
        rcases gathered.best with ⟨_, self, none⟩ | ⟨_, best, _, slot⟩
        · exact ⟨.inl self, fun _ => .inl ⟨self, children ▸ none⟩⟩
        · exact ⟨.inr ⟨_, children ▸ best.member, slot⟩, fun _ => .inr ⟨_, children ▸ best, slot⟩⟩
      case confirmed =>
        simp only [children]
        intro child mem childConfirmed
        simp only [confirmed child mem childConfirmed, if_true]
        exact ⟨rfl, rfl⟩
    apply aggregated.congr
    simp only [children]
    exact linked.agree found _

end ForkInfos

end Payout.ForkChoice
