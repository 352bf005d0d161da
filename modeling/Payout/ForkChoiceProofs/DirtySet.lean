/-
Purpose: Votes on their way to the fork choice. What is taken from the dirty set are the votes that were accepted
  since it was last taken, as long as no vote for a second hash of a slot is accepted after the first one was taken.
-/
import Payout.ForkChoice.HeaviestSubtree
import Payout.Lib.Run

namespace Payout.ForkChoice

open Lib Payout.Runtime List Store AList

variable {votes votes' : LatestValidatorVotesForFrozenBanks} {pubkey : Pubkey} {slot hash : Nat}

namespace LatestValidatorVotesForFrozenBanks

variable {latest : Option Nat}

/-! ### Recording a vote -/

/-- What a vote that was seen in replay and accepted does: it is for a newer slot than the votes before, or for another
    hash of the latest slot. -/
inductive Recorded (votes votes' : LatestValidatorVotesForFrozenBanks) (pubkey : Pubkey) (slot hash : Nat) : Prop where
  | newer (older : ∀ latest hashes, votes.maxReplayFrozenVotes.lookup pubkey = some (latest, hashes) → latest < slot)
      (replay : votes'.maxReplayFrozenVotes = votes.maxReplayFrozenVotes.insert pubkey (slot, [hash]))
      (dirty : votes'.forkChoiceDirtySet = votes.forkChoiceDirtySet.insert pubkey (slot, [hash]))
  | again {hashes : List Nat} (known : votes.maxReplayFrozenVotes.lookup pubkey = some (slot, hashes))
      (fresh : hash ∉ hashes)
      (replay : votes'.maxReplayFrozenVotes = votes.maxReplayFrozenVotes.insert pubkey (slot, hashes ++ [hash]))
      (dirty : votes'.forkChoiceDirtySet = votes.forkChoiceDirtySet.insert pubkey
        (((votes.forkChoiceDirtySet.lookup pubkey).getD (0, [])).1,
          ((votes.forkChoiceDirtySet.lookup pubkey).getD (0, [])).2 ++ [hash]))

/-- What a call can do to the votes that are seen in replay: it leaves them alone, unless it is a vote for another hash
    of the latest slot, or it adds the vote. -/
theorem checkAddVote_cases
    (checked : votes.checkAddVote pubkey slot frozenHash isReplayVote = .ok (votes', added, latest)) :
    ((added && isReplayVote) = false ∧ votes'.maxReplayFrozenVotes = votes.maxReplayFrozenVotes ∧
      votes'.forkChoiceDirtySet = votes.forkChoiceDirtySet ∧ ∀ hash hashes, frozenHash = some hash →
        isReplayVote = true → votes.maxReplayFrozenVotes.lookup pubkey = some (slot, hashes) → hash ∈ hashes) ∨
    ∃ hash, frozenHash = some hash ∧ added = true ∧ isReplayVote = true ∧ Recorded votes votes' pubkey slot hash := by
  cases isReplayVote with
  | false =>
    -- Votes seen in gossip are kept apart.
    suffices kept : votes'.maxReplayFrozenVotes = votes.maxReplayFrozenVotes ∧
        votes'.forkChoiceDirtySet = votes.forkChoiceDirtySet from
      .inl ⟨Bool.and_false _, kept.1, kept.2, fun _ _ _ replay => absurd replay Bool.false_ne_true⟩
    unfold checkAddVote at checked
    split at checked
    · split_ifs at checked
      · cases checked
        exact ⟨rfl, rfl⟩
      · cases checked
        exact ⟨rfl, rfl⟩
      · cases checked
        exact ⟨rfl, rfl⟩
    · cases checked
      exact ⟨rfl, rfl⟩
    · cases checked
      exact ⟨rfl, rfl⟩
  | true =>
    unfold checkAddVote at checked
    split at checked
    · rename_i hash latestSlot hashes known
      have inReplay : votes.maxReplayFrozenVotes.lookup pubkey = some (latestSlot, hashes) := known
      split_ifs at checked with isNewer isAgain
      · cases checked
        refine .inr ⟨hash, rfl, rfl, rfl, .newer ?_ rfl rfl⟩
        intro other others found
        cases inReplay.symm.trans found
        exact isNewer
      · obtain ⟨rfl, fresh⟩ := isAgain
        obtain ⟨_, pushes, isResult⟩ := bind_ok_iff.mp checked
        simp only [pushDirty, if_true, ok_iffs] at pushes
        obtain ⟨-, rfl⟩ := pushes
        cases isResult
        exact .inr ⟨hash, rfl, rfl, rfl, .again inReplay fresh rfl rfl⟩
      · cases checked
        refine .inl ⟨rfl, rfl, rfl, ?_⟩
        intro _ others isHash _ found
        cases isHash
        cases inReplay.symm.trans found
        by_contra fresh
        exact isAgain ⟨rfl, fresh⟩
    · rename_i hash known
      have inReplay : votes.maxReplayFrozenVotes.lookup pubkey = none := known
      cases checked
      refine .inr ⟨hash, rfl, rfl, rfl, .newer ?_ rfl rfl⟩
      intro other others found
      cases inReplay.symm.trans found
    · cases checked
      refine .inl ⟨rfl, rfl, rfl, fun _ _ isHash => ?_⟩
      cases isHash

/-- The hashes of a validator in the dirty set are among its latest ones. -/
def Clean (votes : LatestValidatorVotesForFrozenBanks) (pubkey : Pubkey) : Prop :=
  ∀ hash latestSlot hashes slot dirty, votes.maxReplayFrozenVotes.lookup pubkey = some (latestSlot, hashes) →
    votes.forkChoiceDirtySet.lookup pubkey = some (slot, dirty) → hash ∈ dirty → hash ∈ hashes

theorem checkAddVote_ok (clean : votes.Clean pubkey) :
    ∃ result, votes.checkAddVote pubkey slot frozenHash isReplayVote = .ok result := by
  unfold checkAddVote
  split
  · rename_i hash latestSlot hashes known
    split_ifs with isNewer isAgain
    · exact ⟨_, rfl⟩
    · cases isReplayVote with
      | false => exact ⟨_, rfl⟩
      | true =>
        have inReplay : votes.maxReplayFrozenVotes.lookup pubkey = some (latestSlot, hashes) := known
        have notDirty : hash ∉ ((votes.forkChoiceDirtySet.lookup pubkey).getD (0, [])).2 := by
          cases found : votes.forkChoiceDirtySet.lookup pubkey with
          | none => exact not_mem_nil
          | some => exact fun mem => isAgain.2 (clean hash _ _ _ _ inReplay found mem)
        simp only [pushDirty, if_true, rejectIf, if_neg notDirty, bind, Except.bind]
        exact ⟨_, rfl⟩
    · exact ⟨_, rfl⟩
  · exact ⟨_, rfl⟩
  · exact ⟨_, rfl⟩

/-! ### Taking the votes -/

theorem mem_takeVotesDirtySet :
    (pubkey, vote) ∈ (votes.takeVotesDirtySet root).1 ↔ root ≤ vote.slot ∧
      ∃ hashes, votes.forkChoiceDirtySet.lookup pubkey = some (vote.slot, hashes) ∧ vote.hash ∈ hashes := by
  simp only [takeVotesDirtySet, mem_flatMap, mem_filter, decide_eq_true_eq, mem_map, Prod.mk.injEq]
  constructor
  · rintro ⟨entry, ⟨mem, notBelow⟩, hash, memberHash, rfl, rfl⟩
    exact ⟨notBelow, entry.2.2, mem_entries_iff.mp mem, memberHash⟩
  · rintro ⟨notBelow, hashes, found, memberHash⟩
    exact ⟨⟨pubkey, (vote.slot, hashes)⟩, ⟨mem_entries_iff.mpr found, notBelow⟩, vote.hash, memberHash, rfl, rfl⟩

theorem nodup_takeVotesDirtySet (root)
    (nodup : ∀ pubkey slot hashes, votes.forkChoiceDirtySet.lookup pubkey = some (slot, hashes) → hashes.Nodup) :
    (votes.takeVotesDirtySet root).1.Nodup := by
  refine nodup_flatMap.mpr ⟨?_, ?_⟩
  · intro entry mem
    have found := mem_entries_iff.mp (mem_of_mem_filter mem)
    refine (nodup _ _ _ found).map ?_
    intro one other same
    exact congrArg SlotHashKey.hash (Prod.mk.inj same).2
  · have distinct : votes.forkChoiceDirtySet.entries.Pairwise fun one other => one.1 ≠ other.1 :=
      nodupKeys_iff_pairwise.mp votes.forkChoiceDirtySet.nodupKeys
    refine (distinct.filter _).imp ?_
    intro one other different vote inOne inOther
    obtain ⟨_, -, rfl⟩ := mem_map.mp inOne
    obtain ⟨_, -, same⟩ := mem_map.mp inOther
    exact different (congrArg Prod.fst same).symm

end LatestValidatorVotesForFrozenBanks

/-! ### Votes and what was accepted -/

open LatestValidatorVotesForFrozenBanks

inductive VoteCall where
  | checkAddVote (votePubkey : Pubkey) (voteSlot : Nat) (frozenHash : Option Nat) (isReplayVote : Bool)
  | takeVotesDirtySet (root : Nat)
deriving Repr, DecidableEq

/-- The votes, and those seen in replay that were accepted since the dirty set was last taken. -/
structure VoteLog where
  votes : LatestValidatorVotesForFrozenBanks
  accepted : List (Pubkey × SlotHashKey)

namespace VoteLog

/-- The vote of a call, if it was seen in replay and added. -/
def acceptedVote (pubkey : Pubkey) (slot : Nat) (frozenHash : Option Nat) (isReplayVote added : Bool) :
    List (Pubkey × SlotHashKey) :=
  match frozenHash with
  | some hash => if added && isReplayVote then [(pubkey, { slot := slot, hash := hash })] else []
  | none => []

def step : VoteCall → VoteLog → Except VotePanic VoteLog
  | .checkAddVote pubkey slot frozenHash isReplayVote, log => do
      let (votes, added, _) ← log.votes.checkAddVote pubkey slot frozenHash isReplayVote
      .ok { votes := votes, accepted := log.accepted ++ acceptedVote pubkey slot frozenHash isReplayVote added }
  | .takeVotesDirtySet root, log => .ok { votes := (log.votes.takeVotesDirtySet root).2, accepted := [] }

/-- A call that takes the dirty set returns, each once, the accepted votes that are not below the root and for which no
    vote of the same validator for a greater slot was accepted. -/
def Returns (log : VoteLog) (root : Nat) : Prop :=
  (log.votes.takeVotesDirtySet root).1.Nodup ∧ ∀ pubkey vote,
    (pubkey, vote) ∈ (log.votes.takeVotesDirtySet root).1 ↔ (pubkey, vote) ∈ log.accepted ∧ root ≤ vote.slot ∧
      ∀ other, (pubkey, other) ∈ log.accepted → other.slot ≤ vote.slot

/-- When a vote for another hash of the latest slot is accepted, the votes for that slot are still in the dirty set. For
    slot zero that is no matter. -/
def StillDirty (log : VoteLog) : VoteCall → Prop
  | .checkAddVote pubkey slot (some hash) true =>
    ∀ latest ∈ log.votes.maxReplayFrozenVotes.lookup pubkey, latest.1 = slot → hash ∉ latest.2 →
      slot = 0 ∨ (log.votes.forkChoiceDirtySet.lookup pubkey).isSome = true
  | _ => True

instance (log : VoteLog) (call : VoteCall) : Decidable (log.StillDirty call) := by
  unfold StillDirty
  split <;> infer_instance

/-- How the accepted votes are kept: those for the latest slot are in the dirty set. -/
structure Tracked (log : VoteLog) : Prop where
  known : ∀ pubkey vote, (pubkey, vote) ∈ log.accepted → ∃ latest hashes,
    log.votes.maxReplayFrozenVotes.lookup pubkey = some (latest, hashes) ∧ vote.slot ≤ latest ∧
    (vote.slot = latest → vote.hash ∈ hashes) ∧ ∃ hash, (pubkey, ⟨latest, hash⟩) ∈ log.accepted
  dirty : ∀ pubkey slot hashes, log.votes.forkChoiceDirtySet.lookup pubkey = some (slot, hashes) →
    hashes.Nodup ∧ hashes ≠ [] ∧ ∃ latest all, log.votes.maxReplayFrozenVotes.lookup pubkey = some (latest, all) ∧
      ∀ hash, hash ∈ hashes ↔ (pubkey, ⟨latest, hash⟩) ∈ log.accepted
  clean : ∀ pubkey, log.votes.forkChoiceDirtySet.lookup pubkey = none → ∀ vote, (pubkey, vote) ∉ log.accepted

/-- The votes in the dirty set have the slots they were accepted for. -/
def OwnSlots (log : VoteLog) : Prop :=
  ∀ pubkey slot hashes, log.votes.forkChoiceDirtySet.lookup pubkey = some (slot, hashes) →
    ∃ all, log.votes.maxReplayFrozenVotes.lookup pubkey = some (slot, all)

variable {log log' : VoteLog} {accepted : List (Pubkey × SlotHashKey)} {call : VoteCall}

/-- The accepted votes for the latest slot are those that are not outdone by another accepted one. -/
theorem Tracked.latest_iff (tracked : log.Tracked)
    (known : log.votes.maxReplayFrozenVotes.lookup pubkey = some (latest, hashes))
    (isAccepted : (pubkey, vote) ∈ log.accepted) :
    vote.slot = latest ↔ ∀ other, (pubkey, other) ∈ log.accepted → other.slot ≤ vote.slot := by
  constructor
  · rintro rfl other isOther
    obtain ⟨_, _, known', le, -⟩ := tracked.known pubkey other isOther
    cases known.symm.trans known'
    exact le
  · intro greatest
    obtain ⟨_, _, known', le, -, _, isLatest⟩ := tracked.known pubkey vote isAccepted
    cases known.symm.trans known'
    exact le_antisymm le (greatest _ isLatest)

/-- What is taken is right, whatever the root is, exactly if the votes in the dirty set have their own slots. -/
theorem Tracked.returns_iff (tracked : log.Tracked) : (∀ root, log.Returns root) ↔ log.OwnSlots := by
  constructor
  · intro returns pubkey slot hashes found
    obtain ⟨-, nonempty, latest, all, known, _⟩ := tracked.dirty pubkey slot hashes found
    obtain ⟨hash, mem⟩ := exists_mem_of_ne_nil hashes nonempty
    have taken : (pubkey, (⟨slot, hash⟩ : SlotHashKey)) ∈ (log.votes.takeVotesDirtySet 0).1 :=
      mem_takeVotesDirtySet.mpr ⟨Nat.zero_le _, hashes, found, mem⟩
    obtain ⟨isAccepted, -, greatest⟩ := ((returns 0).2 _ _).mp taken
    have isLatest : slot = latest := (tracked.latest_iff known isAccepted).mpr greatest
    exact ⟨all, isLatest ▸ known⟩
  · intro own root
    refine ⟨nodup_takeVotesDirtySet root fun pubkey slot hashes found => (tracked.dirty pubkey slot hashes found).1, ?_⟩
    intro pubkey vote
    rw [mem_takeVotesDirtySet]
    constructor
    · rintro ⟨notBelow, hashes, found, mem⟩
      obtain ⟨-, -, _, _, known, isHash⟩ := tracked.dirty pubkey vote.slot hashes found
      obtain ⟨_, known'⟩ := own pubkey vote.slot hashes found
      cases known.symm.trans known'
      have isAccepted := (isHash vote.hash).mp mem
      exact ⟨isAccepted, notBelow, (tracked.latest_iff known isAccepted).mp rfl⟩
    · rintro ⟨isAccepted, notBelow, greatest⟩
      obtain ⟨_, _, known, -⟩ := tracked.known pubkey vote isAccepted
      have isLatest := (tracked.latest_iff known isAccepted).mpr greatest
      cases found : log.votes.forkChoiceDirtySet.lookup pubkey with
      | none => exact absurd isAccepted (tracked.clean pubkey found vote)
      | some entry =>
        obtain ⟨-, -, _, _, known', isHash⟩ := tracked.dirty pubkey entry.1 entry.2 found
        cases known.symm.trans known'
        obtain ⟨_, known''⟩ := own pubkey entry.1 entry.2 found
        obtain ⟨isSlot, -⟩ := Prod.mk.inj (Option.some.inj (known''.symm.trans known))
        refine ⟨notBelow, entry.2, ?_, (isHash vote.hash).mpr ?_⟩
        · rw [isLatest, ← isSlot]
        · rwa [← isLatest]

/-! ### One step -/

theorem Tracked.write {all dirty : List Nat} (tracked : Tracked ⟨votes, accepted⟩)
    (replay : votes'.maxReplayFrozenVotes = votes.maxReplayFrozenVotes.insert pubkey (slot, all))
    (dirtySet : votes'.forkChoiceDirtySet = votes.forkChoiceDirtySet.insert pubkey (dirtySlot, dirty))
    (before : ∀ vote, (pubkey, vote) ∈ accepted → vote.slot ≤ slot ∧ (vote.slot = slot → vote.hash ∈ all))
    (itself : hash ∈ all) (nodup : dirty.Nodup)
    (isHash : ∀ other, other ∈ dirty ↔ (pubkey, ⟨slot, other⟩) ∈ accepted ∨ other = hash) :
    Tracked ⟨votes', accepted ++ [(pubkey, ⟨slot, hash⟩)]⟩ := by
  have isAccepted : ∀ {other vote}, (other, vote) ∈ accepted ++ [(pubkey, ⟨slot, hash⟩)] ↔
      (other, vote) ∈ accepted ∨ (other = pubkey ∧ vote = ⟨slot, hash⟩) := by
    intro other vote
    rw [mem_append, mem_singleton, Prod.mk.injEq]
  constructor
  case known =>
    intro other vote mem
    rw [replay]
    by_cases isPubkey : other = pubkey
    · subst isPubkey
      refine ⟨slot, all, lookup_insert _, ?_, ?_, hash, isAccepted.mpr (.inr ⟨rfl, rfl⟩)⟩
      · rcases isAccepted.mp mem with old | ⟨-, rfl⟩
        · exact (before vote old).1
        · exact le_rfl
      · rcases isAccepted.mp mem with old | ⟨-, rfl⟩
        · exact (before vote old).2
        · exact fun _ => itself
    · have old := (isAccepted.mp mem).resolve_right fun both => isPubkey both.1
      obtain ⟨latest, hashes, known, le, within, another, isAnother⟩ := tracked.known other vote old
      exact ⟨latest, hashes, (lookup_insert_ne isPubkey).trans known, le, within, another,
        isAccepted.mpr (.inl isAnother)⟩
  case dirty =>
    intro other otherSlot hashes found
    rw [dirtySet] at found
    rw [replay]
    rcases lookup_insert_eq_some.mp found with ⟨rfl, isEntry⟩ | ⟨isPubkey, found⟩
    · cases isEntry
      refine ⟨nodup, ne_nil_of_mem ((isHash hash).mpr (.inr rfl)), slot, all, lookup_insert _, ?_⟩
      intro another
      rw [isHash another, isAccepted]
      refine or_congr_right ⟨?_, fun both => congrArg SlotHashKey.hash both.2⟩
      rintro rfl
      exact ⟨rfl, rfl⟩
    · obtain ⟨nodup, nonempty, latest, all, known, isHash⟩ := tracked.dirty other otherSlot hashes found
      refine ⟨nodup, nonempty, latest, all, (lookup_insert_ne isPubkey).trans known, ?_⟩
      intro another
      rw [isAccepted, isHash another, or_iff_left fun both => isPubkey both.1]
  case clean =>
    intro other absent vote mem
    rw [dirtySet, lookup_insert_eq_ite] at absent
    split at absent
    · cases absent
    · rename_i isPubkey
      exact tracked.clean other absent vote ((isAccepted.mp mem).resolve_right fun both => isPubkey both.1)

theorem Tracked.record (tracked : Tracked ⟨votes, accepted⟩) (recorded : Recorded votes votes' pubkey slot hash) :
    Tracked ⟨votes', accepted ++ [(pubkey, ⟨slot, hash⟩)]⟩ := by
  cases recorded with
  | newer older replay dirty =>
    -- The votes before were for smaller slots.
    have before : ∀ vote, (pubkey, vote) ∈ accepted → vote.slot < slot := by
      intro vote mem
      obtain ⟨latest, hashes, known, le, -⟩ := tracked.known pubkey vote mem
      exact lt_of_le_of_lt le (older latest hashes known)
    refine tracked.write replay dirty ?_ (mem_singleton.mpr rfl) (nodup_singleton _) ?_
    · exact fun vote mem => ⟨(before vote mem).le, fun same => absurd same (before vote mem).ne⟩
    · intro other
      rw [mem_singleton, or_iff_right fun mem => lt_irrefl _ (before _ mem)]
  | @again hashes known fresh replay dirty =>
    have before : ∀ vote, (pubkey, vote) ∈ accepted →
        vote.slot ≤ slot ∧ (vote.slot = slot → vote.hash ∈ hashes) := by
      intro vote mem
      obtain ⟨_, _, known', le, within, -⟩ := tracked.known pubkey vote mem
      cases known.symm.trans known'
      exact ⟨le, within⟩
    have isHash : ∀ other, other ∈ ((votes.forkChoiceDirtySet.lookup pubkey).getD (0, [])).2 ↔
        (pubkey, ⟨slot, other⟩) ∈ accepted := by
      intro other
      cases found : votes.forkChoiceDirtySet.lookup pubkey with
      | none => exact iff_of_false not_mem_nil (tracked.clean pubkey found _)
      | some entry =>
        obtain ⟨-, -, _, _, known', isHash⟩ := tracked.dirty pubkey entry.1 entry.2 found
        cases known.symm.trans known'
        exact isHash other
    have nodup : ((votes.forkChoiceDirtySet.lookup pubkey).getD (0, [])).2.Nodup := by
      cases found : votes.forkChoiceDirtySet.lookup pubkey with
      | none => exact nodup_nil
      | some entry => exact (tracked.dirty pubkey entry.1 entry.2 found).1
    refine tracked.write replay dirty ?_ (mem_append.mpr (.inr (mem_singleton.mpr rfl))) ?_ ?_
    · intro vote mem
      exact ⟨(before vote mem).1, fun same => mem_append.mpr (.inl ((before vote mem).2 same))⟩
    · refine nodup.append (nodup_singleton _) (disjoint_singleton.mpr ?_)
      exact fun mem => fresh ((before _ ((isHash hash).mp mem)).2 rfl)
    · intro other
      rw [mem_append, mem_singleton, isHash]

/-- An accepted vote has its own slot in the dirty set exactly if its entry is still there or the slot is zero. -/
theorem OwnSlots.record_iff (own : OwnSlots ⟨votes, accepted⟩) (recorded : Recorded votes votes' pubkey slot hash) :
    OwnSlots ⟨votes', accepted ++ [(pubkey, ⟨slot, hash⟩)]⟩ ↔
      StillDirty ⟨votes, accepted⟩ (.checkAddVote pubkey slot (some hash) true) := by
  have others : ∀ {entry dirtyEntry : Nat × List Nat},
      votes'.maxReplayFrozenVotes = votes.maxReplayFrozenVotes.insert pubkey entry →
      votes'.forkChoiceDirtySet = votes.forkChoiceDirtySet.insert pubkey dirtyEntry →
      (OwnSlots ⟨votes', accepted ++ [(pubkey, ⟨slot, hash⟩)]⟩ ↔ dirtyEntry.1 = entry.1) := by
    intro entry dirtyEntry replay dirty
    simp only [OwnSlots, replay, dirty]
    constructor
    · intro own'
      obtain ⟨_, known⟩ := own' pubkey dirtyEntry.1 dirtyEntry.2 (lookup_insert _)
      rw [lookup_insert, Option.some.injEq] at known
      exact (congrArg Prod.fst known).symm
    · intro same other otherSlot hashes found
      rcases lookup_insert_eq_some.mp found with ⟨rfl, isEntry⟩ | ⟨isPubkey, found⟩
      · cases isEntry
        have isSlot : otherSlot = entry.1 := same
        exact ⟨entry.2, (lookup_insert _).trans (by rw [isSlot])⟩
      · obtain ⟨all, known⟩ := own other otherSlot hashes found
        exact ⟨all, (lookup_insert_ne isPubkey).trans known⟩
  cases recorded with
  | newer older replay dirty =>
    refine iff_of_true ((others replay dirty).mpr rfl) ?_
    rintro latest known rfl
    exact absurd (older latest.1 latest.2 known) (lt_irrefl _)
  | @again hashes known fresh replay dirty =>
    rw [others replay dirty]
    cases found : votes.forkChoiceDirtySet.lookup pubkey with
    | none =>
      constructor
      · exact fun isZero _ _ _ _ => .inl isZero.symm
      · intro still
        refine ((still _ known rfl fresh).resolve_right ?_).symm
        simp [found]
    | some entry =>
      obtain ⟨_, known'⟩ := own pubkey entry.1 entry.2 found
      cases known.symm.trans known'
      refine iff_of_true rfl ?_
      intro _ _ _ _
      exact .inr (by rw [found]; rfl)

/-- What a step does: nothing to the votes seen in replay, or a vote is recorded, or the dirty set is taken. -/
theorem step_cases (taken : step call log = .ok log') :
    (log'.accepted = log.accepted ∧ log'.votes.maxReplayFrozenVotes = log.votes.maxReplayFrozenVotes ∧
      log'.votes.forkChoiceDirtySet = log.votes.forkChoiceDirtySet ∧
      ∀ pubkey slot hash hashes, call = .checkAddVote pubkey slot (some hash) true →
        log.votes.maxReplayFrozenVotes.lookup pubkey = some (slot, hashes) → hash ∈ hashes) ∨
    (∃ pubkey slot hash, call = .checkAddVote pubkey slot (some hash) true ∧
      Recorded log.votes log'.votes pubkey slot hash ∧ log'.accepted = log.accepted ++ [(pubkey, ⟨slot, hash⟩)]) ∨
    ∃ root, call = .takeVotesDirtySet root ∧ log' = ⟨{ log.votes with forkChoiceDirtySet := ∅ }, []⟩ := by
  cases call with
  | takeVotesDirtySet root =>
    cases taken
    exact .inr (.inr ⟨root, rfl, rfl⟩)
  | checkAddVote pubkey slot frozenHash =>
    obtain ⟨⟨_, _, _⟩, checked, isLog⟩ := bind_ok_iff.mp taken
    cases isLog
    rcases checkAddVote_cases checked with ⟨notAdded, replay, dirty, passed⟩ | ⟨hash, rfl, rfl, rfl, recorded⟩
    · refine .inl ⟨?_, replay, dirty, ?_⟩
      · cases frozenHash with
        | none => exact append_nil _
        | some => simp [acceptedVote, notAdded]
      · intro _ _ hash hashes isCall known
        cases isCall
        exact passed hash hashes rfl rfl known
    · exact .inr (.inl ⟨pubkey, slot, hash, rfl, recorded, rfl⟩)

theorem step_tracked (tracked : log.Tracked) (taken : step call log = .ok log') : log'.Tracked := by
  rcases step_cases taken with ⟨accepted, replay, dirty, -⟩ | ⟨_, _, _, -, recorded, accepted⟩ |
    ⟨root, -, rfl⟩
  · constructor
    · rw [accepted, replay]
      exact tracked.known
    · rw [accepted, replay, dirty]
      exact tracked.dirty
    · rw [accepted, dirty]
      exact tracked.clean
  · have recordedLog := tracked.record recorded
    rwa [← accepted] at recordedLog
  · exact ⟨nofun, nofun, nofun⟩

/-- A step keeps the slots of the votes in the dirty set exactly if it does not add to an entry that was taken. -/
theorem step_ownSlots_iff (own : log.OwnSlots) (taken : step call log = .ok log') :
    log'.OwnSlots ↔ log.StillDirty call := by
  rcases step_cases taken with ⟨accepted, replay, dirty, passed⟩ | ⟨pubkey, slot, hash, rfl, recorded, accepted⟩ |
    ⟨root, rfl, rfl⟩
  · refine iff_of_true ?_ ?_
    · rw [OwnSlots, replay, dirty]
      exact own
    unfold StillDirty
    split
    · rename_i pubkey slot hash
      rintro latest known rfl fresh
      exact absurd (passed pubkey latest.1 hash latest.2 rfl known) fresh
    · trivial
  · have recordedLog := own.record_iff recorded
    rwa [← accepted] at recordedLog
  · exact iff_of_true nofun trivial

theorem step_ok (tracked : log.Tracked) (call) : ∃ log', step call log = .ok log' := by
  cases call with
  | takeVotesDirtySet => exact ⟨_, rfl⟩
  | checkAddVote pubkey slot =>
    have clean : log.votes.Clean pubkey := by
      intro hash latestSlot hashes slot dirty known found mem
      obtain ⟨-, -, _, _, known', isHash⟩ := tracked.dirty pubkey slot dirty found
      cases known.symm.trans known'
      obtain ⟨_, _, known'', -, within, -⟩ := tracked.known pubkey _ ((isHash hash).mp mem)
      cases known.symm.trans known''
      exact within rfl
    obtain ⟨result, checked⟩ := checkAddVote_ok clean
    exact ⟨_, bind_ok_iff.mpr ⟨result, checked, rfl⟩⟩

/-! ### Runs -/

def start : VoteLog := { votes := .default, accepted := [] }

theorem start_tracked : start.Tracked := ⟨nofun, nofun, nofun⟩

/-- In every run from the start no call panics. And in all its states the votes that are to be handed over, and no
    others, are returned, whatever the root is, if and only if no vote for another hash of a slot is accepted after the
    votes for that slot were taken. -/
theorem dirty_votes_returned_iff {calls : List VoteCall} {reached : VoteLog}
    (run : Run step (fun _ _ => True) start calls reached) :
    (∀ call, ∃ log, step call reached = .ok log) ∧
    ((∀ done rest log, calls = done ++ rest → Run step (fun _ _ => True) start done log →
        ∀ root, log.Returns root) ↔
      ∀ done call rest log, calls = done ++ call :: rest → Run step (fun _ _ => True) start done log →
        log.StillDirty call) := by
  have kept : ∀ log call log', log.Tracked → True → step call log = .ok log' → log'.Tracked :=
    fun _ _ _ tracked _ => step_tracked tracked
  refine ⟨step_ok (run.invariant kept start_tracked), ?_⟩
  refine run.always_iff (P := fun log => ∀ root, log.Returns root) kept ?_ start_tracked
    (start_tracked.returns_iff.mpr nofun)
  intro log call log' tracked returns _ taken
  rw [(step_tracked tracked taken).returns_iff]
  exact step_ownSlots_iff (tracked.returns_iff.mp returns) taken

/-! ### Two hashes of one slot -/

namespace Sample

/-- Votes for two hashes of one slot, and one that was seen in gossip. -/
def together : List VoteCall :=
  [.checkAddVote 7 5 (some 1) true, .checkAddVote 7 6 (some 9) false, .checkAddVote 7 5 (some 2) true]

theorem together_fit : (exec step StillDirty together start).isSome = true := by decide +kernel

def reached : VoteLog := (exec step StillDirty together start).get together_fit

/-- The vote for the first hash is taken before the vote for the second one. -/
def apart : List VoteCall :=
  [.checkAddVote 7 5 (some 1) true, .takeVotesDirtySet 0, .checkAddVote 7 5 (some 2) true]

theorem apart_succeeds : (exec step (fun _ _ => True) apart start).isSome = true := by decide +kernel

end Sample

open Sample

/-- Both votes are returned when they are taken together. -/
theorem dirty_votes_returned_together :
    (reached.votes.takeVotesDirtySet 3).1 = [(7, ⟨5, 1⟩), (7, ⟨5, 2⟩)] ∧
    (∀ root, reached.Returns root) ∧
    ∃ log, step (.checkAddVote 7 6 (some 1) true) reached = .ok log := by
  have fits : Run step StillDirty start together reached := run_exec_get together_fit
  have run : Run step (fun _ _ => True) start together reached := fits.weaken fun _ _ _ => trivial
  obtain ⟨succeeds, returns⟩ := dirty_votes_returned_iff run
  refine ⟨by decide +kernel, ?_, succeeds _⟩
  refine returns.mpr ?_ together [] reached (append_nil _).symm run
  exact fun done call rest log isSplit => fits.meets isSplit

/-- When the first vote was taken before, the second one is returned for slot zero, or not at all if the root is above
    it. -/
theorem dirty_vote_under_slot_zero : ∃ log, Run step (fun _ _ => True) start apart log ∧
    log.accepted = [(7, ⟨5, 2⟩)] ∧ (log.votes.takeVotesDirtySet 0).1 = [(7, ⟨0, 2⟩)] ∧
    (log.votes.takeVotesDirtySet 1).1 = [] ∧ ¬ log.Returns 0 ∧ ¬ log.Returns 1 := by
  let log := (exec step (fun _ _ => True) apart start).get apart_succeeds
  have accepted : log.accepted = [(7, ⟨5, 2⟩)] := by decide +kernel
  have atZero : (log.votes.takeVotesDirtySet 0).1 = [(7, ⟨0, 2⟩)] := by decide +kernel
  have atOne : (log.votes.takeVotesDirtySet 1).1 = [] := by decide +kernel
  refine ⟨log, run_exec_get apart_succeeds, accepted, atZero, atOne, ?_, ?_⟩
  · rintro ⟨-, returns⟩
    have mem := (returns 7 ⟨5, 2⟩).mpr (by simp [accepted])
    simp [atZero] at mem
  · rintro ⟨-, returns⟩
    have mem := (returns 7 ⟨5, 2⟩).mpr (by simp [accepted])
    simp [atOne] at mem

end VoteLog

end Payout.ForkChoice
