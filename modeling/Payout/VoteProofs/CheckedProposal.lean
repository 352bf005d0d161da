/-
Purpose: What the check of a proposed tower accepts, and that a tower never rolls back the one it replaces. Every
  index of the walk over the slot hashes stays in bounds; the votes it drops are those that neither the slot hashes nor
  the account can vouch for, and never the newest one.
-/
import Payout.VoteProofs.NewVoteState

namespace Payout.Vote

section

open Lib List LandedVote Walk

variable {Rest Hash : Type} {api : VoteInterface Rest} {lockouts proposed : List Lockout} {root : Option Nat}
  {hash : Hash} {slotHashes : List (Nat × Hash)}

/-! ### The walk over the slot hashes -/

section Walk

variable {voteState : VoteState Rest} {earliest : Nat} {walk : Walk}

/-- What one turn of the walk does: it is done with the root, passes or drops a proposed vote, or turns to a newer slot
    hash. -/
inductive Turned (proposed : List Lockout) (earliest : Nat) (walk : Walk) : Walk → Prop where
  | root (some : walk.rootToCheck.isSome) : Turned proposed earliest walk { walk with rootToCheck := none }
  | newer : Turned proposed earliest walk { walk with slotHashesIndex := walk.slotHashesIndex - 1 }
  | passed (slotHashesIndex : Nat) (down : slotHashesIndex ≤ walk.slotHashesIndex) : Turned proposed earliest walk
      { walk with proposedLockoutsIndex := walk.proposedLockoutsIndex + 1, slotHashesIndex := slotHashesIndex }
  | dropped (vote : Lockout) (at_index : proposed[walk.proposedLockoutsIndex]? = some vote)
      (tooOld : vote.slot < earliest) : Turned proposed earliest walk
      { walk with
        proposedLockoutsIndex := walk.proposedLockoutsIndex + 1
        indicesToFilter := walk.indicesToFilter ++ [walk.proposedLockoutsIndex] }

theorem checkSlot_turned (turned : checkSlot api voteState proposed slotHashes earliest walk = .ok walk') :
    Turned proposed earliest walk walk' := by
  simp only [checkSlot, ok_iffs] at turned
  obtain ⟨vote, at_index, _, _, _, turned⟩ := turned
  split at turned
  case h_1 =>
    split at turned
    case isTrue =>
      simp only [ok_iffs, not_le] at turned
      obtain ⟨tooOld, turned⟩ := turned
      cases checked : walk.rootToCheck with
      | some =>
        simp only [checked, ok_iffs] at turned
        rw [← turned.2]
        exact .root (by rw [checked]; rfl)
      | none =>
        simp only [checked, Option.getD_none] at turned tooOld
        split at turned
        case isTrue =>
          cases turned
          rw [← checked]
          exact .passed walk.slotHashesIndex le_rfl
        case isFalse =>
          cases turned
          rw [← checked]
          exact .dropped vote at_index tooOld
    case isFalse => split at turned <;> cases turned
  case h_2 =>
    cases turned
    exact .newer
  case h_3 =>
    split at turned
    case isTrue some =>
      cases turned
      exact .root some
    case isFalse =>
      cases turned
      exact .passed _ (Nat.sub_le _ _)

theorem checkSlot_decreases : Decreases (walking proposed)
    (checkSlot api voteState proposed slotHashes earliest) (left proposed) := by
  intro walk walk' going taken
  simp only [walking, Bool.and_eq_true, decide_eq_true_eq] at going
  cases checkSlot_turned taken with
  | root some =>
    cases checked : walk.rootToCheck with
    | none =>
      rw [checked] at some
      cases some
    | some => simp [left, checked]
  | newer | passed hashes down | dropped vote at_index tooOld =>
    simp only [left]
    omega

/-- Only votes older than all slot hashes are to be dropped. -/
def DropsOld (proposed : List Lockout) (earliest : Nat) (walk : Walk) : Prop :=
  ∀ index ∈ walk.indicesToFilter, ∃ vote, proposed[index]? = some vote ∧ vote.slot < earliest

theorem Turned.dropsOld (turned : Turned proposed earliest walk walk') (drops : DropsOld proposed earliest walk) :
    DropsOld proposed earliest walk' := by
  cases turned with
  | root | newer | passed => exact drops
  | dropped vote at_index tooOld =>
    intro index among
    rcases mem_append.mp among with earlier | this
    · exact drops index earlier
    · rw [mem_singleton.mp this]
      exact ⟨vote, at_index, tooOld⟩

end Walk

variable [DecidableEq Hash]

theorem retainVotes_getLast {index filter : Nat} (isLast : lockouts.getLast? = some last)
    (stays : index + (lockouts.length - 1) ∉ indices) :
    (retainVotes indices index filter lockouts).getLast? = some last := by
  induction lockouts generalizing index filter with
  | nil => simp at isLast
  | cons lockout lockouts ih =>
    cases lockouts with
    | nil =>
      have kept : indices[filter]? ≠ some index := by
        intro found
        exact stays (mem_of_getElem? found)
      simpa [retainVotes, kept] using isLast
    | cons next rest =>
      have later : (next :: rest).getLast? = some last := by simpa using isLast
      have stays' : index + 1 + ((next :: rest).length - 1) ∉ indices := by
        intro dropped
        apply stays
        have same : index + ((lockout :: next :: rest).length - 1) = index + 1 + ((next :: rest).length - 1) := by
          simp only [length_cons]
          omega
        rw [same]
        exact dropped
      rw [retainVotes]
      split
      · exact ih later stays'
      · rw [getLast?_cons, ih later stays']
        rfl

/-- What is left of an accepted proposal ends with a vote newer than all of the account. -/
theorem checkAndFilter_last {voteState : VoteState Rest}
    (checked : checkAndFilterProposedVoteState api voteState proposed proposedRoot hash slotHashes =
      .ok (lockouts, root)) :
    ∃ last, lockouts.getLast? = some last ∧ ∀ vote ∈ voteState.votes.getLast?, vote.slot < last.slot := by
  simp only [checkAndFilterProposedVoteState, ok_iffs, Prod.mk.injEq] at checked
  obtain ⟨last, isLast, newer, earliest, _, known, _, walked, _, _, _, _, _, rfl, _⟩ := checked
  obtain ⟨drops, _⟩ := whileLoop_invariant checkSlot_decreases
    (fun _ _ drops _ taken => (checkSlot_turned taken).dropsOld drops) walked
    (P := DropsOld proposed earliest.1) (by simp [DropsOld])
  refine ⟨last, ?_, ?_⟩
  · apply retainVotes_getLast isLast
    intro dropped
    obtain ⟨_, at_index, tooOld⟩ := drops _ dropped
    rw [Nat.zero_add, ← getLast?_eq_getElem?, isLast] at at_index
    cases at_index
    exact known tooOld
  · intro vote isLastVote
    by_contra notNewer
    exact newer ⟨vote, isLastVote, not_lt.mp notNewer⟩

/-! ### The result -/

/-- A vote state whose votes are a tower above its root. -/
structure WellFormed (api : VoteInterface Rest) (voteState : VoteState Rest) : Prop where
  shape : TowerShape api voteState.lockouts
  aboveRoot : ∀ vote ∈ voteState.lockouts, Above voteState.rootSlot vote.slot

/-- A vote state whose votes are a tower above its root, unless the root is slot 0. -/
structure WellFormedUnlessZero (api : VoteInterface Rest) (voteState : VoteState Rest) : Prop where
  shape : TowerShape api voteState.lockouts
  aboveRoot : ∀ vote ∈ voteState.lockouts, AboveUnlessZero voteState.rootSlot vote.slot

/-- What a vote state may not lose to another one. -/
structure NoRollback (api : VoteInterface Rest) (before after : VoteState Rest) : Prop where
  root : ∀ root ∈ before.rootSlot, ∃ root' ∈ after.rootSlot, root ≤ root'
  lastVotedSlot : ∃ last ∈ after.lockouts.getLast?, ∀ old ∈ before.lockouts.getLast?, old.slot < last.slot
  votes : ∀ old ∈ before.lockouts, Above after.rootSlot old.slot →
    Kept after.lockouts old ∨ Expired api after.lockouts old

theorem applyProposal_noRollback {epoch slot : Nat} (wellFormed : WellFormedUnlessZero api voteState)
    (accepted : applyProposal api voteState slotHashes epoch slot lockouts root hash timestamp = .ok result) :
    WellFormedUnlessZero api result ∧ NoRollback api voteState result := by
  simp only [applyProposal, bind_ok_iff, Prod.exists] at accepted
  obtain ⟨left, newRoot, checked, processed⟩ := accepted
  obtain ⟨last, isLast, newer⟩ := checkAndFilter_last checked
  have replaced := processNewVoteState_ok processed
  have isLeft : result.lockouts = left := replaced.lockouts.trans (map_lockout_ofLockout left)
  have chain := replaced.chain
  rw [map_lockout_ofLockout] at chain
  have sound : ∀ vote ∈ left, Confirmed vote ∧ AboveUnlessZero newRoot vote.slot := by
    intro vote among
    exact replaced.sound (.ofLockout vote) (mem_map_of_mem among)
  have few : left.length ≤ maxLockoutHistory := by
    have landed := replaced.few
    rwa [length_map] at landed
  have shape : TowerShape api left := .of_chain few (fun vote among => (sound vote among).1) chain
  have oldOrder : InOrder voteState.votes := inOrder_iff.mpr wellFormed.shape.ordered
  have newOrder : InOrder (left.map ofLockout) := by
    rw [inOrder_iff, map_lockout_ofLockout]
    exact shape.ordered
  constructor
  · constructor
    case shape => rwa [isLeft]
    case aboveRoot =>
      rw [isLeft, replaced.rootSlot]
      exact fun vote among => (sound vote among).2
  · constructor
    case root =>
      rw [replaced.rootSlot]
      exact replaced.root
    case lastVotedSlot =>
      refine ⟨last, isLeft ▸ isLast, ?_⟩
      intro old isOld
      rw [VoteState.lockouts, getLast?_map] at isOld
      obtain ⟨vote, isVote, rfl⟩ := Option.mem_map.mp isOld
      exact newer vote isVote
    case votes =>
      obtain ⟨_, compared⟩ := replaced.compared
      have accounted := compareVotes_accounted compared (oldOrder.sublist (uncovered_sublist newRoot _)) newOrder
        ⟨.ofLockout last, mem_map_of_mem (mem_of_getLast? isLast), fun old among =>
          lt_of_lt_last oldOrder ((uncovered_sublist newRoot _).subset among) newer⟩
      rw [isLeft, replaced.rootSlot]
      rw [map_lockout_ofLockout] at accounted
      intro old among above
      obtain ⟨vote, mem, rfl⟩ := mem_map.mp among
      exact accounted vote (mem_uncovered mem above)

/-- An accepted tower is a tower again and loses nothing of the one before it. -/
theorem no_rollback (api : VoteInterface Rest) (voteState result : VoteState Rest)
    (wellFormed : WellFormedUnlessZero api voteState) (slotHashes : List (Nat × Hash)) (epoch slot : Nat)
    (accepted : (∃ voteStateUpdate,
        doProcessVoteStateUpdate api voteState slotHashes epoch slot voteStateUpdate = .ok result) ∨
      ∃ towerSync, doProcessTowerSync api voteState slotHashes epoch slot towerSync = .ok result) :
    WellFormedUnlessZero api result ∧ NoRollback api voteState result := by
  rcases accepted with ⟨_, accepted⟩ | ⟨_, accepted⟩
  · exact applyProposal_noRollback wellFormed accepted
  · exact applyProposal_noRollback wellFormed accepted

namespace Sample

/-- Votes for slots 1 and 2, the second of which expires before slot 5. -/
def voteState : VoteState Nat where
  votes := [⟨1, ⟨1, 2⟩⟩, ⟨1, ⟨2, 1⟩⟩]
  rootSlot := none
  rest := 0

def towerSync : TowerSync Nat where
  lockouts := [⟨1, 2⟩, ⟨5, 1⟩]
  root := none
  hash := 50
  timestamp := none
  blockId := 0

def result : VoteState Nat where
  votes := [⟨1, ⟨1, 2⟩⟩, ⟨1, ⟨5, 1⟩⟩]
  rootSlot := none
  rest := 0

theorem voteState_wellFormed : WellFormedUnlessZero voteInterface voteState where
  shape := by constructor <;> decide
  aboveRoot := nofun

theorem towerSync_accepted :
    doProcessTowerSync voteInterface voteState [(5, 50), (2, 20), (1, 10)] 0 6 towerSync = .ok result := by
  have compared : compareVotes voteInterface voteState.votes (towerSync.lockouts.map .ofLockout) =
      .ok [⟨1, ⟨1, 2⟩⟩, ⟨0, ⟨5, 1⟩⟩] := by
    simp only [compareVotes, voteState, towerSync, map_cons, map_nil]
    rfl
  have processed : processNewVoteState voteInterface voteState (towerSync.lockouts.map .ofLockout) none none 0 6 =
      .ok result :=
    processNewVoteState_ok_iff.mpr
      ⟨by decide, by decide, rfl, rfl, 0, voteState.votes, rfl, _, compared, 0, rfl, rfl⟩
  exact processed

end Sample

open Sample

theorem no_rollback_sample :
    WellFormedUnlessZero voteInterface result ∧
      NoRollback voteInterface voteState result :=
  no_rollback voteInterface voteState result voteState_wellFormed
    [(5, 50), (2, 20), (1, 10)] 0 6 (.inr ⟨towerSync, towerSync_accepted⟩)

namespace Sample

/-- An account without votes. -/
def fresh : VoteState Nat where
  votes := []
  rootSlot := none
  rest := 0

/-- A vote for slot 0 with slot 0 as the root. -/
def towerOnZero : TowerSync Nat where
  lockouts := [⟨0, 1⟩]
  root := some 0
  hash := 70
  timestamp := none
  blockId := 0

def rootedOnZero : VoteState Nat where
  votes := [⟨1, ⟨0, 1⟩⟩]
  rootSlot := some 0
  rest := 0

end Sample

/-- A vote for slot 0 is accepted under the root 0, which it is not above. -/
theorem vote_on_root_zero :
    WellFormed voteInterface fresh ∧
      doProcessTowerSync voteInterface fresh [(0, 70)] 0 1 towerOnZero = .ok rootedOnZero ∧
      ¬ WellFormed voteInterface rootedOnZero := by
  refine ⟨⟨by constructor <;> decide, nofun⟩, ?_, ?_⟩
  · have processed : processNewVoteState voteInterface fresh [.ofLockout ⟨0, 1⟩] (some 0) none 0 1 = .ok rootedOnZero :=
      processNewVoteState_ok_iff.mpr
        ⟨by decide, by decide, rfl, rfl, 0, [], rfl, _, compareVotes.eq_1 _ _, 0, rfl, rfl⟩
    exact processed
  · intro wellFormed
    exact absurd (wellFormed.aboveRoot ⟨0, 1⟩ mem_cons_self 0 rfl) (Nat.lt_irrefl 0)

end

open Lib List

variable {Rest Hash : Type} {api : VoteInterface Rest} {voteState : VoteState Rest} {proposed : List Lockout}
  {slotHashes : List (Nat × Hash)} {earliest : Nat} {walk walk' : Walk}

/-- A vote that is older than all slot hashes and not a vote of the account. -/
def unverifiable (api : VoteInterface Rest) (voteState : VoteState Rest) (earliest : Nat) (vote : Lockout) : Bool :=
  vote.slot < earliest && !api.containsSlot voteState vote.slot

theorem retainVotes_eq {index filter : Nat} (rest : indices.drop filter = votes.findIdxs dropped index) :
    retainVotes indices index filter votes = votes.filter fun vote => !dropped vote := by
  induction votes generalizing index filter with
  | nil => rfl
  | cons vote votes ih =>
    -- The next index to drop is the one of this vote, or a later one.
    have head : indices[filter]? = ((vote :: votes).findIdxs dropped index).head? := by
      rw [← rest, head?_drop]
    rw [findIdxs_cons] at rest head
    split at rest
    case isTrue isDropped =>
      rw [retainVotes, if_pos (by simpa [isDropped] using head), filter_cons_of_neg (by simp [isDropped])]
      exact ih (by rw [← drop_drop, rest]; rfl)
    case isFalse isKept =>
      have other : indices[filter]? ≠ some index := by
        rw [head, if_neg isKept]
        exact fun found => Nat.not_succ_le_self index (ge_of_mem_findIdxs _ (mem_of_head? found))
      rw [retainVotes, if_neg other, filter_cons_of_pos (by simp [isKept]), ih rest]

/-! ### The walk -/

/-- No index of a turn is out of bounds. -/
theorem checkSlot_no_panic (inHashes : walk.slotHashesIndex ≤ slotHashes.length) (going : walking proposed walk = true)
    (reason) : checkSlot api voteState proposed slotHashes earliest walk ≠ .error (.panic reason) := by
  simp only [walking, Bool.and_eq_true, decide_eq_true_eq] at going
  intro panics
  simp only [checkSlot, bind_error_iff, okOr_eq_error, rejectIf_eq_error, getElem?_eq_none_iff] at panics
  rcases panics with outside | ⟨_, _, ordered | ⟨_, _, outside | ⟨_, _, panics⟩⟩⟩
  · omega
  · cases ordered.2
  · omega
  · grind [bind_error_iff, rejectIf_eq_error]

/-- What one turn of the walk can do: leave the votes, or be done with the next one, which is then too old or found. -/
theorem checkSlot_ok (oldest : ∀ entry ∈ slotHashes, earliest ≤ entry.1)
    (taken : checkSlot api voteState proposed slotHashes earliest walk = .ok walk') :
    walk'.slotHashesIndex ≤ walk.slotHashesIndex ∧
    (walk'.proposedLockoutsIndex = walk.proposedLockoutsIndex ∧ walk'.indicesToFilter = walk.indicesToFilter ∨
    ∃ vote, proposed[walk.proposedLockoutsIndex]? = some vote ∧
      walk'.proposedLockoutsIndex = walk.proposedLockoutsIndex + 1 ∧
      walk'.indicesToFilter = walk.indicesToFilter ++
        (if unverifiable api voteState earliest vote then [walk.proposedLockoutsIndex] else []) ∧
      (vote.slot < earliest ∨ ∃ hash, slotHashes[walk'.slotHashesIndex]? = some (vote.slot, hash))) := by
  simp only [checkSlot, ok_iffs] at taken
  obtain ⟨vote, at_index, _, ancestor, found, taken⟩ := taken
  have known := oldest ancestor (mem_of_getElem? found)
  have same := Nat.compare_eq_eq (a := walk.rootToCheck.getD vote.slot) (b := ancestor.1)
  cases checked : walk.rootToCheck with
  | some root =>
    simp only [checked, Option.getD_some] at taken
    grind [bind_ok_iff]
  | none =>
    simp only [checked, Option.getD_none] at taken same
    grind [unverifiable, bind_ok_iff, rejectIf_eq_ok]

/-- The votes the walk is done with: those to filter are recorded, and each is too old or found. -/
structure Checked (api : VoteInterface Rest) (voteState : VoteState Rest) (proposed : List Lockout)
    (slotHashes : List (Nat × Hash)) (earliest : Nat) (walk : Walk) : Prop where
  inHashes : walk.slotHashesIndex ≤ slotHashes.length
  filtered : walk.indicesToFilter =
    (proposed.take walk.proposedLockoutsIndex).findIdxs (unverifiable api voteState earliest)
  known : ∀ vote ∈ proposed.take walk.proposedLockoutsIndex,
    vote.slot < earliest ∨ ∃ hash, (vote.slot, hash) ∈ slotHashes
  /-- The newest vote was found last. -/
  newest : proposed.length ≤ walk.proposedLockoutsIndex → ∀ last ∈ proposed.getLast?, earliest ≤ last.slot →
    ∃ hash, slotHashes[walk.slotHashesIndex]? = some (last.slot, hash)

theorem Checked.start :
    Checked api voteState proposed slotHashes earliest ⟨root, 0, slotHashes.length, []⟩ where
  inHashes := le_rfl
  filtered := rfl
  known := nofun
  newest empty last isLast := by simp_all

theorem Checked.turn (oldest : ∀ entry ∈ slotHashes, earliest ≤ entry.1)
    (checked : Checked api voteState proposed slotHashes earliest walk) (going : walking proposed walk = true)
    (taken : checkSlot api voteState proposed slotHashes earliest walk = .ok walk') :
    Checked api voteState proposed slotHashes earliest walk' := by
  obtain ⟨inHashes, filtered, known, newest⟩ := checked
  simp only [walking, Bool.and_eq_true, decide_eq_true_eq] at going
  obtain ⟨down, ⟨index, filter⟩ | ⟨vote, at_index, index, filter, found⟩⟩ := checkSlot_ok oldest taken
  · rw [← index, ← filter] at filtered
    rw [← index] at known
    exact ⟨down.trans inHashes, filtered, known, fun ended => by omega⟩
  have grown : proposed.take walk'.proposedLockoutsIndex = proposed.take walk.proposedLockoutsIndex ++ [vote] := by
    rw [index, take_add_one, at_index]
    rfl
  refine ⟨down.trans inHashes, ?_, ?_, ?_⟩
  · rw [grown, findIdxs_append, findIdxs_singleton, filter, filtered, length_take, Nat.zero_add, min_eq_left going.1.le]
  · rw [grown]
    intro other mem
    rcases mem_append.mp mem with before | this
    · exact known other before
    · rw [mem_singleton.mp this]
      exact found.imp_right (Exists.imp fun _ => mem_of_getElem?)
  · intro ended last isLast late
    -- The vote the turn was done with is the last one.
    have same : last = vote := by
      rw [getLast?_eq_getElem?] at isLast
      grind
    exact same ▸ found.resolve_left (by rw [← same]; omega)

/-! ### The result -/

/-- Being older than the last of the slot hashes is being older than all of them. -/
theorem older_iff (decreasing : slotHashes.Pairwise fun newer older => older.1 < newer.1)
    (isOldest : slotHashes.getLast? = some oldest) (slot) :
    slot < oldest.1 ↔ ∀ entry ∈ slotHashes, slot < entry.1 := by
  constructor
  · intro older entry mem
    rw [← dropLast_append_getLast? oldest isOldest] at decreasing mem
    rcases mem_append.mp mem with before | this
    · exact older.trans ((pairwise_append.mp decreasing).2.2 entry before oldest mem_cons_self)
    · exact mem_singleton.mp this ▸ older
  · exact fun older => older oldest (mem_of_getLast? isOldest)

/-- Whatever is proposed against slot hashes in order, the check does not panic; and what it accepts is the proposal
    without the votes that are older than all slot hashes and not in the vote state. Every vote left is in the slot
    hashes, or older and in the vote state, and the last one is in the slot hashes with the proposed hash. Being in the
    vote state is what the interface says; where it looks at the votes, it is having the slot of one of them. -/
theorem proposal_checked [DecidableEq Hash] (api : VoteInterface Rest) (voteState : VoteState Rest)
    (proposed : List Lockout) (proposedRoot : Option Nat) (hash : Hash) (slotHashes : List (Nat × Hash))
    (decreasing : slotHashes.Pairwise fun newer older => older.1 < newer.1) :
    (∀ reason, checkAndFilterProposedVoteState api voteState proposed proposedRoot hash slotHashes ≠
      .error (.panic reason)) ∧
    ∀ lockouts root,
      checkAndFilterProposedVoteState api voteState proposed proposedRoot hash slotHashes = .ok (lockouts, root) →
      lockouts = (proposed.filter fun vote => ¬ ((∀ entry ∈ slotHashes, vote.slot < entry.1) ∧
        api.containsSlot voteState vote.slot = false)) ∧
      (∀ vote ∈ lockouts, (∃ hash, (vote.slot, hash) ∈ slotHashes) ∨
        (∀ entry ∈ slotHashes, vote.slot < entry.1) ∧ api.containsSlot voteState vote.slot = true) ∧
      (api.ContainsVotes → ∀ vote, vote ∈ lockouts ↔ vote ∈ proposed ∧
        ((∃ hash, (vote.slot, hash) ∈ slotHashes) ∨
          (∀ entry ∈ slotHashes, vote.slot < entry.1) ∧ ∃ held ∈ voteState.votes, held.slot = vote.slot)) ∧
      ∃ last, lockouts.getLast? = some last ∧ (last.slot, hash) ∈ slotHashes := by
  have kept {oldest : Nat × Hash} (isOldest : slotHashes.getLast? = some oldest) :
      ∀ walk walk', Checked api voteState proposed slotHashes oldest.1 walk → walking proposed walk = true →
        checkSlot api voteState proposed slotHashes oldest.1 walk = .ok walk' →
        Checked api voteState proposed slotHashes oldest.1 walk' := by
    refine fun _ _ => Checked.turn fun entry mem => not_lt.mp fun older => ?_
    exact lt_irrefl _ ((older_iff decreasing isOldest _).mp older entry mem)
  constructor
  · intro reason panics
    simp only [checkAndFilterProposedVoteState, bind_error_iff, okOr_eq_error, rejectIf_eq_error, okOr_eq_ok,
      rejectIf_eq_ok, reduceCtorEq, and_false, false_or] at panics
    obtain ⟨last, isLast, _, _, oldest, isOldest, _, known, panics | ⟨walk, walked, _, all, panics⟩⟩ := panics
    · obtain ⟨_, checked, going, panics⟩ := whileLoop_error checkSlot_decreases (kept isOldest) panics .start
      exact checkSlot_no_panic checked.inHashes going reason panics
    · obtain ⟨checked, _⟩ := whileLoop_invariant checkSlot_decreases (kept isOldest) walked .start
      obtain ⟨hash, found⟩ := checked.newest (not_ne_iff.mp all).ge last isLast (not_lt.mp known)
      grind
  · intro lockouts root accepted
    simp only [checkAndFilterProposedVoteState, ok_iffs, Prod.mk.injEq] at accepted
    obtain ⟨last, isLast, _, _, isOldest, known, walk, walked, all, _, found, same, rfl, rfl, _⟩ := accepted
    obtain ⟨checked, _⟩ := whileLoop_invariant checkSlot_decreases (kept isOldest) walked .start
    have visited : proposed.take walk.proposedLockoutsIndex = proposed := by rw [all, take_length]
    have filtered := checked.filtered
    have slots := checked.known
    rw [visited] at filtered slots
    have retained : retainVotes walk.indicesToFilter 0 0 proposed = _ := retainVotes_eq filtered
    have left : ∀ vote ∈ retainVotes walk.indicesToFilter 0 0 proposed, (∃ hash, (vote.slot, hash) ∈ slotHashes) ∨
        (∀ entry ∈ slotHashes, vote.slot < entry.1) ∧ api.containsSlot voteState vote.slot = true := by
      intro vote mem
      rw [retained, mem_filter] at mem
      rcases slots vote mem.1 with older | found
      · exact .inr ⟨(older_iff decreasing isOldest _).mp older, by simpa [unverifiable, older] using mem.2⟩
      · exact .inl found
    refine ⟨?_, left, ?_, last, ?_, ?_⟩
    · rw [retained]
      refine filter_congr fun vote _ => Bool.eq_iff_iff.mpr ?_
      simp [unverifiable, older_iff decreasing isOldest]
    · intro contains vote
      simp only [← contains voteState]
      refine ⟨fun mem => ⟨mem_of_mem_filter (retained ▸ mem), left vote mem⟩, ?_⟩
      rintro ⟨mem, here⟩
      rw [retained, mem_filter]
      refine ⟨mem, ?_⟩
      rcases here with ⟨hash, found⟩ | ⟨_, held⟩
      · have := mt (older_iff decreasing isOldest vote.slot).mp fun older => lt_irrefl _ (older _ found)
        simp [unverifiable, this]
      · simp [unverifiable, held]
    · rw [retained, ← dropLast_append_getLast? last isLast, filter_append,
        filter_cons_of_pos (by simp [unverifiable, known])]
      simp
    · exact same ▸ mem_of_getElem? found

/-- The vote for slot 0 is dropped: it is too old for the slot hashes, and the account has none. -/
theorem proposal_checked_sample :
    ∃ last, [⟨1, 2⟩, (⟨5, 1⟩ : Lockout)].getLast? = some last ∧ (last.slot, 50) ∈ [(5, 50), (2, 20)] :=
  ((proposal_checked Sample.voteInterface Sample.voteState [⟨0, 3⟩, ⟨1, 2⟩, ⟨5, 1⟩] none 50 [(5, 50), (2, 20)]
    (by decide)).2 _ none (by decide)).2.2.2

end Payout.Vote
