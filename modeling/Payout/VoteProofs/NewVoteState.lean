/-
Purpose: What it takes for a tower to replace the votes of an account: one lemma for each of the passes over the old
  and the new votes.
-/
import Payout.Vote.VoteState
import Mathlib.Data.List.Chain
import Mathlib.Data.List.TakeWhile

namespace Payout.Vote

open Lib List Except LandedVote

variable {Rest : Type} {api : VoteInterface Rest} {result : Nat × List LandedVote}
  {compared newState : List LandedVote}

variable {votes current new : List LandedVote} {newRoot : Option Nat} {vote old : LandedVote}
  {voteState : VoteState Rest} {root earned epoch currentSlot : Nat}

/-! ### The shape of a tower -/

/-- A vote directly on top of another one. -/
structure Follows (api : VoteInterface Rest) (below above : Lockout) : Prop where
  newer : below.slot < above.slot
  fewer : above.confirmationCount < below.confirmationCount
  lockedOut : above.slot ≤ api.lastLockedOutSlot below

/-- The number of votes that confirm a vote of a tower is in range. -/
def Confirmed (vote : Lockout) : Prop :=
  1 ≤ vote.confirmationCount ∧ vote.confirmationCount ≤ maxLockoutHistory

instance (vote : Lockout) : Decidable (Confirmed vote) :=
  inferInstanceAs (Decidable (1 ≤ vote.confirmationCount ∧ vote.confirmationCount ≤ maxLockoutHistory))

/-- Votes that a tower can hold. -/
structure TowerShape (api : VoteInterface Rest) (votes : List Lockout) : Prop where
  few : votes.length ≤ maxLockoutHistory
  confirmed : ∀ vote ∈ votes, Confirmed vote
  ordered : votes.Pairwise fun below above => below.slot < above.slot
  falling : votes.Pairwise fun below above => above.confirmationCount < below.confirmationCount
  lockedOut : votes.IsChain fun below above => above.slot ≤ api.lastLockedOutSlot below

/-- A slot is not covered by a root. -/
def Above (root : Option Nat) (slot : Nat) : Prop :=
  ∀ r ∈ root, r < slot

/-- A slot is not covered by a root, where the root 0 of a tower without votes covers nothing. -/
def AboveUnlessZero (root : Option Nat) (slot : Nat) : Prop :=
  ∀ r ∈ root, r < slot ∨ r = 0

theorem TowerShape.of_chain {votes : List Lockout} (few : votes.length ≤ maxLockoutHistory)
    (confirmed : ∀ vote ∈ votes, Confirmed vote) (chain : votes.IsChain (Follows api)) :
    TowerShape api votes where
  few := few
  confirmed := confirmed
  ordered := by
    have newer := chain.imp fun _ _ follows => follows.newer
    exact isChain_iff_pairwise.mp newer
  falling := by
    have fewer := chain.imp fun _ _ follows => follows.fewer
    exact isChain_iff_pairwise.mp fewer
  lockedOut := chain.imp fun _ _ follows => follows.lockedOut

/-- What is beyond the last item of a list in order is beyond all of them. -/
theorem lt_of_lt_last {key : Item → Nat} {items : List Item}
    (ordered : items.Pairwise fun one other => key one < key other) (mem : item ∈ items)
    (beyond : ∀ last ∈ items.getLast?, key last < bound) : key item < bound := by
  induction items generalizing item with
  | nil => cases mem
  | cons first rest ih =>
    cases rest with
    | nil =>
      rw [mem_singleton.mp mem]
      exact beyond first rfl
    | cons next others =>
      have later : ∀ last ∈ (next :: others).getLast?, key last < bound := by simpa using beyond
      rcases mem_cons.mp mem with rfl | among
      · have below := rel_of_pairwise_cons ordered mem_cons_self
        exact below.trans (ih ordered.of_cons mem_cons_self later)
      · exact ih ordered.of_cons among later

/-! ### The proposed votes by themselves -/

theorem checkVote_ok_iff :
    checkVote api newRoot previous vote = .ok u ↔
      Confirmed vote.lockout ∧ AboveUnlessZero newRoot vote.slot ∧
        ∀ before ∈ previous, Follows api before.lockout vote.lockout := by
  have range : (¬ vote.confirmationCount = 0 ∧ ¬ maxLockoutHistory < vote.confirmationCount) ↔
      Confirmed vote.lockout := by
    simp only [Confirmed, confirmationCount]
    omega
  have root : (¬ ∃ r ∈ newRoot, vote.slot ≤ r ∧ r ≠ 0) ↔ AboveUnlessZero newRoot vote.slot := by
    constructor
    · intro covered r known
      by_contra neither
      exact covered ⟨r, known, by omega⟩
    · rintro above ⟨r, known, covers, pos⟩
      rcases above r known with below | zero
      · omega
      · exact pos zero
  cases previous with
  | none =>
    simp only [checkVote, ok_iffs, ← range, ← root, Option.not_mem_none, false_implies, implies_true, and_true,
      and_assoc]
  | some before =>
    simp only [checkVote, ok_iffs, ← range, ← root, Option.mem_some_iff, forall_eq', and_assoc, not_le, not_lt]
    have follows : (before.slot < vote.slot ∧ vote.confirmationCount < before.confirmationCount ∧
        vote.slot ≤ api.lastLockedOutSlot before.lockout) ↔
        Follows api before.lockout vote.lockout :=
      ⟨fun all => ⟨all.1, all.2.1, all.2.2⟩, fun follows => ⟨follows.newer, follows.fewer, follows.lockedOut⟩⟩
    rw [follows]

/-- The new votes pass exactly when each can stand on the one before it. -/
theorem checkVotes_ok_iff :
    checkVotes api newRoot previous votes = .ok u ↔
      (∀ vote ∈ votes, Confirmed vote.lockout ∧ AboveUnlessZero newRoot vote.slot) ∧
        ((previous.toList ++ votes).map lockout).IsChain (Follows api) := by
  induction votes generalizing previous with
  | nil => cases previous <;> simp [checkVotes]
  | cons vote votes ih =>
    simp only [checkVotes, ok_iffs, checkVote_ok_iff, ih, forall_mem_cons]
    cases previous with
    | none => simp [and_assoc]
    | some => simp [and_assoc, and_left_comm]

/-! ### The account's votes under the new root -/

/-- The votes of an account that a root leaves. -/
def uncovered (root : Option Nat) (votes : List LandedVote) : List LandedVote :=
  match root with
  | some root => votes.dropWhile fun vote => vote.slot ≤ root
  | none => votes

theorem rootVotes_eq (rooted : rootVotes api voteState root index earned votes = .ok result) :
    result.2 = uncovered (some root) votes := by
  induction votes generalizing index earned with
  | nil =>
    simp only [rootVotes, ok.injEq] at rooted
    rw [← rooted]
    rfl
  | cons vote votes ih =>
    simp only [rootVotes] at rooted
    split at rooted
    case isTrue covered =>
      simp only [bind_ok_iff] at rooted
      obtain ⟨_, _, rest⟩ := rooted
      rw [ih rest]
      simp only [uncovered, dropWhile_cons, covered, decide_true, if_true]
    case isFalse above =>
      cases rooted
      simp only [uncovered, dropWhile_cons, above, decide_false, Bool.false_eq_true, if_false]

/-- The credits of the votes an account can hold do not overflow. -/
theorem rootVotes_passes (documented : api.Documented) (fits : earned + 16 * votes.length < 2 ^ 64) :
    ∃ result, rootVotes api voteState root index earned votes = .ok result := by
  induction votes generalizing index earned with
  | nil => exact ⟨_, rfl⟩
  | cons vote votes ih =>
    have credits := documented.creditsForVoteAtIndex_le voteState index
    simp only [length_cons] at fits
    simp only [rootVotes]
    split
    · simp only [ok_iffs]
      have rest : ∃ result, rootVotes api voteState root (index + 1)
          (earned + api.creditsForVoteAtIndex voteState index) votes = .ok result := ih (by omega)
      obtain ⟨result, rooted⟩ := rest
      exact ⟨result, _, ⟨by omega, rfl⟩, rooted⟩
    · exact ⟨_, rfl⟩

theorem skipRooted_eq (skipped : skipRooted api voteState newRoot = .ok result) :
    result.2 = uncovered newRoot voteState.votes := by
  cases newRoot with
  | none =>
    cases skipped
    rfl
  | some => exact rootVotes_eq skipped

theorem skipRooted_passes (documented : api.Documented) (few : voteState.votes.length ≤ maxLockoutHistory)
    (newRoot) :
    ∃ earned, skipRooted api voteState newRoot = .ok (earned, uncovered newRoot voteState.votes) := by
  have passes : ∃ result, skipRooted api voteState newRoot = .ok result := by
    cases newRoot with
    | none => exact ⟨_, rfl⟩
    | some newRoot =>
      simp only [maxLockoutHistory] at few
      exact rootVotes_passes documented (by omega)
  obtain ⟨⟨earned, _⟩, skipped⟩ := passes
  exact ⟨earned, (skipRooted_eq skipped) ▸ skipped⟩

/-- Under a root, only votes above it are left of votes in order. -/
theorem above_of_mem_uncovered {root : Option Nat}
    (ordered : votes.Pairwise fun older newer => older.slot < newer.slot) (mem : vote ∈ uncovered root votes) :
    Above root vote.slot := by
  cases root with
  | none => exact nofun
  | some root =>
    rintro r isRoot
    cases isRoot
    induction votes with
    | nil => cases mem
    | cons first rest ih =>
      simp only [uncovered, dropWhile_cons] at mem
      split at mem
      case isTrue => exact ih ordered.of_cons mem
      case isFalse above =>
        have first_above : root < first.slot := by simpa using above
        rcases mem_cons.mp mem with rfl | later
        · exact first_above
        · exact first_above.trans (rel_of_pairwise_cons ordered later)

theorem uncovered_sublist (root votes) : (uncovered root votes).Sublist votes := by
  cases root with
  | none => exact List.Sublist.refl votes
  | some => exact dropWhile_sublist _

theorem mem_uncovered {root : Option Nat} (mem : vote ∈ votes) (above : Above root vote.slot) :
    vote ∈ uncovered root votes := by
  cases root with
  | none => exact mem
  | some root =>
    have split := takeWhile_append_dropWhile (p := fun vote : LandedVote => decide (vote.slot ≤ root)) (l := votes)
    rw [← split, mem_append] at mem
    rcases mem with covered | left
    · have le := mem_takeWhile_imp (p := fun vote : LandedVote => decide (vote.slot ≤ root)) covered
      have lt := above root rfl
      exact absurd (of_decide_eq_true le) (Nat.not_le.mpr lt)
    · exact left

/-! ### The account's votes against the new votes -/

/-- The new votes keep an old one, with all its confirmations. -/
def Kept (votes : List Lockout) (old : Lockout) : Prop :=
  ∃ vote ∈ votes, vote.slot = old.slot ∧ old.confirmationCount ≤ vote.confirmationCount

/-- The smallest newer of the new votes is beyond the lockout of an old one. -/
def Expired (api : VoteInterface Rest) (votes : List Lockout) (old : Lockout) : Prop :=
  ∃ vote ∈ votes, old.slot < vote.slot ∧ (∀ other ∈ votes, old.slot < other.slot → vote.slot ≤ other.slot) ∧
    api.lastLockedOutSlot old < vote.slot

theorem Expired.cons {votes : List Lockout} {old first : Lockout} (expired : Expired api votes old)
    (older : first.slot ≤ old.slot) : Expired api (first :: votes) old := by
  obtain ⟨vote, mem, newer, smallest, beyond⟩ := expired
  refine ⟨vote, mem_cons_of_mem first mem, newer, ?_, beyond⟩
  intro other among newer'
  rcases mem_cons.mp among with rfl | among
  · omega
  · exact smallest other among newer'

theorem Kept.cons {votes : List Lockout} {old first : Lockout} (kept : Kept votes old) : Kept (first :: votes) old := by
  obtain ⟨vote, mem, same⟩ := kept
  exact ⟨vote, mem_cons_of_mem first mem, same⟩

theorem compareVotes_lockouts (passed : compareVotes api current new = .ok compared) :
    compared.map lockout = new.map lockout := by
  induction current, new using compareVotes.induct generalizing compared with
  | case1 =>
    simp only [compareVotes, ok.injEq] at passed
    rw [passed]
  | case2 =>
    simp only [compareVotes, ok.injEq] at passed
    rw [← passed]
  | case3 old olds vote votes less ih =>
    simp only [compareVotes, less, ok_iffs] at passed
    exact ih passed.2
  | case4 old olds vote votes equal ih =>
    simp only [compareVotes, equal, ok_iffs] at passed
    obtain ⟨_, _, others, rfl⟩ := passed
    simp only [map_cons, ih others]
  | case5 old olds vote votes greater ih =>
    simp only [compareVotes, greater, bind_ok_iff, ok.injEq] at passed
    obtain ⟨_, others, rfl⟩ := passed
    simp only [map_cons, ih others]

/-- Slots in order, oldest first. -/
def InOrder (votes : List LandedVote) : Prop :=
  votes.Pairwise fun older newer => older.slot < newer.slot

theorem inOrder_iff : InOrder votes ↔ (votes.map lockout).Pairwise fun below above => below.slot < above.slot := by
  rw [pairwise_map]
  exact Iff.rfl

section

variable (ordered : InOrder (vote :: votes))
include ordered

theorem InOrder.head_lt (mem : other ∈ votes) : vote.slot < other.slot :=
  rel_of_pairwise_cons ordered mem

theorem InOrder.head_le (mem : other ∈ vote :: votes) : vote.slot ≤ other.slot := by
  rcases mem_cons.mp mem with rfl | later
  · exact le_rfl
  · exact (ordered.head_lt later).le

theorem InOrder.tail : InOrder votes :=
  ordered.of_cons

/-- The first of the new votes that is newer than an old one is the smallest such. -/
theorem InOrder.expired (newer : old.slot < vote.slot) (beyond : api.lastLockedOutSlot old.lockout < vote.slot) :
    Expired api ((vote :: votes).map lockout) old.lockout := by
  refine ⟨vote.lockout, mem_cons_self, newer, ?_, beyond⟩
  intro other mem _
  obtain ⟨_, among, rfl⟩ := mem_map.mp mem
  exact ordered.head_le among

end

/-- Once a vote newer than all old ones is proposed, every old vote is kept or has expired. -/
theorem compareVotes_accounted (passed : compareVotes api current new = .ok compared)
    (oldOrder : InOrder current) (newOrder : InOrder new)
    (newest : ∃ last ∈ new, ∀ old ∈ current, old.slot < last.slot) :
    ∀ old ∈ current, Kept (new.map lockout) old.lockout ∨
      Expired api (new.map lockout) old.lockout := by
  induction current, new using compareVotes.induct generalizing compared with
  | case1 => exact nofun
  | case2 => exact absurd newest nofun
  | case3 old olds vote votes less ih =>
    simp only [compareVotes, less, ok_iffs, not_le] at passed
    obtain ⟨beyond, others⟩ := passed
    obtain ⟨last, mem, above⟩ := newest
    have rest := ih others oldOrder.tail newOrder ⟨last, mem, fun o among => above o (mem_cons_of_mem _ among)⟩
    rw [forall_mem_cons]
    exact ⟨.inr (newOrder.expired (Nat.compare_eq_lt.mp less) beyond), rest⟩
  | case4 old olds vote votes equal ih =>
    simp only [compareVotes, equal, ok_iffs, not_lt] at passed
    obtain ⟨confirmations, rest, others, rfl⟩ := passed
    have same : old.slot = vote.slot := Nat.compare_eq_eq.mp equal
    obtain ⟨last, mem, above⟩ := newest
    have later : last ∈ votes := by
      rcases mem_cons.mp mem with rfl | later
      · have below := above old mem_cons_self
        omega
      · exact later
    have tail := ih others oldOrder.tail newOrder.tail
      ⟨last, later, fun o among => above o (mem_cons_of_mem _ among)⟩
    rw [forall_mem_cons]
    refine ⟨.inl ⟨vote.lockout, mem_cons_self, same.symm, confirmations⟩, ?_⟩
    intro other among
    have newer := oldOrder.head_lt among
    rcases tail other among with kept | expired
    · exact .inl kept.cons
    · exact .inr (expired.cons (same ▸ newer).le)
  | case5 old olds vote votes greater ih =>
    simp only [compareVotes, greater, bind_ok_iff, ok.injEq] at passed
    obtain ⟨rest, others, rfl⟩ := passed
    have older : vote.slot < old.slot := Nat.compare_eq_gt.mp greater
    obtain ⟨last, mem, above⟩ := newest
    have later : last ∈ votes := by
      rcases mem_cons.mp mem with rfl | later
      · have below := above old mem_cons_self
        omega
      · exact later
    have tail := ih others oldOrder newOrder.tail ⟨last, later, above⟩
    intro other among
    have newer := oldOrder.head_le among
    rcases tail other among with kept | expired
    · exact .inl kept.cons
    · exact .inr (expired.cons (older.le.trans newer))

/-- The new votes leave an old one out, and all newer ones are beyond its lockout. -/
structure Gone (api : VoteInterface Rest) (votes : List Lockout) (old : Lockout) : Prop where
  absent : ∀ vote ∈ votes, vote.slot ≠ old.slot
  beyond : ∀ vote ∈ votes, old.slot < vote.slot → api.lastLockedOutSlot old < vote.slot

theorem accounted_tail (older : first.slot < old.slot)
    (accounted : Kept ((first :: votes).map lockout) old.lockout ∨
      Gone api ((first :: votes).map lockout) old.lockout) :
    Kept (votes.map lockout) old.lockout ∨ Gone api (votes.map lockout) old.lockout := by
  rcases accounted with ⟨vote, mem, same, confirmations⟩ | ⟨absent, beyond⟩
  · rcases mem_cons.mp mem with rfl | later
    · exact absurd same older.ne
    · exact .inl ⟨vote, later, same, confirmations⟩
  · exact .inr ⟨fun vote mem => absent vote (mem_cons_of_mem _ mem),
      fun vote mem => beyond vote (mem_cons_of_mem _ mem)⟩

/-- New votes that keep an old vote at the slot of their first one keep it there. -/
theorem Kept.first {first : LandedVote} (ordered : InOrder (first :: votes)) (le : old.slot ≤ first.slot)
    (kept : Kept ((first :: votes).map lockout) old.lockout) :
    first.slot = old.slot ∧ old.confirmationCount ≤ first.confirmationCount := by
  obtain ⟨vote, mem, same, confirmations⟩ := kept
  rcases mem_cons.mp mem with rfl | later
  · exact ⟨same, confirmations⟩
  · obtain ⟨landed, among, rfl⟩ := mem_map.mp later
    have below := ordered.head_lt among
    have equal : landed.slot = old.slot := same
    omega

theorem compareVotes_passes (api : VoteInterface Rest) (oldOrder : InOrder current) (newOrder : InOrder new)
    (accounted : ∀ old ∈ current, Kept (new.map lockout) old.lockout ∨ Gone api (new.map lockout) old.lockout) :
    ∃ compared, compareVotes api current new = .ok compared := by
  induction current, new using compareVotes.induct with
  | case1 new =>
    rw [compareVotes]
    exact ⟨new, rfl⟩
  | case2 =>
    rw [compareVotes]
    exact ⟨[], rfl⟩
  | case3 old olds vote votes less ih =>
    have newer : old.slot < vote.slot := Nat.compare_eq_lt.mp less
    rw [forall_mem_cons] at accounted
    have beyond : api.lastLockedOutSlot old.lockout < vote.slot := by
      rcases accounted.1 with kept | gone
      · have same := (kept.first newOrder newer.le).1
        omega
      · exact gone.beyond vote.lockout mem_cons_self newer
    simp only [compareVotes, less, ok_iffs, not_le]
    obtain ⟨compared, passed⟩ := ih oldOrder.tail newOrder accounted.2
    exact ⟨compared, beyond, passed⟩
  | case4 old olds vote votes equal ih =>
    have same : old.slot = vote.slot := Nat.compare_eq_eq.mp equal
    rw [forall_mem_cons] at accounted
    have confirmations : old.confirmationCount ≤ vote.confirmationCount := by
      rcases accounted.1 with kept | gone
      · exact (kept.first newOrder same.le).2
      · exact absurd same.symm (gone.absent vote.lockout mem_cons_self)
    simp only [compareVotes, equal, ok_iffs, not_lt]
    obtain ⟨compared, passed⟩ := ih oldOrder.tail newOrder.tail fun other among =>
      accounted_tail (same ▸ oldOrder.head_lt among) (accounted.2 other among)
    exact ⟨_, confirmations, compared, passed, rfl⟩
  | case5 old olds vote votes greater ih =>
    have older : vote.slot < old.slot := Nat.compare_eq_gt.mp greater
    simp only [compareVotes, greater, bind_ok_iff, ok.injEq]
    obtain ⟨compared, passed⟩ := ih oldOrder newOrder.tail fun other among =>
      accounted_tail (older.trans_le (oldOrder.head_le among)) (accounted other among)
    exact ⟨_, compared, passed, rfl⟩

/-! ### The whole replacement -/

@[simp] theorem setLatency_lockout (currentSlot vote) : (setLatency api currentSlot vote).lockout = vote.lockout := by
  simp only [setLatency]
  split <;> rfl

theorem setLatency_lockouts (currentSlot) (votes : List LandedVote) :
    (votes.map (setLatency api currentSlot)).map lockout = votes.map lockout := by
  rw [map_map]
  exact map_congr_left fun vote _ => setLatency_lockout currentSlot vote

theorem checkRoot_ok_iff :
    checkRoot newRoot currentRoot = .ok u ↔ ∀ root ∈ currentRoot, ∃ root' ∈ newRoot, root ≤ root' := by
  rcases newRoot with _ | newRoot <;> rcases currentRoot with _ | currentRoot
  · simp [checkRoot]
  · simp [checkRoot]
  · simp [checkRoot]
  · simp [checkRoot]

/-- What a successful replacement has checked, and what it leaves. -/
structure Replaced (api : VoteInterface Rest) (voteState : VoteState Rest) (newState : List LandedVote)
    (newRoot : Option Nat) (result : VoteState Rest) : Prop where
  nonempty : newState ≠ []
  few : newState.length ≤ maxLockoutHistory
  root : ∀ root ∈ voteState.rootSlot, ∃ root' ∈ newRoot, root ≤ root'
  sound : ∀ vote ∈ newState, Confirmed vote.lockout ∧ AboveUnlessZero newRoot vote.slot
  chain : (newState.map LandedVote.lockout).IsChain (Follows api)
  compared : ∃ votes, compareVotes api (uncovered newRoot voteState.votes) newState = .ok votes
  lockouts : result.lockouts = newState.map LandedVote.lockout
  rootSlot : result.rootSlot = newRoot

theorem processNewVoteState_ok_iff {result : VoteState Rest} :
    processNewVoteState api voteState newState newRoot timestamp epoch currentSlot = .ok result ↔
      newState ≠ [] ∧ newState.length ≤ maxLockoutHistory ∧ checkRoot newRoot voteState.rootSlot = .ok () ∧
        checkVotes api newRoot none newState = .ok () ∧
        ∃ earned current, skipRooted api voteState newRoot = .ok (earned, current) ∧
          ∃ compared, compareVotes api current newState = .ok compared ∧
            ∃ rest, recordTimestamp api
                (if voteState.rootSlot ≠ newRoot then api.incrementCredits voteState.rest epoch earned
                  else voteState.rest)
                (compared.map (setLatency api currentSlot)) timestamp = .ok rest ∧
              { votes := compared.map (setLatency api currentSlot), rootSlot := newRoot, rest := rest } =
                result := by
  simp only [processNewVoteState, ok_iffs, Prod.exists, not_lt, ne_eq]
  constructor
  · rintro ⟨nonempty, few, _, root, _, sound, passes⟩
    exact ⟨nonempty, few, root, sound, passes⟩
  · rintro ⟨nonempty, few, root, sound, passes⟩
    exact ⟨nonempty, few, (), root, (), sound, passes⟩

theorem processNewVoteState_ok {result : VoteState Rest}
    (replaced : processNewVoteState api voteState newState newRoot timestamp epoch currentSlot = .ok result) :
    Replaced api voteState newState newRoot result := by
  simp only [processNewVoteState_ok_iff, checkRoot_ok_iff, checkVotes_ok_iff] at replaced
  obtain ⟨nonempty, few, root, ⟨sound, chain⟩, _, current, rooted, votes, compared, _, _, rfl⟩ := replaced
  have left : current = uncovered newRoot voteState.votes := skipRooted_eq rooted
  subst left
  constructor
  case nonempty => exact nonempty
  case few => exact few
  case root => exact root
  case sound => exact sound
  case chain => exact chain
  case compared => exact ⟨votes, compared⟩
  case lockouts => exact (setLatency_lockouts currentSlot votes).trans (compareVotes_lockouts compared)
  case rootSlot => rfl

end Payout.Vote
