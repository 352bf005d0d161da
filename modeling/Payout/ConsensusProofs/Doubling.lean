/-
Purpose: The invariant of the doubling stack. A vote of a tower has at least as many confirmations as votes stand on
  it, itself included, and never more than a full tower gives it; so the vote below another one always has more, and
  stays locked out for longer.
-/
import Payout.Consensus.Tower
import Payout.VoteProofs.NewVoteState

namespace Payout.Consensus

open Lib Vote List TowerVoteState

variable {Rest : Type} {api : VoteInterface Rest}

variable {old vote : Lockout} {depth i slot : Nat} {votes : List Lockout} {tower : TowerVoteState}

/-! ### Lockouts grow with confirmations -/

theorem lastLockedOutSlot_mono (documented : api.Documented) (same : new.slot = old.slot)
    (more : old.confirmationCount ≤ new.confirmationCount) :
    api.lastLockedOutSlot old ≤ api.lastLockedOutSlot new := by
  rw [documented.lastLockedOutSlot_eq, documented.lastLockedOutSlot_eq, same]
  have exponent : min old.confirmationCount maxLockoutHistory ≤ min new.confirmationCount maxLockoutHistory :=
    min_le_min_right maxLockoutHistory more
  have power := Nat.pow_le_pow_right (n := 2) (by omega) exponent
  exact min_le_min_right _ (Nat.add_le_add_left power old.slot)

/-- The same vote with at least as many confirmations. -/
structure Grown (old new : Lockout) : Prop where
  slot : new.slot = old.slot
  confirmationCount : old.confirmationCount ≤ new.confirmationCount

theorem Grown.trans (first : Grown one two) (second : Grown two three) : Grown one three :=
  ⟨second.slot.trans first.slot, first.confirmationCount.trans second.confirmationCount⟩

theorem Grown.lastLockedOutSlot_le (documented : api.Documented) (grown : Grown old new) :
    api.lastLockedOutSlot old ≤ api.lastLockedOutSlot new :=
  lastLockedOutSlot_mono documented grown.slot grown.confirmationCount

/-! ### The confirmations of a stack -/

/-- The votes from position `i` on of a stack of some depth: each has as many confirmations as the votes from it on, but
    not more than a full stack gives, and the next one follows it. -/
def Counted (api : VoteInterface Rest) (depth : Nat) : Nat → List Lockout → Prop
  | _, [] => True
  | i, vote :: votes =>
    depth ≤ i + vote.confirmationCount ∧ i + vote.confirmationCount ≤ maxLockoutHistory ∧
      1 ≤ vote.confirmationCount ∧ (∀ next ∈ votes.head?, Follows api vote next) ∧
      Counted api depth (i + 1) votes

theorem Counted.pop (less : depth' ≤ depth) (counted : Counted api depth i (votes ++ popped)) :
    Counted api depth' i votes := by
  induction votes generalizing i with
  | nil => trivial
  | cons vote votes ih =>
    obtain ⟨deep, few, pos, follows, rest⟩ := counted
    refine ⟨less.trans deep, few, pos, ?_, ih rest⟩
    intro next isNext
    cases votes with
    | nil => cases isNext
    | cons => exact follows next isNext

/-- The newer votes of a stack, after the oldest one was rooted. -/
theorem Counted.root (counted : Counted api (depth + 1) (i + 1) votes) : Counted api depth i votes := by
  induction votes generalizing i with
  | nil => trivial
  | cons vote votes ih =>
    obtain ⟨deep, few, pos, follows, rest⟩ := counted
    exact ⟨by omega, by omega, pos, follows, ih rest⟩

theorem Counted.chain (counted : Counted api depth i votes) : votes.IsChain (Follows api) := by
  induction votes generalizing i with
  | nil => exact .nil
  | cons vote votes ih =>
    obtain ⟨_, _, _, follows, rest⟩ := counted
    exact isChain_cons.mpr ⟨follows, ih rest⟩

theorem Counted.confirmed (counted : Counted api depth i votes) : ∀ vote ∈ votes, Confirmed vote := by
  induction votes generalizing i with
  | nil => exact nofun
  | cons vote votes ih =>
    obtain ⟨_, few, pos, _, rest⟩ := counted
    rw [forall_mem_cons]
    exact ⟨⟨pos, by omega⟩, ih rest⟩

/-! ### A new vote on top -/

/-- One vote of a stack that got one deeper. -/
def double (api : VoteInterface Rest) (stackDepth i : Nat) (vote : Lockout) : Lockout :=
  if i + vote.confirmationCount < stackDepth then api.increaseConfirmationCount vote 1 else vote

theorem doubleLockouts_cons (stackDepth i vote votes) :
    doubleLockouts api stackDepth i (vote :: votes) =
      double api stackDepth i vote :: doubleLockouts api stackDepth (i + 1) votes :=
  rfl

/-- Doubling gives a vote as many confirmations as now stand on it, if it had fewer. -/
theorem double_count (documented : api.Documented) (deep : depth ≤ i + vote.confirmationCount)
    (few : i + vote.confirmationCount ≤ maxLockoutHistory) :
    (double api (depth + 1) i vote).confirmationCount = max vote.confirmationCount (depth + 1 - i) := by
  simp only [double]
  split
  case isTrue fewer =>
    rw [documented.increaseConfirmationCount_eq]
    have small : vote.confirmationCount + 1 < 2 ^ 32 := by
      simp only [maxLockoutHistory] at few
      omega
    simp only [saturatingAdd_of_lt small]
    omega
  case isFalse enough => omega

theorem double_grown (documented : api.Documented) (depth i) (confirmed : Confirmed vote) :
    Grown vote (double api depth i vote) := by
  simp only [double]
  split
  case isTrue fewer =>
    rw [documented.increaseConfirmationCount_eq]
    have fits : vote.confirmationCount ≤ 2 ^ 32 - 1 := by
      have few := confirmed.2
      simp only [maxLockoutHistory] at few
      omega
    exact ⟨rfl, le_saturatingAdd fits⟩
  case isFalse enough => exact ⟨rfl, le_rfl⟩

theorem double_new (depth slot) : double api (depth + 1) depth ⟨slot, 1⟩ = ⟨slot, 1⟩ :=
  if_neg (Nat.lt_irrefl (depth + 1))

/-- The vote below still has more confirmations than the next one, after both were doubled. -/
theorem double_follows {next : Lockout} (documented : api.Documented) (deep : depth ≤ i + vote.confirmationCount)
    (few : i + vote.confirmationCount ≤ maxLockoutHistory) (deepNext : depth ≤ i + 1 + next.confirmationCount)
    (fewNext : i + 1 + next.confirmationCount ≤ maxLockoutHistory) (inside : i ≤ depth) (confirmed : Confirmed vote)
    (confirmedNext : Confirmed next) (follows : Follows api vote next) :
    Follows api (double api (depth + 1) i vote) (double api (depth + 1) (i + 1) next) := by
  have grown := double_grown documented (depth + 1) i confirmed
  have nextSlot := (double_grown documented (depth + 1) (i + 1) confirmedNext).slot
  constructor
  case newer =>
    rw [grown.slot, nextSlot]
    exact follows.newer
  case fewer =>
    rw [double_count documented deep few, double_count documented deepNext fewNext]
    have below := follows.fewer
    omega
  case lockedOut =>
    rw [nextSlot]
    exact follows.lockedOut.trans (grown.lastLockedOutSlot_le documented)

/-- A stack with a new vote on top of one that is locked out there. -/
theorem Counted.push (documented : api.Documented) (counted : Counted api depth i votes)
    (depth_eq : i + votes.length = depth) (room : depth < maxLockoutHistory)
    (top : ∀ last ∈ votes.getLast?, last.slot < slot ∧ slot ≤ api.lastLockedOutSlot last) :
    Counted api (depth + 1) i
      (doubleLockouts api (depth + 1) i (votes ++ [{ slot := slot, confirmationCount := 1 }])) := by
  induction votes generalizing i with
  | nil =>
    simp only [length_nil, Nat.add_zero] at depth_eq
    subst depth_eq
    rw [nil_append, doubleLockouts_cons, double_new]
    exact ⟨le_rfl, room, le_rfl, nofun, trivial⟩
  | cons vote votes ih =>
    have confirmed := counted.confirmed
    obtain ⟨deep, few, pos, follows, rest⟩ := counted
    simp only [length_cons] at depth_eq
    rw [cons_append, doubleLockouts_cons]
    have count := double_count documented deep few
    have grown := double_grown documented (depth + 1) i (confirmed vote mem_cons_self)
    cases votes with
    | nil =>
      obtain ⟨newer, lockedOut⟩ := top vote rfl
      have here : i + 1 = depth := by simpa using depth_eq
      subst here
      rw [nil_append, doubleLockouts_cons, double_new]
      refine ⟨by omega, by omega, by omega, ?_, ⟨le_rfl, room, le_rfl, nofun, trivial⟩⟩
      rintro next isNext
      cases isNext
      constructor
      case newer => rwa [grown.slot]
      case fewer =>
        simp only [count]
        omega
      case lockedOut => exact lockedOut.trans (grown.lastLockedOutSlot_le documented)
    | cons next others =>
      have top' : ∀ last ∈ (next :: others).getLast?,
          last.slot < slot ∧ slot ≤ api.lastLockedOutSlot last := by simpa using top
      refine ⟨by omega, by omega, by omega, ?_, ih rest (by omega) top'⟩
      rintro above isAbove
      cases isAbove
      obtain ⟨deepNext, fewNext, _⟩ := rest
      exact double_follows documented deep few deepNext fewNext (by omega)
        (confirmed vote mem_cons_self) (confirmed next (by simp)) (follows next rfl)

theorem doubleLockouts_length (depth i votes) : (doubleLockouts api depth i votes).length = votes.length := by
  induction votes generalizing i with
  | nil => rfl
  | cons vote votes ih => rw [doubleLockouts_cons, length_cons, length_cons, ih]

theorem doubleLockouts_slots (documented : api.Documented) (depth i) (confirmed : ∀ vote ∈ votes, Confirmed vote) :
    (doubleLockouts api depth i votes).map Lockout.slot = votes.map Lockout.slot := by
  induction votes generalizing i with
  | nil => rfl
  | cons vote votes ih =>
    rw [forall_mem_cons] at confirmed
    rw [doubleLockouts_cons, map_cons, map_cons, ih (i + 1) confirmed.2,
      (double_grown documented depth i confirmed.1).slot]

theorem doubleLockouts_push (depth_eq : i + votes.length = depth) (slot) :
    doubleLockouts api (depth + 1) i (votes ++ [⟨slot, 1⟩]) =
      doubleLockouts api (depth + 1) i votes ++ [⟨slot, 1⟩] := by
  induction votes generalizing i with
  | nil =>
    simp only [length_nil, Nat.add_zero] at depth_eq
    subst depth_eq
    rw [nil_append, doubleLockouts_cons, double_new]
    rfl
  | cons vote votes ih =>
    simp only [length_cons] at depth_eq
    rw [cons_append, doubleLockouts_cons, doubleLockouts_cons, ih (by omega), cons_append]

theorem exists_grown_of_mem (documented : api.Documented) (depth i) (confirmed : ∀ vote ∈ votes, Confirmed vote)
    (mem : vote ∈ votes) : ∃ doubled ∈ doubleLockouts api depth i votes, Grown vote doubled := by
  induction votes generalizing i with
  | nil => cases mem
  | cons first votes ih =>
    rw [forall_mem_cons] at confirmed
    rw [doubleLockouts_cons]
    rcases mem_cons.mp mem with rfl | later
    · exact ⟨_, mem_cons_self, double_grown documented depth i confirmed.1⟩
    · obtain ⟨doubled, among, grown⟩ := ih (i + 1) confirmed.2 later
      exact ⟨doubled, mem_cons_of_mem _ among, grown⟩

/-- Every vote of a doubled stack has grown from one of the stack. -/
theorem exists_grown_of_mem_double (documented : api.Documented) (confirmed : ∀ vote ∈ votes, Confirmed vote)
    (mem : doubled ∈ doubleLockouts api depth i votes) : ∃ vote ∈ votes, Grown vote doubled := by
  induction votes generalizing i with
  | nil => cases mem
  | cons first votes ih =>
    rw [forall_mem_cons] at confirmed
    rw [doubleLockouts_cons] at mem
    rcases mem_cons.mp mem with rfl | later
    · exact ⟨first, mem_cons_self, double_grown documented depth i confirmed.1⟩
    · obtain ⟨vote, among, grown⟩ := ih confirmed.2 later
      exact ⟨vote, mem_cons_of_mem _ among, grown⟩

/-! ### Towers -/

/-- The votes of a tower are a stack above its root. -/
structure Stacked (api : VoteInterface Rest) (tower : TowerVoteState) : Prop where
  few : tower.votes.length ≤ maxLockoutHistory
  counted : Counted api tower.votes.length 0 tower.votes
  above : ∀ vote ∈ tower.votes, Above tower.rootSlot vote.slot

theorem Stacked.ordered (stacked : Stacked api tower) :
    tower.votes.Pairwise fun older newer => older.slot < newer.slot := by
  have newer := stacked.counted.chain.imp fun _ _ follows => follows.newer
  exact isChain_iff_pairwise.mp newer

theorem stacked_empty : Stacked api .empty where
  few := Nat.zero_le _
  counted := trivial
  above := nofun

/-- A vote for a newer slot: some votes were popped, the oldest of the others may have been rooted, and the rest is
    doubled under the new vote. -/
structure Voted (api : VoteInterface Rest) (tower : TowerVoteState) (slot : Nat) (next : TowerVoteState)
    (rooted kept popped : List Lockout) : Prop where
  votes : tower.votes = rooted ++ kept ++ popped
  expired : ∀ vote ∈ popped, api.isLockedOutAtSlot vote slot = false
  lockedOut : ∀ vote ∈ (rooted ++ kept).getLast?, api.isLockedOutAtSlot vote slot = true
  full : (rooted = [] ∧ (kept.length ≠ maxLockoutHistory ∧ next.rootSlot = tower.rootSlot)) ∨
    ∃ vote, rooted = [vote] ∧ kept.length + 1 = maxLockoutHistory ∧ next.rootSlot = some vote.slot
  next : next.votes = TowerVoteState.doubleLockouts api (kept.length + 1) 0 (kept ++ [⟨slot, 1⟩])

/-- Popping splits the votes at the last one that is locked out. -/
theorem popExpiredVotes_split (api : VoteInterface Rest) (votes slot) :
    ∃ popped, votes = popExpiredVotes api votes slot ++ popped ∧
      ∀ vote ∈ popped, api.isLockedOutAtSlot vote slot = false := by
  refine ⟨votes.rtakeWhile fun vote => !api.isLockedOutAtSlot vote slot, ?_, ?_⟩
  · exact rdropWhile_append_rtakeWhile.symm
  · intro vote mem
    have expired := mem_rtakeWhile_imp mem
    simpa using expired

theorem popExpiredVotes_last (isLast : last ∈ (popExpiredVotes api votes slot).getLast?) :
    api.isLockedOutAtSlot last slot = true := by
  have nonempty : popExpiredVotes api votes slot ≠ [] := by
    intro empty
    rw [empty] at isLast
    cases isLast
  have stays := rdropWhile_last_not _ _ nonempty
  rw [getLast?_eq_some_getLast nonempty] at isLast
  cases isLast
  simpa [popExpiredVotes] using stays

theorem processNextVoteSlot_voted (api : VoteInterface Rest)
    (newer : ∀ last ∈ tower.votes.getLast?, last.slot < slot) :
    ∃ rooted kept popped, Voted api tower slot (tower.processNextVoteSlot api slot) rooted kept popped := by
  have fresh : (tower.lastVotedSlot.any fun lastVotedSlot => slot ≤ lastVotedSlot) = false := by
    cases isLast : tower.votes.getLast? with
    | none => simp [lastVotedSlot, isLast]
    | some last =>
      have below := newer last isLast
      simpa [lastVotedSlot, isLast] using below
  obtain ⟨popped, split, expired⟩ := popExpiredVotes_split api tower.votes slot
  have lockedOut : ∀ vote ∈ (popExpiredVotes api tower.votes slot).getLast?,
      api.isLockedOutAtSlot vote slot = true := fun vote => popExpiredVotes_last
  simp only [processNextVoteSlot, fresh, popRoot]
  generalize popExpiredVotes api tower.votes slot = left at split lockedOut ⊢
  by_cases full : left.length = maxLockoutHistory
  · cases left with
    | nil => simp [maxLockoutHistory] at full
    | cons oldest kept =>
      refine ⟨[oldest], kept, popped, split, expired, lockedOut, .inr ⟨oldest, rfl, full, ?_⟩, ?_⟩
      · simp [full]
      · simp [full]
  · refine ⟨[], left, popped, split, expired, lockedOut, .inl ⟨rfl, full, ?_⟩, ?_⟩
    · simp [full]
    · simp [full]

/-! ### What a vote does to the tower -/

/-- A slot above the root and all votes. -/
structure Newer (tower : TowerVoteState) (slot : Nat) : Prop where
  last : ∀ last ∈ tower.votes.getLast?, last.slot < slot
  root : Above tower.rootSlot slot

theorem Newer.lt (newer : Newer tower slot) (stacked : Stacked api tower) (mem : vote ∈ tower.votes) :
    vote.slot < slot :=
  lt_of_lt_last stacked.ordered mem newer.last

section Voted

variable {next : TowerVoteState} {rooted kept popped : List Lockout}

theorem Voted.kept_confirmed (stacked : Stacked api tower)
    (voted : Voted api tower slot next rooted kept popped) : ∀ vote ∈ kept, Confirmed vote := by
  intro vote mem
  apply stacked.counted.confirmed
  rw [voted.votes]
  simp [mem]

section

variable (voted : Voted api tower slot next rooted kept popped)
include voted

/-- A vote of the old tower is the new root, is kept or was popped. -/
theorem Voted.mem_cases (mem : vote ∈ tower.votes) :
    next.rootSlot = some vote.slot ∨ vote ∈ kept ∨ vote ∈ popped := by
  rw [voted.votes, mem_append, mem_append] at mem
  rcases mem with (isRooted | isKept) | isPopped
  · rcases voted.full with ⟨none, _⟩ | ⟨_, isOldest, _, isNext⟩
    · rw [none] at isRooted
      cases isRooted
    · rw [isOldest, mem_singleton] at isRooted
      exact .inl (isRooted ▸ isNext)
  · exact .inr (.inl isKept)
  · exact .inr (.inr isPopped)

/-- The new tower is what is left of the old one under the new vote. -/
theorem Voted.votes_eq : next.votes = doubleLockouts api (kept.length + 1) 0 kept ++ [⟨slot, 1⟩] := by
  rw [voted.next, doubleLockouts_push (by omega)]

theorem Voted.last : next.votes.getLast? = some ⟨slot, 1⟩ := by
  rw [voted.votes_eq, getLast?_concat]

end

section

variable (documented : api.Documented) (stacked : Stacked api tower)
  (voted : Voted api tower slot next rooted kept popped)
include documented stacked voted

/-- A vote of the new tower is the new one or one that was kept. -/
theorem Voted.mem_next (mem : vote ∈ next.votes) : vote = ⟨slot, 1⟩ ∨ ∃ old ∈ kept, Grown old vote := by
  rw [voted.votes_eq, mem_append, mem_singleton] at mem
  rcases mem with doubled | new
  · exact .inr (exists_grown_of_mem_double documented (voted.kept_confirmed stacked) doubled)
  · exact .inl new

/-- A vote that was kept is in the new tower, with at least its confirmations. -/
theorem Voted.mem_of_kept (mem : old ∈ kept) : ∃ vote ∈ next.votes, Grown old vote := by
  obtain ⟨vote, among, grown⟩ := exists_grown_of_mem documented (kept.length + 1) 0
    (voted.kept_confirmed stacked) mem
  refine ⟨vote, ?_, grown⟩
  rw [voted.votes_eq]
  exact mem_append_left _ among

end

section

variable (stacked : Stacked api tower) (voted : Voted api tower slot next rooted kept popped)

include stacked voted

theorem Voted.kept_lt_popped (mem : old ∈ kept) (among : other ∈ popped) : old.slot < other.slot := by
  have ordered := stacked.ordered
  rw [voted.votes] at ordered
  exact (pairwise_append.mp ordered).2.2 old (mem_append_right _ mem) other among

theorem Voted.root_le : ∀ root ∈ tower.rootSlot, ∃ root' ∈ next.rootSlot, root ≤ root' := by
  intro root isRoot
  rcases voted.full with ⟨_, _, same⟩ | ⟨oldest, isOldest, _, isNext⟩
  · exact ⟨root, same ▸ isRoot, le_rfl⟩
  · refine ⟨oldest.slot, isNext, ?_⟩
    have mem : oldest ∈ tower.votes := by
      rw [voted.votes, isOldest]
      simp
    exact (stacked.above oldest mem root isRoot).le

theorem Voted.kept_counted : Counted api kept.length 0 kept := by
  have counted := stacked.counted
  have votes := voted.votes
  rw [votes] at counted
  rcases voted.full with ⟨isOldest, _⟩ | ⟨oldest, isOldest, _⟩
  · subst isOldest
    exact counted.pop (by simp)
  · subst isOldest
    obtain ⟨_, _, _, _, rest⟩ := counted
    have fewer : kept.length + 1 ≤ ([oldest] ++ kept ++ popped).length := by simp
    exact (rest.pop fewer).root

end

theorem Voted.stacked (documented : api.Documented) (stacked : Stacked api tower)
    (newer : Newer tower slot) (voted : Voted api tower slot next rooted kept popped) :
    Stacked api next := by
  have room : kept.length < maxLockoutHistory := by
    have few := stacked.few
    rw [voted.votes, length_append, length_append] at few
    rcases voted.full with ⟨isOldest, room, _⟩ | ⟨oldest, _, full, _⟩
    · omega
    · omega
  have length : next.votes.length = kept.length + 1 := by
    rw [voted.votes_eq, length_append, doubleLockouts_length]
    rfl
  constructor
  case few => omega
  case counted =>
    rw [length, voted.next]
    apply (voted.kept_counted stacked).push documented (by omega) room
    intro last isLast
    have top : last ∈ (rooted ++ kept).getLast? := by
      rw [getLast?_append, isLast]
      rfl
    have mem : last ∈ tower.votes := by
      rw [voted.votes]
      exact mem_append_left _ (mem_of_getLast? top)
    constructor
    · exact newer.lt stacked mem
    · exact (documented.isLockedOutAtSlot_iff last slot).mp (voted.lockedOut last top)
  case above =>
    have votes := voted.votes
    intro vote mem
    rcases voted.full with ⟨_, _, same⟩ | ⟨_, isOldest, _, isNext⟩
    · rw [same]
      rcases voted.mem_next documented stacked mem with rfl | ⟨old, among, grown⟩
      · exact newer.root
      · rw [grown.slot]
        apply stacked.above old
        rw [votes]
        simp [among]
    · subst isOldest
      rw [isNext]
      rintro root isRoot
      cases isRoot
      rcases voted.mem_next documented stacked mem with rfl | ⟨_, among, grown⟩
      · apply newer.lt stacked
        rw [votes]
        simp
      · rw [grown.slot]
        have ordered := stacked.ordered
        rw [votes, append_assoc, singleton_append] at ordered
        exact rel_of_pairwise_cons ordered (mem_append_left _ among)

end Voted

end Payout.Consensus
