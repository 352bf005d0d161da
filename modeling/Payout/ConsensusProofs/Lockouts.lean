/-
Purpose: The chain accepts what a validator's tower produces, and a tower never violates its own lockouts. The
  simulated vote checks only the votes that stay and the root; that popped and rooted votes are respected as well
  follows from what became of each vote along the run.
-/
import Payout.ConsensusProofs.Doubling

namespace Payout.Consensus

section

open Vote List LandedVote TowerVoteState

variable {Rest : Type} {api : VoteInterface Rest}

variable {before tower : TowerVoteState} {voteState : VoteState Rest}

/-! ### From one tower to a later one -/

/-- A vote of an earlier tower left the later one, whose last vote is beyond its lockout. -/
structure Outlived (api : VoteInterface Rest) (tower : TowerVoteState) (old : Lockout) : Prop where
  gone : Gone api tower.votes old
  last : ∃ last ∈ tower.votes.getLast?, old.slot < last.slot ∧ api.lastLockedOutSlot old < last.slot

/-- What became of an earlier tower: roots moved up, and each vote was rooted, kept or outlived. -/
structure Evolved (api : VoteInterface Rest) (before after : TowerVoteState) : Prop where
  root : ∀ root ∈ before.rootSlot, ∃ root' ∈ after.rootSlot, root ≤ root'
  votes : ∀ old ∈ before.votes,
    (∃ root ∈ after.rootSlot, old.slot ≤ root) ∨ Kept after.votes old ∨ Outlived api after old

theorem Evolved.refl (tower) : Evolved api tower tower where
  root root isRoot := ⟨root, isRoot, le_rfl⟩
  votes old mem := .inr (.inl ⟨old, mem, rfl, le_rfl⟩)

section Step

variable {next : TowerVoteState} {slot : Nat} {rooted kept popped : List Lockout}

section

variable (documented : api.Documented) (stacked : Stacked api tower) (newer : Newer tower slot)
  (voted : Voted api tower slot next rooted kept popped)

include documented stacked newer voted

/-- A vote that is popped is outlived, since the votes above it went with it. -/
theorem Voted.outlived_of_popped (mem : vote ∈ popped) (grown : Grown old vote) : Outlived api next old := by
  have inTower : vote ∈ tower.votes := by
    rw [voted.votes]
    exact mem_append_right _ mem
  have below : old.slot < slot := grown.slot ▸ newer.lt stacked inTower
  have beyond : api.lastLockedOutSlot old < slot := by
    have expired := voted.expired vote mem
    have outlived : ¬ slot ≤ api.lastLockedOutSlot vote := by
      intro lockedOut
      rw [(documented.isLockedOutAtSlot_iff vote slot).mpr lockedOut] at expired
      cases expired
    exact (grown.lastLockedOutSlot_le documented).trans_lt (Nat.lt_of_not_le outlived)
  constructor
  case last => exact ⟨_, voted.last, below, beyond⟩
  case gone =>
    have cases : ∀ other ∈ next.votes, other.slot = slot ∨ other.slot < old.slot := by
      intro other among
      rcases voted.mem_next documented stacked among with rfl | ⟨_, isKept, grew⟩
      · exact .inl rfl
      · right
        rw [grew.slot, ← grown.slot]
        exact voted.kept_lt_popped stacked isKept mem
    constructor
    case absent =>
      intro other among
      rcases cases other among with new | older
      · exact new ▸ below.ne'
      · exact older.ne
    case beyond =>
      intro other among above
      rcases cases other among with new | older
      · exact new ▸ beyond
      · exact absurd above older.asymm

theorem Voted.outlived (outlived : Outlived api tower old) : Outlived api next old := by
  obtain ⟨last, isLast, below, beyond⟩ := outlived.last
  have lastBelow := newer.last last isLast
  have inTower : ∀ vote ∈ kept, vote ∈ tower.votes := by
    intro vote mem
    rw [voted.votes]
    simp [mem]
  constructor
  case last => exact ⟨_, voted.last, below.trans lastBelow, beyond.trans lastBelow⟩
  case gone =>
    constructor
    case absent =>
      intro other among
      rcases voted.mem_next documented stacked among with rfl | ⟨first, isKept, grew⟩
      · exact (below.trans lastBelow).ne'
      · exact grew.slot ▸ outlived.gone.absent first (inTower first isKept)
    case beyond =>
      intro other among above
      rcases voted.mem_next documented stacked among with rfl | ⟨first, isKept, grew⟩
      · exact beyond.trans lastBelow
      · rw [grew.slot] at above ⊢
        exact outlived.gone.beyond first (inTower first isKept) above

theorem Evolved.step (evolved : Evolved api before tower) : Evolved api before next := by
  constructor
  case root =>
    intro root isRoot
    obtain ⟨root', isRoot', le⟩ := evolved.root root isRoot
    obtain ⟨root'', isRoot'', le'⟩ := voted.root_le stacked root' isRoot'
    exact ⟨root'', isRoot'', le.trans le'⟩
  case votes =>
    intro old mem
    rcases evolved.votes old mem with ⟨root, isRoot, le⟩ | ⟨vote, among, same, more⟩ | outlived
    · obtain ⟨root', isRoot', le'⟩ := voted.root_le stacked root isRoot
      exact .inl ⟨root', isRoot', le.trans le'⟩
    · have grown : Grown old vote := ⟨same, more⟩
      rcases voted.mem_cases among with isNext | isKept | isPopped
      · exact .inl ⟨_, isNext, same.ge⟩
      · obtain ⟨vote', among', grown'⟩ := voted.mem_of_kept documented stacked isKept
        have all := grown.trans grown'
        exact .inr (.inl ⟨vote', among', all.slot, all.confirmationCount⟩)
      · exact .inr (.inr (voted.outlived_of_popped documented stacked newer isPopped grown))
    · exact .inr (.inr (voted.outlived documented stacked newer outlived))

end

end Step

/-! ### Submitting a tower -/

/-- An account holds the votes and the root of a tower. -/
structure Agrees (voteState : VoteState Rest) (tower : TowerVoteState) : Prop where
  votes : voteState.lockouts = tower.votes
  root : voteState.rootSlot = tower.rootSlot

/-- Submit a tower to an account. -/
def submit (api : VoteInterface Rest) (voteState : VoteState Rest) (tower : TowerVoteState)
    (epoch currentSlot : Nat) : Except Failure (VoteState Rest) :=
  processNewVoteState api voteState (tower.votes.map LandedVote.ofLockout) tower.rootSlot none epoch currentSlot

/-- Every vote that an account holds of an earlier tower and the root does not cover is kept or gone. -/
theorem Agrees.accounted (agrees : Agrees voteState before) (ordered : InOrder voteState.votes)
    (evolved : Evolved api before tower) :
    ∀ old ∈ uncovered tower.rootSlot voteState.votes,
      Kept ((tower.votes.map ofLockout).map lockout) old.lockout ∨
        Gone api ((tower.votes.map ofLockout).map lockout) old.lockout := by
  rw [map_lockout_ofLockout]
  intro old mem
  have inBefore : old.lockout ∈ before.votes := by
    rw [← agrees.votes]
    exact mem_map_of_mem ((uncovered_sublist _ _).subset mem)
  rcases evolved.votes old.lockout inBefore with ⟨root, isRoot, covered⟩ | kept | outlived
  · have above := above_of_mem_uncovered ordered mem root isRoot
    exact absurd covered (Nat.not_le.mpr above)
  · exact .inl kept
  · exact .inr outlived.gone

theorem submit_later (documented : api.Documented) (agrees : Agrees voteState before)
    (wasStacked : Stacked api before) (stacked : Stacked api tower) (nonempty : tower.votes ≠ [])
    (evolved : Evolved api before tower) (epoch currentSlot) :
    ∃ result, submit api voteState tower epoch currentSlot = .ok result ∧ Agrees result tower := by
  have newOrder : InOrder (tower.votes.map ofLockout) := by
    rw [inOrder_iff, map_lockout_ofLockout]
    exact stacked.ordered
  have oldOrder : InOrder voteState.votes := by
    have ordered := wasStacked.ordered
    rw [← agrees.votes] at ordered
    exact inOrder_iff.mpr ordered
  have oldFew : voteState.votes.length ≤ maxLockoutHistory := by
    have few := wasStacked.few
    rwa [← agrees.votes, VoteState.lockouts, length_map] at few
  have passes : ∃ result, submit api voteState tower epoch currentSlot = .ok result := by
    obtain ⟨earned, skipped⟩ := skipRooted_passes documented oldFew tower.rootSlot
    obtain ⟨compared, passed⟩ := compareVotes_passes api
      (oldOrder.sublist (uncovered_sublist tower.rootSlot _)) newOrder
      (agrees.accounted oldOrder evolved)
    refine ⟨_, processNewVoteState_ok_iff.mpr ⟨?_, ?_, ?_, ?_, earned, _, skipped, compared, passed, _, rfl, rfl⟩⟩
    · simpa using nonempty
    · simpa using stacked.few
    · rw [checkRoot_ok_iff, agrees.root]
      exact evolved.root
    · rw [checkVotes_ok_iff]
      constructor
      · intro vote mem
        obtain ⟨lockout, among, rfl⟩ := mem_map.mp mem
        exact ⟨stacked.counted.confirmed lockout among, fun root isRoot =>
          .inl (stacked.above lockout among root isRoot)⟩
      · have chain := stacked.counted.chain
        rwa [← map_lockout_ofLockout tower.votes] at chain
  obtain ⟨result, submitted⟩ := passes
  have replaced := processNewVoteState_ok submitted
  exact ⟨result, submitted, replaced.lockouts.trans (map_lockout_ofLockout _), replaced.rootSlot⟩

/-! ### Submitting any of the towers -/

/-- A tower that is submitted, with the epoch and the slot in which it lands. -/
structure Submission where
  tower : TowerVoteState
  epoch : Nat
  currentSlot : Nat
deriving Repr

/-- Submit towers one after the other. -/
def submitAll (api : VoteInterface Rest) (voteState : VoteState Rest) (submissions : List Submission) :
    Except Failure (VoteState Rest) :=
  submissions.foldlM
    (fun voteState submission =>
      submit api voteState submission.tower submission.epoch submission.currentSlot)
    voteState

theorem Voted.newer {next : TowerVoteState} {slot later : Nat}
    (voted : Voted api tower slot next rooted kept popped) (stacked : Stacked api next) (lt : slot < later) :
    Newer next later := by
  constructor
  case last =>
    intro last isLast
    rw [voted.last] at isLast
    cases isLast
    exact lt
  case root =>
    intro root isRoot
    exact (stacked.above _ (mem_of_getLast? voted.last) root isRoot).trans lt

/-- From an account that holds an earlier tower, all submissions of later towers are accepted, and the account ends with
    the last of them. -/
theorem submitAll_later (documented : api.Documented) {slots : List Nat} {submissions : List Submission}
    (agrees : Agrees voteState before) (wasStacked : Stacked api before) (stacked : Stacked api tower)
    (evolved : Evolved api before tower) (increasing : slots.Pairwise (· < ·))
    (newer : ∀ slot ∈ slots, Newer tower slot)
    (submitted : (submissions.map Submission.tower).Sublist (tower.towers api slots)) :
    ∃ result, submitAll api voteState submissions = .ok result ∧
      Agrees result ((submissions.map Submission.tower).getLast?.getD before) := by
  induction slots generalizing before tower voteState submissions with
  | nil =>
    have none : submissions = [] := by simpa [towers] using submitted
    subst none
    exact ⟨voteState, rfl, agrees⟩
  | cons slot slots ih =>
    have newerSlot := newer slot mem_cons_self
    obtain ⟨_, _, _, voted⟩ := processNextVoteSlot_voted api newerSlot.last
    have stacked' := voted.stacked documented stacked newerSlot
    have evolved' := evolved.step documented stacked newerSlot voted
    have newer' : ∀ later ∈ slots, Newer (tower.processNextVoteSlot api slot) later := by
      intro later mem
      exact voted.newer stacked' (rel_of_pairwise_cons increasing mem)
    simp only [towers] at submitted
    rcases sublist_cons_iff.mp submitted with dropped | ⟨rest, isRest, others⟩
    · exact ih agrees wasStacked stacked' evolved' increasing.of_cons newer' dropped
    cases submissions with
    | nil => cases isRest
    | cons first =>
      simp only [map_cons, cons.injEq] at isRest
      obtain ⟨isNext, rfl⟩ := isRest
      have nonempty : (tower.processNextVoteSlot api slot).votes ≠ [] := by
        intro empty
        have last := voted.last
        rw [empty] at last
        cases last
      obtain ⟨_, accepted, agrees'⟩ := submit_later documented agrees wasStacked stacked' nonempty evolved'
        first.epoch first.currentSlot
      obtain ⟨result, rest, _⟩ := ih agrees' stacked' stacked' (.refl _) increasing.of_cons newer' others
      refine ⟨result, ?_, ?_⟩
      · rw [submitAll, foldlM_cons, isNext, accepted]
        exact rest
      · rwa [map_cons, getLast?_cons, Option.getD_some, isNext]

/-- However many of its towers a validator submits, an account without votes accepts each of them and then holds it. -/
theorem tower_accepted (api : VoteInterface Rest) (documented : api.Documented) (slots : List Nat)
    (increasing : slots.Pairwise (· < ·)) (submissions : List Submission)
    (submitted : (submissions.map Submission.tower).Sublist (empty.towers api slots))
    (voteState : VoteState Rest) (fresh : Agrees voteState .empty) :
    ∀ done, done <+: submissions → ∃ result, submitAll api voteState done = .ok result ∧
      ∀ tower ∈ (done.map Submission.tower).getLast?, Agrees result tower := by
  intro done earlier
  have newer : ∀ slot ∈ slots, Newer .empty slot := fun slot _ => ⟨nofun, nofun⟩
  obtain ⟨result, accepted, agrees⟩ := submitAll_later documented fresh stacked_empty stacked_empty (.refl _)
    increasing newer ((earlier.sublist.map Submission.tower).trans submitted)
  refine ⟨result, accepted, ?_⟩
  intro tower isLast
  rwa [isLast, Option.getD_some] at agrees

namespace Sample

/-- Votes for five slots, the third of which expires the first two. -/
def slots : List Nat := [1, 2, 6, 7, 8]

/-- The second and the last tower are submitted. -/
def submissions : List Submission :=
  [⟨⟨[⟨1, 2⟩, ⟨2, 1⟩], none⟩, 0, 3⟩, ⟨⟨[⟨6, 3⟩, ⟨7, 2⟩, ⟨8, 1⟩], none⟩, 0, 9⟩]

def account : VoteState Nat where
  votes := []
  rootSlot := none
  rest := 0

end Sample

open Sample

theorem tower_accepted_sample :
    ∃ result, submitAll voteInterface account submissions = .ok result ∧
      ∀ tower ∈ (submissions.map Submission.tower).getLast?, Agrees result tower :=
  tower_accepted voteInterface voteInterface_documented slots (by decide)
    submissions (by decide) account ⟨rfl, rfl⟩ _ (prefix_refl _)

end

open Lib Vote List TowerVoteState Relation.TransGen BlockTree

variable {Rest : Type} {api : VoteInterface Rest} {tree : BlockTree} {other slot above root : Nat}
  {ballot : Ballot} {vote old : Lockout} {next : TowerVoteState}

namespace BlockTree

theorem Ancestor.reaches (ancestor : tree.Ancestor one other) : tree.Reaches one other :=
  to_reflTransGen ancestor

/-- The ancestors of a block are its parent and the ancestors of that. -/
theorem ancestor_iff : tree.Ancestor slot above ↔
    ∃ parent, tree.parent above = some parent ∧ (slot = parent ∨ tree.Ancestor slot parent) := by
  constructor
  · intro ancestor
    obtain ⟨parent, reaches, isParent⟩ := tail'_iff.mp ancestor
    exact ⟨parent, isParent, Relation.reflTransGen_iff_eq_or_transGen.mp reaches |>.imp Eq.symm id⟩
  · rintro ⟨parent, isParent, rfl | ancestor⟩
    · exact .single isParent
    · exact .tail ancestor isParent

end BlockTree

/-! ### What an allowed vote has checked -/

/-- A vote for a slot that is not locked out: all that stays in the tower, and the root, are ancestors of the slot. -/
structure Cast (api : VoteInterface Rest) (tree : BlockTree) (tower : TowerVoteState) (slot : Nat)
    (next : TowerVoteState) : Prop where
  next_eq : next = tower.processNextVoteSlot api slot
  newer : Newer tower slot
  votes : ∀ vote ∈ next.votes, vote.slot ≠ slot → tree.Ancestor vote.slot slot
  root : ∀ root ∈ next.rootSlot, root ≠ slot → tree.Ancestor root slot

theorem isRecent_newer (stacked : Stacked api tower) (recent : tower.isRecent slot = true) :
    Newer tower slot := by
  cases isLast : tower.votes.getLast? with
  | none =>
    have none : tower.lastVotedSlot = none := by simp [lastVotedSlot, isLast]
    constructor
    case last =>
      rw [isLast]
      rintro _ ⟨⟩
    case root =>
      intro root isRoot
      rw [Option.mem_def] at isRoot
      simpa [isRecent, none, isRoot] using recent
  | some last =>
    have some : tower.lastVotedSlot = some last.slot := by simp [lastVotedSlot, isLast]
    have below : last.slot < slot := by simpa [isRecent, some] using recent
    constructor
    case last =>
      rintro other isOther
      cases isLast.symm.trans isOther
      exact below
    case root =>
      intro root isRoot
      exact (stacked.above last (mem_of_getLast? isLast) root isRoot).trans below

theorem castBallot_cast (stacked : Stacked api tower) (allowed : Allowed api tree tower ballot)
    (cast : castBallot api ballot tower = .ok next) : Cast api tree tower ballot.slot next := by
  obtain ⟨ancestors, recent, free⟩ := allowed
  have next_eq : next = tower.processNextVoteSlot api ballot.slot := by
    simp only [castBallot, map_eq_ok_iff, recordBankVoteAndUpdateLockouts, bind_ok_iff, Except.ok.injEq] at cast
    obtain ⟨_, ⟨_, _, _, _, _, _, rfl⟩, rfl⟩ := cast
    rfl
  simp only [isLockedOut, recent, Bool.not_true, Bool.false_eq_true, if_false] at free
  split at free
  case isTrue => cases free
  case isFalse stays =>
    simp only [ok_iffs, and_true] at free
    rw [← next_eq] at stays free
    constructor
    case next_eq => exact next_eq
    case newer => exact isRecent_newer stacked recent
    case votes =>
      intro vote mem other
      by_contra notAncestor
      apply stays
      rw [any_eq_true]
      exact ⟨vote, mem, decide_eq_true ⟨other.symm, fun among => notAncestor ((ancestors _).mp among)⟩⟩
    case root =>
      intro root isRoot other
      by_contra notAncestor
      exact free ⟨root, isRoot, other.symm, fun among => notAncestor ((ancestors _).mp among)⟩

/-! ### The tower stays on one chain -/

/-- The root and the votes of a tower are ancestors of one another, in this order. -/
structure OnChain (tree : BlockTree) (tower : TowerVoteState) : Prop where
  votes : (tower.votes.map Lockout.slot).Pairwise tree.Ancestor
  root : ∀ root ∈ tower.rootSlot, ∀ vote ∈ tower.votes, tree.Ancestor root vote.slot

theorem OnChain.oneChain (onChain : OnChain tree tower) :
    tree.OneChain (tower.rootSlot.toList ++ tower.votes.map Lockout.slot) := by
  have ordered : (tower.rootSlot.toList ++ tower.votes.map Lockout.slot).Pairwise tree.Reaches := by
    rw [pairwise_append]
    refine ⟨?_, onChain.votes.imp BlockTree.Ancestor.reaches, ?_⟩
    · cases tower.rootSlot with
      | none => exact .nil
      | some => exact pairwise_singleton _ _
    · intro root isRoot slot mem
      obtain ⟨vote, among, rfl⟩ := mem_map.mp mem
      exact (onChain.root root (Option.mem_toList.mp isRoot) vote among).reaches
  have symmetric : Std.Symm fun one other => tree.Reaches one other ∨ tree.Reaches other one := ⟨fun _ _ => Or.symm⟩
  exact fun _ isOne _ isOther =>
    List.Pairwise.forall_of_forall (R := fun one other => tree.Reaches one other ∨ tree.Reaches other one)
      (fun _ _ => .inl .refl) (ordered.imp .inl) isOne isOther

section Step

variable {before tower : TowerVoteState} {rooted kept popped : List Lockout}

theorem Voted.slots (documented : api.Documented) (stacked : Stacked api tower)
    (voted : Voted api tower slot next rooted kept popped) :
    next.votes.map Lockout.slot = kept.map Lockout.slot ++ [slot] := by
  rw [voted.votes_eq, map_append, doubleLockouts_slots documented _ _ (voted.kept_confirmed stacked)]
  rfl

theorem Voted.mem_of_mem_kept (voted : Voted api tower slot next rooted kept popped) (mem : vote ∈ kept) :
    vote ∈ tower.votes := by
  rw [voted.votes]
  simp [mem]

/-- What became of an earlier tower in the tree: its root reaches the later one, and each of its votes reaches the later
    root, is kept or is outlived. -/
structure Traced (api : VoteInterface Rest) (tree : BlockTree) (before after : TowerVoteState) : Prop where
  root : ∀ root ∈ before.rootSlot, ∃ root' ∈ after.rootSlot, tree.Reaches root root'
  votes : ∀ old ∈ before.votes,
    (∃ root ∈ after.rootSlot, tree.Reaches old.slot root) ∨ Kept after.votes old ∨ Outlived api after old

theorem Traced.refl (tower) : Traced api tree tower tower where
  root root isRoot := ⟨root, isRoot, .refl⟩
  votes old mem := .inr (.inl ⟨old, mem, rfl, le_rfl⟩)

theorem OnChain.root_reaches (onChain : OnChain tree tower)
    (voted : Voted api tower slot next rooted kept popped) :
    ∀ root ∈ tower.rootSlot, ∃ root' ∈ next.rootSlot, tree.Reaches root root' := by
  intro root isRoot
  rcases voted.full with ⟨_, _, same⟩ | ⟨oldest, isOldest, _, isNext⟩
  · exact ⟨root, same ▸ isRoot, .refl⟩
  · have mem : oldest ∈ tower.votes := by
      rw [voted.votes, isOldest]
      simp
    exact ⟨oldest.slot, isNext, (onChain.root root isRoot oldest mem).reaches⟩

variable (documented : api.Documented) (stacked : Stacked api tower) (cast : Cast api tree tower slot next)
  (voted : Voted api tower slot next rooted kept popped)

include documented stacked cast voted

theorem Cast.kept_ancestor (mem : vote ∈ kept) : tree.Ancestor vote.slot slot := by
  obtain ⟨vote', among, grown⟩ := voted.mem_of_kept documented stacked mem
  have below := cast.newer.lt stacked (voted.mem_of_mem_kept mem)
  rw [← grown.slot] at below ⊢
  exact cast.votes vote' among below.ne

theorem Cast.root_ancestor (isRoot : root ∈ next.rootSlot) : tree.Ancestor root slot := by
  apply cast.root root isRoot
  have above := (voted.stacked documented stacked cast.newer).above _ (mem_of_getLast? voted.last) root isRoot
  exact above.ne

theorem OnChain.step (onChain : OnChain tree tower) : OnChain tree next := by
  have slots : tower.votes.map Lockout.slot =
      rooted.map Lockout.slot ++ kept.map Lockout.slot ++ popped.map Lockout.slot := by
    rw [voted.votes, map_append, map_append]
  have ordered := onChain.votes
  rw [slots, pairwise_append, pairwise_append] at ordered
  obtain ⟨⟨_, keptOrdered, rootedBelow⟩, _, _⟩ := ordered
  constructor
  case votes =>
    rw [voted.slots documented stacked, pairwise_append]
    refine ⟨keptOrdered, pairwise_singleton _ _, ?_⟩
    intro older mem newest isNewest
    obtain ⟨_, among, rfl⟩ := mem_map.mp mem
    rw [mem_singleton.mp isNewest]
    exact cast.kept_ancestor documented stacked voted among
  case root =>
    intro root isRoot vote mem
    rcases voted.mem_next documented stacked mem with rfl | ⟨old, among, grown⟩
    · exact cast.root_ancestor documented stacked voted isRoot
    rw [grown.slot]
    rcases voted.full with ⟨_, _, same⟩ | ⟨oldest, isOldest, _, isNext⟩
    · exact onChain.root root (same ▸ isRoot) old (voted.mem_of_mem_kept among)
    · rw [isNext] at isRoot
      cases isRoot
      exact rootedBelow oldest.slot (by simp [isOldest]) old.slot (mem_map_of_mem among)

/-! ### What became of earlier votes -/

/-- One vote of the tower is rooted, kept or outlived by the next one. -/
theorem Cast.trace (mem : vote ∈ tower.votes) (grown : Grown old vote) :
    (∃ root ∈ next.rootSlot, tree.Reaches old.slot root) ∨ Kept next.votes old ∨ Outlived api next old := by
  rcases voted.mem_cases mem with isNext | isKept | isPopped
  · exact .inl ⟨_, isNext, grown.slot ▸ .refl⟩
  · obtain ⟨vote', among', grown'⟩ := voted.mem_of_kept documented stacked isKept
    have all := grown.trans grown'
    exact .inr (.inl ⟨vote', among', all.slot, all.confirmationCount⟩)
  · exact .inr (.inr (voted.outlived_of_popped documented stacked cast.newer isPopped grown))

theorem Traced.step (onChain : OnChain tree tower) (traced : Traced api tree before tower) :
    Traced api tree before next := by
  have up := onChain.root_reaches voted
  constructor
  case root =>
    intro root isRoot
    obtain ⟨root', isRoot', reaches⟩ := traced.root root isRoot
    obtain ⟨root'', isRoot'', reaches'⟩ := up root' isRoot'
    exact ⟨root'', isRoot'', reaches.trans reaches'⟩
  case votes =>
    intro old mem
    rcases traced.votes old mem with ⟨root, isRoot, reaches⟩ | ⟨_, among, same, more⟩ | outlived
    · obtain ⟨root', isRoot', reaches'⟩ := up root isRoot
      exact .inl ⟨root', isRoot', reaches.trans reaches'⟩
    · exact cast.trace documented stacked voted among ⟨same, more⟩
    · exact .inr (.inr (voted.outlived documented stacked cast.newer outlived))

/-- A vote for a slot within the lockout of an earlier vote is for a descendant of it. -/
theorem Traced.respects (onChain : OnChain tree tower) (traced : Traced api tree before tower)
    (mem : old ∈ before.votes) (within : slot ≤ api.lastLockedOutSlot old) : tree.Ancestor old.slot slot := by
  rcases traced.votes old mem with ⟨root, isRoot, reaches⟩ | ⟨vote, among, same, more⟩ | outlived
  · obtain ⟨_, isRoot', reaches'⟩ := onChain.root_reaches voted root isRoot
    exact trans_right (reaches.trans reaches') (cast.root_ancestor documented stacked voted isRoot')
  · rw [← same]
    rcases voted.mem_cases among with isNext | isKept | isPopped
    · exact cast.root_ancestor documented stacked voted isNext
    · exact cast.kept_ancestor documented stacked voted isKept
    · have longer := lastLockedOutSlot_mono documented same more
      have lockedOut := (documented.isLockedOutAtSlot_iff vote slot).mpr (within.trans longer)
      rw [voted.expired vote isPopped] at lockedOut
      cases lockedOut
  · obtain ⟨last, isLast, _, beyond⟩ := outlived.last
    have newer := cast.newer.last last isLast
    omega

end Step

/-! ### Whole runs -/

/-- What every tower of a run satisfies. -/
structure Sound (api : VoteInterface Rest) (tree : BlockTree) (tower : TowerVoteState) : Prop where
  stacked : Stacked api tower
  onChain : OnChain tree tower

theorem Cast.voted (cast : Cast api tree tower slot next) :
    ∃ rooted kept popped, Voted api tower slot next rooted kept popped := by
  rw [cast.next_eq]
  exact processNextVoteSlot_voted api cast.newer.last

theorem Sound.step (documented : api.Documented) (sound : Sound api tree tower)
    (allowed : Allowed api tree tower ballot) (taken : castBallot api ballot tower = .ok next) :
    Sound api tree next := by
  have cast := castBallot_cast sound.stacked allowed taken
  obtain ⟨_, _, _, voted⟩ := cast.voted
  exact ⟨voted.stacked documented sound.stacked cast.newer, sound.onChain.step documented sound.stacked cast voted⟩

/-- Along a run of allowed votes the tower and its roots stay on one chain of the tree, and every allowed vote for a
    slot within the lockout of a vote the tower has held is for a descendant of it. -/
theorem lockouts_respected (api : VoteInterface Rest) (documented : api.Documented) (tree : BlockTree)
    (start : Nat) (earlier later : List Ballot) (before tower : TowerVoteState)
    (toBefore : Run (castBallot api) (Allowed api tree) (.startingAt start) earlier before)
    (toTower : Run (castBallot api) (Allowed api tree) before later tower) :
    tree.OneChain (tower.rootSlot.toList ++ tower.votes.map Lockout.slot) ∧
      (∀ root ∈ before.rootSlot, ∃ root' ∈ tower.rootSlot, tree.Reaches root root') ∧
      ∀ vote ∈ before.votes, ∀ ballot next, Allowed api tree tower ballot →
        castBallot api ballot tower = .ok next → ballot.slot ≤ api.lastLockedOutSlot vote →
          tree.Ancestor vote.slot ballot.slot := by
  have soundBefore : Sound api tree before :=
    toBefore.invariant (fun _ _ _ sound allowed => sound.step documented allowed)
      ⟨⟨Nat.zero_le _, trivial, nofun⟩, ⟨.nil, nofun⟩⟩
  have both : Sound api tree tower ∧ Traced api tree before tower := by
    apply toTower.invariant (P := fun tower => Sound api tree tower ∧ Traced api tree before tower)
    · rintro s ballot t ⟨sound, traced⟩ allowed taken
      have cast := castBallot_cast sound.stacked allowed taken
      obtain ⟨_, _, _, voted⟩ := cast.voted
      exact ⟨sound.step documented allowed taken, traced.step documented sound.stacked cast voted sound.onChain⟩
    · exact ⟨soundBefore, .refl before⟩
  obtain ⟨sound, traced⟩ := both
  refine ⟨sound.onChain.oneChain, traced.root, ?_⟩
  intro vote mem ballot next allowed taken within
  have cast := castBallot_cast sound.stacked allowed taken
  obtain ⟨_, _, _, voted⟩ := cast.voted
  exact traced.respects documented sound.stacked cast voted sound.onChain mem within

namespace Sample

/-- Slots 1 and 2 are on two forks of slot 0, and slot 3 is on top of slot 1. -/
def forkedTree : BlockTree where
  parent
    | 1 => some 0
    | 2 => some 0
    | 3 => some 1
    | _ => none
  parent_lt := by
    intro slot above isParent
    split at isParent <;> cases isParent <;> decide

theorem not_ancestor_zero (slot) : ¬ forkedTree.Ancestor slot 0 := by
  rw [ancestor_iff]
  rintro ⟨parent, isParent, _⟩
  cases isParent

theorem ancestor_one (slot) : slot ∈ ({0} : Finset Nat) ↔ forkedTree.Ancestor slot 1 := by
  have isParent : forkedTree.parent 1 = some 0 := rfl
  rw [Finset.mem_singleton, ancestor_iff]
  simp only [isParent, Option.some.injEq, exists_eq_left', not_ancestor_zero, or_false]

theorem ancestor_three (slot) : slot ∈ ({0, 1} : Finset Nat) ↔ forkedTree.Ancestor slot 3 := by
  have isParent : forkedTree.parent 3 = some 1 := rfl
  rw [ancestor_iff]
  simp only [isParent, Option.some.injEq, exists_eq_left', ← ancestor_one, Finset.mem_insert, Finset.mem_singleton,
    or_comm]

def tower : TowerVoteState where
  votes := [⟨1, 1⟩]
  rootSlot := some 0

end Sample

open Sample

theorem lockouts_respected_sample : forkedTree.OneChain [0, 1] ∧ forkedTree.Ancestor 1 3 := by
  have first : Run (castBallot voteInterface)
      (Allowed voteInterface forkedTree) (.startingAt 0) [⟨1, {0}⟩] tower :=
    .cons ⟨ancestor_one, rfl, rfl⟩ rfl (.refl _)
  obtain ⟨chain, _, respected⟩ := lockouts_respected voteInterface
    voteInterface_documented forkedTree 0 [⟨1, {0}⟩] [] tower tower first (.refl _)
  exact ⟨chain, respected ⟨1, 1⟩ mem_cons_self ⟨3, {0, 1}⟩ _ ⟨ancestor_three, rfl, rfl⟩ rfl (by decide)⟩

end Payout.Consensus
