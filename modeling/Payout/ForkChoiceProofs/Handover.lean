/-
Purpose: Votes are handed over to the fork choice. If no vote for a second hash of a slot is accepted, every batch
  that is taken from the dirty set can be counted, and then the latest vote of every validator is the one it was
  accepted for.
-/
import Payout.ForkChoiceProofs.DirtySet
import Payout.ForkChoiceProofs.Invariants

namespace Payout.ForkChoice

open Lib Payout.Runtime List AList Except HeaviestSubtreeForkChoice HeaviestSubtreeForkChoice.Sample VoteLog

variable {slot hash root : Nat} {batch : List (Pubkey × SlotHashKey)}

namespace HeaviestSubtreeForkChoice

variable {tree tree' : HeaviestSubtreeForkChoice} {epochStakes : EpochStakes} {batch batch' : Batch}
  {pubkey : Pubkey} {vote best : SlotHashKey} {pubkeyVotes : List (Pubkey × SlotHashKey)}

/-! ### Latest votes -/

/-- The latest vote of a validator when it votes again. -/
def newest (root : Nat) (old : Option SlotHashKey) (vote : SlotHashKey) : Option SlotHashKey :=
  if vote.slot < root ∨ outdated vote old then old else some vote

theorem generateUpdate_latestVotes (generated : tree.generateUpdate epochStakes batch (pubkey, vote) = .ok batch') :
    batch'.latestVotes.lookup pubkey = newest tree.treeRoot.slot (batch.latestVotes.lookup pubkey) vote ∧
      ∀ other, other ≠ pubkey → batch'.latestVotes.lookup other = batch.latestVotes.lookup other := by
  simp only [generateUpdate] at generated
  unfold newest
  split_ifs at generated with rooted passed
  · cases generated
    exact ⟨(if_pos (.inl rooted)).symm, fun _ _ => rfl⟩
  · simp only [ok_iffs] at generated
    obtain ⟨-, rfl⟩ := generated
    exact ⟨(if_pos (.inr passed)).symm, fun _ _ => rfl⟩
  · simp only [ok_iffs] at generated
    obtain ⟨-, _, -, _, -, rfl⟩ := generated
    refine ⟨?_, fun other => lookup_insert_ne⟩
    rw [if_neg (not_or.mpr ⟨rooted, passed⟩)]
    exact lookup_insert _

theorem generateUpdates_latestVotes (distinct : (pubkeyVotes.map Prod.fst).Nodup)
    (generated : pubkeyVotes.foldlM (tree.generateUpdate epochStakes) batch = .ok batch') :
    (∀ pubkey vote, (pubkey, vote) ∈ pubkeyVotes →
      batch'.latestVotes.lookup pubkey = newest tree.treeRoot.slot (batch.latestVotes.lookup pubkey) vote) ∧
    ∀ other, other ∉ pubkeyVotes.map Prod.fst → batch'.latestVotes.lookup other = batch.latestVotes.lookup other := by
  induction pubkeyVotes generalizing batch with
  | nil =>
    cases generated
    exact ⟨nofun, fun _ _ => rfl⟩
  | cons first rest ih =>
    obtain ⟨firstPubkey, _⟩ := first
    rw [foldlM_cons, bind_ok_iff] at generated
    obtain ⟨_, one, others⟩ := generated
    obtain ⟨notLater, distinctRest⟩ := nodup_cons.mp distinct
    obtain ⟨voted, same⟩ := ih distinctRest others
    obtain ⟨updated, unchanged⟩ := generateUpdate_latestVotes one
    constructor
    · intro pubkey vote mem
      rcases mem_cons.mp mem with isFirst | later
      · cases isFirst
        rw [same firstPubkey notLater, updated]
      · have different : pubkey ≠ firstPubkey := by
          rintro rfl
          exact notLater (mem_map.mpr ⟨_, later, rfl⟩)
        rw [voted pubkey vote later, unchanged pubkey different]
    · intro other absent
      obtain ⟨different, absentRest⟩ := not_or.mp (mem_cons.not.mp absent)
      rw [same other absentRest, unchanged other different]

/-- After a batch, a validator's latest vote is the one in the batch, unless it had a newer one. -/
theorem addVotes_latestVotes (distinct : (pubkeyVotes.map Prod.fst).Nodup)
    (added : tree.addVotes epochStakes pubkeyVotes = .ok (tree', best)) :
    tree'.treeRoot = tree.treeRoot ∧
    (∀ pubkey vote, (pubkey, vote) ∈ pubkeyVotes → tree'.latestVotes.lookup pubkey =
      newest tree.treeRoot.slot (tree.latestVotes.lookup pubkey) vote) ∧
    ∀ other, other ∉ pubkeyVotes.map Prod.fst →
      tree'.latestVotes.lookup other = tree.latestVotes.lookup other := by
  simp only [addVotes, bind_ok_iff] at added
  obtain ⟨_, generated, _, -, _, -, result⟩ := added
  cases result
  exact ⟨rfl, generateUpdates_latestVotes distinct generated⟩

end HeaviestSubtreeForkChoice

/-! ### From the dirty set to the tree -/

open LatestValidatorVotesForFrozenBanks

/-- A vote is checked, or the dirty set is taken and counted, in the order in which its entries come. -/
inductive HandoverCall where
  | checkAddVote (votePubkey : Pubkey) (voteSlot : Nat) (frozenHash : Option Nat) (isReplayVote : Bool)
  | addVotes (root : Nat) (epochStakes : HeaviestSubtreeForkChoice.EpochStakes) (batch : List (Pubkey × SlotHashKey))

/-- A panic of either component. -/
inductive HandoverPanic where
  | votes (panic : VotePanic)
  | tree (panic : Panic)
deriving Repr, DecidableEq

/-- The votes, the tree, and all votes seen in replay that were accepted. -/
structure Handover where
  votes : LatestValidatorVotesForFrozenBanks
  tree : HeaviestSubtreeForkChoice
  accepted : List (Pubkey × SlotHashKey)

namespace Handover

def step : HandoverCall → Handover → Except HandoverPanic Handover
  | .checkAddVote pubkey slot frozenHash isReplayVote, state => do
      let (votes, added, _) ← (state.votes.checkAddVote pubkey slot frozenHash isReplayVote).mapError .votes
      .ok { state with
        votes := votes
        accepted := state.accepted ++ acceptedVote pubkey slot frozenHash isReplayVote added }
  | .addVotes root epochStakes batch, state => do
      let (tree, _) ← (state.tree.addVotes epochStakes batch).mapError .tree
      .ok { state with votes := (state.votes.takeVotesDirtySet root).2, tree := tree }

/-- Votes are for blocks of the tree. What is counted is what was taken from the dirty set, in any order; the root is
    not above that of the tree. -/
def Fits (state : Handover) : HandoverCall → Prop
  | .checkAddVote _ slot frozenHash _ => ∀ hash ∈ frozenHash,
      (state.tree.forkInfos.lookup ⟨slot, hash⟩).isSome = true
  | .addVotes root _ batch => batch.Perm (state.votes.takeVotesDirtySet root).1 ∧ root ≤ state.tree.treeRoot.slot

instance (state : Handover) (call : HandoverCall) : Decidable (state.Fits call) := by
  unfold Fits
  split <;> infer_instance

/-- The stakes at a slot are the same whenever votes are counted. -/
def SameStakes (stake : Pubkey → Nat → Nat) : HandoverCall → Prop
  | .addVotes _ epochStakes _ => epochStakes.Fixed stake
  | _ => True

/-- No vote for a second hash of a validator's latest slot. -/
def OneHash (state : Handover) : HandoverCall → Prop
  | .checkAddVote pubkey slot (some hash) true =>
    ∀ latest ∈ state.votes.maxReplayFrozenVotes.lookup pubkey, latest.1 = slot → hash ∈ latest.2
  | _ => True

instance (state : Handover) (call : HandoverCall) : Decidable (state.OneHash call) := by
  unfold OneHash
  split <;> infer_instance

/-- The latest vote of every validator in the tree is the accepted one with the greatest slot and, for that slot, the
    smallest hash. -/
def LatestVotes (state : Handover) : Prop :=
  ∀ pubkey, (state.tree.latestVotes.lookup pubkey = none → ∀ vote, (pubkey, vote) ∉ state.accepted) ∧
    ∀ latest, state.tree.latestVotes.lookup pubkey = some latest → (pubkey, latest) ∈ state.accepted ∧
      ∀ vote, (pubkey, vote) ∈ state.accepted →
        vote.slot < latest.slot ∨ (vote.slot = latest.slot ∧ latest.hash ≤ vote.hash)

/-- The latest accepted vote of a validator, and where it is. -/
structure Waiting (state : Handover) (pubkey : Pubkey) (vote : SlotHashKey) : Prop where
  known : state.votes.maxReplayFrozenVotes.lookup pubkey = some (vote.slot, [vote.hash])
  accepted : (pubkey, vote) ∈ state.accepted
  latest : ∀ other, (pubkey, other) ∈ state.accepted → other = vote ∨ other.slot < vote.slot
  present : ∃ info, state.tree.forkInfos.lookup vote = some info
  waits : (state.votes.forkChoiceDirtySet.lookup pubkey = some (vote.slot, [vote.hash]) ∧
      ∀ counted, state.tree.latestVotes.lookup pubkey = some counted → counted.slot < vote.slot) ∨
    (state.votes.forkChoiceDirtySet.lookup pubkey = none ∧
      state.tree.latestVotes.lookup pubkey = some vote)

/-- What holds while no second hash is accepted: every validator has no vote, or one that waits or was counted. -/
structure Handed (ancestry : Ancestry) (stake : Pubkey → Nat → Nat) (state : Handover) : Prop where
  sound : Sound ancestry stake state.tree
  votes : ∀ pubkey, (state.votes.maxReplayFrozenVotes.lookup pubkey = none ∧
      state.votes.forkChoiceDirtySet.lookup pubkey = none ∧ state.tree.latestVotes.lookup pubkey = none ∧
      ∀ vote, (pubkey, vote) ∉ state.accepted) ∨ ∃ vote, state.Waiting pubkey vote

section Runs

variable {ancestry : Ancestry} {stake : Pubkey → Nat → Nat} {state state' : Handover} {pubkey : Pubkey}
  {vote : SlotHashKey} {call : HandoverCall}

/-! ### A vote is checked -/

section

variable (handed : state.Handed ancestry stake)
include handed

theorem Handed.record {votes : LatestValidatorVotesForFrozenBanks}
    (older : ∀ latest hashes, state.votes.maxReplayFrozenVotes.lookup pubkey = some (latest, hashes) → latest < slot)
    (replay : votes.maxReplayFrozenVotes = state.votes.maxReplayFrozenVotes.insert pubkey (slot, [hash]))
    (dirty : votes.forkChoiceDirtySet = state.votes.forkChoiceDirtySet.insert pubkey (slot, [hash]))
    (present : ∃ info, state.tree.forkInfos.lookup ⟨slot, hash⟩ = some info) :
    Handed ancestry stake
      { state with votes := votes, accepted := state.accepted ++ [(pubkey, ⟨slot, hash⟩)] } := by
  refine ⟨handed.sound, ?_⟩
  intro other
  by_cases isPubkey : other = pubkey
  · subst isPubkey
    refine .inr ⟨⟨slot, hash⟩, ?_, mem_append.mpr (.inr (mem_singleton.mpr rfl)), ?_, present, .inl ⟨?_, ?_⟩⟩
    · dsimp only
      rw [replay, lookup_insert]
    · intro another mem
      rcases mem_append.mp mem with old | new
      · rcases handed.votes other with ⟨-, -, -, none⟩ | ⟨_, waiting⟩
        · exact absurd old (none another)
        · have less := older _ _ waiting.known
          rcases waiting.latest another old with rfl | lower
          · exact .inr less
          · exact .inr (lower.trans less)
      · exact .inl (Prod.mk.inj (mem_singleton.mp new)).2
    · dsimp only
      rw [dirty, lookup_insert]
    · intro counted isCounted
      rcases handed.votes other with ⟨-, -, none, -⟩ | ⟨_, waiting⟩
      · cases none.symm.trans isCounted
      · have less := older _ _ waiting.known
        rcases waiting.waits with ⟨-, lower⟩ | ⟨-, same⟩
        · exact (lower counted isCounted).trans less
        · cases same.symm.trans isCounted
          exact less
  · have accepted : ∀ another, (other, another) ∈ state.accepted ++ [(pubkey, ⟨slot, hash⟩)] ↔
        (other, another) ∈ state.accepted := by
      intro another
      rw [mem_append, or_iff_left]
      exact fun new => isPubkey (Prod.mk.inj (mem_singleton.mp new)).1
    have sameReplay : votes.maxReplayFrozenVotes.lookup other = state.votes.maxReplayFrozenVotes.lookup other := by
      rw [replay, lookup_insert_ne isPubkey]
    have sameDirty : votes.forkChoiceDirtySet.lookup other = state.votes.forkChoiceDirtySet.lookup other := by
      rw [dirty, lookup_insert_ne isPubkey]
    rcases handed.votes other with ⟨noReplay, noDirty, noVote, none⟩ | ⟨before, waiting⟩
    · exact .inl ⟨sameReplay.trans noReplay, sameDirty.trans noDirty, noVote,
        fun another => (accepted another).not.mpr (none another)⟩
    · refine .inr ⟨before, sameReplay.trans waiting.known, (accepted before).mpr waiting.accepted,
        fun another mem => waiting.latest another ((accepted another).mp mem), waiting.present, ?_⟩
      rw [sameDirty]
      exact waiting.waits

/-- Checking a vote succeeds and keeps every vote handed, if it is not for a second hash. -/
theorem checkAddVote_handed (fits : state.Fits (.checkAddVote pubkey slot frozenHash isReplayVote))
    (oneHash : state.OneHash (.checkAddVote pubkey slot frozenHash isReplayVote)) :
    ∃ next, step (.checkAddVote pubkey slot frozenHash isReplayVote) state = .ok next ∧ next.Handed ancestry stake := by
  have clean : state.votes.Clean pubkey := by
    intro hash latestSlot hashes slot dirty known found mem
    rcases handed.votes pubkey with ⟨none, -⟩ | ⟨_, waiting⟩
    · cases none.symm.trans known
    · cases waiting.known.symm.trans known
      rcases waiting.waits with ⟨waits, -⟩ | ⟨none, -⟩
      · cases waits.symm.trans found
        exact mem
      · cases none.symm.trans found
  obtain ⟨⟨votes, added, latest⟩, checked⟩ :
      ∃ result, state.votes.checkAddVote pubkey slot frozenHash isReplayVote = .ok result := checkAddVote_ok clean
  refine ⟨{ state with
    votes := votes
    accepted := state.accepted ++ acceptedVote pubkey slot frozenHash isReplayVote added }, ?_, ?_⟩
  · simp only [step, checked, Except.mapError, bind, Except.bind]
  rcases checkAddVote_cases checked with ⟨notAdded, replay, dirty, -⟩ | ⟨hash, rfl, rfl, rfl, recorded⟩
  · have none : acceptedVote pubkey slot frozenHash isReplayVote added = [] := by
      cases frozenHash with
      | none => rfl
      | some => simp [acceptedVote, notAdded]
    rw [none, append_nil]
    refine ⟨handed.sound, ?_⟩
    intro other
    rcases handed.votes other with old | ⟨vote, waiting⟩
    · dsimp only
      rw [replay, dirty]
      exact .inl old
    · exact .inr ⟨vote, replay ▸ waiting.known, waiting.accepted, waiting.latest, waiting.present,
        dirty ▸ waiting.waits⟩
  · cases recorded with
    | newer older replay dirty =>
      exact handed.record older replay dirty (Option.isSome_iff_exists.mp (fits hash rfl))
    | again known fresh _ _ => exact absurd (oneHash _ known rfl) fresh

/-! ### Votes are counted -/

theorem Handed.mem_taken_iff (notAbove : root ≤ state.tree.treeRoot.slot) :
    (pubkey, vote) ∈ (state.votes.takeVotesDirtySet root).1 ↔
      state.Waiting pubkey vote ∧ state.votes.forkChoiceDirtySet.lookup pubkey = some (vote.slot, [vote.hash]) := by
  rw [mem_takeVotesDirtySet]
  constructor
  · rintro ⟨-, hashes, found, mem⟩
    rcases handed.votes pubkey with ⟨-, none, -⟩ | ⟨other, waiting⟩
    · cases none.symm.trans found
    rcases waiting.waits with ⟨waits, -⟩ | ⟨none, -⟩
    · obtain ⟨slots, hashesSame⟩ := Prod.mk.inj (Option.some.inj (waits.symm.trans found))
      rw [← hashesSame, mem_singleton] at mem
      have same : vote = other := by
        cases vote
        cases other
        simp_all
      rw [same]
      exact ⟨waiting, waits⟩
    · cases none.symm.trans found
  · rintro ⟨waiting, found⟩
    obtain ⟨_, present⟩ := waiting.present
    exact ⟨notAbove.trans (handed.sound.shape.root_slot_le present), [vote.hash], found, mem_singleton.mpr rfl⟩

/-- There is one vote for each validator, and it is for a block of the tree. -/
theorem Handed.oneVoteEach (notAbove : root ≤ state.tree.treeRoot.slot)
    (batched : batch.Perm (state.votes.takeVotesDirtySet root).1) : state.tree.OneVoteEach batch := by
  have nodup : (state.votes.takeVotesDirtySet root).1.Nodup := by
    refine nodup_takeVotesDirtySet root ?_
    intro pubkey slot hashes found
    rcases handed.votes pubkey with ⟨-, none, -⟩ | ⟨_, waiting⟩
    · cases none.symm.trans found
    · rcases waiting.waits with ⟨waits, -⟩ | ⟨none, -⟩
      · cases waits.symm.trans found
        exact nodup_singleton _
      · cases none.symm.trans found
  constructor
  case distinct =>
    refine (batched.nodup_iff.mpr nodup).map_on ?_
    rintro ⟨pubkey, one⟩ oneMember ⟨pubkey', other⟩ otherMember rfl
    obtain ⟨-, foundOne⟩ := (handed.mem_taken_iff notAbove).mp (batched.mem_iff.mp oneMember)
    obtain ⟨-, foundOther⟩ := (handed.mem_taken_iff notAbove).mp (batched.mem_iff.mp otherMember)
    cases one
    cases other
    simp_all
  case present =>
    rintro ⟨pubkey, vote⟩ mem
    exact ((handed.mem_taken_iff notAbove).mp (batched.mem_iff.mp mem)).1.present

/-- The votes that were taken are counted, and then no vote waits. -/
theorem addVotes_handed {epochStakes : HeaviestSubtreeForkChoice.EpochStakes}
    (fits : state.Fits (.addVotes root epochStakes batch)) (fixed : epochStakes.Fixed stake) :
    ∃ next, step (.addVotes root epochStakes batch) state = .ok next ∧ next.Handed ancestry stake ∧
      next.votes.forkChoiceDirtySet = ∅ := by
  obtain ⟨batched, notAbove⟩ := fits
  have each := handed.oneVoteEach notAbove batched
  obtain ⟨tree, best, counted, sound, same⟩ := addVotes_sound handed.sound fixed each
  obtain ⟨-, voted, unvoted⟩ := addVotes_latestVotes each.distinct counted
  refine ⟨{ state with votes := (state.votes.takeVotesDirtySet root).2, tree := tree }, ?_, ⟨sound, ?_⟩, rfl⟩
  · simp only [step, counted, Except.mapError, bind, Except.bind]
  intro pubkey
  -- Nothing is said of validators that have nothing in the dirty set.
  have idle : state.votes.forkChoiceDirtySet.lookup pubkey = none →
      tree.latestVotes.lookup pubkey = state.tree.latestVotes.lookup pubkey := by
    intro none
    refine unvoted pubkey ?_
    intro mem
    obtain ⟨⟨_, _⟩, taken, rfl⟩ := mem_map.mp mem
    have found := ((handed.mem_taken_iff notAbove).mp (batched.mem_iff.mp taken)).2
    cases none.symm.trans found
  rcases handed.votes pubkey with ⟨noReplay, noDirty, noVote, none⟩ | ⟨vote, waiting⟩
  · exact .inl ⟨noReplay, rfl, (idle noDirty).trans noVote, none⟩
  obtain ⟨info, present⟩ := waiting.present
  have counts : tree.latestVotes.lookup pubkey = some vote := by
    rcases waiting.waits with ⟨waits, lower⟩ | ⟨noDirty, isCounted⟩
    · have taken := batched.mem_iff.mpr ((handed.mem_taken_iff notAbove).mpr ⟨waiting, waits⟩)
      rw [voted pubkey vote taken, newest, if_neg]
      rintro (below | passed)
      · exact absurd (handed.sound.shape.root_slot_le present) (not_le.mpr below)
      cases old : state.tree.latestVotes.lookup pubkey with
      | none =>
        rw [old] at passed
        exact passed
      | some before =>
        rw [old] at passed
        have less := lower before old
        rcases passed with newer | ⟨sameSlot, -⟩
        · omega
        · omega
    · exact (idle noDirty).trans isCounted
  obtain ⟨info', present', -⟩ := same.symm.lookup present
  exact .inr ⟨vote, waiting.known, waiting.accepted, waiting.latest, ⟨info', present'⟩, .inr ⟨rfl, counts⟩⟩

/-- When no vote waits, the latest votes in the tree are those that were accepted last. -/
theorem Handed.latestVotes (empty : state.votes.forkChoiceDirtySet = ∅) : state.LatestVotes := by
  intro pubkey
  rcases handed.votes pubkey with ⟨-, -, noVote, none⟩ | ⟨_, waiting⟩
  · exact ⟨fun _ => none, fun latest found => nomatch noVote.symm.trans found⟩
  rcases waiting.waits with ⟨waits, -⟩ | ⟨-, isCounted⟩
  · rw [empty] at waits
    cases waits
  refine ⟨fun none => (nomatch isCounted.symm.trans none), ?_⟩
  intro latest found
  cases isCounted.symm.trans found
  refine ⟨waiting.accepted, ?_⟩
  intro other mem
  rcases waiting.latest other mem with rfl | lower
  · exact .inr ⟨rfl, le_rfl⟩
  · exact .inl lower

/-! ### Runs -/

theorem step_handed (fits : state.Fits call) (oneHash : state.OneHash call) (same : SameStakes stake call) :
    ∃ next, step call state = .ok next ∧ next.Handed ancestry stake := by
  cases call with
  | checkAddVote => exact checkAddVote_handed handed fits oneHash
  | addVotes =>
    obtain ⟨next, succeeded, handed', -⟩ := addVotes_handed handed fits same
    exact ⟨next, succeeded, handed'⟩

end

/-- From any tree without votes: in every run in which no vote for a second hash of a validator's latest slot is
    checked, no call panics, and after a batch was counted the latest vote of every validator is the accepted one with
    the greatest slot and the smallest hash. -/
theorem handed_over (ancestry : Ancestry) (stake : Pubkey → Nat → Nat) (root : SlotHashKey)
    {first tree : HeaviestSubtreeForkChoice} {built : List HeaviestSubtreeForkChoice.Call}
    {calls : List HandoverCall} (created : HeaviestSubtreeForkChoice.new root = .ok first)
    (grown : Run HeaviestSubtreeForkChoice.step (fun tree call => HeaviestSubtreeForkChoice.Fits ancestry tree
      call ∧ HeaviestSubtreeForkChoice.SameStakes stake call) first built tree)
    (noVotes : tree.latestVotes = ∅)
    (run : Run step (fun state call => (state.Fits call ∧ state.OneHash call) ∧ SameStakes stake call)
      { votes := .default, tree := tree, accepted := [] } calls state) :
    (∀ call, state.Fits call → state.OneHash call → SameStakes stake call → ∃ next, step call state = .ok next) ∧
    ∀ takenRoot epochStakes batch next, state.Fits (.addVotes takenRoot epochStakes batch) →
      epochStakes.Fixed stake → step (.addVotes takenRoot epochStakes batch) state = .ok next → next.LatestVotes := by
  have handed : state.Handed ancestry stake := by
    refine run.invariant (P := Handed ancestry stake) ?_ ⟨sound_of_run created grown, ?_⟩
    · rintro state call state' handed ⟨⟨fits, oneHash⟩, same⟩ taken
      obtain ⟨_, succeeded, handed'⟩ := step_handed handed fits oneHash same
      cases succeeded.symm.trans taken
      exact handed'
    · intro pubkey
      exact .inl ⟨rfl, rfl, by rw [noVotes]; rfl, nofun⟩
  constructor
  · intro call fits oneHash same
    obtain ⟨next, succeeded, -⟩ := step_handed handed fits oneHash same
    exact ⟨next, succeeded⟩
  · intro takenRoot epochStakes batch next fits fixed taken
    obtain ⟨_, succeeded, handed', empty⟩ := addVotes_handed handed fits fixed
    cases succeeded.symm.trans taken
    exact handed'.latestVotes empty

end Runs

/-! ### Two hashes of one slot -/

namespace Sample

open HeaviestSubtreeForkChoice.Sample (block stake epochStakes)

/-- Two versions of one slot on top of the first block, and a block on top of one of them. -/
def versions : Ancestry where
  parent key :=
    if key = { slot := 5, hash := 1 } then some (block 0)
    else if key = { slot := 5, hash := 2 } then some (block 0)
    else if key = { slot := 6, hash := 3 } then some { slot := 5, hash := 2 }
    else none
  older := by
    intro key above known
    split_ifs at known with one two three
    all_goals
      cases known
      subst_vars
      decide

def built : List HeaviestSubtreeForkChoice.Call :=
  [.addNewLeafSlot { slot := 5, hash := 1 } (block 0), .addNewLeafSlot { slot := 5, hash := 2 } (block 0),
    .addNewLeafSlot { slot := 6, hash := 3 } { slot := 5, hash := 2 }]

theorem built_fit : (exec HeaviestSubtreeForkChoice.step (HeaviestSubtreeForkChoice.Fits versions) built
    start).isSome = true := by decide +kernel

def tree : HeaviestSubtreeForkChoice :=
  (exec HeaviestSubtreeForkChoice.step (HeaviestSubtreeForkChoice.Fits versions) built
    start).get built_fit

theorem tree_grown : Run HeaviestSubtreeForkChoice.step (fun tree call =>
    HeaviestSubtreeForkChoice.Fits versions tree call ∧ HeaviestSubtreeForkChoice.SameStakes stake call)
    start built tree := by
  refine (run_exec_get built_fit).restrict ?_
  simp [built, HeaviestSubtreeForkChoice.SameStakes]

def start : Handover := { votes := .default, tree := tree, accepted := [] }

/-- Two validators vote, one of them after its first vote was counted. -/
def calls : List HandoverCall :=
  [.checkAddVote 7 5 (some 1) true, .checkAddVote 8 5 (some 1) false, .addVotes 0 epochStakes [(7, ⟨5, 1⟩)],
    .checkAddVote 8 5 (some 2) true, .checkAddVote 7 6 (some 3) true]

theorem calls_fit : (exec step (fun state call => state.Fits call ∧ state.OneHash call) calls start).isSome = true := by
  decide +kernel

def reached : Handover := (exec step (fun state call => state.Fits call ∧ state.OneHash call) calls start).get calls_fit

theorem reached_run : Run step (fun state call => (state.Fits call ∧ state.OneHash call) ∧ SameStakes stake call) start
    calls reached := by
  refine (run_exec_get calls_fit).restrict ?_
  simp [calls, SameStakes, HeaviestSubtreeForkChoice.EpochStakes.Fixed,
    HeaviestSubtreeForkChoice.EpochStakes.stakeAt, epochStakes]

/-- A validator votes for both versions, and the votes are taken together. -/
def together : List HandoverCall := [.checkAddVote 7 5 (some 1) true, .checkAddVote 7 5 (some 2) true]

/-- The vote for the version with the smaller hash comes after the other one was counted. -/
def apart : List HandoverCall :=
  [.checkAddVote 7 5 (some 2) true, .addVotes 0 epochStakes [(7, ⟨5, 2⟩)], .checkAddVote 7 5 (some 1) true,
    .addVotes 0 epochStakes [(7, ⟨0, 1⟩)]]

theorem apart_fits : (exec step Fits apart start).isSome = true := by decide +kernel

end Sample

open Sample

/-- In the sample run both validators have their latest votes in the tree once the last batch was counted. -/
theorem handed_over_sample : ∃ next,
    step (.addVotes 0 epochStakes [(7, ⟨6, 3⟩), (8, ⟨5, 2⟩)]) reached = .ok next ∧
    next.LatestVotes ∧ next.tree.latestVotes.lookup 7 = some ⟨6, 3⟩ ∧
    next.tree.latestVotes.lookup 8 = some ⟨5, 2⟩ := by
  have fits : reached.Fits
      (.addVotes 0 epochStakes [(7, ⟨6, 3⟩), (8, ⟨5, 2⟩)]) := by decide +kernel
  have fixed : epochStakes.Fixed stake :=
    fun _ _ => rfl
  obtain ⟨succeeds, latest⟩ := handed_over versions stake
    (block 0) rfl tree_grown (ext (by decide +kernel)) reached_run
  obtain ⟨next, succeeded⟩ := succeeds _ fits trivial fixed
  have votes : (step (.addVotes 0 epochStakes [(7, ⟨6, 3⟩), (8, ⟨5, 2⟩)])
      reached).toOption.map (fun next =>
        (next.tree.latestVotes.lookup 7, next.tree.latestVotes.lookup 8)) =
      some (some ⟨6, 3⟩, some ⟨5, 2⟩) := by decide +kernel
  rw [succeeded] at votes
  obtain ⟨seven, eight⟩ := Prod.mk.inj (Option.some.inj votes)
  exact ⟨next, succeeded, latest _ _ _ next fits fixed succeeded, seven, eight⟩

/-- Two versions of one slot that are taken together make the fork choice panic. Taken apart, the second one is handed
    over for slot zero and does not become the latest vote, though its hash is smaller. -/
theorem second_hash_panics_or_is_lost :
    (∃ state, Run step Fits start together state ∧
      (state.votes.takeVotesDirtySet 0).1 = [(7, ⟨5, 1⟩), (7, ⟨5, 2⟩)] ∧
      (step (.addVotes 0 epochStakes (state.votes.takeVotesDirtySet 0).1) state).isOk = false) ∧
    ∃ state, Run step Fits start apart state ∧
      state.accepted = [(7, ⟨5, 2⟩), (7, ⟨5, 1⟩)] ∧ state.tree.latestVotes.lookup 7 = some ⟨5, 2⟩ ∧
      ¬ state.LatestVotes := by
  constructor
  · exact ⟨_, run_exec_get (by decide +kernel), by decide +kernel, by decide +kernel⟩
  let state := (exec step Fits apart start).get apart_fits
  have accepted : state.accepted = [(7, ⟨5, 2⟩), (7, ⟨5, 1⟩)] := by decide +kernel
  have isLatest : state.tree.latestVotes.lookup 7 = some ⟨5, 2⟩ := by decide +kernel
  refine ⟨state, run_exec_get apart_fits, accepted, isLatest, ?_⟩
  intro latest
  have smaller := ((latest 7).2 _ isLatest).2 ⟨5, 1⟩ (by simp [accepted])
  simp at smaller

end Handover

end Payout.ForkChoice
