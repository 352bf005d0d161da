/-
Purpose: The stake program neither creates nor destroys lamports, and stake is backed by them, in every run. An
  account in the cooldown may be drawn down to its effective stake; its delegation then promises more than the account
  holds.
-/
import Payout.StakeProofs.Exposure

namespace Payout.StakeProgram

section

open Lib Payout.Runtime State

variable {key : Pubkey} {account new split : Account AccountData}

/-! ### Lamports are conserved -/

section Conservation

variable {api : Interface} {invoke : InvokeContext} {context : InstructionContext}
  {instruction : StakeInstruction} {accounts accounts' : StakeAccounts}

/-- Overwriting one account moves the total by the difference of its lamports. -/
theorem totalLamports_insert (new) (present : accounts.lookup key = some old) :
    totalLamports (accounts.insert key new) + old.lamports = totalLamports accounts + new.lamports :=
  Store.total_insert_of_present present

theorem totalLamports_rewrite (present : accounts.lookup key = some account) :
    totalLamports (accounts.insert key { account with data }) = totalLamports accounts := by
  have moved := totalLamports_insert { account with data } present
  exact Nat.add_right_cancel moved

theorem totalLamports_move (distinct : other ≠ key) (present : accounts.lookup key = some old)
    (presentOther : accounts.lookup other = some oldOther)
    (balanced : new.lamports + newOther.lamports = old.lamports + oldOther.lamports) :
    totalLamports ((accounts.insert key new).insert other newOther) = totalLamports accounts := by
  have first := totalLamports_insert new present
  have still : (accounts.insert key new).lookup other = some oldOther :=
    (AList.lookup_insert_ne distinct).trans presentOther
  have second := totalLamports_insert newOther still
  omega

theorem totalLamports_split (distinct : splitKey ≠ key) (found : accounts.lookup key = some source)
    (foundSplit : accounts.lookup splitKey = some split) (enough : lamports ≤ source.lamports)
    (left : Store.Same accounts' ((accounts.insert key (drained source lamports state)).insert splitKey
      { split with lamports := split.lamports + lamports, data })) :
    totalLamports accounts' = totalLamports accounts := by
  refine (left.total_eq).trans (totalLamports_move distinct found foundSplit ?_)
  simp only [drained]
  omega

/-- No instruction changes the lamports of all accounts together. -/
theorem totalLamports_step (step : Step api invoke context accounts instruction accounts') :
    totalLamports accounts' = totalLamports accounts := by
  cases step with
  | initialized held | authorized held | lockupSet held | delegated held | redelegated held
  | deactivated held => exact totalLamports_rewrite held.found
  | splitStake distinct held heldSplit _ _ valid _ _ _ left
  | splitInitialized distinct held heldSplit _ _ valid left =>
    exact totalLamports_split distinct held.found heldSplit.found (validateSplitAmount_ok valid).1 left
  | splitUninitialized held heldSplit _ enough left =>
    refine left.total_eq.trans ?_
    split
    · rfl
    · rename_i distinct
      refine totalLamports_move distinct held.found heldSplit.found ?_
      dsimp only
      omega
  | merged distinct held heldSource =>
    refine totalLamports_move distinct heldSource.found held.found ?_
    dsimp only
    omega
  | stakeMoved shared _ _ covers | lamportsMoved shared _ _ _ covers =>
    refine totalLamports_move shared.distinct shared.held.found shared.heldDestination.found ?_
    dsimp only
    omega
  | @withdrawn _ _ _ account paid receiver _ _ _ lamports _ _ held _ _ _ taken foundReceiver =>
    have drawn : paid.lamports + lamports = account.lamports := by
      rcases taken with ⟨rfl, -, rfl⟩ | ⟨enough, rfl⟩
      · exact Nat.zero_add _
      · exact Nat.sub_add_cancel (Nat.le_of_add_right_le enough)
    have first := totalLamports_insert paid held.found
    have second := totalLamports_insert { receiver with lamports := receiver.lamports + lamports }
      foundReceiver
    dsimp only at second
    omega

/-- What an action adds to the lamports of all accounts together. -/
theorem totalLamports_apply (taken : apply api action state = .ok state') :
    totalLamports state'.accounts = totalLamports state.accounts + action.inflow := by
  cases action with
  | instruction =>
    obtain ⟨_, processed, rfl⟩ := by
      simpa only [apply, ok_iffs] using taken
    exact totalLamports_step (step_of_processInstruction processed)
  | donate key lamports =>
    simp only [apply, ok_iffs] at taken
    obtain ⟨account, found, _, ⟨-, rfl⟩, rfl⟩ := taken
    have moved := totalLamports_insert { account with lamports := account.lamports + lamports } found
    dsimp only [Action.inflow] at moved ⊢
    omega
  | reward key stakeReward creditsObserved =>
    simp only [apply, ok_iffs] at taken
    obtain ⟨account, found, -, new, credited, rfl⟩ := taken
    obtain ⟨metadata, stake, stakeFlags, -, same⟩ := buildUpdatedStakeReward_ok credited
    have moved := totalLamports_insert new found
    have grown : new.lamports = account.lamports + stakeReward := congrArg Account.lamports same
    dsimp only [Action.inflow]
    omega
  | advance =>
    simp only [apply, ok_iffs] at taken
    obtain ⟨-, rfl⟩ := taken
    rfl

/-- The lamports of all accounts together change only by donations and rewards. -/
theorem totalLamports_run {guard : State → Action → Prop} (run : Run (apply api) guard start actions reached) :
    totalLamports reached.accounts = totalLamports start.accounts + (actions.map Action.inflow).sum := by
  induction run with
  | refl => simp
  | cons _ taken _ ih =>
    rw [ih, totalLamports_apply taken, List.map_cons, List.sum_cons, Nat.add_assoc]

end Conservation

end

open Lib Payout.Runtime State

variable {account : Account AccountData} {epoch : Epoch} {metadata : Meta} {stake : Stake} {active epochs later : Nat}
  {delegation : Delegation}

/-! ### Whole runs -/

/-- The metadata and the stake of a delegated account. -/
def delegated? (account : Account AccountData) : Option (Meta × Stake) :=
  match account.data with
  | .stake (.stake metadata stake _) => some (metadata, stake)
  | _ => none

theorem delegated?_eq_some :
    delegated? account = some (metadata, stake) ↔
      ∃ stakeFlags, account.data = .stake (.stake metadata stake stakeFlags) := by
  unfold delegated?
  split <;> simp_all

/-- A deactivated account that holds less than its delegation and its reserve. -/
def Uncovered (account : Account AccountData) : Prop :=
  ∃ delegated ∈ delegated? account, delegated.2.delegation.deactivationEpoch ≠ u64Max ∧
    account.lamports < delegated.2.delegation.stake + delegated.1.rentExemptReserve

instance (account : Account AccountData) : Decidable (Uncovered account) :=
  inferInstanceAs (Decidable (∃ _ ∈ _, _))

/-- The actions that leave uncovered accounts as they are: none of them is split in part or rewarded, or delegated
    again while it is effective. Epochs stay below `u64::MAX`, which stands for a delegation that is not
    deactivated. -/
def SparesUncovered (api : Interface) (state : State) : Action → Prop
  | .instruction _ (.delegateStake stakeAccount _) =>
    ∀ account ∈ state.accounts.lookup stakeAccount, Uncovered account →
      ∀ delegated ∈ delegated? account, api.stake delegated.2.delegation state.invoke.clock.epoch = 0
  | .instruction _ (.split stakeAccount _ lamports) =>
    ∀ account ∈ state.accounts.lookup stakeAccount, lamports ≠ account.lamports → ¬ Uncovered account
  | .reward stakeAccount _ _ => ∀ account ∈ state.accounts.lookup stakeAccount, ¬ Uncovered account
  | .advance invoke => invoke.clock.epoch < u64Max
  | _ => True

instance (api : Interface) (state : State) (action : Action) : Decidable (SparesUncovered api state action) := by
  unfold SparesUncovered
  split <;> infer_instance

section Runs

variable {api : Interface} {invoke : InvokeContext} {context : InstructionContext}
  {instruction : StakeInstruction} {accounts accounts' : StakeAccounts}

theorem covered_of_spared (held : account.data = .stake (.stake metadata stake stakeFlags))
    (spared : ¬ Uncovered account) (deactivated : stake.delegation.deactivationEpoch ≠ u64Max) :
    stake.delegation.stake + metadata.rentExemptReserve ≤ account.lamports := by
  by_contra less
  exact spared ⟨(metadata, stake), delegated?_eq_some.mpr ⟨stakeFlags, held⟩, deactivated, Nat.lt_of_not_le less⟩

/-- Every stake account is sound. -/
abbrev AllSound (api : Interface) (epoch : Epoch) (accounts : StakeAccounts) : Prop :=
  accounts.All fun _ account => AccountSound api epoch account

theorem AllSound.write (all : AllSound api epoch accounts) (sound : AccountSound api epoch account) :
    AllSound api epoch (accounts.insert key account) :=
  Store.all_insert sound fun k v _ => all k v

theorem AllSound.sound (all : AllSound api epoch accounts) (held : Held accounts key account state) :
    Sound api epoch account.lamports state :=
  all _ _ held.found held.owned _ held.data

/-- Every instruction leaves sound accounts sound, if it spares those that are uncovered. -/
theorem allSound_step (documented : api.Documented) (early : invoke.clock.epoch < u64Max)
    (all : AllSound api invoke.clock.epoch accounts)
    (spares : SparesUncovered api ⟨accounts, invoke⟩ (.instruction context instruction))
    (step : Step api invoke context accounts instruction accounts') :
    AllSound api invoke.clock.epoch accounts' := by
  cases step with
  | initialized held funded => exact all.write (.of_state rfl ⟨rfl, funded⟩)
  | authorized held has =>
    exact all.write (.of_state rfl ((all.sound held).withMeta has rfl))
  | lockupSet held has set =>
    obtain ⟨_, rfl⟩ := documented.setLockup_ok _ _ _ _ _ set
    exact all.write (.of_state rfl ((all.sound held).withMeta has rfl))
  | delegated held checked enough =>
    have sound := all.sound held
    exact all.write (.of_state rfl ((backed_of_lamports sound.1 enough).sound _))
  | redelegated held checked enough taken =>
    have sound := all.sound held
    have covered := fun deactivated (effective : _ ≠ _) => covered_of_spared held.data
      (fun uncovered => effective (spares _ held.found uncovered _ (delegated?_eq_some.mpr ⟨_, held.data⟩))) deactivated
    exact all.write (.of_state rfl (sound.redelegated early covered enough taken))
  | deactivated held taken =>
    exact all.write (.of_state rfl ((all.sound held).deactivated documented taken))
  | splitStake distinct held heldSplit sized checked valid amounts enough
      parted left =>
      have sound := all.sound held
      have covered := fun partial' => covered_of_spared held.data (spares _ held.found partial')
      have something := (getMinimumDelegation_pos _).trans_le enough
      refine left.all ((all.write (.of_state rfl ?_)).write (.of_state rfl ?_))
      · exact sound.splitRest documented valid amounts parted covered
      · exact sound.splitPart documented valid amounts parted sized something
  | splitInitialized distinct held heldSplit sized checked valid left =>
    have sound := all.sound held
    refine left.all ((all.write (.of_state rfl ?_)).write (.of_state rfl ?_))
    · exact sound.splitUndelegated documented valid
    · obtain ⟨-, -, covered, rfl⟩ := validateSplitAmount_ok valid
      have reserves : api.minimumBalance _ = api.reserve := congrArg api.minimumBalance sized
      have least := le_saturatingAdd (b := 0) (documented.minimumBalance_le api.sizeOf)
      rw [sized] at covered
      exact ⟨reserves, least.trans covered⟩
  | splitUninitialized held heldSplit signed enough left =>
    refine left.all ?_
    split
    · exact all
    · refine (all.write ?_).write ?_
      · exact .of_state held.data trivial
      · exact (all _ _ heldSplit.found).deposit _
  | merged distinct held heldSource kind checked sourceKind merged =>
    have sound := all.sound held
    have sourceSound := all.sound heldSource
    refine (all.write ?_).write ?_
    · exact .of_state rfl trivial
    · exact .of_state rfl (sound.merged documented early sourceSound kind sourceKind (MergeKind.merge_ok merged).2)
  | stakeMoved shared enough received covers =>
    obtain ⟨_, -, backed⟩ := backed_of_activeStake documented (all.sound shared.held) shared.kind rfl
    have destinationSound := all.sound shared.heldDestination
    refine (all.write (.of_state rfl (backed.remaining enough covers))).write (.of_state rfl ?_)
    exact (backed.received documented early destinationSound shared.kind' received).sound _
  | lamportsMoved shared something free enough =>
    have sound := all.sound shared.held
    refine (all.write ?_).write ?_
    · exact .of_state shared.held.data (sound.freed documented early shared.kind free something enough)
    · exact (all _ _ shared.heldDestination.found).deposit _
  | @withdrawn key _ _ _ paid _ _ _ _ _ _ _ held signed reserved unlocked taken foundReceiver =>
    have sound := all.sound held
    have paidSound : AccountSound api invoke.clock.epoch paid := by
      rcases taken with ⟨-, -, rfl⟩ | ⟨enough, rfl⟩
      · exact .of_state rfl trivial
      · exact .of_state held.data (sound.withdrawn early reserved (Nat.le_sub_of_add_le' enough))
    -- the recipient may be the account itself, already drawn down
    have afterPayment : AllSound api invoke.clock.epoch (accounts.insert key paid) := all.write paidSound
    exact afterPayment.write ((afterPayment _ _ foundReceiver).deposit _)

/-- The invariant of every run that spares uncovered accounts. -/
structure Backing (api : Interface) (state : State) : Prop where
  early : state.invoke.clock.epoch < u64Max
  sound : AllSound api state.invoke.clock.epoch state.accounts

/-- Every action that spares uncovered accounts keeps all stake accounts sound. -/
theorem backing_step (documented : api.Documented) (backing : Backing api state)
    (spares : SparesUncovered api state action) (taken : apply api action state = .ok state') :
    Backing api state' := by
  cases action with
  | instruction =>
    obtain ⟨_, processed, rfl⟩ := by
      simpa only [apply, ok_iffs] using taken
    have step := step_of_processInstruction processed
    exact ⟨backing.early, allSound_step documented backing.early backing.sound spares step⟩
  | donate key lamports =>
    simp only [apply, ok_iffs] at taken
    obtain ⟨_, found, _, ⟨-, rfl⟩, rfl⟩ := taken
    exact ⟨backing.early, backing.sound.write ((backing.sound _ _ found).deposit lamports)⟩
  | reward =>
    simp only [apply, ok_iffs] at taken
    obtain ⟨_, found, owned, _, credited, rfl⟩ := taken
    obtain ⟨_, _, _, held, rfl⟩ := buildUpdatedStakeReward_ok credited
    have sound := backing.sound _ _ found owned _ held
    have covered := covered_of_spared held (spares _ found)
    exact ⟨backing.early, backing.sound.write (.of_state rfl (sound.rewarded documented covered))⟩
  | advance =>
    simp only [apply, ok_iffs, not_or, not_lt] at taken
    obtain ⟨⟨forward, -⟩, rfl⟩ := taken
    refine ⟨spares, backing.sound.mono fun key account _ sound owned state held => ?_⟩
    exact (sound owned state held).later documented forward

/-- Accounts before any of them was initialized. -/
def Fresh (state : State) : Prop :=
  state.accounts.All fun _ account =>
    account.owner = .stake → account.data = .stake .uninitialized ∨ account.data = .other

instance (state : State) : Decidable (Fresh state) := inferInstanceAs (Decidable (Store.All _ _))

theorem Fresh.backing (fresh : Fresh state) (early : state.invoke.clock.epoch < u64Max) : Backing api state := by
  refine ⟨early, fresh.mono fun key account _ empty owned stakeState held => ?_⟩
  rcases empty owned with isEmpty | isOther
  · exact AccountSound.of_state isEmpty trivial owned stakeState held
  · cases isOther.symm.trans held

/-- A delegated stake account holds its reserve and its whole delegation, or, once it is deactivated, its
    reserve and what is effective of its delegation. -/
def Backed (api : Interface) (epoch : Epoch) (account : Account AccountData) : Prop :=
  account.owner = .stake → ∀ delegated ∈ delegated? account,
    (delegated.2.delegation.deactivationEpoch = u64Max →
      delegated.2.delegation.stake + delegated.1.rentExemptReserve ≤ account.lamports) ∧
    (delegated.2.delegation.deactivationEpoch ≠ u64Max →
      api.stake delegated.2.delegation epoch + delegated.1.rentExemptReserve ≤ account.lamports)

theorem AccountSound.backed (sound : AccountSound api epoch account) : Backed api epoch account := by
  rintro owned ⟨metadata, stake⟩ isDelegated
  obtain ⟨_, held⟩ := delegated?_eq_some.mp isDelegated
  obtain ⟨reserve, -, covers⟩ := sound owned _ held
  rw [← reserve] at covers
  constructor
  · intro active
    rwa [exposure_of_active active] at covers
  · intro deactivated
    rwa [exposure_of_deactivated deactivated] at covers

end Runs

/-! ### Samples -/

namespace Sample

/-- A stake warms up in two epochs, by half of it in each. -/
def grow (stake : Nat) : Nat → Nat
  | 0 => 0
  | 1 => stake / 2
  | _ + 2 => stake

/-- A stake cools down in two epochs, by half of it in each. -/
def fade (active : Nat) : Nat → Nat
  | 0 => active
  | 1 => active / 2
  | _ + 2 => 0

/-- What is active of a delegation that is not deactivated. -/
def warmed (delegation : Delegation) (epoch : Epoch) : Nat :=
  grow delegation.stake (epoch - delegation.activationEpoch)

/-- What is still effective of a delegation that is deactivated. -/
def cooled (delegation : Delegation) (epoch : Epoch) : Nat :=
  fade (warmed delegation delegation.deactivationEpoch) (epoch - delegation.deactivationEpoch)

/-- The status under a stake history by which every stake warms up and cools down in two epochs. -/
def status (delegation : Delegation) (epoch : Epoch) : StakeActivationStatus :=
  if epoch < delegation.deactivationEpoch then
    { effective := warmed delegation epoch
      activating := if epoch < delegation.activationEpoch then 0 else delegation.stake - warmed delegation epoch
      deactivating := 0 }
  else
    { effective := cooled delegation epoch, activating := 0, deactivating := cooled delegation epoch }

theorem grow_le (stake epochs) : grow stake epochs ≤ stake := by
  rcases epochs with _ | _ | _ <;> simp only [grow] <;> omega

theorem fade_le (active epochs) : fade active epochs ≤ active := by
  rcases epochs with _ | _ | _ <;> simp only [fade] <;> omega

theorem fade_antitone (le : epochs ≤ later) : fade active later ≤ fade active epochs := by
  rcases epochs with _ | _ | _ <;> rcases later with _ | _ | _ <;> simp only [fade] <;> omega

def isInForce (lockup : Lockup) (clock : Clock) (custodian : Option Pubkey) : Bool :=
  decide (custodian ≠ some lockup.custodian ∧
    (clock.unixTimestamp < lockup.unixTimestamp ∨ clock.epoch < lockup.epoch))

def check (authorized : Authorized) (signers : Finset Pubkey) : StakeAuthorize → Except Error Unit
  | .staker => rejectIf (authorized.staker ∉ signers) .missingRequiredSignature
  | .withdrawer => rejectIf (authorized.withdrawer ∉ signers) .missingRequiredSignature

/-- An interface with the rent of the main network. Authorities and lockups stay as they are initialized. -/
def api : Interface where
  sizeOf := 200
  serializedSize
    | .uninitialized => 4
    | .initialized _ => 124
    | .stake _ _ _ => 197
    | .rewardsPool => 4
  minimumBalance dataLen := min ((128 + dataLen) * 6960) u64Max
  stakeActivatingAndDeactivating := status
  split stake remainingStakeDelta splitStakeAmount :=
    if stake.delegation.stake < remainingStakeDelta then .error .insufficientStake
    else .ok (stake.withAmount (stake.delegation.stake - remainingStakeDelta),
      stake.withAmount splitStakeAmount)
  deactivate stake epoch :=
    if stake.delegation.deactivationEpoch ≠ u64Max then .error .alreadyDeactivated
    else .ok (stake.deactivatedAt epoch)
  check := check
  authorize _ _ _ _ _ := .error .missingRequiredSignature
  setLockup _ _ _ _ := .error .missingRequiredSignature
  isInForce := isInForce
  createWithSeed _ _ _ := .error .invalidArgument
  acceptableReferenceEpochCredits _ _ := false
  eligibleForDeactivateDelinquent _ _ := false

theorem stake_of_lt (before : epoch < delegation.deactivationEpoch) :
    api.stake delegation epoch = warmed delegation epoch := by
  simp [Interface.stake, api, status, before]

theorem stake_of_le (after : delegation.deactivationEpoch ≤ epoch) :
    api.stake delegation epoch = cooled delegation epoch := by
  simp [Interface.stake, api, status, Nat.not_lt.mpr after]

theorem documented : api.Documented where
  minimumBalance_le dataLen := min_le_right _ _
  stake_le delegation epoch := by
    rcases Nat.lt_or_ge epoch delegation.deactivationEpoch with before | after
    · rw [stake_of_lt before]
      exact grow_le _ _
    · rw [stake_of_le after]
      exact (fade_le _ _).trans (grow_le _ _)
  warmup delegation epoch begun before := by
    have le : warmed delegation epoch ≤ delegation.stake := grow_le _ _
    simp only [api, status, if_pos before, if_neg (Nat.not_lt.mpr begun)]
    exact ⟨Nat.add_sub_of_le le, trivial⟩
  cooldown delegation epoch after := by
    rw [stake_of_le after]
    simp [api, status, Nat.not_lt.mpr after]
  stake_antitone delegation epoch later after le := by
    rw [stake_of_le after, stake_of_le (after.trans le)]
    exact fade_antitone (Nat.sub_le_sub_right le _)
  split_ok stake remainingStakeDelta splitStakeAmount rest part parted := by
    simp only [api] at parted
    split at parted
    · simp at parted
    · rename_i enough
      simp only [Except.ok.injEq, Prod.mk.injEq] at parted
      exact ⟨Nat.le_of_not_lt enough, parted.1.symm, parted.2.symm⟩
  deactivate_ok stake epoch deactivated taken := by
    simp only [api] at taken
    split at taken
    · simp at taken
    · rename_i active
      exact ⟨not_not.mp active, (Except.ok.inj taken).symm⟩
  setLockup_ok _ _ _ _ _ taken := by simp [api] at taken

/-- The stake account 1 with a hundred lamports beyond its reserve, the vote account 2, the wallet 3 and the
    empty stake account 5, which has its reserve. Everything is signed by 4. -/
def start : State where
  accounts := ((((∅ : StakeAccounts).insert 1
      { lamports := 2282980, owner := .stake, dataLen := 200, data := .stake .uninitialized }).insert 2
      { lamports := 1, owner := .vote, dataLen := 3762, data := .vote { credits := 0, epochCredits := [] } }).insert 3
      { lamports := 0, owner := .system, dataLen := 0, data := .other }).insert 5
      { lamports := 2282880, owner := .stake, dataLen := 200, data := .stake .uninitialized }
  invoke :=
    { clock := { epoch := 0, unixTimestamp := 0 }
      epochRewardsActive := false
      isStakeRaiseMinimumDelegationTo1SolActive := false }

def signed (instruction : StakeInstruction) : Action :=
  .instruction { signers := {4}, writable := {1, 3, 5} } instruction

def wait (epoch : Epoch) : Action :=
  .advance { start.invoke with clock := { epoch, unixTimestamp := 0 } }

/-- Account 1 is delegated in epoch 0. -/
def delegating : List Action :=
  [signed (.initializeAccount 1 { staker := 4, withdrawer := 4 } Lockup.default), signed (.delegateStake 1 2)]

/-- In epoch 1 half of the stake is effective. It is deactivated, the other half is withdrawn, and the
    deactivation is taken back. -/
def rescinding : List Action :=
  delegating ++
    [wait 1, signed (.deactivate 1), signed (.withdraw 1 3 4 none 50), signed (.delegateStake 1 2)]

/-- The stake is deactivated in epoch 2, when all of it is effective. In epoch 3 half of it is left, the other
    half is withdrawn, and a part is split off. -/
def splitting : List Action :=
  delegating ++
    [wait 2, signed (.deactivate 1), wait 3, signed (.withdraw 1 3 4 none 50), signed (.split 1 5 40)]

/-- The stake is rewarded, split while it is covered, deactivated and drawn down. -/
def running : List Action :=
  delegating ++
    [wait 2, .reward 1 10 7, signed (.split 1 5 60), signed (.deactivate 1), wait 3,
      signed (.withdraw 1 3 4 none 25), .donate 3 1]

/-- The condition of unrestricted runs. -/
def anything (_ : State) (_ : Action) : Prop := True

instance (state : State) (action : Action) : Decidable (anything state action) :=
  inferInstanceAs (Decidable True)

end Sample

open Sample

end Payout.StakeProgram
