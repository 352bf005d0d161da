/-
Purpose: What one accepted instruction of the stake program does, said once. `Step` has a constructor for every way an
  instruction can succeed, with the checks that were passed and the accounts it leaves; `step_of_processInstruction`
  shows that it says everything the program can do.
-/
import Payout.StakeProgram.StakeInstruction

namespace Payout.StakeProgram

open Lib Payout.Runtime AList BorrowedAccount MergeKind Store.Same Option Except

variable {context : InstructionContext} {instruction : StakeInstruction} {state : StakeStateV2} {api : Interface}
  {account new source destination : StakeAccount} {accounts accounts' paid : StakeAccounts}
  {authorityBase authorityOwner voteAccount splitKey recipient withdrawAuthority : Pubkey} {authoritySeed : String}
  {metadata sourceMeta : Meta} {minimumDelegation remainingStakeDelta splitStakeAmount reserve : Nat}
  {info : ValidatedSplitInfo}

variable {key newAuthority stakeAccount stakeAuthority : Pubkey} {me : StakeAccount}
  {change : StakeAccount → Except Error StakeAccount} {signers : Finset Pubkey} {stakeAuthorize : StakeAuthorize}
  {custodian : Option Pubkey} {lamports : Nat}

/-! ### Reading and writing states -/

@[simp] theorem getState_eq_ok {account : Account AccountData} :
    getState account = .ok state ↔ account.data = .stake state := by
  unfold getState
  split <;> simp_all

@[simp] theorem setState_ok_iff : setState api account state = .ok new ↔
      account.isWritable = true ∧ account.owner = .stake ∧
        api.serializedSize state ≤ account.dataLen ∧ { account with data := .stake state } = new := by
  simp only [setState, BorrowedAccount.setState, ok_iffs, Bool.not_eq_false, not_lt]

theorem getStakeAccount_eq_ok :
    getStakeAccount context accounts key = .ok me ↔
      ∃ account, accounts.lookup key = some account ∧ account.owner = .stake ∧
        { account with key, isWritable := decide (key ∈ context.writable) } = me := by
  simp only [getStakeAccount, tryBorrow_eq_ok, ok_iffs]
  constructor
  · rintro ⟨_, ⟨account, found, rfl⟩, owned, rfl⟩
    exact ⟨account, found, owned, rfl⟩
  · rintro ⟨account, found, owned, rfl⟩
    exact ⟨_, ⟨account, found, rfl⟩, owned, rfl⟩

theorem onStakeAccount_eq_ok :
    onStakeAccount context accounts key change = .ok accounts' ↔
      ∃ account new, accounts.lookup key = some account ∧ account.owner = .stake ∧
        change { account with key, isWritable := decide (key ∈ context.writable) } = .ok new ∧
        accounts' = release accounts new := by
  simp only [onStakeAccount, getStakeAccount_eq_ok, ok_iffs]
  constructor
  · rintro ⟨_, ⟨account, found, owned, rfl⟩, new, changed, rfl⟩
    exact ⟨account, new, found, owned, changed, rfl⟩
  · rintro ⟨account, new, found, owned, changed, rfl⟩
    exact ⟨_, ⟨account, found, owned, rfl⟩, new, changed, rfl⟩

theorem onStakeAccount_of_rejectIf [Decidable condition] {error : Error}
    (taken : onStakeAccount context accounts key (fun me => do rejectIf condition error; change me) = .ok accounts') :
    onStakeAccount context accounts key change = .ok accounts' := by
  obtain ⟨account, new, found, owned, ran, rfl⟩ := onStakeAccount_eq_ok.mp taken
  obtain ⟨_, -, ran⟩ := bind_ok_iff.mp ran
  exact onStakeAccount_eq_ok.mpr ⟨account, new, found, owned, ran, rfl⟩

/-! ### What an instruction can do -/

/-- The base, the seed and the owner by which an instruction derives a signer. -/
def StakeInstruction.seed? : StakeInstruction → Option (Pubkey × String × Pubkey)
  | .authorizeWithSeed _ authorityBase authoritySeed authorityOwner _ _ _ =>
    some (authorityBase, authoritySeed, authorityOwner)
  | .authorizeCheckedWithSeed _ authorityBase authoritySeed authorityOwner _ _ _ =>
    some (authorityBase, authoritySeed, authorityOwner)
  | _ => none

/-- The signers that an instruction derives from a seed. -/
def derivedSigners (api : Interface) (context : InstructionContext) (instruction : StakeInstruction) :
    Finset Pubkey :=
  match instruction.seed? with
  | some (authorityBase, authoritySeed, authorityOwner) =>
    match seedSigners api context authorityBase authoritySeed authorityOwner with
    | .ok signers => signers
    | .error _ => ∅
  | none => ∅

/-- The keys whose signature an instruction shows, directly or through a seed. -/
def presented (api : Interface) (context : InstructionContext) (instruction : StakeInstruction) : Finset Pubkey :=
  context.signers ∪ derivedSigners api context instruction

theorem signers_subset_presented : context.signers ⊆ presented api context instruction :=
  Finset.subset_union_left

theorem seedSigners_subset_presented (seeded : instruction.seed? = some (authorityBase, authoritySeed, authorityOwner))
    (derived : seedSigners api context authorityBase authoritySeed authorityOwner = .ok signers) :
    signers ⊆ presented api context instruction := by
  have same : derivedSigners api context instruction = signers := by
    simp only [derivedSigners, seeded, derived]
  exact same ▸ Finset.subset_union_right

/-- An account after lamports were moved out of it: closed when they were all. -/
def drained (account : Account AccountData) (lamports : Nat) (state : StakeStateV2) : Account AccountData :=
  { account with
    lamports := account.lamports - lamports
    data := .stake (if lamports = account.lamports then .uninitialized else state) }

/-- A stake account under a key, and its state. -/
structure Held (accounts : StakeAccounts) (key : Pubkey) (account : Account AccountData) (state : StakeStateV2) :
    Prop where
  found : accounts.lookup key = some account
  owned : account.owner = .stake
  data : account.data = .stake state

section

variable (api : Interface) (invoke : InvokeContext) (context : InstructionContext) (accounts : StakeAccounts)

/-- What is checked of two accounts before stake or lamports are moved from one to the other. -/
structure SharedChecked (sourceKey destinationKey stakeAuthority : Pubkey) (source destination : Account AccountData)
    (state destinationState : StakeStateV2) (sourceKind destinationKind : MergeKind) : Prop where
  distinct : destinationKey ≠ sourceKey
  held : Held accounts sourceKey source state
  heldDestination : Held accounts destinationKey destination destinationState
  signed : stakeAuthority ∈ context.signers
  kind : getIfMergeable api state source.lamports invoke.clock = .ok sourceKind
  checked : api.check sourceKind.metadata.authorized {stakeAuthority} .staker = .ok ()
  kind' : getIfMergeable api destinationState destination.lamports invoke.clock = .ok destinationKind
  alike : metasCanMerge api sourceKind.metadata destinationKind.metadata invoke.clock = .ok ()

/-- What an accepted instruction can do to the accounts. -/
inductive Step : StakeInstruction → StakeAccounts → Prop where
  | initialized {instruction key account authorized lockup}
      (held : Held accounts key account .uninitialized) (funded : api.reserve ≤ account.lamports) :
      Step instruction (accounts.insert key { account with
        data := .stake (.initialized { rentExemptReserve := api.reserve, authorized, lockup }) })
  | authorized {instruction key account state metadata signers newAuthority stakeAuthorize custodian authorized}
      (held : Held accounts key account state) (has : state.metadata? = some metadata)
      (signed : signers ⊆ presented api context instruction)
      (changed : api.authorize metadata.authorized signers newAuthority stakeAuthorize
        (metadata.lockup, invoke.clock, custodian) = .ok authorized) :
      Step instruction (accounts.insert key { account with
        data := .stake (state.withMeta { metadata with authorized }) })
  | lockupSet {instruction key account state metadata changed lockup}
      (held : Held accounts key account state) (has : state.metadata? = some metadata)
      (set : api.setLockup metadata lockup context.signers invoke.clock = .ok changed) :
      Step instruction (accounts.insert key { account with
        data := .stake (state.withMeta changed) })
  | delegated {key account metadata voteAccount voteState}
      (held : Held accounts key account (.initialized metadata))
      (checked : api.check metadata.authorized context.signers .staker = .ok ())
      (enough : invoke.minimumDelegation ≤ account.lamports - metadata.rentExemptReserve) :
      Step (.delegateStake key voteAccount)
        (accounts.insert key { account with
          data := .stake (.stake metadata (newStake (account.lamports - metadata.rentExemptReserve)
            voteAccount voteState invoke.clock.epoch) StakeFlags.empty) })
  | redelegated {key account metadata stake restaked stakeFlags voteAccount voteState}
      (held : Held accounts key account (.stake metadata stake stakeFlags))
      (checked : api.check metadata.authorized context.signers .staker = .ok ())
      (enough : invoke.minimumDelegation ≤ account.lamports - metadata.rentExemptReserve)
      (taken : redelegateStake api invoke stake (account.lamports - metadata.rentExemptReserve)
        voteAccount voteState = .ok restaked) :
      Step (.delegateStake key voteAccount)
        (accounts.insert key { account with
          data := .stake (.stake metadata restaked stakeFlags) })
  | deactivated {instruction key account metadata stake stopped stakeFlags}
      (held : Held accounts key account (.stake metadata stake stakeFlags))
      (taken : api.deactivate stake invoke.clock.epoch = .ok stopped) :
      Step instruction (accounts.insert key { account with
        data := .stake (.stake metadata stopped stakeFlags) })
  | splitStake {key splitKey source split metadata stake rest part stakeFlags lamports remainingStakeDelta
      splitStakeAmount info accounts'}
      (distinct : splitKey ≠ key)
      (held : Held accounts key source (.stake metadata stake stakeFlags))
      (heldSplit : Held accounts splitKey split .uninitialized) (sized : split.dataLen = api.sizeOf)
      (checked : api.check metadata.authorized context.signers .staker = .ok ())
      (valid : validateSplitAmount api source split lamports metadata invoke.minimumDelegation
        (decide (0 < api.stake stake.delegation invoke.clock.epoch)) = .ok info)
      (amounts : splitStakeAmounts info metadata stake split.lamports lamports invoke.minimumDelegation =
        .ok (remainingStakeDelta, splitStakeAmount))
      (enough : invoke.minimumDelegation ≤ splitStakeAmount)
      (parted : api.split stake remainingStakeDelta splitStakeAmount = .ok (rest, part))
      (left : Store.Same accounts'
        ((accounts.insert key (drained source lamports (.stake metadata rest stakeFlags))).insert splitKey
          { split with
            lamports := split.lamports + lamports
            data := .stake (.stake
              { metadata with rentExemptReserve := info.destinationRentExemptReserve } part stakeFlags) })) :
      Step (.split key splitKey lamports) accounts'
  | splitInitialized {key splitKey source split metadata lamports info accounts'}
      (distinct : splitKey ≠ key)
      (held : Held accounts key source (.initialized metadata))
      (heldSplit : Held accounts splitKey split .uninitialized) (sized : split.dataLen = api.sizeOf)
      (checked : api.check metadata.authorized context.signers .staker = .ok ())
      (valid : validateSplitAmount api source split lamports metadata 0 false = .ok info)
      (left : Store.Same accounts'
        ((accounts.insert key (drained source lamports (.initialized metadata))).insert splitKey
          { split with
            lamports := split.lamports + lamports
            data := .stake (.initialized
              { metadata with rentExemptReserve := info.destinationRentExemptReserve }) })) :
      Step (.split key splitKey lamports) accounts'
  | splitUninitialized {key splitKey source split lamports accounts'}
      (held : Held accounts key source .uninitialized)
      (heldSplit : Held accounts splitKey split .uninitialized) (signed : key ∈ context.signers)
      (enough : lamports ≤ source.lamports)
      (left : Store.Same accounts' (if splitKey = key then accounts else
        (accounts.insert key { source with lamports := source.lamports - lamports }).insert splitKey
          { split with lamports := split.lamports + lamports })) :
      Step (.split key splitKey lamports) accounts'
  | merged {key sourceKey account source state sourceState stakeMergeKind sourceMergeKind mergedState}
      (distinct : key ≠ sourceKey)
      (held : Held accounts key account state)
      (heldSource : Held accounts sourceKey source sourceState)
      (kind : getIfMergeable api state account.lamports invoke.clock = .ok stakeMergeKind)
      (checked : api.check stakeMergeKind.metadata.authorized context.signers .staker = .ok ())
      (sourceKind : getIfMergeable api sourceState source.lamports invoke.clock = .ok sourceMergeKind)
      (merged : stakeMergeKind.merge api sourceMergeKind invoke.clock = .ok mergedState) :
      Step (.merge key sourceKey)
        ((accounts.insert sourceKey { source with lamports := 0, data := .stake .uninitialized }).insert key
          { account with
            lamports := account.lamports + source.lamports
            data := .stake (mergedState.getD state) })
  | stakeMoved {sourceKey destinationKey stakeAuthority source destination state destinationState lamports sourceMeta
      destinationMeta sourceStake destinationStake destinationMergeKind}
      (shared : SharedChecked api invoke context accounts sourceKey destinationKey stakeAuthority source destination
        state destinationState (.fullyActive sourceMeta sourceStake) destinationMergeKind)
      (enough : lamports ≤ sourceStake.delegation.stake)
      (received : receivedStake sourceStake lamports invoke.minimumDelegation destinationMergeKind =
        .ok (destinationMeta, destinationStake))
      (covers : sourceMeta.rentExemptReserve + lamports ≤ source.lamports) :
      Step (.moveStake sourceKey destinationKey stakeAuthority lamports)
        ((accounts.insert sourceKey { source with
            lamports := source.lamports - lamports
            data := .stake (remainingState sourceMeta sourceStake
              (sourceStake.delegation.stake - lamports)) }).insert destinationKey
          { destination with
            lamports := destination.lamports + lamports
            data := .stake (.stake destinationMeta destinationStake StakeFlags.empty) })
  | lamportsMoved {sourceKey destinationKey stakeAuthority source destination state destinationState lamports
      sourceFreeLamports sourceMergeKind destinationMergeKind}
      (shared : SharedChecked api invoke context accounts sourceKey destinationKey stakeAuthority source destination
        state destinationState sourceMergeKind destinationMergeKind)
      (something : lamports ≠ 0)
      (free : freeLamports source sourceMergeKind = .ok sourceFreeLamports)
      (enough : lamports ≤ sourceFreeLamports) (covers : lamports ≤ source.lamports) :
      Step (.moveLamports sourceKey destinationKey stakeAuthority lamports)
        ((accounts.insert sourceKey { source with lamports := source.lamports - lamports }).insert destinationKey
          { destination with lamports := destination.lamports + lamports })
  | withdrawn {key recipient withdrawAuthority account paid receiver state lockup reserve lamports isStaked custodian}
      (held : Held accounts key account state) (signed : withdrawAuthority ∈ context.signers)
      (reserved : withdrawReserve api invoke key {withdrawAuthority} state = .ok (lockup, reserve, isStaked))
      (unlocked : api.isInForce lockup invoke.clock
        (custodian.filter fun key => decide (key ∈ context.signers)) = false)
      (taken : (lamports = account.lamports ∧ isStaked = false ∧
          paid = { account with lamports := 0, data := .stake .uninitialized }) ∨
        (lamports + reserve ≤ account.lamports ∧
          paid = { account with lamports := account.lamports - lamports }))
      (foundReceiver : (accounts.insert key paid).lookup recipient = some receiver) :
      Step (.withdraw key recipient withdrawAuthority custodian lamports)
        ((accounts.insert key paid).insert recipient
          { receiver with lamports := receiver.lamports + lamports })

end

section Instructions

variable {invoke : InvokeContext}

/-! ### Instructions on one account -/

theorem initializeAccount_step
    (taken : onStakeAccount context accounts key (initializeAccount api · authorized lockup) = .ok accounts') :
    Step api invoke context accounts instruction accounts' := by
  obtain ⟨account, new, found, owned, opened, rfl⟩ := onStakeAccount_eq_ok.mp taken
  simp only [initializeAccount, ok_iffs, getState_eq_ok] at opened
  obtain ⟨sized, state, held, opened⟩ := opened
  cases state with
  | uninitialized =>
    simp only at opened
    split at opened
    · rename_i funded
      simp only [setState_ok_iff] at opened
      obtain ⟨-, -, -, rfl⟩ := opened
      have reserve : api.minimumBalance account.dataLen = api.reserve :=
        congrArg api.minimumBalance sized
      simp only [reserve] at funded ⊢
      exact .initialized ⟨found, owned, held⟩ funded
    · simp at opened
  | _ => simp at opened

/-- What `authorize` leaves behind: the state with other authorities. -/
theorem authorize_ok
    (taken : authorize api invoke account signers newAuthority stakeAuthorize custodian = .ok new) :
    ∃ state metadata authorized, account.data = .stake state ∧ state.metadata? = some metadata ∧
      api.authorize metadata.authorized signers newAuthority stakeAuthorize
        (metadata.lockup, invoke.clock, custodian) = .ok authorized ∧
      new = { account with data := .stake (state.withMeta { metadata with authorized }) } := by
  simp only [authorize, bind_ok_iff, getState_eq_ok] at taken
  obtain ⟨state, held, taken⟩ := taken
  cases state with
  | stake metadata stake stakeFlags | initialized metadata =>
    simp only [bind_ok_iff, setState_ok_iff] at taken
    obtain ⟨authorized, changed, -, -, -, rfl⟩ := taken
    exact ⟨_, metadata, authorized, held, rfl, changed, rfl⟩
  | _ => simp at taken

theorem authorize_step (signed : signers ⊆ presented api context instruction)
    (taken : onStakeAccount context accounts key
      (authorize api invoke · signers newAuthority stakeAuthorize custodian) = .ok accounts') :
    Step api invoke context accounts instruction accounts' := by
  obtain ⟨_, _, found, owned, ran, rfl⟩ := onStakeAccount_eq_ok.mp taken
  obtain ⟨_, _, authorized, held, has, changed, rfl⟩ := authorize_ok ran
  exact .authorized ⟨found, owned, held⟩ has signed changed

theorem authorizeWithSeed_step (seedOf : instruction.seed? = some (authorityBase, authoritySeed, authorityOwner))
    (taken : onStakeAccount context accounts key
      (authorizeWithSeed api invoke context · authorityBase authoritySeed authorityOwner newAuthority stakeAuthorize
      custodian) = .ok accounts') :
    Step api invoke context accounts instruction accounts' := by
  obtain ⟨account, new, found, owned, ran, rfl⟩ := onStakeAccount_eq_ok.mp taken
  simp only [authorizeWithSeed, bind_ok_iff] at ran
  obtain ⟨_, seeded, ran⟩ := ran
  have signed := seedSigners_subset_presented seedOf seeded
  exact authorize_step signed (onStakeAccount_eq_ok.mpr ⟨account, new, found, owned, ran, rfl⟩)

theorem setLockup_step {lockup : LockupArgs}
    (taken : onStakeAccount context accounts key (setLockup api invoke context · lockup) = .ok accounts') :
    Step api invoke context accounts instruction accounts' := by
  obtain ⟨_, _, found, owned, ran, rfl⟩ := onStakeAccount_eq_ok.mp taken
  simp only [setLockup, bind_ok_iff, getState_eq_ok] at ran
  obtain ⟨state, held, ran⟩ := ran
  cases state with
  | initialized metadata | stake metadata stake stakeFlags =>
    simp only [bind_ok_iff, setState_ok_iff] at ran
    obtain ⟨_, set, -, -, -, rfl⟩ := ran
    exact .lockupSet ⟨found, owned, held⟩ rfl set
  | _ => simp at ran

theorem deactivate_step
    (taken : onStakeAccount context accounts key (deactivate api invoke context) = .ok accounts') :
    Step api invoke context accounts instruction accounts' := by
  obtain ⟨_, _, found, owned, ran, rfl⟩ := onStakeAccount_eq_ok.mp taken
  simp only [deactivate, bind_ok_iff, getState_eq_ok] at ran
  obtain ⟨state, held, ran⟩ := ran
  cases state with
  | stake =>
    simp only [bind_ok_iff, asInstructionError_eq_ok, setState_ok_iff] at ran
    obtain ⟨-, -, _, stops, -, -, -, rfl⟩ := ran
    exact .deactivated ⟨found, owned, held⟩ stops
  | _ => simp at ran

/-! ### Delegating, and stopping a delegation to a delinquent -/

theorem delegate_step (mine : getStakeAccount context accounts stakeAccount = .ok me)
    (taken : delegate api invoke context accounts stakeAccount voteAccount = .ok accounts') :
    Step api invoke context accounts (.delegateStake stakeAccount voteAccount) accounts' := by
  obtain ⟨_, found, owned, rfl⟩ := getStakeAccount_eq_ok.mp mine
  simp only [delegate, ok_iffs] at taken
  obtain ⟨_, -, -, updated⟩ := taken
  obtain ⟨_, change, rfl⟩ := update_of_found found updated
  simp only [bind_ok_iff, getState_eq_ok] at change
  obtain ⟨state, held, ran⟩ := change
  cases state with
  | initialized =>
    simp only [ok_iffs, validateDelegatedAmount, not_lt, setState_ok_iff] at ran
    obtain ⟨_, checked, _, ⟨enough, rfl⟩, _, -, -, -, -, rfl⟩ := ran
    exact .delegated ⟨found, owned, held⟩ checked enough
  | stake =>
    simp only [ok_iffs, validateDelegatedAmount, not_lt, asInstructionError_eq_ok, setState_ok_iff] at ran
    obtain ⟨_, checked, _, ⟨enough, rfl⟩, _, -, _, restakes, -, -, -, rfl⟩ := ran
    exact .redelegated ⟨found, owned, held⟩ checked enough restakes
  | _ => simp at ran

theorem deactivateDelinquent_step (mine : getStakeAccount context accounts stakeAccount = .ok me)
    (taken : deactivateDelinquent api invoke context accounts stakeAccount delinquentVoteAccount referenceVoteAccount =
      .ok accounts') :
    Step api invoke context accounts instruction accounts' := by
  obtain ⟨_, found, owned, rfl⟩ := getStakeAccount_eq_ok.mp mine
  simp only [deactivateDelinquent, ok_iffs] at taken
  obtain ⟨-, _, -, -, _, -, -, _, -, -, _, -, -, updated⟩ := taken
  obtain ⟨_, change, rfl⟩ := update_of_found found updated
  simp only [bind_ok_iff, getState_eq_ok] at change
  obtain ⟨state, held, ran⟩ := change
  cases state with
  | stake =>
    simp only [ok_iffs] at ran
    obtain ⟨-, ran⟩ := ran
    split at ran
    · simp only [bind_ok_iff, asInstructionError_eq_ok, setState_ok_iff] at ran
      obtain ⟨_, stops, -, -, -, rfl⟩ := ran
      exact .deactivated ⟨found, owned, held⟩ stops
    · simp at ran
  | _ => simp at ran

/-! ### Split -/

theorem validateSplitAmount_ok {source destination : Account AccountData}
    (taken : validateSplitAmount api source destination lamports sourceMeta additionalRequiredLamports sourceIsActive =
      .ok info) :
    lamports ≤ source.lamports ∧
      (source.lamports - lamports = 0 ∨
        saturatingAdd 64 sourceMeta.rentExemptReserve additionalRequiredLamports ≤ source.lamports - lamports) ∧
      saturatingAdd 64 (api.minimumBalance destination.dataLen) additionalRequiredLamports ≤
        destination.lamports + lamports ∧
      info = { sourceRemainingBalance := source.lamports - lamports
               destinationRentExemptReserve := api.minimumBalance destination.dataLen } := by
  simp only [validateSplitAmount, ok_iffs, not_lt] at taken
  obtain ⟨-, enough, kept, -, covered, rfl⟩ := taken
  exact ⟨enough, by omega, by omega, rfl⟩

/-- What a split moves: everything but the reserve of a source that is closed, and otherwise the lamports
    asked for, less what the new account lacks of its reserve. -/
theorem splitStakeAmounts_ok
    (taken : splitStakeAmounts info metadata stake splitLamportBalance lamports minimumDelegation =
      .ok (remainingStakeDelta, splitStakeAmount)) :
    (info.sourceRemainingBalance = 0 ∧ remainingStakeDelta = lamports - metadata.rentExemptReserve ∧
        splitStakeAmount = lamports - metadata.rentExemptReserve) ∨
      (info.sourceRemainingBalance ≠ 0 ∧ minimumDelegation ≤ stake.delegation.stake - lamports ∧
        remainingStakeDelta = lamports ∧
        splitStakeAmount = lamports - (info.destinationRentExemptReserve - splitLamportBalance)) := by
  unfold splitStakeAmounts at taken
  split at taken
  · rename_i closes
    simp only [ok.injEq, Prod.mk.injEq] at taken
    obtain ⟨rfl, rfl⟩ := taken
    exact .inl ⟨closes, rfl, rfl⟩
  · rename_i stays
    split at taken
    · simp at taken
    · rename_i least
      simp only [ok.injEq, Prod.mk.injEq] at taken
      obtain ⟨rfl, rfl⟩ := taken
      exact .inr ⟨stays, Nat.le_of_not_lt least, rfl, rfl⟩

theorem deinitializeIfDrained_ok (held : account.data = .stake state)
    (taken : deinitializeIfDrained api lamports account = .ok new) :
    new = { account with
      data := .stake (if lamports = account.lamports then .uninitialized else state) } := by
  unfold deinitializeIfDrained at taken
  split at taken
  · rename_i all
    simp only [setState_ok_iff] at taken
    obtain ⟨-, -, -, rfl⟩ := taken
    simp only [if_pos all]
  · rename_i some
    cases taken
    rw [if_neg some, ← held]

/-- The lamports of a split move last, from a source that is closed if they are all it has. -/
theorem split_moves {source split : Account AccountData} {closed : StakeAccounts} (distinct : splitKey ≠ key)
    (found : accounts.lookup key = some source) (held : source.data = .stake state)
    (foundSplit : accounts.lookup splitKey = some split)
    (close : update context accounts key (deinitializeIfDrained api lamports) = .ok closed)
    (pay : update (E := StakeError) context closed splitKey (·.checkedAddLamports .stake lamports) = .ok paid)
    (take : update (E := StakeError) context paid key (·.checkedSubLamports .stake lamports) = .ok accounts') :
    Store.Same accounts' ((accounts.insert key (drained source lamports state)).insert splitKey
      { split with lamports := split.lamports + lamports }) := by
  obtain ⟨_, closes, rfl⟩ := update_of_found found close
  obtain rfl := deinitializeIfDrained_ok held closes
  obtain ⟨_, pays, rfl⟩ := update_of_found ((lookup_insert_ne distinct).trans foundSplit) pay
  obtain ⟨-, -, rfl⟩ := checkedAddLamports_eq_ok.mp pays
  obtain ⟨_, takes, rfl⟩ := update_of_found ((lookup_insert_ne distinct.symm).trans (lookup_insert _)) take
  obtain ⟨-, -, -, rfl⟩ := checkedSubLamports_eq_ok.mp takes
  exact (overwrite distinct.symm).trans (insert_comm distinct)

/-- Lamports that an account pays to itself stay where they are. -/
theorem split_returns {source : Account AccountData} {closed : StakeAccounts}
    (found : accounts.lookup key = some source) (held : source.data = .stake .uninitialized)
    (close : update context accounts key (deinitializeIfDrained api lamports) = .ok closed)
    (pay : update (E := StakeError) context closed key (·.checkedAddLamports .stake lamports) = .ok paid)
    (take : update (E := StakeError) context paid key (·.checkedSubLamports .stake lamports) = .ok accounts') :
    Store.Same accounts' accounts := by
  obtain ⟨_, closes, rfl⟩ := update_of_found found close
  obtain rfl := deinitializeIfDrained_ok held closes
  obtain ⟨_, pays, rfl⟩ := update_of_found (lookup_insert _) pay
  obtain ⟨-, -, rfl⟩ := checkedAddLamports_eq_ok.mp pays
  obtain ⟨_, takes, rfl⟩ := update_of_found (lookup_insert _) take
  obtain ⟨-, -, -, rfl⟩ := checkedSubLamports_eq_ok.mp takes
  intro k
  simp only [release, Store.lookup_insert_eq_ite]
  by_cases atKey : k = key
  · rw [atKey, if_pos rfl, found, ite_self, ← held, Nat.add_sub_cancel]
  · simp only [if_neg atKey]

theorem split_step (mine : getStakeAccount context accounts stakeAccount = .ok me)
    (taken : split api invoke context accounts stakeAccount lamports splitAccount = .ok accounts') :
    Step api invoke context accounts (.split stakeAccount splitAccount lamports) accounts' := by
  obtain ⟨source, found, owned, rfl⟩ := getStakeAccount_eq_ok.mp mine
  simp only [StakeProgram.split, ok_iffs, tryBorrow_eq_ok, getState_eq_ok, not_lt] at taken
  obtain ⟨_, ⟨split, foundSplit, rfl⟩, ownedSplit, sized, _, heldSplit, rfl, _, ⟨_, found', rfl⟩, enough,
    state, held, middle, states, closed, close, paid, pay, take⟩ := taken
  cases found.symm.trans found'
  -- the account split off is another one, unless both are uninitialized
  have distinct (initialized : state ≠ .uninitialized) : splitAccount ≠ stakeAccount := by
    rintro rfl
    cases found.symm.trans foundSplit
    exact initialized (AccountData.stake.inj (held.symm.trans heldSplit))
  cases state with
  | stake =>
    have distinct := distinct (by simp)
    simp only [splitStates, ok_iffs, Prod.exists, asInstructionError_eq_ok, not_lt] at states
    obtain ⟨_, checked, info, valid, remainingStakeDelta, splitStakeAmount, amounts, least, rest, part, parted,
      written, write, writeSplit⟩ := states
    obtain ⟨_, writes, rfl⟩ := update_of_found found write
    obtain ⟨-, -, -, rfl⟩ := setState_ok_iff.mp writes
    obtain ⟨_, writesSplit, rfl⟩ := update_of_found ((lookup_insert_ne distinct).trans foundSplit) writeSplit
    obtain ⟨-, -, -, rfl⟩ := setState_ok_iff.mp writesSplit
    have moved := split_moves distinct ((lookup_insert_ne distinct.symm).trans (lookup_insert _)) rfl (lookup_insert _)
      close pay take
    refine .splitStake distinct ⟨found, owned, held⟩ ⟨foundSplit, ownedSplit, heldSplit⟩ sized checked valid amounts
      least parted (moved.trans ?_)
    -- of the writes of either account only the last counts
    exact ((overwrite distinct.symm).insert _ _).trans (overwrite distinct)
  | initialized =>
    have distinct := distinct (by simp)
    simp only [splitStates, bind_ok_iff] at states
    obtain ⟨_, checked, _, valid, write⟩ := states
    obtain ⟨_, writes, rfl⟩ := update_of_found foundSplit write
    obtain ⟨-, -, -, rfl⟩ := setState_ok_iff.mp writes
    have moved := split_moves distinct ((lookup_insert_ne distinct.symm).trans found) held
      (lookup_insert _) close pay take
    refine .splitInitialized distinct ⟨found, owned, held⟩ ⟨foundSplit, ownedSplit, heldSplit⟩ sized checked valid
      (moved.trans ?_)
    exact overwrite distinct
  | uninitialized =>
    simp only [splitStates, ok_iffs] at states
    obtain ⟨signed, rfl⟩ := states
    refine .splitUninitialized ⟨found, owned, held⟩ ⟨foundSplit, ownedSplit, heldSplit⟩ signed enough ?_
    split
    · rename_i same
      subst same
      exact split_returns found held close pay take
    · rename_i distinct
      have moved := split_moves distinct found held foundSplit close pay take
      simpa only [drained, ite_self, ← held] using moved
  | rewardsPool => simp [splitStates] at states

/-! ### Merge and move -/

theorem setStateIfSome_ok (held : account.data = .stake state)
    (taken : setStateIfSome api account written = .ok new) :
    new = { account with data := .stake (written.getD state) } := by
  cases written with
  | none =>
    cases taken
    rw [getD_none, ← held]
  | some =>
    obtain ⟨-, -, -, rfl⟩ := setState_ok_iff.mp taken
    rfl

theorem merge_step (mine : getStakeAccount context accounts stakeAccount = .ok me)
    (taken : merge api invoke context accounts stakeAccount sourceAccount = .ok accounts') :
    Step api invoke context accounts (.merge stakeAccount sourceAccount) accounts' := by
  obtain ⟨_, found, owned, rfl⟩ := getStakeAccount_eq_ok.mp mine
  simp only [merge, ok_iffs, tryBorrow_eq_ok, getState_eq_ok] at taken
  obtain ⟨_, ⟨source, foundSource, rfl⟩, ownedSource, distinct, _, ⟨_, found', rfl⟩, state, held,
    stakeMergeKind, kind, _, checked, sourceState, heldSource, sourceMergeKind, sourceKind, mergedState, merged,
    written, write, emptied, empty, drainedSource, drain, credited, credit, rfl⟩ := taken
  cases found.symm.trans found'
  obtain rfl := setStateIfSome_ok held write
  obtain ⟨-, -, -, rfl⟩ := setState_ok_iff.mp empty
  obtain ⟨-, -, -, rfl⟩ := checkedSubLamports_eq_ok.mp drain
  obtain ⟨-, -, rfl⟩ := checkedAddLamports_eq_ok.mp credit
  simp only [release, Nat.sub_self]
  exact .merged distinct ⟨found, owned, held⟩ ⟨foundSource, ownedSource, heldSource⟩ kind checked sourceKind merged

theorem sharedChecks_ok (found : accounts.lookup source.key = some source.toAccount)
    (foundDestination : accounts.lookup destination.key = some destination.toAccount)
    (distinct : destination.key ≠ source.key)
    (taken : moveStakeOrLamportsSharedChecks api invoke context source lamports destination stakeAuthority =
      .ok (sourceKind, destinationKind)) :
    lamports ≠ 0 ∧ ∃ state destinationState, SharedChecked api invoke context accounts source.key destination.key
      stakeAuthority source.toAccount destination.toAccount state destinationState sourceKind destinationKind := by
  simp only [moveStakeOrLamportsSharedChecks, ok_iffs, getState_eq_ok, not_or] at taken
  obtain ⟨signed, ⟨owned, ownedDestination⟩, -, -, something, state, held, kind, isKind, _, checked,
    destinationState, heldDestination, destinationKind, isDestinationKind, _, alike, same⟩ := taken
  cases same
  exact ⟨something, state, destinationState, distinct, ⟨found, owned, held⟩,
    ⟨foundDestination, ownedDestination, heldDestination⟩, signed, isKind, checked, isDestinationKind, alike⟩

theorem moveStake_step
    (taken : moveStake api invoke context accounts sourceAccount lamports destinationAccount stakeAuthority =
      .ok accounts') :
    Step api invoke context accounts (.moveStake sourceAccount destinationAccount stakeAuthority lamports)
      accounts' := by
  simp only [moveStake, ok_iffs, tryBorrow_eq_ok] at taken
  obtain ⟨_, ⟨source, found, rfl⟩, distinct, _, ⟨destination, foundDestination, rfl⟩, ⟨sourceKind,
    destinationMergeKind⟩, shared, -, taken⟩ := taken
  obtain ⟨-, _, _, shared⟩ := sharedChecks_ok found foundDestination distinct shared
  cases sourceKind with
  | fullyActive =>
    simp only [ok_iffs, Prod.exists, not_or, not_lt] at taken
    obtain ⟨_, ⟨enough, rfl⟩, -, destinationMeta, destinationStake, received, written, write, writtenSource,
      writeSource, paidSource, pay, paid, receive, ⟨covers, -⟩, rfl⟩ := taken
    obtain ⟨-, -, -, rfl⟩ := setState_ok_iff.mp write
    obtain ⟨-, -, -, rfl⟩ := setState_ok_iff.mp writeSource
    obtain ⟨le, -, -, rfl⟩ := checkedSubLamports_eq_ok.mp pay
    obtain ⟨-, -, rfl⟩ := checkedAddLamports_eq_ok.mp receive
    simp only [release]
    exact .stakeMoved shared enough received (Nat.add_le_of_le_sub le covers)
  | _ => simp at taken

theorem moveLamports_step
    (taken : moveLamports api invoke context accounts sourceAccount lamports destinationAccount stakeAuthority =
      .ok accounts') :
    Step api invoke context accounts (.moveLamports sourceAccount destinationAccount stakeAuthority lamports)
      accounts' := by
  simp only [moveLamports, ok_iffs, tryBorrow_eq_ok, not_lt] at taken
  obtain ⟨_, ⟨source, found, rfl⟩, distinct, _, ⟨destination, foundDestination, rfl⟩, kinds, shared,
    sourceFreeLamports, free, enough, paid, pay, received, receive, rfl⟩ := taken
  obtain ⟨something, _, _, shared⟩ := sharedChecks_ok found foundDestination distinct shared
  obtain ⟨covers, -, -, rfl⟩ := checkedSubLamports_eq_ok.mp pay
  obtain ⟨-, -, rfl⟩ := checkedAddLamports_eq_ok.mp receive
  simp only [release]
  exact .lamportsMoved shared something free enough covers

/-! ### Withdraw -/

theorem withdrawFrom_ok (taken : withdrawFrom api account lamports reserve isStaked = .ok new) :
    new.key = account.key ∧
      ((lamports = account.lamports ∧ isStaked = false ∧
          new.toAccount = { account.toAccount with lamports := 0, data := .stake .uninitialized }) ∨
        (lamports + reserve ≤ account.lamports ∧
          new.toAccount = { account.toAccount with lamports := account.lamports - lamports })) := by
  unfold withdrawFrom at taken
  split at taken
  · rename_i all
    simp only [ok_iffs, Bool.not_eq_true] at taken
    obtain ⟨unstaked, _, empty, pay⟩ := taken
    obtain ⟨-, -, -, rfl⟩ := setState_ok_iff.mp empty
    obtain ⟨-, -, -, rfl⟩ := checkedSubLamports_eq_ok.mp pay
    exact ⟨rfl, .inl ⟨all, unstaked, by simp [all]⟩⟩
  · simp only [ok_iffs, checkedAddFunds, not_lt] at taken
    obtain ⟨_, ⟨-, rfl⟩, enough, pay⟩ := taken
    obtain ⟨-, -, -, rfl⟩ := checkedSubLamports_eq_ok.mp pay
    exact ⟨rfl, .inr ⟨enough, rfl⟩⟩

theorem withdraw_step (mine : getStakeAccount context accounts stakeAccount = .ok me)
    (taken : withdraw api invoke context accounts stakeAccount lamports recipient withdrawAuthority custodian =
      .ok accounts') :
    Step api invoke context accounts (.withdraw stakeAccount recipient withdrawAuthority custodian lamports)
      accounts' := by
  obtain ⟨_, found, owned, rfl⟩ := getStakeAccount_eq_ok.mp mine
  simp only [withdraw, ok_iffs] at taken
  obtain ⟨signed, _, pay, receive⟩ := taken
  obtain ⟨_, change, rfl⟩ := update_of_found found pay
  simp only [ok_iffs, getState_eq_ok, Prod.exists, Bool.not_eq_true] at change
  obtain ⟨_, held, _, _, _, reserved, unlocked, ran⟩ := change
  obtain ⟨_, _, foundReceiver, credit, rfl⟩ := update_eq_ok.mp receive
  obtain ⟨-, -, rfl⟩ := checkedAddLamports_eq_ok.mp credit
  obtain ⟨atKey, taken⟩ := withdrawFrom_ok ran
  simp only [release, atKey] at foundReceiver ⊢
  exact .withdrawn ⟨found, owned, held⟩ signed reserved unlocked taken foundReceiver

/-! ### Every instruction -/

theorem step_of_processInstruction
    (taken : processInstruction api invoke context accounts instruction = .ok accounts') :
    Step api invoke context accounts instruction accounts' := by
  simp only [processInstruction, ok_iffs] at taken
  obtain ⟨-, taken⟩ := taken
  cases instruction with
  | initializeAccount => exact initializeAccount_step taken
  | authorize => exact authorize_step signers_subset_presented taken
  | delegateStake =>
    obtain ⟨_, mine, taken⟩ := bind_ok_iff.mp taken
    exact delegate_step mine taken
  | split =>
    obtain ⟨_, mine, taken⟩ := bind_ok_iff.mp taken
    exact split_step mine taken
  | withdraw =>
    obtain ⟨_, mine, taken⟩ := bind_ok_iff.mp taken
    exact withdraw_step mine taken
  | deactivate => exact deactivate_step taken
  | setLockup => exact setLockup_step taken
  | merge =>
    obtain ⟨_, mine, taken⟩ := bind_ok_iff.mp taken
    exact merge_step mine taken
  | authorizeWithSeed => exact authorizeWithSeed_step rfl taken
  | initializeChecked => exact initializeAccount_step (onStakeAccount_of_rejectIf taken)
  | authorizeChecked => exact authorize_step signers_subset_presented (onStakeAccount_of_rejectIf taken)
  | authorizeCheckedWithSeed => exact authorizeWithSeed_step rfl (onStakeAccount_of_rejectIf taken)
  | setLockupChecked => exact setLockup_step (onStakeAccount_of_rejectIf taken)
  | deactivateDelinquent =>
    obtain ⟨_, mine, taken⟩ := bind_ok_iff.mp taken
    exact deactivateDelinquent_step mine taken
  | moveStake => exact moveStake_step taken
  | moveLamports => exact moveLamports_step taken

theorem buildUpdatedStakeReward_ok {account new : Account AccountData}
    (taken : buildUpdatedStakeReward account stakeReward creditsObserved = .ok new) :
    ∃ metadata stake stakeFlags, account.data = .stake (.stake metadata stake stakeFlags) ∧
      new = { account with
        lamports := account.lamports + stakeReward
        data := .stake (.stake metadata
          ((stake.withAmount (stake.delegation.stake + stakeReward)).withCredits creditsObserved)
          stakeFlags) } := by
  simp only [buildUpdatedStakeReward, bind_ok_iff, getState_eq_ok] at taken
  obtain ⟨state, held, taken⟩ := taken
  cases state with
  | stake metadata stake stakeFlags =>
    simp only [ok_iffs] at taken
    obtain ⟨_, ⟨-, rfl⟩, _, ⟨-, rfl⟩, rfl⟩ := taken
    exact ⟨metadata, stake, stakeFlags, held, rfl⟩
  | _ => simp at taken

end Instructions

end Payout.StakeProgram
