/-
Purpose: What the staker of an account cannot do. Five instructions move lamports under the signature of the staker,
  and each protects the withdrawer and the lockup by a check of its own.
-/
import Payout.StakeProofs.Backing

namespace Payout.StakeProgram

open Lib Payout.Runtime Option AList MergeKind State Nat Store

variable {account old new paid credited source split destination : Account AccountData}
  {state merged state' : StakeStateV2} {metadata changed one two : Meta} {key other authority newAuthority : Pubkey}
  {minimumDelegation lamports rentExemptReserve : Nat} {Q : Meta → Prop} {action : Action}

/-! ### Lamports under a property of the metadata -/

/-- The metadata of an initialized or delegated stake account. -/
def accountMeta? (account : Account AccountData) : Option Meta :=
  match account.owner, account.data with
  | .stake, .stake state => state.metadata?
  | _, _ => none

theorem accountMeta?_of_stake (owned : account.owner = .stake) (held : account.data = .stake state) :
    accountMeta? account = state.metadata? := by
  simp only [accountMeta?, owned, held]

section Flow

variable (Q : Meta → Prop)

/-- An initialized or delegated stake account whose metadata has the property. -/
def Holds (account : Account AccountData) : Prop :=
  ∃ metadata ∈ accountMeta? account, Q metadata

instance [DecidablePred Q] (account : Account AccountData) : Decidable (Holds Q account) :=
  inferInstanceAs (Decidable (∃ _ ∈ _, _))

/-- The lamports of an account that count under the property. -/
def counted [DecidablePred Q] (account : Account AccountData) : Nat :=
  if Holds Q account then account.lamports else 0

/-- The lamports of all stake accounts whose metadata has the property. -/
def lamportsUnder [DecidablePred Q] (accounts : StakeAccounts) : Nat :=
  total (fun _ account => counted Q account) accounts

/-- How accounts change without a loss for the property: nothing changes, or one account, which loses no
    lamports, or lamports move from one account to another, which has the property if the first had it. -/
inductive Flow (accounts : StakeAccounts) : StakeAccounts → Prop where
  | same {accounts'} (left : Store.Same accounts' accounts) : Flow accounts accounts'
  | changed {accounts' key old new}
      (found : accounts.lookup key = some old) (grows : old.lamports ≤ new.lamports)
      (kept : Holds Q old → Holds Q new) (left : Store.Same accounts' (accounts.insert key new)) :
      Flow accounts accounts'
  | moved {accounts' key other lamports source paid destination credited} (distinct : other ≠ key)
      (found : accounts.lookup key = some source) (foundOther : accounts.lookup other = some destination)
      (pays : paid.lamports + lamports = source.lamports)
      (gets : credited.lamports = destination.lamports + lamports)
      (kept : Holds Q source → (Holds Q paid ∨ paid.lamports = 0) ∧ Holds Q credited)
      (keptOther : Holds Q destination → Holds Q credited)
      (left : Store.Same accounts' ((accounts.insert key paid).insert other credited)) :
      Flow accounts accounts'

/-- Lamports under a property move only into accounts under it: an account under the property stays under it
    or is emptied, and when it loses lamports every account that gains some is under the property. -/
structure MovesWithin (before after : StakeAccounts) : Prop where
  kept : ∀ key account, before.lookup key = some account → Holds Q account →
    ∃ account', after.lookup key = some account' ∧ (Holds Q account' ∨ account'.lamports = 0)
  gained : ∀ key account account', before.lookup key = some account → after.lookup key = some account' →
    Holds Q account → account'.lamports < account.lamports →
    ∀ other old new, before.lookup other = some old → after.lookup other = some new →
      old.lamports < new.lamports → Holds Q new

variable {Q} {accounts accounts' : StakeAccounts}

theorem Holds.of_state (owned : account.owner = .stake) (held : account.data = .stake state)
    (has : state.metadata? = some metadata) (property : Q metadata) : Holds Q account :=
  ⟨metadata, (accountMeta?_of_stake owned held).trans has, property⟩

theorem Held.holds_iff {accounts : StakeAccounts} (held : Held accounts key account state) :
    Holds Q account ↔ ∃ metadata, state.metadata? = some metadata ∧ Q metadata := by
  simp only [Holds, accountMeta?_of_stake held.owned held.data, mem_def]

theorem Holds.withLamports (holds : Holds Q account) (lamports) : Holds Q { account with lamports } :=
  holds

/-- The lamports of an account count if it has the property, or if there are none. -/
theorem counted_eq [DecidablePred Q] (counts : Holds Q account ∨ account.lamports = 0) :
    counted Q account = account.lamports := by
  rcases counts with holds | empty
  · exact if_pos holds
  · rw [counted, empty, ite_self]

theorem counted_le [DecidablePred Q] (account) : counted Q account ≤ account.lamports := by
  unfold counted
  split
  · exact le_rfl
  · exact zero_le _

theorem counted_of_not [DecidablePred Q] (not : ¬ Holds Q account) : counted Q account = 0 :=
  if_neg not

theorem counted_mono [DecidablePred Q] (kept : Holds Q old → Holds Q new) (grows : old.lamports ≤ new.lamports) :
    counted Q old ≤ counted Q new := by
  by_cases holds : Holds Q old
  · rw [counted_eq (.inl holds), counted_eq (.inl (kept holds))]
    exact grows
  · rw [counted_of_not holds]
    exact zero_le _

theorem lamportsUnder_insert [DecidablePred Q] (new) (found : accounts.lookup key = some old) :
    lamportsUnder Q (accounts.insert key new) + counted Q old = lamportsUnder Q accounts + counted Q new :=
  total_insert_of_present found

theorem Flow.lamportsUnder_le [DecidablePred Q] (flow : Flow Q accounts accounts') :
    lamportsUnder Q accounts ≤ lamportsUnder Q accounts' := by
  cases flow with
  | same left => exact left.total_eq.ge
  | @changed key old new found grows kept left =>
    have written := lamportsUnder_insert (Q := Q) new found
    have mono := counted_mono kept grows
    have same : lamportsUnder Q accounts' = lamportsUnder Q (accounts.insert key new) := left.total_eq
    omega
  | @moved key other lamports source paid destination credited distinct found foundOther pays gets kept
      keptOther left =>
      have first := lamportsUnder_insert (Q := Q) paid found
      have still : (accounts.insert key paid).lookup other = some destination :=
        (lookup_insert_ne distinct).trans foundOther
      have second := lamportsUnder_insert (Q := Q) credited still
      have same : lamportsUnder Q accounts' =
          lamportsUnder Q ((accounts.insert key paid).insert other credited) := left.total_eq
      have grows : counted Q source + counted Q destination ≤ counted Q paid + counted Q credited := by
        by_cases holds : Holds Q source
        · -- everything the source held counts on, in what it keeps and in what it paid
          obtain ⟨keeps, receives⟩ := kept holds
          rw [counted_eq (.inl holds), counted_eq keeps, counted_eq (.inl receives)]
          have part := counted_le (Q := Q) destination
          omega
        · rw [counted_of_not holds, zero_add]
          have mono := counted_mono keptOther (gets ▸ le_add_right _ _)
          exact mono.trans (le_add_left _ _)
      omega

theorem lookup_moved (left : Store.Same accounts' ((accounts.insert key paid).insert other credited))
    (found : accounts'.lookup k = some account) :
    (k = other ∧ account = credited) ∨ (k ≠ other ∧ k = key ∧ account = paid) ∨
      (k ≠ other ∧ k ≠ key ∧ accounts.lookup k = some account) := by
  rw [left k] at found
  rcases lookup_insert_eq_some.mp found with here | ⟨notOther, found⟩
  · exact .inl here
  · rcases lookup_insert_eq_some.mp found with ⟨isKey, isPaid⟩ | ⟨notKey, found⟩
    · exact .inr (.inl ⟨notOther, isKey, isPaid⟩)
    · exact .inr (.inr ⟨notOther, notKey, found⟩)

/-- In a flow lamports under the property only move into accounts under it. -/
theorem Flow.movesWithin (flow : Flow Q accounts accounts') : MovesWithin Q accounts accounts' := by
  cases flow with
  | same left =>
    constructor
    · intro k account found holds
      exact ⟨account, (left k).trans found, .inl holds⟩
    · intro k account account' found found' _ loses
      rw [left k, found] at found'
      exact absurd loses (some.inj found' ▸ lt_irrefl _)
  | @changed key old new found grows kept left =>
    constructor
    · intro k account foundK holds
      by_cases atKey : k = key
      · subst atKey
        cases found.symm.trans foundK
        exact ⟨new, (left k).trans (lookup_insert _), .inl (kept holds)⟩
      · exact ⟨account, (left k).trans ((lookup_insert_ne atKey).trans foundK), .inl holds⟩
    · intro k account account' foundK foundK' holds loses
      rw [left k] at foundK'
      rcases lookup_insert_eq_some.mp foundK' with ⟨rfl, rfl⟩ | ⟨-, still⟩
      · cases found.symm.trans foundK
        exact absurd loses (not_lt.mpr grows)
      · cases foundK.symm.trans still
        exact absurd loses (lt_irrefl _)
  | @moved key other lamports source paid destination credited distinct found foundOther pays gets kept
      keptOther left =>
      constructor
      · intro k account foundK holds
        by_cases atOther : k = other
        · subst atOther
          cases foundOther.symm.trans foundK
          exact ⟨credited, (left k).trans (lookup_insert _), .inl (keptOther holds)⟩
        have kAfter := (left k).trans (lookup_insert_ne atOther)
        by_cases atKey : k = key
        · subst atKey
          cases found.symm.trans foundK
          exact ⟨paid, kAfter.trans (lookup_insert _), (kept holds).1⟩
        · exact ⟨account, kAfter.trans ((lookup_insert_ne atKey).trans foundK), .inl holds⟩
      · intro k account account' foundK foundK' holds loses o old new foundO foundO' gains
        -- the account that loses is the source, so the one that gains is the destination
        have isSource : k = key := by
          rcases lookup_moved left foundK' with ⟨rfl, rfl⟩ | ⟨-, isKey, -⟩ | ⟨-, -, still⟩
          · cases foundOther.symm.trans foundK
            exact absurd loses (not_lt.mpr (gets ▸ le_add_right _ _))
          · exact isKey
          · cases foundK.symm.trans still
            exact absurd loses (lt_irrefl _)
        subst isSource
        cases found.symm.trans foundK
        rcases lookup_moved left foundO' with ⟨-, rfl⟩ | ⟨-, rfl, rfl⟩ | ⟨-, -, still⟩
        · exact (kept holds).2
        · cases found.symm.trans foundO
          exact absurd gains (not_lt.mpr (pays ▸ le_add_right _ _))
        · cases foundO.symm.trans still
          exact absurd gains (lt_irrefl _)

end Flow

/-! ### What the kinds of a merge keep of the metadata -/

section Kinds

variable {api : Interface} {kind : MergeKind}

theorem MergeKind.getIfMergeable_metadata (isKind : getIfMergeable api state lamports clock = .ok kind) :
    state.metadata? = some kind.metadata := by
  cases state with
  | stake =>
    simp only [getIfMergeable] at isKind
    split at isKind
    · cases isKind
      rfl
    split at isKind
    · cases isKind
      rfl
    · split at isKind
      · cases isKind
        rfl
      · cases isKind
  | initialized =>
    cases isKind
    rfl
  | uninitialized => cases isKind
  | rewardsPool => cases isKind

theorem MergeKind.mergedState_metadata {source : MergeKind} (taken : kind.mergedState source = .ok (some merged)) :
    merged.metadata? = some kind.metadata := by
  cases kind with
  | inactive => cases source <;> cases taken
  | activationEpoch =>
    cases source with
    | inactive =>
      simp only [mergedState, ok_iffs, some.injEq] at taken
      obtain ⟨_, -, rfl⟩ := taken
      rfl
    | activationEpoch =>
      simp only [mergedState, ok_iffs, some.injEq] at taken
      obtain ⟨_, -, _, -, rfl⟩ := taken
      rfl
    | fullyActive => cases taken
  | fullyActive =>
    cases source with
    | fullyActive =>
      simp only [mergedState, ok_iffs, some.injEq] at taken
      obtain ⟨_, -, rfl⟩ := taken
      rfl
    | inactive => cases taken
    | activationEpoch => cases taken

theorem receivedStake_metadata
    (taken : receivedStake sourceStake lamports minimumDelegation kind = .ok (destinationMeta, destinationStake)) :
    destinationMeta = kind.metadata := by
  cases kind with
  | fullyActive =>
    simp only [receivedStake, bind_ok_iff, pure_ok_iff, Prod.mk.injEq] at taken
    obtain ⟨_, -, _, -, _, -, _, -, rfl, -⟩ := taken
    rfl
  | inactive =>
    simp only [receivedStake, bind_ok_iff, pure_ok_iff, Prod.mk.injEq] at taken
    obtain ⟨_, -, rfl, -⟩ := taken
    rfl
  | activationEpoch => cases taken

theorem remainingState_metadata (metadata stake left) :
    (remainingState metadata stake left).metadata? = some metadata := by
  unfold remainingState
  split <;> rfl

theorem StakeStateV2.withMeta_metadata (changed) (has : state.metadata? = some metadata) :
    (state.withMeta changed).metadata? = some changed := by
  cases state with
  | initialized => rfl
  | stake => rfl
  | uninitialized => cases has
  | rewardsPool => cases has

end Kinds

/-! ### One instruction -/

section Instructions

variable {api : Interface} {invoke : InvokeContext} {context : InstructionContext}
  {instruction : StakeInstruction} {accounts accounts' : StakeAccounts}

/-- A property of the metadata that an instruction cannot lift: nobody who signed withdraws under it, neither
    the authorities nor the lockup change against it, and what merges with it has it too. -/
structure Guarded (api : Interface) (invoke : InvokeContext) (context : InstructionContext)
    (instruction : StakeInstruction) (Q : Meta → Prop) : Prop where
  withdraw : ∀ metadata authority, Q metadata → authority ∈ context.signers →
    api.check metadata.authorized {authority} .withdrawer ≠ .ok ()
  authorize : ∀ metadata signers newAuthority stakeAuthorize lockup authorized, Q metadata →
    signers ⊆ presented api context instruction →
    api.authorize metadata.authorized signers newAuthority stakeAuthorize lockup = .ok authorized →
    Q { metadata with authorized }
  setLockup : ∀ metadata lockup changed, Q metadata →
    api.setLockup metadata lockup context.signers invoke.clock = .ok changed → Q changed
  merge : ∀ one two, MergeKind.metasCanMerge api one two invoke.clock = .ok () → (Q one ↔ Q two)
  split : ∀ metadata rentExemptReserve, Q metadata → Q { metadata with rentExemptReserve }

/-- An account that keeps its lamports and whose new metadata has the property if the old one had it. -/
theorem Flow.of_metadata (held : Held accounts key account state) (has : state'.metadata? = some changed)
    (kept : ∀ metadata, state.metadata? = some metadata → Q metadata → Q changed) :
    Flow Q accounts (accounts.insert key { account with data := .stake state' }) := by
  refine .changed held.found ?_ ?_ fun _ => rfl
  · exact le_refl account.lamports
  intro holds
  obtain ⟨metadata, hasOld, property⟩ := held.holds_iff.mp holds
  exact .of_state held.owned rfl has (kept metadata hasOld property)

theorem Flow.of_split (guarded : Guarded api invoke context instruction Q) (distinct : splitKey ≠ key)
    (held : Held accounts key source state) (has : state.metadata? = some metadata)
    (heldSplit : Held accounts splitKey split .uninitialized) (enough : lamports ≤ source.lamports)
    (hasRest : rest.metadata? = some metadata)
    (hasPart : part.metadata? = some { metadata with rentExemptReserve })
    (left : Store.Same accounts' ((accounts.insert key (drained source lamports rest)).insert splitKey
      { split with lamports := split.lamports + lamports, data := .stake part })) :
    Flow Q accounts accounts' := by
  refine .moved distinct held.found heldSplit.found (Nat.sub_add_cancel enough) rfl ?_ ?_ left
  · intro holds
    obtain ⟨_, hasOld, property⟩ := held.holds_iff.mp holds
    cases has.symm.trans hasOld
    constructor
    · by_cases all : lamports = source.lamports
      · exact .inr (by rw [drained, all]; exact Nat.sub_self _)
      · exact .inl (.of_state held.owned (by rw [drained, if_neg all]) hasRest property)
    · exact .of_state heldSplit.owned rfl hasPart (guarded.split _ _ property)
  · intro holds
    obtain ⟨_, hasOld, -⟩ := heldSplit.holds_iff.mp holds
    cases hasOld

theorem Flow.of_alike (distinct : other ≠ key) (held : Held accounts key source state)
    (has : state.metadata? = some metadata) (heldOther : Held accounts other destination otherState)
    (hasOther : otherState.metadata? = some otherMeta)
    (alike : Q metadata ↔ Q otherMeta) (pays : paid.lamports + lamports = source.lamports)
    (gets : credited.lamports = destination.lamports + lamports) (kept : Q metadata → Holds Q paid ∨ paid.lamports = 0)
    (keptOther : Q otherMeta → Holds Q credited) :
    Flow Q accounts ((accounts.insert key paid).insert other credited) := by
  refine .moved distinct held.found heldOther.found pays gets ?_ ?_ fun _ => rfl
  · intro holds
    obtain ⟨_, hasOld, property⟩ := held.holds_iff.mp holds
    cases has.symm.trans hasOld
    exact ⟨kept property, keptOther (alike.mp property)⟩
  · intro holds
    obtain ⟨_, hasOld, property⟩ := heldOther.holds_iff.mp holds
    cases hasOther.symm.trans hasOld
    exact keptOther property

theorem Guarded.not_withdrawn (guarded : Guarded api invoke context instruction Q)
    (held : Held accounts key account state) (signed : authority ∈ context.signers)
    (reserved : withdrawReserve api invoke key {authority} state = .ok result) : ¬ Holds Q account := by
  intro holds
  obtain ⟨metadata, has, property⟩ := held.holds_iff.mp holds
  have refused := guarded.withdraw metadata authority property signed
  cases state with
  | initialized | stake =>
    cases has
    simp only [withdrawReserve, bind_ok_iff] at reserved
    obtain ⟨_, checked, -⟩ := reserved
    exact refused checked
  | uninitialized | rewardsPool => cases has

/-- Every instruction that meets the guard is a flow under the property. -/
theorem flow_of_step (guarded : Guarded api invoke context instruction Q)
    (step : Step api invoke context accounts instruction accounts') : Flow Q accounts accounts' := by
  cases step with
  | initialized held =>
    refine .of_metadata held rfl fun _ has => ?_
    cases has
  | authorized held has signed changed =>
    refine .of_metadata held (StakeStateV2.withMeta_metadata _ has) fun _ hasOld property => ?_
    cases has.symm.trans hasOld
    exact guarded.authorize _ _ _ _ _ _ property signed changed
  | lockupSet held has set =>
    refine .of_metadata held (StakeStateV2.withMeta_metadata _ has) fun _ hasOld property => ?_
    cases has.symm.trans hasOld
    exact guarded.setLockup _ _ _ property set
  | delegated held | redelegated held | deactivated held =>
    exact .of_metadata held rfl fun _ has property => some.inj has ▸ property
  | splitStake distinct held heldSplit _ _ valid _ _ _ left
  | splitInitialized distinct held heldSplit _ _ valid left =>
    exact .of_split guarded distinct held rfl heldSplit
      (validateSplitAmount_ok valid).1 rfl rfl left
  | splitUninitialized held heldSplit _ enough left =>
    -- neither account has metadata
    have none {key account} (held : Held accounts key account .uninitialized) : ¬ Holds Q account := by
      intro holds
      obtain ⟨_, has, -⟩ := held.holds_iff.mp holds
      cases has
    split at left
    · exact .same left
    · rename_i distinct
      exact .moved distinct held.found heldSplit.found (Nat.sub_add_cancel enough) rfl
        (fun holds => absurd holds (none held)) (fun holds => absurd holds (none heldSplit)) left
  | @merged key sourceKey account source state sourceState stakeMergeKind sourceMergeKind mergedState distinct
      held heldSource kind _ sourceKind merged =>
      obtain ⟨alike, isMerged⟩ := merge_ok merged
      have has := getIfMergeable_metadata kind
      refine .of_alike distinct heldSource
        (getIfMergeable_metadata sourceKind) held has (guarded.merge _ _ alike).symm
        (zero_add _) rfl (fun _ => .inr rfl) fun property => ?_
      refine .of_state held.owned rfl ?_ property
      -- the metadata is that of the kind, whether or not the state is written
      cases mergedState with
      | none => exact has
      | some => exact mergedState_metadata isMerged
  | stakeMoved shared enough received covers =>
    obtain ⟨distinct, held, heldDestination, _, kind, _, kind', alike⟩ := shared
    obtain rfl := receivedStake_metadata received
    exact .of_alike distinct held (getIfMergeable_metadata kind) heldDestination (getIfMergeable_metadata kind')
      (guarded.merge _ _ alike) (Nat.sub_add_cancel (Nat.le_of_add_left_le covers)) rfl
      (fun property => .inl (.of_state held.owned rfl (remainingState_metadata _ _ _) property))
      (.of_state heldDestination.owned rfl rfl)
  | lamportsMoved shared _ _ _ covers =>
    obtain ⟨distinct, held, heldDestination, _, kind, _, kind', alike⟩ := shared
    have has := getIfMergeable_metadata kind
    have hasDestination := getIfMergeable_metadata kind'
    exact .of_alike distinct held has heldDestination hasDestination (guarded.merge _ _ alike)
      (Nat.sub_add_cancel covers) rfl (fun property => .inl (.of_state held.owned held.data has property))
      (.of_state heldDestination.owned heldDestination.data hasDestination)
  | @withdrawn key recipient authority account paid receiver state lockup reserve lamports isStaked custodian
      held signed reserved unlocked taken foundReceiver =>
      have unheld := guarded.not_withdrawn held signed reserved
      have drawn : paid.lamports + lamports = account.lamports := by
        rcases taken with ⟨rfl, -, rfl⟩ | ⟨enough, rfl⟩
        · exact Nat.zero_add _
        · exact Nat.sub_add_cancel (Nat.le_of_add_right_le enough)
      by_cases self : recipient = key
      · -- what an account pays to itself stays where it is
        subst self
        cases (lookup_insert _).symm.trans foundReceiver
        rw [insert_insert]
        refine .changed held.found ?_ (fun holds => absurd holds unheld) fun _ => rfl
        exact drawn.ge
      · have foundOther := (lookup_insert_ne self).symm.trans foundReceiver
        exact .moved self held.found foundOther drawn rfl (fun holds => absurd holds unheld)
          (fun holds => holds.withLamports _) fun _ => rfl

end Instructions

/-! ### The withdrawer and the lockup -/

section Runs

variable {api : Interface}

/-- Metadata that names the withdrawer. -/
def WithdrawnBy (withdrawer : Pubkey) (metadata : Meta) : Prop :=
  metadata.authorized.withdrawer = withdrawer

/-- Metadata that names the withdrawer and has the lockup. -/
def LockedFor (withdrawer : Pubkey) (lockup : Lockup) (metadata : Meta) : Prop :=
  WithdrawnBy withdrawer metadata ∧ metadata.lockup = lockup

instance (withdrawer : Pubkey) : DecidablePred (WithdrawnBy withdrawer) :=
  fun metadata => inferInstanceAs (Decidable (metadata.authorized.withdrawer = withdrawer))

instance (withdrawer : Pubkey) (lockup : Lockup) : DecidablePred (LockedFor withdrawer lockup) :=
  fun _ => inferInstanceAs (Decidable (_ ∧ _))

/-- The withdrawer does not sign, neither directly nor through a seed. -/
def WithdrawerAbsent (api : Interface) (withdrawer : Pubkey) (_ : State) : Action → Prop
  | .instruction context instruction => withdrawer ∉ presented api context instruction
  | _ => True

/-- Neither the withdrawer nor the custodian of the lockup signs, and the lockup is in force. -/
def LockupInForce (api : Interface) (withdrawer : Pubkey) (lockup : Lockup) (state : State) :
    Action → Prop
  | .instruction context instruction =>
    withdrawer ∉ presented api context instruction ∧ lockup.custodian ∉ context.signers ∧
      api.isInForce lockup state.invoke.clock none = true
  | _ => True

instance (withdrawer : Pubkey) (state : State) (action : Action) :
    Decidable (WithdrawerAbsent api withdrawer state action) := by
  unfold WithdrawerAbsent
  split <;> infer_instance

instance (withdrawer : Pubkey) (lockup : Lockup) (state : State) (action : Action) :
    Decidable (LockupInForce api withdrawer lockup state action) := by
  unfold LockupInForce
  split <;> infer_instance

theorem metasCanMerge_ok (alike : metasCanMerge api one two clock = .ok ()) :
    one.authorized = two.authorized ∧ (one.lockup = two.lockup ∨
      (api.isInForce one.lockup clock none = false ∧
        api.isInForce two.lockup clock none = false)) := by
  simp only [metasCanMerge] at alike
  split at alike
  · assumption
  · cases alike

variable {invoke : InvokeContext} {context : InstructionContext} {instruction : StakeInstruction}
  {withdrawer : Pubkey}

section

variable (authorizing : api.Authorizing)
include authorizing

/-- Authorities change without the withdrawer only in the staker. -/
theorem authorize_keeps_withdrawer {authorized changed : Authorized} (absent : authorized.withdrawer ∉ signers)
    (taken : api.authorize authorized signers newAuthority stakeAuthorize lockup = .ok changed) :
    changed.withdrawer = authorized.withdrawer := by
  cases stakeAuthorize with
  | staker => exact authorizing.authorize_staker _ _ _ _ _ taken
  | withdrawer => exact absurd (authorizing.authorize_withdrawer _ _ _ _ _ taken) absent

/-- Without the signature of the withdrawer nothing lifts its claim to an account. -/
theorem guarded_withdrawer (absent : withdrawer ∉ presented api context instruction) :
    Guarded api invoke context instruction (WithdrawnBy withdrawer) where
  withdraw metadata authority isWithdrawer signed checked := by
    have mem := authorizing.check_withdrawer _ _ checked
    rw [isWithdrawer, Finset.mem_singleton] at mem
    exact absent (signers_subset_presented (mem ▸ signed))
  authorize metadata signers newAuthority stakeAuthorize lockup authorized isWithdrawer shown taken := by
    have unsigned : metadata.authorized.withdrawer ∉ signers := fun mem => absent (shown (isWithdrawer ▸ mem))
    exact (authorize_keeps_withdrawer authorizing unsigned taken).trans isWithdrawer
  setLockup metadata lockup changed isWithdrawer taken := by
    have same := authorizing.setLockup_authorized _ _ _ _ _ taken
    rw [WithdrawnBy, same]
    exact isWithdrawer
  merge one two alike := by
    rw [WithdrawnBy, WithdrawnBy, (metasCanMerge_ok alike).1]
  split _ _ isWithdrawer := isWithdrawer

/-- A lockup in force is lifted neither without its custodian nor by a merge. -/
theorem guarded_lockup (absent : withdrawer ∉ presented api context instruction)
    (custodian : lockup.custodian ∉ context.signers) (inForce : api.isInForce lockup invoke.clock none = true) :
    Guarded api invoke context instruction (LockedFor withdrawer lockup) := by
  have guarded : Guarded api invoke context instruction (WithdrawnBy withdrawer) :=
    guarded_withdrawer authorizing absent
  constructor
  case withdraw =>
      intro metadata authority locked
      exact guarded.withdraw metadata authority locked.1
  case authorize =>
      intro metadata signers newAuthority stakeAuthorize args authorized locked shown taken
      exact ⟨guarded.authorize _ _ _ _ _ _ locked.1 shown taken, locked.2⟩
  case setLockup =>
      intro metadata args changed locked taken
      have signed := authorizing.setLockup_custodian _ _ _ _ _ taken (locked.2 ▸ inForce)
      exact absurd (locked.2 ▸ signed) custodian
  case merge =>
      intro one two alike
      have sameWithdrawer := guarded.merge one two alike
      rcases (metasCanMerge_ok alike).2 with same | ⟨firstExpired, secondExpired⟩
      · rw [LockedFor, LockedFor, sameWithdrawer, same]
      -- a lockup that has expired is not the one in force
      constructor
      · rintro ⟨-, rfl⟩
        cases inForce.symm.trans firstExpired
      · rintro ⟨-, rfl⟩
        cases inForce.symm.trans secondExpired
  case split =>
      intro metadata rentExemptReserve locked
      exact locked

end

/-- Every action that meets the guard is a flow under the property. -/
theorem flow_of_apply {state state' : State}
    (guarded : ∀ context instruction, action = .instruction context instruction →
      Guarded api state.invoke context instruction Q)
    (taken : apply api action state = .ok state') : Flow Q state.accounts state'.accounts := by
  cases action with
  | instruction =>
    obtain ⟨_, processed, rfl⟩ := by
      simpa only [apply, ok_iffs] using taken
    exact flow_of_step (guarded _ _ rfl) (step_of_processInstruction processed)
  | donate key lamports =>
    simp only [apply, ok_iffs] at taken
    obtain ⟨_, found, _, ⟨-, rfl⟩, rfl⟩ := taken
    exact .changed found (le_add_right _ lamports) (fun holds => holds.withLamports _) fun _ => rfl
  | reward key stakeReward =>
    simp only [apply, ok_iffs] at taken
    obtain ⟨_, found, owned, _, credited, rfl⟩ := taken
    obtain ⟨_, _, _, held, rfl⟩ := buildUpdatedStakeReward_ok credited
    refine .changed found (le_add_right _ stakeReward) (fun holds => ?_) fun _ => rfl
    obtain ⟨_, has, property⟩ := (Held.holds_iff ⟨found, owned, held⟩).mp holds
    exact .of_state owned rfl has property
  | advance =>
    simp only [apply, ok_iffs] at taken
    obtain ⟨-, rfl⟩ := taken
    exact .same fun _ => rfl

theorem WithdrawerAbsent.flow (authorizing : api.Authorizing) {state state' : State}
    (absent : WithdrawerAbsent api withdrawer state action) (taken : apply api action state = .ok state') :
    Flow (WithdrawnBy withdrawer) state.accounts state'.accounts := by
  refine flow_of_apply ?_ taken
  rintro context instruction rfl
  exact guarded_withdrawer authorizing absent

theorem LockupInForce.flow (authorizing : api.Authorizing) {state state' : State}
    (locked : LockupInForce api withdrawer lockup state action)
    (taken : apply api action state = .ok state') :
    Flow (LockedFor withdrawer lockup) state.accounts state'.accounts := by
  refine flow_of_apply ?_ taken
  rintro context instruction rfl
  obtain ⟨absent, custodian, inForce⟩ := locked
  exact guarded_lockup authorizing absent custodian inForce

/-- A guard under which every action is a flow keeps the lamports under the property, over a whole run. -/
theorem lamportsUnder_run [DecidablePred Q] {guard : State → Action → Prop}
    (flows : ∀ state action state', guard state action → apply api action state = .ok state' →
      Flow Q state.accounts state'.accounts)
    (run : Run (apply api) guard start actions reached) :
    lamportsUnder Q start.accounts ≤ lamportsUnder Q reached.accounts :=
  run.invariant (P := fun state => lamportsUnder Q start.accounts ≤ lamportsUnder Q state.accounts)
    (fun _ _ _ le meets taken => le.trans (flows _ _ _ meets taken).lamportsUnder_le) le_rfl

/-- In every run in which the withdrawer never signs, the lamports of the stake accounts it may withdraw from
    never decrease. In every run in which moreover a lockup is in force and its custodian does not sign, the
    lamports under that withdrawer and that lockup never decrease either, and every step moves them only into
    accounts under the same withdrawer and the same lockup. -/
theorem staker_cannot_take_funds (authorizing : api.Authorizing) (withdrawer : Pubkey)
    (start reached : State) (actions : List Action) :
    (Run (State.apply api) (WithdrawerAbsent api withdrawer) start actions reached →
      lamportsUnder (WithdrawnBy withdrawer) start.accounts ≤ lamportsUnder (WithdrawnBy withdrawer) reached.accounts) ∧
    (∀ lockup,
      Run (State.apply api) (LockupInForce api withdrawer lockup) start actions reached →
      lamportsUnder (LockedFor withdrawer lockup) start.accounts ≤
          lamportsUnder (LockedFor withdrawer lockup) reached.accounts ∧
        ∀ action after, LockupInForce api withdrawer lockup reached action →
          State.apply api action reached = .ok after →
          MovesWithin (LockedFor withdrawer lockup) reached.accounts after.accounts) := by
  constructor
  · intro run
    exact lamportsUnder_run (fun _ _ _ absent => absent.flow authorizing) run
  · intro lockup run
    constructor
    · exact lamportsUnder_run (fun _ _ _ locked => locked.flow authorizing) run
    · intro action after locked taken
      exact (locked.flow authorizing taken).movesWithin

end Runs

/-! ### Samples -/

namespace Sample

def authorize (authorized : Authorized) (signers : Finset Pubkey) (newAuthorized : Pubkey) :
    StakeAuthorize → Lockup × Clock × Option Pubkey → Except Error Authorized
  | .staker, _ => do
      rejectIf (authorized.staker ∉ signers ∧ authorized.withdrawer ∉ signers) .missingRequiredSignature
      pure { authorized with staker := newAuthorized }
  | .withdrawer, (lockup, clock, custodian) => do
      rejectIf (isInForce lockup clock (custodian.filter fun key => decide (key ∈ signers)) = true)
        (.custom .lockupInForce)
      check authorized signers .withdrawer
      pure { authorized with withdrawer := newAuthorized }

def setLockup (metadata : Meta) (lockup : LockupArgs) (signers : Finset Pubkey) (clock : Clock) :
    Except Error Meta := do
  if isInForce metadata.lockup clock none = true then
    rejectIf (metadata.lockup.custodian ∉ signers) .missingRequiredSignature
  else rejectIf (metadata.authorized.withdrawer ∉ signers) .missingRequiredSignature
  pure { metadata with
    lockup :=
      { unixTimestamp := lockup.unixTimestamp.getD metadata.lockup.unixTimestamp
        epoch := lockup.epoch.getD metadata.lockup.epoch
        custodian := lockup.custodian.getD metadata.lockup.custodian } }

/-- The interface in which authorities and lockups can change. -/
def custodial : Interface := { api with authorize, setLockup }

theorem custodial_authorizing : custodial.Authorizing where
  check_withdrawer authorized signers checked := by
    have checked : check authorized signers .withdrawer = .ok () := checked
    simp only [check, rejectIf_eq_ok, not_not] at checked
    exact checked
  authorize_staker authorized signers newAuthorized lockup changed taken := by
    have taken : authorize authorized signers newAuthorized .staker lockup = .ok changed := taken
    simp only [authorize, ok_iffs] at taken
    obtain ⟨_, -, rfl⟩ := taken
    rfl
  authorize_withdrawer authorized signers newAuthorized lockup changed taken := by
    have taken : authorize authorized signers newAuthorized .withdrawer lockup = .ok changed := taken
    simp only [authorize, check, ok_iffs] at taken
    exact taken.2.1
  setLockup_custodian metadata lockup signers clock changed taken inForce := by
    have taken : setLockup metadata lockup signers clock = .ok changed := taken
    have inForce : isInForce metadata.lockup clock none = true := inForce
    simp only [setLockup, if_pos inForce, ok_iffs] at taken
    exact taken.1
  setLockup_authorized metadata lockup signers clock changed taken := by
    have taken : setLockup metadata lockup signers clock = .ok changed := taken
    simp only [setLockup] at taken
    split at taken
    all_goals
      simp only [ok_iffs] at taken
      obtain ⟨-, rfl⟩ := taken
      rfl

/-- A lockup until epoch 10 with custodian 8. -/
def lockup : Lockup := { unixTimestamp := 0, epoch := 10, custodian := 8 }

/-- Account 1 is initialized under the staker 4, the withdrawer 9 and the lockup. -/
def lockedStart : State :=
  { start with
    accounts := start.accounts.insert 1
      { lamports := 2282980, owner := .stake, dataLen := 200
        data := .stake (.initialized
          { rentExemptReserve := 2282880, authorized := { staker := 4, withdrawer := 9 }, lockup }) } }

/-- The staker delegates the account, splits a part off, deactivates both parts and names another staker. -/
def stakerRun : List Action :=
  [signed (.delegateStake 1 2), wait 2, signed (.split 1 5 40), signed (.deactivate 1), wait 5,
    signed (.moveLamports 1 5 4 20), signed (.authorize 5 6 .staker none)]

end Sample

open Sample

/-- The hypotheses are met by a run in which the staker delegates, splits, deactivates and moves lamports. -/
theorem staker_cannot_take_funds_sample :
    ∃ reached, Run (State.apply custodial) (LockupInForce custodial 9 lockup)
        lockedStart stakerRun reached ∧
      lamportsUnder (LockedFor 9 lockup) lockedStart.accounts = 2282980 ∧
      lamportsUnder (LockedFor 9 lockup) lockedStart.accounts ≤
        lamportsUnder (LockedFor 9 lockup) reached.accounts := by
  refine ⟨_, run_exec_get (by decide), by decide, ?_⟩
  exact ((staker_cannot_take_funds custodial_authorizing 9 _ _ _).2 lockup (run_exec_get _)).1

end Payout.StakeProgram
