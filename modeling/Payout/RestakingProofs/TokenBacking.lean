/-
Purpose: The books of a vault against its tickets and against the token accounts behind them. The three VRT amounts
  are shifted when an update is finished, at most twice whatever number of epochs went by; the tickets age by the clock.
  The recorded deposits are backed by the vault's own account, the recorded VRT supply bounds the supply of the mint,
  and every outstanding ticket holds its VRT.
-/
import Payout.RestakingProofs.Steps

namespace Payout.Restaking

section

open Lib Store State

variable {ticket : VaultStakerWithdrawalTicket}

/-- The VRT of the outstanding tickets that were unstaked in an epoch of a kind. -/
def State.ticketVrt (s : State) (among : Nat → Prop) [DecidablePred among] : Nat :=
  Store.total (fun _ ticket => if among (s.epochOf ticket.slotUnstaked) then ticket.vrtAmount else 0)
    s.withdrawalTickets

/-- The VRT amounts of the vault are those of its tickets, by the epochs between the unstaking and the last
    full update. -/
structure Buckets (s : State) : Prop where
  updatedLe : s.vault.lastFullStateUpdateSlot ≤ s.slot
  unstakedLe : s.withdrawalTickets.All fun _ ticket => s.epochOf ticket.slotUnstaked ≤ s.fullEpoch
  enqueued : s.vault.vrtEnqueuedForCooldownAmount = s.ticketVrt (· = s.fullEpoch)
  coolingDown : s.vault.vrtCoolingDownAmount = s.ticketVrt (· + 1 = s.fullEpoch)
  readyToClaim : s.vault.vrtReadyToClaimAmount = s.ticketVrt (· + 2 ≤ s.fullEpoch)

/-! ### The VRT of a kind of tickets -/

section TicketVrt

variable {s : State} {among among' both : Nat → Prop} [DecidablePred among] [DecidablePred among']
  [DecidablePred both]

theorem ticketVrt_congr (agree : s.withdrawalTickets.All fun _ ticket =>
      among (s.epochOf ticket.slotUnstaked) ↔ among' (s.epochOf ticket.slotUnstaked)) :
    s.ticketVrt among = s.ticketVrt among' := by
  apply total_congr
  intro base ticket found
  simp only [agree base ticket found]

theorem ticketVrt_eq_zero (none : s.withdrawalTickets.All fun _ ticket =>
    ¬ among (s.epochOf ticket.slotUnstaked)) : s.ticketVrt among = 0 := by
  apply total_eq_zero
  intro base ticket found
  exact if_neg (none base ticket found)

theorem ticketVrt_add
    (either : s.withdrawalTickets.All fun _ ticket => both (s.epochOf ticket.slotUnstaked) ↔
      among (s.epochOf ticket.slotUnstaked) ∨ among' (s.epochOf ticket.slotUnstaked))
    (disjoint : ∀ epoch, among epoch → ¬ among' epoch) :
    s.ticketVrt both = s.ticketVrt among + s.ticketVrt among' := by
  unfold ticketVrt
  rw [← total_add]
  apply total_congr
  intro base ticket found
  have split := either base ticket found
  have apart := disjoint (s.epochOf ticket.slotUnstaked)
  by_cases first : among (s.epochOf ticket.slotUnstaked)
  · rw [if_pos (split.mpr (.inl first)), if_pos first, if_neg (apart first), add_zero]
  · by_cases second : among' (s.epochOf ticket.slotUnstaked)
    · rw [if_pos (split.mpr (.inr second)), if_neg first, if_pos second, zero_add]
    · rw [if_neg (fun holds => (split.mp holds).elim first second), if_neg first, if_neg second]

end TicketVrt

/-! ### One step -/

theorem Genesis.buckets (genesis : Genesis s) : Buckets s where
  updatedLe := genesis.lastFullStateUpdateSlot_eq.le
  unstakedLe := by
    rw [genesis.withdrawalTickets_eq]
    exact all_empty
  enqueued := by
    rw [genesis.enqueued_eq, ticketVrt, genesis.withdrawalTickets_eq, total_empty]
  coolingDown := by
    rw [genesis.coolingDown_eq, ticketVrt, genesis.withdrawalTickets_eq, total_empty]
  readyToClaim := by
    rw [genesis.readyToClaim_eq, ticketVrt, genesis.withdrawalTickets_eq, total_empty]

namespace Buckets

variable {s : State}

theorem fullEpoch_le (buckets : Buckets s) : s.fullEpoch ≤ s.epoch :=
  s.config.epochOf_mono buckets.updatedLe

/-- A ticket enqueued in a vault that is up to date belongs to the epoch of the last full update. -/
theorem enqueue (buckets : Buckets s) (upToDate : s.epoch ≤ s.fullEpoch) {ledger : TokenLedger}
    (absent : s.withdrawalTickets.lookup base = none) :
    Buckets (s.afterEnqueue base staker vrtAmount ledger) := by
  have current : s.epochOf s.slot = s.fullEpoch := le_antisymm upToDate buckets.fullEpoch_le
  constructor
  · exact buckets.updatedLe
  · exact all_insert upToDate fun base' ticket _ => buckets.unstakedLe base' ticket
  · refine Eq.trans ?_ (total_insert_of_absent absent).symm
    change s.vault.vrtEnqueuedForCooldownAmount + vrtAmount =
      (if s.epochOf s.slot = s.fullEpoch then vrtAmount else 0) + s.ticketVrt (· = s.fullEpoch)
    rw [if_pos current, buckets.enqueued, add_comm]
  · refine Eq.trans ?_ (total_insert_of_absent absent).symm
    change s.vault.vrtCoolingDownAmount = (if s.epochOf s.slot + 1 = s.fullEpoch then vrtAmount else 0) +
      s.ticketVrt (· + 1 = s.fullEpoch)
    rw [if_neg (by omega), buckets.coolingDown, zero_add]
  · refine Eq.trans ?_ (total_insert_of_absent absent).symm
    change s.vault.vrtReadyToClaimAmount = (if s.epochOf s.slot + 2 ≤ s.fullEpoch then vrtAmount else 0) +
      s.ticketVrt (· + 2 ≤ s.fullEpoch)
    rw [if_neg (by omega), buckets.readyToClaim, zero_add]

section

variable {base : Pubkey} (buckets : Buckets s) (upToDate : s.epoch ≤ s.fullEpoch)
  (found : s.withdrawalTickets.lookup base = some ticket) (withdrawable : s.epochOf ticket.slotUnstaked + 2 ≤ s.epoch)

include buckets upToDate found withdrawable

/-- A matured ticket of a vault that is up to date is part of what is ready to claim. -/
theorem matured : ticket.vrtAmount ≤ s.vault.vrtReadyToClaimAmount := by
  have part := measure_le_total (fun _ (ticket : VaultStakerWithdrawalTicket) =>
    if s.epochOf ticket.slotUnstaked + 2 ≤ s.fullEpoch then ticket.vrtAmount else 0) found
  rw [if_pos (by omega)] at part
  rw [buckets.readyToClaim]
  exact part

/-- Burning a matured ticket takes its VRT from what is ready to claim. -/
theorem burn {ledger : TokenLedger} :
    Buckets { s with
      vault := { s.vault with
        vrtSupply, tokensDeposited
        vrtReadyToClaimAmount := s.vault.vrtReadyToClaimAmount - ticket.vrtAmount }
      withdrawalTickets := s.withdrawalTickets.erase base
      ledger } := by
  have split : ∀ (among : Nat → Prop) [DecidablePred among], s.ticketVrt among =
      (if among (s.epochOf ticket.slotUnstaked) then ticket.vrtAmount else 0) +
        ({ s with withdrawalTickets := s.withdrawalTickets.erase base } : State).ticketVrt among := by
    intro among _
    exact total_eq_add_erase found
  have enqueued := buckets.enqueued
  have coolingDown := buckets.coolingDown
  have readyToClaim := buckets.readyToClaim
  rw [split, if_neg (by omega), zero_add] at enqueued
  rw [split, if_neg (by omega), zero_add] at coolingDown
  rw [split, if_pos (by omega)] at readyToClaim
  constructor
  · exact buckets.updatedLe
  · exact all_erase buckets.unstakedLe
  · exact enqueued
  · exact coolingDown
  · change s.vault.vrtReadyToClaimAmount - ticket.vrtAmount = _
    rw [readyToClaim, Nat.add_sub_cancel_left]
    rfl

end

theorem changeOwner (buckets : Buckets s) (found : s.withdrawalTickets.lookup base = some ticket) :
    Buckets { s with
      withdrawalTickets := s.withdrawalTickets.insert base { ticket with staker := newOwner } } := by
  have same : ∀ (among : Nat → Prop) [DecidablePred among],
      ({ s with withdrawalTickets := s.withdrawalTickets.insert base { ticket with staker := newOwner } } :
        State).ticketVrt among = s.ticketVrt among := by
    intro among _
    have before : s.ticketVrt among = _ := total_eq_add_erase found
    rw [before]
    exact total_insert
  constructor
  · exact buckets.updatedLe
  · exact all_insert (buckets.unstakedLe base ticket found)
      fun base' other _ => buckets.unstakedLe base' other
  · exact buckets.enqueued.trans (same _).symm
  · exact buckets.coolingDown.trans (same _).symm
  · exact buckets.readyToClaim.trans (same _).symm

/-- What is ready to claim or cools down was unstaked before the epoch of the last full update. -/
theorem before (buckets : Buckets s) : s.ticketVrt (· + 1 ≤ s.fullEpoch) =
    s.vault.vrtReadyToClaimAmount + s.vault.vrtCoolingDownAmount := by
  rw [buckets.readyToClaim, buckets.coolingDown]
  apply ticketVrt_add
  · intro base ticket found
    omega
  · intro epoch
    omega

theorem all {among : Nat → Prop} [DecidablePred among] (buckets : Buckets s)
    (every : s.withdrawalTickets.All fun _ ticket => among (s.epochOf ticket.slotUnstaked)) :
    s.ticketVrt among = s.vault.vrtReadyToClaimAmount + s.vault.vrtCoolingDownAmount +
      s.vault.vrtEnqueuedForCooldownAmount := by
  rw [← buckets.before, buckets.enqueued]
  apply ticketVrt_add
  · intro base ticket found
    have le := buckets.unstakedLe base ticket found
    exact iff_of_true (every base ticket found) (by omega)
  · intro epoch
    omega

/-- Finishing an update shifts the amounts as far as the tickets have aged since the last one. -/
theorem finish (buckets : Buckets s) (tracker) : Buckets (s.afterFinish tracker) := by
  have later := buckets.fullEpoch_le
  have unstaked := buckets.unstakedLe
  have current : s.withdrawalTickets.All fun _ ticket => s.epochOf ticket.slotUnstaked ≤ s.epoch :=
    unstaked.mono fun _ _ _ le => le.trans later
  rcases lt_trichotomy (s.epoch - s.fullEpoch) 1 with none | one | more
  · have same : s.epoch = s.fullEpoch := by omega
    rw [afterFinish, show s.epoch - s.fullEpoch = 0 by omega]
    have enqueued := buckets.enqueued
    have coolingDown := buckets.coolingDown
    have readyToClaim := buckets.readyToClaim
    rw [← same] at enqueued coolingDown readyToClaim
    exact ⟨le_refl _, current, enqueued, coolingDown, readyToClaim⟩
  · -- what was enqueued cools down, and what was cooling down is ready
    rw [afterFinish, one]
    refine ⟨le_refl _, current, ?_, ?_, ?_⟩
    · change 0 = s.ticketVrt (· = s.epoch)
      rw [ticketVrt_eq_zero]
      intro base ticket found
      have le := unstaked base ticket found
      omega
    · change s.vault.vrtEnqueuedForCooldownAmount = s.ticketVrt (· + 1 = s.epoch)
      rw [buckets.enqueued]
      apply ticketVrt_congr
      intro base ticket found
      omega
    · change s.vault.vrtReadyToClaimAmount + s.vault.vrtCoolingDownAmount = s.ticketVrt (· + 2 ≤ s.epoch)
      rw [← buckets.before]
      apply ticketVrt_congr
      intro base ticket found
      omega
  · -- after two or more epochs every ticket is ready
    obtain ⟨rest, diff⟩ : ∃ rest, s.epoch - s.fullEpoch = rest + 2 := ⟨s.epoch - s.fullEpoch - 2, by omega⟩
    rw [afterFinish, diff]
    refine ⟨le_refl _, current, ?_, ?_, ?_⟩
    · change 0 = s.ticketVrt (· = s.epoch)
      rw [ticketVrt_eq_zero]
      intro base ticket found
      have le := unstaked base ticket found
      omega
    · change 0 = s.ticketVrt (· + 1 = s.epoch)
      rw [ticketVrt_eq_zero]
      intro base ticket found
      have le := unstaked base ticket found
      omega
    · change _ = s.ticketVrt (· + 2 ≤ s.epoch)
      refine (buckets.all ?_).symm
      intro base ticket found
      have le := unstaked base ticket found
      omega

end Buckets

theorem buckets_step {action : Action} (buckets : Buckets s) (step : Step s action after) : Buckets after := by
  cases step with
  | enqueueWithdrawal upToDate absent => exact buckets.enqueue upToDate absent
  | changeWithdrawalTicketOwner found => exact buckets.changeOwner found
  | burnWithdrawalTicket upToDate found staker withdrawable => exact buckets.burn upToDate found withdrawable
  | finishUpdate => exact buckets.finish _
  | wait later => exact { buckets with updatedLe := buckets.updatedLe.trans later }
  | _ => exact { buckets with }

theorem buckets_run (init : Initialized s₀) (run : State.Steps anything s₀ actions s) : Buckets s := by
  refine init.always run (fun _ genesis => genesis.buckets) ?_
  intro s action after buckets _ step
  exact buckets_step buckets step

theorem Buckets.vrtReserve_eq (buckets : Buckets s) :
    s.vault.vrtReserve = Store.total (fun _ ticket => ticket.vrtAmount) s.withdrawalTickets := by
  have all : s.ticketVrt (fun _ => True) = _ := buckets.all fun _ _ _ => trivial
  simp only [ticketVrt, if_true] at all
  rw [all, Vault.vrtReserve]
  omega

/-- On every run, with `f` the epoch of the last full update: what is enqueued for cooldown are the VRT of the
    tickets unstaked in `f`, what is cooling down those of the epoch before, what is ready to claim those of
    all earlier epochs, and no ticket is younger. So a ticket that passes the checks of
    `BurnWithdrawalTicket` never underflows what is ready to claim. -/
theorem vrt_amounts_follow_tickets {s₀ s : State} {actions : List Action} (init : Initialized s₀)
    (run : State.Steps State.anything s₀ actions s) :
    s.vault.vrtEnqueuedForCooldownAmount = s.ticketVrt (fun epoch => epoch = s.fullEpoch) ∧
    s.vault.vrtCoolingDownAmount = s.ticketVrt (fun epoch => epoch + 1 = s.fullEpoch) ∧
    s.vault.vrtReadyToClaimAmount = s.ticketVrt (fun epoch => epoch + 2 ≤ s.fullEpoch) ∧
    (s.withdrawalTickets.All fun _ ticket => s.epochOf ticket.slotUnstaked ≤ s.fullEpoch) ∧
    (s.withdrawalTickets.All fun _ ticket =>
      s.vault.checkUpdateStateOk s.slot s.config.epochLength = .ok () →
      ticket.isWithdrawable s.slot s.config.epochLength = .ok true →
      ∀ program vault summary burned,
        s.vault.burnWithFee program vault ticket.vrtAmount = .ok (summary, burned) →
        ∃ after, burned.decrementVrtReadyToClaimAmount ticket.vrtAmount = .ok after) := by
  have buckets := buckets_run init run
  refine ⟨buckets.enqueued, buckets.coolingDown, buckets.readyToClaim, buckets.unstakedLe, ?_⟩
  intro base ticket found upToDate withdrawable program vault summary burned paid
  have current := Vault.checkUpdateStateOk_eq_ok.mp upToDate
  have aged := VaultStakerWithdrawalTicket.isWithdrawable_ok withdrawable
  have enough := buckets.matured current found aged
  obtain ⟨_, rfl⟩ := Vault.burnWithFee_ok paid
  simp only [Vault.decrementVrtReadyToClaimAmount, ok_iffs]
  exact ⟨_, _, ⟨enough, rfl⟩, rfl⟩

/-- Wallet 1 deposits, asks for thirty VRT back, and two epochs pass. -/
def Sample.ticketRun : List Action :=
  openAccounts ++ [deposit 50, enqueue 30] ++ update 10 ++ update 20

theorem Sample.ticketRun_succeeds :
    (exec apply anything ticketRun state).isSome = true := by decide

open Sample

/-- The hypotheses are met by a run that leaves a matured ticket. -/
theorem vrt_amounts_follow_tickets_sample :
    ∃ s, State.Steps State.anything state ticketRun s ∧ s.fullEpoch = 2 ∧
      s.vault.vrtReadyToClaimAmount = 30 ∧
        s.vault.vrtReadyToClaimAmount = s.ticketVrt (fun epoch => epoch + 2 ≤ s.fullEpoch) := by
  have run := run_exec_get ticketRun_succeeds
  exact ⟨_, run, by decide, by decide, (vrt_amounts_follow_tickets state_initialized run).2.2.1⟩

end

open Lib Vault Store State

variable {s after s₀ : State} {action : Action} {actions : List Action}

/-! ### The supply of VRT -/

/-- The vault alone can mint its VRT. -/
def OwnsMint (s : State) : Prop :=
  s.ledger.authority s.vault.vrtMint = some s.vault.key

/-- An action that is not a burn of VRT by their holder. -/
def SparesVrt (s : State) : Action → Prop
  | .token action => action.burnsVrt s.vault s.ledger = false
  | _ => True

/-- How one step moves the supply of the mint and the recorded supply. -/
structure SupplyStepped (s : State) (action : Action) (after : State) : Prop where
  owns : OwnsMint after
  le : after.ledger.supply after.vault.vrtMint + s.vault.vrtSupply ≤
    s.ledger.supply s.vault.vrtMint + after.vault.vrtSupply
  eq : SparesVrt s action → after.ledger.supply after.vault.vrtMint + s.vault.vrtSupply =
    s.ledger.supply s.vault.vrtMint + after.vault.vrtSupply

/-- Every step that mints or burns VRT records it; only a holder's own burn goes unrecorded. -/
theorem supply_step (owns : OwnsMint s) (step : Step s action after) : SupplyStepped s action after := by
  -- a step that records what it does to the supply
  have recorded : ∀ {next : State}, OwnsMint next →
      next.ledger.supply next.vault.vrtMint + s.vault.vrtSupply =
        s.ledger.supply s.vault.vrtMint + next.vault.vrtSupply → SupplyStepped s action next :=
    fun owned same => ⟨owned, same.le, fun _ => same⟩
  cases step with
  | mintTo upToDate minted received kept supply authority =>
    refine recorded (authority.trans owns) ?_
    dsimp only [afterMint]
    omega
  | enqueueWithdrawal upToDate absent pos received kept supply authority =>
    refine recorded (authority.trans owns) ?_
    dsimp only [afterEnqueue]
    omega
  | burnWithdrawalTicket upToDate found staker withdrawable burned claimed paidOut =>
    have burnLe := burned.burnAmount_le
    have held := burned.held
    have drained := paidOut.burned
    refine recorded (paidOut.authority owns) ?_
    dsimp only [afterBurn]
    omega
  | updateVaultBalance upToDate updated kept supply authority =>
    refine recorded (authority.trans owns) ?_
    dsimp only [afterUpdate]
    omega
  | token taken =>
    have evolves := tokenAction_evolves owns taken
    refine ⟨evolves.authority, Nat.add_le_add_right evolves.supply _, ?_⟩
    intro spares
    exact congrArg (· + s.vault.vrtSupply) (evolves.supplyEq spares)
  | _ => exact recorded owns rfl

/-! ### Deposits -/

/-- The recorded deposits are in the vault's associated account of the supported mint. -/
def DepositsBacked (s : State) : Prop :=
  s.vault.tokensDeposited ≤ s.ledger.balance s.vault.tokenAccount

theorem depositsBacked_step (owns : OwnsMint s) (backed : DepositsBacked s) (step : Step s action after) :
    DepositsBacked after := by
  have atVault := s.vault.guards_tokenAccount
  cases step with
  | mintTo upToDate minted received => exact (Nat.add_le_add_right backed _).trans received
  | enqueueWithdrawal upToDate absent pos received kept => exact backed.trans (kept _ atVault)
  | burnWithdrawalTicket upToDate found staker withdrawable burned claimed paidOut =>
    -- the payout leaves the books and the account together
    exact Nat.sub_le_iff_le_add.mpr (backed.trans paidOut.paid)
  | updateVaultBalance upToDate updated kept => exact kept _ atVault
  | token taken => exact backed.trans ((tokenAction_evolves owns taken).kept _ atVault)
  | _ => exact backed

theorem depositsBacked_run (owns : OwnsMint s₀) (backed : DepositsBacked s₀)
    (run : State.Steps anything s₀ actions s) : DepositsBacked s := by
  have both : OwnsMint s ∧ DepositsBacked s := by
    refine run.invariant (P := fun s => OwnsMint s ∧ DepositsBacked s) ?_ ⟨owns, backed⟩
    intro s action after ⟨owns, backed⟩ _ taken
    have step := step_of_apply taken
    exact ⟨(supply_step owns step).owns, depositsBacked_step owns backed step⟩
  exact both.2

/-- The deposits of a vault are backed in every state it reaches exactly when `InitializeVault` was given the
    vault's associated token account, or when that account held the initial amount anyway: the
    instruction checks only the owner and the mint of the account it pays the initial amount to, while
    all others use the associated account. -/
theorem deposits_backed_iff {slot : Nat} {config : Config} {ledger : TokenLedger} {signers : Signers}
    {accounts : InitializeVaultAccounts}
    {depositFeeBps withdrawalFeeBps rewardFeeBps initializeTokenAmount : Nat} {s₀ : State}
    (created : processInitializeVault slot config ledger signers accounts depositFeeBps withdrawalFeeBps
      rewardFeeBps initializeTokenAmount = .ok s₀) :
    (∀ actions s, State.Steps anything s₀ actions s →
      s.vault.tokensDeposited ≤ s.ledger.balance s.vault.tokenAccount) ↔
    (accounts.vaultStTokenAccount = .associatedToken (.vault accounts.base) accounts.stMint ∨
      initializeTokenAmount ≤ ledger.balance (.associatedToken (.vault accounts.base) accounts.stMint)) := by
  obtain ⟨genesis, deposited, atVault, balance⟩ := processInitializeVault_ok created
  rw [← atVault]
  have first : DepositsBacked s₀ ↔ accounts.vaultStTokenAccount = s₀.vault.tokenAccount ∨
      initializeTokenAmount ≤ ledger.balance s₀.vault.tokenAccount := by
    unfold DepositsBacked
    rw [deposited, balance]
    split
    · rename_i given
      simp only [given, true_or, iff_true]
      omega
    · rename_i elsewhere
      simp only [elsewhere, false_or]
  rw [← first]
  constructor
  · intro always
    exact always [] s₀ (.refl s₀)
  · intro backed actions s run
    exact depositsBacked_run genesis.authority_eq backed run

/-- `InitializeVault` of the sample vault, with some account as the vault's account of the supported mint. -/
def Sample.createAt (ledger : TokenLedger) (vaultStTokenAccount : Pubkey) : Except ProgramError State :=
  processInitializeVault 0 config ledger (signers [1, 2, 3])
    { vrtMint := vrtMint
      stMint := stMint
      adminStTokenAccount := ata 1 stMint
      vaultStTokenAccount
      admin := .wallet 1
      base := .wallet 2 }
    0 0 0 100

/-- Account 6 belongs to the vault too, but is not its associated account. -/
def Sample.otherLedger : TokenLedger :=
  (ledger.createAccount (.wallet 6) vaultKey stMint).toOption.getD ledger

open Sample

/-- A vault created with its associated account has its deposits backed. -/
theorem deposits_backed_iff_associated :
    createAt ledger (.associatedToken vaultKey stMint) = .ok state ∧
      ∀ actions s, State.Steps anything state actions s →
        s.vault.tokensDeposited ≤ s.ledger.balance s.vault.tokenAccount :=
  ⟨create_eq_ok, (deposits_backed_iff create_eq_ok).mpr (.inl rfl)⟩

/-- A vault created with another account of its own records a hundred tokens, and its associated account holds
    none. -/
theorem deposits_unbacked_in_other_account :
    ∃ s₀, createAt otherLedger (.wallet 6) = .ok s₀ ∧
      ¬ ∀ actions s, State.Steps anything s₀ actions s →
        s.vault.tokensDeposited ≤ s.ledger.balance s.vault.tokenAccount := by
  have created := eq_ok_get (show (createAt otherLedger (.wallet 6)).toOption.isSome = true by decide)
  refine ⟨_, created, fun always => ?_⟩
  have backed := always [] _ (.refl _)
  exact absurd backed (by decide)

/-! ### Tickets -/

/-- The VRT of a vault: the mint's supply is recorded, and every ticket holds its VRT. -/
structure VrtBacked (s : State) : Prop where
  owns : OwnsMint s
  supply : s.ledger.supply s.vault.vrtMint ≤ s.vault.vrtSupply
  supplyFits : s.vault.vrtSupply < 2 ^ 64
  tickets : s.withdrawalTickets.All fun base ticket =>
    0 < ticket.vrtAmount ∧ ticket.vrtAmount ≤ s.ledger.balance (s.vault.ticketAccount base)

theorem Genesis.vrtBacked (genesis : Genesis s) : VrtBacked s where
  owns := genesis.authority_eq
  supply := genesis.supply_eq.le
  supplyFits := by rw [genesis.vrtSupply_eq]; exact genesis.tokensDeposited_lt
  tickets := by rw [genesis.withdrawalTickets_eq]; exact all_empty

/-- Tickets that are left alone keep their VRT if their accounts lose none. -/
theorem VrtBacked.tickets_kept (backed : VrtBacked s) {ledger : TokenLedger}
    (kept : ∀ key, s.vault.Guards key → s.ledger.balance key ≤ ledger.balance key) :
    s.withdrawalTickets.All fun base ticket =>
      0 < ticket.vrtAmount ∧ ticket.vrtAmount ≤ ledger.balance (s.vault.ticketAccount base) := by
  intro base ticket found
  obtain ⟨pos, held⟩ := backed.tickets base ticket found
  exact ⟨pos, held.trans (kept _ (s.vault.guards_ticketAccount base))⟩

theorem supplyFits_step (fits : s.vault.vrtSupply < 2 ^ 64) (step : Step s action after) :
    after.vault.vrtSupply < 2 ^ 64 := by
  cases step with
  | mintTo upToDate minted => exact minted.supplyFits
  | burnWithdrawalTicket => exact lt_of_le_of_lt (Nat.sub_le _ _) fits
  | updateVaultBalance upToDate updated => exact updated.supplyFits
  | _ => exact fits

theorem tickets_step (backed : VrtBacked s) (step : Step s action after) :
    after.withdrawalTickets.All fun base ticket =>
      0 < ticket.vrtAmount ∧ ticket.vrtAmount ≤ after.ledger.balance (after.vault.ticketAccount base) := by
  cases step with
  | mintTo upToDate minted received kept => exact backed.tickets_kept kept
  | enqueueWithdrawal upToDate absent pos received kept =>
    refine all_insert ⟨pos, ?_⟩ ?_
    · exact (Nat.le_add_left _ _).trans received
    · intro base ticket _ found
      exact backed.tickets_kept kept base ticket found
  | changeWithdrawalTicketOwner found =>
    have held := backed.tickets _ _ found
    refine all_insert held ?_
    intro base ticket _ present
    exact backed.tickets base ticket present
  | burnWithdrawalTicket upToDate found staker withdrawable burned claimed paidOut =>
    -- the payout touches the account of no other ticket
    intro base ticket present
    obtain ⟨other, present⟩ := lookup_erase_eq_some.mp present
    obtain ⟨pos, held⟩ := backed.tickets base ticket present
    refine ⟨pos, held.trans (paidOut.kept _ (s.vault.guards_ticketAccount base) ?_ ?_)⟩
    · exact s.vault.ticketAccount_ne_tokenAccount base
    · exact fun same => other (s.vault.ticketAccount_injective same)
  | updateVaultBalance upToDate updated kept => exact backed.tickets_kept kept
  | token taken => exact backed.tickets_kept (tokenAction_evolves backed.owns taken).kept
  | _ => exact backed.tickets

theorem vrtBacked_step (backed : VrtBacked s) (step : Step s action after) : VrtBacked after := by
  have stepped := supply_step backed.owns step
  have le := stepped.le
  have before := backed.supply
  exact ⟨stepped.owns, by omega, supplyFits_step backed.supplyFits step, tickets_step backed step⟩

theorem vrtBacked_run (init : Initialized s₀) (run : State.Steps anything s₀ actions s) : VrtBacked s := by
  refine init.always run (fun _ genesis => genesis.vrtBacked) ?_
  intro s action after backed _ step
  exact vrtBacked_step backed step

theorem supply_eq_of_spared (init : Initialized s₀) (run : State.Steps SparesVrt s₀ actions s) :
    s.ledger.supply s.vault.vrtMint = s.vault.vrtSupply := by
  have exact : OwnsMint s ∧ s.ledger.supply s.vault.vrtMint = s.vault.vrtSupply := by
    refine init.always (P := fun s => OwnsMint s ∧ s.ledger.supply s.vault.vrtMint = s.vault.vrtSupply) run
      (fun _ genesis => ⟨genesis.authority_eq, genesis.supply_eq⟩) ?_
    intro s action after ⟨owns, same⟩ spares step
    have stepped := supply_step owns step
    have moved := stepped.eq spares
    exact ⟨stepped.owns, by omega⟩
  exact exact.2

theorem VrtBacked.reserve_le (backed : VrtBacked s) (buckets : Buckets s) : s.vault.vrtReserve ≤ s.vault.vrtSupply := by
  rw [buckets.vrtReserve_eq]
  have covered : total (fun _ ticket => ticket.vrtAmount) s.withdrawalTickets ≤ s.ledger.held s.vault.vrtMint := by
    apply total_le_total_of_injective s.vault.ticketAccount_injective
    intro base ticket found
    obtain ⟨pos, held⟩ := backed.tickets base ticket found
    cases present : s.ledger.accounts.lookup (s.vault.ticketAccount base) with
    | none =>
      simp only [TokenAccounts.balance, present, Option.map_none, Option.getD_none] at held
      omega
    | some account =>
      rw [TokenAccounts.balance_of_lookup present] at held
      have mint := (s.ledger.sound.associated _ _ _ present).1
      exact ⟨account, rfl, by rw [if_pos mint]; exact held⟩
  exact covered.trans ((s.ledger.sound.conserves _).le.trans backed.supply)

/-! ### Emptying a ticket's account -/

/-- A successful `BurnWithdrawalTicket` moves the whole balance of the ticket's account out, in three parts:
    the vault fee, the program fee with what was in the account beyond the ticket's amount, and the burned
    amount. -/
structure TicketEmptied (s : State) (accounts : BurnWithdrawalTicketAccounts) (after : State) : Prop where
  emptied : ∃ ticket summary burned extra first second third fourth,
    s.withdrawalTickets.lookup accounts.base = some ticket ∧
    s.vault.burnWithFee (decide (s.config.programFeeWallet = accounts.staker))
      (decide (s.vault.feeWallet = accounts.staker)) ticket.vrtAmount = .ok (summary, burned) ∧
    ticket.vrtAmount + extra = s.ledger.balance (s.vault.ticketAccount accounts.base) ∧
    summary.vaultFeeAmount + (summary.programFeeAmount + extra) + summary.burnAmount =
      s.ledger.balance (s.vault.ticketAccount accounts.base) ∧
    s.ledger.transfer (s.vault.ticketAccount accounts.base) accounts.vaultFeeTokenAccount
      (s.ticketKey accounts.base) summary.vaultFeeAmount = .ok first ∧
    first.transfer (s.vault.ticketAccount accounts.base) accounts.programFeeTokenAccount
      (s.ticketKey accounts.base) (summary.programFeeAmount + extra) = .ok second ∧
    second.burn (s.vault.ticketAccount accounts.base) s.vault.vrtMint (s.ticketKey accounts.base)
      summary.burnAmount = .ok third ∧
    third.balance (s.vault.ticketAccount accounts.base) = 0 ∧
    third.closeAccount (s.vault.ticketAccount accounts.base) (s.ticketKey accounts.base) = .ok fourth ∧
    fourth.transfer s.vault.tokenAccount accounts.stakerTokenAccount s.vault.key summary.outAmount = .ok after.ledger
  closed : after.ledger.accounts.lookup (s.vault.ticketAccount accounts.base) = none

theorem burnWithdrawalTicket_empties {signers : Signers}
    (taken : s.apply (.burnWithdrawalTicket signers accounts) = .ok after) : TicketEmptied s accounts after := by
  simp only [apply, processBurnWithdrawalTicket, ok_iffs, asProgramError_eq_ok, checkVrtMint,
    decrementVrtReadyToClaimAmount, Prod.exists] at taken
  obtain ⟨_, vaultLoaded, _, _, _, _, ticket, found, _, ticketLoaded, _, _, _, _, _, _, mintEq, _, _, _, _, _, _, _, _,
    _, summary, vault, burned, _, ⟨within, rfl⟩, _, ⟨_, rfl⟩, _, ⟨_, ⟨_, rfl⟩, rfl⟩, ledger, paidOut, rfl⟩ := taken
  obtain ⟨split, left⟩ := burnWithFee_ok burned
  have atVault : accounts.vaultTokenAccount = s.vault.tokenAccount := loadAssociatedTokenAccount_ok vaultLoaded
  have atTicket : accounts.vaultStakerWithdrawalTicketTokenAccount = s.vault.ticketAccount accounts.base :=
    loadAssociatedTokenAccount_ok ticketLoaded
  have sum := s.vault.burnSummary_sum (decide (s.config.programFeeWallet = accounts.staker))
    (decide (s.vault.feeWallet = accounts.staker)) ticket.vrtAmount
  rw [← split.split] at sum
  subst left
  simp only [payOutTicket, atVault, atTicket, ← mintEq, bind_ok_iff] at paidOut within
  obtain ⟨first, feePaid, second, programPaid, third, drained, fourth, closed, paid⟩ := paidOut
  obtain ⟨_, empty, gone⟩ := TokenLedger.closeAccount_ok closed
  refine ⟨⟨ticket, summary, _, _, first, second, third, fourth, found, burned, ?_, ?_, feePaid, programPaid,
    drained, empty, closed, paid⟩, (TokenLedger.transfer_ok paid).absent _ gone⟩
  · omega
  · omega

/-- On every run: the mint's supply is at most the recorded supply, and equal to it if no holder burned VRT;
    every ticket's account holds the ticket's VRT, so what is reserved for tickets is in circulation; and
    every successful `BurnWithdrawalTicket` empties and closes the ticket's account. -/
theorem vrt_backed {s₀ s : State} {actions : List Action} (init : Initialized s₀)
    (run : State.Steps anything s₀ actions s) :
    s.ledger.supply s.vault.vrtMint ≤ s.vault.vrtSupply ∧
    (State.Steps SparesVrt s₀ actions s → s.ledger.supply s.vault.vrtMint = s.vault.vrtSupply) ∧
    (s.withdrawalTickets.All fun base ticket =>
      ticket.vrtAmount ≤ s.ledger.balance (s.vault.ticketAccount base)) ∧
    s.vault.vrtEnqueuedForCooldownAmount + s.vault.vrtCoolingDownAmount + s.vault.vrtReadyToClaimAmount ≤
      s.vault.vrtSupply ∧
    (∀ signers accounts after, s.apply (.burnWithdrawalTicket signers accounts) = .ok after →
      TicketEmptied s accounts after) := by
  have backed := vrtBacked_run init run
  refine ⟨backed.supply, supply_eq_of_spared init, ?_, backed.reserve_le (buckets_run init run), ?_⟩
  · exact backed.tickets.mono fun _ _ _ held => held.2
  · intro signers accounts after taken
    exact burnWithdrawalTicket_empties taken

/-- The hypotheses are met by a run that leaves an outstanding ticket. -/
theorem vrt_backed_sample :
    ∃ s, State.Steps anything state ticketRun s ∧ s.vault.vrtSupply = 150 ∧
      s.vault.vrtEnqueuedForCooldownAmount + s.vault.vrtCoolingDownAmount + s.vault.vrtReadyToClaimAmount ≤
        s.vault.vrtSupply := by
  have run := run_exec_get ticketRun_succeeds
  exact ⟨_, run, by decide, (vrt_backed state_initialized run).2.2.2.1⟩

/-! ### Withdrawals wait -/

/-- The ticket of a base is for this amount and was unstaked at this slot, whoever owns it. -/
def HoldsTicket (base : Pubkey) (vrtAmount slotUnstaked : Nat) (s : State) : Prop :=
  ∃ staker, s.withdrawalTickets.lookup base = some { staker, vrtAmount, slotUnstaked }

/-- The action redeems the ticket of a base. -/
def Action.Redeems (base : Pubkey) (action : Action) : Prop :=
  ∃ signers accounts, action = .burnWithdrawalTicket signers accounts ∧ accounts.base = base

variable {base : Pubkey}

theorem Step.not_redeems (step : Step s action after) (held : HoldsTicket base vrtAmount slotUnstaked after) :
    ¬ action.Redeems base := by
  rintro ⟨_, _, rfl, rfl⟩
  obtain ⟨_, found⟩ := held
  cases step with
  | burnWithdrawalTicket => exact (lookup_erase_eq_some.mp found).1 rfl
  | configure _ _ _ administrative => cases administrative

/-- A ticket comes from a step that enqueues it: a change of its owner keeps the amount and the slot. -/
theorem Step.enqueued (step : Step s action after) (absent : ¬ HoldsTicket base vrtAmount slotUnstaked s)
    (held : HoldsTicket base vrtAmount slotUnstaked after) :
    ∃ signers accounts, action = .enqueueWithdrawal signers accounts vrtAmount ∧ accounts.base = base ∧
      s.slot = slotUnstaked := by
  obtain ⟨staker, found⟩ := held
  cases step with
  | enqueueWithdrawal =>
    rcases lookup_insert_eq_some.mp found with ⟨rfl, same⟩ | ⟨_, kept⟩
    · cases same
      exact ⟨_, _, rfl, rfl, rfl⟩
    · exact absurd ⟨staker, kept⟩ absent
  | changeWithdrawalTicketOwner before =>
    rcases lookup_insert_eq_some.mp found with ⟨rfl, same⟩ | ⟨_, kept⟩
    · cases same
      exact absurd ⟨_, before⟩ absent
    · exact absurd ⟨staker, kept⟩ absent
  | burnWithdrawalTicket => exact absurd ⟨staker, (lookup_erase_eq_some.mp found).2⟩ absent
  | _ => exact absurd ⟨staker, found⟩ absent

/-- On every run, a ticket that is redeemed was enqueued under its base at least two epochs before, for exactly the VRT
    that are claimed for it, and was not redeemed in between; redeeming it removes it. -/
theorem withdrawals_wait {s₀ s after : State} {actions : List Action} {signers : Signers}
    {accounts : BurnWithdrawalTicketAccounts} (init : Initialized s₀) (run : State.Steps anything s₀ actions s)
    (taken : s.apply (.burnWithdrawalTicket signers accounts) = .ok after) :
    ∃ vrtAmount before enqueuers enqueued between start,
      after.vault.vrtReadyToClaimAmount + vrtAmount = s.vault.vrtReadyToClaimAmount ∧
      after.withdrawalTickets.lookup accounts.base = none ∧
      actions = before ++ .enqueueWithdrawal enqueuers enqueued vrtAmount :: between ∧
      State.Steps anything s₀ before start ∧ enqueued.base = accounts.base ∧
      s.epochOf start.slot + 2 ≤ s.epoch ∧ ∀ action ∈ between, ¬ action.Redeems accounts.base := by
  cases step_of_apply taken with
  | burnWithdrawalTicket _ found _ withdrawable _ claimed _ =>
    obtain ⟨_, _, _, _, _, _, _, _, _, created⟩ := init
    have empty := (processInitializeVault_ok created).1.withdrawalTickets_eq
    rcases run.onset (P := HoldsTicket accounts.base _ _) ⟨_, found⟩
      (fun _ _ _ _ held taken => (step_of_apply taken).not_redeems held) with
      ⟨⟨_, early⟩, _⟩ | ⟨before, _, between, start, _, rfl, reached, fresh, began, held, none⟩
    · simp [empty] at early
    obtain ⟨enqueuers, enqueued, rfl, same, unstaked⟩ := (step_of_apply began).enqueued fresh held
    exact ⟨_, before, enqueuers, enqueued, between, start, Nat.sub_add_cancel claimed, AList.lookup_erase _ _, rfl,
      reached, same, unstaked ▸ withdrawable, none⟩
  | configure _ _ _ administrative => cases administrative

/-- The accounts with which the ticket of base 7 is redeemed. -/
def Sample.redeem : BurnWithdrawalTicketAccounts :=
  { vrtMint
    vaultTokenAccount := state.vault.tokenAccount
    staker := .wallet 1
    stakerTokenAccount := ata 1 stMint
    base := .wallet 7
    vaultStakerWithdrawalTicketTokenAccount := state.vault.ticketAccount (.wallet 7)
    vaultFeeTokenAccount := ata 1 vrtMint
    programFeeTokenAccount := ata 8 vrtMint
    mintBurnAdmin := none }

/-- Two epochs after the ticket was enqueued, and with an account for the program fee. -/
def Sample.payableRun : List Action :=
  ticketRun ++ [.token (.createAccount (ata 8 vrtMint) (.wallet 8) vrtMint)]

/-- The hypotheses are met when the ticket is redeemed, by nobody in particular. -/
theorem withdrawals_wait_sample :
    ∃ s after vrtAmount, State.Steps anything state payableRun s ∧
      s.apply (.burnWithdrawalTicket (signers []) redeem) = .ok after ∧
      after.vault.vrtReadyToClaimAmount + vrtAmount = s.vault.vrtReadyToClaimAmount := by
  obtain ⟨s, run, succeeds⟩ : ∃ s, State.Steps anything state payableRun s ∧
      (s.apply (.burnWithdrawalTicket (signers []) redeem)).toOption.isSome = true :=
    ⟨_, run_exec_get (by decide), by decide⟩
  have taken := eq_ok_get succeeds
  obtain ⟨vrtAmount, _, _, _, _, _, claimed, _⟩ := withdrawals_wait state_initialized run taken
  exact ⟨s, _, vrtAmount, run, taken, claimed⟩

end Payout.Restaking
