/-
Purpose: When a matured ticket can be redeemed. An update reserves the tokens for all outstanding tickets as if they
  were one ticket of a staker who pays every fee, at the rates of the cycle; a redemption pays a single ticket, at the
  rates in force.
-/
import Payout.RestakingProofs.Unstaking

namespace Payout.Restaking

open Lib Store Vault State VaultOperatorDelegation VaultStakerWithdrawalTicket
open DelegationState (cooled)

variable {s after s₀ : State} {tokensDeposited minted enqueued vrtAmount operatorCount : Nat}
  {tracker : VaultUpdateStateTracker}

variable {staker base operator : Pubkey} {amount : Nat} {ledger : TokenLedger} {ticket : VaultStakerWithdrawalTicket}
  {delegationState : DelegationState} {delegation : VaultOperatorDelegation}
  {updateStateTrackers : Store Nat VaultUpdateStateTracker}

namespace Vault

/-- Both fees on an amount, before they are cut to it. -/
def fees (self : Vault) (amount : Nat) : Nat :=
  self.programFeeBps.share amount + self.withdrawalFeeBps.share amount

/-- The cut of the vault fee makes the subtraction stop at nothing. -/
theorem netOfFees_eq (self : Vault) (amount) : self.netOfFees amount = amount - self.fees amount := by
  unfold netOfFees vaultFee fees
  omega

theorem fees_zero (self : Vault) : self.fees 0 = 0 := by
  simp [fees]

theorem fees_add_le (self : Vault) (amount amount') :
    self.fees (amount + amount') ≤ self.fees amount + self.fees amount' := by
  have program := self.programFeeBps.share_add_le amount amount'
  have withdrawal := self.withdrawalFeeBps.share_add_le amount amount'
  unfold fees
  omega

end Vault

/-! ### What tickets are owed -/

/-- The VRT to be paid for, of the tickets unstaked in an epoch of a kind, if they pay every fee. -/
def owedOn (epochOf : Nat → Nat) (vault : Vault) (tickets : Store Pubkey VaultStakerWithdrawalTicket)
    (among : Nat → Prop) [DecidablePred among] : Nat :=
  Store.total (fun _ ticket => if among (epochOf ticket.slotUnstaked) then
    vault.netOfFees ticket.vrtAmount else 0) tickets

def State.owed (s : State) (among : Nat → Prop) [DecidablePred among] : Nat :=
  owedOn s.epochOf s.vault s.withdrawalTickets among

section Owed

variable {among among' : Nat → Prop} [DecidablePred among] [DecidablePred among']

theorem owed_mono (le : ∀ epoch, among epoch → among' epoch) : s.owed among ≤ s.owed among' := by
  unfold owed owedOn
  apply total_mono
  intro base ticket found
  by_cases mem : among (s.epochOf ticket.slotUnstaked)
  · rw [if_pos mem, if_pos (le _ mem)]
  · rw [if_neg mem]
    exact Nat.zero_le _

theorem Books.owed_le (books : Books s) : s.owed among ≤ s.vault.vrtSupply := by
  have within : s.owed among ≤ total (fun _ ticket => ticket.vrtAmount) s.withdrawalTickets := by
    unfold owed owedOn
    apply total_mono
    intro base ticket found
    have net := s.vault.netOfFees_eq ticket.vrtAmount
    split <;> omega
  have reserve := books.vrt.reserve_le books.buckets
  rw [books.buckets.vrtReserve_eq] at reserve
  exact within.trans reserve

/-- Tickets that are large enough for their fees are owed no more than one ticket over all their VRT. -/
theorem Books.owed_le_net (books : Books s) (among : Nat → Prop) [DecidablePred among]
    (fit : s.withdrawalTickets.All fun _ ticket => s.vault.fees ticket.vrtAmount ≤ ticket.vrtAmount) :
    s.owed among ≤ s.vault.netOfFees s.vault.vrtReserve := by
  have bounded : s.owed among ≤ total (fun _ ticket => s.vault.netOfFees ticket.vrtAmount) s.withdrawalTickets := by
    unfold owed owedOn
    apply total_mono
    intro base ticket found
    split
    · exact le_refl _
    · exact Nat.zero_le _
  -- the fees of the parts, rounded up one by one, are at least the fees of the whole
  have parts : total (fun _ ticket => s.vault.netOfFees ticket.vrtAmount) s.withdrawalTickets +
      total (fun _ ticket => s.vault.fees ticket.vrtAmount) s.withdrawalTickets =
      total (fun _ ticket => ticket.vrtAmount) s.withdrawalTickets := by
    rw [← total_add]
    apply total_congr
    intro base ticket found
    have large := fit base ticket found
    have net := s.vault.netOfFees_eq ticket.vrtAmount
    omega
  have whole : s.vault.fees (total (fun _ ticket => ticket.vrtAmount) s.withdrawalTickets) ≤
      total (fun _ ticket => s.vault.fees ticket.vrtAmount) s.withdrawalTickets :=
    le_total_of_subadditive s.vault.fees_zero s.vault.fees_add_le
  rw [s.vault.netOfFees_eq, books.buckets.vrtReserve_eq]
  omega

/-- What is owed on tickets large enough for their fees is reserved. -/
theorem Books.proRata_owed_le (books : Books s) (among) [DecidablePred among]
    (fit : s.withdrawalTickets.All fun _ ticket => s.vault.fees ticket.vrtAmount ≤ ticket.vrtAmount) :
    proRata (s.owed among) s.vault.tokensDeposited s.vault.vrtSupply ≤ s.vault.requested :=
  proRata_mono (books.owed_le_net among fit)

end Owed

/-! ### The condition on steps -/

/-- A staker who redeems an amount and pays every fee that is due: no fee wallet gets out of one. -/
def State.WaivesNothing (s : State) (staker : Pubkey) (amount : Nat) : Prop :=
  (s.config.programFeeWallet = staker → s.vault.programFeeBps.share amount = 0) ∧
    (s.vault.feeWallet = staker → s.vault.vaultFee amount = 0)

instance (s : State) (staker : Pubkey) (amount : Nat) : Decidable (s.WaivesNothing staker amount) :=
  inferInstanceAs (Decidable (_ ∧ _))

/-- A cycle that starts with rates at which every ticket is large enough for its fees and which, if it could
    be finished in the epoch after the last full update, do not lower the fees of the tickets that will be
    matured by then. -/
def State.StartsWithFittingFees (s : State) : Prop :=
  s.withdrawalTickets.All fun _ ticket =>
    (s.vault.withCycleFees s.config).fees ticket.vrtAmount ≤ ticket.vrtAmount ∧
      (s.epoch = s.fullEpoch + 1 → s.epochOf ticket.slotUnstaked < s.fullEpoch →
        s.vault.fees ticket.vrtAmount ≤ (s.vault.withCycleFees s.config).fees ticket.vrtAmount)

instance (s : State) : Decidable s.StartsWithFittingFees :=
  inferInstanceAs (Decidable (Store.All _ _))

/-- The steps that keep what was reserved for tickets available: burns that waive no fee, balance updates
    without a loss, delegations while every ticket is large enough for its fees, and cycles that start with
    fitting fees. -/
def KeepsReserve (s : State) : Action → Prop
  | .burnWithdrawalTicket _ accounts => ∀ ticket ∈ s.withdrawalTickets.lookup accounts.base,
      s.WaivesNothing accounts.staker ticket.vrtAmount
  | .updateVaultBalance _ => s.vault.tokensDeposited ≤ s.ledger.balance s.vault.tokenAccount
  | .addDelegation .. => s.withdrawalTickets.All fun _ ticket =>
    s.vault.fees ticket.vrtAmount ≤ ticket.vrtAmount
  | .initializeVaultUpdateStateTracker .. => s.startEpoch = s.fullEpoch → s.StartsWithFittingFees
  | _ => True

instance (s : State) (action : Action) : Decidable (KeepsReserve s action) := by
  unfold KeepsReserve
  split <;> infer_instance

/-- Without a waiver the amount burned is the amount less its fees. -/
theorem State.WaivesNothing.burnAmount (waives : s.WaivesNothing staker amount) :
    (s.vault.burnSummary (decide (s.config.programFeeWallet = staker)) (decide (s.vault.feeWallet = staker))
      amount).burnAmount = s.vault.netOfFees amount := by
  obtain ⟨program, vault⟩ := waives
  simp only [burnSummary, netOfFees, decide_eq_true_eq]
  by_cases isProgram : s.config.programFeeWallet = staker
  · rw [if_pos isProgram, program isProgram]
    by_cases isVault : s.vault.feeWallet = staker
    · rw [if_pos isVault, vault isVault]
    · rw [if_neg isVault]
  · rw [if_neg isProgram]
    by_cases isVault : s.vault.feeWallet = staker
    · rw [if_pos isVault, vault isVault]
    · rw [if_neg isVault]

theorem State.WaivesNothing.outAmount (waives : s.WaivesNothing staker amount) :
    (s.vault.burnSummary (decide (s.config.programFeeWallet = staker)) (decide (s.vault.feeWallet = staker))
      amount).outAmount =
      proRata (s.vault.netOfFees amount) s.vault.tokensDeposited s.vault.vrtSupply := by
  rw [← waives.burnAmount]
  rfl

/-! ### The invariant -/

/-- Everything that is delegated. -/
def securityOf (delegations : Store Pubkey VaultOperatorDelegation) : Nat :=
  Store.total (fun _ delegation => delegation.delegationState.total) delegations

/-- What will be delegated to an operator in the epoch after the last full update: one not updated since then
    loses what is cooling down, one already updated has lost it. -/
def nextStake (epochOf : Nat → Nat) (fullEpoch : Nat) (delegation : VaultOperatorDelegation) : Nat :=
  if epochOf delegation.lastUpdateSlot = fullEpoch then
    delegation.delegationState.stakedAmount + delegation.delegationState.enqueuedForCooldownAmount
  else delegation.delegationState.total

/-- Everything that will be delegated in the epoch after the last full update. -/
def nextSecurityOf (epochOf : Nat → Nat) (fullEpoch : Nat)
    (delegations : Store Pubkey VaultOperatorDelegation) : Nat :=
  Store.total (fun _ delegation => nextStake epochOf fullEpoch delegation) delegations

theorem State.delegated_total (s : State) : s.delegated.total = securityOf s.operatorDelegations :=
  map_total rfl DelegationState.total_add

/-- The invariant of the reserve. -/
structure Reserve (s : State) : Prop where
  tokensFit : s.vault.tokensDeposited < 2 ^ 64
  /-- Between cycles, what the matured tickets are owed is not delegated. -/
  now : s.startEpoch = s.fullEpoch →
    proRata (s.owed (· + 2 ≤ s.fullEpoch)) s.vault.tokensDeposited s.vault.vrtSupply +
      securityOf s.operatorDelegations ≤ s.vault.tokensDeposited
  /-- Unless the next full update is a later one, the same holds for the epoch after the last. -/
  next : s.startEpoch ≤ s.fullEpoch + 1 →
    proRata (s.owed (· + 1 ≤ s.fullEpoch)) s.vault.tokensDeposited s.vault.vrtSupply +
      nextSecurityOf s.epochOf s.fullEpoch s.operatorDelegations ≤ s.vault.tokensDeposited
  /-- Operators updated since the last full update have nothing enqueued, and from the second epoch on
      nothing cooling down. -/
  processed : s.operatorDelegations.All fun _ delegation =>
    s.fullEpoch < s.epochOf delegation.lastUpdateSlot →
      delegation.delegationState.enqueuedForCooldownAmount = 0 ∧
        (s.fullEpoch + 1 < s.epochOf delegation.lastUpdateSlot →
          delegation.delegationState.coolingDownAmount = 0)
  /-- Tickets that a cycle was started with are large enough for their fees. -/
  fit : s.withdrawalTickets.All fun _ ticket =>
    s.epochOf ticket.slotUnstaked < s.fullEpoch ∨ s.startEpoch ≠ s.fullEpoch →
      s.vault.fees ticket.vrtAmount ≤ ticket.vrtAmount

theorem Genesis.reserve (genesis : Genesis s) : Reserve s where
  tokensFit := genesis.tokensDeposited_lt
  now := by
    intro _
    rw [owed, owedOn, securityOf, genesis.withdrawalTickets_eq, genesis.operatorDelegations_eq,
      total_empty, total_empty, proRata_zero_part]
    exact Nat.zero_le _
  next := by
    intro _
    rw [owed, owedOn, nextSecurityOf, genesis.withdrawalTickets_eq, genesis.operatorDelegations_eq,
      total_empty, total_empty, proRata_zero_part]
    exact Nat.zero_le _
  processed := by rw [genesis.operatorDelegations_eq]; exact all_empty
  fit := by rw [genesis.withdrawalTickets_eq]; exact all_empty

namespace Reserve

/-! ### Deposits and tickets -/

section

variable (reserve : Reserve s)
include reserve

/-- Tokens that come in are not delegated, whatever VRT are minted for them. -/
theorem join (books : Books s) (grows : s.vault.tokensDeposited ≤ tokensDeposited) (fits : tokensDeposited < 2 ^ 64) :
    Reserve { s with
      vault := { s.vault with
        vrtSupply := s.vault.vrtSupply + minted
        tokensDeposited }
      ledger } := by
  obtain ⟨amount, rfl⟩ := Nat.exists_eq_add_of_le grows
  constructor
  · exact fits
  · intro settled
    have joined : proRata (s.owed (· + 2 ≤ s.fullEpoch)) (s.vault.tokensDeposited + amount)
        (s.vault.vrtSupply + minted) + securityOf s.operatorDelegations ≤ s.vault.tokensDeposited + amount :=
      covers_join books.owed_le (reserve.now settled)
    exact joined
  · intro near
    have joined : proRata (s.owed (· + 1 ≤ s.fullEpoch)) (s.vault.tokensDeposited + amount)
        (s.vault.vrtSupply + minted) + nextSecurityOf s.epochOf s.fullEpoch s.operatorDelegations ≤
          s.vault.tokensDeposited + amount :=
      covers_join books.owed_le (reserve.next near)
    exact joined
  · exact reserve.processed
  · exact reserve.fit

/-- Tickets may change as long as what is owed on matured ones does not grow. -/
theorem retickets
    (owedNow : owedOn s.epochOf s.vault tickets (· + 2 ≤ s.fullEpoch) ≤ s.owed (· + 2 ≤ s.fullEpoch))
    (owedNext : owedOn s.epochOf s.vault tickets (· + 1 ≤ s.fullEpoch) ≤ s.owed (· + 1 ≤ s.fullEpoch))
    (fit : tickets.All fun _ ticket => s.epochOf ticket.slotUnstaked < s.fullEpoch ∨ s.startEpoch ≠ s.fullEpoch →
      s.vault.fees ticket.vrtAmount ≤ ticket.vrtAmount) :
    Reserve { s with
      vault := { s.vault with vrtEnqueuedForCooldownAmount := enqueued }
      withdrawalTickets := tickets
      ledger } := by
  constructor
  · exact reserve.tokensFit
  · intro settled
    exact (Nat.add_le_add_right (proRata_mono owedNow) _).trans (reserve.now settled)
  · intro near
    exact (Nat.add_le_add_right (proRata_mono owedNext) _).trans (reserve.next near)
  · exact reserve.processed
  · exact fit

/-- A new ticket is not owed anything before two epochs have passed. -/
theorem enqueue (books : Books s) (upToDate : s.epoch ≤ s.fullEpoch) (absent : s.withdrawalTickets.lookup base = none) :
    Reserve (s.afterEnqueue base staker vrtAmount ledger) := by
  obtain ⟨current, settled, _⟩ := books.delegations.settled upToDate
  have here : s.epochOf s.slot = s.fullEpoch := current.symm
  have same : ∀ (among : Nat → Prop) [DecidablePred among], ¬ among (s.epochOf s.slot) →
      owedOn s.epochOf s.vault (s.withdrawalTickets.insert base { staker, vrtAmount, slotUnstaked := s.slot })
        among ≤ s.owed among := by
    intro among _ excluded
    rw [owedOn, total_insert_of_absent absent, if_neg excluded, Nat.zero_add]
    exact le_refl _
  refine reserve.retickets (same _ (by omega)) (same _ (by omega)) ?_
  refine all_insert ?_ fun base' ticket _ => reserve.fit base' ticket
  rintro (earlier | under)
  · exact absurd here earlier.ne
  · exact absurd settled under

theorem changeOwner (found : s.withdrawalTickets.lookup base = some ticket) :
    Reserve { s with
      withdrawalTickets := s.withdrawalTickets.insert base { ticket with staker := newOwner } } := by
  have same : ∀ (among : Nat → Prop) [DecidablePred among],
      owedOn s.epochOf s.vault (s.withdrawalTickets.insert base { ticket with staker := newOwner }) among ≤
        s.owed among := by
    intro among _
    rw [owedOn, total_insert, owed, owedOn, total_eq_add_erase found]
  have old := reserve.fit base ticket found
  exact reserve.retickets (same _) (same _)
    (all_insert old fun base' other _ => reserve.fit base' other)

/-- A matured ticket that pays its fees takes its own part of the reserve and nothing else. -/
theorem burn (books : Books s) (upToDate : s.epoch ≤ s.fullEpoch)
    (found : s.withdrawalTickets.lookup base = some ticket)
    (withdrawable : s.epochOf ticket.slotUnstaked + 2 ≤ s.epoch) :
    Reserve { s with
      vault := { s.vault with
        vrtSupply := s.vault.vrtSupply - s.vault.netOfFees ticket.vrtAmount
        tokensDeposited := s.vault.tokensDeposited -
          proRata (s.vault.netOfFees ticket.vrtAmount) s.vault.tokensDeposited s.vault.vrtSupply
        vrtReadyToClaimAmount := readyToClaim }
      withdrawalTickets := s.withdrawalTickets.erase base
      ledger } := by
  obtain ⟨current, settled, _⟩ := books.delegations.settled upToDate
  have split : ∀ (among : Nat → Prop) [DecidablePred among], among (s.epochOf ticket.slotUnstaked) →
      s.vault.netOfFees ticket.vrtAmount ≤ s.owed among ∧
      s.owed among - s.vault.netOfFees ticket.vrtAmount =
        owedOn s.epochOf s.vault (s.withdrawalTickets.erase base) among := by
    intro among _ included
    rw [owed, owedOn, owedOn, total_eq_add_erase found, if_pos included]
    omega
  constructor
  · exact lt_of_le_of_lt (Nat.sub_le _ _) reserve.tokensFit
  · intro _
    obtain ⟨inside, rest⟩ := split (· + 2 ≤ s.fullEpoch) (by omega)
    have left := covers_leave inside books.owed_le (reserve.now settled)
    rw [rest] at left
    exact left
  · intro near
    obtain ⟨inside, rest⟩ := split (· + 1 ≤ s.fullEpoch) (by omega)
    have left := covers_leave inside books.owed_le (reserve.next near)
    rw [rest] at left
    exact left
  · exact reserve.processed
  · exact all_erase reserve.fit

/-! ### Stake -/

/-- In a vault that is up to date stake may be moved as long as the matured tickets stay covered. -/
theorem restake (upToDate : s.epoch ≤ s.fullEpoch)
    (updated : delegations.All fun _ delegation => delegation.lastUpdateSlot ≤ s.slot)
    (now : proRata (s.owed (· + 2 ≤ s.fullEpoch)) s.vault.tokensDeposited s.vault.vrtSupply +
      securityOf delegations ≤ s.vault.tokensDeposited)
    (next : proRata (s.owed (· + 1 ≤ s.fullEpoch)) s.vault.tokensDeposited s.vault.vrtSupply +
      nextSecurityOf s.epochOf s.fullEpoch delegations ≤ s.vault.tokensDeposited) :
    Reserve { s with
      vault := { s.vault with operatorCount, delegationState }
      operatorDelegations := delegations } := by
  refine ⟨reserve.tokensFit, fun _ => now, fun _ => next, ?_, reserve.fit⟩
  intro key delegation present later
  have past : s.epochOf delegation.lastUpdateSlot ≤ s.epoch := s.config.epochOf_mono (updated key delegation present)
  exact absurd later (not_lt.mpr (past.trans upToDate))

theorem addOperator (books : Books s) (upToDate : s.epoch ≤ s.fullEpoch)
    (absent : s.operatorDelegations.lookup operator = none) :
    Reserve { s with
      vault := { s.vault with operatorCount := s.vault.operatorCount + 1 }
      operatorDelegations := s.operatorDelegations.insert operator
        (new s.vault.operatorCount s.slot) } := by
  obtain ⟨_, settled, _⟩ := books.delegations.settled upToDate
  have unstaked : nextStake s.epochOf s.fullEpoch
      (new s.vault.operatorCount s.slot) = 0 := by
    unfold nextStake
    split <;> rfl
  have security : securityOf (s.operatorDelegations.insert operator
      (new s.vault.operatorCount s.slot)) = securityOf s.operatorDelegations := by
    rw [securityOf, total_insert_of_absent absent]
    exact Nat.zero_add _
  have nextSecurity : nextSecurityOf s.epochOf s.fullEpoch (s.operatorDelegations.insert operator
      (new s.vault.operatorCount s.slot)) =
      nextSecurityOf s.epochOf s.fullEpoch s.operatorDelegations := by
    rw [nextSecurityOf, total_insert_of_absent absent, unstaked]
    exact Nat.zero_add _
  refine reserve.restake upToDate ?_ ?_ ?_
  · exact all_insert (le_refl _) fun key other _ found => (books.delegations.updated key other found).2
  · rw [security]
    exact reserve.now settled
  · rw [nextSecurity]
    exact reserve.next (by omega)

end

/-- Changing the stake of one operator changes both sums by the change of its parts. -/
theorem restake_totals (delegationState) (found : s.operatorDelegations.lookup operator = some delegation)
    (current : s.epochOf delegation.lastUpdateSlot = s.fullEpoch) :
    securityOf (s.operatorDelegations.insert operator { delegation with delegationState }) +
        delegation.delegationState.total =
      securityOf s.operatorDelegations + delegationState.total ∧
    nextSecurityOf s.epochOf s.fullEpoch
        (s.operatorDelegations.insert operator { delegation with delegationState }) +
        (delegation.delegationState.stakedAmount + delegation.delegationState.enqueuedForCooldownAmount) =
      nextSecurityOf s.epochOf s.fullEpoch s.operatorDelegations +
        (delegationState.stakedAmount + delegationState.enqueuedForCooldownAmount) := by
  constructor
  · rw [securityOf, securityOf, total_insert, total_eq_add_erase found]
    dsimp only
    omega
  · rw [nextSecurityOf, nextSecurityOf, total_insert, total_eq_add_erase found, nextStake, nextStake,
      if_pos current, if_pos current]
    dsimp only
    omega

theorem updated_insert (books : Books s) (found : s.operatorDelegations.lookup operator = some delegation)
    (delegationState) :
    Store.All (fun _ (delegation : VaultOperatorDelegation) => delegation.lastUpdateSlot ≤ s.slot)
      (s.operatorDelegations.insert operator { delegation with delegationState }) := by
  have old := (books.delegations.updated operator delegation found).2
  exact all_insert old fun key other _ present => (books.delegations.updated key other present).2

section

variable (reserve : Reserve s) (books : Books s) (upToDate : s.epoch ≤ s.fullEpoch)
  (found : s.operatorDelegations.lookup operator = some delegation)
include reserve books upToDate found

theorem delegate (available : s.vault.delegationState.total + s.vault.requested + amount ≤ s.vault.tokensDeposited)
    (fit : s.withdrawalTickets.All fun _ ticket => s.vault.fees ticket.vrtAmount ≤ ticket.vrtAmount)
    (grown : stake.total = delegation.delegationState.total + amount)
    (nextGrown : stake.stakedAmount + stake.enqueuedForCooldownAmount =
      delegation.delegationState.stakedAmount + delegation.delegationState.enqueuedForCooldownAmount + amount) :
    Reserve { s with
      vault := { s.vault with delegationState }
      operatorDelegations := s.operatorDelegations.insert operator { delegation with
        delegationState := stake } } := by
  obtain ⟨_, settled, _⟩ := books.delegations.settled upToDate
  obtain ⟨allUpdated, total⟩ := books.delegations.complete settled
  obtain ⟨security, nextSecurity⟩ := restake_totals stake found (allUpdated _ _ found)
  have delegated : s.vault.delegationState.total = securityOf s.operatorDelegations := by
    rw [total, s.delegated_total]
  have nextLe : nextSecurityOf s.epochOf s.fullEpoch s.operatorDelegations ≤ securityOf s.operatorDelegations := by
    apply total_mono
    intro key other present
    unfold nextStake DelegationState.total
    split <;> omega
  have owedNow := books.proRata_owed_le (· + 2 ≤ s.fullEpoch) fit
  have owedNext := books.proRata_owed_le (· + 1 ≤ s.fullEpoch) fit
  refine reserve.restake upToDate (updated_insert books found _) ?_ ?_
  · omega
  · omega

/-- Stake that is cooled down is delegated until it has cooled down. -/
theorem cooldown (within : amount ≤ delegation.delegationState.stakedAmount) :
    Reserve { s with
      vault := { s.vault with delegationState }
      operatorDelegations := s.operatorDelegations.insert operator { delegation with
        delegationState := delegation.delegationState.cooled amount } } := by
  obtain ⟨_, settled, _⟩ := books.delegations.settled upToDate
  have current := (books.delegations.complete settled).1 operator delegation found
  obtain ⟨security, nextSecurity⟩ := restake_totals (delegation.delegationState.cooled amount) found current
  have now := reserve.now settled
  have next := reserve.next (by omega)
  have moved : (delegation.delegationState.cooled amount).total = delegation.delegationState.total := by
    simp only [cooled, DelegationState.total]
    omega
  have kept : (delegation.delegationState.cooled amount).stakedAmount +
      (delegation.delegationState.cooled amount).enqueuedForCooldownAmount =
      delegation.delegationState.stakedAmount + delegation.delegationState.enqueuedForCooldownAmount := by
    simp only [cooled]
    omega
  refine reserve.restake upToDate (updated_insert books found _) ?_ ?_
  · omega
  · omega

end

/-! ### Update cycles -/

/-- A cycle that starts with fitting fees finds the tickets matured in the next epoch covered. -/
theorem start (reserve : Reserve s) (outdated : s.fullEpoch < s.epoch) (complete : s.fullEpoch = s.startEpoch)
    (fitting : s.StartsWithFittingFees) :
    Reserve (s.afterStart method) := by
  constructor
  · exact reserve.tokensFit
  · intro settled
    change s.epoch = s.fullEpoch at settled
    omega
  · intro near
    change s.epoch ≤ s.fullEpoch + 1 at near
    have next := reserve.next (by omega)
    have owedLe : owedOn s.epochOf (s.vault.withCycleFees s.config) s.withdrawalTickets
        (· + 1 ≤ s.fullEpoch) ≤ s.owed (· + 1 ≤ s.fullEpoch) := by
      unfold owed owedOn
      apply total_mono
      intro base ticket found
      by_cases earlier : s.epochOf ticket.slotUnstaked + 1 ≤ s.fullEpoch
      · have notLower := (fitting base ticket found).2 (by omega) (by omega)
        have before := s.vault.netOfFees_eq ticket.vrtAmount
        have after := (s.vault.withCycleFees s.config).netOfFees_eq ticket.vrtAmount
        rw [if_pos earlier, if_pos earlier]
        omega
      · rw [if_neg earlier, if_neg earlier]
    exact (Nat.add_le_add_right (proRata_mono owedLe) _).trans next
  · exact reserve.processed
  · intro base ticket found _
    exact (fitting base ticket found).1

theorem resume (reserve : Reserve s) (books : Books s) (outdated : s.fullEpoch < s.epoch)
    (under : s.fullEpoch ≠ s.startEpoch) :
    Reserve { s with
      vault := { s.vault with lastStartStateUpdateSlot := s.slot }
      updateStateTrackers } := by
  have startLe := books.delegations.startEpoch_le
  constructor
  · exact reserve.tokensFit
  · intro settled
    change s.epoch = s.fullEpoch at settled
    omega
  · intro near
    change s.epoch ≤ s.fullEpoch + 1 at near
    exact reserve.next (by omega)
  · exact reserve.processed
  · intro base ticket found _
    exact reserve.fit base ticket found (.inr (Ne.symm under))

/-- Aging by one epoch drops what was cooling down; aging by more drops what was enqueued too. -/
theorem updateFor_parts (stake : DelegationState) (pos : 0 < epochDiff) :
    (stake.updateFor epochDiff).enqueuedForCooldownAmount = 0 ∧
      (stake.updateFor epochDiff).coolingDownAmount =
        if epochDiff = 1 then stake.enqueuedForCooldownAmount else 0 := by
  match epochDiff with
  | 0 => omega
  | 1 => exact ⟨rfl, rfl⟩
  | rest + 2 => exact ⟨rfl, rfl⟩

/-- A crank in the epoch after the last full update leaves the stake it was counted with; a crank in a later
    epoch leaves nothing but active stake. -/
theorem crank (reserve : Reserve s) (books : Books s) (found : s.operatorDelegations.lookup operator = some delegation)
    (tracked : s.updateStateTrackers.lookup s.epoch = some tracker)
    (outdated : s.epochOf delegation.lastUpdateSlot < s.epoch) :
    Reserve (s.afterCrank operator delegation indexed) := by
  obtain ⟨behind, started, _⟩ := books.delegations.cycle tracker tracked
  have fullLe := (books.delegations.updated operator delegation found).1
  have bounds := forcedAmount_le s delegation
  have staked := crankedDelegation_stakedAmount s delegation
  obtain ⟨enqueued, coolingDown⟩ := updateFor_parts
    (delegation.delegationState.cooled (forcedAmount s delegation))
    (show 0 < s.epoch - s.epochOf delegation.lastUpdateSlot by omega)
  constructor
  · exact reserve.tokensFit
  · intro settled
    change s.startEpoch = s.fullEpoch at settled
    omega
  · intro near
    change s.startEpoch ≤ s.fullEpoch + 1 at near
    have next := reserve.next near
    -- in this epoch the operator was last updated in the epoch of the last full update
    have fresh : s.epochOf delegation.lastUpdateSlot = s.fullEpoch := by omega
    have same : nextStake s.epochOf s.fullEpoch (crankedDelegation s delegation) =
        nextStake s.epochOf s.fullEpoch delegation := by
      have current : s.epochOf (crankedDelegation s delegation).lastUpdateSlot ≠ s.fullEpoch := behind.ne'
      rw [nextStake, nextStake, if_pos fresh, if_neg current]
      rw [if_pos (by omega)] at coolingDown
      have cooled : (delegation.delegationState.cooled (forcedAmount s delegation)).enqueuedForCooldownAmount =
          delegation.delegationState.enqueuedForCooldownAmount + forcedAmount s delegation := rfl
      unfold DelegationState.total
      rw [staked]
      simp only [crankedDelegation, enqueued, coolingDown, cooled]
      omega
    have kept : nextSecurityOf s.epochOf s.fullEpoch
        (s.operatorDelegations.insert operator (crankedDelegation s delegation)) =
        nextSecurityOf s.epochOf s.fullEpoch s.operatorDelegations := by
      rw [nextSecurityOf, nextSecurityOf, total_insert, total_eq_add_erase found, same]
    rw [← kept] at next
    exact next
  · refine all_insert ?_ fun key other _ => reserve.processed key other
    intro _
    refine ⟨enqueued, fun second => ?_⟩
    change s.fullEpoch + 1 < s.epoch at second
    change ((delegation.delegationState.cooled (forcedAmount s delegation)).updateFor
      (s.epoch - s.epochOf delegation.lastUpdateSlot)).coolingDownAmount = 0
    rw [coolingDown]
    split
    · -- last updated one epoch ago, in a cycle that was given up: nothing was left enqueued
      rename_i one
      have visited : s.fullEpoch < s.epochOf delegation.lastUpdateSlot := by omega
      have empty := (reserve.processed operator delegation found visited).1
      have unforced : forcedAmount s delegation = 0 := by
        unfold forcedAmount
        rw [if_pos visited]
      simp only [cooled, empty, unforced]
    · rfl
  · exact reserve.fit

/-- When the cycle is finished, what the matured tickets are owed is free: in the epoch after the last full
    update because it was covered before, later because all tickets are covered by the reserve. -/
theorem finish (reserve : Reserve s) (books : Books s) (unstaking : Unstaking s)
    (tracked : s.updateStateTrackers.lookup s.epoch = some tracker)
    (finished : 0 < s.vault.operatorCount → tracker.allOperatorsUpdated s.vault.operatorCount = .ok true) :
    Reserve (s.afterFinish tracker) := by
  obtain ⟨behind, started, _⟩ := books.delegations.cycle tracker tracked
  obtain ⟨all, total⟩ := books.delegations.all_visited tracked finished
  have free := (unstaking.finished books tracked finished).2
  rw [total, s.delegated_stakedAmount] at free
  have fit : s.withdrawalTickets.All fun _ ticket => s.vault.fees ticket.vrtAmount ≤ ticket.vrtAmount :=
    reserve.fit.mono fun _ _ _ large => large (.inr (by omega))
  have nextSecurity : nextSecurityOf s.epochOf s.epoch s.operatorDelegations = s.staked := by
    apply total_congr
    intro key delegation present
    have current := all key delegation present
    have empty := (reserve.processed key delegation present (by omega)).1
    rw [nextStake, if_pos current, empty, Nat.add_zero]
  constructor
  · exact reserve.tokensFit
  · intro _
    change proRata (s.owed (· + 2 ≤ s.epoch)) s.vault.tokensDeposited s.vault.vrtSupply +
      securityOf s.operatorDelegations ≤ s.vault.tokensDeposited
    rcases Nat.lt_or_ge (s.fullEpoch + 1) s.epoch with later | first
    · have owed := books.proRata_owed_le (· + 2 ≤ s.epoch) fit
      have security : securityOf s.operatorDelegations = s.staked := by
        apply total_congr
        intro key delegation present
        have current := all key delegation present
        obtain ⟨empty, cooled⟩ := reserve.processed key delegation present (by omega)
        rw [DelegationState.total, empty, cooled (by omega), Nat.add_zero]
      omega
    · have next := reserve.next (by omega)
      have owed : s.owed (· + 2 ≤ s.epoch) ≤ s.owed (· + 1 ≤ s.fullEpoch) :=
        owed_mono fun epoch => by omega
      have security : nextSecurityOf s.epochOf s.fullEpoch s.operatorDelegations =
          securityOf s.operatorDelegations := by
        apply total_congr
        intro key delegation present
        have current := all key delegation present
        rw [nextStake, if_neg (by omega)]
      rw [security] at next
      exact (Nat.add_le_add_right (proRata_mono owed) _).trans next
  · intro _
    have owed := books.proRata_owed_le (· + 1 ≤ s.epoch) fit
    change proRata (s.owed (· + 1 ≤ s.epoch)) s.vault.tokensDeposited s.vault.vrtSupply +
      nextSecurityOf s.epochOf s.epoch s.operatorDelegations ≤ s.vault.tokensDeposited
    omega
  · intro key delegation present later
    change s.epoch < s.epochOf delegation.lastUpdateSlot at later
    have current := all key delegation present
    omega
  · intro base ticket found _
    exact fit base ticket found

end Reserve

theorem reserve_step (books : Books s) (unstaking : Unstaking s) (reserve : Reserve s) (meets : KeepsReserve s action)
    (step : Step s action after) : Reserve after := by
  have ⟨tokensFit, now, next, processed, fit⟩ := reserve
  cases step with
  | mintTo upToDate minted => exact reserve.join books (Nat.le_add_right _ _) minted.tokensFit
  | enqueueWithdrawal upToDate absent => exact reserve.enqueue books upToDate absent
  | changeWithdrawalTicketOwner found => exact reserve.changeOwner found
  | burnWithdrawalTicket upToDate found staker withdrawable burned =>
    have waives := meets _ found
    rw [afterBurn, burned.split, waives.burnAmount, waives.outAmount]
    exact reserve.burn books upToDate found withdrawable
  | updateVaultBalance => exact reserve.join books meets (s.ledger.balance_lt _)
  | initializeVaultOperatorDelegation upToDate absent => exact reserve.addOperator books upToDate absent
  | addDelegation upToDate found available =>
    refine reserve.delegate books upToDate found available meets ?_ ?_
    · simp only [DelegationState.total]
      omega
    · dsimp only
      omega
  | cooldownDelegation upToDate found within => exact reserve.cooldown books upToDate found within
  | resumeUpdate outdated untracked under => exact reserve.resume books outdated under
  | startUpdate outdated untracked complete =>
    exact reserve.start outdated complete (meets complete.symm)
  | crankVaultUpdateStateTracker found tracked outdated => exact reserve.crank books found tracked outdated
  | finishUpdate tracked finished => exact reserve.finish books unstaking tracked finished
  | _ => exact ⟨tokensFit, now, next, processed, fit⟩

/-- The reserve is kept by every run whose steps meet the condition. -/
theorem reserve_run (init : Initialized s₀) (run : State.Steps KeepsReserve s₀ actions s) : Books s ∧ Reserve s := by
  have all : Books s ∧ Unstaking s ∧ Reserve s := by
    refine init.always (P := fun s => Books s ∧ Unstaking s ∧ Reserve s) run
      (fun _ genesis => ⟨genesis.books, genesis.unstaking, genesis.reserve⟩) ?_
    intro s action after ⟨books, unstaking, reserve⟩ meets step
    exact ⟨books_step books step, unstaking_step books unstaking step,
      reserve_step books unstaking reserve meets step⟩
  exact ⟨all.1, all.2.2⟩

/-! ### Redemption -/

theorem Reserve.redeemable (reserve : Reserve s) (books : Books s) (upToDate : s.epoch ≤ s.fullEpoch)
    (found : s.withdrawalTickets.lookup base = some ticket)
    (withdrawable : s.epochOf ticket.slotUnstaked + 2 ≤ s.epoch)
    (waives : s.WaivesNothing ticket.staker ticket.vrtAmount) :
    ∃ summary burned, s.vault.burnWithFee (decide (s.config.programFeeWallet = ticket.staker))
      (decide (s.vault.feeWallet = ticket.staker)) ticket.vrtAmount = .ok (summary, burned) := by
  obtain ⟨current, settled, _⟩ := books.delegations.settled upToDate
  have total := (books.delegations.complete settled).2
  have pos := (books.vrt.tickets base ticket found).1
  have large := reserve.fit base ticket found (.inl (by omega))
  have held : ticket.vrtAmount ≤ s.vault.vrtSupply := by
    have ready := books.buckets.matured upToDate found withdrawable
    have circulating := books.vrt.reserve_le books.buckets
    unfold vrtReserve at circulating
    omega
  have feesFit : s.vault.fees ticket.vrtAmount < 2 ^ 64 := by
    have supplyFits := books.vrt.supplyFits
    omega
  -- the ticket is one of those covered
  have part : s.vault.netOfFees ticket.vrtAmount ≤ s.owed (· + 2 ≤ s.fullEpoch) := by
    have measured := measure_le_total (fun _ (ticket : VaultStakerWithdrawalTicket) =>
      if s.epochOf ticket.slotUnstaked + 2 ≤ s.fullEpoch then s.vault.netOfFees ticket.vrtAmount else 0) found
    rw [if_pos (by omega)] at measured
    exact measured
  have available : s.vault.delegationState.total + (s.vault.burnSummary
      (decide (s.config.programFeeWallet = ticket.staker)) (decide (s.vault.feeWallet = ticket.staker))
      ticket.vrtAmount).outAmount ≤ s.vault.tokensDeposited := by
    have now := reserve.now settled
    have outLe : proRata (s.vault.netOfFees ticket.vrtAmount) s.vault.tokensDeposited s.vault.vrtSupply ≤
        proRata (s.owed (· + 2 ≤ s.fullEpoch)) s.vault.tokensDeposited s.vault.vrtSupply :=
      proRata_mono part
    rw [waives.outAmount, total, s.delegated_total]
    omega
  obtain ⟨burned, paid⟩ := burnWithFee_of_available pos held books.vrt.supplyFits reserve.tokensFit
    feesFit available
  exact ⟨_, burned, paid⟩

/-- In every state reached by steps that keep the reserve, every ticket that is withdrawable in a vault that is
    up to date can be redeemed, unless a fee would be waived for its staker. -/
theorem matured_tickets_redeemable {s₀ s : State} {actions : List Action} (init : Initialized s₀)
    (run : State.Steps KeepsReserve s₀ actions s) {base : Pubkey} {ticket : VaultStakerWithdrawalTicket}
    (found : s.withdrawalTickets.lookup base = some ticket)
    (upToDate : s.vault.checkUpdateStateOk s.slot s.config.epochLength = .ok ())
    (withdrawable : ticket.isWithdrawable s.slot s.config.epochLength = .ok true)
    (waives : s.WaivesNothing ticket.staker ticket.vrtAmount) :
    ∃ summary burned, s.vault.burnWithFee (decide (s.config.programFeeWallet = ticket.staker))
      (decide (s.vault.feeWallet = ticket.staker)) ticket.vrtAmount = .ok (summary, burned) := by
  obtain ⟨books, reserve⟩ := reserve_run init run
  exact reserve.redeemable books (checkUpdateStateOk_eq_ok.mp upToDate) found
    (isWithdrawable_ok withdrawable) waives

/-- A vault that is up to date, in a state reached by steps that keep the reserve, holds the tokens for all that is
    delegated and for all withdrawable tickets together, if it holds its first deposit. -/
theorem vault_solvent {s₀ s : State} {actions : List Action} (init : Initialized s₀) (backed : DepositsBacked s₀)
    (run : State.Steps KeepsReserve s₀ actions s)
    (upToDate : s.vault.checkUpdateStateOk s.slot s.config.epochLength = .ok ()) :
    proRata (s.owed fun epoch => epoch + 2 ≤ s.epoch) s.vault.tokensDeposited s.vault.vrtSupply +
      s.vault.delegationState.total ≤ s.ledger.balance s.vault.tokenAccount := by
  obtain ⟨books, reserve⟩ := reserve_run init run
  obtain ⟨current, settled, _⟩ := books.delegations.settled (checkUpdateStateOk_eq_ok.mp upToDate)
  have covered := reserve.now settled
  rw [← s.delegated_total, ← (books.delegations.complete settled).2] at covered
  obtain ⟨_, _, _, _, _, _, _, _, _, created⟩ := init
  have held : DepositsBacked s := depositsBacked_run (processInitializeVault_ok created).1.authority_eq backed
    (run.weaken fun _ _ _ => trivial)
  rw [← current]
  exact covered.trans held

/-! ### The fee wallet's own ticket -/

/-- A vault with a withdrawal fee of ten per cent. Its fee wallet is its admin, wallet 1. -/
def Sample.feeState : State := (create 0 1000 0).toOption.get (by decide)

theorem Sample.feeState_initialized : Initialized feeState := by
  have created : create 0 1000 0 = .ok feeState := eq_ok_get _
  exact ⟨_, _, _, _, _, _, _, _, _, created⟩

/-- Wallet 1 asks for a hundred VRT back, and everything that is not reserved for them is delegated; two full
    updates follow. -/
def Sample.matureRun : List Action :=
  openAccounts ++
    [deposit 100,
      .initializeVaultOperatorDelegation (signers [1]) (.wallet 20) (.wallet 1) (.wallet 1),
      enqueue 100,
      .addDelegation (signers [1]) (.wallet 20) (.wallet 1) 110,
      .wait 10, .initializeVaultUpdateStateTracker (signers [1]) (.wallet 1) .greedy,
      .crankVaultUpdateStateTracker (.wallet 20),
      .closeVaultUpdateStateTracker (signers [1]) (.wallet 1) 1,
      .wait 20, .initializeVaultUpdateStateTracker (signers [1]) (.wallet 1) .greedy,
      .crankVaultUpdateStateTracker (.wallet 20),
      .closeVaultUpdateStateTracker (signers [1]) (.wallet 1) 2]

/-- The same run, after which another wallet becomes the fee wallet. -/
def Sample.redeemRun : List Action :=
  matureRun ++ [.setSecondaryAdmin (signers [1]) (.wallet 1) (.wallet 9) .feeWallet]

theorem Sample.redeemRun_succeeds :
    (exec apply KeepsReserve redeemRun feeState).isSome = true := by decide

open Sample

/-- The hypotheses are met by a run that leaves a matured ticket, and the ticket is paid ninety tokens. -/
theorem matured_tickets_redeemable_sample :
    ∃ s, State.Steps KeepsReserve feeState redeemRun s ∧
      ∃ summary burned, s.vault.burnWithFee (decide (s.config.programFeeWallet = .wallet 1))
        (decide (s.vault.feeWallet = .wallet 1)) 100 = .ok (summary, burned) := by
  have run := run_exec_get redeemRun_succeeds
  have found : ((exec apply KeepsReserve redeemRun feeState).get
      redeemRun_succeeds).withdrawalTickets.lookup (.wallet 7) = some ⟨.wallet 1, 100, 0⟩ := by decide
  exact ⟨_, run, matured_tickets_redeemable feeState_initialized run found (by decide) (by decide)
    (by decide)⟩

/-- The hypotheses are met by a vault that has delegated what it does not owe. -/
theorem vault_solvent_sample :
    ∃ s, State.Steps KeepsReserve feeState redeemRun s ∧ s.vault.delegationState.total = 110 ∧
      proRata (s.owed fun epoch => epoch + 2 ≤ s.epoch) s.vault.tokensDeposited s.vault.vrtSupply +
        s.vault.delegationState.total ≤ s.ledger.balance s.vault.tokenAccount := by
  have run := run_exec_get redeemRun_succeeds
  have backed : feeState.vault.tokensDeposited ≤ feeState.ledger.balance feeState.vault.tokenAccount := by decide
  exact ⟨_, run, by decide, vault_solvent feeState_initialized backed run (by decide)⟩

/-- The ticket of the fee wallet itself: ninety tokens are reserved for it, it would be paid a hundred, and so
    it cannot be redeemed. -/
theorem fee_wallet_ticket_not_redeemable :
    ∃ s, Initialized feeState ∧ State.Steps State.anything feeState matureRun s ∧
      s.withdrawalTickets.lookup (.wallet 7) = some ⟨.wallet 1, 100, 0⟩ ∧
      s.vault.checkUpdateStateOk s.slot s.config.epochLength = .ok () ∧
      s.vault.isPaused = false ∧
      isWithdrawable ⟨.wallet 1, 100, 0⟩ s.slot s.config.epochLength = .ok true ∧
      s.vault.burnWithFee (decide (s.config.programFeeWallet = .wallet 1))
        (decide (s.vault.feeWallet = .wallet 1)) 100 = .error .vaultUnderflow := by
  exact ⟨_, feeState_initialized, run_exec_get (by decide), by decide, by decide, by decide, by decide, by rfl⟩

end Payout.Restaking
