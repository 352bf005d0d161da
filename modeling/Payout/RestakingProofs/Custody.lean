/-
Purpose: Who can take tokens out of the accounts a vault relies on. The vault's own account of the supported mint and
  the VRT accounts of its tickets are guarded: nobody outside the vault's instructions can spend from them, and each
  instruction debits at most the one it is about.
-/
import Payout.Restaking.Program

namespace Payout.Restaking

open Lib TokenLedger Pubkey

namespace Vault

/-- The vault's associated account of the supported mint. -/
def tokenAccount (vault : Vault) : Pubkey := .associatedToken vault.key vault.supportedMint

/-- The associated VRT account of the ticket of a base. -/
def ticketAccount (vault : Vault) (base : Pubkey) : Pubkey :=
  .associatedToken (.withdrawalTicket vault.key base) vault.vrtMint

/-- The accounts the vault relies on. -/
def Guards (vault : Vault) (key : Pubkey) : Prop :=
  key = vault.tokenAccount ∨ ∃ base, key = vault.ticketAccount base

variable (vault : Vault)

theorem guards_tokenAccount : vault.Guards vault.tokenAccount := .inl rfl

theorem guards_ticketAccount (base) : vault.Guards (vault.ticketAccount base) :=
  .inr ⟨base, rfl⟩

theorem Guards.ne_of_wallet {vault : Vault} {key owner : Pubkey} (guarded : vault.Guards key)
    (wallet : owner.isWallet = true) (mint) : key ≠ .associatedToken owner mint := by
  rintro rfl
  rcases guarded with atVault | ⟨_, atTicket⟩
  · simp only [tokenAccount, associatedToken.injEq] at atVault
    rw [atVault.1] at wallet
    simp [Vault.key, isWallet] at wallet
  · simp only [ticketAccount, associatedToken.injEq] at atTicket
    rw [atTicket.1] at wallet
    simp [isWallet] at wallet

theorem ticketAccount_injective : Function.Injective vault.ticketAccount := by
  intro base base' same
  simpa [ticketAccount] using same

theorem ticketAccount_ne_tokenAccount (base) : vault.ticketAccount base ≠ vault.tokenAccount := by
  simp [ticketAccount, tokenAccount, Vault.key]

/-- Nobody outside the vault's instructions can spend from a guarded account. -/
theorem Guards.not_mayDebit {vault : Vault} {ledger : TokenLedger} {key : Pubkey} (guarded : vault.Guards key)
    (found : ledger.accounts.lookup key = some account) : mayDebit vault account = false := by
  rcases guarded with rfl | ⟨base, rfl⟩
  · obtain ⟨mint, owner⟩ := ledger.sound.associated _ _ _ found
    have ownerEq : account.owner = .vault vault.base := owner rfl
    simp [mayDebit, ownerEq, mint]
  · obtain ⟨_, owner⟩ := ledger.sound.associated _ _ _ found
    have ownerEq : account.owner = .withdrawalTicket vault.key base := owner rfl
    simp [mayDebit, ownerEq]

end Vault

/-- What a token operation outside the vault's instructions can do to the accounts and the mint a vault
    relies on, while the vault is the authority of its mint. -/
structure LedgerEvolves (vault : Vault) (before : TokenLedger) (action : TokenAction) (after : TokenLedger) : Prop where
  kept : ∀ key, vault.Guards key → before.balance key ≤ after.balance key
  supply : after.supply vault.vrtMint ≤ before.supply vault.vrtMint
  /-- Only a burn of VRT lowers the supply of the VRT mint. -/
  supplyEq : action.burnsVrt vault before = false → after.supply vault.vrtMint = before.supply vault.vrtMint
  authority : after.authority vault.vrtMint = some vault.key

section Outside

variable {vault : Vault} {before after : TokenLedger} {action : TokenAction}

theorem TokenAccounts.Administered.evolves
    (administered : TokenAccounts.Administered before.toTokenAccounts after.toTokenAccounts)
    (own : before.authority vault.vrtMint = some vault.key) : LedgerEvolves vault before action after where
  kept := fun key _ => (administered.balance key).ge
  supply := (administered.supply vault.vrtMint).le
  supplyEq := fun _ => administered.supply vault.vrtMint
  authority := by rw [administered.authority _ (by simp [own]), own]

/-- Operations of others leave the guarded accounts and mint no VRT. -/
theorem tokenAction_evolves (own : before.authority vault.vrtMint = some vault.key)
    (taken : processTokenAction vault before action = .ok after) : LedgerEvolves vault before action after := by
  cases action with
  | createMint =>
    exact (createMint_ok taken).1.evolves own
  | createAccount =>
    exact (createAccount_ok taken).evolves own
  | setOwner =>
    exact (setOwner_ok taken).evolves own
  | closeAccount =>
    simp only [processTokenAction, bind_ok_iff] at taken
    obtain ⟨_, _, _, _, closed⟩ := taken
    exact (closeAccount_ok closed).1.evolves own
  | transfer =>
    simp only [processTokenAction, ok_iffs] at taken
    obtain ⟨_, found, debit, moved⟩ := taken
    have moved := transfer_ok moved
    refine ⟨?_, (moved.supply _).le, fun _ => moved.supply _, (moved.authority _).trans own⟩
    intro key guarded
    apply moved.le_of_ne
    rintro rfl
    exact debit (guarded.not_mayDebit found)
  | burn source amount =>
    simp only [processTokenAction, ok_iffs] at taken
    obtain ⟨account, found, debit, burned⟩ := taken
    have burned := burn_ok burned
    refine ⟨?_, ?_, ?_, (burned.authority _).trans own⟩
    · intro key guarded
      apply burned.le_of_ne
      rintro rfl
      exact debit (guarded.not_mayDebit found)
    · rw [burned.supply]
      split
      · exact Nat.sub_le _ _
      · exact le_refl _
    · intro spared
      simp only [TokenAction.burnsVrt, found, decide_eq_false_iff_not] at spared
      rw [burned.supply, if_neg (Ne.symm spared)]
  | mintTo mint =>
    simp only [processTokenAction, ok_iffs] at taken
    obtain ⟨_, found, foreign, minted⟩ := taken
    have minted := mintTo_ok minted
    have other : vault.vrtMint ≠ mint := by
      rintro rfl
      simp only [TokenAccounts.authority, found, Option.map_some, Option.some.injEq] at own
      exact foreign own
    have same : after.supply vault.vrtMint = before.supply vault.vrtMint := by
      rw [minted.supply, if_neg other]
    exact ⟨fun key _ => minted.le key, same.le, fun _ => same, (minted.authority _).trans own⟩

end Outside

/-! ### Paying a ticket out -/

/-- What paying out a ticket did to the ledger: the vault's account lost at most the payout, no other account that the
    vault guards lost anything but the ticket's, and the supply lost what was burned. -/
structure PaidOut (vault : Vault) (base : Pubkey) (before : TokenLedger) (burnAmount outAmount : Nat)
    (after : TokenLedger) : Prop where
  paid : before.balance vault.tokenAccount ≤ after.balance vault.tokenAccount + outAmount
  kept : ∀ key, vault.Guards key → key ≠ vault.tokenAccount → key ≠ vault.ticketAccount base →
    before.balance key ≤ after.balance key
  burned : after.supply vault.vrtMint + burnAmount = before.supply vault.vrtMint
  authority : before.authority vault.vrtMint = some vault.key →
    after.authority vault.vrtMint = some vault.key

/-- A payout that succeeded emptied the ticket's account step by step. -/
theorem payOutTicket_ok {vault : Vault} (atVault : accounts.vaultTokenAccount = vault.tokenAccount)
    (atTicket : accounts.vaultStakerWithdrawalTicketTokenAccount = vault.ticketAccount accounts.base)
    (mintEq : accounts.vrtMint = vault.vrtMint)
    (paidOut : payOutTicket before accounts vault.key (.withdrawalTicket vault.key accounts.base) vaultFeeAmount
      programFeeAmount burnAmount outAmount = .ok after) :
    PaidOut vault accounts.base before burnAmount outAmount after := by
  simp only [payOutTicket, atVault, atTicket, mintEq, bind_ok_iff] at paidOut
  obtain ⟨first, feePaid, second, programPaid, third, burned, fourth, closed, paid⟩ := paidOut
  have feePaid := transfer_ok feePaid
  have programPaid := transfer_ok programPaid
  have burned := burn_ok burned
  obtain ⟨closed, -⟩ := closeAccount_ok closed
  have paid := transfer_ok paid
  have untouched : ∀ key, key ≠ vault.ticketAccount accounts.base →
      before.balance key ≤ fourth.balance key := by
    intro key other
    have one := feePaid.le_of_ne other
    have two := programPaid.le_of_ne other
    have three := burned.le_of_ne other
    have four := closed.balance key
    omega
  constructor
  · have one := untouched vault.tokenAccount (vault.ticketAccount_ne_tokenAccount accounts.base).symm
    have two := paid.le_add vault.tokenAccount
    omega
  · intro key _ notVault notTicket
    exact (untouched key notTicket).trans (paid.le_of_ne notVault)
  · have drained := burned.supply vault.vrtMint
    rw [if_pos rfl, programPaid.supply, feePaid.supply] at drained
    have within := burned.within
    rw [programPaid.supply, feePaid.supply] at within
    rw [paid.supply, closed.supply, drained]
    omega
  · intro own
    have kept : third.authority vault.vrtMint = some vault.key := by
      rw [burned.authority, programPaid.authority, feePaid.authority, own]
    rw [paid.authority, closed.authority _ (by simp [kept]), kept]

end Payout.Restaking
