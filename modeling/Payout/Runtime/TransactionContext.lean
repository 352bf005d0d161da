/-
Purpose: The accounts of a transaction as a program sees them. A program borrows an account, reads and writes the
  borrowed copy through the checks of the runtime (only writable accounts change, only the owner writes data or takes
  lamports) and releases it again.
Source: gorchain/transaction-context/src/lib.rs
-/
import Mathlib.Data.Finset.Basic
import Payout.Lib.Checked
import Payout.Lib.Store

namespace Payout.Runtime

open Lib

/-- An account address. -/
abbrev Pubkey := Nat

/-- The largest 64-bit integer. -/
def u64Max : Nat := 2 ^ 64 - 1

/-- The program an account belongs to. -/
inductive ProgramId where
  | system
  | stake
  | vote
  | other (id : Nat)
deriving DecidableEq, Repr

/-- The errors of the runtime, and the errors `E` of the program that runs. -/
inductive InstructionError (E : Type) where
  | invalidArgument
  | invalidInstructionData
  | invalidAccountData
  | accountDataTooSmall
  | insufficientFunds
  | incorrectProgramId
  | missingRequiredSignature
  | externalAccountLamportSpend
  | externalAccountDataModified
  | readonlyLamportChange
  | readonlyDataModified
  | missingAccount
  | accountBorrowFailed
  | invalidAccountOwner
  | arithmeticOverflow
  | custom (error : E)
deriving DecidableEq, Repr

/-- An account whose data deserialises to a `D`. -/
structure Account (D : Type) where
  lamports : Nat
  owner : ProgramId
  dataLen : Nat
  data : D
deriving DecidableEq, Repr

/-- All accounts. -/
abbrev Accounts (D : Type) := Store Pubkey (Account D)

/-- The signers of an instruction and the accounts it may write. -/
structure InstructionContext where
  signers : Finset Pubkey
  writable : Finset Pubkey

/-- An account a program holds. -/
structure BorrowedAccount (D : Type) extends Account D where
  key : Pubkey
  isWritable : Bool

variable {D E : Type} {context : InstructionContext}

/-- `InstructionContext::try_borrow_instruction_account`, for an account not borrowed yet. -/
def tryBorrow (context : InstructionContext) (accounts : Accounts D) (key : Pubkey) :
    Except (InstructionError E) (BorrowedAccount D) := do
  let account ← okOr (accounts.lookup key) .missingAccount
  pure { account with key, isWritable := decide (key ∈ context.writable) }

/-- Give a borrowed account back. -/
def release (accounts : Accounts D) (account : BorrowedAccount D) : Accounts D :=
  accounts.insert account.key account.toAccount

/-- Borrow an account, change it and give it back. -/
def update (context : InstructionContext) (accounts : Accounts D) (key : Pubkey)
    (change : BorrowedAccount D → Except (InstructionError E) (BorrowedAccount D)) :
    Except (InstructionError E) (Accounts D) := do
  let account ← tryBorrow context accounts key
  let account ← change account
  pure (release accounts account)

namespace BorrowedAccount

variable (program : ProgramId)

variable (account : BorrowedAccount D)

/-- Write a state of the given serialised size. -/
def setState (serializedSize : Nat) (data : D) : Except (InstructionError E) (BorrowedAccount D) := do
  rejectIf (account.isWritable = false) .readonlyDataModified
  rejectIf (account.owner ≠ program) .externalAccountDataModified
  rejectIf (account.dataLen < serializedSize) .accountDataTooSmall
  pure { account with data }

/-- Write the balance. -/
def setLamports (lamports : Nat) : Except (InstructionError E) (BorrowedAccount D) := do
  -- An account not owned by the program cannot have its balance decrease
  rejectIf (account.owner ≠ program ∧ lamports < account.lamports) .externalAccountLamportSpend
  rejectIf (account.isWritable = false) .readonlyLamportChange
  pure { account with lamports }

/-- Add lamports. -/
def checkedAddLamports (lamports : Nat) : Except (InstructionError E) (BorrowedAccount D) := do
  let sum ← okOr (checkedAdd 64 account.lamports lamports) .arithmeticOverflow
  account.setLamports program sum

/-- Subtract lamports. -/
def checkedSubLamports (lamports : Nat) : Except (InstructionError E) (BorrowedAccount D) := do
  let rest ← okOr (checkedSub account.lamports lamports) .arithmeticOverflow
  account.setLamports program rest

/-! ### What succeeded -/

variable {program : ProgramId} {account new : BorrowedAccount D}

theorem checkedAddLamports_eq_ok :
    account.checkedAddLamports (E := E) program lamports = .ok new ↔
      account.lamports + lamports < 2 ^ 64 ∧ account.isWritable = true ∧
        { account with lamports := account.lamports + lamports } = new := by
  simp only [checkedAddLamports, setLamports, ok_iffs]
  constructor
  · rintro ⟨_, ⟨fits, rfl⟩, _, writable, same⟩
    exact ⟨fits, by simpa using writable, same⟩
  · rintro ⟨fits, writable, same⟩
    exact ⟨_, ⟨fits, rfl⟩, by omega, by simp [writable], same⟩

theorem checkedSubLamports_eq_ok :
    account.checkedSubLamports (E := E) program lamports = .ok new ↔
      lamports ≤ account.lamports ∧ (account.owner ≠ program → lamports = 0 ∨ account.lamports = 0) ∧
        account.isWritable = true ∧ { account with lamports := account.lamports - lamports } = new := by
  simp only [checkedSubLamports, setLamports, ok_iffs]
  constructor
  · rintro ⟨_, ⟨enough, rfl⟩, owned, writable, same⟩
    refine ⟨enough, fun other => ?_, by simpa using writable, same⟩
    have := not_and.mp owned other
    omega
  · rintro ⟨enough, owned, writable, same⟩
    refine ⟨_, ⟨enough, rfl⟩, ?_, by simp [writable], same⟩
    rintro ⟨other, less⟩
    have := owned other
    omega

end BorrowedAccount

theorem tryBorrow_eq_ok :
    tryBorrow (E := E) context accounts key = .ok borrowed ↔
      ∃ account, accounts.lookup key = some account ∧
        { account with key, isWritable := decide (key ∈ context.writable) } = borrowed := by
  simp only [tryBorrow, ok_iffs]

/-- A change of a borrowed account succeeds when the account exists and the change does. -/
theorem update_eq_ok :
    update context accounts key change = .ok accounts' ↔
      ∃ account new, accounts.lookup key = some account ∧
        change { account with key, isWritable := decide (key ∈ context.writable) } = .ok new ∧
        accounts' = release accounts new := by
  simp only [update, tryBorrow_eq_ok, ok_iffs]
  constructor
  · rintro ⟨_, ⟨account, found, rfl⟩, new, changed, rfl⟩
    exact ⟨account, new, found, changed, rfl⟩
  · rintro ⟨account, new, found, changed, rfl⟩
    exact ⟨_, ⟨account, found, rfl⟩, new, changed, rfl⟩

theorem update_of_found {change : BorrowedAccount D → Except (InstructionError E) (BorrowedAccount D)}
    (found : accounts.lookup key = some account) (taken : update context accounts key change = .ok accounts') :
    ∃ new, change { account with key, isWritable := decide (key ∈ context.writable) } = .ok new ∧
      accounts' = release accounts new := by
  obtain ⟨_, new, found', changed, rfl⟩ := update_eq_ok.mp taken
  cases found.symm.trans found'
  exact ⟨new, changed, rfl⟩

end Payout.Runtime
