/-
Purpose: The token program as the vault program uses it: mints with their supply, token accounts with their mint,
  owner and amount, and the operations on them.
Source: core/src/loader.rs, and the token program the vault program invokes
-/
import Payout.Lib.Store
import Payout.Restaking.Core

namespace Payout.Restaking

open Lib Store AList

variable {owner mintAuthority newOwner tokenAccount mint : Pubkey}

/-- A token account. -/
structure TokenAccount where
  mint : Pubkey
  owner : Pubkey
  amount : Nat
deriving DecidableEq, Repr

/-- A mint. -/
structure Mint where
  supply : Nat
  mintAuthority : Pubkey
deriving DecidableEq, Repr

/-- All token accounts and mints. -/
structure TokenAccounts where
  accounts : Store Pubkey TokenAccount
  mints : Store Pubkey Mint

namespace TokenAccounts

variable (ledger : TokenAccounts)

/-- The amount in a token account; nothing where there is none. -/
def balance (key : Pubkey) : Nat :=
  ((ledger.accounts.lookup key).map TokenAccount.amount).getD 0

/-- The supply of a mint; nothing where there is none. -/
def supply (mint : Pubkey) : Nat :=
  ((ledger.mints.lookup mint).map Mint.supply).getD 0

/-- Who may mint. -/
def authority (mint : Pubkey) : Option Pubkey :=
  (ledger.mints.lookup mint).map Mint.mintAuthority

/-- What all accounts together hold of a mint. -/
def held (mint : Pubkey) : Nat :=
  Store.total (fun _ account => if account.mint = mint then account.amount else 0) ledger.accounts

/-- Write the amount of an account. -/
def setAmount (key : Pubkey) (account : TokenAccount) (amount : Nat) : TokenAccounts :=
  { ledger with accounts := ledger.accounts.insert key { account with amount } }

/-- Write the supply of a mint. -/
def setSupply (key : Pubkey) (mint : Mint) (supply : Nat) : TokenAccounts :=
  { ledger with mints := ledger.mints.insert key { mint with supply } }

/-- Whether an address is taken. -/
def Occupied (key : Pubkey) : Prop :=
  ledger.accounts.lookup key ≠ none ∨ ledger.mints.lookup key ≠ none

instance (ledger : TokenAccounts) (key : Pubkey) : Decidable (ledger.Occupied key) :=
  inferInstanceAs (Decidable (_ ∨ _))

/-- Create a mint at a new address. -/
def createMint (key mintAuthority : Pubkey) : Except ProgramError TokenAccounts := do
  rejectIf (ledger.Occupied key) .accountAlreadyInitialized
  pure { ledger with mints := ledger.mints.insert key { supply := 0, mintAuthority } }

/-- Create an empty token account at a new address. An associated address fixes the owner and the mint, and
    no key pair exists for the other derived addresses. -/
def createAccount (key owner mint : Pubkey) : Except ProgramError TokenAccounts := do
  rejectIf (ledger.Occupied key) .accountAlreadyInitialized
  rejectIf (ledger.mints.lookup mint = none) .invalidAccountData
  rejectIf (key.isWallet = false ∧ key ≠ .associatedToken owner mint) .invalidArgument
  pure { ledger with accounts := ledger.accounts.insert key { mint, owner, amount := 0 } }

/-- Move tokens between two accounts of a mint, by the authority of the source's owner. -/
def transfer (source destination authority : Pubkey) (amount : Nat) : Except ProgramError TokenAccounts := do
  let sender ← okOr (ledger.accounts.lookup source) .invalidAccountData
  let receiver ← okOr (ledger.accounts.lookup destination) .invalidAccountData
  rejectIf (sender.amount < amount) .tokenInsufficientFunds
  rejectIf (sender.mint ≠ receiver.mint) .tokenMintMismatch
  rejectIf (authority ≠ sender.owner) .tokenOwnerMismatch
  if source = destination then pure ledger
  else
    let received ← okOr (checkedAdd 64 receiver.amount amount) .tokenOverflow
    pure ((ledger.setAmount source sender (sender.amount - amount)).setAmount destination receiver received)

/-- Mint tokens to an account, by the mint authority. -/
def mintTo (mint destination authority : Pubkey) (amount : Nat) : Except ProgramError TokenAccounts := do
  let receiver ← okOr (ledger.accounts.lookup destination) .invalidAccountData
  rejectIf (receiver.mint ≠ mint) .tokenMintMismatch
  let minted ← okOr (ledger.mints.lookup mint) .invalidAccountData
  rejectIf (authority ≠ minted.mintAuthority) .tokenOwnerMismatch
  let received ← okOr (checkedAdd 64 receiver.amount amount) .tokenOverflow
  let supply ← okOr (checkedAdd 64 minted.supply amount) .tokenOverflow
  pure ((ledger.setAmount destination receiver received).setSupply mint minted supply)

/-- Burn tokens of an account, by the authority of its owner. -/
def burn (source mint authority : Pubkey) (amount : Nat) : Except ProgramError TokenAccounts := do
  let sender ← okOr (ledger.accounts.lookup source) .invalidAccountData
  let burned ← okOr (ledger.mints.lookup mint) .invalidAccountData
  rejectIf (sender.amount < amount) .tokenInsufficientFunds
  rejectIf (sender.mint ≠ mint) .tokenMintMismatch
  rejectIf (authority ≠ sender.owner) .tokenOwnerMismatch
  let supply ← okOr (checkedSub burned.supply amount) .tokenOverflow
  pure ((ledger.setAmount source sender (sender.amount - amount)).setSupply mint burned supply)

/-- Close an empty account, by the authority of its owner. -/
def closeAccount (key authority : Pubkey) : Except ProgramError TokenAccounts := do
  let account ← okOr (ledger.accounts.lookup key) .invalidAccountData
  rejectIf (account.amount ≠ 0) .tokenNonNativeHasBalance
  rejectIf (authority ≠ account.owner) .tokenOwnerMismatch
  pure { ledger with accounts := ledger.accounts.erase key }

/-- A wallet gives an account away. No program modelled here does that with its own accounts. -/
def setOwner (key newOwner : Pubkey) : Except ProgramError TokenAccounts := do
  let account ← okOr (ledger.accounts.lookup key) .invalidAccountData
  rejectIf (account.owner.isWallet = false) .missingRequiredSignature
  pure { ledger with accounts := ledger.accounts.insert key { account with owner := newOwner } }

/-- What every history of token operations guarantees. -/
structure Sound (ledger : TokenAccounts) : Prop where
  /-- The amounts of a mint add up to its supply. -/
  conserves : ∀ mint, ledger.held mint = ledger.supply mint
  fits : ∀ mint, ledger.supply mint < 2 ^ 64
  /-- The account at an associated address has its mint, and its owner unless a wallet gave it away. -/
  associated : ∀ owner mint account, ledger.accounts.lookup (.associatedToken owner mint) = some account →
    account.mint = mint ∧ (owner.isWallet = false → account.owner = owner)

/-! ### Writing one amount, one supply -/

variable {ledger after : TokenAccounts} {key : Pubkey} {account : TokenAccount} {amount : Nat} {record : Mint}

theorem balance_of_lookup (present : ledger.accounts.lookup key = some account) :
    ledger.balance key = account.amount := by
  simp [balance, present]

theorem balance_setAmount : (ledger.setAmount key account amount).balance key' =
    if key' = key then amount else ledger.balance key' := by
  by_cases same : key' = key
  · subst same
    simp [balance, setAmount]
  · simp [balance, setAmount, same, lookup_insert_ne same]

@[simp] theorem balance_setSupply : (ledger.setSupply mint record amount).balance key = ledger.balance key := rfl

theorem supply_setSupply : (ledger.setSupply key record amount).supply mint =
    if mint = key then amount else ledger.supply mint := by
  by_cases same : mint = key
  · subst same
    simp [supply, setSupply]
  · simp [supply, setSupply, same, lookup_insert_ne same]

theorem authority_setSupply (present : ledger.mints.lookup key = some record) :
    (ledger.setSupply key record amount).authority mint = ledger.authority mint := by
  by_cases same : mint = key
  · subst same
    simp [authority, setSupply, present]
  · simp [authority, setSupply, lookup_insert_ne same]

@[simp] theorem held_setSupply : (ledger.setSupply key record amount).held mint = ledger.held mint := rfl

/-- Writing an amount changes what is held of the account's mint, and of no other. -/
theorem held_setAmount (present : ledger.accounts.lookup key = some account) (amount mint) :
    (ledger.setAmount key account amount).held mint + (if account.mint = mint then account.amount else 0) =
      ledger.held mint + (if account.mint = mint then amount else 0) := by
  simp only [held, setAmount]
  rw [total_insert, total_eq_add_erase present]
  dsimp only
  omega

/-- Writing an amount keeps the owner and the mint of every account. -/
theorem lookup_setAmount (present : ledger.accounts.lookup key = some account)
    (lookup : (ledger.setAmount key account amount).accounts.lookup key' = some found) :
    ∃ old, ledger.accounts.lookup key' = some old ∧ found.mint = old.mint ∧ found.owner = old.owner := by
  rcases lookup_insert_eq_some.mp lookup with ⟨rfl, rfl⟩ | ⟨_, old⟩
  · exact ⟨account, present, rfl, rfl⟩
  · exact ⟨found, old, rfl, rfl⟩

theorem associated_setAmount (sound : ledger.Sound) (present : ledger.accounts.lookup key = some account)
    (lookup : (ledger.setAmount key account amount).accounts.lookup (.associatedToken owner mint) = some found) :
    found.mint = mint ∧ (owner.isWallet = false → found.owner = owner) := by
  obtain ⟨old, oldFound, sameMint, sameOwner⟩ := lookup_setAmount present lookup
  obtain ⟨mintEq, ownerEq⟩ := sound.associated owner mint old oldFound
  exact ⟨sameMint.trans mintEq, fun derived => sameOwner.trans (ownerEq derived)⟩

/-! ### What each operation does -/

/-- A transfer moves the amount, if the two accounts are not one, and leaves every mint. -/
structure Transferred (ledger : TokenAccounts) (source destination : Pubkey) (amount : Nat)
    (after : TokenAccounts) : Prop where
  balance : ∀ key, after.balance key =
    if source = destination then ledger.balance key
    else if key = destination then ledger.balance key + amount
    else if key = source then ledger.balance key - amount
    else ledger.balance key
  supply : ∀ mint, after.supply mint = ledger.supply mint
  authority : ∀ mint, after.authority mint = ledger.authority mint
  /-- No account appears. -/
  absent : ∀ key, ledger.accounts.lookup key = none → after.accounts.lookup key = none
  sound : ledger.Sound → after.Sound

variable {source destination authority : Pubkey}

theorem transfer_ok (moved : ledger.transfer source destination authority amount = .ok after) :
    Transferred ledger source destination amount after := by
  simp only [transfer, ok_iffs, not_lt] at moved
  obtain ⟨sender, senderFound, receiver, receiverFound, funds, sameMint, -, moved⟩ := moved
  have senderBalance := balance_of_lookup senderFound
  have receiverBalance := balance_of_lookup receiverFound
  split at moved
  · rename_i same
    simp only [pure_ok_iff] at moved
    subst moved
    exact ⟨fun key => by rw [if_pos same], fun _ => rfl, fun _ => rfl, fun _ => id, id⟩
  · rename_i distinct
    simp only [ok_iffs] at moved
    obtain ⟨_, ⟨_, rfl⟩, rfl⟩ := moved
    have receiverKept : (ledger.setAmount source sender (sender.amount - amount)).accounts.lookup
        destination = some receiver := by
      rw [← receiverFound]
      exact lookup_insert_ne (Ne.symm distinct)
    refine ⟨?_, fun _ => rfl, fun _ => rfl, ?_, ?_⟩
    · intro key
      rw [balance_setAmount, balance_setAmount, if_neg distinct]
      split
      · rename_i atDestination
        rw [atDestination, receiverBalance]
      · split
        · rename_i atSource
          rw [atSource, senderBalance]
        · rfl
    · intro key absent
      have notSource : key ≠ source := by
        rintro rfl
        simp [absent] at senderFound
      have notDestination : key ≠ destination := by
        rintro rfl
        simp [absent] at receiverFound
      simp only [setAmount]
      rw [lookup_insert_ne notDestination, lookup_insert_ne notSource, absent]
    · intro sound
      -- the sender's loss and the receiver's gain are of one mint
      have paid : ∀ mint, ((ledger.setAmount source sender (sender.amount - amount)).setAmount destination
          receiver (receiver.amount + amount)).held mint = ledger.held mint := by
        intro mint
        have first := held_setAmount senderFound (sender.amount - amount) mint
        have second := held_setAmount receiverKept (receiver.amount + amount) mint
        rw [← sameMint] at second
        split at first
        · simp_all
          omega
        · simp_all
      constructor
      · intro mint
        rw [paid, sound.conserves]
        rfl
      · exact sound.fits
      · intro owner mint found lookup
        obtain ⟨_, oldFound, mintEq, ownerEq⟩ := lookup_setAmount receiverKept lookup
        obtain ⟨oldMint, oldOwner⟩ := associated_setAmount sound senderFound oldFound
        exact ⟨mintEq.trans oldMint, fun derived => ownerEq.trans (oldOwner derived)⟩

section

variable (moved : Transferred ledger source destination amount after)
include moved

theorem Transferred.le_of_ne (other : key ≠ source) : ledger.balance key ≤ after.balance key := by
  rw [moved.balance key]
  split
  · exact le_refl _
  · split
    · exact Nat.le_add_right _ _
    · exact le_refl _

theorem Transferred.le_add (key) : ledger.balance key ≤ after.balance key + amount := by
  rw [moved.balance key]
  split
  · exact Nat.le_add_right _ _
  · split
    · omega
    · split <;> omega

theorem Transferred.received (distinct : source ≠ destination) :
    after.balance destination = ledger.balance destination + amount := by
  rw [moved.balance destination, if_neg distinct, if_pos rfl]

end

/-- Minting adds the amount to one account and to the supply of its mint. -/
structure MintedTo (ledger : TokenAccounts) (mint destination : Pubkey) (amount : Nat)
    (after : TokenAccounts) : Prop where
  balance : ∀ key, after.balance key =
    if key = destination then ledger.balance key + amount else ledger.balance key
  supply : ∀ other, after.supply other =
    if other = mint then ledger.supply other + amount else ledger.supply other
  authority : ∀ other, after.authority other = ledger.authority other
  sound : ledger.Sound → after.Sound

theorem mintTo_ok (minted : ledger.mintTo mint destination authority amount = .ok after) :
    MintedTo ledger mint destination amount after := by
  simp only [mintTo, ok_iffs] at minted
  obtain ⟨receiver, receiverFound, sameMint, record, recordFound, _, _, ⟨_, rfl⟩, _, ⟨fits, rfl⟩, rfl⟩ := minted
  have receiverBalance := balance_of_lookup receiverFound
  have recordSupply : ledger.supply mint = record.supply := by simp [supply, recordFound]
  have supplied : ∀ other, ((ledger.setAmount destination receiver (receiver.amount + amount)).setSupply mint
      record (record.supply + amount)).supply other =
      if other = mint then ledger.supply other + amount else ledger.supply other := by
    intro other
    rw [supply_setSupply]
    split
    · rename_i same
      rw [same, recordSupply]
    · rfl
  refine ⟨?_, supplied, fun _ => authority_setSupply recordFound, ?_⟩
  · intro key
    rw [balance_setSupply, balance_setAmount]
    split
    · rename_i same
      rw [same, receiverBalance]
    · rfl
  · intro sound
    constructor
    · intro other
      have written := held_setAmount receiverFound (receiver.amount + amount) other
      have before := sound.conserves other
      rw [supplied, held_setSupply]
      rw [sameMint] at written
      by_cases same : mint = other
      · simp only [same, if_true] at written ⊢
        omega
      · simp only [if_neg same, if_neg (Ne.symm same)] at written ⊢
        omega
    · intro other
      rw [supplied]
      split
      · rename_i same
        rw [same, recordSupply]
        exact fits
      · exact sound.fits other
    · exact fun owner mint found => associated_setAmount sound receiverFound

theorem MintedTo.le (minted : MintedTo ledger mint destination amount after) (key) :
    ledger.balance key ≤ after.balance key := by
  rw [minted.balance key]
  split
  · exact Nat.le_add_right _ _
  · exact le_refl _

/-- Burning takes the amount from one account and from the supply of its mint. -/
structure BurnedFrom (ledger : TokenAccounts) (source mint : Pubkey) (amount : Nat) (after : TokenAccounts) : Prop where
  within : amount ≤ ledger.supply mint
  balance : ∀ key, after.balance key =
    if key = source then ledger.balance key - amount else ledger.balance key
  supply : ∀ other, after.supply other =
    if other = mint then ledger.supply other - amount else ledger.supply other
  authority : ∀ other, after.authority other = ledger.authority other
  sound : ledger.Sound → after.Sound

theorem burn_ok (burned : ledger.burn source mint authority amount = .ok after) :
    BurnedFrom ledger source mint amount after := by
  simp only [burn, ok_iffs, not_lt] at burned
  obtain ⟨sender, senderFound, record, recordFound, funds, sameMint, -, _, ⟨within, rfl⟩, rfl⟩ := burned
  have senderBalance := balance_of_lookup senderFound
  have recordSupply : ledger.supply mint = record.supply := by simp [supply, recordFound]
  have supplied : ∀ other, ((ledger.setAmount source sender (sender.amount - amount)).setSupply mint
      record (record.supply - amount)).supply other =
      if other = mint then ledger.supply other - amount else ledger.supply other := by
    intro other
    rw [supply_setSupply]
    split
    · rename_i same
      rw [same, recordSupply]
    · rfl
  refine ⟨by omega, ?_, supplied, fun _ => authority_setSupply recordFound, ?_⟩
  · intro key
    rw [balance_setSupply, balance_setAmount]
    split
    · rename_i same
      rw [same, senderBalance]
    · rfl
  · intro sound
    constructor
    · intro other
      have written := held_setAmount senderFound (sender.amount - amount) other
      have before := sound.conserves other
      rw [supplied, held_setSupply]
      rw [sameMint] at written
      by_cases same : mint = other
      · simp only [same, if_true] at written ⊢
        omega
      · simp only [if_neg same, if_neg (Ne.symm same)] at written ⊢
        omega
    · intro other
      have before := sound.fits other
      rw [supplied]
      split <;> omega
    · exact fun owner mint found => associated_setAmount sound senderFound

theorem BurnedFrom.le_of_ne (burned : BurnedFrom ledger source mint amount after)
    (other : key ≠ source) : ledger.balance key ≤ after.balance key := by
  rw [burned.balance key, if_neg other]

/-- The operations that move no tokens: every balance and every supply stays. -/
structure Administered (ledger after : TokenAccounts) : Prop where
  balance : ∀ key, after.balance key = ledger.balance key
  supply : ∀ mint, after.supply mint = ledger.supply mint
  authority : ∀ mint, ledger.authority mint ≠ none → after.authority mint = ledger.authority mint
  sound : ledger.Sound → after.Sound

theorem createMint_ok (created : ledger.createMint key mintAuthority = .ok after) :
    Administered ledger after ∧ after.authority key = some mintAuthority ∧ ¬ ledger.Occupied key := by
  simp only [createMint, ok_iffs] at created
  obtain ⟨free, rfl⟩ := created
  have absent : ledger.mints.lookup key = none := by
    by_contra present
    exact free (.inr present)
  have same : ∀ mint, supply ⟨ledger.accounts, ledger.mints.insert key ⟨0, mintAuthority⟩⟩ mint =
      ledger.supply mint := by
    intro mint
    by_cases new : mint = key
    · subst new
      simp [supply, absent]
    · simp [supply, lookup_insert_ne new]
  have kept : ∀ mint, ledger.authority mint ≠ none →
      authority ⟨ledger.accounts, ledger.mints.insert key ⟨0, mintAuthority⟩⟩ mint = ledger.authority mint := by
    intro mint present
    have other : mint ≠ key := by
      rintro rfl
      simp [authority, absent] at present
    simp [authority, lookup_insert_ne other]
  refine ⟨⟨fun _ => rfl, same, kept, ?_⟩, by simp [authority], free⟩
  intro sound
  constructor
  · intro mint
    rw [same]
    exact sound.conserves mint
  · intro mint
    rw [same]
    exact sound.fits mint
  · exact sound.associated

theorem createAccount_ok (created : ledger.createAccount key owner mint = .ok after) : Administered ledger after := by
  simp only [createAccount, ok_iffs, not_and] at created
  obtain ⟨free, _, derived, rfl⟩ := created
  have absent : ledger.accounts.lookup key = none := by
    by_contra present
    exact free (.inl present)
  refine ⟨?_, fun _ => rfl, fun _ _ => rfl, ?_⟩
  · intro other
    by_cases new : other = key
    · subst new
      simp [balance, absent]
    · simp [balance, lookup_insert_ne new]
  · intro sound
    constructor
    · intro other
      simp only [held]
      rw [total_insert_of_absent absent, ite_self, Nat.zero_add]
      exact sound.conserves other
    · exact sound.fits
    · intro owner' mint' found lookup
      rcases lookup_insert_eq_some.mp lookup with ⟨rfl, rfl⟩ | ⟨_, old⟩
      · have same := derived rfl
        simp only [Pubkey.associatedToken.injEq] at same
        exact ⟨same.2.symm, fun _ => same.1.symm⟩
      · exact sound.associated owner' mint' found old

theorem closeAccount_ok (closed : ledger.closeAccount key authority = .ok after) :
    Administered ledger after ∧ ledger.balance key = 0 ∧ after.accounts.lookup key = none := by
  simp only [closeAccount, ok_iffs] at closed
  obtain ⟨_, present, empty, _, rfl⟩ := closed
  have zero : ledger.balance key = 0 := by rw [balance_of_lookup present, empty]
  refine ⟨⟨?_, fun _ => rfl, fun _ _ => rfl, ?_⟩, zero, lookup_erase key ledger.accounts⟩
  · intro other
    by_cases same : other = key
    · subst same
      rw [zero]
      simp [balance, lookup_erase]
    · simp [balance, lookup_erase_ne same]
  · intro sound
    constructor
    · intro mint
      have before := sound.conserves mint
      simp only [held] at before ⊢
      rw [total_eq_add_erase present, empty, ite_self, Nat.zero_add] at before
      exact before
    · exact sound.fits
    · intro owner mint found lookup
      exact sound.associated owner mint found (lookup_erase_eq_some.mp lookup).2

theorem setOwner_ok (given : ledger.setOwner key newOwner = .ok after) : Administered ledger after := by
  simp only [setOwner, ok_iffs] at given
  obtain ⟨account, present, wallet, rfl⟩ := given
  refine ⟨?_, fun _ => rfl, fun _ _ => rfl, ?_⟩
  · intro other
    by_cases same : other = key
    · subst same
      simp [balance, present]
    · simp [balance, lookup_insert_ne same]
  · intro sound
    constructor
    · intro mint
      have before := sound.conserves mint
      simp only [held] at before ⊢
      rw [total_eq_add_erase present] at before
      rw [total_insert]
      exact before
    · exact sound.fits
    · intro owner mint found lookup
      rcases lookup_insert_eq_some.mp lookup with ⟨rfl, rfl⟩ | ⟨_, old⟩
      · obtain ⟨mintEq, ownerEq⟩ := sound.associated owner mint account present
        refine ⟨mintEq, fun derived => ?_⟩
        rw [ownerEq derived] at wallet
        exact absurd derived wallet
      · exact sound.associated owner mint found old

end TokenAccounts

/-- The token accounts and mints that a history of token operations leads to. -/
structure TokenLedger extends TokenAccounts where
  sound : toTokenAccounts.Sound

namespace TokenLedger

variable (ledger : TokenLedger)

/-- Run an operation that keeps the ledger sound. -/
def lift (operation : TokenAccounts → Except ProgramError TokenAccounts)
    (keeps : ∀ after, operation ledger.toTokenAccounts = .ok after → after.Sound) : Except ProgramError TokenLedger :=
  match result : operation ledger.toTokenAccounts with
  | .ok after => .ok ⟨after, keeps after result⟩
  | .error error => .error error

theorem lift_ok {ledger after : TokenLedger}
    {keeps : ∀ after, operation ledger.toTokenAccounts = .ok after → after.Sound}
    (lifted : ledger.lift operation keeps = .ok after) :
    operation ledger.toTokenAccounts = .ok after.toTokenAccounts := by
  unfold lift at lifted
  split at lifted
  · rename_i result
    simp only [Except.ok.injEq] at lifted
    rw [result, ← lifted]
  · simp at lifted

/-- No mints and no accounts. -/
def empty : TokenLedger where
  accounts := ∅
  mints := ∅
  sound := ⟨fun _ => rfl, fun _ => by simp [TokenAccounts.supply], fun _ _ _ found => by simp at found⟩

def createMint (key mintAuthority : Pubkey) : Except ProgramError TokenLedger :=
  ledger.lift (fun raw => raw.createMint key mintAuthority)
    fun _ created => (TokenAccounts.createMint_ok created).1.sound ledger.sound

def createAccount (key owner mint : Pubkey) : Except ProgramError TokenLedger :=
  ledger.lift (fun raw => raw.createAccount key owner mint)
    fun _ created => (TokenAccounts.createAccount_ok created).sound ledger.sound

def transfer (source destination authority : Pubkey) (amount : Nat) : Except ProgramError TokenLedger :=
  ledger.lift (fun raw => raw.transfer source destination authority amount)
    fun _ moved => (TokenAccounts.transfer_ok moved).sound ledger.sound

def mintTo (mint destination authority : Pubkey) (amount : Nat) : Except ProgramError TokenLedger :=
  ledger.lift (fun raw => raw.mintTo mint destination authority amount)
    fun _ minted => (TokenAccounts.mintTo_ok minted).sound ledger.sound

def burn (source mint authority : Pubkey) (amount : Nat) : Except ProgramError TokenLedger :=
  ledger.lift (fun raw => raw.burn source mint authority amount)
    fun _ burned => (TokenAccounts.burn_ok burned).sound ledger.sound

def closeAccount (key authority : Pubkey) : Except ProgramError TokenLedger :=
  ledger.lift (fun raw => raw.closeAccount key authority)
    fun _ closed => (TokenAccounts.closeAccount_ok closed).1.sound ledger.sound

def setOwner (key newOwner : Pubkey) : Except ProgramError TokenLedger :=
  ledger.lift (fun raw => raw.setOwner key newOwner)
    fun _ given => (TokenAccounts.setOwner_ok given).sound ledger.sound

variable {ledger after : TokenLedger} {key authority : Pubkey} {account : TokenAccount}

theorem transfer_ok (moved : ledger.transfer source destination authority amount = .ok after) :
    TokenAccounts.Transferred ledger.toTokenAccounts source destination amount after.toTokenAccounts :=
  TokenAccounts.transfer_ok (lift_ok moved)

theorem mintTo_ok (minted : ledger.mintTo mint destination authority amount = .ok after) :
    TokenAccounts.MintedTo ledger.toTokenAccounts mint destination amount after.toTokenAccounts :=
  TokenAccounts.mintTo_ok (lift_ok minted)

theorem burn_ok (burned : ledger.burn source mint authority amount = .ok after) :
    TokenAccounts.BurnedFrom ledger.toTokenAccounts source mint amount after.toTokenAccounts :=
  TokenAccounts.burn_ok (lift_ok burned)

theorem createMint_ok (created : ledger.createMint key mintAuthority = .ok after) :
    TokenAccounts.Administered ledger.toTokenAccounts after.toTokenAccounts ∧
      after.authority key = some mintAuthority ∧ ¬ ledger.Occupied key :=
  TokenAccounts.createMint_ok (lift_ok created)

theorem createAccount_ok (created : ledger.createAccount key owner mint = .ok after) :
    TokenAccounts.Administered ledger.toTokenAccounts after.toTokenAccounts :=
  TokenAccounts.createAccount_ok (lift_ok created)

theorem setOwner_ok (given : ledger.setOwner key newOwner = .ok after) :
    TokenAccounts.Administered ledger.toTokenAccounts after.toTokenAccounts :=
  TokenAccounts.setOwner_ok (lift_ok given)

theorem closeAccount_ok (closed : ledger.closeAccount key authority = .ok after) :
    TokenAccounts.Administered ledger.toTokenAccounts after.toTokenAccounts ∧ ledger.balance key = 0 ∧
      after.accounts.lookup key = none :=
  TokenAccounts.closeAccount_ok (lift_ok closed)

theorem amount_le_supply (present : ledger.accounts.lookup key = some account) :
    account.amount ≤ ledger.supply account.mint := by
  have part := measure_le_total
    (fun _ (found : TokenAccount) => if found.mint = account.mint then found.amount else 0) present
  rw [if_pos rfl] at part
  exact part.trans (ledger.sound.conserves account.mint).le

theorem balance_lt (ledger : TokenLedger) (key) : ledger.balance key < 2 ^ 64 := by
  cases present : ledger.accounts.lookup key with
  | none => simp [TokenAccounts.balance, present]
  | some account =>
    rw [TokenAccounts.balance_of_lookup present]
    exact lt_of_le_of_lt (amount_le_supply present) (ledger.sound.fits account.mint)

end TokenLedger

/-! ### Loading accounts -/

variable (ledger : TokenLedger)

/-- `load_system_account`: the address is not in use. -/
def loadSystemAccount (key : Pubkey) : Except ProgramError Unit :=
  rejectIf (ledger.Occupied key) .accountAlreadyInitialized

/-- `load_token_mint`. -/
def loadTokenMint (key : Pubkey) : Except ProgramError Unit :=
  rejectIf (ledger.mints.lookup key = none) .invalidAccountOwner

/-- `load_associated_token_account`: an account at the associated address. Its owner and mint are not read. -/
def loadAssociatedTokenAccount (tokenAccount owner mint : Pubkey) : Except ProgramError Unit := do
  rejectIf (ledger.accounts.lookup tokenAccount = none) .invalidAccountOwner
  rejectIf (tokenAccount ≠ .associatedToken owner mint) .invalidAccountData

/-- `load_token_account`: an account of the owner and the mint. Its address is not checked. -/
def loadTokenAccount (tokenAccount owner mint : Pubkey) : Except ProgramError Unit := do
  let account ← okOr (ledger.accounts.lookup tokenAccount) .invalidAccountOwner
  rejectIf (account.owner ≠ owner) .invalidAccountData
  rejectIf (account.mint ≠ mint) .invalidAccountData

variable {ledger}

theorem loadAssociatedTokenAccount_ok (loaded : loadAssociatedTokenAccount ledger tokenAccount owner mint = .ok u) :
    tokenAccount = .associatedToken owner mint := by
  simp only [loadAssociatedTokenAccount, ok_iffs] at loaded
  exact loaded.2

end Payout.Restaking
