/-
Purpose: The fees that a block collects from its transactions, and what becomes of them. A part of the transaction fees
  is burned, and the rest of them goes to the collector together with the priority fees, unless the account of the
  collector cannot take it; then it is burned as well. Capitalization falls by what is burned, so that it agrees with
  the balances again.
Source: gorchain/runtime/src/bank/{fee_distribution, check_transactions}.rs, gorchain/runtime/src/bank.rs,
  gorchain/fee/src/lib.rs, gorchain/svm/src/rent_calculator.rs
Trusted boundary: `FeeDetails::accumulate` adds both fees with saturation; a transaction is processed with the fee
  details of its check
-/
import Payout.CostModel.CostTracker
import Payout.Rewards.Calculation

namespace Payout.Fees

section

open Lib Payout.Runtime
open Rewards (RewardInfo asI64)
open CostModel (FeatureSet SignatureDetails mulSat)

variable {D : Type}

/-! ### Rent -/

inductive RentState where
  /-- The account has no lamports. -/
  | uninitialized
  /-- The account has lamports, and fewer than it needs to be rent exempt. -/
  | rentPaying (lamports dataSize : Nat)
  | rentExempt
deriving DecidableEq, Repr

/-- The rent state of an account; `isExempt` is `Rent::is_exempt` of a balance and a data length. -/
def getAccountRentState (isExempt : Nat → Nat → Bool) (account : Account D) : RentState :=
  if account.lamports = 0 then .uninitialized
  else if isExempt account.lamports account.dataLen then .rentExempt
  else .rentPaying account.lamports account.dataLen

/-- An account may remain rent paying if it is neither resized nor credited, and may not become so. -/
def transitionAllowed (preRentState postRentState : RentState) : Bool :=
  match postRentState with
  | .uninitialized | .rentExempt => true
  | .rentPaying postLamports postDataSize =>
    match preRentState with
    | .uninitialized | .rentExempt => false
    | .rentPaying preLamports preDataSize => postDataSize = preDataSize ∧ postLamports ≤ preLamports

/-! ### Fees of transactions -/

structure FeeDetails where
  transactionFee : Nat
  prioritizationFee : Nat
deriving DecidableEq, Repr

/-- The fee of a signature is 6900000 lamports in a bank from the genesis and its children, and 5000 in one from a
    snapshot. -/
structure FeeStructure where
  lamportsPerSignature : Nat
  positive : 0 < lamportsPerSignature

def calculateSignatureFee (signatures : SignatureDetails) (lamportsPerSignature : Nat)
    (enableSecp256r1Precompile : Bool) : Nat :=
  let signatureCount := saturatingAdd 64
    (saturatingAdd 64 (saturatingAdd 64 signatures.numTransactionSignatures signatures.numEd25519InstructionSignatures)
      signatures.numSecp256k1InstructionSignatures)
    (wrappingMul 64 enableSecp256r1Precompile.toNat signatures.numSecp256r1InstructionSignatures)
  mulSat signatureCount lamportsPerSignature

def calculateFeeDetails (signatures : SignatureDetails) (zeroFeesForTest : Bool)
    (lamportsPerSignature prioritizationFee : Nat) (enableSecp256r1Precompile : Bool) : FeeDetails :=
  if zeroFeesForTest then { transactionFee := 0, prioritizationFee := 0 }
  else
    { transactionFee := calculateSignatureFee signatures lamportsPerSignature enableSecp256r1Precompile
      prioritizationFee }

/-- What the fees of a transaction are read off. The lamports per signature recorded for its blockhash or nonce are
    those of the fee rate governor. -/
structure CheckedTransaction where
  signatures : SignatureDetails
  prioritizationFee : Nat
  recordedLamportsPerSignature : Nat
deriving DecidableEq, Repr

/-- The fees that the check of a transaction sets; there are none if zero lamports per signature were recorded. -/
def CheckedTransaction.feeDetails (features : FeatureSet) (fees : FeeStructure) (transaction : CheckedTransaction) :
    FeeDetails :=
  if transaction.recordedLamportsPerSignature = 0 then { transactionFee := 0, prioritizationFee := 0 }
  else calculateFeeDetails transaction.signatures false fees.lamportsPerSignature transaction.prioritizationFee
    features.enableSecp256r1Precompile

/-! ### Fees of a block -/

/-- The fees that the transactions of a block paid. -/
structure CollectorFeeDetails where
  transactionFee : Nat
  priorityFee : Nat
deriving DecidableEq, Repr

namespace CollectorFeeDetails

def accumulate (collected : CollectorFeeDetails) (feeDetails : FeeDetails) : CollectorFeeDetails :=
  { transactionFee := saturatingAdd 64 collected.transactionFee feeDetails.transactionFee
    priorityFee := saturatingAdd 64 collected.priorityFee feeDetails.prioritizationFee }

def totalTransactionFee (feeDetails : CollectorFeeDetails) : Nat :=
  saturatingAdd 64 feeDetails.transactionFee feeDetails.priorityFee

end CollectorFeeDetails

def FeeDetails.accumulate (accumulated feeDetails : FeeDetails) : FeeDetails :=
  { transactionFee := saturatingAdd 64 accumulated.transactionFee feeDetails.transactionFee
    prioritizationFee := saturatingAdd 64 accumulated.prioritizationFee feeDetails.prioritizationFee }

/-- A transaction that was processed pays its fees, also if it failed. -/
def FeeDetails.accumulateResult {E : Type} (accumulated : FeeDetails) : Except E FeeDetails → FeeDetails
  | .ok feeDetails => accumulated.accumulate feeDetails
  | .error _ => accumulated

/-- Collect the fees of a batch. -/
def filterProgramErrorsAndCollectFeeDetails {E : Type} (processingResults : List (Except E FeeDetails))
    (collected : CollectorFeeDetails) : CollectorFeeDetails :=
  let accumulatedFeeDetails := processingResults.foldl FeeDetails.accumulateResult
    { transactionFee := 0, prioritizationFee := 0 }
  collected.accumulate accumulatedFeeDetails

/-- The fees that a block can have collected: none, and then those of one batch after the other. -/
inductive CollectedFees (E : Type) (features : FeatureSet) (fees : FeeStructure) : CollectorFeeDetails → Prop where
  | new : CollectedFees E features fees { transactionFee := 0, priorityFee := 0 }
  | commit (results : List (Except E CheckedTransaction)) (block : CollectedFees E features fees collected) :
      CollectedFees E features fees
        (filterProgramErrorsAndCollectFeeDetails (results.map (Except.map (·.feeDetails features fees))) collected)

structure FeeDistribution where
  deposit : Nat
  burn : Nat
deriving DecidableEq, Repr

inductive DepositFeeError where
  /-- "fee account became rent paying" -/
  | invalidRentPayingAccount
  /-- "lamport overflow" -/
  | lamportOverflow
  /-- "invalid fee account owner" -/
  | invalidAccountOwner
deriving DecidableEq, Repr

/-- The parts of a bank that the distribution of fees reads and writes. -/
structure Bank (D : Type) where
  collectorId : Pubkey
  collectorFeeDetails : CollectorFeeDetails
  capitalization : Nat
  accounts : Accounts D
  rewards : List (Pubkey × RewardInfo)

/-- What the functions from outside tell: `Rent::is_exempt` and `DEFAULT_BURN_PERCENT`, which is asserted to be at most
    a hundred. -/
structure FeeRules where
  isExempt : Nat → Nat → Bool
  burnPercent : Nat
  percent : burnPercent ≤ 100

namespace Bank

variable (rules : FeeRules) (bank : Bank D)

/-- What the collector is to get, and what is burned. -/
def calculateRewardAndBurnFeeDetails (feeDetails : CollectorFeeDetails) : FeeDistribution :=
  if feeDetails.transactionFee = 0 then { deposit := 0, burn := 0 }
  else
    let burn := wrappingMul 64 feeDetails.transactionFee rules.burnPercent / 100
    let deposit := saturatingAdd 64 feeDetails.priorityFee (feeDetails.transactionFee - burn)
    { deposit, burn }

/-- The account under a key; one that does not exist is empty and belongs to the system program. -/
def accountOrDefault [Inhabited D] (pubkey : Pubkey) : Account D :=
  (bank.accounts.lookup pubkey).getD { lamports := 0, owner := .system, dataLen := 0, data := default }

/-- Deposit fees into an account and return its new balance. -/
def depositFees [Inhabited D] (pubkey : Pubkey) (fees : Nat) : Except DepositFeeError (Nat × Bank D) := do
  let account := bank.accountOrDefault pubkey
  rejectIf (account.owner ≠ .system) .invalidAccountOwner
  let recipientPreRentState := getAccountRentState rules.isExempt account
  let lamports ← okOr (checkedAdd 64 account.lamports fees) .lamportOverflow
  let account := { account with lamports }
  let recipientPostRentState := getAccountRentState rules.isExempt account
  rejectIf (transitionAllowed recipientPreRentState recipientPostRentState = false) .invalidRentPayingAccount
  pure (lamports, { bank with accounts := bank.accounts.insert pubkey account })

/-- Deposit fees into the account of the collector. What has to be burned instead is returned. -/
def depositOrBurnFee [Inhabited D] (deposit : Nat) : Nat × Bank D :=
  if deposit = 0 then (0, bank)
  else
    match bank.depositFees rules bank.collectorId deposit with
    | .ok (postBalance, bank) =>
      (0, { bank with
        rewards := bank.rewards ++ [(bank.collectorId,
          { rewardType := .fee
            lamports := asI64 deposit
            postBalance
            commission := none })] })
    | .error _ => (deposit, bank)

/-- Distribute the fees of the block. -/
def distributeTransactionFeeDetails [Inhabited D] : Bank D :=
  if bank.collectorFeeDetails.totalTransactionFee = 0 then bank
  else
    let distribution := calculateRewardAndBurnFeeDetails rules bank.collectorFeeDetails
    let (burned, bank) := bank.depositOrBurnFee rules distribution.deposit
    let totalBurn := saturatingAdd 64 burned distribution.burn
    { bank with capitalization := wrappingSub 64 bank.capitalization totalBurn }

end Bank

end

open Lib Payout.Runtime Bank

variable {D : Type}

/-- The balance of an account. -/
def Bank.balance (bank : Bank D) (pubkey : Pubkey) : Nat :=
  ((bank.accounts.lookup pubkey).map Account.lamports).getD 0

/-- The balances of all accounts. -/
def Bank.totalLamports (bank : Bank D) : Nat := Store.total (fun _ account => account.lamports) bank.accounts

/-- What the collector did not get was taken from capitalization; a capitalization that was ahead of the balances by
    the fees agrees with them afterwards. -/
structure FeesConserved (before after : Bank D) : Prop where
  split : ∃ deposited burned,
    deposited + burned = before.collectorFeeDetails.transactionFee + before.collectorFeeDetails.priorityFee ∧
      after.balance before.collectorId = before.balance before.collectorId + deposited ∧
      after.capitalization = wrappingSub 64 before.capitalization burned
  agreement : before.capitalization = before.totalLamports +
      (before.collectorFeeDetails.transactionFee + before.collectorFeeDetails.priorityFee) →
    after.capitalization = after.totalLamports

/-! ### What a block collects -/

section Collection

open CostModel (FeatureSet SignatureDetails mulSat)

theorem saturatingAdd_eq_zero : saturatingAdd 64 a b = 0 ↔ a = 0 ∧ b = 0 := by
  unfold saturatingAdd
  omega

/-- The fee payer's signature has its fee. -/
theorem calculateSignatureFee_pos (fees : FeeStructure) (signatures : SignatureDetails) (enabled) :
    0 < calculateSignatureFee signatures fees.lamportsPerSignature enabled := by
  have count : saturatingAdd 64 (saturatingAdd 64 (saturatingAdd 64 signatures.numTransactionSignatures
      signatures.numEd25519InstructionSignatures) signatures.numSecp256k1InstructionSignatures)
      (wrappingMul 64 enabled.toNat signatures.numSecp256r1InstructionSignatures) ≠ 0 := by
    simp only [ne_eq, saturatingAdd_eq_zero]
    have signed := signatures.signed.1
    omega
  exact lt_min (Nat.mul_pos (Nat.pos_of_ne_zero count) fees.positive) (by decide)

theorem CheckedTransaction.feeDetails_based {features fees} {transaction : CheckedTransaction}
    (free : (transaction.feeDetails features fees).transactionFee = 0) :
    (transaction.feeDetails features fees).prioritizationFee = 0 := by
  unfold feeDetails at free ⊢
  split_ifs at free ⊢
  · rfl
  · exact absurd free (calculateSignatureFee_pos fees _ _).ne'

/-- In the sum over a batch the two fees of a transaction are added together. -/
theorem FeeDetails.accumulateResult_based {E features fees} (results : List (Except E CheckedTransaction))
    {accumulated : FeeDetails} (based : accumulated.transactionFee = 0 → accumulated.prioritizationFee = 0) :
    let paid := (results.map (Except.map (·.feeDetails features fees))).foldl accumulateResult accumulated
    paid.transactionFee = 0 → paid.prioritizationFee = 0 := by
  induction results generalizing accumulated with
  | nil => exact based
  | cons result results ih =>
    cases result with
    | error => exact ih based
    | ok transaction =>
      refine ih fun free => ?_
      obtain ⟨before, own⟩ := saturatingAdd_eq_zero.mp free
      exact saturatingAdd_eq_zero.mpr ⟨based before, transaction.feeDetails_based own⟩

/-- A block without transaction fees has no priority fees. -/
theorem CollectedFees.based {E features fees details} (collected : CollectedFees E features fees details)
    (free : details.transactionFee = 0) : details.priorityFee = 0 := by
  induction collected with
  | new => rfl
  | commit results block ih =>
    obtain ⟨before, own⟩ := saturatingAdd_eq_zero.mp free
    exact saturatingAdd_eq_zero.mpr ⟨ih before, FeeDetails.accumulateResult_based results (fun _ => rfl) own⟩

end Collection

/-! ### The deposit -/

theorem Bank.totalLamports_insert (bank : Bank D) (pubkey account) :
    Store.total (fun _ (account : Account D) => account.lamports) (bank.accounts.insert pubkey account) +
      bank.balance pubkey = bank.totalLamports + account.lamports := by
  unfold balance totalLamports
  cases found : bank.accounts.lookup pubkey with
  | none =>
    rw [Store.total_insert_of_absent found, Option.map_none, Option.getD_none, Nat.add_zero, Nat.add_comm]
  | some => exact Store.total_insert_of_present found

section Deposit

variable [Inhabited D] {rules : FeeRules} {bank : Bank D}

theorem Bank.balance_accountOrDefault (bank : Bank D) (pubkey) :
    (bank.accountOrDefault pubkey).lamports = bank.balance pubkey := by
  unfold accountOrDefault balance
  cases bank.accounts.lookup pubkey with
  | none => rfl
  | some => rfl

theorem depositFees_ok (deposited : bank.depositFees rules pubkey fees = .ok (postBalance, after)) :
    after.balance pubkey = bank.balance pubkey + fees ∧
      after.totalLamports = bank.totalLamports + fees ∧ after.capitalization = bank.capitalization := by
  simp only [depositFees, ok_iffs, Prod.mk.injEq] at deposited
  obtain ⟨-, lamports, ⟨-, rfl⟩, -, -, rfl⟩ := deposited
  rw [balance_accountOrDefault]
  refine ⟨?_, ?_, rfl⟩
  · simp [balance, AList.lookup_insert]
  · have total := bank.totalLamports_insert pubkey
      { bank.accountOrDefault pubkey with lamports := bank.balance pubkey + fees }
    simp only [totalLamports] at total ⊢
    omega

/-- What the collector gets, and what is burned of it. -/
theorem depositOrBurnFee_spec (rules) (bank : Bank D) (deposit) :
    ∃ deposited, deposited + (bank.depositOrBurnFee rules deposit).1 = deposit ∧
      (bank.depositOrBurnFee rules deposit).2.balance bank.collectorId = bank.balance bank.collectorId + deposited ∧
      (bank.depositOrBurnFee rules deposit).2.totalLamports = bank.totalLamports + deposited ∧
      (bank.depositOrBurnFee rules deposit).2.capitalization = bank.capitalization := by
  unfold depositOrBurnFee
  split_ifs with none
  · exact ⟨0, none.symm, rfl, rfl, rfl⟩
  · split
    · rename_i postBalance after deposited
      obtain ⟨balance, total, capitalization⟩ := depositFees_ok deposited
      exact ⟨deposit, rfl, balance, total, capitalization⟩
    · exact ⟨0, Nat.zero_add _, rfl, rfl, rfl⟩

end Deposit

/-! ### The distribution -/

section Distribution

variable {rules : FeeRules}

/-- The deposit and the burn are all fees, if there are transaction fees. -/
theorem calculateRewardAndBurnFeeDetails_sum (some : feeDetails.transactionFee ≠ 0)
    (sum : feeDetails.transactionFee + feeDetails.priorityFee < 2 ^ 64)
    (product : feeDetails.transactionFee * rules.burnPercent < 2 ^ 64) :
    (calculateRewardAndBurnFeeDetails rules feeDetails).deposit +
        (calculateRewardAndBurnFeeDetails rules feeDetails).burn =
      feeDetails.transactionFee + feeDetails.priorityFee := by
  have burn : wrappingMul 64 feeDetails.transactionFee rules.burnPercent =
      feeDetails.transactionFee * rules.burnPercent := Nat.mod_eq_of_lt product
  have part : feeDetails.transactionFee * rules.burnPercent / 100 ≤ feeDetails.transactionFee := by
    apply Nat.div_le_of_le_mul
    rw [Nat.mul_comm 100]
    exact Nat.mul_le_mul_left _ rules.percent
  simp only [calculateRewardAndBurnFeeDetails, if_neg some, burn]
  rw [saturatingAdd_of_lt (by omega)]
  omega

/-- A block that collected fees deposits a part of the deposit, and burns the rest of it with what is to be burned. -/
theorem distributeTransactionFeeDetails_spec [Inhabited D] (rules) (bank : Bank D)
    (some : bank.collectorFeeDetails.totalTransactionFee ≠ 0) :
    ∃ deposited burned,
      deposited + burned = (calculateRewardAndBurnFeeDetails rules bank.collectorFeeDetails).deposit ∧
      (bank.distributeTransactionFeeDetails rules).balance bank.collectorId =
        bank.balance bank.collectorId + deposited ∧
      (bank.distributeTransactionFeeDetails rules).totalLamports = bank.totalLamports + deposited ∧
      (bank.distributeTransactionFeeDetails rules).capitalization = wrappingSub 64 bank.capitalization
        (saturatingAdd 64 burned
          (calculateRewardAndBurnFeeDetails rules bank.collectorFeeDetails).burn) := by
  obtain ⟨deposited, split, balance, lamports, capitalization⟩ := depositOrBurnFee_spec rules bank
    (calculateRewardAndBurnFeeDetails rules bank.collectorFeeDetails).deposit
  refine ⟨deposited, _, split, ?_⟩
  unfold distributeTransactionFeeDetails
  rw [if_neg some]
  exact ⟨balance, lamports, by rw [← capitalization]⟩

end Distribution

section Conserved

variable [Inhabited D] (rules : FeeRules) (bank : Bank D)
  (sum : bank.collectorFeeDetails.transactionFee + bank.collectorFeeDetails.priorityFee < 2 ^ 64)
  (product : bank.collectorFeeDetails.transactionFee * rules.burnPercent < 2 ^ 64)
  (fits : bank.capitalization < 2 ^ 64)
include sum product fits

/-- Fees are conserved exactly if there are transaction fees or no priority fees. -/
theorem fees_conserved_iff :
    FeesConserved bank (bank.distributeTransactionFeeDetails rules) ↔
      (bank.collectorFeeDetails.transactionFee ≠ 0 ∨ bank.collectorFeeDetails.priorityFee = 0) := by
  have total : bank.collectorFeeDetails.totalTransactionFee =
      bank.collectorFeeDetails.transactionFee + bank.collectorFeeDetails.priorityFee := saturatingAdd_of_lt sum
  by_cases none : bank.collectorFeeDetails.totalTransactionFee = 0
  · -- No fees, and nothing happens.
    have idle : bank.distributeTransactionFeeDetails rules = bank := if_pos none
    rw [idle]
    refine iff_of_true ⟨⟨0, 0, by omega, rfl, ?_⟩, by omega⟩ (by omega)
    rw [wrappingSub_of_le fits (Nat.zero_le _), Nat.sub_zero]
  · obtain ⟨deposited, burned, split, balance, lamports, capitalization⟩ :=
      distributeTransactionFeeDetails_spec rules bank none
    by_cases base : bank.collectorFeeDetails.transactionFee = 0
    · -- Priority fees alone are neither deposited nor burned.
      refine iff_of_false ?_ (by omega)
      rintro ⟨⟨got, lost, all, gained, taken⟩, -⟩
      simp only [calculateRewardAndBurnFeeDetails, if_pos base, saturatingAdd, wrappingSub] at split capitalization taken
      omega
    · have all := calculateRewardAndBurnFeeDetails_sum base sum product
      rw [saturatingAdd_of_lt (by omega)] at capitalization
      refine iff_of_true ⟨⟨deposited, _, by omega, balance, capitalization⟩, ?_⟩ (.inl base)
      intro ahead
      rw [capitalization, lamports, wrappingSub_of_le fits (by omega)]
      omega

/-- The fees that a block collected are conserved. -/
theorem fees_conserved {E features fees} (collected : CollectedFees E features fees bank.collectorFeeDetails) :
    FeesConserved bank (bank.distributeTransactionFeeDetails rules) :=
  (fees_conserved_iff rules bank sum product fits).mpr (or_iff_not_imp_left.mpr fun free =>
    collected.based (not_ne_iff.mp free))

end Conserved

namespace Sample

/-- Half of the transaction fees is burned; rent exemption is two years of rent, 3480 lamports a byte and year. -/
def rules : FeeRules :=
  { isExempt := fun lamports dataLen => (128 + dataLen) * 3480 * 2 ≤ lamports
    burnPercent := 50
    percent := by decide }

def fees : FeeStructure := { lamportsPerSignature := 6900000, positive := by decide }

def features : CostModel.FeatureSet := { ed25519PrecompileVerifyStrict := true, enableSecp256r1Precompile := true }

/-- A transaction with two signatures. -/
def transaction (prioritizationFee : Nat) : CheckedTransaction :=
  { signatures :=
      { numTransactionSignatures := 2
        numSecp256k1InstructionSignatures := 0
        numEd25519InstructionSignatures := 0
        numSecp256r1InstructionSignatures := 0
        signed := by decide
        counted := by decide }
    prioritizationFee
    recordedLamportsPerSignature := 5000 }

/-- A batch of three transactions, of which one was not processed. -/
def results : List (Except Unit CheckedTransaction) := [.ok (transaction 200), .error (), .ok (transaction 0)]

/-- A collector with a million lamports, and a capitalization that is ahead by the fees. -/
def block : Bank Unit :=
  { collectorId := 1
    collectorFeeDetails := filterProgramErrorsAndCollectFeeDetails
      (results.map (Except.map (·.feeDetails features fees))) { transactionFee := 0, priorityFee := 0 }
    capitalization := 1000000 + 27600200
    accounts := (∅ : Accounts Unit).insert 1 { lamports := 1000000, owner := .system, dataLen := 0, data := () }
    rewards := [] }

end Sample

open Sample

/-- A block with fees of 27600000 and 200 lamports, of which 13800000 are burned. -/
theorem fees_conserved_sample :
    block.collectorFeeDetails = { transactionFee := 27600000, priorityFee := 200 } ∧
      FeesConserved block (block.distributeTransactionFeeDetails rules) :=
  ⟨by decide, fees_conserved rules block (by decide) (by decide) (by decide)
    (.commit results .new : CollectedFees _ features fees _)⟩

end Payout.Fees
