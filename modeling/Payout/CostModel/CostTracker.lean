/-
Purpose: The costs of a block while it is produced. The estimated cost of a transaction is reserved when the
  transaction is selected, if it fits the limits; later the reservation is corrected to the actual cost, or removed.
Source: gorchain/cost-model/src/{cost_tracker, cost_model, transaction_cost, block_cost_limits}.rs,
  gorchain/core/src/banking_stage/qos_service.rs, gorchain/runtime-transaction/src/signature_details.rs,
  gorchain/compute-budget-instruction/src/compute_budget_instruction_details.rs
Trusted boundary: what a transaction asks for (compute units, data sizes, allocations) is read off it elsewhere, within
  the bounds below; the cost of loaded data is a parameter
-/
import Payout.Runtime.TransactionContext

namespace Payout.CostModel

open Lib Payout.Runtime

/-! ### Costs of transactions -/

def computeUnitToUsRatio : Nat := 30

def signatureCost : Nat := computeUnitToUsRatio * 24

def secp256k1VerifyCost : Nat := computeUnitToUsRatio * 223

def ed25519VerifyCost : Nat := computeUnitToUsRatio * 76

def ed25519VerifyStrictCost : Nat := computeUnitToUsRatio * 80

def secp256r1VerifyCost : Nat := computeUnitToUsRatio * 160

def writeLockUnits : Nat := computeUnitToUsRatio * 10

def maxBlockAccountsDataSizeDelta : Nat := 100000000

/-- Addition of 64-bit numbers that stops at the largest. -/
abbrev addSat (a b : Nat) : Nat := saturatingAdd 64 a b

/-- Multiplication of 64-bit numbers that stops at the largest. -/
def mulSat (a b : Nat) : Nat := min (a * b) u64Max

structure FeatureSet where
  ed25519PrecompileVerifyStrict : Bool
  enableSecp256r1Precompile : Bool
deriving DecidableEq, Repr

/-- The bytes of a packet, which holds a transaction. -/
def packetDataSize : Nat := 1232

/-- The most signatures that instructions can claim: an instruction of a precompile counts as many as its first byte
    says. -/
def maxInstructionSignatures : Nat := packetDataSize * 255

/-- What the compute units that a transaction asks for are cut down to. -/
def maxComputeUnitLimit : Nat := 1400000

/-- The signatures of a transaction; its fee payer has signed, and the number of its own signatures is a byte. -/
structure SignatureDetails where
  numTransactionSignatures : Nat
  numSecp256k1InstructionSignatures : Nat
  numEd25519InstructionSignatures : Nat
  numSecp256r1InstructionSignatures : Nat
  signed : 0 < numTransactionSignatures ∧ numTransactionSignatures ≤ 255
  counted : numSecp256k1InstructionSignatures + numEd25519InstructionSignatures + numSecp256r1InstructionSignatures ≤
    maxInstructionSignatures
deriving DecidableEq, Repr

/-- What the cost model reads off a transaction. -/
structure Transaction where
  writableAccounts : List Pubkey
  isSimpleVoteTransaction : Bool
  signatureDetails : SignatureDetails
  numWriteLocks : Nat
  programsExecutionCost : Nat
  loadedAccountsDataSizeCost : Nat
  dataBytesCost : Nat
  allocatedAccountsDataSize : Nat
  clamped : programsExecutionCost ≤ maxComputeUnitLimit
deriving DecidableEq, Repr

structure UsageCostDetails where
  transaction : Transaction
  signatureCost : Nat
  writeLockCost : Nat
  dataBytesCost : Nat
  programsExecutionCost : Nat
  loadedAccountsDataSizeCost : Nat
  allocatedAccountsDataSize : Nat
deriving DecidableEq, Repr

namespace UsageCostDetails

def sum (details : UsageCostDetails) : Nat :=
  addSat (addSat (addSat (addSat details.signatureCost details.writeLockCost) details.dataBytesCost)
    details.programsExecutionCost) details.loadedAccountsDataSizeCost

end UsageCostDetails

inductive TransactionCost where
  | simpleVote (transaction : Transaction)
  | transaction (details : UsageCostDetails)
deriving DecidableEq, Repr

def simpleVoteUsageCost : Nat := 3428

/-- The compute units of a vote instruction. -/
def voteDefaultComputeUnits : Nat := 2100

namespace TransactionCost

def sum : TransactionCost → Nat
  | simpleVote _ => simpleVoteUsageCost
  | transaction details => details.sum

def programsExecutionCost : TransactionCost → Nat
  | simpleVote _ => voteDefaultComputeUnits
  | transaction details => details.programsExecutionCost

def isSimpleVote : TransactionCost → Bool
  | simpleVote _ => true
  | transaction _ => false

def allocatedAccountsDataSize : TransactionCost → Nat
  | simpleVote _ => 0
  | transaction details => details.allocatedAccountsDataSize

def loadedAccountsDataSizeCost : TransactionCost → Nat
  | simpleVote _ => 8
  | transaction details => details.loadedAccountsDataSizeCost

def writableAccounts : TransactionCost → List Pubkey
  | simpleVote vote => vote.writableAccounts
  | transaction details => details.transaction.writableAccounts

def numTransactionSignatures : TransactionCost → Nat
  | simpleVote _ => 1
  | transaction details => details.transaction.signatureDetails.numTransactionSignatures

def numSecp256k1InstructionSignatures : TransactionCost → Nat
  | simpleVote _ => 0
  | transaction details => details.transaction.signatureDetails.numSecp256k1InstructionSignatures

def numEd25519InstructionSignatures : TransactionCost → Nat
  | simpleVote _ => 0
  | transaction details => details.transaction.signatureDetails.numEd25519InstructionSignatures

def numSecp256r1InstructionSignatures : TransactionCost → Nat
  | simpleVote _ => 0
  | transaction details => details.transaction.signatureDetails.numSecp256r1InstructionSignatures

/-- The units reserved for loading accounts and running programs. -/
def estimatedLoadAndExecutionUnits (cost : TransactionCost) : Nat :=
  addSat cost.programsExecutionCost cost.loadedAccountsDataSizeCost

end TransactionCost

def getSignatureCost (features : FeatureSet) (signatures : SignatureDetails) : Nat :=
  addSat (addSat (addSat (mulSat signatures.numTransactionSignatures signatureCost)
      (mulSat signatures.numSecp256k1InstructionSignatures secp256k1VerifyCost))
      (mulSat signatures.numEd25519InstructionSignatures
        (if features.ed25519PrecompileVerifyStrict then ed25519VerifyStrictCost else ed25519VerifyCost)))
    (mulSat signatures.numSecp256r1InstructionSignatures
      (if features.enableSecp256r1Precompile then secp256r1VerifyCost else 0))

def getWriteLockCost (numWriteLocks : Nat) : Nat := mulSat writeLockUnits numWriteLocks

def calculateCost (features : FeatureSet) (transaction : Transaction) : TransactionCost :=
  if transaction.isSimpleVoteTransaction then .simpleVote transaction
  else .transaction
    { transaction := transaction
      signatureCost := getSignatureCost features transaction.signatureDetails
      writeLockCost := getWriteLockCost transaction.numWriteLocks
      dataBytesCost := transaction.dataBytesCost
      programsExecutionCost := transaction.programsExecutionCost
      loadedAccountsDataSizeCost := transaction.loadedAccountsDataSizeCost
      allocatedAccountsDataSize := transaction.allocatedAccountsDataSize }

/-! ### The tracker -/

inductive CostTrackerError where
  | wouldExceedBlockMaxLimit
  | wouldExceedVoteMaxLimit
  | wouldExceedAccountMaxLimit
  | wouldExceedAccountDataBlockLimit
deriving DecidableEq, Repr

structure UpdatedCosts where
  updatedBlockCost : Nat
  updatedCostliestAccountCost : Nat
deriving DecidableEq, Repr

structure CostTracker where
  accountCostLimit : Nat
  blockCostLimit : Nat
  voteCostLimit : Nat
  costByWritableAccounts : Store Pubkey Nat
  blockCost : Nat
  voteCost : Nat
  transactionCount : Nat
  allocatedAccountsDataSize : Nat
  transactionSignatureCount : Nat
  secp256k1InstructionSignatureCount : Nat
  ed25519InstructionSignatureCount : Nat
  inFlightTransactionCount : Nat
  secp256r1InstructionSignatureCount : Nat

namespace CostTracker

/-- A tracker with limits and without costs. -/
def new (accountCostLimit blockCostLimit voteCostLimit : Nat) : CostTracker :=
  { accountCostLimit := accountCostLimit, blockCostLimit := blockCostLimit, voteCostLimit := voteCostLimit
    costByWritableAccounts := ∅, blockCost := 0, voteCost := 0, transactionCount := 0, allocatedAccountsDataSize := 0
    transactionSignatureCount := 0, secp256k1InstructionSignatureCount := 0, ed25519InstructionSignatureCount := 0
    inFlightTransactionCount := 0, secp256r1InstructionSignatureCount := 0 }

variable (tracker : CostTracker)

def accountCost (account : Pubkey) : Nat := (tracker.costByWritableAccounts.lookup account).getD 0

def addTransactionsInFlight (count : Nat) : CostTracker :=
  { tracker with inFlightTransactionCount := addSat tracker.inFlightTransactionCount count }

def subTransactionsInFlight (count : Nat) : CostTracker :=
  { tracker with inFlightTransactionCount := tracker.inFlightTransactionCount - count }

variable (txCost : TransactionCost)

def wouldFit : Except CostTrackerError Unit := do
  let cost := txCost.sum
  rejectIf (txCost.isSimpleVote = true ∧ addSat tracker.voteCost cost > tracker.voteCostLimit) .wouldExceedVoteMaxLimit
  rejectIf (addSat tracker.blockCost cost > tracker.blockCostLimit) .wouldExceedBlockMaxLimit
  rejectIf (cost > tracker.accountCostLimit) .wouldExceedAccountMaxLimit
  rejectIf (addSat tracker.allocatedAccountsDataSize txCost.allocatedAccountsDataSize > maxBlockAccountsDataSizeDelta)
    .wouldExceedAccountDataBlockLimit
  rejectIf (∃ account ∈ txCost.writableAccounts, ∃ chainedCost ∈ tracker.costByWritableAccounts.lookup account,
    addSat chainedCost cost > tracker.accountCostLimit) .wouldExceedAccountMaxLimit

/-- Change the costs of accounts in turn; the highest cost that was written is returned. -/
def adjustAccounts (adjust : Nat → Nat) (accounts : List Pubkey) (costs : Store Pubkey Nat) : Store Pubkey Nat × Nat :=
  accounts.foldl
    (fun (costs, costliest) account =>
      let accountCost := adjust ((costs.lookup account).getD 0)
      (costs.insert account accountCost, max costliest accountCost))
    (costs, 0)

/-- The highest cost of an account of the transaction is returned. -/
def addTransactionExecutionCost (adjustment : Nat) : CostTracker × Nat :=
  let (costs, costliest) := adjustAccounts (addSat · adjustment) txCost.writableAccounts tracker.costByWritableAccounts
  ({ tracker with
      costByWritableAccounts := costs
      blockCost := addSat tracker.blockCost adjustment
      voteCost := if txCost.isSimpleVote then addSat tracker.voteCost adjustment else tracker.voteCost }, costliest)

def subTransactionExecutionCost (adjustment : Nat) : CostTracker :=
  { tracker with
    costByWritableAccounts := (adjustAccounts (· - adjustment) txCost.writableAccounts tracker.costByWritableAccounts).1
    blockCost := tracker.blockCost - adjustment
    voteCost := if txCost.isSimpleVote then tracker.voteCost - adjustment else tracker.voteCost }

def addTransactionCost : CostTracker × Nat :=
  addTransactionExecutionCost
    { tracker with
      allocatedAccountsDataSize := addSat tracker.allocatedAccountsDataSize txCost.allocatedAccountsDataSize
      transactionCount := addSat tracker.transactionCount 1
      transactionSignatureCount := addSat tracker.transactionSignatureCount txCost.numTransactionSignatures
      secp256k1InstructionSignatureCount :=
        addSat tracker.secp256k1InstructionSignatureCount txCost.numSecp256k1InstructionSignatures
      ed25519InstructionSignatureCount :=
        addSat tracker.ed25519InstructionSignatureCount txCost.numEd25519InstructionSignatures
      secp256r1InstructionSignatureCount :=
        addSat tracker.secp256r1InstructionSignatureCount txCost.numSecp256r1InstructionSignatures }
    txCost txCost.sum

def tryAdd : Except CostTrackerError (CostTracker × UpdatedCosts) := do
  tracker.wouldFit txCost
  let (added, costliest) := tracker.addTransactionCost txCost
  .ok (added, { updatedBlockCost := added.blockCost, updatedCostliestAccountCost := costliest })

def updateExecutionCost (estimatedTxCost : TransactionCost)
    (actualExecutionUnits actualLoadedAccountsDataSizeCost : Nat) :
    CostTracker :=
  let actual := addSat actualExecutionUnits actualLoadedAccountsDataSizeCost
  let estimated := estimatedTxCost.estimatedLoadAndExecutionUnits
  if actual = estimated then tracker
  else if estimated < actual then (tracker.addTransactionExecutionCost estimatedTxCost (actual - estimated)).1
  else tracker.subTransactionExecutionCost estimatedTxCost (estimated - actual)

/-- Remove the cost of a transaction. -/
def remove : CostTracker :=
  let left := tracker.subTransactionExecutionCost txCost txCost.sum
  { left with
    allocatedAccountsDataSize := left.allocatedAccountsDataSize - txCost.allocatedAccountsDataSize
    transactionCount := left.transactionCount - 1
    transactionSignatureCount := left.transactionSignatureCount - txCost.numTransactionSignatures
    secp256k1InstructionSignatureCount :=
      left.secp256k1InstructionSignatureCount - txCost.numSecp256k1InstructionSignatures
    ed25519InstructionSignatureCount := left.ed25519InstructionSignatureCount - txCost.numEd25519InstructionSignatures
    secp256r1InstructionSignatureCount :=
      left.secp256r1InstructionSignatureCount - txCost.numSecp256r1InstructionSignatures }

end CostTracker

/-! ### Quality of service -/

/-- Why a transaction of a batch was not selected. -/
inductive SelectionError where
  | filteredOut
  | wouldExceed (error : CostTrackerError)
deriving DecidableEq, Repr

abbrev CostResult := Except SelectionError TransactionCost

/-- The costs of the transactions that were not filtered out already. -/
def computeTransactionCosts (features : FeatureSet) (transactions : List (Transaction × Bool)) : List CostResult :=
  transactions.map fun (transaction, passed) =>
    if passed then .ok (calculateCost features transaction) else .error .filteredOut

/-- Try to add the costs of transactions in turn. -/
def selectCosts : List CostResult → CostTracker → CostTracker × List CostResult × Nat
  | [], tracker => (tracker, [], 0)
  | .error error :: costs, tracker =>
    let (tracker, results, numIncluded) := selectCosts costs tracker
    (tracker, .error error :: results, numIncluded)
  | .ok cost :: costs, tracker =>
    match tracker.tryAdd cost with
    | .ok (added, _) =>
      let (tracker, results, numIncluded) := selectCosts costs added
      (tracker, .ok cost :: results, numIncluded + 1)
    | .error error =>
      let (tracker, results, numIncluded) := selectCosts costs tracker
      (tracker, .error (.wouldExceed error) :: results, numIncluded)

/-- The transactions selected are in flight. -/
def selectTransactionsPerCost (costs : List CostResult) (tracker : CostTracker) : CostTracker × List CostResult × Nat :=
  let (tracker, results, numIncluded) := selectCosts costs tracker
  (tracker.addTransactionsInFlight numIncluded, results, numIncluded)

inductive CommitTransactionDetails where
  | committed (computeUnits loadedAccountsDataSize : Nat)
  | notCommitted
deriving DecidableEq, Repr

section Settling

variable (loadedCost : Nat → Nat)

/-- Correct or remove the cost of one selected transaction. -/
def settleCost (tracker : CostTracker) (cost : TransactionCost) : CommitTransactionDetails → CostTracker
  | .committed computeUnits loadedAccountsDataSize =>
    tracker.updateExecutionCost cost computeUnits (loadedCost loadedAccountsDataSize)
  | .notCommitted => tracker.remove cost

/-- The number of selected transactions is counted. -/
def settleCosts : List CostResult → List CommitTransactionDetails → CostTracker → CostTracker × Nat
  | .ok cost :: results, details :: statuses, tracker =>
    let (tracker, numIncluded) := settleCosts results statuses (settleCost loadedCost tracker cost details)
    (tracker, numIncluded + 1)
  | .error _ :: results, _ :: statuses, tracker => settleCosts results statuses tracker
  | _, _, tracker => (tracker, 0)

def removeOrUpdateRecordedTransactionCosts (results : List CostResult) (statuses : List CommitTransactionDetails)
    (tracker : CostTracker) : CostTracker :=
  let (tracker, numIncluded) := settleCosts loadedCost results statuses tracker
  tracker.subTransactionsInFlight numIncluded

/-- The number of selected transactions is counted. -/
def removeCosts : List CostResult → CostTracker → CostTracker × Nat
  | [], tracker => (tracker, 0)
  | .ok cost :: results, tracker =>
    let (tracker, numIncluded) := removeCosts results (tracker.remove cost)
    (tracker, numIncluded + 1)
  | .error _ :: results, tracker => removeCosts results tracker

def removeUnrecordedTransactionCosts (results : List CostResult) (tracker : CostTracker) : CostTracker :=
  let (tracker, numIncluded) := removeCosts results tracker
  tracker.subTransactionsInFlight numIncluded

def removeOrUpdateCosts (results : List CostResult) (statuses : Option (List CommitTransactionDetails))
    (tracker : CostTracker) : CostTracker :=
  match statuses with
  | some statuses => removeOrUpdateRecordedTransactionCosts loadedCost results statuses tracker
  | none => removeUnrecordedTransactionCosts results tracker

end Settling

end Payout.CostModel
