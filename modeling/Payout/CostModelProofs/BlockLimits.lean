/-
Purpose: Block limits over whole runs. The tracker is a book of reservations, whose entries are the selected
  transactions with their current costs. Batches of several threads are selected and later settled in any order; after
  every step the counters of the tracker are the sums over the book, and they are within the limits.
-/
import Mathlib.Algebra.Order.BigOperators.Group.Multiset
import Payout.CostModel.CostTracker
import Payout.Lib.Run

namespace Payout.CostModel

section

open Lib Payout.Runtime CostTracker Multiset Nat

variable {a current loadedCost : Nat} {features : FeatureSet} {kind : TransactionCost → Prop}

/-! ### Exact sums -/

theorem addSat_exact (fits : a + b ≤ u64Max) : addSat a b = a + b :=
  saturatingAdd_of_lt (by unfold u64Max at fits; omega)

theorem addSat_le (below : bound < u64Max) (le : addSat a b ≤ bound) : addSat a b = a + b ∧ a + b ≤ bound := by
  unfold addSat saturatingAdd at *
  unfold u64Max at below
  omega

/-- A selected transaction, with its current cost. -/
abbrev Entry := TransactionCost × Nat

/-- The sum of a measure over a book. -/
def bookTotal (measure : Entry → Nat) (book : Multiset Entry) : Nat := (book.map measure).sum

variable {book : Multiset Entry} {tracker : CostTracker} {cost : TransactionCost} {adjustment : Nat}

section Totals

variable {entry : Entry} {measure measure' : Entry → Nat}

theorem bookTotal_cons : bookTotal measure (entry ::ₘ book) = measure entry + bookTotal measure book := by
  rw [bookTotal, map_cons, sum_cons]
  rfl

theorem bookTotal_le (le : ∀ entry ∈ book, measure entry ≤ measure' entry) :
    bookTotal measure book ≤ bookTotal measure' book :=
  sum_map_le_sum_map measure measure' le

theorem bookTotal_const (a : Nat) : bookTotal (fun _ => a) book = book.card * a := by
  rw [bookTotal, map_const', sum_replicate, smul_eq_mul]

end Totals

/-- The counts of signatures that the cost of a transaction covers. -/
def coveredSignatures (features : FeatureSet) : List (TransactionCost → Nat) :=
  [(·.numTransactionSignatures), (·.numSecp256k1InstructionSignatures), (·.numEd25519InstructionSignatures)] ++
    if features.enableSecp256r1Precompile then [(·.numSecp256r1InstructionSignatures)] else []

theorem forall_coveredSignatures {P : (TransactionCost → Nat) → Prop} :
    (∀ signatures ∈ coveredSignatures features, P signatures) ↔ P (·.numTransactionSignatures) ∧
      P (·.numSecp256k1InstructionSignatures) ∧ P (·.numEd25519InstructionSignatures) ∧
      (features.enableSecp256r1Precompile = true → P (·.numSecp256r1InstructionSignatures)) := by
  unfold coveredSignatures
  split <;> simp [*]

/-- A cost whose parts are exact: the units reserved for loading and execution are part of it, and the rest pays for the
    signatures. -/
structure Plain (features : FeatureSet) (cost : TransactionCost) : Prop where
  distinct : cost.writableAccounts.Nodup
  signed : 0 < cost.numTransactionSignatures
  covered : ∀ signatures ∈ coveredSignatures features, cost.estimatedLoadAndExecutionUnits + signatures cost ≤ cost.sum

section Plain

variable {transaction : Transaction}

/-- The signature cost covers the number of signatures of each kind. -/
theorem signatures_le (small : getSignatureCost features details.transaction.signatureDetails < u64Max) :
    ∀ signatures ∈ coveredSignatures features,
      signatures (.transaction details) ≤ getSignatureCost features details.transaction.signatureDetails := by
  simp only [getSignatureCost, addSat, saturatingAdd, mulSat, u64Max, signatureCost, secp256k1VerifyCost,
    ed25519VerifyCost, ed25519VerifyStrictCost, secp256r1VerifyCost, computeUnitToUsRatio] at small ⊢
  simp only [forall_coveredSignatures, TransactionCost.numTransactionSignatures,
    TransactionCost.numSecp256k1InstructionSignatures, TransactionCost.numEd25519InstructionSignatures,
    TransactionCost.numSecp256r1InstructionSignatures]
  split_ifs at small ⊢ <;> refine ⟨by omega, by omega, by omega, fun _ => ?_⟩ <;> first | omega | contradiction

theorem plain_transaction
    (isCost : details.signatureCost = getSignatureCost features details.transaction.signatureDetails)
    (distinct : details.transaction.writableAccounts.Nodup) (small : details.sum < u64Max) :
    Plain features (.transaction details) := by
  refine ⟨distinct, details.transaction.signatureDetails.signed.1, ?_⟩
  intro signatures mem
  -- All parts are in the sum, as it is exact.
  simp only [TransactionCost.sum, UsageCostDetails.sum, TransactionCost.estimatedLoadAndExecutionUnits,
    TransactionCost.programsExecutionCost, TransactionCost.loadedAccountsDataSizeCost, addSat, saturatingAdd, u64Max]
    at small ⊢
  have small : getSignatureCost features details.transaction.signatureDetails < u64Max := by
    unfold u64Max
    omega
  have covered := signatures_le small signatures mem
  omega

/-- The cost of a transaction that did not run into the largest number is plain. -/
theorem plain_calculateCost (distinct : transaction.writableAccounts.Nodup)
    (small : (calculateCost features transaction).sum < u64Max) :
    Plain features (calculateCost features transaction) := by
  unfold calculateCost at small ⊢
  split at small
  · rw [if_pos ‹_›]
    refine ⟨distinct, one_pos, forall_coveredSignatures.mpr ⟨?_, ?_, ?_, fun _ => ?_⟩⟩ <;> exact le_of_ble_eq_true rfl
  · rw [if_neg ‹_›]
    exact plain_transaction rfl distinct small

end Plain

/-! ### Account costs -/

/-- The accounts of a transaction are adjusted once each, and no others. -/
theorem adjustAccounts_lookup (distinct : accounts.Nodup) :
    (((CostTracker.adjustAccounts adjust accounts costs).1).lookup account).getD 0 =
      if account ∈ accounts then adjust ((costs.lookup account).getD 0) else (costs.lookup account).getD 0 := by
  have all : ∀ (costs : Store Pubkey Nat) (highest : Nat),
      ((accounts.foldl (fun reached account =>
          let accountCost := adjust ((reached.1.lookup account).getD 0)
          (reached.1.insert account accountCost, max reached.2 accountCost))
          (costs, highest)).1.lookup account).getD 0 =
        if account ∈ accounts then adjust ((costs.lookup account).getD 0) else (costs.lookup account).getD 0 := by
    induction accounts with
    | nil => simp
    | cons first rest ih =>
      obtain ⟨fresh, distinct⟩ := List.nodup_cons.mp distinct
      intro costs highest
      rw [List.foldl_cons, ih distinct, Store.lookup_insert_eq_ite]
      by_cases same : account = first
      · subst same
        simp [fresh]
      · simp [same]
  exact all costs 0

section Accounts

variable {account : Pubkey}

theorem accountCost_addTransactionCost (distinct : cost.writableAccounts.Nodup) :
    (tracker.addTransactionCost cost).1.accountCost account =
      if account ∈ cost.writableAccounts then addSat (tracker.accountCost account) cost.sum
      else tracker.accountCost account := by
  unfold addTransactionCost addTransactionExecutionCost accountCost
  exact adjustAccounts_lookup distinct

end Accounts

/-! ### The book -/

/-- The current costs of the transactions of a kind. -/
def costOf (kind : TransactionCost → Prop) [DecidablePred kind] (book : Multiset Entry) : Nat :=
  bookTotal (fun entry => if kind entry.1 then entry.2 else 0) book

theorem costOf_cons [DecidablePred kind] :
    costOf kind ((cost, current) ::ₘ book) = (if kind cost then current else 0) + costOf kind book :=
  bookTotal_cons

theorem costOf_le [DecidablePred kind] : costOf kind book ≤ bookTotal (·.2) book := by
  apply bookTotal_le
  intro entry _
  split <;> omega

/-- Every counter of the tracker is a sum over the book, and all costs are within the limits. -/
structure ExactCosts (features : FeatureSet) (tracker : CostTracker) (book : Multiset Entry) : Prop where
  blockCost : tracker.blockCost = bookTotal (·.2) book
  voteCost : tracker.voteCost = costOf (·.isSimpleVote) book
  accountCost : ∀ account, tracker.accountCost account = costOf (account ∈ ·.writableAccounts) book
  allocated : tracker.allocatedAccountsDataSize = bookTotal (·.1.allocatedAccountsDataSize) book
  transactionCount : tracker.transactionCount = book.card
  transactionSignatures : tracker.transactionSignatureCount = bookTotal (·.1.numTransactionSignatures) book
  secp256k1Signatures : tracker.secp256k1InstructionSignatureCount =
    bookTotal (·.1.numSecp256k1InstructionSignatures) book
  ed25519Signatures : tracker.ed25519InstructionSignatureCount = bookTotal (·.1.numEd25519InstructionSignatures) book
  /-- These are free while the feature is not active; the number of transactions bounds them then. -/
  secp256r1Signatures : features.enableSecp256r1Precompile = true ∨
      tracker.blockCostLimit * maxInstructionSignatures ≤ u64Max →
    tracker.secp256r1InstructionSignatureCount = bookTotal (·.1.numSecp256r1InstructionSignatures) book
  blockWithin : tracker.blockCost ≤ tracker.blockCostLimit
  voteWithin : tracker.voteCost ≤ tracker.voteCostLimit
  accountWithin : ∀ account, tracker.accountCost account ≤ tracker.accountCostLimit
  allocatedWithin : tracker.allocatedAccountsDataSize ≤ maxBlockAccountsDataSizeDelta

/-- The current cost of an entry is lower than the cost reserved by units that were not used. -/
structure Entered (features : FeatureSet) (entry : Entry) : Prop where
  plain : Plain features entry.1
  floor : entry.1.sum ≤ entry.2 + entry.1.estimatedLoadAndExecutionUnits

theorem Entered.covers (entered : Entered features entry) :
    ∀ signatures ∈ coveredSignatures features, signatures entry.1 ≤ entry.2 := by
  intro signatures mem
  have covered := entered.plain.covered signatures mem
  have floor := entered.floor
  omega

structure CostBook (features : FeatureSet) (tracker : CostTracker) (book : Multiset Entry) : Prop
    extends ExactCosts features tracker book where
  limit : tracker.blockCostLimit < u64Max
  entered : ∀ entry ∈ book, Entered features entry

section Book

variable {count : Nat}

/-- The secp256r1 signatures are bounded by the number of transactions, and so by the limit. -/
theorem addSat_secp256r1 (few : book.card + 1 ≤ tracker.blockCostLimit)
    (bounded : tracker.blockCostLimit * maxInstructionSignatures ≤ u64Max)
    (counted : count = bookTotal (·.1.numSecp256r1InstructionSignatures) book) :
    addSat count cost.numSecp256r1InstructionSignatures =
      bookTotal (·.1.numSecp256r1InstructionSignatures) ((cost, current) ::ₘ book) := by
  have each : ∀ cost : TransactionCost, cost.numSecp256r1InstructionSignatures ≤ maxInstructionSignatures := by
    intro cost
    cases cost with
    | simpleVote => exact Nat.zero_le _
    | transaction details => exact le_of_add_left_le details.transaction.signatureDetails.counted
  have total : bookTotal (·.1.numSecp256r1InstructionSignatures) book ≤ book.card * maxInstructionSignatures := by
    rw [← bookTotal_const]
    exact bookTotal_le fun entry _ => each entry.1
  have all := (Nat.mul_le_mul_right maxInstructionSignatures few).trans bounded
  have own := each cost
  rw [Nat.add_mul, one_mul] at all
  rw [bookTotal_cons, counted, addSat_exact (by omega), add_comm]

namespace CostBook

section

variable (kept : CostBook features tracker book)
include kept

theorem card_le : book.card ≤ tracker.blockCost := by
  rw [← mul_one book.card, ← bookTotal_const, kept.blockCost]
  apply bookTotal_le
  intro entry mem
  have entered := kept.entered entry mem
  exact le_trans entered.plain.signed (entered.covers _ List.mem_cons_self)

/-- A sum that the costs cover does not saturate when a transaction that fits is entered. -/
theorem addSat_total (entered : Entered features (cost, current))
    (fits : tracker.blockCost + current ≤ tracker.blockCostLimit) {measure : Entry → Nat}
    (covered : ∀ entry, Entered features entry → measure entry ≤ entry.2) (counted : count = bookTotal measure book) :
    addSat count (measure (cost, current)) = bookTotal measure ((cost, current) ::ₘ book) := by
  have below : bookTotal measure book ≤ tracker.blockCost := by
    rw [kept.blockCost]
    exact bookTotal_le fun entry mem => covered entry (kept.entered entry mem)
  have here : measure (cost, current) ≤ current := covered _ entered
  have limit := kept.limit
  rw [bookTotal_cons, counted, addSat_exact (by omega), add_comm]

theorem addSat_costOf (fits : tracker.blockCost + current ≤ tracker.blockCostLimit) [DecidablePred kind]
    (counted : count = costOf kind book) :
    (if kind cost then addSat count current else count) = costOf kind ((cost, current) ::ₘ book) := by
  have below : costOf kind book ≤ tracker.blockCost := by
    rw [kept.blockCost]
    exact costOf_le
  have limit := kept.limit
  rw [costOf_cons, counted]
  split
  · rw [addSat_exact (by omega), add_comm]
  · rw [zero_add]

theorem tryAdd (plain : cost.sum < u64Max → Plain features cost)
    (added : tracker.tryAdd cost = .ok (tracker', updated)) :
    CostBook features tracker' ((cost, cost.sum) ::ₘ book) := by
  simp only [CostTracker.tryAdd, CostTracker.wouldFit, ok_iffs, Prod.mk.injEq, not_lt,
    gt_iff_lt] at added
  obtain ⟨⟨voteFits, blockFits, accountFits, dataFits, accountsFit⟩, rfl, -⟩ := added
  have limit := kept.limit
  obtain ⟨blockSum, fits⟩ := addSat_le limit blockFits
  obtain ⟨dataSum, -⟩ := addSat_le (by decide) dataFits
  have plain := plain (by omega)
  have entered : Entered features (cost, cost.sum) := ⟨plain, le_add_right _ _⟩
  have signatures : ∀ {signatures : TransactionCost → Nat}, signatures ∈ coveredSignatures features → ∀ {count},
      count = bookTotal (signatures ·.1) book →
        addSat count (signatures cost) = bookTotal (signatures ·.1) ((cost, cost.sum) ::ₘ book) :=
    fun mem _ => kept.addSat_total entered fits fun _ entered => entered.covers _ mem
  have covered := forall_coveredSignatures.mp fun _ => @signatures _
  have few : book.card + 1 ≤ tracker.blockCostLimit := by
    have counted := kept.card_le
    have own := plain.signed.trans_le (entered.covers _ List.mem_cons_self)
    dsimp only at own
    omega
  exact
    { limit
      entered := forall_mem_cons.mpr ⟨entered, kept.entered⟩
      blockCost := kept.addSat_total entered fits (fun _ _ => le_rfl) kept.blockCost
      voteCost := kept.addSat_costOf fits kept.voteCost
      accountCost := by
        intro account
        rw [← kept.addSat_costOf fits (kept.accountCost account)]
        exact accountCost_addTransactionCost plain.distinct
      allocated := by
        rw [bookTotal_cons, ← kept.allocated, add_comm]
        exact dataSum
      transactionCount := by
        rw [card_cons, ← kept.transactionCount] at *
        exact addSat_exact (by omega)
      transactionSignatures := covered.1 kept.transactionSignatures
      secp256k1Signatures := covered.2.1 kept.secp256k1Signatures
      ed25519Signatures := covered.2.2.1 kept.ed25519Signatures
      secp256r1Signatures := by
        rintro (active | bounded)
        · exact covered.2.2.2 active (kept.secp256r1Signatures (.inl active))
        · exact addSat_secp256r1 few bounded (kept.secp256r1Signatures (.inr bounded))
      blockWithin := blockFits
      voteWithin := by
        simp only [addTransactionCost, addTransactionExecutionCost]
        split
        · exact not_lt.mp fun exceeds => voteFits ⟨‹_›, exceeds⟩
        · exact kept.voteWithin
      accountWithin := by
        intro account
        refine (accountCost_addTransactionCost plain.distinct).le.trans ?_
        split
        · rename_i writes
          unfold accountCost
          cases found : tracker.costByWritableAccounts.lookup account with
          | none =>
            rw [Option.getD_none, addSat_exact (by omega), zero_add]
            exact accountFits
          | some chained => exact not_lt.mp fun exceeds => accountsFit ⟨account, writes, chained, found, exceeds⟩
        · exact kept.accountWithin account
      allocatedWithin := dataFits }

end

end CostBook

theorem ExactCosts.lower (kept : ExactCosts features tracker ((cost, current) ::ₘ book))
    (distinct : cost.writableAccounts.Nodup) (part : adjustment ≤ current) :
    ExactCosts features (tracker.subTransactionExecutionCost cost adjustment)
      ((cost, current - adjustment) ::ₘ book) := by
  have lowered : ∀ {kind : TransactionCost → Prop} [DecidablePred kind] {count : Nat},
      count = costOf kind ((cost, current) ::ₘ book) →
        (if kind cost then count - adjustment else count) = costOf kind ((cost, current - adjustment) ::ₘ book) := by
    intro kind _ count counted
    rw [counted, costOf_cons, costOf_cons]
    split <;> omega
  have same : ∀ {measure : TransactionCost → Nat}, bookTotal (measure ·.1) ((cost, current) ::ₘ book) =
      bookTotal (measure ·.1) ((cost, current - adjustment) ::ₘ book) := by
    intro measure
    rw [bookTotal_cons, bookTotal_cons]
  exact
    { kept with
      blockCost := by
        have blockCost := kept.blockCost
        rw [bookTotal_cons] at blockCost ⊢
        simp only [subTransactionExecutionCost] at blockCost ⊢
        omega
      voteCost := lowered kept.voteCost
      accountCost := by
        intro account
        rw [← lowered (kept.accountCost account)]
        exact adjustAccounts_lookup distinct
      blockWithin := (sub_le _ _).trans kept.blockWithin
      voteWithin := by
        refine le_trans ?_ kept.voteWithin
        simp only [subTransactionExecutionCost]
        split <;> omega
      accountWithin := by
        intro account
        refine le_trans ?_ (kept.accountWithin account)
        unfold CostTracker.accountCost
        refine (adjustAccounts_lookup distinct).le.trans ?_
        split <;> omega
      allocated := kept.allocated.trans same
      transactionCount := kept.transactionCount.trans (by simp only [card_cons])
      transactionSignatures := kept.transactionSignatures.trans same
      secp256k1Signatures := kept.secp256k1Signatures.trans same
      ed25519Signatures := kept.ed25519Signatures.trans same
      secp256r1Signatures := fun active => (kept.secp256r1Signatures active).trans same }

namespace CostBook

/-- The cost of an entry is corrected to the actual cost, which is not higher. -/
theorem updateExecutionCost (kept : CostBook features tracker ((cost, cost.sum) ::ₘ book))
    (notMore : executionUnits + loadedCost ≤ cost.estimatedLoadAndExecutionUnits) :
    CostBook features (tracker.updateExecutionCost cost executionUnits loadedCost)
      ((cost, cost.sum - (cost.estimatedLoadAndExecutionUnits - (executionUnits + loadedCost))) ::ₘ book) := by
  obtain ⟨⟨plain, -⟩, others⟩ := forall_mem_cons.mp kept.entered
  have reserved : cost.estimatedLoadAndExecutionUnits + _ ≤ cost.sum := plain.covered _ List.mem_cons_self
  have actual : addSat executionUnits loadedCost = executionUnits + loadedCost := by
    apply addSat_exact
    unfold TransactionCost.estimatedLoadAndExecutionUnits addSat saturatingAdd at notMore
    unfold u64Max
    omega
  unfold CostTracker.updateExecutionCost
  simp only [actual]
  split
  · rename_i same
    rw [same, Nat.sub_self, Nat.sub_zero]
    exact kept
  · rw [if_neg (by omega)]
    refine ⟨kept.lower plain.distinct (by omega), kept.limit, forall_mem_cons.mpr ⟨⟨plain, ?_⟩, others⟩⟩
    dsimp only
    omega

theorem remove (kept : CostBook features tracker ((cost, cost.sum) ::ₘ book)) :
    CostBook features (tracker.remove cost) book := by
  obtain ⟨⟨plain, -⟩, others⟩ := forall_mem_cons.mp kept.entered
  have lowered := kept.lower plain.distinct le_rfl
  have without : ∀ {count : Nat} {measure : Entry → Nat},
      count = bookTotal measure ((cost, cost.sum - cost.sum) ::ₘ book) →
        count - measure (cost, cost.sum - cost.sum) = bookTotal measure book := by
    intro count measure counted
    rw [counted, bookTotal_cons, Nat.add_sub_cancel_left]
  have free : ∀ {kind : TransactionCost → Prop} [DecidablePred kind],
      costOf kind ((cost, cost.sum - cost.sum) ::ₘ book) = costOf kind book := by
    intro kind _
    rw [costOf_cons, Nat.sub_self, ite_self, Nat.zero_add]
  exact
    { lowered with
      limit := kept.limit
      entered := others
      blockCost := by
        rw [← without lowered.blockCost, Nat.sub_self]
        rfl
      voteCost := lowered.voteCost.trans free
      accountCost := fun account => (lowered.accountCost account).trans free
      allocated := without lowered.allocated
      transactionCount := by
        rw [← Nat.add_sub_cancel (card book) 1, ← card_cons, ← lowered.transactionCount]
        rfl
      transactionSignatures := without lowered.transactionSignatures
      secp256k1Signatures := without lowered.secp256k1Signatures
      ed25519Signatures := without lowered.ed25519Signatures
      secp256r1Signatures := fun active => without (lowered.secp256r1Signatures active)
      allocatedWithin := (sub_le _ _).trans lowered.allocatedWithin }

end CostBook

end Book

end

open Lib Payout.Runtime List
open Multiset (cons_add add_cons coe_eq_coe coe_add)

/-! ### Batches -/

/-- The selected transactions of a batch, with the costs reserved for them. -/
def reserved (results : List CostResult) : List Entry :=
  results.filterMap fun result =>
    match result with
    | .ok cost => some (cost, cost.sum)
    | .error _ => none

/-- The cost of a transaction after it was committed. -/
def actualCost (loadedCost : Nat → Nat) (cost : TransactionCost) (computeUnits loadedAccountsDataSize : Nat) : Nat :=
  cost.sum - (cost.estimatedLoadAndExecutionUnits - (computeUnits + loadedCost loadedAccountsDataSize))

/-- The committed transactions of a batch, with their actual costs. -/
def committed (loadedCost : Nat → Nat) : List CostResult → List CommitTransactionDetails → List Entry
  | .ok cost :: results, .committed computeUnits loadedAccountsDataSize :: statuses =>
    (cost, actualCost loadedCost cost computeUnits loadedAccountsDataSize) :: committed loadedCost results statuses
  | _ :: results, _ :: statuses => committed loadedCost results statuses
  | _, _ => []

/-- A committed transaction used at most the units estimated for it. -/
def NotMore (loadedCost : Nat → Nat) : CostResult × CommitTransactionDetails → Prop
  | (.ok cost, .committed computeUnits loadedAccountsDataSize) =>
    computeUnits + loadedCost loadedAccountsDataSize ≤ cost.estimatedLoadAndExecutionUnits
  | _ => True

instance (loadedCost : Nat → Nat) (pair : CostResult × CommitTransactionDetails) :
    Decidable (NotMore loadedCost pair) := by
  unfold NotMore
  split <;> infer_instance

section Batches

variable {features : FeatureSet} {tracker : CostTracker} {loadedCost : Nat → Nat}

/-- What adding, correcting and removing costs never changes. -/
def CostTracker.tracking (tracker : CostTracker) : Nat × Nat × Nat × Nat :=
  (tracker.inFlightTransactionCount, tracker.accountCostLimit, tracker.blockCostLimit, tracker.voteCostLimit)

theorem tracking_tryAdd (added : tracker.tryAdd cost = .ok (tracker', updated)) :
    tracker'.tracking = tracker.tracking := by
  simp only [CostTracker.tryAdd, bind_ok_iff, Except.ok.injEq, Prod.mk.injEq] at added
  obtain ⟨-, -, rfl, -⟩ := added
  rfl

theorem tracking_settleCost (tracker loadedCost cost details) :
    (settleCost loadedCost tracker cost details).tracking = tracker.tracking := by
  cases details with
  | committed =>
    simp only [settleCost, CostTracker.updateExecutionCost]
    split_ifs <;> rfl
  | notCommitted => rfl

theorem selectCosts_spec (costs) (kept : CostBook features tracker book)
    (plain : ∀ cost, .ok cost ∈ costs → cost.sum < u64Max → Plain features cost) :
    ∃ tracker' results, selectCosts costs tracker = (tracker', results, (reserved results).length) ∧
      CostBook features tracker' (reserved results + book) ∧ tracker'.tracking = tracker.tracking := by
  induction costs generalizing tracker book with
  | nil => exact ⟨tracker, [], rfl, (zero_add book).symm ▸ kept, rfl⟩
  | cons result costs ih =>
    have later : ∀ cost, .ok cost ∈ costs → cost.sum < u64Max → Plain features cost :=
      fun cost mem => plain cost (mem_cons_of_mem _ mem)
    cases result with
    | error error =>
      obtain ⟨tracker', results, selected, kept⟩ := ih kept later
      refine ⟨tracker', .error error :: results, ?_, kept⟩
      simp only [selectCosts, selected]
      rfl
    | ok cost =>
      cases added : tracker.tryAdd cost with
      | error error =>
        obtain ⟨tracker', results, selected, kept⟩ := ih kept later
        refine ⟨tracker', .error (.wouldExceed error) :: results, ?_, kept⟩
        simp only [selectCosts, added, selected]
        rfl
      | ok =>
        have entered := kept.tryAdd (plain cost mem_cons_self) added
        obtain ⟨tracker', results, selected, kept, same⟩ := ih entered later
        rw [add_cons, ← cons_add] at kept
        refine ⟨tracker', .ok cost :: results, ?_, kept, same.trans (tracking_tryAdd added)⟩
        simp only [selectCosts, added, selected]
        rfl

/-- The selected transactions of a batch are corrected or removed. -/
theorem settleCosts_spec (results statuses) (sameLength : statuses.length = results.length)
    (kept : CostBook features tracker (reserved results + book))
    (notMore : ∀ pair ∈ results.zip statuses, NotMore loadedCost pair) :
    ∃ tracker', settleCosts loadedCost results statuses tracker = (tracker', (reserved results).length) ∧
      CostBook features tracker' (committed loadedCost results statuses + book) ∧
        tracker'.tracking = tracker.tracking := by
  induction results generalizing tracker book statuses with
  | nil => cases statuses <;> exact ⟨tracker, rfl, kept, rfl⟩
  | cons result results ih =>
    cases statuses with
    | nil => cases sameLength
    | cons details statuses =>
      obtain ⟨here, others⟩ := forall_mem_cons.mp notMore
      replace sameLength : statuses.length = results.length := Nat.succ.inj sameLength
      cases result with
      | error =>
        obtain ⟨tracker', settled, kept⟩ := ih statuses sameLength kept others
        refine ⟨tracker', ?_, ?_⟩
        · simp only [settleCosts, settled]
          rfl
        · cases details <;> exact kept
      | ok cost =>
        have first : CostBook features tracker ((cost, cost.sum) ::ₘ (↑(reserved results) + book)) :=
          cons_add .. ▸ kept
        have tracked := tracking_settleCost tracker loadedCost cost details
        cases details with
        | committed =>
          have corrected := first.updateExecutionCost here
          rw [← add_cons] at corrected
          obtain ⟨tracker', settled, kept, same⟩ := ih statuses sameLength corrected others
          rw [add_cons, ← cons_add] at kept
          refine ⟨tracker', ?_, kept, same.trans tracked⟩
          simp only [settleCosts, settleCost, settled]
          rfl
        | notCommitted =>
          obtain ⟨tracker', settled, kept, same⟩ := ih statuses sameLength first.remove others
          refine ⟨tracker', ?_, kept, same.trans tracked⟩
          simp only [settleCosts, settleCost, settled]
          rfl

/-- The selected transactions of a batch are removed, as if none had been committed. -/
theorem removeCosts_eq (loadedCost results tracker) : removeCosts results tracker =
    settleCosts loadedCost results (results.map fun _ => .notCommitted) tracker := by
  induction results generalizing tracker with
  | nil => rfl
  | cons result results ih => cases result <;> simp only [removeCosts, map_cons, settleCosts, settleCost, ih]

theorem committed_none (results) : committed loadedCost results (results.map fun _ => .notCommitted) = [] := by
  induction results with
  | nil => rfl
  | cons result results ih => cases result <;> exact ih

end Batches

/-! ### Runs -/

/-- The costs of a block, with the batches that are in flight and the transactions committed so far. -/
structure BlockCosts where
  tracker : CostTracker
  inFlight : List (List CostResult)
  settled : List Entry

/-- A batch is selected, each transaction with whether it passed the filter; or a batch in flight, named by its
    position, is settled: recorded with the outcome of each transaction, or not recorded. -/
inductive CostCall where
  | select (transactions : List (Transaction × Bool))
  | settle (position : Nat) (statuses : Option (List CommitTransactionDetails))

section Runs

variable (features : FeatureSet) (loadedCost : Nat → Nat)

namespace BlockCosts

def new (accountCostLimit blockCostLimit voteCostLimit : Nat) : BlockCosts :=
  { tracker := .new accountCostLimit blockCostLimit voteCostLimit, inFlight := [], settled := [] }

def step (call : CostCall) (costs : BlockCosts) : Except Unit BlockCosts :=
  match call with
  | .select transactions =>
    let (tracker, results, _) := selectTransactionsPerCost (computeTransactionCosts features transactions) costs.tracker
    .ok { costs with tracker := tracker, inFlight := costs.inFlight ++ [results] }
  | .settle position statuses => do
      let results ← okOr costs.inFlight[position]? ()
      .ok { tracker := removeOrUpdateCosts loadedCost results statuses costs.tracker
            inFlight := costs.inFlight.eraseIdx position
            settled := committed loadedCost results (statuses.getD []) ++ costs.settled }

/-- The transactions that were selected and not removed, with their current costs. -/
def entries (costs : BlockCosts) : List Entry := costs.inFlight.flatMap reserved ++ costs.settled

end BlockCosts

/-- The writable accounts of a transaction are distinct; every transaction of a recorded batch has an outcome, and those
    committed used at most the units estimated. -/
def CostCall.Allowed (costs : BlockCosts) : CostCall → Prop
  | .select transactions => ∀ entry ∈ transactions, entry.1.writableAccounts.Nodup
  | .settle position statuses => ∀ results ∈ costs.inFlight[position]?, ∀ details ∈ statuses,
      details.length = results.length ∧ ∀ pair ∈ results.zip details, NotMore loadedCost pair

instance (costs : BlockCosts) (call : CostCall) : Decidable (call.Allowed loadedCost costs) := by
  unfold CostCall.Allowed
  split <;> infer_instance

end Runs

/-- What every step of a run keeps. -/
structure CostsKept (features : FeatureSet) (accountCostLimit blockCostLimit voteCostLimit : Nat) (costs : BlockCosts) :
    Prop where
  book : CostBook features costs.tracker costs.entries
  tracking : costs.tracker.tracking =
    ((costs.inFlight.flatMap reserved).length, accountCostLimit, blockCostLimit, voteCostLimit)

section Kept

variable {features : FeatureSet} {loadedCost : Nat → Nat}

theorem CostsKept.new (limited : blockCostLimit < u64Max) :
    CostsKept features accountCostLimit blockCostLimit voteCostLimit
      (.new accountCostLimit blockCostLimit voteCostLimit) := by
  refine ⟨⟨?_, limited, nofun⟩, rfl⟩
  constructor
  case accountCost => exact fun _ => rfl
  case secp256r1Signatures => exact fun _ => rfl
  case blockWithin => exact Nat.zero_le _
  case voteWithin => exact Nat.zero_le _
  case accountWithin => exact fun _ => Nat.zero_le _
  case allocatedWithin => exact Nat.zero_le _
  all_goals rfl

/-- The counter of transactions in flight is not part of the book. -/
theorem CostBook.inFlight (kept : CostBook features tracker book) (count) :
    CostBook features { tracker with inFlightTransactionCount := count } book :=
  { kept with }

section

variable (kept : CostsKept features accountCostLimit blockCostLimit voteCostLimit costs)

include kept

theorem CostsKept.select (distinct : ∀ entry ∈ transactions, entry.1.writableAccounts.Nodup)
    (taken : costs.step features loadedCost (.select transactions) = .ok costs') :
    CostsKept features accountCostLimit blockCostLimit voteCostLimit costs' := by
  have plain : ∀ cost, .ok cost ∈ computeTransactionCosts features transactions → cost.sum < u64Max →
      Plain features cost := by
    intro cost mem small
    obtain ⟨⟨_, passed⟩, inTransactions, same⟩ := mem_map.mp mem
    cases passed with
    | false => cases same
    | true =>
      cases same
      exact plain_calculateCost (distinct _ inTransactions) small
  obtain ⟨tracker', results, selected, book, same⟩ := selectCosts_spec _ kept.book plain
  simp only [BlockCosts.step, selectTransactionsPerCost, selected, Except.ok.injEq] at taken
  subst taken
  -- The new batch is in flight, with the others before it.
  have moved : (reserved results + costs.entries : Multiset Entry) =
      ((costs.inFlight ++ [results]).flatMap reserved ++ costs.settled : List Entry) := by
    rw [flatMap_append, flatMap_singleton, append_assoc]
    exact coe_eq_coe.mpr (perm_append_comm_assoc _ _ _)
  rw [moved] at book
  have counted := book.card_le
  have within := book.blockWithin
  have limited := book.limit
  rw [Multiset.coe_card, length_append, flatMap_append, flatMap_singleton, length_append] at counted
  have tracked := same.trans kept.tracking
  simp only [CostTracker.tracking, Prod.mk.injEq] at tracked
  refine ⟨book.inFlight _, ?_⟩
  simp only [CostTracker.tracking, CostTracker.addTransactionsInFlight, tracked, flatMap_append, flatMap_singleton,
    length_append]
  rw [addSat_exact (by omega)]

theorem CostsKept.settle (allowed : (CostCall.settle position statuses).Allowed loadedCost costs)
    (taken : costs.step features loadedCost (.settle position statuses) = .ok costs') :
    CostsKept features accountCostLimit blockCostLimit voteCostLimit costs' := by
  simp only [BlockCosts.step, ok_iffs] at taken
  obtain ⟨results, found, rfl⟩ := taken
  obtain ⟨small, isResults⟩ := List.getElem?_eq_some_iff.mp found
  -- The batch first, then the others in flight.
  have split : (costs.inFlight.flatMap reserved).Perm
      (reserved results ++ (costs.inFlight.eraseIdx position).flatMap reserved) := by
    have first := (getElem_cons_eraseIdx_perm small).symm
    rw [isResults] at first
    exact first.flatMap_right reserved
  have book := kept.book
  rw [BlockCosts.entries, coe_eq_coe.mpr (split.append_right costs.settled), append_assoc, ← coe_add] at book
  have tracking := kept.tracking
  rw [split.length_eq, length_append] at tracking
  -- A batch that was not recorded is settled as one without committed transactions.
  obtain ⟨details, sameLength, notMore, settle, entered⟩ : ∃ details : List CommitTransactionDetails,
      details.length = results.length ∧ (∀ pair ∈ results.zip details, NotMore loadedCost pair) ∧
      removeOrUpdateCosts loadedCost results statuses costs.tracker =
        removeOrUpdateRecordedTransactionCosts loadedCost results details costs.tracker ∧
      committed loadedCost results (statuses.getD []) = committed loadedCost results details := by
    cases statuses with
    | some details =>
      obtain ⟨sameLength, notMore⟩ := allowed results found details rfl
      exact ⟨details, sameLength, notMore, rfl, rfl⟩
    | none =>
      refine ⟨results.map fun _ => .notCommitted, length_map _, ?_, ?_, ?_⟩
      · rintro ⟨result, details⟩ mem
        obtain ⟨_, -, rfl⟩ := mem_map.mp (of_mem_zip mem).2
        cases result <;> trivial
      · simp only [removeOrUpdateCosts, removeUnrecordedTransactionCosts, removeCosts_eq loadedCost,
          removeOrUpdateRecordedTransactionCosts]
      · rw [committed_none, Option.getD_none, committed] <;> simp
  obtain ⟨_, settled, book, same⟩ := settleCosts_spec results details sameLength book notMore
  have tracked := same.trans tracking
  simp only [CostTracker.tracking, Prod.mk.injEq] at tracked
  rw [settle, entered, removeOrUpdateRecordedTransactionCosts, settled]
  refine ⟨?_, ?_⟩
  · rw [coe_add, coe_eq_coe.mpr (perm_append_comm_assoc _ _ _)] at book
    exact book.inFlight _
  · simp only [CostTracker.tracking, CostTracker.subTransactionsInFlight, tracked, Nat.add_sub_cancel_left]

end

end Kept

/-- Block limits are never exceeded, and no counter saturates, while the block limit is below the largest number. -/
theorem block_limits_kept {features : FeatureSet} {loadedCost : Nat → Nat}
    {accountCostLimit blockCostLimit voteCostLimit : Nat} (limited : blockCostLimit < u64Max) {calls : List CostCall}
    {costs : BlockCosts}
    (run : Run (BlockCosts.step features loadedCost) (fun costs call => call.Allowed loadedCost costs)
      (.new accountCostLimit blockCostLimit voteCostLimit) calls costs) :
    ExactCosts features costs.tracker costs.entries ∧ costs.tracker.tracking =
      ((costs.inFlight.flatMap reserved).length, accountCostLimit, blockCostLimit, voteCostLimit) := by
  have kept : CostsKept features accountCostLimit blockCostLimit voteCostLimit costs := by
    refine run.invariant ?_ (CostsKept.new limited)
    intro before call after kept allowed taken
    cases call with
    | select => exact kept.select allowed taken
    | settle => exact kept.settle allowed taken
  exact ⟨kept.book.toExactCosts, kept.tracking⟩

namespace Sample

def features : FeatureSet := { ed25519PrecompileVerifyStrict := false, enableSecp256r1Precompile := false }

def loadedCost (size : Nat) : Nat := (size + 32767) / 32768 * 8

/-- A transaction that writes an account and asks for some compute units. -/
def transaction (account units allocated : Nat) (clamped : units ≤ maxComputeUnitLimit) : Transaction :=
  { writableAccounts := [account], isSimpleVoteTransaction := false
    signatureDetails :=
      { numTransactionSignatures := 1, numSecp256k1InstructionSignatures := 0, numEd25519InstructionSignatures := 0
        numSecp256r1InstructionSignatures := 1, signed := by decide, counted := by decide }
    numWriteLocks := 1, programsExecutionCost := units, loadedAccountsDataSizeCost := 8, dataBytesCost := 1
    allocatedAccountsDataSize := allocated, clamped }

/-- Two batches overlap; a transaction is committed, one is not, one does not fit, and a batch is not recorded. -/
def calls : List CostCall :=
  [.select [(transaction 1 5000 10 (by decide), true), (transaction 1 3000 10 (by decide), true),
      (transaction 1 900000 10 (by decide), true)],
    .select [(transaction 2 700 10 (by decide), true), (transaction 2 700 10 (by decide), false)],
    .settle 0 (some [.committed 4000 100, .notCommitted, .notCommitted]), .settle 0 none]

/-- What calls lead to, with limits for accounts, the block and votes. -/
def reached (accountCostLimit blockCostLimit voteCostLimit : Nat) (calls : List CostCall) : Option BlockCosts :=
  exec (BlockCosts.step features loadedCost) (fun costs call => call.Allowed loadedCost costs) calls
    (.new accountCostLimit blockCostLimit voteCostLimit)

theorem calls_run : (reached 20000 40000 10000 calls).isSome = true := by
  decide +kernel

end Sample

open Sample

theorem block_limits_kept_sample : 40000 < u64Max ∧ ExactCosts features
    ((reached 20000 40000 10000 calls).get calls_run).tracker
    ((reached 20000 40000 10000 calls).get calls_run).entries :=
  ⟨by decide, (block_limits_kept (by decide) (run_exec_get calls_run)).1⟩

section Unlimited

variable {features : FeatureSet} {tracker : CostTracker} {transaction : Transaction} {cost : TransactionCost}
  (nothing : cost.allocatedAccountsDataSize = 0) (noVote : cost.isSimpleVote = false)
  (small : cost.sum ≤ u64Max)
include nothing noVote small

/-- A block without limits takes every transaction that allocates nothing. -/
theorem wouldFit_unlimited (block : tracker.blockCostLimit = u64Max) (accounts : tracker.accountCostLimit = u64Max)
    (allocated : tracker.allocatedAccountsDataSize = 0) : tracker.wouldFit cost = .ok () := by
  have most : ∀ a b, ¬ addSat a b > u64Max := fun a b => not_lt.mpr (min_le_right _ _)
  have empty : ¬ addSat 0 0 > maxBlockAccountsDataSizeDelta := by decide
  simp [CostTracker.wouldFit, block, accounts, allocated, nothing, noVote, most, empty, rejectIf,
    not_lt.mpr small, bind, Except.bind]

/-- A block without limits, in which a transaction was selected again and again. -/
theorem unlimited_run (loadedCost : Nat → Nat) (isCost : calculateCost features transaction = cost)
    (distinct : transaction.writableAccounts.Nodup) (n : Nat) :
    ∃ calls costs, Run (BlockCosts.step features loadedCost) (fun costs call => call.Allowed loadedCost costs)
        (.new u64Max u64Max u64Max) calls costs ∧
      (costs.tracker.blockCostLimit = u64Max ∧ costs.tracker.accountCostLimit = u64Max ∧
        costs.tracker.allocatedAccountsDataSize = 0) ∧
      costs.tracker.blockCost = min (n * cost.sum) u64Max ∧ (costs.entries.map (·.2)).sum = n * cost.sum := by
  induction n with
  | zero =>
    refine ⟨[], _, .refl _, ⟨rfl, rfl, rfl⟩, ?_, (Nat.zero_mul _).symm⟩
    rw [Nat.zero_mul]
    rfl
  | succ n ih =>
    obtain ⟨_, costs, run, ⟨block, accounts, allocated⟩, blockCost, sum⟩ := ih
    have fits := wouldFit_unlimited nothing noVote small block accounts allocated
    have taken : costs.step features loadedCost (.select [(transaction, true)]) = .ok
        { costs with
          tracker := (costs.tracker.addTransactionCost cost).1.addTransactionsInFlight 1
          inFlight := costs.inFlight ++ [[.ok cost]] } := by
      simp only [BlockCosts.step, selectTransactionsPerCost, computeTransactionCosts, map_cons, map_nil, isCost,
        selectCosts, CostTracker.tryAdd, fits, bind, Except.bind, if_true]
    refine ⟨_, _, run.snoc (by simpa [CostCall.Allowed] using distinct) taken, ⟨block, accounts, ?_⟩, ?_, ?_⟩
    · simp only [CostTracker.addTransactionsInFlight, CostTracker.addTransactionCost,
        CostTracker.addTransactionExecutionCost, allocated, nothing]
      rfl
    · simp only [CostTracker.addTransactionsInFlight, CostTracker.addTransactionCost,
        CostTracker.addTransactionExecutionCost, blockCost, addSat, saturatingAdd, Nat.succ_mul]
      unfold u64Max
      omega
    · rw [Nat.succ_mul, ← sum]
      simp [BlockCosts.entries, reserved]
      omega

end Unlimited

/-- Without a limit the block cost of a long block is the largest number, and below the sum of the costs. -/
theorem unlimited_costs_saturate : ∃ calls costs, Run (BlockCosts.step features loadedCost)
      (fun costs call => call.Allowed loadedCost costs) (.new u64Max u64Max u64Max) calls costs ∧
    costs.tracker.blockCost = u64Max ∧ u64Max < (costs.entries.map (·.2)).sum := by
  have own : (calculateCost features (transaction 1 5000 0 (by decide))).sum = 6029 := by decide
  obtain ⟨calls, costs, run, -, blockCost, sum⟩ := unlimited_run rfl rfl (by rw [own]; decide) loadedCost
    (rfl : calculateCost features (transaction 1 5000 0 (by decide)) = _) (by decide) (2 ^ 64)
  rw [own] at blockCost sum
  exact ⟨calls, costs, run, blockCost.trans (by decide), by rw [sum]; decide⟩

end Payout.CostModel
