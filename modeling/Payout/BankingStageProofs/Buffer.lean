/-
Purpose: Where the buffered transactions are. Every id with a state is in exactly one place: it waits, in the queue or
  in the hands of a scheduling pass, or its transaction was taken.
-/
import Payout.BankingStage.GreedyScheduler

namespace Payout.BankingStage

open Lib Payout.Runtime List ReadWriteAccountSet Store AList List.Subset Option

/-! ### Places -/

/-- The account keys of a transaction are pairwise distinct. -/
def Transaction.Distinct (transaction : Transaction) : Prop := (transaction.accountKeys.map Prod.fst).Nodup

instance (transaction : Transaction) : Decidable transaction.Distinct := by
  unfold Transaction.Distinct
  infer_instance

/-- The ids that wait and those whose transactions were taken are all ids with a state, and every id is in one place. -/
structure Placed (states : Store TransactionId TransactionState) (waiting : List TransactionPriorityId)
    (taken : List BatchItem) : Prop where
  once : (waiting.map (·.id) ++ taken.map (·.id)).Nodup
  everywhere : ∀ id, id ∈ waiting.map (·.id) ++ taken.map (·.id) ↔ (states.lookup id).isSome = true
  waits : ∀ priorityId ∈ waiting, ∃ transaction maxAge cost, transaction.Distinct ∧
    states.lookup priorityId.id = some (TransactionState.new transaction maxAge priorityId.priority cost)
  isTaken : ∀ item ∈ taken, item.transaction.Distinct ∧ ∃ priority, states.lookup item.id =
    some { transaction := none, maxAge := item.maxAge, priority := priority, cost := item.cost }

variable {taken taken' : List BatchItem} {priorityId : TransactionPriorityId} {item : BatchItem}
  {transaction : Transaction} {maxAge : MaxAge} {id : TransactionId} {priority cost : Nat}

namespace Placed

variable {states : Store TransactionId TransactionState} {waiting waiting' : List TransactionPriorityId}

theorem perm (placed : Placed states waiting taken) (waits : waiting.Perm waiting') (takes : taken.Perm taken') :
    Placed states waiting' taken' := by
  have all := (waits.map (·.id)).append (takes.map (·.id))
  constructor
  case once => exact all.nodup_iff.mp placed.once
  case everywhere => exact fun id => all.mem_iff.symm.trans (placed.everywhere id)
  case waits => exact fun priorityId mem => placed.waits priorityId (waits.mem_iff.mpr mem)
  case isTaken => exact fun item mem => placed.isTaken item (takes.mem_iff.mpr mem)

theorem empty : Placed ∅ [] [] := by
  constructor
  case once => exact .nil
  case everywhere => simp
  case waits => exact nofun
  case isTaken => exact nofun

section

variable (placed : Placed states waiting' taken') (waiters : waiting ⊆ waiting') (takers : taken ⊆ taken')
include placed waiters takers

/-- Transactions of a buffer other than `id`, in a buffer that agrees on all other ids. -/
theorem frame {states' : Store TransactionId TransactionState}
    (kept : ∀ other, other ≠ id → states'.lookup other = states.lookup other)
    (fresh : id ∉ waiting.map (·.id) ++ taken.map (·.id)) :
    (∀ priorityId ∈ waiting, ∃ transaction maxAge cost, transaction.Distinct ∧
      states'.lookup priorityId.id = some (TransactionState.new transaction maxAge priorityId.priority cost)) ∧
    ∀ item ∈ taken, item.transaction.Distinct ∧ ∃ priority, states'.lookup item.id =
      some { transaction := none, maxAge := item.maxAge, priority := priority, cost := item.cost } := by
  constructor
  · intro priorityId mem
    have different : priorityId.id ≠ id := by
      intro same
      rw [← same] at fresh
      exact fresh (mem_append_left _ (mem_map_of_mem mem))
    rw [kept _ different]
    exact placed.waits priorityId (waiters mem)
  · intro item mem
    have different : item.id ≠ id := by
      intro same
      rw [← same] at fresh
      exact fresh (mem_append_right _ (mem_map_of_mem mem))
    rw [kept _ different]
    exact placed.isTaken item (takers mem)

theorem leave
    (leaves : (waiting'.map (·.id) ++ taken'.map (·.id)).Perm (id :: (waiting.map (·.id) ++ taken.map (·.id)))) :
    Placed (states.erase id) waiting taken := by
  obtain ⟨fresh, once⟩ := nodup_cons.mp (leaves.nodup_iff.mp placed.once)
  have kept : ∀ other, other ≠ id → (states.erase id).lookup other = states.lookup other :=
    fun other => lookup_erase_ne
  obtain ⟨waits, isTaken⟩ := placed.frame waiters takers kept fresh
  constructor
  case once => exact once
  case everywhere =>
    intro other
    by_cases same : other = id
    · rw [same, lookup_erase]
      exact iff_of_false fresh (by simp)
    · rw [kept other same, ← placed.everywhere other, leaves.mem_iff, mem_cons]
      exact (or_iff_right same).symm
  case waits => exact waits
  case isTaken => exact isTaken

end

theorem leaveWaiting (placed : Placed states (priorityId :: waiting) taken) :
    Placed (states.erase priorityId.id) waiting taken :=
  placed.leave (subset_cons_self _ _) (refl _) (List.Perm.refl _)

theorem leaveTaken (placed : Placed states waiting (item :: taken)) : Placed (states.erase item.id) waiting taken :=
  placed.leave (refl _) (subset_cons_self _ _) perm_middle

theorem wait (placed : Placed (states.erase id) waiting taken) (distinct : transaction.Distinct)
    (maxAge priority cost) :
    Placed (states.insert id (TransactionState.new transaction maxAge priority cost))
      ({ priority := priority, id := id } :: waiting) taken := by
  have fresh : id ∉ waiting.map (·.id) ++ taken.map (·.id) := by
    rw [placed.everywhere, lookup_erase]
    simp
  obtain ⟨waits, isTaken⟩ := placed.frame (refl _) (refl _)
    (fun other different => (lookup_insert_ne different).trans (lookup_erase_ne different).symm) fresh
  constructor
  case once => exact nodup_cons.mpr ⟨fresh, placed.once⟩
  case everywhere =>
    intro other
    rw [map_cons, cons_append, mem_cons, placed.everywhere, lookup_insert_eq_ite]
    split
    · simp_all
    · rename_i different
      rw [lookup_erase_ne different]
      exact or_iff_right different
  case waits =>
    intro priorityId mem
    rcases mem_cons.mp mem with rfl | mem
    · exact ⟨transaction, maxAge, cost, distinct, lookup_insert _⟩
    · exact waits priorityId mem
  case isTaken => exact isTaken

theorem take (placed : Placed (states.erase item.id) waiting taken) (distinct : item.transaction.Distinct) (priority) :
    Placed (states.insert item.id { transaction := none, maxAge := item.maxAge, priority, cost := item.cost })
      waiting (item :: taken) := by
  have fresh : item.id ∉ waiting.map (·.id) ++ taken.map (·.id) := by
    rw [placed.everywhere, lookup_erase]
    simp
  obtain ⟨waits, isTaken⟩ := placed.frame (refl _) (refl _)
    (fun other different => (lookup_insert_ne different).trans (lookup_erase_ne different).symm) fresh
  constructor
  case once => exact perm_middle.nodup_iff.mpr (nodup_cons.mpr ⟨fresh, placed.once⟩)
  case everywhere =>
    intro other
    rw [map_cons, perm_middle.mem_iff, mem_cons, placed.everywhere, lookup_insert_eq_ite]
    split
    · simp_all
    · rename_i different
      rw [lookup_erase_ne different]
      exact or_iff_right different
  case waits => exact waits
  case isTaken =>
    intro other mem
    rcases mem_cons.mp mem with rfl | mem
    · exact ⟨distinct, priority, lookup_insert _⟩
    · exact isTaken other mem

end Placed

/-! ### The container -/

/-- A container within its capacity; `aside` are ids that were taken from the queue and may come back. -/
structure Buffered (container : TransactionStateContainer) (aside : List TransactionPriorityId)
    (taken : List BatchItem) : Prop where
  placed : Placed container.idToTransactionState (container.priorityQueue ++ aside) taken
  within : container.bufferSize ≤ container.capacity

namespace Buffered

variable {container : TransactionStateContainer} {aside : List TransactionPriorityId}

theorem perm (buffered : Buffered container aside taken) (asides : aside.Perm aside') (takes : taken.Perm taken') :
    Buffered container aside' taken' :=
  ⟨buffered.placed.perm (asides.append_left _) takes, buffered.within⟩

/-- There are no more transactions than the capacity allows. -/
theorem length_le (buffered : Buffered container aside taken) : aside.length + taken.length ≤ container.capacity := by
  have all : container.priorityQueue.length + aside.length + taken.length ≤ container.bufferSize := by
    have subset : (container.priorityQueue ++ aside).map (·.id) ++ taken.map (·.id) ⊆
        container.idToTransactionState.entries.keys := by
      intro id mem
      exact AList.mem_keys.mp (lookup_isSome.mp ((buffered.placed.everywhere id).mp mem))
    simpa [List.keys, TransactionStateContainer.bufferSize, ← Nat.add_assoc] using
      (subperm_of_subset buffered.placed.once subset).length_le
  have within := buffered.within
  omega

/-- The highest priority is taken from a queue that is not empty. -/
theorem pop (buffered : Buffered container aside taken) (nonempty : ¬ container.isEmpty = true) :
    ∃ priorityId container', container.pop = some (priorityId, container') ∧ container'.capacity = container.capacity ∧
      container'.priorityQueue.length + 1 = container.priorityQueue.length ∧
      Buffered container' (priorityId :: aside) taken := by
  obtain ⟨best, isBest⟩ : ∃ best, container.priorityQueue.max? = some best := by
    rw [← isSome_iff_exists, isSome_max?_iff]
    intro empty
    rw [TransactionStateContainer.isEmpty, empty] at nonempty
    exact nonempty rfl
  refine ⟨best, { container with priorityQueue := container.priorityQueue.erase best },
    by rw [TransactionStateContainer.pop, isBest, map_some], rfl, (perm_cons_erase (max?_mem isBest)).length_eq.symm,
    ?_, buffered.within⟩
  have perm : (container.priorityQueue ++ aside).Perm (container.priorityQueue.erase best ++ best :: aside) :=
    ((perm_cons_erase (max?_mem isBest)).append_right aside).trans perm_middle.symm
  exact buffered.placed.perm perm (List.Perm.refl _)

theorem push (buffered : Buffered container (aside ++ aside') taken) :
    ∃ container', container.pushIdsIntoQueue aside = .ok (container', 0) ∧
      container'.capacity = container.capacity ∧ Buffered container' aside' taken := by
  have within := buffered.within
  have none : container.bufferSize - container.capacity = 0 := by omega
  refine ⟨{ container with priorityQueue := aside.reverse ++ container.priorityQueue }, ?_, rfl, ?_, within⟩
  · have size : TransactionStateContainer.bufferSize
        { container with priorityQueue := aside.reverse ++ container.priorityQueue } = container.bufferSize := rfl
    simp only [TransactionStateContainer.pushIdsIntoQueue, size, none, TransactionStateContainer.dropMany, bind,
      Except.bind]
  refine buffered.placed.perm ?_ (List.Perm.refl _)
  rw [append_assoc]
  calc container.priorityQueue ++ (aside ++ aside')
      _ = container.priorityQueue ++ aside ++ aside' := (append_assoc ..).symm
      List.Perm _ (aside ++ container.priorityQueue ++ aside') := (perm_append_comm).append_right _
      List.Perm _ (aside.reverse ++ container.priorityQueue ++ aside') :=
        ((reverse_perm aside).symm.append_right _).append_right _
      _ = aside.reverse ++ (container.priorityQueue ++ aside') := append_assoc ..

theorem dropMin (placed : Placed container.idToTransactionState container.priorityQueue taken)
    (nonempty : container.priorityQueue ≠ []) :
    ∃ container', container.dropMin = .ok container' ∧ container'.capacity = container.capacity ∧
      container'.bufferSize + 1 = container.bufferSize ∧
      Placed container'.idToTransactionState container'.priorityQueue taken := by
  obtain ⟨least, isLeast⟩ : ∃ least, container.priorityQueue.min? = some least := by
    rwa [← isSome_iff_exists, isSome_min?_iff]
  have mem : least ∈ container.priorityQueue := min?_mem isLeast
  obtain ⟨_, _, _, -, found⟩ := placed.waits least mem
  refine ⟨{ container with
    priorityQueue := container.priorityQueue.erase least
    idToTransactionState := container.idToTransactionState.erase least.id }, ?_, rfl, length_erase found, ?_⟩
  · simp only [TransactionStateContainer.dropMin, TransactionStateContainer.removeById, isLeast, found, okOr, bind,
      Except.bind]
  · exact (placed.perm (perm_cons_erase mem) (List.Perm.refl _)).leaveWaiting

/-- A new transaction is inserted, and if the container is full the lowest priority is dropped. -/
theorem insertNewTransaction (buffered : Buffered container [] taken)
    (vacant : container.idToTransactionState.lookup id = none) (distinct : transaction.Distinct)
    (maxAge priority cost) :
    ∃ container' dropped,
      container.insertNewTransaction id transaction maxAge priority cost = .ok (container', dropped) ∧
      container'.capacity = container.capacity ∧ Buffered container' [] taken := by
  have within := buffered.within
  have placed := buffered.placed
  rw [append_nil, ← erase_of_absent vacant] at placed
  have placed := placed.wait distinct maxAge priority cost
  have room : container.bufferSize < container.capacity + extraCapacity := by
    rw [extraCapacity]
    omega
  simp only [TransactionStateContainer.insertNewTransaction, TransactionStateContainer.pushIdsIntoQueue, room, rejectIf,
    not_true_eq_false, if_false, reverse_singleton, singleton_append, bind, Except.bind]
  generalize whole : (
    { capacity := container.capacity
      priorityQueue := { priority := priority, id := id } :: container.priorityQueue
      idToTransactionState := container.idToTransactionState.insert id
        (TransactionState.new transaction maxAge priority cost) } : TransactionStateContainer) = pushed
  have size : pushed.bufferSize = container.bufferSize + 1 := by
    rw [← whole]
    exact length_insert_of_absent vacant
  have capacity : pushed.capacity = container.capacity := by rw [← whole]
  have placed : Placed pushed.idToTransactionState pushed.priorityQueue taken := by rwa [← whole]
  rw [size]
  rcases Nat.lt_or_ge container.bufferSize container.capacity with room | full
  · have none : container.bufferSize + 1 - container.capacity = 0 := by omega
    rw [none]
    refine ⟨pushed, _, rfl, capacity, by rwa [append_nil], ?_⟩
    omega
  · have one : container.bufferSize + 1 - container.capacity = 1 := by omega
    obtain ⟨left, dropped, sameCapacity, less, placed⟩ := dropMin placed (by rw [← whole]; exact cons_ne_nil _ _)
    rw [one]
    refine ⟨left, true, ?_, sameCapacity.trans capacity, by rwa [append_nil], ?_⟩
    · simp [TransactionStateContainer.dropMany, dropped, bind, Except.bind]
    · omega

theorem retryTransaction (buffered : Buffered container aside (item :: taken)) :
    ∃ container', container.retryTransaction item.id item.transaction = .ok container' ∧
      container'.capacity = container.capacity ∧ Buffered container' aside taken := by
  obtain ⟨distinct, priority, found⟩ := buffered.placed.isTaken item mem_cons_self
  have placed := buffered.placed.leaveTaken.wait distinct item.maxAge priority item.cost
  have back : Buffered { container with
      idToTransactionState := container.idToTransactionState.insert item.id
        (TransactionState.new item.transaction item.maxAge priority item.cost) }
      ([{ priority := priority, id := item.id }] ++ aside) taken := by
    refine ⟨placed.perm perm_middle.symm (List.Perm.refl _), ?_⟩
    have size : (container.idToTransactionState.insert item.id
        (TransactionState.new item.transaction item.maxAge priority item.cost)).entries.length = container.bufferSize :=
      length_insert_of_present found
    exact size.trans_le buffered.within
  obtain ⟨container', pushed, capacity, buffered'⟩ := back.push
  refine ⟨container', ?_, capacity, buffered'⟩
  simp only [TransactionStateContainer.retryTransaction, TransactionState.retryTransaction, found, okOr, rejectIf,
    isSome_none, Bool.false_eq_true, if_false, bind, Except.bind]
  rw [TransactionState.new] at pushed
  rw [pushed]

theorem removeById (buffered : Buffered container aside (item :: taken)) :
    ∃ container', container.removeById item.id = .ok container' ∧ container'.capacity = container.capacity ∧
      Buffered container' aside taken := by
  obtain ⟨-, priority, found⟩ := buffered.placed.isTaken item mem_cons_self
  refine ⟨{ container with idToTransactionState := container.idToTransactionState.erase item.id },
    by simp only [TransactionStateContainer.removeById, found, okOr, bind, Except.bind], rfl,
      buffered.placed.leaveTaken, ?_⟩
  have size : (container.idToTransactionState.erase item.id).entries.length + 1 = container.bufferSize :=
    length_erase found
  have within := buffered.within
  have less : (container.idToTransactionState.erase item.id).entries.length ≤ container.capacity := by omega
  exact less

theorem schedule (buffered : Buffered container (priorityId :: aside) taken) (lockedAt)
    (found : container.idToTransactionState.lookup priorityId.id =
      some (TransactionState.new transaction maxAge priorityId.priority cost))
    (distinct : transaction.Distinct) :
    Buffered { container with
        idToTransactionState := container.idToTransactionState.insert priorityId.id
          { transaction := none, maxAge := maxAge, priority := priorityId.priority, cost := cost } } aside
      ({ id := priorityId.id, transaction, maxAge, cost, lockedAt } :: taken) := by
  have left := (buffered.placed.perm perm_middle (List.Perm.refl _)).leaveWaiting
  let item : BatchItem :=
    { id := priorityId.id, transaction := transaction, maxAge := maxAge, cost := cost, lockedAt := lockedAt }
  have taken' : Placed _ _ (item :: taken) := Placed.take left distinct priorityId.priority
  refine ⟨taken', ?_⟩
  have size : (container.idToTransactionState.insert priorityId.id
      { transaction := none, maxAge := maxAge, priority := priorityId.priority, cost := cost }).entries.length =
      container.bufferSize := length_insert_of_present found
  exact size.trans_le buffered.within

end Buffered

/-! ### The working accounts -/

/-- The accounts of a transaction are among the working accounts. -/
def ReadWriteAccountSet.Covers (accounts : ReadWriteAccountSet) (transaction : Transaction) : Prop :=
  ∀ account write, (account, write) ∈ transaction.accountKeys →
    if write then account ∈ accounts.writeSet else account ∈ accounts.readSet

/-- Two transactions use an account that one of them writes. -/
def Conflict (one two : Transaction) : Prop :=
  ∃ account write write', (account, write) ∈ one.accountKeys ∧ (account, write') ∈ two.accountKeys ∧
    (write = true ∨ write' = true)

section Working

variable {accounts : ReadWriteAccountSet} {other : Transaction} {key : Pubkey × Bool}

/-- A transaction that passes the check conflicts with none of the working transactions. -/
theorem not_conflict_of_checkLocks (checked : accounts.checkLocks transaction = true) (covers : accounts.Covers other) :
    ¬ Conflict other transaction := by
  rintro ⟨account, write, write', inOther, inTransaction, conflict⟩
  have available := all_eq_true.mp checked _ inTransaction
  have covered := covers account write inOther
  cases write with
  | true => cases write' <;> simp_all [canWrite, canRead]
  | false => cases write' <;> simp_all [canWrite, canRead]

theorem checkLocks_clear : ReadWriteAccountSet.clear.checkLocks transaction = true := by
  apply all_eq_true.mpr
  rintro ⟨pubkey, writable⟩ -
  cases writable <;> simp [canWrite, canRead, clear]

/-- One lock, with whether it is for writing. -/
def ReadWriteAccountSet.addLock (accounts : ReadWriteAccountSet) (key : Pubkey × Bool) : ReadWriteAccountSet × Bool :=
  if key.2 then accounts.addWrite key.1 else accounts.addRead key.1

theorem addLock_available (available : (if key.2 then accounts.canWrite key.1 else accounts.canRead key.1) = true) :
    (accounts.addLock key).2 = true := by
  obtain ⟨_, writable⟩ := key
  cases writable <;> exact available

theorem addLock_keeps (covers : accounts.Covers other) : (accounts.addLock key).1.Covers other := by
  intro account write mem
  have covered := covers account write mem
  obtain ⟨pubkey, writable⟩ := key
  cases write <;> cases writable <;>
    simp_all [addLock, addWrite, addRead]

theorem addLock_covers : (accounts.addLock key).1.Covers ⟨[key]⟩ := by
  intro account write mem
  cases mem_singleton.mp mem
  unfold addLock
  cases write <;> simp [addWrite, addRead]

theorem addLock_checks {keys : List (Pubkey × Bool)} (checked : accounts.checkLocks ⟨keys⟩ = true)
    (elsewhere : ∀ other ∈ keys, other.1 ≠ key.1) : (accounts.addLock key).1.checkLocks ⟨keys⟩ = true := by
  apply all_eq_true.mpr
  intro other mem
  have before := all_eq_true.mp checked other mem
  obtain ⟨pubkey, writable⟩ := key
  obtain ⟨pubkey', writable'⟩ := other
  cases writable <;> cases writable' <;>
    simp_all [canWrite, canRead, addLock, addWrite, addRead]

/-- The locks of a transaction that passes the check are taken, and stay with those taken before. -/
theorem takeLocks_spec (distinct : transaction.Distinct) (checked : accounts.checkLocks transaction = true) :
    ∃ accounts', accounts.takeLocks transaction = (accounts', true) ∧ accounts'.Covers transaction ∧
      ∀ other, accounts.Covers other → accounts'.Covers other := by
  obtain ⟨keys⟩ := transaction
  have distinct : (keys.map Prod.fst).Nodup := distinct
  induction keys generalizing accounts with
  | nil => exact ⟨accounts, rfl, nofun, fun _ covers => covers⟩
  | cons key keys ih =>
    obtain ⟨fresh, distinct⟩ := nodup_cons.mp distinct
    obtain ⟨here, others⟩ := forall_mem_cons.mp (all_eq_true.mp checked)
    have elsewhere : ∀ other ∈ keys, other.1 ≠ key.1 := fun other mem same =>
      fresh (same ▸ mem_map_of_mem mem)
    obtain ⟨accounts', taken, covers, kept⟩ := ih distinct (addLock_checks (all_eq_true.mpr others) elsewhere) distinct
    refine ⟨accounts', ?_, ?_, fun other covers => kept other (addLock_keeps covers)⟩
    · rw [← taken]
      have available := addLock_available here
      unfold takeLocks
      rw [foldl_cons]
      congr 1
      exact Prod.ext rfl available
    · intro account write mem
      rcases mem_cons.mp mem with same | mem
      · exact kept _ addLock_covers account write (mem_singleton.mpr same)
      · exact covers account write mem

end Working

end Payout.BankingStage
