/-
Purpose: Instructions and the calls between programs. The accounts of a frame are given by the message for a top level
  instruction and by the calling program for a nested one, whose privileges are checked against the calling frame. They
  never grow along nested calls, as long as no frame with 256 entries calls with an account it does not have.
Source: gorchain/program-runtime/src/invoke_context.rs, gorchain/transaction-context/src/lib.rs
-/
import Payout.Runtime.TransactionContext
import Payout.Lib.Run

namespace Payout.ProgramRuntime

open Lib Payout.Runtime

inductive CallError where
  | missingAccount
  | notEnoughAccountKeys
  | privilegeEscalation
  | callDepth
  | unsupportedProgramId
  | reentrancyNotAllowed
  | unbalancedInstruction
  | maxInstructionTraceLengthExceeded
  | panicked
deriving DecidableEq, Repr

def maxAccountsPerTransaction : Nat := 256

def u8Max : Nat := 255

def u16Max : Nat := 65535

/-- The accounts of a message, with the privileges of each by its index. -/
structure Message where
  accountKeys : List Pubkey
  isSigner : Nat → Bool
  isWritable : Nat → Bool
  distinct : accountKeys.Nodup
  few : accountKeys.length ≤ maxAccountsPerTransaction

def Message.findIndexOfAccount (message : Message) (pubkey : Pubkey) : Option Nat := message.accountKeys.idxOf? pubkey

structure AccountMeta where
  pubkey : Pubkey
  isSigner : Bool
  isWritable : Bool

structure Instruction where
  programId : Pubkey
  accounts : List AccountMeta

structure InstructionAccount where
  indexInTransaction : Nat
  isSigner : Bool
  isWritable : Bool
deriving DecidableEq, Repr

/-- Set the privileges that are given. -/
def InstructionAccount.raise (account : InstructionAccount) (isSigner isWritable : Bool) : InstructionAccount :=
  { account with isSigner := account.isSigner || isSigner, isWritable := account.isWritable || isWritable }

/-- A frame, with the signers that the calling program gave for it. The map has an entry for each index of a `u8`. -/
structure InstructionFrame where
  programAccountIndexInTx : Nat
  instructionAccounts : List InstructionAccount
  dedupMap : Nat → Nat
  signers : List Pubkey

namespace InstructionFrame

variable (frame : InstructionFrame)

def getIndexOfAccountInInstruction (indexInTransaction : Nat) : Except CallError Nat :=
  if indexInTransaction < maxAccountsPerTransaction ∧
      frame.dedupMap indexInTransaction < frame.instructionAccounts.length then
    .ok (frame.dedupMap indexInTransaction)
  else .error .missingAccount

def getProgramKey (message : Message) : Option Pubkey :=
  if frame.programAccountIndexInTx = u16Max then none else message.accountKeys[frame.programAccountIndexInTx]?

def findIndexOfInstructionAccount (message : Message) (pubkey : Pubkey) : Option Nat :=
  frame.instructionAccounts.findIdx? fun account => message.accountKeys[account.indexInTransaction]? = some pubkey

end InstructionFrame

/-- The accounts of a frame so far, with the map from the index of an account to its first entry. -/
structure CalleeAccounts where
  transactionCalleeMap : Nat → Nat
  instructionAccounts : List InstructionAccount

namespace CalleeAccounts

def empty : CalleeAccounts := { transactionCalleeMap := fun _ => u8Max, instructionAccounts := [] }

variable (callee : CalleeAccounts)

/-- The place of the next account, as a `u8`. -/
def nextIndex : Nat := callee.instructionAccounts.length % (u8Max + 1)

def addTopLevel (message : Message) (index : Nat) : CalleeAccounts :=
  { transactionCalleeMap :=
      if callee.transactionCalleeMap index > callee.instructionAccounts.length then
        Function.update callee.transactionCalleeMap index callee.nextIndex
      else callee.transactionCalleeMap
    instructionAccounts := callee.instructionAccounts ++
      [{ indexInTransaction := index, isSigner := message.isSigner index, isWritable := message.isWritable index }] }

/-- An account that is there already gets the privileges of both entries. -/
def addNested (message : Message) (accountMeta : AccountMeta) : Except CallError CalleeAccounts := do
  let index ← okOr (message.findIndexOfAccount accountMeta.pubkey) .missingAccount
  match callee.instructionAccounts[callee.transactionCalleeMap index]? with
  | some account =>
    let cloned := account.raise accountMeta.isSigner accountMeta.isWritable
    .ok { callee with
      instructionAccounts := callee.instructionAccounts.set (callee.transactionCalleeMap index) cloned ++ [cloned] }
  | none =>
    .ok { transactionCalleeMap := Function.update callee.transactionCalleeMap index callee.nextIndex
          instructionAccounts := callee.instructionAccounts ++ [{
            indexInTransaction := index, isSigner := accountMeta.isSigner, isWritable := accountMeta.isWritable }] }

/-- Check the first entry of an account against the calling frame; the others get its privileges. -/
def checkEntry (caller : InstructionFrame) (instruction : Instruction) (signers : List Pubkey)
    (accounts : List InstructionAccount) (current : Nat) : Except CallError (List InstructionAccount) := do
  let account ← okOr accounts[current]? .panicked
  let indexInCallee := callee.transactionCalleeMap account.indexInTransaction
  if current ≠ indexInCallee then do
    let reference ← okOr accounts[indexInCallee]? .notEnoughAccountKeys
    .ok (accounts.set current (account.raise reference.isSigner reference.isWritable))
  else do
    let indexInCaller ← caller.getIndexOfAccountInInstruction account.indexInTransaction
    let accountMeta ← okOr instruction.accounts[current]? .panicked
    let callerAccount ← okOr caller.instructionAccounts[indexInCaller]? .panicked
    rejectIf (account.isWritable = true ∧ callerAccount.isWritable = false) .privilegeEscalation
    rejectIf (account.isSigner = true ∧ ¬ (callerAccount.isSigner = true ∨ accountMeta.pubkey ∈ signers))
      .privilegeEscalation
    .ok accounts

end CalleeAccounts

def prepareNextTopLevelInstruction (message : Message) (programAccountIndex : Nat) (accounts : List Nat) :
    InstructionFrame :=
  let callee := accounts.foldl (·.addTopLevel message) CalleeAccounts.empty
  { programAccountIndexInTx := programAccountIndex, instructionAccounts := callee.instructionAccounts
    dedupMap := callee.transactionCalleeMap, signers := [] }

def prepareNextInstruction (message : Message) (caller : InstructionFrame) (instruction : Instruction)
    (signers : List Pubkey) : Except CallError InstructionFrame := do
  let callee ← instruction.accounts.foldlM (·.addNested message) CalleeAccounts.empty
  let accounts ← (List.range callee.instructionAccounts.length).foldlM (callee.checkEntry caller instruction signers)
    callee.instructionAccounts
  let programAccountIndex ← okOr (caller.findIndexOfInstructionAccount message instruction.programId) .missingAccount
  let programAccount ← okOr caller.instructionAccounts[programAccountIndex]? .notEnoughAccountKeys
  .ok { programAccountIndexInTx := programAccount.indexInTransaction, instructionAccounts := accounts
        dedupMap := callee.transactionCalleeMap, signers := signers }

/-- Push a frame. Whether the lamports are balanced and the trace has room is decided elsewhere. -/
def push (message : Message) (stackCapacity : Nat) (balanced hasRoom : Bool) (stack : List InstructionFrame)
    (frame : InstructionFrame) : Except CallError (List InstructionFrame) := do
  let programId ← okOr (frame.getProgramKey message) .unsupportedProgramId
  let contains := stack.any fun other => other.getProgramKey message = some programId
  let isLast := stack.head?.any fun other => other.getProgramKey message = some programId
  rejectIf (contains = true ∧ isLast = false) .reentrancyNotAllowed
  rejectIf (stack ≠ [] ∧ balanced = false) .unbalancedInstruction
  rejectIf (hasRoom = false) .maxInstructionTraceLengthExceeded
  rejectIf (stackCapacity ≤ stack.length) .callDepth
  .ok (frame :: stack)

/-- A top level instruction, which names its accounts by a `u8`; a nested call, with the signers that the calling
    program gives; or the end of an instruction. -/
inductive Call where
  | topLevel (programAccountIndex : Nat) (accounts : List (Fin 256)) (hasRoom : Bool)
  | nested (instruction : Instruction) (signers : List Pubkey) (balanced hasRoom : Bool)
  | pop

/-- What a call leaves on the stack. -/
def Call.perform (message : Message) (stackCapacity : Nat) (call : Call) (stack : List InstructionFrame) :
    Except CallError (List InstructionFrame) :=
  match call with
  | .topLevel programAccountIndex accounts hasRoom =>
    push message stackCapacity true hasRoom stack
      (prepareNextTopLevelInstruction message programAccountIndex (accounts.map Fin.val))
  | .nested instruction signers balanced hasRoom => do
      let caller ← okOr stack.head? .callDepth
      let frame ← prepareNextInstruction message caller instruction signers
      push message stackCapacity balanced hasRoom stack frame
  | .pop => do
      rejectIf (stack = []) .callDepth
      .ok stack.tail

open List Except Call

/-! ### Entries of one account -/

/-- The accounts of some entries. -/
def indexes (accounts : List InstructionAccount) : List Nat := accounts.map (·.indexInTransaction)

/-- The map leads to an entry of each account; for an account without one it has the largest `u8`. -/
def Indexed (map : Nat → Nat) (indexes : List Nat) : Prop :=
  ∀ index, if index ∈ indexes then indexes[map index]? = some index else map index = u8Max

/-- The privileges of an entry are among those of another. -/
def InstructionAccount.Within (one other : InstructionAccount) : Prop :=
  (one.isSigner = true → other.isSigner = true) ∧ (one.isWritable = true → other.isWritable = true)

theorem InstructionAccount.Within.raise {one other : InstructionAccount} (within : one.Within other)
    (same : other.indexInTransaction = one.indexInTransaction) : one.raise other.isSigner other.isWritable = other := by
  rcases one with ⟨_, _ | _, _ | _⟩ <;> rcases other with ⟨_, _ | _, _ | _⟩ <;>
    simp_all [InstructionAccount.raise, InstructionAccount.Within]

/-- The entry that the map leads to has all privileges that are given for the account. -/
structure CalleeAccounts.Sound (callee : CalleeAccounts) : Prop where
  indexed : Indexed callee.transactionCalleeMap (indexes callee.instructionAccounts)
  covered : ∀ entry ∈ callee.instructionAccounts, ∃ first,
    callee.instructionAccounts[callee.transactionCalleeMap entry.indexInTransaction]? = some first ∧ entry.Within first

section Indexed

variable {map : Nat → Nat} {listed : List Nat} {index : Nat}

theorem Indexed.append (indexed : Indexed map listed) (index) :
    Indexed (if index ∈ listed then map else Function.update map index listed.length) (listed ++ [index]) := by
  intro other
  have before := indexed other
  grind

end Indexed

section Callee

variable {callee callee' : CalleeAccounts} {message : Message} {accountMeta : AccountMeta} {index : Nat}

theorem indexed_addTopLevel (indexed : Indexed callee.transactionCalleeMap (indexes callee.instructionAccounts))
    (few : callee.instructionAccounts.length ≤ u8Max) :
    Indexed (callee.addTopLevel message index).transactionCalleeMap
      (indexes (callee.addTopLevel message index).instructionAccounts) := by
  have here := indexed index
  have appended := indexed.append index
  simp only [CalleeAccounts.addTopLevel, CalleeAccounts.nextIndex, u8Max, indexes, map_append, map_cons,
    map_nil, length_map] at *
  intro other
  have there := appended other
  grind

theorem CalleeAccounts.Sound.addNested (sound : callee.Sound) (few : callee.instructionAccounts.length ≤ u8Max)
    (added : callee.addNested message accountMeta = .ok callee') :
    callee'.Sound ∧ ∃ index, message.findIndexOfAccount accountMeta.pubkey = some index ∧
      indexes callee'.instructionAccounts = indexes callee.instructionAccounts ++ [index] := by
  obtain ⟨map, accounts⟩ := callee
  obtain ⟨indexed, covered⟩ := sound
  simp only [CalleeAccounts.addNested, CalleeAccounts.nextIndex, ok_iffs] at added
  obtain ⟨index, found, added⟩ := added
  have appended := indexed.append index
  have here := indexed index
  dsimp only [indexes] at few here appended covered
  cases place : accounts[map index]? with
  | some account =>
    rw [place] at added
    cases added
    have listed : indexes (accounts.set (map index) (account.raise accountMeta.isSigner accountMeta.isWritable) ++
        [account.raise accountMeta.isSigner accountMeta.isWritable]) = indexes accounts ++ [index] := by
      apply ext_getElem?
      grind [InstructionAccount.raise, indexes]
    refine ⟨⟨?_, ?_⟩, index, found, listed⟩
    · rw [listed]
      grind [indexes]
    · grind [InstructionAccount.raise, InstructionAccount.Within]
  | none =>
    rw [place] at added
    cases added
    rw [Nat.mod_eq_of_lt (Nat.lt_succ_of_le few)]
    refine ⟨⟨?_, ?_⟩, index, found, by simp [indexes]⟩
    · grind [indexes]
    intro entry mem
    rcases mem_append.mp mem with old | new
    · obtain ⟨first, isFirst, within⟩ := covered entry old
      exact ⟨first, by grind, within⟩
    · cases mem_singleton.mp new
      exact ⟨_, by simp, id, id⟩

/-- All entries of a nested instruction. -/
theorem foldlM_addNested {accounts : List AccountMeta} (few : accounts.length ≤ maxAccountsPerTransaction)
    (added : accounts.foldlM (·.addNested message) CalleeAccounts.empty = .ok callee) :
    callee.Sound ∧
      accounts.map (message.findIndexOfAccount ·.pubkey) = (indexes callee.instructionAccounts).map some := by
  induction accounts using reverseRecOn generalizing callee with
  | nil =>
    cases added
    exact ⟨⟨fun _ => rfl, nofun⟩, rfl⟩
  | append_singleton accounts last ih =>
    rw [length_append, length_singleton] at few
    simp only [foldlM_append, foldlM_cons, foldlM_nil, ok_iffs] at added
    obtain ⟨before, added, _, last, rfl⟩ := added
    obtain ⟨sound, named⟩ := ih (by omega) added
    have length : accounts.length = before.instructionAccounts.length := by
      have lengths := congrArg length named
      simpa [indexes] using lengths
    obtain ⟨sound, _, found, listed⟩ := sound.addNested (length ▸ Nat.le_of_succ_le_succ few) last
    refine ⟨sound, ?_⟩
    rw [map_append, named, listed, map_append, map_singleton, found]
    rfl

theorem foldl_addTopLevel (message) {named : List Nat} (few : named.length ≤ maxAccountsPerTransaction) :
    let callee := named.foldl (·.addTopLevel message) CalleeAccounts.empty
    Indexed callee.transactionCalleeMap (indexes callee.instructionAccounts) ∧ callee.instructionAccounts =
      named.map fun index => ⟨index, message.isSigner index, message.isWritable index⟩ := by
  induction named using reverseRecOn with
  | nil => exact ⟨fun _ => rfl, rfl⟩
  | append_singleton named last ih =>
    rw [length_append, length_singleton] at few
    obtain ⟨indexed, entries⟩ := ih (by omega)
    rw [foldl_append]
    refine ⟨indexed_addTopLevel indexed ?_, ?_⟩
    · rw [entries, length_map]
      exact Nat.le_of_succ_le_succ few
    · rw [foldl_cons, foldl_nil, CalleeAccounts.addTopLevel, entries, map_append]
      rfl

/-- What the calling frame gives for an account. -/
def Granted (message : Message) (caller : InstructionFrame) (signers : List Pubkey) (entry : InstructionAccount) :
    Prop :=
  ∃ place callerEntry, caller.getIndexOfAccountInInstruction entry.indexInTransaction = .ok place ∧
    caller.instructionAccounts[place]? = some callerEntry ∧ (entry.isWritable = true → callerEntry.isWritable = true) ∧
    (entry.isSigner = true → callerEntry.isSigner = true ∨
      ∃ key ∈ signers, message.accountKeys[entry.indexInTransaction]? = some key)

variable {caller : InstructionFrame} {signers : List Pubkey} {accounts : List InstructionAccount} {count : Nat}

theorem CalleeAccounts.Sound.shared (sound : callee.Sound) {entry : InstructionAccount}
    (mem : entry ∈ callee.instructionAccounts) :
    ∃ first, callee.instructionAccounts[callee.transactionCalleeMap entry.indexInTransaction]? = some first ∧
      first.indexInTransaction = entry.indexInTransaction ∧ entry.raise first.isSigner first.isWritable = first := by
  obtain ⟨first, found, within⟩ := sound.covered entry mem
  have here := sound.indexed entry.indexInTransaction
  have same : first.indexInTransaction = entry.indexInTransaction := by grind [indexes]
  exact ⟨first, found, same, within.raise same⟩

/-- Some entries were checked: those before a place have the privileges of the account, the others those given. -/
structure Checked (message : Message) (caller : InstructionFrame) (signers : List Pubkey) (callee : CalleeAccounts)
    (count : Nat) (accounts : List InstructionAccount) : Prop where
  done : ∀ place < count, ∀ entry : InstructionAccount, callee.instructionAccounts[place]? = some entry →
    accounts[place]? = callee.instructionAccounts[callee.transactionCalleeMap entry.indexInTransaction]?
  left : ∀ place, count ≤ place → accounts[place]? = callee.instructionAccounts[place]?
  granted : ∀ place < count, ∀ entry : InstructionAccount, callee.instructionAccounts[place]? = some entry →
    callee.transactionCalleeMap entry.indexInTransaction = place → Granted message caller signers entry

theorem Checked.checkEntry (checked : Checked message caller signers callee count accounts) (sound : callee.Sound)
    (keys : ∀ (entry : InstructionAccount) (accountMeta : AccountMeta),
      callee.instructionAccounts[count]? = some entry → instruction.accounts[count]? = some accountMeta →
      message.accountKeys[entry.indexInTransaction]? = some accountMeta.pubkey)
    (taken : callee.checkEntry caller instruction signers accounts count = .ok accounts') :
    Checked message caller signers callee (count + 1) accounts' := by
  simp only [CalleeAccounts.checkEntry, ok_iffs] at taken
  obtain ⟨account, found, taken⟩ := taken
  have before : callee.instructionAccounts[count]? = some account := (checked.left count le_rfl).symm.trans found
  obtain ⟨first, isFirst, same, raised⟩ := sound.shared (mem_of_getElem? before)
  split at taken
  · -- Another entry of the account has its privileges; it is as it was before.
    rename_i other
    simp only [ok_iffs] at taken
    obtain ⟨reference, isReference, rfl⟩ := taken
    have unchanged : accounts[callee.transactionCalleeMap account.indexInTransaction]? = some first := by
      rcases lt_or_ge (callee.transactionCalleeMap account.indexInTransaction) count with less | more
      · rw [checked.done _ less first isFirst, same, isFirst]
      · rw [checked.left _ more, isFirst]
    cases unchanged.symm.trans isReference
    rw [raised]
    constructor
    all_goals grind [Checked]
  · simp only [ok_iffs] at taken
    obtain ⟨place, isPlace, accountMeta, isMeta, callerEntry, isCaller, writable, signer, rfl⟩ := taken
    have key := keys account accountMeta before isMeta
    constructor
    case done => grind [Checked]
    case left => grind [Checked]
    case granted =>
      intro other less entry found' isOther
      rcases Nat.lt_succ_iff_lt_or_eq.mp less with less | rfl
      · exact checked.granted other less entry found' isOther
      cases before.symm.trans found'
      refine ⟨place, callerEntry, isPlace, isCaller, by grind, ?_⟩
      intro signs
      rcases not_not.mp (not_and.mp signer signs) with caller | signed
      · exact .inl caller
      · exact .inr ⟨_, signed, key⟩

theorem Checked.shares (checked : Checked message caller signers callee callee.instructionAccounts.length accounts)
    (sound : callee.Sound) : indexes accounts = indexes callee.instructionAccounts ∧ ∀ entry ∈ accounts,
      callee.instructionAccounts[callee.transactionCalleeMap entry.indexInTransaction]? = some entry := by
  have each : ∀ place : Nat, ∀ entry : InstructionAccount, callee.instructionAccounts[place]? = some entry →
      ∃ first, accounts[place]? = some first ∧ first.indexInTransaction = entry.indexInTransaction ∧
        callee.instructionAccounts[callee.transactionCalleeMap first.indexInTransaction]? = some first := by
    intro place entry found
    obtain ⟨first, isFirst, same, -⟩ := sound.shared (mem_of_getElem? found)
    exact ⟨first, by grind [Checked], same, same ▸ isFirst⟩
  have beyond := checked.left
  constructor
  · apply ext_getElem?
    grind [indexes]
  · intro entry mem
    obtain ⟨place, found⟩ := mem_iff_getElem?.mp mem
    grind

theorem prepareNextInstruction_spec {frame : InstructionFrame}
    (few : instruction.accounts.length ≤ maxAccountsPerTransaction)
    (prepared : prepareNextInstruction message caller instruction signers = .ok frame) :
    Indexed frame.dedupMap (indexes frame.instructionAccounts) ∧ frame.signers = signers ∧
      (∀ one ∈ frame.instructionAccounts, ∀ other ∈ frame.instructionAccounts,
        one.indexInTransaction = other.indexInTransaction → one = other) ∧
      (∀ entry ∈ frame.instructionAccounts, Granted message caller signers entry) ∧
      instruction.accounts.map (message.findIndexOfAccount ·.pubkey) =
        (indexes frame.instructionAccounts).map some := by
  simp only [prepareNextInstruction, ok_iffs] at prepared
  obtain ⟨callee, added, accounts, taken, _, -, _, -, rfl⟩ := prepared
  obtain ⟨sound, named⟩ := foldlM_addNested few added
  have keys : ∀ (place : Nat) (entry : InstructionAccount) (accountMeta : AccountMeta),
      callee.instructionAccounts[place]? = some entry → instruction.accounts[place]? = some accountMeta →
        message.accountKeys[entry.indexInTransaction]? = some accountMeta.pubkey := by
    intro place entry accountMeta found isMeta
    have here := congrArg (·[place]?) named
    simp only [indexes, getElem?_map, found, isMeta, Option.map_some, Option.some.injEq] at here
    obtain ⟨inside, isKey, -⟩ := idxOf?_eq_some_iff.mp here
    rw [getElem?_eq_getElem inside, isKey]
  have checked : ∀ count accounts, (range count).foldlM (callee.checkEntry caller instruction signers)
      callee.instructionAccounts = .ok accounts → Checked message caller signers callee count accounts := by
    intro count
    induction count with
    | zero =>
      rintro _ ⟨⟩
      exact ⟨by simp, fun _ _ => rfl, by simp⟩
    | succ count ih =>
      intro accounts taken
      simp only [range_succ, foldlM_append, foldlM_cons, foldlM_nil, ok_iffs] at taken
      obtain ⟨before, taken, _, last, rfl⟩ := taken
      exact (ih before taken).checkEntry sound (keys count) last
  have checked := checked _ accounts taken
  obtain ⟨listed, shares⟩ := checked.shares sound
  refine ⟨listed ▸ sound.indexed, rfl, ?_, ?_, listed ▸ named⟩
  · intro one isOne other isOther same
    have first := shares one isOne
    rw [same, shares other isOther] at first
    exact (Option.some.inj first).symm
  · intro entry mem
    have found := shares entry mem
    exact checked.granted _ (List.getElem?_eq_some_iff.mp found).1 entry found rfl

end Callee

/-! ### Frames -/

/-- A frame has no more privileges than it may, below the frames that enclose it. -/
structure FrameSafe (message : Message) (frame : InstructionFrame) (enclosing : List InstructionFrame) : Prop where
  writable : ∀ entry ∈ frame.instructionAccounts, entry.isWritable = true →
    message.isWritable entry.indexInTransaction = true
  signer : ∀ entry ∈ frame.instructionAccounts, entry.isSigner = true →
    message.isSigner entry.indexInTransaction = true ∨
    ∃ signing ∈ frame :: enclosing, ∃ key ∈ signing.signers, message.accountKeys[entry.indexInTransaction]? = some key
  called : ∀ caller ∈ enclosing.head?, ∀ entry ∈ frame.instructionAccounts, ∃ callerEntry ∈ caller.instructionAccounts,
    callerEntry.indexInTransaction = entry.indexInTransaction ∧
      (entry.isWritable = true → callerEntry.isWritable = true)
  alike : ∀ one ∈ frame.instructionAccounts, ∀ other ∈ frame.instructionAccounts,
    one.indexInTransaction = other.indexInTransaction → one = other
  contiguous : ∀ between other outer, enclosing = between ++ other :: outer →
    other.getProgramKey message = frame.getProgramKey message →
      ∀ inner ∈ between, inner.getProgramKey message = frame.getProgramKey message

def StackSafe (message : Message) : List InstructionFrame → Prop
  | [] => True
  | frame :: enclosing => FrameSafe message frame enclosing ∧ StackSafe message enclosing

/-- A call that is made as it should be: top level instructions are not nested, and an instruction has at most 256
    entries. -/
def Call.Allowed (stack : List InstructionFrame) : Call → Prop
  | .topLevel _ accounts _ => stack = [] ∧ accounts.length ≤ maxAccountsPerTransaction
  | .nested instruction _ _ _ => instruction.accounts.length ≤ maxAccountsPerTransaction
  | .pop => True

instance (stack : List InstructionFrame) (call : Call) : Decidable (call.Allowed stack) := by
  unfold Call.Allowed
  split <;> infer_instance

/-- A frame with 256 entries names only its own accounts in a call. -/
def Call.NamesOwn (message : Message) (stack : List InstructionFrame) : Call → Prop
  | .nested instruction _ _ _ => ∀ caller ∈ stack.head?, caller.instructionAccounts.length = maxAccountsPerTransaction →
      ∀ accountMeta ∈ instruction.accounts, ∀ index ∈ message.findIndexOfAccount accountMeta.pubkey,
        index ∈ indexes caller.instructionAccounts
  | _ => True

/-- What holds whatever accounts are named. -/
def StackIndexed (stack : List InstructionFrame) : Prop :=
  ∀ frame ∈ stack, Indexed frame.dedupMap (indexes frame.instructionAccounts) ∧
    frame.instructionAccounts.length ≤ maxAccountsPerTransaction

section Steps

variable {message : Message} {stack : List InstructionFrame} {frame : InstructionFrame} {call : Call}

/-- A frame of a program that is on the stack follows one of the same program. -/
theorem push_spec (pushed : push message stackCapacity balanced hasRoom stack frame = .ok stack') :
    stack' = frame :: stack ∧
    ((∃ other ∈ stack, other.getProgramKey message = frame.getProgramKey message) →
      ∃ last ∈ stack.head?, last.getProgramKey message = frame.getProgramKey message) := by
  simp only [push, ok_iffs] at pushed
  obtain ⟨programId, isProgram, reentrant, -, -, -, rfl⟩ := pushed
  rw [isProgram]
  refine ⟨rfl, ?_⟩
  rintro ⟨other, mem, same⟩
  have last := not_and.mp reentrant (any_eq_true.mpr ⟨other, mem, decide_eq_true same⟩)
  rw [Bool.not_eq_false, Option.any_eq_true] at last
  obtain ⟨last, isLast, same⟩ := last
  exact ⟨last, isLast, of_decide_eq_true same⟩

/-- Frames of a program are together if each follows one of the same program. -/
theorem contiguous_push (safe : StackSafe message stack)
    (follows : (∃ other ∈ stack, other.getProgramKey message = frame.getProgramKey message) →
      ∃ last ∈ stack.head?, last.getProgramKey message = frame.getProgramKey message)
    (between other outer) (isStack : stack = between ++ other :: outer)
    (same : other.getProgramKey message = frame.getProgramKey message) :
    ∀ inner ∈ between, inner.getProgramKey message = frame.getProgramKey message := by
  subst isStack
  obtain ⟨_, isLast, sameLast⟩ := follows ⟨other, by simp, same⟩
  cases between with
  | nil => exact nofun
  | cons first between =>
    cases isLast
    refine forall_mem_cons.mpr ⟨sameLast, ?_⟩
    intro inner mem
    rw [safe.1.contiguous between other outer rfl (same.trans sameLast.symm) inner mem, sameLast]

/-- What the calling frame gives is its own entry for the account, if it has one or not as many as 256. -/
theorem Granted.own (granted : Granted message caller signers entry)
    (indexed : Indexed caller.dedupMap (indexes caller.instructionAccounts))
    (own : caller.instructionAccounts.length ≤ u8Max ∨ entry.indexInTransaction ∈ indexes caller.instructionAccounts) :
    ∃ callerEntry ∈ caller.instructionAccounts, callerEntry.indexInTransaction = entry.indexInTransaction ∧
      (entry.isWritable = true → callerEntry.isWritable = true) ∧ (entry.isSigner = true → callerEntry.isSigner = true ∨
        ∃ key ∈ signers, message.accountKeys[entry.indexInTransaction]? = some key) := by
  obtain ⟨place, callerEntry, isPlace, found, privileges⟩ := granted
  have here := indexed entry.indexInTransaction
  refine ⟨callerEntry, mem_of_getElem? found, ?_, privileges⟩
  grind [indexes, InstructionFrame.getIndexOfAccountInInstruction]

theorem StackIndexed.step (indexed : StackIndexed stack) (allowed : call.Allowed stack)
    (performed : call.perform message stackCapacity stack = .ok stack') : StackIndexed stack' := by
  cases call with
  | topLevel programAccountIndex accounts =>
    obtain ⟨rfl, -⟩ := push_spec performed
    have few : (accounts.map Fin.val).length ≤ maxAccountsPerTransaction := (length_map _).trans_le allowed.2
    obtain ⟨here, entries⟩ := foldl_addTopLevel message few
    refine forall_mem_cons.mpr ⟨⟨here, ?_⟩, indexed⟩
    rw [prepareNextTopLevelInstruction, entries, length_map]
    exact few
  | nested instruction =>
    simp only [Call.perform, ok_iffs] at performed
    obtain ⟨_, -, frame, prepared, pushed⟩ := performed
    obtain ⟨rfl, -⟩ := push_spec pushed
    obtain ⟨here, -, -, -, named⟩ := prepareNextInstruction_spec allowed prepared
    have length : instruction.accounts.length = frame.instructionAccounts.length := by
      have lengths := congrArg length named
      simpa [indexes] using lengths
    exact forall_mem_cons.mpr ⟨⟨here, length ▸ allowed⟩, indexed⟩
  | pop =>
    simp only [Call.perform, ok_iffs] at performed
    obtain ⟨-, rfl⟩ := performed
    exact fun frame mem => indexed frame (mem_of_mem_tail mem)

/-- A call keeps the stack safe exactly if it names accounts as it should. -/
theorem stackSafe_step_iff (indexed : StackIndexed stack) (safe : StackSafe message stack)
    (allowed : call.Allowed stack)
    (performed : call.perform message stackCapacity stack = .ok stack') :
    StackSafe message stack' ↔ call.NamesOwn message stack := by
  cases call with
  | topLevel programAccountIndex accounts hasRoom =>
    obtain ⟨rfl, few⟩ := allowed
    obtain ⟨rfl, -⟩ := push_spec performed
    obtain ⟨-, entries⟩ := foldl_addTopLevel message ((length_map Fin.val).trans_le few)
    refine iff_of_true ⟨?_, safe⟩ trivial
    constructor
    case called => exact nofun
    case contiguous => simp
    all_goals simp only [prepareNextTopLevelInstruction, entries, mem_map]
    all_goals grind
  | nested instruction =>
    simp only [Call.perform, ok_iffs] at performed
    obtain ⟨caller, isCaller, frame, prepared, pushed⟩ := performed
    obtain ⟨rfl, follows⟩ := push_spec pushed
    obtain ⟨-, rfl, alike, granted, named⟩ := prepareNextInstruction_spec allowed prepared
    obtain ⟨enclosing, rfl⟩ : ∃ enclosing, stack = caller :: enclosing := head?_eq_some_iff.mp isCaller
    -- The accounts that are named are those of the entries.
    have named :
        ∀ index, (∃ accountMeta ∈ instruction.accounts, message.findIndexOfAccount accountMeta.pubkey = some index) ↔
        index ∈ indexes frame.instructionAccounts := by
      intro index
      have members := congrArg (some index ∈ ·) named
      simpa using members
    constructor
    · rintro ⟨frameSafe, -⟩ _ ⟨⟩ - accountMeta mem index found
      obtain ⟨entry, isEntry, rfl⟩ := mem_map.mp ((named index).mp ⟨accountMeta, mem, found⟩)
      obtain ⟨callerEntry, isCaller, same, -⟩ := frameSafe.called caller rfl entry isEntry
      exact mem_map.mpr ⟨callerEntry, isCaller, same⟩
    · intro names
      obtain ⟨callerIndexed, few⟩ := indexed caller mem_cons_self
      have own : ∀ entry ∈ frame.instructionAccounts, _ := fun entry mem => (granted entry mem).own callerIndexed (by
        rcases Nat.lt_or_eq_of_le few with less | full
        · exact .inl (Nat.le_of_lt_succ less)
        · obtain ⟨accountMeta, isMeta, found⟩ := (named entry.indexInTransaction).mpr (mem_map_of_mem mem)
          exact .inr (names caller rfl full accountMeta isMeta _ found))
      refine ⟨⟨?_, ?_, ?_, alike, contiguous_push safe follows⟩, safe⟩
      · intro entry mem writable
        obtain ⟨callerEntry, isCaller, same, writes, -⟩ := own entry mem
        exact same ▸ safe.1.writable callerEntry isCaller (writes writable)
      · intro entry mem signer
        obtain ⟨callerEntry, isCaller, same, -, signs⟩ := own entry mem
        rcases signs signer with signs | signed
        · rw [← same]
          rcases safe.1.signer callerEntry isCaller signs with signs | ⟨signing, isSigning, signed⟩
          · exact .inl signs
          · exact .inr ⟨signing, mem_cons_of_mem _ isSigning, signed⟩
        · exact .inr ⟨frame, mem_cons_self, signed⟩
      · rintro _ ⟨⟩ entry mem
        obtain ⟨callerEntry, isCaller, same, writes, -⟩ := own entry mem
        exact ⟨callerEntry, isCaller, same, writes⟩
  | pop =>
    simp only [Call.perform, ok_iffs] at performed
    obtain ⟨-, rfl⟩ := performed
    refine iff_of_true ?_ trivial
    cases stack with
    | nil => trivial
    | cons => exact safe.2

end Steps

/-- Calls that lead to a stack, each made as it should be. -/
abbrev Reaches (message : Message) (stackCapacity : Nat) (calls : List Call) (stack : List InstructionFrame) : Prop :=
  Run (perform message stackCapacity) (fun stack call => call.Allowed stack) [] calls stack

/-- Privileges never grow along the calls of a run, exactly as long as no frame with 256 entries calls with an account
    that it does not have. -/
theorem privileges_kept_iff {message : Message} {stackCapacity : Nat} {calls : List Call}
    {stack : List InstructionFrame}
    (run : Reaches message stackCapacity calls stack) :
    (∀ done rest stack, calls = done ++ rest → Reaches message stackCapacity done stack → StackSafe message stack) ↔
      ∀ done call rest stack, calls = done ++ call :: rest → Reaches message stackCapacity done stack →
        call.NamesOwn message stack :=
  run.always_iff (I := StackIndexed) (fun _ _ _ => StackIndexed.step) (fun _ _ _ => stackSafe_step_iff) nofun trivial

namespace Sample

/-- Two programs and an account that may only be read. -/
def message : Message :=
  { accountKeys := [10, 11, 12], isSigner := fun index => index = 0, isWritable := fun index => index ≠ 2
    distinct := by decide, few := by decide }

/-- A top level instruction with entries for one account, which calls with the account that may only be read. -/
def calls (entries : Nat) : List Call :=
  [.topLevel 0 (List.replicate entries 1) true, .nested ⟨11, [⟨12, false, true⟩]⟩ [] true true]

def called (entries : Nat) : Option (List InstructionFrame) :=
  exec (perform message 5) (fun stack call => call.Allowed stack) (calls entries) []

theorem called_isSome : (called 256).isSome = true := by
  decide +kernel

end Sample

open Sample

theorem privileges_kept_sample : Reaches message 5 (calls 256) ((called 256).get called_isSome) ∧
    ((∀ done rest stack, calls 256 = done ++ rest → Reaches message 5 done stack → StackSafe message stack) ↔
      ∀ done call rest stack, calls 256 = done ++ call :: rest → Reaches message 5 done stack →
        call.NamesOwn message stack) :=
  ⟨run_exec_get called_isSome, privileges_kept_iff (run_exec_get called_isSome)⟩

/-- With 255 entries the call is refused; with 256 it gets an account to write that may only be read. -/
theorem readonly_account_written : called 255 = none ∧
    ∃ stack, Reaches message 5 (calls 256) stack ∧ ¬ StackSafe message stack := by
  have refused : (called 255).isNone = true := by decide +kernel
  have written : ∃ stack ∈ called 256, ∃ frame ∈ stack.head?,
      (⟨2, false, true⟩ : InstructionAccount) ∈ frame.instructionAccounts := by decide +kernel
  obtain ⟨stack, reached, frame, isFrame, entry⟩ := written
  refine ⟨Option.isNone_iff_eq_none.mp refused, stack, run_of_exec reached, ?_⟩
  intro safe
  obtain ⟨enclosing, rfl⟩ := head?_eq_some_iff.mp isFrame
  have allowed := safe.1.writable _ entry rfl
  exact absurd allowed (by decide)

end Payout.ProgramRuntime
