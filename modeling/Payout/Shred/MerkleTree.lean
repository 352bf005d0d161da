/-
Purpose: The Merkle trees that sign erasure batches of shreds. A tree is one list of nodes, level after level; a level
  of odd size joins its last node with itself.
Source: gorchain/ledger/src/shred/merkle_tree.rs
Trusted boundary: Hasher (sha256)
-/
import Payout.Lib.Checked
import Mathlib.Data.Nat.Bitwise
import Mathlib.Data.Nat.Log

namespace Payout.Shred

open Lib List

inductive Error where
  | invalidMerkleProof
  | outOfBounds
deriving Repr, DecidableEq

/-- The bytes of a hash that a proof holds, and the hash of two of them. -/
class Hasher (Hash : Type) (Entry : outParam Type) where
  entry : Hash → Entry
  hashv : Entry → Entry → Hash

open Hasher

variable {Hash Entry : Type} [Hasher Hash Entry]

/-- A size and the sizes that follow while there are more than `last + 1` nodes. -/
def sizes (last k : Nat) : List Nat :=
  k :: if last + 1 < k then sizes last ((k + 1) >>> 1) else []
termination_by k
decreasing_by rw [Nat.shiftRight_one]; omega

def getMerkleTreeSize (numShreds : Nat) : Nat := (sizes 0 numShreds).sum

def joinNodes (node other : Hash) : Hash := hashv (entry node) (entry other)

/-- Join the last `size` nodes in pairs. -/
def pushParents (nodes : List Hash) (size : Nat) : Except Error (List Hash) := do
  let offset := nodes.length - size
  let parents ← (range' offset ((size + 1) / 2) 2).mapM fun index => do
    let node ← okOr nodes[index]? .outOfBounds
    let other ← okOr nodes[min (index + 1) (offset + size - 1)]? .outOfBounds
    pure (joinNodes node other)
  pure (nodes ++ parents)

def makeMerkleTree (shreds : List (Except Error Hash)) : Except Error (List Hash) := do
  let nodes ← shreds.mapM id
  (if 1 < shreds.length then sizes 1 shreds.length else []).foldlM pushParents nodes

/-- The captured variables of a proof that is being read. -/
structure MerkleProof where
  index : Nat
  size : Nat
  offset : Nat

def makeMerkleProof (index size : Nat) (tree : List Hash) : MerkleProof :=
  if size ≤ index then ⟨index, 0, tree.length⟩ else ⟨index, size, 0⟩

/-- The next item of a proof, and what is left of it. -/
def MerkleProof.next (tree : List Hash) (proof : MerkleProof) : Option (Except Error Entry × MerkleProof) :=
  if 1 < proof.size then
    match tree[proof.offset + min (proof.index ^^^ 1) (proof.size - 1)]? with
    | none => some (.error .invalidMerkleProof, proof)
    | some node => some (.ok (entry node), ⟨proof.index >>> 1, (proof.size + 1) >>> 1, proof.offset + proof.size⟩)
  else if proof.offset + 1 = tree.length then none
  else some (.error .invalidMerkleProof, proof)

/-- The first items of a proof, as many as are asked for. -/
def MerkleProof.items (tree : List Hash) : Nat → MerkleProof → List (Except Error Entry)
  | 0, _ => []
  | count + 1, proof =>
    match proof.next tree with
    | none => []
    | some (item, rest) => item :: rest.items tree count

def getMerkleRoot (index : Nat) (node : Hash) (proof : List Entry) : Except Error Hash :=
  let (index, root) := proof.foldl
    (fun (index, node) other =>
      (index >>> 1, if index % 2 = 0 then hashv (entry node) other else hashv other (entry node)))
    (index, node)
  if index = 0 then .ok root else .error .invalidMerkleProof

/-- No two pairs of entries are joined to the same entry. -/
def NoCollision (Hash : Type) {Entry : Type} [Hasher Hash Entry] : Prop :=
  Function.Injective2 fun one other => entry (hashv one other : Hash)

/-! ### Levels -/

section Levels

variable {level : List Hash} {k : Nat} {node root reached : Hash}

/-- The level above a level. -/
def above (level : List Hash) : List Hash :=
  ofFn fun i : Fin ((level.length + 1) / 2) => joinNodes (level.get ⟨2 * i, by omega⟩)
    (level.get ⟨min (2 * i + 1) (level.length - 1), by omega⟩)

@[simp] theorem length_above : (above level).length = (level.length + 1) / 2 := length_ofFn

/-- A level with all levels above it. -/
def levels (level : List Hash) : List Hash :=
  level ++ if 1 < level.length then levels (above level) else []
termination_by level.length
decreasing_by rw [length_above]; omega

theorem getElem?_level (done rest) (inside : k < level.length) :
    (done ++ (level ++ rest))[done.length + k]? = some level[k] := by
  rw [getElem?_append_right (Nat.le_add_right _ _), Nat.add_sub_cancel_left, getElem?_append_left inside,
    getElem?_eq_getElem inside]

theorem pushParents_levels (done) : pushParents (done ++ level) level.length = .ok (done ++ level ++ above level) := by
  simp only [pushParents, ok_iffs]
  refine ⟨_, mapM_ok_iff.mpr (forall₂_iff_get.mpr ⟨by simp, ?_⟩), rfl⟩
  intro i _ inside
  rw [length_above] at inside
  have last : min (done.length + 2 * i + 1) (done.length + level.length - 1) =
      done.length + min (2 * i + 1) (level.length - 1) := by omega
  have node := getElem?_level done [] (show 2 * i < level.length by omega)
  have other := getElem?_level done [] (show min (2 * i + 1) (level.length - 1) < level.length by omega)
  rw [append_nil] at node other
  simp only [length_append, Nat.add_sub_cancel, get_eq_getElem, getElem_range', ok_iffs, above, List.getElem_ofFn, last]
  exact ⟨_, node, _, other, rfl⟩

theorem foldlM_pushParents (many : 1 < level.length) (done) :
    (sizes 1 level.length).foldlM pushParents (done ++ level) = .ok (done ++ levels level) := by
  induction size : level.length using Nat.strong_induction_on generalizing level done with
  | _ size ih =>
    subst size
    rw [sizes, levels, if_pos many, foldlM_cons, pushParents_levels]
    split
    · rename_i more
      have smaller := ih (above level).length (by rw [length_above]; omega) (by rw [length_above]; omega)
        (done ++ level) rfl
      rw [length_above, ← Nat.shiftRight_one] at smaller
      rw [← append_assoc]
      exact smaller
    · rw [levels, if_neg (by rw [length_above]; omega), append_nil, ← append_assoc]
      rfl

theorem length_levels : (levels level).length = getMerkleTreeSize level.length := by
  fun_induction levels level with
  | case1 level ih =>
    rw [getMerkleTreeSize, sizes, length_append, sum_cons]
    split
    · rename_i many
      rw [ih many, length_above, getMerkleTreeSize, Nat.shiftRight_one]
    · rfl

/-- A node and its neighbour are joined in the level above. -/
theorem getElem_above (inside : k < level.length) : ∃ (inside' : k / 2 < (above level).length) (other : Hash),
    level[min (k ^^^ 1) (level.length - 1)]? = some other ∧ (above level)[k / 2] =
      if k % 2 = 0 then joinNodes level[k] other else joinNodes other level[k] := by
  refine ⟨by rw [length_above]; omega, ?_⟩
  simp only [above, List.getElem_ofFn, get_eq_getElem]
  by_cases even : k % 2 = 0
  · simp only [Nat.xor_one_of_even (Nat.even_iff.mpr even), if_pos even]
    refine ⟨_, getElem?_eq_getElem (by omega), ?_⟩
    congr! 2
    all_goals omega
  · have odd : k % 2 = 1 := by omega
    simp only [Nat.xor_one_of_odd (Nat.odd_iff.mpr odd), if_neg even]
    refine ⟨_, getElem?_eq_getElem (by omega), ?_⟩
    congr! 2
    all_goals omega

/-! ### Proofs -/

theorem getMerkleRoot_cons (other proof) :
    getMerkleRoot k node (other :: proof) = getMerkleRoot (k / 2)
      (if k % 2 = 0 then hashv (entry node) other else hashv other (entry node)) proof := by
  rw [← Nat.shiftRight_one]
  rfl

theorem levels_spec (inside : k < level.length) (done) :
    ∃ root ∈ (levels level).getLast?, ∃ proof : List Entry, proof.length = Nat.clog 2 level.length ∧
      (∀ count, MerkleProof.items (done ++ levels level) count ⟨k, level.length, done.length⟩ =
        (proof.map .ok).take count) ∧ getMerkleRoot k level[k] proof = .ok root := by
  induction size : level.length using Nat.strong_induction_on generalizing level k done with
  | _ size ih =>
    subst size
    rw [levels]
    by_cases many : 1 < level.length
    · rw [if_pos many]
      obtain ⟨inside', other, isOther, isParent⟩ := getElem_above inside
      obtain ⟨root, isRoot, proof, length, items, reached⟩ := ih (above level).length
        (by rw [length_above]; omega) inside' (done ++ level) rfl
      refine ⟨root, ?_, entry other :: proof, ?_, ?_, ?_⟩
      · rw [Option.mem_def, getLast?_append, Option.mem_def.mp isRoot, Option.some_or]
      · rw [length_cons, length, length_above, Nat.clog_of_two_le (by decide) many]
        rfl
      · intro count
        cases count with
        | zero => rfl
        | succ count =>
          obtain ⟨inLevel, rfl⟩ := List.getElem?_eq_some_iff.mp isOther
          rw [MerkleProof.items, MerkleProof.next, if_pos many, getElem?_level done _ inLevel]
          simp only [map_cons, take_succ_cons, Nat.shiftRight_one]
          rw [← items count, length_append, length_above, append_assoc]
      · rw [getMerkleRoot_cons]
        rw [isParent] at reached
        exact reached
    · have one : level.length = 1 := by omega
      obtain ⟨node, rfl⟩ := length_eq_one_iff.mp one
      obtain rfl : k = 0 := by simpa using inside
      refine ⟨node, rfl, [], rfl, ?_, rfl⟩
      intro count
      cases count with
      | zero => rfl
      | succ => simp [MerkleProof.items, MerkleProof.next]

/-- A proof of the right length that reaches the last node starts at the leaf. -/
theorem entry_of_getMerkleRoot (injective : NoCollision Hash) (inside : k < level.length)
    (isRoot : root ∈ (levels level).getLast?) (length : proof.length = Nat.clog 2 level.length)
    (isReached : getMerkleRoot k node proof = .ok reached) (same : entry reached = entry root) :
    entry node = entry level[k] := by
  induction proof generalizing level k node with
  | nil =>
    have few : ¬ 1 < level.length := by
      intro many
      rw [Nat.clog_of_two_le (by decide) many] at length
      cases length
    obtain ⟨leaf, rfl⟩ := length_eq_one_iff.mp (show level.length = 1 by omega)
    obtain rfl : k = 0 := by simpa using inside
    rw [levels] at isRoot
    cases isReached
    cases isRoot
    exact same
  | cons other proof ih =>
    have many : 1 < level.length := by
      by_contra few
      rw [Nat.clog_of_right_le_one (by omega)] at length
      cases length
    rw [Nat.clog_of_two_le (by decide) many, length_cons] at length
    obtain ⟨inside', _, -, isParent⟩ := getElem_above inside
    obtain ⟨_, isRoot', -⟩ := levels_spec inside' []
    rw [levels, if_pos many, Option.mem_def, getLast?_append, isRoot', Option.some_or, ← isRoot'] at isRoot
    rw [getMerkleRoot_cons] at isReached
    have parents := ih inside' isRoot (by rw [length_above]; exact Nat.succ.inj length) isReached
    rw [isParent] at parents
    split at parents
    · exact (injective parents).1
    · exact (injective parents).2

/-- Every leaf has a proof of the least length that can tell the leaves apart, other indexes have none, and without
    collisions nothing else has a proof of that length. -/
theorem merkle_proofs (leaves : List Hash) (nonempty : 1 ≤ leaves.length) : ∃ tree root,
    makeMerkleTree (leaves.map .ok) = .ok tree ∧ tree.length = getMerkleTreeSize leaves.length ∧
    tree.getLast? = some root ∧
    (∀ k leaf, leaves[k]? = some leaf → ∃ proof, proof.length = Nat.clog 2 leaves.length ∧
      (∀ count, (makeMerkleProof k leaves.length tree).items tree count = (proof.map .ok).take count) ∧
      getMerkleRoot k leaf proof = .ok root) ∧
    (∀ k count, leaves.length ≤ k → ((makeMerkleProof k leaves.length tree).items tree (count + 1)).head? =
      some (.error .invalidMerkleProof)) ∧
    (NoCollision Hash → ∀ k leaf node proof, leaves[k]? = some leaf →
      proof.length = Nat.clog 2 leaves.length → getMerkleRoot k node proof = .ok root →
      entry node = entry leaf) := by
  obtain ⟨root, isRoot, -⟩ := levels_spec nonempty []
  refine ⟨levels leaves, root, ?_, length_levels, isRoot, ?_, ?_, ?_⟩
  · have all : (leaves.map .ok).mapM id = (.ok leaves : Except Error (List Hash)) := by
      rw [mapM_ok_iff, forall₂_map_left_iff, forall₂_same]
      exact fun _ _ => rfl
    rw [makeMerkleTree, all, length_map]
    by_cases many : 1 < leaves.length
    · rw [if_pos many]
      exact foldlM_pushParents many []
    · rw [if_neg many, levels, if_neg many, append_nil]
      rfl
  · intro k leaf isLeaf
    obtain ⟨inside, rfl⟩ := List.getElem?_eq_some_iff.mp isLeaf
    obtain ⟨_, isRoot', proof, length, items, reached⟩ := levels_spec inside []
    cases isRoot.symm.trans isRoot'
    rw [makeMerkleProof, if_neg (Nat.not_le.mpr inside)]
    exact ⟨proof, length, items, reached⟩
  · intro k count outside
    simp [makeMerkleProof, outside, MerkleProof.items, MerkleProof.next]
  · intro injective k leaf node proof isLeaf length reached
    obtain ⟨inside, rfl⟩ := List.getElem?_eq_some_iff.mp isLeaf
    exact entry_of_getMerkleRoot injective inside isRoot length reached rfl

end Levels

/-- Nodes that are never joined to the same node. -/
inductive Sample.Node where
  | leaf (index : Nat)
  | join (one other : Node)

instance : Hasher Sample.Node Sample.Node := ⟨id, .join⟩

/-- Of three leaves, nothing but the last one is proved at its index. -/
theorem merkle_proofs_three : ∃ tree root, makeMerkleTree ([0, 1, 2].map (.ok ∘ Sample.Node.leaf)) = .ok tree ∧
    tree.getLast? = some root ∧ ∀ node proof, proof.length = 2 → getMerkleRoot 2 node proof = .ok root →
      node = .leaf 2 := by
  obtain ⟨tree, root, made, -, isRoot, -, -, sound⟩ := merkle_proofs ([0, 1, 2].map Sample.Node.leaf) (by decide)
  refine ⟨tree, root, made, isRoot, fun node proof length => ?_⟩
  exact sound (fun _ _ _ _ => Sample.Node.join.inj) 2 (.leaf 2) node proof rfl (length.trans (by decide))

end Payout.Shred
