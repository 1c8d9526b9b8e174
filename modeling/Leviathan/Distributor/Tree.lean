import Leviathan.Distributor.State
import Leviathan.Lib.Encoding
import Leviathan.Lib.Merkle

/-!
# Merkle proofs of allocations

The tree over the allocations of an airdrop is built by a tool (`solana-tooling/src/distributor.rs`), which also makes
the proofs. The program only has the root and checks proofs by itself. The two are written separately: the tool goes
through layers and indices, the program combines hashes in the order in which it is given them.

A hash cannot be injective, and nothing like it is asked of it. `AirdropMerkleTree.hashed` lists what is hashed when a
tree is built and `Allocation.hashed` what is hashed when a proof is checked; two different values among those are not to
have the same hash (`CollisionFree`).
-/

namespace Leviathan
open Exec List

/-- The tree over the allocations of an airdrop. -/
structure AirdropMerkleTree where
  allocations : List Allocation
  merkleLayers : List (List MerkleHash)
deriving Repr

namespace AirdropMerkleTree

/-- Rust `try_from`. The loop over the layers is `Merkle.layers`, and the one through a layer `Merkle.pairs`. -/
def tryFrom (H : Sha256) (allocations : List Allocation) : Exec String Panic AirdropMerkleTree := do
  Exec.require (allocations ≠ []) "Allocations must not be empty"
  .ok ⟨allocations, Merkle.layers (MerkleHash.fromPair H) (allocations.map (Allocation.toMerkleHash H))⟩

def root (tree : AirdropMerkleTree) : Exec String Panic MerkleHash :=
  Exec.okOr (tree.merkleLayers.getLast?.bind List.head?) "Merkle tree is empty"

/-- The loop of `proof_at_allocation_index`. -/
def proofFrom : List (List MerkleHash) → Nat → Exec String Panic (List MerkleHash)
  | [], _ => .ok []
  | layer :: layers, index =>
    if layer.length = 1 then
      .ok []
    else do
      let siblingIndex := if index % 2 = 0 then index + 1 else index - 1
      let sibling ← Exec.unwrap layer[if layer.length ≤ siblingIndex then index else siblingIndex]? .indexOutOfBounds
      let proof ← proofFrom layers (index / 2)
      .ok (sibling :: proof)

def proofAtAllocationIndex (tree : AirdropMerkleTree) (index : Nat) : Exec String Panic (List MerkleHash) :=
  proofFrom tree.merkleLayers index

/-- What is hashed to build a tree: the allocations, and the pairs of every layer but the last. -/
def hashed (tree : AirdropMerkleTree) : List Bytes :=
  (tree.allocations.map fun a => MerkleHash.partsInput a.parts)
    ++ (tree.merkleLayers.filter fun layer => 1 < layer.length).flatMap fun layer =>
      (Merkle.pairs layer).map fun p => MerkleHash.pairInput p.1 p.2

end AirdropMerkleTree

def Allocation.hashed (H : Sha256) (a : Allocation) (proof : List MerkleHash) : List Bytes :=
  MerkleHash.partsInput a.parts
    :: (Merkle.steps (MerkleHash.fromPair H) (a.toMerkleHash H) proof).map fun p => MerkleHash.pairInput p.1 p.2

section Inputs

lemma leBytes_prefixFree (w : Nat) : PrefixFree fun x : BitVec (8 * w) => leBytes w x.toNat :=
  .of_length (n := w) (fun x => length_leBytes w x.toNat) fun _ _ => leBytes_toNat_inj

lemma Allocation.eq_of_partsInput {a b : Allocation} (h : MerkleHash.partsInput a.parts = MerkleHash.partsInput b.parts) :
    a = b := by
  have h32 : PrefixFree fun x : Pubkey => leBytes 32 x.toNat := leBytes_prefixFree 32
  have h8 : PrefixFree fun x : BitVec 64 => leBytes 8 x.toNat := leBytes_prefixFree 8
  have h4 : PrefixFree fun x : BitVec 32 => leBytes 4 x.toNat := leBytes_prefixFree 4
  have hparts := append_cancel_left h
  obtain ⟨hclaimer, hparts⟩ := h32 a.claimer b.claimer _ _ hparts
  obtain ⟨hnonce, hparts⟩ := h8 a.nonce b.nonce _ _ hparts
  obtain ⟨hstart, hparts⟩ := h8 a.vesting.startUnixTimestamp b.vesting.startUnixTimestamp _ _ hparts
  obtain ⟨hduration, hparts⟩ := h4 a.vesting.durationSeconds b.vesting.durationSeconds _ _ hparts
  obtain ⟨hend, _⟩ := h8 a.vesting.endCollateralAmount b.vesting.endCollateralAmount _ _ hparts
  rcases a with ⟨_, _, _, _, _⟩
  rcases b with ⟨_, _, _, _, _⟩
  cases hclaimer
  cases hnonce
  cases hstart
  cases hduration
  cases hend
  rfl

namespace MerkleHash

lemma partsInput_ne_pairInput (parts : List Bytes) (a b : MerkleHash) : partsInput parts ≠ pairInput a b := by
  unfold partsInput pairInput leafDomain nodeDomain
  intro h
  split at h
  · exact absurd (List.cons.inj h).1 (by decide)
  · exact absurd (List.cons.inj h).1 (by decide)

lemma pairInput_comm (a b : MerkleHash) : pairInput a b = pairInput b a := by
  unfold pairInput
  by_cases hab : a.bytes ≤ b.bytes
  · by_cases hba : b.bytes ≤ a.bytes
    · rw [Bytes32.bytes_inj (List.le_antisymm hab hba)]
    · rw [if_pos hab, if_neg hba]
  · rw [if_neg hab, if_pos ((List.le_total a.bytes b.bytes).resolve_left hab)]

lemma pairInput_eq (a b : MerkleHash) :
    pairInput a b = nodeDomain ++ a.bytes ++ b.bytes ∨ pairInput a b = nodeDomain ++ b.bytes ++ a.bytes := by
  unfold pairInput
  split
  · exact .inl rfl
  · exact .inr rfl

lemma eq_of_node {a b c d : MerkleHash} (h : nodeDomain ++ a.bytes ++ b.bytes = nodeDomain ++ c.bytes ++ d.bytes) :
    a = c ∧ b = d := by
  rw [append_assoc, append_assoc] at h
  exact Bytes32.eq_of_append (append_cancel_left h)

lemma eq_or_eq_of_pairInput {a b c d : MerkleHash} (h : pairInput a b = pairInput c d) : a = c ∨ a = d := by
  rcases pairInput_eq a b with hab | hab
  · rcases pairInput_eq c d with hcd | hcd
    · exact .inl (eq_of_node (hab ▸ hcd ▸ h)).1
    · exact .inr (eq_of_node (hab ▸ hcd ▸ h)).1
  · rcases pairInput_eq c d with hcd | hcd
    · exact .inr (eq_of_node (hab ▸ hcd ▸ h)).2
    · exact .inl (eq_of_node (hab ▸ hcd ▸ h)).2

lemma fromPair_comm (H : Sha256) (a b : MerkleHash) : fromPair H a b = fromPair H b a :=
  congrArg H (pairInput_comm a b)

end MerkleHash
end Inputs

namespace AirdropMerkleTree
variable {H : Sha256} {allocations : List Allocation} {tree : AirdropMerkleTree} {r : MerkleHash}
  {proof : List MerkleHash} {a : Allocation}

lemma tryFrom_of_ne (h : allocations ≠ []) : tryFrom H allocations
    = .ok ⟨allocations, Merkle.layers (MerkleHash.fromPair H) (allocations.map (Allocation.toMerkleHash H))⟩ := by
  rw [tryFrom, Exec.require, if_pos h]
  rfl

lemma root_eq_ok : tree.root = .ok r ↔ Merkle.root tree.merkleLayers = some r :=
  okOr_eq_ok

lemma getElem?_sibling (layer : List MerkleHash) (i : Nat) :
    layer[if layer.length ≤ (if i % 2 = 0 then i + 1 else i - 1) then i else if i % 2 = 0 then i + 1 else i - 1]?
      = Merkle.neighbour layer i := by
  unfold Merkle.neighbour
  by_cases he : i % 2 = 0
  · simp only [if_pos he]
    by_cases hl : layer.length ≤ i + 1
    · rw [if_pos hl, if_neg (by omega)]
    · rw [if_neg hl, if_pos (by omega)]
  · simp only [if_neg he]
    split
    · -- neither of the two is in the layer
      rw [getElem?_eq_none (by omega), getElem?_eq_none (by omega)]
    · rfl

lemma proofFrom_eq_ok {layers : List (List MerkleHash)} {i : Nat} (h : Merkle.path layers i = some proof) :
    proofFrom layers i = .ok proof := by
  induction layers generalizing i proof with
  | nil =>
    cases h
    rfl
  | cons layer layers ih =>
    rw [Merkle.path] at h
    rw [proofFrom]
    split at h
    · rename_i hone
      cases h
      rw [if_pos hone]
    · rename_i hone
      obtain ⟨y, hy, h⟩ := Option.bind_eq_some_iff.mp h
      obtain ⟨ys, hys, h⟩ := Option.bind_eq_some_iff.mp h
      cases h
      rw [if_neg hone]
      simp only [getElem?_sibling, hy, unwrap_some, ih hys, ok_bind]

lemma proof_complete (H : Sha256) {i : Nat} (ha : allocations[i]? = some a) :
    ∃ tree root proof, tryFrom H allocations = .ok tree ∧ tree.root = .ok root
      ∧ tree.proofAtAllocationIndex i = .ok proof ∧ root.isValidProof H (a.toMerkleHash H) proof = true := by
  have hleaf : (allocations.map (Allocation.toMerkleHash H))[i]? = some (a.toMerkleHash H) := by
    rw [getElem?_map, ha]
    rfl
  obtain ⟨proof, hp, hr⟩ := Merkle.foldl_path (MerkleHash.fromPair_comm H) hleaf
  refine ⟨_, _, proof, tryFrom_of_ne ?_, root_eq_ok.mpr hr, proofFrom_eq_ok hp, beq_self_eq_true _⟩
  rintro rfl
  cases ha

lemma eq_of_tryFrom (h : tryFrom H allocations = .ok tree) :
    tree = ⟨allocations, Merkle.layers (MerkleHash.fromPair H) (allocations.map (Allocation.toMerkleHash H))⟩ := by
  by_cases hne : allocations = []
  · subst hne
    cases h
  · rw [tryFrom_of_ne hne] at h
    exact (Except.ok.inj h).symm

lemma partsInput_mem_hashed (h : a ∈ tree.allocations) : MerkleHash.partsInput a.parts ∈ tree.hashed :=
  mem_append_left _ (mem_map_of_mem h)

lemma pairInput_mem_hashed {layer : List MerkleHash} (h : layer ∈ tree.merkleLayers) (hl : 1 < layer.length)
    {p : MerkleHash × MerkleHash} (hp : p ∈ Merkle.pairs layer) : MerkleHash.pairInput p.1 p.2 ∈ tree.hashed := by
  refine mem_append_right _ (mem_flatMap.mpr ⟨layer, ?_, mem_map_of_mem hp⟩)
  exact mem_filter.mpr ⟨h, decide_eq_true hl⟩

def nodes (tree : AirdropMerkleTree) : Set MerkleHash := {h | ∃ layer ∈ tree.merkleLayers, h ∈ layer}

lemma mem_nodes (htree : tryFrom H allocations = .ok tree) {h : MerkleHash} (hh : h ∈ tree.nodes) :
    h ∈ allocations.map (Allocation.toMerkleHash H)
      ∨ ∃ x ∈ tree.nodes, ∃ y ∈ tree.nodes, MerkleHash.pairInput x y ∈ tree.hashed ∧ h = MerkleHash.fromPair H x y := by
  obtain rfl := eq_of_tryFrom htree
  obtain ⟨layer, hlayer, hh⟩ := hh
  obtain hleaf | ⟨below, hb, hl, p, hp, rfl⟩ := Merkle.mem_layers hlayer hh
  · exact .inl hleaf
  · obtain ⟨hx, hy⟩ := Merkle.mem_of_mem_pairs hp
    exact .inr ⟨p.1, ⟨below, hb, hx⟩, p.2, ⟨below, hb, hy⟩, pairInput_mem_hashed hb hl hp, rfl⟩

lemma proof_sound (htree : tryFrom H allocations = .ok tree) (hroot : tree.root = .ok r)
    (hfree : CollisionFree H (tree.hashed ++ a.hashed H proof))
    (hvalid : r.isValidProof H (a.toMerkleHash H) proof = true) : a ∈ allocations := by
  have hallocations : tree.allocations = allocations := by rw [eq_of_tryFrom htree]
  have hin : ∀ b ∈ allocations, MerkleHash.partsInput b.parts ∈ tree.hashed ++ a.hashed H proof := by
    intro b hb
    exact mem_append_left _ (partsInput_mem_hashed (hallocations.symm ▸ hb))
  have hself : MerkleHash.partsInput a.parts ∈ tree.hashed ++ a.hashed H proof :=
    mem_append_right _ mem_cons_self
  -- the leaf of the proof is a node of the tree
  have hmem : a.toMerkleHash H ∈ tree.nodes := by
    have hend : proof.foldl (MerkleHash.fromPair H) (a.toMerkleHash H) ∈ tree.nodes := by
      rw [eq_of_beq hvalid]
      exact Merkle.root_mem (root_eq_ok.mp hroot)
    refine Merkle.mem_of_foldl tree.nodes {h | h ∈ allocations.map (Allocation.toMerkleHash H)}
      (fun x y => MerkleHash.pairInput x y ∈ tree.hashed ++ a.hashed H proof) ?_ ?_ ?_ ?_ hend
    · intro h hh
      obtain hleaf | ⟨x, hx, y, hy, hxy, he⟩ := mem_nodes htree hh
      · exact .inl hleaf
      · exact .inr ⟨x, hx, y, hy, mem_append_left _ hxy, he⟩
    · intro h hh x y hxy he
      obtain ⟨b, hb, rfl⟩ := mem_map.mp hh
      exact MerkleHash.partsInput_ne_pairInput _ _ _ (hfree _ (hin b hb) _ hxy he)
    · intro x y z w hxy hzw he
      exact MerkleHash.eq_or_eq_of_pairInput (hfree _ hxy _ hzw he)
    · intro p hp
      exact mem_append_right _ (mem_cons_of_mem _ (mem_map_of_mem hp))
  -- and since it is tagged as a leaf it is one of the leaves
  obtain hleaf | ⟨x, _, y, _, hxy, he⟩ := mem_nodes htree hmem
  · obtain ⟨b, hb, he⟩ := mem_map.mp hleaf
    rw [← Allocation.eq_of_partsInput (hfree _ (hin b hb) _ hself he)]
    exact hb
  · exact absurd (hfree _ hself _ (mem_append_left _ hxy) he) (MerkleHash.partsInput_ne_pairInput _ _ _)

/-- Two claimers, the second of which has two allocations. -/
def threeAllocations : List Allocation :=
  [⟨1, 0, ⟨10, 100, 1000⟩⟩, ⟨2, 0, ⟨10, 0, 500⟩⟩, ⟨2, 1, ⟨20, 50, 300⟩⟩]

/-- The tree over the three allocations. The last one is its own neighbour. -/
def threeTree : AirdropMerkleTree where
  allocations := threeAllocations
  merkleLayers :=
    Merkle.layers (MerkleHash.fromPair digitsHash) (threeAllocations.map (Allocation.toMerkleHash digitsHash))

/-- Proofs of allocations are complete and sound: the proof that the tool makes for any index is accepted against the root,
and an allocation that is accepted with whatever proof is in the list, unless two different values that are hashed on the
way have the same hash. -/
theorem proofs_complete_and_sound (H : Sha256) {allocations : List Allocation} (hne : allocations ≠ []) :
    ∃ tree root, tryFrom H allocations = .ok tree ∧ tree.root = .ok root
      ∧ (∀ i a, allocations[i]? = some a → ∃ proof, tree.proofAtAllocationIndex i = .ok proof
        ∧ root.isValidProof H (a.toMerkleHash H) proof = true)
      ∧ ∀ a proof, CollisionFree H (tree.hashed ++ a.hashed H proof) →
        root.isValidProof H (a.toMerkleHash H) proof = true → a ∈ allocations := by
  obtain ⟨a, rest, rfl⟩ := exists_cons_of_ne_nil hne
  have hfirst : (a :: rest)[0]? = some a := rfl
  obtain ⟨tree, root, _, htree, hroot, _, _⟩ := proof_complete H hfirst
  refine ⟨tree, root, htree, hroot, ?_, ?_⟩
  · intro i b hb
    obtain ⟨tree', root', proof, htree', hroot', hp, hv⟩ := proof_complete H hb
    obtain rfl := Except.ok.inj (htree.symm.trans htree')
    obtain rfl := Except.ok.inj (hroot.symm.trans hroot')
    exact ⟨proof, hp, hv⟩
  · intro b proof hfree hv
    exact proof_sound htree hroot hfree hv

/-- The proof of the third of three allocations is valid for it. -/
theorem proofs_complete_and_sound_three :
    ∃ tree root proof, tryFrom digitsHash threeAllocations = .ok tree ∧ tree.root = .ok root
      ∧ tree.proofAtAllocationIndex 2 = .ok proof
      ∧ CollisionFree digitsHash (tree.hashed ++ Allocation.hashed digitsHash ⟨2, 1, ⟨20, 50, 300⟩⟩ proof)
      ∧ root.isValidProof digitsHash (Allocation.toMerkleHash digitsHash ⟨2, 1, ⟨20, 50, 300⟩⟩) proof = true
      ∧ ⟨2, 1, ⟨20, 50, 300⟩⟩ ∈ threeAllocations := by
  obtain ⟨tree, root, htree, hroot, hcomplete, hsound⟩ :=
    proofs_complete_and_sound digitsHash (cons_ne_nil _ _ : threeAllocations ≠ [])
  obtain ⟨proof, hp, hvalid⟩ := hcomplete 2 ⟨2, 1, ⟨20, 50, 300⟩⟩ rfl
  have hfree : CollisionFree digitsHash (tree.hashed ++ Allocation.hashed digitsHash ⟨2, 1, ⟨20, 50, 300⟩⟩ proof) := by
    obtain rfl : tree = threeTree := eq_of_tryFrom htree
    obtain rfl : (threeTree.proofAtAllocationIndex 2).toOption.getD [] = proof := by
      rw [hp]
      rfl
    decide +kernel
  exact ⟨tree, root, proof, htree, hroot, hp, hfree, hvalid, hsound _ _ hfree hvalid⟩

end AirdropMerkleTree
end Leviathan
