import Leviathan.Core.Identity
import Leviathan.Lib.Merkle

/-!
# The Merkle tree of the shared core

`shared/core/src/merkle_tree.rs`: a tree whose levels lie one behind the other in one vector, proofs that borrow from
the tree and proofs that own their hashes.

`new_eq_ok` says that the vector is the one of `Merkle.layers`, and `findPath_eq_ok` that the walk of `find_path`
through it meets one node of each level and its neighbour (`Climb`). The rest is about `Climb` only.
-/

namespace Leviathan
open Exec List

abbrev HashWrapper := Bytes32

/-- The aborts of the functions on trees. -/
inductive MerklePanic where
  | indexOutOfBounds   -- `nodes[..]`, `level[..]`
  | siblings           -- `assert!(left_sibling.is_none() ^ right_sibling.is_none())` in `ProofEntry::new`
deriving DecidableEq, Repr

/-- The bytes that are hashed for a leaf (Rust `LEAF_PREFIX`). -/
def leafInput (item : Bytes) : Bytes := 0 :: item

/-- The bytes that are hashed for two siblings (Rust `INTERMEDIATE_PREFIX`). -/
def intermediateInput (l r : HashWrapper) : Bytes := 1 :: (l.bytes ++ r.bytes)

def hashLeaf (H : Sha256) (item : Bytes) : HashWrapper := H (leafInput item)

def hashIntermediate (H : Sha256) (l r : HashWrapper) : HashWrapper := H (intermediateInput l r)

lemma intermediateInput_inj {a b c d : HashWrapper} (h : intermediateInput a b = intermediateInput c d) :
    a = c ∧ b = d :=
  Bytes32.eq_of_append (List.cons.inj h).2

structure ProofEntry where
  target : HashWrapper
  leftSibling : Option HashWrapper
  rightSibling : Option HashWrapper
deriving DecidableEq, Repr

def ProofEntry.new (target : HashWrapper) (leftSibling rightSibling : Option HashWrapper) :
    Exec Empty MerklePanic ProofEntry := do
  Exec.ensure (leftSibling.isNone ≠ rightSibling.isNone) .siblings
  .ok ⟨target, leftSibling, rightSibling⟩

abbrev Proof := List ProofEntry

structure OwnedProofEntry where
  target : HashWrapper
  leftSibling : Option HashWrapper
  rightSibling : Option HashWrapper
deriving DecidableEq, Repr

structure OwnedProof where
  entries : List OwnedProofEntry
deriving DecidableEq, Repr

/-- Rust `From<ProofEntry> for OwnedProofEntry`. -/
def OwnedProofEntry.ofProofEntry (pe : ProofEntry) : OwnedProofEntry := ⟨pe.target, pe.leftSibling, pe.rightSibling⟩

/-- Rust `From<Proof> for OwnedProof`. -/
def OwnedProof.ofProof (proof : Proof) : OwnedProof := ⟨proof.map OwnedProofEntry.ofProofEntry⟩

/-- One step of a verification: the hash of the two siblings if it is the target. -/
def verifyStep (H : Sha256) (target lsib rsib : HashWrapper) : Option HashWrapper :=
  if hashIntermediate H lsib rsib = target then some (hashIntermediate H lsib rsib) else none

def Proof.verify (H : Sha256) (proof : Proof) (candidate : HashWrapper) : Bool :=
  (proof.foldlM (fun candidate pe =>
    verifyStep H pe.target (pe.leftSibling.getD candidate) (pe.rightSibling.getD candidate)) candidate).isSome

/-- Rust `OwnedProof::verify`. The right sibling is hashed first. -/
def OwnedProof.verify (H : Sha256) (proof : OwnedProof) (candidate : HashWrapper) : Bool :=
  (proof.entries.foldlM (fun candidate pe =>
    verifyStep H pe.target (pe.rightSibling.getD candidate) (pe.leftSibling.getD candidate)) candidate).isSome

/-- What is hashed to verify a candidate. After the first entry the candidates are the targets. -/
def Proof.hashed : Proof → HashWrapper → List Bytes
  | [], _ => []
  | pe :: proof, candidate =>
    intermediateInput (pe.leftSibling.getD candidate) (pe.rightSibling.getD candidate) :: hashed proof pe.target

/-- A proof with the two sides of each entry exchanged. -/
def Proof.mirror (proof : Proof) : Proof := proof.map fun pe => ⟨pe.target, pe.rightSibling, pe.leftSibling⟩

/-- Each hash on the way up from a candidate is combined with an equal one. -/
def Proof.Symmetric : Proof → HashWrapper → Prop
  | [], _ => True
  | pe :: proof, candidate =>
    pe.leftSibling.getD candidate = pe.rightSibling.getD candidate ∧ Symmetric proof pe.target

def Proof.getRoot (proof : Proof) : Option HashWrapper := proof.getLast?.map ProofEntry.target

structure MerkleTree where
  leafCount : Nat
  nodes : List HashWrapper
deriving DecidableEq, Repr

namespace MerkleTree

def nextLevelLen (levelLen : Nat) : Nat := if levelLen = 1 then 0 else (levelLen + 1) / 2

/-- Rust `nodes[index]`. -/
def nodeAt (nodes : List HashWrapper) (index : Nat) : Exec Empty MerklePanic HashWrapper :=
  Exec.unwrap nodes[index]? .indexOutOfBounds

/-- The body of the inner loop of `new`, which adds node `i` of a level. -/
def pushParent (H : Sha256) (prevLevelStart prevLevelLen : Nat) (nodes : List HashWrapper) (i : Nat) :
    Exec Empty MerklePanic (List HashWrapper) := do
  let prevLevelIdx := 2 * i
  let lsib ← nodeAt nodes (prevLevelStart + prevLevelIdx)
  let rsib ← nodeAt nodes
    (if prevLevelIdx + 1 < prevLevelLen then prevLevelStart + prevLevelIdx + 1 else prevLevelStart + prevLevelIdx)
  .ok (nodes ++ [hashIntermediate H lsib rsib])

/-- The outer loop of `new`. -/
def pushLevels (H : Sha256) : Nat → (levelLen levelStart prevLevelLen prevLevelStart : Nat) → List HashWrapper →
    Exec Empty MerklePanic (List HashWrapper)
  | 0, _, _, _, _, nodes => .ok nodes
  | fuel + 1, levelLen, levelStart, prevLevelLen, prevLevelStart, nodes =>
    if 0 < levelLen then do
      let nodes ← (List.range levelLen).foldlM (pushParent H prevLevelStart prevLevelLen) nodes
      pushLevels H fuel (nextLevelLen levelLen) (levelStart + levelLen) levelLen levelStart nodes
    else
      .ok nodes

def new (H : Sha256) (items : List Bytes) : Exec Empty MerklePanic MerkleTree := do
  let nodes ← pushLevels H items.length (nextLevelLen items.length) items.length items.length 0 (items.map (hashLeaf H))
  .ok ⟨items.length, nodes⟩

def getRoot (tree : MerkleTree) : Option HashWrapper := tree.nodes.getLast?

/-- Rust `&nodes[start..start + len]`. -/
def sliceAt (nodes : List HashWrapper) (start len : Nat) : Exec Empty MerklePanic (List HashWrapper) := do
  Exec.ensure (start + len ≤ nodes.length) .indexOutOfBounds
  .ok ((nodes.drop start).take len)

/-- The entry for a target, which the first level has none of. -/
def pushEntry (target : HashWrapper) (lsib rsib : Option HashWrapper) (path : Proof) : Exec Empty MerklePanic Proof :=
  if lsib.isSome ∨ rsib.isSome then do
    let entry ← ProofEntry.new target lsib rsib
    .ok (path ++ [entry])
  else
    .ok path

/-- The siblings of a node for the next level. -/
def siblings (level : List HashWrapper) (nodeIndex : Nat) :
    Exec Empty MerklePanic (Option HashWrapper × Option HashWrapper) :=
  if nodeIndex % 2 = 0 then do
    let rsib ← nodeAt level (if nodeIndex + 1 < level.length then nodeIndex + 1 else nodeIndex)
    .ok (none, some rsib)
  else do
    let lsib ← nodeAt level (nodeIndex - 1)
    .ok (some lsib, none)

/-- The loop of `find_path`. -/
def walk (nodes : List HashWrapper) : Nat → (levelLen levelStart nodeIndex : Nat) → (lsib rsib : Option HashWrapper) →
    Proof → Exec Empty MerklePanic Proof
  | 0, _, _, _, _, _, path => .ok path
  | fuel + 1, levelLen, levelStart, nodeIndex, lsib, rsib, path =>
    if 0 < levelLen then do
      let level ← sliceAt nodes levelStart levelLen
      let target ← nodeAt level nodeIndex
      let path ← pushEntry target lsib rsib path
      let sibs ← siblings level nodeIndex
      walk nodes fuel (nextLevelLen levelLen) (levelStart + levelLen) (nodeIndex / 2) sibs.1 sibs.2 path
    else
      .ok path

def findPath (tree : MerkleTree) (index : Nat) : Exec Empty MerklePanic (Option Proof) :=
  if tree.leafCount ≤ index then
    .ok none
  else do
    let path ← walk tree.nodes (tree.leafCount + 1) tree.leafCount 0 index none none []
    .ok (some path)

section Levels
variable {H : Sha256} {before l : List HashWrapper}

lemma nextLevelLen_of_lt {n : Nat} (h : 1 < n) : nextLevelLen n = (n + 1) / 2 := if_neg (by omega)

lemma nextLevelLen_of_le {n : Nat} (h : n ≤ 1) : nextLevelLen n = 0 := by
  unfold nextLevelLen
  split <;> omega

lemma nodeAt_eq_ok {nodes : List HashWrapper} {i : Nat} {x : HashWrapper} : nodeAt nodes i = .ok x ↔ nodes[i]? = some x :=
  unwrap_eq_ok

lemma getElem?_before (after : List HashWrapper) {i : Nat} (hi : i < l.length) :
    (before ++ l ++ after)[before.length + i]? = l[i]? := by
  rw [append_assoc, getElem?_append_right (Nat.le_add_right _ _), Nat.add_sub_cancel_left, getElem?_append_left hi]

lemma sliceAt_before (after : List HashWrapper) : sliceAt (before ++ l ++ after) before.length l.length = .ok l := by
  unfold sliceAt
  rw [ensure_of (by simp only [length_append]; omega), append_assoc, drop_left, ok_bind, take_left]

lemma pushParent_eq_ok (H : Sha256) (before after : List HashWrapper) {i : Nat} (hi : 2 * i < l.length) :
    ∃ x, (Merkle.parents (hashIntermediate H) l)[i]? = some x
      ∧ pushParent H before.length l.length (before ++ l ++ after) i = .ok (before ++ l ++ after ++ [x]) := by
  obtain ⟨a, ha⟩ : ∃ a, l[2 * i]? = some a := ⟨_, getElem?_eq_getElem hi⟩
  obtain ⟨b, hb, hpair⟩ := Merkle.getElem?_pairs ha
  rw [if_pos (by omega), Nat.mul_div_cancel_left i Nat.two_pos] at hpair
  rw [Merkle.neighbour, if_pos (by omega)] at hb
  refine ⟨hashIntermediate H a b, ?_, ?_⟩
  · rw [Merkle.parents, getElem?_map, hpair]
    rfl
  · have hl : nodeAt (before ++ l ++ after) (before.length + 2 * i) = .ok a := by
      rw [nodeAt_eq_ok, getElem?_before after hi, ha]
    have hr : nodeAt (before ++ l ++ after)
        (if 2 * i + 1 < l.length then before.length + 2 * i + 1 else before.length + 2 * i) = .ok b := by
      rw [nodeAt_eq_ok]
      split at hb
      · rename_i hlt
        rw [if_pos hlt, Nat.add_assoc, getElem?_before after hlt, hb]
      · rename_i hlt
        rw [if_neg hlt, getElem?_before after hi, hb]
    simp only [pushParent, hl, hr, ok_bind]

lemma foldlM_pushParent {k : Nat} (hk : k ≤ (l.length + 1) / 2) :
    (List.range k).foldlM (pushParent H before.length l.length) (before ++ l)
      = .ok (before ++ l ++ (Merkle.parents (hashIntermediate H) l).take k) := by
  induction k with
  | zero => simp
  | succ k ih =>
    obtain ⟨x, hx, hpush⟩ := pushParent_eq_ok H before ((Merkle.parents (hashIntermediate H) l).take k)
      (by omega : 2 * k < l.length)
    rw [range_succ, foldlM_append, ih (by omega), ok_bind, foldlM_cons, hpush, take_add_one, hx]
    simp

lemma pushLevels_eq_ok (H : Sha256) (before : List HashWrapper) {fuel : Nat} (hl : l.length ≤ fuel + 1) :
    pushLevels H fuel (nextLevelLen l.length) (before.length + l.length) l.length before.length (before ++ l)
      = .ok (before ++ (Merkle.layersFrom (hashIntermediate H) fuel l).flatten) := by
  induction fuel generalizing before l with
  | zero => simp [pushLevels, Merkle.layersFrom]
  | succ fuel ih =>
    rw [pushLevels, Merkle.layersFrom]
    by_cases hlen : 1 < l.length
    · have hparents : (Merkle.parents (hashIntermediate H) l).length = nextLevelLen l.length := by
        rw [Merkle.length_parents, nextLevelLen_of_lt hlen]
      have hih := ih (before ++ l) (l := Merkle.parents (hashIntermediate H) l)
        (by rw [Merkle.length_parents]; omega)
      rw [hparents, length_append] at hih
      rw [if_pos (by rw [nextLevelLen_of_lt hlen]; omega), foldlM_pushParent (by rw [nextLevelLen_of_lt hlen]),
        ok_bind, take_of_length_le (by rw [hparents]), hih, if_pos hlen, flatten_cons, append_assoc]
    · rw [if_neg (by rw [nextLevelLen_of_le (by omega)]; omega), if_neg hlen]
      simp

lemma new_eq_ok (H : Sha256) (items : List Bytes) : new H items
    = .ok ⟨items.length, (Merkle.layers (hashIntermediate H) (items.map (hashLeaf H))).flatten⟩ := by
  have h := pushLevels_eq_ok H [] (show (items.map (hashLeaf H)).length ≤ items.length + 1 by rw [length_map]; omega)
  simp only [length_map, length_nil, Nat.zero_add, nil_append] at h
  rw [new, h, Merkle.layers, length_map]
  rfl

end Levels

/-- The entries on the way up from one hash to another, each with the hash that the one below is combined with. -/
inductive Climb (H : Sha256) : HashWrapper → Proof → HashWrapper → Prop
  | done (x : HashWrapper) : Climb H x [] x
  | left {x y r : HashWrapper} {path : Proof} : Climb H (hashIntermediate H x y) path r →
      Climb H x (⟨hashIntermediate H x y, none, some y⟩ :: path) r
  | right {x y r : HashWrapper} {path : Proof} : Climb H (hashIntermediate H y x) path r →
      Climb H x (⟨hashIntermediate H y x, some y, none⟩ :: path) r

/-- The sides on which an index has its neighbour. -/
def sides (i : Nat) (y : HashWrapper) : Option HashWrapper × Option HashWrapper :=
  if i % 2 = 0 then (none, some y) else (some y, none)

/-- The hash of a node at an index with its neighbour. -/
def joined (H : Sha256) (i : Nat) (x y : HashWrapper) : HashWrapper :=
  if i % 2 = 0 then hashIntermediate H x y else hashIntermediate H y x

section Paths
variable {H : Sha256} {before l : List HashWrapper} {i : Nat} {x : HashWrapper} {path path' : Proof}
  {lsib rsib : Option HashWrapper}

lemma siblings_eq_ok (hx : l[i]? = some x) :
    ∃ y, siblings l i = .ok (sides i y) ∧ (Merkle.parents (hashIntermediate H) l)[i / 2]? = some (joined H i x y) := by
  obtain ⟨y, hy, hpair⟩ := Merkle.getElem?_pairs hx
  unfold Merkle.neighbour at hy
  refine ⟨y, ?_, ?_⟩
  · unfold siblings sides
    by_cases he : i % 2 = 0
    · rw [if_pos he] at hy ⊢
      rw [if_pos he, nodeAt_eq_ok.mpr hy, ok_bind]
    · rw [if_neg he] at hy ⊢
      rw [if_neg he, nodeAt_eq_ok.mpr hy, ok_bind]
  · rw [Merkle.parents, getElem?_map, hpair, joined]
    split <;> rfl

lemma pushEntry_sides (i : Nat) (target y : HashWrapper) (path : Proof) :
    pushEntry target (sides i y).1 (sides i y).2 path = .ok (path ++ [⟨target, (sides i y).1, (sides i y).2⟩]) := by
  unfold sides
  split <;> rfl

/-- One level up, on the side that the index gives. -/
lemma Climb.step {y r : HashWrapper} (h : Climb H (joined H i x y) path r) :
    Climb H x (⟨joined H i x y, (sides i y).1, (sides i y).2⟩ :: path) r := by
  unfold joined sides at *
  split at h
  · rename_i he
    rw [if_pos he, if_pos he]
    exact .left h
  · rename_i he
    rw [if_neg he, if_neg he]
    exact .right h

lemma walk_level (before after : List HashWrapper) (fuel : Nat) {sibs : Option HashWrapper × Option HashWrapper}
    (hx : l[i]? = some x) (hpush : pushEntry x lsib rsib path = .ok path') (hsibs : siblings l i = .ok sibs) :
    walk (before ++ l ++ after) (fuel + 1) l.length before.length i lsib rsib path
      = walk (before ++ l ++ after) fuel (nextLevelLen l.length) (before.length + l.length) (i / 2) sibs.1 sibs.2 path' := by
  have hpos : 0 < l.length := Nat.zero_lt_of_lt (List.getElem?_eq_some_iff.mp hx).1
  rw [walk, if_pos hpos, sliceAt_before, Exec.ok_bind, nodeAt_eq_ok.mpr hx, Exec.ok_bind, hpush, Exec.ok_bind, hsibs,
    Exec.ok_bind]

lemma walk_zero (nodes : List HashWrapper) (fuel levelStart i : Nat) (lsib rsib : Option HashWrapper) (path : Proof) :
    walk nodes fuel 0 levelStart i lsib rsib path = .ok path := by
  cases fuel <;> rfl

lemma walk_root (before : List HashWrapper) (fuel : Nat) (hl : l.length = 1) (hx : l[i]? = some x)
    (hpush : pushEntry x lsib rsib path = .ok path') :
    ∃ entries r, walk (before ++ [l].flatten) (fuel + 1) l.length before.length i lsib rsib path = .ok (path' ++ entries)
      ∧ Climb H x entries r ∧ [l].flatten.getLast? = some r ∧ (entries = [] ↔ l.length = 1) := by
  obtain ⟨y, rfl⟩ := length_eq_one_iff.mp hl
  obtain rfl : i = 0 := by simpa using (List.getElem?_eq_some_iff.mp hx).1
  obtain ⟨_, hsibs, _⟩ := siblings_eq_ok (H := H) hx
  have h := walk_level before [] fuel hx hpush hsibs
  rw [append_nil] at h
  refine ⟨[], x, ?_, .done x, hx, iff_of_true rfl hl⟩
  rw [flatten_singleton, h, nextLevelLen_of_le (Nat.le_of_eq hl), walk_zero, append_nil]

lemma walk_eq_ok (before : List HashWrapper) {fuel : Nat} (hl : l.length ≤ fuel + 1) (hx : l[i]? = some x)
    (hpush : pushEntry x lsib rsib path = .ok path') :
    ∃ entries r, walk (before ++ (Merkle.layersFrom (hashIntermediate H) fuel l).flatten) (fuel + 1) l.length before.length i
        lsib rsib path = .ok (path' ++ entries)
      ∧ Climb H x entries r ∧ (Merkle.layersFrom (hashIntermediate H) fuel l).flatten.getLast? = some r
      ∧ (entries = [] ↔ l.length = 1) := by
  induction fuel generalizing before l i x lsib rsib path path' with
  | zero =>
    have hi := (List.getElem?_eq_some_iff.mp hx).1
    exact walk_root before 0 (by omega) hx hpush
  | succ fuel ih =>
    have hi := (List.getElem?_eq_some_iff.mp hx).1
    rw [Merkle.layersFrom]
    by_cases hlen : 1 < l.length
    · rw [if_pos hlen, flatten_cons, ← append_assoc]
      -- the next level lies behind this one, and this one has left its siblings
      obtain ⟨y, hsibs, hparent⟩ := siblings_eq_ok (H := H) hx
      obtain ⟨entries, r, hwalk, hclimb, hlast, _⟩ :=
        ih (before ++ l) (by rw [Merkle.length_parents]; omega) hparent (pushEntry_sides i _ _ _)
      rw [Merkle.length_parents, length_append] at hwalk
      refine ⟨_ :: entries, r, ?_, hclimb.step, ?_, iff_of_false (cons_ne_nil _ _) (by omega)⟩
      · rw [walk_level _ _ _ hx hpush hsibs, nextLevelLen_of_lt hlen, hwalk, append_assoc]
        rfl
      · rw [getLast?_append, hlast]
        rfl
    · rw [if_neg hlen]
      exact walk_root before (fuel + 1) (by omega) hx hpush

lemma findPath_eq_ok (H : Sha256) {items : List Bytes} {item : Bytes} (h : items[i]? = some item) :
    ∃ tree path r, new H items = .ok tree ∧ tree.findPath i = .ok (some path) ∧ Climb H (hashLeaf H item) path r
      ∧ tree.getRoot = some r ∧ (path = [] ↔ items.length = 1) := by
  have hleaf : (items.map (hashLeaf H))[i]? = some (hashLeaf H item) := by
    rw [List.getElem?_map, h]
    rfl
  have hi := (List.getElem?_eq_some_iff.mp h).1
  obtain ⟨path, r, hwalk, hclimb, hlast, hone⟩ := walk_eq_ok (H := H) []
    (show (items.map (hashLeaf H)).length ≤ items.length + 1 by rw [List.length_map]; omega) hleaf
    (show pushEntry (hashLeaf H item) none none [] = .ok [] from rfl)
  rw [List.length_map] at hwalk hone
  refine ⟨_, path, r, new_eq_ok H items, ?_, hclimb, ?_, hone⟩
  · rw [findPath, if_neg (Nat.not_le_of_lt hi), Merkle.layers, List.length_map]
    exact congrArg (fun w => w >>= fun path => Except.ok (some path)) hwalk
  · rw [getRoot, Merkle.layers, List.length_map]
    exact hlast

end Paths

section Verification
variable {H : Sha256} {x c r : HashWrapper} {path : Proof}

lemma verify_cons (pe : ProofEntry) (path : Proof) (c : HashWrapper) : Proof.verify H (pe :: path) c = true ↔
    hashIntermediate H (pe.leftSibling.getD c) (pe.rightSibling.getD c) = pe.target
      ∧ Proof.verify H path pe.target = true := by
  unfold Proof.verify
  rw [foldlM_cons, verifyStep]
  split
  · rename_i he
    rw [he]
    exact (and_iff_right rfl).symm
  · rename_i he
    exact iff_of_false Bool.false_ne_true fun h => he h.1

lemma ofProof_verify (path : Proof) (c : HashWrapper) :
    (OwnedProof.ofProof path).verify H c = Proof.verify H path.mirror c := by
  unfold OwnedProof.verify Proof.verify OwnedProof.ofProof Proof.mirror
  rw [foldlM_map, foldlM_map]
  rfl

lemma Climb.verify (h : Climb H x path r) : path.verify H x = true := by
  induction h with
  | done x => rfl
  | left _ ih | right _ ih => exact (verify_cons _ _ _).mpr ⟨rfl, ih⟩

lemma getRoot_cons (pe : ProofEntry) (path : Proof) : Proof.getRoot (pe :: path) = some (path.getRoot.getD pe.target) := by
  unfold Proof.getRoot
  rw [getLast?_cons]
  cases path.getLast? <;> rfl

lemma Climb.getRoot (h : Climb H x path r) : path.getRoot.getD x = r := by
  induction h with
  | done x => rfl
  | left _ ih | right _ ih =>
    rw [getRoot_cons]
    exact ih

lemma Climb.eq_of_verify (h : Climb H x path r) (hne : path ≠ []) (hfree : CollisionFree H (path.hashed c ++ path.hashed x))
    (hv : path.verify H c = true) : c = x := by
  have hinput : ∀ {a b}, a ∈ path.hashed c → b ∈ path.hashed x → H a = H b → a = b := by
    intro a b ha hb
    exact hfree a (mem_append_left _ ha) b (mem_append_right _ hb)
  cases h with
  | done => exact absurd rfl hne
  | left _ =>
    exact (intermediateInput_inj (hinput mem_cons_self mem_cons_self ((verify_cons _ _ _).mp hv).1)).1
  | right _ =>
    exact (intermediateInput_inj (hinput mem_cons_self mem_cons_self ((verify_cons _ _ _).mp hv).1)).2

lemma Climb.mirror (h : Climb H x path r) (hsym : path.Symmetric x) :
    Climb H x path.mirror r ∧ path.mirror.hashed x = path.hashed x := by
  induction h with
  | done x => exact ⟨.done x, rfl⟩
  | left _ ih =>
    obtain ⟨hxy, hsym⟩ := hsym
    cases hxy
    obtain ⟨hclimb, hhashed⟩ := ih hsym
    exact ⟨.right hclimb, congrArg _ hhashed⟩
  | right _ ih =>
    obtain ⟨hxy, hsym⟩ := hsym
    cases hxy
    obtain ⟨hclimb, hhashed⟩ := ih hsym
    exact ⟨.left hclimb, congrArg _ hhashed⟩

lemma Climb.symmetric (h : Climb H x path r) (hfree : CollisionFree H (path.hashed x ++ path.mirror.hashed x))
    (hv : path.mirror.verify H x = true) : path.Symmetric x := by
  induction h with
  | done x => trivial
  | left _ ih | right _ ih =>
    obtain ⟨hhash, hv⟩ := (verify_cons _ _ _).mp hv
    refine ⟨?_, ih (hfree.mono ?_) hv⟩
    · have hin := hfree _ (mem_append_right _ mem_cons_self) _ (mem_append_left _ mem_cons_self) hhash
      exact (intermediateInput_inj hin).2
    · exact append_subset.mpr ⟨fun _ hm => mem_append_left _ (mem_cons_of_mem _ hm),
        fun _ hm => mem_append_right _ (mem_cons_of_mem _ hm)⟩

lemma Climb.mirror_verify_eq (h : Climb H x path r) (hsym : path.Symmetric x)
    (hfree : CollisionFree H (path.hashed c ++ path.mirror.hashed c ++ path.hashed x)) :
    path.mirror.verify H c = path.verify H c := by
  by_cases hne : path = []
  · subst hne
    rfl
  · obtain ⟨hmirror, hhashed⟩ := h.mirror hsym
    -- both accept the hash the path starts from and nothing else
    rw [Bool.eq_iff_iff]
    constructor
    · intro hv
      rw [← hhashed, append_assoc] at hfree
      rw [hmirror.eq_of_verify (mt map_eq_nil_iff.mp hne) (hfree.mono (subset_append_right _ _)) hv]
      exact h.verify
    · intro hv
      rw [h.eq_of_verify hne (hfree.mono ?_) hv]
      · exact hmirror.verify
      · exact append_subset.mpr ⟨fun _ hm => mem_append_left _ (mem_append_left _ hm),
          subset_append_right _ _⟩

end Verification

/-- The path that `digitsHash` gives for an index. -/
def pathOf (items : List Bytes) (i : Nat) : Proof :=
  ((new digitsHash items).toOption.bind fun tree => (tree.findPath i).toOption.join).getD []

lemma pathOf_eq {items : List Bytes} {i : Nat} {tree : MerkleTree} {path : Proof} (htree : new digitsHash items = .ok tree)
    (hpath : tree.findPath i = .ok (some path)) : pathOf items i = path := by
  rw [pathOf, htree, Except.toOption, Option.bind_some, hpath]
  rfl

/-- Of two items or more each has a path, which verifies the hash of the item and ends at the root. -/
theorem findPath_complete (H : Sha256) {items : List Bytes} (hlen : 2 ≤ items.length) :
    ∃ tree root, new H items = .ok tree ∧ tree.getRoot = some root
      ∧ ∀ i item, items[i]? = some item → ∃ path, tree.findPath i = .ok (some path)
        ∧ path.verify H (hashLeaf H item) = true ∧ path.getRoot = some root := by
  obtain ⟨first, hfirst⟩ : ∃ first, items[0]? = some first := ⟨_, getElem?_eq_getElem (by omega)⟩
  obtain ⟨tree, _, root, htree, _, _, hroot, _⟩ := findPath_eq_ok H hfirst
  refine ⟨tree, root, htree, hroot, ?_⟩
  intro i item hitem
  obtain ⟨tree', path, root', htree', hpath, hclimb, hroot', hone⟩ := findPath_eq_ok H hitem
  obtain rfl := Except.ok.inj (htree.symm.trans htree')
  obtain rfl := Option.some.inj (hroot.symm.trans hroot')
  refine ⟨path, hpath, hclimb.verify, ?_⟩
  have hend := hclimb.getRoot
  cases path with
  | nil => exact absurd (hone.mp rfl) (by omega)
  | cons pe path =>
    rw [getRoot_cons] at hend ⊢
    exact congrArg some hend

/-- The third of three leaves has a path that verifies against the root. -/
theorem findPath_complete_three :
    ∃ tree root, new digitsHash [[1], [2], [3]] = .ok tree ∧ tree.getRoot = some root
      ∧ ∃ path, tree.findPath 2 = .ok (some path)
        ∧ path.verify digitsHash (hashLeaf digitsHash [3]) = true ∧ path.getRoot = some root := by
  obtain ⟨tree, root, htree, hroot, hpaths⟩ := findPath_complete digitsHash
    (by decide : 2 ≤ ([[1], [2], [3]] : List Bytes).length)
  exact ⟨tree, root, htree, hroot, hpaths 2 [3] rfl⟩

/-- A path verifies nothing but the hash of its item, unless there is only this one item. -/
theorem findPath_sound_iff (H : Sha256) {items : List Bytes} {i : Nat} {item : Bytes} (hitem : items[i]? = some item) :
    ∃ tree path, new H items = .ok tree ∧ tree.findPath i = .ok (some path)
      ∧ ((∀ c, CollisionFree H (path.hashed c ++ path.hashed (hashLeaf H item)) → path.verify H c = true →
        c = hashLeaf H item) ↔ 2 ≤ items.length) := by
  obtain ⟨tree, path, r, htree, hpath, hclimb, _, hone⟩ := findPath_eq_ok H hitem
  refine ⟨tree, path, htree, hpath, ?_, ?_⟩
  · intro hsound
    have hpos := (List.getElem?_eq_some_iff.mp hitem).1
    by_contra hlen
    -- the empty path verifies every candidate
    obtain rfl := hone.mpr (by omega)
    have hfree : CollisionFree H [] := by
      intro _ hx
      cases hx
    exact absurd (hsound (hashLeaf H item + 1) hfree rfl) (by bv_omega)
  · intro hlen c hfree hv
    exact hclimb.eq_of_verify (fun h => absurd (hone.mp h) (by omega)) hfree hv

/-- The path of the first of three leaves verifies no other leaf. -/
theorem findPath_sound_iff_three :
    ∃ tree path, new digitsHash [[1], [2], [3]] = .ok tree ∧ tree.findPath 0 = .ok (some path)
      ∧ CollisionFree digitsHash (path.hashed 5 ++ path.hashed (hashLeaf digitsHash [1]))
      ∧ ∀ c, CollisionFree digitsHash (path.hashed c ++ path.hashed (hashLeaf digitsHash [1])) →
        path.verify digitsHash c = true → c = hashLeaf digitsHash [1] := by
  obtain ⟨tree, path, htree, hpath, hsound⟩ := findPath_sound_iff digitsHash
    (rfl : ([[1], [2], [3]] : List Bytes)[0]? = some [1])
  refine ⟨tree, path, htree, hpath, ?_, hsound.mpr (by decide)⟩
  obtain rfl : pathOf [[1], [2], [3]] 0 = path := pathOf_eq htree hpath
  decide +kernel

/-- The path of a single item verifies the hash of another. -/
theorem findPath_single_unsound :
    ∃ tree path, new digitsHash [[1]] = .ok tree ∧ tree.findPath 0 = .ok (some path)
      ∧ CollisionFree digitsHash (path.hashed (hashLeaf digitsHash [2]) ++ path.hashed (hashLeaf digitsHash [1]))
      ∧ path.verify digitsHash (hashLeaf digitsHash [2]) = true
      ∧ hashLeaf digitsHash [2] ≠ hashLeaf digitsHash [1] := by
  refine ⟨⟨1, [hashLeaf digitsHash [1]]⟩, [], ?_, ?_, ?_, ?_, ?_⟩ <;> decide +kernel

/-- An owned proof accepts what the path it is made from does exactly if each hash on the path is combined with an equal
one. -/
theorem ownedProof_verify_iff {H : Sha256} {items : List Bytes} {i : Nat} {item : Bytes} {tree : MerkleTree} {path : Proof}
    (hitem : items[i]? = some item) (htree : new H items = .ok tree) (hpath : tree.findPath i = .ok (some path))
    (hfree : CollisionFree H (path.hashed (hashLeaf H item) ++ path.mirror.hashed (hashLeaf H item))) :
    (∀ c, CollisionFree H (path.hashed c ++ path.mirror.hashed c ++ path.hashed (hashLeaf H item)) →
      (OwnedProof.ofProof path).verify H c = path.verify H c) ↔ path.Symmetric (hashLeaf H item) := by
  obtain ⟨tree', path', r, htree', hpath', hclimb, _, _⟩ := findPath_eq_ok H hitem
  obtain rfl := Except.ok.inj (htree.symm.trans htree')
  obtain rfl := Option.some.inj (Except.ok.inj (hpath.symm.trans hpath'))
  constructor
  · intro hagree
    refine hclimb.symmetric hfree ?_
    rw [← ofProof_verify, hagree _ (hfree.mono ?_)]
    · exact hclimb.verify
    · exact append_subset.mpr ⟨List.Subset.refl _, subset_append_left _ _⟩
  · intro hsym c hc
    rw [ofProof_verify]
    exact hclimb.mirror_verify_eq hsym hc

/-- With two equal leaves both kinds of proofs say the same of a candidate. -/
theorem ownedProof_verify_iff_equal :
    ∃ tree path, new digitsHash [[7], [7]] = .ok tree ∧ tree.findPath 0 = .ok (some path)
      ∧ CollisionFree digitsHash
        (path.hashed (hashLeaf digitsHash [7]) ++ path.mirror.hashed (hashLeaf digitsHash [7]))
      ∧ ∀ c, CollisionFree digitsHash (path.hashed c ++ path.mirror.hashed c ++ path.hashed (hashLeaf digitsHash [7])) →
        (OwnedProof.ofProof path).verify digitsHash c = path.verify digitsHash c := by
  obtain ⟨tree, path, _, htree, hpath, _⟩ := findPath_eq_ok digitsHash
    (rfl : ([[7], [7]] : List Bytes)[0]? = some [7])
  obtain rfl : pathOf [[7], [7]] 0 = path := pathOf_eq htree hpath
  have hfree : CollisionFree digitsHash ((pathOf [[7], [7]] 0).hashed (hashLeaf digitsHash [7])
      ++ (pathOf [[7], [7]] 0).mirror.hashed (hashLeaf digitsHash [7])) := by decide +kernel
  have hsym : (pathOf [[7], [7]] 0).Symmetric (hashLeaf digitsHash [7]) := ⟨by decide +kernel, trivial⟩
  exact ⟨tree, _, htree, hpath, hfree, (ownedProof_verify_iff rfl htree hpath hfree).mpr hsym⟩

/-- The owned proof of the first of two items rejects it. -/
theorem ownedProof_rejects_item :
    ∃ tree path, new digitsHash [[1], [2]] = .ok tree ∧ tree.findPath 0 = .ok (some path)
      ∧ path.verify digitsHash (hashLeaf digitsHash [1]) = true
      ∧ (OwnedProof.ofProof path).verify digitsHash (hashLeaf digitsHash [1]) = false := by
  obtain ⟨tree, path, _, htree, hpath, _⟩ := findPath_eq_ok digitsHash
    (rfl : ([[1], [2]] : List Bytes)[0]? = some [1])
  obtain rfl : pathOf [[1], [2]] 0 = path := pathOf_eq htree hpath
  exact ⟨tree, _, htree, hpath, by decide +kernel, by decide +kernel⟩

end MerkleTree
end Leviathan
