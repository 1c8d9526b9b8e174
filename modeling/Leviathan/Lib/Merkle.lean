import Mathlib.Algebra.Order.Ring.Int
import Mathlib.Algebra.Order.Ring.Nat

/-!
# Merkle trees

Trees that are built layer by layer: neighbours are combined two by two, and the last one of an odd number is combined
with itself, until one is left (`layers`, `root`). A path up the tree gives for each layer the neighbour of the node it
goes through (`path`).

`mem_of_foldl` is the soundness of paths. What it asks of a hash, it asks of the values that are combined only (`steps`
lists them), so that it can be true.
-/

namespace Leviathan.Merkle
open List
variable {α : Type}

/-- Neighbours, two by two; the last one of an odd number is its own neighbour. -/
def pairs : List α → List (α × α)
  | [] => []
  | [x] => [(x, x)]
  | x :: y :: l => (x, y) :: pairs l

def neighbour (l : List α) (i : Nat) : Option α :=
  l[if i % 2 = 0 then if i + 1 < l.length then i + 1 else i else i - 1]?

section Layer
variable {l : List α}

lemma length_pairs (l : List α) : (pairs l).length = (l.length + 1) / 2 := by
  induction l using pairs.induct with
  | case1 => simp [pairs]
  | case2 x => simp [pairs]
  | case3 x y l ih =>
    simp only [pairs, length_cons, ih]
    omega

lemma mem_of_mem_pairs {p : α × α} (h : p ∈ pairs l) : p.1 ∈ l ∧ p.2 ∈ l := by
  induction l using pairs.induct with
  | case1 => cases h
  | case2 x =>
    obtain rfl := mem_singleton.mp h
    exact ⟨mem_singleton_self x, mem_singleton_self x⟩
  | case3 x y l ih =>
    obtain rfl | h := mem_cons.mp h
    · exact ⟨mem_cons_self, mem_cons_of_mem _ mem_cons_self⟩
    · obtain ⟨h1, h2⟩ := ih h
      exact ⟨mem_cons_of_mem _ (mem_cons_of_mem _ h1), mem_cons_of_mem _ (mem_cons_of_mem _ h2)⟩

lemma neighbour_add_two (x y : α) (l : List α) (i : Nat) (hi : i < l.length) :
    neighbour (x :: y :: l) (i + 2) = neighbour l i := by
  unfold neighbour
  by_cases he : i % 2 = 0
  · rw [if_pos he, if_pos (by omega : (i + 2) % 2 = 0)]
    by_cases hl : i + 1 < l.length
    · rw [if_pos hl, if_pos (by simp only [length_cons]; omega)]
      rfl
    · rw [if_neg hl, if_neg (by simp only [length_cons]; omega)]
      rfl
  · obtain ⟨k, rfl⟩ : ∃ k, i = k + 1 := ⟨i - 1, by omega⟩
    rw [if_neg he, if_neg (by omega : ¬ (k + 1 + 2) % 2 = 0)]
    rfl

lemma getElem?_pairs {i : Nat} {x : α} (h : l[i]? = some x) :
    ∃ y, neighbour l i = some y ∧ (pairs l)[i / 2]? = some (if i % 2 = 0 then (x, y) else (y, x)) := by
  induction l using pairs.induct generalizing i with
  | case1 => cases h
  | case2 z =>
    cases i with
    | zero =>
      obtain rfl := Option.some.inj h
      exact ⟨z, rfl, rfl⟩
    | succ i => cases h
  | case3 a b l ih =>
    cases i with
    | zero =>
      obtain rfl := Option.some.inj h
      exact ⟨b, by simp [neighbour], rfl⟩
    | succ i =>
      cases i with
      | zero =>
        obtain rfl := Option.some.inj h
        exact ⟨a, by simp [neighbour], rfl⟩
      | succ i =>
        have h : l[i]? = some x := h
        obtain ⟨y, hy, hp⟩ := ih h
        refine ⟨y, ?_, ?_⟩
        · rw [neighbour_add_two a b l i (List.getElem?_eq_some_iff.mp h).1]
          exact hy
        · rw [show (i + 1 + 1) / 2 = i / 2 + 1 by omega, show (i + 1 + 1) % 2 = i % 2 by omega]
          exact hp

end Layer

section Trees
variable (node : α → α → α) {l layer : List α} {ls : List (List α)} {i fuel : Nat} {x : α}

/-- The layer above a layer. -/
def parents (l : List α) : List α := (pairs l).map fun p => node p.1 p.2

/-- The layers of a tree from one of them up, of which there are at most `fuel` below the last one. -/
def layersFrom : Nat → List α → List (List α)
  | 0, l => [l]
  | fuel + 1, l => if 1 < l.length then l :: layersFrom fuel (parents node l) else [l]

/-- The layers of the tree over a list of leaves, from the leaves to the root. -/
def layers (l : List α) : List (List α) := layersFrom node l.length l

/-- The root of a tree that is given by its layers. -/
def root (layers : List (List α)) : Option α := layers.getLast?.bind List.head?

/-- The neighbours on the way up from an index. -/
def path : List (List α) → Nat → Option (List α)
  | [], _ => some []
  | l :: ls, i =>
    if l.length = 1 then
      some []
    else do
      let y ← neighbour l i
      let ys ← path ls (i / 2)
      some (y :: ys)

variable {node}

lemma length_parents (l : List α) : (parents node l).length = (l.length + 1) / 2 := by
  rw [parents, length_map, length_pairs]

lemma root_cons (h : ls ≠ []) : root (l :: ls) = root ls := by
  rw [root, root, getLast?_cons_of_ne_nil h]

lemma layersFrom_ne_nil (fuel : Nat) (l : List α) : layersFrom node fuel l ≠ [] := by
  cases fuel with
  | zero => simp [layersFrom]
  | succ fuel =>
    rw [layersFrom]
    split <;> simp

lemma path_singleton (hl : l.length = 1) (hx : l[i]? = some x) : path [l] i = some [] ∧ root [l] = some x := by
  obtain ⟨y, rfl⟩ := List.length_eq_one_iff.mp hl
  have hi := (List.getElem?_eq_some_iff.mp hx).1
  obtain rfl : i = 0 := by simpa using hi
  obtain rfl := Option.some.inj hx
  exact ⟨rfl, rfl⟩

lemma foldl_path_layersFrom (hcomm : ∀ a b, node a b = node b a) (hl : l.length ≤ fuel + 1)
    (hx : l[i]? = some x) :
    ∃ ys, path (layersFrom node fuel l) i = some ys ∧ root (layersFrom node fuel l) = some (ys.foldl node x) := by
  induction fuel generalizing l i x with
  | zero =>
    have hi := (List.getElem?_eq_some_iff.mp hx).1
    obtain ⟨hp, hr⟩ := path_singleton (by omega) hx
    exact ⟨[], hp, hr⟩
  | succ fuel ih =>
    have hi := (List.getElem?_eq_some_iff.mp hx).1
    by_cases hlen : 1 < l.length
    · obtain ⟨y, hy, hpair⟩ := getElem?_pairs hx
      have hparent : (parents node l)[i / 2]? = some (node x y) := by
        rw [parents, getElem?_map, hpair]
        split
        · rfl
        · exact congrArg some (hcomm y x)
      obtain ⟨ys, hp, hr⟩ := ih (by rw [length_parents]; omega) hparent
      refine ⟨y :: ys, ?_, ?_⟩
      · rw [layersFrom, if_pos hlen, path, if_neg (by omega), hy, hp]
        rfl
      · rw [layersFrom, if_pos hlen, root_cons (layersFrom_ne_nil _ _)]
        exact hr
    · obtain ⟨hp, hr⟩ := path_singleton (by omega) hx
      rw [layersFrom, if_neg hlen]
      exact ⟨[], hp, hr⟩

lemma foldl_path (hcomm : ∀ a b, node a b = node b a) (hx : l[i]? = some x) :
    ∃ ys, path (layers node l) i = some ys ∧ root (layers node l) = some (ys.foldl node x) :=
  foldl_path_layersFrom hcomm (Nat.le_succ _) hx

lemma mem_layersFrom {h : α} (hlayer : layer ∈ layersFrom node fuel l) (hh : h ∈ layer) :
    h ∈ l ∨ ∃ below ∈ layersFrom node fuel l, 1 < below.length ∧ ∃ p ∈ pairs below, h = node p.1 p.2 := by
  induction fuel generalizing l with
  | zero =>
    obtain rfl := mem_singleton.mp hlayer
    exact .inl hh
  | succ fuel ih =>
    rw [layersFrom] at hlayer ⊢
    split at hlayer
    · rename_i hlen
      rw [if_pos hlen]
      obtain rfl | hlayer := mem_cons.mp hlayer
      · exact .inl hh
      · obtain hmem | ⟨below, hb, hpair⟩ := ih hlayer
        · obtain ⟨p, hp, rfl⟩ := mem_map.mp hmem
          exact .inr ⟨l, mem_cons_self, hlen, p, hp, rfl⟩
        · exact .inr ⟨below, mem_cons_of_mem _ hb, hpair⟩
    · obtain rfl := mem_singleton.mp hlayer
      exact .inl hh

lemma mem_layers {h : α} (hlayer : layer ∈ layers node l) (hh : h ∈ layer) :
    h ∈ l ∨ ∃ below ∈ layers node l, 1 < below.length ∧ ∃ p ∈ pairs below, h = node p.1 p.2 :=
  mem_layersFrom hlayer hh

lemma root_mem {r : α} (h : root ls = some r) : ∃ layer ∈ ls, r ∈ layer := by
  obtain ⟨layer, hlayer, hr⟩ := Option.bind_eq_some_iff.mp h
  exact ⟨layer, mem_of_getLast? hlayer, mem_of_head? hr⟩

variable (node)

/-- The pairs that are combined when a value is combined with a sequence of others. -/
def steps : α → List α → List (α × α)
  | _, [] => []
  | x, y :: ys => (x, y) :: steps (node x y) ys

variable {node}

/-- A value that leads into a set of nodes is itself in the set. -/
lemma mem_of_foldl (nodes leaves : Set α) (good : α → α → Prop)
    (hnodes : ∀ h ∈ nodes, h ∈ leaves ∨ ∃ a ∈ nodes, ∃ b ∈ nodes, good a b ∧ h = node a b)
    (hleaf : ∀ h ∈ leaves, ∀ a b, good a b → h ≠ node a b)
    (hnode : ∀ a b c d, good a b → good c d → node a b = node c d → a = c ∨ a = d) {ys : List α}
    (hgood : ∀ p ∈ steps node x ys, good p.1 p.2) (hmem : ys.foldl node x ∈ nodes) : x ∈ nodes := by
  induction ys generalizing x with
  | nil => exact hmem
  | cons y ys ih =>
    obtain ⟨hxy, hgood⟩ := forall_mem_cons.mp hgood
    -- the combination of the first two is a node, and so it is one of two nodes
    obtain hl | ⟨a, ha, b, hb, hab, he⟩ := hnodes _ (ih hgood hmem)
    · exact absurd rfl (hleaf _ hl x y hxy)
    · obtain rfl | rfl := hnode x y a b hxy hab he
      · exact ha
      · exact hb

end Trees
end Leviathan.Merkle
