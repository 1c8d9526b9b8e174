import Mathlib.Algebra.BigOperators.Group.List.Basic
import Mathlib.Algebra.Order.Ring.Int
import Mathlib.Data.List.Nodup

/-!
# Fixed-capacity vectors

Model of `shared/core/src/fixed_vec.rs` (Rust `FixedVec<T, N>`) as the list of its first `len` slots together with the
fact that they fit. No operation can build a vector that is too long, and `push` is the only one that can fail.

`extend` stops at the first element that does not fit; the coordinator unwraps its result, so the partial extension is
never observed and `none` stands for it.
-/

namespace Leviathan
open List

/-- The first `len` slots of a Rust `FixedVec<T, N>`. -/
@[ext] structure FixedVec (α : Type) (N : Nat) where
  toList : List α
  bound : toList.length ≤ N
deriving DecidableEq

namespace FixedVec
variable {α : Type} {N : Nat} {v w : FixedVec α N}

def new : FixedVec α N := ⟨[], Nat.zero_le _⟩

@[simp] lemma new_toList : (new : FixedVec α N).toList = [] := rfl

def len (v : FixedVec α N) : Nat := v.toList.length

/-- Bounds-checked read (Rust `get`). -/
def get? (v : FixedVec α N) (i : Nat) : Option α := v.toList[i]?

/-- Append one element if there is room. -/
def push (v : FixedVec α N) (x : α) : Option (FixedVec α N) :=
  if h : v.toList.length < N then
    some ⟨v.toList ++ [x], by simp only [List.length_append, List.length_singleton]; omega⟩
  else
    none

/-- Append elements while there is room. -/
def extend (v : FixedVec α N) : List α → Option (FixedVec α N)
  | [] => some v
  | x :: xs => (v.push x).bind fun v => v.extend xs

/-- Keep the elements that satisfy `p`. -/
def retain (v : FixedVec α N) (p : α → Bool) : FixedVec α N :=
  ⟨v.toList.filter p, Nat.le_trans (List.length_filter_le _ _) v.bound⟩

@[simp] lemma retain_toList (v : FixedVec α N) (p : α → Bool) :
    (v.retain p).toList = v.toList.filter p := rfl

/-- Rewrite the element at one index (Rust `get_mut`). -/
def modify (v : FixedVec α N) (i : Nat) (f : α → α) : FixedVec α N :=
  ⟨v.toList.modify i f, by simpa using v.bound⟩

@[simp] lemma modify_toList (v : FixedVec α N) (i : Nat) (f : α → α) :
    (v.modify i f).toList = v.toList.modify i f := rfl

/-- Rewrite every element (Rust `iter_mut`). -/
def map (v : FixedVec α N) (f : α → α) : FixedVec α N :=
  ⟨v.toList.map f, by simpa using v.bound⟩

@[simp] lemma map_toList (v : FixedVec α N) (f : α → α) : (v.map f).toList = v.toList.map f := rfl

lemma push_eq_some {x : α} : v.push x = some w ↔ v.toList.length < N ∧ w.toList = v.toList ++ [x] := by
  unfold push
  split
  · rename_i h
    simp only [Option.some.injEq, h, true_and]
    exact ⟨fun e => by rw [← e], fun e => FixedVec.ext e.symm⟩
  · rename_i h
    simp [h]

lemma push_isSome {x : α} (h : v.toList.length < N) : ∃ w, v.push x = some w ∧ w.toList = v.toList ++ [x] :=
  ⟨⟨v.toList ++ [x], by simp only [length_append, length_singleton]; omega⟩,
    by simp [push, h], rfl⟩

lemma extend_eq_some {xs : List α} :
    v.extend xs = some w ↔ v.toList.length + xs.length ≤ N ∧ w.toList = v.toList ++ xs := by
  induction xs generalizing v with
  | nil =>
    simp only [extend, Option.some.injEq, length_nil, Nat.add_zero, v.bound, append_nil, true_and]
    exact ⟨fun e => by rw [e], fun e => FixedVec.ext e.symm⟩
  | cons x xs ih =>
    simp only [extend, Option.bind_eq_some_iff, length_cons]
    constructor
    · rintro ⟨u, hu, hw⟩
      obtain ⟨_, eu⟩ := push_eq_some.mp hu
      obtain ⟨hl, ew⟩ := ih.mp hw
      simp only [eu, length_append, length_singleton] at hl
      exact ⟨by omega, by rw [ew, eu, append_assoc, singleton_append]⟩
    · rintro ⟨hl, ew⟩
      obtain ⟨u, hu, eu⟩ := push_isSome (v := v) (x := x) (by omega)
      refine ⟨u, hu, ih.mpr ⟨?_, ?_⟩⟩
      · simp only [eu, length_append, length_singleton]
        omega
      · rw [ew, eu, append_assoc, singleton_append]

lemma modify_congr {i : Nat} {f g : α → α} (h : ∀ x, v.get? i = some x → f x = g x) : v.modify i f = v.modify i g := by
  apply FixedVec.ext
  apply ext_getElem?
  intro n
  simp only [modify_toList, getElem?_modify]
  by_cases hn : i = n
  · subst hn
    cases hx : v.toList[i]? with
    | none => rfl
    | some x => simp [h x hx]
  · simp [hn]

lemma getElem?_foldl_modify (f : α → α) (l : List α) (k n : Nat) :
    ((List.range k).foldl (fun l i => l.modify i f) l)[n]?
      = l[n]?.map fun a => if n < k then f a else a := by
  induction k with
  | zero => simp
  | succ k ih =>
    rw [range_succ, foldl_append, foldl_cons, foldl_nil, getElem?_modify, ih]
    cases l[n]? with
    | none => rfl
    | some a =>
      by_cases hk : k = n
      · simp [hk]
      · have hiff : n < k + 1 ↔ n < k := by omega
        simp [hk, hiff]

lemma foldl_modify_length (f : α → α) (l : List α) :
    (List.range l.length).foldl (fun l i => l.modify i f) l = l.map f := by
  apply ext_getElem?
  intro n
  rw [getElem?_foldl_modify, getElem?_map]
  by_cases hn : n < l.length
  · simp [hn]
  · simp [getElem?_eq_none (Nat.le_of_not_lt hn)]

lemma foldl_modify (f : α → α) (v : FixedVec α N) :
    (List.range v.toList.length).foldl (fun v i => v.modify i f) v = v.map f := by
  have hlist : ∀ (is : List Nat) (v : FixedVec α N),
      (is.foldl (fun v i => v.modify i f) v).toList = is.foldl (fun l i => l.modify i f) v.toList := by
    intro is
    induction is with
    | nil => exact fun _ => rfl
    | cons i is ih => exact fun v => ih _
  apply FixedVec.ext
  rw [hlist]
  exact foldl_modify_length f v.toList

end FixedVec
end Leviathan
