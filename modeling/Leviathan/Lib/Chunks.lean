import Mathlib.Algebra.BigOperators.Group.List.Basic
import Mathlib.Algebra.Order.Floor.Div
import Mathlib.Algebra.Order.Ring.Int

/-!
# Cutting lists

A list is cut into consecutive pieces of one size, the last of which may be shorter. `pieces` cuts off a given number of
pieces, and `chunks` as many as there are elements for. Both are the pieces at the multiples of the size
(`pieces_eq_map`), which gives their number, lengths and elements.

`ceilDiv_ceilDiv` relates the two ways to ask for a cut: by the size of the pieces and by their number.
-/

namespace Leviathan
open List
variable {α β : Type} {size n : Nat}

/-- The first pieces of a list, each of the same length. -/
def pieces (size : Nat) : Nat → List α → List (List α)
  | 0, _ => []
  | n + 1, l => l.take size :: pieces size n (l.drop size)

/-- The piece of a list that begins at an index. -/
def piece (size : Nat) (l : List α) (start : Nat) : List α := (l.drop start).take size

section Pieces
variable {l : List α} {start : Nat}

@[simp] lemma length_piece (l : List α) (start : Nat) : (piece size l start).length = min size (l.length - start) := by
  rw [piece, length_take, length_drop]

lemma piece_piece {k : Nat} (h : start + size ≤ n) : piece size (piece n l k) start = piece size l (k + start) := by
  rw [piece, piece, piece, drop_take, take_take, drop_drop, Nat.min_eq_left (by omega)]

lemma forall₂_piece (h : start + size ≤ l.length) :
    List.Forall₂ (fun i a => l[i]? = some a) (List.range' start size) (piece size l start) := by
  induction size generalizing start with
  | zero =>
    rw [piece, take_zero]
    exact .nil
  | succ size ih =>
    have hlt : start < l.length := by omega
    rw [range'_succ, piece, drop_eq_getElem_cons hlt, take_succ_cons]
    exact .cons (getElem?_eq_getElem hlt) (ih (by omega))

lemma map_piece (f : α → β) (l : List α) (start : Nat) : (piece size l start).map f = piece size (l.map f) start := by
  rw [piece, piece, map_take, map_drop]

lemma mul_add_le {k : Nat} (hk : k < n) : k * size + size ≤ n * size := by
  rw [← Nat.succ_mul]
  exact Nat.mul_le_mul_right _ hk

lemma pieces_eq_map (l : List α) : pieces size n l = (List.range n).map fun k => piece size l (k * size) := by
  induction n generalizing l with
  | zero => rfl
  | succ n ih =>
    rw [pieces, ih, range_succ_eq_map, map_cons, map_map]
    congr 1
    · rw [piece, Nat.zero_mul, drop_zero]
    · refine map_congr_left fun k _ => ?_
      rw [Function.comp_apply, piece, piece, drop_drop, Nat.succ_mul, Nat.add_comm]

@[simp] lemma length_pieces (l : List α) : (pieces size n l).length = n := by
  rw [pieces_eq_map, length_map, length_range]

lemma flatten_pieces (l : List α) : (pieces size n l).flatten = l.take (n * size) := by
  induction n generalizing l with
  | zero => rw [pieces, Nat.zero_mul, take_zero, flatten_nil]
  | succ n ih => rw [pieces, flatten_cons, ih, Nat.succ_mul, Nat.add_comm, take_add]

lemma pieces_add (m : Nat) (l : List α) :
    pieces size (m + n) l = pieces size m l ++ pieces size n (l.drop (m * size)) := by
  induction m generalizing l with
  | zero => rw [Nat.zero_add, Nat.zero_mul, drop_zero, pieces, nil_append]
  | succ m ih =>
    rw [Nat.succ_add, pieces, pieces, ih, cons_append, drop_drop, Nat.succ_mul, Nat.add_comm size]

lemma map_pieces (f : α → β) (l : List α) : (pieces size n l).map (List.map f) = pieces size n (l.map f) := by
  rw [pieces_eq_map, pieces_eq_map, map_map]
  exact map_congr_left fun k _ => map_piece f l _

lemma length_of_mem_pieces {c : List α} (h : n * size ≤ l.length) (hc : c ∈ pieces size n l) : c.length = size := by
  rw [pieces_eq_map] at hc
  obtain ⟨k, hk, rfl⟩ := mem_map.mp hc
  have hend : k * size + size ≤ n * size := mul_add_le (mem_range.mp hk)
  rw [length_piece]
  omega

end Pieces

/-- A list in pieces of one size, the last of which may be shorter. -/
def chunks (size : Nat) (l : List α) : List (List α) := pieces size (l.length ⌈/⌉ size) l

example : chunks 2 [1, 2, 3, 4, 5] = [[1, 2], [3, 4], [5]] := by decide

section Chunks
variable {l : List α}

@[simp] lemma length_chunks (l : List α) : (chunks size l).length = l.length ⌈/⌉ size := length_pieces l

lemma chunks_eq_map (l : List α) :
    chunks size l = (List.range (l.length ⌈/⌉ size)).map fun k => piece size l (k * size) :=
  pieces_eq_map l

lemma ceilDiv_of_eq_mul {m : Nat} (hs : 0 < size) (h : m = n * size) : m ⌈/⌉ size = n := by
  have := smul_ceilDiv hs n
  rwa [smul_eq_mul, Nat.mul_comm, ← h] at this

lemma chunks_of_eq_mul (hs : 0 < size) (h : l.length = n * size) : chunks size l = pieces size n l := by
  rw [chunks, ceilDiv_of_eq_mul hs h]

lemma length_of_mem_chunks {c : List α} (hs : 0 < size) (h : l.length = n * size) (hc : c ∈ chunks size l) :
    c.length = size := by
  rw [chunks_of_eq_mul hs h] at hc
  exact length_of_mem_pieces h.ge hc

lemma piece_chunks {k m : Nat} (hs : 0 < size) (h : l.length = m * size) (hk : k + n ≤ m) :
    piece n (chunks size l) k = chunks size (piece (n * size) l (k * size)) := by
  have hlen : (piece (n * size) l (k * size)).length = n * size := by
    have hmul := Nat.mul_le_mul_right size hk
    rw [Nat.add_mul] at hmul
    rw [length_piece]
    omega
  have hrange : piece n (List.range m) k = (List.range n).map (k + ·) := by
    rw [piece, range_eq_range', drop_range', take_range'_of_length_ge (by omega), Nat.zero_add, Nat.mul_one,
      range'_eq_map_range]
  rw [chunks_of_eq_mul hs h, chunks_of_eq_mul hs hlen, pieces_eq_map, pieces_eq_map, ← map_piece, hrange, map_map]
  refine map_congr_left fun j hj => ?_
  rw [Function.comp_apply, piece_piece (mul_add_le (mem_range.mp hj)), Nat.add_mul]

end Chunks

lemma ceilDiv_pos {m : Nat} (hn : 0 < n) (hm : 0 < m) : 0 < n ⌈/⌉ m := by
  by_contra h0
  have := (ceilDiv_le_iff_le_mul hm).mp (Nat.not_lt.mp h0)
  omega

/-- A list is cut into as many pieces of some size as are asked for, if the size is the smallest one that gives no
more of them. -/
lemma ceilDiv_ceilDiv {m : Nat} (hn : 0 < n) (hm : 0 < m) : n ⌈/⌉ (n ⌈/⌉ (n ⌈/⌉ m)) = n ⌈/⌉ m := by
  have hcount : 0 < n ⌈/⌉ m := ceilDiv_pos hn hm
  have hpos : 0 < n ⌈/⌉ (n ⌈/⌉ m) := ceilDiv_pos hn hcount
  -- pieces of the smaller size are no fewer than pieces of size `m`
  have hsize : n ⌈/⌉ (n ⌈/⌉ m) ≤ m := by
    rw [ceilDiv_le_iff_le_mul hcount, Nat.mul_comm]
    exact (ceilDiv_le_iff_le_mul hm).mp le_rfl
  refine Nat.le_antisymm ?_ ?_
  · rw [ceilDiv_le_iff_le_mul hpos, Nat.mul_comm]
    exact (ceilDiv_le_iff_le_mul hcount).mp le_rfl
  · rw [ceilDiv_le_iff_le_mul hm]
    exact Nat.le_trans ((ceilDiv_le_iff_le_mul hpos).mp le_rfl) (Nat.mul_le_mul_right _ hsize)

end Leviathan
