import Leviathan.Core.FixedVec
import Leviathan.Core.Identity
import Mathlib.Data.List.Induction

/-!
# The slots of fixed-capacity vectors

`FixedVec` of `shared/core/src/fixed_vec.rs` as it is laid out: an array of `N` slots of which the first `len` are used.
Elsewhere a vector is the list of its used slots (`Leviathan.FixedVec`). Here each operation is the loop over slots that
it is in the source, and no write goes beyond the array.

A vector that stands for a list has it in its first slots and defaults in all others (`ofList`). What the loops do to
the part of the array they go through is `fill_eq`, `shiftLeft_eq`, `shiftRight_eq`, `retainLoop_eq`.
-/

namespace Leviathan
open Exec List

/-- Rust `FixedVec`, slot by slot. -/
structure SlotVec (α : Type) where
  data : List α
  len : Nat
deriving DecidableEq, Repr

/-- A call that changes a vector. The closure of `retain` may keep a state: it is given the elements it has seen. -/
inductive VecCall (α : Type) where
  | push (value : α)
  | pop
  | insert (index : Nat) (element : α)
  | remove (index : Nat)
  | retain (f : List α → α → Bool)
  | extend (items : List α)
  | clear

/-- What a call returns. -/
inductive VecReply (α : Type) where
  | unit
  | result (r : Except String Unit)
  | item (x : Option α)

namespace SlotVec
variable {α : Type}

section Slots

/-- Rust `data[i]`. -/
def read (data : List α) (i : Nat) : Exec Empty Panic α := Exec.unwrap data[i]? .indexOutOfBounds

/-- Rust `data[i] = x`. -/
def write (data : List α) (i : Nat) (x : α) : Exec Empty Panic (List α) := do
  Exec.ensure (i < data.length) .indexOutOfBounds
  .ok (data.set i x)

@[simp] lemma read_append (front back : List α) (x : α) : read (front ++ x :: back) front.length = .ok x := by
  rw [read, getElem?_append_right (Nat.le_refl _), Nat.sub_self]
  rfl

@[simp] lemma write_append (front back : List α) (x y : α) :
    write (front ++ x :: back) front.length y = .ok (front ++ y :: back) := by
  rw [write, ensure_of (by simp), ok_bind, set_append_right _ _ (Nat.le_refl _), Nat.sub_self]
  rfl

/-- A loop that writes one value to the slots from `start` on. -/
def fill (data : List α) (start count : Nat) (x : α) : Exec Empty Panic (List α) :=
  (List.range' start count).foldlM (fun data i => write data i x) data

/-- The loop of `remove`, from `start` up. -/
def shiftLeft (data : List α) (start count : Nat) : Exec Empty Panic (List α) :=
  (List.range' start count).foldlM (fun data i => do
    let x ← read data (i + 1)
    write data i x) data

/-- The loop of `insert`, down to `start`. -/
def shiftRight (data : List α) (start count : Nat) : Exec Empty Panic (List α) :=
  (List.range' start count).reverse.foldlM (fun data i => do
    let x ← read data i
    write data (i + 1) x) data

lemma fill_eq (front middle back : List α) (x : α) : fill (front ++ (middle ++ back)) front.length middle.length x
    = .ok (front ++ (List.replicate middle.length x ++ back)) := by
  unfold fill
  induction middle generalizing front with
  | nil => rfl
  | cons y middle ih =>
    have h := ih (front ++ [x])
    rw [length_append, length_singleton, append_assoc, append_assoc] at h
    rw [length_cons, range'_succ, foldlM_cons, cons_append, write_append, ok_bind]
    exact h

lemma shiftLeft_eq (front middle back : List α) (x : α) :
    ∃ y, shiftLeft (front ++ x :: (middle ++ back)) front.length middle.length = .ok (front ++ (middle ++ y :: back)) := by
  unfold shiftLeft
  induction middle generalizing front x with
  | nil => exact ⟨x, rfl⟩
  | cons y middle ih =>
    obtain ⟨z, h⟩ := ih (front ++ [y]) y
    have hread : read (front ++ x :: (y :: middle ++ back)) (front.length + 1) = .ok y := by
      have := read_append (front ++ [x]) (middle ++ back) y
      rwa [length_append, length_singleton, append_assoc] at this
    rw [length_append, length_singleton, append_assoc, append_assoc] at h
    refine ⟨z, ?_⟩
    rw [length_cons, range'_succ, foldlM_cons, hread, ok_bind, write_append, ok_bind]
    exact h

lemma shiftRight_eq (front middle back : List α) (x : α) :
    ∃ y, shiftRight (front ++ (middle ++ x :: back)) front.length middle.length = .ok (front ++ y :: (middle ++ back)) := by
  unfold shiftRight
  induction middle using List.reverseRecOn generalizing x back with
  | nil => exact ⟨x, rfl⟩
  | append_singleton middle z ih =>
    obtain ⟨y, h⟩ := ih (z :: back) z
    have hread : read (front ++ (middle ++ [z] ++ x :: back)) (front.length + middle.length) = .ok z := by
      have := read_append (front ++ middle) (x :: back) z
      rwa [length_append, append_assoc, append_cons] at this
    have hwrite : write (front ++ (middle ++ [z] ++ x :: back)) (front.length + middle.length + 1) z
        = .ok (front ++ (middle ++ z :: (z :: back))) := by
      have := write_append (front ++ (middle ++ [z])) back x z
      rw [length_append, length_append, length_singleton, ← Nat.add_assoc] at this
      simpa only [append_assoc, cons_append, nil_append] using this
    refine ⟨y, ?_⟩
    rw [length_append, length_singleton, range'_1_concat, reverse_append, reverse_singleton,
      singleton_append, foldlM_cons, hread, ok_bind, hwrite, ok_bind, h, append_assoc]
    rfl

/-- Move a retained element from one slot down to another. -/
def moveDown (data : List α) (readPos writePos : Nat) (x : α) : Exec Empty Panic (List α) :=
  if readPos ≠ writePos then write data writePos x else .ok data

/-- The body of the loop of `retain`: the slots, the number of those that are retained and the elements that the closure has
seen. -/
def retainStep (f : List α → α → Bool) (st : List α × Nat × List α) (i : Nat) :
    Exec Empty Panic (List α × Nat × List α) := do
  let x ← read st.1 i
  if f st.2.2 x then do
    let data ← moveDown st.1 i st.2.1 x
    .ok (data, st.2.1 + 1, st.2.2 ++ [x])
  else
    .ok (st.1, st.2.1, st.2.2 ++ [x])

/-- The elements that a closure retains. -/
def retained (f : List α → α → Bool) : List α → List α → List α
  | _, [] => []
  | seen, x :: l => if f seen x then x :: retained f (seen ++ [x]) l else retained f (seen ++ [x]) l

lemma length_retained_le (f : List α → α → Bool) (seen l : List α) : (retained f seen l).length ≤ l.length := by
  induction l generalizing seen with
  | nil => exact Nat.le_refl _
  | cons x l ih =>
    have hl := ih (seen ++ [x])
    unfold retained
    split <;> simp only [length_cons] <;> omega

lemma moveDown_eq (kept old rest : List α) (x : α) : ∃ old',
    moveDown (kept ++ (old ++ x :: rest)) (kept ++ old).length kept.length x = .ok (kept ++ [x] ++ (old' ++ rest))
      ∧ old'.length = old.length := by
  cases old with
  | nil => exact ⟨[], by simp [moveDown], rfl⟩
  | cons y old =>
    refine ⟨old ++ [x], ?_, by simp⟩
    rw [moveDown, if_pos (by simp), cons_append, write_append]
    simp only [append_assoc, cons_append, nil_append]

/-- The loop of `retain` from a slot on. What is kept is in front, then come slots that have been read already. -/
lemma retainLoop_eq (f : List α → α → Bool) (kept old middle back seen : List α) :
    ∃ old' seen', (List.range' (kept ++ old).length middle.length).foldlM (retainStep f)
        (kept ++ (old ++ (middle ++ back)), kept.length, seen)
      = .ok (kept ++ retained f seen middle ++ (old' ++ back), (kept ++ retained f seen middle).length, seen')
      ∧ (kept ++ retained f seen middle).length + old'.length = (kept ++ old).length + middle.length := by
  induction middle generalizing kept old seen with
  | nil => exact ⟨old, seen, by simp [retained], by simp [retained]⟩
  | cons x middle ih =>
    have hread : read (kept ++ (old ++ (x :: middle ++ back))) (kept ++ old).length = .ok x := by
      rw [← append_assoc]
      exact read_append _ _ _
    rw [length_cons, range'_succ, foldlM_cons, retainStep, hread, ok_bind, retained]
    by_cases hf : f seen x
    · obtain ⟨old₁, hmove, hlen₁⟩ := moveDown_eq kept old (middle ++ back) x
      obtain ⟨old', seen', h, hlen⟩ := ih (kept ++ [x]) old₁ (seen ++ [x])
      have hpos : (kept ++ [x] ++ old₁).length = (kept ++ old).length + 1 := by
        simp only [length_append, length_singleton, hlen₁]
        omega
      rw [hpos, length_append, length_singleton] at h
      simp only [if_pos hf, cons_append, hmove, ok_bind, h]
      refine ⟨old', seen', by simp, ?_⟩
      rw [hpos] at hlen
      simp only [append_assoc, singleton_append] at hlen
      omega
    · obtain ⟨old', seen', h, hlen⟩ := ih kept (old ++ [x]) (seen ++ [x])
      have hpos : (kept ++ (old ++ [x])).length = (kept ++ old).length + 1 := by
        simp only [length_append, length_singleton]
        omega
      rw [hpos, append_assoc, singleton_append] at h
      simp only [if_neg hf, cons_append, ok_bind, h]
      refine ⟨old', seen', rfl, ?_⟩
      omega

end Slots

section Calls
variable [Inhabited α] (N : Nat) {eq : α → α → Bool}

def new : SlotVec α := ⟨List.replicate N default, 0⟩

def push (v : SlotVec α) (value : α) : Exec Empty Panic (SlotVec α × Except String Unit) :=
  if v.len < N then do
    let data ← write v.data v.len value
    .ok (⟨data, v.len + 1⟩, .ok ())
  else
    .ok (v, .error "FixedVec is full")

def pop (v : SlotVec α) : Exec Empty Panic (SlotVec α × Option α) :=
  if 0 < v.len then do
    let x ← read v.data (v.len - 1)
    let data ← write v.data (v.len - 1) default
    .ok (⟨data, v.len - 1⟩, some x)
  else
    .ok (v, none)

def clear (v : SlotVec α) : Exec Empty Panic (SlotVec α) := do
  let data ← fill v.data 0 v.len default
  .ok ⟨data, 0⟩

def extend : SlotVec α → List α → Exec Empty Panic (SlotVec α × Except String Unit)
  | v, [] => .ok (v, .ok ())
  | v, item :: items => do
    let pushed ← push N v item
    if pushed.2.isOk then extend pushed.1 items else .ok pushed

def remove (v : SlotVec α) (index : Nat) : Exec Empty Panic (SlotVec α × Option α) :=
  if v.len ≤ index then
    .ok (v, none)
  else do
    let item ← read v.data index
    let lastPos := v.len - 1
    let data ← shiftLeft v.data index (lastPos - index)
    let data ← write data lastPos default
    .ok (⟨data, v.len - 1⟩, some item)

def insert (v : SlotVec α) (index : Nat) (element : α) : Exec Empty Panic (SlotVec α × Except String Unit) :=
  if N ≤ v.len then
    .ok (v, .error "FixedVec is full")
  else if v.len < index then
    .ok (v, .error "Index out of bounds")
  else do
    let data ← shiftRight v.data index (v.len - index)
    let data ← write data index element
    .ok (⟨data, v.len + 1⟩, .ok ())

def retain (v : SlotVec α) (f : List α → α → Bool) : Exec Empty Panic (SlotVec α) := do
  let st ← (List.range v.len).foldlM (retainStep f) (v.data, 0, [])
  let data ← fill st.1 st.2.1 (v.len - st.2.1) default
  .ok ⟨data, st.2.1⟩

def apply (v : SlotVec α) : VecCall α → Exec Empty Panic (SlotVec α × VecReply α)
  | .push value => (push N v value).map fun r => (r.1, .result r.2)
  | .pop => (pop v).map fun r => (r.1, .item r.2)
  | .insert index element => (insert N v index element).map fun r => (r.1, .result r.2)
  | .remove index => (remove v index).map fun r => (r.1, .item r.2)
  | .retain f => (retain v f).map fun v => (v, .unit)
  | .extend items => (extend N v items).map fun r => (r.1, .result r.2)
  | .clear => (clear v).map fun v => (v, .unit)

/-- The same call on a list of at most `N` elements. -/
def applyList (l : List α) : VecCall α → List α × VecReply α
  | .push value =>
    if l.length < N then (l ++ [value], .result (.ok ())) else (l, .result (.error "FixedVec is full"))
  | .pop => (l.dropLast, .item l.getLast?)
  | .insert index element =>
    if N ≤ l.length then (l, .result (.error "FixedVec is full"))
    else if l.length < index then (l, .result (.error "Index out of bounds"))
    else (l.insertIdx index element, .result (.ok ()))
  | .remove index => (l.eraseIdx index, .item l[index]?)
  | .retain f => (retained f [] l, .unit)
  | .extend items =>
    (l ++ items.take (N - l.length),
      .result (if l.length + items.length ≤ N then .ok () else .error "FixedVec is full"))
  | .clear => ([], .unit)

/-- Calls one after the other, with what they return. -/
def run (calls : List (VecCall α)) : Exec Empty Panic (SlotVec α × List (VecReply α)) :=
  calls.foldlM (fun st call => (apply N st.1 call).map fun r => (r.1, st.2 ++ [r.2])) (new N, [])

/-- The same calls on a list. -/
def runList (calls : List (VecCall α)) : List α × List (VecReply α) :=
  calls.foldl (fun st call => ((applyList N st.1 call).1, st.2 ++ [(applyList N st.1 call).2])) ([], [])

/-- The vector that stands for a list. -/
def ofList (l : List α) : SlotVec α := ⟨l ++ List.replicate (N - l.length) default, l.length⟩

/-- The elements of a vector (Rust `iter`). -/
def toList (v : SlotVec α) : List α := v.data.take v.len

/-- The derived equality, for an equality of the elements. -/
def eqBy (eq : α → α → Bool) (v w : SlotVec α) : Bool := v.data.isEqv w.data eq && v.len == w.len

variable {N} {l : List α}

@[simp] lemma ofList_len (l : List α) : (ofList N l).len = l.length := rfl

lemma ofList_data_of_lt (h : l.length < N) :
    (ofList N l).data = l ++ default :: List.replicate (N - (l.length + 1)) default := by
  rw [ofList, ← replicate_succ, show N - l.length = N - (l.length + 1) + 1 by omega]

@[simp] lemma toList_ofList (l : List α) : (ofList N l).toList = l := take_left

lemma push_ofList (x : α) : push N (ofList N l) x
    = .ok (if l.length < N then (ofList N (l ++ [x]), .ok ()) else (ofList N l, .error "FixedVec is full")) := by
  unfold push
  by_cases h : l.length < N
  · rw [ofList_len, if_pos h, if_pos h, ofList_data_of_lt h, write_append, ok_bind, ofList, length_append]
    simp
  · rw [ofList_len, if_neg h, if_neg h]

lemma extend_ofList (items : List α) (hl : l.length ≤ N) : extend N (ofList N l) items
    = .ok (ofList N (l ++ items.take (N - l.length)),
      if l.length + items.length ≤ N then .ok () else .error "FixedVec is full") := by
  induction items generalizing l with
  | nil => simp [extend, hl]
  | cons x items ih =>
    rw [extend, push_ofList, ok_bind]
    by_cases h : l.length < N
    · have hih := ih (l := l ++ [x]) (by rw [length_append, length_singleton]; omega)
      rw [length_append, length_singleton, append_assoc, singleton_append, Nat.add_right_comm] at hih
      rw [if_pos h, length_cons, ← Nat.add_assoc, show N - l.length = N - (l.length + 1) + 1 by omega, take_succ_cons]
      exact hih
    · have hfull : ¬ l.length + (x :: items).length ≤ N := by
        rw [length_cons]
        omega
      rw [if_neg h, if_neg hfull, show N - l.length = 0 by omega, take_zero, append_nil]
      rfl

lemma pop_ofList (hl : l.length ≤ N) : pop (ofList N l) = .ok (ofList N l.dropLast, l.getLast?) := by
  unfold pop
  obtain rfl | ⟨l, x, rfl⟩ := eq_nil_or_concat' l
  · rfl
  · rw [length_append, length_singleton] at hl
    have hdata : (ofList N (l ++ [x])).data = l ++ x :: List.replicate (N - (l.length + 1)) default := by
      rw [ofList, length_append, length_singleton, append_assoc]
      rfl
    rw [ofList_len, length_append, length_singleton, if_pos (Nat.succ_pos _), Nat.add_sub_cancel, hdata,
      read_append, ok_bind, write_append, ok_bind, ← ofList_data_of_lt (by omega), dropLast_concat,
      getLast?_concat]
    rfl

lemma clear_ofList (hl : l.length ≤ N) : clear (ofList N l) = .ok (ofList N []) := by
  have h := fill_eq [] l (List.replicate (N - l.length) default) default
  rw [replicate_append_replicate, Nat.add_sub_cancel' hl] at h
  rw [clear, ofList_len]
  exact congrArg (fun w => w >>= fun data => Except.ok (SlotVec.mk data 0)) h

omit [Inhabited α] in
lemma exists_split {index : Nat} (h : index < l.length) :
    ∃ front x back, l = front ++ x :: back ∧ front.length = index := by
  refine ⟨l.take index, l[index], l.drop (index + 1), ?_, length_take_of_le h.le⟩
  rw [← drop_eq_getElem_cons h, take_append_drop]

lemma remove_ofList (index : Nat) (hl : l.length ≤ N) :
    remove (ofList N l) index = .ok (ofList N (l.eraseIdx index), l[index]?) := by
  unfold remove
  rw [ofList_len]
  by_cases h : l.length ≤ index
  · rw [if_pos h, eraseIdx_of_length_le h, getElem?_eq_none h]
  · obtain ⟨front, x, middle, rfl, rfl⟩ := exists_split (Nat.lt_of_not_le h)
    have hlen : (front ++ x :: middle).length = (front ++ middle).length + 1 := by
      simp only [length_append, length_cons]
      omega
    have hdata : (ofList N (front ++ x :: middle)).data
        = front ++ x :: (middle ++ List.replicate (N - ((front ++ middle).length + 1)) default) := by
      rw [ofList, hlen, append_assoc, cons_append]
    have hcount : (front ++ middle).length - front.length = middle.length := by
      rw [length_append, Nat.add_sub_cancel_left]
    obtain ⟨y, hshift⟩ := shiftLeft_eq front middle (List.replicate (N - ((front ++ middle).length + 1)) default) x
    have hwrite : write (front ++ (middle ++ y :: List.replicate (N - ((front ++ middle).length + 1)) default))
        (front ++ middle).length default = .ok (ofList N (front ++ middle)).data := by
      rw [← append_assoc, write_append, ofList_data_of_lt (by omega)]
    rw [if_neg h]
    simp only [hdata, read_append, ok_bind, hlen, Nat.add_sub_cancel, hcount, hshift, hwrite]
    rw [eraseIdx_append_of_length_le (Nat.le_refl _), getElem?_append_right (Nat.le_refl _), Nat.sub_self]
    rfl

omit [Inhabited α] in
lemma insertIdx_append (front back : List α) (x : α) : (front ++ back).insertIdx front.length x = front ++ x :: back := by
  induction front with
  | nil => rfl
  | cons y front ih => exact congrArg (y :: ·) ih

lemma insert_ofList (index : Nat) (x : α) : insert N (ofList N l) index x
    = .ok (if N ≤ l.length then (ofList N l, .error "FixedVec is full")
      else if l.length < index then (ofList N l, .error "Index out of bounds")
      else (ofList N (l.insertIdx index x), .ok ())) := by
  unfold insert
  rw [ofList_len]
  by_cases hN : N ≤ l.length
  · rw [if_pos hN, if_pos hN]
  · rw [if_neg hN, if_neg hN]
    by_cases hi : l.length < index
    · rw [if_pos hi, if_pos hi]
    · obtain ⟨front, back, rfl, rfl⟩ : ∃ front back, l = front ++ back ∧ front.length = index :=
        ⟨l.take index, l.drop index, (take_append_drop _ _).symm, length_take_of_le (Nat.le_of_not_lt hi)⟩
      obtain ⟨y, hshift⟩ := shiftRight_eq front back (List.replicate (N - ((front ++ back).length + 1)) default) default
      have hcount : (front ++ back).length - front.length = back.length := by
        rw [length_append, Nat.add_sub_cancel_left]
      rw [← append_assoc] at hshift
      rw [if_neg hi, if_neg hi, ofList_data_of_lt (by omega), hcount, hshift, ok_bind, write_append, ok_bind,
        insertIdx_append, ofList]
      simp only [length_append, length_cons, append_assoc, cons_append, Nat.add_assoc]

lemma retain_ofList (f : List α → α → Bool) (hl : l.length ≤ N) :
    retain (ofList N l) f = .ok (ofList N (retained f [] l)) := by
  obtain ⟨old, seen, hloop, hlen⟩ := retainLoop_eq f [] [] l (List.replicate (N - l.length) default) []
  simp only [nil_append, length_nil, Nat.zero_add] at hloop hlen
  have hfill := fill_eq (retained f [] l) old (List.replicate (N - l.length) default) default
  rw [replicate_append_replicate, show old.length + (N - l.length) = N - (retained f [] l).length by omega] at hfill
  rw [retain, ofList_len, range_eq_range']
  simp only [ofList, hloop, ok_bind, show l.length - (retained f [] l).length = old.length by omega, hfill]

lemma apply_ofList (call : VecCall α) (hl : l.length ≤ N) :
    apply N (ofList N l) call = .ok (ofList N (applyList N l call).1, (applyList N l call).2)
      ∧ (applyList N l call).1.length ≤ N := by
  cases call with
  | push x =>
    rw [apply, push_ofList, applyList]
    split
    · exact ⟨rfl, by rw [length_append, length_singleton]; omega⟩
    · exact ⟨rfl, hl⟩
  | pop =>
    rw [apply, pop_ofList hl, applyList]
    exact ⟨rfl, by rw [length_dropLast]; omega⟩
  | insert index x =>
    rw [apply, insert_ofList, applyList]
    split
    · exact ⟨rfl, hl⟩
    · split
      · exact ⟨rfl, hl⟩
      · exact ⟨rfl, (length_insertIdx_le_succ ..).trans (by omega)⟩
  | remove index =>
    rw [apply, remove_ofList index hl, applyList]
    exact ⟨rfl, (length_eraseIdx_le ..).trans hl⟩
  | retain f =>
    rw [apply, retain_ofList f hl, applyList]
    exact ⟨rfl, (length_retained_le f [] l).trans hl⟩
  | extend items =>
    rw [apply, extend_ofList items hl, applyList]
    refine ⟨rfl, ?_⟩
    rw [length_append, length_take]
    omega
  | clear =>
    rw [apply, clear_ofList hl, applyList]
    exact ⟨rfl, Nat.zero_le N⟩

lemma run_eq_ok (N : Nat) (calls : List (VecCall α)) :
    run N calls = .ok (ofList N (runList N calls).1, (runList N calls).2) ∧ (runList N calls).1.length ≤ N := by
  induction calls using List.reverseRecOn with
  | nil => exact ⟨by simp [run, runList, new, ofList], Nat.zero_le N⟩
  | append_singleton calls call ih =>
    obtain ⟨hrun, hlen⟩ := ih
    obtain ⟨happly, hlen'⟩ := apply_ofList call hlen
    have hlist : runList N (calls ++ [call])
        = ((applyList N (runList N calls).1 call).1, (runList N calls).2 ++ [(applyList N (runList N calls).1 call).2]) := by
      rw [runList, foldl_concat]
      rfl
    rw [run, foldlM_append, ← run, hrun, ok_bind, foldlM_cons, happly, hlist]
    exact ⟨rfl, hlen'⟩

omit [Inhabited α] in
lemma isEqv_replicate {x : α} (hx : eq x x = true) (n : Nat) :
    (List.replicate n x).isEqv (List.replicate n x) eq = true := by
  induction n with
  | zero => rfl
  | succ n ih => rw [replicate_succ, isEqv_cons_cons, hx, ih, Bool.and_self]

lemma eqBy_ofList (hdefault : eq default default = true) {l' : List α} (hl : l.length ≤ N) (hl' : l'.length ≤ N) :
    eqBy eq (ofList N l) (ofList N l') = l.isEqv l' eq := by
  induction l generalizing l' N with
  | nil =>
    cases l' with
    | nil => exact Bool.and_eq_true_iff.mpr ⟨isEqv_replicate hdefault N, rfl⟩
    | cons y l' => exact Bool.and_false _
  | cons x l ih =>
    cases l' with
    | nil => exact Bool.and_false _
    | cons y l' =>
      obtain ⟨N, rfl⟩ : ∃ M, N = M + 1 := ⟨N - 1, by rw [length_cons] at hl; omega⟩
      have h := ih (Nat.le_of_succ_le_succ hl) (Nat.le_of_succ_le_succ hl')
      simp only [eqBy, ofList] at h ⊢
      rw [length_cons, length_cons, Nat.add_sub_add_right, Nat.add_sub_add_right, cons_append,
        cons_append, isEqv_cons_cons, isEqv_cons_cons, ← h, Bool.and_assoc]
      have hlen : (l.length + 1 == l'.length + 1) = (l.length == l'.length) := by
        rw [Bool.eq_iff_iff, beq_iff_eq, beq_iff_eq, Nat.add_right_cancel_iff]
      rw [hlen]

/-- A vector is a list with a bounded length. After any calls it has the elements that a list has after the same calls, each
call has returned the same and none has written beyond the array; unused slots hold the default; and the derived equality is
that of the lists. -/
theorem run_refines (N : Nat) (calls : List (VecCall α)) :
    ∃ v, run N calls = .ok (v, (runList N calls).2) ∧ v.toList = (runList N calls).1
      ∧ v.data.length = N ∧ (∀ i, v.len ≤ i → i < N → v.data[i]? = some default)
      ∧ ∀ calls' v' replies', run N calls' = .ok (v', replies') → ∀ eq : α → α → Bool, eq default default = true →
        eqBy eq v v' = v.toList.isEqv v'.toList eq := by
  obtain ⟨hrun, hlen⟩ := run_eq_ok N calls
  refine ⟨_, hrun, toList_ofList _, ?_, ?_, ?_⟩
  · rw [ofList, length_append, length_replicate, Nat.add_sub_cancel' hlen]
  · intro i hi hN
    rw [ofList_len] at hi
    rw [ofList, getElem?_append_right hi, getElem?_replicate_of_lt (by omega)]
  · intro calls' v' replies' hrun' eq hdefault
    obtain ⟨hrun'', hlen'⟩ := run_eq_ok N calls'
    cases hrun'.symm.trans hrun''
    rw [eqBy_ofList hdefault hlen hlen', toList_ofList, toList_ofList]

omit [Inhabited α] in
lemma retained_eq_filter (p : α → Bool) (seen l : List α) : retained (fun _ => p) seen l = l.filter p := by
  induction l generalizing seen with
  | nil => rfl
  | cons x l ih =>
    rw [retained, ih, filter_cons]

/-- The operations of `FixedVec` are those of the slots. -/
theorem fixedVec_refined (v : FixedVec α N) :
    (∀ x, push N (ofList N v.toList) x = .ok (match v.push x with
      | some w => (ofList N w.toList, .ok ())
      | none => (ofList N v.toList, .error "FixedVec is full")))
    ∧ (∀ p, retain (ofList N v.toList) (fun _ => p) = .ok (ofList N (v.retain p).toList))
    ∧ ∀ xs w, v.extend xs = some w → extend N (ofList N v.toList) xs = .ok (ofList N w.toList, .ok ()) := by
  refine ⟨?_, ?_, ?_⟩
  · intro x
    rw [push_ofList, FixedVec.push]
    split <;> rfl
  · intro p
    rw [retain_ofList _ v.bound, retained_eq_filter, FixedVec.retain_toList]
  · intro xs w h
    obtain ⟨hlen, hw⟩ := FixedVec.extend_eq_some.mp h
    rw [extend_ofList xs v.bound, if_pos hlen, hw, take_of_length_le (by omega)]

end Calls
end SlotVec
end Leviathan
