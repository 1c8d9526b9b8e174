import Mathlib.Data.List.Basic

/-!
# Reading a stream in parts

A reader takes what there is of a stream and returns what it has made of it, with the number of elements it is done
with. Later, when the stream has grown, it may go on from there. `Resumes read x` says that after `x` this is as good as
reading everything at once, whatever comes. A reader of frames that end with a delimiter, which is done with an
unfinished one, can only go on where there is none (`frames_append`); one of records of a fixed size always can
(`records_append`).
-/

namespace Leviathan
open List

section Resumes
variable {α β : Type}

/-- After `x` a reader can go on from where it was done, whatever comes. -/
def Resumes (read : List β → List α × Nat) (x : List β) : Prop :=
  ∀ t, read (x ++ t)
    = ((read x).1 ++ (read (x.drop (read x).2 ++ t)).1, (read x).2 + (read (x.drop (read x).2 ++ t)).2)

end Resumes

section Frames
variable {α : Type} [DecidableEq α] {d : α} {s : List α}

/-- The frames of a stream that continues an unfinished one; each ends with its delimiter. -/
def framesFrom (d : α) : List α → List α → List (List α)
  | _, [] => []
  | acc, a :: s => if a = d then (acc ++ [a]) :: framesFrom d [] s else framesFrom d (acc ++ [a]) s

def frames (d : α) (s : List α) : List (List α) := framesFrom d [] s

/-- What is left of a stream that continues an unfinished frame: the frame that is unfinished now. -/
def unfinishedFrom (d : α) : List α → List α → List α
  | acc, [] => acc
  | acc, a :: s => if a = d then unfinishedFrom d [] s else unfinishedFrom d (acc ++ [a]) s

/-- The unfinished frame at the end of a stream. -/
def unfinished (d : α) (s : List α) : List α := unfinishedFrom d [] s

lemma framesFrom_append (acc s t : List α) :
    framesFrom d acc (s ++ t) = framesFrom d acc s ++ framesFrom d (unfinishedFrom d acc s) t := by
  induction s generalizing acc with
  | nil => rfl
  | cons a s ih =>
    simp only [cons_append, framesFrom, unfinishedFrom]
    split
    · rw [ih, cons_append]
    · exact ih _

lemma frames_append (h : unfinished d s = []) (t : List α) : frames d (s ++ t) = frames d s ++ frames d t := by
  rw [frames, framesFrom_append, show unfinishedFrom d [] s = [] from h]
  rfl

lemma framesFrom_of_notMem {acc : List α} (h : d ∉ s) : framesFrom d acc s = [] := by
  induction s generalizing acc with
  | nil => rfl
  | cons a s ih =>
    obtain ⟨hne, hs⟩ := ne_and_not_mem_of_not_mem_cons h
    rw [framesFrom, if_neg (Ne.symm hne)]
    exact ih hs

lemma frames_of_notMem (h : d ∉ s) (t : List α) : frames d (s ++ d :: t) = (s ++ [d]) :: frames d t := by
  have hfrom : ∀ acc, framesFrom d acc (s ++ d :: t) = (acc ++ s ++ [d]) :: frames d t := by
    induction s with
    | nil =>
      intro acc
      simp [framesFrom, frames]
    | cons a s ih =>
      intro acc
      obtain ⟨hne, hs⟩ := ne_and_not_mem_of_not_mem_cons h
      rw [cons_append, framesFrom, if_neg (Ne.symm hne), ih hs]
      simp
  rw [frames, hfrom, nil_append]

lemma frames_of_findIdx?_none (h : s.findIdx? (fun a => a == d) = none) : frames d s = [] := by
  refine framesFrom_of_notMem fun hmem => ?_
  have hne := findIdx?_eq_none_iff.mp h d hmem
  simp at hne

lemma frames_of_findIdx?_some {i : Nat} (h : s.findIdx? (fun a => a == d) = some i) :
    i < s.length ∧ frames d s = s.take (i + 1) :: frames d (s.drop (i + 1)) := by
  obtain ⟨hlt, hd, hne⟩ := findIdx?_eq_some_iff_getElem.mp h
  have hi : s[i] = d := beq_iff_eq.mp hd
  have hnot : d ∉ s.take i := by
    intro hmem
    obtain ⟨j, hj, he⟩ := mem_take_iff_getElem.mp hmem
    have hji : j < i := by omega
    have := hne j hji
    simp [he] at this
  have hs : s = s.take i ++ d :: s.drop (i + 1) := by
    rw [← hi, ← drop_eq_getElem_cons hlt, take_append_drop]
  have htake : s.take (i + 1) = s.take i ++ [d] := by rw [take_add_one, getElem?_eq_getElem hlt, hi]; rfl
  refine ⟨hlt, ?_⟩
  rw [htake, ← frames_of_notMem hnot, ← hs]

end Frames

section Records
variable {α β : Type} {size : Nat} {f : List β → α} {s : List β}

/-- The complete records of a stream, each read with `f`. -/
def records (size : Nat) (f : List β → α) (s : List β) : List α :=
  if _h : 0 < size ∧ size ≤ s.length then f (s.take size) :: records size f (s.drop size) else []
termination_by s.length
decreasing_by
  rw [List.length_drop]
  omega

lemma records_of_lt (h : s.length < size) : records size f s = [] := by
  rw [records, dif_neg]
  omega

lemma records_of_le (hpos : 0 < size) (h : size ≤ s.length) :
    records size f s = f (s.take size) :: records size f (s.drop size) := by
  rw [records, dif_pos ⟨hpos, h⟩]

lemma length_records_le (f : List β → α) (s : List β) : (records size f s).length * size ≤ s.length := by
  fun_induction records size f s with
  | case1 s h ih =>
    rw [length_drop] at ih
    rw [length_cons, Nat.succ_mul]
    omega
  | case2 s h => simp

lemma records_append (f : List β → α) (s t : List β) :
    records size f (s ++ t)
      = records size f s ++ records size f (s.drop ((records size f s).length * size) ++ t) := by
  fun_induction records size f s with
  | case1 s h ih =>
    rw [records_of_le h.1 (by rw [length_append]; omega), take_append_of_le_length h.2,
      drop_append_of_le_length h.2, ih, length_cons, Nat.succ_mul, Nat.add_comm _ size, ← drop_drop,
      cons_append]
  | case2 s h => simp

end Records
end Leviathan
