import Mathlib.Algebra.Order.Ring.Int
import Mathlib.Data.List.Basic

/-!
# Checkpoints of a fold

A state is computed from a list of entries one after the other, and now and then a copy is kept, so that the state in
the middle of the list is computed from the nearest copy. There may be several initial states between which the first
entry makes no difference. `Checkpointed` says that all copies and the last state are what the entries lead to;
appending entries keeps it, and so do the copies before an entry that is put in between.
-/

namespace Leviathan
open List

variable {σ α : Type} {f : σ → α → σ} {I : σ → Prop} {l l' : List α} {s init tail : σ}
  {checkpoints : List (Nat × σ)} {c : Nat × σ} {n idx : Nat}

/-- A state that some entries lead to from an initial one. -/
def Replays (f : σ → α → σ) (I : σ → Prop) (l : List α) (s : σ) : Prop := ∃ init, I init ∧ l.foldl f init = s

lemma Replays.nil (h : I s) : Replays f I [] s := ⟨s, h, rfl⟩

lemma Replays.append (h : Replays f I l s) (l' : List α) : Replays f I (l ++ l') (l'.foldl f s) := by
  obtain ⟨init, hinit, rfl⟩ := h
  exact ⟨init, hinit, foldl_append⟩

lemma Replays.eq_foldl (hI : ∀ i j, I i → I j → ∀ a, f i a = f j a) (h : Replays f I l s) (hl : l ≠ [])
    (hinit : I init) : s = l.foldl f init := by
  obtain ⟨init', hinit', rfl⟩ := h
  obtain ⟨a, l, rfl⟩ := exists_cons_of_ne_nil hl
  rw [foldl_cons, foldl_cons, hI init' init hinit' hinit a]

/-- A copy of the state before an entry. -/
def GoodCheckpoint (f : σ → α → σ) (I : σ → Prop) (l : List α) (c : Nat × σ) : Prop :=
  c.1 ≤ l.length ∧ Replays f I (l.take c.1) c.2

lemma GoodCheckpoint.of_take (h : GoodCheckpoint f I l c) (hc : c.1 ≤ n) (hle : n ≤ l'.length)
    (htake : l'.take n = l.take n) : GoodCheckpoint f I l' c := by
  refine ⟨hc.trans hle, ?_⟩
  have hsame : l'.take c.1 = l.take c.1 := by
    rw [← Nat.min_eq_left hc, ← take_take, htake, take_take]
  rw [hsame]
  exact h.2

/-- The copies and the last state are right. -/
structure Checkpointed (f : σ → α → σ) (I : σ → Prop) (l : List α) (checkpoints : List (Nat × σ)) (tail : σ) : Prop where
  good : ∀ c ∈ checkpoints, GoodCheckpoint f I l c
  tail : Replays f I l tail

/-- Go through the entries from an index on, and keep a copy at every multiple of an interval. -/
def extendCheckpoints (f : σ → α → σ) (interval : Nat) : Nat → List α → List (Nat × σ) × σ → List (Nat × σ) × σ
  | _, [], acc => acc
  | idx, entry :: entries, (checkpoints, tail) =>
    extendCheckpoints f interval (idx + 1) entries
      (if idx % interval = 0 then checkpoints ++ [(idx, tail)] else checkpoints, f tail entry)

lemma Checkpointed.extend {interval : Nat} {done rest : List α} (hidx : done.length = idx)
    (hgood : ∀ c ∈ checkpoints, GoodCheckpoint f I (done ++ rest) c) (htail : Replays f I done tail) :
    Checkpointed f I (done ++ rest) (extendCheckpoints f interval idx rest (checkpoints, tail)).1
      (extendCheckpoints f interval idx rest (checkpoints, tail)).2 := by
  induction rest generalizing idx done checkpoints tail with
  | nil =>
    rw [append_nil] at hgood ⊢
    exact ⟨hgood, htail⟩
  | cons entry rest ih =>
    have hsplit : done ++ entry :: rest = (done ++ [entry]) ++ rest := by simp
    rw [hsplit] at hgood ⊢
    refine ih (by rw [length_append, hidx]; rfl) ?_ (htail.append [entry])
    intro c hc
    split at hc
    · obtain hc | hc := mem_append.mp hc
      · exact hgood c hc
      · -- the copy is made before the entry is applied
        rw [mem_singleton.mp hc]
        refine ⟨by simp [hidx], ?_⟩
        rw [append_assoc, ← hidx, take_left]
        exact htail
    · exact hgood c hc

/-- The last copy before an index, or the beginning. -/
def nearestCheckpoint (checkpoints : List (Nat × σ)) (idx : Nat) (init : σ) : Nat × σ :=
  (checkpoints.reverse.find? fun c => c.1 ≤ idx).getD (0, init)

lemma Checkpointed.nearest (h : Checkpointed f I l checkpoints tail) (hinit : I init) :
    Replays f I (l.take (idx + 1)) (((l.take (idx + 1)).drop (nearestCheckpoint checkpoints idx init).1).foldl f
      (nearestCheckpoint checkpoints idx init).2) := by
  generalize hc : nearestCheckpoint checkpoints idx init = c
  obtain ⟨hle, hreplays⟩ : c.1 ≤ idx + 1 ∧ Replays f I (l.take c.1) c.2 := by
    rw [← hc, nearestCheckpoint]
    cases hfind : checkpoints.reverse.find? fun c => c.1 ≤ idx with
    | none => exact ⟨Nat.zero_le _, .nil hinit⟩
    | some c =>
      have hmem := mem_reverse.mp (mem_of_find?_eq_some hfind)
      have hidx : c.1 ≤ idx := by simpa using find?_some hfind
      exact ⟨hidx.trans (Nat.le_succ _), (h.good c hmem).2⟩
  have hsplit := hreplays.append ((l.take (idx + 1)).drop c.1)
  rwa [← Nat.min_eq_left hle, ← take_take, Nat.min_eq_left hle, take_append_drop] at hsplit

/-- The copies before an entry: the last one of them, or the beginning, and those before that one. -/
def rollBack (checkpoints : List (Nat × σ)) (n : Nat) (init : σ) : (Nat × σ) × List (Nat × σ) :=
  let kept := checkpoints.take ((checkpoints.findIdx? fun c => n ≤ c.1).getD checkpoints.length)
  (kept.getLast?.getD (0, init), kept.dropLast)

lemma lt_of_mem_kept
    (h : c ∈ checkpoints.take ((checkpoints.findIdx? fun c => n ≤ c.1).getD checkpoints.length)) :
    c ∈ checkpoints ∧ c.1 < n := by
  refine ⟨mem_of_mem_take h, ?_⟩
  cases hfind : checkpoints.findIdx? fun c => n ≤ c.1 with
  | none =>
    have hall := findIdx?_eq_none_iff.mp hfind c (mem_of_mem_take h)
    simpa using hall
  | some i =>
    rw [hfind, Option.getD_some] at h
    obtain ⟨j, hj, rfl⟩ := mem_take_iff_getElem.mp h
    obtain ⟨_, _, hbefore⟩ := findIdx?_eq_some_iff_getElem.mp hfind
    simpa using hbefore j (Nat.lt_of_lt_of_le hj (Nat.min_le_left _ _))

lemma Checkpointed.rollBack (h : Checkpointed f I l checkpoints tail) (hinit : I init) (hle : n ≤ l'.length)
    (htake : l'.take n = l.take n) :
    (∀ c ∈ (rollBack checkpoints n init).2, GoodCheckpoint f I l' c)
      ∧ GoodCheckpoint f I l' (rollBack checkpoints n init).1 := by
  have hgood : ∀ c ∈ checkpoints.take ((checkpoints.findIdx? fun c => n ≤ c.1).getD checkpoints.length),
      GoodCheckpoint f I l' c := by
    intro c hc
    obtain ⟨hmem, hlt⟩ := lt_of_mem_kept hc
    exact (h.good c hmem).of_take hlt.le hle htake
  refine ⟨fun c hc => hgood c (dropLast_subset _ hc), ?_⟩
  rw [Leviathan.rollBack]
  cases hlast : (checkpoints.take ((checkpoints.findIdx? fun c => n ≤ c.1).getD checkpoints.length)).getLast? with
  | none => exact ⟨Nat.zero_le _, .nil hinit⟩
  | some c => exact hgood c (mem_of_getLast? hlast)

end Leviathan
