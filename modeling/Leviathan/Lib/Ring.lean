import Mathlib.Data.ZMod.Defs
import Mathlib.Tactic.Abel

/-!
# Ring buffers

A ring buffer keeps the youngest elements of a sequence in a fixed number of slots; its head is the slot of the youngest.
`Recent slots head l` relates it to the whole sequence `l`, newest first: going back from the head one finds the elements of
`l`, as far as the slots go. Moving on to the next slot puts an element in front of the sequence (`Recent.push`), and
overwriting the slot of the head exchanges the first one (`Recent.update`).
-/

namespace Leviathan

/-- Going back from the head, the slots hold the first elements of a list. -/
def Recent {α : Type} {N : Nat} [NeZero N] (slots : Vector α N) (head : Fin N) (l : List α) : Prop :=
  ∀ (k : Fin N) (a : α), l[k.val]? = some a → slots[(head - k).val] = a

section Recent
variable {α : Type} {N : Nat} [NeZero N] {slots : Vector α N} {head : Fin N} {l : List α} {a b : α}

lemma Recent.single (h : slots[head.val] = a) : Recent slots head [a] := by
  intro k b hk
  have hk0 : k.val = 0 := by
    by_contra hne
    rw [List.getElem?_eq_none (by simp only [List.length_singleton]; omega)] at hk
    cases hk
  rw [hk0] at hk
  cases hk
  have hz : head - k = head := by
    rw [show k = 0 from Fin.ext hk0, sub_zero]
  simp only [hz, h]

lemma Recent.at {k : Fin N} (h : Recent slots head l) (hk : k.val < l.length) :
    l[k.val]? = some slots[(head - k).val] := by
  obtain ⟨a, ha⟩ : ∃ a, l[k.val]? = some a := ⟨_, List.getElem?_eq_getElem hk⟩
  rw [ha, h k a ha]

lemma Recent.update (h : Recent slots head (a :: l)) (b : α) : Recent (slots.set head.val b head.isLt) head (b :: l) := by
  intro k x hk
  rw [Vector.getElem_set]
  by_cases hk0 : k = 0
  · subst hk0
    rw [if_pos (by rw [sub_zero])]
    simpa using hk
  · have hne : head.val ≠ (head - k).val := fun e => hk0 (sub_eq_self.mp (Fin.ext e).symm)
    rw [if_neg hne]
    refine h k x ?_
    obtain ⟨i, hi⟩ := Nat.exists_eq_succ_of_ne_zero (fun e => hk0 (Fin.ext e))
    rw [hi] at hk ⊢
    exact hk

lemma Recent.push (h : Recent slots head l) (b : α) :
    Recent (slots.set (head + 1).val b (head + 1).isLt) (head + 1) (b :: l) := by
  intro k x hk
  rw [Vector.getElem_set]
  by_cases hk0 : k = 0
  · subst hk0
    rw [if_pos (by rw [sub_zero])]
    simpa using hk
  · have hne : (head + 1).val ≠ (head + 1 - k).val := fun e => hk0 (sub_eq_self.mp (Fin.ext e).symm)
    have hback : head + 1 - k = head - (k - 1) := by abel
    have hpred : (k - 1).val + 1 = k.val := by
      have hpos : k.val ≠ 0 := fun e => hk0 (Fin.ext e)
      rw [Fin.val_sub_one_of_ne_zero hk0]
      omega
    rw [if_neg hne]
    simp only [hback]
    refine h (k - 1) x ?_
    rw [← hpred] at hk
    exact hk

end Recent
end Leviathan
