import Mathlib.Algebra.Order.Ring.Int
import Mathlib.Data.List.Sort

/-!
# Sorting by a key

`List.mergeSort` with the comparison of a key, as stable sorts of other languages are called.

* `pairwise_mergeSort_key`: the result is sorted; `mergeSort_key_of_pairwise`: a sorted list stays as it is.
* `filter_lt_append`, `filter_between_append`: what comes after a key, cut at another one.
* `take_mergeSort`: entries that are merged into a sorted list leave those that come before them where they are.
-/

namespace Leviathan
open List
variable {α κ : Type} [LinearOrder κ] {key : α → κ} {l l' : List α} {t : κ}

private lemma key_trans (a b c : α) (hab : decide (key a ≤ key b) = true) (hbc : decide (key b ≤ key c) = true) :
    decide (key a ≤ key c) = true :=
  decide_eq_true ((of_decide_eq_true hab).trans (of_decide_eq_true hbc))

private lemma key_total (a b : α) : (decide (key a ≤ key b) || decide (key b ≤ key a)) = true := by
  simpa using le_total (key a) (key b)

lemma pairwise_mergeSort_key (key : α → κ) (l : List α) :
    (l.mergeSort fun a b => decide (key a ≤ key b)).Pairwise fun a b => key a ≤ key b :=
  (pairwise_mergeSort key_trans key_total l).imp of_decide_eq_true

lemma mergeSort_key_of_pairwise (h : l.Pairwise fun a b => key a ≤ key b) :
    (l.mergeSort fun a b => decide (key a ≤ key b)) = l :=
  mergeSort_of_pairwise (h.imp decide_eq_true)

lemma key_le_getLast {a z : α} (h : l.Pairwise fun a b => key a ≤ key b) (hz : l.getLast? = some z) (ha : a ∈ l) :
    key a ≤ key z := by
  obtain ⟨init, rfl⟩ := getLast?_eq_some_iff.mp hz
  obtain ha | ha := mem_append.mp ha
  · exact (pairwise_append.mp h).2.2 a ha z (by simp)
  · rw [mem_singleton.mp ha]

lemma filter_lt_eq_takeWhile (h : l.Pairwise fun a b => key a ≤ key b) :
    l.filter (fun a => key a < t) = l.takeWhile fun a => key a < t := by
  induction l with
  | nil => rfl
  | cons a l ih =>
    obtain ⟨ha, hl⟩ := pairwise_cons.mp h
    by_cases hat : key a < t
    · rw [filter_cons_of_pos (by simpa using hat), takeWhile_cons_of_pos (by simpa using hat), ih hl]
    · rw [filter_cons_of_neg (by simpa using hat), takeWhile_cons_of_neg (by simpa using hat)]
      refine filter_eq_nil_iff.mpr fun b hb => ?_
      have hle := ha b hb
      simpa using (not_lt.mp hat).trans hle

/-- In a sorted list, the entries after a key are cut at a later key. -/
lemma filter_lt_append {a b : κ} (h : l.Pairwise fun x y => key x ≤ key y) (hab : a ≤ b) :
    l.filter (fun x => a < key x) = l.filter (fun x => a < key x ∧ key x ≤ b) ++ l.filter fun x => b < key x := by
  induction l with
  | nil => rfl
  | cons x l ih =>
    obtain ⟨hx, hl⟩ := pairwise_cons.mp h
    by_cases hxb : key x ≤ b
    · simp only [filter_cons, ih hl, hxb, and_true, decide_eq_true_eq, not_lt.mpr hxb, if_false]
      split <;> rfl
    · -- all that follow are after the later key, too
      have hnone : ∀ y ∈ x :: l, ¬(a < key y ∧ key y ≤ b) := by
        intro y hy hyb
        obtain rfl | hy := mem_cons.mp hy
        · exact hxb hyb.2
        · exact hxb ((hx y hy).trans hyb.2)
      have hfront : (x :: l).filter (fun x => a < key x ∧ key x ≤ b) = [] :=
        filter_eq_nil_iff.mpr fun y hy => by simpa using hnone y hy
      rw [hfront, nil_append]
      refine filter_congr fun y hy => decide_eq_decide.mpr ⟨fun hay => ?_, hab.trans_lt⟩
      exact not_le.mp fun hyb => hnone y hy ⟨hay, hyb⟩

@[inherit_doc filter_lt_append]
lemma filter_between_append {a b c : κ} (h : l.Pairwise fun x y => key x ≤ key y) (hab : a ≤ b) (hbc : b ≤ c) :
    l.filter (fun x => a < key x ∧ key x ≤ c)
      = l.filter (fun x => a < key x ∧ key x ≤ b) ++ l.filter fun x => b < key x ∧ key x ≤ c := by
  have hcut := filter_lt_append (h.sublist (filter_sublist (p := fun x => decide (key x ≤ c)))) hab
  simp only [filter_filter, ← Bool.decide_and] at hcut
  rw [hcut]
  congr 1
  refine filter_congr fun x _ => decide_eq_decide.mpr ⟨And.left, fun hx => ⟨hx, hx.2.trans hbc⟩⟩

lemma take_mergeSort (h : l.Pairwise fun a b => key a ≤ key b) (hl' : ∀ a ∈ l', t ≤ key a) :
    ((l ++ l').mergeSort fun a b => decide (key a ≤ key b)).take (l.takeWhile fun a => key a < t).length
      = l.take (l.takeWhile fun a => key a < t).length := by
  have hsorted := pairwise_mergeSort_key key (l ++ l')
  generalize hm : ((l ++ l').mergeSort fun a b => decide (key a ≤ key b)) = m at hsorted ⊢
  have hperm : m.Perm (l ++ l') := hm ▸ mergeSort_perm _ _
  have hnone : l'.filter (fun a => key a < t) = [] := by
    refine filter_eq_nil_iff.mpr fun a ha => ?_
    simpa using hl' a ha
  -- the sort is stable, so what comes before the key is in both lists in the same order
  have hfront : l.filter (fun a => key a < t) = m.filter fun a => key a < t := by
    have hsub : l.Sublist m := by
      rw [← hm]
      exact sublist_mergeSort key_trans key_total (h.imp decide_eq_true) (sublist_append_left l l')
    refine (hsub.filter _).eq_of_length ?_
    rw [(hperm.filter _).length_eq, filter_append, hnone, append_nil]
  rw [filter_lt_eq_takeWhile h, filter_lt_eq_takeWhile hsorted] at hfront
  have hl : l.takeWhile (fun a => key a < t) <+: l := takeWhile_prefix _
  have hm : l.takeWhile (fun a => key a < t) <+: m := hfront ▸ takeWhile_prefix _
  rw [← prefix_iff_eq_take.mp hm, ← prefix_iff_eq_take.mp hl]

end Leviathan
