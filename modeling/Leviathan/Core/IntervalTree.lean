import Leviathan.Lib.SortedMap
import Mathlib.Algebra.Order.Ring.Nat
import Mathlib.Data.List.Induction
import Mathlib.Data.List.Pairwise

/-!
# Trees of intervals

`IntervalTree` of `shared/core/src/interval_tree.rs`: a map from the starts of intervals to the intervals and their
values. An interval is looked up among its neighbours in the order of the starts only, which is enough because stored
intervals are disjoint (`Separated`). `remove` takes the entry with the same start out of the map before it compares the
intervals.
-/

namespace Leviathan
open List

/-- Rust `ClosedInterval`, whose fields are public. -/
structure RawInterval (T : Type) where
  start : T
  end_ : T
deriving DecidableEq, Repr

structure IntervalTree (T V : Type) where
  tree : SortedMap T (RawInterval T × V)
deriving DecidableEq, Repr

section Calls
variable {T V : Type} [LinearOrder T]

def RawInterval.contains (interval : RawInterval T) (point : T) : Bool :=
  interval.start ≤ point ∧ point ≤ interval.end_

def RawInterval.overlaps (interval other : RawInterval T) : Bool :=
  interval.start ≤ other.end_ ∧ other.start ≤ interval.end_

namespace IntervalTree

def new : IntervalTree T V := ⟨[]⟩

def insert (t : IntervalTree T V) (interval : RawInterval T) (value : V) : Except String (IntervalTree T V) :=
  if (SortedMap.lastUpTo interval.start t.tree).any (interval.start ≤ ·.2.1.end_) then
    .error "Overlapping interval"
  else if (SortedMap.firstFrom interval.start t.tree).any (·.2.1.start ≤ interval.end_) then
    .error "Overlapping interval"
  else
    .ok ⟨SortedMap.insert interval.start (interval, value) t.tree⟩

def get (t : IntervalTree T V) (point : T) : Option V :=
  ((SortedMap.lastUpTo point t.tree).filter (·.2.1.contains point)).map (·.2.2)

/-- Rust `IntervalTree::remove`. What the entry is compared with is asked after it has been removed. -/
def remove (t : IntervalTree T V) (interval : RawInterval T) : Option V × IntervalTree T V :=
  let removed := SortedMap.remove interval.start t.tree
  ((removed.1.filter (·.2.1 = interval)).map (·.2.2), ⟨removed.2⟩)

/-- Rust `IntervalTree::iter`. -/
def entries (t : IntervalTree T V) : List (RawInterval T × V) := t.tree.map Prod.snd

end IntervalTree

inductive TreeCall (T V : Type) where
  | insert (interval : RawInterval T) (value : V)
  | remove (interval : RawInterval T)

namespace IntervalTree

/-- The tree after a call. -/
def apply (t : IntervalTree T V) : TreeCall T V → IntervalTree T V
  | .insert interval value => (t.insert interval value).toOption.getD t
  | .remove interval => (t.remove interval).2

/-- The tree after some calls. -/
def run (calls : List (TreeCall T V)) : IntervalTree T V := calls.foldl apply new

/-- The intervals of a tree are under their starts, have a start up to the end, and lie one behind the other. -/
structure Separated (t : IntervalTree T V) : Prop where
  key : ∀ e ∈ t.tree, e.1 = e.2.1.start ∧ e.2.1.start ≤ e.2.1.end_
  pairwise : t.tree.Pairwise fun a b => a.1 < b.1 ∧ a.2.1.end_ < b.2.1.start

variable {t t' : IntervalTree T V} {interval : RawInterval T} {value : V} {a b : T × RawInterval T × V}

lemma mem_entries (h : t.Separated) : (interval, value) ∈ t.entries ↔ (interval.start, interval, value) ∈ t.tree := by
  unfold entries
  rw [mem_map]
  constructor
  · rintro ⟨⟨k, e⟩, he, rfl⟩
    have hk : k = interval.start := (h.key _ he).1
    exact hk ▸ he
  · intro he
    exact ⟨_, he, rfl⟩

lemma Separated.eq_or_lt (h : t.Separated) (ha : a ∈ t.tree) (hb : b ∈ t.tree) :
    a = b ∨ a.2.1.end_ < b.2.1.start ∨ b.2.1.end_ < a.2.1.start := by
  refine List.Pairwise.forall_of_forall_of_flip (R := fun a b => a = b ∨ a.2.1.end_ < b.2.1.start ∨ b.2.1.end_ < a.2.1.start)
    (fun _ _ => .inl rfl) (h.pairwise.imp ?_) (h.pairwise.imp ?_) ha hb
  · intro a b hlt
    exact .inr (.inl hlt.2)
  · intro a b hlt
    exact .inr (.inr hlt.2)

lemma Separated.key_inj (h : t.Separated) (ha : a ∈ t.tree) (hb : b ∈ t.tree) (hab : a.1 = b.1) : a = b := by
  obtain ⟨hka, hle⟩ := h.key a ha
  obtain ⟨hkb, hle'⟩ := h.key b hb
  rw [hka, hkb] at hab
  obtain hab' | hlt | hlt := h.eq_or_lt ha hb
  · exact hab'
  · exact absurd (hle.trans_lt hlt) (hab ▸ lt_irrefl _)
  · exact absurd (hle'.trans_lt hlt) (hab ▸ lt_irrefl _)

lemma overlaps_iff (h : t.Separated) (hle : interval.start ≤ interval.end_) :
    ((SortedMap.lastUpTo interval.start t.tree).any (interval.start ≤ ·.2.1.end_) = true
      ∨ (SortedMap.firstFrom interval.start t.tree).any (·.2.1.start ≤ interval.end_) = true)
      ↔ ∃ e ∈ t.entries, interval.overlaps e.1 := by
  simp only [Option.any_eq_true, decide_eq_true_eq, entries, mem_map, RawInterval.overlaps]
  constructor
  · rintro (⟨e, he, hend⟩ | ⟨e, he, hstart⟩)
    · obtain ⟨hmem, hk⟩ := SortedMap.mem_of_lastUpTo he
      rw [(h.key e hmem).1] at hk
      exact ⟨_, ⟨e, hmem, rfl⟩, hend, hk.trans hle⟩
    · obtain ⟨hmem, hk⟩ := SortedMap.mem_of_firstFrom he
      obtain ⟨hkey, hle'⟩ := h.key e hmem
      rw [hkey] at hk
      exact ⟨_, ⟨e, hmem, rfl⟩, hk.trans hle', hstart⟩
  · rintro ⟨_, ⟨e, he, rfl⟩, hend, hstart⟩
    have hkey := (h.key e he).1
    obtain hbefore | hafter := le_total e.1 interval.start
    · -- the last interval before ends no earlier
      obtain ⟨e', he', heq | hlt⟩ := SortedMap.exists_lastUpTo h.pairwise he hbefore
      · exact .inl ⟨e', he', heq ▸ hend⟩
      · have hle' := (h.key e' (SortedMap.mem_of_lastUpTo he').1).2
        exact .inl ⟨e', he', hend.trans (hlt.2.le.trans hle')⟩
    · -- the first interval after starts no later
      obtain ⟨e', he', heq | hlt⟩ := SortedMap.exists_firstFrom h.pairwise he hafter
      · exact .inr ⟨e', he', heq ▸ hstart⟩
      · have hle' := (h.key e' (SortedMap.mem_of_firstFrom he').1).2
        exact .inr ⟨e', he', (hle'.trans hlt.2.le).trans hstart⟩

lemma insert_of_overlaps (h : t.Separated) (hle : interval.start ≤ interval.end_) (value : V)
    (hover : ∃ e ∈ t.entries, interval.overlaps e.1) : t.insert interval value = .error "Overlapping interval" := by
  unfold insert
  obtain hlast | hfirst := (overlaps_iff h hle).mpr hover
  · exact if_pos hlast
  · rw [if_pos hfirst, ite_self]

lemma insert_of_not_overlaps (h : t.Separated) (hle : interval.start ≤ interval.end_) (value : V)
    (hover : ¬ ∃ e ∈ t.entries, interval.overlaps e.1) :
    t.insert interval value = .ok ⟨SortedMap.insert interval.start (interval, value) t.tree⟩ := by
  unfold insert
  obtain ⟨hlast, hfirst⟩ := not_or.mp (mt (overlaps_iff h hle).mp hover)
  rw [if_neg hlast, if_neg hfirst]

lemma lt_or_lt_of_not_overlaps (hover : ¬ ∃ e ∈ t.entries, interval.overlaps e.1) {e : T × RawInterval T × V}
    (he : e ∈ t.tree) : e.2.1.end_ < interval.start ∨ interval.end_ < e.2.1.start := by
  have hnot : ¬ interval.overlaps e.2.1 := fun ho => hover ⟨e.2, mem_map_of_mem he, ho⟩
  simp only [RawInterval.overlaps, decide_eq_true_eq, not_and_or, not_le] at hnot
  exact hnot

lemma ne_of_not_overlaps (h : t.Separated) (hle : interval.start ≤ interval.end_)
    (hover : ¬ ∃ e ∈ t.entries, interval.overlaps e.1) : ∀ e ∈ t.tree, e.1 ≠ interval.start := by
  intro e he hk
  obtain ⟨hkey, hle'⟩ := h.key e he
  rw [hkey] at hk
  obtain hlt | hlt := lt_or_lt_of_not_overlaps hover he
  · exact absurd (hle'.trans_lt hlt) (hk ▸ lt_irrefl _)
  · exact absurd (hle.trans_lt hlt) (hk ▸ lt_irrefl _)

/-- An interval that overlaps none keeps the tree separated. -/
lemma Separated.insert (h : t.Separated) (hle : interval.start ≤ interval.end_) (value : V)
    (hover : ¬ ∃ e ∈ t.entries, interval.overlaps e.1) :
    (IntervalTree.mk (SortedMap.insert interval.start (interval, value) t.tree)).Separated := by
  have hne := ne_of_not_overlaps h hle hover
  refine ⟨?_, ?_⟩
  · intro e he
    obtain rfl | he := (SortedMap.mem_insert hne).mp he
    · exact ⟨rfl, hle⟩
    · exact h.key e he
  · refine SortedMap.pairwise_insert h.pairwise hne ?_ ?_ fun _ _ hlt => hlt.1
    · intro e he hlt
      refine ⟨hlt, (lt_or_lt_of_not_overlaps hover he).resolve_right fun hlt' => ?_⟩
      rw [(h.key e he).1] at hlt
      exact absurd (hle.trans_lt hlt') hlt.not_gt
    · intro e he hlt
      obtain ⟨hkey, hle'⟩ := h.key e he
      refine ⟨hlt, (lt_or_lt_of_not_overlaps hover he).resolve_left fun hlt' => ?_⟩
      rw [hkey] at hlt
      exact absurd (hle'.trans_lt hlt') hlt.not_gt

lemma Separated.remove (h : t.Separated) (interval : RawInterval T) : (t.remove interval).2.Separated :=
  ⟨fun e he => h.key e (mem_of_mem_filter he), h.pairwise.filter _⟩

/-- Every call keeps the tree separated. -/
lemma Separated.apply (h : t.Separated) {call : TreeCall T V}
    (hcall : ∀ interval value, call = .insert interval value → interval.start ≤ interval.end_) : (t.apply call).Separated := by
  cases call with
  | insert interval value =>
    have hle := hcall interval value rfl
    by_cases hover : ∃ e ∈ t.entries, interval.overlaps e.1
    · rw [IntervalTree.apply, insert_of_overlaps h hle value hover]
      exact h
    · rw [IntervalTree.apply, insert_of_not_overlaps h hle value hover]
      exact h.insert hle value hover
  | remove interval => exact h.remove interval

lemma run_separated {calls : List (TreeCall T V)}
    (hcalls : ∀ interval value, TreeCall.insert interval value ∈ calls → interval.start ≤ interval.end_) :
    (run calls).Separated := by
  induction calls using List.reverseRecOn with
  | nil =>
    refine ⟨?_, List.Pairwise.nil⟩
    intro e he
    cases he
  | append_singleton calls call ih =>
    rw [run, foldl_concat]
    refine (ih fun interval value hin => hcalls interval value (mem_append_left _ hin)).apply ?_
    rintro interval value rfl
    exact hcalls interval value (mem_append_right _ mem_cons_self)

lemma get_eq_some (h : t.Separated) (point : T) (value : V) :
    t.get point = some value ↔ ∃ interval, (interval, value) ∈ t.entries ∧ interval.contains point := by
  simp only [get, Option.map_eq_some_iff, Option.filter_eq_some_iff]
  constructor
  · rintro ⟨⟨k, interval, value⟩, ⟨hlast, hin⟩, rfl⟩
    exact ⟨interval, mem_map_of_mem (SortedMap.mem_of_lastUpTo hlast).1, hin⟩
  · rintro ⟨interval, hmem, hin⟩
    rw [mem_entries h] at hmem
    obtain ⟨hstart, hend⟩ := of_decide_eq_true hin
    obtain ⟨e, hlast, rfl | hlt⟩ := SortedMap.exists_lastUpTo h.pairwise hmem hstart
    · exact ⟨_, ⟨hlast, hin⟩, rfl⟩
    · -- an interval behind it would start behind the point
      obtain ⟨hmem', hk⟩ := SortedMap.mem_of_lastUpTo hlast
      rw [(h.key e hmem').1] at hk
      exact absurd (hlt.2.trans_le hk) hend.not_gt

/-- `remove` does what it should: it returns the value of the interval and takes it out, or returns nothing and leaves the
tree as it is. -/
def RemovesRight (t : IntervalTree T V) (interval : RawInterval T) : Prop :=
  (∀ value, (interval, value) ∈ t.entries → t.remove interval = (some value, ⟨t.tree.filter (·.2.1 ≠ interval)⟩))
    ∧ ((∀ value, (interval, value) ∉ t.entries) → t.remove interval = (none, t))

lemma remove_of_mem (h : t.Separated) (hmem : (interval, value) ∈ t.entries) :
    t.remove interval = (some value, ⟨t.tree.filter (·.2.1 ≠ interval)⟩) := by
  rw [mem_entries h] at hmem
  have hfind : t.tree.find? (·.1 = interval.start) = some (interval.start, interval, value) := by
    obtain ⟨e, he⟩ : ∃ e, t.tree.find? (·.1 = interval.start) = some e := by
      rw [← Option.isSome_iff_exists, find?_isSome]
      exact ⟨_, hmem, decide_eq_true rfl⟩
    have hk := of_decide_eq_true (find?_some (p := fun e : T × RawInterval T × V => decide (e.1 = interval.start)) he)
    rw [he, h.key_inj (mem_of_find?_eq_some he) hmem hk]
  have hfilter : t.tree.filter (·.1 ≠ interval.start) = t.tree.filter (·.2.1 ≠ interval) := by
    refine filter_congr fun e he => decide_eq_decide.mpr (not_congr ?_)
    constructor
    · intro hk
      rw [h.key_inj he hmem hk]
    · intro hk
      rw [(h.key e he).1, hk]
  rw [remove, SortedMap.remove, hfind, hfilter, Option.filter_some, if_pos (decide_eq_true rfl)]
  rfl

lemma removesRight_iff (h : t.Separated) (interval : RawInterval T) : t.RemovesRight interval ↔
    ∀ other value, (other, value) ∈ t.entries → other.start = interval.start → other = interval := by
  constructor
  · intro hright other value hmem hstart
    by_contra hne
    rw [mem_entries h, hstart] at hmem
    -- the interval itself is not stored, so that the tree should have stayed as it was
    have hnot : ∀ value, (interval, value) ∉ t.entries := by
      intro value' hmem'
      rw [mem_entries h] at hmem'
      exact hne (congrArg (·.2.1) (h.key_inj hmem hmem' rfl))
    have htree : t.tree.filter (·.1 ≠ interval.start) = t.tree :=
      congrArg (fun r => r.2.tree) (hright.2 hnot)
    rw [← htree] at hmem
    exact of_decide_eq_true (mem_filter.mp hmem).2 rfl
  · intro hexact
    refine ⟨fun value hmem => remove_of_mem h hmem, fun hnot => ?_⟩
    have hkey : ∀ e ∈ t.tree, e.1 ≠ interval.start := by
      intro e he hk
      have hmem : e.2 ∈ t.entries := mem_map_of_mem he
      have heq := hexact e.2.1 e.2.2 hmem ((h.key e he).1.symm.trans hk)
      exact hnot e.2.2 (heq ▸ hmem)
    have hfind : t.tree.find? (·.1 = interval.start) = none :=
      find?_eq_none.mpr fun e he hk => hkey e he (of_decide_eq_true hk)
    have hfilter : t.tree.filter (·.1 ≠ interval.start) = t.tree :=
      filter_eq_self.mpr fun e he => decide_eq_true (hkey e he)
    rw [remove, SortedMap.remove, hfind, hfilter]
    rfl

/-- How a tree behaves after any calls. Stored intervals are disjoint; an interval is inserted exactly if it overlaps none;
a point has the value of the interval it is in; and an interval is removed as it should be exactly if no other one with its
start is stored. -/
theorem run_spec {calls : List (TreeCall T V)}
    (hcalls : ∀ interval value, TreeCall.insert interval value ∈ calls → interval.start ≤ interval.end_) :
    (run calls).entries.Pairwise (fun a b => a.1.overlaps b.1 = false)
    ∧ (∀ interval value, interval.start ≤ interval.end_ →
      if ∃ e ∈ (run calls).entries, interval.overlaps e.1 then
        (run calls).insert interval value = .error "Overlapping interval"
      else
        ∃ t, (run calls).insert interval value = .ok t
          ∧ ∀ e, e ∈ t.entries ↔ e = (interval, value) ∨ e ∈ (run calls).entries)
    ∧ (∀ point value, (run calls).get point = some value ↔
      ∃ interval, (interval, value) ∈ (run calls).entries ∧ interval.contains point)
    ∧ ∀ interval, (run calls).RemovesRight interval ↔
      ∀ other value, (other, value) ∈ (run calls).entries → other.start = interval.start → other = interval := by
  have h := run_separated hcalls
  refine ⟨?_, ?_, get_eq_some h, removesRight_iff h⟩
  · refine pairwise_map.mpr (h.pairwise.imp ?_)
    intro a b hlt
    exact decide_eq_false fun hover => absurd hlt.2 hover.2.not_gt
  · intro interval value hle
    split
    · rename_i hover
      exact insert_of_overlaps h hle value hover
    · rename_i hover
      refine ⟨_, insert_of_not_overlaps h hle value hover, ?_⟩
      rintro ⟨interval', value'⟩
      rw [mem_entries (h.insert hle value hover), mem_entries h, SortedMap.mem_insert (ne_of_not_overlaps h hle hover)]
      refine or_congr_left ⟨congrArg Prod.snd, fun he => ?_⟩
      cases he
      rfl

end IntervalTree
end Calls

/-- Two intervals that are apart are both in the tree. -/
theorem IntervalTree.run_spec_two :
    (run [.insert ⟨1, 5⟩ 7, .insert ⟨8, 9⟩ 3] : IntervalTree Nat Nat).get 4 = some 7
      ∧ (run [.insert ⟨1, 5⟩ 7, .insert ⟨8, 9⟩ 3] : IntervalTree Nat Nat).RemovesRight ⟨1, 5⟩ := by
  have hcalls : ∀ (interval : RawInterval Nat) (value : Nat),
      .insert interval value ∈ [TreeCall.insert ⟨1, 5⟩ 7, .insert ⟨8, 9⟩ 3] → interval.start ≤ interval.end_ := by
    intro interval value hin
    simp only [mem_cons, not_mem_nil, or_false, TreeCall.insert.injEq] at hin
    obtain ⟨rfl, _⟩ | ⟨rfl, _⟩ := hin <;> decide
  obtain ⟨_, _, hget, hremove⟩ := run_spec hcalls
  refine ⟨(hget 4 7).mpr ⟨⟨1, 5⟩, by decide, by decide⟩, (hremove ⟨1, 5⟩).mpr ?_⟩
  have hentries : (run [.insert ⟨1, 5⟩ 7, .insert ⟨8, 9⟩ 3] : IntervalTree Nat Nat).entries
      = [(⟨1, 5⟩, 7), (⟨8, 9⟩, 3)] := by decide
  intro other value hmem hstart
  rw [hentries] at hmem
  simp only [mem_cons, not_mem_nil, or_false, Prod.mk.injEq] at hmem
  obtain ⟨rfl, _⟩ | ⟨rfl, _⟩ := hmem
  · rfl
  · cases hstart

/-- Removing an interval that is not stored takes away one that is. -/
theorem IntervalTree.remove_loses_entry :
    ∃ t : IntervalTree Nat Nat, t = run [.insert ⟨1, 5⟩ 7] ∧ t.entries = [(⟨1, 5⟩, 7)]
      ∧ t.remove ⟨1, 3⟩ = (none, new) :=
  ⟨⟨[(1, ⟨1, 5⟩, 7)]⟩, by decide, by decide, by decide⟩

end Leviathan
