import Mathlib.Algebra.BigOperators.Group.List.Basic
import Mathlib.Algebra.Order.Ring.Int
import Mathlib.Data.List.DropRight
import Mathlib.Data.List.Infix

/-!
# Searching texts

A text is a list of characters. The first place where a pattern occurs is found by `List.dropInfix?`, which cuts the
text there; `find` is the position. The lemmas say where that place is: characters that the pattern does not start with
are passed over (`dropInfix?_append_of_notMem`), and an occurrence does not reach across one that is not in the pattern
(`dropInfix?_append_cons`).

Numbers are printed in decimal and read back (`parseUnsigned_toString`).
-/

namespace Leviathan
open List

abbrev Text := List Char

section Search
variable {α : Type} [DecidableEq α] {pat s t u : List α} {a c : α} {p : List α × List α}

/-- The position at which a pattern occurs first. -/
def find (s pat : List α) : Option Nat := (s.dropInfix? pat).map fun p => p.1.length

lemma dropInfix?_go_eq (acc : List α) : List.dropInfix?.go pat s acc
    = (s.dropInfix? pat).map fun p => (acc.reverse ++ p.1, p.2) := by
  have hgo : ∀ acc, List.dropInfix?.go pat s acc
      = (List.dropInfix?.go pat s []).map fun p => (acc.reverse ++ p.1, p.2) := by
    induction s with
    | nil =>
      intro acc
      unfold List.dropInfix?.go
      split <;> simp
    | cons a s ih =>
      intro acc
      unfold List.dropInfix?.go
      split
      · rw [ih (a :: acc), ih [a], Option.map_map]
        simp [Function.comp_def]
      · simp
  exact hgo acc

lemma dropInfix?_cons (h : ¬ pat <+: a :: s) :
    (a :: s).dropInfix? pat = (s.dropInfix? pat).map fun p => (a :: p.1, p.2) := by
  have hnone : (a :: s).dropPrefix? pat = none := by
    rw [Option.eq_none_iff_forall_ne_some]
    rintro t ht
    obtain ⟨p, hp, hpat⟩ := dropPrefix?_eq_some_iff.mp ht
    exact h ⟨t, by rw [← eq_of_beq hpat, hp]⟩
  rw [List.dropInfix?, List.dropInfix?.go]
  simp only [hnone]
  exact dropInfix?_go_eq [a]

lemma dropInfix?_self : (pat ++ t).dropInfix? pat = some ([], t) := by
  rw [dropInfix?_eq_some_iff]
  exact ⟨⟨pat, by simp, by simp⟩, fun _ _ _ _ _ => Nat.zero_le _⟩

lemma dropInfix?_append_of_notMem (h : c ∉ u) :
    (u ++ t).dropInfix? (c :: pat) = (t.dropInfix? (c :: pat)).map fun p => (u ++ p.1, p.2) := by
  induction u with
  | nil => simp
  | cons a u ih =>
    obtain ⟨hne, hu⟩ := ne_and_not_mem_of_not_mem_cons h
    rw [cons_append, dropInfix?_cons, ih hu, Option.map_map]
    · rfl
    · rintro hp
      exact hne (cons_prefix_cons.mp hp).1

lemma dropInfix?_of_notMem (pat t : List α) (h : c ∉ u) : (u ++ (c :: pat ++ t)).dropInfix? (c :: pat) = some (u, t) := by
  rw [dropInfix?_append_of_notMem h, dropInfix?_self]
  simp

lemma find_of_notMem (h : c ∉ u) : find (u ++ c :: t) [c] = some u.length := by
  have := dropInfix?_of_notMem [] t h
  rw [find, show c :: t = [c] ++ t from rfl, this]
  rfl

lemma eq_of_dropInfix? (h : s.dropInfix? pat = some p) : s = p.1 ++ pat ++ p.2 := by
  obtain ⟨⟨i, hs, hi⟩, _⟩ := dropInfix?_eq_some_iff.mp h
  rw [hs, eq_of_beq hi]

lemma drop_of_dropInfix? (h : s.dropInfix? pat = some p) : s.drop p.1.length = pat ++ p.2 := by
  rw [eq_of_dropInfix? h, append_assoc, drop_left]

lemma exists_dropInfix? (h : pat <:+: s) : ∃ p, s.dropInfix? pat = some p := by
  induction s with
  | nil =>
    rw [infix_nil.mp h]
    exact ⟨_, dropInfix?_nil⟩
  | cons a s ih =>
    by_cases hp : pat <+: a :: s
    · obtain ⟨t, ht⟩ := hp
      rw [← ht, dropInfix?_self]
      exact ⟨_, rfl⟩
    · obtain ⟨p, hp'⟩ := ih ((infix_cons_iff.mp h).resolve_left hp)
      rw [dropInfix?_cons hp, hp']
      exact ⟨_, rfl⟩

lemma dropInfix?_eq_none (h : ¬ pat <:+: s) : s.dropInfix? pat = none := by
  rw [Option.eq_none_iff_forall_ne_some]
  rintro p hp
  exact h ⟨p.1, p.2, (eq_of_dropInfix? hp).symm⟩

lemma find_eq_none (h : c ∉ s) : find s [c] = none := by
  rw [find, dropInfix?_eq_none, Option.map_none]
  rwa [singleton_infix_iff]

/-- An occurrence does not reach across a character that is not in the pattern, and a text is searched from its
beginning. -/
lemma dropInfix?_append_cons (hc : c ∉ pat) :
    (s ++ c :: t).dropInfix? pat
      = match s.dropInfix? pat with
        | some p => some (p.1, p.2 ++ c :: t)
        | none => ((c :: t).dropInfix? pat).map fun p => (s ++ p.1, p.2) := by
  induction s with
  | nil =>
    rcases pat with _ | ⟨b, pat⟩
    · simp
    · simp [List.dropInfix?, List.dropInfix?.go]
  | cons a s ih =>
    by_cases hp : pat <+: a :: s
    · obtain ⟨u, hu⟩ := hp
      rw [← hu, append_assoc, dropInfix?_self, dropInfix?_self]
    · have hp' : ¬ pat <+: a :: (s ++ c :: t) := by
        -- an occurrence that is longer than the text in front of `c` has `c` in it
        rintro ⟨u, hu⟩
        rcases append_eq_append_iff.mp (hu.trans (show _ = (a :: s) ++ c :: t from rfl)) with
          ⟨v, hv, _⟩ | ⟨v, hv, hv'⟩
        · exact hp ⟨v, hv.symm⟩
        · rcases v with _ | ⟨b, v⟩
          · exact hp ⟨[], by rw [hv]; simp⟩
          · cases hv'
            exact hc (by rw [hv]; simp)
      rw [cons_append, dropInfix?_cons hp', ih, dropInfix?_cons hp]
      cases s.dropInfix? pat with
      | some p => rfl
      | none => simp [Option.map_map, Function.comp_def]

end Search

namespace Text
variable {s pat : Text} {c : Char} {n bits : Nat}

/-- White space, as in the Unicode property `White_Space`. -/
def isWhiteSpace (c : Char) : Bool :=
  (9 ≤ c.toNat && c.toNat ≤ 13) || (0x2000 ≤ c.toNat && c.toNat ≤ 0x200A)
    || [0x20, 0x85, 0xA0, 0x1680, 0x2028, 0x2029, 0x202F, 0x205F, 0x3000].contains c.toNat

/-- A text without the white space around it. -/
def trim (s : Text) : Text := (s.dropWhile isWhiteSpace).rdropWhile isWhiteSpace

/-- A text without a character at its beginning, however often it is there. -/
def trimStartMatches (c : Char) (s : Text) : Text := s.dropWhile (· == c)

/-- A text without a pattern at its end, however often it is there. -/
def trimEndMatches (pat s : Text) : Text :=
  match _h : s.dropSuffix? pat with
  | some t => if pat = [] then t else trimEndMatches pat t
  | none => s
termination_by s.length
decreasing_by
  obtain ⟨i, hs, hi⟩ := List.dropSuffix?_eq_some_iff.mp _h
  have hpos : 0 < pat.length := List.length_pos_iff.mpr ‹_›
  rw [hs, List.length_append, eq_of_beq hi]
  omega

/-- The number that a text of digits stands for, perhaps behind a plus sign, if it has at most that many bits. -/
def parseUnsigned (bits : Nat) (s : Text) : Option Nat :=
  let digits := if s.head? = some '+' then s.tail else s
  let value := Nat.ofDigitChars 10 digits 0
  if digits ≠ [] ∧ digits.all Char.isDigit ∧ value < 2 ^ bits then some value else none

lemma isDigit_of_mem_toString (h : c ∈ (toString n).toList) : c.isDigit = true := by
  rw [Nat.toString_eq_repr, Nat.toList_repr] at h
  exact Nat.isDigit_of_mem_toDigits (by decide) (by decide) h

lemma notMem_toString (h : c.isDigit = false) : c ∉ (toString n).toList := by
  intro hc
  rw [isDigit_of_mem_toString hc] at h
  cases h

lemma toString_ne_nil : (toString n).toList ≠ [] := by
  rw [Nat.toString_eq_repr, Nat.toList_repr]
  exact Nat.toDigits_ne_nil

lemma parseUnsigned_toString (h : n < 2 ^ bits) : parseUnsigned bits (toString n).toList = some n := by
  have hhead : (toString n).toList.head? ≠ some '+' := by
    intro hc
    cases isDigit_of_mem_toString (mem_of_head? hc)
  have hvalue : Nat.ofDigitChars 10 (toString n).toList 0 = n := by
    rw [Nat.toString_eq_repr, Nat.toList_repr, Nat.ofDigitChars_toDigits (by decide) (by decide)]
  have hdigits : (toString n).toList.all Char.isDigit = true :=
    all_eq_true.mpr fun _ hc => isDigit_of_mem_toString hc
  simp only [parseUnsigned, if_neg hhead, hvalue, hdigits]
  exact if_pos ⟨toString_ne_nil, trivial, h⟩

lemma parseUnsigned_lt (h : parseUnsigned bits s = some n) : n < 2 ^ bits := by
  rw [parseUnsigned, Option.ite_none_right_eq_some, Option.some.injEq] at h
  obtain ⟨⟨_, _, hlt⟩, rfl⟩ := h
  exact hlt

lemma parseUnsigned_eq_none (hc : c ∈ s) (hd : c.isDigit = false) (hp : c ≠ '+') : parseUnsigned bits s = none := by
  refine if_neg fun h => ?_
  have hmem : c ∈ if s.head? = some '+' then s.tail else s := by
    split
    · rename_i hs
      obtain ⟨t, rfl⟩ := head?_eq_some_iff.mp hs
      exact (mem_cons.mp hc).resolve_left hp
    · exact hc
  rw [all_eq_true.mp h.2.1 c hmem] at hd
  cases hd

lemma trim_eq (h : ∀ c ∈ s, isWhiteSpace c = false) : trim s = s := by
  have hfront : s.dropWhile isWhiteSpace = s := by
    cases s with
    | nil => rfl
    | cons a s => exact dropWhile_cons_of_neg (by rw [h a mem_cons_self]; exact Bool.false_ne_true)
  rw [trim, hfront, rdropWhile_eq_self_iff]
  intro hne
  rw [h _ (getLast_mem hne)]
  exact Bool.false_ne_true

lemma trim_cons (hc : isWhiteSpace c = true) : trim (c :: s) = trim s := by
  rw [trim, dropWhile_cons_of_pos hc, trim]

lemma trim_toString : trim (toString n).toList = (toString n).toList := by
  refine trim_eq fun c hc => ?_
  have hdigit := isDigit_of_mem_toString hc
  simp only [Char.isDigit, Bool.and_eq_true, decide_eq_true_eq, UInt32.le_iff_toNat_le] at hdigit
  have hlow : 48 ≤ c.toNat := hdigit.1
  have hhigh : c.toNat ≤ 57 := hdigit.2
  simp only [isWhiteSpace, Bool.or_eq_false_iff, Bool.and_eq_false_iff, decide_eq_false_iff_not, contains_eq_mem,
    mem_cons, not_mem_nil, or_false]
  omega

lemma trimStartMatches_cons (h : c ∉ s) : trimStartMatches c (c :: s) = s := by
  rw [trimStartMatches, dropWhile_cons_of_pos (by simp)]
  cases s with
  | nil => rfl
  | cons a s =>
    refine dropWhile_cons_of_neg fun ha => h ?_
    rw [← eq_of_beq ha]
    exact mem_cons_self

lemma trimEndMatches_eq (h : ¬ pat <:+ s) : trimEndMatches pat s = s := by
  rw [trimEndMatches]
  split
  · rename_i t ht
    obtain ⟨i, hs, hi⟩ := dropSuffix?_eq_some_iff.mp ht
    exact absurd ⟨t, by rw [hs, eq_of_beq hi]⟩ h
  · rfl

lemma trimEndMatches_append (hne : pat ≠ []) : trimEndMatches pat (s ++ pat) = trimEndMatches pat s := by
  have hdrop : (s ++ pat).dropSuffix? pat = some s := dropSuffix?_eq_some_iff.mpr ⟨pat, rfl, by simp⟩
  rw [trimEndMatches]
  split
  · rename_i t ht
    rw [hdrop] at ht
    cases ht
    rw [if_neg hne]
  · rename_i ht
    rw [hdrop] at ht
    cases ht

end Text
end Leviathan
