import Mathlib.Algebra.BigOperators.Group.List.Basic
import Mathlib.Algebra.Order.Ring.Int
import Mathlib.Data.List.Infix

/-!
# Codecs

A codec writes values one after the other and reads them back from the front of what there is. It carries its two laws:
what follows a value is left alone (`take_encode`), and as long as a part of a value is missing the reader asks for more
(`take_part`). They are what a reader of a stream needs that sees its input in pieces.

Codecs are put together like the values they are for: pairs, other values with the same contents, lists behind their
lengths, and numbers in groups of seven bits.
-/

namespace Leviathan
open List
variable {β : Type}

/-- How values of a type are written in symbols and read back. `eof` is the error that asks for more. -/
structure Codec {ε : Type} (eof : ε) (β α : Type) where
  encode : α → List β
  take : List β → Except ε (α × List β)
  take_encode : ∀ a rest, take (encode a ++ rest) = .ok (a, rest)
  take_part : ∀ a p, p <+: encode a → p ≠ encode a → take p = .error eof

lemma prefix_append_or {p a b : List β} (h : p <+: a ++ b) : (p <+: a ∧ p ≠ a) ∨ ∃ q, p = a ++ q ∧ q <+: b := by
  by_cases hlen : p.length < a.length
  · refine .inl ⟨prefix_of_prefix_length_le h (prefix_append a b) hlen.le, fun he => ?_⟩
    rw [he] at hlen
    exact absurd hlen (lt_irrefl _)
  · obtain ⟨q, rfl⟩ := prefix_of_prefix_length_le (prefix_append a b) h (Nat.not_lt.mp hlen)
    exact .inr ⟨q, rfl, (prefix_append_right_inj a).mp h⟩

lemma eq_nil_of_prefix_singleton {p : List β} {b : β} (hp : p <+: [b]) (hne : p ≠ [b]) : p = [] := by
  obtain rfl | ⟨q, rfl, hq⟩ := prefix_cons_iff.mp hp
  · rfl
  · exact absurd (by rw [prefix_nil.mp hq]) hne

namespace Codec
variable {ε β α γ : Type} {eof : ε}

section Composition

def symbol : Codec eof β β where
  encode b := [b]
  take
    | [] => .error eof
    | b :: rest => .ok (b, rest)
  take_encode _ _ := rfl
  take_part b p hp hne := by
    rw [eq_nil_of_prefix_singleton hp hne]

/-- Another value in the place of the one that is written. -/
def map (c : Codec eof β α) (f : γ → α) (g : α → Except ε γ) (h : ∀ x, g (f x) = .ok x) : Codec eof β γ where
  encode x := c.encode (f x)
  take bytes := do
    let a ← c.take bytes
    let x ← g a.1
    .ok (x, a.2)
  take_encode x rest := by
    rw [c.take_encode]
    show (do let y ← g (f x); Except.ok (y, rest)) = .ok (x, rest)
    rw [h]
    rfl
  take_part x p hp hne := by
    rw [c.take_part (f x) p hp hne]
    rfl

/-- A pair, one after the other. -/
def prod (c : Codec eof β α) (d : Codec eof β γ) : Codec eof β (α × γ) where
  encode x := c.encode x.1 ++ d.encode x.2
  take bytes := do
    let a ← c.take bytes
    let b ← d.take a.2
    .ok ((a.1, b.1), b.2)
  take_encode x rest := by
    rw [List.append_assoc, c.take_encode]
    show (do let b ← d.take (d.encode x.2 ++ rest); Except.ok ((x.1, b.1), b.2)) = .ok (x, rest)
    rw [d.take_encode]
    rfl
  take_part x p hp hne := by
    obtain ⟨hp, hne⟩ | ⟨q, rfl, hq⟩ := prefix_append_or hp
    · rw [c.take_part x.1 p hp hne]
      rfl
    · rw [c.take_encode]
      show (do let b ← d.take q; Except.ok ((x.1, b.1), b.2)) = .error eof
      rw [d.take_part x.2 q hq fun he => hne (by rw [he])]
      rfl

end Composition

section Lists

/-- So many values, one after the other. -/
def takeN (c : Codec eof β α) : (n : Nat) → List β → Except ε ({ l : List α // l.length = n } × List β)
  | 0, bytes => .ok (⟨[], rfl⟩, bytes)
  | n + 1, bytes => do
    let a ← c.take bytes
    let l ← c.takeN n a.2
    .ok (⟨a.1 :: l.1.1, by rw [List.length_cons, l.1.2]⟩, l.2)

lemma takeN_flatMap (c : Codec eof β α) (l : List α) (rest : List β) :
    c.takeN l.length (l.flatMap c.encode ++ rest) = .ok (⟨l, rfl⟩, rest) := by
  induction l with
  | nil => rfl
  | cons a l ih =>
    show c.takeN (l.length + 1) _ = _
    rw [flatMap_cons, append_assoc, takeN, c.take_encode]
    show (do let x ← c.takeN l.length (l.flatMap c.encode ++ rest); Except.ok _) = _
    rw [ih]
    rfl

lemma takeN_part (c : Codec eof β α) {l : List α} {p : List β} (hp : p <+: l.flatMap c.encode)
    (hne : p ≠ l.flatMap c.encode) : c.takeN l.length p = .error eof := by
  induction l generalizing p with
  | nil => exact absurd (prefix_nil.mp hp) hne
  | cons a l ih =>
    rw [flatMap_cons] at hp hne
    rw [length_cons, takeN]
    obtain ⟨hp, hne⟩ | ⟨q, rfl, hq⟩ := prefix_append_or hp
    · rw [c.take_part a p hp hne]
      rfl
    · rw [c.take_encode]
      show (do let x ← c.takeN l.length q; Except.ok _) = _
      rw [ih hq fun he => hne (by rw [he])]
      rfl

/-- A list behind the number of its elements. -/
def counted {N : Nat} (count : Codec eof β (Fin N)) (c : Codec eof β α) : Codec eof β { l : List α // l.length < N } where
  encode l := count.encode ⟨l.1.length, l.2⟩ ++ l.1.flatMap c.encode
  take bytes := do
    let n ← count.take bytes
    let l ← c.takeN n.1 n.2
    .ok (⟨l.1.1, by rw [l.1.2]; exact n.1.2⟩, l.2)
  take_encode l rest := by
    rw [List.append_assoc, count.take_encode]
    show (do let x ← c.takeN l.1.length (l.1.flatMap c.encode ++ rest); Except.ok _) = _
    rw [takeN_flatMap]
    rfl
  take_part l p hp hne := by
    obtain ⟨hp, hne⟩ | ⟨q, rfl, hq⟩ := prefix_append_or hp
    · rw [count.take_part _ p hp hne]
      rfl
    · rw [count.take_encode]
      show (do let x ← c.takeN l.1.length q; Except.ok _) = _
      rw [takeN_part c hq fun he => hne (by rw [he])]
      rfl

end Lists

section Varint

/-- A number in groups of seven bits, lowest first; all but the last have the highest bit set. -/
def leb : Nat → Nat → List (BitVec 8)
  | 0, _ => []
  | max + 1, n =>
    if n < 128 then [BitVec.ofNat 8 n] else BitVec.ofNat 8 (n % 128 + 128) :: leb max (n / 128)

/-- The number that is at the front, in at most so many groups. -/
def takeLeb (eof bad : ε) : Nat → List (BitVec 8) → Except ε (Nat × List (BitVec 8))
  | 0, _ => .error bad
  | _ + 1, [] => .error eof
  | max + 1, b :: bytes =>
    if b.toNat < 128 then .ok (b.toNat, bytes)
    else do
      let n ← takeLeb eof bad max bytes
      .ok (b.toNat - 128 + 128 * n.1, n.2)

example : leb 3 300 = [172, 2] ∧ takeLeb () () 3 [172, 2, 7] = .ok (300, [7]) := by decide

section Groups
variable (bad : ε) {max n : Nat} {bytes p : List (BitVec 8)}

lemma takeLeb_last (h : n < 128) : takeLeb eof bad (max + 1) (BitVec.ofNat 8 n :: bytes) = .ok (n, bytes) := by
  have hn : (BitVec.ofNat 8 n).toNat = n := by
    rw [BitVec.toNat_ofNat]
    omega
  rw [takeLeb, hn, if_pos h]

lemma takeLeb_more : takeLeb eof bad (max + 1) (BitVec.ofNat 8 (n % 128 + 128) :: bytes) = (do
    let x ← takeLeb eof bad max bytes
    .ok (n % 128 + 128 * x.1, x.2)) := by
  have hn : (BitVec.ofNat 8 (n % 128 + 128)).toNat = n % 128 + 128 := by
    rw [BitVec.toNat_ofNat]
    omega
  rw [takeLeb, hn, if_neg (by omega), Nat.add_sub_cancel]

lemma takeLeb_leb (h : n < 128 ^ (max + 1)) : takeLeb eof bad (max + 1) (leb (max + 1) n ++ bytes) = .ok (n, bytes) := by
  induction max generalizing n with
  | zero =>
    rw [zero_add, pow_one] at h
    rw [leb, if_pos h]
    exact takeLeb_last bad h
  | succ max ih =>
    rw [leb]
    split
    · rename_i hlt
      exact takeLeb_last bad hlt
    · have hrest : n / 128 < 128 ^ (max + 1) := by
        rw [Nat.div_lt_iff_lt_mul (by decide), ← Nat.pow_succ]
        exact h
      rw [cons_append, takeLeb_more, ih hrest]
      show Except.ok (n % 128 + 128 * (n / 128), bytes) = .ok (n, bytes)
      rw [Nat.mod_add_div]

lemma takeLeb_part_last {b : BitVec 8} (hp : p <+: [b]) (hne : p ≠ [b]) :
    takeLeb eof bad (max + 1) p = .error eof := by
  rw [eq_nil_of_prefix_singleton hp hne, takeLeb]

lemma takeLeb_part (hp : p <+: leb (max + 1) n) (hne : p ≠ leb (max + 1) n) :
    takeLeb eof bad (max + 1) p = .error eof := by
  induction max generalizing n p with
  | zero =>
    by_cases hlt : n < 128
    · rw [leb, if_pos hlt] at hp hne
      exact takeLeb_part_last bad hp hne
    · rw [leb, if_neg hlt] at hp hne
      exact takeLeb_part_last bad hp hne
  | succ max ih =>
    by_cases hlt : n < 128
    · rw [leb, if_pos hlt] at hp hne
      exact takeLeb_part_last bad hp hne
    · rw [leb, if_neg hlt] at hp hne
      obtain rfl | ⟨q, rfl, hq⟩ := prefix_cons_iff.mp hp
      · rfl
      · rw [takeLeb_more, ih hq fun he => hne (by rw [he])]
        rfl

end Groups

/-- A number of a fixed width. -/
def varint (bad : ε) (w max : Nat) (h : 2 ^ w ≤ 128 ^ (max + 1)) : Codec eof (BitVec 8) (BitVec w) where
  encode x := leb (max + 1) x.toNat
  take bytes := do
    let n ← takeLeb eof bad (max + 1) bytes
    if n.1 < 2 ^ w then .ok (BitVec.ofNat w n.1, n.2) else .error bad
  take_encode x rest := by
    rw [takeLeb_leb bad (lt_of_lt_of_le x.isLt h)]
    show (if x.toNat < 2 ^ w then Except.ok (BitVec.ofNat w x.toNat, rest) else _) = .ok (x, rest)
    rw [if_pos x.isLt, BitVec.ofNat_toNat, BitVec.setWidth_eq]
  take_part x p hp hne := by
    rw [takeLeb_part bad hp hne]
    rfl

end Varint
end Codec
end Leviathan
