import Leviathan.Core.SwapOrNot

/-!
# Shuffles that exchange two indices

The hash behind the swap-or-not shuffle may be any function. So of up to 256 indices any two may be exchanged while the
others stay where they are: `exchangeHash` does it (`shuffled_exchange`). It serves to show that a statement does not
hold whatever the hash.
-/

namespace Leviathan
open List

/-- A hash under which the first round exchanges two indices and the others do nothing. The length of its input tells what
it is asked for. -/
def exchangeHash (a b count : Nat) : Sha256 := fun bytes =>
  if bytes.length = 33 then BitVec.ofNat 256 ((a + b) % count)
  else if bytes.length = 37 ∧ bytes[32]? = some 0 then BitVec.ofNat 256 (2 ^ max a b)
  else 0

variable {a b count : Nat} {seed : Bytes32}

lemma swapPivot_exchange (ha : a < count) (hc : count ≤ 256) (round : Nat) :
    swapPivot (exchangeHash a b count) seed count round = (a + b) % count := by
  have hlt : (a + b) % count < count := Nat.mod_lt _ (by omega)
  have hlen : (seed.bytes ++ leBytes 1 round).length = 33 := by
    rw [length_append, Bytes32.bytes, length_leBytes, length_leBytes]
  unfold swapPivot exchangeHash
  rw [if_pos hlen, BitVec.toNat_ofNat, Nat.mod_eq_of_lt (by omega : (a + b) % count < 2 ^ 256),
    Nat.mod_eq_of_lt (by omega : (a + b) % count < 2 ^ 64), Nat.mod_mod]

lemma bit_two_pow {m p : Nat} (hm : m < 256) (hp : p < 256) :
    (Bytes32.byte (BitVec.ofNat 256 (2 ^ m)) (p % 256 / 8) / 2 ^ (p % 8) % 2 == 1) = decide (m = p) := by
  have hpow : 2 ^ m < 2 ^ 256 := Nat.pow_lt_pow_right (by decide) hm
  have hbit : (2 ^ m / 2 ^ (8 * (p / 8)) % 2 ^ 8).testBit (p % 8) = decide (m = p) := by
    rw [Nat.testBit_mod_two_pow, Nat.testBit_div_two_pow, Nat.testBit_two_pow, Nat.mod_add_div]
    simp [Nat.mod_lt]
  rw [Nat.testBit_eq_decide_div_mod_eq] at hbit
  rw [← hbit]
  unfold Bytes32.byte
  rw [BitVec.toNat_ofNat, Nat.mod_eq_of_lt hpow, Nat.mod_eq_of_lt hp, show (256 : Nat) = 2 ^ 8 from rfl, ← Nat.pow_mul]
  rfl

lemma length_bitInput (seed : Bytes32) (round p : Nat) :
    (seed.bytes ++ leBytes 1 round ++ leBytes 4 (p / 256)).length = 37 := by
  simp only [length_append, Bytes32.bytes, length_leBytes]

lemma getElem_bitInput (seed : Bytes32) (round p : Nat) :
    (seed.bytes ++ leBytes 1 round ++ leBytes 4 (p / 256))[32]? = some (BitVec.ofNat 8 round) := by
  rw [append_assoc, getElem?_append_right (by rw [Bytes32.bytes, length_leBytes]), Bytes32.bytes, length_leBytes]
  rfl

lemma swapBit_exchange (ha : a < 256) (hb : b < 256) {p : Nat} (hp : p < 256) :
    swapBit (exchangeHash a b count) seed 0 p = decide (max a b = p) := by
  have hlen := length_bitInput seed 0 p
  unfold swapBit exchangeHash
  rw [if_neg (by omega), if_pos ⟨hlen, getElem_bitInput seed 0 p⟩]
  exact bit_two_pow (by omega) hp

lemma swapBit_exchange_of_ne {round : Nat} (hr : round % 256 ≠ 0) (p : Nat) :
    swapBit (exchangeHash a b count) seed round p = false := by
  have hlen := length_bitInput seed round p
  have hne : ¬ ((some (BitVec.ofNat 8 round) : Option (BitVec 8)) = some 0) := by
    intro h
    have := congrArg BitVec.toNat (Option.some.inj h)
    rw [BitVec.toNat_ofNat] at this
    exact hr this
  unfold swapBit exchangeHash
  rw [if_neg (by omega), if_neg (by rw [getElem_bitInput]; exact fun h => hne h.2)]
  simp [Bytes32.byte]

lemma swapFlip_exchange (ha : a < count) (hb : b < count) : swapFlip count ((a + b) % count) a = b := by
  unfold swapFlip
  by_cases h : a + b < count
  · rw [Nat.mod_eq_of_lt h, show a + b + count - a = b + count by omega, Nat.add_mod_right, Nat.mod_eq_of_lt hb]
  · have hmod : (a + b) % count = a + b - count := by
      rw [Nat.mod_eq_sub_mod (by omega), Nat.mod_eq_of_lt (by omega)]
    rw [hmod, show a + b - count + count - a = b by omega, Nat.mod_eq_of_lt hb]

lemma swapRound_exchange (ha : a < count) (hb : b < count) (hc : count ≤ 256) {x : Nat} (hx : x < count) :
    swapRound (exchangeHash a b count) seed count x 0 = if x = a then b else if x = b then a else x := by
  have hfa := swapFlip_exchange ha hb
  have hfb : swapFlip count ((a + b) % count) b = a := by
    rw [Nat.add_comm]
    exact swapFlip_exchange hb ha
  have hflip : swapFlip count ((a + b) % count) x < count := swapFlip_lt _ _ (by omega)
  have hback : swapFlip count ((a + b) % count) (swapFlip count ((a + b) % count) x) = x :=
    swapFlip_swapFlip (Nat.mod_lt _ (by omega)) hx
  unfold swapRound
  rw [swapPivot_exchange ha hc]
  simp only
  rw [swapBit_exchange (by omega) (by omega) (by omega)]
  by_cases hxa : x = a
  · subst hxa
    rw [hfa, if_pos (decide_eq_true rfl), if_pos rfl]
  · by_cases hxb : x = b
    · subst hxb
      rw [hfb, if_neg hxa, if_pos rfl]
      exact if_pos (decide_eq_true (max_comm _ _))
    · -- nobody else has the larger one as mirror image
      rw [if_neg hxa, if_neg hxb, if_neg]
      intro h
      have hmax := of_decide_eq_true h
      have hor : swapFlip count ((a + b) % count) x = a ∨ swapFlip count ((a + b) % count) x = b := by omega
      rcases hor with e | e
      · rw [e, hfa] at hback
        exact hxb hback.symm
      · rw [e, hfb] at hback
        exact hxa hback.symm

lemma swapRounds_cons (H : Sha256) (r : Nat) (rounds : List Nat) (x : Nat) :
    swapRounds H seed count (r :: rounds) x = swapRounds H seed count rounds (swapRound H seed count x r) := rfl

lemma swapRounds_exchange {rounds : List Nat} (h : ∀ r ∈ rounds, r % 256 ≠ 0) (x : Nat) :
    swapRounds (exchangeHash a b count) seed count rounds x = x := by
  induction rounds generalizing x with
  | nil => rfl
  | cons r rounds ih =>
    have hr : swapRound (exchangeHash a b count) seed count x r = x := by
      unfold swapRound
      simp only
      rw [swapBit_exchange_of_ne (h r mem_cons_self)]
      rfl
    rw [swapRounds_cons, hr]
    exact ih (fun r hr => h r (mem_cons_of_mem _ hr)) x

lemma shuffled_exchange (ha : a < count) (hb : b < count) (hc : count ≤ 256) {x : Nat} (hx : x < count) :
    shuffled (exchangeHash a b count) seed count x = if x = a then b else if x = b then a else x := by
  have hrange : List.range shuffleRoundCount = 0 :: (List.range 89).map Nat.succ := range_succ_eq_map
  rw [shuffled, hrange, swapRounds_cons, swapRounds_exchange, swapRound_exchange ha hb hc hx]
  intro r hr
  obtain ⟨i, hi, rfl⟩ := mem_map.mp hr
  have := mem_range.mp hi
  omega

end Leviathan
