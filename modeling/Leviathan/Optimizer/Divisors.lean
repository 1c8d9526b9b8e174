import Leviathan.Core.Identity
import Mathlib.Algebra.Order.BigOperators.GroupWithZero.List
import Mathlib.Algebra.Order.Ring.Nat
import Mathlib.Data.Nat.Factors
import Mathlib.Order.Bounds.Basic

/-!
# Chunk sizes

`get_prime_divisors`, `get_divisors` and `get_smaller_split` of `shared/modeling/src/distro.rs`, by which the transform
chooses the sizes of its chunks. The `i64` values are natural numbers here, and a product that does not fit aborts.

A number is factored by trial division, of 2, 3 and then the numbers that are 5 or 1 modulo 6. `Rough` says what is
known meanwhile: the factors found so far are primes in order, and what is left has no smaller prime factor. The
divisors are then made up prime by prime (`Made`): a prime that comes again multiplies the divisors from before it came
first.
-/

namespace Leviathan.TransformDCT
open Exec List

/-- The loop that divides by `k` as long as there is no remainder. -/
def divideOut (k : Nat) : Nat → Nat → List Nat → Nat × List Nat
  | 0, n, divisors => (n, divisors)
  | fuel + 1, n, divisors => if n % k = 0 then divideOut k fuel (n / k) (divisors ++ [k]) else (n, divisors)

/-- The loop over the candidates from 5 on, two at a time. -/
def wheel : Nat → (i n : Nat) → List Nat → Exec Empty Panic (Nat × List Nat)
  | 0, _, n, divisors => .ok (n, divisors)
  | fuel + 1, i, n, divisors => do
    let square ← mulU 63 i i
    if square ≤ n then do
      let k ← addU 63 i 2
      let left := divideOut i n n divisors
      let left := divideOut k left.1 left.1 left.2
      let next ← addU 63 i 6
      wheel fuel next left.1 left.2
    else
      .ok (n, divisors)

def getPrimeDivisors (n : Nat) : Exec Empty Panic (List Nat) :=
  if n = 0 then
    .ok []
  else do
    let left := divideOut 2 n n []
    let left := divideOut 3 left.1 left.1 left.2
    let left ← wheel n 5 left.1 left.2
    .ok (if 1 < left.1 then left.2 ++ [left.1] else left.2)

/-- The variables of the loop of `get_divisors`. -/
structure Products where
  divisors : List Nat
  lastPrime : Nat
  factor : Nat
  sliceLen : Nat

/-- The products of the first divisors with a factor are added. -/
def pushProducts (divisors : List Nat) (factor sliceLen : Nat) : Exec Empty Panic (List Nat) :=
  (List.range sliceLen).foldlM (fun divisors i => do
    let divisor ← Exec.unwrap divisors[i]? .indexOutOfBounds
    let product ← mulU 63 divisor factor
    .ok (divisors ++ [product])) divisors

/-- The body of the loop of `get_divisors`. -/
def Products.step (st : Products) (prime : Nat) : Exec Empty Panic Products :=
  if st.lastPrime ≠ prime then do
    let divisors ← pushProducts st.divisors prime st.divisors.length
    .ok ⟨divisors, prime, prime, st.divisors.length⟩
  else do
    let factor ← mulU 63 st.factor prime
    let divisors ← pushProducts st.divisors factor st.sliceLen
    .ok ⟨divisors, prime, factor, st.sliceLen⟩

def getDivisors (n : Nat) : Exec Empty Panic (List Nat) :=
  if n = 1 then
    .ok [1]
  else if 1 < n then do
    let primeFactors ← getPrimeDivisors n
    let st ← primeFactors.foldlM Products.step ⟨[1], 0, 0, 0⟩
    .ok (st.divisors.insertionSort (· ≤ ·))
  else
    .ok []

/-- The loop of `get_smaller_split`, with the divisor before the next one. -/
def splitFrom (n closeTo : Nat) : Option Nat → List Nat → Nat
  | _, [] => n
  | previous, val :: rest =>
    if val = closeTo then val
    else if closeTo < val then previous.getD val
    else splitFrom n closeTo (some val) rest

def getSmallerSplit (n closeTo : Nat) : Exec Empty Panic Nat := do
  let allDivisors ← getDivisors n
  .ok (splitFrom n closeTo none allDivisors)

section Primes
variable {N n b k : Nat} {divisors : List Nat}

/-- The state of a factorisation of `N`: the primes found are below `b` and in order, and what is left has none below
`b`. -/
structure Rough (N b n : Nat) (divisors : List Nat) : Prop where
  pos : 0 < n
  prod : divisors.prod * n = N
  prime : ∀ p ∈ divisors, p.Prime ∧ p < b
  sorted : divisors.Pairwise (· ≤ ·)
  rough : ∀ p, p.Prime → p ∣ n → b ≤ p

lemma divideOut_eq {fuel : Nat} (hk : 2 ≤ k) (hn : 0 < n) (hfuel : n ≤ fuel) (divisors : List Nat) :
    ∃ e m, n = k ^ e * m ∧ ¬ k ∣ m ∧ divideOut k fuel n divisors = (m, divisors ++ List.replicate e k) := by
  induction fuel generalizing n divisors with
  | zero => omega
  | succ fuel ih =>
    rw [divideOut]
    by_cases h : n % k = 0
    · have hdvd := Nat.dvd_of_mod_eq_zero h
      have hlt : n / k < n := Nat.div_lt_self hn hk
      obtain ⟨e, m, hm, hnot, heq⟩ := ih (Nat.div_pos (Nat.le_of_dvd hn hdvd) (by omega)) (by omega) (divisors ++ [k])
      refine ⟨e + 1, m, ?_, hnot, ?_⟩
      · rw [Nat.pow_succ', Nat.mul_assoc, ← hm, Nat.mul_div_cancel' hdvd]
      · rw [if_pos h, heq, append_assoc, singleton_append, replicate_succ]
    · exact ⟨0, n, by rw [Nat.pow_zero, Nat.one_mul], fun hdvd => h (Nat.mod_eq_zero_of_dvd hdvd), by
        rw [if_neg h, replicate_zero, append_nil]⟩

lemma Rough.divided (h : Rough N k n divisors) (hk : 2 ≤ k) :
    Rough N (k + 1) (divideOut k n n divisors).1 (divideOut k n n divisors).2 := by
  obtain ⟨e, m, hm, hnot, heq⟩ := divideOut_eq hk h.pos (Nat.le_refl n) divisors
  rw [heq]
  -- a divisor with no smaller prime factor is a prime
  have hprime : ∀ p ∈ List.replicate e k, p.Prime ∧ p = k := by
    intro p hp
    obtain ⟨he, rfl⟩ := mem_replicate.mp hp
    have hdvd : p ∣ n := hm ▸ (dvd_pow_self p he).mul_right m
    have hle := h.rough p.minFac (Nat.minFac_prime (by omega)) ((Nat.minFac_dvd p).trans hdvd)
    exact ⟨Nat.prime_def_minFac.mpr ⟨hk, Nat.le_antisymm (Nat.minFac_le (by omega)) hle⟩, rfl⟩
  refine ⟨?_, ?_, ?_, ?_, ?_⟩
  · refine Nat.pos_of_ne_zero ?_
    rintro (rfl : m = 0)
    exact hnot (Nat.dvd_zero k)
  · rw [prod_append, prod_replicate, Nat.mul_assoc, ← hm, h.prod]
  · intro p hp
    obtain hp | hp := mem_append.mp hp
    · obtain ⟨hp, hlt⟩ := h.prime p hp
      exact ⟨hp, Nat.lt_succ_of_lt hlt⟩
    · obtain ⟨hp, he⟩ := hprime p hp
      exact ⟨hp, he ▸ Nat.lt_succ_self p⟩
  · refine pairwise_append.mpr ⟨h.sorted, pairwise_replicate.mpr (.inr (Nat.le_refl k)), ?_⟩
    intro p hp q hq
    rw [(hprime q hq).2]
    exact (h.prime p hp).2.le
  · intro p hp hdvd
    refine Nat.lt_of_le_of_ne (h.rough p hp (hm ▸ hdvd.mul_left _)) ?_
    rintro rfl
    exact hnot hdvd

lemma Rough.skip (h : Rough N b n divisors) (hb : ¬ b.Prime) : Rough N (b + 1) n divisors := by
  refine ⟨h.pos, h.prod, fun p hp => ⟨(h.prime p hp).1, by have := (h.prime p hp).2; omega⟩, h.sorted, ?_⟩
  intro p hp hdvd
  refine Nat.lt_of_le_of_ne (h.rough p hp hdvd) ?_
  rintro rfl
  exact hb hp

lemma not_prime_of_mod (hmod : b % 6 = 0 ∨ b % 6 = 2 ∨ b % 6 = 3 ∨ b % 6 = 4) (hb : 3 < b) : ¬ b.Prime := by
  intro hp
  obtain h | h | h | h := hmod
  all_goals
    have h2 := (Nat.prime_dvd_prime_iff_eq Nat.prime_two hp).mp
    have h3 := (Nat.prime_dvd_prime_iff_eq Nat.prime_three hp).mp
    omega

lemma Rough.le (h : Rough N b n divisors) (hN : 0 < N) : n ≤ N :=
  Nat.le_of_dvd hN ⟨divisors.prod, by rw [Nat.mul_comm, h.prod]⟩

lemma Rough.turned {i : Nat} (h : Rough N i n divisors) (hmod : i % 6 = 5) :
    Rough N (i + 6) (divideOut (i + 2) (divideOut i n n divisors).1 (divideOut i n n divisors).1 (divideOut i n n divisors).2).1
      (divideOut (i + 2) (divideOut i n n divisors).1 (divideOut i n n divisors).1 (divideOut i n n divisors).2).2 := by
  have h2 := (h.divided (by omega)).skip (not_prime_of_mod (by omega) (by omega))
  have h4 := (h2.divided (by omega)).skip (not_prime_of_mod (by omega) (by omega))
  exact (h4.skip (not_prime_of_mod (by omega) (by omega))).skip (not_prime_of_mod (by omega) (by omega))

lemma wheel_eq_ok {fuel i : Nat} (h : Rough N i n divisors) (hmod : i % 6 = 5) (hpos : 0 < N) (hN : N < 2 ^ 62)
    (hi : i ≤ 2 ^ 31 + 6) (hfuel : N < (i + 6 * fuel) * (i + 6 * fuel)) :
    ∃ m divisors' j, wheel fuel i n divisors = .ok (m, divisors') ∧ Rough N j m divisors' ∧ m < j * j := by
  have hle := h.le hpos
  induction fuel generalizing i n divisors with
  | zero => exact ⟨n, divisors, i, rfl, h, Nat.lt_of_le_of_lt hle hfuel⟩
  | succ fuel ih =>
    have hsquare : i * i < 2 ^ 63 := lt_of_le_of_lt (Nat.mul_le_mul hi hi) (by decide)
    rw [wheel, mulU, if_pos hsquare, ok_bind]
    by_cases hstop : i * i ≤ n
    · have hsmall : i < 2 ^ 31 := by
        by_contra hbig
        have := Nat.mul_le_mul (Nat.le_of_not_lt hbig) (Nat.le_of_not_lt hbig)
        omega
      have hnext := h.turned hmod
      rw [if_pos hstop, addU, if_pos (by omega), ok_bind, addU, if_pos (by omega), ok_bind]
      refine ih hnext (by omega) (by omega) ?_ (hnext.le hpos)
      rwa [Nat.add_assoc, Nat.add_comm 6, ← Nat.mul_succ]
    · rw [if_neg hstop]
      exact ⟨n, divisors, i, rfl, h, Nat.lt_of_not_le hstop⟩

lemma getPrimeDivisors_eq_ok (hpos : 0 < n) (hn : n < 2 ^ 62) :
    ∃ primes, getPrimeDivisors n = .ok primes ∧ primes.prod = n ∧ (∀ p ∈ primes, p.Prime) ∧ primes.Pairwise (· ≤ ·) := by
  have h : Rough n 2 n [] := ⟨hpos, Nat.one_mul n, fun _ hp => absurd hp not_mem_nil, .nil, fun p hp _ => hp.two_le⟩
  have h := ((h.divided (Nat.le_refl 2)).divided (by omega)).skip (not_prime_of_mod (by omega) (by omega))
  have hfuel : n < (5 + 6 * n) * (5 + 6 * n) := lt_of_lt_of_le (by omega) (Nat.le_mul_self _)
  obtain ⟨m, divisors, j, hwheel, hrough, hlt⟩ := wheel_eq_ok h rfl hpos hn (by decide) hfuel
  have heq : getPrimeDivisors n = .ok (if 1 < m then divisors ++ [m] else divisors) := by
    rw [getPrimeDivisors, if_neg (Nat.ne_of_gt hpos)]
    exact congrArg (fun w => w >>= fun left => .ok (if 1 < left.1 then left.2 ++ [left.1] else left.2)) hwheel
  refine ⟨_, heq, ?_⟩
  split
  · rename_i hm
    have hj := hrough.rough m.minFac (Nat.minFac_prime (Nat.ne_of_gt hm)) (Nat.minFac_dvd m)
    have hprime : m.Prime := by
      by_contra hnot
      have hsq := Nat.minFac_sq_le_self hrough.pos hnot
      rw [Nat.pow_two] at hsq
      exact absurd (Nat.mul_le_mul hj hj) (by omega)
    refine ⟨?_, ?_, ?_⟩
    · rw [prod_append, prod_singleton, hrough.prod]
    · intro p hp
      obtain hp | hp := mem_append.mp hp
      · exact (hrough.prime p hp).1
      · exact mem_singleton.mp hp ▸ hprime
    · refine pairwise_append.mpr ⟨hrough.sorted, pairwise_singleton _ _, ?_⟩
      intro p hp q hq
      obtain rfl := mem_singleton.mp hq
      exact (hrough.prime p hp).2.le.trans (hj.trans (Nat.minFac_le hrough.pos))
  · have hm : m = 1 := by
      have := hrough.pos
      omega
    refine ⟨?_, fun p hp => (hrough.prime p hp).1, hrough.sorted⟩
    rw [← hrough.prod, hm, Nat.mul_one]

end Primes

section Divisors
variable {D p e : Nat} {base divisors : List Nat} {st : Products}

/-- A list of all divisors of a number, each once. -/
structure Lists (divisors : List Nat) (D : Nat) : Prop where
  nodup : divisors.Nodup
  mem : ∀ x, x ∈ divisors ↔ x ∣ D

lemma Lists.append (hdivisors : Lists divisors (D * p ^ e)) (hbase : Lists base D) (hp : p.Prime) (hD : ¬ p ∣ D) :
    Lists (divisors ++ base.map (· * p ^ (e + 1))) (D * p ^ (e + 1)) := by
  have hpos : 0 < p ^ (e + 1) := Nat.pow_pos hp.pos
  refine ⟨?_, ?_⟩
  · refine List.Nodup.append hdivisors.nodup (hbase.nodup.map fun x y hxy => Nat.eq_of_mul_eq_mul_right hpos hxy) ?_
    intro x hx hx'
    obtain ⟨y, hy, rfl⟩ := mem_map.mp hx'
    -- one power too many for the number so far
    have hdvd : p ^ (e + 1) ∣ D * p ^ e := (Nat.dvd_mul_left _ y).trans ((hdivisors.mem _).mp hx)
    rw [Nat.pow_succ', Nat.mul_dvd_mul_iff_right (Nat.pow_pos hp.pos)] at hdvd
    exact hD hdvd
  · intro x
    rw [mem_append, hdivisors.mem, mem_map]
    constructor
    · rintro (hx | ⟨y, hy, rfl⟩)
      · exact hx.trans (Nat.mul_dvd_mul_left D (Nat.pow_dvd_pow p (Nat.le_succ e)))
      · exact Nat.mul_dvd_mul_right ((hbase.mem y).mp hy) _
    · intro hx
      obtain ⟨y, z, hy, hz, rfl⟩ := Nat.dvd_mul.mp hx
      obtain ⟨j, hj, rfl⟩ := (Nat.dvd_prime_pow hp).mp hz
      obtain hj | rfl := Nat.le_succ_iff.mp hj
      · exact .inl (Nat.mul_dvd_mul hy (Nat.pow_dvd_pow p hj))
      · exact .inr ⟨y, (hbase.mem y).mpr hy, rfl⟩

lemma pushProducts_eq_ok {factor k : Nat} (hk : k ≤ divisors.length)
    (hfit : ∀ x ∈ divisors.take k, x * factor < 2 ^ 63) :
    pushProducts divisors factor k = .ok (divisors ++ (divisors.take k).map (· * factor)) := by
  unfold pushProducts
  induction k with
  | zero => simp
  | succ k ih =>
    have htake : divisors.take (k + 1) = divisors.take k ++ [divisors[k]] := (take_append_getElem hk).symm
    rw [htake] at hfit ⊢
    have hlast := hfit divisors[k] (mem_append_right _ mem_cons_self)
    rw [range_succ, foldlM_append,
      ih (Nat.le_of_succ_le hk) (fun x hx => hfit x (mem_append_left _ hx)), ok_bind, foldlM_cons,
      getElem?_append_left hk, getElem?_eq_getElem hk, unwrap_some, ok_bind, mulU, if_pos hlast,
      ok_bind, ok_bind, foldlM_nil, map_append, append_assoc]
    rfl

/-- The state when the divisors of `D` have been made. Once there is a last prime, the slice has the divisors from before
it. -/
structure Made (D : Nat) (st : Products) : Prop where
  lists : Lists st.divisors D
  small : ∀ q, q.Prime → q ∣ D → q ≤ st.lastPrime
  slice : st.lastPrime ≠ 0 → ∃ D' e, D = D' * st.lastPrime ^ e ∧ ¬ st.lastPrime ∣ D' ∧ st.factor = st.lastPrime ^ e
    ∧ st.sliceLen ≤ st.divisors.length ∧ Lists (st.divisors.take st.sliceLen) D'

lemma made_append {D' : Nat} (hp : p.Prime) (hlists : Lists divisors (D' * p ^ e)) (hD : ¬ p ∣ D')
    (hsmall : ∀ q, q.Prime → q ∣ D' * p ^ e → q ≤ p) {k : Nat} (hk : k ≤ divisors.length)
    (hbase : Lists (divisors.take k) D') (hfit : D' * p ^ (e + 1) < 2 ^ 63) :
    ∃ divisors', pushProducts divisors (p ^ (e + 1)) k = .ok divisors'
      ∧ Made (D' * p ^ (e + 1)) ⟨divisors', p, p ^ (e + 1), k⟩ := by
  have hD' : 0 < D' := Nat.pos_of_ne_zero fun hzero => hD (hzero ▸ Nat.dvd_zero p)
  refine ⟨_, pushProducts_eq_ok hk ?_, hlists.append hbase hp hD, ?_, ?_⟩
  · intro x hx
    have hle := Nat.le_of_dvd hD' ((hbase.mem x).mp hx)
    exact Nat.lt_of_le_of_lt (Nat.mul_le_mul_right _ hle) hfit
  · intro q hq hdvd
    obtain hdvd | hdvd := hq.dvd_mul.mp hdvd
    · exact hsmall q hq (hdvd.mul_right _)
    · exact Nat.le_of_eq ((Nat.prime_dvd_prime_iff_eq hq hp).mp (hq.dvd_of_dvd_pow hdvd))
  · intro _
    refine ⟨D', e + 1, rfl, hD, rfl, ?_, ?_⟩
    · simp only [length_append]
      omega
    · rw [take_append_of_le_length hk]
      exact hbase

/-- One more prime makes the divisors of the product. -/
lemma Made.step (h : Made D st) (hp : p.Prime) (hle : st.lastPrime ≤ p) (hfit : D * p < 2 ^ 63) :
    ∃ st', st.step p = .ok st' ∧ Made (D * p) st' ∧ st'.lastPrime = p := by
  unfold Products.step
  by_cases hlast : st.lastPrime = p
  · subst hlast
    obtain ⟨D', e, rfl, hD, hfactor, hk, hbase⟩ := h.slice hp.ne_zero
    rw [Nat.mul_assoc, ← Nat.pow_succ] at hfit ⊢
    obtain ⟨divisors', hpush, hmade⟩ := made_append hp h.lists hD h.small hk hbase hfit
    have hfit' : st.lastPrime ^ e * st.lastPrime < 2 ^ 63 := by
      have hD' : 0 < D' := Nat.pos_of_ne_zero fun hzero => hD (hzero ▸ Nat.dvd_zero _)
      exact Nat.lt_of_le_of_lt (Nat.le_mul_of_pos_left _ hD') hfit
    refine ⟨_, ?_, hmade, rfl⟩
    rw [if_neg (not_not.mpr rfl), hfactor, mulU, if_pos hfit', ok_bind, ← Nat.pow_succ, hpush, ok_bind]
  · -- the divisors so far are those from before the new prime
    have hD : ¬ p ∣ D := fun hdvd => hlast (Nat.le_antisymm hle (h.small p hp hdvd))
    have hone : D * p ^ 0 = D := by rw [Nat.pow_zero, Nat.mul_one]
    obtain ⟨divisors', hpush, hmade⟩ := made_append (e := 0) hp (by rw [hone]; exact h.lists) hD
      (fun q hq hdvd => (h.small q hq (hone ▸ hdvd)).trans hle) (Nat.le_refl _) (by rw [take_length]; exact h.lists)
      (by rw [Nat.zero_add, Nat.pow_one]; exact hfit)
    rw [Nat.zero_add, Nat.pow_one] at hpush hmade
    refine ⟨_, ?_, hmade, rfl⟩
    rw [if_pos hlast, hpush, ok_bind]

lemma foldlM_step {primes : List Nat} (h : Made D st) (hp : ∀ p ∈ primes, p.Prime)
    (hsorted : (st.lastPrime :: primes).Pairwise (· ≤ ·)) (hfit : D * primes.prod < 2 ^ 63) :
    ∃ st', primes.foldlM Products.step st = .ok st' ∧ Made (D * primes.prod) st' := by
  induction primes generalizing D st with
  | nil => exact ⟨st, rfl, by rw [prod_nil, Nat.mul_one]; exact h⟩
  | cons p primes ih =>
    obtain ⟨hle, hsorted⟩ := pairwise_cons.mp hsorted
    obtain ⟨hpp, hprimes⟩ := forall_mem_cons.mp hp
    rw [prod_cons, ← Nat.mul_assoc] at hfit ⊢
    have hpos : 0 < primes.prod := prod_pos fun q hq => (hprimes q hq).pos
    obtain ⟨st₁, hstep, hmade, rfl⟩ := h.step hpp (hle p mem_cons_self)
      (Nat.lt_of_le_of_lt (Nat.le_mul_of_pos_right _ hpos) hfit)
    obtain ⟨st', hfold, hmade'⟩ := ih hmade hprimes hsorted hfit
    exact ⟨st', by rw [foldlM_cons, hstep, ok_bind, hfold], hmade'⟩

end Divisors

section Results
variable {n c v : Nat}

lemma getDivisors_eq_ok (hpos : 1 ≤ n) (hn : n < 2 ^ 62) :
    ∃ divisors, getDivisors n = .ok divisors ∧ divisors.Pairwise (· < ·) ∧ ∀ d, d ∈ divisors ↔ d ∣ n := by
  unfold getDivisors
  by_cases hone : n = 1
  · subst hone
    exact ⟨[1], rfl, pairwise_singleton _ _, fun d => by rw [mem_singleton, Nat.dvd_one]⟩
  · have hstart : Made 1 ⟨[1], 0, 0, 0⟩ := by
      refine ⟨⟨nodup_singleton 1, fun x => by rw [mem_singleton, Nat.dvd_one]⟩, ?_, fun h => absurd rfl h⟩
      intro q hq hdvd
      exact absurd (Nat.dvd_one.mp hdvd) hq.ne_one
    obtain ⟨primes, heq, hprod, hprimes, hsorted⟩ := getPrimeDivisors_eq_ok hpos hn
    obtain ⟨st, hfold, hmade⟩ := foldlM_step hstart hprimes
      (pairwise_cons.mpr ⟨fun p _ => Nat.zero_le p, hsorted⟩) (by rw [Nat.one_mul, hprod]; omega)
    rw [Nat.one_mul, hprod] at hmade
    have hperm := perm_insertionSort (· ≤ ·) st.divisors
    refine ⟨_, by rw [if_neg hone, if_pos (by omega), heq, ok_bind, hfold, ok_bind], ?_, ?_⟩
    · have hnodup : (st.divisors.insertionSort (· ≤ ·)).Nodup := hperm.nodup_iff.mpr hmade.lists.nodup
      exact (pairwise_insertionSort (· ≤ ·) st.divisors).imp₂ (fun _ _ hle hne => Nat.lt_of_le_of_ne hle hne) hnodup
    · intro d
      rw [hperm.mem_iff, hmade.lists.mem]

lemma splitFrom_isGreatest {rest : List Nat} (hsorted : (v :: rest).Pairwise (· < ·)) (hv : v < c)
    (hn : n ∈ v :: rest) (hmax : ∀ x ∈ v :: rest, x ≤ n) :
    IsGreatest {d | d ∈ v :: rest ∧ d ≤ c} (splitFrom n c (some v) rest) := by
  induction rest generalizing v with
  | nil =>
    obtain rfl := mem_singleton.mp hn
    exact ⟨⟨hn, hv.le⟩, fun d hd => hmax d hd.1⟩
  | cons w rest ih =>
    obtain ⟨hlt, hsorted⟩ := pairwise_cons.mp hsorted
    have hvw := hlt w mem_cons_self
    rw [splitFrom]
    split
    · rename_i hwc
      subst hwc
      exact ⟨⟨mem_cons_of_mem _ mem_cons_self, Nat.le_refl w⟩, fun d hd => hd.2⟩
    · rename_i hwc
      split
      · rename_i hcw
        -- the next divisor is too large, and so are all behind it
        refine ⟨⟨mem_cons_self, hv.le⟩, ?_⟩
        rintro d ⟨hd, hdc⟩
        obtain rfl | hd := mem_cons.mp hd
        · exact Nat.le_refl d
        · obtain rfl | hd := mem_cons.mp hd
          · omega
          · have := (pairwise_cons.mp hsorted).1 d hd
            omega
      · rename_i hcw
        have hn : n ∈ w :: rest := by
          refine (mem_cons.mp hn).resolve_left ?_
          rintro rfl
          exact absurd (hmax w (mem_cons_of_mem _ mem_cons_self)) (by omega)
        obtain ⟨⟨hmem, hle⟩, hgreatest⟩ := ih hsorted (by omega) hn fun x hx => hmax x (mem_cons_of_mem _ hx)
        refine ⟨⟨mem_cons_of_mem _ hmem, hle⟩, ?_⟩
        rintro d ⟨hd, hdc⟩
        obtain rfl | hd := mem_cons.mp hd
        · exact hvw.le.trans (hgreatest ⟨mem_cons_self, by omega⟩)
        · exact hgreatest ⟨hd, hdc⟩

/-- The divisors of a number are listed in order, and a split is the largest divisor up to what is asked for. -/
theorem divisors_and_splits (hpos : 1 ≤ n) (hn : n < 2 ^ 62) :
    (∃ divisors, getDivisors n = .ok divisors ∧ divisors.Pairwise (· < ·) ∧ ∀ d, d ∈ divisors ↔ d ∣ n)
      ∧ ∀ closeTo, 1 ≤ closeTo → ∃ split, getSmallerSplit n closeTo = .ok split
        ∧ IsGreatest {d | d ∣ n ∧ d ≤ closeTo} split := by
  obtain ⟨divisors, heq, hsorted, hmem⟩ := getDivisors_eq_ok hpos hn
  refine ⟨⟨divisors, heq, hsorted, hmem⟩, ?_⟩
  intro closeTo hclose
  refine ⟨_, by rw [getSmallerSplit, heq, ok_bind], ?_⟩
  simp only [← hmem]
  cases divisors with
  | nil => exact absurd ((hmem 1).mpr (Nat.one_dvd n)) not_mem_nil
  | cons v rest =>
    -- the first divisor is 1
    have hv : v = 1 := by
      have hpos' : 0 < v := Nat.pos_of_dvd_of_pos ((hmem v).mp mem_cons_self) hpos
      obtain h | h := mem_cons.mp ((hmem 1).mpr (Nat.one_dvd n))
      · exact h.symm
      · have := (pairwise_cons.mp hsorted).1 1 h
        omega
    rw [splitFrom]
    split
    · rename_i hvc
      exact ⟨⟨mem_cons_self, hvc.le⟩, fun d hd => hvc ▸ hd.2⟩
    · rename_i hvc
      rw [if_neg (by omega)]
      exact splitFrom_isGreatest hsorted (by omega) ((hmem n).mpr (Nat.dvd_refl n))
        fun x hx => Nat.le_of_dvd hpos ((hmem x).mp hx)

/-- The divisors of twelve, of which four is the greatest up to five. -/
theorem divisors_and_splits_twelve :
    getDivisors 12 = .ok [1, 2, 3, 4, 6, 12] ∧ getSmallerSplit 12 5 = .ok 4
      ∧ IsGreatest {d | d ∣ 12 ∧ d ≤ 5} 4 := by
  obtain ⟨_, hsplit⟩ := divisors_and_splits (n := 12) (by decide) (by decide)
  obtain ⟨split, heq, hgreatest⟩ := hsplit 5 (by decide)
  have hfour : getSmallerSplit 12 5 = .ok 4 := by decide +kernel
  obtain rfl := Except.ok.inj (hfour.symm.trans heq)
  exact ⟨by decide +kernel, hfour, hgreatest⟩

end Results
end Leviathan.TransformDCT
