import Leviathan.Lib.Exec

/-!
# Keys, identities and machine arithmetic

What all on-chain programs share: 32-byte keys and hashes, the two-part node identity of
`shared/core/src/node_identity.rs`, the token accounts of users, panics, and integer arithmetic as the programs compute
it. Their release profile sets `overflow-checks = true`, so an addition that does not fit aborts the transaction instead
of wrapping.

`sha256` itself is a library function (`shared/core/src/sha256.rs` forwards to it); the model takes it as a parameter of
type `Sha256`.
-/

namespace Leviathan
open Exec List
variable {n : Nat}

/-- A Rust `[u8; 32]`, least significant byte first: a key or a hash. -/
abbrev Bytes32 := BitVec 256

/-- A Solana public key. -/
abbrev Pubkey := Bytes32

instance : LawfulBEq Pubkey := inferInstance

abbrev Bytes := List (BitVec 8)

/-- The hash function the programs are linked with (Rust `sha256`; `sha256v` hashes the
concatenation). -/
abbrev Sha256 := Bytes → Bytes32

/-- The first `n` bytes of a number, least significant first (Rust `to_le_bytes`). -/
def leBytes : Nat → Nat → Bytes
  | 0, _ => []
  | n + 1, x => BitVec.ofNat 8 x :: leBytes n (x / 256)

/-- Byte `i` of a 32-byte value. -/
def Bytes32.byte (b : Bytes32) (i : Nat) : Nat := b.toNat / 256 ^ i % 256

def Bytes32.bytes (b : Bytes32) : Bytes := leBytes 32 b.toNat

lemma length_leBytes (n x : Nat) : (leBytes n x).length = n := by
  induction n generalizing x with
  | zero => rfl
  | succ n ih => rw [leBytes, length_cons, ih]

lemma take_leBytes {m : Nat} (x : Nat) (h : m ≤ n) : (leBytes n x).take m = leBytes m x := by
  induction m generalizing n x with
  | zero => rfl
  | succ m ih =>
    obtain ⟨n, rfl⟩ := Nat.exists_eq_succ_of_ne_zero (Nat.ne_of_gt (Nat.lt_of_lt_of_le m.succ_pos h))
    exact congrArg _ (ih _ (Nat.le_of_succ_le_succ h))

lemma getElem?_leBytes {i : Nat} (x : Nat) (h : i < n) : (leBytes n x)[i]? = some (BitVec.ofNat 8 (x / 256 ^ i)) := by
  induction i generalizing n x with
  | zero =>
    obtain ⟨n, rfl⟩ := Nat.exists_eq_succ_of_ne_zero (Nat.ne_of_gt h)
    rw [leBytes, getElem?_cons_zero, Nat.pow_zero, Nat.div_one]
  | succ i ih =>
    obtain ⟨n, rfl⟩ := Nat.exists_eq_succ_of_ne_zero (Nat.ne_of_gt (Nat.lt_of_lt_of_le i.succ_pos h.le))
    rw [leBytes, getElem?_cons_succ, ih _ (Nat.lt_of_succ_lt_succ h), Nat.div_div_eq_div_mul, Nat.pow_succ']

lemma leBytes_inj {x y : Nat} (hx : x < 256 ^ n) (hy : y < 256 ^ n) (h : leBytes n x = leBytes n y) : x = y := by
  induction n generalizing x y with
  | zero =>
    rw [Nat.pow_zero, Nat.lt_one_iff] at hx hy
    rw [hx, hy]
  | succ n ih =>
    obtain ⟨hlow, hrest⟩ := List.cons.inj h
    have hlow : x % 256 = y % 256 := by simpa using congrArg BitVec.toNat hlow
    have hhigh : x / 256 = y / 256 := by
      rw [Nat.pow_succ] at hx hy
      exact ih (Nat.div_lt_of_lt_mul (by omega)) (Nat.div_lt_of_lt_mul (by omega)) hrest
    omega

lemma leBytes_toNat_inj {w : Nat} {x y : BitVec (8 * w)} (h : leBytes w x.toNat = leBytes w y.toNat) : x = y := by
  have hlt : ∀ z : BitVec (8 * w), z.toNat < 256 ^ w := by
    intro z
    have hz := z.isLt
    rwa [Nat.pow_mul] at hz
  exact BitVec.eq_of_toNat_eq (leBytes_inj (hlt x) (hlt y) h)

variable {a b : Bytes32}

lemma Bytes32.bytes_inj (h : a.bytes = b.bytes) : a = b :=
  leBytes_toNat_inj (w := 32) h

lemma Bytes32.eq_of_append {c d : Bytes32} (h : a.bytes ++ b.bytes = c.bytes ++ d.bytes) : a = c ∧ b = d := by
  obtain ⟨hac, hbd⟩ := append_inj h ((length_leBytes 32 _).trans (length_leBytes 32 _).symm)
  exact ⟨bytes_inj hac, bytes_inj hbd⟩

/-- No two of the inputs have the same hash. -/
def CollisionFree (H : Sha256) (inputs : List Bytes) : Prop :=
  ∀ x ∈ inputs, ∀ y ∈ inputs, H x = H y → x = y

instance (H : Sha256) (inputs : List Bytes) : Decidable (CollisionFree H inputs) := by
  unfold CollisionFree
  infer_instance

lemma CollisionFree.mono {H : Sha256} {inputs inputs' : List Bytes} (h : CollisionFree H inputs')
    (hsub : inputs ⊆ inputs') : CollisionFree H inputs := by
  intro x hx y hy
  exact h x (hsub hx) y (hsub hy)

/-- A hash that is easily computed: the bytes are digits to the base 257, and the lowest 256 bits are kept. -/
def digitsHash : Sha256 := fun bytes => BitVec.ofNat 256 (bytes.foldl (fun n b => n * 257 + b.toNat + 1) 0)

/-- A node's wallet key and its peer-to-peer key. -/
structure NodeIdentity where
  signer : Pubkey
  p2pIdentity : Bytes32
deriving Repr

/-- Identities are compared by wallet key only (Rust `PartialEq for NodeIdentity`). -/
instance : BEq NodeIdentity := ⟨fun a b => a.signer == b.signer⟩

@[simp] lemma NodeIdentity.beq_iff {a b : NodeIdentity} : (a == b) = true ↔ a.signer = b.signer :=
  beq_iff_eq (a := a.signer) (b := b.signer)

/-- The token account a user brings along. It is never a program's own, for which no user can sign. -/
structure TokenAccount where
  owner : Pubkey
  mint : Pubkey
  delegate : Option Pubkey
  amount : Nat
deriving DecidableEq, Repr

/-- The aborts that can end a modelled function, one constructor for each place that aborts. -/
inductive Panic where
  | overflow            -- an arithmetic overflow check, other than of a subtraction
  | underflow           -- the overflow check of a subtraction
  | divisionByZero
  | indexOutOfBounds    -- `clients[index]` of a `FixedVec`, `layer[index]` of a Merkle tree
  | exitedClientsFull   -- `exited_clients.push(..).unwrap()` in `move_clients_to_exited`
  | clientsFull         -- `clients.extend(..).unwrap()` in `tick_waiting_for_members`
  | sameState           -- `assert!(self.run_state != new_state)` in `change_state`
  | noWitnesses         -- `unreachable!()` in `witness_quorum`
  | shuffleIndex        -- `assert!(index < index_count)` in `compute_shuffled_index`
  | emptyInterval       -- `assert!(start <= end)` in `ClosedInterval::new`
deriving DecidableEq, Repr

section Arithmetic
variable {ε : Type} {w a b n : Nat} {bad : Panic → Prop}

/-- Checked addition of `w`-bit unsigned integers. -/
def addU (w a b : Nat) : Exec ε Panic Nat :=
  if a + b < 2 ^ w then .ok (a + b) else Exec.abort .overflow

@[simp] lemma addU_eq_ok : (addU w a b : Exec ε Panic Nat) = .ok n ↔ a + b < 2 ^ w ∧ n = a + b :=
  checked_eq_ok

lemma addU_overflow (h : 2 ^ w ≤ a + b) : (addU w a b : Exec ε Panic Nat) = .error (.panic .overflow) :=
  if_neg (not_lt.mpr h)

/-- Checked subtraction of unsigned integers. -/
def subU (a b : Nat) : Exec ε Panic Nat :=
  if b ≤ a then .ok (a - b) else Exec.abort .underflow

@[simp] lemma subU_eq_ok : (subU a b : Exec ε Panic Nat) = .ok n ↔ b ≤ a ∧ n = a - b :=
  checked_eq_ok

/-- Checked multiplication of `w`-bit unsigned integers. -/
def mulU (w a b : Nat) : Exec ε Panic Nat :=
  if a * b < 2 ^ w then .ok (a * b) else Exec.abort .overflow

@[simp] lemma mulU_eq_ok : (mulU w a b : Exec ε Panic Nat) = .ok n ↔ a * b < 2 ^ w ∧ n = a * b :=
  checked_eq_ok

lemma mulU_overflow (h : 2 ^ w ≤ a * b) : (mulU w a b : Exec ε Panic Nat) = .error (.panic .overflow) :=
  if_neg (not_lt.mpr h)

/-- Checked addition of `i64` values. -/
def addI64 (a b : Int) : Exec ε Panic Int :=
  if -2 ^ 63 ≤ a + b ∧ a + b < 2 ^ 63 then .ok (a + b) else Exec.abort .overflow

@[simp] lemma addI64_eq_ok {a b n : Int} :
    (addI64 a b : Exec ε Panic Int) = .ok n ↔ (-2 ^ 63 ≤ a + b ∧ a + b < 2 ^ 63) ∧ n = a + b :=
  checked_eq_ok

/-- Checked subtraction of `i64` values. -/
def subI64 (a b : Int) : Exec ε Panic Int :=
  if -2 ^ 63 ≤ a - b ∧ a - b < 2 ^ 63 then .ok (a - b) else Exec.abort .overflow

@[simp] lemma subI64_eq_ok {a b n : Int} :
    (subI64 a b : Exec ε Panic Int) = .ok n ↔ (-2 ^ 63 ≤ a - b ∧ a - b < 2 ^ 63) ∧ n = a - b :=
  checked_eq_ok

/-- Checked arithmetic is safe where it fits, if an overflow is counted as a fault at all. -/
lemma addU_safe_of (h : bad .overflow → a + b < 2 ^ w) : Exec.Safe bad (addU w a b : Exec ε Panic Nat) :=
  .checked _ h

@[inherit_doc addU_safe_of]
lemma mulU_safe_of (h : bad .overflow → a * b < 2 ^ w) : Exec.Safe bad (mulU w a b : Exec ε Panic Nat) :=
  .checked _ h

/-- Checked arithmetic is safe where an overflow is not counted as a fault. -/
lemma addU_safe (h : ¬ bad .overflow) (w a b : Nat) : Exec.Safe bad (addU w a b : Exec ε Panic Nat) :=
  addU_safe_of fun hp => absurd hp h

@[inherit_doc addU_safe]
lemma addI64_safe (h : ¬ bad .overflow) (a b : Int) : Exec.Safe bad (addI64 a b : Exec ε Panic Int) :=
  .checked _ fun hp => absurd hp h

lemma subU_safe (h : ¬ bad .underflow) (a b : Nat) : Exec.Safe bad (subU a b : Exec ε Panic Nat) :=
  .checked _ fun hp => absurd hp h

lemma subU_of_le (h : b ≤ a) : (subU a b : Exec ε Panic Nat) = .ok (a - b) := if_pos h

@[inherit_doc addU_safe]
lemma mulU_safe (h : ¬ bad .overflow) (w a b : Nat) : Exec.Safe bad (mulU w a b : Exec ε Panic Nat) :=
  mulU_safe_of fun hp => absurd hp h

/-- Truncation to `u16` (Rust `as u16`). -/
def asU16 (n : Nat) : Nat := n % 2 ^ 16

lemma asU16_of_lt (h : n < 2 ^ 16) : asU16 n = n := Nat.mod_eq_of_lt h

/-- Reinterpretation of a signed clock value (Rust `as u64`). -/
def asU64 (t : Int) : Nat := (t % 2 ^ 64).toNat

end Arithmetic
end Leviathan
