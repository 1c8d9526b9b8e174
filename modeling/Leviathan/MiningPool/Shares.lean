import Leviathan.MiningPool.State

/-!
# The shares of lenders

A lender may claim its share of everything that has been repaid, by what everybody has deposited so far, less what it
has claimed (`due`). The pool can pay everybody as long as nobody has claimed more than its share (`Shared`,
`Shared.total_due_le`). A claim and a transfer to the pool keep it that way. A deposit makes the shares of the others
smaller, also of what they have claimed already, and an extraction takes from what has been repaid if the pool repays in
the token it collects.
-/

namespace Leviathan.MiningPool
open Exec

/-- What a lender can still claim: what the program computes as its share, less what it has claimed. -/
def due (m : MiningPool) (lender : Lender) : Nat :=
  match m.claimable lender with
  | .ok share => share - lender.claimedRedeemableAmount
  | .error _ => 0

/-- What an instruction does. -/
inductive PoolStep (m : MiningPool) : MiningPoolInstruction → MiningPool → Prop where
  | extract {authority account amount extracted} :
    PoolStep m (.poolExtract authority account amount) { m with
      pool := { m.pool with totalExtractedCollateralAmount := extracted }
      balance := Function.update m.balance m.pool.collateralMint (m.balance m.pool.collateralMint - amount) }
  | update {authority params maximum freeze metadata} :
    PoolStep m (.poolUpdate authority params) { m with
      pool := { m.pool with maxDepositCollateralAmount := maximum, freeze, metadata } }
  | claimable {authority redeemableMint} :
    m.pool.claimingEnabled = false →
    PoolStep m (.poolClaimable authority redeemableMint) { m with
      pool := { m.pool with claimingEnabled := true, redeemableMint, totalClaimedRedeemableAmount := 0 } }
  | create {user} :
    m.lenders.lookup user = none →
    PoolStep m (.lenderCreate user) { m with lenders := m.lenders.insert user ⟨0, 0⟩ }
  | deposit {user account amount lender} :
    m.lenders.lookup user = some lender →
    PoolStep m (.lenderDeposit user account amount) {
      pool := { m.pool with
        totalDepositedCollateralAmount := m.pool.totalDepositedCollateralAmount + amount }
      lenders := m.lenders.insert user { lender with
        depositedCollateralAmount := lender.depositedCollateralAmount + amount }
      balance := Function.update m.balance m.pool.collateralMint (m.balance m.pool.collateralMint + amount) }
  | claim {user account mint amount lender share} :
    m.lenders.lookup user = some lender →
    m.pool.claimingEnabled = true →
    m.claimable lender = .ok share →
    lender.claimedRedeemableAmount + amount ≤ share →
    amount ≤ m.balance m.pool.redeemableMint →
    PoolStep m (.lenderClaim user account mint amount) {
      pool := { m.pool with totalClaimedRedeemableAmount := m.pool.totalClaimedRedeemableAmount + amount }
      lenders := m.lenders.insert user { lender with
        claimedRedeemableAmount := lender.claimedRedeemableAmount + amount }
      balance := Function.update m.balance m.pool.redeemableMint (m.balance m.pool.redeemableMint - amount) }
  | transferIn {mint amount} :
    PoolStep m (.transferIn mint amount) { m with
      balance := Function.update m.balance mint (m.balance mint + amount) }

section Inversion
variable {m m' : MiningPool} {ix : MiningPoolInstruction}

lemma claimable_eq_ok {lender : Lender} {share : Nat} (h : m.claimable lender = .ok share) :
    m.pool.totalDepositedCollateralAmount ≠ 0
      ∧ share = (m.pool.totalClaimedRedeemableAmount + m.balance m.pool.redeemableMint)
        * lender.depositedCollateralAmount / m.pool.totalDepositedCollateralAmount := by
  simp only [claimable, bind_eq_ok, require_eq_ok, mulU_eq_ok, Except.ok.injEq] at h
  obtain ⟨_, hpos, _, ⟨_, rfl⟩, _, _, rfl⟩ := h
  exact ⟨hpos, rfl⟩

/-- Every accepted instruction is a step of the pool. -/
lemma process_inv (h : m.process ix = .ok m') : PoolStep m ix m' := by
  cases ix with
  | poolExtract authority account amount =>
    simp only [process, poolExtract, transferOut, bind_eq_ok, require_eq_ok, addU_eq_ok, Except.ok.injEq] at h
    obtain ⟨_, _, _, _, _, _, _, ⟨_, rfl⟩, _, _, rfl⟩ := h
    exact .extract
  | poolUpdate authority params =>
    simp only [process, poolUpdate, bind_eq_ok, require_eq_ok, Except.ok.injEq] at h
    obtain ⟨_, _, _, _, rfl⟩ := h
    exact .update
  | poolClaimable authority redeemableMint =>
    simp only [process, poolClaimable, bind_eq_ok, require_eq_ok, Except.ok.injEq] at h
    obtain ⟨_, _, _, _, _, hoff, rfl⟩ := h
    exact .claimable hoff
  | lenderCreate user =>
    simp only [process, lenderCreate, bind_eq_ok, require_eq_ok, Except.ok.injEq] at h
    obtain ⟨_, hnew, rfl⟩ := h
    exact .create hnew
  | lenderDeposit user account amount =>
    simp only [process, lenderDeposit, MiningPool.transferIn, bind_eq_ok, require_eq_ok, okOr_eq_ok,
      addU_eq_ok, Except.ok.injEq] at h
    obtain ⟨_, _, lender, hl, _, _, _, ⟨_, rfl⟩, _, _, _, _, _, ⟨_, _, rfl⟩, _, ⟨_, rfl⟩, rfl⟩ := h
    exact .deposit hl
  | lenderClaim user account mint amount =>
    simp only [process, lenderClaim, transferOut, bind_eq_ok, require_eq_ok, okOr_eq_ok, addU_eq_ok,
      Except.ok.injEq] at h
    obtain ⟨_, _, _, _, lender, hl, _, _, _, hon, share, hshare, _, ⟨_, rfl⟩, _, hle, _, ⟨_, rfl⟩, _, hbalance, rfl⟩ := h
    exact .claim hl hon hshare hle hbalance.1
  | transferIn mint amount =>
    simp only [process, MiningPool.transferIn, bind_eq_ok, require_eq_ok, Except.ok.injEq] at h
    obtain ⟨_, _, rfl⟩ := h
    exact .transferIn

lemma step_inv {o : Unit} (h : machine.step m ix = .ok (m', o)) : PoolStep m ix m' := by
  obtain ⟨m'', hm, h⟩ := bind_eq_ok.mp h
  cases h
  exact process_inv hm

end Inversion

/-- Nobody has claimed more than its share of what has been repaid, and the totals are those of the lenders. -/
structure Shared (m : MiningPool) : Prop where
  deposited : m.lenders.total Lender.depositedCollateralAmount = m.pool.totalDepositedCollateralAmount
  claimed : m.lenders.total Lender.claimedRedeemableAmount = m.pool.totalClaimedRedeemableAmount
  disabled : m.pool.claimingEnabled = false → m.pool.totalClaimedRedeemableAmount = 0
  share : ∀ user lender, m.lenders.lookup user = some lender →
    lender.claimedRedeemableAmount * m.pool.totalDepositedCollateralAmount
      ≤ (m.pool.totalClaimedRedeemableAmount + m.balance m.pool.redeemableMint) * lender.depositedCollateralAmount

/-- An instruction that changes nobody's share of what has been claimed: once something has been claimed, nothing is
deposited, nor extracted in the token that lenders are repaid in. -/
def KeepsShares (m : MiningPool) : MiningPoolInstruction → Prop
  | .lenderDeposit _ _ amount => m.pool.totalClaimedRedeemableAmount = 0 ∨ amount = 0
  | .poolExtract _ _ amount =>
    m.pool.totalClaimedRedeemableAmount = 0 ∨ amount = 0 ∨ m.pool.redeemableMint ≠ m.pool.collateralMint
  | _ => True

instance (m : MiningPool) (ix : MiningPoolInstruction) : Decidable (m.KeepsShares ix) := by
  unfold KeepsShares
  split <;> infer_instance

namespace Shared
variable {m m' : MiningPool} {ix : MiningPoolInstruction} {user : Pubkey} {lender : Lender}

lemma of_unclaimed
    (hd : m.lenders.total Lender.depositedCollateralAmount = m.pool.totalDepositedCollateralAmount)
    (hc : m.lenders.total Lender.claimedRedeemableAmount = m.pool.totalClaimedRedeemableAmount)
    (hzero : m.pool.totalClaimedRedeemableAmount = 0) : Shared m where
  deposited := hd
  claimed := hc
  disabled _ := hzero
  share user lender hl := by
    have hle := Accounts.le_total Lender.claimedRedeemableAmount hl
    rw [show lender.claimedRedeemableAmount = 0 by omega, Nat.zero_mul]
    exact Nat.zero_le _

lemma share_insert {n d : Nat}
    (h : ∀ u l, m.lenders.lookup u = some l → l.claimedRedeemableAmount * d ≤ n * l.depositedCollateralAmount)
    (hl : lender.claimedRedeemableAmount * d ≤ n * lender.depositedCollateralAmount) (u : Pubkey) (l : Lender)
    (hu : (m.lenders.insert user lender).lookup u = some l) :
    l.claimedRedeemableAmount * d ≤ n * l.depositedCollateralAmount := by
  obtain ⟨_, rfl⟩ | ⟨_, hu⟩ := Accounts.lookup_insert_eq_some hu
  · exact hl
  · exact h u l hu

lemma totals_insert (h : Shared m) (hl : m.lenders.lookup user = some lender) (x y : Nat) :
    Accounts.total (m.lenders.insert user ⟨lender.depositedCollateralAmount + x, lender.claimedRedeemableAmount + y⟩)
        Lender.depositedCollateralAmount = m.pool.totalDepositedCollateralAmount + x
      ∧ Accounts.total (m.lenders.insert user ⟨lender.depositedCollateralAmount + x, lender.claimedRedeemableAmount + y⟩)
        Lender.claimedRedeemableAmount = m.pool.totalClaimedRedeemableAmount + y := by
  have hd := Accounts.total_insert (a := ⟨lender.depositedCollateralAmount + x, lender.claimedRedeemableAmount + y⟩)
    Lender.depositedCollateralAmount hl
  have hc := Accounts.total_insert (a := ⟨lender.depositedCollateralAmount + x, lender.claimedRedeemableAmount + y⟩)
    Lender.claimedRedeemableAmount hl
  rw [h.deposited] at hd
  rw [h.claimed] at hc
  constructor
  · exact Nat.add_right_cancel (hd.trans (by dsimp only; omega))
  · exact Nat.add_right_cancel (hc.trans (by dsimp only; omega))

/-- Shares are kept by every instruction that changes nobody's share of what has been claimed. -/
lemma step (h : Shared m) (st : PoolStep m ix m') (hk : m.KeepsShares ix) : Shared m' := by
  cases st with
  | @extract authority account amount extracted =>
    obtain hzero | rfl | hne := hk
    · exact of_unclaimed h.deposited h.claimed hzero
    · refine ⟨h.deposited, h.claimed, h.disabled, ?_⟩
      simpa only [Nat.sub_zero, Function.update_eq_self] using h.share
    · refine ⟨h.deposited, h.claimed, h.disabled, ?_⟩
      simpa only [Function.update_of_ne hne] using h.share
  | update => exact ⟨h.deposited, h.claimed, h.disabled, h.share⟩
  | claimable hoff => exact of_unclaimed h.deposited (h.claimed.trans (h.disabled hoff)) rfl
  | create hnew =>
    refine ⟨?_, ?_, h.disabled, share_insert h.share (by simp)⟩
    · rw [Accounts.total_insert_new _ hnew, Nat.zero_add]
      exact h.deposited
    · rw [Accounts.total_insert_new _ hnew, Nat.zero_add]
      exact h.claimed
  | @deposit user account amount lender hl =>
    obtain ⟨hd, hc⟩ := h.totals_insert hl amount 0
    obtain hzero | rfl := hk
    · exact of_unclaimed hd hc hzero
    · refine ⟨hd, hc, h.disabled, ?_⟩
      simp only [Nat.add_zero, Function.update_eq_self]
      exact share_insert h.share (h.share user lender hl)
  | @claim user account mint amount lender share hl hon hshare hle hbalance =>
    obtain ⟨hd, hc⟩ := h.totals_insert hl 0 amount
    refine ⟨hd, hc, ?_, ?_⟩
    · intro hoff
      cases hon.symm.trans hoff
    · -- what is claimed is moved from one part of what has been repaid to the other
      have hsum : m.pool.totalClaimedRedeemableAmount + amount + (m.balance m.pool.redeemableMint - amount)
          = m.pool.totalClaimedRedeemableAmount + m.balance m.pool.redeemableMint := by omega
      simp only [Function.update_self, hsum]
      refine share_insert h.share ?_
      calc (lender.claimedRedeemableAmount + amount) * m.pool.totalDepositedCollateralAmount
          ≤ share * m.pool.totalDepositedCollateralAmount := Nat.mul_le_mul_right _ hle
        _ ≤ (m.pool.totalClaimedRedeemableAmount + m.balance m.pool.redeemableMint)
            * lender.depositedCollateralAmount := by
          rw [(claimable_eq_ok hshare).2]
          exact Nat.div_mul_le_self _ _
  | @transferIn mint amount =>
    refine ⟨h.deposited, h.claimed, h.disabled, ?_⟩
    intro user lender hl
    refine (h.share user lender hl).trans (Nat.mul_le_mul_right _ (Nat.add_le_add_left ?_ _))
    show m.balance m.pool.redeemableMint
      ≤ Function.update m.balance mint (m.balance mint + amount) m.pool.redeemableMint
    by_cases he : m.pool.redeemableMint = mint
    · rw [he, Function.update_self]
      exact Nat.le_add_right _ _
    · rw [Function.update_of_ne he]

lemma due_add_claimed_le (h : Shared m) (hpos : m.pool.totalDepositedCollateralAmount ≠ 0)
    (hl : m.lenders.lookup user = some lender) :
    m.due lender + lender.claimedRedeemableAmount
      ≤ (m.pool.totalClaimedRedeemableAmount + m.balance m.pool.redeemableMint) * lender.depositedCollateralAmount
        / m.pool.totalDepositedCollateralAmount := by
  have hle := (Nat.le_div_iff_mul_le (Nat.pos_of_ne_zero hpos)).mpr (h.share user lender hl)
  unfold due
  split
  · rename_i share hshare
    obtain ⟨_, rfl⟩ := claimable_eq_ok hshare
    omega
  · omega

lemma total_due_le (h : Shared m) : m.lenders.total m.due ≤ m.balance m.pool.redeemableMint := by
  by_cases hpos : m.pool.totalDepositedCollateralAmount = 0
  · have hnone : m.lenders.total m.due ≤ m.lenders.total (fun _ => 0) := by
      refine Accounts.total_le_total fun user lender hl => ?_
      unfold due
      split
      · rename_i share hshare
        exact absurd hpos (claimable_eq_ok hshare).1
      · exact Nat.le_refl _
    have hzero := Accounts.total_mul_left m.lenders 0 (fun _ => 0)
    simp only [Nat.zero_mul] at hzero
    omega
  · -- all shares together are at most what has been repaid
    have hsum := Accounts.total_le_total fun user lender hl => h.due_add_claimed_le hpos hl
    rw [Accounts.total_add, h.claimed] at hsum
    have hwhole := Accounts.total_share_le m.lenders Lender.depositedCollateralAmount
      (m.pool.totalClaimedRedeemableAmount + m.balance m.pool.redeemableMint) m.pool.totalDepositedCollateralAmount
    rw [h.deposited] at hwhole
    have hwhole := Nat.le_of_mul_le_mul_right hwhole (Nat.pos_of_ne_zero hpos)
    omega

end Shared

/-- Lenders are paid in proportion to their deposits: in every run in which, once something has been claimed, nothing is
deposited, and nothing is extracted of the token that lenders are repaid in, the pool has what all lenders can still claim.
-/
theorem lenders_paid_pro_rata {tr : Record} {m : MiningPool} (r : machine.Run tr m)
    (hk : ∀ ev ∈ tr, ev.before.KeepsShares ev.input) :
    m.lenders.total m.due ≤ m.balance m.pool.redeemableMint := by
  suffices hs : Shared m from hs.total_due_le
  revert hk
  refine r.history (P := fun tr m => (∀ ev ∈ tr, ev.before.KeepsShares ev.input) → Shared m) ?_ ?_
  · rintro m ⟨authority, collateralMint, metadata, h⟩ _
    simp only [poolCreate, bind_eq_ok, require_eq_ok, Except.ok.injEq] at h
    obtain ⟨_, _, rfl⟩ := h
    exact .of_unclaimed rfl rfl rfl
  · intro tr m ix m' o _ hm st hk
    obtain ⟨hix, hk⟩ := List.forall_mem_cons.mp hk
    exact (hm hk).step (step_inv st) hix

section Runs

/-- A pool that has just been created, in which collateral is the token 7. -/
def created : MiningPool where
  pool := ⟨9, 7, 0, 0, 0, false, 0, 0, false, ⟨0, []⟩⟩
  lenders := ∅
  balance := fun _ => 0

/-- The token account of a user. -/
def wallet (user mint : Pubkey) : TokenAccount := ⟨user, mint, none, 1000⟩

/-- A new pool after some instructions, and what has been accepted. -/
def runOf (inputs : List MiningPoolInstruction) : Record × MiningPool := machine.play [] created inputs

lemma run_runOf (inputs : List MiningPoolInstruction) : machine.Run (runOf inputs).1 (runOf inputs).2 := by
  have hinit : machine.Run [] created := .init ⟨9, 7, ⟨0, []⟩, rfl⟩
  exact hinit.play inputs

/-- Two lenders with one and three quarters of the deposits. The first one claims a quarter of 400, then 40 more are
repaid. -/
def quarters : List MiningPoolInstruction :=
  [.poolUpdate 9 ⟨some 1000, none, none⟩, .lenderCreate 1, .lenderDeposit 1 (wallet 1 7) 100, .lenderCreate 2,
    .lenderDeposit 2 (wallet 2 7) 300, .poolExtract 9 (wallet 9 7) 400, .transferIn 8 400, .poolClaimable 9 8,
    .lenderClaim 1 (wallet 1 8) 8 100, .transferIn 8 40]

/-- The only lender claims everything, and then a second one deposits as much as the first has. -/
def lateDeposit : List MiningPoolInstruction :=
  [.poolUpdate 9 ⟨some 1000, none, none⟩, .lenderCreate 1, .lenderDeposit 1 (wallet 1 7) 100, .transferIn 8 100,
    .poolClaimable 9 8, .lenderClaim 1 (wallet 1 8) 8 100, .lenderCreate 2, .lenderDeposit 2 (wallet 2 7) 100]

/-- Lenders are repaid in the token they have deposited. The first one claims a quarter of it, and the authority extracts
the rest. -/
def lateExtraction : List MiningPoolInstruction :=
  [.poolUpdate 9 ⟨some 1000, none, none⟩, .lenderCreate 1, .lenderDeposit 1 (wallet 1 7) 100, .lenderCreate 2,
    .lenderDeposit 2 (wallet 2 7) 100, .poolClaimable 9 7, .lenderClaim 1 (wallet 1 7) 7 50,
    .poolExtract 9 (wallet 9 7) 150]

/-- What is due to the lenders is exactly what is left in the pool. -/
theorem lenders_paid_pro_rata_quarters :
    (runOf quarters).2.pool.claimingEnabled = true ∧ (runOf quarters).2.balance 8 = 340
      ∧ (runOf quarters).2.lenders.total (runOf quarters).2.due = 340
      ∧ (runOf quarters).2.lenders.total (runOf quarters).2.due
        ≤ (runOf quarters).2.balance (runOf quarters).2.pool.redeemableMint := by
  refine ⟨by decide +kernel, by decide +kernel, by decide +kernel, ?_⟩
  exact lenders_paid_pro_rata (run_runOf quarters) (by decide +kernel)

/-- Claiming is enabled, and the pool has less than what all lenders can still claim. -/
def Unpaid (m : MiningPool) : Prop :=
  m.pool.claimingEnabled = true ∧ m.balance m.pool.redeemableMint < m.lenders.total m.due

instance (m : MiningPool) : Decidable m.Unpaid := inferInstanceAs (Decidable (_ ∧ _))

/-- After a deposit or an extraction that comes late the pool cannot pay what is due. -/
theorem late_deposit_unpaid :
    (machine.Run (runOf lateDeposit).1 (runOf lateDeposit).2 ∧ (runOf lateDeposit).2.Unpaid)
      ∧ (machine.Run (runOf lateExtraction).1 (runOf lateExtraction).2 ∧ (runOf lateExtraction).2.Unpaid) :=
  ⟨⟨run_runOf _, by decide +kernel⟩, ⟨run_runOf _, by decide +kernel⟩⟩

end Runs

end Leviathan.MiningPool
