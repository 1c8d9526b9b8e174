import Leviathan.Treasurer.Inversion

/-!
# The exit window

A withdrawal is asked for with `participant_bond_request_withdraw`, which notes the time and the delay the run has
configured, and paid with `participant_bond_finalize_withdraw`, which waits until the noted time plus the noted delay. A
participant has one note for all it has asked for: a second request overwrites the time and the delay of the first.

`requests` lists what a participant has asked for since its last withdrawal, each with its own time and delay.
-/

namespace Leviathan.Deployment
open List

/-- What an account notes about a pending withdrawal. -/
structure Exit where
  pending : Nat
  requestedAt : Int
  delay : Int
deriving DecidableEq, Repr

def Exit.of (p : Participant) : Exit :=
  ⟨p.bondWithdrawPendingAmount, p.bondWithdrawRequestedAt, p.bondWithdrawDelaySnapshot⟩

/-- The note of a user; that of a new participant if it is none yet. -/
def exitOf (d : Deployment) (user : Pubkey) : Exit := ((d.participants.lookup user).map Exit.of).getD (.of .new)

/-- When what is pending can be paid. -/
def Exit.unlock (x : Exit) : Int := x.requestedAt + x.delay

section Notes
variable {P : Platform} {ix : TreasurerInstruction} {d d' : Deployment} {clock : Clock} {fx : List TreasurerEffect}

/-- What an instruction does to the note of a user. -/
inductive ExitStep (user : Pubkey) (clock : Clock) (delay : Int) : TreasurerInstruction → Exit → Exit → Prop where
  | request {amount x} :
    amount ≠ 0 →
    ExitStep user clock delay (.participantBondRequestWithdraw user amount) x
      ⟨x.pending + amount, clock.unixTimestamp, delay⟩
  | finalize {userCollateral appeal remaining x} :
    x.unlock ≤ clock.unixTimestamp →
    ExitStep user clock delay (.participantBondFinalizeWithdraw user userCollateral appeal remaining) x ⟨0, 0, x.delay⟩
  | other {ix x} :
    (∀ amount, ix ≠ .participantBondRequestWithdraw user amount) →
    (∀ userCollateral appeal remaining, ix ≠ .participantBondFinalizeWithdraw user userCollateral appeal remaining) →
    ExitStep user clock delay ix x x

lemma process_exit (h : d.process P clock ix = .ok (d', fx)) (user : Pubkey) :
    ExitStep user clock d.run.bondWithdrawDelaySeconds ix (d.exitOf user) (d'.exitOf user) := by
  have hp := (process_spec h).participant user
  unfold exitOf
  generalize d.participants.lookup user = o at hp
  generalize d'.participants.lookup user = o' at hp
  cases hp with
  | create | deposit _ | claim => exact .other (by simp) (by simp)
  | request hne => exact .request hne
  | finalize hunlock _ _ => exact .finalize hunlock
  | other hix =>
    refine .other ?_ ?_
    · rintro amount rfl
      exact hix rfl
    · rintro userCollateral appeal remaining rfl
      exact hix rfl

end Notes

section Requests
variable {P : Platform} {ix : TreasurerInstruction} {d d' : Deployment} {clock : Clock} {fx : List TreasurerEffect}
  {tr : Record} {user : Pubkey}

/-- A request for a withdrawal, with the moment it was made at and the delay that was configured then. -/
structure Request where
  amount : Nat
  requestedAt : Int
  delay : Int
deriving DecidableEq, Repr

/-- What a user waits for after one more instruction. -/
def waitsFor (user : Pubkey) (ev : Event Deployment (Clock × TreasurerInstruction) (List TreasurerEffect))
    (rs : List Request) : List Request :=
  match ev.input.2 with
  | .participantBondRequestWithdraw other amount =>
    if other = user then ⟨amount, ev.input.1.unixTimestamp, ev.before.run.bondWithdrawDelaySeconds⟩ :: rs else rs
  | .participantBondFinalizeWithdraw other _ _ _ => if other = user then [] else rs
  | _ => rs

/-- What a user has asked for since its last withdrawal, newest first. -/
def requests (user : Pubkey) (tr : Record) : List Request := tr.foldr (waitsFor user) []

variable {rs : List Request}

lemma waitsFor_other (hr : ∀ amount, ix ≠ .participantBondRequestWithdraw user amount)
    (hf : ∀ userCollateral appeal remaining,
      ix ≠ .participantBondFinalizeWithdraw user userCollateral appeal remaining) :
    waitsFor user ⟨d, (clock, ix), fx, d'⟩ rs = rs := by
  cases ix with
  | participantBondRequestWithdraw other amount =>
    refine if_neg ?_
    rintro rfl
    exact hr amount rfl
  | participantBondFinalizeWithdraw other userCollateral appeal remaining =>
    refine if_neg ?_
    rintro rfl
    exact hf userCollateral appeal remaining rfl
  | _ => rfl

/-- The note of a user covers what it has asked for. -/
structure Covers (x : Exit) (rs : List Request) : Prop where
  positive : ∀ r ∈ rs, r.amount ≠ 0
  pending : x.pending = (rs.map Request.amount).sum
  unlock : ∀ r ∈ rs, r.requestedAt + r.delay ≤ x.unlock

lemma Covers.pending_ne_zero {x : Exit} {r : Request} (h : Covers x rs) (hr : r ∈ rs) : x.pending ≠ 0 := by
  have hle := le_sum_of_mem (mem_map_of_mem (f := Request.amount) hr)
  have hne := h.positive r hr
  rw [h.pending]
  omega

/-- A request does not bring forward when what is pending can be paid: its note is no earlier than the one it overwrites. -/
def KeepsWindow (clock : Clock) (ix : TreasurerInstruction) (d : Deployment) : Prop :=
  match ix with
  | .participantBondRequestWithdraw user _ => (d.exitOf user).pending ≠ 0 →
    (d.exitOf user).unlock ≤ clock.unixTimestamp + d.run.bondWithdrawDelaySeconds
  | _ => True

instance (clock : Clock) (ix : TreasurerInstruction) (d : Deployment) : Decidable (KeepsWindow clock ix d) := by
  unfold KeepsWindow
  split <;> infer_instance

/-- A step that keeps the window keeps the note of what was asked for. -/
lemma Covers.step (h : Covers (d.exitOf user) rs) (hk : KeepsWindow clock ix d)
    (st : d.process P clock ix = .ok (d', fx)) :
    Covers (d'.exitOf user) (waitsFor user ⟨d, (clock, ix), fx, d'⟩ rs) := by
  have hx := process_exit st user
  generalize d'.exitOf user = y at hx
  generalize hz : d.exitOf user = x at h hx
  cases hx with
  | @request amount _ hne =>
    simp only [waitsFor, if_true]
    refine ⟨?_, ?_, ?_⟩
    · exact forall_mem_cons.mpr ⟨hne, h.positive⟩
    · rw [map_cons, sum_cons, h.pending, Nat.add_comm]
    · refine forall_mem_cons.mpr ⟨le_refl _, fun r hr => ?_⟩
      have hle := hk (hz ▸ h.pending_ne_zero hr)
      rw [hz] at hle
      exact (h.unlock r hr).trans hle
  | finalize _ =>
    simp only [waitsFor, if_true]
    exact ⟨by simp, rfl, by simp⟩
  | other hr hf =>
    rw [waitsFor_other hr hf]
    exact h

lemma covers_of_run (r : (machine P).Run tr d) (hk : ∀ ev ∈ tr, KeepsWindow ev.input.1 ev.input.2 ev.before) (user : Pubkey) :
    Covers (d.exitOf user) (requests user tr) := by
  induction r with
  | init h =>
    obtain ⟨_, _, _, _, _, rfl⟩ := h
    exact ⟨by simp [requests], rfl, by simp [requests]⟩
  | accept _ st ih =>
    have h := ih fun ev hev => hk ev (mem_cons_of_mem _ hev)
    exact h.step (hk _ mem_cons_self) st
  | reject _ _ ih => exact ih hk

lemma withdrawn_le_pending {userCollateral : TokenAccount} {appeal : Option Pubkey} {remaining : List RemainingAccount}
    (h : d.participantBondFinalizeWithdraw clock user userCollateral appeal remaining = .ok (d', fx)) :
    ∀ amount, TreasurerEffect.withdrawn user amount ∈ fx → amount ≤ (d.exitOf user).pending := by
  obtain ⟨p, forfeited, payout, shares, balance, hfin, _, _, rfl⟩ := participantBondFinalizeWithdraw_inv h
  intro amount ha
  rw [exitOf, hfin.participant]
  obtain ⟨x, _, he⟩ | he := mem_finalizedEffects ha
  · cases he
  · cases he
    exact hfin.pays.trans_le (Nat.min_le_left _ _)

/-- In every run whose requests keep the window, whatever a withdrawal pays out had been asked for since the withdrawal
before, and every request it settles has waited for its own delay from its own time on. -/
theorem exit_window_kept (r : (machine P).Run tr d) (hk : ∀ ev ∈ tr, KeepsWindow ev.input.1 ev.input.2 ev.before) :
    ∀ newer ev older, tr = newer ++ ev :: older → ∀ user userCollateral appeal remaining,
      ev.input.2 = .participantBondFinalizeWithdraw user userCollateral appeal remaining →
      (∀ amount, .withdrawn user amount ∈ ev.output → amount ≤ ((requests user older).map Request.amount).sum)
      ∧ ∀ request ∈ requests user older, request.requestedAt + request.delay ≤ ev.input.1.unixTimestamp := by
  rintro newer ⟨before, ⟨clock, ix⟩, fx, after⟩ older rfl user userCollateral appeal remaining hix
  dsimp only at hix
  subst hix
  obtain ⟨r', st⟩ := r.split
  have st : before.process P clock (.participantBondFinalizeWithdraw user userCollateral appeal remaining)
      = .ok (after, fx) := st
  have hcov := covers_of_run r' (fun ev hev => hk ev (mem_append_right _ (mem_cons_of_mem _ hev))) user
  refine ⟨fun amount ha => ?_, fun request hr => ?_⟩
  · rw [← hcov.pending]
    exact withdrawn_le_pending st amount ha
  · have hunlock : (before.exitOf user).unlock ≤ clock.unixTimestamp := by
      have hx := process_exit st user
      generalize after.exitOf user = y at hx
      cases hx with
      | finalize hunlock => exact hunlock
      | other _ hf => exact absurd rfl (hf userCollateral appeal remaining)
    exact (hcov.unlock request hr).trans hunlock

/-- A participant asks for 40 of its 50 and then, while the delay is longer, for 5 more. -/
def patient : List (Clock × TreasurerInstruction) :=
  [(⟨0, 0⟩, .runBondConfigUpdate authority 10 100), (⟨1, 1⟩, .participantCreate 1),
    (⟨1, 1⟩, .participantBondDeposit 1 (wallet 1) 50), (⟨2, 1⟩, .participantBondRequestWithdraw 1 40),
    (⟨3, 1⟩, .runBondConfigUpdate authority 10 200), (⟨4, 1⟩, .participantBondRequestWithdraw 1 5),
    (⟨204, 1⟩, .participantBondFinalizeWithdraw 1 (wallet 1) none [])]

lemma zero_lt_patient : 0 < (runOf patient).1.length := by decide +kernel

/-- The 45 are paid out when the delays of both requests are over. -/
theorem exit_window_kept_patient : ∃ newer ev older,
    (runOf patient).1 = newer ++ ev :: older ∧ ev.output = [.withdrawn 1 45]
    ∧ requests 1 older = [⟨5, 4, 200⟩, ⟨40, 2, 100⟩]
    ∧ ∀ request ∈ requests 1 older, request.requestedAt + request.delay ≤ 204 := by
  have htr := Machine.eq_take_append_get (runOf patient).1 ⟨0, zero_lt_patient⟩
  have hk : ∀ ev ∈ (runOf patient).1, KeepsWindow ev.input.1 ev.input.2 ev.before := by decide +kernel
  exact ⟨_, _, _, htr, by decide +kernel, by decide +kernel,
    (exit_window_kept (runOf_run patient) hk _ _ _ htr 1 (wallet 1) none [] rfl).2⟩

/-- The participant asks for 1 more after the delay has been lowered. -/
def impatient : List (Clock × TreasurerInstruction) :=
  [(⟨0, 0⟩, .runBondConfigUpdate authority 10 100), (⟨1, 1⟩, .participantCreate 1),
    (⟨1, 1⟩, .participantBondDeposit 1 (wallet 1) 50), (⟨2, 1⟩, .participantBondRequestWithdraw 1 40),
    (⟨3, 1⟩, .runBondConfigUpdate authority 10 1), (⟨4, 1⟩, .participantBondRequestWithdraw 1 1),
    (⟨5, 1⟩, .participantBondFinalizeWithdraw 1 (wallet 1) none [])]

lemma zero_lt_impatient : 0 < (runOf impatient).1.length := by decide +kernel

/-- All 41 are paid at 5, of which 40 had been asked for at 2 under a delay of 100. -/
theorem exit_window_shortened : ∃ newer ev older,
    (machine .zero).Run (newer ++ ev :: older) (runOf impatient).2
    ∧ ev.input.1.unixTimestamp = 5 ∧ ev.output = [.withdrawn 1 41]
    ∧ requests 1 older = [⟨1, 4, 1⟩, ⟨40, 2, 100⟩] := by
  have htr := Machine.eq_take_append_get (runOf impatient).1 ⟨0, zero_lt_impatient⟩
  have r := runOf_run impatient
  rw [htr] at r
  exact ⟨_, _, _, r, by decide +kernel, by decide +kernel, by decide +kernel⟩

end Requests
end Leviathan.Deployment
