import Leviathan.Network.Payload

/-!
# The commitment binds the result

The bytes that a trainer commits to determine its payload. Whatever has a variable length stands behind its length, so
the encoding of each part is prefix-free (`Vec.hashInput_prefixFree`, `SerializableTensor.hashInput_prefixFree`,
`SerializedDistroResult.hashInput_prefixFree`), and the parts can be read back one after the other.
-/

namespace Leviathan
open List

section Numbers

lemma toBeBytes_prefixFree (w : Nat) : PrefixFree (toBeBytes (w := w)) := by
  refine .of_length (n := w) (fun x => ?_) fun x y h => leBytes_toNat_inj (reverse_injective h)
  rw [toBeBytes, length_reverse, length_leBytes]

lemma Vec.hashInput_prefixFree {α : Type} {enc : α → Bytes} (h : PrefixFree enc) : PrefixFree (Vec.hashInput enc) := by
  have hcount : PrefixFree fun n : Fin (2 ^ 64) => toBeBytes (w := 8) (BitVec.ofNat 64 n.1) := by
    refine (toBeBytes_prefixFree 8).comp fun m n e => Fin.ext ?_
    simpa [Nat.mod_eq_of_lt m.2, Nat.mod_eq_of_lt n.2] using congrArg BitVec.toNat e
  refine (hcount.counted h).comp (f := fun v : Vec α => ⟨v.toList, v.bound⟩) fun v v' e => ?_
  cases v
  cases v'
  cases e
  rfl

lemma singleton_prefixFree {α : Type} {f : α → BitVec 8} (h : Function.Injective f) : PrefixFree fun a => [f a] :=
  .of_length (n := 1) (fun _ => rfl) fun _ _ e => h (singleton_inj.mp e)

end Numbers

lemma SerializableTensorData.hashInput_prefixFree : PrefixFree SerializableTensorData.hashInput := by
  have hbytes : PrefixFree (Vec.hashInput fun byte : BitVec 8 => [byte]) :=
    Vec.hashInput_prefixFree (singleton_prefixFree Function.injective_id)
  intro a b r s e
  cases a with
  | full bytes =>
    cases b with
    | full bytes' =>
      obtain ⟨rfl, hr⟩ := hbytes _ _ _ _ (List.cons.inj e).2
      exact ⟨rfl, hr⟩
    | oneBit bytes' => cases (List.cons.inj e).1
  | oneBit bytes =>
    cases b with
    | full bytes' => cases (List.cons.inj e).1
    | oneBit bytes' =>
      obtain ⟨rfl, hr⟩ := hbytes _ _ _ _ (List.cons.inj e).2
      exact ⟨rfl, hr⟩

lemma SerializableTensor.hashInput_prefixFree : PrefixFree SerializableTensor.hashInput := by
  have hdims : PrefixFree (Vec.hashInput (toBeBytes (w := 8))) := Vec.hashInput_prefixFree (toBeBytes_prefixFree 8)
  have hkind : PrefixFree fun k => [kindToU8 k] := singleton_prefixFree kindToU8_injective
  have hgrad : PrefixFree fun b : Bool => [(if b then 1 else 0 : BitVec 8)] :=
    singleton_prefixFree fun b b' => by cases b <;> cases b' <;> decide
  refine ((hdims.prod hkind).prod hgrad).append SerializableTensorData.hashInput_prefixFree
    (f := fun t : SerializableTensor => ((t.dims, t.kind), t.requiresGrad)) (g := SerializableTensor.data) ?_
  rintro ⟨_, _, _, _⟩ ⟨_, _, _, _⟩ hf hg
  cases hf
  cases hg
  rfl

lemma SerializedDistroResult.hashInput_prefixFree : PrefixFree SerializedDistroResult.hashInput := by
  have htensor := SerializableTensor.hashInput_prefixFree
  have hshape : PrefixFree (Vec.hashInput (toBeBytes (w := 2))) := Vec.hashInput_prefixFree (toBeBytes_prefixFree 2)
  refine ((htensor.prod htensor).prod hshape).append (toBeBytes_prefixFree 4)
    (f := fun r : SerializedDistroResult => ((r.sparseIdx, r.sparseVal), r.xshape)) (g := SerializedDistroResult.totalk) ?_
  rintro ⟨_, _, _, _⟩ ⟨_, _, _, _⟩ hf hg
  cases hf
  cases hg
  rfl

namespace TransmittableDistroResult
variable {p p' : TransmittableDistroResult}

lemma hashInput_prefixFree : PrefixFree hashInput := by
  have h4 := toBeBytes_prefixFree 4
  have h8 := toBeBytes_prefixFree 8
  have hresults := Vec.hashInput_prefixFree SerializedDistroResult.hashInput_prefixFree
  refine (((h4.prod h4).prod h8).prod h8).append hresults (f := fun p : TransmittableDistroResult =>
    (((p.step, p.trainerNonce), p.batchId.start), p.batchId.end_)) (g := distroResults) ?_
  rintro ⟨_, _, ⟨_, _⟩, _⟩ ⟨_, _, ⟨_, _⟩, _⟩ hf hg
  cases hf
  cases hg
  rfl

lemma hashInput_inj : p.hashInput = p'.hashInput ↔ p = p' :=
  hashInput_prefixFree.injective.eq_iff

/-- A hash function that tells the bytes of two payloads apart tells the payloads apart. -/
lemma comptueHash_inj {P : Platform} (hfree : P.sha256 p.hashInput = P.sha256 p'.hashInput → p.hashInput = p'.hashInput)
    (h : p.comptueHash P = p'.comptueHash P) : p = p' :=
  hashInput_inj.mp (hfree h)

/-- The hash is the one of the bytes, the bytes determine the payload, and so does the hash, if the hash function tells the
bytes of the two payloads apart. -/
theorem commitment_binds (p p' : TransmittableDistroResult) :
    (p.hashInput = p'.hashInput ↔ p = p')
      ∧ ∀ P : Platform, p.comptueHash P = P.sha256 p.hashInput
        ∧ ((P.sha256 p.hashInput = P.sha256 p'.hashInput → p.hashInput = p'.hashInput) →
          p.comptueHash P = p'.comptueHash P → p = p') :=
  ⟨hashInput_inj, fun _ => ⟨rfl, comptueHash_inj⟩⟩

end TransmittableDistroResult
end Leviathan
