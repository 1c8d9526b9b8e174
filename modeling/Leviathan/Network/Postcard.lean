import Leviathan.Lib.Codec
import Leviathan.Network.Payload

/-!
# The format of postcard

postcard, which is not part of the repository, writes a value of `serde` as follows: the fields of a record one after the
other, a number of more than one byte in groups of seven bits, a signed one after its signs have been interleaved, a
list behind its length, and a variant behind its number. These are the codecs of the types that a trainer transmits, up to
the one of `SerializedDistroResult`. Kinds write themselves as a byte (`shared/network/src/serializable_kind.rs`).
-/

namespace Leviathan

/-- Why bytes are not the ones of a value (Rust `postcard::Error`), as far as it concerns these types. -/
inductive PostcardError where
  | deserializeUnexpectedEnd
  | deserializeBadVarint
  | deserializeBadBool
  | serdeDeCustom
deriving DecidableEq, Repr

namespace Postcard

/-- The bytes of values of a type. -/
abbrev Wire := Codec PostcardError.deserializeUnexpectedEnd (BitVec 8)

def u16 : Wire (BitVec 16) := .varint .deserializeBadVarint 16 2 (by decide)

def u32 : Wire (BitVec 32) := .varint .deserializeBadVarint 32 4 (by decide)

def u64 : Wire (BitVec 64) := .varint .deserializeBadVarint 64 9 (by decide)

def usize : Wire (Fin (2 ^ 64)) := u64.map BitVec.ofFin (fun n => .ok n.toFin) fun _ => rfl

/-- A vector behind its length. -/
def vec {α : Type} (c : Wire α) : Wire (Vec α) :=
  (usize.counted c).map (fun v => ⟨v.toList, v.bound⟩) (fun l => .ok ⟨l.1, l.2⟩) fun _ => rfl

/-- The numbers with their signs interleaved: `0`, `-1`, `1`, `-2` and so on. -/
def zigzag (x : BitVec 64) : BitVec 64 :=
  if x.toNat < 2 ^ 63 then BitVec.ofNat 64 (2 * x.toNat) else BitVec.ofNat 64 (2 * (2 ^ 64 - x.toNat) - 1)

def unzigzag (u : BitVec 64) : BitVec 64 :=
  if u.toNat % 2 = 0 then BitVec.ofNat 64 (u.toNat / 2) else BitVec.ofNat 64 (2 ^ 64 - (u.toNat + 1) / 2)

lemma unzigzag_zigzag (x : BitVec 64) : unzigzag (zigzag x) = x := by
  have hx := x.isLt
  apply BitVec.eq_of_toNat_eq
  unfold zigzag
  split <;> unfold unzigzag <;> split <;> simp only [BitVec.toNat_ofNat] at * <;> omega

def i64 : Wire (BitVec 64) := u64.map zigzag (fun u => .ok (unzigzag u)) fun x => by rw [unzigzag_zigzag]

def bool : Wire Bool :=
  Codec.symbol.map (fun b => if b then 1 else 0)
    (fun x => if x = 0 then .ok false else if x = 1 then .ok true else .error .deserializeBadBool) (by decide)

def kind : Wire Kind :=
  Codec.symbol.map kindToU8
    (fun v => (u8ToKind v).elim (.error .serdeDeCustom) .ok) fun k => by rw [u8ToKind_kindToU8]; rfl

def tensorData : Wire SerializableTensorData :=
  (u32.prod (vec .symbol)).map
    (fun
      | .full bytes => (0, bytes)
      | .oneBit bytes => (1, bytes))
    (fun x =>
      if x.1 = 0 then .ok (.full x.2) else if x.1 = 1 then .ok (.oneBit x.2) else .error .serdeDeCustom)
    fun data => by cases data <;> rfl

def tensor : Wire SerializableTensor :=
  ((vec i64).prod (kind.prod (bool.prod tensorData))).map (fun t => (t.dims, t.kind, t.requiresGrad, t.data))
    (fun x => .ok ⟨x.1, x.2.1, x.2.2.1, x.2.2.2⟩) fun _ => rfl

def distroResult : Wire SerializedDistroResult :=
  (tensor.prod (tensor.prod ((vec u16).prod u32))).map (fun r => (r.sparseIdx, r.sparseVal, r.xshape, r.totalk))
    (fun x => .ok ⟨x.1, x.2.1, x.2.2.1, x.2.2.2⟩) fun _ => rfl

end Postcard
end Leviathan
