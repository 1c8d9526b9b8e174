import Leviathan.Coordinator.State
import Leviathan.Lib.Encoding

/-!
# What a trainer transmits

Model of the types of `shared/network/src/serialized_distro.rs`, `serializable_tensor.rs` and `serializable_kind.rs`,
and of the hash a trainer commits to (Rust `comptue_hash`). `hashInput` are the bytes that are fed to the hash function.

Integers are bit vectors of their width here, signed or not, since the bytes of all of them go into the hash. A Rust
`Vec` has a length below 2⁶⁴, which is a field of `Vec`. The interval of a batch that comes from a peer need not be one:
`RawBatchId` are the two numbers, in any order.
-/

namespace Leviathan

/-- A growable list; its length is a `usize`. -/
structure Vec (α : Type) where
  toList : List α
  bound : toList.length < 2 ^ 64
deriving DecidableEq

/-- A list without elements. -/
def Vec.new {α : Type} : Vec α := ⟨[], Nat.two_pow_pos 64⟩

/-- The type of the elements of a tensor. -/
inductive Kind where
  | uint8 | int8 | int16 | int | int64 | half | float | double
  | complexHalf | complexFloat | complexDouble | bool
  | qInt8 | qUInt8 | qInt32 | bFloat16 | qUInt4x2 | qUInt2x4
  | bits1x8 | bits2x4 | bits4x2 | bits8 | bits16
  | float8e5m2 | float8e4m3fn | float8e5m2fnuz | float8e4m3fnuz
  | uInt16 | uInt32 | uInt64 | uInt1 | uInt2 | uInt3 | uInt4 | uInt5 | uInt6 | uInt7
deriving DecidableEq, Repr

def kindToU8 : Kind → BitVec 8
  | .uint8 => 0
  | .int8 => 1
  | .int16 => 2
  | .int => 3
  | .int64 => 4
  | .half => 5
  | .float => 6
  | .double => 7
  | .complexHalf => 8
  | .complexFloat => 9
  | .complexDouble => 10
  | .bool => 11
  | .qInt8 => 12
  | .qUInt8 => 13
  | .qInt32 => 14
  | .bFloat16 => 15
  | .qUInt4x2 => 16
  | .qUInt2x4 => 17
  | .bits1x8 => 18
  | .bits2x4 => 19
  | .bits4x2 => 20
  | .bits8 => 21
  | .bits16 => 22
  | .float8e5m2 => 23
  | .float8e4m3fn => 24
  | .float8e5m2fnuz => 25
  | .float8e4m3fnuz => 26
  | .uInt16 => 27
  | .uInt32 => 28
  | .uInt64 => 29
  | .uInt1 => 30
  | .uInt2 => 31
  | .uInt3 => 32
  | .uInt4 => 33
  | .uInt5 => 34
  | .uInt6 => 35
  | .uInt7 => 36

def u8ToKind (v : BitVec 8) : Option Kind :=
  [.uint8, .int8, .int16, .int, .int64, .half, .float, .double, .complexHalf, .complexFloat, .complexDouble, .bool,
    .qInt8, .qUInt8, .qInt32, .bFloat16, .qUInt4x2, .qUInt2x4, .bits1x8, .bits2x4, .bits4x2, .bits8, .bits16,
    .float8e5m2, .float8e4m3fn, .float8e5m2fnuz, .float8e4m3fnuz, .uInt16, .uInt32, .uInt64, .uInt1, .uInt2, .uInt3,
    .uInt4, .uInt5, .uInt6, .uInt7][v.toNat]?

lemma u8ToKind_kindToU8 (k : Kind) : u8ToKind (kindToU8 k) = some k := by
  cases k <;> rfl

lemma kindToU8_injective : Function.Injective kindToU8 := by
  intro k k' h
  have hk := u8ToKind_kindToU8 k
  rw [h, u8ToKind_kindToU8] at hk
  exact (Option.some.inj hk).symm

/-- The elements of a tensor as bytes, or as bits packed into bytes. -/
inductive SerializableTensorData where
  | full (bytes : Vec (BitVec 8))
  | oneBit (bytes : Vec (BitVec 8))
deriving DecidableEq

/-- A tensor under way. -/
structure SerializableTensor where
  dims : Vec (BitVec 64)
  kind : Kind
  requiresGrad : Bool
  data : SerializableTensorData
deriving DecidableEq

/-- The contribution to one variable of the model. -/
structure SerializedDistroResult where
  sparseIdx : SerializableTensor
  sparseVal : SerializableTensor
  xshape : Vec (BitVec 16)
  totalk : BitVec 32
deriving DecidableEq

/-- The name of a batch as it is transmitted (Rust `BatchId`). -/
structure RawBatchId where
  start : BitVec 64
  end_ : BitVec 64
deriving DecidableEq

/-- The payload of a trainer. -/
structure TransmittableDistroResult where
  step : BitVec 32
  trainerNonce : BitVec 32
  batchId : RawBatchId
  distroResults : Vec SerializedDistroResult
deriving DecidableEq

/-- Where a payload can be downloaded, as far as it is looked at. -/
structure BlobTicket where
  hash : Bytes32
deriving DecidableEq, Repr

/-- The bytes of a number of `w` bytes, most significant first. -/
def toBeBytes {w : Nat} (x : BitVec (8 * w)) : Bytes := (leBytes w x.toNat).reverse

/-- The elements of a vector behind their number. -/
def Vec.hashInput {α : Type} (enc : α → Bytes) (v : Vec α) : Bytes :=
  toBeBytes (w := 8) (BitVec.ofNat 64 v.toList.length) ++ v.toList.flatMap enc

/-- The data of a tensor behind the tag of their encoding (in Rust `hash_into`). -/
def SerializableTensorData.hashInput : SerializableTensorData → Bytes
  | .full bytes => [0] ++ bytes.hashInput fun byte => [byte]
  | .oneBit bytes => [1] ++ bytes.hashInput fun byte => [byte]

/-- The bytes of a tensor: its shape, its kind, whether it has a gradient, and its data (Rust `hash_into`). -/
def SerializableTensor.hashInput (t : SerializableTensor) : Bytes :=
  t.dims.hashInput (toBeBytes (w := 8))
  ++ [kindToU8 t.kind]
  ++ [if t.requiresGrad then 1 else 0]
  ++ t.data.hashInput

/-- The bytes of the contribution to a variable (in Rust `comptue_hash`). -/
def SerializedDistroResult.hashInput (r : SerializedDistroResult) : Bytes :=
  r.sparseIdx.hashInput
  ++ r.sparseVal.hashInput
  ++ r.xshape.hashInput (toBeBytes (w := 2))
  ++ toBeBytes (w := 4) r.totalk

namespace TransmittableDistroResult

/-- The bytes a trainer commits to (in Rust `comptue_hash`). -/
def hashInput (p : TransmittableDistroResult) : Bytes :=
  toBeBytes (w := 4) p.step
  ++ toBeBytes (w := 4) p.trainerNonce
  ++ toBeBytes (w := 8) p.batchId.start
  ++ toBeBytes (w := 8) p.batchId.end_
  ++ p.distroResults.hashInput SerializedDistroResult.hashInput

def comptueHash (P : Platform) (p : TransmittableDistroResult) : Bytes32 := P.sha256 p.hashInput

end TransmittableDistroResult

end Leviathan
