import Dquic.Frame.Wire
import Dquic.Packet.Type

/-!
# Packet headers

Types and headers of packets as they are read from a datagram, of `qbase/src/packet/type.rs` and
`qbase/src/packet/header.rs`.
-/

namespace Dquic

open Lib Nom

/-- `error::Error` as far as parsing gives it, with the number of bytes in place of the text that names it. -/
inductive PacketError
  | unsupportedVersion (version : Nat)
  | invalidFixedBit
  | incompleteType (needed : Nat)
  | incompleteHeader (ty : PacketType) (needed : Nat)
  | underSampling (ty : PacketType) (len : Nat)
  deriving DecidableEq, Repr

def V1Type.ofByte (value : Nat) : Except PacketError V1Type :=
  if value &&& 0x40 = 0 then .error .invalidFixedBit
  else if value &&& 0x30 = 0x00 then .ok .initial
  else if value &&& 0x30 = 0x10 then .ok .zeroRtt
  else if value &&& 0x30 = 0x20 then .ok .handshake
  else .ok .retry -- two bits have no other value than 0x30

def parseLongType (ty : Nat) : Nom PacketError LongType := do
  let version ← beUint 4
  match version with
  | 0 => pure .versionNegotiation
  | 1 =>
    match V1Type.ofByte ty with
    | .ok ty => pure (.v1 ty)
    | .error e => Nom.fail e
  | v => Nom.fail (.unsupportedVersion v)

def bePacketType : Nom PacketError PacketType := do
  let ty ← beUint 1
  if ty &&& 0x80 = 0 then pure (.short (ty &&& 0x20 != 0))
  else do
    let ty ← parseLongType ty
    pure (.long ty)

/-! ### Headers -/

structure LongHeader (α : Type) where
  dcid : ConnectionId
  scid : ConnectionId
  specific : α
  deriving DecidableEq, Repr

structure VersionNegotiation where
  versions : List Nat
  deriving DecidableEq, Repr

structure Retry where
  token : Bytes
  integrity : { b : Bytes // b.length = 16 }
  deriving DecidableEq, Repr

structure Initial where
  token : Bytes
  deriving DecidableEq, Repr

structure ZeroRtt where
  deriving DecidableEq, Repr

structure Handshake where
  deriving DecidableEq, Repr

structure OneRttHeader where
  spin : Bool
  dcid : ConnectionId
  deriving DecidableEq, Repr

inductive Header
  | vn (h : LongHeader VersionNegotiation)
  | retry (h : LongHeader Retry)
  | initial (h : LongHeader Initial)
  | zeroRtt (h : LongHeader ZeroRtt)
  | handshake (h : LongHeader Handshake)
  | oneRtt (h : OneRttHeader)
  deriving DecidableEq, Repr

/-- `long::DataHeader`, the long packets that carry data. -/
inductive LongDataHeader
  | initial (h : LongHeader Initial)
  | zeroRtt (h : LongHeader ZeroRtt)
  | handshake (h : LongHeader Handshake)
  deriving DecidableEq, Repr

inductive DataHeader
  | long (h : LongDataHeader)
  | short (h : OneRttHeader)
  deriving DecidableEq, Repr

/-- `many_till(be_u32, eof)`. -/
def beVersions : Bytes → Except (NomErr NomErrorKind) (List Nat × Bytes)
  | [] => .ok ([], [])
  | a :: b :: c :: d :: rest => do
    let (versions, rest) ← beVersions rest
    .ok (ofBE [a, b, c, d] :: versions, rest)
  | input => .error (.incomplete (4 - input.length))

def beVersionNegotiation : FieldParser VersionNegotiation := do
  let versions ← beVersions
  pure ⟨versions⟩

/-- The last sixteen bytes are the integrity tag, and all the others the token. -/
def beRetry : FieldParser Retry := fun input =>
  if h : input.length < 16 then .error (.incomplete 16)
  else .ok (⟨input.take (input.length - 16), input.drop (input.length - 16), by rw [List.length_drop]; omega⟩, [])

/-- `length_data(be_varint)`. -/
def lengthData : FieldParser Bytes := do
  let len ← beVarint
  take len.val

lemma parses_lengthData {head bytes : Bytes} {len : VarInt} (hlen : len.val = bytes.length)
    (h : ∀ rest, Parses (beVarint : FieldParser VarInt) head rest len) (rest : Bytes) :
    Parses lengthData (head ++ bytes) rest bytes := by
  apply (h (bytes ++ rest)).bind
  rw [hlen]
  exact parses_take bytes rest

def beInitial : FieldParser Initial := do
  let token ← lengthData
  pure ⟨token⟩

def beZeroRtt : FieldParser ZeroRtt := pure ⟨⟩

def beHandshake : FieldParser Handshake := pure ⟨⟩

/-- `LongHeaderBuilder::parse`. -/
def beLongHeader (dcid scid : ConnectionId) : LongType → FieldParser Header
  | .versionNegotiation => do
    let vn ← beVersionNegotiation
    pure (.vn ⟨dcid, scid, vn⟩)
  | .v1 .retry => do
    let retry ← beRetry
    pure (.retry ⟨dcid, scid, retry⟩)
  | .v1 .initial => do
    let initial ← beInitial
    pure (.initial ⟨dcid, scid, initial⟩)
  | .v1 .zeroRtt => do
    let zeroRtt ← beZeroRtt
    pure (.zeroRtt ⟨dcid, scid, zeroRtt⟩)
  | .v1 .handshake => do
    let handshake ← beHandshake
    pure (.handshake ⟨dcid, scid, handshake⟩)

def beOneRttHeader (spin : Bool) (dcidLen : Nat) : FieldParser OneRttHeader := do
  let dcid ← take dcidLen
  -- `from_slice` asserts the length, and an error ends in a panic as well
  if maxCidSize < dcid.length then Nom.fail .tooLarge else pure ⟨spin, .fromSlice dcid⟩

def beHeader (ty : PacketType) (dcidLen : Nat) : FieldParser Header :=
  match ty with
  | .long ty => do
    let dcid ← beConnectionId
    let scid ← beConnectionId
    beLongHeader dcid scid ty
  | .short spin => do
    let oneRtt ← beOneRttHeader spin dcidLen
    pure (.oneRtt oneRtt)

/-! ### Writing headers -/

def V1Type.toByte : V1Type → UInt8
  | initial => 0x00
  | zeroRtt => 0x10
  | handshake => 0x20
  | retry => 0x30

def putPacketType : PacketType → Bytes
  | .long .versionNegotiation => 0x80 :: toBE 4 0
  | .long (.v1 ty) => (0x80 ||| 0x40 ||| ty.toByte) :: toBE 4 1
  | .short spin => [if spin then 0x40 ||| 0x20 else 0x40]

namespace DataHeader

/-- `get_type`. -/
def packetType : DataHeader → PacketType
  | long (.initial _) => .long (.v1 .initial)
  | long (.zeroRtt _) => .long (.v1 .zeroRtt)
  | long (.handshake _) => .long (.v1 .handshake)
  | short h => .short h.spin

def isLong : DataHeader → Bool
  | long _ => true
  | short _ => false

end DataHeader

def LongHeader.size {α : Type} (h : LongHeader α) (specific : Nat) : Nat :=
  1 + 4 + 1 + h.dcid.bytes.length + 1 + h.scid.bytes.length + specific

def LongHeader.put {α : Type} (h : LongHeader α) (ty : V1Type) (specific : Bytes) : Bytes :=
  putPacketType (.long (.v1 ty)) ++ (putConnectionId h.dcid ++ (putConnectionId h.scid ++ specific))

namespace DataHeader

/-- The length of a token must fit a `VarInt`. -/
def size : DataHeader → Option Nat
  | long (.initial h) => do
    let len ← VarInt.fromU64 h.specific.token.length
    some (h.size (len.encodingSize + h.specific.token.length))
  | long (.zeroRtt h) => some (h.size 0)
  | long (.handshake h) => some (h.size 0)
  | short h => some (1 + h.dcid.bytes.length)

def put : DataHeader → Option Bytes
  | long (.initial h) => do
    let len ← VarInt.fromU64 h.specific.token.length
    some (h.put .initial (putVarint len ++ h.specific.token))
  | long (.zeroRtt h) => some (h.put .zeroRtt [])
  | long (.handshake h) => some (h.put .handshake [])
  | short h => some (putPacketType (.short h.spin) ++ h.dcid.bytes)

/-- Where the packet number starts: behind the header, and two bytes for the length of a long packet. -/
def pnOffset (h : DataHeader) : Option Nat := do
  let size ← h.size
  some (size + if h.isLong then 2 else 0)

end DataHeader

namespace Header

/-- `get_type`. -/
def packetType : Header → PacketType
  | vn _ => .long .versionNegotiation
  | retry _ => .long (.v1 .retry)
  | initial _ => .long (.v1 .initial)
  | zeroRtt _ => .long (.v1 .zeroRtt)
  | handshake _ => .long (.v1 .handshake)
  | oneRtt h => .short h.spin

def put : Header → Option Bytes
  | vn h =>
    some (putPacketType (.long .versionNegotiation) ++
      (putConnectionId h.dcid ++ (putConnectionId h.scid ++ h.specific.versions.flatMap (toBE 4))))
  | retry h => some (h.put .retry (h.specific.token ++ h.specific.integrity.val))
  | initial h => DataHeader.put (.long (.initial h))
  | zeroRtt h => DataHeader.put (.long (.zeroRtt h))
  | handshake h => DataHeader.put (.long (.handshake h))
  | oneRtt h => DataHeader.put (.short h)

end Header

lemma or_and_and {m : UInt8} {k : Nat} (h : m.toNat &&& k = 0) (first bits : UInt8) :
    (first ||| (bits &&& m)).toNat &&& k = first.toNat &&& k := by
  rw [UInt8.toNat_or, Nat.and_or_distrib_right, UInt8.toNat_and, Nat.and_assoc, h, Nat.and_zero, Nat.or_zero]

namespace PacketType

/-- The bits of the first byte that say the length of the packet number and the key phase. Header protection masks them. -/
def protectedBits : PacketType → UInt8
  | long _ => 0x0f
  | short _ => 0x1f

def protect (ty : PacketType) (bits mask first : UInt8) : UInt8 :=
  (first ||| (bits &&& ty.protectedBits)) ^^^ (mask &&& ty.protectedBits)

lemma protect_and {ty : PacketType} {k : Nat} (h : ty.protectedBits.toNat &&& k = 0) (bits mask first : UInt8) :
    (ty.protect bits mask first).toNat &&& k = first.toNat &&& k := by
  rw [protect, UInt8.toNat_xor, Nat.and_xor_distrib_right, or_and_and h, UInt8.toNat_and, Nat.and_assoc, h,
    Nat.and_zero, Nat.xor_zero]

end PacketType

lemma LongHeader.length_put {α : Type} (h : LongHeader α) (ty : V1Type) (specific : Bytes) :
    (h.put ty specific).length = h.size specific.length := by
  simp only [put, putPacketType, putConnectionId, List.length_append, List.length_cons, length_toBE, size]
  omega

lemma DataHeader.exists_put {h : DataHeader} {n : Nat} (hsize : h.size = some n) :
    ∃ bytes, h.put = some bytes ∧ bytes.length = n := by
  cases h with
  | short h =>
    cases hsize
    refine ⟨_, rfl, ?_⟩
    rw [List.length_append]
    rfl
  | long h =>
    cases h with
    | initial h =>
      obtain ⟨len, hlen, hsize⟩ := of_bind hsize
      cases hsize
      refine ⟨_, Option.bind_eq_some_iff.mpr ⟨len, hlen, rfl⟩, ?_⟩
      rw [LongHeader.length_put, List.length_append, length_putVarint]
    | zeroRtt h | handshake h =>
      cases hsize
      exact ⟨_, rfl, h.length_put _ _⟩

/-! ### Headers never fail for another reason than missing bytes -/

lemma yields_beVarint {ε : Type} {errors : Set ε} (s : Bytes) : Yields errors (beVarint : Nom ε VarInt) s :=
  (yields_take (varintWidth s) s).bind fun _ r _ => .pure _ r

lemma lengthData_eq_ok {s payload r : Bytes} (h : lengthData s = .ok (payload, r)) :
    ∃ head, s = head ++ payload ++ r := by
  obtain ⟨len, s', hlen, h⟩ := bind_eq_ok h
  obtain ⟨rfl, -⟩ := take_eq_ok h
  have hyields : Yields ∅ (beVarint : FieldParser VarInt) s := yields_beVarint s
  rcases hyields with ⟨n, hn⟩ | ⟨e, he, _⟩ | ⟨v, used, s'', hv, hs⟩
  · cases hn.symm.trans hlen
  · exact absurd he (Set.notMem_empty e)
  · cases hv.symm.trans hlen
    exact ⟨used, by rw [hs, List.append_assoc]⟩

end Dquic
