import Dquic.Frame.Stream
import Dquic.Packet.Type

/-!
# Frame types

`FrameType` of `qbase/src/frame.rs`: its numbers on the wire, the packets a frame may stand in and
the rules of RFC 9000, Table 3, for it.
-/

namespace Dquic

inductive Ecn
  | none
  | exist
  deriving DecidableEq, Repr

inductive Dir
  | bi
  | uni
  deriving DecidableEq, Repr

inductive Layer
  | quic
  | app
  deriving DecidableEq, Repr

inductive Family
  | v4
  | v6
  deriving DecidableEq, Repr

inductive FrameType
  | padding
  | ping
  | ack (ecn : Ecn)
  | resetStream
  | stopSending
  | crypto
  | newToken
  | stream (hasOffset : Bool) (len : Len) (fin : Bool)
  | maxData
  | maxStreamData
  | maxStreams (dir : Dir)
  | dataBlocked
  | streamDataBlocked
  | streamsBlocked (dir : Dir)
  | newConnectionId
  | retireConnectionId
  | pathChallenge
  | pathResponse
  | connectionClose (layer : Layer)
  | handshakeDone
  | datagram (withLen : UInt8)
  | addAddress (family : Family)
  | removeAddress
  | punchMeNow (family : Family)
  | punchHello
  | punchDone
  deriving DecidableEq, Repr

/-- `VarInt::from_u32`, after a cast to `u32`. -/
def VarInt.fromU32 (n : Nat) : VarInt := ⟨n % 2 ^ 32, lt_trans (Nat.mod_lt n (by decide)) (by decide)⟩

namespace FrameType

/-- `From<FrameType> for VarInt`. -/
def toVarInt : FrameType → VarInt
  | padding => .fromU32 0x00
  | ping => .fromU32 0x01
  | ack .none => .fromU32 0x02
  | ack .exist => .fromU32 0x03
  | resetStream => .fromU32 0x04
  | stopSending => .fromU32 0x05
  | crypto => .fromU32 0x06
  | newToken => .fromU32 0x07
  | stream hasOffset len fin =>
    .fromU32 (0x08 ||| (if hasOffset then 0x04 else 0) ||| (if len = .explicit then 0x02 else 0) |||
      (if fin then 0x01 else 0))
  | maxData => .fromU32 0x10
  | maxStreamData => .fromU32 0x11
  | maxStreams .bi => .fromU32 0x12
  | maxStreams .uni => .fromU32 0x13
  | dataBlocked => .fromU32 0x14
  | streamDataBlocked => .fromU32 0x15
  | streamsBlocked .bi => .fromU32 0x16
  | streamsBlocked .uni => .fromU32 0x17
  | newConnectionId => .fromU32 0x18
  | retireConnectionId => .fromU32 0x19
  | pathChallenge => .fromU32 0x1a
  | pathResponse => .fromU32 0x1b
  | connectionClose .quic => .fromU32 0x1c
  | connectionClose .app => .fromU32 0x1d
  | handshakeDone => .fromU32 0x1e
  | datagram withLen => .fromU32 (0x30 ||| withLen.toNat)
  | addAddress .v4 => .fromU32 0x3d7e90
  | addAddress .v6 => .fromU32 0x3d7e91
  | punchMeNow .v4 => .fromU32 0x3d7e92
  | punchMeNow .v6 => .fromU32 0x3d7e93
  | removeAddress => .fromU32 0x3d7e94
  | punchHello => .fromU32 0x3d7e95
  | punchDone => .fromU32 0x3d7e96

/-- `TryFrom<VarInt> for FrameType`. Other numbers are invalid types. -/
def ofVarInt (v : VarInt) : Option FrameType :=
  match v.val with
  | 0x00 => some padding
  | 0x01 => some ping
  | 0x02 => some (ack .none)
  | 0x03 => some (ack .exist)
  | 0x04 => some resetStream
  | 0x05 => some stopSending
  | 0x06 => some crypto
  | 0x07 => some newToken
  | 0x10 => some maxData
  | 0x11 => some maxStreamData
  | 0x12 => some (maxStreams .bi)
  | 0x13 => some (maxStreams .uni)
  | 0x14 => some dataBlocked
  | 0x15 => some streamDataBlocked
  | 0x16 => some (streamsBlocked .bi)
  | 0x17 => some (streamsBlocked .uni)
  | 0x18 => some newConnectionId
  | 0x19 => some retireConnectionId
  | 0x1a => some pathChallenge
  | 0x1b => some pathResponse
  | 0x1c => some (connectionClose .quic)
  | 0x1d => some (connectionClose .app)
  | 0x1e => some handshakeDone
  | 0x30 => some (datagram 0)
  | 0x31 => some (datagram 1)
  | 0x3d7e90 => some (addAddress .v4)
  | 0x3d7e91 => some (addAddress .v6)
  | 0x3d7e92 => some (punchMeNow .v4)
  | 0x3d7e93 => some (punchMeNow .v6)
  | 0x3d7e94 => some removeAddress
  | 0x3d7e95 => some punchHello
  | 0x3d7e96 => some punchDone
  | ty =>
    -- the last three bits say whether an offset, a length and an end come with the frame
    if 0x08 ≤ ty ∧ ty ≤ 0x0f then
      some (stream (ty &&& 0x04 ≠ 0) (if ty &&& 0x02 = 0 then .omitted else .explicit) (ty &&& 0x01 ≠ 0))
    else none

def belongsTo (fty : FrameType) (packetType : PacketType) : Bool :=
  let i := packetType == .long (.v1 .initial)
  let h := packetType == .long (.v1 .handshake)
  let o := packetType == .long (.v1 .zeroRtt)
  let l := match packetType with
    | .short _ => true
    | .long _ => false
  match fty with
  | padding | ping | connectionClose .quic => i || h || o || l
  | ack _ | crypto => i || h || l
  | newToken | pathResponse | handshakeDone => l
  | resetStream | stopSending | stream _ _ _ | maxData | maxStreamData | maxStreams _ | dataBlocked
  | streamDataBlocked | streamsBlocked _ | newConnectionId | retireConnectionId | pathChallenge
  | connectionClose .app | datagram _ | addAddress _ | removeAddress | punchMeNow _ | punchHello | punchDone => o || l

structure Specs where
  nonAckEliciting : Bool
  congestionControlFree : Bool
  probeNewPath : Bool
  flowControlled : Bool
  deriving DecidableEq, Repr

def specs : FrameType → Specs
  | padding => ⟨true, false, true, false⟩
  | ack _ => ⟨true, true, false, false⟩
  | stream _ _ _ => ⟨false, false, false, true⟩
  | newConnectionId | pathChallenge | pathResponse => ⟨false, false, true, false⟩
  | connectionClose _ => ⟨true, true, false, false⟩
  | punchHello | punchDone => ⟨true, false, false, false⟩
  | _ => ⟨false, false, false, false⟩

/-- A type that `TryFrom` can give. The flag of DATAGRAM is a whole byte, of which the wire has one bit. -/
def OnWire : FrameType → Prop
  | datagram withLen => withLen = 0 ∨ withLen = 1
  | _ => True

/-- The number of a type is read back as the type. -/
theorem ofVarInt_toVarInt {fty : FrameType} (h : fty.OnWire) : ofVarInt fty.toVarInt = some fty := by
  cases fty with
  | ack ecn => cases ecn <;> rfl
  | stream hasOffset len fin => cases hasOffset <;> cases len <;> cases fin <;> rfl
  | maxStreams dir => cases dir <;> rfl
  | streamsBlocked dir => cases dir <;> rfl
  | connectionClose layer => cases layer <;> rfl
  | datagram withLen =>
    rcases h with rfl | rfl
    · rfl
    · rfl
  | addAddress family | punchMeNow family => cases family <;> rfl
  | _ => rfl

end FrameType

end Dquic
