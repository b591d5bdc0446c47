import Dquic.Frame.Wire

/-!
# Frames

The frames of `qbase/src/frame/`: their types, the sizes they declare and the bytes that
`put_frame` writes for them. A buffer has room for so many bytes, and writing more panics.
-/

namespace Dquic

open Lib

/-! ### Frames of a few integers -/

structure MaxDataFrame where
  maxData : VarInt
  deriving DecidableEq, Repr

structure DataBlockedFrame where
  limit : VarInt
  deriving DecidableEq, Repr

structure StopSendingFrame where
  streamId : StreamId
  appErrCode : VarInt
  deriving DecidableEq, Repr

structure MaxStreamDataFrame where
  streamId : StreamId
  maxStreamData : VarInt
  deriving DecidableEq, Repr

structure StreamDataBlockedFrame where
  streamId : StreamId
  maximumStreamData : VarInt
  deriving DecidableEq, Repr

inductive MaxStreamsFrame
  | bi (maxStreams : VarInt)
  | uni (maxStreams : VarInt)
  deriving DecidableEq, Repr

inductive StreamsBlockedFrame
  | bi (maxStreams : VarInt)
  | uni (maxStreams : VarInt)
  deriving DecidableEq, Repr

structure RetireConnectionIdFrame where
  sequence : VarInt
  deriving DecidableEq, Repr

structure RemoveAddressFrame where
  seqNum : VarInt
  deriving DecidableEq, Repr

structure PunchHelloFrame where
  localSeq : VarInt
  remoteSeq : VarInt
  probeId : VarInt
  deriving DecidableEq, Repr

structure PunchDoneFrame where
  localSeq : VarInt
  remoteSeq : VarInt
  probeId : VarInt
  deriving DecidableEq, Repr

/-! ### Frames with ranges, ids, addresses and texts -/

structure EcnCounts where
  ect0 : VarInt
  ect1 : VarInt
  ce : VarInt
  deriving DecidableEq, Repr

structure AckFrame where
  largest : VarInt
  delay : VarInt
  firstRange : VarInt
  ranges : List (VarInt × VarInt)
  ecn : Option EcnCounts
  deriving DecidableEq, Repr

structure AppCloseFrame where
  errorCode : VarInt
  reason : String
  deriving DecidableEq, Repr

structure QuicCloseFrame where
  errorKind : ErrorKind
  frameType : ErrorFrameType
  reason : String
  deriving DecidableEq, Repr

inductive ConnectionCloseFrame
  | app (frame : AppCloseFrame)
  | quic (frame : QuicCloseFrame)
  deriving DecidableEq, Repr

structure NewTokenFrame where
  token : Bytes
  deriving DecidableEq, Repr

structure NewConnectionIdFrame where
  sequence : VarInt
  retirePriorTo : VarInt
  id : ConnectionId
  resetToken : ResetToken
  deriving DecidableEq, Repr

structure PathChallengeFrame where
  data : { b : Bytes // b.length = 8 }
  deriving DecidableEq, Repr

structure PathResponseFrame where
  data : { b : Bytes // b.length = 8 }
  deriving DecidableEq, Repr

structure AddAddressFrame where
  seqNum : VarInt
  address : SocketAddr
  tire : VarInt
  natType : NatType
  deriving DecidableEq, Repr

structure PunchMeNowFrame where
  localSeq : VarInt
  remoteSeq : VarInt
  address : SocketAddr
  tire : VarInt
  natType : NatType
  deriving DecidableEq, Repr

structure CryptoFrame where
  offset : VarInt
  length : VarInt
  deriving DecidableEq, Repr

structure DatagramFrame where
  encodeLen : Bool
  len : VarInt
  deriving DecidableEq, Repr

inductive StreamCtlFrame
  | maxData (f : MaxDataFrame)
  | dataBlocked (f : DataBlockedFrame)
  | resetStream (f : ResetStreamFrame)
  | stopSending (f : StopSendingFrame)
  | maxStreamData (f : MaxStreamDataFrame)
  | maxStreams (f : MaxStreamsFrame)
  | streamDataBlocked (f : StreamDataBlockedFrame)
  | streamsBlocked (f : StreamsBlockedFrame)
  deriving DecidableEq, Repr

/-- A frame, with a body of type `δ` where it has data. -/
inductive Frame (δ : Type)
  | padding
  | ping
  | ack (f : AckFrame)
  | close (f : ConnectionCloseFrame)
  | newToken (f : NewTokenFrame)
  | newConnectionId (f : NewConnectionIdFrame)
  | retireConnectionId (f : RetireConnectionIdFrame)
  | handshakeDone
  | pathChallenge (f : PathChallengeFrame)
  | pathResponse (f : PathResponseFrame)
  | streamCtl (f : StreamCtlFrame)
  | stream (f : StreamFrame) (data : δ)
  | crypto (f : CryptoFrame) (data : δ)
  | datagram (f : DatagramFrame) (data : δ)
  | addAddress (f : AddAddressFrame)
  | removeAddress (f : RemoveAddressFrame)
  | punchMeNow (f : PunchMeNowFrame)
  | punchHello (f : PunchHelloFrame)
  | punchDone (f : PunchDoneFrame)
  deriving DecidableEq, Repr

/-! ### Types -/

def AckFrame.frameType (f : AckFrame) : FrameType := .ack (if f.ecn.isSome then .exist else .none)

def ConnectionCloseFrame.frameType : ConnectionCloseFrame → FrameType
  | app _ => .connectionClose .app
  | quic _ => .connectionClose .quic

def MaxStreamsFrame.frameType : MaxStreamsFrame → FrameType
  | bi _ => .maxStreams .bi
  | uni _ => .maxStreams .uni

def StreamsBlockedFrame.frameType : StreamsBlockedFrame → FrameType
  | bi _ => .streamsBlocked .bi
  | uni _ => .streamsBlocked .uni

def DatagramFrame.frameType (f : DatagramFrame) : FrameType := .datagram (if f.encodeLen then 1 else 0)

def StreamCtlFrame.frameType : StreamCtlFrame → FrameType
  | maxData _ => .maxData
  | dataBlocked _ => .dataBlocked
  | resetStream _ => .resetStream
  | stopSending _ => .stopSending
  | maxStreamData _ => .maxStreamData
  | maxStreams f => f.frameType
  | streamDataBlocked _ => .streamDataBlocked
  | streamsBlocked f => f.frameType

def Frame.frameType {δ : Type} : Frame δ → FrameType
  | padding => .padding
  | ping => .ping
  | ack f => f.frameType
  | close f => f.frameType
  | newToken _ => .newToken
  | newConnectionId _ => .newConnectionId
  | retireConnectionId _ => .retireConnectionId
  | handshakeDone => .handshakeDone
  | pathChallenge _ => .pathChallenge
  | pathResponse _ => .pathResponse
  | streamCtl f => f.frameType
  | stream f _ => f.frameType
  | crypto _ _ => .crypto
  | datagram f _ => f.frameType
  | addAddress f => .addAddress f.address.family
  | removeAddress _ => .removeAddress
  | punchMeNow f => .punchMeNow f.address.family
  | punchHello _ => .punchHello
  | punchDone _ => .punchDone

/-! ### Declared sizes -/

def EcnCounts.encodingSize (e : EcnCounts) : Nat := e.ect0.encodingSize + e.ect1.encodingSize + e.ce.encodingSize

namespace AckFrame

def rangesSize (ranges : List (VarInt × VarInt)) : Nat :=
  (ranges.map fun r => r.1.encodingSize + r.2.encodingSize).sum

def ecnSize : Option EcnCounts → Nat
  | some e => e.encodingSize
  | none => 0

/-- The number of ranges must fit a `VarInt`. -/
def encodingSize (f : AckFrame) : Option Nat := do
  let count ← VarInt.fromU64 f.ranges.length
  some (1 + f.largest.encodingSize + f.delay.encodingSize + count.encodingSize + f.firstRange.encodingSize +
    rangesSize f.ranges + ecnSize f.ecn)

def maxEncodingSize (f : AckFrame) : Nat :=
  1 + 8 + 8 + 8 + 8 + f.ranges.length * 16 + if f.ecn.isSome then 24 else 0

end AckFrame

namespace ConnectionCloseFrame

def encodingSize : ConnectionCloseFrame → Option Nat
  | app f => do
    let len ← VarInt.fromU64 (utf8 f.reason).length
    some (1 + f.errorCode.encodingSize + len.encodingSize + (utf8 f.reason).length)
  | quic f => do
    let len ← VarInt.fromU64 (utf8 f.reason).length
    some (1 + f.errorKind.toVarInt.encodingSize + 1 + len.encodingSize + (utf8 f.reason).length)

def maxEncodingSize : ConnectionCloseFrame → Nat
  | app f => 1 + 8 + 2 + (utf8 f.reason).length
  | quic f => 1 + 8 + 8 + 2 + (utf8 f.reason).length

end ConnectionCloseFrame

def MaxStreamsFrame.encodingSize : MaxStreamsFrame → Nat
  | bi maxStreams => 1 + maxStreams.encodingSize
  | uni maxStreams => 1 + maxStreams.encodingSize

def StreamsBlockedFrame.encodingSize : StreamsBlockedFrame → Nat
  | bi maxStreams => 1 + maxStreams.encodingSize
  | uni maxStreams => 1 + maxStreams.encodingSize

def StreamCtlFrame.encodingSize : StreamCtlFrame → Nat
  | maxData f => 1 + f.maxData.encodingSize
  | dataBlocked f => 1 + f.limit.encodingSize
  | resetStream f => 1 + f.streamId.encodingSize + f.appErrorCode.encodingSize + f.finalSize.encodingSize
  | stopSending f => 1 + f.streamId.encodingSize + f.appErrCode.encodingSize
  | maxStreamData f => 1 + f.streamId.encodingSize + f.maxStreamData.encodingSize
  | maxStreams f => f.encodingSize
  | streamDataBlocked f => 1 + f.streamId.encodingSize + f.maximumStreamData.encodingSize
  | streamsBlocked f => f.encodingSize

def StreamCtlFrame.maxEncodingSize : StreamCtlFrame → Nat
  | maxData _ => 1 + 8
  | dataBlocked _ => 1 + 8
  | resetStream _ => 1 + 8 + 8 + 8
  | stopSending _ => 1 + 8 + 8
  | maxStreamData _ => 1 + 8 + 8
  | maxStreams _ => 1 + 8
  | streamDataBlocked _ => 1 + 8 + 8
  | streamsBlocked _ => 1 + 8

def DatagramFrame.encodingSize (f : DatagramFrame) : Nat := 1 + if f.encodeLen then f.len.encodingSize else 0

/-- `EncodeSize::encoding_size`, without the data of the frame. -/
def Frame.encodingSize {δ : Type} : Frame δ → Option Nat
  | padding => some 1
  | ping => some 1
  | ack f => f.encodingSize
  | close f => f.encodingSize
  -- the length of the token counts as one byte
  | newToken f => some (1 + 1 + f.token.length)
  | newConnectionId f =>
    some (1 + f.sequence.encodingSize + f.retirePriorTo.encodingSize + 1 + f.id.bytes.length + resetTokenSize)
  | retireConnectionId f => some (1 + f.sequence.encodingSize)
  | handshakeDone => some 1
  | pathChallenge f => some (1 + f.data.val.length)
  | pathResponse f => some (1 + f.data.val.length)
  | streamCtl f => some f.encodingSize
  | stream f _ => f.encodingSize
  | crypto f _ => some (1 + f.offset.encodingSize + f.length.encodingSize)
  | datagram f _ => some f.encodingSize
  | addAddress f =>
    some ((FrameType.addAddress f.address.family).toVarInt.encodingSize + f.seqNum.encodingSize +
      f.address.encodingSize + f.tire.encodingSize + f.natType.toVarInt.encodingSize)
  | removeAddress f => some (FrameType.removeAddress.toVarInt.encodingSize + f.seqNum.encodingSize)
  | punchMeNow f =>
    some ((FrameType.punchMeNow f.address.family).toVarInt.encodingSize + f.localSeq.encodingSize +
      f.remoteSeq.encodingSize + f.address.encodingSize + f.tire.encodingSize + f.natType.toVarInt.encodingSize)
  | punchHello f =>
    some (FrameType.punchHello.toVarInt.encodingSize + f.localSeq.encodingSize + f.remoteSeq.encodingSize +
      f.probeId.encodingSize)
  | punchDone f =>
    some (FrameType.punchDone.toVarInt.encodingSize + f.localSeq.encodingSize + f.remoteSeq.encodingSize +
      f.probeId.encodingSize)

def Frame.maxEncodingSize {δ : Type} : Frame δ → Nat
  | padding => 1
  | ping => 1
  | ack f => f.maxEncodingSize
  | close f => f.maxEncodingSize
  | newToken f => 1 + 1 + f.token.length
  | newConnectionId _ => 1 + 8 + 8 + 21 + resetTokenSize
  | retireConnectionId _ => 1 + 8
  | handshakeDone => 1
  | pathChallenge f => 1 + f.data.val.length
  | pathResponse f => 1 + f.data.val.length
  | streamCtl f => f.maxEncodingSize
  | stream _ _ => streamFrameMaxEncodingSize
  | crypto _ _ => 1 + 8 + 8
  | datagram _ _ => 1 + 8
  | addAddress _ => 4 + 8 + 2 + 16 + 8 + 8
  | removeAddress _ => 4 + 8
  | punchMeNow f => 4 + 8 + 8 + f.address.maxEncodingSize + 8 + 8
  | punchHello _ => 4 + 8 + 8 + 8
  | punchDone _ => 4 + 8 + 8 + 8

/-! ### Writing -/

def putFrameType (fty : FrameType) : Bytes := putVarint fty.toVarInt

namespace AckFrame

def putRanges (ranges : List (VarInt × VarInt)) : Bytes := ranges.flatMap fun r => putVarint r.1 ++ putVarint r.2

def putEcn : Option EcnCounts → Bytes
  | some e => putVarint e.ect0 ++ (putVarint e.ect1 ++ putVarint e.ce)
  | none => []

def put (f : AckFrame) : Option Bytes := do
  let count ← VarInt.fromU64 f.ranges.length
  some (putFrameType f.frameType ++ (putVarint f.largest ++ (putVarint f.delay ++ (putVarint count ++
    (putVarint f.firstRange ++ (putRanges f.ranges ++ putEcn f.ecn))))))

end AckFrame

/-- A text with its length, cut to the room that is left. The length is written as a `u32`. -/
def putReason (room : Nat) (reason : String) : Bytes :=
  let len := min (utf8 reason).length room
  putVarint (.fromU32 len) ++ (utf8 reason).take len

variable {room : Nat} {frame : Frame Bytes}

lemma reason_le_room {head : Bytes} {reason : String}
    (h : (head ++ putReason (room - head.length) reason).length ≤ room) :
    (utf8 reason).length ≤ room - head.length := by
  by_contra hlt
  have hcut : (putReason (room - head.length) reason).length =
      (VarInt.fromU32 (room - head.length)).encodingSize + (room - head.length) := by
    unfold putReason
    dsimp only
    rw [min_eq_right (by omega), List.length_append, length_putVarint, List.length_take_of_le (by omega)]
  have hpos := (VarInt.fromU32 (room - head.length)).encodingSize_pos
  rw [List.length_append, hcut] at h
  omega

def ConnectionCloseFrame.put (room : Nat) (frame : ConnectionCloseFrame) : Bytes :=
  match frame with
  | app f =>
    let head := putFrameType frame.frameType ++ putVarint f.errorCode
    head ++ putReason (room - head.length) f.reason
  | quic f =>
    let head := putFrameType frame.frameType ++ (putVarint f.errorKind.toVarInt ++ putVarint f.frameType.toVarInt)
    head ++ putReason (room - head.length) f.reason

def NewTokenFrame.put (f : NewTokenFrame) : Bytes :=
  putFrameType .newToken ++ (putVarint (.fromU32 f.token.length) ++ f.token)

def NewConnectionIdFrame.put (f : NewConnectionIdFrame) : Bytes :=
  putFrameType .newConnectionId ++ (putVarint f.sequence ++ (putVarint f.retirePriorTo ++
    (putConnectionId f.id ++ f.resetToken.val)))

def MaxStreamsFrame.put (frame : MaxStreamsFrame) : Bytes :=
  match frame with
  | bi maxStreams => putFrameType frame.frameType ++ putVarint maxStreams
  | uni maxStreams => putFrameType frame.frameType ++ putVarint maxStreams

def StreamsBlockedFrame.put (frame : StreamsBlockedFrame) : Bytes :=
  match frame with
  | bi maxStreams => putFrameType frame.frameType ++ putVarint maxStreams
  | uni maxStreams => putFrameType frame.frameType ++ putVarint maxStreams

def StreamCtlFrame.put : StreamCtlFrame → Bytes
  | maxData f => putFrameType .maxData ++ putVarint f.maxData
  | dataBlocked f => putFrameType .dataBlocked ++ putVarint f.limit
  | resetStream f =>
    putFrameType .resetStream ++ (putStreamid f.streamId ++ (putVarint f.appErrorCode ++ putVarint f.finalSize))
  | stopSending f => putFrameType .stopSending ++ (putStreamid f.streamId ++ putVarint f.appErrCode)
  | maxStreamData f => putFrameType .maxStreamData ++ (putStreamid f.streamId ++ putVarint f.maxStreamData)
  | maxStreams f => f.put
  | streamDataBlocked f => putFrameType .streamDataBlocked ++ (putStreamid f.streamId ++ putVarint f.maximumStreamData)
  | streamsBlocked f => f.put

/-- The length is written as a `u32`, and is not compared with the data. -/
def StreamFrame.put (f : StreamFrame) (data : Bytes) : Bytes :=
  putFrameType f.frameType ++ (putStreamid f.id ++ ((if f.offset.val ≠ 0 then putVarint f.offset else []) ++
    ((if f.lenBit = .explicit then putVarint (.fromU32 f.length) else []) ++ data)))

def CryptoFrame.put (f : CryptoFrame) (data : Bytes) : Option Bytes := do
  debugAssert (f.length.val = data.length)
  some (putFrameType .crypto ++ (putVarint f.offset ++ (putVarint f.length ++ data)))

def DatagramFrame.put (f : DatagramFrame) (data : Bytes) : Bytes :=
  putFrameType f.frameType ++ ((if f.encodeLen then putVarint f.len else []) ++ data)

def AddAddressFrame.put (f : AddAddressFrame) : Bytes :=
  putFrameType (.addAddress f.address.family) ++ (putVarint f.seqNum ++ (putSocketAddr f.address ++
    (putVarint f.tire ++ putVarint f.natType.toVarInt)))

def PunchMeNowFrame.put (f : PunchMeNowFrame) : Bytes :=
  putFrameType (.punchMeNow f.address.family) ++ (putVarint f.localSeq ++ (putVarint f.remoteSeq ++
    (putSocketAddr f.address ++ (putVarint f.tire ++ putVarint f.natType.toVarInt))))

/-- What is written, into a buffer with room for `room` bytes. -/
def Frame.bytes (room : Nat) : Frame Bytes → Option Bytes
  | padding => some (putFrameType .padding)
  | ping => some (putFrameType .ping)
  | ack f => f.put
  | close f => some (f.put room)
  | newToken f => some f.put
  | newConnectionId f => some f.put
  | retireConnectionId f => some (putFrameType .retireConnectionId ++ putVarint f.sequence)
  | handshakeDone => some (putFrameType .handshakeDone)
  | pathChallenge f => some (putFrameType .pathChallenge ++ f.data.val)
  | pathResponse f => some (putFrameType .pathResponse ++ f.data.val)
  | streamCtl f => some f.put
  | stream f data => some (f.put data)
  | crypto f data => f.put data
  | datagram f data => some (f.put data)
  | addAddress f => some f.put
  | removeAddress f => some (putFrameType .removeAddress ++ putVarint f.seqNum)
  | punchMeNow f => some f.put
  | punchHello f =>
    some (putFrameType .punchHello ++ (putVarint f.localSeq ++ (putVarint f.remoteSeq ++ putVarint f.probeId)))
  | punchDone f =>
    some (putFrameType .punchDone ++ (putVarint f.localSeq ++ (putVarint f.remoteSeq ++ putVarint f.probeId)))

/-- `put_frame`. A buffer without the room panics. -/
def putFrame (room : Nat) (frame : Frame Bytes) : Option Bytes := do
  let bytes ← frame.bytes room
  debugAssert (bytes.length ≤ room)
  some bytes

lemma putFrame_eq_some {bytes : Bytes} (h : putFrame room frame = some bytes) :
    frame.bytes room = some bytes ∧ bytes.length ≤ room := by
  obtain ⟨out, hout, h⟩ := of_bind h
  unfold debugAssert at h
  split at h
  · cases h
    exact ⟨hout, ‹_›⟩
  · cases h

lemma putFrame_of_bytes {bytes : Bytes} (h : frame.bytes room = some bytes) (hroom : bytes.length ≤ room) :
    putFrame room frame = some bytes := by
  unfold putFrame
  rw [h, some_bind, debugAssert_of hroom]
  rfl

end Dquic
