import Dquic.Frame.Frames

/-!
# Parsing frames

The parsers of `qbase/src/frame/` and `be_frame` of `qbase/src/frame/io.rs`. What
`String::from_utf8_lossy` makes of invalid bytes is a parameter.
-/

namespace Dquic

open Lib Lib.Nom

/-- `Error` of `qbase/src/frame/error.rs`, with what the parser library says in place of its text. -/
inductive FrameError
  | noFrames
  | incompleteType (text : String)
  | invalidType (fty : VarInt)
  | wrongType (fty : FrameType) (packetType : PacketType)
  | incompleteFrame (fty : FrameType) (needed : Nat)
  | parseError (fty : FrameType) (kind : NomErrorKind)
  deriving DecidableEq, Repr

def beFrameType : Nom FrameError FrameType := fun s =>
  match (beVarint s : Except (NomErr NomErrorKind) (VarInt × List UInt8)) with
  | .error _ =>
    .error (.error (.incompleteType ("Incomplete frame type from input: " ++ toString (s.map UInt8.toNat))))
  | .ok (v, rest) =>
    match FrameType.ofVarInt v with
    | none => .error (.error (.invalidType v))
    | some fty => .ok (fty, rest)

/-! ### Frames of a few integers -/

def beMaxDataFrame : FieldParser MaxDataFrame := do
  let maxData ← beVarint
  pure ⟨maxData⟩

def beDataBlockedFrame : FieldParser DataBlockedFrame := do
  let limit ← beVarint
  pure ⟨limit⟩

def beRetireConnectionIdFrame : FieldParser RetireConnectionIdFrame := do
  let sequence ← beVarint
  pure ⟨sequence⟩

def beRemoveAddressFrame : FieldParser RemoveAddressFrame := do
  let seqNum ← beVarint
  pure ⟨seqNum⟩

def beResetStreamFrame : FieldParser ResetStreamFrame := do
  let streamId ← beStreamid
  let appErrorCode ← beVarint
  let finalSize ← beVarint
  pure ⟨streamId, appErrorCode, finalSize⟩

def beStopSendingFrame : FieldParser StopSendingFrame := do
  let streamId ← beStreamid
  let appErrCode ← beVarint
  pure ⟨streamId, appErrCode⟩

def beMaxStreamDataFrame : FieldParser MaxStreamDataFrame := do
  let streamId ← beStreamid
  let maxStreamData ← beVarint
  pure ⟨streamId, maxStreamData⟩

def beStreamDataBlockedFrame : FieldParser StreamDataBlockedFrame := do
  let streamId ← beStreamid
  let maximumStreamData ← beVarint
  pure ⟨streamId, maximumStreamData⟩

def maxStreamsLimit : Nat := 2 ^ 60 - 1

def maxStreamsFrameWithDir (dir : Dir) : FieldParser MaxStreamsFrame := do
  let maxStreams ← beVarint
  if maxStreamsLimit < maxStreams.val then Nom.fail .tooLarge
  else
    match dir with
    | .bi => pure (.bi maxStreams)
    | .uni => pure (.uni maxStreams)

def streamsBlockedFrameWithDir (dir : Dir) : FieldParser StreamsBlockedFrame := do
  let maxStreams ← beVarint
  match dir with
  | .bi => pure (.bi maxStreams)
  | .uni => pure (.uni maxStreams)

def bePunchHelloFrame : FieldParser PunchHelloFrame := do
  let localSeq ← beVarint
  let remoteSeq ← beVarint
  let probeId ← beVarint
  pure ⟨localSeq, remoteSeq, probeId⟩

def bePunchDoneFrame : FieldParser PunchDoneFrame := do
  let localSeq ← beVarint
  let remoteSeq ← beVarint
  let probeId ← beVarint
  pure ⟨localSeq, remoteSeq, probeId⟩

/-! ### Frames with ranges, ids, addresses and texts -/

def beRanges : Nat → FieldParser (List (VarInt × VarInt))
  | 0 => pure []
  | count + 1 => do
    let gap ← beVarint
    let ack ← beVarint
    let ranges ← beRanges count
    pure ((gap, ack) :: ranges)

def beEcnCounts : FieldParser EcnCounts := do
  let ect0 ← beVarint
  let ect1 ← beVarint
  let ce ← beVarint
  pure ⟨ect0, ect1, ce⟩

def beEcn : Ecn → FieldParser (Option EcnCounts)
  | .exist => do
    let ecn ← beEcnCounts
    pure (some ecn)
  | .none => pure none

def ackFrameWithEcn (ecn : Ecn) : FieldParser AckFrame := do
  let largest ← beVarint
  let delay ← beVarint
  let count ← beVarint
  let firstRange ← beVarint
  let ranges ← beRanges count.val
  let ecn ← beEcn ecn
  pure ⟨largest, delay, firstRange, ranges, ecn⟩

section

variable (replaceInvalid : Bytes → String)

def beReason : FieldParser String := do
  let length ← beVarint
  let reason ← takeComplete .eof length.val
  pure (fromUtf8Lossy replaceInvalid reason)

def beAppCloseFrame : FieldParser AppCloseFrame := do
  let errorCode ← beVarint
  let reason ← beReason replaceInvalid
  pure ⟨errorCode, reason⟩

/-- Error kinds and frame types that are not known are refused. -/
def beErrorKind : FieldParser ErrorKind := do
  let errorCode ← beVarint
  match ErrorKind.ofVarInt errorCode with
  | some kind => pure kind
  | none => Nom.fail .alt

def beQuicCloseFrame : FieldParser QuicCloseFrame := do
  let errorKind ← beErrorKind
  let frameType ← beFrameType.mapErr fun _ => .error .alt
  let reason ← beReason replaceInvalid
  pure ⟨errorKind, .v1 frameType, reason⟩

def connectionCloseFrameAtLayer : Layer → FieldParser ConnectionCloseFrame
  | .app => do
    let f ← beAppCloseFrame replaceInvalid
    pure (.app f)
  | .quic => do
    let f ← beQuicCloseFrame replaceInvalid
    pure (.quic f)

end

def beNewTokenFrame : FieldParser NewTokenFrame := do
  let length ← beVarint
  let token ← take length.val
  pure ⟨token⟩

def beNewConnectionIdFrame : FieldParser NewConnectionIdFrame := do
  let sequence ← beVarint
  let retirePriorTo ← beVarint
  if sequence.val < retirePriorTo.val then Nom.fail .verify
  else
    let id ← beConnectionId
    if id.bytes = [] then Nom.fail .verify
    else
      let resetToken ← beResetToken
      pure ⟨sequence, retirePriorTo, id, resetToken⟩

def bePathChallengeFrame : FieldParser PathChallengeFrame := do
  let data ← takeArray 8
  pure ⟨data⟩

def bePathResponseFrame : FieldParser PathResponseFrame := do
  let data ← takeArrayComplete .eof 8
  pure ⟨data⟩

def beAddAddressFrame (family : Family) : FieldParser AddAddressFrame := do
  let seqNum ← beVarint
  let address ← beSocketAddr family
  let tire ← beVarint
  let natType ← beNatType
  pure ⟨seqNum, address, tire, natType⟩

def bePunchMeNowFrame (family : Family) : FieldParser PunchMeNowFrame := do
  let localSeq ← beVarint
  let remoteSeq ← beVarint
  let address ← beSocketAddr family
  let tire ← beVarint
  let natType ← beNatType
  pure ⟨localSeq, remoteSeq, address, tire, natType⟩

/-! ### Frames with data -/

def beCryptoFrame : FieldParser CryptoFrame := do
  let offset ← beVarint
  let length ← beVarint
  if varintMax < offset.val + offset.val then Nom.fail .tooLarge else pure ⟨offset, length⟩

def beOffset (hasOffset : Bool) : FieldParser VarInt := if hasOffset then beVarint else pure (.fromU32 0)

/-- Without a length the frame takes all that is left. -/
def beLength : Len → FieldParser Nat
  | .explicit => do
    let length ← beVarint
    pure length.val
  | .omitted => do
    let s ← rest
    pure s.length

def streamFrameWithFlag (hasOffset : Bool) (len : Len) (fin : Bool) : FieldParser StreamFrame := do
  let id ← beStreamid
  let offset ← beOffset hasOffset
  let length ← beLength len
  if varintMax < offset.val + length then Nom.fail .tooLarge else pure ⟨id, offset, length, len, fin⟩

/-- The parser panics if the length is not a `VarInt`. -/
def datagramFrameWithFlag (flag : UInt8) : FieldParser DatagramFrame :=
  if flag = 1 then do
    let len ← beVarint
    pure ⟨true, len⟩
  else do
    let s ← rest
    match VarInt.fromU64 s.length with
    | some len => pure ⟨false, len⟩
    | none => fun _ => .error (.failure .tooLarge)

def completeFrame (replaceInvalid : Bytes → String) : FrameType → FieldParser (Frame Bytes)
  | .padding => pure .padding
  | .ping => pure .ping
  | .connectionClose layer => do
    let f ← connectionCloseFrameAtLayer replaceInvalid layer
    pure (.close f)
  | .newConnectionId => do
    let f ← beNewConnectionIdFrame
    pure (.newConnectionId f)
  | .retireConnectionId => do
    let f ← beRetireConnectionIdFrame
    pure (.retireConnectionId f)
  | .dataBlocked => do
    let f ← beDataBlockedFrame
    pure (.streamCtl (.dataBlocked f))
  | .maxData => do
    let f ← beMaxDataFrame
    pure (.streamCtl (.maxData f))
  | .pathChallenge => do
    let f ← bePathChallengeFrame
    pure (.pathChallenge f)
  | .pathResponse => do
    let f ← bePathResponseFrame
    pure (.pathResponse f)
  | .handshakeDone => pure .handshakeDone
  | .newToken => do
    let f ← beNewTokenFrame
    pure (.newToken f)
  | .ack ecn => do
    let f ← ackFrameWithEcn ecn
    pure (.ack f)
  | .resetStream => do
    let f ← beResetStreamFrame
    pure (.streamCtl (.resetStream f))
  | .stopSending => do
    let f ← beStopSendingFrame
    pure (.streamCtl (.stopSending f))
  | .maxStreamData => do
    let f ← beMaxStreamDataFrame
    pure (.streamCtl (.maxStreamData f))
  | .maxStreams dir => do
    let f ← maxStreamsFrameWithDir dir
    pure (.streamCtl (.maxStreams f))
  | .streamsBlocked dir => do
    let f ← streamsBlockedFrameWithDir dir
    pure (.streamCtl (.streamsBlocked f))
  | .streamDataBlocked => do
    let f ← beStreamDataBlockedFrame
    pure (.streamCtl (.streamDataBlocked f))
  | .crypto => do
    let f ← beCryptoFrame
    let data ← take f.length.val
    pure (.crypto f data)
  | .stream hasOffset len fin => do
    let f ← streamFrameWithFlag hasOffset len fin
    let data ← take f.length
    pure (.stream f data)
  | .datagram withLen => do
    let f ← datagramFrameWithFlag withLen
    let s ← rest
    let data ← take (if f.encodeLen then f.len.val else s.length)
    pure (.datagram f data)
  | .addAddress family => do
    let f ← beAddAddressFrame family
    pure (.addAddress f)
  | .removeAddress => do
    let f ← beRemoveAddressFrame
    pure (.removeAddress f)
  | .punchMeNow family => do
    let f ← bePunchMeNowFrame family
    pure (.punchMeNow f)
  | .punchHello => do
    let f ← bePunchHelloFrame
    pure (.punchHello f)
  | .punchDone => do
    let f ← bePunchDoneFrame
    pure (.punchDone f)

def beFrame (replaceInvalid : Bytes → String) (raw : Bytes) (packetType : PacketType) :
    Option (Except FrameError (Nat × Frame Bytes × FrameType)) :=
  match beFrameType raw with
  | .error (.error e) => some (.error e)
  | .error (.failure e) => some (.error e)
  | .error (.incomplete _) => none
  | .ok (fty, remain) =>
    if fty.belongsTo packetType then
      match completeFrame replaceInvalid fty remain with
      | .ok (frame, rest) => some (.ok (raw.length - rest.length, frame, fty))
      | .error (.incomplete needed) => some (.error (.incompleteFrame fty needed))
      | .error (.error kind) => some (.error (.parseError fty kind))
      | .error (.failure _) => none
    else some (.error (.wrongType fty packetType))

end Dquic
