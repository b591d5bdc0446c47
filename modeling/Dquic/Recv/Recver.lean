import Dquic.Frame.Frames
import Dquic.Recv.RecvBuf

/-!
# The receiving part of a stream

The states of `qrecovery/src/recv/recver.rs`, what frames of the peer do to them through
`Incoming` and the application through `Reader`. Wakers are left out.
-/

namespace Dquic

structure Recv where
  streamId : StreamId
  rcvbuf : RecvBuf
  stopState : Option Nat
  largest : Nat
  maxStreamData : Nat
  deriving DecidableEq, Repr

structure SizeKnown where
  streamId : StreamId
  rcvbuf : RecvBuf
  stopState : Option Nat
  finalSize : Nat
  deriving DecidableEq, Repr

structure DataRcvd where
  streamId : StreamId
  rcvbuf : RecvBuf
  deriving DecidableEq, Repr

inductive Recver
  | recv (r : Recv)
  | sizeKnown (r : SizeKnown)
  | dataRcvd (r : DataRcvd)
  | resetRcvd (frame : ResetStreamFrame)
  | dataRead
  | resetRead (error : ResetStreamError)
  deriving DecidableEq, Repr

namespace Recv

def new (streamId : StreamId) (bufSize : Nat) : Recv := ⟨streamId, RecvBuf.empty, none, 0, bufSize⟩

/-- The window that `poll_read` and `poll_next` give the peer after a read. -/
def raiseWindow (r : Recv) : Recv × Option MaxStreamDataFrame :=
  let threshold := 1000000
  let maxStreamData := min (r.rcvbuf.nread + threshold * 2) varintMax
  if r.maxStreamData < r.rcvbuf.nread + threshold ∧ r.maxStreamData < maxStreamData then
    ({ r with maxStreamData := maxStreamData },
      some ⟨r.streamId, ⟨maxStreamData, lt_of_le_of_lt (min_le_right _ _) (by decide)⟩⟩)
  else (r, none)

/-- The bytes read, `none` when nothing is readable. -/
def pollRead (r : Recv) (room : Nat) : Option Bytes × Recv × Option MaxStreamDataFrame :=
  if r.rcvbuf.isReadable then
    let read := r.rcvbuf.tryRead room
    (some read.1, raiseWindow { r with rcvbuf := read.2 })
  else (none, r, none)

def pollNext (r : Recv) : Option Bytes × Recv × Option MaxStreamDataFrame :=
  if r.rcvbuf.isReadable then
    let read := r.rcvbuf.tryNext
    (read.1, raiseWindow { r with rcvbuf := read.2 })
  else (none, r, none)

/-- `determin_size`: a frame with FIN fixes the final size. -/
def determinSize (r : Recv) (frame : StreamFrame) : Except QuicError SizeKnown :=
  let finalSize := frame.range.stop
  let receivedLargestOffset := r.rcvbuf.largestOffset
  if finalSize < receivedLargestOffset then
    .error ⟨.finalSize, frame.frameType, frame.id.display ++ " received a wrong smaller final size " ++
      toString finalSize ++ " than the largest rcvd data offset " ++ toString receivedLargestOffset⟩
  else .ok ⟨r.streamId, r.rcvbuf, r.stopState, finalSize⟩

/-- Data of a frame without FIN. Returns how much of the flow limit it uses. -/
def recv (r : Recv) (frame : StreamFrame) (body : Bytes) : Option (Except QuicError Nat × Recv) :=
  let dataStart := frame.offset.val
  let dataEnd := dataStart + body.length
  if r.maxStreamData < dataEnd then
    some (.error ⟨.flowControl, frame.frameType, frame.id.display ++ " send " ++ toString dataEnd ++
      " bytes which exceeds the stream data limit " ++ toString r.maxStreamData⟩, r)
  else do
    let (freshData, rcvbuf) ← r.rcvbuf.recv dataStart body
    some (.ok freshData, { r with rcvbuf := rcvbuf, largest := max r.largest dataEnd })

def recvReset (r : Recv) (frame : ResetStreamFrame) : Except QuicError Nat :=
  let finalSize := frame.finalSize.val
  if finalSize < r.largest then
    .error ⟨.finalSize, .resetStream, frame.streamId.display ++ " reset with a wrong smaller final size " ++
      toString finalSize ++ " than the largest rcvd data offset " ++ toString r.largest⟩
  else .ok (finalSize - r.largest)

/-- Only the first call has an effect. It sends STOP_SENDING. -/
def stop (r : Recv) (errCode : Nat) : Option (Recv × Option StopSendingFrame) :=
  if r.stopState = none then do
    let appErrCode ← VarInt.fromU64 errCode
    some ({ r with stopState := some errCode }, some ⟨r.streamId, appErrCode⟩)
  else some (r, none)

end Recv

namespace SizeKnown

def recv (r : SizeKnown) (frame : StreamFrame) (data : Bytes) : Option (Except QuicError Nat × SizeKnown) :=
  let dataStart := frame.offset.val
  let dataEnd := dataStart + data.length
  if r.finalSize < dataEnd then
    some (.error ⟨.finalSize, frame.frameType, frame.id.display ++ " send " ++ toString dataEnd ++
      " bytes which exceeds the final_size " ++ toString r.finalSize⟩, r)
  else if frame.isFin ∧ dataEnd ≠ r.finalSize then
    some (.error ⟨.finalSize, frame.frameType, frame.id.display ++ " change the final size from " ++
      toString r.finalSize ++ " to " ++ toString dataEnd⟩, r)
  else do
    let (freshData, rcvbuf) ← r.rcvbuf.recv dataStart data
    some (.ok freshData, { r with rcvbuf := rcvbuf })

def isAllRcvd (r : SizeKnown) : Bool := r.rcvbuf.nread + r.rcvbuf.available = r.finalSize

def pollRead (r : SizeKnown) (room : Nat) : Option Bytes × SizeKnown :=
  if r.rcvbuf.isReadable then
    let (out, rcvbuf) := r.rcvbuf.tryRead room
    (some out, { r with rcvbuf := rcvbuf })
  else (none, r)

def pollNext (r : SizeKnown) : Option Bytes × SizeKnown :=
  if r.rcvbuf.isReadable then
    let (out, rcvbuf) := r.rcvbuf.tryNext
    (out, { r with rcvbuf := rcvbuf })
  else (none, r)

def recvReset (r : SizeKnown) (frame : ResetStreamFrame) : Except QuicError Unit :=
  let finalSize := frame.finalSize.val
  if finalSize ≠ r.finalSize then
    .error ⟨.finalSize, .resetStream, frame.streamId.display ++ " change the final size from " ++
      toString r.finalSize ++ " to " ++ toString finalSize⟩
  else .ok ()

def upgrade (r : SizeKnown) : DataRcvd := ⟨r.streamId, r.rcvbuf⟩

def stop (r : SizeKnown) (errCode : Nat) : Option (SizeKnown × Option StopSendingFrame) :=
  if r.stopState = none then do
    let appErrCode ← VarInt.fromU64 errCode
    some ({ r with stopState := some errCode }, some ⟨r.streamId, appErrCode⟩)
  else some (r, none)

end SizeKnown

namespace DataRcvd

def pollRead (r : DataRcvd) (room : Nat) : Bytes × DataRcvd :=
  let (out, rcvbuf) := r.rcvbuf.tryRead room
  (out, { r with rcvbuf := rcvbuf })

def pollNext (r : DataRcvd) : Option Bytes × DataRcvd :=
  let (out, rcvbuf) := r.rcvbuf.tryNext
  (out, { r with rcvbuf := rcvbuf })

def isAllRead (r : DataRcvd) : Bool := r.rcvbuf.segments.isEmpty

end DataRcvd

/-- `ArcRecver`: the receiver, or the error that ended its connection. -/
abbrev ArcRecver (ε : Type) := Except ε Recver

def ArcRecver.new {ε : Type} (streamId : StreamId) (bufSize : Nat) : ArcRecver ε :=
  .ok (.recv (Recv.new streamId bufSize))

namespace Incoming

variable {ε : Type}

/-- A receiver that knows the final size, after it took in data. -/
def settle (r : SizeKnown) : Bool × Recver := if r.isAllRcvd then (true, .dataRcvd r.upgrade) else (false, .sizeKnown r)

/-- Whether all data is there now, and how much of the flow limit the frame uses. -/
def recvData (s : ArcRecver ε) (frame : StreamFrame) (body : Bytes) :
    Option (Except QuicError (Bool × Nat) × ArcRecver ε) :=
  match s with
  | .ok (.recv r) =>
    if frame.isFin then
      match r.determinSize frame with
      | .error e => some (.error e, s)
      | .ok sizeKnown => do
        let (res, sizeKnown) ← sizeKnown.recv frame body
        match res with
        -- the buffer was taken out of the receiver
        | .error e => some (.error e, .ok (.recv { r with rcvbuf := RecvBuf.empty, stopState := none }))
        | .ok freshData => some (.ok ((settle sizeKnown).1, freshData), .ok (settle sizeKnown).2)
    else do
      let (res, r) ← r.recv frame body
      some (res.map (fun freshData => (false, freshData)), .ok (.recv r))
  | .ok (.sizeKnown r) => do
    let (res, r) ← r.recv frame body
    match res with
    | .error e => some (.error e, .ok (.sizeKnown r))
    | .ok freshData => some (.ok ((settle r).1, freshData), .ok (settle r).2)
  | s => some (.ok (false, 0), s)

/-- How much of the flow limit the final size uses. A stream that is closed never sees a reset. -/
def recvReset (s : ArcRecver ε) (frame : ResetStreamFrame) : Option (Except QuicError Nat × ArcRecver ε) :=
  match s with
  | .ok (.recv r) =>
    match r.recvReset frame with
    | .error e => some (.error e, s)
    | .ok freshData => some (.ok freshData, .ok (.resetRcvd frame))
  | .ok (.sizeKnown r) =>
    match r.recvReset frame with
    | .error e => some (.error e, s)
    | .ok () => some (.ok 0, .ok (.resetRcvd frame))
  | .ok _ => none
  | .error e => some (.ok 0, .error e)

/-- The end of the connection ends what is not received completely. -/
def onError (s : ArcRecver ε) (err : ε) : ArcRecver ε :=
  match s with
  | .ok (.recv _) => .error err
  | .ok (.sizeKnown _) => .error err
  | s => s

end Incoming

inductive ReadResult (ε : Type)
  | pending
  | data (bytes : Bytes)
  | eof
  | error (error : StreamError ε)
  deriving DecidableEq, Repr

namespace Reader

variable {ε : Type}

def readResult : Option Bytes → ReadResult ε
  | some bytes => .data bytes
  | none => .pending

/-- `poll_read` into a destination with room for `room` bytes. Reading nothing marks the end. -/
def pollRead (s : ArcRecver ε) (room : Nat) : ReadResult ε × ArcRecver ε × Option MaxStreamDataFrame :=
  match s with
  | .error e => (.error (.connection e), .error e, none)
  | .ok (.recv r) =>
    let read := r.pollRead room
    (readResult read.1, .ok (.recv read.2.1), read.2.2)
  | .ok (.sizeKnown r) =>
    let (out, r) := r.pollRead room
    (readResult out, .ok (.sizeKnown r), none)
  | .ok (.dataRcvd r) =>
    let (out, r) := r.pollRead room
    (.data out, .ok (if r.isAllRead then .dataRead else .dataRcvd r), none)
  | .ok .dataRead => (.data [], .ok .dataRead, none)
  | .ok (.resetRcvd frame) =>
    let error := ResetStreamError.ofFrame frame
    (.error (.reset error), .ok (.resetRead error), none)
  | .ok (.resetRead error) => (.error (.reset error), .ok (.resetRead error), none)

def pollNext (s : ArcRecver ε) : ReadResult ε × ArcRecver ε × Option MaxStreamDataFrame :=
  match s with
  | .error e => (.error (.connection e), .error e, none)
  | .ok (.recv r) =>
    let read := r.pollNext
    (readResult read.1, .ok (.recv read.2.1), read.2.2)
  | .ok (.sizeKnown r) =>
    let (out, r) := r.pollNext
    (readResult out, .ok (.sizeKnown r), none)
  | .ok (.dataRcvd r) =>
    match r.pollNext with
    | (none, r) => (.eof, .ok (.dataRcvd r), none)
    | (some bytes, r) => (.data bytes, .ok (if r.isAllRead then .dataRead else .dataRcvd r), none)
  | .ok .dataRead => (.eof, .ok .dataRead, none)
  | .ok (.resetRcvd frame) =>
    let error := ResetStreamError.ofFrame frame
    (.error (.reset error), .ok (.resetRead error), none)
  | .ok (.resetRead error) => (.error (.reset error), .ok (.resetRead error), none)

/-- Ask the peer to stop, as long as not everything is received. -/
def stop (s : ArcRecver ε) (errorCode : Nat) : Option (ArcRecver ε × Option StopSendingFrame) := do
  debugAssert (errorCode ≤ varintMax)
  match s with
  | .ok (.recv r) => do
    let (r, frame) ← r.stop errorCode
    some (.ok (.recv r), frame)
  | .ok (.sizeKnown r) => do
    let (r, frame) ← r.stop errorCode
    some (.ok (.sizeKnown r), frame)
  | s => some (s, none)

end Reader

end Dquic
