import Dquic.Frame.Errors
import Dquic.Send.SendBuf

/-!
# The sending part of a stream

The states of `qrecovery/src/send/sender.rs` with what the application does to them through
`Writer` and the transport through `Outgoing`.
-/

namespace Dquic

/-- `ReadySender` and `SendingSender`, which have the same fields. -/
structure WritingSender where
  streamId : StreamId
  sndbuf : SendBuf
  shutdownWaker : Bool
  deriving DecidableEq, Repr

abbrev ReadySender := WritingSender

abbrev SendingSender := WritingSender

inductive FinState
  | sent
  | lost
  | rcvd
  deriving DecidableEq, Repr

structure DataSentSender where
  streamId : StreamId
  sndbuf : SendBuf
  shutdownWaker : Bool
  finState : FinState
  deriving DecidableEq, Repr

inductive Sender
  | ready (s : ReadySender)
  | sending (s : SendingSender)
  | dataSent (s : DataSentSender)
  | dataRcvd
  | resetSent (reset : ResetStreamError)
  | resetRcvd (reset : ResetStreamError)
  deriving DecidableEq, Repr

/-- Picked data: its range, whether it is fresh, the bytes, and whether it ends the stream. -/
structure StreamData where
  range : Range
  isFresh : Bool
  data : List Bytes
  isEos : Bool
  deriving DecidableEq, Repr

namespace WritingSender

def new (streamId : StreamId) (bufSize : Nat) : WritingSender := ⟨streamId, SendBuf.withCapacity bufSize, false⟩

/-- Nothing can be written once `shutdown` was called. -/
def write {ε : Type} (s : WritingSender) (data : Bytes) : Option (Except (StreamError ε) Unit × WritingSender) :=
  if s.shutdownWaker then some (.error .finished, s)
  else do
    let sndbuf ← s.sndbuf.write data
    some (.ok (), { s with sndbuf := sndbuf })

def updateWindow (s : WritingSender) (maxStreamData : Nat) : Option WritingSender :=
  if s.sndbuf.maxData < maxStreamData then do
    let sndbuf ← s.sndbuf.extend maxStreamData
    some { s with sndbuf := sndbuf }
  else some s

def pollShutdown (s : WritingSender) : WritingSender := { s with shutdownWaker := true }

/-- `ReadySender::upgrade`. -/
def upgradeReady (s : ReadySender) : SendingSender := s

def totalSize (s : SendingSender) : Option Nat := if s.shutdownWaker then some s.sndbuf.written else none

/-- `SendingSender::pick_up`: data, or the end of the stream alone when all data was sent. -/
def pickUp (s : SendingSender) (predicate : Nat → Option Nat) (flowLimit : Nat) :
    Option (Except Poll StreamData × SendingSender) := do
  let totalSize := s.totalSize
  let sent := s.sndbuf.sent
  let (picked, sndbuf) ← s.sndbuf.pickUp predicate flowLimit
  let s := { s with sndbuf := sndbuf }
  match picked with
  | .ok (range, isFresh, data) => some (.ok ⟨range, isFresh, data, some range.stop = totalSize⟩, s)
  | .error availability =>
    if totalSize = some sent then
      match predicate sent with
      | none => some (.error .ready, s)
      | some _ => some (.ok ⟨⟨sent, sent⟩, false, [], true⟩, s)
    else some (.error availability, s)

def onDataAcked (s : SendingSender) (frame : StreamFrame) : Option SendingSender := do
  let sndbuf ← s.sndbuf.onDataAcked frame.range
  some { s with sndbuf := sndbuf }

def mayLossData (s : SendingSender) (frame : StreamFrame) : Option SendingSender := do
  let sndbuf ← s.sndbuf.mayLossData frame.range
  some { s with sndbuf := sndbuf }

/-- `SendingSender::upgrade`. -/
def upgrade (s : SendingSender) : DataSentSender := ⟨s.streamId, s.sndbuf, s.shutdownWaker, .sent⟩

/-- The error of a reset by the application. The frame that is sent combines it with the id. -/
def cancel (s : WritingSender) (errCode : Nat) : Option ResetStreamError := do
  let appErrorCode ← VarInt.fromU64 errCode
  let finalSize ← VarInt.fromU64 s.sndbuf.sent
  some ⟨appErrorCode, finalSize⟩

/-- `ReadySender::be_stopped`: no data is sent. -/
def beStoppedReady (s : ReadySender) : Option Nat := do
  debugAssert (s.sndbuf.sent = 0)
  some s.sndbuf.sent

/-- `SendingSender::be_stopped`. -/
def beStopped (s : SendingSender) : Nat := s.sndbuf.sent

end WritingSender

namespace DataSentSender

/-- `DataSentSender::pick_up`: lost data, or the end of the stream alone when it was lost. -/
def pickUp (s : DataSentSender) (predicate : Nat → Option Nat) (flowLimit : Nat) :
    Option (Except Poll StreamData × DataSentSender) := do
  let totalSize := s.sndbuf.written
  let (picked, sndbuf) ← s.sndbuf.pickUp predicate flowLimit
  let s := { s with sndbuf := sndbuf }
  match picked with
  | .ok (range, isFresh, data) => some (.ok ⟨range, isFresh, data, range.stop = totalSize⟩, s)
  | .error availability =>
    if s.finState = .lost then
      match predicate totalSize with
      | none => some (.error .ready, s)
      | some _ => some (.ok ⟨⟨totalSize, totalSize⟩, false, [], true⟩, { s with finState := .sent })
    else some (.error availability, s)

def isAllRcvd (s : DataSentSender) : Bool := s.sndbuf.isAllRcvd && s.finState = .rcvd

def onDataAcked (s : DataSentSender) (frame : StreamFrame) : Option DataSentSender := do
  let sndbuf ← s.sndbuf.onDataAcked frame.range
  let s := { s with sndbuf := sndbuf, finState := if frame.isFin then .rcvd else s.finState }
  some { s with shutdownWaker := if s.isAllRcvd then false else s.shutdownWaker }

def mayLossData (s : DataSentSender) (frame : StreamFrame) : Option DataSentSender := do
  let sndbuf ← s.sndbuf.mayLossData frame.range
  some { s with sndbuf := sndbuf, finState := if frame.isFin && s.finState ≠ .rcvd then .lost else s.finState }

def pollShutdown (s : DataSentSender) : Option DataSentSender := do
  debugAssert (s.isAllRcvd = false)
  some { s with shutdownWaker := true }

def cancel (s : DataSentSender) (errCode : Nat) : Option ResetStreamError := do
  let appErrorCode ← VarInt.fromU64 errCode
  let finalSize ← VarInt.fromU64 s.sndbuf.sent
  some ⟨appErrorCode, finalSize⟩

def beStopped (s : DataSentSender) : Nat := s.sndbuf.written

end DataSentSender

/-- `ArcSender`: the sender, or the error that ended its connection. -/
abbrev ArcSender (ε : Type) := Except ε Sender

namespace ArcSender

variable {ε : Type}

def new (streamId : StreamId) (bufSize : Nat) : ArcSender ε := .ok (.ready (WritingSender.new streamId bufSize))

def updateWindow (s : ArcSender ε) (maxStreamData : Nat) : Option (ArcSender ε) := do
  debugAssert (maxStreamData ≤ varintMax)
  match s with
  | .ok (.ready s) => do some (.ok (.ready (← s.updateWindow maxStreamData)))
  | .ok (.sending s) => do some (.ok (.sending (← s.updateWindow maxStreamData)))
  | s => some s

end ArcSender

namespace Writer

variable {ε : Type}

def write (s : ArcSender ε) (data : Bytes) : Option (Except (StreamError ε) Unit × ArcSender ε) :=
  match s with
  | .error e => some (.error (.connection e), .error e)
  | .ok (.ready s) => do
    let (res, s) ← s.write data
    some (res, .ok (.ready s))
  | .ok (.sending s) => do
    let (res, s) ← s.write data
    some (res, .ok (.sending s))
  | .ok (.dataSent s) => some (.error .finished, .ok (.dataSent s))
  | .ok .dataRcvd => some (.error .finished, .ok .dataRcvd)
  | .ok (.resetSent reset) => some (.error (.reset reset), .ok (.resetSent reset))
  | .ok (.resetRcvd reset) => some (.error (.reset reset), .ok (.resetRcvd reset))

/-- The first component is the answer, `none` while the end is not acknowledged. -/
def pollShutdown (s : ArcSender ε) : Option (Option (Except (StreamError ε) Unit) × ArcSender ε) :=
  match s with
  | .error e => some (some (.error (.connection e)), .error e)
  | .ok (.ready s) => some (none, .ok (.ready s.pollShutdown))
  | .ok (.sending s) => some (none, .ok (.sending s.pollShutdown))
  | .ok (.dataSent s) => do
    let s ← s.pollShutdown
    some (none, .ok (.dataSent s))
  | .ok .dataRcvd => some (some (.ok ()), .ok .dataRcvd)
  | .ok (.resetSent reset) => some (some (.error (.reset reset)), .ok (.resetSent reset))
  | .ok (.resetRcvd reset) => some (some (.error (.reset reset)), .ok (.resetRcvd reset))

/-- The RESET_STREAM frame that is sent, unless the stream is already closed or reset. -/
def cancel (s : ArcSender ε) (errCode : Nat) : Option (Option ResetStreamFrame × ArcSender ε) :=
  match s with
  | .ok (.ready s) => do
    let error ← s.cancel errCode
    some (some (error.combine s.streamId), .ok (.resetSent error))
  | .ok (.sending s) => do
    let error ← s.cancel errCode
    some (some (error.combine s.streamId), .ok (.resetSent error))
  | .ok (.dataSent s) => do
    let error ← s.cancel errCode
    some (some (error.combine s.streamId), .ok (.resetSent error))
  | s => some (none, s)

end Writer

/-- A frame as `poll_dump` writes it, with the credit and budget it leaves. -/
structure Dump where
  prePadding : Nat
  frame : StreamFrame
  data : List Bytes
  credit : Nat
  budget : Nat
  deriving DecidableEq, Repr

namespace Outgoing

variable {ε : Type}

/-- The room a frame at `offset` has, within the budget of the caller. -/
def predicate (capacity budget : Nat) (sid : StreamId) (offset : Nat) : Option Nat :=
  (StreamFrame.estimateMaxCapacity capacity sid offset).map (fun n => min n budget)

/-- The closure `write` of `poll_dump`. The packet must have room for the padding and the frame. -/
def write (sid : StreamId) (capacity credit budget : Nat) (p : StreamData) : Option Dump := do
  let length ← checkedSub p.range.stop p.range.start
  let frame ← StreamFrame.new sid p.range.start length
  let frame := frame.setEosFlag p.isEos
  let strategy ← frame.encodingStrategy capacity
  let frame := frame.setLenBit strategy.lenBit
  let size ← frame.encodingSize
  debugAssert (strategy.prePadding + size + frame.length ≤ capacity)
  let budget ← checkedSub budget frame.length
  let credit ← if p.isFresh then checkedSub credit frame.length else some credit
  some ⟨strategy.prePadding, frame, p.data, credit, budget⟩

def writePicked (sid : StreamId) (capacity credit budget : Nat) : Except Poll StreamData → Option (Except Poll Dump)
  | .ok p => do some (.ok (← write sid capacity credit budget p))
  | .error availability => some (.error availability)

def finishing (s : SendingSender) : Except Poll StreamData → Sender
  | .ok p => if p.isEos then .dataSent s.upgrade else .sending s
  | .error _ => .sending s

/-- `poll_dump` writes at most one frame. `.error .ready` stands for `Ready(Ok(0))`. -/
def pollDump (s : ArcSender ε) (capacity credit budget : Nat) : Option (Except Poll Dump × ArcSender ε) :=
  match s with
  | .error e => some (.error .ready, .error e)
  | .ok (.ready s) => do
    let s := s.upgradeReady
    let (picked, s) ← s.pickUp (predicate capacity budget s.streamId) credit
    let dump ← writePicked s.streamId capacity credit budget picked
    some (dump, .ok (finishing s picked))
  | .ok (.sending s) => do
    let (picked, s) ← s.pickUp (predicate capacity budget s.streamId) credit
    let dump ← writePicked s.streamId capacity credit budget picked
    some (dump, .ok (finishing s picked))
  | .ok (.dataSent s) => do
    let (picked, s) ← s.pickUp (predicate capacity budget s.streamId) credit
    let dump ← writePicked s.streamId capacity credit budget picked
    some (dump, .ok (.dataSent s))
  | .ok s => some (.error .pending, .ok s)

/-- Whether the stream is now completely acknowledged. Nothing can be acknowledged before it is sent. -/
def onDataAcked (s : ArcSender ε) (frame : StreamFrame) : Option (Bool × ArcSender ε) :=
  match s with
  | .ok (.ready _) => none
  | .ok (.sending s) => do some (false, .ok (.sending (← s.onDataAcked frame)))
  | .ok (.dataSent s) => do
    let s ← s.onDataAcked frame
    if s.isAllRcvd then some (true, .ok .dataRcvd) else some (false, .ok (.dataSent s))
  | s => some (false, s)

def mayLossData (s : ArcSender ε) (frame : StreamFrame) : Option (ArcSender ε) :=
  match s with
  | .ok (.ready _) => none
  | .ok (.sending s) => do some (.ok (.sending (← s.mayLossData frame)))
  | .ok (.dataSent s) => do some (.ok (.dataSent (← s.mayLossData frame)))
  | s => some s

def resetAt (errorCode finalSize : Nat) : Option (Option Nat × ArcSender ε) := do
  let appErrorCode ← VarInt.fromU64 errorCode
  let size ← VarInt.fromU64 finalSize
  some (some finalSize, .ok (.resetSent ⟨appErrorCode, size⟩))

/-- The final size of a stream that STOP_SENDING resets. A stream that is closed already is left alone. -/
def beStopped (s : ArcSender ε) (errorCode : Nat) : Option (Option Nat × ArcSender ε) :=
  match s with
  | .ok (.ready s) => do resetAt errorCode (← s.beStoppedReady)
  | .ok (.sending s) => resetAt errorCode s.beStopped
  | .ok (.dataSent s) => resetAt errorCode s.beStopped
  | s => some (none, s)

/-- Without a RESET_STREAM frame there is nothing to acknowledge. -/
def onResetAcked (s : ArcSender ε) : Option (ArcSender ε) :=
  match s with
  | .ok (.resetSent reset) => some (.ok (.resetRcvd reset))
  | .ok (.resetRcvd reset) => some (.ok (.resetRcvd reset))
  | .ok _ => none
  | .error e => some (.error e)

/-- The end of the connection ends what is not closed. -/
def onError (s : ArcSender ε) (err : ε) : ArcSender ε :=
  match s with
  | .ok (.ready _) => .error err
  | .ok (.sending _) => .error err
  | .ok (.dataSent _) => .error err
  | s => s

end Outgoing

end Dquic
