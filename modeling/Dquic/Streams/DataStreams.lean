import Dquic.Flow.Controller
import Dquic.Recv.Recver
import Dquic.Send.Sender
import Dquic.Streams.Sid

/-!
# The streams of a connection

`DataStreams` (`qrecovery/src/streams.rs` and `qrecovery/src/streams/`) keeps the halves of all
streams: a map of those that may still send and a map of those that may still receive.
-/

namespace Dquic

/-! ### Panics -/

/-- How a call of the stream layer ends that does not return. -/
inductive Panic
  /-- An `unreachable!()` of `Outgoing` or `Incoming`. -/
  | unreachable
  | other
  deriving DecidableEq, Repr

abbrev Call (α : Type) := Except Panic α

namespace Call

variable {α : Type}

def of : Option α → Call α
  | some a => .ok a
  | none => .error .other

/-- A call whose only panic is an `unreachable!()`. -/
def reaching : Option α → Call α
  | some a => .ok a
  | none => .error .unreachable

end Call

/-! ### The state of one stream -/

/-- The bits of `IOState`: which halves of a stream are open. -/
structure IOState where
  sending : Bool
  receiving : Bool
  deriving DecidableEq, Repr

namespace IOState

def sendOnly : IOState := ⟨true, false⟩

def receiveOnly : IOState := ⟨false, true⟩

def bidirection : IOState := ⟨true, true⟩

def isTerminated (io : IOState) : Bool := !io.sending && !io.receiving

def shutdownSend (io : IOState) : IOState := { io with sending := false }

def shutdownReceive (io : IOState) : IOState := { io with receiving := false }

end IOState

/-- A stream that was created. Its halves are shared with the application. -/
structure StreamEntry (ε : Type) where
  sender : Option (ArcSender ε)
  recver : Option (ArcRecver ε)
  io : IOState
  /-- Whether the output map holds the sender. -/
  outgoing : Bool
  /-- Whether the input map holds the receiver. -/
  incoming : Bool

/-- The end of the connection reaches the halves that the maps hold, and the maps are gone. -/
def StreamEntry.fail {ε : Type} (e : StreamEntry ε) (err : ε) : StreamEntry ε where
  sender := if e.outgoing then e.sender.map (Outgoing.onError · err) else e.sender
  recver := if e.incoming then e.recver.map (Incoming.onError · err) else e.recver
  io := e.io
  outgoing := false
  incoming := false

namespace ArcSender

variable {ε : Type}

def isReady : ArcSender ε → Bool
  | .ok (.ready _) => true
  | _ => false

end ArcSender

/-! ### All streams -/

/-- The transport parameters of one endpoint that are about streams. -/
structure StreamParameters where
  initialMaxData : VarInt
  initialMaxStreamDataBidiLocal : VarInt
  initialMaxStreamDataBidiRemote : VarInt
  initialMaxStreamDataUni : VarInt
  initialMaxStreams : Dir → VarInt

structure DataStreams (ε κ : Type) where
  role : Role
  /-- Our own parameters. -/
  parameters : StreamParameters
  /-- The parameters of the peer. -/
  remoteParameters : StreamParameters
  localIds : LocalStreamIds
  remoteIds : RemoteStreamIds κ
  streams : StreamId → Option (StreamEntry ε)
  /-- The error that has replaced the maps and the listener. -/
  closed : Option ε
  /-- The streams that the application has not accepted yet. -/
  biStreams : List StreamId
  uniStreams : List StreamId
  flowSender : SendControler
  flowRecver : RecvController

/-- What leaves the streams, and what the strategy for the limits is told. -/
inductive StreamsEvent
  | data (frame : StreamFrame)
  | ctrl (frame : StreamCtlFrame)
  | ended (sid : StreamId)
  deriving DecidableEq, Repr

namespace DataStreams

variable {ε κ : Type}

def new (role : Role) (parameters remoteParameters : StreamParameters) (ctrl : κ) : DataStreams ε κ where
  role := role
  parameters := parameters
  remoteParameters := remoteParameters
  localIds := LocalStreamIds.new role fun dir => (remoteParameters.initialMaxStreams dir).val
  remoteIds := RemoteStreamIds.new role.not (fun dir => (parameters.initialMaxStreams dir).val) ctrl
  streams := fun _ => none
  closed := none
  biStreams := []
  uniStreams := []
  flowSender := SendControler.new remoteParameters.initialMaxData.val
  flowRecver := RecvController.new parameters.initialMaxData.val

def put (d : DataStreams ε κ) (sid : StreamId) (e : StreamEntry ε) : DataStreams ε κ :=
  { d with streams := Function.update d.streams sid (some e) }

def outgoing (d : DataStreams ε κ) (sid : StreamId) : Option (StreamEntry ε × ArcSender ε) := do
  let e ← d.streams sid
  let s ← e.sender
  if e.outgoing then some (e, s) else none

def incoming (d : DataStreams ε κ) (sid : StreamId) : Option (StreamEntry ε × ArcRecver ε) := do
  let e ← d.streams sid
  let s ← e.recver
  if e.incoming then some (e, s) else none

def onOutgoing (d : DataStreams ε κ) (sid : StreamId) (f : ArcSender ε → Call (ArcSender ε × List StreamsEvent)) :
    Call (DataStreams ε κ × List StreamsEvent) :=
  match d.outgoing sid with
  | none => .ok (d, [])
  | some (e, s) => do
    let (s, events) ← f s
    .ok (d.put sid { e with sender := some s }, events)

/-- A call on the sender that the application or the listener holds. -/
def onSender (d : DataStreams ε κ) (sid : StreamId) (f : ArcSender ε → Call (ArcSender ε × List StreamsEvent)) :
    Call (DataStreams ε κ × List StreamsEvent) :=
  match d.streams sid with
  | none => .ok (d, [])
  | some e =>
    match e.sender with
    | none => .ok (d, [])
    | some s => do
      let (s, events) ← f s
      .ok (d.put sid { e with sender := some s }, events)

def onRecver (d : DataStreams ε κ) (sid : StreamId) (f : ArcRecver ε → Call (ArcRecver ε × List StreamsEvent)) :
    Call (DataStreams ε κ × List StreamsEvent) :=
  match d.streams sid with
  | none => .ok (d, [])
  | some e =>
    match e.recver with
    | none => .ok (d, [])
    | some s => do
      let (s, events) ← f s
      .ok (d.put sid { e with recver := some s }, events)

/-! ### Creating streams -/

/-- The body of the loop of `try_accept_bi_sid` and of `try_accept_uni_sid`. The window of the
sender is set when the application accepts the stream. -/
def create (d : DataStreams ε κ) (sid : StreamId) : DataStreams ε κ :=
  match sid.dir with
  | .bi =>
    let recver := ArcRecver.new sid d.parameters.initialMaxStreamDataBidiRemote.val
    let sender := ArcSender.new sid 0
    { d.put sid ⟨some sender, some recver, .bidirection, true, true⟩ with biStreams := d.biStreams ++ [sid] }
  | .uni =>
    let recver := ArcRecver.new sid d.parameters.initialMaxStreamDataUni.val
    { d.put sid ⟨none, some recver, .receiveOnly, false, true⟩ with uniStreams := d.uniStreams ++ [sid] }

def limitEvents (frame : Option MaxStreamsFrame) : List StreamsEvent := frame.toList.map fun f => .ctrl (.maxStreams f)

def pollOpenBiWithLimit (d : DataStreams ε κ) (sndBufSize : Nat) :
    Call (Except ε AllocSid × DataStreams ε κ × List StreamsEvent) :=
  match d.closed with
  | some err => .ok (.error err, d, [])
  | none => do
    let (alloc, localIds) ← Call.of (d.localIds.pollAllocSid .bi)
    let d := { d with localIds := localIds }
    match alloc with
    | .allocated sid =>
      let sender := ArcSender.new sid sndBufSize
      let recver := ArcRecver.new sid d.parameters.initialMaxStreamDataBidiLocal.val
      .ok (.ok alloc, d.put sid ⟨some sender, some recver, .bidirection, true, true⟩, [])
    | .exhausted => .ok (.ok alloc, d, [])
    | .blocked frame => .ok (.ok alloc, d, [.ctrl (.streamsBlocked frame)])

def pollOpenUniWithLimit (d : DataStreams ε κ) (sndBufSize : Nat) :
    Call (Except ε AllocSid × DataStreams ε κ × List StreamsEvent) :=
  match d.closed with
  | some err => .ok (.error err, d, [])
  | none => do
    let (alloc, localIds) ← Call.of (d.localIds.pollAllocSid .uni)
    let d := { d with localIds := localIds }
    match alloc with
    | .allocated sid =>
      let sender := ArcSender.new sid sndBufSize
      .ok (.ok alloc, d.put sid ⟨some sender, none, .sendOnly, true, false⟩, [])
    | .exhausted => .ok (.ok alloc, d, [])
    | .blocked frame => .ok (.ok alloc, d, [.ctrl (.streamsBlocked frame)])

/-- `poll_accept_bi_stream` gives the sender the window of the peer. -/
def acceptBi (d : DataStreams ε κ) : Call (Except ε (Option StreamId) × DataStreams ε κ × List StreamsEvent) :=
  match d.closed, d.biStreams with
  | some err, _ => .ok (.error err, d, [])
  | none, [] => .ok (.ok none, d, [])
  | none, sid :: rest => do
    let (d, events) ← ({ d with biStreams := rest } : DataStreams ε κ).onSender sid fun s => do
      let s ← Call.of (s.updateWindow d.remoteParameters.initialMaxStreamDataBidiLocal.val)
      .ok (s, [])
    .ok (.ok (some sid), d, events)

def acceptUni (d : DataStreams ε κ) : Except ε (Option StreamId) × DataStreams ε κ :=
  match d.closed, d.uniStreams with
  | some err, _ => (.error err, d)
  | none, [] => (.ok none, d)
  | none, sid :: rest => (.ok (some sid), { d with uniStreams := rest })

variable [ControlStreamsConcurrency κ]

def tryAcceptSid (d : DataStreams ε κ) (sid : StreamId) :
    Call (Except ExceedLimitError Unit × DataStreams ε κ × List StreamsEvent) :=
  if d.closed.isSome then .ok (.ok (), d, [])
  else do
    let (res, remoteIds, frame) ← Call.of (d.remoteIds.tryAcceptSid sid)
    let d := { d with remoteIds := remoteIds }
    match res with
    | .error e => .ok (.error e, d, limitEvents frame)
    | .ok .old => .ok (.ok (), d, limitEvents frame)
    | .ok (.new needCreate) => .ok (.ok (), needCreate.ids.foldl create d, limitEvents frame)

/-! ### Ending streams -/

/-- The strategy is told about a stream whose bits are all clear. It ignores the streams of this
endpoint, so only those of the peer are recorded. -/
def endOfStream (remoteIds : RemoteStreamIds κ) (io : IOState) (sid : StreamId) :
    Call (RemoteStreamIds κ × List StreamsEvent) :=
  if io.isTerminated then do
    let (remoteIds', frame) ← Call.of (remoteIds.onEndOfStream sid)
    .ok (remoteIds', (if sid.role = remoteIds.role then [.ended sid] else []) ++ limitEvents frame)
  else .ok (remoteIds, [])

/-- The entry of a stream, one of whose halves was just shut down. -/
def finish (d : DataStreams ε κ) (sid : StreamId) (e : StreamEntry ε) : Call (DataStreams ε κ × List StreamsEvent) := do
  let (remoteIds, events) ← endOfStream d.remoteIds e.io sid
  .ok ({ d.put sid e with remoteIds := remoteIds }, events)

/-- Nothing can be acknowledged before it is sent. -/
def onDataAcked (d : DataStreams ε κ) (frame : StreamFrame) : Call (DataStreams ε κ × List StreamsEvent) :=
  match d.outgoing frame.id with
  | none => .ok (d, [])
  | some (e, s) => do
    let (isAllRcvd, s) ←
      if s.isReady then .error Panic.unreachable else Call.of (Outgoing.onDataAcked s frame)
    if isAllRcvd then
      d.finish frame.id { e with sender := some s, io := e.io.shutdownSend, outgoing := false }
    else .ok (d.put frame.id { e with sender := some s }, [])

def mayLossData (d : DataStreams ε κ) (frame : StreamFrame) : Call (DataStreams ε κ × List StreamsEvent) :=
  d.onOutgoing frame.id fun s => do
    let s ← if s.isReady then .error Panic.unreachable else Call.of (Outgoing.mayLossData s frame)
    .ok (s, [])

def onResetAcked (d : DataStreams ε κ) (frame : ResetStreamFrame) : Call (DataStreams ε κ × List StreamsEvent) :=
  match d.outgoing frame.streamId with
  | none => .ok (d, [])
  | some (e, s) => do
    let s ← Call.reaching (Outgoing.onResetAcked s)
    d.finish frame.streamId { e with sender := some s, io := e.io.shutdownSend, outgoing := false }

/-! ### Frames of the peer -/

end DataStreams

/-- The outcome of a handler, which may fail with an error and leaves the streams as far as it came. -/
abbrev Handled (ε κ α : Type) := Except QuicError α × DataStreams ε κ × List StreamsEvent

/-- The operator `?`. -/
def Call.andThen {ε κ α β : Type} (x : Call (Handled ε κ α)) (f : α → DataStreams ε κ → Call (Handled ε κ β)) :
    Call (Handled ε κ β) := do
  let (res, d, events) ← x
  match res with
  | .error e => .ok (.error e, d, events)
  | .ok a => do
    let (res, d, more) ← f a d
    .ok (res, d, events ++ more)

namespace DataStreams

variable {ε κ : Type} [ControlStreamsConcurrency κ]

/-- `try_accept_sid` with `wrapper_error`. -/
def acceptOr (d : DataStreams ε κ) (sid : StreamId) (fty : FrameType) : Call (Handled ε κ Unit) := do
  let (res, d, events) ← d.tryAcceptSid sid
  match res with
  | .error e => .ok (.error ⟨.streamLimit, fty, e.display⟩, d, events)
  | .ok () => .ok (.ok (), d, events)

/-- A frame that only the sender of a stream may send. -/
def fromSender (d : DataStreams ε κ) (sid : StreamId) (fty : FrameType) (name : String) : Call (Handled ε κ Unit) :=
  if sid.role ≠ d.role then d.acceptOr sid fty
  else if sid.dir = .uni then
    .ok (.error ⟨.streamState, fty, "local " ++ sid.display ++ " cannot receive " ++ name⟩, d, [])
  else .ok (.ok (), d, [])

/-- A frame that only the receiver of a stream may send. -/
def fromReceiver (d : DataStreams ε κ) (sid : StreamId) (fty : FrameType) (name : String) : Call (Handled ε κ Unit) :=
  if sid.role ≠ d.role then
    if sid.dir = .uni then
      .ok (.error ⟨.streamState, fty, "remote " ++ sid.display ++ " must not send " ++ name⟩, d, [])
    else d.acceptOr sid fty
  else .ok (.ok (), d, [])

def onNewRcvd (d : DataStreams ε κ) (frameType : FrameType) (amount : Nat) : Call (Handled ε κ Nat) := do
  let (res, flowRecver, frame) ← Call.of (d.flowRecver.onNewRcvd frameType amount)
  .ok (res, { d with flowRecver := flowRecver }, frame.toList.map fun f => .ctrl (.maxData f))

def deliver (d : DataStreams ε κ) (frame : StreamFrame) (body : Bytes) : Call (Handled ε κ Nat) :=
  match d.incoming frame.id with
  | none => .ok (.ok 0, d, [])
  | some (e, s) => do
    let (res, s) ← Call.of (Incoming.recvData s frame body)
    match res with
    | .error err => .ok (.error err, d.put frame.id { e with recver := some s }, [])
    | .ok (isIntoRcvd, freshData) =>
      if isIntoRcvd then do
        let (d, events) ←
          d.finish frame.id { e with recver := some s, io := e.io.shutdownReceive, incoming := false }
        .ok (.ok freshData, d, events)
      else .ok (.ok freshData, d.put frame.id { e with recver := some s }, [])

def recvData (d : DataStreams ε κ) (frame : StreamFrame) (body : Bytes) : Call (Handled ε κ Nat) :=
  if d.closed.isSome then .ok (.ok 0, d, [])
  else
    (d.fromSender frame.id frame.frameType "STREAM_FRAME").andThen fun _ d =>
      (d.deliver frame body).andThen fun fresh d => d.onNewRcvd frame.frameType fresh

/-- A reset takes the receiver out of the input map first, and leaves it out when the reset is wrong. -/
def resetIncoming (d : DataStreams ε κ) (frame : ResetStreamFrame) : Call (Handled ε κ Nat) :=
  match d.incoming frame.streamId with
  | none => .ok (.ok 0, d, [])
  | some (e, s) => do
    let (res, s) ← Call.reaching (Incoming.recvReset s frame)
    match res with
    | .error err => .ok (.error err, d.put frame.streamId { e with recver := some s, incoming := false }, [])
    | .ok freshData => do
      let (d, events) ←
        d.finish frame.streamId { e with recver := some s, io := e.io.shutdownReceive, incoming := false }
      .ok (.ok freshData, d, events)

def stopOutgoing (d : DataStreams ε κ) (frame : StopSendingFrame) : Call (DataStreams ε κ × List StreamsEvent) :=
  d.onOutgoing frame.streamId fun s => do
    let (finalSize, s) ← Call.of (Outgoing.beStopped s frame.appErrCode.val)
    match finalSize with
    | none => .ok (s, [])
    | some finalSize => do
      let finalSize ← Call.of (VarInt.fromU64 finalSize)
      .ok (s, [.ctrl (.resetStream ⟨frame.streamId, frame.appErrCode, finalSize⟩)])

def updateWindow (d : DataStreams ε κ) (frame : MaxStreamDataFrame) : Call (DataStreams ε κ × List StreamsEvent) :=
  d.onOutgoing frame.streamId fun s => do
    let s ← Call.of (s.updateWindow frame.maxStreamData.val)
    .ok (s, [])

/-- The arms of `recv_stream_control` about streams, with what they use of the limit of the connection. -/
def control (d : DataStreams ε κ) : StreamCtlFrame → Call (Handled ε κ Nat)
  | .resetStream f =>
    (d.fromSender f.streamId .resetStream "RESET_STREAM frame").andThen fun _ d => d.resetIncoming f
  | .stopSending f =>
    (d.fromReceiver f.streamId .stopSending "STOP_SENDING_FRAME").andThen fun _ d => do
      let (d, events) ← d.stopOutgoing f
      .ok (.ok 0, d, events)
  | .maxStreamData f =>
    (d.fromReceiver f.streamId .maxStreamData "MAX_STREAM_DATA_FRAME").andThen fun _ d => do
      let (d, events) ← d.updateWindow f
      .ok (.ok 0, d, events)
  | .streamDataBlocked f =>
    (d.fromSender f.streamId .streamDataBlocked "STREAM_DATA_BLOCKED_FRAME").andThen fun _ d => .ok (.ok 0, d, [])
  | .maxStreams f => do
    let localIds ← Call.of (d.localIds.recvMaxStreamsFrame f)
    .ok (.ok 0, { d with localIds := localIds }, [])
  | .streamsBlocked f => do
    let (remoteIds, frame) ← Call.of (d.remoteIds.recvStreamsBlockedFrame f)
    .ok (.ok 0, { d with remoteIds := remoteIds }, limitEvents frame)
  | .maxData _ => .ok (.ok 0, d, [])
  | .dataBlocked _ => .ok (.ok 0, d, [])

/-- The frames about the limit of the connection are handled even when the maps are gone. -/
def recvStreamControl (d : DataStreams ε κ) (frame : StreamCtlFrame) : Call (Handled ε κ Nat) :=
  match frame with
  | .maxData f => .ok (.ok 0, { d with flowSender := d.flowSender.increaseLimit f.maxData.val }, [])
  | .dataBlocked _ => .ok (.ok 0, d, [])
  | frame =>
    if d.closed.isSome then .ok (.ok 0, d, [])
    else (d.control frame).andThen fun fresh d => d.onNewRcvd frame.frameType fresh

def onError (d : DataStreams ε κ) (err : ε) : DataStreams ε κ :=
  if d.closed.isSome then d
  else
    { d with
      streams := fun sid => (d.streams sid).map (·.fail err)
      closed := some err
      biStreams := []
      uniStreams := [] }

end DataStreams

/-! ### Operations -/

inductive StreamsOp (ε : Type)
  | recvData (frame : StreamFrame) (body : Bytes)
  | recvStreamControl (frame : StreamCtlFrame)
  | onDataAcked (frame : StreamFrame)
  | mayLossData (frame : StreamFrame)
  | onResetAcked (frame : ResetStreamFrame)
  | pollDump (sid : StreamId) (capacity credit budget : Nat)
  | openBi (sndBufSize : Nat)
  | openUni (sndBufSize : Nat)
  | acceptBi
  | acceptUni
  | write (sid : StreamId) (data : Bytes)
  | shutdown (sid : StreamId)
  | cancel (sid : StreamId) (errCode : Nat)
  | stop (sid : StreamId) (errorCode : Nat)
  | read (sid : StreamId) (room : Nat)
  | next (sid : StreamId)
  | onError (err : ε)

namespace DataStreams

variable {ε κ : Type} [ControlStreamsConcurrency κ]

/-- One call, as far as the streams and what leaves them are concerned. `DataStreams::poll_dump` calls
`Outgoing::poll_dump` on streams of the output map, one after the other: each of these is a call here. -/
def run (d : DataStreams ε κ) : StreamsOp ε → Call (DataStreams ε κ × List StreamsEvent)
  | .recvData frame body => do
    let (_, d, events) ← d.recvData frame body
    .ok (d, events)
  | .recvStreamControl frame => do
    let (_, d, events) ← d.recvStreamControl frame
    .ok (d, events)
  | .onDataAcked frame => d.onDataAcked frame
  | .mayLossData frame => d.mayLossData frame
  | .onResetAcked frame => d.onResetAcked frame
  | .pollDump sid capacity credit budget =>
    d.onOutgoing sid fun s => do
      let (dump, s) ← Call.of (Outgoing.pollDump s capacity credit budget)
      .ok (s, dump.toOption.toList.map fun dump => .data dump.frame)
  | .openBi sndBufSize => do
    let (_, d, events) ← d.pollOpenBiWithLimit sndBufSize
    .ok (d, events)
  | .openUni sndBufSize => do
    let (_, d, events) ← d.pollOpenUniWithLimit sndBufSize
    .ok (d, events)
  | .acceptBi => do
    let (_, d, events) ← d.acceptBi
    .ok (d, events)
  | .acceptUni => .ok (d.acceptUni.2, [])
  | .write sid data =>
    d.onSender sid fun s => do
      let (_, s) ← Call.of (Writer.write s data)
      .ok (s, [])
  | .shutdown sid =>
    d.onSender sid fun s => do
      let (_, s) ← Call.of (Writer.pollShutdown s)
      .ok (s, [])
  | .cancel sid errCode =>
    d.onSender sid fun s => do
      let (frame, s) ← Call.of (Writer.cancel s errCode)
      .ok (s, frame.toList.map fun f => .ctrl (.resetStream f))
  | .stop sid errorCode =>
    d.onRecver sid fun s => do
      let (s, frame) ← Call.of (Reader.stop s errorCode)
      .ok (s, frame.toList.map fun f => .ctrl (.stopSending f))
  | .read sid room =>
    d.onRecver sid fun s =>
      let (_, s, frame) := Reader.pollRead s room
      .ok (s, frame.toList.map fun f => .ctrl (.maxStreamData f))
  | .next sid =>
    d.onRecver sid fun s =>
      let (_, s, frame) := Reader.pollNext s
      .ok (s, frame.toList.map fun f => .ctrl (.maxStreamData f))
  | .onError err => .ok (d.onError err, [])

end DataStreams

end Dquic
