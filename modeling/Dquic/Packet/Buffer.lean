import Dquic.Packet.Header
import Dquic.Packet.Metadata
import Dquic.Packet.Number

/-!
# The window of a packet

`PacketBuffer` of `qbase/src/packet/assemble.rs`: a window into the datagram that is cut again for
each kind of frame, from the room that is left, the congestion credit and the least size of the
packet.
-/

namespace Dquic

open Lib

def Frame.guaranteed {δ : Type} : Frame δ → Bool
  | padding | ping | ack _ | close _ | pathChallenge _ | pathResponse _ | datagram _ _ | punchHello _ => false
  | _ => true

def Frame.withoutData {δ : Type} : Frame δ → Frame Unit
  | padding => .padding
  | ping => .ping
  | ack f => .ack f
  | close f => .close f
  | newToken f => .newToken f
  | newConnectionId f => .newConnectionId f
  | retireConnectionId f => .retireConnectionId f
  | handshakeDone => .handshakeDone
  | pathChallenge f => .pathChallenge f
  | pathResponse f => .pathResponse f
  | streamCtl f => .streamCtl f
  | stream f _ => .stream f ()
  | crypto f _ => .crypto f ()
  | datagram f _ => .datagram f ()
  | addAddress f => .addAddress f
  | removeAddress f => .removeAddress f
  | punchMeNow f => .punchMeNow f
  | punchHello f => .punchHello f
  | punchDone f => .punchDone f

def Frame.payload : Frame Bytes → Bytes
  | stream _ data => data
  | crypto _ data => data
  | datagram _ data => data
  | _ => []

/-- `Poll<Result<usize, Error>>`: the number of frames that a package has written. -/
inductive PollDump
  | pending
  | ready (result : Except QuicError Nat)

/-- `room` is what remains of the buffer behind the window, and `out` what was written to it. -/
structure PacketBuffer where
  room : Nat
  out : Bytes
  credit : Nat
  frames : List (Frame Unit)
  tagLen : Nat
  nwrote : Nat
  stop : Nat
  info : PacketMeta
  minSize : Nat
  validationMinSize : Nat
  pnOffset : Nat
  finished : Bool

def FrameType.isPathValidation : FrameType → Bool
  | pathChallenge | pathResponse => true
  | _ => false

def FrameType.finishes : FrameType → Bool
  | connectionClose _ | stream _ .omitted _ => true
  | datagram withLen => withLen = 0
  | _ => false

/-- The bytes in front of the payload: the header, room for the length of a long packet, and the packet number. -/
def DataHeader.head (header : DataHeader) (pn : PacketNumber) : Option Bytes := do
  let bytes ← header.put
  some (bytes ++ ((if header.isLong then [0, 0] else []) ++ toBE pn.size pn.truncated))

namespace PacketBuffer

def new (room credit : Nat) (frames : List (Frame Unit)) (pktype : PacketType) (nwrote tagLen : Nat) : PacketBuffer where
  room := room
  out := []
  credit := credit
  frames := frames
  tagLen := tagLen
  nwrote := nwrote
  stop := nwrote + room - tagLen
  info := .new pktype
  minSize := 0
  validationMinSize := 0
  pnOffset := 0
  finished := false

def scope (b : PacketBuffer) (validationMinSize : Nat) : PacketBuffer := { b with validationMinSize := validationMinSize }

def remainingMut (b : PacketBuffer) : Nat := min (b.stop - b.nwrote) b.room

/-- Write bytes. `advance_mut` asserts that they are inside the window. -/
def putSlice (b : PacketBuffer) (bytes : Bytes) : Option PacketBuffer := do
  debugAssert (bytes.length ≤ b.remainingMut)
  some { b with room := b.room - bytes.length, out := b.out ++ bytes, nwrote := b.nwrote + bytes.length }

/-- Write the header and the packet number, if the packet can become long enough to be sampled. -/
def begin (b : PacketBuffer) (header : DataHeader) (pn : PacketNumber) : Option (Bool × PacketBuffer) := do
  let pnOffset ← header.pnOffset
  let b := { b with
    info := { b.info with pktype := header.packetType }, pnOffset := pnOffset, minSize := pnOffset + 4 + 16 }
  if b.remainingMut < pnOffset + pn.size ∨ b.nwrote + b.room < b.minSize then some (false, b)
  else do
    let bytes ← header.put
    let length := if header.isLong then [0, 0] else []
    let b ← b.putSlice (bytes ++ (length ++ toBE pn.size pn.truncated))
    some (true, b)

def finish (b : PacketBuffer) : PacketBuffer := { b with finished := true }

def putFrame (b : PacketBuffer) (frame : Frame Bytes) : Option PacketBuffer := do
  let bytes ← Dquic.putFrame b.remainingMut frame
  b.putSlice bytes

/-- How far a frame of this type may go. Frames that count against congestion, and all that follow them, stay below the
credit. -/
def limit (b : PacketBuffer) (fty : FrameType) : Nat :=
  if b.info.inFlight ∨ ¬ fty.specs.congestionControlFree then min (b.nwrote + b.room) b.credit else b.nwrote + b.room

def minSizeFor (b : PacketBuffer) (fty : FrameType) : Nat :=
  if fty.isPathValidation then max b.minSize b.validationMinSize else b.minSize

/-- Cut the window for a frame. It is closed if the frame may not stand here, or if the packet cannot get its size. -/
def forFrame (b : PacketBuffer) (fty : FrameType) : PacketBuffer :=
  if ¬ fty.belongsTo b.info.pktype ∨ b.finished then { b with stop := b.nwrote }
  else { b with stop := if b.limit fty < b.minSizeFor fty then b.nwrote else b.limit fty - b.tagLen }

def record {δ : Type} (b : PacketBuffer) (frame : Frame δ) : PacketBuffer :=
  { b with
    info := b.info.record frame
    minSize := b.minSizeFor frame.frameType
    finished := b.finished || frame.frameType.finishes
    frames := if frame.guaranteed then b.frames ++ [frame.withoutData] else b.frames }

def canFit (b : PacketBuffer) (size : Nat) : Prop :=
  size ≤ b.remainingMut ∧ (b.minSize ≤ b.nwrote + size + b.tagLen ∨ b.minSize ≤ b.credit)

instance (b : PacketBuffer) (size : Nat) : Decidable (b.canFit size) := inferInstanceAs (Decidable (_ ∧ _))

/-- `poll_dump` of a single frame, with or without data. -/
def pollFrame (b : PacketBuffer) (frame : Frame Bytes) : Option (Except QuicError Nat × PacketBuffer) :=
  if ¬ frame.frameType.belongsTo b.info.pktype then
    some (.error (.withDefaultFty .internal "frame does not belong to packet type"), b)
  else do
    let b := b.forFrame frame.frameType
    let size ← frame.encodingSize
    if ¬ b.canFit (size + frame.payload.length) then some (.ok 0, b)
    else do
      let b ← b.putFrame frame
      some (.ok 1, b.record frame)

end PacketBuffer

end Dquic
