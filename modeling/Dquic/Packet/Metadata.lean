import Dquic.Frame.Frames

/-!
# What a packet holds

`PacketContent` of `qbase/src/packet.rs` and `Metadata` of `qbase/src/packet/assemble.rs`: what is
kept of the frames that were written into a packet.
-/

namespace Dquic

inductive PacketContent
  | nonAckEliciting
  | justPing
  | effectivePayload
  deriving DecidableEq, Repr

namespace PacketContent

def rank : PacketContent → Nat
  | nonAckEliciting => 0
  | justPing => 1
  | effectivePayload => 2

def ofFrameType (fty : FrameType) : PacketContent :=
  if fty = .ping then justPing else if fty.specs.nonAckEliciting then nonAckEliciting else effectivePayload

/-- `AddAssign<FrameType>`. A PING that is not the first eliciting frame counts as payload. -/
def add (content : PacketContent) (fty : FrameType) : PacketContent :=
  if fty = .ping ∧ content = nonAckEliciting then justPing
  else if fty.specs.nonAckEliciting then content
  else effectivePayload

end PacketContent

/-- What `on_sealed` keeps of the metadata of a packet. -/
structure Metadata where
  content : PacketContent
  inFlight : Bool
  ack : Option Nat
  deriving DecidableEq, Repr

structure PacketMeta extends Metadata where
  pktype : PacketType
  nframes : Nat
  deriving DecidableEq, Repr

namespace PacketMeta

def new (pktype : PacketType) : PacketMeta := ⟨⟨.nonAckEliciting, false, none⟩, pktype, 0⟩

def largestAck {δ : Type} (ack : Option Nat) : Frame δ → Option Nat
  | .ack f =>
    match ack with
    | some old => some (max old f.largest.val)
    | none => some f.largest.val
  | _ => ack

def record {δ : Type} (m : PacketMeta) (frame : Frame δ) : PacketMeta :=
  { m with
    nframes := m.nframes + 1
    content := m.content.add frame.frameType
    inFlight := m.inFlight || !frame.frameType.specs.congestionControlFree
    ack := largestAck m.ack frame }

end PacketMeta

end Dquic
