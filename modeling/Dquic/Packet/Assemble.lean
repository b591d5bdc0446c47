import Dquic.Packet.Sizes

/-!
# Assembling a packet

`Assemble` of `qbase/src/packet/assemble.rs` and `Packet` of `qtransport/src/packet/encrypt.rs`.
-/

namespace Dquic

open Lib

/-- What a source does to a packet. A frame is written through its own window, and padding as PADDING frames. -/
inductive Act
  | cut (fty : FrameType)
  | write (frame : Frame Bytes)
  | pad (n : Nat)
  | finish

def Act.WellSized : Act → Prop
  | write frame => frame.WellSized
  | _ => True

/-- `Package`: its content, the packets it goes into, and what it does when it is polled. -/
structure Source where
  content : PacketContent
  belongsTo : PacketType → Bool
  priority : Nat
  acts : PacketBuffer → List Act
  poll : PacketBuffer → PollDump
  sized : ∀ b, ∀ a ∈ acts b, a.WellSized

namespace PacketBuffer

/-- `put_bytes(0, n)` with its record, as senders fill the window in front of a frame. -/
def putPadding (b : PacketBuffer) (n : Nat) : Option PacketBuffer := do
  let b ← b.putSlice (List.replicate n 0)
  some (b.record (.padding : Frame Bytes))

def act (b : PacketBuffer) : Act → Option (List (Frame Bytes) × PacketBuffer)
  | .cut fty => some ([], b.forFrame fty)
  | .write frame => do
    let (result, b) ← b.pollFrame frame
    match result with
    | .ok 1 => some ([frame], b)
    | _ => some ([], b)
  | .pad n =>
    if n = 0 ∨ ¬ (b.forFrame .padding).canFit n then some ([], b.forFrame .padding)
    else do
      let b ← (b.forFrame .padding).putPadding n
      some (List.replicate n .padding, b)
  | .finish => some ([], b.finish)

def run (b : PacketBuffer) : List Act → Option (List (Frame Bytes) × PacketBuffer)
  | [] => some ([], b)
  | a :: as => do
    let (log, b) ← b.act a
    let (rest, b) ← b.run as
    some (log ++ rest, b)

end PacketBuffer

def Source.pollDump (s : Source) (b : PacketBuffer) : Option (PollDump × List (Frame Bytes) × PacketBuffer) := do
  let (log, b') ← b.run (s.acts b)
  some (s.poll b, log, b')

/-- A frame as a `Package` of its own, by `frame_packages`. -/
def Frame.source (frame : Frame Bytes) (h : frame.WellSized) : Source where
  content := .ofFrameType frame.frameType
  belongsTo := frame.frameType.belongsTo
  priority := 0
  acts _ := [.write frame]
  poll b := ((b.pollFrame frame).map fun r => PollDump.ready r.1).getD .pending
  sized _ a ha := by
    rw [List.mem_singleton.mp ha]
    exact h

namespace PacketBuffer

def pollSources (result : PollDump) (b : PacketBuffer) :
    List Source → Option (PollDump × List (Frame Bytes) × PacketBuffer)
  | [] => some (result, [], b)
  | s :: rest =>
    if b.finished then some (result, [], b)
    else do
      let (poll, log, b) ← s.pollDump b
      match poll with
      | .ready (.error e) => some (.ready (.error e), log, b)
      | .ready (.ok _) => do
        let (result, more, b) ← pollSources (.ready (.ok 0)) b rest
        some (result, log ++ more, b)
      | .pending => do
        let (result, more, b) ← pollSources result b rest
        some (result, log ++ more, b)

/-- The sources that are polled, those of equal priority in their order. -/
def queue (b : PacketBuffer) (content : PacketContent) (sources : List Source) : List Source :=
  (sources.insertionSort fun s t => t.priority ≤ s.priority).filter fun s =>
    s.belongsTo b.info.pktype && decide (s.content.rank ≤ content.rank)

def outcome (start : Nat) (result : PollDump) (b : PacketBuffer) : PollDump :=
  match result with
  | .ready (.error e) => .ready (.error e)
  | result => if start < b.info.nframes then .ready (.ok (b.info.nframes - start)) else result

def assemble (b : PacketBuffer) (content : PacketContent) (sources : List Source) :
    Option (PollDump × List (Frame Bytes) × PacketBuffer) :=
  if b.finished then some (.ready (.ok 0), [], b)
  else do
    let (result, log, b') ← pollSources .pending b (b.queue content sources)
    some (outcome b.info.nframes result b', log, b')

def fillSample (b : PacketBuffer) : Option (List (Frame Bytes) × PacketBuffer) := do
  let padding := b.pnOffset + 4 + 16 - (b.nwrote + b.tagLen)
  debugAssert (padding ≤ b.remainingMut)
  if 0 < padding then do
    let b ← b.putSlice (List.replicate padding 0)
    some (List.replicate padding .padding, { b with info := b.info.record (.padding : Frame Bytes) })
  else some ([], b)

end PacketBuffer

/-- How many frames a poll has written. Errors are left to those who own the sources. -/
def PollDump.written : PollDump → Nat
  | .ready (.ok n) => n
  | _ => 0

namespace Encrypt

structure Packet where
  header : DataHeader
  pn : Nat × PacketNumber
  info : PacketMeta
  tagLen : Nat
  cursor : Nat
  finished : Bool

/-- What `assemble` returns, where `none` is `Pending`, the bytes that it wrote behind the cursor, and the frames in
them. -/
structure Assembled where
  poll : Option (Nat × Nat)
  packet : Packet
  frames : List (Frame Unit)
  out : Bytes
  log : List (Frame Bytes)

namespace Packet

def new (header : DataHeader) (pn : Nat × PacketNumber) (tagLen : Nat) : Packet :=
  ⟨header, pn, .new header.packetType, tagLen, 0, false⟩

def len (p : Packet) : Nat := if p.info.nframes = 0 then 0 else p.cursor + p.tagLen

/-- The window at the start, after the header if the packet is new. -/
def window (p : Packet) (datagramLen offset credit : Nat) (frames : List (Frame Unit)) : Option (Bool × PacketBuffer) := do
  let room ← checkedSub datagramLen (offset + p.cursor)
  let b := { PacketBuffer.new room credit frames p.header.packetType p.cursor p.tagLen with info := p.info }
  let b := b.scope (1200 - offset)
  if p.cursor = 0 then b.begin p.header p.pn.2 else some (true, b)

def take (p : Packet) (b : PacketBuffer) : Packet :=
  { p with cursor := b.nwrote, info := b.info, finished := b.finished }

/-- The result of polling the sources, which is padded if there are frames. -/
def settle (p : Packet) (result : PollDump) (log : List (Frame Bytes)) (b : PacketBuffer) : Option Assembled := do
  let (padding, b) ← if 0 < result.written then b.fillSample else some ([], b)
  let p := p.take b
  let poll :=
    match result with
    | .pending => none
    | .ready _ => some (if 0 < result.written then (p.len, b.minSize) else (0, 0))
  some ⟨poll, p, b.frames, b.out, log ++ padding⟩

def assemble (p : Packet) (datagramLen offset credit : Nat) (content : PacketContent) (frames : List (Frame Unit))
    (sources : List Source) : Option Assembled :=
  if p.finished then some ⟨some (0, 0), p, frames, [], []⟩
  else do
    let (begun, b) ← p.window datagramLen offset credit frames
    if begun then do
      let (result, log, b) ← b.assemble content sources
      p.settle result log b
    else some ⟨some (0, 0), p, b.frames, b.out, []⟩

def polled (p : Packet) (datagramLen offset credit : Nat) (content : PacketContent) (frames : List (Frame Unit))
    (sources : List Source) : Option PacketBuffer := do
  let (begun, b) ← p.window datagramLen offset credit frames
  if begun then do
    let (_, _, b) ← b.assemble content sources
    some b
  else none

/-- `padding` in the bytes of the packet. -/
def padding (p : Packet) (bytesLen amount : Nat) : Option Packet := do
  debugAssert (p.len + amount ≤ bytesLen)
  if 0 < amount then
    some { p with cursor := p.cursor + amount, info := p.info.record (.padding : Frame Bytes) }
  else some p

/-- The layout that `seal` asserts. -/
def layout (p : Packet) (bytesLen : Nat) : Option Unit := do
  let pnOffset ← p.header.pnOffset
  debugAssert (0 < p.info.nframes ∧ bytesLen = p.len ∧ pnOffset + 4 + 16 ≤ bytesLen)

end Packet

end Encrypt

end Dquic
