import Dquic.Packet.Metadata
import Dquic.Journal.IndexDeque
import Dquic.Packet.Number

/-!
# The journal of sent packets

`SentJournal` of `qrecovery/src/journal/sent.rs`. A packet number is reserved, its packet is
sealed with the frames it carries, and submitted or cancelled.
-/

namespace Dquic

inductive SentPacketState
  | pending
  | flighting (retransAt expireAfter : Nat)
  | retransmitted (expireAfter : Nat)
  | failed
  | acked
  | retired
  deriving DecidableEq, Repr

structure SentPacket where
  size : Nat
  content : PacketContent
  inFlight : Bool
  ack : Option Nat
  generation : Option Nat
  frameRange : Range
  state : SentPacketState
  deriving DecidableEq, Repr

/-- Order of `(Instant, u64)`. -/
def compareDeadline : Nat × Nat → Nat × Nat → Ordering := compareLex (compareOn Prod.fst) (compareOn Prod.snd)

structure SentJournal (φ : Type) where
  packets : Std.TreeMap Nat SentPacket
  frames : IndexDeque (Option φ) (2 ^ 64 - 1)
  deadlines : Std.TreeSet (Nat × Nat) compareDeadline
  nextPn : Nat
  largestAcked : Nat
  skippedPns : Std.TreeSet Nat

def SentPacketState.deadline : SentPacketState → Option Nat
  | .flighting retransAt _ => some retransAt
  | .retransmitted expireAfter => some expireAfter
  | _ => none

namespace SentJournal

variable {φ : Type}

def maxSkippedPns : Nat := 256

def empty : SentJournal φ := ⟨∅, .empty, ∅, 0, 0, ∅⟩

/-- `next_pn`: reserve a packet number. -/
def reservePn (j : SentJournal φ) : Option (Except QuicError (Nat × PacketNumber) × SentJournal φ) := do
  let pn := j.nextPn
  if varintMax < pn then
    some (.error (.withDefaultFty .aeadLimitReached "packet numbers exhausted"), j)
  else
    let start ← j.frames.largest
    let number ← PacketNumber.encode pn j.largestAcked
    let packets := j.packets.insert pn ⟨0, .nonAckEliciting, false, none, none, ⟨start, start⟩, .pending⟩
    some (.ok (pn, number), { j with nextPn := pn + 1, packets := packets })

def onSealed (j : SentJournal φ) (pn : Nat) (generation : Option Nat) (pktlen : Nat) (data : Metadata)
    (frames : List φ) : Option (SentJournal φ) := do
  let packet ← j.packets[pn]?
  debugAssert (packet.state = .pending ∧ packet.frameRange.stop ≤ packet.frameRange.start)
  let start ← j.frames.largest
  let slots ← j.frames.pushAll (frames.map some)
  let stop ← slots.largest
  let packets := j.packets.insert pn
    ⟨pktlen, data.content, data.inFlight, data.ack, generation, ⟨start, stop⟩, .pending⟩
  some { j with frames := slots, packets := packets }

def removePacket (j : SentJournal φ) (pn : Nat) (state : SentPacketState) : Option (SentPacket × SentJournal φ) := do
  let record ← j.packets[pn]?
  let deadlines :=
    match record.state.deadline with
    | some deadline => j.deadlines.erase (deadline, pn)
    | none => j.deadlines
  some ({ record with state := state }, { j with packets := j.packets.erase pn, deadlines := deadlines })

def takeFrames (j : SentJournal φ) (range : Range) : Option (List φ × SentJournal φ) := do
  let (frames, slots) ← j.frames.takeSlots range.start (range.stop - range.start)
  some (frames, { j with frames := slots.reclaim })

def retire (j : SentJournal φ) (pn : Nat) : Option (SentJournal φ) := do
  let (record, j) ← j.removePacket pn .retired
  let (_, j) ← j.takeFrames record.frameRange
  some j

/-- An early acknowledgement keeps the record until the packet is submitted. -/
def onSent (j : SentJournal φ) (pn : Nat) (inFlight : Bool) (retransmitAfter retention sentAt : Nat) :
    Option (SentJournal φ) :=
  match j.packets[pn]? with
  | none => some j
  | some record =>
    match record.state with
    | .acked => some { j with packets := j.packets.erase pn }
    | .pending =>
      if inFlight then
        let retransAt := sentAt + retransmitAfter
        let record := { record with state := .flighting retransAt (sentAt + retention) }
        some { j with packets := j.packets.insert pn record, deadlines := j.deadlines.insert (retransAt, pn) }
      else j.retire pn
    | _ => some j

/-- The frames are lost, and stay in their slots for a late acknowledgement. -/
def resendPacket (j : SentJournal φ) (pn : Nat) : Option (List φ × SentJournal φ) :=
  match j.packets[pn]? with
  | none => some ([], j)
  | some record =>
    match record.state with
    | .flighting retransAt expireAfter => do
      let deadlines := (j.deadlines.erase (retransAt, pn)).insert (expireAfter, pn)
      let packets := j.packets.insert pn { record with state := .retransmitted expireAfter }
      let frames ← j.frames.readSlots record.frameRange.start (record.frameRange.stop - record.frameRange.start)
      some (frames, { j with packets := packets, deadlines := deadlines })
    | _ => some ([], j)

def resend (j : SentJournal φ) : List Nat → Option (List φ × SentJournal φ)
  | [] => some ([], j)
  | pn :: pns => do
    let (frames, j) ← j.resendPacket pn
    let (rest, j) ← resend j pns
    some (frames ++ rest, j)

/-- The loop of `on_tick`. It runs out of fuel with `none`. -/
def tickLoop : Nat → SentJournal φ → Nat → Option (List φ × SentJournal φ)
  | 0, _, _ => none
  | fuel + 1, j, now =>
    match j.deadlines.toList.head? with
    | none => some ([], j)
    | some (deadline, pn) =>
      if now < deadline then some ([], j)
      else do
        let record ← j.packets[pn]?
        match record.state with
        | .flighting _ _ => do
          let (frames, j) ← j.resendPacket pn
          let (rest, j) ← tickLoop fuel j now
          some (frames ++ rest, j)
        | .retransmitted _ => do
          let j ← j.retire pn
          tickLoop fuel j now
        | _ => none

def onTick (j : SentJournal φ) (now : Nat) : Option (List φ × SentJournal φ) := tickLoop (2 * j.nextPn + 1) j now

/-- `cancel` returns the frames of a packet that was not acknowledged. -/
def cancel (j : SentJournal φ) (pn : Nat) : Option (List φ × SentJournal φ) :=
  match j.packets[pn]? with
  | none => some ([], j)
  | some packet =>
    if packet.state = .acked then some ([], { j with packets := j.packets.erase pn })
    else do
      let (record, j) ← j.removePacket pn .failed
      let skipped := j.skippedPns.insert pn
      let skipped :=
        if maxSkippedPns < skipped.size then
          match skipped.toList.head? with
          | some first => skipped.erase first
          | none => skipped
        else skipped
      takeFrames { j with skippedPns := skipped } record.frameRange

/-! ### Acknowledgements -/

/-- The ranges behind `start`, from high to low, both ends included. -/
def ackRangesBelow : Nat → List (VarInt × VarInt) → Option (List (Nat × Nat))
  | _, [] => some []
  | start, (gap, range) :: rest => do
    let stop ← checkedSub start gap.val
    let stop ← checkedSub stop 2
    let start ← checkedSub stop range.val
    let ranges ← ackRangesBelow start rest
    some ((start, stop) :: ranges)

/-- The ranges of an ACK frame. `none` when one of them reaches below zero. -/
def ackRanges (ack : AckFrame) : Option (List (Nat × Nat)) := do
  let start ← checkedSub ack.largest.val ack.firstRange.val
  let ranges ← ackRangesBelow start ack.ranges
  some ((start, ack.largest.val) :: ranges)

def firstIn (j : SentJournal φ) (start stop : Nat) : Option Nat :=
  j.packets.keys.find? (fun pn => start ≤ pn ∧ pn ≤ stop)

def maxGeneration : Option Nat → Option Nat → Option Nat
  | some a, some b => some (max a b)
  | some a, none => some a
  | none, b => b

/-- One packet of an acknowledged range. Its record stays while its submission is not known. -/
def ackPacket (j : SentJournal φ) (pn : Nat) : Option (List φ × Option Nat × SentJournal φ) := do
  let packet ← j.packets[pn]?
  let pending := packet.state = .pending ∨ packet.state = .acked
  let (record, j) ← j.removePacket pn .acked
  let (frames, slots) ← j.frames.takeSlots record.frameRange.start (record.frameRange.stop - record.frameRange.start)
  let packets :=
    if pending then j.packets.insert pn { record with frameRange := ⟨0, 0⟩, generation := none } else j.packets
  some (frames, record.generation, { j with frames := slots, packets := packets })

/-- The loop over the records of one range. It runs out of fuel with `none`. -/
def ackLoop : Nat → SentJournal φ → Nat → Nat → Option Nat → Option (List φ × Option Nat × SentJournal φ)
  | 0, _, _, _, _ => none
  | fuel + 1, j, start, stop, acknowledged =>
    if start ≤ stop then
      match j.firstIn start stop with
      | none => some ([], acknowledged, j)
      | some pn => do
        let (frames, generation, j) ← j.ackPacket pn
        let (rest, acknowledged, j) ← ackLoop fuel j (pn + 1) stop (maxGeneration acknowledged generation)
        some (frames ++ rest, acknowledged, j)
    else some ([], acknowledged, j)

def ackAll (j : SentJournal φ) (acknowledged : Option Nat) :
    List (Nat × Nat) → Option (List φ × Option Nat × SentJournal φ)
  | [] => some ([], acknowledged, j)
  | (start, stop) :: ranges => do
    let (frames, acknowledged, j) ← ackLoop (stop + 2 - start) j start stop acknowledged
    let (rest, acknowledged, j) ← ackAll j acknowledged ranges
    some (frames ++ rest, acknowledged, j)

/-- The highest newly acknowledged key generation. A frame that is not valid changes nothing. -/
def onAcked (j : SentJournal φ) (ack : AckFrame) :
    Option (Except QuicError (Option Nat) × List φ × SentJournal φ) :=
  match ackRanges ack with
  | none => some (.error (.withDefaultFty .frameEncoding "invalid ACK range"), [], j)
  | some ranges =>
    if j.nextPn ≤ ack.largest.val ∨ ∃ r ∈ ranges, ∃ pn ∈ j.skippedPns.toList, r.1 ≤ pn ∧ pn ≤ r.2 then
      some (.error (.withDefaultFty .protocolViolation "ACK acknowledges an unsent packet"), [], j)
    else do
      let j := { j with largestAcked := max j.largestAcked ack.largest.val }
      -- ranges come from high to low, and the callbacks go from low to high
      let (frames, acknowledged, j) ← j.ackAll none ranges.reverse
      some (.ok acknowledged, frames, { j with frames := j.frames.reclaim })

end SentJournal

end Dquic
