import Dquic.Congestion.Records
import Dquic.Journal.Sent

/-!
# Congestion control of a path

`NewReno` of `qcongestion/src/algorithm/new_reno.rs`, `PacketSpace` of `packets.rs` and
`CongestionController` of `congestion.rs`.
-/

namespace Dquic.Congestion

/-- What became of a packet. The contents of a retransmitted one were handed to recovery. -/
inductive State
  | inflight
  | acked
  | retransmitted
  deriving DecidableEq, Repr

structure SentPacket where
  packetNumber : Nat
  timeSent : Int
  ackEliciting : Bool
  sentBytes : Nat
  state : State
  countForCc : Bool
  deriving DecidableEq, Repr

/-- The algorithm. `saturated` is not in the code: it says whether a saturating subtraction was cut off at zero. -/
structure NewReno where
  maxDatagramSize : Nat
  ecnCeCounters : Epoch → Nat
  bytesInFlight : Nat
  congestionWindow : Nat
  congestionRecoveryStartTime : Option Int
  ssthresh : Nat
  saturated : Bool

/-- `u16` multiplication with overflow checks. -/
def checkedMulU16 (a b : Nat) : Option Nat := if a * b < 2 ^ 16 then some (a * b) else none

namespace NewReno

def new (mtu : Nat) : Option NewReno := do
  let ten ← checkedMulU16 mtu 10
  let two ← checkedMulU16 mtu 2
  some ⟨mtu, fun _ => 0, 0, min ten (max two 14600), none, usizeMax, false⟩

def onPacketSentCc (r : NewReno) (sentBytes : Nat) : NewReno := { r with bytesInFlight := r.bytesInFlight + sentBytes }

def inCongestionRecovery (r : NewReno) (sentTime : Int) : Bool :=
  r.congestionRecoveryStartTime.any fun start => sentTime ≤ start

/-- `bytes_in_flight.saturating_sub`. -/
def subInFlight (r : NewReno) (bytes : Nat) : NewReno :=
  { r with bytesInFlight := r.bytesInFlight - bytes, saturated := r.saturated || r.bytesInFlight < bytes }

/-- The window grows by what was acknowledged, or in congestion avoidance by a datagram for each window. -/
def grow (r : NewReno) (sentBytes : Nat) : Option NewReno :=
  if r.congestionWindow < r.ssthresh then some { r with congestionWindow := r.congestionWindow + sentBytes }
  else do
    debugAssert (0 < r.congestionWindow)
    some { r with congestionWindow := r.congestionWindow + r.maxDatagramSize * sentBytes / r.congestionWindow }

def onPacketAcked (r : NewReno) (p : SentPacket) : Option NewReno :=
  if p.countForCc = false then some r
  else
    let r := if p.state = .inflight then r.subInFlight p.sentBytes else r
    if r.inCongestionRecovery p.timeSent then some r else r.grow p.sentBytes

def onCongestionEvent (r : NewReno) (now sentTime : Int) : Option NewReno :=
  if r.inCongestionRecovery sentTime then some r
  else do
    let ssthresh ← checkedSub r.congestionWindow r.maxDatagramSize
    some { r with
      congestionRecoveryStartTime := some now
      ssthresh := ssthresh
      congestionWindow := max ssthresh (2 * r.maxDatagramSize) }

def processEcn (r : NewReno) (ecn : Option EcnCounts) (now sentTime : Int) (epoch : Epoch) : Option NewReno :=
  match ecn with
  | some ecn =>
    if r.ecnCeCounters epoch < ecn.ce.val then
      { r with ecnCeCounters := Function.update r.ecnCeCounters epoch ecn.ce.val }.onCongestionEvent now sentTime
    else some r
  | none => some r

/-- Lost packets leave the flight. The time of the last one that counts comes with it. -/
def loseLoop (r : NewReno) (last : Option Int) : List SentPacket → NewReno × Option Int
  | [] => (r, last)
  | p :: rest =>
    if p.countForCc then (r.subInFlight p.sentBytes).loseLoop (some (last.elim p.timeSent fun t => max t p.timeSent)) rest
    else r.loseLoop last rest

def persist (r : NewReno) (persistentLost : Bool) : NewReno :=
  if persistentLost then
    { r with
      ssthresh := r.congestionWindow / 2
      congestionWindow := max (r.congestionWindow / 2) (2 * r.maxDatagramSize)
      congestionRecoveryStartTime := none }
  else r

def onPacketsLost (r : NewReno) (now : Int) (lost : List SentPacket) (persistentLost : Bool) : Option NewReno :=
  match r.loseLoop none lost with
  | (r, none) => some (r.persist persistentLost)
  | (r, some time) => do
    let r ← r.onCongestionEvent now time
    some (r.persist persistentLost)

def removeFromBytesInFlight (r : NewReno) : List SentPacket → Option NewReno
  | [] => some r
  | p :: rest =>
    if p.countForCc ∧ p.state ≠ .retransmitted then do
      let bytes ← checkedSub r.bytesInFlight p.sentBytes
      { r with bytesInFlight := bytes }.removeFromBytesInFlight rest
    else r.removeFromBytesInFlight rest

end NewReno

structure PacketSpace where
  largestAckedPacket : Option Nat
  timeOfLastAckElicitingPacket : Option Int
  lossTime : Option Int
  sentPackets : List SentPacket
  rcvdPackets : RcvdRecords

/-- The newest packet that an ACK frame acknowledged and whether it acknowledged an ack-eliciting one, with the packets
that the algorithm was told of. -/
structure AckScan where
  reno : NewReno
  includeAckEliciting : Bool
  largest : Option (Nat × Int)
  reported : List Nat

namespace AckScan

def ackOne (ranges : List (Nat × Nat)) (scan : AckScan) (sent : SentPacket) : Option (SentPacket × AckScan) :=
  if sent.state = .acked ∨ ¬ ranges.any fun r => r.1 ≤ sent.packetNumber ∧ sent.packetNumber ≤ r.2 then some (sent, scan)
  else do
    let reno ← scan.reno.onPacketAcked sent
    some ({ sent with state := .acked },
      { reno := reno
        includeAckEliciting := scan.includeAckEliciting || sent.ackEliciting
        largest :=
          match scan.largest with
          | some (n, t) => if n < sent.packetNumber then some (sent.packetNumber, sent.timeSent) else some (n, t)
          | none => some (sent.packetNumber, sent.timeSent)
        reported := sent.packetNumber :: scan.reported })

def ackLoop (ranges : List (Nat × Nat)) : List SentPacket → AckScan → Option (List SentPacket × AckScan)
  | [], scan => some ([], scan)
  | sent :: rest, scan => do
    let (rest, scan) ← ackLoop ranges rest scan
    let (sent, scan) ← scan.ackOne ranges sent
    some (sent :: rest, scan)

end AckScan

abbrev Loss := Nat × SentPacket

namespace PacketSpace

def withEpoch (epoch : Epoch) (maxAckDelay : Nat) : PacketSpace := ⟨none, none, none, [], .new epoch maxAckDelay⟩

/-- Packets that are neither ack-eliciting nor in flight leave no record. -/
def onSent (s : PacketSpace) (sent : SentPacket) : PacketSpace :=
  { s with
    timeOfLastAckElicitingPacket :=
      if sent.countForCc && sent.ackEliciting then some sent.timeSent else s.timeOfLastAckElicitingPacket
    sentPackets := if sent.ackEliciting || sent.countForCc then s.sentPackets ++ [sent] else s.sentPackets }

def updateLargestAckedPacket (s : PacketSpace) (pn : Nat) : PacketSpace :=
  { s with largestAckedPacket := some (s.largestAckedPacket.elim pn fun n => max n pn) }

def onAckRcvd (s : PacketSpace) (ranges : List (Nat × Nat)) (reno : NewReno) : Option (AckScan × PacketSpace) := do
  let (sentPackets, scan) ← AckScan.ackLoop ranges s.sentPackets ⟨reno, false, none, []⟩
  some (scan, { s with sentPackets := sentPackets.dropWhile fun sent => sent.state = .acked ∨ sent.state = .retransmitted })

def noAckElicitingInFlight (s : PacketSpace) : Bool :=
  s.sentPackets.all fun sent => !sent.ackEliciting || sent.state ≠ .inflight

def largestAckedIndex : List SentPacket → Option Nat
  | [] => none
  | sent :: rest =>
    match largestAckedIndex rest with
    | some i => some (i + 1)
    | none => if sent.state = .acked then some 0 else none

/-- Packets that are too old or too far behind are lost, and the others are due later. -/
def lossLoop (largestAcked : Nat) (ackedIndex : Option Nat) (now : Int) (lossDelay threshold : Nat) :
    Nat → List SentPacket → List SentPacket × List Loss × Option Int
  | _, [] => ([], [], none)
  | idx, sent :: rest =>
    let (done, lost, lossTime) := lossLoop largestAcked ackedIndex now lossDelay threshold (idx + 1) rest
    if sent.state = .inflight ∧ sent.packetNumber ≤ largestAcked then
      if sent.timeSent ≤ now - lossDelay ∨ ackedIndex.any fun largest => idx + threshold ≤ largest then
        let sent := { sent with state := .retransmitted }
        (sent :: done, (idx, sent) :: lost, lossTime)
      else
        let time := sent.timeSent + lossDelay
        (sent :: done, lost, some (lossTime.elim time fun t => min time t))
    else (sent :: done, lost, lossTime)

def persistentLoss : Option Nat → Nat → List Nat → Bool
  | _, _, [] => false
  | prev, count, idx :: rest =>
    let lostCount := prev.elim 0 fun p => if idx - p = 1 then count + 1 else 0
    if 3 ≤ lostCount + 1 then true else persistentLoss (some idx) lostCount rest

def detectLostPackets (s : PacketSpace) (now event : Int) (lossDelay threshold : Nat) (reno : NewReno) :
    Option (List Nat × NewReno × PacketSpace) :=
  match s.largestAckedPacket with
  | none => some ([], reno, { s with lossTime := none })
  | some largestAcked =>
    let (sentPackets, lost, lossTime) :=
      lossLoop largestAcked (largestAckedIndex s.sentPackets) now lossDelay threshold 0 s.sentPackets
    let s := { s with sentPackets := sentPackets, lossTime := lossTime }
    if lost = [] then some ([], reno, s)
    else do
      let reno ← reno.onPacketsLost event (lost.map (·.2)) (persistentLoss none 0 (lost.map (·.1)))
      some (lost.map (·.2.packetNumber), reno, s)

def discard (s : PacketSpace) (reno : NewReno) : Option (List Nat × NewReno × PacketSpace) := do
  let inflight := s.sentPackets.filter fun sent => sent.state = .inflight
  let reno ← reno.removeFromBytesInFlight inflight
  some (inflight.map (·.packetNumber), reno, ⟨none, none, none, [], s.rcvdPackets.clear⟩)

end PacketSpace

/-- The clock as a call reads it: when a report of congestion marks is processed, when loss is detected, and when the
loss is reported. -/
structure Clock where
  ecn : Int
  detect : Int
  event : Int
  deriving DecidableEq, Repr

structure CongestionController where
  algorithm : NewReno
  ptoCount : Nat
  packetSpaces : Epoch → PacketSpace
  discardedEpochs : Epoch → Bool
  needSendAckEliciting : Epoch → Nat

/-- What a call reports: the packets acknowledged and lost to the algorithm, and those handed to recovery by loss detection. -/
structure Reports where
  acked : List Nat
  lost : List Nat
  resent : List Nat

namespace CongestionController

def packetThreshold : Nat := 3

def init (mtu maxAckDelay : Nat) : Option CongestionController := do
  let algorithm ← NewReno.new mtu
  some ⟨algorithm, 0, fun epoch => .withEpoch epoch (if epoch = .data then maxAckDelay else 0), fun _ => false, fun _ => 0⟩

def setSpace (cc : CongestionController) (epoch : Epoch) (space : PacketSpace) : CongestionController :=
  { cc with packetSpaces := Function.update cc.packetSpaces epoch space }

def onPacketSent (cc : CongestionController) (now : Int) (pn : Nat) (epoch : Epoch) (ackEliciting inFlight : Bool)
    (sentBytes : Nat) : CongestionController :=
  if cc.discardedEpochs epoch then cc
  else
    let sent : SentPacket := ⟨pn, now, ackEliciting, sentBytes, .inflight, inFlight⟩
    { cc.setSpace epoch ((cc.packetSpaces epoch).onSent sent) with
      algorithm := if inFlight then cc.algorithm.onPacketSentCc sentBytes else cc.algorithm
      needSendAckEliciting :=
        if inFlight && ackEliciting then Function.update cc.needSendAckEliciting epoch (cc.needSendAckEliciting epoch - 1)
        else cc.needSendAckEliciting }

/-- Loss detection in a space. Lost packets are resent if the space is still there. -/
def detectLost (cc : CongestionController) (clock : Clock) (lossDelay : Nat) (epoch : Epoch) (tracker : Bool) :
    Option (List Nat × List Nat × CongestionController) := do
  let (lost, reno, space) ← (cc.packetSpaces epoch).detectLostPackets clock.detect clock.event lossDelay packetThreshold
    cc.algorithm
  some (lost, if tracker then lost else [], { cc.setSpace epoch space with algorithm := reno })

def onAckRcvd (cc : CongestionController) (clock : Clock) (epoch : Epoch) (ack : AckFrame) (lossDelay : Nat)
    (tracker peerValidated : Bool) : Option (Reports × CongestionController) :=
  if cc.discardedEpochs epoch then some (⟨[], [], []⟩, cc)
  else do
    let space := (cc.packetSpaces epoch).updateLargestAckedPacket ack.largest.val
    if space.sentPackets = [] then some (⟨[], [], []⟩, cc.setSpace epoch space)
    else do
      let ranges ← SentJournal.ackRanges ack
      let (scan, space) ← space.onAckRcvd ranges cc.algorithm
      let cc := { cc.setSpace epoch space with algorithm := scan.reno }
      match scan.largest with
      | none => some (⟨scan.reported, [], []⟩, cc)
      | some (_, timeSent) => do
        let reno ← scan.reno.processEcn ack.ecn clock.ecn timeSent epoch
        let (lost, resent, cc) ← { cc with algorithm := reno }.detectLost clock lossDelay epoch tracker
        some (⟨scan.reported, lost, resent⟩, { cc with ptoCount := if peerValidated then 0 else cc.ptoCount })

/-- The space with the earliest loss time, of equal ones the first. -/
def getLossTimeAndEpoch (cc : CongestionController) : Option (Int × Epoch) :=
  Epoch.all.foldl (fun best epoch =>
    match best, (cc.packetSpaces epoch).lossTime with
    | none, t => t.map fun t => (t, epoch)
    | some b, some t => if t < b.1 then some (t, epoch) else some b
    | some b, none => some b) none

/-- The timer of loss detection went off. `ptoEpoch` is the space of the probe, if there is one. -/
def onLossDetectionTimeout (cc : CongestionController) (clock : Clock) (lossDelay : Nat) (tracker : Bool)
    (ptoEpoch : Option Epoch) : Option (Reports × CongestionController) :=
  match cc.getLossTimeAndEpoch with
  | some (_, epoch) => do
    let (lost, resent, cc) ← cc.detectLost clock lossDelay epoch tracker
    some (⟨[], lost, resent⟩, cc)
  | none =>
    let need :=
      match ptoEpoch with
      | some epoch => Function.update cc.needSendAckEliciting epoch (cc.needSendAckEliciting epoch + 1)
      | none => cc.needSendAckEliciting
    some (⟨[], [], []⟩, { cc with needSendAckEliciting := need, ptoCount := cc.ptoCount + 1 })

def discardEpoch (cc : CongestionController) (epoch : Epoch) : Option CongestionController := do
  debugAssert (epoch ≠ .data)
  if cc.discardedEpochs epoch then some cc
  else do
    let (_, reno, space) ← (cc.packetSpaces epoch).discard cc.algorithm
    some { cc.setSpace epoch space with
      algorithm := reno
      discardedEpochs := Function.update cc.discardedEpochs epoch true
      needSendAckEliciting := Function.update cc.needSendAckEliciting epoch 0
      ptoCount := 0 }

def discardAll (cc : CongestionController) : List Epoch → Option CongestionController
  | [] => some cc
  | epoch :: rest => do
    let (_, reno, space) ← (cc.packetSpaces epoch).discard cc.algorithm
    { cc.setSpace epoch space with algorithm := reno }.discardAll rest

def onPathLost (cc : CongestionController) : Option CongestionController := cc.discardAll Epoch.all

end CongestionController

end Dquic.Congestion
