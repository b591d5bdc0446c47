import Dquic.Congestion.Accounting

/-!
# The timer of loss detection

The timer of `CongestionController` in `qcongestion/src/congestion.rs`. It goes off at the
earliest time at which a packet is lost, or else when a probe is due.
-/

namespace Dquic.Congestion

open Lib

/-! ### What the handshake has reached -/

/-- `HandshakeFacts`, as far as recovery reads them. -/
structure HandshakeFacts where
  role : Role
  gotHandshakeKey : Bool
  hasSentHandshake : Bool
  hasReceivedHandshake : Bool
  hasHandshakeAcked : Bool
  isHandshakeDone : Bool
  deriving DecidableEq, Repr

namespace HandshakeFacts

def withRole (role : Role) : HandshakeFacts := ⟨role, false, false, false, false, false⟩

def isInitialDone (f : HandshakeFacts) : Bool :=
  match f.role with
  | .client => f.hasSentHandshake
  | .server => f.hasReceivedHandshake

/-- `peer_completed_address_validation`. -/
def peerValidated (f : HandshakeFacts) : Bool := f.role = .server || f.hasHandshakeAcked || f.isHandshakeDone

/-- `on_handshake_acked`. -/
def onHandshakeAcked (f : HandshakeFacts) : HandshakeFacts := { f with hasHandshakeAcked := true }

/-- Facts only become true. -/
structure Le (f g : HandshakeFacts) : Prop where
  role : f.role = g.role
  gotHandshakeKey : f.gotHandshakeKey → g.gotHandshakeKey
  hasSentHandshake : f.hasSentHandshake → g.hasSentHandshake
  hasReceivedHandshake : f.hasReceivedHandshake → g.hasReceivedHandshake
  hasHandshakeAcked : f.hasHandshakeAcked → g.hasHandshakeAcked
  isHandshakeDone : f.isHandshakeDone → g.isHandshakeDone

end HandshakeFacts

/-! ### Probes -/

inductive TimerPanic
  | lastAckEliciting
  | peerValidated
  | other
  deriving DecidableEq, Repr

/-- A call that may panic for another reason. -/
def orPanic {α : Type} : Option α → Except TimerPanic α
  | some a => .ok a
  | none => .error .other

/-- The clock and the estimator: the basic duration of a probe and the delay of acknowledgements, each for a number of
probes before. -/
structure Readings where
  now : Int
  basePto : Nat → Nat
  ackDelay : Nat → Nat

namespace CongestionController

def noAckElicitingInFlight (cc : CongestionController) : Bool :=
  Epoch.all.all fun epoch => (cc.packetSpaces epoch).noAckElicitingInFlight

/-- The loop of `get_pto_time_and_epoch`. Data is left out until the handshake is confirmed. -/
def ptoLoop (cc : CongestionController) (done : Bool) (ackDelay : Nat) (duration : Nat) :
    List Epoch → Option (Int × Epoch) → Except TimerPanic (Option (Int × Epoch))
  | [], ptoTime => .ok ptoTime
  | epoch :: rest, ptoTime =>
    if (cc.packetSpaces epoch).noAckElicitingInFlight then cc.ptoLoop done ackDelay duration rest ptoTime
    else if epoch = .data ∧ done = false then .ok ptoTime
    else
      let duration := if epoch = .data then duration + ackDelay else duration
      match (cc.packetSpaces epoch).timeOfLastAckElicitingPacket with
      | none => .error .lastAckEliciting
      | some last =>
        let t := last + duration
        cc.ptoLoop done ackDelay duration rest (if ptoTime.all fun best => t < best.1 then some (t, epoch) else ptoTime)

def getPtoTimeAndEpoch (cc : CongestionController) (facts : HandshakeFacts) (r : Readings) :
    Except TimerPanic (Option (Int × Epoch)) :=
  let duration := r.basePto cc.ptoCount
  if cc.noAckElicitingInFlight then
    .ok (some (r.now + duration, if facts.gotHandshakeKey then .handshake else .initial))
  else cc.ptoLoop facts.isHandshakeDone (r.ackDelay cc.ptoCount) duration Epoch.all none

end CongestionController

/-! ### The timer -/

/-- A controller with its timer. `justSet` is not in the code: it says whether the last call has set the timer. -/
structure TimedController where
  cc : CongestionController
  lossDetectionTimer : Option Int
  amplificationBlocked : Bool
  justSet : Bool

namespace TimedController

def withCc (c : TimedController) (cc : CongestionController) : TimedController := { c with cc := cc }

def arm (c : TimedController) (timer : Option Int) : TimedController :=
  { c with lossDetectionTimer := timer, justSet := true }

def setLossDetectionTimer (c : TimedController) (facts : HandshakeFacts) (r : Readings) :
    Except TimerPanic TimedController :=
  match c.cc.getLossTimeAndEpoch with
  | some (earliest, _) => .ok (c.arm (some earliest))
  | none =>
    if c.amplificationBlocked then .ok (c.arm none)
    else if c.cc.noAckElicitingInFlight && facts.peerValidated then .ok (c.arm none)
    else do
      let pto ← c.cc.getPtoTimeAndEpoch facts r
      .ok (c.arm (pto.map (·.1)))

def onPacketSent (c : TimedController) (facts : HandshakeFacts) (r : Readings) (now : Int) (pn : Nat) (epoch : Epoch)
    (ackEliciting inFlight : Bool) (sentBytes : Nat) : Except TimerPanic TimedController :=
  if c.cc.discardedEpochs epoch then .ok c
  else
    let c := c.withCc (c.cc.onPacketSent now pn epoch ackEliciting inFlight sentBytes)
    if inFlight then c.setLossDetectionTimer facts r else .ok c

/-- Without packets that are newly acknowledged, the call ends early. -/
def onAckRcvd (c : TimedController) (facts : HandshakeFacts) (r : Readings) (clock : Clock) (epoch : Epoch)
    (ack : AckFrame) (lossDelay : Nat) (tracker : Bool) : Except TimerPanic (HandshakeFacts × TimedController) := do
  let acked := if epoch = .handshake then facts.onHandshakeAcked else facts
  let (reports, cc) ← orPanic (c.cc.onAckRcvd clock epoch ack lossDelay tracker acked.peerValidated)
  if reports.acked = [] then .ok (facts, c.withCc cc)
  else do
    let c ← (c.withCc cc).setLossDetectionTimer acked r
    .ok (acked, c)

def setAmplificationBlocked (c : TimedController) (facts : HandshakeFacts) (r : Readings) (blocked : Bool) :
    Except TimerPanic TimedController :=
  if c.amplificationBlocked = blocked then .ok c
  else TimedController.setLossDetectionTimer { c with amplificationBlocked := blocked } facts r

def discardEpoch (c : TimedController) (facts : HandshakeFacts) (r : Readings) (epoch : Epoch) :
    Except TimerPanic TimedController := do
  let cc ← orPanic (c.cc.discardEpoch epoch)
  if c.cc.discardedEpochs epoch then .ok c
  else TimedController.setLossDetectionTimer { c with cc := cc, lossDetectionTimer := none } facts r

/-- What a call of `tick` reads, in turn: where a space is retired, where the timer is set again, where a probe is chosen
and where the timer is set after a timeout. -/
structure TickReadings where
  initial : Readings
  handshake : Readings
  rearm : Readings
  probe : Readings
  timeout : Readings
  now : Int
  clock : Clock
  lossDelay : Nat
  tracker : Bool

/-- One of the two branches of `retire_handshake_spaces`. -/
def retire (c : TimedController) (facts : HandshakeFacts) (r : Readings) (epoch : Epoch) (done : Bool) :
    Except TimerPanic TimedController :=
  if !c.cc.discardedEpochs epoch && done then c.discardEpoch facts r epoch else .ok c

def retireHandshakeSpaces (c : TimedController) (facts : HandshakeFacts) (t : TickReadings) :
    Except TimerPanic TimedController := do
  let c ← c.retire facts t.initial .initial facts.isInitialDone
  c.retire facts t.handshake .handshake facts.isHandshakeDone

/-- The space of a probe that is due. Nothing in flight means that the peer is not validated. -/
def probeEpoch (c : TimedController) (facts : HandshakeFacts) (r : Readings) (peerValidated : Bool) :
    Except TimerPanic (Option Epoch) :=
  if c.cc.noAckElicitingInFlight then
    if peerValidated then .error .peerValidated
    else .ok (some (if facts.gotHandshakeKey then .handshake else .initial))
  else do
    let pto ← c.cc.getPtoTimeAndEpoch facts r
    .ok (pto.map (·.2))

def expire (c : TimedController) (facts : HandshakeFacts) (t : TickReadings) (epoch : Option Epoch) :
    Except TimerPanic TimedController := do
  let out ← orPanic (c.cc.onLossDetectionTimeout t.clock t.lossDelay t.tracker epoch)
  (c.withCc out.2).setLossDetectionTimer facts t.timeout

def onLossDetectionTimeout (c : TimedController) (facts : HandshakeFacts) (t : TickReadings) (peerValidated : Bool) :
    Except TimerPanic TimedController :=
  match c.cc.getLossTimeAndEpoch with
  | some _ => c.expire facts t none
  | none => do
    let epoch ← c.probeEpoch facts t.probe peerValidated
    c.expire facts t epoch

/-- `MAX_PTO_COUNT`. -/
def maxPtoCount : Nat := 6

/-- Whether the timer is set again before it is looked at. -/
def rearms (c : TimedController) (peerValidated : Bool) : Bool :=
  c.lossDetectionTimer.isNone || c.amplificationBlocked ||
    (peerValidated && c.cc.noAckElicitingInFlight && c.cc.getLossTimeAndEpoch.isNone)

def rearm (c : TimedController) (facts : HandshakeFacts) (r : Readings) (peerValidated : Bool) :
    Except TimerPanic TimedController :=
  if c.rearms peerValidated then c.setLossDetectionTimer facts r else .ok c

/-- `tick`, with the count of probes if there were too many. -/
def tick (c : TimedController) (facts : HandshakeFacts) (t : TickReadings) :
    Except TimerPanic (Option Nat × TimedController) := do
  let c ← c.retireHandshakeSpaces facts t
  let peerValidated := facts.peerValidated
  let c ← c.rearm facts t.rearm peerValidated
  if c.lossDetectionTimer.any fun timer => timer ≤ t.now then do
    let c ← c.onLossDetectionTimeout facts t peerValidated
    .ok (if maxPtoCount < c.cc.ptoCount then some c.cc.ptoCount else none, c)
  else .ok (none, c)

end TimedController

/-! ### Runs -/

structure TimerWorld where
  controller : TimedController
  facts : HandshakeFacts

inductive TimerOp
  | onPacketSent (r : Readings) (now : Int) (pn : Nat) (epoch : Epoch) (ackEliciting inFlight : Bool) (sentBytes : Nat)
  | onAckRcvd (r : Readings) (clock : Clock) (epoch : Epoch) (ack : AckFrame) (lossDelay : Nat) (tracker : Bool)
  | setAmplificationBlocked (r : Readings) (blocked : Bool)
  | discardEpoch (r : Readings) (epoch : Epoch)
  | tick (t : TimedController.TickReadings)
  | switch (facts : HandshakeFacts)

namespace TimerWorld

/-- Ack-eliciting packets are in flight, and facts only become true. -/
def Issued (w : TimerWorld) : TimerOp → Prop
  | .onPacketSent _ _ _ _ ackEliciting inFlight _ => ackEliciting → inFlight
  | .switch facts => w.facts.Le facts
  | _ => True

def step (w : TimerWorld) (op : TimerOp) : Except TimerPanic TimerWorld :=
  let c := { w.controller with justSet := false }
  match op with
  | .onPacketSent r now pn epoch ackEliciting inFlight sentBytes => do
    let c ← c.onPacketSent w.facts r now pn epoch ackEliciting inFlight sentBytes
    .ok { w with controller := c }
  | .onAckRcvd r clock epoch ack lossDelay tracker => do
    let (facts, c) ← c.onAckRcvd w.facts r clock epoch ack lossDelay tracker
    .ok ⟨c, facts⟩
  | .setAmplificationBlocked r blocked => do
    let c ← c.setAmplificationBlocked w.facts r blocked
    .ok { w with controller := c }
  | .discardEpoch r epoch => do
    let c ← c.discardEpoch w.facts r epoch
    .ok { w with controller := c }
  | .tick t => do
    let (_, c) ← c.tick w.facts t
    .ok { w with controller := c }
  | .switch facts => .ok { w with facts := facts }

def exec (w : TimerWorld) (op : TimerOp) : Option TimerWorld := (w.step op).toOption

end TimerWorld

def timerSystem (role : Role) (mtu maxAckDelay : Nat) : System TimerWorld TimerOp where
  init w := ∃ cc, CongestionController.init mtu maxAckDelay = some cc ∧ w = ⟨⟨cc, none, false, false⟩, .withRole role⟩
  issued := TimerWorld.Issued
  exec := TimerWorld.exec

end Dquic.Congestion
