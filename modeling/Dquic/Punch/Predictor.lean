import Dquic.Lib.System
import Dquic.Punch.Scheduler

/-!
# Predicting ports

`PortPredictor` of `qtraversal/src/punch/predictor.rs`.
-/

namespace Dquic

open Lib

namespace Punch

def maxConcurrentSockets : Nat := 60

def maxProbes : Nat := 300

def firstProbeId : Nat := 1

/-- Where `predict` stands. -/
inductive Control
  /-- No prediction is running. -/
  | idle
  /-- At the head of the loop, or behind it. -/
  | checking
  /-- A probe was answered, and its unit is still held. -/
  | matched
  /-- Making room for another socket. -/
  | evicting
  /-- Waiting in `acquire_quota`. -/
  | acquiring
  /-- A unit was acquired for a probe without socket. -/
  | creating
  /-- Waiting for the probe to be sent. -/
  | sending (id port : Nat)
  /-- Waiting for the pacing interval or an answer. -/
  | pacing
  /-- In `release_all`, with the probes that are left. -/
  | releasing (ids : List Nat)
  deriving DecidableEq, Repr

/-- A predictor with its `ProbeTable`: the port of each pending probe, oldest first in `order`. -/
structure Predictor where
  dst : SocketAddr
  device : String
  pending : Table Nat Nat
  order : List Nat
  nextProbeId : Nat
  quotaHeld : Nat
  probesCreated : Nat
  control : Control
  acquired : Nat
  released : Nat

namespace Predictor

def new (dst : SocketAddr) (device : String) : Predictor := ⟨dst, device, ∅, [], firstProbeId, 0, 0, .idle, 0, 0⟩

def key (p : Predictor) : DeviceKey := ⟨p.device, p.dst.family⟩

/-- `ProbeTable::insert`. -/
def insert (p : Predictor) (id port : Nat) : Predictor :=
  { p with order := p.order ++ [id], pending := p.pending.insert id port }

/-- `ProbeTable::take`, if the probe is pending. -/
def take (p : Predictor) (id : Nat) : Option Predictor :=
  match p.pending.lookup id with
  | some _ => some { p with pending := p.pending.erase id, order := p.order.filter (· ≠ id) }
  | none => none

/-- `allocate_probe_id`. -/
def allocateProbeId (p : Predictor) : Nat × Predictor :=
  (p.nextProbeId, { p with nextProbeId := max ((p.nextProbeId + 1) % 2 ^ 32) firstProbeId })

end Predictor

/-- A step of a predictor: the scheduler, the predictor, and the error of a release. -/
structure Stepped where
  scheduler : Scheduler
  predictor : Predictor
  failure : Option ReleaseError

/-- What drives a predictor. Clock readings are those of the scheduler. -/
inductive PredictorOp
  /-- `predict` is called. -/
  | predict
  /-- The id of the probe in a PUNCH_DONE frame, if one has arrived. -/
  | check (done : Option Nat)
  | settle (now : Nat)
  | evict (now : Nat)
  | poll (now now' : Nat)
  /-- The port of the new socket, if it could be bound. -/
  | bind (port : Option Nat) (now : Nat)
  | sent (ok : Bool) (now : Nat)
  | pace
  | release (now : Nat)
  /-- The future is dropped where it waits. -/
  | cancel

namespace Predictor

/-- `release_quota`, with where to go on and where if it fails. -/
def releaseQuota (p : Predictor) (s : Scheduler) (now : Nat) (next failed : Control) : Option Stepped :=
  match s.releasePort 1 p.dst p.device now with
  | (.error e, s) => some ⟨s, { p with control := failed }, some e⟩
  | (.ok (), s) => do
    let quotaHeld ← checkedSub p.quotaHeld 1
    some ⟨s, { p with quotaHeld := quotaHeld, control := next, released := p.released + 1 }, none⟩

/-- `release_probe`. -/
def releaseProbe (p : Predictor) (s : Scheduler) (id now : Nat) (next : Control) : Option Stepped :=
  match p.take id with
  | some p => p.releaseQuota s now next .idle
  | none => some ⟨s, { p with control := next }, none⟩

/-- `acquire_quota` is polled. -/
def acquire (p : Predictor) (s : Scheduler) (now now' : Nat) : Stepped :=
  match s.pollAllocate p.dst p.device 1 now now' with
  | (none, s) => ⟨s, p, none⟩
  | (some granted, s) =>
    ⟨s, { p with
      quotaHeld := p.quotaHeld + 1
      probesCreated := p.probesCreated + 1
      control := .creating
      acquired := p.acquired + granted }, none⟩

/-- One step of `predict`, if it is the one that comes next. -/
def step (p : Predictor) (s : Scheduler) (op : PredictorOp) : Option Stepped :=
  match op, p.control with
  | .predict, .idle => some ⟨s, { p with control := .checking }, none⟩
  | .check done, .checking =>
    match done.bind p.take with
    | some p => some ⟨s, { p with control := .matched }, none⟩
    | none =>
      if p.probesCreated < maxProbes then some ⟨s, { p with control := .evicting }, none⟩
      else some ⟨s, { p with control := .releasing p.pending.keys }, none⟩
  | .settle now, .matched => p.releaseQuota s now (.releasing p.pending.keys) .idle
  | .evict now, .evicting =>
    match if maxConcurrentSockets ≤ p.pending.keys.length then p.order.head? else none with
    | some oldest => p.releaseProbe s oldest now .evicting
    | none => some ⟨s, { p with control := .acquiring }, none⟩
  | .poll now now', .acquiring => some (p.acquire s now now')
  | .bind none now, .creating => p.releaseQuota s now .pacing .pacing
  | .bind (some port) _, .creating =>
    let (id, p) := p.allocateProbeId
    some ⟨s, { p with control := .sending id port }, none⟩
  | .sent true _, .sending id port => some ⟨s, { p.insert id port with control := .pacing }, none⟩
  | .sent false now, .sending _ _ => p.releaseQuota s now .pacing .pacing
  | .pace, .pacing => some ⟨s, { p with control := .checking }, none⟩
  | .release now, .releasing (id :: ids) => p.releaseProbe s id now (.releasing ids)
  | .release _, .releasing [] => some ⟨s, { p with control := .idle }, none⟩
  | .cancel, .acquiring | .cancel, .sending _ _ | .cancel, .pacing => some ⟨s, { p with control := .idle }, none⟩
  | _, _ => none

def Enabled (p : Predictor) : PredictorOp → Prop
  | .predict => p.control = .idle
  | .check _ => p.control = .checking
  | .settle _ => p.control = .matched
  | .evict _ => p.control = .evicting
  | .poll _ _ => p.control = .acquiring
  | .bind _ _ => p.control = .creating
  | .sent _ _ => ∃ id port, p.control = .sending id port
  | .pace => p.control = .pacing
  | .release _ => ∃ ids, p.control = .releasing ids
  | .cancel => p.control = .acquiring ∨ p.control = .pacing ∨ ∃ id port, p.control = .sending id port

end Predictor

/-- The scheduler with the live predictors, what those that were dropped had acquired and released, and the errors that
releasing returned. -/
structure PunchWorld where
  scheduler : Scheduler
  predictors : Table Nat Predictor
  retired : List (Nat × Nat)
  failures : List ReleaseError

inductive PunchOp
  | create (id : Nat) (dst : SocketAddr) (device : String)
  | advance (id : Nat) (op : PredictorOp)
  | drop (id : Nat) (now : Nat)

namespace PunchWorld

/-- A predictor that is dropped has no prediction running any more. -/
def Issued (w : PunchWorld) : PunchOp → Prop
  | .create id _ _ => w.predictors.lookup id = none
  | .advance id op => ∃ p, w.predictors.lookup id = some p ∧ p.Enabled op
  | .drop id _ => ∃ p, w.predictors.lookup id = some p ∧ p.control = .idle

/-- `Drop for PortPredictor`. -/
def dropPredictor (w : PunchWorld) (id : Nat) (p : Predictor) (now : Nat) : PunchWorld :=
  if 0 < p.quotaHeld then
    match w.scheduler.releasePort p.quotaHeld p.dst p.device now with
    | (.error e, s) =>
      ⟨s, w.predictors.erase id, w.retired ++ [(p.acquired, p.released)], w.failures ++ [e]⟩
    | (.ok (), s) => ⟨s, w.predictors.erase id, w.retired ++ [(p.acquired, p.released + p.quotaHeld)], w.failures⟩
  else { w with predictors := w.predictors.erase id, retired := w.retired ++ [(p.acquired, p.released)] }

def exec (w : PunchWorld) : PunchOp → Option PunchWorld
  | .create id dst device => some { w with predictors := w.predictors.insert id (.new dst device) }
  | .advance id op => do
    let p ← w.predictors.lookup id
    let r ← p.step w.scheduler op
    some ⟨r.scheduler, w.predictors.insert id r.predictor, w.retired, w.failures ++ r.failure.toList⟩
  | .drop id now => do
    let p ← w.predictors.lookup id
    some (w.dropPredictor id p now)

end PunchWorld

def punchSystem : System PunchWorld PunchOp where
  init w := w = ⟨.new, ∅, [], []⟩
  issued := PunchWorld.Issued
  exec := PunchWorld.exec

end Punch

end Dquic
