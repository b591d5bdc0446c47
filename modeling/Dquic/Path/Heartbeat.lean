import Dquic.Lib.System
import Dquic.Packet.Buffer

/-!
# Heartbeats of a path

`Heartbeat` of `qbase/src/time/heartbeat.rs` with its `IdleSince` (`time.rs`), and how
`qtransport/src/paths.rs` hands the idle timeout to paths that exist and to paths made later.
Durations and instants are in nanoseconds.
-/

namespace Dquic

open Lib

def second : Nat := 10 ^ 9

def checkAgainLater : Nat := second / 10

def defaultHeartbeatInterval : Nat := 20 * second

/-- `Duration::MAX`. -/
def durationMax : Nat := 2 ^ 64 * second - 1

/-- `Duration::saturating_mul` by a count that is cut to `u32::MAX`. -/
def saturatingMul (interval count : Nat) : Nat := min (interval * min count (2 ^ 32 - 1)) durationMax

structure IdleSince where
  idleSince : Option Nat
  canUpdate : Bool

namespace IdleSince

def new : IdleSince := ⟨none, true⟩

/-- Only the first send after a receive counts, and the result tells whether it did. -/
def onSentAt (s : IdleSince) (now : Nat) : Bool × IdleSince := if s.canUpdate then (true, ⟨some now, false⟩) else (false, s)

def onRcvdAt (_ : IdleSince) (now : Nat) : Bool × IdleSince := (true, ⟨some now, true⟩)

def expiresIn (s : IdleSince) (now timeout : Nat) : Nat :=
  match s.idleSince with
  | none => checkAgainLater
  | some t => if timeout = 0 then checkAgainLater else timeout - (now - t)

def timeoutAfter (s : IdleSince) (now duration : Nat) : Bool :=
  match s.idleSince with
  | none => false
  | some since => since ≤ now ∧ duration ≤ now - since

end IdleSince

structure Heartbeat where
  metric : IdleSince
  counter : Nat
  deferIdleTimeout : Nat
  heartbeatInterval : Nat

/-- What is used of `div_f32(3.0)`, whose rounding is left open. -/
structure Third (third : Nat → Nat) : Prop where
  le : ∀ T, third T ≤ T
  second_le : ∀ T, 3 * second < T → second ≤ third T

namespace Heartbeat

variable (third : Nat → Nat)

def new (deferIdleTimeout maxIdleTimeout : Nat) : Heartbeat where
  metric := .new
  counter := 0
  deferIdleTimeout := deferIdleTimeout
  heartbeatInterval :=
    if maxIdleTimeout = 0 then defaultHeartbeatInterval
    else max (min (third maxIdleTimeout) second) defaultHeartbeatInterval

def adaptMaxIdleTimeout (h : Heartbeat) (maxIdleTimeout : Nat) : Heartbeat :=
  if maxIdleTimeout ≠ 0 then
    { h with heartbeatInterval := min (max (third maxIdleTimeout) second) h.heartbeatInterval }
  else h

/-- The counter starts again when the metric did. -/
def restart (h : Heartbeat) (updated : Bool × IdleSince) : Heartbeat :=
  { h with metric := updated.2, counter := if updated.1 then 0 else h.counter }

def onSentAt (h : Heartbeat) (content : PacketContent) (now : Nat) : Heartbeat :=
  if content = .effectivePayload then h.restart (h.metric.onSentAt now) else h

def onRcvdAt (h : Heartbeat) (content : PacketContent) (now : Nat) : Heartbeat :=
  if content = .effectivePayload then h.restart (h.metric.onRcvdAt now) else h

def timeToHeartbeat (h : Heartbeat) (now : Nat) : Nat :=
  if h.deferIdleTimeout = 0 ∨ h.heartbeatInterval = 0 ∨ h.metric.timeoutAfter now h.deferIdleTimeout then
    checkAgainLater
  else h.metric.expiresIn now (saturatingMul h.heartbeatInterval (h.counter + 1))

def pollDump (h : Heartbeat) (now : Nat) (b : PacketBuffer) : Option (PollDump × Heartbeat × PacketBuffer) :=
  if h.timeToHeartbeat now ≠ 0 then some (.pending, h, b)
  else do
    let (result, b) ← b.pollFrame .ping
    match result with
    | .ok 1 => do
      let counter ← checkedAdd h.counter 1
      some (.ready result, { h with counter := counter }, b)
    | _ => some (.ready result, h, b)

def dueAt (h : Heartbeat) : Option Nat :=
  h.metric.idleSince.map (· + saturatingMul h.heartbeatInterval (h.counter + 1))

end Heartbeat

namespace Paths

variable (third : Nat → Nat)

end Paths

/-! ### Runs -/

/-- A heartbeat with the latest effective activity, the instant at which the previous PING fell due,
and the idle timeouts it was given. -/
structure Beating where
  heartbeat : Heartbeat
  activity : Option Nat
  lastDue : Option Nat
  given : List Nat

inductive BeatOp
  | sent (content : PacketContent) (now : Nat)
  | rcvd (content : PacketContent) (now : Nat)
  | adapt (maxIdleTimeout : Nat)
  | poll (now : Nat) (b : PacketBuffer)

namespace Beating

/-- Callers read the clock before they take the lock, so instants need not come in order. -/
def seen (w : Beating) (content : PacketContent) (now : Nat) : Option Nat :=
  if content = .effectivePayload then some (w.activity.elim now (max now)) else w.activity

def exec (third : Nat → Nat) (w : Beating) : BeatOp → Option Beating
  | .sent content now => some { w with heartbeat := w.heartbeat.onSentAt content now, activity := w.seen content now }
  | .rcvd content now => some { w with heartbeat := w.heartbeat.onRcvdAt content now, activity := w.seen content now }
  | .adapt T => some { w with heartbeat := w.heartbeat.adaptMaxIdleTimeout third T, given := T :: w.given }
  | .poll now b => do
    let (result, h, _) ← w.heartbeat.pollDump now b
    match result with
    | .ready (.ok 1) => some { w with heartbeat := h, lastDue := w.heartbeat.dueAt }
    | _ => some { w with heartbeat := h }

end Beating

variable {third : Nat → Nat} {w w' : Beating} {h h' : Heartbeat} {T I J n now : Nat}

@[simp] lemma saturatingMul_zero : saturatingMul I 0 = 0 := by simp [saturatingMul]

lemma saturatingMul_mono (hle : I ≤ J) : saturatingMul I n ≤ saturatingMul J n := by
  have hmul := Nat.mul_le_mul_right (min n (2 ^ 32 - 1)) hle
  unfold saturatingMul
  omega

namespace Heartbeat

lemma pollDump_cases {b b' : PacketBuffer} {result : PollDump}
    (hpoll : h.pollDump now b = some (result, h', b')) :
    (h' = h ∧ result ≠ .ready (.ok 1)) ∨
      (h.timeToHeartbeat now = 0 ∧ result = .ready (.ok 1) ∧ h' = { h with counter := h.counter + 1 }) := by
  unfold pollDump at hpoll
  split at hpoll
  · cases hpoll
    exact Or.inl ⟨rfl, by simp⟩
  · rename_i hzero
    obtain ⟨⟨r, b₁⟩, -, hpoll⟩ := of_bind hpoll
    dsimp only at hpoll
    split at hpoll
    · obtain ⟨counter, hcounter, hpoll⟩ := of_bind hpoll
      cases hpoll
      exact Or.inr ⟨not_not.mp hzero, rfl, by rw [checkedAdd_eq_some hcounter]⟩
    · rename_i hne
      cases hpoll
      refine Or.inl ⟨rfl, ?_⟩
      rintro heq
      cases heq
      exact hne rfl

end Heartbeat

namespace Beating

/-- The schedule so far ends no later than the latest activity or the previous due PING. -/
structure Paced (w : Beating) : Prop where
  second_le : second ≤ w.heartbeat.heartbeatInterval
  anchored : ∀ t, w.heartbeat.metric.idleSince = some t → ∃ ref, (w.activity = some ref ∨ w.lastDue = some ref) ∧
    t + saturatingMul w.heartbeat.heartbeatInterval w.heartbeat.counter ≤ ref
  interval_le : ∀ T ∈ w.given, 3 * second < T → w.heartbeat.heartbeatInterval ≤ T

lemma exists_seen_ge (content : PacketContent) (now : Nat) {ref : Nat} (href : w.activity = some ref) :
    ∃ ref', w.seen content now = some ref' ∧ ref ≤ ref' := by
  unfold seen
  split_ifs
  · exact ⟨_, rfl, by rw [href]; exact le_max_right _ _⟩
  · exact ⟨ref, href, le_rfl⟩

lemma exists_seen_now (now : Nat) : ∃ ref, w.seen .effectivePayload now = some ref ∧ now ≤ ref := by
  refine ⟨_, if_pos rfl, ?_⟩
  cases w.activity with
  | none => exact le_rfl
  | some a => exact le_max_left _ _

/-- Later activity only moves the reference up. -/
lemma Paced.seen (hw : w.Paced) (content : PacketContent) (now : Nat) :
    ({ w with activity := w.seen content now } : Beating).Paced := by
  refine ⟨hw.second_le, fun t ht => ?_, hw.interval_le⟩
  obtain ⟨ref, href | href, hle⟩ := hw.anchored t ht
  · obtain ⟨ref', href', hle'⟩ := exists_seen_ge content now href
    exact ⟨ref', Or.inl href', hle.trans hle'⟩
  · exact ⟨ref, Or.inr href, hle⟩

/-- A restart counts from the activity that is seen with it. -/
lemma Paced.restarted (hw : w.Paced) (canUpdate : Bool) (now : Nat) :
    ({ w with
      heartbeat := w.heartbeat.restart (true, ⟨some now, canUpdate⟩)
      activity := w.seen .effectivePayload now } : Beating).Paced := by
  refine ⟨hw.second_le, ?_, hw.interval_le⟩
  rintro t ⟨⟩
  obtain ⟨ref, href, hle⟩ := exists_seen_now (w := w) now
  refine ⟨ref, Or.inl href, ?_⟩
  simpa only [Heartbeat.restart, if_true, saturatingMul_zero, Nat.add_zero] using hle

lemma Paced.sent (hw : w.Paced) (content : PacketContent) (now : Nat) :
    ({ w with heartbeat := w.heartbeat.onSentAt content now, activity := w.seen content now } : Beating).Paced := by
  by_cases hcontent : content = .effectivePayload
  · subst hcontent
    rw [Heartbeat.onSentAt, if_pos rfl, IdleSince.onSentAt]
    split_ifs
    · exact hw.restarted false now
    · exact hw.seen .effectivePayload now
  · rw [Heartbeat.onSentAt, if_neg hcontent]
    exact hw.seen content now

lemma Paced.rcvd (hw : w.Paced) (content : PacketContent) (now : Nat) :
    ({ w with heartbeat := w.heartbeat.onRcvdAt content now, activity := w.seen content now } : Beating).Paced := by
  by_cases hcontent : content = .effectivePayload
  · subst hcontent
    rw [Heartbeat.onRcvdAt, if_pos rfl]
    exact hw.restarted true now
  · rw [Heartbeat.onRcvdAt, if_neg hcontent]
    exact hw.seen content now

/-- Adapting never lengthens the interval, and cuts it to the timeout given. -/
lemma Paced.adapt (hthird : Third third) (hw : w.Paced) (T : Nat) :
    ({ w with heartbeat := w.heartbeat.adaptMaxIdleTimeout third T, given := T :: w.given } : Beating).Paced := by
  by_cases hT : T = 0
  · rw [Heartbeat.adaptMaxIdleTimeout, if_neg (not_not.mpr hT)]
    refine ⟨hw.second_le, hw.anchored, List.forall_mem_cons.mpr ⟨fun hpos => ?_, hw.interval_le⟩⟩
    omega
  · have hone := hw.second_le
    have hle := hthird.le T
    rw [Heartbeat.adaptMaxIdleTimeout, if_pos hT]
    refine ⟨le_min (le_max_right _ _) hone, fun t ht => ?_, List.forall_mem_cons.mpr ⟨fun hpos => ?_, ?_⟩⟩
    · obtain ⟨ref, href, hsum⟩ := hw.anchored t ht
      exact ⟨ref, href, (Nat.add_le_add_left (saturatingMul_mono (min_le_right _ _)) t).trans hsum⟩
    · dsimp only
      omega
    · exact fun T' hmem hpos => (min_le_right _ _).trans (hw.interval_le T' hmem hpos)

/-- A PING that was due is itself the new reference. -/
lemma Paced.polled (hw : w.Paced) :
    ({ w with
      heartbeat := { w.heartbeat with counter := w.heartbeat.counter + 1 }
      lastDue := w.heartbeat.dueAt } : Beating).Paced := by
  refine ⟨hw.second_le, fun t ht => ?_, hw.interval_le⟩
  have hsince : w.heartbeat.metric.idleSince = some t := ht
  exact ⟨_, Or.inr (by rw [Heartbeat.dueAt, hsince]; rfl), le_rfl⟩

lemma Paced.step (hthird : Third third) (hw : w.Paced) {op : BeatOp} (hexec : exec third w op = some w') :
    w'.Paced := by
  cases op with
  | sent content now =>
    cases hexec
    exact hw.sent content now
  | rcvd content now =>
    cases hexec
    exact hw.rcvd content now
  | adapt T =>
    cases hexec
    exact hw.adapt hthird T
  | poll now b =>
    obtain ⟨⟨result, h, b'⟩, hpoll, hexec⟩ := of_bind hexec
    obtain ⟨rfl, hne⟩ | ⟨-, rfl, rfl⟩ := Heartbeat.pollDump_cases hpoll
    · dsimp only at hexec
      split at hexec
      · exact absurd rfl hne
      · cases hexec
        exact hw
    · cases hexec
      exact hw.polled

end Beating

end Dquic
