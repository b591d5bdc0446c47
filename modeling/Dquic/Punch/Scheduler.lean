import Dquic.Frame.Wire
import Dquic.Lib.Table

/-!
# The quota of ports

`Scheduler` and `DeviceLedger` of `qtraversal/src/punch/scheduler.rs`: sockets are granted per
device and destination below limits, and their ports count for a minute after they were released.
-/

namespace Dquic

open Lib

namespace Punch

def maxSocketsPerDevice : Nat := 300

def maxPortsPerDevice : Nat := 600

def maxTotalSockets : Nat := 600

def maxTotalPorts : Nat := 1200

def portCoolingInterval : Nat := 60 * 10 ^ 9

/-- `DeviceKey`. -/
structure DeviceKey where
  device : String
  family : Family
  deriving DecidableEq, Repr

/-- Counts that wait for the cooling interval, from when they were released. -/
abbrev Cooling := List (Nat × Nat)

def Cooling.count (c : Cooling) : Nat := (c.map Prod.snd).sum

/-- `reap_cooling`: the counter of ports, what is still cooling, and whether a subtraction was cut off. -/
def reapCooling (now : Nat) : Cooling → (ports : Nat) → Nat × Cooling × Bool
  | [], ports => (ports, [], false)
  | (time, count) :: rest, ports =>
    if portCoolingInterval < now - time then
      let (ports', kept, saturated) := reapCooling now rest (ports - count)
      (ports', kept, saturated || decide (ports < count))
    else
      let (ports', kept, saturated) := reapCooling now rest ports
      (ports', (time, count) :: kept, saturated)

structure DeviceLedger where
  sockets : Nat
  ports : Nat
  cooling : Cooling
  perDest : Table SocketAddr Nat

def DeviceLedger.new : DeviceLedger := ⟨0, 0, [], ∅⟩

def DeviceLedger.available (l : DeviceLedger) : Nat := min (maxSocketsPerDevice - l.sockets) (maxPortsPerDevice - l.ports)

structure Scheduler where
  devices : Table DeviceKey DeviceLedger
  totalSockets : Nat
  totalPorts : Nat
  cooling : Cooling
  saturated : Bool

inductive ReleaseError
  | deviceNotFound
  | insufficientSockets
  | socketCountMismatch
  deriving DecidableEq, Repr

namespace Scheduler

def new : Scheduler := ⟨∅, 0, 0, [], false⟩

def globalAvailable (s : Scheduler) : Nat := min (maxTotalSockets - s.totalSockets) (maxTotalPorts - s.totalPorts)

def reap (s : Scheduler) (now : Nat) : Scheduler :=
  let (ports, cooling, saturated) := reapCooling now s.cooling s.totalPorts
  { s with totalPorts := ports, cooling := cooling, saturated := s.saturated || saturated }

/-- The ledger of a device, which is made if there is none, after cooling. -/
def reapLedger (s : Scheduler) (key : DeviceKey) (now : Nat) : DeviceLedger × Bool :=
  let ledger := (s.devices.lookup key).getD .new
  let (ports, cooling, saturated) := reapCooling now ledger.cooling ledger.ports
  ({ ledger with ports := ports, cooling := cooling }, saturated)

/-- A subtraction of `available` or `global_available` is cut off. -/
def cutOff (s : Scheduler) (ledger : DeviceLedger) : Bool :=
  decide (maxTotalSockets < s.totalSockets) || decide (maxTotalPorts < s.totalPorts) ||
    decide (maxSocketsPerDevice < ledger.sockets) || decide (maxPortsPerDevice < ledger.ports)

/-- How many were granted, where `none` is `Pending`. The clock is read once for the scheduler and once for the device. -/
def pollAllocate (s : Scheduler) (dest : SocketAddr) (device : String) (count now now' : Nat) : Option Nat × Scheduler :=
  let s := s.reap now
  let key : DeviceKey := ⟨device, dest.family⟩
  let (ledger, saturated) := s.reapLedger key now'
  let granted := min (min s.globalAvailable ledger.available) count
  let s := { s with saturated := s.saturated || saturated || s.cutOff ledger }
  if 0 < granted then
    let ledger := { ledger with
      sockets := ledger.sockets + granted
      ports := ledger.ports + granted
      perDest := ledger.perDest.insert dest ((ledger.perDest.lookup dest).getD 0 + granted) }
    (some granted, { s with
      devices := s.devices.insert key ledger
      totalSockets := s.totalSockets + granted
      totalPorts := s.totalPorts + granted })
  else (none, { s with devices := s.devices.insert key ledger })

def releasePort (s : Scheduler) (count : Nat) (dst : SocketAddr) (device : String) (now : Nat) :
    Except ReleaseError Unit × Scheduler :=
  let key : DeviceKey := ⟨device, dst.family⟩
  match s.devices.lookup key with
  | none => (.error .deviceNotFound, s)
  | some ledger =>
    let destCount := (ledger.perDest.lookup dst).getD 0
    if ledger.sockets < count then (.error .insufficientSockets, s)
    else if destCount < count then (.error .socketCountMismatch, s)
    else
      let ledger := { ledger with
        sockets := ledger.sockets - count
        cooling := ledger.cooling ++ [(now, count)]
        perDest :=
          if count < destCount then ledger.perDest.insert dst (destCount - count) else ledger.perDest.erase dst }
      (.ok (), { s with
        devices := s.devices.insert key ledger
        totalSockets := s.totalSockets - count
        cooling := s.cooling ++ [(now, count)]
        saturated := s.saturated || decide (s.totalSockets < count) })

end Scheduler

/-! ### The books agree -/

lemma Cooling.count_append (c : Cooling) (time n : Nat) : Cooling.count (c ++ [(time, n)]) = c.count + n := by
  unfold count
  rw [List.map_append, List.sum_append]
  exact congrArg _ (Nat.add_zero n)

lemma reapCooling_spec (now : Nat) {base : Nat} {cooling : Cooling} {ports : Nat} (h : ports = base + cooling.count) :
    ∃ kept, reapCooling now cooling ports = (base + Cooling.count kept, kept, false) ∧ Cooling.count kept ≤ cooling.count := by
  induction cooling generalizing ports base with
  | nil => exact ⟨[], by rw [h]; rfl, le_rfl⟩
  | cons entry rest ih =>
    obtain ⟨time, count⟩ := entry
    have hcount : Cooling.count ((time, count) :: rest) = count + Cooling.count rest := List.sum_cons
    rw [hcount] at h ⊢
    unfold reapCooling
    split
    · obtain ⟨kept, hkept, hle⟩ := ih (show ports - count = base + Cooling.count rest by omega)
      refine ⟨kept, ?_, le_trans hle (Nat.le_add_left _ _)⟩
      rw [hkept]
      have hno : decide (ports < count) = false := decide_eq_false (by omega)
      simp only [hno, Bool.or_false]
    · obtain ⟨kept, hkept, hle⟩ := ih (show ports = base + count + Cooling.count rest by omega)
      have hkeep : Cooling.count ((time, count) :: kept) = count + Cooling.count kept := List.sum_cons
      refine ⟨(time, count) :: kept, ?_, by omega⟩
      rw [hkept, hkeep]
      simp only [Nat.add_assoc]

structure DeviceLedger.Sound (l : DeviceLedger) : Prop where
  dests : l.sockets = l.perDest.total id
  ports : l.ports = l.sockets + l.cooling.count
  sockets_le : l.sockets ≤ maxSocketsPerDevice
  ports_le : l.ports ≤ maxPortsPerDevice

lemma DeviceLedger.sound_new : DeviceLedger.new.Sound := ⟨rfl, rfl, Nat.zero_le _, Nat.zero_le _⟩

namespace Scheduler

def booked (s : Scheduler) (key : DeviceKey) (dst : SocketAddr) : Nat :=
  (s.devices.lookup key).elim 0 fun l => (l.perDest.lookup dst).getD 0

structure Sound (s : Scheduler) : Prop where
  sockets : s.totalSockets = s.devices.total DeviceLedger.sockets
  ports : s.totalPorts = s.totalSockets + s.cooling.count
  sockets_le : s.totalSockets ≤ maxTotalSockets
  ports_le : s.totalPorts ≤ maxTotalPorts
  ledger : ∀ key l, s.devices.lookup key = some l → l.Sound
  exact : s.saturated = false

lemma sound_new : Sound new := by
  refine ⟨rfl, rfl, Nat.zero_le _, Nat.zero_le _, ?_, rfl⟩
  intro key l h
  cases h

variable {s : Scheduler}

lemma Sound.reap (h : s.Sound) (now : Nat) :
    (s.reap now).Sound ∧ (s.reap now).totalSockets = s.totalSockets ∧ (s.reap now).devices = s.devices := by
  obtain ⟨kept, hkept, hle⟩ := reapCooling_spec now h.ports
  have hports := h.ports
  have hports_le := h.ports_le
  unfold Scheduler.reap
  rw [hkept]
  refine ⟨⟨h.sockets, rfl, h.sockets_le, ?_, h.ledger, ?_⟩, rfl, rfl⟩
  · dsimp only
    omega
  · dsimp only
    rw [h.exact]
    rfl

lemma Sound.reapLedger (h : s.Sound) (key : DeviceKey) (now : Nat) :
    ∃ l, s.reapLedger key now = (l, false) ∧ l.Sound ∧ l.sockets = ((s.devices.lookup key).getD .new).sockets ∧
      l.perDest = ((s.devices.lookup key).getD .new).perDest := by
  have hold : ((s.devices.lookup key).getD .new).Sound := by
    cases hl : s.devices.lookup key with
    | none => exact DeviceLedger.sound_new
    | some l => exact h.ledger key l hl
  obtain ⟨kept, hkept, hle⟩ := reapCooling_spec now hold.ports
  have hports := hold.ports
  have hports_le := hold.ports_le
  refine ⟨{ (s.devices.lookup key).getD .new with
    ports := ((s.devices.lookup key).getD .new).sockets + Cooling.count kept
    cooling := kept }, ?_, ⟨hold.dests, rfl, hold.sockets_le, ?_⟩, rfl, rfl⟩
  · unfold Scheduler.reapLedger
    dsimp only
    rw [hkept]
  · dsimp only
    omega

variable {l : DeviceLedger} {key : DeviceKey}

lemma Sound.not_cutOff (h : s.Sound) (hl : l.Sound) : s.cutOff l = false := by
  unfold cutOff
  rw [decide_eq_false (not_lt.mpr h.sockets_le), decide_eq_false (not_lt.mpr h.ports_le),
    decide_eq_false (not_lt.mpr hl.sockets_le), decide_eq_false (not_lt.mpr hl.ports_le)]
  rfl

lemma ledger_sockets (s : Scheduler) (key : DeviceKey) :
    (s.devices.lookup key).elim 0 DeviceLedger.sockets = ((s.devices.lookup key).getD .new).sockets := by
  cases s.devices.lookup key with
  | _ => rfl

/-- The ledger of one device changes, and the totals with it. -/
lemma Sound.update {s' : Scheduler} (h : s.Sound) (hl : l.Sound) (hdevices : s'.devices = s.devices.insert key l)
    (htotal : s'.totalSockets + ((s.devices.lookup key).getD .new).sockets = s.totalSockets + l.sockets)
    (hports : s'.totalPorts = s'.totalSockets + s'.cooling.count) (hsockets_le : s'.totalSockets ≤ maxTotalSockets)
    (hports_le : s'.totalPorts ≤ maxTotalPorts) (hexact : s'.saturated = false) : s'.Sound := by
  refine ⟨?_, hports, hsockets_le, hports_le, hdevices ▸ Table.forall_insert h.ledger hl, hexact⟩
  have hinsert := Table.total_insert s.devices DeviceLedger.sockets key l
  have hsockets := h.sockets
  rw [ledger_sockets] at hinsert
  rw [hdevices]
  omega

lemma booked_eq (s : Scheduler) (key : DeviceKey) (dst : SocketAddr) :
    s.booked key dst = (((s.devices.lookup key).getD .new).perDest.lookup dst).getD 0 := by
  unfold booked
  cases s.devices.lookup key with
  | none => rfl
  | some l => rfl

/-- One destination of one device gains and loses; the bookings of the others stay. -/
def Rebooked (s s' : Scheduler) (key : DeviceKey) (dst : SocketAddr) (gain loss : Nat) : Prop :=
  ∀ key' d, s'.booked key' d + (if key = key' ∧ dst = d then loss else 0) =
    s.booked key' d + if key = key' ∧ dst = d then gain else 0

lemma rebooked_insert {s' : Scheduler} (hs' : s'.devices = s.devices.insert key l) {dst : SocketAddr} {gain loss : Nat}
    (hl : ∀ d, (l.perDest.lookup d).getD 0 + (if dst = d then loss else 0) =
      s.booked key d + if dst = d then gain else 0) : s.Rebooked s' key dst gain loss := by
  intro key' d
  by_cases hkey : key = key'
  · subst hkey
    simp only [true_and]
    rw [← hl d]
    unfold booked
    rw [hs', AList.lookup_insert, Option.elim_some]
  · unfold booked
    rw [hs', Table.lookup_insert_eq, if_neg (Ne.symm hkey), if_neg fun h => hkey h.1, if_neg fun h => hkey h.1]

lemma grant_sound (hl : l.Sound) {n : Nat} (hn : n ≤ l.available) (dest : SocketAddr) :
    DeviceLedger.Sound { l with
      sockets := l.sockets + n
      ports := l.ports + n
      perDest := l.perDest.insert dest ((l.perDest.lookup dest).getD 0 + n) } := by
  obtain ⟨hdests, hports, hsockets_le, hports_le⟩ := hl
  have htotal := Table.total_insert l.perDest id dest ((l.perDest.lookup dest).getD 0 + n)
  rw [Table.elim_id, id_eq] at htotal
  unfold DeviceLedger.available at hn
  constructor <;> dsimp only <;> omega

lemma Sound.pollAllocate (h : s.Sound) (dest : SocketAddr) (device : String) (count now now' : Nat) :
    let r := s.pollAllocate dest device count now now'
    r.2.Sound ∧ r.2.totalSockets = s.totalSockets + r.1.getD 0 ∧ (∀ n, r.1 = some n → 0 < n ∧ n ≤ count) ∧
      s.Rebooked r.2 ⟨device, dest.family⟩ dest (r.1.getD 0) 0 := by
  obtain ⟨hs, hsockets, hdevices⟩ := h.reap now
  obtain ⟨l, hl, hsound, hlsockets, hdest⟩ := hs.reapLedger ⟨device, dest.family⟩ now'
  unfold Scheduler.pollAllocate
  dsimp only
  rw [hl]
  dsimp only
  have hexact : ((s.reap now).saturated || false || (s.reap now).cutOff l) = false := by
    rw [hs.exact, hs.not_cutOff hsound]
    rfl
  have hperDest : ∀ d, (l.perDest.lookup d).getD 0 = s.booked ⟨device, dest.family⟩ d := by
    intro d
    rw [booked_eq, hdest, hdevices]
  have hports := hs.ports
  have hsockets_le := hs.sockets_le
  have hports_le := hs.ports_le
  generalize s.reap now = s₁ at *
  set granted := min (min s₁.globalAvailable l.available) count with hgranted
  split
  · next hpos =>
    have hglobal : granted ≤ s₁.globalAvailable := le_trans (min_le_left _ _) (min_le_left _ _)
    have hdevice : granted ≤ l.available := le_trans (min_le_left _ _) (min_le_right _ _)
    unfold globalAvailable at hglobal
    refine ⟨hs.update (grant_sound hsound hdevice dest) rfl ?_ ?_ ?_ ?_ hexact, ?_, ?_,
      rebooked_insert (congrArg (AList.insert _ _) hdevices) fun d => ?_⟩
    · dsimp only
      omega
    · dsimp only
      omega
    · dsimp only
      omega
    · dsimp only
      omega
    · rw [← hsockets]
      rfl
    · rintro n ⟨⟩
      exact ⟨hpos, min_le_right _ _⟩
    · rw [Table.lookup_insert_eq, ite_self, Nat.add_zero, ← hperDest]
      by_cases hd : dest = d
      · rw [if_pos hd.symm, if_pos hd, ← hd]
        rfl
      · rw [if_neg (Ne.symm hd), if_neg hd, Nat.add_zero]
  · refine ⟨hs.update hsound rfl ?_ hports hsockets_le hports_le hexact, hsockets, ?_,
      rebooked_insert (congrArg (AList.insert _ _) hdevices) fun d => ?_⟩
    · dsimp only
      omega
    · rintro n ⟨⟩
    · rw [hperDest]
      rfl

lemma Sound.releasePort (h : s.Sound) {count : Nat} {dst : SocketAddr} {device : String} (now : Nat) (hpos : 0 < count)
    (hbooked : count ≤ s.booked ⟨device, dst.family⟩ dst) :
    let r := s.releasePort count dst device now
    r.1 = .ok () ∧ r.2.Sound ∧ r.2.totalSockets + count = s.totalSockets ∧
      s.Rebooked r.2 ⟨device, dst.family⟩ dst 0 count := by
  set key : DeviceKey := ⟨device, dst.family⟩ with hkey
  unfold Scheduler.releasePort
  dsimp only
  rw [← hkey]
  cases hl : s.devices.lookup key with
  | none =>
    unfold booked at hbooked
    rw [hl] at hbooked
    exact absurd hbooked (not_le.mpr hpos)
  | some l =>
    have hsound := h.ledger key l hl
    have hbook : ∀ d, s.booked key d = (l.perDest.lookup d).getD 0 := by
      intro d
      rw [booked_eq, hl]
      rfl
    rw [hbook] at hbooked
    have hdest : (l.perDest.lookup dst).getD 0 ≤ l.sockets := by
      rw [hsound.dests, ← Table.elim_id]
      exact Table.le_total l.perDest id dst
    have htotal : l.sockets ≤ s.totalSockets := by
      have hle := Table.le_total s.devices DeviceLedger.sockets key
      rw [← h.sockets, hl] at hle
      exact hle
    have hlower := Table.total_lower hbooked
    have hports := h.ports
    have hsockets_le := h.sockets_le
    have hnew : DeviceLedger.Sound { l with
        sockets := l.sockets - count
        cooling := l.cooling ++ [(now, count)]
        perDest := if count < (l.perDest.lookup dst).getD 0 then
            l.perDest.insert dst ((l.perDest.lookup dst).getD 0 - count) else l.perDest.erase dst } := by
      obtain ⟨hdests, hlports, hlsockets_le, hlports_le⟩ := hsound
      refine ⟨?_, ?_, ?_, hlports_le⟩
      · dsimp only
        omega
      · dsimp only
        rw [Cooling.count_append]
        omega
      · dsimp only
        omega
    dsimp only
    rw [if_neg (not_lt.mpr (le_trans hbooked hdest)), if_neg (not_lt.mpr hbooked)]
    refine ⟨rfl, h.update hnew rfl ?_ ?_ ?_ h.ports_le ?_, ?_, rebooked_insert rfl fun d => ?_⟩
    · rw [hl, Option.getD_some]
      dsimp only
      omega
    · dsimp only
      rw [Cooling.count_append]
      omega
    · dsimp only
      omega
    · dsimp only
      rw [h.exact, decide_eq_false (by omega)]
      rfl
    · dsimp only
      omega
    · rw [ite_self, hbook]
      exact Table.lookup_lower hbooked d

end Scheduler

end Punch

end Dquic
