import Dquic.Punch.Predictor

/-!
# The quota is conserved

Each step of a predictor moves the same number of units in its own counter, in the ledger of its
device and in the totals of the scheduler.
-/

namespace Dquic

open Lib

namespace Punch

def Control.reserve : Control → Nat
  | .matched | .creating | .sending _ _ => 1
  | _ => 0

namespace Predictor

structure Sound (p : Predictor) : Prop where
  quota : p.pending.keys.length + p.control.reserve ≤ p.quotaHeld
  balance : p.acquired = p.released + p.quotaHeld

lemma sound_new (dst : SocketAddr) (device : String) : (new dst device).Sound := ⟨le_rfl, rfl⟩

def units (key : DeviceKey) (dst : SocketAddr) (p : Predictor) : Nat := if p.key = key ∧ p.dst = dst then p.quotaHeld else 0

/-- A step that takes `gain` units from the scheduler and gives `loss` units back. -/
structure Exchanged (s : Scheduler) (p : Predictor) (gain loss : Nat) (r : Stepped) : Prop where
  failure : r.failure = none
  dst : r.predictor.dst = p.dst
  device : r.predictor.device = p.device
  predictor : r.predictor.Sound
  scheduler : r.scheduler.Sound
  held : r.predictor.quotaHeld + loss = p.quotaHeld + gain
  sockets : r.scheduler.totalSockets + loss = s.totalSockets + gain
  booked : ∀ key d, r.scheduler.booked key d + (if p.key = key ∧ p.dst = d then loss else 0) =
    s.booked key d + (if p.key = key ∧ p.dst = d then gain else 0)

variable {s : Scheduler} {p : Predictor}

variable {p' : Predictor}

lemma exchanged_stay (hs : s.Sound) (hdst : p'.dst = p.dst) (hdevice : p'.device = p.device)
    (hquota : p'.quotaHeld = p.quotaHeld) (hp' : p'.Sound) : Exchanged s p 0 0 ⟨s, p', none⟩ :=
  ⟨rfl, hdst, hdevice, hp', hs, congrArg (· + 0) hquota, rfl, fun _ _ => rfl⟩

lemma take_eq_some {id : Nat} (h : p.take id = some p') :
    p'.pending.keys.length + 1 = p.pending.keys.length ∧ p'.dst = p.dst ∧ p'.device = p.device ∧
      p'.quotaHeld = p.quotaHeld ∧ p'.acquired = p.acquired ∧ p'.released = p.released := by
  unfold take at h
  cases hl : p.pending.lookup id with
  | none =>
    rw [hl] at h
    cases h
  | some port =>
    rw [hl] at h
    cases h
    have hmem : id ∈ p.pending.keys := AList.mem_keys.mp (AList.lookup_isSome.mp (by rw [hl]; rfl))
    refine ⟨?_, rfl, rfl, rfl, rfl, rfl⟩
    dsimp only
    rw [AList.keys_erase, List.length_erase_of_mem hmem]
    have hpos := List.length_pos_of_mem hmem
    omega

lemma releaseQuota_exchanged (hs : s.Sound) (hbook : p.quotaHeld ≤ s.booked p.key p.dst)
    (hbalance : p.acquired = p.released + p.quotaHeld) (now : Nat) (next failed : Control) (hquota : p.pending.keys.length + next.reserve + 1 ≤ p.quotaHeld) :
    ∃ r, p.releaseQuota s now next failed = some r ∧ Exchanged s p 0 1 r := by
  have hone : 1 ≤ p.quotaHeld := by omega
  obtain ⟨hok, hsound, htotal, hbooked⟩ := hs.releasePort now Nat.one_pos (le_trans hone hbook)
  unfold releaseQuota
  rcases hr : s.releasePort 1 p.dst p.device now with ⟨result, s'⟩
  rw [hr] at hok hsound htotal hbooked
  subst hok
  dsimp only at hsound htotal hbooked ⊢
  rw [checkedSub_of_le hone]
  refine ⟨_, rfl, rfl, rfl, rfl, ⟨?_, ?_⟩, hsound, ?_, htotal, hbooked⟩
  · dsimp only
    omega
  · dsimp only
    omega
  · dsimp only
    omega

lemma Exchanged.of_same {p₀ : Predictor} {gain loss : Nat} {r : Stepped} (h : Exchanged s p gain loss r) (hdst : p.dst = p₀.dst)
    (hdevice : p.device = p₀.device) (hquota : p.quotaHeld = p₀.quotaHeld) : Exchanged s p₀ gain loss r := by
  have hkey : p.key = p₀.key := by
    unfold key
    rw [hdst, hdevice]
  refine ⟨h.failure, h.dst.trans hdst, h.device.trans hdevice, h.predictor, h.scheduler, ?_, h.sockets, ?_⟩
  · rw [← hquota]
    exact h.held
  · rw [← hkey, ← hdst]
    exact h.booked

lemma releaseProbe_exchanged (hs : s.Sound) (hp : p.Sound) (hbook : p.quotaHeld ≤ s.booked p.key p.dst) (id now : Nat)
    {next : Control} (hnext : next.reserve = 0) :
    ∃ r gain loss, p.releaseProbe s id now next = some r ∧ Exchanged s p gain loss r := by
  have hquota := hp.quota
  unfold releaseProbe
  cases htake : p.take id with
  | none =>
    refine ⟨_, 0, 0, rfl, exchanged_stay hs rfl rfl rfl ⟨?_, hp.balance⟩⟩
    dsimp only
    omega
  | some p' =>
    obtain ⟨hlen, hdst, hdevice, hheld, hacq, hrel⟩ := take_eq_some htake
    have hkey : p'.key = p.key := by
      unfold key
      rw [hdst, hdevice]
    obtain ⟨r, hr, hex⟩ := releaseQuota_exchanged (s := s) (p := p') hs (by rw [hheld, hkey, hdst]; exact hbook)
      (by rw [hacq, hrel, hheld]; exact hp.balance) now next .idle (by omega)
    exact ⟨r, 0, 1, hr, hex.of_same hdst hdevice hheld⟩

lemma acquire_exchanged (hs : s.Sound) (hp : p.Sound) (now now' : Nat) (hcontrol : p.control = .acquiring) :
    ∃ gain loss, Exchanged s p gain loss (p.acquire s now now') := by
  obtain ⟨hsound, htotal, hgranted, hbooked⟩ := hs.pollAllocate p.dst p.device 1 now now'
  have hquota := hp.quota
  have hbalance := hp.balance
  rw [hcontrol] at hquota
  unfold acquire
  rcases hr : s.pollAllocate p.dst p.device 1 now now' with ⟨granted, s'⟩
  rw [hr] at hsound htotal hgranted hbooked
  cases granted with
  | none => exact ⟨0, 0, rfl, rfl, rfl, hp, hsound, rfl, htotal, hbooked⟩
  | some n =>
    have hn : n = 1 := by
      have := hgranted n rfl
      omega
    subst hn
    refine ⟨1, 0, rfl, rfl, rfl, ⟨?_, ?_⟩, hsound, rfl, htotal, hbooked⟩
    · dsimp only [Control.reserve] at hquota ⊢
      omega
    · dsimp only
      omega

lemma step_exchanged (hs : s.Sound) (hp : p.Sound) (hbook : p.quotaHeld ≤ s.booked p.key p.dst) {op : PredictorOp}
    (hop : p.Enabled op) : ∃ r gain loss, p.step s op = some r ∧ Exchanged s p gain loss r := by
  have hquota := hp.quota
  have hbalance := hp.balance
  -- steps inside the predictor, to a place that needs no more units
  have hstay : ∀ {c : Control}, c.reserve = 0 → Exchanged s p 0 0 ⟨s, { p with control := c }, none⟩ := by
    intro c hc
    refine exchanged_stay hs rfl rfl rfl ⟨?_, hp.balance⟩
    dsimp only
    omega
  cases op with
  | predict =>
    have hcontrol : p.control = .idle := hop
    unfold step
    rw [hcontrol]
    exact ⟨_, 0, 0, rfl, hstay rfl⟩
  | check done =>
    have hcontrol : p.control = .checking := hop
    unfold step
    rw [hcontrol]
    dsimp only
    cases hdone : done.bind p.take with
    | none =>
      dsimp only
      split
      · exact ⟨_, 0, 0, rfl, hstay rfl⟩
      · exact ⟨_, 0, 0, rfl, hstay rfl⟩
    | some p' =>
      obtain ⟨id, -, htake⟩ := of_bind hdone
      obtain ⟨hlen, hdst, hdevice, hheld, hacq, hrel⟩ := take_eq_some htake
      refine ⟨_, 0, 0, rfl, exchanged_stay hs hdst hdevice hheld ⟨?_, ?_⟩⟩
      · dsimp only [Control.reserve]
        omega
      · dsimp only
        omega
  | settle now =>
    have hcontrol : p.control = .matched := hop
    rw [hcontrol] at hquota
    unfold step
    rw [hcontrol]
    obtain ⟨r, hr, hex⟩ := releaseQuota_exchanged hs hbook hbalance now (.releasing p.pending.keys) .idle hquota
    exact ⟨r, 0, 1, hr, hex⟩
  | evict now =>
    have hcontrol : p.control = .evicting := hop
    unfold step
    rw [hcontrol]
    dsimp only
    cases holdest : (if maxConcurrentSockets ≤ p.pending.keys.length then p.order.head? else none) with
    | none => exact ⟨_, 0, 0, rfl, hstay rfl⟩
    | some oldest => exact releaseProbe_exchanged hs hp hbook oldest now rfl
  | poll now now' =>
    have hcontrol : p.control = .acquiring := hop
    unfold step
    rw [hcontrol]
    obtain ⟨gain, loss, hex⟩ := acquire_exchanged hs hp now now' hcontrol
    exact ⟨_, gain, loss, rfl, hex⟩
  | bind port now =>
    have hcontrol : p.control = .creating := hop
    rw [hcontrol] at hquota
    unfold step
    rw [hcontrol]
    cases port with
    | none =>
      obtain ⟨r, hr, hex⟩ := releaseQuota_exchanged hs hbook hbalance now .pacing .pacing hquota
      exact ⟨r, 0, 1, hr, hex⟩
    | some port => exact ⟨_, 0, 0, rfl, exchanged_stay hs rfl rfl rfl ⟨hquota, hbalance⟩⟩
  | sent ok now =>
    obtain ⟨id, port, hcontrol⟩ := hop
    rw [hcontrol] at hquota
    unfold step
    rw [hcontrol]
    cases ok with
    | false =>
      obtain ⟨r, hr, hex⟩ := releaseQuota_exchanged hs hbook hbalance now .pacing .pacing hquota
      exact ⟨r, 0, 1, hr, hex⟩
    | true =>
      refine ⟨_, 0, 0, rfl, exchanged_stay hs rfl rfl rfl ⟨?_, hbalance⟩⟩
      have hlen : (p.pending.insert id port).keys.length ≤ p.pending.keys.length + 1 := by
        rw [AList.keys_insert, List.length_cons]
        exact Nat.succ_le_succ List.length_erase_le
      exact le_trans hlen hquota
  | pace =>
    have hcontrol : p.control = .pacing := hop
    unfold step
    rw [hcontrol]
    exact ⟨_, 0, 0, rfl, hstay rfl⟩
  | release now =>
    obtain ⟨ids, hcontrol⟩ := hop
    unfold step
    rw [hcontrol]
    cases ids with
    | nil => exact ⟨_, 0, 0, rfl, hstay rfl⟩
    | cons id ids => exact releaseProbe_exchanged hs hp hbook id now rfl
  | cancel =>
    unfold step
    obtain hcontrol | hcontrol | ⟨id, port, hcontrol⟩ := hop <;>
    · rw [hcontrol]
      exact ⟨_, 0, 0, rfl, hstay rfl⟩

end Predictor

/-! ### Every run -/

namespace PunchWorld

structure Sound (w : PunchWorld) : Prop where
  scheduler : w.scheduler.Sound
  predictors : ∀ id p, w.predictors.lookup id = some p → p.Sound
  sockets : w.scheduler.totalSockets = w.predictors.total Predictor.quotaHeld
  booked : ∀ key dst, w.scheduler.booked key dst = w.predictors.total (Predictor.units key dst)
  retired : ∀ r ∈ w.retired, r.1 = r.2
  failures : w.failures = []

variable {w : PunchWorld}

variable {id : Nat} {p : Predictor}

lemma Sound.held_le (h : w.Sound) (hp : w.predictors.lookup id = some p) :
    p.quotaHeld ≤ w.scheduler.booked p.key p.dst := by
  have hle := Table.le_total w.predictors (Predictor.units p.key p.dst) id
  rw [hp, ← h.booked, Option.elim_some] at hle
  unfold Predictor.units at hle
  rwa [if_pos ⟨rfl, rfl⟩] at hle

lemma Sound.create (h : w.Sound) (hid : w.predictors.lookup id = none) (dst : SocketAddr) (device : String) :
    Sound { w with predictors := w.predictors.insert id (.new dst device) } := by
  have htotal : ∀ f : Predictor → Nat, f (.new dst device) = 0 →
      Table.total (w.predictors.insert id (.new dst device)) f = w.predictors.total f := by
    intro f hf
    have hins := Table.total_insert w.predictors f id (.new dst device)
    rw [hid, hf] at hins
    exact hins
  refine ⟨h.scheduler, Table.forall_insert h.predictors (Predictor.sound_new dst device), ?_, ?_, h.retired, h.failures⟩
  · rw [htotal _ rfl]
    exact h.sockets
  · intro key d
    rw [htotal _ (ite_self 0)]
    exact h.booked key d

lemma Sound.advance (h : w.Sound) (hp : w.predictors.lookup id = some p) {op : PredictorOp} (hop : p.Enabled op) :
    ∃ r, p.step w.scheduler op = some r ∧
      Sound ⟨r.scheduler, w.predictors.insert id r.predictor, w.retired, w.failures ++ r.failure.toList⟩ := by
  obtain ⟨r, gain, loss, hr, hex⟩ := Predictor.step_exchanged h.scheduler (h.predictors id p hp) (h.held_le hp) hop
  refine ⟨r, hr, hex.scheduler, Table.forall_insert h.predictors hex.predictor, ?_, ?_, h.retired, ?_⟩
  · have htotal := Table.total_insert w.predictors Predictor.quotaHeld id r.predictor
    rw [hp, Option.elim_some] at htotal
    have hheld := hex.held
    have hsockets := hex.sockets
    have hold := h.sockets
    dsimp only
    omega
  · intro key d
    have htotal := Table.total_insert w.predictors (Predictor.units key d) id r.predictor
    rw [hp, Option.elim_some] at htotal
    have hheld := hex.held
    have hbooked := hex.booked key d
    have hold := h.booked key d
    have hkey : r.predictor.key = p.key := by
      unfold Predictor.key
      rw [hex.dst, hex.device]
    unfold Predictor.units at htotal hold ⊢
    rw [hkey, hex.dst] at htotal
    dsimp only
    by_cases hkd : p.key = key ∧ p.dst = d
    · rw [if_pos hkd, if_pos hkd] at htotal hbooked
      omega
    · rw [if_neg hkd, if_neg hkd] at htotal hbooked
      omega
  · rw [h.failures, hex.failure]
    rfl

lemma Sound.drop (h : w.Sound) (hp : w.predictors.lookup id = some p) (now : Nat) :
    (w.dropPredictor id p now).Sound := by
  have hsound := h.predictors id p hp
  have hbalance := hsound.balance
  have hrest : ∀ id' p', AList.lookup id' (w.predictors.erase id) = some p' → p'.Sound := Table.forall_erase h.predictors
  have htotal := Table.total_erase w.predictors Predictor.quotaHeld id
  rw [hp, Option.elim_some] at htotal
  have hunits : ∀ key d, Table.total (w.predictors.erase id) (Predictor.units key d) + p.units key d =
      w.predictors.total (Predictor.units key d) := by
    intro key d
    have herase := Table.total_erase w.predictors (Predictor.units key d) id
    rwa [hp, Option.elim_some] at herase
  have hlast : ∀ {n : Nat}, p.acquired = n → ∀ r ∈ w.retired ++ [(p.acquired, n)], r.1 = r.2 := by
    intro n hn
    exact List.forall_mem_append.mpr ⟨h.retired, List.forall_mem_singleton.mpr hn⟩
  unfold dropPredictor
  by_cases hpos : 0 < p.quotaHeld
  · rw [if_pos hpos]
    obtain ⟨hok, hs', hsockets, hbooked⟩ := h.scheduler.releasePort now hpos (h.held_le hp)
    rcases hr : w.scheduler.releasePort p.quotaHeld p.dst p.device now with ⟨result, s'⟩
    rw [hr] at hok hs' hsockets hbooked
    subst hok
    refine ⟨hs', hrest, ?_, ?_, hlast hbalance, h.failures⟩
    · have hold := h.sockets
      dsimp only at hsockets ⊢
      omega
    · intro key d
      have hold := h.booked key d
      have herase := hunits key d
      have hbook : s'.booked key d + p.units key d = _ := hbooked key d
      rw [ite_self] at hbook
      dsimp only
      omega
  · have hzero : p.quotaHeld = 0 := Nat.eq_zero_of_not_pos hpos
    rw [if_neg hpos]
    refine ⟨h.scheduler, hrest, ?_, ?_, hlast (by omega), h.failures⟩
    · have hold := h.sockets
      dsimp only
      omega
    · intro key d
      have hold := h.booked key d
      have herase := hunits key d
      unfold Predictor.units at herase hold ⊢
      rw [hzero, ite_self] at herase
      dsimp only
      omega

lemma Sound.exec (h : w.Sound) {op : PunchOp} (hop : w.Issued op) : ∃ w', w.exec op = some w' ∧ w'.Sound := by
  cases op with
  | create id dst device => exact ⟨_, rfl, h.create hop dst device⟩
  | advance id op =>
    obtain ⟨p, hp, hen⟩ := hop
    obtain ⟨r, hr, hsound⟩ := h.advance hp hen
    refine ⟨_, ?_, hsound⟩
    simp only [PunchWorld.exec, hp, hr, some_bind]
  | drop id now =>
    obtain ⟨p, hp, -⟩ := hop
    refine ⟨_, ?_, h.drop hp now⟩
    simp only [PunchWorld.exec, hp, some_bind]

lemma sound_of_reach (h : punchSystem.Reach w) : w.Sound := by
  apply h.invariant
  · rintro w rfl
    refine ⟨Scheduler.sound_new, ?_, rfl, fun _ _ => rfl, List.forall_mem_nil _, rfl⟩
    intro id p hp
    cases hp
  · intro w op w' hw hop hexec
    obtain ⟨w'', hw'', hsound⟩ := hw.exec hop
    have heq : w.exec op = some w' := hexec
    rw [hw''] at heq
    cases heq
    exact hsound

end PunchWorld

/-- In every run the units of the quota are the same in all books: the total, the sockets of the devices, the entries of the
destinations and what the live predictors hold. Ports are sockets and what is cooling, and nothing exceeds its limit. No
release fails, no subtraction is cut off, no step that comes next panics, and a predictor that is gone has released as many
units as it acquired. -/
theorem punchSystem_conserves {w : PunchWorld} (h : punchSystem.Reach w) :
    w.scheduler.totalSockets = w.scheduler.devices.total DeviceLedger.sockets ∧
    w.scheduler.totalSockets = w.scheduler.devices.total (fun l => l.perDest.total id) ∧
    w.scheduler.totalSockets = w.predictors.total Predictor.quotaHeld ∧
    w.scheduler.totalPorts = w.scheduler.totalSockets + w.scheduler.cooling.count ∧
    (w.scheduler.totalSockets ≤ 600 ∧ w.scheduler.totalPorts ≤ 1200) ∧
    (∀ key l, w.scheduler.devices.lookup key = some l →
      l.ports = l.sockets + l.cooling.count ∧ l.sockets ≤ 300 ∧ l.ports ≤ 600) ∧
    w.failures = [] ∧ w.scheduler.saturated = false ∧
    (∀ id p, w.predictors.lookup id = some p → p.acquired = p.released + p.quotaHeld) ∧
    (∀ r ∈ w.retired, r.1 = r.2) ∧
    ∀ op, w.Issued op → ∃ w', w.exec op = some w' := by
  have hw := PunchWorld.sound_of_reach h
  refine ⟨hw.scheduler.sockets, ?_, hw.sockets, hw.scheduler.ports, ⟨hw.scheduler.sockets_le, hw.scheduler.ports_le⟩, ?_,
    hw.failures, hw.scheduler.exact, fun id p hp => (hw.predictors id p hp).balance, hw.retired, ?_⟩
  · rw [hw.scheduler.sockets]
    apply congrArg List.sum
    apply List.map_congr_left
    rintro ⟨key, l⟩ hmem
    exact (hw.scheduler.ledger key l ((Table.mem_entries _).mp hmem)).dests
  · intro key l hl
    have hsound := hw.scheduler.ledger key l hl
    exact ⟨hsound.ports, hsound.sockets_le, hsound.ports_le⟩
  · intro op hop
    obtain ⟨w', hw', -⟩ := hw.exec hop
    exact ⟨w', hw'⟩

theorem punchSystem_conserves_cancelled :
    ∃ w : PunchWorld, punchSystem.Reach w ∧ w.predictors.keys = [] ∧ w.scheduler.totalSockets = 0 ∧
      w.scheduler.totalPorts = 1 ∧ w.retired = [(1, 1)] ∧ w.failures = [] := by
  have h₀ : punchSystem.Reach (_ : PunchWorld) := .start rfl
  have h₁ := h₀.step (e := PunchOp.create 0 (.v4 1 1) "eth0") rfl rfl
  have h₂ := h₁.step (e := PunchOp.advance 0 .predict) ⟨_, rfl, rfl⟩ rfl
  have h₃ := h₂.step (e := PunchOp.advance 0 (.check none)) ⟨_, rfl, rfl⟩ rfl
  have h₄ := h₃.step (e := PunchOp.advance 0 (.evict 0)) ⟨_, rfl, rfl⟩ rfl
  have h₅ := h₄.step (e := PunchOp.advance 0 (.poll 0 0)) ⟨_, rfl, rfl⟩ rfl
  have h₆ := h₅.step (e := PunchOp.advance 0 (.bind (some 5000) 0)) ⟨_, rfl, rfl⟩ rfl
  have h₇ := h₆.step (e := PunchOp.advance 0 .cancel) ⟨_, rfl, .inr (.inr ⟨_, _, rfl⟩)⟩ rfl
  have h₈ := h₇.step (e := PunchOp.drop 0 0) ⟨_, rfl, rfl⟩ rfl
  exact ⟨_, h₈, rfl, (punchSystem_conserves h₈).2.2.1, rfl, rfl, (punchSystem_conserves h₈).2.2.2.2.2.2.1⟩

end Punch

end Dquic
