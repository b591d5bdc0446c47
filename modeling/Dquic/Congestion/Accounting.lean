import Dquic.Congestion.Packets

/-!
# Bytes in flight

Each packet that is reported to the algorithm leaves the flight once.
-/

namespace Dquic.Congestion

def SentPacket.weight (p : SentPacket) : Nat := if p.countForCc ∧ p.state = .inflight then p.sentBytes else 0

def flight (l : List SentPacket) : Nat := (l.map SentPacket.weight).sum

@[simp] lemma flight_nil : flight [] = 0 := rfl

@[simp] lemma flight_cons (p : SentPacket) (l : List SentPacket) : flight (p :: l) = p.weight + flight l := by
  simp [flight]

@[simp] lemma flight_append (l m : List SentPacket) : flight (l ++ m) = flight l + flight m := by
  simp [flight]

lemma SentPacket.weight_of_ne {p : SentPacket} (h : p.state ≠ .inflight) : p.weight = 0 := by
  simp [weight, h]

lemma flight_dropWhile (l : List SentPacket) :
    flight (l.dropWhile fun sent => sent.state = .acked ∨ sent.state = .retransmitted) = flight l := by
  induction l with
  | nil => rfl
  | cons p l ih =>
    rw [List.dropWhile_cons]
    split_ifs with hp
    · have hne : p.state ≠ .inflight := by
        rw [decide_eq_true_eq] at hp
        rcases hp with hp | hp
        · simp [hp]
        · simp [hp]
      rw [ih, flight_cons, SentPacket.weight_of_ne hne, Nat.zero_add]
    · rfl

/-! ### The algorithm -/

/-- The algorithm counts `n` bytes in flight, and its window holds two datagrams. -/
structure NewReno.Sound (r : NewReno) (mds n : Nat) : Prop where
  bytes : r.bytesInFlight = n
  exact : r.saturated = false
  size : r.maxDatagramSize = mds
  window : 2 * mds ≤ r.congestionWindow

namespace NewReno

variable {r r' : NewReno} {mds n : Nat}

lemma new_sound (h : NewReno.new mds = some r) : r.Sound mds 0 := by
  simp only [NewReno.new, checkedMulU16, Option.bind_eq_bind, Option.bind_eq_some_iff] at h
  obtain ⟨ten, hten, two, htwo, h⟩ := h
  cases h
  split_ifs at hten htwo
  cases hten
  cases htwo
  refine ⟨rfl, rfl, rfl, ?_⟩
  change 2 * mds ≤ min (mds * 10) (max (mds * 2) 14600)
  omega

variable {b : Nat} {lost : List SentPacket}

lemma Sound.subInFlight (h : r.Sound mds (n + b)) : (r.subInFlight b).Sound mds n where
  bytes := by
    change r.bytesInFlight - b = n
    rw [h.bytes, Nat.add_sub_cancel]
  exact := by
    change (r.saturated || decide (r.bytesInFlight < b)) = false
    rw [h.exact, h.bytes]
    simp
  size := h.size
  window := h.window

lemma Sound.grow (h : r.Sound mds n) (hgrow : r.grow b = some r') : r'.Sound mds n := by
  unfold NewReno.grow at hgrow
  split_ifs at hgrow with hslow
  · cases hgrow
    exact ⟨h.bytes, h.exact, h.size, h.window.trans (Nat.le_add_right _ _)⟩
  · simp only [Option.bind_eq_bind, Option.bind_eq_some_iff] at hgrow
    obtain ⟨_, -, hgrow⟩ := hgrow
    cases hgrow
    exact ⟨h.bytes, h.exact, h.size, h.window.trans (Nat.le_add_right _ _)⟩

lemma Sound.onPacketAcked {p : SentPacket} (h : r.Sound mds (n + p.weight)) (hack : r.onPacketAcked p = some r') :
    r'.Sound mds n := by
  unfold NewReno.onPacketAcked at hack
  by_cases hcount : p.countForCc = false
  · rw [if_pos hcount] at hack
    cases hack
    simpa [SentPacket.weight, hcount] using h
  · rw [if_neg hcount] at hack
    -- a packet that is not in flight any more has no weight
    have hsub : (if p.state = .inflight then r.subInFlight p.sentBytes else r).Sound mds n := by
      split_ifs with hstate
      · apply Sound.subInFlight
        simpa [SentPacket.weight, hcount, hstate] using h
      · rwa [SentPacket.weight_of_ne hstate] at h
    dsimp only at hack
    generalize (if p.state = .inflight then r.subInFlight p.sentBytes else r) = r₁ at hack hsub
    split_ifs at hack with hrecovery
    · cases hack
      exact hsub
    · exact hsub.grow hack

lemma Sound.onCongestionEvent (h : r.Sound mds n) (now sentTime : Int) :
    ∃ r', r.onCongestionEvent now sentTime = some r' ∧ r'.Sound mds n := by
  unfold NewReno.onCongestionEvent
  split_ifs with hrecovery
  · exact ⟨r, rfl, h⟩
  · have hle : r.maxDatagramSize ≤ r.congestionWindow := by
      have hwindow := h.window
      rw [h.size]
      omega
    rw [checkedSub_of_le hle]
    refine ⟨_, rfl, h.bytes, h.exact, h.size, ?_⟩
    change 2 * mds ≤ max _ (2 * r.maxDatagramSize)
    rw [h.size]
    exact le_max_right _ _

lemma Sound.processEcn (h : r.Sound mds n) {ecn : Option EcnCounts} {now sentTime : Int} {epoch : Epoch}
    (hecn : r.processEcn ecn now sentTime epoch = some r') : r'.Sound mds n := by
  unfold NewReno.processEcn at hecn
  split at hecn
  · rename_i counts
    split_ifs at hecn with hce
    · have hset : ({ r with ecnCeCounters := Function.update r.ecnCeCounters epoch counts.ce.val } : NewReno).Sound mds n :=
        ⟨h.bytes, h.exact, h.size, h.window⟩
      obtain ⟨r₁, hevent, hsound⟩ := hset.onCongestionEvent now sentTime
      cases hevent.symm.trans hecn
      exact hsound
    · cases hecn
      exact h
  · cases hecn
    exact h

lemma Sound.persist (h : r.Sound mds n) (persistentLost : Bool) : (r.persist persistentLost).Sound mds n := by
  unfold NewReno.persist
  split_ifs
  · refine ⟨h.bytes, h.exact, h.size, ?_⟩
    change 2 * mds ≤ max _ (2 * r.maxDatagramSize)
    rw [h.size]
    exact le_max_right _ _
  · exact h

lemma Sound.loseLoop (hstate : ∀ p ∈ lost, p.state = .inflight) (h : r.Sound mds (n + flight lost)) (last : Option Int)
    (st : State) : (r.loseLoop last (lost.map fun p => { p with state := st })).1.Sound mds n := by
  induction lost generalizing r last with
  | nil => exact h
  | cons p lost ih =>
    have hrest := fun q hq => hstate q (List.mem_cons_of_mem p hq)
    rw [flight_cons, SentPacket.weight, if_congr (and_iff_left (hstate p List.mem_cons_self)) rfl rfl] at h
    rw [List.map_cons, NewReno.loseLoop]
    dsimp only
    split_ifs with hcount
    · rw [if_pos hcount] at h
      apply ih hrest
      apply Sound.subInFlight (b := p.sentBytes)
      rwa [Nat.add_assoc, Nat.add_comm (flight lost)]
    · rw [if_neg hcount, Nat.zero_add] at h
      exact ih hrest h last

lemma Sound.onPacketsLost (hstate : ∀ p ∈ lost, p.state = .inflight) (h : r.Sound mds (n + flight lost)) (now : Int)
    (persistentLost : Bool) (st : State) :
    ∃ r', r.onPacketsLost now (lost.map fun p => { p with state := st }) persistentLost = some r' ∧ r'.Sound mds n := by
  have hlose := h.loseLoop hstate none st
  unfold NewReno.onPacketsLost
  split
  · rename_i r₁ heq
    rw [heq] at hlose
    exact ⟨_, rfl, hlose.persist persistentLost⟩
  · rename_i r₁ time heq
    rw [heq] at hlose
    obtain ⟨r₂, hevent, hsound⟩ := hlose.onCongestionEvent now time
    rw [hevent]
    exact ⟨_, rfl, hsound.persist persistentLost⟩

lemma Sound.removeFromBytesInFlight {l : List SentPacket} (hstate : ∀ p ∈ l, p.state = .inflight)
    (h : r.Sound mds (n + flight l)) : ∃ r', r.removeFromBytesInFlight l = some r' ∧ r'.Sound mds n := by
  induction l generalizing r with
  | nil => exact ⟨r, rfl, h⟩
  | cons p l ih =>
    have hrest := fun q hq => hstate q (List.mem_cons_of_mem p hq)
    have hp := hstate p List.mem_cons_self
    rw [flight_cons, SentPacket.weight, if_congr (and_iff_left hp) rfl rfl] at h
    unfold NewReno.removeFromBytesInFlight
    by_cases hcount : p.countForCc
    · rw [if_pos hcount] at h
      have hbytes := h.bytes
      rw [if_pos ⟨hcount, by simp [hp]⟩, checkedSub_of_le (by omega)]
      apply ih hrest
      exact ⟨by simp only; omega, h.exact, h.size, h.window⟩
    · rw [if_neg hcount, Nat.zero_add] at h
      rw [if_neg (fun hboth => hcount hboth.1)]
      exact ih hrest h

end NewReno

/-! ### Packets that change state -/

/-- Some packets of a list change their state to `st`, all of them from a state that `P` allows. -/
inductive Marked (P : State → Prop) (st : State) : List SentPacket → List SentPacket → List SentPacket → Prop
  | nil : Marked P st [] [] []
  | keep {l l' changed : List SentPacket} (p : SentPacket) : Marked P st l l' changed →
      Marked P st (p :: l) (p :: l') changed
  | change {l l' changed : List SentPacket} (p : SentPacket) : P p.state → Marked P st l l' changed →
      Marked P st (p :: l) ({ p with state := st } :: l') (p :: changed)

namespace Marked

variable {P : State → Prop} {st : State} {l l' changed : List SentPacket}

lemma numbers (h : Marked P st l l' changed) : l'.map (·.packetNumber) = l.map (·.packetNumber) := by
  induction h with
  | nil => rfl
  | keep p _ ih | change p _ _ ih => rw [List.map_cons, List.map_cons, ih]

lemma sublist (h : Marked P st l l' changed) : changed.Sublist l := by
  induction h with
  | nil => exact List.Sublist.slnil
  | keep p _ ih => exact ih.cons p
  | change p _ _ ih => exact ih.cons_cons p

lemma changed_state (h : Marked P st l l' changed) : ∀ p ∈ changed, P p.state := by
  induction h with
  | nil => simp
  | keep p _ ih => exact ih
  | change p hp _ ih =>
    intro q hq
    rcases List.mem_cons.mp hq with rfl | hq
    · exact hp
    · exact ih q hq

lemma mem_cases (h : Marked P st l l' changed) : ∀ p' ∈ l', p' ∈ l ∨ ∃ p ∈ changed, p' = { p with state := st } := by
  induction h with
  | nil => simp
  | keep p _ ih =>
    intro p' hp'
    rcases List.mem_cons.mp hp' with rfl | hp'
    · exact Or.inl List.mem_cons_self
    · exact (ih p' hp').imp_left (List.mem_cons_of_mem p)
  | change p _ _ ih =>
    intro p' hp'
    rcases List.mem_cons.mp hp' with rfl | hp'
    · exact Or.inr ⟨p, List.mem_cons_self, rfl⟩
    · rcases ih p' hp' with hl | ⟨q, hq, heq⟩
      · exact Or.inl (List.mem_cons_of_mem p hl)
      · exact Or.inr ⟨q, List.mem_cons_of_mem p hq, heq⟩

lemma state_of_changed (h : Marked P st l l' changed) (hnodup : (l.map (·.packetNumber)).Nodup) :
    ∀ p' ∈ l', p'.packetNumber ∈ changed.map (·.packetNumber) → p'.state = st := by
  induction h with
  | nil => simp
  | @keep l l' changed p hrest ih =>
    rw [List.map_cons, List.nodup_cons] at hnodup
    intro p' hp' hchanged
    rcases List.mem_cons.mp hp' with rfl | hp'
    · exact absurd ((hrest.sublist.map _).subset hchanged) hnodup.1
    · exact ih hnodup.2 p' hp' hchanged
  | @change l l' changed p hp hrest ih =>
    rw [List.map_cons, List.nodup_cons] at hnodup
    intro p' hp' hchanged
    rcases List.mem_cons.mp hp' with rfl | hp'
    · rfl
    · rw [List.map_cons, List.mem_cons] at hchanged
      rcases hchanged with heq | hchanged
      · have hmem : p'.packetNumber ∈ l'.map (·.packetNumber) := List.mem_map_of_mem hp'
        rw [hrest.numbers, heq] at hmem
        exact absurd hmem hnodup.1
      · exact ih hnodup.2 p' hp' hchanged

lemma flight_eq (h : Marked P st l l' changed) (hst : st ≠ .inflight) : flight l = flight l' + flight changed := by
  induction h with
  | nil => rfl
  | keep p _ ih =>
    rw [flight_cons, flight_cons, ih]
    omega
  | change p _ _ ih =>
    have hzero : ({ p with state := st } : SentPacket).weight = 0 := SentPacket.weight_of_ne hst
    rw [flight_cons, flight_cons, flight_cons, ih, hzero]
    omega

end Marked

section Spaces

variable {mds n : Nat}

/-- An ACK frame changes packets that were not acknowledged before, and reports them. -/
lemma ackLoop_marked (mds : Nat) {ranges : List (Nat × Nat)} {l l' : List SentPacket} {scan scan' : AckScan}
    (h : AckScan.ackLoop ranges l scan = some (l', scan')) :
    ∃ changed, Marked (· ≠ .acked) .acked l l' changed ∧
      scan'.reported = changed.map (·.packetNumber) ++ scan.reported ∧
      ∀ n, scan.reno.Sound mds (n + flight l) → scan'.reno.Sound mds (n + flight l') := by
  induction l generalizing l' scan' with
  | nil =>
    cases h
    exact ⟨[], .nil, rfl, fun n hn => hn⟩
  | cons p l ih =>
    simp only [AckScan.ackLoop, Option.bind_eq_bind, Option.bind_eq_some_iff] at h
    obtain ⟨⟨rest, scan₁⟩, hrest, ⟨p', scan₂⟩, hone, h⟩ := h
    cases h
    obtain ⟨changed, hmarked, hreported, hsound⟩ := ih hrest
    unfold AckScan.ackOne at hone
    split_ifs at hone with hskip
    · cases hone
      refine ⟨changed, hmarked.keep p, hreported, fun n hn => ?_⟩
      rw [flight_cons, ← Nat.add_assoc] at hn ⊢
      exact hsound (n + p.weight) hn
    · simp only [Option.bind_eq_bind, Option.bind_eq_some_iff] at hone
      obtain ⟨reno, hacked, hone⟩ := hone
      cases hone
      push Not at hskip
      refine ⟨p :: changed, hmarked.change p hskip.1, ?_, fun n hn => ?_⟩
      · change p.packetNumber :: scan₁.reported = _
        rw [hreported]
        rfl
      · rw [flight_cons, ← Nat.add_assoc] at hn
        have hrest := hsound (n + p.weight) hn
        rw [Nat.add_right_comm] at hrest
        have hzero : ({ p with state := .acked } : SentPacket).weight = 0 := SentPacket.weight_of_ne (by simp)
        rw [flight_cons, hzero, Nat.zero_add]
        exact hrest.onPacketAcked hacked

lemma lossLoop_marked (largestAcked : Nat) (ackedIndex : Option Nat) (now : Int) (lossDelay threshold idx : Nat)
    (l : List SentPacket) : ∃ changed done lost lossTime,
      PacketSpace.lossLoop largestAcked ackedIndex now lossDelay threshold idx l = (done, lost, lossTime) ∧
      lost.map (·.2) = changed.map (fun p => { p with state := .retransmitted }) ∧
      Marked (· = .inflight) .retransmitted l done changed := by
  induction l generalizing idx with
  | nil => exact ⟨[], [], [], none, rfl, rfl, .nil⟩
  | cons p l ih =>
    obtain ⟨changed, done, lost, lossTime, heq, hlost, hmarked⟩ := ih (idx + 1)
    rw [PacketSpace.lossLoop, heq]
    dsimp only
    split_ifs with hstate hdue
    · refine ⟨p :: changed, _, _, lossTime, rfl, ?_, hmarked.change p hstate.1⟩
      rw [List.map_cons, List.map_cons, hlost]
    · exact ⟨changed, _, lost, _, rfl, hlost, hmarked.keep p⟩
    · exact ⟨changed, _, lost, lossTime, rfl, hlost, hmarked.keep p⟩

lemma Marked.refl (P : State → Prop) (st : State) (l : List SentPacket) : Marked P st l l [] := by
  induction l with
  | nil => exact .nil
  | cons p l ih => exact ih.keep p

variable {reno : NewReno} {s : PacketSpace}

lemma detectLostPackets_marked (hsound : reno.Sound mds (n + flight s.sentPackets)) (now event : Int)
    (lossDelay threshold : Nat) :
    ∃ changed reno' s', s.detectLostPackets now event lossDelay threshold reno =
        some (changed.map (·.packetNumber), reno', s') ∧
      Marked (· = .inflight) .retransmitted s.sentPackets s'.sentPackets changed ∧
      reno'.Sound mds (n + flight s'.sentPackets) := by
  unfold PacketSpace.detectLostPackets
  split
  · exact ⟨[], reno, _, rfl, Marked.refl _ _ _, hsound⟩
  · rename_i largestAcked _
    obtain ⟨changed, done, lost, lossTime, heq, hlost, hmarked⟩ := lossLoop_marked largestAcked
      (PacketSpace.largestAckedIndex s.sentPackets) now lossDelay threshold 0 s.sentPackets
    rw [hmarked.flight_eq (by simp), ← Nat.add_assoc] at hsound
    rw [heq]
    dsimp only
    split_ifs with hnone
    · rw [hnone, List.map_nil, eq_comm, List.map_eq_nil_iff] at hlost
      subst hlost
      exact ⟨[], reno, { s with sentPackets := done, lossTime := lossTime }, rfl, hmarked, hsound⟩
    · have hnumbers : lost.map (·.2.packetNumber) = changed.map (·.packetNumber) := by
        have hmap := congrArg (List.map SentPacket.packetNumber) hlost
        rwa [List.map_map, List.map_map] at hmap
      obtain ⟨reno', hreno, hsound'⟩ := hsound.onPacketsLost hmarked.changed_state event
        (PacketSpace.persistentLoss none 0 (lost.map (·.1))) .retransmitted
      rw [hlost, hreno, hnumbers]
      exact ⟨changed, reno', { s with sentPackets := done, lossTime := lossTime }, rfl, hmarked, hsound'⟩

lemma flight_filter (l : List SentPacket) : flight (l.filter fun sent => sent.state = .inflight) = flight l := by
  induction l with
  | nil => rfl
  | cons p l ih =>
    rw [List.filter_cons]
    split_ifs with hstate
    · rw [flight_cons, flight_cons, ih]
    · rw [ih, flight_cons, SentPacket.weight_of_ne (by simpa using hstate), Nat.zero_add]

lemma discard_spec (hsound : reno.Sound mds (n + flight s.sentPackets)) :
    ∃ numbers reno' s', s.discard reno = some (numbers, reno', s') ∧ s'.sentPackets = [] ∧ reno'.Sound mds n := by
  rw [← flight_filter] at hsound
  obtain ⟨reno', hremove, hsound'⟩ := hsound.removeFromBytesInFlight (fun p hp => by simpa using (List.mem_filter.mp hp).2)
  have hdiscard : s.discard reno = some ((s.sentPackets.filter fun sent => sent.state = .inflight).map (·.packetNumber),
      reno', ⟨none, none, none, [], s.rcvdPackets.clear⟩) := by
    simp only [PacketSpace.discard, hremove, some_bind]
  exact ⟨_, reno', _, hdiscard, rfl, hsound'⟩

end Spaces

end Dquic.Congestion
