import Dquic.Congestion.Accounting

/-!
# Congestion control over whole runs

A controller with the packets that were sent on its path, and the logs of what it reported: the
packets acknowledged and lost to the algorithm, and those that loss detection handed to recovery.
-/

namespace Dquic.Congestion

open Lib

structure CcWorld where
  cc : CongestionController
  sent : List (Epoch × Nat)
  acked : List (Epoch × Nat)
  lost : List (Epoch × Nat)
  resent : List (Epoch × Nat)

inductive CcOp
  | onPacketSent (now : Int) (pn : Nat) (epoch : Epoch) (ackEliciting inFlight : Bool) (sentBytes : Nat)
  | onAckRcvd (clock : Clock) (epoch : Epoch) (ack : AckFrame) (lossDelay : Nat) (tracker peerValidated : Bool)
  | onLossDetectionTimeout (clock : Clock) (lossDelay : Nat) (tracker : Bool) (ptoEpoch : Option Epoch)
  | discardEpoch (epoch : Epoch)
  | onPathLost

namespace CcWorld

/-- Packet numbers increase, and the ranges of an ACK frame are numbers. -/
def Issued (w : CcWorld) : CcOp → Prop
  | .onPacketSent _ pn epoch _ _ _ => ∀ q, (epoch, q) ∈ w.sent → q < pn
  | .onAckRcvd _ _ ack _ _ _ => (SentJournal.ackRanges ack).isSome
  | .discardEpoch epoch => epoch ≠ .data
  | _ => True

def log (w : CcWorld) (epoch : Epoch) (reports : Reports) (cc : CongestionController) : CcWorld :=
  { w with
    cc := cc
    acked := reports.acked.map (epoch, ·) ++ w.acked
    lost := reports.lost.map (epoch, ·) ++ w.lost
    resent := reports.resent.map (epoch, ·) ++ w.resent }

def exec (w : CcWorld) : CcOp → Option CcWorld
  | .onPacketSent now pn epoch ackEliciting inFlight sentBytes => some { w with
      cc := w.cc.onPacketSent now pn epoch ackEliciting inFlight sentBytes, sent := (epoch, pn) :: w.sent }
  | .onAckRcvd clock epoch ack lossDelay tracker peerValidated => do
    let (reports, cc) ← w.cc.onAckRcvd clock epoch ack lossDelay tracker peerValidated
    some (w.log epoch reports cc)
  | .onLossDetectionTimeout clock lossDelay tracker ptoEpoch => do
    let (reports, cc) ← w.cc.onLossDetectionTimeout clock lossDelay tracker ptoEpoch
    -- loss is detected in the space that is due
    some (w.log ((w.cc.getLossTimeAndEpoch.map (·.2)).getD .data) reports cc)
  | .discardEpoch epoch => do
    let cc ← w.cc.discardEpoch epoch
    some { w with cc := cc }
  | .onPathLost => do
    let cc ← w.cc.onPathLost
    some { w with cc := cc }

end CcWorld

def ccSystem (mtu maxAckDelay : Nat) : System CcWorld CcOp where
  init w := ∃ cc, CongestionController.init mtu maxAckDelay = some cc ∧ w = ⟨cc, [], [], [], []⟩
  issued := CcWorld.Issued
  exec := CcWorld.exec

/-! ### The spaces together -/

def CongestionController.inflightBytes (cc : CongestionController) : Nat :=
  (Epoch.all.map fun epoch => flight (cc.packetSpaces epoch).sentPackets).sum

lemma exists_others (cc : CongestionController) (epoch : Epoch) :
    ∃ n, cc.inflightBytes = n + flight (cc.packetSpaces epoch).sentPackets ∧
      ∀ (cc' : CongestionController) (space : PacketSpace), cc'.packetSpaces = Function.update cc.packetSpaces epoch space →
        cc'.inflightBytes = n + flight space.sentPackets := by
  have hsplit : ∀ cc : CongestionController, flight (cc.packetSpaces epoch).sentPackets +
      ((Epoch.all.erase epoch).map fun e => flight (cc.packetSpaces e).sentPackets).sum = cc.inflightBytes :=
    fun cc => List.sum_map_erase (fun e => flight (cc.packetSpaces e).sentPackets) (Epoch.mem_all epoch)
  refine ⟨((Epoch.all.erase epoch).map fun e => flight (cc.packetSpaces e).sentPackets).sum, ?_, ?_⟩
  · rw [← hsplit, Nat.add_comm]
  · intro cc' space hspaces
    rw [← hsplit, hspaces, Function.update_self, Nat.add_comm]
    congr 2
    refine List.map_congr_left fun e he => ?_
    have hne : e ≠ epoch := ((List.Nodup.mem_erase_iff (by decide)).mp he).1
    rw [Function.update_of_ne hne]

/-- The packets of a space: their numbers are apart and were sent, those in the log of acknowledged ones are
acknowledged, and those in the log of lost ones are not in flight. -/
structure Booked (sent acked lost : List (Epoch × Nat)) (epoch : Epoch) (l : List SentPacket) : Prop where
  nodup : (l.map (·.packetNumber)).Nodup
  sent : ∀ p ∈ l, (epoch, p.packetNumber) ∈ sent
  acked : ∀ p ∈ l, (epoch, p.packetNumber) ∈ acked → p.state = .acked
  lost : ∀ p ∈ l, (epoch, p.packetNumber) ∈ lost → p.state ≠ .inflight

namespace Booked

variable {sent acked lost : List (Epoch × Nat)} {epoch : Epoch} {l l' changed : List SentPacket}

lemma nil : Booked sent acked lost epoch [] := ⟨List.nodup_nil, by simp, by simp, by simp⟩

lemma of_sublist (h : Booked sent acked lost epoch l) (hsub : l'.Sublist l) : Booked sent acked lost epoch l' where
  nodup := h.nodup.sublist (hsub.map _)
  sent p hp := h.sent p (hsub.subset hp)
  acked p hp := h.acked p (hsub.subset hp)
  lost p hp := h.lost p (hsub.subset hp)

lemma log_of_ne (h : Booked sent acked lost epoch l) {other : Epoch} (hne : other ≠ epoch) (as ls : List Nat) :
    Booked sent (as.map (other, ·) ++ acked) (ls.map (other, ·) ++ lost) epoch l := by
  have hother : ∀ (ns : List Nat) (log : List (Epoch × Nat)) (pn : Nat), (epoch, pn) ∈ ns.map (other, ·) ++ log →
      (epoch, pn) ∈ log := by
    intro ns log pn hmem
    rcases List.mem_append.mp hmem with hmem | hmem
    · obtain ⟨q, -, heq⟩ := List.mem_map.mp hmem
      exact absurd (congrArg Prod.fst heq) hne
    · exact hmem
  exact ⟨h.nodup, h.sent, fun p hp hmem => h.acked p hp (hother _ _ _ hmem),
    fun p hp hmem => h.lost p hp (hother _ _ _ hmem)⟩

lemma mem_log {ns : List Nat} {log : List (Epoch × Nat)} {pn : Nat} (h : (epoch, pn) ∈ ns.map (epoch, ·) ++ log) :
    pn ∈ ns ∨ (epoch, pn) ∈ log := by
  rcases List.mem_append.mp h with h | h
  · obtain ⟨q, hq, heq⟩ := List.mem_map.mp h
    cases heq
    exact Or.inl hq
  · exact Or.inr h

lemma sent_of_marked {P : State → Prop} {st : State} (h : Booked sent acked lost epoch l) (hmarked : Marked P st l l' changed) :
    (l'.map (·.packetNumber)).Nodup ∧ ∀ p ∈ l', (epoch, p.packetNumber) ∈ sent := by
  constructor
  · rw [hmarked.numbers]
    exact h.nodup
  · intro p hp
    rcases hmarked.mem_cases p hp with hp | ⟨q, hq, rfl⟩
    · exact h.sent p hp
    · exact h.sent q (hmarked.sublist.subset hq)

lemma acks (h : Booked sent acked lost epoch l) (hmarked : Marked (· ≠ .acked) .acked l l' changed) :
    Booked sent ((changed.map (·.packetNumber)).map (epoch, ·) ++ acked) lost epoch l' := by
  obtain ⟨hnodup, hsent⟩ := h.sent_of_marked hmarked
  refine ⟨hnodup, hsent, fun p hp hmem => ?_, fun p hp hmem => ?_⟩
  · rcases mem_log hmem with hnew | hold
    · exact hmarked.state_of_changed h.nodup p hp hnew
    · rcases hmarked.mem_cases p hp with hp | ⟨q, hq, rfl⟩
      · exact h.acked p hp hold
      · rfl
  · rcases hmarked.mem_cases p hp with hp | ⟨q, hq, rfl⟩
    · exact h.lost p hp hmem
    · simp

lemma losses (h : Booked sent acked lost epoch l) (hmarked : Marked (· = .inflight) .retransmitted l l' changed) :
    Booked sent acked ((changed.map (·.packetNumber)).map (epoch, ·) ++ lost) epoch l' := by
  obtain ⟨hnodup, hsent⟩ := h.sent_of_marked hmarked
  refine ⟨hnodup, hsent, fun p hp hmem => ?_, fun p hp hmem => ?_⟩
  · rcases hmarked.mem_cases p hp with hp | ⟨q, hq, rfl⟩
    · exact h.acked p hp hmem
    · -- a packet in flight was not acknowledged
      have hstate := h.acked q (hmarked.sublist.subset hq) hmem
      rw [hmarked.changed_state q hq] at hstate
      cases hstate
  · rcases mem_log hmem with hnew | hold
    · rw [hmarked.state_of_changed h.nodup p hp hnew]
      simp
    · rcases hmarked.mem_cases p hp with hp | ⟨q, hq, rfl⟩
      · exact h.lost p hp hold
      · simp

lemma send (h : Booked sent acked lost epoch l) {p : SentPacket} (hnew : ∀ q, (epoch, q) ∈ sent → q < p.packetNumber)
    (hacked : ∀ x ∈ acked, x ∈ sent) (hlost : ∀ x ∈ lost, x ∈ sent) :
    Booked ((epoch, p.packetNumber) :: sent) acked lost epoch (l ++ [p]) := by
  have hfresh : (epoch, p.packetNumber) ∉ sent := fun hmem => Nat.lt_irrefl _ (hnew _ hmem)
  refine ⟨?_, fun q hq => ?_, fun q hq hmem => ?_, fun q hq hmem => ?_⟩
  · rw [List.map_append, List.map_singleton, List.nodup_append]
    refine ⟨h.nodup, List.nodup_singleton _, fun a ha b hb => ?_⟩
    obtain ⟨q, hq, rfl⟩ := List.mem_map.mp ha
    rw [List.mem_singleton.mp hb]
    exact (hnew _ (h.sent q hq)).ne
  · rcases List.mem_append.mp hq with hq | hq
    · exact List.mem_cons_of_mem _ (h.sent q hq)
    · rw [List.mem_singleton.mp hq]
      exact List.mem_cons_self
  · rcases List.mem_append.mp hq with hq | hq
    · exact h.acked q hq hmem
    · rw [List.mem_singleton.mp hq] at hmem
      exact absurd (hacked _ hmem) hfresh
  · rcases List.mem_append.mp hq with hq | hq
    · exact h.lost q hq hmem
    · rw [List.mem_singleton.mp hq] at hmem
      exact absurd (hlost _ hmem) hfresh

lemma send_other (h : Booked sent acked lost epoch l) (x : Epoch × Nat) : Booked (x :: sent) acked lost epoch l where
  nodup := h.nodup
  sent p hp := List.mem_cons_of_mem x (h.sent p hp)
  acked := h.acked
  lost := h.lost

end Booked

/-! ### The invariant -/

namespace CcWorld

structure Balanced (mds : Nat) (w : CcWorld) : Prop where
  sound : w.cc.algorithm.Sound mds w.cc.inflightBytes
  booked : ∀ epoch, Booked w.sent w.acked w.lost epoch (w.cc.packetSpaces epoch).sentPackets
  acked_nodup : w.acked.Nodup
  lost_nodup : w.lost.Nodup
  resent_nodup : w.resent.Nodup
  acked_sent : ∀ x ∈ w.acked, x ∈ w.sent
  lost_sent : ∀ x ∈ w.lost, x ∈ w.sent
  resent_lost : ∀ x ∈ w.resent, x ∈ w.lost

variable {mds : Nat} {w w' : CcWorld}

variable {epoch : Epoch} {cc : CongestionController} {space : PacketSpace} {changed : List SentPacket}

lemma nodup_log {ns : List Nat} {log : List (Epoch × Nat)} (hns : ns.Nodup) (hlog : log.Nodup)
    (hnew : ∀ n ∈ ns, (epoch, n) ∉ log) : (ns.map (epoch, ·) ++ log).Nodup := by
  rw [List.nodup_append]
  refine ⟨hns.map (fun a b hab => congrArg Prod.snd hab), hlog, fun x hx y hy => ?_⟩
  obtain ⟨n, hn, rfl⟩ := List.mem_map.mp hx
  rintro rfl
  exact hnew n hn hy

lemma booked_update {sent acked lost : List (Epoch × Nat)} {cc' : CongestionController}
    (hspaces : cc'.packetSpaces = Function.update cc.packetSpaces epoch space)
    (hspace : Booked sent acked lost epoch space.sentPackets)
    (hother : ∀ e, e ≠ epoch → Booked sent acked lost e (cc.packetSpaces e).sentPackets) (e : Epoch) :
    Booked sent acked lost e (cc'.packetSpaces e).sentPackets := by
  rw [hspaces]
  by_cases he : e = epoch
  · subst he
    rwa [Function.update_self]
  · rw [Function.update_of_ne he]
    exact hother e he

lemma Balanced.of_eq (h : w.Balanced mds) (halg : cc.algorithm = w.cc.algorithm)
    (hspaces : cc.packetSpaces = w.cc.packetSpaces) : Balanced mds { w with cc := cc } where
  sound := by
    have hbytes : cc.inflightBytes = w.cc.inflightBytes := by
      rw [CongestionController.inflightBytes, CongestionController.inflightBytes, hspaces]
    rw [halg, hbytes]
    exact h.sound
  booked epoch := by
    rw [hspaces]
    exact h.booked epoch
  acked_nodup := h.acked_nodup
  lost_nodup := h.lost_nodup
  resent_nodup := h.resent_nodup
  acked_sent := h.acked_sent
  lost_sent := h.lost_sent
  resent_lost := h.resent_lost

lemma Balanced.acks (h : w.Balanced mds) {l' : List SentPacket}
    (hmarked : Marked (· ≠ .acked) .acked (w.cc.packetSpaces epoch).sentPackets l' changed)
    (hspaces : cc.packetSpaces = Function.update w.cc.packetSpaces epoch space) (hsub : space.sentPackets.Sublist l')
    (hsound : cc.algorithm.Sound mds cc.inflightBytes) :
    Balanced mds (w.log epoch ⟨changed.map (·.packetNumber), [], []⟩ cc) where
  sound := hsound
  booked := by
    apply booked_update hspaces
    · exact ((h.booked epoch).acks hmarked).of_sublist hsub
    · intro e he
      exact (h.booked e).log_of_ne he.symm (changed.map (·.packetNumber)) []
  acked_nodup := by
    refine nodup_log ((h.booked epoch).nodup.sublist (hmarked.sublist.map _)) h.acked_nodup fun n hn hmem => ?_
    obtain ⟨p, hp, rfl⟩ := List.mem_map.mp hn
    exact hmarked.changed_state p hp ((h.booked epoch).acked p (hmarked.sublist.subset hp) hmem)
  lost_nodup := h.lost_nodup
  resent_nodup := h.resent_nodup
  acked_sent x hx := by
    rcases List.mem_append.mp hx with hx | hx
    · rw [List.map_map] at hx
      obtain ⟨p, hp, rfl⟩ := List.mem_map.mp hx
      exact (h.booked epoch).sent p (hmarked.sublist.subset hp)
    · exact h.acked_sent x hx
  lost_sent := h.lost_sent
  resent_lost := h.resent_lost

lemma Balanced.losses (h : w.Balanced mds) {resent : List Nat}
    (hmarked : Marked (· = .inflight) .retransmitted
      (w.cc.packetSpaces epoch).sentPackets space.sentPackets changed)
    (hresent : resent.Sublist (changed.map (·.packetNumber)))
    (hspaces : cc.packetSpaces = Function.update w.cc.packetSpaces epoch space)
    (hsound : cc.algorithm.Sound mds cc.inflightBytes) :
    Balanced mds (w.log epoch ⟨[], changed.map (·.packetNumber), resent⟩ cc) := by
  have hnodup := (h.booked epoch).nodup.sublist (hmarked.sublist.map SentPacket.packetNumber)
  have hnew : ∀ n ∈ changed.map (·.packetNumber), (epoch, n) ∉ w.lost := by
    intro n hn hmem
    obtain ⟨p, hp, rfl⟩ := List.mem_map.mp hn
    exact (h.booked epoch).lost p (hmarked.sublist.subset hp) hmem (hmarked.changed_state p hp)
  refine ⟨hsound, ?_, h.acked_nodup, nodup_log hnodup h.lost_nodup hnew, ?_, h.acked_sent, fun x hx => ?_, fun x hx => ?_⟩
  · apply booked_update hspaces
    · exact (h.booked epoch).losses hmarked
    · intro e he
      exact (h.booked e).log_of_ne he.symm [] (changed.map (·.packetNumber))
  · exact nodup_log (hnodup.sublist hresent) h.resent_nodup
      fun n hn hmem => hnew n (hresent.subset hn) (h.resent_lost _ hmem)
  · rcases List.mem_append.mp hx with hx | hx
    · rw [List.map_map] at hx
      obtain ⟨p, hp, rfl⟩ := List.mem_map.mp hx
      exact (h.booked epoch).sent p (hmarked.sublist.subset hp)
    · exact h.lost_sent x hx
  · rcases List.mem_append.mp hx with hx | hx
    · obtain ⟨n, hn, rfl⟩ := List.mem_map.mp hx
      exact List.mem_append_left _ (List.mem_map_of_mem (hresent.subset hn))
    · exact List.mem_append_right _ (h.resent_lost x hx)

lemma Balanced.detectLost (h : w.Balanced mds) (clock : Clock) (lossDelay : Nat) (epoch : Epoch) (tracker : Bool) :
    ∃ lost resent cc, w.cc.detectLost clock lossDelay epoch tracker = some (lost, resent, cc) ∧
      Balanced mds (w.log epoch ⟨[], lost, resent⟩ cc) := by
  obtain ⟨n, htotal, hothers⟩ := exists_others w.cc epoch
  have hsound := h.sound
  rw [htotal] at hsound
  obtain ⟨changed, reno, space, hdetect, hmarked, hsound'⟩ := detectLostPackets_marked hsound clock.detect clock.event
    lossDelay CongestionController.packetThreshold
  have hresent : (if tracker then changed.map (·.packetNumber) else []).Sublist (changed.map (·.packetNumber)) := by
    split_ifs
    · exact List.Sublist.refl _
    · exact List.nil_sublist _
  refine ⟨_, _, { w.cc.setSpace epoch space with algorithm := reno }, ?_, h.losses hmarked hresent rfl ?_⟩
  · rw [CongestionController.detectLost, hdetect]
    rfl
  · rw [hothers _ space rfl]
    exact hsound'

lemma Balanced.onAckRcvd (h : w.Balanced mds) {clock : Clock} {ack : AckFrame} {lossDelay : Nat}
    {tracker peerValidated : Bool} {reports : Reports}
    (hack : w.cc.onAckRcvd clock epoch ack lossDelay tracker peerValidated = some (reports, cc)) :
    Balanced mds (w.log epoch reports cc) := by
  obtain ⟨n, htotal, hothers⟩ := exists_others w.cc epoch
  have hsound := h.sound
  rw [htotal] at hsound
  unfold CongestionController.onAckRcvd at hack
  by_cases hdiscarded : w.cc.discardedEpochs epoch
  · rw [if_pos hdiscarded] at hack
    cases hack
    exact h
  rw [if_neg hdiscarded] at hack
  dsimp only at hack
  by_cases hempty : ((w.cc.packetSpaces epoch).updateLargestAckedPacket ack.largest.val).sentPackets = []
  · rw [if_pos hempty] at hack
    cases hack
    -- only the largest acknowledged number is new
    refine h.acks (Marked.refl _ _ _) rfl (List.Sublist.refl _) ?_
    rw [hothers _ _ rfl]
    exact hsound
  rw [if_neg hempty] at hack
  simp only [Option.bind_eq_bind, Option.bind_eq_some_iff] at hack
  obtain ⟨ranges, -, ⟨scan, space⟩, hspace, hack⟩ := hack
  simp only [PacketSpace.onAckRcvd, Option.bind_eq_bind, Option.bind_eq_some_iff] at hspace
  obtain ⟨⟨l', scan'⟩, hloop, hspace⟩ := hspace
  simp only [Option.some.injEq, Prod.mk.injEq] at hspace
  obtain ⟨rfl, hspace⟩ := hspace
  have hpackets : space.sentPackets =
      l'.dropWhile fun sent => sent.state = .acked ∨ sent.state = .retransmitted := by rw [← hspace]
  obtain ⟨changed, hmarked, hreported, hreno⟩ := ackLoop_marked mds hloop
  have hscan := hreno n hsound
  rw [← flight_dropWhile, ← hpackets] at hscan
  have hsub : space.sentPackets.Sublist l' := by
    rw [hpackets]
    exact (List.dropWhile_suffix _).sublist
  rw [List.append_nil] at hreported
  rw [hreported] at hack
  split at hack
  · cases hack
    refine h.acks hmarked rfl hsub ?_
    rw [hothers _ space rfl]
    exact hscan
  · simp only [Option.bind_eq_some_iff] at hack
    obtain ⟨reno, hecn, ⟨lost, resent, cc₁⟩, hdetect, hack⟩ := hack
    cases hack
    have hacks : Balanced mds (w.log epoch ⟨changed.map (·.packetNumber), [], []⟩
        { w.cc.setSpace epoch space with algorithm := reno }) := by
      refine h.acks hmarked rfl hsub ?_
      rw [hothers _ space rfl]
      exact hscan.processEcn hecn
    obtain ⟨lost', resent', cc₂, hdetect', hbalanced⟩ := hacks.detectLost clock lossDelay epoch tracker
    cases hdetect.symm.trans hdetect'
    exact hbalanced.of_eq rfl rfl

lemma Balanced.onPacketSent (h : w.Balanced mds) (now : Int) {pn : Nat} (ackEliciting inFlight : Bool) (sentBytes : Nat)
    (hnew : ∀ q, (epoch, q) ∈ w.sent → q < pn) :
    Balanced mds { w with
      cc := w.cc.onPacketSent now pn epoch ackEliciting inFlight sentBytes, sent := (epoch, pn) :: w.sent } := by
  have hacked := fun x hx => List.mem_cons_of_mem (epoch, pn) (h.acked_sent x hx)
  have hlost := fun x hx => List.mem_cons_of_mem (epoch, pn) (h.lost_sent x hx)
  obtain ⟨n, htotal, hothers⟩ := exists_others w.cc epoch
  unfold CongestionController.onPacketSent
  by_cases hdiscarded : w.cc.discardedEpochs epoch
  · rw [if_pos hdiscarded]
    exact ⟨h.sound, fun e => (h.booked e).send_other _, h.acked_nodup, h.lost_nodup, h.resent_nodup, hacked, hlost,
      h.resent_lost⟩
  rw [if_neg hdiscarded]
  have hsound := h.sound
  rw [htotal] at hsound
  have hbooked : Booked ((epoch, pn) :: w.sent) w.acked w.lost epoch
      ((w.cc.packetSpaces epoch).onSent ⟨pn, now, ackEliciting, sentBytes, .inflight, inFlight⟩).sentPackets := by
    unfold PacketSpace.onSent
    dsimp only
    split_ifs
    · exact (h.booked epoch).send (p := ⟨pn, now, ackEliciting, sentBytes, .inflight, inFlight⟩) hnew h.acked_sent h.lost_sent
    · exact (h.booked epoch).send_other _
  refine ⟨?_, booked_update rfl hbooked fun e he => (h.booked e).send_other _, h.acked_nodup, h.lost_nodup,
    h.resent_nodup, hacked, hlost, h.resent_lost⟩
  dsimp only
  rw [hothers _ _ rfl]
  cases inFlight with
  | false =>
    -- a packet that does not count adds nothing
    cases ackEliciting with
    | false => exact hsound
    | true => simpa [PacketSpace.onSent, SentPacket.weight] using hsound
  | true =>
    refine ⟨?_, hsound.exact, hsound.size, hsound.window⟩
    change w.cc.algorithm.bytesInFlight + sentBytes = _
    rw [hsound.bytes]
    simp [PacketSpace.onSent, SentPacket.weight, Nat.add_assoc]

lemma Balanced.discard (h : w.Balanced mds) (epoch : Epoch) :
    ∃ numbers reno space, (w.cc.packetSpaces epoch).discard w.cc.algorithm = some (numbers, reno, space) ∧
      ∀ cc : CongestionController, cc.algorithm = reno →
        cc.packetSpaces = Function.update w.cc.packetSpaces epoch space → Balanced mds { w with cc := cc } := by
  obtain ⟨n, htotal, hothers⟩ := exists_others w.cc epoch
  have hsound := h.sound
  rw [htotal] at hsound
  obtain ⟨numbers, reno, space, hdiscard, hnil, hsound'⟩ := discard_spec hsound
  refine ⟨numbers, reno, space, hdiscard, fun cc halg hspaces => ?_⟩
  refine ⟨?_, booked_update hspaces ?_ fun e he => h.booked e, h.acked_nodup, h.lost_nodup, h.resent_nodup,
    h.acked_sent, h.lost_sent, h.resent_lost⟩
  · rw [halg, hothers cc space hspaces, hnil]
    exact hsound'
  · rw [hnil]
    exact Booked.nil

lemma Balanced.discardEpoch (h : w.Balanced mds) (hne : epoch ≠ .data) :
    ∃ cc, w.cc.discardEpoch epoch = some cc ∧ Balanced mds { w with cc := cc } := by
  unfold CongestionController.discardEpoch
  rw [debugAssert_of hne]
  simp only [some_bind]
  split_ifs with hdiscarded
  · exact ⟨w.cc, rfl, h⟩
  · obtain ⟨numbers, reno, space, hdiscard, hbalanced⟩ := h.discard epoch
    rw [hdiscard]
    exact ⟨_, rfl, hbalanced _ rfl rfl⟩

lemma Balanced.discardAll (h : w.Balanced mds) (epochs : List Epoch) :
    ∃ cc, w.cc.discardAll epochs = some cc ∧ Balanced mds { w with cc := cc } := by
  induction epochs generalizing w with
  | nil => exact ⟨w.cc, rfl, h⟩
  | cons epoch rest ih =>
    obtain ⟨numbers, reno, space, hdiscard, hbalanced⟩ := h.discard epoch
    rw [CongestionController.discardAll, hdiscard]
    exact ih (hbalanced { w.cc.setSpace epoch space with algorithm := reno } rfl rfl)

lemma Balanced.step (h : w.Balanced mds) {op : CcOp} (hissued : w.Issued op) (hexec : w.exec op = some w') :
    w'.Balanced mds := by
  cases op with
  | onPacketSent now pn epoch ackEliciting inFlight sentBytes =>
    cases hexec
    exact h.onPacketSent now ackEliciting inFlight sentBytes hissued
  | onAckRcvd clock epoch ack lossDelay tracker peerValidated =>
    simp only [exec, Option.bind_eq_bind, Option.bind_eq_some_iff] at hexec
    obtain ⟨⟨reports, cc⟩, hack, hexec⟩ := hexec
    cases hexec
    exact h.onAckRcvd hack
  | onLossDetectionTimeout clock lossDelay tracker ptoEpoch =>
    simp only [exec, Option.bind_eq_bind, Option.bind_eq_some_iff] at hexec
    obtain ⟨⟨reports, cc⟩, htimeout, hexec⟩ := hexec
    cases hexec
    unfold CongestionController.onLossDetectionTimeout at htimeout
    split at htimeout
    · rename_i t epoch hdue
      simp only [Option.bind_eq_bind, Option.bind_eq_some_iff] at htimeout
      obtain ⟨⟨lost, resent, cc₁⟩, hdetect, htimeout⟩ := htimeout
      cases htimeout
      obtain ⟨lost', resent', cc₂, hdetect', hbalanced⟩ := h.detectLost clock lossDelay epoch tracker
      cases hdetect.symm.trans hdetect'
      rw [hdue]
      exact hbalanced
    · cases htimeout
      exact h.of_eq rfl rfl
  | discardEpoch epoch =>
    obtain ⟨cc, hdiscard, hbalanced⟩ := h.discardEpoch hissued
    rw [exec, hdiscard] at hexec
    cases hexec
    exact hbalanced
  | onPathLost =>
    obtain ⟨cc, hdiscard, hbalanced⟩ := h.discardAll Epoch.all
    rw [exec, CongestionController.onPathLost, hdiscard] at hexec
    cases hexec
    exact hbalanced

end CcWorld

/-- The bytes in flight are those of the packets in flight, nothing is subtracted below zero, no packet is reported or
resent twice, and the window holds two datagrams. -/
theorem ccSystem_accounts (mtu maxAckDelay : Nat) (w : CcWorld) (hr : (ccSystem mtu maxAckDelay).Reach w) :
    w.cc.algorithm.bytesInFlight = w.cc.inflightBytes ∧ w.cc.algorithm.saturated = false ∧
    (∀ epoch, epoch ≠ .data → ∃ w', w.exec (.discardEpoch epoch) = some w') ∧ (∃ w', w.exec .onPathLost = some w') ∧
    w.acked.Nodup ∧ w.lost.Nodup ∧ w.resent.Nodup ∧ 2 * mtu ≤ w.cc.algorithm.congestionWindow := by
  have h : w.Balanced mtu := by
    apply hr.invariant (I := CcWorld.Balanced mtu)
    · rintro s ⟨cc, hinit, rfl⟩
      simp only [CongestionController.init, Option.bind_eq_bind, Option.bind_eq_some_iff] at hinit
      obtain ⟨reno, hreno, hinit⟩ := hinit
      cases hinit
      exact ⟨NewReno.new_sound hreno, fun epoch => Booked.nil, List.nodup_nil, List.nodup_nil, List.nodup_nil,
        by simp, by simp, by simp⟩
    · intro s op s' h hissued hexec
      exact h.step hissued hexec
  refine ⟨h.sound.bytes, h.sound.exact, fun epoch hne => ?_, ?_, h.acked_nodup, h.lost_nodup, h.resent_nodup, h.sound.window⟩
  · obtain ⟨cc, hdiscard, -⟩ := h.discardEpoch hne
    rw [CcWorld.exec, hdiscard]
    exact ⟨_, rfl⟩
  · obtain ⟨cc, hdiscard, -⟩ := h.discardAll Epoch.all
    rw [CcWorld.exec, CongestionController.onPathLost, hdiscard]
    exact ⟨_, rfl⟩

/-- Of four packets the last is acknowledged, and the first is lost by it. -/
theorem ccSystem_accounts_loss : ∃ w, (ccSystem 1200 25).Reach w ∧ w.acked = [(.data, 3)] ∧ w.lost = [(.data, 0)] ∧
    w.resent = [(.data, 0)] ∧ w.cc.algorithm.bytesInFlight = 2400 ∧
    w.cc.algorithm.bytesInFlight = w.cc.inflightBytes ∧ 2 * 1200 ≤ w.cc.algorithm.congestionWindow := by
  have h₀ : (ccSystem 1200 25).Reach _ := .start ⟨_, rfl, rfl⟩
  have h₁ := h₀.step (e := CcOp.onPacketSent 0 0 .data true true 1200) (by simp [ccSystem, CcWorld.Issued]) rfl
  have h₂ := h₁.step (e := CcOp.onPacketSent 1 1 .data true true 1200) (by simp [ccSystem, CcWorld.Issued]) rfl
  have h₃ := h₂.step (e := CcOp.onPacketSent 2 2 .data true true 1200) (by simp [ccSystem, CcWorld.Issued]) rfl
  have h₄ := h₃.step (e := CcOp.onPacketSent 3 3 .data true true 1200) (by simp [ccSystem, CcWorld.Issued]) rfl
  have h₅ := h₄.step (e := CcOp.onAckRcvd ⟨10, 10, 10⟩ .data ⟨⟨3, by decide⟩, ⟨0, by decide⟩, ⟨0, by decide⟩, [], none⟩ 100
    true true) rfl rfl
  obtain ⟨hbytes, -, -, -, -, -, -, hwindow⟩ := ccSystem_accounts 1200 25 _ h₅
  exact ⟨_, h₅, rfl, rfl, rfl, rfl, hbytes, hwindow⟩

end Dquic.Congestion
