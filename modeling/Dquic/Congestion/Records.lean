import Dquic.Lib.System
import Dquic.Path.Amplification

/-!
# Owed acknowledgements

`RcvdRecords` of `qcongestion/src/packets.rs`: a path remembers the largest ack-eliciting packet
that it has received since its last ACK.
-/

namespace Dquic

open Lib

structure RcvdRecords where
  epoch : Epoch
  ackImmediately : Bool
  ackElicitingSinceAck : Nat
  latestRcvdTime : Option Int
  largestRcvdPacket : Option (Nat × Int)
  maxAckDelay : Nat
  deriving DecidableEq, Repr

namespace RcvdRecords

def new (epoch : Epoch) (maxAckDelay : Nat) : RcvdRecords := ⟨epoch, false, 0, none, none, maxAckDelay⟩

/-- The packet is not the successor of the largest one. -/
def outOfOrder (r : RcvdRecords) (pn : Nat) : Bool :=
  r.largestRcvdPacket.any fun largest => pn < largest.1 || largest.1 + 1 < pn

def onPktRcvd (r : RcvdRecords) (now : Int) (pn : Nat) : RcvdRecords :=
  let since := min (r.ackElicitingSinceAck + 1) usizeMax
  { r with
    ackElicitingSinceAck := since
    ackImmediately := r.ackImmediately || 2 ≤ since || r.epoch = .initial || r.epoch = .handshake || r.outOfOrder pn
    latestRcvdTime := r.latestRcvdTime.or (some now)
    largestRcvdPacket :=
      match r.largestRcvdPacket with
      | none => some (pn, now)
      | some (largest, time) => if largest < pn then some (pn, now) else some (largest, time) }

def needAck (r : RcvdRecords) (now : Int) : Option (Nat × Int) :=
  if r.ackImmediately then r.largestRcvdPacket
  else if r.latestRcvdTime.any fun t => t + r.maxAckDelay < now then r.largestRcvdPacket
  else none

def clear (r : RcvdRecords) : RcvdRecords :=
  { r with ackImmediately := false, ackElicitingSinceAck := 0, latestRcvdTime := none, largestRcvdPacket := none }

/-- Nothing is owed any more if the largest packet is still the one that the frame was generated for. -/
def onAckSent (r : RcvdRecords) (largestAcked : Nat) : RcvdRecords :=
  if r.largestRcvdPacket.any fun largest => largest.1 = largestAcked then r.clear else r

end RcvdRecords

/-- An ACK frame: its largest packet number, and how many packets had been received when it was generated. -/
structure AckSnapshot where
  largest : Nat
  seen : Nat
  deriving DecidableEq, Repr

/-- The records of a path, the ack-eliciting packets it has received and the ACK frames generated on it, in order. -/
structure AckWorld where
  records : RcvdRecords
  received : List Nat
  frames : List AckSnapshot
  deriving DecidableEq, Repr

inductive AckOp
  | onPktRcvd (now : Int) (pn : Nat)
  | generate (now : Int)
  | onAckSent (j : Nat)

namespace AckWorld

def Issued (w : AckWorld) : AckOp → Prop
  | .onAckSent j => j < w.frames.length
  | _ => True

def exec (w : AckWorld) : AckOp → Option AckWorld
  | .onPktRcvd now pn => some { w with records := w.records.onPktRcvd now pn, received := w.received ++ [pn] }
  | .generate now =>
    match w.records.needAck now with
    | some (largest, _) => some { w with frames := w.frames ++ [⟨largest, w.received.length⟩] }
    | none => some w
  | .onAckSent j => do
    let frame ← w.frames[j]?
    some { w with records := w.records.onAckSent frame.largest }

/-- An ACK frame that was generated after the `i`-th packet, of this number, covers it. -/
def Covered (w : AckWorld) (i pn : Nat) : Prop := ∃ f ∈ w.frames, i < f.seen ∧ pn ≤ f.largest

/-- If a frame that is recorded as sent settles what is owed, then ACK frames that were generated later cover what was
received since. -/
def Current (w : AckWorld) : AckOp → Prop
  | .onAckSent j => ∀ f now, w.frames[j]? = some f → w.records.largestRcvdPacket = some (f.largest, now) →
      ∀ i pn, f.seen ≤ i → w.received[i]? = some pn → w.Covered i pn
  | _ => True

end AckWorld

namespace AckWorld

/-- Packets that are not covered are at most as large as the largest one of the records, and each frame covers what had
been received when it was generated. -/
structure Owed (w : AckWorld) : Prop where
  pending : ∀ i pn, w.received[i]? = some pn → w.Covered i pn ∨ ∃ l t, w.records.largestRcvdPacket = some (l, t) ∧ pn ≤ l
  seen : ∀ f ∈ w.frames, f.seen ≤ w.received.length ∧
    ∀ i pn, i < f.seen → w.received[i]? = some pn → w.Covered i pn
  timed : w.records.largestRcvdPacket.isSome → w.records.latestRcvdTime.isSome

variable {w : AckWorld}

lemma Covered.frames_append {i pn : Nat} (h : w.Covered i pn) (f : AckSnapshot) :
    Covered { w with frames := w.frames ++ [f] } i pn := by
  obtain ⟨g, hg, hcover⟩ := h
  exact ⟨g, List.mem_append_left _ hg, hcover⟩

lemma needAck_eq {r : RcvdRecords} {now : Int} {l : Nat × Int} (h : r.needAck now = some l) :
    r.largestRcvdPacket = some l := by
  unfold RcvdRecords.needAck at h
  split_ifs at h
  · exact h
  · exact h

lemma Owed.onPktRcvd (h : w.Owed) (now : Int) (pn : Nat) :
    Owed { w with records := w.records.onPktRcvd now pn, received := w.received ++ [pn] } := by
  have hlargest : ∃ l t, (w.records.onPktRcvd now pn).largestRcvdPacket = some (l, t) ∧ pn ≤ l ∧
      ∀ l' t', w.records.largestRcvdPacket = some (l', t') → l' ≤ l := by
    cases hl : w.records.largestRcvdPacket with
    | none => exact ⟨pn, now, by simp [RcvdRecords.onPktRcvd, hl], le_rfl, by simp⟩
    | some largest =>
      obtain ⟨l, t⟩ := largest
      by_cases hlt : l < pn
      · refine ⟨pn, now, by simp [RcvdRecords.onPktRcvd, hl, hlt], le_rfl, fun l' t' heq => ?_⟩
        cases heq
        exact hlt.le
      · refine ⟨l, t, by simp [RcvdRecords.onPktRcvd, hl, hlt], Nat.not_lt.mp hlt, fun l' t' heq => ?_⟩
        cases heq
        exact le_rfl
  obtain ⟨l, t, hnew, hpn, hmono⟩ := hlargest
  refine ⟨fun i q hq => ?_, fun f hf => ?_, fun _ => by simp [RcvdRecords.onPktRcvd]⟩
  · rcases Nat.lt_trichotomy i w.received.length with hlt | heq | hgt
    · rw [List.getElem?_append_left hlt] at hq
      rcases h.pending i q hq with hcover | ⟨l', t', hl', hle⟩
      · exact Or.inl hcover
      · exact Or.inr ⟨l, t, hnew, hle.trans (hmono l' t' hl')⟩
    · subst heq
      rw [List.getElem?_concat_length] at hq
      cases hq
      exact Or.inr ⟨l, t, hnew, hpn⟩
    · rw [List.getElem?_eq_none (by simpa using hgt)] at hq
      cases hq
  · obtain ⟨hseen, hcover⟩ := h.seen f hf
    refine ⟨by simpa using Nat.le_succ_of_le hseen, fun i q hi hq => ?_⟩
    rw [List.getElem?_append_left (by omega)] at hq
    exact hcover i q hi hq

lemma Owed.generate (h : w.Owed) {largest : Nat} {t : Int} (hl : w.records.largestRcvdPacket = some (largest, t)) :
    Owed { w with frames := w.frames ++ [⟨largest, w.received.length⟩] } := by
  -- what is owed so far is below the largest packet of the records, so the frame covers it
  have hall : ∀ i pn, w.received[i]? = some pn →
      Covered { w with frames := w.frames ++ [⟨largest, w.received.length⟩] } i pn := by
    intro i pn hpn
    rcases h.pending i pn hpn with hcover | ⟨l, t', hl', hle⟩
    · exact hcover.frames_append _
    · rw [hl] at hl'
      cases hl'
      exact ⟨_, List.mem_append_right _ (List.mem_singleton_self _), (List.getElem?_eq_some_iff.mp hpn).1, hle⟩
  refine ⟨fun i pn hpn => Or.inl (hall i pn hpn), fun f hf => ?_, h.timed⟩
  refine ⟨?_, fun i pn _ hpn => hall i pn hpn⟩
  rcases List.mem_append.mp hf with hf | hf
  · exact (h.seen f hf).1
  · rw [List.mem_singleton.mp hf]

lemma Owed.onAckSent (h : w.Owed) {j : Nat} {f : AckSnapshot} (hf : w.frames[j]? = some f)
    (hcurrent : w.Current (.onAckSent j)) : Owed { w with records := w.records.onAckSent f.largest } := by
  unfold RcvdRecords.onAckSent
  split_ifs with heq
  · rw [Option.any_eq_true] at heq
    obtain ⟨⟨l, t⟩, hl, hlf⟩ := heq
    rw [decide_eq_true_eq] at hlf
    subst hlf
    have hall : ∀ i pn, w.received[i]? = some pn → w.Covered i pn := by
      intro i pn hpn
      rcases Nat.lt_or_ge i f.seen with hlt | hge
      · exact (h.seen f (List.mem_of_getElem? hf)).2 i pn hlt hpn
      · exact hcurrent f t hf hl i pn hge hpn
    exact ⟨fun i pn hpn => Or.inl (hall i pn hpn), h.seen, by simp [RcvdRecords.clear]⟩
  · exact h

lemma Owed.step (h : w.Owed) {op : AckOp} {w' : AckWorld} (hcurrent : w.Current op) (hexec : w.exec op = some w') :
    w'.Owed := by
  cases op with
  | onPktRcvd now pn =>
    cases hexec
    exact h.onPktRcvd now pn
  | generate now =>
    rw [exec] at hexec
    split at hexec
    · rename_i largest t hneed
      cases hexec
      exact h.generate (needAck_eq hneed)
    · cases hexec
      exact h
  | onAckSent j =>
    simp only [exec, Option.bind_eq_bind, Option.bind_eq_some_iff] at hexec
    obtain ⟨f, hf, hexec⟩ := hexec
    cases hexec
    exact h.onAckSent hf hcurrent

end AckWorld

end Dquic
