import Dquic.Send.Buffered
import Dquic.Send.Sender

/-!
# What a sender hands out

The two `pick_up` functions hand out data or the end of the stream alone, and `poll_dump` always
has room to write what they hand out.
-/

namespace Dquic

open Lib

variable {m m' : BufMap} {range : Range} {w : Bytes}

lemma Range.SentIn.of_size_eq (h : range.SentIn m) (hsent : m.sent ≤ m'.sent) (hsize : m'.size = m.size) :
    range.SentIn m' :=
  ⟨h.le, h.stop_le.trans hsent, hsize ▸ h.nonempty⟩

lemma Range.SentIn.start_lt_size (h : range.SentIn m) (hm : m.Wf) (hne : range.start < range.stop) :
    range.start < m.size := by
  have hstop := h.stop_le
  have hsent := hm.sent_le
  omega

lemma BufMap.Picked.sent_eq_max {c : Color} (h : Picked m m' range c) : m'.sent = max m.sent range.stop := by
  have hle := h.sentIn.le
  rw [h.sent_eq]
  rcases h.place with ⟨rfl, hstart⟩ | ⟨rfl, hstop⟩
  · rw [if_pos rfl]
    omega
  · rw [if_neg (by decide)]
    omega

namespace SendBuf

/-- `b'` is `b` after `p` was handed out. -/
structure HandedOut (b b' : SendBuf) (w : Bytes) (p : StreamData) : Prop where
  inv : b'.Inv w
  maxData_eq : b'.maxData = b.maxData
  size_eq : b'.state.size = b.state.size
  sent_eq : b'.sent = max b.sent p.range.stop
  sentIn : p.range.SentIn b'.state
  fresh : if p.isFresh then p.range.start = b.sent else p.range.stop ≤ b.sent
  color : ∀ i < b.state.size, b'.state.colorAt i = if p.range.Mem i then .flighting else b.state.colorAt i
  before : ∀ i, p.range.Mem i → b.state.colorAt i ≠ .recved
  strict : b.state.Strict → b'.state.Strict ∧ (p.range.start < p.range.stop ∨ p.isEos = true)
  bytes : p.data.flatten = (w.take p.range.stop).drop p.range.start

lemma HandedOut.sent_le {b b' : SendBuf} {p : StreamData} (h : HandedOut b b' w p) : b.sent ≤ b'.sent := by
  rw [h.sent_eq]
  exact le_max_left _ _

def Exhausted (b : SendBuf) (predicate : Nat → Option Nat) (flowLimit : Nat) : Prop :=
  (∀ s ∈ b.state.segs, ¬BufMap.Pickable flowLimit b.maxData s) ∨ ∃ s ∈ b.state.segs, predicate s.offset = none

/-- The answer of the predicate overflows an offset. -/
def Overflows (b : SendBuf) (predicate : Nat → Option Nat) : Prop :=
  ∃ s ∈ b.state.segs, ∃ n, predicate s.offset = some n ∧ 2 ^ 64 ≤ s.offset + n

variable {b : SendBuf} {w : Bytes}

lemma Inv.not_exhausted (h : b.Inv w) {predicate : Nat → Option Nat} {flowLimit i : Nat} (hi : i < b.state.size)
    (hcolor : b.state.colorAt i = .lost ∨ b.state.colorAt i = .pending) (hflow : flowLimit ≠ 0)
    (hroom : ∀ o ≤ b.state.size, predicate o ≠ none) : ¬b.Exhausted predicate flowLimit := by
  rintro (hnone | ⟨s, hs, hp⟩)
  · rcases paintAt_eq_ground_or .recved b.state.segs i with ⟨hground, -⟩ | ⟨s, hs, hle, hc⟩
    · change b.state.colorAt i = .recved at hground
      rw [hground] at hcolor
      cases hcolor with
      | inl h => cases h
      | inr h => cases h
    · change s.color = b.state.colorAt i at hc
      have hsize := h.size_eq
      apply hnone s hs
      refine ⟨by omega, ?_⟩
      rw [hc]
      exact hcolor.imp_right (fun hp => ⟨hp, hflow⟩)
  · exact hroom _ (h.wf.bounded s hs) hp

lemma Inv.handedOut_end (h : b.Inv w) (hsent : b.sent = w.length) :
    HandedOut b b w ⟨⟨w.length, w.length⟩, false, [], true⟩ where
  inv := h
  maxData_eq := rfl
  size_eq := rfl
  sent_eq := by rw [hsent, max_self]
  fresh := hsent.ge
  sentIn := by
    have hle := h.wf.sent_le
    have hsize := h.size_eq
    change b.state.sent = w.length at hsent
    exact ⟨le_rfl, hsent.ge, .inr (by change w.length = b.state.size; omega)⟩
  color i _ := (if_neg (fun hm => absurd hm.2 (not_lt.mpr hm.1))).symm
  before i hm := absurd hm.2 (not_lt.mpr hm.1)
  strict hs := ⟨hs, .inr rfl⟩
  bytes := by simp

lemma Inv.pickUp_handedOut (h : b.Inv w) {predicate : Nat → Option Nat} (flowLimit : Nat)
    (hpos : ∀ o n, predicate o = some n → 0 < n) :
    (∃ a, b.pickUp predicate flowLimit = some (.error a, b) ∧ b.Exhausted predicate flowLimit) ∨
    (b.pickUp predicate flowLimit = none ∧ b.Overflows predicate) ∨
    ∃ range fresh data b', b.pickUp predicate flowLimit = some (.ok (range, fresh, data), b') ∧
      (∀ isEos, HandedOut b b' w ⟨range, fresh, data, isEos⟩) ∧
      (fresh = true → range.stop ≤ range.start + flowLimit) ∧
      ∃ n, predicate range.start = some n ∧ range.stop ≤ range.start + n := by
  rcases h.pickUp_cases flowLimit hpos with
    ⟨a, ha, hwhy⟩ | ⟨hp, hwhy⟩ | ⟨range, fresh, data, state, hp, hpicked, hinv, hbytes, hflow, hn⟩
  · exact .inl ⟨a, ha, hwhy⟩
  · exact .inr (.inl ⟨hp, hwhy⟩)
  · refine .inr (.inr ⟨range, fresh, data, _, hp, fun isEos => ?_, hflow, hn⟩)
    have horigin : (if fresh = true then Color.pending else .lost) ≠ .recved := by
      cases fresh <;> decide
    have hfresh : if fresh = true then range.start = b.sent else range.stop ≤ b.sent := by
      cases fresh with
      | true => exact (hpicked.place.resolve_right (fun hlost => by cases hlost.1)).2
      | false => exact (hpicked.place.resolve_left (fun hpend => by cases hpend.1)).2
    exact
      { inv := hinv
        maxData_eq := rfl
        size_eq := hpicked.size_eq
        sent_eq := hpicked.sent_eq_max
        sentIn := hpicked.sentIn
        fresh := hfresh
        color := hpicked.color
        before := fun i hm => by rw [hpicked.before i hm]; exact horigin
        strict := fun hs => ⟨hpicked.strict hs, .inl (hpicked.start_lt hs)⟩
        bytes := hbytes }

end SendBuf

/-- What is handed out fits the predicate and, when it is fresh, the flow limit. -/
structure StreamData.Fits (p : StreamData) (predicate : Nat → Option Nat) (flowLimit : Nat) : Prop where
  room : ∃ n, predicate p.range.start = some n ∧ p.range.stop ≤ p.range.start + n
  flow : p.isFresh = true → p.range.stop ≤ p.range.start + flowLimit

/-- What `SendingSender::pick_up` does. -/
theorem WritingSender.pickUp_cases {s : WritingSender} (h : s.sndbuf.Inv w) {predicate : Nat → Option Nat}
    (flowLimit : Nat) (hpos : ∀ o n, predicate o = some n → 0 < n) :
    (∃ a, s.pickUp predicate flowLimit = some (.error a, s) ∧ s.sndbuf.Exhausted predicate flowLimit ∧
      (s.totalSize = some s.sndbuf.sent → predicate s.sndbuf.sent = none)) ∨
    (s.pickUp predicate flowLimit = none ∧ s.sndbuf.Overflows predicate) ∨
    ∃ p buf, s.pickUp predicate flowLimit = some (.ok p, { s with sndbuf := buf }) ∧
      SendBuf.HandedOut s.sndbuf buf w p ∧ p.Fits predicate flowLimit ∧
      (p.isEos = true ↔ some p.range.stop = s.totalSize) := by
  unfold pickUp
  rcases h.pickUp_handedOut flowLimit hpos with
    ⟨a, ha, hwhy⟩ | ⟨hp, hwhy⟩ | ⟨range, fresh, data, buf, hp, hout, hflow, hn⟩
  · simp only [ha, some_bind]
    by_cases htotal : s.totalSize = some s.sndbuf.sent
    · rw [if_pos htotal]
      cases hpred : predicate s.sndbuf.sent with
      | none => exact .inl ⟨.ready, rfl, hwhy, fun _ => rfl⟩
      | some n =>
        have hsent : s.sndbuf.sent = w.length := by
          unfold totalSize at htotal
          split at htotal
          · rw [← h.written_eq]
            exact (Option.some.inj htotal).symm
          · cases htotal
        refine .inr (.inr ⟨_, _, rfl, hsent ▸ h.handedOut_end hsent, ⟨⟨n, hpred, by simp⟩, by simp⟩, ?_⟩)
        simp [htotal]
    · rw [if_neg htotal]
      exact .inl ⟨a, rfl, hwhy, fun ht => absurd ht htotal⟩
  · simp only [hp, Option.bind_eq_bind, Option.bind_none]
    exact .inr (.inl ⟨trivial, hwhy⟩)
  · simp only [hp, some_bind]
    exact .inr (.inr ⟨_, buf, rfl, hout _, ⟨hn, hflow⟩, by simp⟩)

/-- What `DataSentSender::pick_up` does. -/
theorem DataSentSender.pickUp_cases {s : DataSentSender} (h : s.sndbuf.Inv w) (hsent : s.sndbuf.sent = w.length)
    {predicate : Nat → Option Nat} (flowLimit : Nat) (hpos : ∀ o n, predicate o = some n → 0 < n) :
    (∃ a, s.pickUp predicate flowLimit = some (.error a, s) ∧ s.sndbuf.Exhausted predicate flowLimit ∧
      (s.finState = .lost → predicate w.length = none)) ∨
    (s.pickUp predicate flowLimit = none ∧ s.sndbuf.Overflows predicate) ∨
    ∃ p buf fin, s.pickUp predicate flowLimit = some (.ok p, { s with sndbuf := buf, finState := fin }) ∧
      SendBuf.HandedOut s.sndbuf buf w p ∧ p.Fits predicate flowLimit ∧
      (p.isEos = true ↔ p.range.stop = w.length) ∧
      (fin = s.finState ∨ s.finState = .lost ∧ fin = .sent ∧ p.isEos = true) := by
  unfold pickUp
  rcases h.pickUp_handedOut flowLimit hpos with
    ⟨a, ha, hwhy⟩ | ⟨hp, hwhy⟩ | ⟨range, fresh, data, buf, hp, hout, hflow, hn⟩
  · simp only [ha, h.written_eq, some_bind]
    by_cases hfin : s.finState = .lost
    · rw [if_pos hfin]
      cases hpred : predicate w.length with
      | none => exact .inl ⟨.ready, rfl, hwhy, fun _ => rfl⟩
      | some n =>
        refine .inr (.inr ⟨_, _, .sent, rfl, h.handedOut_end hsent, ⟨⟨n, hpred, by simp⟩, by simp⟩, by simp, ?_⟩)
        exact .inr ⟨hfin, rfl, rfl⟩
    · rw [if_neg hfin]
      exact .inl ⟨a, rfl, hwhy, fun ht => absurd ht hfin⟩
  · simp only [hp, Option.bind_eq_bind, Option.bind_none]
    exact .inr (.inl ⟨trivial, hwhy⟩)
  · simp only [hp, h.written_eq, some_bind]
    exact .inr (.inr ⟨_, buf, s.finState, rfl, hout _, ⟨hn, hflow⟩, by simp, .inl rfl⟩)

namespace Outgoing

variable {budget capacity credit : Nat} {sid : StreamId} {p : StreamData}

lemma predicate_pos (hbudget : 0 < budget) (o n : Nat) (h : predicate capacity budget sid o = some n) : 0 < n := by
  obtain ⟨k, hk, rfl⟩ := Option.map_eq_some_iff.mp h
  have hpos := (StreamFrame.estimateMaxCapacity_pos hk).1
  omega

/-- What was handed out within the predicate of `poll_dump` is written completely. -/
theorem write_eq_some (hle : p.range.start ≤ p.range.stop) (hlt : p.range.stop < 2 ^ 62)
    (hfits : p.Fits (predicate capacity budget sid) credit) :
    ∃ dump, write sid capacity credit budget p = some dump ∧ dump.frame.id = sid ∧
      dump.frame.range = p.range ∧ dump.frame.isFin = p.isEos ∧ dump.data = p.data ∧
      dump.credit = if p.isFresh then credit - (p.range.stop - p.range.start) else credit := by
  obtain ⟨⟨m, hm, hstop⟩, hflow⟩ := hfits
  obtain ⟨n, hn, rfl⟩ := Option.map_eq_some_iff.mp hm
  obtain ⟨-, hcap⟩ := StreamFrame.estimateMaxCapacity_pos hn
  have hstart : p.range.start < 2 ^ 62 := by omega
  have hlen : p.range.stop - p.range.start ≤ min n budget := by omega
  set frame : StreamFrame := ⟨sid, ⟨p.range.start, hstart⟩, p.range.stop - p.range.start, .omitted, p.isEos⟩
    with hframe
  have hfit : StreamFrame.least frame.id frame.offset.val + frame.length ≤ capacity := by
    change StreamFrame.least sid p.range.start + (p.range.stop - p.range.start) ≤ capacity
    omega
  have hlength : frame.length < 2 ^ 62 := by
    change p.range.stop - p.range.start < 2 ^ 62
    omega
  obtain ⟨strategy, size, hstrategy, hsize, hroom⟩ := StreamFrame.encodingStrategy_fits rfl hlength hfit
  have hnew : StreamFrame.new sid p.range.start (p.range.stop - p.range.start) =
      some ⟨sid, ⟨p.range.start, hstart⟩, p.range.stop - p.range.start, .omitted, false⟩ := by
    rw [StreamFrame.new, VarInt.fromU64_of_lt hstart]
    rfl
  have hbudget : checkedSub budget (p.range.stop - p.range.start) =
      some (budget - (p.range.stop - p.range.start)) := checkedSub_of_le (by omega)
  have hrange : frame.range = p.range := by
    change (⟨p.range.start, p.range.start + (p.range.stop - p.range.start)⟩ : Range) = p.range
    rw [Nat.add_sub_cancel' hle]
  refine ⟨⟨strategy.prePadding, frame.setLenBit strategy.lenBit, p.data,
    if p.isFresh then credit - (p.range.stop - p.range.start) else credit,
    budget - (p.range.stop - p.range.start)⟩, ?_, rfl, hrange, rfl, rfl, rfl⟩
  unfold write
  rw [checkedSub_of_le hle]
  simp only [some_bind, hnew]
  change (frame.encodingStrategy capacity).bind _ = _
  rw [hstrategy]
  change (frame.setLenBit strategy.lenBit).encodingSize.bind _ = _
  rw [hsize]
  change (debugAssert (strategy.prePadding + size + frame.length ≤ capacity)).bind _ = _
  rw [debugAssert_of hroom]
  change (checkedSub budget (p.range.stop - p.range.start)).bind _ = _
  rw [hbudget]
  cases hfresh : p.isFresh with
  | true =>
    have hcredit := hflow hfresh
    change (checkedSub credit (p.range.stop - p.range.start)).bind _ = _
    rw [checkedSub_of_le (by omega)]
    rfl
  | false => rfl

variable {ε : Type} {w : Bytes}

/-- A dump carries what was handed out, and takes fresh bytes from the credit. -/
structure Carries (dump : Dump) (p : StreamData) (credit : Nat) : Prop where
  range : dump.frame.range = p.range
  fin : dump.frame.isFin = p.isEos
  data : dump.data = p.data
  left : dump.credit = if p.isFresh then credit - (p.range.stop - p.range.start) else credit
  fits : p.isFresh = true → p.range.stop - p.range.start ≤ credit

lemma write_handedOut {b b' : SendBuf} (hout : b.HandedOut b' w p)
    (hfits : p.Fits (predicate capacity budget sid) credit) :
    ∃ dump, write sid capacity credit budget p = some dump ∧ Carries dump p credit := by
  have hstop := hout.sentIn.stop_le
  have hsent := hout.inv.wf.sent_le
  have hsize := hout.inv.wf.size_lt
  obtain ⟨dump, hdump, -, hrange, hfin, hdata, hcredit⟩ := write_eq_some hout.sentIn.le (by omega) hfits
  refine ⟨dump, hdump, hrange, hfin, hdata, hcredit, fun hfresh => ?_⟩
  have hflow := hfits.flow hfresh
  omega

/-- `poll_dump` before the end of the stream was sent. -/
theorem pollDump_sending {s : SendingSender} (h : s.sndbuf.Inv w) (hbudget : 0 < budget) :
    (∃ a, pollDump (.ok (.sending s) : ArcSender ε) capacity credit budget = some (.error a, .ok (.sending s)) ∧
      s.sndbuf.Exhausted (predicate capacity budget s.streamId) credit ∧
      (s.totalSize = some s.sndbuf.sent → predicate capacity budget s.streamId s.sndbuf.sent = none)) ∨
    (pollDump (.ok (.sending s) : ArcSender ε) capacity credit budget = none ∧
      s.sndbuf.Overflows (predicate capacity budget s.streamId)) ∨
    ∃ p buf dump, pollDump (.ok (.sending s) : ArcSender ε) capacity credit budget =
        some (.ok dump, .ok (finishing { s with sndbuf := buf } (.ok p))) ∧
      s.sndbuf.HandedOut buf w p ∧ (p.isEos = true ↔ some p.range.stop = s.totalSize) ∧
      write s.streamId capacity credit budget p = some dump ∧ Carries dump p credit := by
  have hpos : ∀ o n, predicate capacity budget s.streamId o = some n → 0 < n := predicate_pos hbudget
  unfold pollDump
  rcases WritingSender.pickUp_cases h credit hpos with
    ⟨a, ha, hwhy⟩ | ⟨hp, hwhy⟩ | ⟨p, buf, hp, hout, hfits, heos⟩
  · simp only [ha, some_bind]
    exact .inl ⟨a, rfl, hwhy⟩
  · simp only [hp, Option.bind_eq_bind, Option.bind_none]
    exact .inr (.inl ⟨trivial, hwhy⟩)
  · obtain ⟨dump, hdump, hframe⟩ := write_handedOut hout hfits
    simp only [hp, writePicked, hdump, some_bind]
    exact .inr (.inr ⟨p, buf, dump, rfl, hout, heos, hdump, hframe⟩)

/-- `poll_dump` after the end of the stream was sent. -/
theorem pollDump_dataSent {s : DataSentSender} (h : s.sndbuf.Inv w) (hsent : s.sndbuf.sent = w.length)
    (hbudget : 0 < budget) :
    (∃ a, pollDump (.ok (.dataSent s) : ArcSender ε) capacity credit budget = some (.error a, .ok (.dataSent s)) ∧
      s.sndbuf.Exhausted (predicate capacity budget s.streamId) credit ∧
      (s.finState = .lost → predicate capacity budget s.streamId w.length = none)) ∨
    (pollDump (.ok (.dataSent s) : ArcSender ε) capacity credit budget = none ∧
      s.sndbuf.Overflows (predicate capacity budget s.streamId)) ∨
    ∃ p buf fin dump, pollDump (.ok (.dataSent s) : ArcSender ε) capacity credit budget =
        some (.ok dump, .ok (.dataSent { s with sndbuf := buf, finState := fin })) ∧
      s.sndbuf.HandedOut buf w p ∧ (p.isEos = true ↔ p.range.stop = w.length) ∧
      (fin = s.finState ∨ s.finState = .lost ∧ fin = .sent ∧ p.isEos = true) ∧
      write s.streamId capacity credit budget p = some dump ∧ Carries dump p credit := by
  have hpos : ∀ o n, predicate capacity budget s.streamId o = some n → 0 < n := predicate_pos hbudget
  unfold pollDump
  rcases DataSentSender.pickUp_cases h hsent credit hpos with
    ⟨a, ha, hwhy⟩ | ⟨hp, hwhy⟩ | ⟨p, buf, fin, hp, hout, hfits, heos, hfin⟩
  · simp only [ha, some_bind]
    exact .inl ⟨a, rfl, hwhy⟩
  · simp only [hp, Option.bind_eq_bind, Option.bind_none]
    exact .inr (.inl ⟨trivial, hwhy⟩)
  · obtain ⟨dump, hdump, hframe⟩ := write_handedOut hout hfits
    simp only [hp, writePicked, hdump, some_bind]
    exact .inr (.inr ⟨p, buf, fin, dump, rfl, hout, heos, hfin, hdump, hframe⟩)

lemma not_overflows {s : SendBuf} (h : s.Inv w) (hcap : capacity < 2 ^ 63) :
    ¬s.Overflows (predicate capacity budget sid) := by
  rintro ⟨mark, hmark, n, hn, hover⟩
  obtain ⟨m, hm, rfl⟩ := Option.map_eq_some_iff.mp hn
  have hroom := (StreamFrame.estimateMaxCapacity_pos hm).2
  have hbound := h.wf.bounded mark hmark
  have hsize := h.wf.size_lt
  omega

end Outgoing

end Dquic
