import Dquic.Send.Packages
import Dquic.Send.Reset

/-!
# A picked frame is written

`Outgoing::poll_dump` of `qrecovery/src/send/outgoing.rs` with the packet that it writes to.
-/

namespace Dquic

open Lib

def PacketBuffer.padFront (b : PacketBuffer) (n : Nat) : Option PacketBuffer := if n ≠ 0 then b.putPadding n else some b

/-- The part of `poll_dump` that picks, with the state that follows. -/
def Sender.pickUp (predicate : Nat → Option Nat) (flowLimit : Nat) : Sender → Option (Except Poll StreamData × Sender)
  | .ready s => do
    let (picked, s) ← s.upgradeReady.pickUp predicate flowLimit
    some (picked, Outgoing.finishing s picked)
  | .sending s => do
    let (picked, s) ← s.pickUp predicate flowLimit
    some (picked, Outgoing.finishing s picked)
  | .dataSent s => do
    let (picked, s) ← s.pickUp predicate flowLimit
    some (picked, .dataSent s)
  | s => some (.error .pending, s)

def Sender.buffer : Sender → Option SendBuf
  | .ready s => some s.sndbuf
  | .sending s => some s.sndbuf
  | .dataSent s => some s.sndbuf
  | _ => none

namespace Outgoing

variable {ε : Type}

/-- The closure `write` of `poll_dump`, with the credit and the budget that it leaves. -/
def writeIn (sid : StreamId) (capacity : Nat) (b : PacketBuffer) (credit budget : Nat) (p : StreamData) :
    Option (PacketBuffer × Nat × Nat) := do
  let length ← checkedSub p.range.stop p.range.start
  let frame ← StreamFrame.new sid p.range.start length
  let frame := frame.setEosFlag p.isEos
  let strategy ← frame.encodingStrategy capacity
  let frame := frame.setLenBit strategy.lenBit
  let b ← b.padFront strategy.prePadding
  let (result, b) ← b.pollFrame (.stream frame p.data.flatten)
  debugAssert (result.toOption = some 1)
  let budget ← checkedSub budget frame.length
  let credit ← if p.isFresh then checkedSub credit frame.length else some credit
  some (b, credit, budget)

/-- `poll_dump` in a packet: the answer, the sender, the packet, the credit and the budget. -/
def pollDumpIn (s : ArcSender ε) (b : PacketBuffer) (credit budget : Nat) :
    Option (PollDump × ArcSender ε × PacketBuffer × Nat × Nat) :=
  match s with
  | .error e => some (.ready (.ok 0), .error e, b, credit, budget)
  | .ok sender =>
    match sender.source with
    | none => some (.pending, .ok sender, b, credit, budget)
    | some sid => do
      let b := b.forFrame windowType
      let capacity := b.remainingMut
      let (picked, sender) ← sender.pickUp (predicate capacity budget sid) credit
      match picked with
      | .ok p => do
        let (b', credit, budget) ← writeIn sid capacity b credit budget p
        let n ← checkedSub b'.info.nframes b.info.nframes
        some (.ready (.ok n), .ok sender, b', credit, budget)
      | .error .ready => some (.ready (.ok 0), .ok sender, b, credit, budget)
      | .error .pending => some (.pending, .ok sender, b, credit, budget)

end Outgoing

/-! ### What was picked -/

namespace BufMap

lemma Wf.takeInterval_zero {m : BufMap} (hm : m.Wf) {A B : List State} {s : State} (hsegs : m.segs = A ++ s :: B)
    {window : Nat} (hwindow : m.size ≤ window) :
    ∃ m', takeInterval m A.length s 0 window = some (⟨s.offset, s.offset⟩, m') ∧ ∀ b < m.size, m'.colorAt b = m.colorAt b := by
  have hbound := hm.bounded s (by simp [hsegs])
  have hsize := hm.size_lt
  have hadd : checkedAdd s.offset 0 = some s.offset := checkedAdd_of_lt (by omega)
  obtain ⟨K, Z₁, Z₂, hH, hB, -, hlead, htake⟩ := takeInterval_eq hm hsegs hwindow hadd
  obtain ⟨hle, -, hlt, -, -⟩ := hm.intervalEnd_bounds hsegs
  rw [min_eq_left hle] at htake
  refine ⟨_, htake, fun b hb => ?_⟩
  have hinc := hm.increasing
  rw [hsegs] at hinc
  unfold colorAt
  simp only [hsegs, paintAt_append]
  by_cases hshort : s.offset < intervalEnd B m.size
  · -- the interval goes on behind its empty part
    rw [if_pos hshort, hB, hlead hshort, List.nil_append, paintAt_cons, paintAt_nil, paintAt_cons]
    by_cases hbs : s.offset ≤ b
    · rw [if_pos hbs, if_pos hbs]
    · rw [if_neg hbs, if_neg hbs, hH.before b (by omega)]
  · -- the interval is empty, at the end of the map
    have hbs : b < s.offset := by
      by_contra hge
      exact hshort (hlt (by omega))
    have hincB := (increasing_append.mp hinc).2.1
    rw [if_neg hshort, paintAt_nil, hincB.paintAt_of_lt hbs, paintAt_of_lt, hH.before b hbs]
    intro z hz
    exact hbs.trans ((List.pairwise_cons.mp hincB).1 z (hB ▸ List.mem_append_right _ hz))

/-- Where nothing may be taken, an empty range is picked and no byte changes its colour. -/
lemma Wf.pick_zero {m m' : BufMap} (hm : m.Wf) {predicate : Nat → Option Nat} {flowLimit window : Nat}
    (hzero : ∀ o n, predicate o = some n → n = 0) (hwindow : m.size ≤ window) {range : Range} {fresh : Bool}
    (h : m.pick predicate flowLimit window = some (.ok (range, fresh), m')) :
    range.stop = range.start ∧ range.start ≤ m.size ∧ predicate range.start = some 0 ∧
      ∀ b < m.size, m'.colorAt b = m.colorAt b := by
  unfold pick at h
  cases hfind : pickFind flowLimit window m.segs 0 .pending with
  | mk found availability =>
    rw [hfind] at h
    cases found with
    | none => cases h
    | some found =>
      obtain ⟨index, s⟩ := found
      obtain ⟨A, B, hsegs, hidx, -⟩ := pickFind_some hfind
      rw [Nat.zero_add] at hidx
      subst hidx
      dsimp only at h
      cases hpred : predicate s.offset with
      | none =>
        rw [hpred] at h
        cases h
      | some available =>
        obtain rfl := hzero _ _ hpred
        rw [hpred] at h
        have hallow : (if s.color = .lost then 0 else min 0 flowLimit) = 0 := by
          split
          · rfl
          · exact Nat.zero_min _
        obtain ⟨m₁, htake, hcolor⟩ := hm.takeInterval_zero hsegs hwindow
        dsimp only at h
        rw [hallow, htake] at h
        cases h
        exact ⟨rfl, hm.bounded s (by simp [hsegs]), hpred, hcolor⟩

end BufMap

/-- What was picked are written bytes within the room and the flow limit, and only they are recoloured. -/
structure SendBuf.Yields (b b' : SendBuf) (w : Bytes) (predicate : Nat → Option Nat) (flowLimit : Nat) (p : StreamData) :
    Prop where
  le : p.range.start ≤ p.range.stop
  stop_lt : p.range.stop < 2 ^ 62
  stop_le : p.range.stop ≤ w.length
  bytes : p.data.flatten = (w.take p.range.stop).drop p.range.start
  fits : p.Fits predicate flowLimit
  color : ∀ i < b.state.size, b'.state.colorAt i = if p.range.Mem i then .flighting else b.state.colorAt i

namespace SendBuf

variable {b b' : SendBuf} {w : Bytes} {predicate : Nat → Option Nat} {flowLimit : Nat} {p : StreamData}

lemma HandedOut.yields (h : b.HandedOut b' w p) (hfits : p.Fits predicate flowLimit) :
    b.Yields b' w predicate flowLimit p := by
  have hstop := h.sentIn.stop_le
  have hsent := h.inv.wf.sent_le
  have hlt := h.inv.wf.size_lt
  have hsize := h.inv.size_eq
  exact ⟨h.sentIn.le, by omega, by omega, h.bytes, hfits, h.color⟩

lemma Inv.yields_empty (h : b.Inv w) {state : BufMap} (hcolor : ∀ i < b.state.size, state.colorAt i = b.state.colorAt i)
    (hle : p.range.start ≤ b.state.size) (hempty : p.range.stop = p.range.start) (hdata : p.data.flatten = [])
    {n : Nat} (hroom : predicate p.range.start = some n) :
    b.Yields { b with state := state } w predicate flowLimit p := by
  have hlt := h.wf.size_lt
  have hsize := h.size_eq
  refine ⟨hempty.ge, by omega, by omega, ?_, ⟨⟨n, hroom, by omega⟩, fun _ => by omega⟩, ?_⟩
  · rw [hdata, hempty, List.drop_take_self]
  · intro i hi
    rw [if_neg fun hmem => by unfold Range.Mem at hmem; omega]
    exact hcolor i hi

lemma Inv.pickUp_zero (h : b.Inv w) (hzero : ∀ o n, predicate o = some n → n = 0) {range : Range} {fresh : Bool}
    {data : List Bytes} (hpick : b.pickUp predicate flowLimit = some (.ok (range, fresh, data), b')) (isEos : Bool) :
    b.Yields b' w predicate flowLimit ⟨range, fresh, data, isEos⟩ := by
  have hmax : b.state.size ≤ b.maxData := by
    rw [h.size_eq]
    exact min_le_right _ _
  obtain ⟨⟨picked, state⟩, hstate, hpick⟩ := of_bind hpick
  cases picked with
  | error a => cases hpick
  | ok r =>
    obtain ⟨pieces, hpieces, hpick⟩ := of_bind hpick
    cases hpick
    obtain ⟨hempty, hle, hroom, hcolor⟩ := h.wf.pick_zero hzero hmax hstate
    obtain ⟨data', hdata', hflat⟩ := pieces_flatten r.1 hempty.ge b.offset b.data
    cases hpieces.symm.trans hdata'
    refine h.yields_empty hcolor hle hempty ?_ hroom
    rw [hflat, hempty, List.drop_take_self]

lemma pickUp_error {a : Poll} (h : b.pickUp predicate flowLimit = some (.error a, b')) : b' = b := by
  obtain ⟨⟨picked, state⟩, hstate, h⟩ := of_bind h
  have hsame : ∀ a', picked = .error a' → state = b.state := by
    rintro a' rfl
    unfold BufMap.pick at hstate
    split at hstate
    · cases hstate
      rfl
    · split at hstate
      · cases hstate
        rfl
      · obtain ⟨_, -, hstate⟩ := of_bind hstate
        cases hstate
  cases picked with
  | error a' =>
    have hstate' := hsame a' rfl
    cases h
    rw [hstate']
  | ok r =>
    obtain ⟨_, -, h⟩ := of_bind h
    cases h

end SendBuf

/-- The predicate of `poll_dump` gives room everywhere, or nowhere. -/
def Outgoing.Even (predicate : Nat → Option Nat) : Prop :=
  (∀ o n, predicate o = some n → 0 < n) ∨ ∀ o n, predicate o = some n → n = 0

lemma Outgoing.even_predicate (capacity budget : Nat) (sid : StreamId) : Even (predicate capacity budget sid) := by
  cases Nat.eq_zero_or_pos budget with
  | inl hzero =>
    refine .inr fun o n h => ?_
    obtain ⟨k, -, rfl⟩ := Option.map_eq_some_iff.mp h
    rw [hzero, Nat.min_zero]
  | inr hpos => exact .inl (predicate_pos hpos)

section

variable {w : Bytes} {predicate : Nat → Option Nat} {flowLimit : Nat} {p : StreamData}

lemma WritingSender.pickUp_yields {s s' : WritingSender} (h : s.sndbuf.Inv w) (heven : Outgoing.Even predicate)
    (hpick : s.pickUp predicate flowLimit = some (.ok p, s')) :
    s.sndbuf.Yields s'.sndbuf w predicate flowLimit p := by
  rcases heven with hpos | hzero
  · rcases WritingSender.pickUp_cases h flowLimit hpos with ⟨a, ha, -⟩ | ⟨hnone, -⟩ | ⟨p', buf, hp, hout, hfits, -⟩
    · cases ha.symm.trans hpick
    · cases hnone.symm.trans hpick
    · cases hp.symm.trans hpick
      exact hout.yields hfits
  · obtain ⟨⟨picked, buf⟩, hbuf, hpick⟩ := of_bind hpick
    cases picked with
    | ok r =>
      cases hpick
      exact h.pickUp_zero hzero hbuf _
    | error a =>
      obtain rfl := SendBuf.pickUp_error hbuf
      dsimp only at hpick
      split_ifs at hpick
      · split at hpick
        · cases hpick
        · rename_i hroom
          cases hpick
          exact h.yields_empty (fun _ _ => rfl) h.wf.sent_le rfl rfl hroom
      · cases hpick

lemma DataSentSender.pickUp_yields {s s' : DataSentSender} (h : s.sndbuf.Inv w) (hsent : s.sndbuf.sent = w.length)
    (heven : Outgoing.Even predicate) (hpick : s.pickUp predicate flowLimit = some (.ok p, s')) :
    s.sndbuf.Yields s'.sndbuf w predicate flowLimit p := by
  rcases heven with hpos | hzero
  · rcases DataSentSender.pickUp_cases h hsent flowLimit hpos with
      ⟨a, ha, -⟩ | ⟨hnone, -⟩ | ⟨p', buf, fin, hp, hout, hfits, -⟩
    · cases ha.symm.trans hpick
    · cases hnone.symm.trans hpick
    · cases hp.symm.trans hpick
      exact hout.yields hfits
  · obtain ⟨⟨picked, buf⟩, hbuf, hpick⟩ := of_bind hpick
    cases picked with
    | ok r =>
      cases hpick
      exact h.pickUp_zero hzero hbuf _
    | error a =>
      obtain rfl := SendBuf.pickUp_error hbuf
      have hend : s.sndbuf.written ≤ s.sndbuf.state.size := by
        rw [h.written_eq, ← hsent]
        exact h.wf.sent_le
      dsimp only at hpick
      split_ifs at hpick
      · split at hpick
        · cases hpick
        · rename_i hroom
          cases hpick
          exact h.yields_empty (fun _ _ => rfl) hend rfl rfl hroom
      · cases hpick

end

lemma ArcSender.Agrees.pickUp_yields {ε : Type} {sid : StreamId} {h : SenderHistory} {sender sender' : Sender}
    (hs : ArcSender.Agrees sid h (.ok sender : ArcSender ε)) {predicate : Nat → Option Nat}
    (heven : Outgoing.Even predicate) {flowLimit : Nat} {p : StreamData} (hpick : sender.pickUp predicate flowLimit = some (.ok p, sender')) :
    sender.source = some sid ∧ ∃ buf buf', sender.buffer = some buf ∧ sender'.buffer = some buf' ∧
      buf.Yields buf' h.written predicate flowLimit p := by
  have hfinishing : ∀ (s : SendingSender) picked, (Outgoing.finishing s picked).buffer = some s.sndbuf := by
    intro s picked
    cases picked with
    | ok p =>
      unfold Outgoing.finishing
      dsimp only
      split <;> rfl
    | error a => rfl
  have hwriting : ∀ t t' : WritingSender, t.Agrees sid h → t.pickUp predicate flowLimit = some (.ok p, t') →
      sender' = Outgoing.finishing t' (.ok p) → some t.streamId = some sid ∧
        ∃ buf buf', some t.sndbuf = some buf ∧ sender'.buffer = some buf' ∧
          buf.Yields buf' h.written predicate flowLimit p := by
    intro t t' ht hp hnext
    rw [hnext]
    exact ⟨congrArg some ht.streamId, t.sndbuf, t'.sndbuf, rfl, hfinishing _ _,
      WritingSender.pickUp_yields ht.tracked.inv heven hp⟩
  match sender, hs with
  | .ready s, ⟨hs, _⟩ | .sending s, hs =>
    obtain ⟨⟨picked, s'⟩, hp, hpick⟩ := of_bind hpick
    cases hpick
    exact hwriting s s' hs hp rfl
  | .dataSent s, hs =>
    have hs : s.Agrees sid h := hs
    obtain ⟨⟨picked, s'⟩, hp, hpick⟩ := of_bind hpick
    cases hpick
    exact ⟨congrArg some hs.streamId, s.sndbuf, s'.sndbuf, rfl, rfl,
      DataSentSender.pickUp_yields hs.tracked.inv hs.sent heven hp⟩
  | .dataRcvd, _ => cases hpick

/-! ### The packet -/

lemma StreamFrame.length_put_le {f : StreamFrame} {size : Nat} (hsize : f.encodingSize = some size) (data : Bytes) :
    (f.put data).length ≤ size + data.length ∧ (f.lenBit = .omitted → (f.put data).length = size + data.length) := by
  have hput := Frame.length_put_stream f data
  cases hlen : f.lenBit with
  | explicit =>
    rw [hlen, if_pos rfl] at hput
    rw [encodingSize, hlen, if_pos rfl] at hsize
    obtain ⟨length, hlength, hsize⟩ := of_bind hsize
    cases hsize
    obtain ⟨v, hv, rfl⟩ := Option.map_eq_some_iff.mp hlength
    have hval : v.val = f.length := by
      unfold VarInt.fromU64 at hv
      split at hv
      · cases hv
        rfl
      · cases hv
    have hle : (VarInt.fromU32 f.length).encodingSize ≤ v.encodingSize :=
      VarInt.sizeOf_mono (hval ▸ Nat.mod_le _ _)
    refine ⟨by omega, fun h => ?_⟩
    cases h
  | omitted =>
    have hno : ¬Len.omitted = .explicit := by decide
    rw [hlen, if_neg hno] at hput
    rw [encodingSize, hlen, if_neg hno] at hsize
    cases hsize
    exact ⟨hput.le, fun _ => hput⟩

namespace PacketBuffer

lemma plain_window : Plain Outgoing.windowType := ⟨rfl, rfl⟩

lemma plain_stream (f : StreamFrame) : Plain f.frameType := ⟨rfl, rfl⟩

variable {b : PacketBuffer}

lemma pollFrame_stream (ht : b.Takes Outgoing.windowType) {f : StreamFrame} {data : Bytes} {size : Nat}
    (hsize : f.encodingSize = some size) (hfit : size + data.length ≤ b.capacity) :
    b.pollFrame (.stream f data) = some (.ok 1, b.wrote (.stream f data) (f.put data)) := by
  set frame : Frame Bytes := .stream f data
  have ht' : b.Takes frame.frameType := ht
  have hremaining : (b.forFrame frame.frameType).remainingMut = b.capacity := (plain_stream f).remainingMut_eq ht'
  have hencoded : frame.encodingSize = some size := hsize
  have hcan : (b.forFrame frame.frameType).canFit (size + frame.payload.length) := by
    refine ⟨hremaining ▸ hfit, .inr ?_⟩
    rw [forFrame_eq]
    exact ht.2.2.trans (min_le_right _ _)
  have hput : (f.put data).length ≤ (b.forFrame frame.frameType).remainingMut :=
    (f.length_put_le hsize data).1.trans (hremaining ▸ hfit)
  have hbytes : Dquic.putFrame (b.forFrame frame.frameType).remainingMut frame = some (f.put data) :=
    putFrame_of_bytes rfl hput
  unfold pollFrame
  simp only [ht'.1, not_true_eq_false, if_false, hencoded, some_bind, hcan, putFrame, hbytes,
    putSlice_of_le hput]
  rfl

/-- The padding in front of a frame takes its bytes from the capacity, and nothing else. -/
structure Padded (b : PacketBuffer) (n : Nat) (b' : PacketBuffer) : Prop where
  takes : b'.Takes Outgoing.windowType
  capacity : b'.capacity = b.capacity - n
  nwrote : b'.nwrote = b.nwrote + n
  out : b'.out = b.out ++ List.replicate n 0
  limit : b'.limit Outgoing.windowType = b.limit Outgoing.windowType
  tagLen : b'.tagLen = b.tagLen
  nframes : b'.info.nframes = b.info.nframes + if n = 0 then 0 else 1

lemma exists_padded (ht : b.Takes Outgoing.windowType) {n : Nat} (hn : n ≤ b.remainingMut) :
    ∃ b', b.padFront n = some b' ∧ b.Padded n b' := by
  unfold padFront
  by_cases hzero : n = 0
  · subst hzero
    exact ⟨b, rfl, ht, rfl, rfl, (List.append_nil _).symm, rfl, rfl, rfl⟩
  · have hput : (List.replicate n 0 : Bytes).length ≤ b.remainingMut := by
      rw [List.length_replicate]
      exact hn
    have hroom : n ≤ b.room := hn.trans (min_le_right _ _)
    have htotal : b.nwrote + n + (b.room - n) = b.nwrote + b.room := by omega
    rw [if_pos hzero]
    unfold putPadding
    rw [putSlice_of_le hput, some_bind, List.length_replicate]
    refine ⟨_, rfl, ⟨ht.1, ?_, ?_⟩, ?_, rfl, rfl, ?_, rfl, ?_⟩
    · change (b.finished || false) = false
      rw [ht.2.1]
      rfl
    · change b.minSize ≤ min (b.nwrote + n + (b.room - n)) b.credit
      rw [htotal]
      exact ht.2.2
    · change min (b.nwrote + n + (b.room - n)) b.credit - b.tagLen - (b.nwrote + n) = _
      rw [htotal, Nat.sub_add_eq]
      rfl
    · rw [plain_window.limit_eq, plain_window.limit_eq]
      change min (b.nwrote + n + (b.room - n)) b.credit = _
      rw [htotal]
    · rw [if_neg hzero]
      rfl

lemma wrote_nframes (b : PacketBuffer) (frame : Frame Bytes) (bytes : Bytes) :
    (b.wrote frame bytes).info.nframes = b.info.nframes + 1 := by
  unfold wrote
  rw [forFrame_eq]
  rfl

end PacketBuffer

namespace Outgoing

open PacketBuffer

/-- How data that was picked is written behind its padding, in a window `w`. -/
structure Written (sid : StreamId) (w : PacketBuffer) (credit budget : Nat) (p : StreamData) (frame : StreamFrame)
    (strategy : EncodingStrategy) (b' : PacketBuffer) : Prop where
  id : frame.id = sid
  range : frame.range = p.range
  fin : frame.isFin = p.isEos
  length : frame.length = p.data.flatten.length
  chosen : (frame.setLenBit .omitted).encodingStrategy w.remainingMut = some strategy
  lenBit : frame.lenBit = strategy.lenBit
  fits : ∃ size, frame.encodingSize = some size ∧ strategy.prePadding + size + p.data.flatten.length ≤ w.remainingMut
  nested : ∃ b, w.padFront strategy.prePadding = some b ∧ b.pollFrame (.stream frame p.data.flatten) = some (.ok 1, b')
  ends : frame.lenBit = .omitted → b'.nwrote = w.stop
  out : b'.out = w.out ++ (List.replicate strategy.prePadding 0 ++ frame.put p.data.flatten)
  nframes : b'.info.nframes = w.info.nframes + if strategy.prePadding = 0 then 1 else 2
  budget_le : frame.length ≤ budget
  credit_le : p.isFresh = true → frame.length ≤ credit

variable {budget credit : Nat} {p : StreamData} {sid : StreamId} {b' w : PacketBuffer} {frame : StreamFrame}
  {strategy : EncodingStrategy}

lemma remainingMut_forFrame {b : PacketBuffer} (hpos : 0 < (b.forFrame windowType).remainingMut) :
    b.Takes windowType ∧ (b.forFrame windowType).remainingMut = (b.forFrame windowType).capacity ∧
      (b.forFrame windowType).nwrote + (b.forFrame windowType).remainingMut = (b.forFrame windowType).stop := by
  have ht : b.Takes windowType := plain_window.takes_of_pos hpos
  have hroom : (b.forFrame windowType).remainingMut = b.capacity := plain_window.remainingMut_eq ht
  have hstop := forFrame_stop_of_not_shut ((plain_window.takes_iff b).mp ht)
  have hnwrote : (b.forFrame windowType).nwrote = b.nwrote := by rw [forFrame_eq]
  rw [plain_window.limit_eq] at hstop
  refine ⟨ht, by rw [hroom, capacity_forFrame], ?_⟩
  unfold capacity at hroom
  omega

lemma exists_written {b : PacketBuffer} {buf buf' : SendBuf} {written : Bytes}
    (h : buf.Yields buf' written (predicate (b.forFrame windowType).remainingMut budget sid) credit p) :
    ∃ frame strategy b', Written sid (b.forFrame windowType) credit budget p frame strategy b' := by
  set w := b.forFrame windowType with hw
  obtain ⟨⟨m, hm, hstop⟩, hflow⟩ := h.fits
  obtain ⟨n, hn, rfl⟩ := Option.map_eq_some_iff.mp hm
  obtain ⟨hpos, hcap⟩ := StreamFrame.estimateMaxCapacity_pos hn
  have hle := h.le
  have hlt := h.stop_lt
  have hwritten := h.stop_le
  have hdata : p.data.flatten.length = p.range.stop - p.range.start := by
    rw [h.bytes, List.length_drop, List.length_take]
    omega
  obtain ⟨ht, hcapacity, hend⟩ := remainingMut_forFrame (b := b) (by rw [← hw]; omega)
  rw [← hw] at hcapacity hend
  have ht' : w.Takes windowType := (takes_forFrame b _ _).mpr ht
  set plain : StreamFrame := ⟨sid, ⟨p.range.start, by omega⟩, p.range.stop - p.range.start, .omitted, p.isEos⟩
  have hfit : StreamFrame.least plain.id plain.offset.val + plain.length ≤ w.remainingMut := by
    change StreamFrame.least sid p.range.start + (p.range.stop - p.range.start) ≤ w.remainingMut
    omega
  have hlength : plain.length < 2 ^ 62 := by
    change p.range.stop - p.range.start < 2 ^ 62
    omega
  obtain ⟨strategy, size, hstrategy, hsize, hroom⟩ := StreamFrame.encodingStrategy_fits rfl hlength hfit
  have hroom' : strategy.prePadding + size + p.data.flatten.length ≤ w.remainingMut := by
    rw [hdata]
    exact hroom
  obtain ⟨b₁, hpad, hpadded⟩ := exists_padded ht' (n := strategy.prePadding) (by omega)
  have hleft : size + p.data.flatten.length ≤ b₁.capacity := by
    rw [hpadded.capacity]
    omega
  have hnested := pollFrame_stream hpadded.takes hsize hleft
  refine ⟨plain.setLenBit strategy.lenBit, strategy, _, rfl, ?_, rfl, hdata.symm, hstrategy, rfl, ⟨size, hsize, hroom'⟩,
    ⟨b₁, hpad, hnested⟩, ?_, ?_, ?_, ?_, ?_⟩
  · change (⟨p.range.start, p.range.start + (p.range.stop - p.range.start)⟩ : Range) = p.range
    rw [Nat.add_sub_cancel' hle]
  · intro homitted
    obtain ⟨-, size', hsize', hfull⟩ := StreamFrame.encodingStrategy_omitted hstrategy homitted
    have hsame : plain.setLenBit strategy.lenBit = plain := by
      change strategy.lenBit = .omitted at homitted
      rw [homitted]
      rfl
    rw [hsame] at hsize homitted ⊢
    cases hsize.symm.trans hsize'
    change strategy.prePadding + size + (p.range.stop - p.range.start) = _ at hfull
    rw [wrote_nwrote, hpadded.nwrote, (plain.length_put_le hsize _).2 rfl]
    omega
  · rw [wrote_out, hpadded.out, List.append_assoc]
  · rw [wrote_nframes, hpadded.nframes]
    split <;> rfl
  · change p.range.stop - p.range.start ≤ budget
    omega
  · intro hfresh
    have hcredit := hflow hfresh
    change p.range.stop - p.range.start ≤ credit
    omega

lemma Written.new_eq (h : Written sid w credit budget p frame strategy b') :
    (StreamFrame.new sid p.range.start (p.range.stop - p.range.start)).map (fun f => f.setEosFlag p.isEos) =
      some (frame.setLenBit .omitted) := by
  obtain ⟨id, offset, length, lenBit, finBit⟩ := frame
  have hid : id = sid := h.id
  have hfin : finBit = p.isEos := h.fin
  have hrange : (⟨offset.val, offset.val + length⟩ : Range) = p.range := h.range
  rw [← hid, ← hrange, ← hfin]
  unfold StreamFrame.new
  rw [VarInt.fromU64_of_lt offset.lt, Nat.add_sub_cancel_left]
  rfl

lemma Written.writeIn_eq (h : Written sid w credit budget p frame strategy b') (hle : p.range.start ≤ p.range.stop) :
    writeIn sid w.remainingMut w credit budget p =
      some (b', if p.isFresh then credit - frame.length else credit, budget - frame.length) := by
  obtain ⟨new, hnew, heos⟩ := Option.map_eq_some_iff.mp h.new_eq
  obtain ⟨b, hpad, hnested⟩ := h.nested
  have hframe : (frame.setLenBit .omitted).setLenBit strategy.lenBit = frame := by
    rw [← h.lenBit]
    rfl
  have hone : ((.ok 1 : Except QuicError Nat).toOption = some 1) := rfl
  unfold writeIn
  simp only [checkedSub_of_le hle, hnew, heos, h.chosen, hframe, hpad, hnested, debugAssert_of hone,
    checkedSub_of_le h.budget_le, some_bind]
  cases hfresh : p.isFresh with
  | true =>
    rw [if_pos rfl, if_pos rfl, checkedSub_of_le (h.credit_le hfresh)]
    rfl
  | false => rfl

/-- Whenever a stream picks a range for a packet, whatever the packet, the credit and the budget are, the frame is
written to it completely, and the bytes of the range are the ones that are in flight now. -/
theorem pollDumpIn_writes {sid : StreamId} {bufSize : Nat} {world : SendingWorld ε}
    (hw : (sendingSystem ε sid bufSize).Reach world) {sender sender' : Sender} (hsender : world.sender = .ok sender)
    (b : PacketBuffer) (credit budget : Nat) {p : StreamData}
    (hpick : sender.pickUp (predicate (b.forFrame windowType).remainingMut budget sid) credit = some (.ok p, sender')) :
    ∃ frame strategy b', Written sid (b.forFrame windowType) credit budget p frame strategy b' ∧
      pollDumpIn world.sender b credit budget =
        some (.ready (.ok (if strategy.prePadding = 0 then 1 else 2)), .ok sender', b',
          if p.isFresh then credit - frame.length else credit, budget - frame.length) ∧
      p.data.flatten = (world.written.take p.range.stop).drop p.range.start ∧
      ∃ buf buf', sender.buffer = some buf ∧ sender'.buffer = some buf' ∧
        ∀ i < buf.state.size, buf'.state.colorAt i = if p.range.Mem i then .flighting else buf.state.colorAt i := by
  have hagrees : ArcSender.Agrees sid world.toSenderHistory (.ok sender : ArcSender ε) := by
    cases SendingWorld.traced_of_reach hw with
    | going hagrees _ _ => exact hsender ▸ hagrees
    | reset s reset hs hreset _ _ =>
      -- nothing is picked from a stream that was reset
      cases hsender.symm.trans hs
      rcases hreset with rfl | rfl <;> cases hpick
    | broken e hs _ => cases hsender.symm.trans hs
  obtain ⟨hsource, buf, buf', hbuf, hbuf', hyields⟩ := hagrees.pickUp_yields (even_predicate _ _ _) hpick
  obtain ⟨frame, strategy, b', hwritten⟩ := exists_written hyields
  refine ⟨frame, strategy, b', hwritten, ?_, hyields.bytes, buf, buf', hbuf, hbuf', hyields.color⟩
  have hframes : checkedSub b'.info.nframes (b.forFrame windowType).info.nframes =
      some (if strategy.prePadding = 0 then 1 else 2) := by
    rw [hwritten.nframes, checkedSub_of_le (Nat.le_add_right _ _), Nat.add_sub_cancel_left]
  rw [hsender]
  unfold pollDumpIn
  simp only [hsource, hpick, hwritten.writeIn_eq hyields.le, hframes, some_bind]

/-- The whole stream in a short packet, behind its padding. -/
theorem pollDumpIn_writes_short : ∃ world, (sendingSystem Unit ⟨⟨0, by decide⟩⟩ 8).Reach world ∧
    ∃ n sender b', pollDumpIn world.sender (PacketBuffer.new 40 40 [] (.short false) 0 16) 100 4096 =
      some (.ready (.ok n), .ok sender, b', 97, 4093) := by
  have h₀ : (sendingSystem Unit ⟨⟨0, by decide⟩⟩ 8).Reach _ := .start rfl
  have h₁ := h₀.step (e := SendingOp.stream (.write [1, 2, 3])) trivial rfl
  have h₂ := h₁.step (e := SendingOp.stream .shutdown) trivial rfl
  obtain ⟨frame, strategy, b', hwritten, hpoll, -⟩ :=
    pollDumpIn_writes h₂ rfl (PacketBuffer.new 40 40 [] (.short false) 0 16) 100 4096 rfl
  rw [hwritten.length] at hpoll
  exact ⟨_, h₂, _, _, b', hpoll⟩

end Outgoing

end Dquic
