import Dquic.Packet.Tail
import Dquic.Send.SenderRuns

/-!
# Data that is packed

`Outgoing::poll_dump` of `qrecovery/src/send/outgoing.rs` and `DatagramOutgoing` of
`qdatagram/src/writer.rs` as acts on a packet.
-/

namespace Dquic

open Lib

namespace Outgoing

def windowType : FrameType := .stream false .explicit false

def acts (dump : Dump) : List Act :=
  [.cut windowType, .pad dump.prePadding, .write (.stream dump.frame dump.data.flatten)]

end Outgoing

namespace DatagramOutgoing

def windowType : FrameType := .datagram 1

/-- The first datagram of the queue is written with its length, or without if only that fits. -/
def acts (b : PacketBuffer) (length : VarInt) (data : Bytes) : List Act :=
  let w := b.forFrame windowType
  let long : DatagramFrame := ⟨true, length⟩
  let short : DatagramFrame := ⟨false, length⟩
  if w.canFit (long.encodingSize + data.length) then [.cut windowType, .write (.datagram long data)]
  else if w.canFit (short.encodingSize + data.length) then
    [.cut windowType, .pad (w.remainingMut - short.encodingSize - data.length), .write (.datagram short data)]
  else [.cut windowType]

end DatagramOutgoing

/-- A frame of the data that a stream has picked: the bytes that the application wrote there. -/
def Frame.Picked : Frame Bytes → Prop
  | stream f data => ∃ bufSize w, (senderSystem QuicError f.id bufSize).Reach w ∧ f.range.stop ≤ w.written.length ∧
      data = (w.written.take f.range.stop).drop f.range.start
  | _ => True

/-- What the sources of the repository do: frames without their length come from a stream that picks its data, or from
the queue of datagrams. -/
inductive Lawful : PacketBuffer → List Act → Prop
  | nil (b : PacketBuffer) : Lawful b []
  | act {b b' : PacketBuffer} {a : Act} {log : List (Frame Bytes)} {acts : List Act} :
      (∀ frame, a = .write frame → ¬ frame.OmitsLength) → b.act a = some (log, b') → Lawful b' acts → Lawful b (a :: acts)
  | stream {b b' : PacketBuffer} {sid : StreamId} {bufSize credit budget : Nat} {w : SenderWorld QuicError} {dump : Dump}
      {s : ArcSender QuicError} {log : List (Frame Bytes)} {acts : List Act} :
      (senderSystem QuicError sid bufSize).Reach w → 0 < budget →
      Outgoing.pollDump w.sender (b.forFrame Outgoing.windowType).remainingMut credit budget = some (.ok dump, s) →
      b.run (Outgoing.acts dump) = some (log, b') → Lawful b' acts → Lawful b (Outgoing.acts dump ++ acts)
  | datagram {b b' : PacketBuffer} {length : VarInt} {data : Bytes} {log : List (Frame Bytes)} {acts : List Act} :
      length.val = data.length → b.run (DatagramOutgoing.acts b length data) = some (log, b') → Lawful b' acts →
      Lawful b (DatagramOutgoing.acts b length data ++ acts)

def Source.Lawful (s : Source) : Prop := ∀ b, Dquic.Lawful b (s.acts b)

/-! ### What was picked -/

lemma StreamFrame.encodingStrategy_omitted {f : StreamFrame} {capacity : Nat} {strategy : EncodingStrategy}
    (h : f.encodingStrategy capacity = some strategy) (homitted : strategy.lenBit = .omitted) :
    f.lenBit = .omitted ∧ ∃ size, f.encodingSize = some size ∧ strategy.prePadding + size + f.length = capacity := by
  unfold encodingStrategy at h
  obtain ⟨_, hlen, h⟩ := of_bind h
  obtain ⟨size, hsize, h⟩ := of_bind h
  obtain ⟨_, hfit, h⟩ := of_bind h
  obtain ⟨lenSize, -, h⟩ := of_bind h
  have hle := of_debugAssert hfit
  refine ⟨of_debugAssert hlen, size, hsize, ?_⟩
  dsimp only at h
  split_ifs at h
  · cases h
    cases homitted
  · cases h
    cases homitted
  · cases h
    dsimp only
    omega

variable {flowLimit : Nat} {predicate : Nat → Option Nat} {b : PacketBuffer}

lemma WritingSender.pickUp_streamId (s : WritingSender) {r : Except Poll StreamData × WritingSender}
    (h : s.pickUp predicate flowLimit = some r) : r.2.streamId = s.streamId := by
  obtain ⟨⟨picked, sndbuf⟩, -, h⟩ := of_bind h
  cases picked with
  | ok p =>
    cases h
    rfl
  | error a =>
    dsimp only at h
    split_ifs at h
    · split at h <;> cases h <;> rfl
    · cases h
      rfl

lemma DataSentSender.pickUp_streamId (s : DataSentSender) {r : Except Poll StreamData × DataSentSender}
    (h : s.pickUp predicate flowLimit = some r) : r.2.streamId = s.streamId := by
  obtain ⟨⟨picked, sndbuf⟩, -, h⟩ := of_bind h
  cases picked with
  | ok p =>
    cases h
    rfl
  | error a =>
    dsimp only at h
    split_ifs at h
    · split at h <;> cases h <;> rfl
    · cases h
      rfl

namespace Outgoing

variable {budget capacity credit : Nat} {dump : Dump} {p : StreamData} {sid : StreamId} {h : SenderHistory}

/-- A frame stays inside its budget. Without its length it fills the capacity with the padding in front of it. -/
lemma write_frame (h : write sid capacity credit budget p = some dump) :
    dump.frame.id = sid ∧ dump.frame.length ≤ budget ∧ (dump.frame.lenBit = .omitted →
      ∃ size, dump.frame.encodingSize = some size ∧ dump.prePadding + size + dump.frame.length = capacity) := by
  unfold write at h
  obtain ⟨length, -, h⟩ := of_bind h
  obtain ⟨frame, hframe, h⟩ := of_bind h
  obtain ⟨strategy, hstrategy, h⟩ := of_bind h
  obtain ⟨size, hsize, h⟩ := of_bind h
  obtain ⟨-, -, h⟩ := of_bind h
  obtain ⟨left, hleft, h⟩ := of_bind h
  have hdump : dump.prePadding = strategy.prePadding ∧
      dump.frame = (frame.setEosFlag p.isEos).setLenBit strategy.lenBit := by
    dsimp only at h
    split_ifs at h
    · obtain ⟨credit', -, h⟩ := of_bind h
      cases h
      exact ⟨rfl, rfl⟩
    · cases h
      exact ⟨rfl, rfl⟩
  rw [hdump.1, hdump.2]
  refine ⟨?_, ?_, ?_⟩
  · obtain ⟨offset, -, hnew⟩ := of_bind hframe
    cases hnew
    rfl
  · exact (checkedSub_eq_some hleft).1
  intro homitted
  obtain ⟨hlen, size', hsize', hfull⟩ := StreamFrame.encodingStrategy_omitted hstrategy homitted
  have hsame : (frame.setEosFlag p.isEos).setLenBit strategy.lenBit = frame.setEosFlag p.isEos := by
    change strategy.lenBit = .omitted at homitted
    rw [homitted, ← hlen]
    rfl
  rw [hsame]
  exact ⟨size', hsize', hfull⟩

variable {ε : Type}

lemma writePicked_ok {picked : Except Poll StreamData}
    (h : writePicked sid capacity credit budget picked = some (.ok dump)) :
    ∃ p, write sid capacity credit budget p = some dump := by
  cases picked with
  | ok p =>
    obtain ⟨d, hd, h⟩ := of_bind h
    cases h
    exact ⟨p, hd⟩
  | error a => cases h

variable {s s' : ArcSender ε}

lemma exists_write_of_pollDump (hs : s.Agrees sid h) (he : pollDump s capacity credit budget = some (.ok dump, s')) :
    ∃ p, write sid capacity credit budget p = some dump := by
  match s, hs with
  | .ok (.ready t), ⟨ht, _⟩ | .ok (.sending t), ht =>
    obtain ⟨r, hpick, he⟩ := of_bind he
    obtain ⟨res, hres, he⟩ := of_bind he
    cases he
    rw [← WritingSender.Agrees.streamId ht, ← t.pickUp_streamId hpick]
    exact writePicked_ok hres
  | .ok (.dataSent t), ht =>
    obtain ⟨r, hpick, he⟩ := of_bind he
    obtain ⟨res, hres, he⟩ := of_bind he
    cases he
    rw [← ht.streamId, ← t.pickUp_streamId hpick]
    exact writePicked_ok hres
  | .ok .dataRcvd, _ => cases he

lemma Carries.picked (hc : Carries dump p credit) {b b' : SendBuf} {w : Bytes} (hout : b.HandedOut b' w p) :
    dump.data.flatten = (w.take dump.frame.range.stop).drop dump.frame.range.start ∧ dump.frame.range.stop ≤ w.length ∧
      dump.frame.range.stop < 2 ^ 62 := by
  have hstop := hout.sentIn.stop_le
  have hsent := hout.inv.wf.sent_le
  have hsize := hout.inv.wf.size_lt
  have hlen := hout.inv.size_eq
  rw [hc.data, hc.range]
  exact ⟨hout.bytes, by omega, by omega⟩

end Outgoing

/-! ### Sources that keep the rule -/

def Frame.Packed (frame : Frame Bytes) : Prop := frame.WellFormed ∧ frame.Picked

open PacketBuffer

namespace Outgoing

variable {sid : StreamId} {bufSize : Nat} {w : SenderWorld QuicError} {budget : Nat}

def actsIn (s : ArcSender QuicError) (credit budget : Nat) (b : PacketBuffer) : List Act :=
  match pollDump s (b.forFrame windowType).remainingMut credit budget with
  | some (.ok dump, _) => acts dump
  | _ => [.cut windowType]

def pollIn (s : ArcSender QuicError) (credit budget : Nat) (b : PacketBuffer) : PollDump :=
  match pollDump s (b.forFrame windowType).remainingMut credit budget with
  | some (.ok dump, _) => .ready (.ok (if dump.prePadding = 0 then 1 else 2))
  | some (.error .pending, _) => .pending
  | _ => .ready (.ok 0)

lemma actsIn_sized (hw : (senderSystem QuicError sid bufSize).Reach w) (hbudget : budget < 2 ^ 32) (credit : Nat)
    (b : PacketBuffer) : ∀ a ∈ actsIn w.sender credit budget b, a.WellSized := by
  unfold actsIn
  split
  · rename_i dump s he
    obtain ⟨p, hwrite⟩ := exists_write_of_pollDump (SenderWorld.agrees_of_reach hw) he
    have hlen := (write_frame hwrite).2.1
    intro a ha
    simp only [acts, List.mem_cons, List.not_mem_nil, or_false] at ha
    rcases ha with rfl | rfl | rfl
    · trivial
    · trivial
    · exact fun _ => lt_of_le_of_lt hlen hbudget
  · intro a ha
    rw [List.mem_singleton.mp ha]
    trivial

def source (hw : (senderSystem QuicError sid bufSize).Reach w) (hbudget : budget < 2 ^ 32) (credit : Nat) : Source where
  content := .effectivePayload
  belongsTo _ := true
  priority := 0
  acts := actsIn w.sender credit budget
  poll := pollIn w.sender credit budget
  sized := actsIn_sized hw hbudget credit

end Outgoing

end Dquic
