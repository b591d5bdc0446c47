import Dquic.Frame.RoundTrip
import Dquic.Journal.RcvdRuns
import Dquic.Journal.Sent
import Dquic.Packet.Sizes

/-!
# Making ACK frames

`gen_ack_frame_util` and `AckPackege` of `qrecovery/src/journal/rcvd.rs`.
-/

namespace Dquic

open Lib

namespace RcvdJournal

def rangeCountSizeIncrement (rangeCount : Nat) : Nat :=
  if rangeCount = 2 ^ 6 - 1 then 1
  else if rangeCount = 2 ^ 14 - 1 then 2
  else if rangeCount = 2 ^ 30 - 1 then 4
  else 0

/-- The loop over the ranges below `currentStart`, from high to low, after `count` of them. -/
def ackRangesUtil : List Span → (currentStart count capacity : Nat) → Option (Except Poll (List (VarInt × VarInt)))
  | [], _, _, _ => some (.ok [])
  | previous :: rest, currentStart, count, capacity => do
    let stop ← checkedAdd previous.stop 1
    match (checkedSub currentStart stop).bind VarInt.fromU64 with
    | none => some (.error .pending)
    | some gap =>
      let length ← checkedSub previous.stop previous.start
      let length ← checkedSub length 1
      match VarInt.fromU64 length with
      | none => some (.error .pending)
      | some ack =>
        let size := rangeCountSizeIncrement count + gap.encodingSize + ack.encodingSize
        if capacity < size then some (.ok [])
        else
          match ← ackRangesUtil rest previous.start (count + 1) (capacity - size) with
          | .ok ranges => some (.ok ((gap, ack) :: ranges))
          | .error e => some (.error e)

/-- Where the first range of the ACK starts, and the ranges below it. A trigger that was retired stands alone. -/
def ackStart (j : RcvdJournal) (largest : Nat) : Option (Nat × List Span) :=
  match j.packets.rangeContaining largest with
  | some index => j.packets.ranges[index]?.map fun range => (range.start, j.packets.ranges.take index)
  | none => if largest < j.packets.retiredBefore then some (largest, []) else none

def genAckFrameUtil (j : RcvdJournal) (largest rcvdTime now capacity : Nat) : Option (Except Poll AckFrame) :=
  match j.ackStart largest, VarInt.fromU64 largest, VarInt.fromU64 (min (now - rcvdTime) varintMax) with
  | some (rangeStart, previousRanges), some largest, some delay => do
    let firstRange ← checkedSub largest.val rangeStart
    match VarInt.fromU64 firstRange with
    | none => some (.error .pending)
    | some firstRange =>
      let minLen := 1 + largest.encodingSize + delay.encodingSize + 1 + firstRange.encodingSize
      if capacity < minLen then some (.error .ready)
      else
        match ← ackRangesUtil previousRanges.reverse rangeStart 0 (capacity - minLen) with
        | .ok ranges => some (.ok ⟨largest, delay, firstRange, ranges, none⟩)
        | .error e => some (.error e)
  | _, _, _ => some (.error .pending)

end RcvdJournal

/-- `AckPackege`: the packet that asks for an acknowledgement with the time it came, and the exponent of delays. -/
structure AckPackage where
  needAck : Option (Nat × Nat)
  exponent : Nat
  deriving DecidableEq, Repr

namespace AckPackage

/-- The delay goes out in units of `2^exponent`. A shift by the whole width panics. -/
def scaled (ack : AckFrame) (exponent : Nat) : Option AckFrame := do
  debugAssert (exponent < 64)
  let delay ← VarInt.fromU64 (ack.delay.val >>> exponent)
  some { ack with delay := delay }

def pollDump (a : AckPackage) (j : RcvdJournal) (now : Nat) (b : PacketBuffer) :
    Option (PollDump × AckPackage × PacketBuffer) :=
  let b := b.forFrame (.ack .none)
  match a.needAck with
  | none => some (.pending, a, b)
  | some (largest, time) => do
    match ← j.genAckFrameUtil largest time now b.remainingMut with
    | .error .ready => some (.ready (.ok 0), a, b)
    | .error .pending => some (.pending, a, b)
    | .ok ack =>
      let ack ← scaled ack a.exponent
      let (result, b) ← b.pollFrame (.ack ack)
      match result with
      | .ok 1 => some (.ready result, { a with needAck := none }, b)
      | _ => some (.ready result, a, b)

end AckPackage

/-! ### Ranges within the capacity -/

namespace RcvdJournal

lemma sizeOf_succ (count : Nat) :
    VarInt.sizeOf (count + 1) = VarInt.sizeOf count + rangeCountSizeIncrement count := by
  unfold VarInt.sizeOf rangeCountSizeIncrement
  split_ifs <;> omega

/-- The ranges that fit are the highest ones, and the sender gets them back from the gaps and lengths. -/
lemma ackRangesUtil_eq {previous : List Span} (h : Spans.Apart previous.reverse) {currentStart : Nat}
    (hbelow : ∀ s ∈ previous, s.stop < currentStart) (hmax : currentStart < 2 ^ 62) (count capacity : Nat) :
    ∃ n ranges, ackRangesUtil previous currentStart count capacity = some (.ok ranges) ∧
      SentJournal.ackRangesBelow currentStart ranges = some ((previous.take n).map fun s => (s.start, s.stop - 1)) ∧
      ranges.length ≤ previous.length ∧
      VarInt.sizeOf (count + ranges.length) + AckFrame.rangesSize ranges ≤ VarInt.sizeOf count + capacity := by
  induction previous generalizing currentStart count capacity with
  | nil => exact ⟨0, [], rfl, rfl, le_rfl, Nat.le_add_right _ _⟩
  | cons s rest ih =>
    obtain ⟨hne, hrest, hapart⟩ := Spans.apart_reverse_cons.mp h
    have hs := hbelow s List.mem_cons_self
    have hstop : checkedAdd s.stop 1 = some (s.stop + 1) := checkedAdd_of_lt (by omega)
    have hgap : (checkedSub currentStart (s.stop + 1)).bind VarInt.fromU64 =
        some ⟨currentStart - (s.stop + 1), by omega⟩ := by
      rw [checkedSub_of_le hs, Option.bind_some, VarInt.fromU64_of_lt (by omega)]
    have hlength : checkedSub s.stop s.start = some (s.stop - s.start) := checkedSub_of_le (le_of_lt hne)
    have hlast : checkedSub (s.stop - s.start) 1 = some (s.stop - s.start - 1) := checkedSub_of_le (by omega)
    have hack : VarInt.fromU64 (s.stop - s.start - 1) = some ⟨s.stop - s.start - 1, by omega⟩ :=
      VarInt.fromU64_of_lt (by omega)
    unfold ackRangesUtil
    simp only [hstop, hgap, hlength, hlast, hack, some_bind]
    split
    · exact ⟨0, [], rfl, rfl, Nat.zero_le _, Nat.le_add_right _ _⟩
    · rename_i hfit
      obtain ⟨n, ranges, hloop, hranges, hlen, hsize⟩ := ih hapart hrest (by omega) (count + 1)
        (capacity - (rangeCountSizeIncrement count + VarInt.encodingSize ⟨currentStart - (s.stop + 1), by omega⟩ +
          VarInt.encodingSize ⟨s.stop - s.start - 1, by omega⟩))
      rw [hloop, some_bind]
      refine ⟨n + 1, _, rfl, ?_, Nat.succ_le_succ hlen, ?_⟩
      · -- the end is two below the start that the gap was counted from
        have hend : checkedSub currentStart (currentStart - (s.stop + 1)) = some (s.stop + 1) := by
          rw [checkedSub_of_le (Nat.sub_le _ _), Nat.sub_sub_self hs]
        have htwo : checkedSub (s.stop + 1) 2 = some (s.stop - 1) := checkedSub_of_le (by omega)
        have hstart : checkedSub (s.stop - 1) (s.stop - s.start - 1) = some s.start := by
          rw [checkedSub_of_le (by omega)]
          congr 1
          omega
        rw [SentJournal.ackRangesBelow]
        simp only [hend, htwo, hstart, hranges, some_bind]
        rfl
      · rw [List.length_cons, AckFrame.rangesSize, List.map_cons, List.sum_cons, ← AckFrame.rangesSize]
        rw [sizeOf_succ, show count + 1 + ranges.length = count + (ranges.length + 1) by omega] at hsize
        dsimp only
        omega

variable {j : RcvdJournal} {largest start : Nat} {previous : List Span}

/-- The encoded frame takes this much, before the delay is scaled. -/
def ackSize (frame : AckFrame) : Nat :=
  1 + frame.largest.encodingSize + frame.delay.encodingSize + VarInt.sizeOf frame.ranges.length +
    frame.firstRange.encodingSize + AckFrame.rangesSize frame.ranges

/-- Nothing overflows, and a frame that is returned names the first range and the highest ones below it. -/
lemma genAckFrameUtil_eq (hstart : j.ackStart largest = some (start, previous)) (hle : start ≤ largest)
    (hmax : largest < 2 ^ 62) (h : Spans.Apart previous) (hbelow : ∀ s ∈ previous, s.stop < start)
    (rcvdTime now capacity : Nat) : ∃ result, j.genAckFrameUtil largest rcvdTime now capacity = some result ∧
    ∀ frame, result = .ok frame → frame.largest.val = largest ∧ frame.ecn = none ∧
      frame.ranges.length ≤ previous.length ∧ ackSize frame ≤ capacity ∧
      ∃ n, SentJournal.ackRanges frame =
        some ((start, largest) :: (previous.reverse.take n).map fun s => (s.start, s.stop - 1)) := by
  have hdelay : min (now - rcvdTime) varintMax < 2 ^ 62 := by
    unfold varintMax
    omega
  have hfirst : checkedSub largest start = some (largest - start) := checkedSub_of_le hle
  unfold genAckFrameUtil
  rw [hstart, VarInt.fromU64_of_lt hmax, VarInt.fromU64_of_lt hdelay]
  simp only [hfirst, VarInt.fromU64_of_lt (Nat.lt_of_le_of_lt (Nat.sub_le largest start) hmax), Option.bind_eq_bind,
    Option.bind_some]
  split
  · exact ⟨_, rfl, fun frame h => by cases h⟩
  · rename_i hcapacity
    obtain ⟨n, ranges, hloop, hranges, hlen, hsize⟩ := ackRangesUtil_eq (by rwa [List.reverse_reverse])
      (fun s hs => hbelow s (List.mem_reverse.mp hs)) (lt_of_le_of_lt hle hmax) 0 (capacity - _)
    rw [hloop, Option.bind_some]
    refine ⟨_, rfl, ?_⟩
    intro frame hframe
    cases hframe
    refine ⟨rfl, rfl, by simpa using hlen, ?_, n, ?_⟩
    · have hone : VarInt.sizeOf 0 = 1 := rfl
      rw [Nat.zero_add, hone] at hsize
      unfold ackSize
      dsimp only
      omega
    · have hback : checkedSub largest (largest - start) = some start := by
        rw [checkedSub_of_le (Nat.sub_le _ _), Nat.sub_sub_self hle]
      unfold SentJournal.ackRanges
      simp only [hback, hranges, some_bind]

end RcvdJournal

namespace AckPackage

lemma scaled_fits {frame ack : AckFrame} {exponent capacity : Nat} (h : scaled frame exponent = some ack)
    (hecn : frame.ecn = none) (hcount : frame.ranges.length < 2 ^ 62) (hsize : RcvdJournal.ackSize frame ≤ capacity) :
    ∃ bytes, putFrame capacity (.ack ack) = some bytes ∧ ack.frameType = .ack .none ∧
      SentJournal.ackRanges ack = SentJournal.ackRanges frame ∧ ack.largest = frame.largest := by
  obtain ⟨-, -, h⟩ := of_bind h
  obtain ⟨delay, hdelay, h⟩ := of_bind h
  cases h
  have hle : delay.encodingSize ≤ frame.delay.encodingSize := by
    apply VarInt.sizeOf_mono
    unfold VarInt.fromU64 at hdelay
    split at hdelay
    · cases hdelay
      exact Nat.shiftRight_le _ _
    · cases hdelay
  have hput : (Frame.ack { frame with delay := delay } : Frame Bytes).encodingSize =
      some (RcvdJournal.ackSize { frame with delay := delay }) := by
    rw [Frame.encodingSize, AckFrame.encodingSize, VarInt.fromU64_of_lt hcount, hecn]
    rfl
  have hfit : RcvdJournal.ackSize { frame with delay := delay } ≤ capacity := by
    unfold RcvdJournal.ackSize at hsize ⊢
    dsimp only
    omega
  have hwell : (Frame.ack { frame with delay := delay } : Frame Bytes).WellSized := hcount
  obtain ⟨bytes, hbytes, -⟩ := Frame.putFrame_of_size_le hwell hput hfit
  refine ⟨bytes, hbytes, ?_, rfl, rfl⟩
  unfold AckFrame.frameType
  rw [hecn]
  rfl

lemma pollDump_out {a a' : AckPackage} {j : RcvdJournal} {largest time now : Nat} {b b' : PacketBuffer}
    {frame ack : AckFrame} {bytes : Bytes} {result : PollDump} (hneed : a.needAck = some (largest, time))
    (hgen : j.genAckFrameUtil largest time now (b.forFrame (.ack .none)).remainingMut = some (.ok frame))
    (hscaled : scaled frame a.exponent = some ack) (htype : ack.frameType = .ack .none)
    (hput : putFrame (b.forFrame (.ack .none)).remainingMut (.ack ack) = some bytes)
    (h : a.pollDump j now b = some (result, a', b')) : b'.out = b.out ∨ b'.out = b.out ++ bytes := by
  have hout : ∀ r b₁, (b.forFrame (.ack .none)).pollFrame (.ack ack) = some (r, b₁) →
      b₁.out = b.out ∨ b₁.out = b.out ++ bytes := by
    intro r b₁ hpoll
    unfold PacketBuffer.pollFrame at hpoll
    split at hpoll
    · cases hpoll
      exact Or.inl (PacketBuffer.forFrame_out b _)
    · have hty : (Frame.ack ack : Frame Bytes).frameType = .ack .none := htype
      rw [hty, PacketBuffer.forFrame_forFrame] at hpoll
      obtain ⟨size, -, hpoll⟩ := of_bind hpoll
      split at hpoll
      · cases hpoll
        exact Or.inl (PacketBuffer.forFrame_out b _)
      · obtain ⟨b₂, hb₂, hpoll⟩ := of_bind hpoll
        cases hpoll
        rw [PacketBuffer.putFrame, hput, some_bind,
          PacketBuffer.putSlice_of_le (putFrame_eq_some hput).2] at hb₂
        cases hb₂
        exact Or.inr (congrArg (· ++ bytes) (PacketBuffer.forFrame_out b _))
  unfold pollDump at h
  rw [hneed] at h
  dsimp only at h
  rw [hgen, some_bind] at h
  dsimp only at h
  rw [hscaled, some_bind] at h
  obtain ⟨⟨r, b₁⟩, hpoll, h⟩ := of_bind h
  split at h
  · cases h
    exact hout _ _ hpoll
  · cases h
    exact hout _ _ hpoll

end AckPackage

/-! ### What an ACK says -/

namespace SentJournal

def Names (ranges : List (Nat × Nat)) (pn : Nat) : Prop := ∃ r ∈ ranges, r.1 ≤ pn ∧ pn ≤ r.2

lemma names_cons {r : Nat × Nat} {ranges : List (Nat × Nat)} {pn : Nat} :
    Names (r :: ranges) pn ↔ (r.1 ≤ pn ∧ pn ≤ r.2) ∨ Names ranges pn := by
  simp [Names]

lemma names_map {l : List Span} (h : ∀ s ∈ l, s.start < s.stop) {pn : Nat} :
    Names (l.map fun s => (s.start, s.stop - 1)) pn ↔ Spans.Covers l pn := by
  constructor
  · rintro ⟨r, hr, hstart, hstop⟩
    obtain ⟨s, hs, rfl⟩ := List.mem_map.mp hr
    have := h s hs
    dsimp only at hstop
    exact ⟨s, hs, hstart, by omega⟩
  · rintro ⟨s, hs, hstart, hstop⟩
    exact ⟨_, List.mem_map_of_mem hs, hstart, Nat.le_sub_one_of_lt hstop⟩

end SentJournal

namespace RcvdWorld

variable {w : RcvdWorld} {largest : Nat}

lemma Good.ackStart (h : w.Good) (hrec : largest ∈ w.recorded) :
    (largest < w.journal.packets.retiredBefore ∧ w.journal.ackStart largest = some (largest, [])) ∨
    ∃ index range, w.journal.packets.ranges[index]? = some range ∧ range.Mem largest ∧
      w.journal.ackStart largest = some (range.start, w.journal.packets.ranges.take index) := by
  unfold RcvdJournal.ackStart
  cases hfound : w.journal.packets.rangeContaining largest with
  | some index =>
    obtain ⟨range, hrange, hmem⟩ := ReceivedPacketRanges.rangeContaining_eq_some hfound
    refine Or.inr ⟨index, range, hrange, hmem, ?_⟩
    dsimp only
    rw [hrange, Option.map_some]
  | none =>
    have hnot : ¬ Spans.Covers w.journal.packets.ranges largest := by
      intro hc
      have hcontains := (ReceivedPacketRanges.contains_iff h.tracks.apart largest).mpr hc
      rw [ReceivedPacketRanges.contains_eq, hfound] at hcontains
      cases hcontains
    have hlt := (h.tracks.kept largest hrec).resolve_left hnot
    exact Or.inl ⟨hlt, if_pos hlt⟩

/-- The first range up to the trigger and some of the ranges below it are all that was recorded from a start on. -/
lemma Good.names_iff (h : w.Good) {index : Nat} {range : Span} (hrange : w.journal.packets.ranges[index]? = some range)
    (hmem : range.Mem largest) (n : Nat) : ∃ s ∈ w.journal.packets.ranges, ∀ pn,
      SentJournal.Names ((range.start, largest) ::
        ((w.journal.packets.ranges.take index).reverse.take n).map fun s => (s.start, s.stop - 1)) pn ↔
      pn ∈ w.recorded ∧ s.start ≤ pn ∧ pn ≤ largest := by
  have hdesc := h.tracks.apart.downFrom hrange
  obtain ⟨hne, hbelow, hlow⟩ := Spans.apart_reverse_cons.mp hdesc
  obtain ⟨s, hs, hfloor⟩ := Spans.exists_floor_take n hdesc
  have hsmem : s ∈ w.journal.packets.ranges := by
    rcases List.mem_cons.mp hs with rfl | hs
    · exact List.mem_of_getElem? hrange
    · exact List.mem_of_mem_take (List.mem_reverse.mp hs)
  refine ⟨s, hsmem, ?_⟩
  intro pn
  have hlargest := hmem.2
  have hnames : SentJournal.Names ((range.start, largest) ::
      ((w.journal.packets.ranges.take index).reverse.take n).map fun s => (s.start, s.stop - 1)) pn ↔
      Spans.Covers ((range :: (w.journal.packets.ranges.take index).reverse).take (n + 1)) pn ∧ pn ≤ largest := by
    rw [SentJournal.names_cons, SentJournal.names_map (fun t ht => hlow.nonempty t (List.mem_reverse.mpr
      (List.mem_of_mem_take ht))), List.take_succ_cons, Spans.covers_cons]
    constructor
    · rintro (⟨hstart, hstop⟩ | ⟨t, ht, hpn⟩)
      · exact ⟨Or.inl ⟨hstart, lt_of_le_of_lt hstop hlargest⟩, hstop⟩
      · have := hbelow t (List.mem_of_mem_take ht)
        have := hmem.1
        have := hpn.2
        exact ⟨Or.inr ⟨t, ht, hpn⟩, by omega⟩
    · rintro ⟨hpn | hc, hle⟩
      · exact Or.inl ⟨hpn.1, hle⟩
      · exact Or.inr hc
  rw [hnames, hfloor pn]
  constructor
  · rintro ⟨⟨hc, hstart⟩, hle⟩
    have hcovers := Spans.covers_downFrom h.tracks.apart hrange (lt_of_le_of_lt hle hlargest)
    exact ⟨h.tracks.recorded pn (hcovers.mp hc), hstart, hle⟩
  · rintro ⟨hrec, hstart, hle⟩
    have hcovers := Spans.covers_downFrom h.tracks.apart hrange (lt_of_le_of_lt hle hlargest)
    have hge := h.tracks.floor s hsmem
    have hc := (h.tracks.kept pn hrec).resolve_right (by omega)
    exact ⟨⟨hcovers.mpr hc, hstart⟩, hle⟩

lemma Good.ackStart_names (h : w.Good) (hrec : largest ∈ w.recorded) :
    ∃ start previous, w.journal.ackStart largest = some (start, previous) ∧ start ≤ largest ∧ Spans.Apart previous ∧
      (∀ s ∈ previous, s.stop < start) ∧ previous.length ≤ 256 ∧
      ∀ n ranges, ranges = (start, largest) :: (previous.reverse.take n).map (fun s => (s.start, s.stop - 1)) →
        (largest < w.journal.packets.retiredBefore ∧ ∀ pn, SentJournal.Names ranges pn ↔ pn = largest) ∨
        ∃ s ∈ w.journal.packets.ranges, ∀ pn, SentJournal.Names ranges pn ↔
          pn ∈ w.recorded ∧ s.start ≤ pn ∧ pn ≤ largest := by
  rcases h.ackStart hrec with ⟨hlt, hstart⟩ | ⟨index, range, hrange, hmem, hstart⟩
  · refine ⟨largest, [], hstart, le_rfl, Spans.apart_nil, by simp, Nat.zero_le _, ?_⟩
    intro n ranges hranges
    refine Or.inl ⟨hlt, ?_⟩
    intro pn
    rw [hranges, List.reverse_nil, List.take_nil, List.map_nil, SentJournal.names_cons]
    simp only [SentJournal.Names, List.not_mem_nil, false_and, exists_false, or_false]
    omega
  · obtain ⟨hne, hbelow, hlow⟩ := Spans.apart_reverse_cons.mp (h.tracks.apart.downFrom hrange)
    rw [List.reverse_reverse] at hlow
    refine ⟨range.start, _, hstart, hmem.1, hlow, fun s hs => hbelow s (List.mem_reverse.mpr hs), ?_, ?_⟩
    · exact le_trans (List.length_take_le' _ _) h.tracks.bounded
    · rintro n ranges rfl
      exact Or.inr (h.names_iff hrange hmem n)

end RcvdWorld

end Dquic
