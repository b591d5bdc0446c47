import Dquic.Frame.RoundTrip
import Dquic.Packet.Encrypt

/-!
# Frames that go on to the end of the packet

A STREAM or DATAGRAM frame without its length must be the last thing in the packet.
-/

namespace Dquic

open Lib

inductive Encodes : List (Frame Bytes) → Bytes → Prop
  | nil : Encodes [] []
  | cons {frame : Frame Bytes} {log : List (Frame Bytes)} {room : Nat} {bytes rest : Bytes} :
      putFrame room frame = some bytes → Encodes log rest → Encodes (frame :: log) (bytes ++ rest)

namespace Encodes

variable {frame : Frame Bytes} {log : List (Frame Bytes)} {payload : Bytes}

lemma single {room : Nat} {bytes : Bytes} (h : putFrame room frame = some bytes) : Encodes [frame] bytes := by
  have hone := cons h nil
  rwa [List.append_nil] at hone

lemma append {log' : List (Frame Bytes)} {payload' : Bytes} (h : Encodes log payload) (h' : Encodes log' payload') :
    Encodes (log ++ log') (payload ++ payload') := by
  induction h with
  | nil => exact h'
  | cons hput _ ih =>
    rw [List.append_assoc]
    exact cons hput ih

lemma padding (n : Nat) : Encodes (List.replicate n .padding) (List.replicate n 0) := by
  induction n with
  | zero => exact nil
  | succ n ih =>
    have hone : putFrame 1 (.padding : Frame Bytes) = some [0] := rfl
    exact cons hone ih

lemma last (h : Encodes (log ++ [frame]) payload) :
    ∃ front bytes room, payload = front ++ bytes ∧ putFrame room frame = some bytes := by
  induction log generalizing payload with
  | nil =>
    cases h with
    | cons hput hnil =>
      cases hnil
      exact ⟨[], _, _, List.append_nil _, hput⟩
  | cons first log ih =>
    cases h with
    | cons _ hrest =>
      obtain ⟨front, bytes, room, rfl, hput⟩ := ih hrest
      exact ⟨_ ++ front, bytes, room, (List.append_assoc _ _ _).symm, hput⟩

end Encodes

namespace PacketBuffer

/-- A step that fills the window with the frame that goes on to the end, if it writes one. -/
def Fill (Q : Frame Bytes → Prop) (b : PacketBuffer) (log : List (Frame Bytes)) (b' : PacketBuffer) : Prop :=
  b.Step log b' ∧ ∀ frame ∈ log, frame.OmitsLength → Q frame ∧ b'.nwrote = b'.stop

/-- No frame goes on to the end, or the last one does and the packet is full. -/
def Ends (Q : Frame Bytes → Prop) (k : Bounds) (b : PacketBuffer) (log : List (Frame Bytes)) : Prop :=
  (∀ frame ∈ log, ¬ frame.OmitsLength) ∨
  ∃ front frame, log = front ++ [frame] ∧ (∀ f ∈ front, ¬ f.OmitsLength) ∧ frame.OmitsLength ∧ Q frame ∧ b.finished = true ∧
    b.nwrote + 16 = min k.total k.credit ∧ b.minSize ≤ b.nwrote + 16

/-- The frames that were logged are the bytes behind the header, and only the last one may go on to the end. -/
structure Tail (Q : Frame Bytes → Prop) (k : Bounds) (ty : PacketType) (head : Bytes) (b : PacketBuffer)
    (log : List (Frame Bytes)) : Prop where
  sound : b.Sound k
  pktype : b.info.pktype = ty
  encoded : ∃ payload, b.out = head ++ payload ∧ Encodes log payload
  written : b.out.length = b.nwrote
  belongs : ∀ frame ∈ log, frame.frameType.belongsTo ty = true
  ends : Ends Q k b log

lemma wrote_nwrote (b : PacketBuffer) (frame : Frame Bytes) (bytes : Bytes) :
    (b.wrote frame bytes).nwrote = b.nwrote + bytes.length := by
  unfold wrote
  rw [forFrame_eq]
  rfl

lemma wrote_out (b : PacketBuffer) (frame : Frame Bytes) (bytes : Bytes) : (b.wrote frame bytes).out = b.out ++ bytes := by
  unfold wrote
  rw [forFrame_eq]
  rfl

lemma wrote_minSize (b : PacketBuffer) (frame : Frame Bytes) (bytes : Bytes) :
    (b.wrote frame bytes).minSize = b.minSizeFor frame.frameType := by
  unfold wrote
  rw [forFrame_eq]
  rfl

lemma wrote_finished (b : PacketBuffer) (frame : Frame Bytes) (bytes : Bytes) :
    (b.wrote frame bytes).finished = (b.finished || frame.frameType.finishes) := by
  unfold wrote
  rw [forFrame_eq]
  rfl

lemma wrote_pktype (b : PacketBuffer) (frame : Frame Bytes) (bytes : Bytes) :
    (b.wrote frame bytes).info.pktype = b.info.pktype := by
  unfold wrote
  rw [forFrame_eq]
  rfl

lemma wrote_stop (b : PacketBuffer) (frame : Frame Bytes) (bytes : Bytes) :
    (b.wrote frame bytes).stop = (b.forFrame frame.frameType).stop := rfl

/-! ### Nothing follows -/

variable {b : PacketBuffer} {fty : FrameType}

lemma not_shut_of_remainingMut_pos (h : 0 < (b.forFrame fty).remainingMut) : ¬ b.Shut fty := by
  intro hshut
  rw [forFrame_eq, forFrame_stop_of_shut hshut] at h
  unfold remainingMut at h
  dsimp only at h
  omega

lemma open_of_remainingMut_pos (h : 0 < (b.forFrame fty).remainingMut) :
    fty.belongsTo b.info.pktype = true ∧ b.finished = false ∧ b.minSizeFor fty ≤ b.limit fty := by
  have hopen := not_shut_of_remainingMut_pos h
  unfold Shut at hopen
  push Not at hopen
  exact ⟨hopen.1, Bool.eq_false_iff.mpr hopen.2.1, hopen.2.2⟩

lemma Ends.none_of_open {Q : Frame Bytes → Prop} {k : Bounds} {log : List (Frame Bytes)} (h : Ends Q k b log)
    (hopen : b.finished = false) : ∀ frame ∈ log, ¬ frame.OmitsLength := by
  rcases h with hnone | ⟨front, frame, -, -, -, -, hfin, -⟩
  · exact hnone
  · rw [hopen] at hfin
    cases hfin

end PacketBuffer

/-- These frames are neither acknowledgements nor closes, and nothing may follow them. -/
lemma Frame.OmitsLength.finishes {frame : Frame Bytes} (h : frame.OmitsLength) :
    frame.frameType.finishes = true ∧ frame.frameType.specs.congestionControlFree = false ∧
      frame.frameType.isPathValidation = false := by
  cases frame with
  | stream f data =>
    have hlen : f.lenBit = .omitted := h
    have hty : (stream f data).frameType = .stream (decide (f.offset.val ≠ 0)) f.lenBit f.finBit := rfl
    rw [hty, hlen]
    exact ⟨rfl, rfl, rfl⟩
  | datagram f data =>
    have hlen : f.encodeLen = false := h
    have hty : (datagram f data).frameType = .datagram 0 := by
      change FrameType.datagram (if f.encodeLen = true then 1 else 0) = _
      rw [hlen]
      rfl
    rw [hty]
    exact ⟨rfl, rfl, rfl⟩
  | _ => exact h.elim

namespace PacketBuffer

variable {Q : Frame Bytes → Prop} {k : Bounds} {ty : PacketType} {head : Bytes} {b b' : PacketBuffer} {log more : List (Frame Bytes)}

variable {bytes : Bytes} {frame : Frame Bytes} {fty : FrameType} {n : Nat} {padding : List (Frame Bytes)}

/-- The written frame, if it goes on to the end, has filled the packet up to the datagram or the credit. -/
lemma ends_write (hb : b.Sound k) (hnone : ∀ f ∈ log, ¬ f.OmitsLength) (hopen : ¬ b.Shut frame.frameType)
    (hfill : frame.OmitsLength → Q frame ∧ (b.wrote frame bytes).nwrote = (b.wrote frame bytes).stop) :
    Ends Q k (b.wrote frame bytes) (log ++ [frame]) := by
  by_cases homits : frame.OmitsLength
  · obtain ⟨hQ, hfull⟩ := hfill homits
    obtain ⟨hfin, hfree, hpath⟩ := homits.finishes
    have hlimit : b.limit frame.frameType = min k.total k.credit := by
      unfold limit
      rw [if_pos (Or.inr (by rw [hfree]; exact Bool.false_ne_true)), hb.total, hb.credit]
    have hmin : b.minSizeFor frame.frameType = b.minSize := by
      unfold minSizeFor
      rw [hpath]
      rfl
    have hle : b.minSizeFor frame.frameType ≤ b.limit frame.frameType := not_lt.mp fun hlt => hopen (Or.inr (Or.inr hlt))
    have hbase := hb.base
    rw [wrote_stop, forFrame_stop_of_not_shut hopen, hb.tag] at hfull
    refine Or.inr ⟨log, frame, rfl, hnone, homits, hQ, ?_, ?_, ?_⟩
    · rw [wrote_finished, hfin, Bool.or_true]
    · omega
    · rw [wrote_minSize]
      omega
  · left
    intro f hf
    cases List.mem_append.mp hf with
    | inl hf => exact hnone f hf
    | inr hf =>
      rw [List.mem_singleton.mp hf]
      exact homits

lemma Ends.of_eq (h : Ends Q k b log) (hfin : b.finished = true → b'.finished = true) (hn : b'.nwrote = b.nwrote)
    (hmin : b'.minSize = b.minSize) : Ends Q k b' log := by
  rcases h with hnone | ⟨front, frame, hlog, hfront, homits, hQ, hfinished, hfull, hleast⟩
  · exact Or.inl hnone
  · exact Or.inr ⟨front, frame, hlog, hfront, homits, hQ, hfin hfinished, hn ▸ hfull, hn ▸ hmin ▸ hleast⟩

lemma Tail.quiet (h : Tail Q k ty head b log) (hsound : b'.Sound k) (hout : b'.out = b.out) (hn : b'.nwrote = b.nwrote)
    (hpk : b'.info.pktype = b.info.pktype) (hmin : b'.minSize = b.minSize)
    (hfin : b.finished = true → b'.finished = true) : Tail Q k ty head b' (log ++ []) := by
  rw [List.append_nil]
  refine ⟨hsound, hpk.trans h.pktype, ?_, ?_, h.belongs, h.ends.of_eq hfin hn hmin⟩
  · rw [hout]
    exact h.encoded
  · rw [hout, hn]
    exact h.written

lemma Tail.loud (h : Tail Q k ty head b log) (hsound : (b.wrote frame bytes).Sound k) (hmore : Encodes more bytes)
    (hbelongs : ∀ f ∈ more, f.frameType.belongsTo b.info.pktype = true)
    (hends : Ends Q k (b.wrote frame bytes) (log ++ more)) : Tail Q k ty head (b.wrote frame bytes) (log ++ more) := by
  refine ⟨hsound, (wrote_pktype b frame bytes).trans h.pktype, ?_, ?_, ?_, hends⟩
  · obtain ⟨payload, hout, henc⟩ := h.encoded
    refine ⟨payload ++ bytes, ?_, henc.append hmore⟩
    rw [wrote_out, hout, List.append_assoc]
  · rw [wrote_out, wrote_nwrote, List.length_append, h.written]
  · intro f hf
    cases List.mem_append.mp hf with
    | inl hf => exact h.belongs f hf
    | inr hf => exact h.pktype ▸ hbelongs f hf

lemma Tail.step (h : Tail Q k ty head b log) (hfill : Fill Q b more b') : Tail Q k ty head b' (log ++ more) := by
  obtain ⟨hstep, hlast⟩ := hfill
  have hsound := h.sound.step hstep
  cases hstep with
  | idle => exact h.quiet hsound rfl rfl rfl rfl id
  | cut fty =>
    rw [forFrame_eq] at hsound ⊢
    exact h.quiet hsound rfl rfl rfl rfl id
  | finish => exact h.quiet hsound rfl rfl rfl rfl fun _ => rfl
  | @write frame bytes _ hexact hput hfit =>
    obtain ⟨size, hsize, hlen, -⟩ := hexact
    have hpos := Frame.encodingSize_pos hsize
    have hwindow : 0 < (b.forFrame frame.frameType).remainingMut := by omega
    obtain ⟨hbelongs, hfinished, -⟩ := open_of_remainingMut_pos hwindow
    apply h.loud hsound (.single hput)
    · intro f hf
      rw [List.mem_singleton.mp hf]
      exact hbelongs
    · exact ends_write h.sound (h.ends.none_of_open hfinished) (not_shut_of_remainingMut_pos hwindow)
        (hlast frame List.mem_cons_self)
  | @pad n hpos hfit =>
    have hwindow : 0 < (b.forFrame .padding).remainingMut := by omega
    obtain ⟨hbelongs, hfinished, -⟩ := open_of_remainingMut_pos hwindow
    apply h.loud hsound (.padding n)
    · intro f hf
      rw [List.eq_of_mem_replicate hf]
      exact hbelongs
    · left
      intro f hf
      cases List.mem_append.mp hf with
      | inl hf => exact h.ends.none_of_open hfinished f hf
      | inr hf =>
        rw [List.eq_of_mem_replicate hf]
        exact id

lemma Tail.logged (h : Tail Q k ty head b []) (hlog : Logged (Fill Q) b log b') : Tail Q k ty head b' log := by
  apply hlog.invariant (I := Tail Q k ty head) (l := []) _ h
  intro b l more b' hb hfill
  exact hb.step hfill

lemma putSlice_eq_some (h : b.putSlice bytes = some b') :
    b' = { b with room := b.room - bytes.length, out := b.out ++ bytes, nwrote := b.nwrote + bytes.length } := by
  obtain ⟨-, -, h⟩ := of_bind h
  exact (Option.some.inj h).symm

/-! ### Acts that fill the window -/

def capacity (b : PacketBuffer) : Nat := min (b.nwrote + b.room) b.credit - b.tagLen - b.nwrote

/-- A type that counts against congestion and does not validate a path. -/
def Plain (fty : FrameType) : Prop := fty.specs.congestionControlFree = false ∧ fty.isPathValidation = false

/-- The packet takes frames that count against congestion. -/
def Takes (b : PacketBuffer) (fty : FrameType) : Prop :=
  fty.belongsTo b.info.pktype = true ∧ b.finished = false ∧ b.minSize ≤ min (b.nwrote + b.room) b.credit

lemma Plain.limit_eq (h : Plain fty) (b : PacketBuffer) : b.limit fty = min (b.nwrote + b.room) b.credit := by
  unfold limit
  rw [if_pos (Or.inr (by rw [h.1]; exact Bool.false_ne_true))]

lemma Plain.minSizeFor_eq (h : Plain fty) (b : PacketBuffer) : b.minSizeFor fty = b.minSize := by
  unfold minSizeFor
  rw [h.2]
  rfl

lemma Plain.takes_iff (h : Plain fty) (b : PacketBuffer) : b.Takes fty ↔ ¬ b.Shut fty := by
  unfold Takes Shut
  rw [h.limit_eq, h.minSizeFor_eq]
  push Not
  rw [Bool.eq_false_iff]

lemma Plain.remainingMut_eq (h : Plain fty) {b : PacketBuffer} (ht : b.Takes fty) :
    (b.forFrame fty).remainingMut = b.capacity := by
  have hstop := forFrame_stop_of_not_shut ((h.takes_iff b).mp ht)
  rw [forFrame_eq, hstop, h.limit_eq]
  unfold remainingMut capacity
  dsimp only
  omega

lemma Plain.takes_of_pos (h : Plain fty) {b : PacketBuffer} (hpos : 0 < (b.forFrame fty).remainingMut) :
    b.Takes fty := (h.takes_iff b).mpr (not_shut_of_remainingMut_pos hpos)

lemma capacity_forFrame (b : PacketBuffer) (fty : FrameType) : (b.forFrame fty).capacity = b.capacity := by
  rw [forFrame_eq]
  rfl

lemma takes_forFrame (b : PacketBuffer) (fty fty' : FrameType) : (b.forFrame fty).Takes fty' ↔ b.Takes fty' := by
  rw [forFrame_eq]
  rfl

lemma fillSample_eq_some (h : b.fillSample = some (padding, b')) :
    ∃ n, n = b.pnOffset + 20 - (b.nwrote + b.tagLen) ∧ padding = List.replicate n .padding ∧
      b'.out = b.out ++ List.replicate n 0 ∧ b'.nwrote = b.nwrote + n ∧ b'.minSize = b.minSize := by
  refine ⟨_, rfl, ?_⟩
  obtain ⟨-, -, h⟩ := of_bind h
  split_ifs at h with hpos
  · obtain ⟨b₁, hput, h⟩ := of_bind h
    cases putSlice_eq_some hput
    cases h
    exact ⟨rfl, rfl, by rw [List.length_replicate], rfl⟩
  · have hzero : b.pnOffset + 20 - (b.nwrote + b.tagLen) = 0 := Nat.eq_zero_of_not_pos hpos
    cases h
    rw [hzero]
    exact ⟨rfl, (List.append_nil _).symm, rfl, rfl⟩

lemma Tail.fillSample (h : Tail Q k ty head b log) (hfill : b.fillSample = some (padding, b')) :
    b'.out.length = b'.nwrote ∧ (∃ payload, b'.out = head ++ payload ∧ Encodes (log ++ padding) payload) ∧
      ((∀ f ∈ log ++ padding, ¬ f.OmitsLength) ∨
        ∃ front frame, log ++ padding = front ++ [frame] ∧ (∀ f ∈ front, ¬ f.OmitsLength) ∧ frame.OmitsLength ∧ Q frame ∧
          frame.frameType.belongsTo ty = true ∧ b'.nwrote + 16 = min k.total k.credit ∧
          b'.minSize ≤ b'.nwrote + 16) := by
  obtain ⟨n, hn, rfl, hout, hnwrote, hmin⟩ := fillSample_eq_some hfill
  obtain ⟨payload, hpayload, henc⟩ := h.encoded
  refine ⟨?_, ⟨payload ++ List.replicate n 0, ?_, henc.append (.padding n)⟩, ?_⟩
  · rw [hout, hnwrote, List.length_append, List.length_replicate, h.written]
  · rw [hout, hpayload, List.append_assoc]
  · rcases h.ends with hnone | ⟨front, frame, hlog, hfront, homits, hQ, -, hfull, hleast⟩
    · left
      intro f hf
      cases List.mem_append.mp hf with
      | inl hf => exact hnone f hf
      | inr hf =>
        rw [List.eq_of_mem_replicate hf]
        exact id
    · -- a full packet is long enough
      have hbase := h.sound.base
      have htag := h.sound.tag
      have hpn := h.sound.pnOffset
      obtain rfl : n = 0 := by omega
      rw [List.replicate_zero, List.append_nil, hnwrote, hmin]
      have hmem : frame ∈ log := by
        rw [hlog]
        exact List.mem_append_right _ List.mem_cons_self
      exact Or.inr ⟨front, frame, hlog, hfront, homits, hQ, h.belongs frame hmem, hfull, hleast⟩

end PacketBuffer

namespace Encrypt

open PacketBuffer

lemma Packet.len_eq_of_pos {p : Packet} (h : 0 < p.len) : p.len = p.cursor + p.tagLen := by
  unfold Packet.len at h ⊢
  split_ifs at h ⊢
  · exact absurd h (lt_irrefl 0)
  · rfl

variable {a : Assembled} {content : PacketContent} {credit datagramLen offset : Nat} {frames : List (Frame Unit)}
  {header : DataHeader} {pn : Nat × PacketNumber} {sources : List Source}

lemma Packet.offset_le_of_assemble
    (h : (Packet.new header pn 16).assemble datagramLen offset credit content frames sources = some a) :
    offset ≤ datagramLen := by
  by_contra hlt
  have hroom : checkedSub datagramLen (offset + 0) = none := if_neg hlt
  unfold Packet.assemble Packet.window at h
  rw [if_neg (by exact Bool.false_ne_true)] at h
  change ((checkedSub datagramLen (offset + 0)).bind _).bind _ = _ at h
  rw [hroom] at h
  cases h

end Encrypt

end Dquic
