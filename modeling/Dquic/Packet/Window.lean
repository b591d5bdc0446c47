import Dquic.Lib.System
import Dquic.Packet.Assemble

/-!
# Packets inside their window

What a packet owes while its sources write: it must reach the sample of header protection and its
least size, inside the datagram and, once it counts against congestion, inside the credit.
-/

namespace Dquic

open Lib

/-! ### The least a frame takes -/

namespace Frame

variable {frame : Frame Bytes} {size : Nat}

lemma encodingSize_pos (hsize : frame.encodingSize = some size) : 0 < size := by
  cases frame with
  | ack f =>
    unfold encodingSize AckFrame.encodingSize at hsize
    obtain ⟨count, -, hsome⟩ := of_bind hsize
    cases hsome
    omega
  | close f =>
    cases f with
    | app | quic =>
      obtain ⟨len, -, hsome⟩ := of_bind hsize
      cases hsome
      omega
  | streamCtl f =>
    cases hsize
    unfold StreamCtlFrame.encodingSize
    cases f with
    | maxStreams f | streamsBlocked f =>
      cases f with
      | bi | uni => exact Nat.add_pos_left Nat.one_pos _
    | _ =>
      dsimp only
      omega
  | stream f data =>
    have hid := f.id.raw.encodingSize_pos
    change f.encodingSize = some size at hsize
    unfold StreamFrame.encodingSize at hsize
    dsimp only at hsize
    by_cases hlen : f.lenBit = .explicit
    · rw [if_pos hlen] at hsize
      obtain ⟨len, -, hsome⟩ := of_bind hsize
      cases hsome
      omega
    · rw [if_neg hlen] at hsize
      cases hsize
      omega
  | datagram f data =>
    cases hsize
    exact Nat.add_pos_left Nat.one_pos _
  | punchMeNow f | punchHello f | punchDone f =>
    cases hsize
    have := f.localSeq.encodingSize_pos
    omega
  | addAddress f | removeAddress f =>
    cases hsize
    have := f.seqNum.encodingSize_pos
    omega
  | _ =>
    cases hsize
    omega

lemma three_le_encodingSize (hfree : frame.frameType.specs.congestionControlFree = true)
    (hsize : frame.encodingSize = some size) : 3 ≤ size := by
  cases frame with
  | ack f =>
    obtain ⟨count, -, hsome⟩ := of_bind hsize
    have := f.largest.encodingSize_pos
    have := f.delay.encodingSize_pos
    cases hsome
    omega
  | close f =>
    cases f with
    | app f =>
      obtain ⟨len, -, hsome⟩ := of_bind hsize
      have := f.errorCode.encodingSize_pos
      have := len.encodingSize_pos
      cases hsome
      omega
    | quic f =>
      obtain ⟨len, -, hsome⟩ := of_bind hsize
      have := len.encodingSize_pos
      cases hsome
      omega
  | streamCtl f =>
    cases f with
    | maxStreams f | streamsBlocked f => cases f <;> cases hfree
    | _ => cases hfree
  | datagram f data => cases hfree
  | _ => cases hfree

end Frame

namespace PacketBuffer

/-- Frames were written, and the packet is too short to be sampled. -/
def Short (b : PacketBuffer) : Prop := 0 < b.info.nframes ∧ b.nwrote + b.tagLen < b.pnOffset + 20

instance (b : PacketBuffer) : Decidable b.Short := inferInstanceAs (Decidable (_ ∧ _))

def Shut (b : PacketBuffer) (fty : FrameType) : Prop :=
  ¬ fty.belongsTo b.info.pktype ∨ b.finished ∨ b.limit fty < b.minSizeFor fty

/-- What is fixed for a packet: the bytes from its start to the end of the datagram, its credit, and where its packet
number is. -/
structure Bounds where
  total : Nat
  credit : Nat
  pnOffset : Nat

structure Sound (b : PacketBuffer) (k : Bounds) : Prop where
  total : b.nwrote + b.room = k.total
  credit : b.credit = k.credit
  pnOffset : b.pnOffset = k.pnOffset
  tag : b.tagLen = 16
  base : k.pnOffset + 20 ≤ b.minSize
  least : b.minSize ≤ k.total
  start : k.pnOffset + 1 ≤ b.nwrote
  framed : 0 < b.info.nframes → b.nwrote + 16 ≤ k.total
  flight : b.info.inFlight = true → b.nwrote + 16 ≤ k.credit ∧ b.minSize ≤ k.credit
  short : b.Short → b.info.inFlight = true
  window : b.stop ≤ b.nwrote ∨ k.pnOffset + 20 ≤ b.stop + 16

/-- Bytes that were put through the window of a frame, with its record. -/
def wrote (b : PacketBuffer) (frame : Frame Bytes) (bytes : Bytes) : PacketBuffer :=
  let b := b.forFrame frame.frameType
  record { b with room := b.room - bytes.length, out := b.out ++ bytes, nwrote := b.nwrote + bytes.length } frame

/-- What a source can do to the buffer in one act, with the frames that come out of it. -/
inductive Step (b : PacketBuffer) : List (Frame Bytes) → PacketBuffer → Prop
  | idle : Step b [] b
  | cut (fty : FrameType) : Step b [] (b.forFrame fty)
  | write {frame : Frame Bytes} {bytes : Bytes} : frame.WellSized → frame.Exact bytes →
      Dquic.putFrame (b.forFrame frame.frameType).remainingMut frame = some bytes →
      bytes.length ≤ (b.forFrame frame.frameType).remainingMut → Step b [frame] (b.wrote frame bytes)
  | pad {n : Nat} : 0 < n → n ≤ (b.forFrame .padding).remainingMut →
      Step b (List.replicate n .padding) (b.wrote .padding (List.replicate n 0))
  | finish : Step b [] b.finish

/-! ### Cutting the window -/

lemma forFrame_eq (b : PacketBuffer) (fty : FrameType) : b.forFrame fty = { b with stop := (b.forFrame fty).stop } := by
  unfold forFrame
  split
  · rfl
  · rfl

variable {b b' b₁ : PacketBuffer} {fty : FrameType} {k : Bounds} {frame : Frame Bytes} {a : Act}
  {log : List (Frame Bytes)} {acts : List Act} {R : PacketBuffer → List (Frame Bytes) → PacketBuffer → Prop}
  {sources : List Source}

lemma forFrame_stop_of_shut (h : b.Shut fty) : (b.forFrame fty).stop = b.nwrote := by
  unfold forFrame
  split
  · rfl
  · rename_i hopen
    push Not at hopen
    rcases h with hno | hfin | hlt
    · exact absurd hopen.1 hno
    · exact absurd hfin hopen.2
    · exact if_pos hlt

lemma forFrame_stop_of_not_shut (h : ¬ b.Shut fty) : (b.forFrame fty).stop = b.limit fty - b.tagLen := by
  unfold Shut at h
  push Not at h
  unfold forFrame
  rw [if_neg (by push Not; exact ⟨h.1, h.2.1⟩)]
  exact if_neg (not_lt.mpr h.2.2)

lemma minSize_le_minSizeFor (b : PacketBuffer) (fty : FrameType) : b.minSize ≤ b.minSizeFor fty := by
  unfold minSizeFor
  split
  · exact le_max_left _ _
  · exact le_rfl

lemma limit_le (b : PacketBuffer) (fty : FrameType) : b.limit fty ≤ b.nwrote + b.room := by
  unfold limit
  split
  · exact min_le_left _ _
  · exact le_rfl

lemma limit_le_credit (h : b.info.inFlight = true ∨ fty.specs.congestionControlFree = false) :
    b.limit fty ≤ b.credit := by
  unfold limit
  rw [if_pos (h.imp_right fun hfree => by simp [hfree])]
  exact min_le_right _ _

lemma Sound.window_of_not_shut (h : b.Sound k) (hopen : ¬ b.Shut fty) :
    k.pnOffset + 20 ≤ (b.forFrame fty).stop + 16 := by
  rw [forFrame_stop_of_not_shut hopen, h.tag]
  have hle : b.minSizeFor fty ≤ b.limit fty := not_lt.mp fun hlt => hopen (Or.inr (Or.inr hlt))
  have := b.minSize_le_minSizeFor fty
  have := h.base
  omega

lemma Sound.forFrame (h : b.Sound k) (fty : FrameType) : (b.forFrame fty).Sound k := by
  have hwindow : (b.forFrame fty).stop ≤ b.nwrote ∨ k.pnOffset + 20 ≤ (b.forFrame fty).stop + 16 := by
    by_cases hshut : b.Shut fty
    · exact Or.inl (forFrame_stop_of_shut hshut).le
    · exact Or.inr (h.window_of_not_shut hshut)
  rw [forFrame_eq]
  exact { h with window := hwindow, short := h.short }

/-- Bytes that fit the window and are recorded as a frame of its type. Frames outside of congestion control have at
least three bytes, so that a packet of them is long enough. -/
lemma Sound.put (h : b.Sound k) {bytes : Bytes} (hpos : 0 < bytes.length)
    (hfree : frame.frameType.specs.congestionControlFree = true → 3 ≤ bytes.length)
    (hfit : bytes.length ≤ (b.forFrame frame.frameType).remainingMut) : (b.wrote frame bytes).Sound k := by
  unfold wrote
  generalize hty : frame.frameType = fty at *
  -- something fits, so that the window is open
  have hopen : ¬ b.Shut fty := by
    intro hshut
    rw [forFrame_eq, forFrame_stop_of_shut hshut] at hfit
    unfold remainingMut at hfit
    dsimp only at hfit
    omega
  have hwindow := h.window_of_not_shut hopen
  have hstop := forFrame_stop_of_not_shut hopen
  have hleast : b.minSizeFor fty ≤ b.limit fty := not_lt.mp fun hlt => hopen (Or.inr (Or.inr hlt))
  have hlimit := b.limit_le fty
  rw [forFrame_eq] at hfit ⊢
  generalize (b.forFrame fty).stop = stop at *
  unfold remainingMut at hfit
  dsimp only at hfit
  have htag := h.tag
  have htotal := h.total
  have hminSize := b.minSize_le_minSizeFor fty
  have hbase := h.base
  have hstart := h.start
  have hwrote : b.nwrote + bytes.length + 16 ≤ b.limit fty := by omega
  have hflight : b.info.inFlight = true ∨ fty.specs.congestionControlFree = false → b.limit fty ≤ k.credit := by
    intro hf
    exact h.credit ▸ limit_le_credit hf
  have hnframes : (b.info.record frame).nframes = b.info.nframes + 1 := rfl
  have hinFlight : (b.info.record frame).inFlight = (b.info.inFlight || !fty.specs.congestionControlFree) := by
    rw [← hty]
    rfl
  have hfor : minSizeFor { b with
      stop := stop, room := b.room - bytes.length, out := b.out ++ bytes, nwrote := b.nwrote + bytes.length }
      frame.frameType = b.minSizeFor fty := by
    rw [hty]
    rfl
  refine ⟨?_, h.credit, h.pnOffset, h.tag, ?_, ?_, ?_, ?_, ?_, ?_, ?_⟩
  · change b.nwrote + bytes.length + (b.room - bytes.length) = k.total
    omega
  · change k.pnOffset + 20 ≤ minSizeFor _ frame.frameType
    rw [hfor]
    omega
  · change minSizeFor _ frame.frameType ≤ k.total
    rw [hfor]
    omega
  · change k.pnOffset + 1 ≤ b.nwrote + bytes.length
    omega
  · intro _
    change b.nwrote + bytes.length + 16 ≤ k.total
    omega
  · intro hf
    change (b.info.record frame).inFlight = true at hf
    rw [hinFlight] at hf
    have hle := hflight (by simpa using hf)
    change b.nwrote + bytes.length + 16 ≤ k.credit ∧ minSizeFor _ frame.frameType ≤ k.credit
    rw [hfor]
    omega
  · rintro ⟨-, hlt⟩
    change b.nwrote + bytes.length + b.tagLen < b.pnOffset + 20 at hlt
    change (b.info.record frame).inFlight = true
    have hpn := h.pnOffset
    cases hcc : fty.specs.congestionControlFree with
    | true =>
      have := hfree hcc
      omega
    | false =>
      rw [hinFlight, hcc, Bool.not_false, Bool.or_true]
  · exact Or.inr hwindow

/-! ### What the sources do -/

lemma step_of_pollFrame (h : frame.WellSized) :
    ∃ log b', b.act (.write frame) = some (log, b') ∧ b.Step log b' ∧ ∀ f ∈ log, f = frame := by
  obtain ⟨size, hsize⟩ := Frame.exists_encodingSize h
  by_cases hbelongs : frame.frameType.belongsTo b.info.pktype
  · by_cases hfit : (b.forFrame frame.frameType).canFit (size + frame.payload.length)
    · obtain ⟨bytes, hput, hlen⟩ := Frame.putFrame_of_size_le h hsize hfit.1
      refine ⟨[frame], b.wrote frame bytes, ?_, .write h (Frame.exact_of_putFrame h hput) hput (hlen ▸ hfit.1),
        fun f hf => List.mem_singleton.mp hf⟩
      simp only [act, pollFrame, hbelongs, not_true_eq_false, if_false, hsize, some_bind, hfit,
        putFrame, hput, putSlice_of_le (hlen ▸ hfit.1)]
      rfl
    · refine ⟨[], b.forFrame frame.frameType, ?_, .cut _, fun f hf => absurd hf List.not_mem_nil⟩
      simp only [act, pollFrame, hbelongs, not_true_eq_false, if_false, hsize, some_bind, hfit,
        not_false_eq_true, if_true]
  · refine ⟨[], b, ?_, .idle, fun f hf => absurd hf List.not_mem_nil⟩
    simp only [act, pollFrame, hbelongs, if_true, some_bind, Bool.false_eq_true, not_false_eq_true]

lemma act_pad_of_fits {n : Nat} (hpos : 0 < n) (hfit : (b.forFrame .padding).canFit n) :
    b.act (.pad n) = some (List.replicate n .padding, b.wrote .padding (List.replicate n 0)) := by
  have hlen : (List.replicate n 0 : Bytes).length ≤ (b.forFrame .padding).remainingMut := by
    rw [List.length_replicate]
    exact hfit.1
  simp only [act, hpos.ne', hfit, not_true_eq_false, or_self, if_false, putPadding, putSlice_of_le hlen, Option.bind_eq_bind,
    Option.bind_some]
  rfl

lemma exists_step (hsized : a.WellSized) :
    ∃ log b', b.act a = some (log, b') ∧ b.Step log b' ∧ ∀ f ∈ log, f = .padding ∨ a = .write f := by
  cases a with
  | cut fty => exact ⟨_, _, rfl, .cut fty, fun f hf => absurd hf List.not_mem_nil⟩
  | write frame =>
    obtain ⟨log, b', hact, hstep, hlog⟩ := step_of_pollFrame (b := b) hsized
    exact ⟨log, b', hact, hstep, fun f hf => Or.inr (by rw [hlog f hf])⟩
  | pad n =>
    by_cases hno : n = 0 ∨ ¬ (b.forFrame .padding).canFit n
    · exact ⟨_, _, if_pos hno, .cut _, fun f hf => absurd hf List.not_mem_nil⟩
    · push Not at hno
      have hpos := Nat.pos_of_ne_zero hno.1
      exact ⟨_, _, act_pad_of_fits hpos hno.2, .pad hpos hno.2.1, fun f hf => Or.inl (List.eq_of_mem_replicate hf)⟩
  | finish => exact ⟨_, _, rfl, .finish, fun f hf => absurd hf List.not_mem_nil⟩

lemma Sound.step (h : b.Sound k) (hstep : b.Step log b') : b'.Sound k := by
  cases hstep with
  | idle => exact h
  | cut fty => exact h.forFrame fty
  | write _ hexact _ hfit =>
    obtain ⟨size, hsize, hlen, -⟩ := hexact
    have hpos := Frame.encodingSize_pos hsize
    apply h.put (by omega) _ hfit
    intro hfree
    have := Frame.three_le_encodingSize hfree hsize
    omega
  | pad hpos hfit =>
    apply h.put (by rwa [List.length_replicate]) _ (by rwa [List.length_replicate])
    intro hfree
    cases hfree
  | finish => exact { h with short := h.short }

lemma Sound.logged (h : b.Sound k) (hlog : Logged Step b log b') : b'.Sound k := by
  apply hlog.invariant (I := fun b _ => b.Sound k) (l := [])
  · intro b _ log b' hb hstep
    exact hb.step hstep
  · exact h

lemma out_of_step (h : b.Step log b') : ∃ more, b'.out = b.out ++ more ∧ b'.nwrote = b.nwrote + more.length := by
  have hcut : ∀ fty, (b.forFrame fty).out = b.out ∧ (b.forFrame fty).nwrote = b.nwrote := by
    intro fty
    rw [forFrame_eq]
    exact ⟨rfl, rfl⟩
  cases h with
  | idle | finish => exact ⟨[], (List.append_nil _).symm, rfl⟩
  | cut fty => exact ⟨[], by rw [List.append_nil, (hcut fty).1], (hcut fty).2⟩
  | @write frame bytes _ _ _ _ =>
    exact ⟨bytes, congrArg (· ++ bytes) (hcut frame.frameType).1, congrArg (· + bytes.length) (hcut frame.frameType).2⟩
  | @pad n _ _ =>
    exact ⟨List.replicate n 0, congrArg (· ++ List.replicate n 0) (hcut .padding).1,
      congrArg (· + (List.replicate n (0 : UInt8)).length) (hcut .padding).2⟩

lemma out_of_logged (h : Logged Step b log b') :
    ∃ more, b'.out = b.out ++ more ∧ b'.nwrote = b.nwrote + more.length := by
  apply h.invariant (I := fun b' _ => ∃ more, b'.out = b.out ++ more ∧ b'.nwrote = b.nwrote + more.length) (l := [])
  · rintro b₁ _ log b₂ ⟨more, hout, hnwrote⟩ hstep
    obtain ⟨more', hout', hnwrote'⟩ := out_of_step hstep
    refine ⟨more ++ more', ?_, ?_⟩
    · rw [hout', hout, List.append_assoc]
    · rw [hnwrote', hnwrote, List.length_append, add_assoc]
  · exact ⟨[], (List.append_nil _).symm, rfl⟩

/-- A source all of whose acts are steps of the relation `R`. -/
def Obeys (R : PacketBuffer → List (Frame Bytes) → PacketBuffer → Prop) (s : Source) : Prop :=
  ∀ b, ∃ log b', b.run (s.acts b) = some (log, b') ∧ Logged R b log b'

lemma logged_cons (hact : b.act a = some (log, b₁)) (hstep : R b log b₁)
    (hrest : ∃ rest b₂, b₁.run acts = some (rest, b₂) ∧ Logged R b₁ rest b₂) :
    ∃ log b₂, b.run (a :: acts) = some (log, b₂) ∧ Logged R b log b₂ := by
  obtain ⟨rest, b₂, hrun, hlog⟩ := hrest
  refine ⟨log ++ rest, b₂, ?_, .cons hstep hlog⟩
  unfold PacketBuffer.run
  simp only [hact, hrun, some_bind]

lemma exists_logged_run (hsized : ∀ a ∈ acts, a.WellSized) :
    ∃ log b', b.run acts = some (log, b') ∧ Logged Step b log b' := by
  induction acts generalizing b with
  | nil => exact ⟨_, _, rfl, .nil b⟩
  | cons a acts ih =>
    obtain ⟨log, b₁, hact, hstep, -⟩ := exists_step (b := b) (hsized a List.mem_cons_self)
    exact logged_cons hact hstep (ih fun a ha => hsized a (List.mem_cons_of_mem _ ha))

lemma obeys_step (s : Source) : Obeys Step s := fun b => exists_logged_run (s.sized b)

lemma exists_logged_sources (hobey : ∀ s ∈ sources, Obeys R s) {result : PollDump} (hresult : result.written = 0)
    (b : PacketBuffer) :
    ∃ result' log b', b.pollSources result sources = some (result', log, b') ∧ Logged R b log b' ∧ result'.written = 0 := by
  induction sources generalizing result b with
  | nil => exact ⟨_, _, _, rfl, .nil b, hresult⟩
  | cons s rest ih =>
    unfold pollSources
    split_ifs with hfin
    · exact ⟨_, _, _, rfl, .nil b, hresult⟩
    · obtain ⟨log, b₁, hrun, hlog⟩ := hobey s List.mem_cons_self b
      have hrest := @ih fun s hs => hobey s (List.mem_cons_of_mem _ hs)
      simp only [Source.pollDump, hrun, some_bind]
      split
      · exact ⟨_, _, _, rfl, hlog, rfl⟩
      · obtain ⟨result', more, b₂, hmore, hlog', hzero⟩ := hrest (rfl : (PollDump.ready (.ok 0)).written = 0) b₁
        rw [hmore]
        exact ⟨_, _, _, rfl, hlog.trans hlog', hzero⟩
      · obtain ⟨result', more, b₂, hmore, hlog', hzero⟩ := hrest hresult b₁
        rw [hmore]
        exact ⟨_, _, _, rfl, hlog.trans hlog', hzero⟩

lemma mem_of_mem_queue {content : PacketContent} {s : Source} (h : s ∈ b.queue content sources) : s ∈ sources :=
  (List.mem_insertionSort _).mp (List.mem_filter.mp h).1

lemma nframes_pos_of_outcome {start : Nat} {result : PollDump} (hzero : result.written = 0)
    (h : 0 < (outcome start result b).written) : 0 < b.info.nframes := by
  unfold outcome at h
  split at h
  · cases h
  · split_ifs at h with hlt
    · exact lt_of_le_of_lt (Nat.zero_le start) hlt
    · rw [hzero] at h
      exact absurd h (lt_irrefl 0)

lemma exists_logged_assemble (hobey : ∀ s ∈ sources, Obeys R s) (b : PacketBuffer) (content : PacketContent) :
    ∃ result log b', b.assemble content sources = some (result, log, b') ∧ Logged R b log b' ∧
      (0 < result.written → 0 < b'.info.nframes) := by
  unfold assemble
  split_ifs with hfin
  · exact ⟨_, _, _, rfl, .nil b, fun h => absurd h (lt_irrefl 0)⟩
  · have hqueue : ∀ s ∈ b.queue content sources, Obeys R s := fun s hs => hobey s (mem_of_mem_queue hs)
    obtain ⟨result, log, b', hpoll, hlog, hzero⟩ :=
      exists_logged_sources hqueue (rfl : PollDump.pending.written = 0) b
    rw [hpoll]
    exact ⟨_, _, _, rfl, hlog, nframes_pos_of_outcome hzero⟩

end PacketBuffer

end Dquic
