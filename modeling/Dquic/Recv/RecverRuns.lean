import Dquic.Lib.System
import Dquic.Recv.Reassembly
import Dquic.Recv.Recver

/-!
# Runs of a receiving stream

The peer sends STREAM and RESET_STREAM frames in any order and the application reads.
-/

namespace Dquic

open Lib

inductive RecverOp
  | recvData (frame : StreamFrame) (body : Bytes)
  | recvReset (frame : ResetStreamFrame)
  | pollRead (room : Nat)
  | pollNext

/-- What happened to a stream: the STREAM frames taken in, latest first, the reset, the sum of the fresh
counts, and the largest window given to the peer. -/
structure RecverHistory where
  accepted : List StreamFrame
  reset : Option ResetStreamFrame
  fresh : Nat
  advertised : Nat
  deriving DecidableEq, Repr

structure RecverWorld (ε : Type) extends RecverHistory where
  recver : ArcRecver ε

def ArcRecver.accepting {ε : Type} : ArcRecver ε → Bool
  | .ok (.recv _) => true
  | .ok (.sizeKnown _) => true
  | _ => false

/-- The largest window given to the peer, with a MAX_STREAM_DATA frame that was just sent. -/
def announce (advertised : Nat) : Option MaxStreamDataFrame → Nat
  | some frame => max advertised frame.maxStreamData.val
  | none => advertised

namespace RecverWorld

variable {ε : Type}

/-- A STREAM frame comes with exactly its data, and its parser keeps its end below `2^62`. -/
def Issued (_ : RecverWorld ε) : RecverOp → Prop
  | .recvData frame body => body.length = frame.length ∧ frame.range.stop ≤ varintMax
  | _ => True

def exec (w : RecverWorld ε) : RecverOp → Option (RecverWorld ε)
  | .recvData frame body => do
    let (res, recver) ← Incoming.recvData w.recver frame body
    match res with
    | .ok (_, freshData) =>
      some { w with
        recver := recver
        fresh := w.fresh + freshData
        accepted := if w.recver.accepting then frame :: w.accepted else w.accepted }
    | .error _ => some { w with recver := recver }
  | .recvReset frame => do
    let (res, recver) ← Incoming.recvReset w.recver frame
    match res with
    | .ok freshData => some { w with recver := recver, fresh := w.fresh + freshData, reset := some frame }
    | .error _ => some { w with recver := recver }
  | .pollRead room =>
    let (_, recver, frame) := Reader.pollRead w.recver room
    some { w with recver := recver, advertised := announce w.advertised frame }
  | .pollNext =>
    let (_, recver, frame) := Reader.pollNext w.recver
    some { w with recver := recver, advertised := announce w.advertised frame }

end RecverWorld

def recverSystem (ε : Type) (sid : StreamId) (bufSize : Nat) : System (RecverWorld ε) RecverOp where
  init w := w = ⟨⟨[], none, 0, bufSize⟩, ArcRecver.new sid bufSize⟩
  issued := RecverWorld.Issued
  exec := RecverWorld.exec

/-! ### What frames claim -/

def carriedBy : List StreamFrame → Nat
  | [] => 0
  | f :: l => if f.length = 0 then carriedBy l else max f.range.stop (carriedBy l)

lemma le_carriedBy {l : List StreamFrame} {f : StreamFrame} (h : f ∈ l) (hf : f.length ≠ 0) :
    f.range.stop ≤ carriedBy l := by
  induction l with
  | nil => cases h
  | cons g l ih =>
    unfold carriedBy
    cases List.mem_cons.mp h with
    | inl h =>
      subst h
      rw [if_neg hf]
      exact le_max_left _ _
    | inr h =>
      have hle := ih h
      split
      · exact hle
      · exact hle.trans (le_max_right _ _)

lemma carriedBy_le_claimedBy (l : List StreamFrame) : carriedBy l ≤ claimedBy l := by
  induction l with
  | nil => exact le_rfl
  | cons f l ih =>
    unfold carriedBy claimedBy
    split
    · exact ih.trans (le_max_right _ _)
    · exact max_le_max le_rfl ih

/-! ### The states of a receiver -/

/-- Before the stream is complete or reset: the buffer holds the data of the accepted frames. -/
structure RecverHistory.Holds (h : RecverHistory) (buf : RecvBuf) : Prop where
  wf : buf.Wf
  carried : buf.largestOffset = carriedBy h.accepted
  fresh : h.fresh = carriedBy h.accepted
  reset : h.reset = none

structure Recv.Agrees (r : Recv) (h : RecverHistory) : Prop where
  holds : h.Holds r.rcvbuf
  largest : r.largest = claimedBy h.accepted
  noFin : ∀ f ∈ h.accepted, f.isFin = false
  window : r.maxStreamData = h.advertised

/-- Accepted frames with FIN all end at the final size, and there is one. -/
structure RecverHistory.FinalSize (h : RecverHistory) (finalSize : Nat) : Prop where
  fixed : ∃ f ∈ h.accepted, f.isFin = true ∧ f.range.stop = finalSize
  unique : ∀ f ∈ h.accepted, f.isFin = true → f.range.stop = finalSize

structure SizeKnown.Agrees (r : SizeKnown) (h : RecverHistory) : Prop where
  holds : h.Holds r.rcvbuf
  size : h.FinalSize r.finalSize
  bounded : r.rcvbuf.largestOffset ≤ r.finalSize

structure RecverHistory.Complete (h : RecverHistory) : Prop where
  reset : h.reset = none
  fresh : h.fresh = carriedBy h.accepted
  size : h.FinalSize h.fresh

/-- The stream was reset, before or after its final size was known. -/
def RecverHistory.IsReset (h : RecverHistory) (frame : ResetStreamFrame) : Prop :=
  h.reset = some frame ∧
    (claimedBy h.accepted ≤ frame.finalSize.val ∧ (∀ f ∈ h.accepted, f.isFin = false) ∧
        h.fresh = carriedBy h.accepted + (frame.finalSize.val - claimedBy h.accepted) ∨
      h.FinalSize frame.finalSize.val ∧ carriedBy h.accepted ≤ frame.finalSize.val ∧
        h.fresh = carriedBy h.accepted)

/-- The state of a receiver agrees with what happened to the stream. -/
def ArcRecver.Agrees {ε : Type} (h : RecverHistory) : ArcRecver ε → Prop
  | .ok (.recv r) => r.Agrees h
  | .ok (.sizeKnown r) => r.Agrees h
  | .ok (.dataRcvd _) => h.Complete
  | .ok .dataRead => h.Complete
  | .ok (.resetRcvd frame) => h.IsReset frame
  | .ok (.resetRead error) => ∃ frame, error = .ofFrame frame ∧ h.IsReset frame
  | .error _ => False

variable {ε : Type} {h : RecverHistory}

variable {body : Bytes} {buf : RecvBuf} {frame : StreamFrame} {r : SizeKnown}

lemma RecverHistory.Holds.recv (hb : h.Holds buf) (hlen : body.length = frame.length)
    (hstop : frame.range.stop ≤ varintMax) :
    ∃ buf', buf.recv frame.offset.val body = some (buf'.largestOffset - buf.largestOffset, buf') ∧
      RecverHistory.Holds
        { h with
          accepted := frame :: h.accepted
          fresh := h.fresh + (buf'.largestOffset - buf.largestOffset) } buf' ∧
      buf'.largestOffset = if frame.length = 0 then buf.largestOffset else max buf.largestOffset frame.range.stop := by
  have hend : frame.range.stop = frame.offset.val + frame.length := rfl
  have hlt : frame.offset.val + body.length < 2 ^ 64 := by
    unfold varintMax at hstop
    omega
  obtain ⟨buf', hrecv, hwf, -, -, hlargest⟩ := hb.wf.recv_absorbs (fun _ => hlt)
  have hcarried := hb.carried
  have hfresh := hb.fresh
  have hgrow : buf'.largestOffset =
      if frame.length = 0 then buf.largestOffset else max buf.largestOffset frame.range.stop := by
    rw [hlargest]
    simp only [← List.length_eq_zero_iff, hlen, hend]
  have hnew : buf'.largestOffset = carriedBy (frame :: h.accepted) := by
    rw [hgrow, carriedBy, hcarried, max_comm]
  refine ⟨buf', hrecv, ⟨hwf, hnew, ?_, hb.reset⟩, hgrow⟩
  change h.fresh + (buf'.largestOffset - buf.largestOffset) = carriedBy (frame :: h.accepted)
  rw [← hnew]
  split at hgrow
  · omega
  · have hle := le_max_left buf.largestOffset frame.range.stop
    omega

lemma RecverHistory.FinalSize.cons {h' : RecverHistory} {finalSize : Nat} (hf : h.FinalSize finalSize)
    (hnew : h'.accepted = frame :: h.accepted) (hfin : frame.isFin = true → frame.range.stop = finalSize) :
    h'.FinalSize finalSize := by
  obtain ⟨f, hmem, hfin', hstop⟩ := hf.fixed
  refine ⟨⟨f, by simp [hnew, hmem], hfin', hstop⟩, ?_⟩
  rw [hnew]
  exact List.forall_mem_cons.mpr ⟨hfin, hf.unique⟩

lemma RecverHistory.finalSize_first {h' : RecverHistory} (hno : ∀ f ∈ h.accepted, f.isFin = false)
    (hnew : h'.accepted = frame :: h.accepted) (hfin : frame.isFin = true) : h'.FinalSize frame.range.stop := by
  refine ⟨⟨frame, by simp [hnew], hfin, rfl⟩, ?_⟩
  rw [hnew]
  refine List.forall_mem_cons.mpr ⟨fun _ => rfl, fun g hg hgfin => ?_⟩
  rw [hno g hg] at hgfin
  cases hgfin

/-- A receiver that knows the final size is complete once nothing is missing below it. -/
lemma SizeKnown.Agrees.settle (hr : r.Agrees h) : ArcRecver.Agrees h (.ok (Incoming.settle r).2 : ArcRecver ε) := by
  unfold Incoming.settle
  cases hall : r.isAllRcvd with
  | false => exact hr
  | true =>
    have hle : RecvBuf.continuousEnd r.rcvbuf.nread r.rcvbuf.segments ≤ r.rcvbuf.largestOffset :=
      RecvBuf.continuousEnd_le hr.holds.wf.nread_le hr.holds.wf.largest
    have hge := RecvBuf.le_continuousEnd r.rcvbuf.nread r.rcvbuf.segments
    have hend : r.rcvbuf.nread + r.rcvbuf.available = r.finalSize := by simpa [isAllRcvd] using hall
    unfold RecvBuf.available at hend
    have hbounded := hr.bounded
    have hfresh : h.fresh = r.finalSize := by
      rw [hr.holds.fresh, ← hr.holds.carried]
      omega
    exact ⟨hr.holds.reset, hr.holds.fresh, hfresh ▸ hr.size⟩

/-! ### Frames of the peer -/

lemma SizeKnown.recv_cases {r' : SizeKnown} {res : Except QuicError Nat} (hlen : body.length = frame.length)
    (he : r.recv frame body = some (res, r')) :
    ((∃ e, res = .error e) ∧ r' = r ∧
      (r.finalSize < frame.range.stop ∨ frame.isFin = true ∧ frame.range.stop ≠ r.finalSize)) ∨
    ∃ n buf, res = .ok n ∧ r' = { r with rcvbuf := buf } ∧ r.rcvbuf.recv frame.offset.val body = some (n, buf) ∧
      frame.range.stop ≤ r.finalSize ∧ (frame.isFin = true → frame.range.stop = r.finalSize) := by
  have hend : frame.offset.val + body.length = frame.range.stop := congrArg _ hlen
  simp only [SizeKnown.recv, hend] at he
  split_ifs at he with hover hother
  · cases he
    exact .inl ⟨⟨_, rfl⟩, rfl, .inl hover⟩
  · cases he
    exact .inl ⟨⟨_, rfl⟩, rfl, .inr hother⟩
  · obtain ⟨⟨n, buf⟩, hrecv, he⟩ := of_bind he
    cases he
    refine .inr ⟨n, buf, rfl, rfl, hrecv, by omega, fun hfin => ?_⟩
    by_contra hne
    exact hother ⟨hfin, hne⟩

namespace Incoming

variable {s s' : ArcRecver ε}

/-- What a STREAM frame does: it is refused or ignored, or its data goes into the buffer. With a known final size the
stream may then be complete. -/
theorem recvData_cases (hlen : body.length = frame.length) {res : Except QuicError (Bool × Nat)}
    (he : recvData s frame body = some (res, s')) :
    (∃ e, res = .error e ∧ s' = s) ∨ (s.accepting = false ∧ res = .ok (false, 0) ∧ s' = s) ∨
    (∃ r n buf, s = .ok (.recv r) ∧ frame.isFin = false ∧ frame.range.stop ≤ r.maxStreamData ∧
      r.rcvbuf.recv frame.offset.val body = some (n, buf) ∧ res = .ok (false, n) ∧
      s' = .ok (.recv { r with rcvbuf := buf, largest := max r.largest frame.range.stop })) ∨
    ∃ r n buf, (s = .ok (.sizeKnown r) ∨ ∃ r₀ : Recv, s = .ok (.recv r₀) ∧ frame.isFin = true ∧
        r₀.rcvbuf.largestOffset ≤ frame.range.stop ∧ r = ⟨r₀.streamId, r₀.rcvbuf, r₀.stopState, frame.range.stop⟩) ∧
      frame.range.stop ≤ r.finalSize ∧ (frame.isFin = true → frame.range.stop = r.finalSize) ∧
      r.rcvbuf.recv frame.offset.val body = some (n, buf) ∧
      res = .ok ((settle { r with rcvbuf := buf }).1, n) ∧ s' = .ok (settle { r with rcvbuf := buf }).2 := by
  have hend : frame.offset.val + body.length = frame.range.stop := congrArg _ hlen
  match s with
  | .ok (.recv r) =>
    cases hfin : frame.isFin with
    | true =>
      simp only [recvData, hfin, if_true, Recv.determinSize] at he
      by_cases hsmall : frame.range.stop < r.rcvbuf.largestOffset
      · simp only [if_pos hsmall] at he
        cases he
        exact .inl ⟨_, rfl, rfl⟩
      · simp only [if_neg hsmall] at he
        obtain ⟨⟨res, r'⟩, hrecv, he⟩ := of_bind he
        rcases SizeKnown.recv_cases hlen hrecv with ⟨-, -, hwhy⟩ | ⟨n, buf, rfl, rfl, hbuf, hle, hfinal⟩
        · exact absurd hwhy (by simp)
        · cases he
          refine .inr (.inr (.inr ⟨_, n, buf, .inr ⟨r, rfl, rfl, by omega, rfl⟩, hle, fun _ => rfl, hbuf, rfl, rfl⟩))
    | false =>
      simp only [recvData, hfin, Bool.false_eq_true, if_false, Recv.recv, hend] at he
      by_cases hover : r.maxStreamData < frame.range.stop
      · simp only [if_pos hover, some_bind] at he
        cases he
        exact .inl ⟨_, rfl, rfl⟩
      · simp only [if_neg hover] at he
        obtain ⟨⟨res, r'⟩, hrecv, he⟩ := of_bind he
        obtain ⟨⟨n, buf⟩, hbuf, hrecv⟩ := of_bind hrecv
        cases hrecv
        cases he
        exact .inr (.inr (.inl ⟨r, n, buf, rfl, rfl, by omega, hbuf, rfl, rfl⟩))
  | .ok (.sizeKnown r) =>
    obtain ⟨⟨x, r'⟩, hrecv, he⟩ := of_bind he
    rcases SizeKnown.recv_cases hlen hrecv with ⟨⟨e, rfl⟩, hsame, -⟩ | ⟨n, buf, rfl, rfl, hbuf, hle, hfinal⟩
    · cases he
      exact .inl ⟨e, rfl, by rw [hsame]⟩
    · cases he
      exact .inr (.inr (.inr ⟨r, n, buf, .inl rfl, hle, hfinal, hbuf, rfl, rfl⟩))
  | .error _ | .ok (.dataRcvd _) | .ok .dataRead | .ok (.resetRcvd _) | .ok (.resetRead _) =>
    cases he
    exact .inr (.inl ⟨rfl, rfl, rfl⟩)

/-- What a RESET_STREAM frame does to a receiver of a connection that is not over: it is refused, or resets the stream. -/
theorem recvReset_cases {frame : ResetStreamFrame} {res : Except QuicError Nat}
    (he : recvReset s frame = some (res, s')) :
    (∃ e, res = .error e ∧ s' = s) ∨ (∃ e, s = .error e) ∨
    ∃ n, res = .ok n ∧ s' = .ok (.resetRcvd frame) ∧
      ((∃ r : Recv, s = .ok (.recv r) ∧ r.largest ≤ frame.finalSize.val ∧ n = frame.finalSize.val - r.largest) ∨
        ∃ r : SizeKnown, s = .ok (.sizeKnown r) ∧ frame.finalSize.val = r.finalSize ∧ n = 0) := by
  match s with
  | .ok (.recv r) =>
    unfold recvReset Recv.recvReset at he
    by_cases hsmall : frame.finalSize.val < r.largest
    · simp only [if_pos hsmall] at he
      cases he
      exact .inl ⟨_, rfl, rfl⟩
    · simp only [if_neg hsmall] at he
      cases he
      exact .inr (.inr ⟨_, rfl, rfl, .inl ⟨r, rfl, by omega, rfl⟩⟩)
  | .ok (.sizeKnown r) =>
    unfold recvReset SizeKnown.recvReset at he
    by_cases hother : frame.finalSize.val ≠ r.finalSize
    · simp only [if_pos hother] at he
      cases he
      exact .inl ⟨_, rfl, rfl⟩
    · simp only [if_neg hother] at he
      cases he
      exact .inr (.inr ⟨_, rfl, rfl, .inr ⟨r, rfl, by omega, rfl⟩⟩)
  | .ok (.dataRcvd _) | .ok .dataRead | .ok (.resetRcvd _) | .ok (.resetRead _) => cases he
  | .error e => exact .inr (.inl ⟨e, rfl⟩)

end Incoming

namespace ArcRecver

variable {s s' : ArcRecver ε}

theorem Agrees.recvData (hs : Agrees h s) (hlen : body.length = frame.length) (hstop : frame.range.stop ≤ varintMax)
    {res : Except QuicError (Bool × Nat)} (he : Incoming.recvData s frame body = some (res, s')) :
    (∃ e, res = .error e ∧ s' = s) ∨ ∃ done n, res = .ok (done, n) ∧
      Agrees
        { h with
          fresh := h.fresh + n
          accepted := if s.accepting then frame :: h.accepted else h.accepted } s' := by
  rcases Incoming.recvData_cases hlen he with
    herror | ⟨hacc, rfl, rfl⟩ | ⟨r, n, buf, rfl, hfin, -, hrecv, rfl, rfl⟩ | ⟨r, n, buf, hr, hle, hfinal, hrecv, rfl, rfl⟩
  · exact .inl herror
  · refine .inr ⟨_, _, rfl, ?_⟩
    rw [hacc]
    exact hs
  · have hr : r.Agrees h := hs
    obtain ⟨buf', hrecv', hholds, -⟩ := hr.holds.recv hlen hstop
    cases hrecv.symm.trans hrecv'
    refine .inr ⟨_, _, rfl, hholds, ?_, List.forall_mem_cons.mpr ⟨hfin, hr.noFin⟩, hr.window⟩
    change max r.largest frame.range.stop = claimedBy (frame :: h.accepted)
    rw [hr.largest, claimedBy, max_comm]
  · refine .inr ⟨_, n, rfl, ?_⟩
    have hknown : h.Holds r.rcvbuf ∧ r.rcvbuf.largestOffset ≤ r.finalSize ∧ s.accepting = true ∧
        ∀ {h' : RecverHistory}, h'.accepted = frame :: h.accepted → h'.FinalSize r.finalSize := by
      rcases hr with rfl | ⟨r₀, rfl, hfin, hbounded, rfl⟩
      · have hr : r.Agrees h := hs
        exact ⟨hr.holds, hr.bounded, rfl, fun hnew => hr.size.cons hnew hfinal⟩
      · have hr : r₀.Agrees h := hs
        exact ⟨hr.holds, hbounded, rfl, fun hnew => RecverHistory.finalSize_first hr.noFin hnew hfin⟩
    obtain ⟨hb, hbounded, hacc, hsize⟩ := hknown
    obtain ⟨buf', hrecv', hholds, hgrow⟩ := hb.recv hlen hstop
    cases hrecv.symm.trans hrecv'
    rw [if_pos hacc]
    refine SizeKnown.Agrees.settle ⟨hholds, hsize rfl, ?_⟩
    change buf.largestOffset ≤ r.finalSize
    rw [hgrow]
    split <;> omega

theorem Agrees.recvReset (hs : Agrees h s) {frame : ResetStreamFrame} {res : Except QuicError Nat}
    (he : Incoming.recvReset s frame = some (res, s')) :
    (∃ e, res = .error e ∧ s' = s) ∨ ∃ n, res = .ok n ∧
      Agrees { h with fresh := h.fresh + n, reset := some frame } s' := by
  rcases Incoming.recvReset_cases he with
    herror | ⟨e, rfl⟩ | ⟨n, rfl, rfl, ⟨r, rfl, hle, rfl⟩ | ⟨r, rfl, hsame, rfl⟩⟩
  · exact .inl herror
  · exact hs.elim
  · have hr : r.Agrees h := hs
    have hlargest := hr.largest
    refine .inr ⟨_, rfl, rfl, .inl ⟨hlargest ▸ hle, hr.noFin, ?_⟩⟩
    change h.fresh + (frame.finalSize.val - r.largest) = _
    rw [hr.holds.fresh, hlargest]
  · have hr : r.Agrees h := hs
    refine .inr ⟨_, rfl, rfl, .inr ?_⟩
    rw [hsame]
    exact ⟨⟨hr.size.fixed, hr.size.unique⟩, hr.holds.carried ▸ hr.bounded, hr.holds.fresh⟩

end ArcRecver

/-! ### Reading -/

lemma RecverHistory.Holds.read {buf' : RecvBuf} (hb : h.Holds buf) (hwf : buf'.Wf)
    (hlargest : buf'.largestOffset = buf.largestOffset) (advertised : Nat) :
    RecverHistory.Holds { h with advertised := advertised } buf' :=
  ⟨hwf, hlargest.trans hb.carried, hb.fresh, hb.reset⟩

lemma Recv.raiseWindow_cases (r : Recv) :
    (∃ m : VarInt, r.maxStreamData < m.val ∧
      r.raiseWindow = ({ r with maxStreamData := m.val }, some ⟨r.streamId, m⟩)) ∨ r.raiseWindow = (r, none) := by
  have hlt : min (r.rcvbuf.nread + 1000000 * 2) varintMax < 2 ^ 62 := lt_of_le_of_lt (min_le_right _ _) (by decide)
  unfold Recv.raiseWindow
  by_cases hraise : r.maxStreamData < r.rcvbuf.nread + 1000000 ∧
      r.maxStreamData < min (r.rcvbuf.nread + 1000000 * 2) varintMax
  · exact .inl ⟨⟨_, hlt⟩, hraise.2, if_pos hraise⟩
  · exact .inr (if_neg hraise)

lemma Recv.Agrees.read {r : Recv} (hr : r.Agrees h) (hwf : buf.Wf)
    (hlargest : buf.largestOffset = r.rcvbuf.largestOffset) :
    (Recv.raiseWindow { r with rcvbuf := buf }).1.Agrees
      { h with advertised := announce h.advertised (Recv.raiseWindow { r with rcvbuf := buf }).2 } := by
  have hwindow := hr.window
  rcases Recv.raiseWindow_cases { r with rcvbuf := buf } with ⟨m, hm, hraise⟩ | hraise
  · rw [hraise]
    refine ⟨hr.holds.read hwf hlargest _, hr.largest, hr.noFin, ?_⟩
    change m.val = max h.advertised m.val
    change r.maxStreamData < m.val at hm
    omega
  · rw [hraise]
    exact ⟨hr.holds.read hwf hlargest _, hr.largest, hr.noFin, hwindow⟩

lemma SizeKnown.Agrees.read (hr : r.Agrees h) (hwf : buf.Wf) (hlargest : buf.largestOffset = r.rcvbuf.largestOffset) :
    SizeKnown.Agrees { r with rcvbuf := buf } h :=
  ⟨hr.holds.read hwf hlargest h.advertised, hr.size, hlargest.trans_le hr.bounded⟩

namespace ReadResult

def bytes : ReadResult ε → Bytes
  | .data bytes => bytes
  | _ => []

/-- Whether a read into a destination with this room reports the end of the stream. -/
def isEnd (room : Nat) : ReadResult ε → Bool
  | .data bytes => bytes.isEmpty && decide (0 < room)
  | .eof => true
  | _ => false

end ReadResult

namespace Reader

/-- What a read into a destination with this room does, be it `poll_read` or `poll_next`. -/
inductive Read (room : Nat) : ArcRecver ε → ReadResult ε → ArcRecver ε → Option MaxStreamDataFrame → Prop
  | pending {s : ArcRecver ε} : Read room s .pending s none
  | recv {r : Recv} {bytes : Bytes} {buf : RecvBuf} :
      (r.rcvbuf.Wf → r.rcvbuf.Reads bytes buf ∧ (0 < room → bytes ≠ [])) →
      Read room (.ok (.recv r)) (.data bytes) (.ok (.recv (Recv.raiseWindow { r with rcvbuf := buf }).1))
        (Recv.raiseWindow { r with rcvbuf := buf }).2
  | sizeKnown {r : SizeKnown} {bytes : Bytes} {buf : RecvBuf} :
      (r.rcvbuf.Wf → r.rcvbuf.Reads bytes buf ∧ (0 < room → bytes ≠ [])) →
      Read room (.ok (.sizeKnown r)) (.data bytes) (.ok (.sizeKnown { r with rcvbuf := buf })) none
  | dataRcvd {r : DataRcvd} {res : ReadResult ε} (buf : RecvBuf) {t : Recver} :
      (r.rcvbuf.Wf → r.rcvbuf.Reads res.bytes buf ∧ (res.isEnd room = true → r.rcvbuf.available = 0)) →
      (t = .dataRcvd { r with rcvbuf := buf } ∨ buf.segments = [] ∧ t = .dataRead) →
      Read room (.ok (.dataRcvd r)) res (.ok t) none
  | dataRead {res : ReadResult ε} : res.bytes = [] → Read room (.ok .dataRead) res (.ok .dataRead) none
  | resetRcvd (f : ResetStreamFrame) :
      Read room (.ok (.resetRcvd f)) (.error (.reset (.ofFrame f))) (.ok (.resetRead (.ofFrame f))) none
  | refused {s : ArcRecver ε} {error : StreamError ε} : Read room s (.error error) s none

lemma allRead_cases (r : DataRcvd) : (if r.isAllRead then Recver.dataRead else .dataRcvd r) = .dataRcvd r ∨
    r.rcvbuf.segments = [] ∧ (if r.isAllRead then Recver.dataRead else .dataRcvd r) = .dataRead := by
  cases hall : r.isAllRead with
  | true => exact .inr ⟨List.isEmpty_iff.mp hall, rfl⟩
  | false => exact .inl rfl

theorem read_pollRead (s : ArcRecver ε) (room : Nat) :
    Read room s (pollRead s room).1 (pollRead s room).2.1 (pollRead s room).2.2 := by
  match s with
  | .ok (.recv r) =>
    change Read room _ (readResult (r.pollRead room).1) (.ok (.recv (r.pollRead room).2.1)) (r.pollRead room).2.2
    unfold Recv.pollRead
    split_ifs with hread
    · exact .recv fun hwf => ⟨hwf.tryRead_reads room, hwf.tryRead_ne_nil hread⟩
    · exact .pending
  | .ok (.sizeKnown r) =>
    change Read room _ (readResult (r.pollRead room).1) (.ok (.sizeKnown (r.pollRead room).2)) none
    unfold SizeKnown.pollRead
    split_ifs with hread
    · exact .sizeKnown fun hwf => ⟨hwf.tryRead_reads room, hwf.tryRead_ne_nil hread⟩
    · exact .pending
  | .ok (.dataRcvd r) =>
    refine .dataRcvd (r.rcvbuf.tryRead room).2 (fun hwf => ⟨hwf.tryRead_reads room, fun hend => ?_⟩) (allRead_cases _)
    obtain ⟨hempty, hroom⟩ := Bool.and_eq_true_iff.mp hend
    have hnil : (r.rcvbuf.tryRead room).1 = [] := List.isEmpty_iff.mp hempty
    have hlen := (hwf.tryRead_takes room).1
    rw [hnil, List.length_nil] at hlen
    have hpos := of_decide_eq_true hroom
    omega
  | .ok .dataRead => exact .dataRead rfl
  | .ok (.resetRcvd f) => exact .resetRcvd f
  | .ok (.resetRead _) | .error _ => exact .refused

theorem read_pollNext (s : ArcRecver ε) : Read 1 s (pollNext s).1 (pollNext s).2.1 (pollNext s).2.2 := by
  -- the next fragment of a buffer with data is not empty
  have hdata : ∀ {buf : RecvBuf} {d : Bytes}, buf.tryNext.1 = some d → buf.Wf →
      buf.Reads d buf.tryNext.2 ∧ (0 < 1 → d ≠ []) := by
    intro buf d hd hwf
    have hreads := hwf.tryNext_reads
    rw [hd] at hreads
    rcases hwf.tryNext_takes with ⟨d', hd', hne, -⟩ | ⟨hnone, -⟩
    · cases hd.symm.trans hd'
      exact ⟨hreads, fun _ => hne⟩
    · rw [hnone] at hd
      cases hd
  have hsome : ∀ {buf : RecvBuf}, buf.isReadable = true → ∃ d, buf.tryNext.1 = some d := by
    intro buf hread
    obtain ⟨seg, hseg, hoffset⟩ := Option.map_eq_some_iff.mp (of_decide_eq_true hread)
    obtain ⟨rest, hsegments⟩ := List.head?_eq_some_iff.mp hseg
    refine ⟨seg.data, ?_⟩
    simp only [RecvBuf.tryNext, hsegments, if_pos hoffset]
  match s with
  | .ok (.recv r) =>
    change Read 1 _ (readResult r.pollNext.1) (.ok (.recv r.pollNext.2.1)) r.pollNext.2.2
    unfold Recv.pollNext
    split_ifs with hread
    · obtain ⟨d, hd⟩ := hsome hread
      simp only [hd]
      exact .recv (hdata hd)
    · exact .pending
  | .ok (.sizeKnown r) =>
    change Read 1 _ (readResult r.pollNext.1) (.ok (.sizeKnown r.pollNext.2)) none
    unfold SizeKnown.pollNext
    split_ifs with hread
    · obtain ⟨d, hd⟩ := hsome hread
      simp only [hd]
      exact .sizeKnown (hdata hd)
    · exact .pending
  | .ok (.dataRcvd r) =>
    have hnext : r.pollNext = (r.rcvbuf.tryNext.1, { r with rcvbuf := r.rcvbuf.tryNext.2 }) := rfl
    unfold pollNext
    simp only [hnext]
    cases hd : r.rcvbuf.tryNext.1 with
    | none =>
      refine .dataRcvd r.rcvbuf.tryNext.2 (fun hwf => ?_) (.inl rfl)
      have hreads := hwf.tryNext_reads
      rw [hd] at hreads
      rcases hwf.tryNext_takes with ⟨d, hd', -⟩ | ⟨-, hzero⟩
      · cases hd.symm.trans hd'
      · exact ⟨hreads, fun _ => hzero⟩
    | some d =>
      refine .dataRcvd r.rcvbuf.tryNext.2 (fun hwf => ?_) (allRead_cases _)
      obtain ⟨hreads, hne⟩ := hdata hd hwf
      exact ⟨hreads, fun hend => absurd (List.isEmpty_iff.mp (Bool.and_eq_true_iff.mp hend).1) (hne Nat.one_pos)⟩
  | .ok .dataRead => exact .dataRead rfl
  | .ok (.resetRcvd f) => exact .resetRcvd f
  | .ok (.resetRead _) | .error _ => exact .refused

end Reader

theorem ArcRecver.Agrees.read {s s' : ArcRecver ε} (hs : Agrees h s) {room : Nat} {res : ReadResult ε}
    {frame : Option MaxStreamDataFrame} (hr : Reader.Read room s res s' frame) :
    Agrees { h with advertised := announce h.advertised frame } s' := by
  cases hr with
  | pending | dataRead | refused => exact hs
  | recv hr =>
    have hagrees : Recv.Agrees _ h := hs
    obtain ⟨hreads, -⟩ := hr hagrees.holds.wf
    exact hagrees.read hreads.wf hreads.largest
  | sizeKnown hr =>
    have hagrees : SizeKnown.Agrees _ h := hs
    obtain ⟨hreads, -⟩ := hr hagrees.holds.wf
    exact hagrees.read hreads.wf hreads.largest
  | dataRcvd _ _ ht => rcases ht with rfl | ⟨-, rfl⟩ <;> exact hs
  | resetRcvd f => exact ⟨f, rfl, hs⟩

namespace RecverWorld

variable {w w' : RecverWorld ε}

theorem agrees_step (hw : w.recver.Agrees w.toRecverHistory) {op : RecverOp} (hop : w.Issued op)
    (he : w.exec op = some w') : w'.recver.Agrees w'.toRecverHistory := by
  cases op with
  | recvData frame body =>
    obtain ⟨⟨res, t⟩, ht, he⟩ := of_bind he
    rcases hw.recvData hop.1 hop.2 ht with ⟨e, rfl, rfl⟩ | ⟨done, n, rfl, hw'⟩
    · cases he
      exact hw
    · cases he
      exact hw'
  | recvReset frame =>
    obtain ⟨⟨res, t⟩, ht, he⟩ := of_bind he
    rcases hw.recvReset ht with ⟨e, rfl, rfl⟩ | ⟨n, rfl, hw'⟩
    · cases he
      exact hw
    · cases he
      exact hw'
  | pollRead room =>
    cases he
    exact hw.read (Reader.read_pollRead _ room)
  | pollNext =>
    cases he
    exact hw.read (Reader.read_pollNext _)

variable {bufSize : Nat} {sid : StreamId}

lemma agrees_init (hw : w = ⟨⟨[], none, 0, bufSize⟩, ArcRecver.new sid bufSize⟩) :
    w.recver.Agrees w.toRecverHistory := by
  subst hw
  exact ⟨⟨RecvBuf.wf_empty, rfl, rfl, rfl⟩, rfl, fun f hf => absurd hf List.not_mem_nil, rfl⟩

theorem agrees_of_reach (hr : (recverSystem ε sid bufSize).Reach w) : w.recver.Agrees w.toRecverHistory :=
  hr.invariant (I := fun w => w.recver.Agrees w.toRecverHistory) (fun _ hw => agrees_init hw)
    (fun _ _ _ hw hop he => agrees_step hw hop he)

end RecverWorld

end Dquic
