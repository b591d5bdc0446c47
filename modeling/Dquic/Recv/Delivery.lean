import Dquic.Recv.Arrivals
import Dquic.Recv.RecverRuns

/-!
# What the reader of a stream gets

Runs of a receiving stream with the data of the frames that were accepted, the bytes that `Reader`
handed out and the ends of stream that it reported.
-/

namespace Dquic

open Lib

variable {ε : Type}

/-- A stream with the data that was accepted, in order of arrival, what was delivered, and how much that was whenever an
end of stream was reported. -/
structure ReaderWorld (ε : Type) extends RecverWorld ε where
  arrivals : List Arrival
  delivered : Bytes
  ends : List Nat

namespace ReaderWorld

def arrived (w : ReaderWorld ε) : RecverOp → List Arrival
  | .recvData frame body =>
    match Incoming.recvData w.recver frame body with
    | some (.ok _, _) => if w.recver.accepting then [⟨frame.offset.val, body, w.delivered.length⟩] else []
    | _ => []
  | _ => []

def deliveredBy (w : ReaderWorld ε) : RecverOp → Bytes
  | .pollRead room => (Reader.pollRead w.recver room).1.bytes
  | .pollNext => (Reader.pollNext w.recver).1.bytes
  | _ => []

/-- `poll_next` always has room. -/
def endedBy (w : ReaderWorld ε) : RecverOp → List Nat
  | .pollRead room => if (Reader.pollRead w.recver room).1.isEnd room then [w.delivered.length] else []
  | .pollNext => if (Reader.pollNext w.recver).1.isEnd 1 then [w.delivered.length] else []
  | _ => []

def exec (w : ReaderWorld ε) (op : RecverOp) : Option (ReaderWorld ε) := do
  let recver ← w.toRecverWorld.exec op
  some
    { toRecverWorld := recver
      arrivals := w.arrivals ++ w.arrived op
      delivered := w.delivered ++ w.deliveredBy op
      ends := w.ends ++ w.endedBy op }

end ReaderWorld

/-- Runs of a stream that was opened with the given window, and of its reader. -/
def readerSystem (ε : Type) (sid : StreamId) (bufSize : Nat) : System (ReaderWorld ε) RecverOp where
  init w := w = ⟨⟨⟨[], none, 0, bufSize⟩, ArcRecver.new sid bufSize⟩, [], [], []⟩
  issued w op := w.toRecverWorld.Issued op
  exec := ReaderWorld.exec

lemma Incoming.recvData_ignored {s : ArcRecver ε} {frame : StreamFrame} {body : Bytes} (h : s.accepting = false) :
    recvData s frame body = some (.ok (false, 0), s) := by
  match s, h with
  | .ok (.dataRcvd _), _ | .ok .dataRead, _ | .ok (.resetRcvd _), _ | .ok (.resetRead _), _ | .error _, _ => rfl

/-! ### Deliveries -/

namespace ReaderWorld

variable {w w' : ReaderWorld ε}

/-- The buffer, what arrived and what was delivered belong together. -/
def Holds (w : ReaderWorld ε) (buf : RecvBuf) : Prop := RecvWorld.Inv ⟨buf, w.arrivals, w.delivered, buf.largestOffset⟩

def Delivers (w : ReaderWorld ε) : ArcRecver ε → Prop
  | .ok (.recv r) => w.Holds r.rcvbuf ∧ w.ends = []
  | .ok (.sizeKnown r) => w.Holds r.rcvbuf ∧ w.ends = [] ∧ r.rcvbuf.reach ≠ r.finalSize
  | .ok (.dataRcvd r) => w.Holds r.rcvbuf ∧ w.FinalSize r.rcvbuf.reach ∧
      ∀ n ∈ w.ends, n = r.rcvbuf.reach ∧ r.rcvbuf.nread = r.rcvbuf.reach
  | .ok .dataRead => w.FinalSize w.delivered.length ∧ ∀ n ∈ w.ends, n = w.delivered.length
  | .ok (.resetRcvd _) => w.ends = []
  | .ok (.resetRead _) => w.ends = []
  | .error _ => False

structure Faithful (w : ReaderWorld ε) : Prop where
  agrees : w.recver.Agrees w.toRecverHistory
  frames : (w.arrivals.map fun a => (a.offset, a.data.length)) = w.accepted.reverse.map fun f => (f.offset.val, f.length)
  known : ∀ i < w.delivered.length, w.delivered[i]? = firstCover w.arrivals i
  early : ∀ a ∈ w.arrivals, a.nread ≤ w.delivered.length
  delivers : w.Delivers w.recver

variable {buf buf' : RecvBuf} {n room i : Nat} {s : ArcRecver ε} {body : Bytes} {res : ReadResult ε} {r : DataRcvd}
  {frame : ResetStreamFrame} {op : RecverOp}

lemma Holds.recv (hb : w.Holds buf) {offset : Nat} {data : Bytes} (h : buf.recv offset data = some (n, buf')) :
    RecvWorld.Inv ⟨buf', w.arrivals ++ [⟨offset, data, w.delivered.length⟩], w.delivered, buf'.largestOffset⟩ := by
  have hexec : RecvWorld.exec ⟨buf, w.arrivals, w.delivered, buf.largestOffset⟩ (.recv offset data) =
      some ⟨buf', w.arrivals ++ [⟨offset, data, buf.nread⟩], w.delivered, buf.largestOffset + n⟩ := by
    simp only [RecvWorld.exec, h, some_bind]
  have hinv := RecvWorld.Inv.step hb hexec
  have hnread : buf.nread = w.delivered.length := hb.nread_eq
  have hfresh : buf.largestOffset + n = buf'.largestOffset := hinv.fresh_eq
  rwa [hnread, hfresh] at hinv

lemma Holds.read (hb : w.Holds buf) {out : Bytes} (hr : buf.Reads out buf') :
    RecvWorld.Inv ⟨buf', w.arrivals, w.delivered ++ out, buf'.largestOffset⟩ := by
  have hinv := RecvWorld.Inv.takes hb hr.wf hr.nread hr.largest hr.takes
  have hfresh : buf.largestOffset = buf'.largestOffset := hr.largest.symm
  rwa [hfresh] at hinv

lemma Holds.known (hb : w.Holds buf) : ∀ i < w.delivered.length, w.delivered[i]? = firstCover w.arrivals i := by
  intro i hi
  have hnread : buf.nread = w.delivered.length := hb.nread_eq
  exact RecvWorld.Inv.read hb i (hnread.symm ▸ hi)

lemma Delivers.congr (h : w.Delivers s) (harrivals : w'.arrivals = w.arrivals) (hdelivered : w'.delivered = w.delivered)
    (hends : w'.ends = w.ends) (haccepted : w'.accepted = w.accepted) : w'.Delivers s := by
  have hsize : ∀ n, w.FinalSize n → w'.FinalSize n := by
    intro n hn
    exact ⟨haccepted.symm ▸ hn.fixed, haccepted.symm ▸ hn.unique⟩
  have hholds : ∀ buf, w.Holds buf → w'.Holds buf := by
    intro buf hb
    unfold Holds
    rw [harrivals, hdelivered]
    exact hb
  match s, h with
  | .ok (.recv r), h => exact ⟨hholds _ h.1, hends.trans h.2⟩
  | .ok (.sizeKnown r), h => exact ⟨hholds _ h.1, hends.trans h.2.1, h.2.2⟩
  | .ok (.dataRcvd r), h => exact ⟨hholds _ h.1, hsize _ h.2.1, fun n hn => h.2.2 n (hends ▸ hn)⟩
  | .ok .dataRead, h => exact ⟨hdelivered.symm ▸ hsize _ h.1, fun n hn => hdelivered.symm ▸ h.2 n (hends ▸ hn)⟩
  | .ok (.resetRcvd _), h | .ok (.resetRead _), h => exact hends.trans h

lemma Faithful.congr (hw : w.Faithful) (hagrees : w'.recver.Agrees w'.toRecverHistory) (hdelivers : w'.Delivers w'.recver)
    (harrivals : w'.arrivals = w.arrivals) (hdelivered : w'.delivered = w.delivered)
    (haccepted : w'.accepted = w.accepted) : w'.Faithful := by
  refine ⟨hagrees, ?_, ?_, ?_, hdelivers⟩
  · rw [harrivals, haccepted]
    exact hw.frames
  · rw [harrivals, hdelivered]
    exact hw.known
  · rw [harrivals, hdelivered]
    exact hw.early

lemma delivers_settle {r : SizeKnown} (hb : w.Holds r.rcvbuf) (hends : w.ends = []) (hsize : w.FinalSize r.finalSize) :
    w.Delivers (.ok (Incoming.settle r).2) := by
  unfold Incoming.settle
  cases hall : r.isAllRcvd with
  | false =>
    refine ⟨hb, hends, fun heq => ?_⟩
    rw [← RecvBuf.nread_add_available] at heq
    exact of_decide_eq_false hall heq
  | true =>
    have hreach : r.rcvbuf.reach = r.finalSize := by
      rw [← RecvBuf.nread_add_available]
      exact of_decide_eq_true hall
    refine ⟨hb, ?_, fun n hn => ?_⟩
    · change w.FinalSize r.rcvbuf.reach
      rw [hreach]
      exact hsize
    · rw [hends] at hn
      cases hn

lemma Faithful.accept (hw : w.Faithful) {frame : StreamFrame} (hlen : body.length = frame.length)
    (hacc : w.recver.accepting = true) {done : Bool}
    (h : Incoming.recvData w.recver frame body = some (.ok (done, n), w'.recver))
    (hagrees : w'.recver.Agrees w'.toRecverHistory) (haccepted : w'.accepted = frame :: w.accepted)
    (harrivals : w'.arrivals = w.arrivals ++ [⟨frame.offset.val, body, w.delivered.length⟩])
    (hdelivered : w'.delivered = w.delivered) (hends : w'.ends = w.ends) : w'.Faithful := by
  -- a buffer that takes the data in belongs to the new state
  suffices hdata : ∃ buf buf', w.Holds buf ∧ buf.recv frame.offset.val body = some (n, buf') ∧
      (w'.Holds buf' → w'.Delivers w'.recver) by
    obtain ⟨buf, buf', hb, hrecv, hdelivers⟩ := hdata
    have hb' : w'.Holds buf' := by
      unfold Holds
      rw [harrivals, hdelivered]
      exact hb.recv hrecv
    refine ⟨hagrees, ?_, hb'.known, ?_, hdelivers hb'⟩
    · rw [harrivals, haccepted, List.map_append, List.reverse_cons, List.map_append, hw.frames, List.map_singleton,
        List.map_singleton, hlen]
    · rw [harrivals, hdelivered]
      exact List.forall_mem_append.mpr ⟨hw.early, List.forall_mem_singleton.mpr le_rfl⟩
  have hdelivers := hw.delivers
  have hold := hw.agrees
  rcases Incoming.recvData_cases hlen h with
    ⟨e, he, -⟩ | ⟨hnot, -⟩ | ⟨r, m, buf, hs, -, -, hrecv, hres, hs'⟩ | ⟨r, m, buf, hs, -, hfinal, hrecv, hres, hs'⟩
  · cases he
  · rw [hacc] at hnot
    cases hnot
  · cases hres
    rw [hs] at hdelivers
    rw [hs']
    exact ⟨_, buf, hdelivers.1, hrecv, fun hb' => ⟨hb', hends.trans hdelivers.2⟩⟩
  · cases hres
    rw [hs']
    -- the final size was known before, or the frame gives it
    rcases hs with hs | ⟨r₀, hs, hfin, -, rfl⟩
    · rw [hs] at hdelivers hold
      refine ⟨_, buf, hdelivers.1, hrecv, fun hb' => ?_⟩
      exact delivers_settle hb' (hends.trans hdelivers.2.1) (hold.size.cons haccepted hfinal)
    · rw [hs] at hdelivers hold
      refine ⟨_, buf, hdelivers.1, hrecv, fun hb' => ?_⟩
      exact delivers_settle hb' (hends.trans hdelivers.2) (RecverHistory.finalSize_first hold.noFin haccepted hfin)

/-! ### Reading -/

def handed (w : ReaderWorld ε) (res : ReadResult ε) (room : Nat) : ReaderWorld ε :=
  { w with
    delivered := w.delivered ++ res.bytes
    ends := w.ends ++ if res.isEnd room then [w.delivered.length] else [] }

structure HandsOut (w : ReaderWorld ε) (res : ReadResult ε) (room : Nat) (s : ArcRecver ε) : Prop where
  known : ∀ i < (w.handed res room).delivered.length, (w.handed res room).delivered[i]? = firstCover w.arrivals i
  delivers : (w.handed res room).Delivers s

lemma HandsOut.nothing (hknown : ∀ i < w.delivered.length, w.delivered[i]? = firstCover w.arrivals i)
    (hs : w.Delivers s) (hbytes : res.bytes = []) (hend : res.isEnd room = false) : w.HandsOut res room s := by
  have hdelivered : (w.handed res room).delivered = w.delivered := by
    unfold handed
    rw [hbytes, List.append_nil]
  refine ⟨?_, hs.congr rfl hdelivered ?_ rfl⟩
  · rw [hdelivered]
    exact hknown
  · unfold handed
    rw [hend]
    exact List.append_nil _

lemma Holds.handed (hb : w.Holds buf) (room : Nat) (hr : buf.Reads res.bytes buf') : (w.handed res room).Holds buf' :=
  hb.read hr

/-- Before the stream is complete, a read out of a buffer with data hands out some if it has room. -/
lemma HandsOut.reading (hb : w.Holds buf) (hends : w.ends = []) {bytes : Bytes} (hr : buf.Reads bytes buf')
    (hne : 0 < room → bytes ≠ [])
    (hs : ∀ w' : ReaderWorld ε, w'.Holds buf' → w'.ends = [] → w'.accepted = w.accepted → w'.Delivers s) :
    w.HandsOut (.data bytes) room s := by
  have hbytes : buf.Reads (ReadResult.data bytes : ReadResult ε).bytes buf' := hr
  have hb' := hb.handed room hbytes
  refine ⟨hb'.known, hs _ hb' ?_ rfl⟩
  have hend : (ReadResult.data bytes : ReadResult ε).isEnd room = false := by
    by_cases hroom : 0 < room
    · have hempty : bytes.isEmpty = false := by simpa using hne hroom
      simp only [ReadResult.isEnd, hempty, Bool.false_and]
    · simp only [ReadResult.isEnd, hroom, decide_false, Bool.and_false]
  unfold ReaderWorld.handed
  rw [hend, hends]
  rfl

lemma HandsOut.complete (hs : w.Delivers (.ok (.dataRcvd r))) (hr : r.rcvbuf.Reads res.bytes buf')
    (hend : res.isEnd room = true → r.rcvbuf.available = 0) :
    w.HandsOut res room (.ok (.dataRcvd { r with rcvbuf := buf' })) := by
  obtain ⟨hb, hsize, hends⟩ := hs
  have hb' := hb.handed room hr
  have hnread : r.rcvbuf.nread = w.delivered.length := hb.nread_eq
  have hreach := r.rcvbuf.nread_add_available
  have hreach' := buf'.nread_add_available
  have hgrow := hr.nread
  have hsame := hr.reach
  refine ⟨hb'.known, hb', ?_, fun n hn => ?_⟩
  · change w.FinalSize buf'.reach
    rw [hsame]
    exact hsize
  · change n = buf'.reach ∧ buf'.nread = buf'.reach
    cases List.mem_append.mp hn with
    | inl hn =>
      obtain ⟨heq, hdone⟩ := hends n hn
      exact ⟨by omega, by omega⟩
    | inr hn =>
      split_ifs at hn with hflag
      · have hzero := hend hflag
        have heq := List.mem_singleton.mp hn
        exact ⟨by omega, by omega⟩
      · cases hn

lemma Delivers.allRead (hs : w.Delivers (.ok (.dataRcvd r))) (hread : r.rcvbuf.segments = []) :
    w.Delivers (.ok .dataRead) := by
  obtain ⟨hb, hsize, hends⟩ := hs
  have hdone : r.rcvbuf.reach = w.delivered.length := by
    unfold RecvBuf.reach
    rw [hread]
    exact hb.nread_eq
  exact ⟨hdone ▸ hsize, fun n hn => hdone ▸ (hends n hn).1⟩

lemma HandsOut.finished (hknown : ∀ i < w.delivered.length, w.delivered[i]? = firstCover w.arrivals i)
    (hs : w.Delivers (.ok .dataRead)) (hbytes : res.bytes = []) : w.HandsOut res room (.ok .dataRead) := by
  have hdelivered : (w.handed res room).delivered = w.delivered := by
    unfold handed
    rw [hbytes, List.append_nil]
  refine ⟨?_, ?_, fun n hn => ?_⟩
  · rw [hdelivered]
    exact hknown
  · rw [hdelivered]
    exact hs.1
  · rw [hdelivered]
    cases List.mem_append.mp hn with
    | inl hn => exact hs.2 n hn
    | inr hn =>
      split_ifs at hn
      · exact List.mem_singleton.mp hn
      · cases hn

lemma raiseWindow_rcvbuf (r : Recv) : r.raiseWindow.1.rcvbuf = r.rcvbuf := by
  rcases r.raiseWindow_cases with ⟨m, -, heq⟩ | heq
  · rw [heq]
  · rw [heq]

lemma HandsOut.of_read {s' : ArcRecver ε} {frame : Option MaxStreamDataFrame}
    (hknown : ∀ i < w.delivered.length, w.delivered[i]? = firstCover w.arrivals i) (hs : w.Delivers s)
    (hr : Reader.Read room s res s' frame) : w.HandsOut res room s' := by
  cases hr with
  | pending | refused => exact HandsOut.nothing hknown hs rfl rfl
  | recv hr =>
    obtain ⟨hreads, hne⟩ := hr hs.1.wf
    refine HandsOut.reading hs.1 hs.2 hreads hne fun w' hb' hends _ => ⟨?_, hends⟩
    rw [raiseWindow_rcvbuf]
    exact hb'
  | sizeKnown hr =>
    obtain ⟨hreads, hne⟩ := hr hs.1.wf
    refine HandsOut.reading hs.1 hs.2.1 hreads hne fun w' hb' hends _ => ⟨hb', hends, ?_⟩
    rw [hreads.reach]
    exact hs.2.2
  | dataRcvd buf hr ht =>
    obtain ⟨hreads, hend⟩ := hr hs.1.wf
    have hhands := HandsOut.complete hs hreads hend
    rcases ht with rfl | ⟨hnil, rfl⟩
    · exact hhands
    · exact ⟨hhands.known, hhands.delivers.allRead hnil⟩
  | dataRead hbytes => exact HandsOut.finished hknown hs hbytes
  | resetRcvd f =>
    have hread : w.Delivers (.ok (.resetRead (.ofFrame f))) := hs
    exact HandsOut.nothing hknown hread rfl rfl

/-! ### Runs -/

lemma Faithful.recvData (hw : w.Faithful) {frame : StreamFrame} (hlen : body.length = frame.length)
    (hstop : frame.range.stop ≤ varintMax) (hagrees : w'.recver.Agrees w'.toRecverHistory)
    (h : w.exec (.recvData frame body) = some w') : w'.Faithful := by
  obtain ⟨base, hbase, h⟩ := of_bind h
  obtain ⟨⟨res, t⟩, ht, hbase⟩ := of_bind hbase
  cases h
  -- without an arrival nothing changes
  have hsame : base.recver = w.recver → w.arrived (.recvData frame body) = [] → base.accepted = w.accepted →
      Faithful ⟨base, w.arrivals ++ w.arrived (.recvData frame body), w.delivered ++ w.deliveredBy (.recvData frame body),
        w.ends ++ w.endedBy (.recvData frame body)⟩ := by
    intro hrecver harrived haccepted
    have harrivals : w.arrivals ++ w.arrived (.recvData frame body) = w.arrivals := by rw [harrived, List.append_nil]
    refine hw.congr hagrees ?_ harrivals (List.append_nil _) haccepted
    exact hrecver.symm ▸ hw.delivers.congr harrivals (List.append_nil _) (List.append_nil _) haccepted
  cases res with
  | error e =>
    cases hbase
    rcases hw.agrees.recvData hlen hstop ht with ⟨_, -, heq⟩ | ⟨_, _, hok, -⟩
    · exact hsame heq (by simp only [arrived, ht]) rfl
    · cases hok
  | ok res =>
    cases hbase
    by_cases hacc : w.recver.accepting = true
    · refine hw.accept hlen hacc ht hagrees (if_pos hacc) ?_ (List.append_nil _) (List.append_nil _)
      simp only [arrived, ht, if_pos hacc]
    · cases ht.symm.trans (Incoming.recvData_ignored (Bool.eq_false_iff.mpr hacc))
      exact hsame rfl (by simp only [arrived, ht, if_neg hacc]) (if_neg hacc)

lemma Faithful.recvReset (hw : w.Faithful) (hagrees : w'.recver.Agrees w'.toRecverHistory)
    (h : w.exec (.recvReset frame) = some w') : w'.Faithful := by
  obtain ⟨base, hbase, h⟩ := of_bind h
  obtain ⟨⟨res, t⟩, ht, hbase⟩ := of_bind hbase
  cases h
  have hdelivers := hw.delivers
  have hold := hw.agrees
  rcases Incoming.recvReset_cases ht with ⟨e, rfl, rfl⟩ | ⟨e, hs⟩ | ⟨n, rfl, rfl, hs⟩
  · cases hbase
    refine hw.congr hagrees ?_ (List.append_nil _) (List.append_nil _) rfl
    exact hw.delivers.congr (List.append_nil _) (List.append_nil _) (List.append_nil _) rfl
  · rw [hs] at hold
    cases hold
  · cases hbase
    -- only a receiver that is still receiving takes a reset, and it has reported no end
    have hends : w.ends = [] := by
      rcases hs with ⟨r, hs, -⟩ | ⟨r, hs, -⟩
      · rw [hs] at hdelivers
        exact hdelivers.2
      · rw [hs] at hdelivers
        exact hdelivers.2.1
    exact hw.congr hagrees ((List.append_nil _).trans hends) (List.append_nil _) (List.append_nil _) rfl

lemma Faithful.handsOut (hw : w.Faithful) (hagrees : w'.recver.Agrees w'.toRecverHistory)
    (hhands : w.HandsOut res room w'.recver) (hdelivered : w'.delivered = (w.handed res room).delivered)
    (hends : w'.ends = (w.handed res room).ends) (harrivals : w'.arrivals = w.arrivals)
    (haccepted : w'.accepted = w.accepted) : w'.Faithful := by
  refine ⟨hagrees, ?_, ?_, fun a ha => ?_, hhands.delivers.congr harrivals hdelivered hends haccepted⟩
  · rw [harrivals, haccepted]
    exact hw.frames
  · rw [harrivals, hdelivered]
    exact hhands.known
  · have hle := hw.early a (harrivals ▸ ha)
    rw [hdelivered]
    change a.nread ≤ (w.delivered ++ res.bytes).length
    rw [List.length_append]
    omega

theorem Faithful.step (hw : w.Faithful) (hop : w.toRecverWorld.Issued op) (h : w.exec op = some w') : w'.Faithful := by
  have hagrees : w'.recver.Agrees w'.toRecverHistory := by
    obtain ⟨base, hbase, heq⟩ := of_bind h
    cases heq
    exact RecverWorld.agrees_step hw.agrees hop hbase
  cases op with
  | recvData frame body => exact hw.recvData hop.1 hop.2 hagrees h
  | recvReset frame => exact hw.recvReset hagrees h
  | pollRead room =>
    cases h
    exact hw.handsOut hagrees (.of_read hw.known hw.delivers (Reader.read_pollRead _ room)) rfl rfl (List.append_nil _) rfl
  | pollNext =>
    cases h
    exact hw.handsOut hagrees (.of_read hw.known hw.delivers (Reader.read_pollNext _)) rfl rfl (List.append_nil _) rfl

theorem faithful_of_reach {sid : StreamId} {bufSize : Nat} (hr : (readerSystem ε sid bufSize).Reach w) : w.Faithful := by
  apply hr.invariant (I := Faithful)
  · rintro s rfl
    refine ⟨RecverWorld.agrees_init rfl, rfl, fun i hi => ?_, fun a ha => ?_, ?_, rfl⟩
    · exact absurd hi (Nat.not_lt_zero i)
    · cases ha
    · exact ⟨RecvBuf.wf_empty, rfl, fun i hi => absurd hi (Nat.not_lt_zero i), fun i _ => rfl, rfl⟩
  · intro s op s' hs hop hexec
    exact hs.step hop hexec

def Received (w : ReaderWorld ε) (i : Nat) : Prop := ∃ a ∈ w.arrivals, a.offset ≤ i ∧ i < a.offset + a.data.length

lemma carried_of_firstCover {arrivals : List Arrival} {byte : UInt8} (h : firstCover arrivals i = some byte) :
    ∃ a ∈ arrivals, a.offset ≤ i ∧ a.data[i - a.offset]? = some byte := by
  obtain ⟨a, ha, hget⟩ := List.exists_of_findSome?_eq_some h
  split_ifs at hget
  unfold Chunk.get at hget
  split_ifs at hget with hle
  exact ⟨a, ha, hle, hget⟩

lemma received_of_firstCover (h : (firstCover w.arrivals i).isSome) : w.Received i := by
  obtain ⟨byte, hbyte⟩ := Option.isSome_iff_exists.mp h
  obtain ⟨a, ha, hle, hget⟩ := carried_of_firstCover hbyte
  have hlt := (List.getElem?_eq_some_iff.mp hget).1
  exact ⟨a, ha, hle, by omega⟩

lemma Faithful.firstCover_isSome (hw : w.Faithful) (hi : w.delivered.length ≤ i) (h : w.Received i) :
    (firstCover w.arrivals i).isSome := by
  obtain ⟨a, ha, hle, hlt⟩ := h
  apply List.findSome?_isSome_iff.mpr
  refine ⟨a, ha, ?_⟩
  rw [if_pos ((hw.early a ha).trans hi)]
  have hidx : i - a.offset < a.data.length := by omega
  change (if a.offset ≤ i then a.data[i - a.offset]? else none).isSome = true
  rw [if_pos hle, List.getElem?_eq_getElem hidx]
  rfl

lemma Faithful.received_lt_reach (hw : w.Faithful) (hb : w.Holds buf) (hi : i < buf.reach) : w.Received i := by
  apply received_of_firstCover
  by_cases hread : i < w.delivered.length
  · rw [← hw.known i hread, List.getElem?_eq_getElem hread]
    rfl
  · have hnread : buf.nread = w.delivered.length := hb.nread_eq
    have hstored : lookup buf.segments i = firstCover w.arrivals i := RecvWorld.Inv.stored hb i (by change buf.nread ≤ i; omega)
    rw [← hstored]
    exact hb.wf.lookup_reach.1 i (by change buf.nread ≤ i; omega) hi

/-- The stream is complete exactly when its final size is known and every byte below it was received. -/
lemma Faithful.complete_iff (hw : w.Faithful) :
    (∃ r, w.recver = .ok (.dataRcvd r)) ∨ w.recver = .ok .dataRead ↔
      w.reset = none ∧ ∃ f ∈ w.accepted, f.isFin = true ∧ ∀ i < f.range.stop, w.Received i := by
  have hagrees := hw.agrees
  have hdelivers := hw.delivers
  constructor
  · rintro (⟨r, hs⟩ | hs)
    · rw [hs] at hagrees hdelivers
      obtain ⟨f, hf, hfin, hstop⟩ := hdelivers.2.1.fixed
      refine ⟨hagrees.reset, f, hf, hfin, fun i hi => ?_⟩
      exact hw.received_lt_reach hdelivers.1 (hstop ▸ hi)
    · rw [hs] at hagrees hdelivers
      obtain ⟨f, hf, hfin, hstop⟩ := hdelivers.1.fixed
      refine ⟨hagrees.reset, f, hf, hfin, fun i hi => ?_⟩
      rw [hstop] at hi
      apply received_of_firstCover
      rw [← hw.known i hi, List.getElem?_eq_getElem hi]
      rfl
  · rintro ⟨hreset, f, hf, hfin, hall⟩
    generalize w.recver = s at hagrees hdelivers ⊢
    match s, hagrees, hdelivers with
    | .ok (.recv r), hr, _ =>
      rw [hr.noFin f hf] at hfin
      cases hfin
    | .ok (.sizeKnown r), hr, ⟨hb, _, hne⟩ =>
      -- nothing is missing below the final size, and so it would be complete
      have hstop := hr.size.unique f hf hfin
      have hle : r.rcvbuf.reach ≤ r.finalSize := hb.wf.reach_le.trans hr.bounded
      have hmissing := hall r.rcvbuf.reach (by omega)
      have hnread : r.rcvbuf.nread = w.delivered.length := hb.nread_eq
      have havail := r.rcvbuf.nread_add_available
      have hstored : lookup r.rcvbuf.segments r.rcvbuf.reach = firstCover w.arrivals r.rcvbuf.reach :=
        RecvWorld.Inv.stored hb _ (by change r.rcvbuf.nread ≤ _; omega)
      have hknown := hw.firstCover_isSome (by omega) hmissing
      rw [← hstored, hb.wf.lookup_reach.2] at hknown
      cases hknown
    | .ok (.dataRcvd r), _, _ => exact Or.inl ⟨r, rfl⟩
    | .ok .dataRead, _, _ => exact Or.inr rfl
    | .ok (.resetRcvd _), hf, _ | .ok (.resetRead _), ⟨_, _, hf⟩, _ => cases hf.1.symm.trans hreset

lemma Delivers.ends (hs : w.Delivers s) (hn : n ∈ w.ends) : n = w.delivered.length ∧ w.FinalSize n := by
  have hnone : w.ends ≠ [] := List.ne_nil_of_mem hn
  match s, hs with
  | .ok (.recv _), hs => exact absurd hs.2 hnone
  | .ok (.sizeKnown _), hs => exact absurd hs.2.1 hnone
  | .ok (.dataRcvd r), ⟨hb, hsize, hends⟩ =>
    obtain ⟨heq, hdone⟩ := hends n hn
    have hnread : r.rcvbuf.nread = w.delivered.length := hb.nread_eq
    exact ⟨by omega, heq ▸ hsize⟩
  | .ok .dataRead, hs =>
    have heq := hs.2 n hn
    exact ⟨heq, heq ▸ hs.1⟩
  | .ok (.resetRcvd _), hs | .ok (.resetRead _), hs => exact absurd hs hnone

lemma Faithful.recver_of_reset (hw : w.Faithful) (h : w.reset = some frame) :
    w.recver = .ok (.resetRcvd frame) ∨ w.recver = .ok (.resetRead (.ofFrame frame)) := by
  have hagrees := hw.agrees
  generalize w.recver = s at hagrees
  match s, hagrees with
  | .ok (.recv r), hr | .ok (.sizeKnown r), hr => cases hr.holds.reset.symm.trans h
  | .ok (.dataRcvd _), hc | .ok .dataRead, hc => cases hc.reset.symm.trans h
  | .ok (.resetRcvd f), hf =>
    cases hf.1.symm.trans h
    exact .inl rfl
  | .ok (.resetRead e), ⟨f, he, hf⟩ =>
    cases hf.1.symm.trans h
    exact .inr (by rw [he])

lemma Faithful.read_of_reset (hw : w.Faithful) (h : w.reset = some frame) :
    (∀ room, (Reader.pollRead w.recver room).1 = .error (.reset (.ofFrame frame))) ∧
      (Reader.pollNext w.recver).1 = .error (.reset (.ofFrame frame)) := by
  rcases hw.recver_of_reset h with hs | hs <;>
  · rw [hs]
    exact ⟨fun _ => rfl, rfl⟩

lemma Faithful.step_of_reset (hw : w.Faithful) (h : w.reset = some frame) (hexec : w.exec op = some w') :
    w'.reset = some frame ∧ w'.delivered = w.delivered ∧ w'.ends = w.ends := by
  obtain ⟨hread, hnext⟩ := hw.read_of_reset h
  cases op with
  | recvData f body =>
    have hacc : w.recver.accepting = false := by
      rcases hw.recver_of_reset h with hs | hs <;>
      · rw [hs]
        rfl
    have hignored : Incoming.recvData w.recver f body = some (.ok (false, 0), w.recver) := Incoming.recvData_ignored hacc
    obtain ⟨base, hbase, hexec⟩ := of_bind hexec
    cases hexec
    simp only [RecverWorld.exec, hignored, some_bind] at hbase
    cases hbase
    exact ⟨h, List.append_nil _, List.append_nil _⟩
  | recvReset f =>
    obtain ⟨base, hbase, -⟩ := of_bind hexec
    obtain ⟨res, hres, -⟩ := of_bind hbase
    rcases hw.recver_of_reset h with hs | hs <;>
    · rw [hs] at hres
      cases hres
  | pollRead room =>
    cases hexec
    refine ⟨h, ?_, ?_⟩
    · simp only [deliveredBy, hread room, ReadResult.bytes, List.append_nil]
    · simp only [endedBy, hread room, ReadResult.isEnd, Bool.false_eq_true, if_false, List.append_nil]
  | pollNext =>
    cases hexec
    refine ⟨h, ?_, ?_⟩
    · simp only [deliveredBy, hnext, ReadResult.bytes, List.append_nil]
    · simp only [endedBy, hnext, ReadResult.isEnd, Bool.false_eq_true, if_false, List.append_nil]

end ReaderWorld

/-- The reader gets a faithful and finite stream. Each byte delivered at an offset is that of the first accepted frame
that carried it: where the frames carry parts of one content, what was delivered is the beginning of that content. An
end of stream was reported only when the final size had been delivered, and nothing comes after it. The stream is
complete exactly when its final size is known and all bytes below it were received. After a reset each read returns its
error, and nothing more is delivered. -/
theorem readerSystem_faithful (ε : Type) (sid : StreamId) (bufSize : Nat) (w : ReaderWorld ε)
    (hr : (readerSystem ε sid bufSize).Reach w) :
    (w.arrivals.map fun a => (a.offset, a.data.length)) = (w.accepted.reverse.map fun f => (f.offset.val, f.length)) ∧
    (∀ i < w.delivered.length, w.delivered[i]? = firstCover w.arrivals i) ∧
    (∀ content : Nat → UInt8,
      (∀ a ∈ w.arrivals, ∀ j < a.data.length, a.data[j]? = some (content (a.offset + j))) →
        w.delivered = (List.range w.delivered.length).map content) ∧
    (∀ n ∈ w.ends, n = w.delivered.length ∧ w.FinalSize n) ∧
    ((∃ r, w.recver = .ok (.dataRcvd r)) ∨ w.recver = .ok .dataRead ↔
      w.reset = none ∧ ∃ f ∈ w.accepted, f.isFin = true ∧ ∀ i < f.range.stop, w.Received i) ∧
    ∀ frame, w.reset = some frame →
      (∀ room, (Reader.pollRead w.recver room).1 = .error (.reset (.ofFrame frame))) ∧
      (Reader.pollNext w.recver).1 = .error (.reset (.ofFrame frame)) ∧
      ∀ op w', (readerSystem ε sid bufSize).issued w op → w.exec op = some w' →
        w'.reset = some frame ∧ w'.delivered = w.delivered ∧ w'.ends = w.ends := by
  have hw := ReaderWorld.faithful_of_reach hr
  refine ⟨hw.frames, hw.known, fun content hcontent => ?_, fun n hn => hw.delivers.ends hn, hw.complete_iff, fun frame hreset => ?_⟩
  · apply List.ext_getElem?
    intro i
    by_cases hi : i < w.delivered.length
    · rw [List.getElem?_map, List.getElem?_range hi]
      have hbyte := hw.known i hi
      rw [List.getElem?_eq_getElem hi] at hbyte ⊢
      obtain ⟨a, ha, hle, hget⟩ := ReaderWorld.carried_of_firstCover hbyte.symm
      have hcarried := hcontent a ha (i - a.offset) (List.getElem?_eq_some_iff.mp hget).1
      have hidx : a.offset + (i - a.offset) = i := by omega
      rw [hget, hidx] at hcarried
      exact hcarried
    · rw [List.getElem?_eq_none (by omega), List.getElem?_eq_none (by rw [List.length_map, List.length_range]; omega)]
  · obtain ⟨hread, hnext⟩ := hw.read_of_reset hreset
    exact ⟨hread, hnext, fun op w' _ hexec => hw.step_of_reset hreset hexec⟩

/-- The end of a stream of three bytes arrives first. One byte is read before the stream is complete, the others afterwards
in two ways, and then its end is reported twice. -/
theorem readerSystem_faithful_three : ∃ w, (readerSystem Unit ⟨0, by decide⟩ 100).Reach w ∧ w.delivered = [1, 2, 3] ∧
    w.ends = [3, 3] ∧ w.recver = .ok .dataRead ∧ ∀ n ∈ w.ends, n = w.delivered.length ∧ w.FinalSize n := by
  have h₀ : (readerSystem Unit ⟨0, by decide⟩ 100).Reach _ := .start rfl
  have h₁ := h₀.step (e := RecverOp.recvData ⟨⟨0, by decide⟩, ⟨2, by decide⟩, 1, .explicit, true⟩ [3]) ⟨rfl, by decide⟩ rfl
  have h₂ := h₁.step (e := RecverOp.recvData ⟨⟨0, by decide⟩, ⟨0, by decide⟩, 1, .explicit, false⟩ [1]) ⟨rfl, by decide⟩ rfl
  have h₃ := h₂.step (e := RecverOp.pollRead 5) trivial rfl
  have h₄ := h₃.step (e := RecverOp.recvData ⟨⟨0, by decide⟩, ⟨0, by decide⟩, 2, .explicit, false⟩ [9, 2]) ⟨rfl, by decide⟩ rfl
  have h₅ := h₄.step (e := RecverOp.pollRead 1) trivial rfl
  have h₆ := h₅.step (e := RecverOp.pollNext) trivial rfl
  have h₇ := h₆.step (e := RecverOp.pollRead 1) trivial rfl
  have h₈ := h₇.step (e := RecverOp.pollNext) trivial rfl
  exact ⟨_, h₈, by decide, by decide, rfl, (readerSystem_faithful _ _ _ _ h₈).2.2.2.1⟩

end Dquic
