import Dquic.Recv.Accounting
import Dquic.Recv.Delivery
import Dquic.Send.Reset

/-!
# A stream from its writer to its reader

The sending and the receiving half of one stream, joined by a network that drops, duplicates and
reorders its frames. A window reaches the sender only after the receiver gave it.
-/

namespace Dquic

open Lib

inductive StreamPairOp (ε : Type)
  | send (op : SendingOp ε)
  | receive (op : RecverOp)

/-- Both halves, and every STREAM frame with its data as it was sent. -/
structure StreamPair (ε : Type) where
  snd : SendingWorld ε
  rcv : ReaderWorld ε
  wire : List (StreamFrame × Bytes)

namespace StreamPair

variable {ε : Type}

def Advertised (p : StreamPair ε) : SendingOp ε → Prop
  | .stream (.updateWindow maxStreamData) => maxStreamData ≤ p.rcv.advertised
  | _ => True

/-- The streams of a connection take a receiver that is complete or reset out of their map, and so it sees no reset. -/
def Issued (p : StreamPair ε) : StreamPairOp ε → Prop
  | .send op => p.snd.Issued op ∧ p.Advertised op
  | .receive (.recvData frame body) => (frame, body) ∈ p.wire
  | .receive (.recvReset frame) => frame.finalSize.val ∈ p.snd.resets ∧ p.rcv.recver.accepting = true
  | .receive _ => True

def dumped (p : StreamPair ε) : SendingOp ε → List (StreamFrame × Bytes)
  | .stream (.pollDump capacity credit budget) =>
    match Outgoing.pollDump p.snd.sender capacity credit budget with
    | some (.ok dump, _) => [(dump.frame, dump.data.flatten)]
    | _ => []
  | _ => []

def exec (p : StreamPair ε) : StreamPairOp ε → Option (StreamPair ε)
  | .send op => do
    let snd ← p.snd.exec op
    some { p with snd := snd, wire := p.wire ++ p.dumped op }
  | .receive op => do
    let rcv ← p.rcv.exec op
    some { p with rcv := rcv }

end StreamPair

/-- Both halves start with the window of the transport parameters. -/
def streamPairSystem (ε : Type) (sid : StreamId) (bufSize : Nat) : System (StreamPair ε) (StreamPairOp ε) where
  init p := p =
    ⟨⟨SenderWorld.opened sid bufSize, []⟩, ⟨⟨⟨[], none, 0, bufSize⟩, ArcRecver.new sid bufSize⟩, [], [], []⟩, []⟩
  issued := StreamPair.Issued
  exec := StreamPair.exec

variable {ε : Type} {sid : StreamId}

lemma claimedBy_le {l : List StreamFrame} {n : Nat} (h : ∀ f ∈ l, f.range.stop ≤ n) : claimedBy l ≤ n := by
  induction l with
  | nil => exact Nat.zero_le _
  | cons f l ih =>
    obtain ⟨hf, hl⟩ := List.forall_mem_cons.mp h
    exact max_le hf (ih hl)

/-! ### What the sending half only adds to -/

/-- What one call may add to the history of a stream. -/
structure SendingWorld.Grows (w : SendingWorld ε) (op : SendingOp ε) (w' : SendingWorld ε) : Prop where
  written : w'.written = w.written ∨ ∃ data t, op = .stream (.write data) ∧
    Writer.write w.sender data = some (.ok (), t) ∧ w'.written = w.written ++ data := by exact .inl rfl
  shutdown : w.shutdown = true → w'.shutdown = true := by exact id
  limit : w'.limit = w.limit ∨ ∃ n, op = .stream (.updateWindow n) ∧ w'.limit = max w.limit n := by exact .inl rfl
  issued : w.log.issued ⊆ w'.log.issued := by exact List.Subset.refl _

namespace SendingWorld

variable {w w' : SendingWorld ε} {op : SendingOp ε}

lemma exec_grows (he : w.exec op = some w') : w.Grows op w' := by
  cases op with
  | stream op =>
    obtain ⟨world, hworld, he⟩ := of_bind he
    cases he
    cases op with
    | write data =>
      obtain ⟨⟨res, t⟩, ht, he⟩ := of_bind hworld
      cases res <;> cases he
      · exact {}
      · exact { written := .inr ⟨data, t, rfl, ht, rfl⟩ }
    | shutdown =>
      obtain ⟨⟨res, t⟩, -, he⟩ := of_bind hworld
      cases he
      exact { shutdown := fun _ => rfl }
    | updateWindow n =>
      obtain ⟨t, -, he⟩ := of_bind hworld
      cases he
      exact { limit := .inr ⟨n, rfl, rfl⟩ }
    | pollDump capacity credit budget =>
      obtain ⟨⟨res, t⟩, -, he⟩ := of_bind hworld
      cases res <;> cases he
      · exact {}
      · exact { issued := List.subset_append_left _ _ }
    | onDataAcked | mayLossData =>
      obtain ⟨f, -, he⟩ := of_bind hworld
      obtain ⟨t, -, he⟩ := of_bind he
      cases he
      exact {}
  | cancel | beStopped | onResetAcked =>
    obtain ⟨res, -, he⟩ := of_bind he
    cases he
    exact {}
  | onError err =>
    cases he
    exact {}

/-- A stream takes data only while no frame ended it. -/
lemma Traced.not_fin (hw : w.Traced sid) {data : Bytes} {t : ArcSender ε}
    (ht : Writer.write w.sender data = some (.ok (), t)) {f : StreamFrame} (hf : f ∈ w.log.issued) : ¬f.isFin = true := by
  obtain ⟨⟨history, sender⟩, resets⟩ := w
  cases hw with
  | going hagrees hlimit hresets =>
    match sender, hagrees with
    | .ok (.ready s), ⟨hs, _⟩ | .ok (.sending s), hs => exact WritingSender.Agrees.not_fin hs hf
    | .ok (.dataSent s), _ | .ok .dataRcvd, _ => cases ht
  | reset sender' reset hsender hreset hresets hends =>
    cases hsender
    rcases hreset with rfl | rfl <;> cases ht
  | broken e hsender hresets =>
    cases hsender
    cases ht

lemma Traced.ends (hw : w.Traced sid) {n : Nat} (hn : n ∈ w.resets) : w.EndsAt n := by
  cases hw with
  | going _ _ hnil | broken _ _ hnil =>
    rw [hnil] at hn
    cases hn
  | reset sender reset _ _ hresets hends =>
    rw [hresets, List.mem_singleton] at hn
    exact hn ▸ hends

end SendingWorld

/-- A frame on the wire has the bytes of its range, inside the window, and ends the stream only where it was shut down. -/
structure SenderHistory.Carries (h : SenderHistory) (x : StreamFrame × Bytes) : Prop where
  mem : x.1 ∈ h.log.issued
  bytes : x.2 = (h.written.take x.1.range.stop).drop x.1.range.start
  length : x.2.length = x.1.length
  stop_le : x.1.range.stop ≤ h.written.length
  window : x.1.range.stop ≤ h.limit
  bounded : x.1.range.stop ≤ varintMax
  fin : x.1.isFin = true → h.shutdown = true ∧ x.1.range.stop = h.written.length

variable {h h' : SenderHistory} {x : StreamFrame × Bytes}

lemma SenderHistory.Carries.mono (hx : h.Carries x) (hissued : h.log.issued ⊆ h'.log.issued) {tail : Bytes}
    (hwritten : h'.written = h.written ++ tail) (hlimit : h.limit ≤ h'.limit)
    (hfin : x.1.isFin = true → h'.shutdown = true ∧ x.1.range.stop = h'.written.length) : h'.Carries x where
  mem := hissued hx.mem
  bytes := by rw [hwritten, List.take_append_of_le_length hx.stop_le, ← hx.bytes]
  length := hx.length
  stop_le := by
    rw [hwritten, List.length_append]
    exact hx.stop_le.trans (Nat.le_add_right _ _)
  window := hx.window.trans hlimit
  bounded := hx.bounded
  fin := hfin

lemma ArcSender.Agrees.dumps {s s' : ArcSender ε} (hs : s.Agrees sid h) (hlimit : claimedBy h.log.issued ≤ h.limit)
    {capacity credit budget : Nat} (hbudget : 0 < budget) {dump : Dump}
    (he : Outgoing.pollDump s capacity credit budget = some (.ok dump, s')) :
    SenderHistory.Carries { h with log := h.log.push dump.frame } (dump.frame, dump.data.flatten) := by
  have hclaimed := hs.claimed_le hlimit hbudget he
  rcases hs.pollDump_handedOut hbudget he with
    ⟨a, ha, -⟩ | ⟨d, p, b, b', hd, hs', htracked, hout, -, -, hcarries⟩
  · cases ha
  · cases hd
    have hmem : dump.frame ∈ (h.log.push dump.frame).issued := Ledger.mem_push.mpr (.inr rfl)
    have hstop := hout.sentIn.stop_le
    have hsent := hout.inv.wf.sent_le
    have hsize := hout.inv.size_eq
    have hlt := hout.inv.wf.size_lt
    rw [← hcarries.range] at hstop
    refine ⟨hmem, ?_, (htracked.paid hout hcarries).length, ?_, (le_claimedBy hmem).trans hclaimed, ?_, hs'.ends hmem⟩
    · rw [hcarries.data, hcarries.range]
      exact hout.bytes
    · change dump.frame.range.stop ≤ h.written.length
      omega
    · change dump.frame.range.stop ≤ varintMax
      unfold varintMax
      omega

lemma SendingWorld.Traced.dumps {w : SendingWorld ε} (hw : w.Traced sid) {capacity credit budget : Nat}
    (hbudget : 0 < budget) {dump : Dump} {t : ArcSender ε}
    (he : Outgoing.pollDump w.sender capacity credit budget = some (.ok dump, t)) :
    SenderHistory.Carries { w.toSenderHistory with log := w.log.push dump.frame } (dump.frame, dump.data.flatten) := by
  cases hw with
  | going hagrees hlimit hresets => exact hagrees.dumps hlimit hbudget he
  | reset sender reset hsender hreset hresets hends =>
    rw [hsender] at he
    rcases hreset with rfl | rfl <;> cases he
  | broken e hsender hresets =>
    rw [hsender] at he
    cases he

/-! ### The receiving half takes every frame -/

lemma SizeKnown.recv_ok {r : SizeKnown} {h : RecverHistory} (hb : h.Holds r.rcvbuf) {frame : StreamFrame} {body : Bytes}
    (hlen : body.length = frame.length) (hbound : frame.range.stop ≤ varintMax) (hle : frame.range.stop ≤ r.finalSize)
    (hfin : frame.isFin = true → frame.range.stop = r.finalSize) :
    ∃ n r', r.recv frame body = some (.ok n, r') := by
  have hend : frame.offset.val + body.length = frame.range.stop := congrArg _ hlen
  obtain ⟨buf, hrecv, -⟩ := hb.recv hlen hbound
  have hsame : ¬(frame.isFin = true ∧ frame.range.stop ≠ r.finalSize) := fun hne => hne.2 (hfin hne.1)
  unfold SizeKnown.recv
  simp only [hend, if_neg hle.not_gt, if_neg hsame, hrecv, some_bind]
  exact ⟨_, _, rfl⟩

lemma ReaderWorld.exec_base {w w' : ReaderWorld ε} {op : RecverOp} (he : w.exec op = some w') :
    w.toRecverWorld.exec op = some w'.toRecverWorld ∧ w'.arrivals = w.arrivals ++ w.arrived op := by
  obtain ⟨base, hbase, he⟩ := of_bind he
  cases he
  exact ⟨hbase, rfl⟩

namespace StreamPair

variable {p p' : StreamPair ε}

structure Sound (sid : StreamId) (p : StreamPair ε) : Prop where
  traced : p.snd.Traced sid
  faithful : p.rcv.Faithful
  wire : ∀ x ∈ p.wire, p.snd.Carries x
  window : p.snd.limit ≤ p.rcv.advertised
  accepted : ∀ f ∈ p.rcv.accepted, ∃ body, (f, body) ∈ p.wire
  arrivals : ∀ a ∈ p.rcv.arrivals, ∃ x ∈ p.wire, a.offset = x.1.offset.val ∧ a.data = x.2

lemma Sound.dumped (hp : p.Sound sid) {op : SendingOp ε} (hop : p.snd.Issued op) {snd : SendingWorld ε}
    (he : p.snd.exec op = some snd) : ∀ x ∈ p.dumped op, snd.Carries x := by
  intro x hx
  unfold StreamPair.dumped at hx
  split at hx
  · split at hx
    · rename_i hdump
      have hcarries := hp.traced.dumps hop hdump
      simp only [SendingWorld.exec, SenderWorld.exec, hdump, some_bind] at he
      cases he
      rw [List.mem_singleton] at hx
      exact hx ▸ hcarries
    · cases hx
  · cases hx

lemma Sound.send (hp : p.Sound sid) {op : SendingOp ε} (hop : p.Issued (.send op)) (he : p.exec (.send op) = some p') :
    p'.Sound sid := by
  obtain ⟨snd, hsnd, he⟩ := of_bind he
  cases he
  have hgrows := SendingWorld.exec_grows hsnd
  have hstays : ∀ x ∈ p.wire, snd.Carries x := by
    intro x hx
    have hcarries := hp.wire x hx
    have hlimit : p.snd.limit ≤ snd.limit := by
      rcases hgrows.limit with hsame | ⟨n, -, hmax⟩ <;> omega
    rcases hgrows.written with hsame | ⟨data, t, rfl, ht, hmore⟩
    · refine hcarries.mono hgrows.issued (hsame.trans (List.append_nil _).symm) hlimit fun hfin => ?_
      rw [hsame]
      exact ⟨hgrows.shutdown (hcarries.fin hfin).1, (hcarries.fin hfin).2⟩
    -- nothing is written behind a frame with the end of the stream
    · exact hcarries.mono hgrows.issued hmore hlimit fun hfin => absurd hfin (hp.traced.not_fin ht hcarries.mem)
  refine ⟨hp.traced.step hop.1 hsnd, hp.faithful, ?_, ?_, ?_, ?_⟩
  · exact List.forall_mem_append.mpr ⟨hstays, hp.dumped hop.1 hsnd⟩
  · have hwindow := hp.window
    rcases hgrows.limit with hsame | ⟨n, rfl, hmax⟩
    · exact hsame.trans_le hwindow
    · exact hmax.trans_le (max_le hwindow hop.2)
  · intro f hf
    obtain ⟨body, hbody⟩ := hp.accepted f hf
    exact ⟨body, List.mem_append_left _ hbody⟩
  · intro a ha
    obtain ⟨x, hx, hsame⟩ := hp.arrivals a ha
    exact ⟨x, List.mem_append_left _ hx, hsame⟩

lemma Sound.issued (hp : p.Sound sid) {f : StreamFrame} (hf : f ∈ p.rcv.accepted) : f ∈ p.snd.log.issued := by
  obtain ⟨body, hbody⟩ := hp.accepted f hf
  exact (hp.wire _ hbody).mem

lemma Sound.finalSize (hp : p.Sound sid) {f : StreamFrame} (hf : f ∈ p.rcv.accepted) (hfin : f.isFin = true) :
    p.snd.shutdown = true ∧ f.range.stop = p.snd.written.length := by
  obtain ⟨body, hbody⟩ := hp.accepted f hf
  exact (hp.wire _ hbody).fin hfin

lemma Sound.ended (hp : p.Sound sid) {n : Nat} (hn : p.rcv.FinalSize n) :
    p.snd.shutdown = true ∧ n = p.snd.written.length := by
  obtain ⟨f, hf, hfin, hstop⟩ := hn.fixed
  exact hstop ▸ hp.finalSize hf hfin

lemma Sound.agrees (hp : p.Sound sid) {s : ArcRecver ε} (hs : p.rcv.recver = s) : s.Agrees p.rcv.toRecverHistory :=
  hs ▸ hp.faithful.agrees

/-- No frame that was sent is refused, whenever it arrives. -/
lemma Sound.accepts (hp : p.Sound sid) (hx : x ∈ p.wire) :
    ∃ res t, Incoming.recvData p.rcv.recver x.1 x.2 = some (.ok res, t) := by
  have hcarries := hp.wire x hx
  have hend : x.1.offset.val + x.2.length = x.1.range.stop := congrArg _ hcarries.length
  match hs : p.rcv.recver with
  | .ok (.recv r) =>
    have hr : r.Agrees p.rcv.toRecverHistory := hp.agrees hs
    cases hfin : x.1.isFin with
    -- the window is not checked here, but everything accepted lies below the end
    | true =>
      have hlargest : r.rcvbuf.largestOffset ≤ x.1.range.stop := by
        rw [hr.holds.carried, (hcarries.fin hfin).2]
        apply (carriedBy_le_claimedBy _).trans
        apply claimedBy_le
        intro f hf
        obtain ⟨body, hbody⟩ := hp.accepted f hf
        exact (hp.wire _ hbody).stop_le
      obtain ⟨n, r', hrecv⟩ := SizeKnown.recv_ok (r := ⟨r.streamId, r.rcvbuf, r.stopState, x.1.range.stop⟩) hr.holds
        hcarries.length hcarries.bounded le_rfl fun _ => rfl
      simp only [Incoming.recvData, hfin, if_true, Recv.determinSize, if_neg hlargest.not_gt, hrecv, some_bind]
      exact ⟨_, _, rfl⟩
    | false =>
      have hwindow : x.1.range.stop ≤ r.maxStreamData := (hcarries.window.trans hp.window).trans_eq hr.window.symm
      obtain ⟨buf, hrecv, -⟩ := hr.holds.recv hcarries.length hcarries.bounded
      simp only [Incoming.recvData, hfin, Bool.false_eq_true, if_false, Recv.recv, hend, if_neg hwindow.not_gt, hrecv,
        some_bind]
      exact ⟨_, _, rfl⟩
  | .ok (.sizeKnown r) =>
    have hr : r.Agrees p.rcv.toRecverHistory := hp.agrees hs
    have hsize := (hp.ended hr.size).2.symm
    obtain ⟨n, r', hrecv⟩ := SizeKnown.recv_ok hr.holds hcarries.length hcarries.bounded
      (hcarries.stop_le.trans_eq hsize) fun hx => (hcarries.fin hx).2.trans hsize
    simp only [Incoming.recvData, hrecv, some_bind]
    exact ⟨_, _, rfl⟩
  | .ok (.dataRcvd _) | .ok .dataRead | .ok (.resetRcvd _) | .ok (.resetRead _) | .error _ => exact ⟨_, _, rfl⟩

/-- Nor is a reset refused, whichever frames overtook it. -/
lemma Sound.accepts_reset (hp : p.Sound sid) {frame : ResetStreamFrame} (hframe : frame.finalSize.val ∈ p.snd.resets)
    (hacc : p.rcv.recver.accepting = true) : ∃ n t, Incoming.recvReset p.rcv.recver frame = some (.ok n, t) := by
  have hends := hp.traced.ends hframe
  match hs : p.rcv.recver with
  | .ok (.recv r) =>
    have hr : r.Agrees p.rcv.toRecverHistory := hp.agrees hs
    have hlargest : r.largest ≤ frame.finalSize.val := by
      rw [hr.largest, hends.claimed]
      exact claimedBy_le fun f hf => le_claimedBy (hp.issued hf)
    simp only [Incoming.recvReset, Recv.recvReset, if_neg hlargest.not_gt]
    exact ⟨_, _, rfl⟩
  | .ok (.sizeKnown r) =>
    have hr : r.Agrees p.rcv.toRecverHistory := hp.agrees hs
    obtain ⟨f, hf, hfin, hstop⟩ := hr.size.fixed
    have hsame : ¬frame.finalSize.val ≠ r.finalSize := fun hne => hne ((hends.fin f (hp.issued hf) hfin).symm.trans hstop)
    simp only [Incoming.recvReset, SizeKnown.recvReset, if_neg hsame]
    exact ⟨_, _, rfl⟩
  | .ok (.dataRcvd _) | .ok .dataRead | .ok (.resetRcvd _) | .ok (.resetRead _) | .error _ =>
    rw [hs] at hacc
    cases hacc

lemma arrived_on_wire {op : RecverOp} (hop : p.Issued (.receive op)) {a : Arrival}
    (ha : a ∈ p.rcv.arrived op) : ∃ x ∈ p.wire, a.offset = x.1.offset.val ∧ a.data = x.2 := by
  unfold ReaderWorld.arrived at ha
  split at ha
  · split at ha
    · split at ha
      · rw [List.mem_singleton] at ha
        exact ⟨_, hop, by rw [ha], by rw [ha]⟩
      · cases ha
    · cases ha
  · cases ha

lemma Sound.receive (hp : p.Sound sid) {op : RecverOp} (hop : p.Issued (.receive op))
    (he : p.exec (.receive op) = some p') : p'.Sound sid := by
  obtain ⟨rcv, hrcv, he⟩ := of_bind he
  have hissued : p.rcv.toRecverWorld.Issued op := by
    cases op with
    | recvData frame body => exact ⟨(hp.wire _ hop).length, (hp.wire _ hop).bounded⟩
    | recvReset | pollRead | pollNext => trivial
  have hfaithful := hp.faithful.step hissued hrcv
  obtain ⟨hbase, harrivals⟩ := ReaderWorld.exec_base hrcv
  cases he
  obtain ⟨haccepted, -, hadv⟩ := RecverWorld.exec_cases hbase
  refine ⟨hp.traced, hfaithful, hp.wire, hp.window.trans hadv, ?_, ?_⟩
  · change ∀ f ∈ rcv.accepted, _
    rcases haccepted with hsame | ⟨frame, body, x, t, rfl, -, -, hnew⟩
    · exact hsame ▸ hp.accepted
    · exact hnew ▸ List.forall_mem_cons.mpr ⟨⟨body, hop⟩, hp.accepted⟩
  · exact harrivals ▸ List.forall_mem_append.mpr ⟨hp.arrivals, fun a ha => arrived_on_wire hop ha⟩

lemma sound_of_reach {bufSize : Nat} (hr : (streamPairSystem ε sid bufSize).Reach p) : p.Sound sid := by
  refine hr.invariant ?_ ?_
  · rintro p rfl
    have hsnd : (sendingSystem ε sid bufSize).Reach _ := .start rfl
    have hrcv : (readerSystem ε sid bufSize).Reach _ := .start rfl
    refine ⟨SendingWorld.traced_of_reach hsnd, ReaderWorld.faithful_of_reach hrcv, ?_, le_rfl, ?_, ?_⟩
    all_goals exact fun _ hmem => absurd hmem List.not_mem_nil
  · intro p op p' hp hop he
    cases op with
    | send op => exact hp.send hop he
    | receive op => exact hp.receive hop he

/-! ### What the reader gets -/

lemma Sound.delivered_prefix (hp : p.Sound sid) : p.rcv.delivered <+: p.snd.written := by
  apply List.prefix_iff_getElem?.mpr
  intro i hi
  have hbyte := hp.faithful.known i hi
  rw [List.getElem?_eq_getElem hi] at hbyte
  obtain ⟨a, ha, hle, hget⟩ := ReaderWorld.carried_of_firstCover hbyte.symm
  obtain ⟨x, hx, hoffset, hdata⟩ := hp.arrivals a ha
  have hcarries := hp.wire x hx
  have hstart : x.1.range.start = a.offset := hoffset.symm
  rw [hdata, hcarries.bytes, List.getElem?_drop, hstart, Nat.add_sub_cancel' hle] at hget
  rw [List.getElem?_take] at hget
  split_ifs at hget
  exact hget

end StreamPair

/-- Whatever the network does with its frames, and whenever the stream is reset, the receiving half refuses no frame of
the sending half. The reader gets the written bytes from their beginning. A stream that is complete has all of them, and
an end of stream is reported only after them, once the stream was shut down. -/
theorem streamPairSystem_transfers (ε : Type) (sid : StreamId) (bufSize : Nat) (p : StreamPair ε)
    (hr : (streamPairSystem ε sid bufSize).Reach p) :
    (∀ x ∈ p.wire, ∃ res t, Incoming.recvData p.rcv.recver x.1 x.2 = some (.ok res, t)) ∧
    (∀ frame, frame.finalSize.val ∈ p.snd.resets → p.rcv.recver.accepting = true →
      ∃ n t, Incoming.recvReset p.rcv.recver frame = some (.ok n, t)) ∧
    p.rcv.delivered <+: p.snd.written ∧
    (∀ r, p.rcv.recver = .ok (.dataRcvd r) →
      p.snd.shutdown = true ∧ r.rcvbuf.nread + r.rcvbuf.available = p.snd.written.length) ∧
    (p.rcv.ends ≠ [] → p.snd.shutdown = true ∧ p.rcv.delivered = p.snd.written) := by
  have hp := StreamPair.sound_of_reach hr
  have hprefix := hp.delivered_prefix
  refine ⟨fun x hx => hp.accepts hx, fun frame hframe hacc => hp.accepts_reset hframe hacc, hprefix, ?_, ?_⟩
  · intro r hs
    have hdelivers := hp.faithful.delivers
    rw [hs] at hdelivers
    rw [r.rcvbuf.nread_add_available]
    exact hp.ended hdelivers.2.1
  · intro hne
    obtain ⟨n, hn⟩ := List.exists_mem_of_ne_nil _ hne
    obtain ⟨hlen, hsize⟩ := hp.faithful.delivers.ends hn
    obtain ⟨hshut, hall⟩ := hp.ended hsize
    exact ⟨hshut, hprefix.eq_of_length (hlen.symm.trans hall)⟩

/-- Three bytes in two frames, of which the one with the end arrives first. -/
theorem streamPairSystem_transfers_run : ∃ p, (streamPairSystem Unit ⟨⟨0, by decide⟩⟩ 8).Reach p ∧
    p.snd.written = [1, 2, 3] ∧ p.rcv.ends = [3] ∧ p.rcv.delivered = p.snd.written := by
  have hpos : 0 < 4096 := by decide
  have h₀ : (streamPairSystem Unit ⟨⟨0, by decide⟩⟩ 8).Reach _ := .start rfl
  have h₁ := h₀.step (e := StreamPairOp.send (.stream (.write [1, 2, 3]))) ⟨trivial, trivial⟩ rfl
  have h₂ := h₁.step (e := StreamPairOp.send (.stream (.pollDump 100 1 4096))) ⟨hpos, trivial⟩ rfl
  have h₃ := h₂.step (e := StreamPairOp.send (.stream .shutdown)) ⟨trivial, trivial⟩ rfl
  have h₄ := h₃.step (e := StreamPairOp.send (.stream (.pollDump 100 2 4096))) ⟨hpos, trivial⟩ rfl
  have h₅ := h₄.step (e := StreamPairOp.receive (.recvData _ _)) (.tail _ (.head _)) rfl
  have h₆ := h₅.step (e := StreamPairOp.receive (.recvData _ _)) (.head _) rfl
  have h₇ := h₆.step (e := StreamPairOp.receive (.pollRead 5)) trivial rfl
  have h₈ := h₇.step (e := StreamPairOp.receive (.pollRead 5)) trivial rfl
  obtain ⟨-, -, -, -, hends⟩ := streamPairSystem_transfers _ _ _ _ h₈
  exact ⟨_, h₈, by decide, by decide, (hends (by decide)).2⟩

end Dquic
