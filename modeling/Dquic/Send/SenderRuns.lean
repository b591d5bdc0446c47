import Dquic.Lib.System
import Dquic.Send.Tracked

/-!
# Runs of a sending stream

A stream is written to, shut down, given more window, asked for frames, and told about the fate of
its frames in any order.
-/

namespace Dquic

open Lib

inductive StreamOp
  | write (data : Bytes)
  | shutdown
  | updateWindow (maxStreamData : Nat)
  | pollDump (capacity credit budget : Nat)
  | onDataAcked (frame : Nat)
  | mayLossData (frame : Nat)

/-- What happened to a stream: the bytes accepted from the application, whether `shutdown` was called, the
largest window given by the peer, and the frames produced with the reports about them. -/
structure SenderHistory where
  written : Bytes
  shutdown : Bool
  limit : Nat
  log : Ledger StreamFrame

structure SenderWorld (ε : Type) extends SenderHistory where
  sender : ArcSender ε

namespace SenderWorld

variable {ε : Type}

def opened (sid : StreamId) (bufSize : Nat) : SenderWorld ε :=
  ⟨⟨[], false, bufSize, Ledger.empty⟩, ArcSender.new sid bufSize⟩

/-- The budget that the scheduler of streams passes is never used up, and reports name frames that
were produced. -/
def Issued (w : SenderWorld ε) : StreamOp → Prop
  | .pollDump _ _ budget => 0 < budget
  | .onDataAcked j => j < w.log.issued.length
  | .mayLossData j => j < w.log.issued.length
  | _ => True

def exec (w : SenderWorld ε) : StreamOp → Option (SenderWorld ε)
  | .write data => do
    let (res, sender) ← Writer.write w.sender data
    match res with
    | .ok () => some { w with sender := sender, written := w.written ++ data }
    | .error _ => some { w with sender := sender }
  | .shutdown => do
    let (_, sender) ← Writer.pollShutdown w.sender
    some { w with sender := sender, shutdown := true }
  | .updateWindow maxStreamData => do
    let sender ← w.sender.updateWindow maxStreamData
    some { w with sender := sender, limit := max w.limit maxStreamData }
  | .pollDump capacity credit budget => do
    let (res, sender) ← Outgoing.pollDump w.sender capacity credit budget
    match res with
    | .ok dump => some { w with sender := sender, log := w.log.push dump.frame }
    | .error _ => some { w with sender := sender }
  | .onDataAcked j => do
    let frame ← w.log.issued[j]?
    let (_, sender) ← Outgoing.onDataAcked w.sender frame
    some { w with sender := sender, log := w.log.ack j }
  | .mayLossData j => do
    let frame ← w.log.issued[j]?
    let sender ← Outgoing.mayLossData w.sender frame
    some { w with sender := sender, log := w.log.lose j }

end SenderWorld

def senderSystem (ε : Type) (sid : StreamId) (bufSize : Nat) : System (SenderWorld ε) StreamOp where
  init w := w = SenderWorld.opened sid bufSize
  issued := SenderWorld.Issued
  exec := SenderWorld.exec

/-! ### The states of a sender -/

/-- Before the end of the stream was sent. -/
structure WritingSender.Agrees (s : WritingSender) (sid : StreamId) (h : SenderHistory) : Prop where
  tracked : Tracked s.sndbuf h.written h.log
  strict : s.sndbuf.state.Strict
  shutdown : s.shutdownWaker = h.shutdown
  limit : s.sndbuf.maxData = h.limit
  streamId : s.streamId = sid
  frames : ∀ f ∈ h.log.issued, f.isFin = false ∧ f.range.start < f.range.stop

structure DataSentSender.Agrees (s : DataSentSender) (sid : StreamId) (h : SenderHistory) : Prop where
  tracked : Tracked s.sndbuf h.written h.log
  shutdown : h.shutdown = true
  sent : s.sndbuf.sent = h.written.length
  streamId : s.streamId = sid
  ends : ∀ f ∈ h.log.issued, f.isFin = true → f.range.stop = h.written.length
  rcvd : s.finState = .rcvd ↔ ∃ f, h.log.Acked f ∧ f.isFin = true
  flighting : s.finState = .sent → ∃ f, h.log.Open f ∧ f.isFin = true
  unfinished : s.isAllRcvd = false

structure SenderHistory.Finished (h : SenderHistory) : Prop where
  wf : h.log.Wf
  shutdown : h.shutdown = true
  ends : ∀ f ∈ h.log.issued, f.isFin = true → f.range.stop = h.written.length
  covered : ∀ i < h.written.length, ∃ f, h.log.Acked f ∧ f.range.Mem i
  fin : ∃ f, h.log.Acked f ∧ f.isFin = true

/-- The state of a sender agrees with what happened to the stream. -/
def ArcSender.Agrees {ε : Type} (sid : StreamId) (h : SenderHistory) : ArcSender ε → Prop
  | .ok (.ready s) => s.Agrees sid h ∧ h.log.issued = []
  | .ok (.sending s) => s.Agrees sid h
  | .ok (.dataSent s) => s.Agrees sid h
  | .ok .dataRcvd => h.Finished
  | _ => False

variable {ε : Type} {sid : StreamId} {h : SenderHistory}

variable {f : StreamFrame} {j : Nat}

namespace WritingSender

variable {s s' : WritingSender}

lemma Agrees.nonempty (hs : s.Agrees sid h) : ∀ f ∈ h.log.issued, f.range.start < f.range.stop :=
  fun f hf => (hs.frames f hf).2

lemma Agrees.not_fin (hs : s.Agrees sid h) (hf : f ∈ h.log.issued) : f.isFin ≠ true := by
  rw [(hs.frames f hf).1]
  exact Bool.false_ne_true

lemma Agrees.write (hs : s.Agrees sid h) {data : Bytes} {res : Except (StreamError ε) Unit}
    (he : s.write data = some (res, s')) :
    (∃ e, res = .error e ∧ s' = s) ∨ res = .ok () ∧ s'.Agrees sid { h with written := h.written ++ data } := by
  unfold WritingSender.write at he
  split at he
  · cases he
    exact .inl ⟨_, rfl, rfl⟩
  · obtain ⟨buf, hbuf, he⟩ := of_bind he
    cases he
    refine .inr ⟨rfl, ?_⟩
    have hroom : data ≠ [] → min (h.written.length + data.length) s.sndbuf.maxData < 2 ^ 62 := by
      intro hd
      by_contra hover
      rw [hs.tracked.inv.write_eq_none hd (by omega)] at hbuf
      cases hbuf
    obtain ⟨b, hb, hinv, hmax, hext⟩ := hs.tracked.inv.write_step hs.strict data hroom
    obtain rfl := Option.some.inj (hb.symm.trans hbuf)
    exact
      { hs with
        tracked := hs.tracked.extended hinv hext hs.nonempty
        strict := hext.strict hs.strict
        limit := hmax.trans hs.limit }

lemma Agrees.updateWindow (hs : s.Agrees sid h) {maxStreamData : Nat}
    (he : s.updateWindow maxStreamData = some s') : s'.Agrees sid { h with limit := max h.limit maxStreamData } := by
  have hlimit := hs.limit
  unfold WritingSender.updateWindow at he
  split at he
  · rename_i hlt
    obtain ⟨buf, hbuf, he⟩ := of_bind he
    cases he
    have hroom : min h.written.length maxStreamData < 2 ^ 62 := by
      by_contra hover
      rw [hs.tracked.inv.extend_eq_none (by omega)] at hbuf
      cases hbuf
    obtain ⟨b, hb, hinv, hmax, hext⟩ := hs.tracked.inv.extend_step hs.strict hlt.le hroom
    obtain rfl := Option.some.inj (hb.symm.trans hbuf)
    exact
      { hs with
        tracked := hs.tracked.extended hinv hext hs.nonempty
        strict := hext.strict hs.strict
        limit := by
          change b.maxData = max h.limit maxStreamData
          omega }
  · cases he
    refine { hs with limit := ?_ }
    change s.sndbuf.maxData = max h.limit maxStreamData
    omega

lemma Agrees.pollShutdown (hs : s.Agrees sid h) : s.pollShutdown.Agrees sid { h with shutdown := true } :=
  { hs with shutdown := rfl }

lemma Agrees.onDataAcked (hs : s.Agrees sid h) (hj : h.log.issued[j]? = some f) (he : s.onDataAcked f = some s') :
    s'.Agrees sid { h with log := h.log.ack j } := by
  obtain ⟨buf, hbuf, he⟩ := of_bind he
  cases he
  have hsent := hs.tracked.sentIn f (List.mem_of_getElem? hj)
  obtain ⟨b, hb, hinv, hmax, hpaint⟩ := hs.tracked.inv.onDataAcked_step hsent
  obtain rfl := Option.some.inj (hb.symm.trans hbuf)
  have hlt := hsent.start_lt_size hs.tracked.inv.wf (hs.nonempty f (List.mem_of_getElem? hj))
  exact
    { hs with
      tracked := hs.tracked.acked hj hinv hpaint
      strict := hpaint.strict hs.strict hlt
      limit := hmax.trans hs.limit }

lemma Agrees.mayLossData (hs : s.Agrees sid h) (hj : h.log.issued[j]? = some f) (he : s.mayLossData f = some s') :
    s'.Agrees sid { h with log := h.log.lose j } := by
  obtain ⟨buf, hbuf, he⟩ := of_bind he
  cases he
  have hsent := hs.tracked.sentIn f (List.mem_of_getElem? hj)
  obtain ⟨b, hb, hinv, hmax, hpaint⟩ := hs.tracked.inv.mayLossData_step hsent
  obtain rfl := Option.some.inj (hb.symm.trans hbuf)
  have hlt := hsent.start_lt_size hs.tracked.inv.wf (hs.nonempty f (List.mem_of_getElem? hj))
  exact
    { hs with
      tracked := hs.tracked.lost hj hinv hpaint
      strict := hpaint.strict hs.strict hlt
      limit := hmax.trans hs.limit }

lemma totalSize_eq (s : WritingSender) {n : Nat} : s.totalSize = some n ↔ s.shutdownWaker = true ∧ s.sndbuf.written = n := by
  unfold totalSize
  cases s.shutdownWaker <;> simp

lemma Agrees.handedOut (hs : s.Agrees sid h) {buf : SendBuf} {p : StreamData}
    (hout : s.sndbuf.HandedOut buf h.written p) (heos : p.isEos = true ↔ some p.range.stop = s.totalSize)
    (hrange : f.range = p.range) (hfin : f.isFin = p.isEos) :
    ArcSender.Agrees sid { h with log := h.log.push f }
      (.ok (Outgoing.finishing { s with sndbuf := buf } (.ok p)) : ArcSender ε) := by
  have htracked := hs.tracked.handedOut hout hrange
  have hold : ¬∃ g, h.log.Acked g ∧ g.isFin = true := by
    rintro ⟨g, hg, hgfin⟩
    exact hs.not_fin hg.mem hgfin
  cases hend : p.isEos with
  | false =>
    simp only [Outgoing.finishing, hend, Bool.false_eq_true, if_false]
    refine ⟨htracked, (hout.strict hs.strict).1, hs.shutdown, hout.maxData_eq.trans hs.limit, hs.streamId, ?_⟩
    intro g hg
    cases Ledger.mem_push.mp hg with
    | inl hg => exact hs.frames g hg
    | inr hg =>
      subst hg
      refine ⟨hfin.trans hend, ?_⟩
      rw [hrange]
      have hne := (hout.strict hs.strict).2
      rw [hend] at hne
      simpa using hne
  | true =>
    obtain ⟨hwaker, hwritten⟩ := s.totalSize_eq.mp (heos.mp hend).symm
    rw [hs.tracked.inv.written_eq] at hwritten
    have hsent : buf.sent = h.written.length := by
      have hstop := hout.sentIn.stop_le
      have hle := hout.inv.wf.sent_le
      have hsize := hout.inv.size_eq
      change buf.state.sent = h.written.length
      omega
    simp only [Outgoing.finishing, hend, if_true]
    refine ⟨htracked, hs.shutdown ▸ hwaker, hsent, hs.streamId, ?_, ?_, ?_, ?_⟩
    · intro g hg hgfin
      cases Ledger.mem_push.mp hg with
      | inl hg => exact absurd hgfin (hs.not_fin hg)
      | inr hg => rw [hg, hrange, hwritten]
    · simp only [hs.tracked.wf.acked_push]
      exact ⟨nofun, fun hacked => absurd hacked hold⟩
    · exact fun _ => ⟨f, hs.tracked.wf.open_push, hfin.trans hend⟩
    · simp [DataSentSender.isAllRcvd, upgrade]

end WritingSender

namespace DataSentSender

variable {s s' : DataSentSender}

lemma isAllRcvd_eq_true : s.isAllRcvd = true ↔ s.sndbuf.isAllRcvd = true ∧ s.finState = .rcvd := by
  simp [isAllRcvd]

lemma Agrees.size_eq (hs : s.Agrees sid h) :
    s.sndbuf.state.size = h.written.length ∧ h.written.length ≤ s.sndbuf.maxData := by
  have hsent := hs.sent
  have hle := hs.tracked.inv.wf.sent_le
  have hsize := hs.tracked.inv.size_eq
  change s.sndbuf.state.sent = _ at hsent
  omega

lemma Agrees.isAllRcvd_iff (hs : s.Agrees sid h) :
    s.sndbuf.isAllRcvd = true ↔ ∀ i < h.written.length, ∃ f, h.log.Acked f ∧ f.range.Mem i := by
  obtain ⟨hsize, hmax⟩ := hs.size_eq
  rw [hs.tracked.inv.isAllRcvd_iff]
  constructor
  · rintro ⟨-, hall⟩ i hi
    exact (hs.tracked.recved i (by omega)).mp (hall i hi)
  · exact fun hall => ⟨hmax, fun i hi => (hs.tracked.recved i (by omega)).mpr (hall i hi)⟩

lemma Agrees.handedOut (hs : s.Agrees sid h) {buf : SendBuf} {p : StreamData} {fin : FinState}
    (hout : s.sndbuf.HandedOut buf h.written p) (heos : p.isEos = true ↔ p.range.stop = h.written.length)
    (hstate : fin = s.finState ∨ s.finState = .lost ∧ fin = .sent ∧ p.isEos = true) (hrange : f.range = p.range)
    (hfin : f.isFin = p.isEos) :
    Agrees { s with sndbuf := buf, finState := fin } sid { h with log := h.log.push f } where
  tracked := hs.tracked.handedOut hout hrange
  shutdown := hs.shutdown
  sent := by
    have hge := hout.sent_le
    have hle := hout.inv.wf.sent_le
    have hsize := hout.inv.size_eq
    have hsent := hs.sent
    change buf.sent = h.written.length
    change buf.sent ≤ buf.state.size at hle
    omega
  streamId := hs.streamId
  ends g hg hgfin := by
    cases Ledger.mem_push.mp hg with
    | inl hg => exact hs.ends g hg hgfin
    | inr hg =>
      subst hg
      rw [hrange]
      exact heos.mp (hfin ▸ hgfin)
  rcvd := by
    simp only [hs.tracked.wf.acked_push]
    rw [← hs.rcvd]
    rcases hstate with rfl | ⟨hlost, rfl, -⟩
    · rfl
    · simp [hlost]
  flighting hsent := by
    rcases hstate with rfl | ⟨-, -, hend⟩
    · obtain ⟨g, hg, hgfin⟩ := hs.flighting hsent
      exact ⟨g, hg.push, hgfin⟩
    · exact ⟨f, hs.tracked.wf.open_push, hfin.trans hend⟩
  unfinished := by
    rw [Bool.eq_false_iff]
    intro hall
    obtain ⟨hbuf, hfinState⟩ := isAllRcvd_eq_true.mp hall
    obtain ⟨hmax, hcolor⟩ := hout.inv.isAllRcvd_iff.mp hbuf
    obtain ⟨hsize, -⟩ := hs.size_eq
    have hold : s.sndbuf.isAllRcvd = true := by
      rw [hs.tracked.inv.isAllRcvd_iff]
      refine ⟨hout.maxData_eq ▸ hmax, fun i hi => ?_⟩
      have hi' := hcolor i hi
      rw [hout.color i (by omega)] at hi'
      split at hi'
      · cases hi'
      · exact hi'
    have hrcvd : s.finState = .rcvd := by
      rcases hstate with rfl | ⟨-, rfl, -⟩
      · exact hfinState
      · cases hfinState
    exact absurd (isAllRcvd_eq_true.mpr ⟨hold, hrcvd⟩) (by simp [hs.unfinished])

lemma Agrees.onDataAcked (hs : s.Agrees sid h) (hj : h.log.issued[j]? = some f) (he : s.onDataAcked f = some s') :
    if s'.isAllRcvd then SenderHistory.Finished { h with log := h.log.ack j }
    else s'.Agrees sid { h with log := h.log.ack j } := by
  obtain ⟨buf, hbuf, he⟩ := of_bind he
  have hsent := hs.tracked.sentIn f (List.mem_of_getElem? hj)
  obtain ⟨b, hb, hinv, hmax, hpaint⟩ := hs.tracked.inv.onDataAcked_step hsent
  obtain rfl := Option.some.inj (hb.symm.trans hbuf)
  have htracked := hs.tracked.acked hj hinv hpaint
  obtain ⟨hsize, hmaxData⟩ := hs.size_eq
  have hfinState : s'.finState = if f.isFin then .rcvd else s.finState := by cases he; rfl
  have hsndbuf : s'.sndbuf = b := by cases he; rfl
  have hstreamId : s'.streamId = s.streamId := by cases he; rfl
  have hrcvd : s'.finState = .rcvd ↔ ∃ g, (h.log.ack j).Acked g ∧ g.isFin = true := by
    simp only [hfinState, Ledger.acked_ack hj, or_and_right, exists_or, exists_eq_left]
    rw [← hs.rcvd]
    cases f.isFin <;> simp
  cases hall : s'.isAllRcvd with
  | true =>
    obtain ⟨hdata, hfin⟩ := isAllRcvd_eq_true.mp hall
    rw [hsndbuf, hinv.isAllRcvd_iff] at hdata
    refine ⟨htracked.wf, hs.shutdown, hs.ends, fun i hi => ?_, hrcvd.mp hfin⟩
    have hlt : i < b.state.size := by
      rw [hpaint.size_eq, hsize]
      exact hi
    exact (htracked.recved i hlt).mp (hdata.2 i hi)
  | false =>
    refine ⟨hsndbuf ▸ htracked, hs.shutdown, ?_, hstreamId.trans hs.streamId, hs.ends, hrcvd, ?_, hall⟩
    · rw [hsndbuf]
      exact hpaint.sent_eq.trans hs.sent
    · intro hst
      rw [hfinState] at hst
      by_cases hf : f.isFin = true
      · rw [if_pos hf] at hst
        cases hst
      · rw [if_neg hf] at hst
        obtain ⟨g, hg, hgfin⟩ := hs.flighting hst
        exact ⟨g, hg.ack hj (fun hgf => hf (hgf ▸ hgfin)), hgfin⟩

lemma Agrees.mayLossData (hs : s.Agrees sid h) (hj : h.log.issued[j]? = some f) (he : s.mayLossData f = some s') :
    s'.Agrees sid { h with log := h.log.lose j } := by
  obtain ⟨buf, hbuf, he⟩ := of_bind he
  cases he
  have hsent := hs.tracked.sentIn f (List.mem_of_getElem? hj)
  obtain ⟨b, hb, hinv, hmax, hpaint⟩ := hs.tracked.inv.mayLossData_step hsent
  obtain rfl := Option.some.inj (hb.symm.trans hbuf)
  have htracked := hs.tracked.lost hj hinv hpaint
  obtain ⟨hsize, hmaxData⟩ := hs.size_eq
  set fin := if f.isFin && s.finState ≠ .rcvd then FinState.lost else s.finState with hfindef
  have hrcvd : fin = .rcvd ↔ s.finState = .rcvd := by
    cases hf : f.isFin <;> cases hst : s.finState <;> simp [hfindef, hf, hst]
  refine ⟨htracked, hs.shutdown, hpaint.sent_eq.trans hs.sent, hs.streamId, hs.ends, hrcvd.trans hs.rcvd, ?_, ?_⟩
  · intro hst
    change fin = .sent at hst
    have hboth : f.isFin = false ∧ s.finState = .sent := by
      cases hf : f.isFin <;> cases hs : s.finState <;> simp [hfindef, hf, hs] at hst ⊢
    obtain ⟨g, hg, hgfin⟩ := hs.flighting hboth.2
    refine ⟨g, hg.lose hj ?_, hgfin⟩
    rintro rfl
    rw [hboth.1] at hgfin
    cases hgfin
  · rw [Bool.eq_false_iff]
    intro hall
    obtain ⟨hdata, hfin⟩ := isAllRcvd_eq_true.mp hall
    have hold : s.sndbuf.isAllRcvd = true := by
      rw [hs.isAllRcvd_iff]
      intro i hi
      have hlt : i < b.state.size := by
        rw [hpaint.size_eq, hsize]
        exact hi
      exact (htracked.recved i hlt).mp ((hinv.isAllRcvd_iff.mp hdata).2 i hi)
    exact absurd (isAllRcvd_eq_true.mpr ⟨hold, hrcvd.mp hfin⟩) (by simp [hs.unfinished])

end DataSentSender

lemma SenderHistory.Finished.ack (hf : h.Finished) (hj : h.log.issued[j]? = some f) :
    SenderHistory.Finished { h with log := h.log.ack j } := by
  refine ⟨hf.wf.ack hj, hf.shutdown, hf.ends, fun i hi => ?_, ?_⟩
  · obtain ⟨g, hg, hmem⟩ := hf.covered i hi
    exact ⟨g, (Ledger.acked_ack hj).mpr (.inl hg), hmem⟩
  · obtain ⟨g, hg, hfin⟩ := hf.fin
    exact ⟨g, (Ledger.acked_ack hj).mpr (.inl hg), hfin⟩

lemma SenderHistory.Finished.lose (hf : h.Finished) (hj : h.log.issued[j]? = some f) :
    SenderHistory.Finished { h with log := h.log.lose j } :=
  ⟨hf.wf.lose hj, hf.shutdown, hf.ends, hf.covered, hf.fin⟩

namespace ArcSender

variable {s s' : ArcSender ε}

lemma Agrees.write (hs : Agrees sid h s) {data : Bytes} {res : Except (StreamError ε) Unit}
    (he : Writer.write s data = some (res, s')) :
    (∃ e, res = .error e ∧ Agrees sid h s') ∨
      res = .ok () ∧ Agrees sid { h with written := h.written ++ data } s' := by
  match s, hs with
  | .ok (.ready s), ⟨hs, hnil⟩ =>
    obtain ⟨⟨r, t⟩, ht, he⟩ := of_bind he
    cases he
    rcases hs.write ht with ⟨e, rfl, rfl⟩ | ⟨rfl, hs'⟩
    · exact .inl ⟨e, rfl, hs, hnil⟩
    · exact .inr ⟨rfl, hs', hnil⟩
  | .ok (.sending s), hs =>
    obtain ⟨⟨r, t⟩, ht, he⟩ := of_bind he
    cases he
    rcases WritingSender.Agrees.write hs ht with ⟨e, rfl, rfl⟩ | ⟨rfl, hs'⟩
    · exact .inl ⟨e, rfl, hs⟩
    · exact .inr ⟨rfl, hs'⟩
  | .ok (.dataSent _), hs | .ok .dataRcvd, hs =>
    cases he
    exact .inl ⟨_, rfl, hs⟩

lemma Agrees.pollShutdown (hs : Agrees sid h s) {res : Option (Except (StreamError ε) Unit)}
    (he : Writer.pollShutdown s = some (res, s')) : Agrees sid { h with shutdown := true } s' := by
  match s, hs with
  | .ok (.ready s), ⟨hs, hnil⟩ =>
    cases he
    exact ⟨hs.pollShutdown, hnil⟩
  | .ok (.sending s), hs =>
    cases he
    exact WritingSender.Agrees.pollShutdown hs
  | .ok (.dataSent s), hs =>
    obtain ⟨t, ht, he⟩ := of_bind he
    cases he
    obtain ⟨-, -, ht⟩ := of_bind ht
    cases ht
    exact { (hs : s.Agrees sid h) with shutdown := rfl }
  | .ok .dataRcvd, hs =>
    cases he
    exact { (hs : h.Finished) with shutdown := rfl }

lemma Agrees.updateWindow (hs : Agrees sid h s) {maxStreamData : Nat}
    (he : s.updateWindow maxStreamData = some s') : Agrees sid { h with limit := max h.limit maxStreamData } s' := by
  obtain ⟨-, -, he⟩ := of_bind he
  match s, hs with
  | .ok (.ready s), ⟨hs, hnil⟩ =>
    obtain ⟨t, ht, he⟩ := of_bind he
    cases he
    exact ⟨hs.updateWindow ht, hnil⟩
  | .ok (.sending s), hs =>
    obtain ⟨t, ht, he⟩ := of_bind he
    cases he
    exact WritingSender.Agrees.updateWindow hs ht
  | .ok (.dataSent s), hs =>
    cases he
    exact { (hs : s.Agrees sid h) with }
  | .ok .dataRcvd, hs =>
    cases he
    exact { (hs : h.Finished) with }

variable {budget capacity credit : Nat}

/-- `poll_dump` writes what a buffer that agrees with the history hands out, inside its window or after all was
sent. -/
lemma Agrees.pollDump_handedOut (hs : Agrees sid h s) (hbudget : 0 < budget) {res : Except Poll Dump}
    (he : Outgoing.pollDump s capacity credit budget = some (res, s')) :
    (∃ a, res = .error a ∧ Agrees sid h s') ∨
      ∃ dump p b b', res = .ok dump ∧ Agrees sid { h with log := h.log.push dump.frame } s' ∧
        Tracked b h.written h.log ∧ b.HandedOut b' h.written p ∧
        (b.maxData = h.limit ∨ b.sent = h.written.length) ∧
        Outgoing.write sid capacity credit budget p = some dump ∧ Outgoing.Carries dump p credit := by
  match s, hs with
  -- asking a fresh stream first makes it a sending one
  | .ok (.ready t), ⟨ht, _⟩ | .ok (.sending t), ht =>
    have ht : t.Agrees sid h := ht
    rcases Outgoing.pollDump_sending ht.tracked.inv hbudget with
      ⟨a, ha, -⟩ | ⟨hnone, -⟩ | ⟨p, buf, dump, hdump, hout, heos, hwrite, hcarries⟩
    · cases ha.symm.trans he
      exact .inl ⟨a, rfl, ht⟩
    · cases hnone.symm.trans he
    · cases hdump.symm.trans he
      have hagrees := ht.handedOut (ε := ε) hout heos hcarries.range hcarries.fin
      exact .inr ⟨dump, p, _, buf, rfl, hagrees, ht.tracked, hout, .inl ht.limit, ht.streamId ▸ hwrite, hcarries⟩
  | .ok (.dataSent s), hs =>
    rcases Outgoing.pollDump_dataSent hs.tracked.inv hs.sent hbudget with
      ⟨a, ha, -⟩ | ⟨hnone, -⟩ | ⟨p, buf, fin, dump, hdump, hout, heos, hstate, hwrite, hcarries⟩
    · cases ha.symm.trans he
      exact .inl ⟨a, rfl, hs⟩
    · cases hnone.symm.trans he
    · cases hdump.symm.trans he
      have hagrees := DataSentSender.Agrees.handedOut hs hout heos hstate hcarries.range hcarries.fin
      exact .inr ⟨dump, p, _, buf, rfl, hagrees, hs.tracked, hout, .inr hs.sent, hs.streamId ▸ hwrite, hcarries⟩
  | .ok .dataRcvd, hs =>
    cases he
    exact .inl ⟨_, rfl, hs⟩

lemma Agrees.pollDump (hs : Agrees sid h s) (hbudget : 0 < budget) {res : Except Poll Dump}
    (he : Outgoing.pollDump s capacity credit budget = some (res, s')) :
    (∃ a, res = .error a ∧ Agrees sid h s') ∨
      ∃ dump, res = .ok dump ∧ Agrees sid { h with log := h.log.push dump.frame } s' ∧ dump.Paid h.log credit := by
  rcases hs.pollDump_handedOut hbudget he with herror | ⟨dump, p, b, b', hres, hs', htracked, hout, -, -, hcarries⟩
  · exact .inl herror
  · exact .inr ⟨dump, hres, hs', htracked.paid hout hcarries⟩

lemma Agrees.onDataAcked (hs : Agrees sid h s) {done : Bool} (hj : h.log.issued[j]? = some f)
    (he : Outgoing.onDataAcked s f = some (done, s')) : Agrees sid { h with log := h.log.ack j } s' := by
  match s, hs with
  | .ok (.ready s), _ => cases he
  | .ok (.sending s), hs =>
    obtain ⟨t, ht, he⟩ := of_bind he
    cases he
    exact WritingSender.Agrees.onDataAcked hs hj ht
  | .ok (.dataSent s), hs =>
    obtain ⟨t, ht, he⟩ := of_bind he
    have hstep := DataSentSender.Agrees.onDataAcked hs hj ht
    cases hall : t.isAllRcvd with
    | true =>
      simp only [hall, if_true] at he hstep
      cases he
      exact hstep
    | false =>
      simp only [hall, Bool.false_eq_true, if_false] at he hstep
      cases he
      exact hstep
  | .ok .dataRcvd, hs =>
    cases he
    exact SenderHistory.Finished.ack hs hj

lemma Agrees.mayLossData (hs : Agrees sid h s) (hj : h.log.issued[j]? = some f)
    (he : Outgoing.mayLossData s f = some s') : Agrees sid { h with log := h.log.lose j } s' := by
  match s, hs with
  | .ok (.ready s), _ => cases he
  | .ok (.sending s), hs =>
    obtain ⟨t, ht, he⟩ := of_bind he
    cases he
    exact WritingSender.Agrees.mayLossData hs hj ht
  | .ok (.dataSent s), hs =>
    obtain ⟨t, ht, he⟩ := of_bind he
    cases he
    exact DataSentSender.Agrees.mayLossData hs hj ht
  | .ok .dataRcvd, hs =>
    cases he
    exact SenderHistory.Finished.lose hs hj

/-- Once everything sent was reported, a stream that is not finished has something to send. -/
theorem Agrees.not_stuck (hs : Agrees sid h s) (hshut : h.shutdown = true) (hlimit : h.written.length ≤ h.limit)
    (hnot : s ≠ .ok .dataRcvd) (hsettled : h.log.Settled)
    (hroom : StreamFrame.estimateMaxCapacity capacity sid h.written.length ≠ none) (hcap : capacity < 2 ^ 63)
    (hcredit : 0 < credit) (hbudget : 0 < budget) :
    ∃ dump s', Outgoing.pollDump s capacity credit budget = some (.ok dump, s') := by
  have hpred : ∀ o ≤ h.written.length, Outgoing.predicate capacity budget sid o ≠ none := by
    intro o ho
    rw [Outgoing.predicate, ne_eq, Option.map_eq_none_iff]
    exact StreamFrame.estimateMaxCapacity_ne_none hroom ho
  match s, hs with
  | .ok (.ready t), ⟨ht, _⟩ | .ok (.sending t), ht =>
    have ht : t.Agrees sid h := ht
    have hsize : t.sndbuf.state.size = h.written.length := by
      rw [ht.tracked.inv.size_eq, ht.limit, min_eq_left hlimit]
    rcases Outgoing.pollDump_sending ht.tracked.inv hbudget with
      ⟨a, -, hexh, hend⟩ | ⟨-, hover⟩ | ⟨p, buf, dump, hdump, -⟩
    · rw [ht.streamId] at hexh hend
      have hsent : t.sndbuf.sent ≤ h.written.length := hsize ▸ ht.tracked.inv.wf.sent_le
      -- a byte that was never sent could be picked, and without one the end can be sent alone
      by_cases hall : t.sndbuf.sent = h.written.length
      · have htotal : t.totalSize = some t.sndbuf.sent := by
          rw [t.totalSize_eq, ht.shutdown, ht.tracked.inv.written_eq]
          exact ⟨hshut, hall.symm⟩
        exact absurd (hend htotal) (hpred _ hsent)
      · have hlt : t.sndbuf.state.sent < t.sndbuf.state.size := by
          change t.sndbuf.sent < _
          omega
        have hpending := BufMap.colorAt_sent hlt
        exact absurd hexh (ht.tracked.inv.not_exhausted hlt (.inr hpending) hcredit.ne' (fun o ho => hpred o (by omega)))
    · exact absurd hover (Outgoing.not_overflows ht.tracked.inv hcap)
    · exact ⟨dump, _, hdump⟩
  | .ok (.dataSent s), hs =>
    obtain ⟨hsize, hmax⟩ := DataSentSender.Agrees.size_eq hs
    rcases Outgoing.pollDump_dataSent hs.tracked.inv hs.sent hbudget with
      ⟨a, -, hexh, hend⟩ | ⟨-, hover⟩ | ⟨p, buf, fin, dump, hdump, -⟩
    · rw [hs.streamId] at hexh hend
      cases hfin : s.finState with
      | sent =>
        obtain ⟨f, hf, -⟩ := hs.flighting hfin
        exact absurd hf hsettled.not_open
      | lost => exact absurd (hend hfin) (hpred _ le_rfl)
      | rcvd =>
        have hmissing : ¬s.sndbuf.isAllRcvd = true := by
          intro hall
          have hdone := DataSentSender.isAllRcvd_eq_true.mpr ⟨hall, hfin⟩
          rw [hs.unfinished] at hdone
          cases hdone
        rw [hs.tracked.inv.isAllRcvd_iff] at hmissing
        push Not at hmissing
        obtain ⟨i, hi, hc⟩ := hmissing hmax
        have hlt : i < s.sndbuf.state.size := by omega
        have hcolor := hs.tracked.color_of_settled hsettled hlt hc
        exact absurd hexh (hs.tracked.inv.not_exhausted hlt hcolor hcredit.ne' (fun o ho => hpred o (by omega)))
    · exact absurd hover (Outgoing.not_overflows hs.tracked.inv hcap)
    · exact ⟨dump, _, hdump⟩
  | .ok .dataRcvd, _ => exact absurd rfl hnot

end ArcSender

namespace SenderWorld

variable {w : SenderWorld ε}

lemma agrees_step {w' : SenderWorld ε} (hw : w.sender.Agrees sid w.toSenderHistory) {op : StreamOp} (hop : w.Issued op)
    (he : w.exec op = some w') : w'.sender.Agrees sid w'.toSenderHistory := by
  cases op with
  | write data =>
    obtain ⟨⟨res, t⟩, ht, he⟩ := of_bind he
    rcases hw.write ht with ⟨e, rfl, hw'⟩ | ⟨rfl, hw'⟩
    · cases he
      exact hw'
    · cases he
      exact hw'
  | shutdown =>
    obtain ⟨⟨res, t⟩, ht, he⟩ := of_bind he
    cases he
    exact hw.pollShutdown ht
  | updateWindow maxStreamData =>
    obtain ⟨t, ht, he⟩ := of_bind he
    cases he
    exact hw.updateWindow ht
  | pollDump capacity credit budget =>
    obtain ⟨⟨res, t⟩, ht, he⟩ := of_bind he
    rcases hw.pollDump hop ht with ⟨a, rfl, hw'⟩ | ⟨dump, rfl, hw', -⟩
    · cases he
      exact hw'
    · cases he
      exact hw'
  | onDataAcked j =>
    obtain ⟨f, hf, he⟩ := of_bind he
    obtain ⟨⟨done, t⟩, ht, he⟩ := of_bind he
    cases he
    exact hw.onDataAcked hf ht
  | mayLossData j =>
    obtain ⟨f, hf, he⟩ := of_bind he
    obtain ⟨t, ht, he⟩ := of_bind he
    cases he
    exact hw.mayLossData hf ht

/-- Only a dump adds a frame, and no call lowers the limit. -/
lemma exec_issued {w' : SenderWorld ε} {op : StreamOp} (he : w.exec op = some w') :
    w'.log.issued = w.log.issued ∧ w.limit ≤ w'.limit ∨
      ∃ capacity credit budget dump, op = .pollDump capacity credit budget ∧
        Outgoing.pollDump w.sender capacity credit budget = some (.ok dump, w'.sender) ∧
        w'.log = w.log.push dump.frame ∧ w'.limit = w.limit := by
  cases op with
  | write data =>
    obtain ⟨⟨res, t⟩, -, he⟩ := of_bind he
    cases res <;> cases he <;> exact .inl ⟨rfl, le_rfl⟩
  | shutdown =>
    obtain ⟨⟨res, t⟩, -, he⟩ := of_bind he
    cases he
    exact .inl ⟨rfl, le_rfl⟩
  | updateWindow maxStreamData =>
    obtain ⟨t, -, he⟩ := of_bind he
    cases he
    exact .inl ⟨rfl, le_max_left _ _⟩
  | pollDump capacity credit budget =>
    obtain ⟨⟨res, t⟩, ht, he⟩ := of_bind he
    cases res with
    | ok dump =>
      cases he
      exact .inr ⟨capacity, credit, budget, dump, rfl, ht, rfl, rfl⟩
    | error _ =>
      cases he
      exact .inl ⟨rfl, le_rfl⟩
  | onDataAcked j =>
    obtain ⟨f, -, he⟩ := of_bind he
    obtain ⟨⟨done, t⟩, -, he⟩ := of_bind he
    cases he
    exact .inl ⟨rfl, le_rfl⟩
  | mayLossData j =>
    obtain ⟨f, -, he⟩ := of_bind he
    obtain ⟨t, -, he⟩ := of_bind he
    cases he
    exact .inl ⟨rfl, le_rfl⟩

lemma agrees_opened (sid : StreamId) (bufSize : Nat) :
    (opened sid bufSize : SenderWorld ε).sender.Agrees sid (opened sid bufSize : SenderWorld ε).toSenderHistory := by
  refine ⟨⟨⟨Ledger.wf_empty, SendBuf.inv_withCapacity bufSize, rfl, ?_, ?_, ?_⟩, ?_, rfl, rfl, rfl, ?_⟩, rfl⟩
  · exact fun f hf => absurd hf List.not_mem_nil
  · exact fun i hi => absurd hi (Nat.not_lt_zero i)
  · exact fun i hi => absurd hi (Nat.not_lt_zero i)
  · exact fun s hs => absurd hs List.not_mem_nil
  · exact fun f hf => absurd hf List.not_mem_nil

/-- The sender of every reachable state agrees with its history. -/
theorem agrees_of_reach {bufSize : Nat} (hr : (senderSystem ε sid bufSize).Reach w) :
    w.sender.Agrees sid w.toSenderHistory := by
  apply hr.invariant (I := fun w => w.sender.Agrees sid w.toSenderHistory)
  · rintro w rfl
    exact agrees_opened sid bufSize
  · intro w op w' hw hop he
    exact agrees_step hw hop he

end SenderWorld

lemma ArcSender.Agrees.ends {s : ArcSender ε} (hs : s.Agrees sid h) (hf : f ∈ h.log.issued) (hfin : f.isFin = true) :
    h.shutdown = true ∧ f.range.stop = h.written.length := by
  match s, hs with
  | .ok (.ready _), ⟨hs, _⟩ | .ok (.sending _), hs => exact absurd hfin (WritingSender.Agrees.not_fin hs hf)
  | .ok (.dataSent s), hs => exact ⟨hs.shutdown, DataSentSender.Agrees.ends hs f hf hfin⟩
  | .ok .dataRcvd, hs => exact ⟨hs.shutdown, SenderHistory.Finished.ends hs f hf hfin⟩

lemma ArcSender.Agrees.finished_iff {s : ArcSender ε} (hs : s.Agrees sid h) :
    s = .ok .dataRcvd ↔ h.shutdown = true ∧ (∀ i < h.written.length, ∃ f, h.log.Acked f ∧ f.range.Mem i) ∧
      ∃ f, h.log.Acked f ∧ f.isFin = true := by
  match s, hs with
  | .ok (.ready _), ⟨hs, _⟩ | .ok (.sending _), hs =>
    refine ⟨nofun, ?_⟩
    rintro ⟨-, -, f, hf, hfin⟩
    exact absurd hfin (WritingSender.Agrees.not_fin hs hf.mem)
  | .ok (.dataSent s), hs =>
    refine ⟨nofun, fun hall => ?_⟩
    have hdone : s.isAllRcvd = true := DataSentSender.isAllRcvd_eq_true.mpr
      ⟨(DataSentSender.Agrees.isAllRcvd_iff hs).mpr hall.2.1, hs.rcvd.mpr hall.2.2⟩
    rw [hs.unfinished] at hdone
    cases hdone
  | .ok .dataRcvd, hs => exact ⟨fun _ => ⟨hs.shutdown, hs.covered, hs.fin⟩, fun _ => rfl⟩

/-- In every run of a sending stream, the end of the stream is only set on frames that end where the written
bytes end, after `shutdown`. The stream is finished exactly when `shutdown` was called and every byte and the
end are in acknowledged frames. And once every frame was reported, a stream that is shut down, within its
window and not finished produces another frame, given room for one byte at the end of the stream. -/
theorem senderSystem_delivers (ε : Type) (sid : StreamId) (bufSize : Nat) (w : SenderWorld ε)
    (hr : (senderSystem ε sid bufSize).Reach w) :
    (∀ f ∈ w.log.issued, f.isFin = true → w.shutdown = true ∧ f.range.stop = w.written.length) ∧
    (w.sender = .ok .dataRcvd ↔ w.shutdown = true ∧
      (∀ i < w.written.length, ∃ f, w.log.Acked f ∧ f.range.Mem i) ∧ ∃ f, w.log.Acked f ∧ f.isFin = true) ∧
    (w.shutdown = true → w.written.length ≤ w.limit → w.sender ≠ .ok .dataRcvd → w.log.Settled →
      ∀ capacity credit budget, StreamFrame.estimateMaxCapacity capacity sid w.written.length ≠ none →
        capacity < 2 ^ 63 → 0 < credit → 0 < budget →
        ∃ dump sender, Outgoing.pollDump w.sender capacity credit budget = some (.ok dump, sender)) := by
  have hw := SenderWorld.agrees_of_reach hr
  refine ⟨fun f hf hfin => hw.ends hf hfin, hw.finished_iff, ?_⟩
  intro hshut hlimit hnot hsettled capacity credit budget hroom hcap hcredit hbudget
  exact hw.not_stuck hshut hlimit hnot hsettled hroom hcap hcredit hbudget

/-- Two bytes in two frames, of which the second, with the end of the stream, is lost: it is sent again. -/
theorem senderSystem_delivers_run : ∃ w, (senderSystem Unit ⟨⟨0, by decide⟩⟩ 8).Reach w ∧
    w.shutdown = true ∧ w.sender ≠ .ok .dataRcvd ∧
    ∃ dump sender, Outgoing.pollDump w.sender 100 1 4096 = some (.ok dump, sender) := by
  have hpos : 0 < 4096 := by decide
  have hfirst : 0 < 2 := by decide
  have hsecond : 1 < 2 := by decide
  have h₀ : (senderSystem Unit ⟨⟨0, by decide⟩⟩ 8).Reach _ := .start rfl
  have h₁ := h₀.step (e := StreamOp.write [1, 2]) trivial rfl
  have h₂ := h₁.step (e := StreamOp.pollDump 100 1 4096) hpos rfl
  have h₃ := h₂.step (e := StreamOp.shutdown) trivial rfl
  have h₄ := h₃.step (e := StreamOp.pollDump 100 1 4096) hpos rfl
  have h₅ := h₄.step (e := StreamOp.onDataAcked 0) hfirst rfl
  have h₆ := h₅.step (e := StreamOp.mayLossData 1) hsecond rfl
  have hsettled : ∀ j < 2, j ∈ [0] ∨ j ∈ [1] := by decide
  exact ⟨_, h₆, rfl, nofun, (senderSystem_delivers _ _ _ _ h₆).2.2 rfl (by decide) nofun hsettled 100 1 4096
    (by decide) (by decide) (by decide) hpos⟩

end Dquic
