import Dquic.Send.SenderRuns

/-!
# The final size of a stream that is reset

A stream is reset by the application or because the peer asked to stop. The RESET_STREAM frame
says how far the STREAM frames before it reached, and no STREAM frame follows it.
-/

namespace Dquic

open Lib

/-- `source`: the id of a sender that may have data. -/
def Sender.source : Sender → Option StreamId
  | .ready s => some s.streamId
  | .sending s => some s.streamId
  | .dataSent s => some s.streamId
  | _ => none

inductive SendingOp (ε : Type)
  | stream (op : StreamOp)
  | cancel (errCode : Nat)
  | beStopped (errorCode : Nat)
  | onResetAcked
  | onError (err : ε)

/-- A stream with the final sizes of the RESET_STREAM frames that were sent for it. -/
structure SendingWorld (ε : Type) extends SenderWorld ε where
  resets : List Nat

namespace SendingWorld

variable {ε : Type}

def Issued (w : SendingWorld ε) : SendingOp ε → Prop
  | .stream op => w.toSenderWorld.Issued op
  | _ => True

def exec (w : SendingWorld ε) : SendingOp ε → Option (SendingWorld ε)
  | .stream op => do
    let world ← w.toSenderWorld.exec op
    some { w with toSenderWorld := world }
  | .cancel errCode => do
    let (frame, sender) ← Writer.cancel w.sender errCode
    some { w with sender := sender, resets := w.resets ++ (frame.map fun f => f.finalSize.val).toList }
  | .beStopped errorCode => do
    let (finalSize, sender) ← Outgoing.beStopped w.sender errorCode
    some { w with sender := sender, resets := w.resets ++ finalSize.toList }
  | .onResetAcked => do
    let sender ← Outgoing.onResetAcked w.sender
    some { w with sender := sender }
  | .onError err => some { w with sender := Outgoing.onError w.sender err }

end SendingWorld

def sendingSystem (ε : Type) (sid : StreamId) (bufSize : Nat) : System (SendingWorld ε) (SendingOp ε) where
  init w := w = ⟨SenderWorld.opened sid bufSize, []⟩
  issued := SendingWorld.Issued
  exec := SendingWorld.exec

/-- The frames of a stream end here at most, inside the window, and a frame with the end of the stream exactly here. -/
structure SenderHistory.EndsAt (h : SenderHistory) (n : Nat) : Prop where
  claimed : n = claimedBy h.log.issued
  limit : n ≤ h.limit
  fin : ∀ f ∈ h.log.issued, f.isFin = true → f.range.stop = n

variable {ε : Type} {sid : StreamId} {h : SenderHistory}

variable {sender : Sender} {s : ArcSender ε} {op : StreamOp} {w w' : SenderWorld ε} {code : Nat}

lemma ArcSender.Agrees.sent_eq (hs : ArcSender.Agrees sid h (.ok sender : ArcSender ε))
    (hlimit : claimedBy h.log.issued ≤ h.limit) (hsource : sender.source ≠ none) :
    h.EndsAt (claimedBy h.log.issued) := by
  refine ⟨rfl, hlimit, ?_⟩
  intro f hf hfin
  match sender, hs, hsource with
  | .ready _, ⟨hs, _⟩, _ | .sending _, hs, _ => exact absurd hfin (WritingSender.Agrees.not_fin hs hf)
  | .dataSent s, hs, _ =>
    have hs : s.Agrees sid h := hs
    rw [hs.ends f hf hfin, ← hs.sent, hs.tracked.sent]
  | .dataRcvd, _, hsource => exact absurd rfl hsource

lemma ArcSender.Agrees.claimed_le {s' : ArcSender ε} (hs : s.Agrees sid h) (hlimit : claimedBy h.log.issued ≤ h.limit)
    {capacity credit budget : Nat} (hbudget : 0 < budget) {dump : Dump}
    (he : Outgoing.pollDump s capacity credit budget = some (.ok dump, s')) :
    claimedBy (h.log.push dump.frame).issued ≤ h.limit := by
  rw [claimedBy_push]
  apply max_le hlimit
  rcases hs.pollDump_handedOut hbudget he with
    ⟨a, ha, -⟩ | ⟨d, p, b, b', hd, -, htracked, hout, hwindow, -, hcarries⟩
  · cases ha
  · cases hd
    have hstop := hout.sentIn.stop_le
    have hsent := hout.inv.wf.sent_le
    have hsize := hout.inv.size_eq
    have hmax := hout.maxData_eq
    have hclaimed := htracked.sent
    rw [hcarries.range]
    omega

def Sender.IsReset (s : Sender) (reset : ResetStreamError) : Prop := s = .resetSent reset ∨ s = .resetRcvd reset

namespace SendingWorld

variable {w w' : SendingWorld ε}

/-- The stream is not reset, or was reset once with the right final size, or the connection is over. -/
inductive Traced (sid : StreamId) (w : SendingWorld ε) : Prop
  | going (agrees : w.sender.Agrees sid w.toSenderHistory) (limit : claimedBy w.log.issued ≤ w.limit)
      (resets : w.resets = [])
  | reset (sender : Sender) (reset : ResetStreamError) (hsender : w.sender = .ok sender) (isReset : sender.IsReset reset)
      (resets : w.resets = [reset.finalSize.val]) (ends : w.toSenderHistory.EndsAt reset.finalSize.val)
  | broken (e : ε) (hsender : w.sender = .error e) (resets : w.resets = [])

end SendingWorld

/-! ### Streams that are closed -/

/-- No more frames: the calls of a stream do not change the sender, and only its history. -/
lemma SenderWorld.exec_closed
    (hclosed : (∃ e, w.sender = .error e) ∨ ∃ sender reset, w.sender = .ok sender ∧ sender.IsReset reset)
    (he : w.exec op = some w') : w'.sender = w.sender ∧ w'.log.issued = w.log.issued ∧ w.limit ≤ w'.limit := by
  obtain ⟨history, sender⟩ := w
  have hcases : (∃ e, sender = .error e) ∨ (∃ reset, sender = .ok (.resetSent reset)) ∨
      ∃ reset, sender = .ok (.resetRcvd reset) := by
    rcases hclosed with ⟨e, he⟩ | ⟨s, reset, hs, rfl | rfl⟩
    · exact .inl ⟨e, he⟩
    · exact .inr (.inl ⟨reset, hs⟩)
    · exact .inr (.inr ⟨reset, hs⟩)
  cases op with
  | write | shutdown | pollDump =>
    rcases hcases with ⟨e, rfl⟩ | ⟨reset, rfl⟩ | ⟨reset, rfl⟩ <;>
    · cases he
      exact ⟨rfl, rfl, le_rfl⟩
  | updateWindow maxStreamData =>
    obtain ⟨t, ht, he⟩ := of_bind he
    obtain ⟨_, -, ht⟩ := of_bind ht
    cases he
    rcases hcases with ⟨e, rfl⟩ | ⟨reset, rfl⟩ | ⟨reset, rfl⟩ <;>
    · cases ht
      exact ⟨rfl, rfl, le_max_left _ _⟩
  | onDataAcked | mayLossData =>
    obtain ⟨f, -, he⟩ := of_bind he
    rcases hcases with ⟨e, rfl⟩ | ⟨reset, rfl⟩ | ⟨reset, rfl⟩ <;>
    · cases he
      exact ⟨rfl, rfl, le_rfl⟩

lemma SenderWorld.claimed_step (hw : w.sender.Agrees sid w.toSenderHistory) (hlimit : claimedBy w.log.issued ≤ w.limit)
    (hop : w.Issued op) (he : w.exec op = some w') : claimedBy w'.log.issued ≤ w'.limit := by
  rcases SenderWorld.exec_issued he with ⟨hissued, hle⟩ | ⟨capacity, credit, budget, dump, rfl, hdump, hlog, hsame⟩
  · rw [hissued]
    exact hlimit.trans hle
  · rw [hlog, hsame]
    exact hw.claimed_le hlimit hop hdump

/-! ### Resets -/

lemma Tracked.claimed_lt {buf : SendBuf} {written : Bytes} {log : Ledger StreamFrame} (h : Tracked buf written log) :
    claimedBy log.issued < 2 ^ 62 := by
  have hle := h.inv.wf.sent_le
  have hlt := h.inv.wf.size_lt
  have hsent : buf.state.sent = claimedBy log.issued := h.sent
  omega

/-- Both ways to reset a stream that is not closed give the end of its frames as the final size. -/
lemma ArcSender.Agrees.resets (hs : ArcSender.Agrees sid h (.ok sender : ArcSender ε))
    (hlimit : claimedBy h.log.issued ≤ h.limit) (hsource : sender.source ≠ none) (hcode : code < 2 ^ 62) :
    ∃ reset, Writer.cancel (.ok sender : ArcSender ε) code = some (some (reset.combine sid), .ok (.resetSent reset)) ∧
      Outgoing.beStopped (.ok sender : ArcSender ε) code =
        some (some reset.finalSize.val, .ok (.resetSent reset)) ∧
      h.EndsAt reset.finalSize.val := by
  have hends := hs.sent_eq hlimit hsource
  have happ := VarInt.fromU64_of_lt hcode
  have hresetAt : ∀ n (hn : n < 2 ^ 62), (Outgoing.resetAt code n : Option (Option Nat × ArcSender ε)) =
      some (some n, .ok (.resetSent ⟨⟨code, hcode⟩, ⟨n, hn⟩⟩)) := by
    intro n hn
    unfold Outgoing.resetAt
    rw [happ, VarInt.fromU64_of_lt hn]
    rfl
  have hwriting : ∀ t : WritingSender, t.Agrees sid h → ∀ hlt : claimedBy h.log.issued < 2 ^ 62,
      t.cancel code = some ⟨⟨code, hcode⟩, ⟨claimedBy h.log.issued, hlt⟩⟩ := by
    intro t ht hlt
    unfold WritingSender.cancel
    rw [happ, ht.tracked.sent, VarInt.fromU64_of_lt hlt]
    rfl
  match sender, hs, hsource with
  | .ready s, ⟨hs, hnil⟩, _ =>
    have hlt := hs.tracked.claimed_lt
    have hzero : s.sndbuf.sent = 0 := by
      rw [hs.tracked.sent, hnil]
      rfl
    refine ⟨⟨⟨code, hcode⟩, ⟨claimedBy h.log.issued, hlt⟩⟩, ?_, ?_, hends⟩
    · unfold Writer.cancel
      simp only [hwriting s hs hlt, some_bind, hs.streamId]
    · unfold Outgoing.beStopped WritingSender.beStoppedReady
      simp only [debugAssert_of hzero, some_bind]
      rw [hs.tracked.sent]
      exact hresetAt _ hlt
  | .sending s, hs, _ =>
    have hs : s.Agrees sid h := hs
    have hlt := hs.tracked.claimed_lt
    refine ⟨⟨⟨code, hcode⟩, ⟨claimedBy h.log.issued, hlt⟩⟩, ?_, ?_, hends⟩
    · unfold Writer.cancel
      simp only [hwriting s hs hlt, some_bind, hs.streamId]
    · unfold Outgoing.beStopped WritingSender.beStopped
      simp only [hs.tracked.sent]
      exact hresetAt _ hlt
  | .dataSent s, hs, _ =>
    have hs : s.Agrees sid h := hs
    have hlt := hs.tracked.claimed_lt
    -- all that was written was sent
    have hwritten : s.sndbuf.written = claimedBy h.log.issued := by
      rw [hs.tracked.inv.written_eq, ← hs.sent, hs.tracked.sent]
    refine ⟨⟨⟨code, hcode⟩, ⟨claimedBy h.log.issued, hlt⟩⟩, ?_, ?_, hends⟩
    · unfold Writer.cancel DataSentSender.cancel
      simp only [happ, hs.tracked.sent, VarInt.fromU64_of_lt hlt, some_bind, hs.streamId]
    · unfold Outgoing.beStopped DataSentSender.beStopped
      simp only [hwritten]
      exact hresetAt _ hlt
  | .dataRcvd, _, hsource => exact absurd rfl hsource

lemma ArcSender.resets_none (hsource : sender.source ≠ none) (hcode : ¬code < 2 ^ 62) :
    Writer.cancel (.ok sender : ArcSender ε) code = none ∧ Outgoing.beStopped (.ok sender : ArcSender ε) code = none := by
  have happ : VarInt.fromU64 code = none := dif_neg hcode
  have hresetAt : ∀ n, (Outgoing.resetAt code n : Option (Option Nat × ArcSender ε)) = none := by
    intro n
    unfold Outgoing.resetAt
    rw [happ]
    rfl
  cases sender with
  | ready s =>
    refine ⟨by simp [Writer.cancel, WritingSender.cancel, happ], ?_⟩
    unfold Outgoing.beStopped
    simp only [hresetAt, Option.bind_eq_bind, Option.bind_fun_none]
  | sending s => exact ⟨by simp [Writer.cancel, WritingSender.cancel, happ], hresetAt _⟩
  | dataSent s => exact ⟨by simp [Writer.cancel, DataSentSender.cancel, happ], hresetAt _⟩
  | dataRcvd | resetSent | resetRcvd => exact absurd rfl hsource

lemma ArcSender.not_reset (hs : ∀ sender, s = .ok sender → sender.source = none) (code : Nat) :
    Writer.cancel s code = some (none, s) ∧ Outgoing.beStopped s code = some (none, s) := by
  match s with
  | .error _ | .ok .dataRcvd | .ok (.resetSent _) | .ok (.resetRcvd _) => exact ⟨rfl, rfl⟩
  | .ok (.ready _) | .ok (.sending _) | .ok (.dataSent _) => cases hs _ rfl

namespace SendingWorld

variable {w w' : SendingWorld ε}

lemma exec_closed {op : SendingOp ε}
    (hclosed : (∃ e, w.sender = .error e) ∨ ∃ sender reset, w.sender = .ok sender ∧ sender.IsReset reset)
    (he : w.exec op = some w') :
    (w'.sender = w.sender ∨ ∃ reset, w.sender = .ok (.resetSent reset) ∧ w'.sender = .ok (.resetRcvd reset)) ∧
      w'.log.issued = w.log.issued ∧ w.limit ≤ w'.limit ∧ w'.resets = w.resets := by
  have hsource : ∀ sender, w.sender = .ok sender → sender.source = none := by
    intro sender hsender
    rcases hclosed with ⟨e, he⟩ | ⟨sender', reset, hs, hreset⟩
    · cases hsender.symm.trans he
    · cases hsender.symm.trans hs
      rcases hreset with rfl | rfl <;> rfl
  cases op with
  | stream op =>
    obtain ⟨world, hworld, he⟩ := of_bind he
    cases he
    obtain ⟨hsame, hissued, hle⟩ := SenderWorld.exec_closed hclosed hworld
    exact ⟨.inl hsame, hissued, hle, rfl⟩
  | cancel errCode =>
    obtain ⟨⟨frame, sender'⟩, hcancel, he⟩ := of_bind he
    cases he
    cases hcancel.symm.trans (ArcSender.not_reset hsource errCode).1
    exact ⟨.inl rfl, rfl, le_rfl, List.append_nil _⟩
  | beStopped errorCode =>
    obtain ⟨⟨finalSize, sender'⟩, hstopped, he⟩ := of_bind he
    cases he
    cases hstopped.symm.trans (ArcSender.not_reset hsource errorCode).2
    exact ⟨.inl rfl, rfl, le_rfl, List.append_nil _⟩
  | onResetAcked =>
    obtain ⟨sender', hacked, he⟩ := of_bind he
    cases he
    refine ⟨?_, rfl, le_rfl, rfl⟩
    rcases hclosed with ⟨e, hs⟩ | ⟨sender, reset, hs, rfl | rfl⟩ <;> rw [hs] at hacked <;> cases hacked
    · exact .inl hs.symm
    · exact .inr ⟨reset, hs, rfl⟩
    · exact .inl hs.symm
  | onError err =>
    cases he
    refine ⟨.inl ?_, rfl, le_rfl, rfl⟩
    change Outgoing.onError w.sender err = w.sender
    rcases hclosed with ⟨e, hs⟩ | ⟨sender, reset, hs, rfl | rfl⟩ <;> rw [hs] <;> rfl

/-- What a reset by the application and a reset by the peer do: nothing, a panic, or the same reset. -/
lemma reset_cases (hagrees : w.sender.Agrees sid w.toSenderHistory) (hlimit : claimedBy w.log.issued ≤ w.limit)
    (code : Nat) :
    (Writer.cancel w.sender code = some (none, w.sender) ∧ Outgoing.beStopped w.sender code = some (none, w.sender)) ∨
    (Writer.cancel w.sender code = none ∧ Outgoing.beStopped w.sender code = none) ∨
    ∃ reset, Writer.cancel w.sender code = some (some (reset.combine sid), .ok (.resetSent reset)) ∧
      Outgoing.beStopped w.sender code = some (some reset.finalSize.val, .ok (.resetSent reset)) ∧
      w.toSenderHistory.EndsAt reset.finalSize.val := by
  by_cases hclosed : ∀ sender, w.sender = .ok sender → sender.source = none
  · exact .inl (ArcSender.not_reset hclosed code)
  · push Not at hclosed
    obtain ⟨sender, hsender, hsource⟩ := hclosed
    right
    rw [hsender] at hagrees ⊢
    by_cases hcode : code < 2 ^ 62
    · obtain ⟨reset, hcancel, hstopped, hends⟩ := hagrees.resets hlimit hsource hcode
      exact .inr ⟨reset, hcancel, hstopped, hends⟩
    · exact .inl (ArcSender.resets_none hsource hcode)

lemma Traced.going_step (hagrees : w.sender.Agrees sid w.toSenderHistory) (hlimit : claimedBy w.log.issued ≤ w.limit)
    (hresets : w.resets = []) {op : SendingOp ε} (hop : w.Issued op) (he : w.exec op = some w') : w'.Traced sid := by
  cases op with
  | stream op =>
    obtain ⟨world, hworld, he⟩ := of_bind he
    cases he
    have hlimit' := SenderWorld.claimed_step hagrees hlimit hop hworld
    exact .going (SenderWorld.agrees_step hagrees hop hworld) hlimit' hresets
  | cancel errCode =>
    obtain ⟨⟨frame, sender'⟩, hcancel, he⟩ := of_bind he
    cases he
    rw [hresets]
    rcases reset_cases hagrees hlimit errCode with ⟨hnone, -⟩ | ⟨hpanic, -⟩ | ⟨reset, hreset, -, hends⟩
    · cases hcancel.symm.trans hnone
      exact .going hagrees hlimit rfl
    · cases hcancel.symm.trans hpanic
    · cases hcancel.symm.trans hreset
      exact .reset _ reset rfl (.inl rfl) rfl hends
  | beStopped errorCode =>
    obtain ⟨⟨finalSize, sender'⟩, hstopped, he⟩ := of_bind he
    cases he
    rw [hresets]
    rcases reset_cases hagrees hlimit errorCode with ⟨-, hnone⟩ | ⟨-, hpanic⟩ | ⟨reset, -, hreset, hends⟩
    · cases hstopped.symm.trans hnone
      exact .going hagrees hlimit rfl
    · cases hstopped.symm.trans hpanic
    · cases hstopped.symm.trans hreset
      exact .reset _ reset rfl (.inl rfl) rfl hends
  | onResetAcked =>
    -- no RESET_STREAM frame was sent
    obtain ⟨sender', hacked, -⟩ := of_bind he
    obtain ⟨⟨history, sender⟩, resets⟩ := w
    match sender, hagrees with
    | .ok (.ready _), _ | .ok (.sending _), _ | .ok (.dataSent _), _ | .ok .dataRcvd, _ => cases hacked
  | onError err =>
    cases he
    obtain ⟨⟨history, sender⟩, resets⟩ := w
    match sender, hagrees with
    | .ok (.ready _), _ | .ok (.sending _), _ | .ok (.dataSent _), _ => exact .broken err rfl hresets
    | .ok .dataRcvd, hagrees => exact .going hagrees hlimit hresets

lemma Traced.step (hw : w.Traced sid) {op : SendingOp ε} (hop : w.Issued op) (he : w.exec op = some w') :
    w'.Traced sid := by
  cases hw with
  | going hagrees hlimit hresets => exact Traced.going_step hagrees hlimit hresets hop he
  | reset sender reset hsender hreset hresets hends =>
    obtain ⟨hnext, hissued, hle, hsame⟩ := exec_closed (.inr ⟨sender, reset, hsender, hreset⟩) he
    have hends' : w'.toSenderHistory.EndsAt reset.finalSize.val := by
      refine ⟨?_, hends.limit.trans hle, ?_⟩
      · rw [hissued]
        exact hends.claimed
      · rw [hissued]
        exact hends.fin
    rcases hnext with hnext | ⟨reset', hreset', hnext⟩
    · exact .reset sender reset (hnext.trans hsender) hreset (hsame.trans hresets) hends'
    · cases hsender.symm.trans hreset'
      rcases hreset with h | h <;> cases h
      exact .reset _ reset hnext (.inr rfl) (hsame.trans hresets) hends'
  | broken e hsender hresets =>
    obtain ⟨hnext, -, -, hsame⟩ := exec_closed (.inl ⟨e, hsender⟩) he
    rcases hnext with hnext | ⟨reset', hreset', -⟩
    · exact .broken e (hnext.trans hsender) (hsame.trans hresets)
    · cases hsender.symm.trans hreset'

variable {bufSize : Nat}

lemma traced_of_reach (hw : (sendingSystem ε sid bufSize).Reach w) : w.Traced sid := by
  refine hw.invariant ?_ ?_
  · rintro w rfl
    exact .going (SenderWorld.agrees_opened sid bufSize) (Nat.zero_le _) rfl
  · intro w op w' hw hop he
    exact hw.step hop he

lemma Traced.reset_stays (hw : w.Traced sid) (hreset : w.resets ≠ [])
    (hw' : { sendingSystem ε sid bufSize with init := (· = w) }.Reach w') :
    w'.log.issued = w.log.issued ∧ w'.resets = w.resets := by
  have hstays : w'.Traced sid ∧ w'.log.issued = w.log.issued ∧ w'.resets = w.resets := by
    refine hw'.invariant (I := fun v => v.Traced sid ∧ v.log.issued = w.log.issued ∧ v.resets = w.resets) ?_ ?_
    · rintro w' rfl
      exact ⟨hw, rfl, rfl⟩
    · rintro v op v' ⟨hv, hissued, hresets⟩ hop he
      refine ⟨hv.step hop he, ?_⟩
      cases hv with
      | reset sender reset hsender hisReset _ _ =>
        obtain ⟨-, hissued', -, hresets'⟩ := exec_closed (.inr ⟨sender, reset, hsender, hisReset⟩) he
        exact ⟨hissued'.trans hissued, hresets'.trans hresets⟩
      | going _ _ hnil | broken _ _ hnil => exact absurd (hresets.symm.trans hnil) hreset
  exact hstays.2

/-- Whenever a stream may have data, both ways to reset it name the end of its frames, which is inside the window
and where every frame with the end of the stream ended. Each reset of a run did so, and no frame followed it. -/
theorem reset_names_final_size {bufSize : Nat} (hw : (sendingSystem ε sid bufSize).Reach w) :
    (∀ sender, w.sender = .ok sender → sender.source ≠ none → ∀ code, code < 2 ^ 62 →
      ∃ reset, Writer.cancel w.sender code = some (some (reset.combine sid), .ok (.resetSent reset)) ∧
        Outgoing.beStopped w.sender code = some (some reset.finalSize.val, .ok (.resetSent reset)) ∧
        w.toSenderHistory.EndsAt reset.finalSize.val) ∧
    (∀ n ∈ w.resets, w.toSenderHistory.EndsAt n) ∧
    (w.resets ≠ [] → ∀ w', { sendingSystem ε sid bufSize with init := (· = w) }.Reach w' →
      w'.log.issued = w.log.issued ∧ w'.resets = w.resets) := by
  have htraced := traced_of_reach hw
  refine ⟨?_, ?_, ?_⟩
  · intro sender hsender hsource code hcode
    cases htraced with
    | going hagrees hlimit _ =>
      rw [hsender] at hagrees ⊢
      exact hagrees.resets hlimit hsource hcode
    | reset sender' reset hsender' hreset _ _ =>
      cases hsender.symm.trans hsender'
      rcases hreset with rfl | rfl <;> exact absurd rfl hsource
    | broken e hsender' _ => cases hsender.symm.trans hsender'
  · intro n hn
    cases htraced with
    | going _ _ hnil | broken _ _ hnil =>
      rw [hnil] at hn
      cases hn
    | reset sender reset _ _ hresets hends =>
      rw [hresets, List.mem_singleton] at hn
      rw [hn]
      exact hends
  · intro hreset w' hw'
    exact htraced.reset_stays hreset hw'

/-- Three bytes in two frames, of which the second, with the end of the stream, is lost before the stream is reset. -/
theorem reset_names_final_size_run : ∃ w, (sendingSystem Unit ⟨⟨0, by decide⟩⟩ 8).Reach w ∧
    w.log.issued.map StreamFrame.isFin = [false, true] ∧ w.resets = [3] ∧ w.toSenderHistory.EndsAt 3 ∧
    ∀ w', { sendingSystem Unit ⟨⟨0, by decide⟩⟩ 8 with init := (· = w) }.Reach w' → w'.log.issued = w.log.issued := by
  have hpos : 0 < 4096 := by decide
  have hsecond : 1 < 2 := by decide
  have h₀ : (sendingSystem Unit ⟨⟨0, by decide⟩⟩ 8).Reach _ := .start rfl
  have h₁ := h₀.step (e := SendingOp.stream (.write [1, 2, 3])) trivial rfl
  have h₂ := h₁.step (e := SendingOp.stream (.pollDump 100 1 4096)) hpos rfl
  have h₃ := h₂.step (e := SendingOp.stream .shutdown) trivial rfl
  have h₄ := h₃.step (e := SendingOp.stream (.pollDump 100 2 4096)) hpos rfl
  have h₅ := h₄.step (e := SendingOp.stream (.mayLossData 1)) hsecond rfl
  have h₆ := h₅.step (e := SendingOp.cancel 7) trivial rfl
  obtain ⟨-, hends, hstays⟩ := reset_names_final_size h₆
  exact ⟨_, h₆, rfl, rfl, hends 3 (List.mem_singleton.mpr rfl), fun w' hw' => (hstays (List.cons_ne_nil _ _) w' hw').1⟩

end SendingWorld

end Dquic
