import Dquic.Recv.RecverRuns
import Dquic.Send.Packages
import Dquic.Streams.DataStreams

/-!
# The halves of a stream

What calls do to the two halves of a stream, as far as their states are concerned: whether a
sender has sent anything, whether it was reset, and when a half is terminated.
-/

namespace Dquic

variable {ε : Type}

/-! ### Senders -/

namespace ArcSender

def isReset : ArcSender ε → Bool
  | .ok (.resetSent _) => true
  | .ok (.resetRcvd _) => true
  | _ => false

def isTerminated : ArcSender ε → Bool
  | .ok .dataRcvd => true
  | .ok (.resetRcvd _) => true
  | _ => false

def Named (sid : StreamId) : ArcSender ε → Prop
  | .ok (.ready s) => s.streamId = sid
  | .ok (.sending s) => s.streamId = sid
  | .ok (.dataSent s) => s.streamId = sid
  | _ => True

structure Follows (s s' : ArcSender ε) : Prop where
  named : ∀ sid, s.Named sid → s'.Named sid
  ready : s'.isReady = true → s.isReady = true
  reset : s.isReset = true → s'.isReset = true
  alive : s.isOk = true → s'.isOk = true

/-- A call that does not terminate the sender. -/
structure Continues (s s' : ArcSender ε) : Prop extends s.Follows s' where
  terminated : s'.isTerminated = s.isTerminated

namespace Continues

lemma refl (s : ArcSender ε) : s.Continues s := ⟨⟨fun _ h => h, id, id, id⟩, rfl⟩

lemma trans {s s' s'' : ArcSender ε} (h : s.Continues s') (h' : s'.Continues s'') : s.Continues s'' where
  named sid hs := h'.named sid (h.named sid hs)
  ready hs := h.ready (h'.ready hs)
  reset hs := h'.reset (h.reset hs)
  alive hs := h'.alive (h.alive hs)
  terminated := h'.terminated.trans h.terminated

lemma inReady {s s' : ReadySender} (h : s'.streamId = s.streamId) :
    Continues (.ok (.ready s) : ArcSender ε) (.ok (.ready s')) :=
  ⟨⟨fun _ hs => h.trans hs, id, id, id⟩, rfl⟩

lemma inSending {s s' : SendingSender} (h : s'.streamId = s.streamId) :
    Continues (.ok (.sending s) : ArcSender ε) (.ok (.sending s')) :=
  ⟨⟨fun _ hs => h.trans hs, id, id, id⟩, rfl⟩

lemma inDataSent {s s' : DataSentSender} (h : s'.streamId = s.streamId) :
    Continues (.ok (.dataSent s) : ArcSender ε) (.ok (.dataSent s')) :=
  ⟨⟨fun _ hs => h.trans hs, id, id, id⟩, rfl⟩

lemma upgradeReady (s : ReadySender) : Continues (.ok (.ready s) : ArcSender ε) (.ok (.sending s.upgradeReady)) :=
  ⟨⟨fun _ hs => hs, fun hs => absurd hs Bool.false_ne_true, id, id⟩, rfl⟩

lemma finishing (s : SendingSender) (picked : Except Poll StreamData) :
    Continues (.ok (.sending s) : ArcSender ε) (.ok (Outgoing.finishing s picked)) := by
  unfold Outgoing.finishing
  split
  · split_ifs
    · exact ⟨⟨fun _ hs => hs, fun hs => absurd hs Bool.false_ne_true, id, id⟩, rfl⟩
    · exact refl _
  · exact refl _

lemma resetSent {s : Sender} (h : isTerminated (.ok s : ArcSender ε) = false) (r : ResetStreamError) :
    Continues (.ok s : ArcSender ε) (.ok (.resetSent r)) :=
  ⟨⟨fun _ _ => trivial, fun hs => absurd hs Bool.false_ne_true, fun _ => rfl, id⟩, h.symm⟩

end Continues

lemma updateWindow_continues {s s' : ArcSender ε} {n : Nat} (h : s.updateWindow n = some s') : s.Continues s' := by
  have hwriting : ∀ t t' : WritingSender, t.updateWindow n = some t' → t'.streamId = t.streamId := by
    intro t t' ht
    unfold WritingSender.updateWindow at ht
    split_ifs at ht
    · obtain ⟨b, -, ht⟩ := of_bind ht
      cases ht
      rfl
    · cases ht
      rfl
  obtain ⟨-, -, h⟩ := of_bind h
  split at h
  · obtain ⟨t, ht, h⟩ := of_bind h
    cases h
    exact .inReady (hwriting _ _ ht)
  · obtain ⟨t, ht, h⟩ := of_bind h
    cases h
    exact .inSending (hwriting _ _ ht)
  · cases h
    exact .refl _

end ArcSender

namespace Writer

variable {s s' : ArcSender ε}

lemma write_continues {data : Bytes} {res : Except (StreamError ε) Unit} (h : write s data = some (res, s')) :
    s.Continues s' := by
  have hwriting : ∀ (t : WritingSender) (r : Except (StreamError ε) Unit × WritingSender),
      t.write data = some r → r.2.streamId = t.streamId := by
    intro t r ht
    unfold WritingSender.write at ht
    split_ifs at ht
    · cases ht
      rfl
    · obtain ⟨b, -, ht⟩ := of_bind ht
      cases ht
      rfl
  unfold write at h
  split at h
  · cases h
    exact .refl _
  · obtain ⟨r, hr, h⟩ := of_bind h
    cases h
    exact .inReady (hwriting _ r hr)
  · obtain ⟨r, hr, h⟩ := of_bind h
    cases h
    exact .inSending (hwriting _ r hr)
  all_goals
    cases h
    exact .refl _

lemma pollShutdown_continues {res : Option (Except (StreamError ε) Unit)} (h : pollShutdown s = some (res, s')) :
    s.Continues s' := by
  unfold pollShutdown at h
  split at h
  · cases h
    exact .refl _
  · cases h
    exact .inReady rfl
  · cases h
    exact .inSending rfl
  · obtain ⟨t, ht, h⟩ := of_bind h
    obtain ⟨-, -, ht⟩ := of_bind ht
    cases ht
    cases h
    exact .inDataSent rfl
  all_goals
    cases h
    exact .refl _

lemma cancel_continues {errCode : Nat} {frame : Option ResetStreamFrame} (h : cancel s errCode = some (frame, s')) :
    s.Continues s' ∧ ∀ f ∈ frame, s'.isReset = true ∧ ∀ sid, s.Named sid → f.streamId = sid := by
  have hreset : ∀ {t : Sender} {sid : StreamId} {x : Option ResetStreamError},
      ArcSender.isTerminated (.ok t : ArcSender ε) = false → (∀ sid', ArcSender.Named sid' (.ok t : ArcSender ε) → sid = sid') →
      (x.bind fun error => some (some (error.combine sid), (.ok (.resetSent error) : ArcSender ε))) = some (frame, s') →
      ArcSender.Continues (.ok t) s' ∧ ∀ f ∈ frame, s'.isReset = true ∧
        ∀ sid', ArcSender.Named sid' (.ok t : ArcSender ε) → f.streamId = sid' := by
    intro t sid x hterminated hsid hx
    obtain ⟨error, -, hx⟩ := of_bind hx
    cases hx
    refine ⟨.resetSent hterminated error, ?_⟩
    rintro f ⟨⟩
    exact ⟨rfl, hsid⟩
  unfold cancel at h
  split at h
  · exact hreset rfl (fun _ hs => hs) h
  · exact hreset rfl (fun _ hs => hs) h
  · exact hreset rfl (fun _ hs => hs) h
  · cases h
    exact ⟨.refl _, fun f hf => absurd hf (Option.not_mem_none f)⟩

end Writer

namespace Outgoing

variable {s s' : ArcSender ε} {frame : StreamFrame}

/-- A sender that is asked for data is not `Ready` afterwards, and its frame names its stream. -/
lemma pollDump_continues {capacity credit budget : Nat} {res : Except Poll Dump}
    (h : pollDump s capacity credit budget = some (res, s')) :
    s.Continues s' ∧ s'.isReady = false ∧ ∀ dump, res = .ok dump → ∀ sid, s.Named sid → dump.frame.id = sid := by
  have hframe : ∀ {sid : StreamId} {picked : Except Poll StreamData},
      writePicked sid capacity credit budget picked = some res → ∀ dump, res = .ok dump → dump.frame.id = sid := by
    intro sid picked hwrite dump hdump
    rw [hdump] at hwrite
    obtain ⟨p, hp⟩ := writePicked_ok hwrite
    exact (write_frame hp).1
  have hsending : ∀ t : SendingSender, pollDump (.ok (.sending t) : ArcSender ε) capacity credit budget = some (res, s') →
      ArcSender.Continues (.ok (.sending t)) s' ∧ s'.isReady = false ∧
        ∀ dump, res = .ok dump → dump.frame.id = t.streamId := by
    intro t ht
    obtain ⟨r, hpick, ht⟩ := of_bind ht
    obtain ⟨dump, hdump, ht⟩ := of_bind ht
    cases ht
    have hid := t.pickUp_streamId hpick
    have hcontinues : ArcSender.Continues (.ok (.sending t) : ArcSender ε) (.ok (finishing r.2 r.1)) :=
      (ArcSender.Continues.inSending hid).trans (.finishing r.2 r.1)
    refine ⟨hcontinues, ?_, fun dump hdump' => (hframe hdump dump hdump').trans hid⟩
    exact Bool.eq_false_iff.mpr fun hready => absurd (hcontinues.ready hready) Bool.false_ne_true
  have hsilent : ∀ {t : Sender}, ArcSender.isReady (.ok t : ArcSender ε) = false → ∀ {poll : Poll},
      some (.error poll, (.ok t : ArcSender ε)) = some (res, s') → ArcSender.Continues (.ok t) s' ∧ s'.isReady = false ∧
        ∀ dump, res = .ok dump → ∀ sid, ArcSender.Named sid (.ok t : ArcSender ε) → dump.frame.id = sid := by
    intro t hready poll ht
    cases ht
    exact ⟨.refl _, hready, by simp⟩
  cases s with
  | error e =>
    cases h
    exact ⟨.refl _, rfl, by simp⟩
  | ok s =>
    cases s with
    | ready t =>
      obtain ⟨hcontinues, hready, hid⟩ := hsending t h
      exact ⟨(ArcSender.Continues.upgradeReady t).trans hcontinues, hready, fun dump hdump _ hs => (hid dump hdump).trans hs⟩
    | sending t =>
      obtain ⟨hcontinues, hready, hid⟩ := hsending t h
      exact ⟨hcontinues, hready, fun dump hdump _ hs => (hid dump hdump).trans hs⟩
    | dataSent t =>
      obtain ⟨r, hpick, h⟩ := of_bind h
      obtain ⟨dump, hdump, h⟩ := of_bind h
      cases h
      have hid := t.pickUp_streamId hpick
      exact ⟨.inDataSent hid, rfl, fun dump hdump' _ hs => (hframe hdump dump hdump').trans (hid.trans hs)⟩
    | dataRcvd | resetSent | resetRcvd => exact hsilent rfl h

lemma onDataAcked_follows {isAllRcvd : Bool} (h : onDataAcked s frame = some (isAllRcvd, s')) :
    s.Follows s' ∧ (isAllRcvd = true → s'.isTerminated = true) ∧
      (isAllRcvd = false → s'.isTerminated = s.isTerminated) := by
  have hcontinues : ∀ {t t' : ArcSender ε}, some (false, t') = some (isAllRcvd, s') → t.Continues t' →
      t.Follows s' ∧ (isAllRcvd = true → s'.isTerminated = true) ∧
        (isAllRcvd = false → s'.isTerminated = t.isTerminated) := by
    intro t t' hs ht
    cases hs
    exact ⟨ht.toFollows, fun hall => absurd hall Bool.false_ne_true, fun _ => ht.terminated⟩
  cases s with
  | error e => exact hcontinues h (.refl _)
  | ok s =>
    cases s with
    | ready t => cases h
    | sending t =>
      obtain ⟨t', ht, h⟩ := of_bind h
      obtain ⟨b, -, ht⟩ := of_bind ht
      cases ht
      exact hcontinues h (.inSending rfl)
    | dataSent t =>
      obtain ⟨t', ht, h⟩ := of_bind h
      have hid : t'.streamId = t.streamId := by
        obtain ⟨b, -, ht⟩ := of_bind ht
        cases ht
        rfl
      split_ifs at h
      · cases h
        exact ⟨⟨fun _ _ => trivial, fun hready => absurd hready Bool.false_ne_true,
          fun hreset => absurd hreset Bool.false_ne_true, fun _ => rfl⟩, fun _ => rfl, by simp⟩
      · exact hcontinues h (.inDataSent hid)
    | dataRcvd | resetSent | resetRcvd => exact hcontinues h (.refl _)

lemma mayLossData_continues (h : mayLossData s frame = some s') : s.Continues s' := by
  cases s with
  | error e =>
    cases h
    exact .refl _
  | ok s =>
    cases s with
    | ready t => cases h
    | sending t =>
      obtain ⟨t', ht, h⟩ := of_bind h
      obtain ⟨b, -, ht⟩ := of_bind ht
      cases ht
      cases h
      exact .inSending rfl
    | dataSent t =>
      obtain ⟨t', ht, h⟩ := of_bind h
      obtain ⟨b, -, ht⟩ := of_bind ht
      cases ht
      cases h
      exact .inDataSent rfl
    | dataRcvd | resetSent | resetRcvd =>
      cases h
      exact .refl _

lemma beStopped_continues {errorCode : Nat} {finalSize : Option Nat} (h : beStopped s errorCode = some (finalSize, s')) :
    s.Continues s' ∧ (finalSize ≠ none → s'.isReset = true) := by
  have hreset : ∀ {t : Sender} {size : Nat}, ArcSender.isTerminated (.ok t : ArcSender ε) = false →
      resetAt errorCode size = some (finalSize, s') →
      ArcSender.Continues (.ok t) s' ∧ (finalSize ≠ none → s'.isReset = true) := by
    intro t size hterminated ht
    obtain ⟨code, -, ht⟩ := of_bind ht
    obtain ⟨final, -, ht⟩ := of_bind ht
    cases ht
    exact ⟨.resetSent hterminated _, fun _ => rfl⟩
  have hsilent : ∀ {t : ArcSender ε}, some (none, t) = some (finalSize, s') →
      t.Continues s' ∧ (finalSize ≠ none → s'.isReset = true) := by
    intro t ht
    cases ht
    exact ⟨.refl _, fun hsize => absurd rfl hsize⟩
  cases s with
  | error e => exact hsilent h
  | ok s =>
    cases s with
    | ready t =>
      obtain ⟨size, -, h⟩ := of_bind h
      exact hreset rfl h
    | sending | dataSent => exact hreset rfl h
    | dataRcvd | resetSent | resetRcvd => exact hsilent h

lemma onResetAcked_of_isReset (h : s.isReset = true) :
    ∃ s', onResetAcked s = some s' ∧ s.Follows s' ∧ s'.isTerminated = true := by
  cases s with
  | error e => cases h
  | ok s =>
    cases s with
    | ready | sending | dataSent | dataRcvd => cases h
    | resetSent | resetRcvd => exact ⟨_, rfl, ⟨fun _ _ => trivial, id, id, id⟩, rfl⟩

/-- The end of the connection leaves a sender that was reset or is terminated as it is. -/
lemma onError_keeps (s : ArcSender ε) (err : ε) :
    (∀ sid, s.Named sid → (onError s err).Named sid) ∧ ((onError s err).isReady = true → s.isReady = true) ∧
      (s.isReset = true → (onError s err).isReset = true) ∧ (onError s err).isTerminated = s.isTerminated := by
  cases s with
  | error e => exact ⟨fun _ hs => hs, id, id, rfl⟩
  | ok s =>
    cases s with
    | ready t => exact ⟨fun _ _ => trivial, fun _ => rfl, id, rfl⟩
    | sending | dataSent => exact ⟨fun _ _ => trivial, id, id, rfl⟩
    | dataRcvd | resetSent | resetRcvd => exact ⟨fun _ hs => hs, id, id, rfl⟩

end Outgoing

/-! ### Receivers -/

namespace ArcRecver

def isTerminated : ArcRecver ε → Bool
  | .ok (.recv _) => false
  | .ok (.sizeKnown _) => false
  | .ok _ => true
  | .error _ => false

/-- A call that does not terminate the receiver. -/
structure Continues (s s' : ArcRecver ε) : Prop where
  terminated : s'.isTerminated = s.isTerminated
  alive : s.isOk = true → s'.isOk = true

lemma Continues.refl (s : ArcRecver ε) : s.Continues s := ⟨rfl, id⟩

lemma Continues.inRecv (r r' : Recv) : Continues (.ok (.recv r) : ArcRecver ε) (.ok (.recv r')) := ⟨rfl, fun _ => rfl⟩

end ArcRecver

namespace Incoming

variable {s : ArcRecver ε}

lemma recvData_terminates {s' : ArcRecver ε} {frame : StreamFrame} {body : Bytes} {res : Except QuicError (Bool × Nat)}
    (h : recvData s frame body = some (res, s')) :
    (∀ n, res = .ok (true, n) → s'.isTerminated = true) ∧ ((∀ n, res ≠ .ok (true, n)) → s.Continues s') := by
  have hsettle : ∀ {t : ArcRecver ε} {r : SizeKnown} {n : Nat}, t.isTerminated = false →
      some (.ok ((settle r).1, n), .ok (settle r).2) = some (res, s') →
      (∀ n, res = .ok (true, n) → s'.isTerminated = true) ∧ ((∀ n, res ≠ .ok (true, n)) → t.Continues s') := by
    intro t r n ht hs
    unfold settle at hs
    split_ifs at hs
    · cases hs
      exact ⟨fun _ _ => rfl, fun hres => absurd rfl (hres n)⟩
    · cases hs
      refine ⟨?_, fun _ => ⟨ht.symm, fun _ => rfl⟩⟩
      intro m hm
      cases hm
  have hcontinues : ∀ {t t' : ArcRecver ε} {x : Except QuicError (Bool × Nat)}, some (x, t') = some (res, s') → t.Continues t' →
      (∀ n, x ≠ .ok (true, n)) →
      (∀ n, res = .ok (true, n) → s'.isTerminated = true) ∧ ((∀ n, res ≠ .ok (true, n)) → t.Continues s') := by
    intro t t' x hs ht hx
    cases hs
    exact ⟨fun n hn => absurd hn (hx n), fun _ => ht⟩
  cases s with
  | error e => exact hcontinues h (.refl _) (by simp)
  | ok s =>
    cases s with
    | recv r =>
      unfold recvData at h
      dsimp only at h
      split_ifs at h
      · split at h
        · exact hcontinues h (.refl _) (by simp)
        · obtain ⟨⟨x, r'⟩, -, h⟩ := of_bind h
          cases x with
          | error e => exact hcontinues h ⟨rfl, fun _ => rfl⟩ (by simp)
          | ok n => exact hsettle rfl h
      · obtain ⟨⟨x, r'⟩, -, h⟩ := of_bind h
        refine hcontinues h ⟨rfl, fun _ => rfl⟩ fun n => ?_
        cases x <;> simp [Except.map]
    | sizeKnown r =>
      obtain ⟨⟨x, r'⟩, -, h⟩ := of_bind h
      cases x with
      | error e => exact hcontinues h ⟨rfl, fun _ => rfl⟩ (by simp)
      | ok n => exact hsettle rfl h
    | dataRcvd | resetRcvd | dataRead | resetRead => exact hcontinues h (.refl _) (by simp)

/-- A reset reaches a receiver that is not terminated, and terminates it unless it is wrong. -/
lemma recvReset_of_open (hopen : s.isTerminated = false) (hok : s.isOk = true) (frame : ResetStreamFrame) :
    ∃ res s', recvReset s frame = some (res, s') ∧ (∀ n, res = .ok n → s'.isTerminated = true) ∧
      (∀ e, res = .error e → s' = s) := by
  cases s with
  | error e => cases hok
  | ok s =>
    cases s with
    | recv r | sizeKnown r =>
      unfold recvReset
      dsimp only
      cases r.recvReset frame with
      | error e => exact ⟨_, _, rfl, by simp, fun _ _ => rfl⟩
      | ok n => exact ⟨_, _, rfl, fun _ _ => rfl, by simp⟩
    | dataRcvd | resetRcvd | dataRead | resetRead => cases hopen

lemma onError_isTerminated (s : ArcRecver ε) (err : ε) : (onError s err).isTerminated = s.isTerminated := by
  cases s with
  | error e => rfl
  | ok s => cases s <;> rfl

end Incoming

namespace Reader

lemma Read.continues {s s' : ArcRecver ε} {room : Nat} {res : ReadResult ε} {frame : Option MaxStreamDataFrame}
    (h : Read room s res s' frame) : s.Continues s' := by
  cases h with
  | pending | dataRead | refused => exact .refl _
  | recv => exact .inRecv _ _
  | sizeKnown | resetRcvd => exact ⟨rfl, fun _ => rfl⟩
  | dataRcvd _ _ ht => rcases ht with rfl | ⟨-, rfl⟩ <;> exact ⟨rfl, fun _ => rfl⟩

lemma stop_continues {s s' : ArcRecver ε} {errorCode : Nat} {frame : Option StopSendingFrame}
    (h : stop s errorCode = some (s', frame)) : s.Continues s' := by
  obtain ⟨-, -, h⟩ := of_bind h
  split at h
  · obtain ⟨r, -, h⟩ := of_bind h
    cases h
    exact ⟨rfl, fun _ => rfl⟩
  · obtain ⟨r, -, h⟩ := of_bind h
    cases h
    exact ⟨rfl, fun _ => rfl⟩
  · cases h
    exact .refl _

end Reader

end Dquic
