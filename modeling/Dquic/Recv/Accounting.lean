import Dquic.Recv.RecverRuns

/-!
# Limits, flow accounting and the final size of a receiving stream

What holds in every run of a receiver, and where it holds only for frames that respect a
condition: the window of the stream is not checked for a final size, and frames without data are
not counted.
-/

namespace Dquic

open Lib

variable {ε : Type}

variable {body : Bytes} {r : SizeKnown} {frame : ResetStreamFrame}

namespace RecverWorld

variable {w w' : RecverWorld ε} {op : RecverOp} {t : ArcRecver ε}

/-- A call takes in one frame, or keeps what was taken in, and never lowers the window. -/
lemma exec_cases (he : w.exec op = some w') :
    (w'.accepted = w.accepted ∨ ∃ frame body x t, op = .recvData frame body ∧
      Incoming.recvData w.recver frame body = some (.ok x, t) ∧ w.recver.accepting = true ∧
      w'.accepted = frame :: w.accepted) ∧
    (w'.reset = w.reset ∨ ∃ frame n t, op = .recvReset frame ∧
      Incoming.recvReset w.recver frame = some (.ok n, t) ∧ w'.reset = some frame) ∧
    w.advertised ≤ w'.advertised := by
  have hle : ∀ (n : Nat) (frame : Option MaxStreamDataFrame), n ≤ announce n frame := by
    intro n frame
    cases frame with
    | none => exact le_rfl
    | some frame => exact le_max_left _ _
  cases op with
  | recvData frame body =>
    obtain ⟨⟨res, t⟩, ht, he⟩ := of_bind he
    cases res with
    | error e =>
      cases he
      exact ⟨.inl rfl, .inl rfl, le_rfl⟩
    | ok x =>
      cases he
      refine ⟨?_, .inl rfl, le_rfl⟩
      cases hacc : w.recver.accepting with
      | true => exact .inr ⟨frame, body, x, t, rfl, ht, rfl, by simp⟩
      | false => exact .inl (by simp)
  | recvReset frame =>
    obtain ⟨⟨res, t⟩, ht, he⟩ := of_bind he
    cases res with
    | error e =>
      cases he
      exact ⟨.inl rfl, .inl rfl, le_rfl⟩
    | ok n =>
      cases he
      exact ⟨.inl rfl, .inr ⟨frame, n, t, rfl, ht, rfl⟩, le_rfl⟩
  | pollRead | pollNext =>
    cases he
    exact ⟨.inl rfl, .inl rfl, hle _ _⟩

/-! ### The window of the stream -/

/-- A final size that arrives while the receiver still counts on more data lies within the window. -/
def FinalWithinWindow (w : RecverWorld ε) : RecverOp → Prop
  | .recvData frame _ => ∀ r, w.recver = .ok (.recv r) → frame.isFin = true → frame.range.stop ≤ r.maxStreamData
  | .recvReset frame => ∀ r, w.recver = .ok (.recv r) → frame.finalSize.val ≤ r.maxStreamData
  | _ => True

/-- Everything taken in lies within the window given to the peer. -/
structure Within (w : RecverWorld ε) : Prop where
  agrees : w.recver.Agrees w.toRecverHistory
  frames : ∀ f ∈ w.accepted, f.range.stop ≤ w.advertised
  reset : ∀ f, w.reset = some f → f.finalSize.val ≤ w.advertised

lemma Within.recvData (hw : w.Within) {frame : StreamFrame} (hlen : body.length = frame.length)
    (hcond : w.FinalWithinWindow (.recvData frame body)) {x : Bool × Nat} (hacc : w.recver.accepting = true)
    (he : Incoming.recvData w.recver frame body = some (.ok x, t)) : frame.range.stop ≤ w.advertised := by
  have hagrees := hw.agrees
  rcases Incoming.recvData_cases hlen he with
    ⟨e, hres, -⟩ | ⟨hnot, -⟩ | ⟨r, n, buf, hs, -, hwithin, -⟩ | ⟨r, n, buf, hs | ⟨r₀, hs, hfin, -⟩, hle, -⟩
  · cases hres
  · rw [hacc] at hnot
    cases hnot
  · rw [hs] at hagrees
    exact hwithin.trans_eq hagrees.window
  · rw [hs] at hagrees
    obtain ⟨f, hf, -, hstop⟩ := hagrees.size.fixed
    have hf' := hw.frames f hf
    omega
  · rw [hs] at hagrees
    exact (hcond r₀ hs hfin).trans_eq hagrees.window

lemma Within.recvReset (hw : w.Within) (hcond : w.FinalWithinWindow (.recvReset frame)) {n : Nat}
    (he : Incoming.recvReset w.recver frame = some (.ok n, t)) : frame.finalSize.val ≤ w.advertised := by
  have hagrees := hw.agrees
  rcases Incoming.recvReset_cases he with ⟨e, hres, -⟩ | ⟨e, hs⟩ | ⟨n, -, -, ⟨r, hs, -⟩ | ⟨r, hs, hsame, -⟩⟩
  · cases hres
  · rw [hs] at hagrees
    exact hagrees.elim
  · rw [hs] at hagrees
    exact (hcond r hs).trans_eq hagrees.window
  · rw [hs] at hagrees
    obtain ⟨f, hf, -, hstop⟩ := hagrees.size.fixed
    have hf' := hw.frames f hf
    omega

lemma Within.step (hw : w.Within) (hop : w.Issued op) (hcond : w.FinalWithinWindow op) (he : w.exec op = some w') :
    w'.Within := by
  obtain ⟨haccepted, hreset, hadv⟩ := exec_cases he
  refine ⟨agrees_step hw.agrees hop he, fun f hf => le_trans ?_ hadv, fun f hf => le_trans ?_ hadv⟩
  · rcases haccepted with hsame | ⟨frame, body, x, t, rfl, ht, hacc, hnew⟩
    · exact hw.frames f (hsame ▸ hf)
    · rw [hnew] at hf
      cases List.mem_cons.mp hf with
      | inl hf => exact hf ▸ hw.recvData hop.1 hcond hacc ht
      | inr hf => exact hw.frames f hf
  · rcases hreset with hsame | ⟨frame, n, t, rfl, ht, hnew⟩
    · exact hw.reset f (hsame ▸ hf)
    · obtain rfl := Option.some.inj (hnew.symm.trans hf)
      exact hw.recvReset hcond ht

end RecverWorld

/-- In every run in which a FIN or a reset that reaches a receiver without final size keeps within its window,
accepted data and final sizes lie within the largest window given to the peer. -/
theorem recverSystem_within_window (ε : Type) (sid : StreamId) (bufSize : Nat) (w : RecverWorld ε)
    (hr : ((recverSystem ε sid bufSize).restrict RecverWorld.FinalWithinWindow).Reach w) :
    (∀ f ∈ w.accepted, f.range.stop ≤ w.advertised) ∧
      ∀ f, w.reset = some f → f.finalSize.val ≤ w.advertised := by
  have hw : w.Within := by
    refine hr.invariant (fun w hw => ?_) (fun w op w' hw hop he => hw.step hop.1 hop.2 he)
    refine ⟨RecverWorld.agrees_init hw, ?_, ?_⟩
    · change w = _ at hw
      subst hw
      exact fun f hf => absurd hf List.not_mem_nil
    · change w = _ at hw
      subst hw
      exact nofun
  exact ⟨hw.frames, hw.reset⟩

/-- Three bytes, then two more with FIN. -/
theorem recverSystem_within_window_run : ∃ w,
    ((recverSystem Unit ⟨⟨0, by decide⟩⟩ 10).restrict RecverWorld.FinalWithinWindow).Reach w ∧
    w.accepted.length = 2 ∧ w.advertised = 10 ∧ ∀ f ∈ w.accepted, f.range.stop ≤ w.advertised := by
  have h₀ : ((recverSystem Unit ⟨⟨0, by decide⟩⟩ 10).restrict RecverWorld.FinalWithinWindow).Reach _ := .start rfl
  have h₁ := h₀.step (e := RecverOp.recvData ⟨⟨⟨0, by decide⟩⟩, ⟨0, by decide⟩, 3, .explicit, false⟩ [1, 2, 3])
    ⟨⟨rfl, by decide⟩, fun r _ hfin => absurd hfin (by decide)⟩ rfl
  have h₂ := h₁.step (e := RecverOp.recvData ⟨⟨⟨0, by decide⟩⟩, ⟨3, by decide⟩, 2, .explicit, true⟩ [4, 5])
    ⟨⟨rfl, by decide⟩, fun r hr _ => by cases hr; decide⟩ rfl
  exact ⟨_, h₂, rfl, rfl, (recverSystem_within_window Unit _ _ _ h₂).1⟩

/-- With a window of ten bytes, FIN data up to offset 15 and a reset at 15 are accepted. -/
theorem recverSystem_exceeds_window :
    (∃ w, (recverSystem Unit ⟨⟨0, by decide⟩⟩ 10).Reach w ∧ w.advertised = 10 ∧
      ∃ f ∈ w.accepted, f.range.stop = 15) ∧
    ∃ w, (recverSystem Unit ⟨⟨0, by decide⟩⟩ 10).Reach w ∧ w.advertised = 10 ∧
      ∃ f, w.reset = some f ∧ f.finalSize.val = 15 := by
  have h₀ : (recverSystem Unit ⟨⟨0, by decide⟩⟩ 10).Reach _ := .start rfl
  have hfin := h₀.step (e := RecverOp.recvData ⟨⟨⟨0, by decide⟩⟩, ⟨10, by decide⟩, 5, .explicit, true⟩ [1, 2, 3, 4, 5])
    ⟨rfl, by decide⟩ rfl
  have hreset := h₀.step (e := RecverOp.recvReset ⟨⟨⟨0, by decide⟩⟩, ⟨0, by decide⟩, ⟨15, by decide⟩⟩) trivial rfl
  exact ⟨⟨_, hfin, rfl, _, List.mem_singleton_self _, rfl⟩, ⟨_, hreset, rfl, _, rfl, rfl⟩⟩

/-! ### Flow accounting -/

namespace RecverWorld

variable {w w' : RecverWorld ε}

/-- A frame without data that is taken in does not lie above the data taken in so far. -/
def EmptyWithinData (w : RecverWorld ε) : RecverOp → Prop
  | .recvData frame _ => frame.length = 0 → w.recver.accepting = true → frame.offset.val ≤ carriedBy w.accepted
  | _ => True

def claimed (w : RecverWorld ε) : Nat :=
  match w.reset with
  | some frame => max (claimedBy w.accepted) frame.finalSize.val
  | none => claimedBy w.accepted

def allReceived (w : RecverWorld ε) : Bool :=
  match w.recver with
  | .ok (.dataRcvd _) => true
  | .ok .dataRead => true
  | _ => false

lemma claimed_step (hclaimed : claimedBy w.accepted ≤ carriedBy w.accepted) {op : RecverOp} (hcond : w.EmptyWithinData op)
    (he : w.exec op = some w') : claimedBy w'.accepted ≤ carriedBy w'.accepted := by
  rcases (exec_cases he).1 with hsame | ⟨frame, body, x, t, rfl, -, hacc, hnew⟩
  · rw [hsame]
    exact hclaimed
  · rw [hnew, claimedBy, carriedBy]
    by_cases hempty : frame.length = 0
    · have hbelow := hcond hempty hacc
      have hstop : frame.range.stop = frame.offset.val := by
        change frame.offset.val + frame.length = _
        omega
      rw [if_pos hempty, hstop]
      exact max_le hbelow hclaimed
    · rw [if_neg hempty]
      exact max_le_max le_rfl hclaimed

end RecverWorld

/-- Where frames claim nothing beyond the data they carry, the fresh counts are what the peer claimed. -/
lemma RecverHistory.IsReset.fresh_eq {h : RecverHistory} (hreset : h.IsReset frame)
    (hclaimed : claimedBy h.accepted = carriedBy h.accepted) :
    h.fresh = frame.finalSize.val ∧ claimedBy h.accepted ≤ frame.finalSize.val := by
  rcases hreset.2 with ⟨hle, -, hfresh⟩ | ⟨hsize, hle, hfresh⟩
  · omega
  · obtain ⟨f, hf, -, hstop⟩ := hsize.fixed
    have hf' := le_claimedBy hf
    omega

/-- In every run in which frames without data do not lie above the data taken in before them, the fresh counts
add up to the highest offset the peer has claimed, and to the final size once the stream was reset or all its
data was received. -/
theorem recverSystem_accounts (ε : Type) (sid : StreamId) (bufSize : Nat) (w : RecverWorld ε)
    (hr : ((recverSystem ε sid bufSize).restrict RecverWorld.EmptyWithinData).Reach w) :
    w.fresh = w.claimed ∧ (∀ f, w.reset = some f → w.fresh = f.finalSize.val) ∧
      (w.allReceived = true → ∃ f ∈ w.accepted, f.isFin = true ∧ w.fresh = f.range.stop) := by
  have hw : w.recver.Agrees w.toRecverHistory ∧ claimedBy w.accepted ≤ carriedBy w.accepted := by
    refine hr.invariant (I := fun w => w.recver.Agrees w.toRecverHistory ∧ claimedBy w.accepted ≤ carriedBy w.accepted)
      ?_ ?_
    · intro w hw
      refine ⟨RecverWorld.agrees_init hw, ?_⟩
      change w = _ at hw
      subst hw
      exact le_rfl
    · intro w op w' hw hop he
      exact ⟨RecverWorld.agrees_step hw.1 hop.1 he, RecverWorld.claimed_step hw.2 hop.2 he⟩
  obtain ⟨hagrees, hle⟩ := hw
  have hclaimed : claimedBy w.accepted = carriedBy w.accepted := le_antisymm hle (carriedBy_le_claimedBy _)
  have hopen : w.reset = none → w.fresh = carriedBy w.accepted →
      w.fresh = w.claimed ∧ ∀ f, w.reset = some f → w.fresh = f.finalSize.val := by
    intro hreset hfresh
    simp only [RecverWorld.claimed, hreset, hfresh, hclaimed, true_and]
    exact nofun
  have hclosed : ∀ frame, w.IsReset frame →
      w.fresh = w.claimed ∧ ∀ f, w.reset = some f → w.fresh = f.finalSize.val := by
    intro frame hreset
    obtain ⟨hfresh, hbelow⟩ := hreset.fresh_eq hclaimed
    simp only [RecverWorld.claimed, hreset.1, hfresh, max_eq_right hbelow, true_and, Option.some.injEq]
    exact fun f hf => congrArg (fun f => f.finalSize.val) hf
  have hcomplete : w.Complete → ∃ f ∈ w.accepted, f.isFin = true ∧ w.fresh = f.range.stop := by
    intro hw
    obtain ⟨f, hf, hfin, hstop⟩ := hw.size.fixed
    exact ⟨f, hf, hfin, hstop.symm⟩
  rw [← and_assoc]
  cases hs : w.recver with
  | error e =>
    rw [hs] at hagrees
    exact hagrees.elim
  | ok s =>
    rw [hs] at hagrees
    cases s with
    | recv r | sizeKnown r =>
      have hr : r.Agrees w.toRecverHistory := hagrees
      exact ⟨hopen hr.holds.reset hr.holds.fresh, fun hall => by simp [RecverWorld.allReceived, hs] at hall⟩
    | dataRcvd | dataRead => exact ⟨hopen hagrees.reset hagrees.fresh, fun _ => hcomplete hagrees⟩
    | resetRcvd frame =>
      exact ⟨hclosed frame hagrees, fun hall => by simp [RecverWorld.allReceived, hs] at hall⟩
    | resetRead error =>
      obtain ⟨frame, -, hreset⟩ := hagrees
      exact ⟨hclosed frame hreset, fun hall => by simp [RecverWorld.allReceived, hs] at hall⟩

/-- Two bytes out of order with FIN, then a reset at the same final size. -/
theorem recverSystem_accounts_run : ∃ w,
    ((recverSystem Unit ⟨⟨0, by decide⟩⟩ 10).restrict RecverWorld.EmptyWithinData).Reach w ∧
    w.fresh = 5 ∧ w.claimed = 5 ∧ (w.fresh = w.claimed ∧ ∀ f, w.reset = some f → w.fresh = f.finalSize.val) := by
  have h₀ : ((recverSystem Unit ⟨⟨0, by decide⟩⟩ 10).restrict RecverWorld.EmptyWithinData).Reach _ := .start rfl
  have h₁ := h₀.step (e := RecverOp.recvData ⟨⟨⟨0, by decide⟩⟩, ⟨3, by decide⟩, 2, .explicit, true⟩ [4, 5])
    ⟨⟨rfl, by decide⟩, fun hempty => absurd hempty (by decide)⟩ rfl
  have h₂ := h₁.step (e := RecverOp.recvReset ⟨⟨⟨0, by decide⟩⟩, ⟨0, by decide⟩, ⟨5, by decide⟩⟩) ⟨trivial, trivial⟩ rfl
  have hw := recverSystem_accounts Unit _ _ _ h₂
  exact ⟨_, h₂, rfl, rfl, hw.1, hw.2.1⟩

/-- A frame without data at offset 10 claims ten bytes that are never counted, not even by a reset at 10. -/
theorem recverSystem_miscounts : ∃ w, (recverSystem Unit ⟨⟨0, by decide⟩⟩ 100).Reach w ∧
    w.fresh = 0 ∧ w.claimed = 10 ∧ ∃ f, w.reset = some f ∧ f.finalSize.val = 10 := by
  have h₀ : (recverSystem Unit ⟨⟨0, by decide⟩⟩ 100).Reach _ := .start rfl
  have h₁ := h₀.step (e := RecverOp.recvData ⟨⟨⟨0, by decide⟩⟩, ⟨10, by decide⟩, 0, .explicit, false⟩ [])
    ⟨rfl, by decide⟩ rfl
  have h₂ := h₁.step (e := RecverOp.recvReset ⟨⟨⟨0, by decide⟩⟩, ⟨0, by decide⟩, ⟨10, by decide⟩⟩) trivial rfl
  exact ⟨_, h₂, rfl, rfl, _, rfl, rfl⟩

/-! ### The final size -/

/-- The receiver refuses a frame as contradicting the final size, and keeps its state. -/
def ArcRecver.Refuses {α : Type} (s : ArcRecver ε) (outcome : Option (Except QuicError α × ArcRecver ε)) : Prop :=
  ∃ e, outcome = some (.error e, s) ∧ e.kind = .finalSize

variable {h : RecverHistory} {s : ArcRecver ε}

lemma ArcRecver.Agrees.sizeKnown (hs : s.Agrees h) (hacc : s.accepting = true) {f : StreamFrame} (hf : f ∈ h.accepted)
    (hfin : f.isFin = true) : ∃ r : SizeKnown, s = .ok (.sizeKnown r) ∧ r.Agrees h ∧ r.finalSize = f.range.stop := by
  match s, hs with
  | .ok (.recv r), hs =>
    have hno := hs.noFin f hf
    rw [hfin] at hno
    cases hno
  | .ok (.sizeKnown r), hs => exact ⟨r, rfl, hs, (hs.size.unique f hf hfin).symm⟩
  | .ok (.dataRcvd r), _ | .ok .dataRead, _ | .ok (.resetRcvd frame), _ | .ok (.resetRead error), _ => cases hacc

lemma ArcRecver.Agrees.receiving (hs : s.Agrees h) (hacc : s.accepting = true)
    (hno : ∀ f ∈ h.accepted, f.isFin = false) : ∃ r : Recv, s = .ok (.recv r) ∧ r.Agrees h := by
  match s, hs with
  | .ok (.recv r), hs => exact ⟨r, rfl, hs⟩
  | .ok (.sizeKnown r), hs =>
    obtain ⟨f, hf, hfin, -⟩ := hs.size.fixed
    rw [hno f hf] at hfin
    cases hfin
  | .ok (.dataRcvd r), _ | .ok .dataRead, _ | .ok (.resetRcvd frame), _ | .ok (.resetRead error), _ => cases hacc

/-- Once a FIN fixed the final size, data beyond it and another final size are refused. -/
lemma SizeKnown.refuses {frame : StreamFrame} (hlen : body.length = frame.length)
    (hother : r.finalSize < frame.range.stop ∨ frame.isFin = true ∧ frame.range.stop ≠ r.finalSize) :
    ArcRecver.Refuses (.ok (.sizeKnown r) : ArcRecver ε) (Incoming.recvData (.ok (.sizeKnown r)) frame body) := by
  have hend : frame.offset.val + body.length = frame.range.stop := congrArg _ hlen
  simp only [Incoming.recvData, SizeKnown.recv, hend]
  by_cases hover : r.finalSize < frame.range.stop
  · rw [if_pos hover]
    exact ⟨_, rfl, rfl⟩
  · rw [if_neg hover, if_pos (hother.resolve_left hover)]
    exact ⟨_, rfl, rfl⟩

lemma SizeKnown.refuses_reset (hne : frame.finalSize.val ≠ r.finalSize) :
    ArcRecver.Refuses (.ok (.sizeKnown r) : ArcRecver ε) (Incoming.recvReset (.ok (.sizeKnown r)) frame) := by
  simp only [Incoming.recvReset, SizeKnown.recvReset, if_pos hne]
  exact ⟨_, rfl, rfl⟩

lemma Recv.refuses_reset {r : Recv} (hlt : frame.finalSize.val < r.largest) :
    ArcRecver.Refuses (.ok (.recv r) : ArcRecver ε) (Incoming.recvReset (.ok (.recv r)) frame) := by
  simp only [Incoming.recvReset, Recv.recvReset, if_pos hlt]
  exact ⟨_, rfl, rfl⟩

lemma Recv.refuses_fin {r : Recv} {frame : StreamFrame} (hfin : frame.isFin = true)
    (hlt : frame.range.stop < r.rcvbuf.largestOffset) :
    ArcRecver.Refuses (.ok (.recv r) : ArcRecver ε) (Incoming.recvData (.ok (.recv r)) frame body) := by
  simp only [Incoming.recvData, hfin, if_true, Recv.determinSize, if_pos hlt]
  exact ⟨_, rfl, rfl⟩

/-- The final size of a stream that is not closed, in every run. After a FIN, a frame beyond it or with another
final size is refused, be it STREAM or RESET_STREAM. Before one, a reset below the end of any accepted frame is
refused. At any time a FIN below the end of accepted data is refused. Once all data was received or the stream
was reset, STREAM frames are ignored. -/
theorem recverSystem_final_size (ε : Type) (sid : StreamId) (bufSize : Nat) (w : RecverWorld ε)
    (hr : (recverSystem ε sid bufSize).Reach w) :
    (∀ f ∈ w.accepted, f.isFin = true → w.recver.accepting = true →
      (∀ frame body, w.Issued (.recvData frame body) →
        (f.range.stop < frame.range.stop ∨ frame.isFin = true ∧ frame.range.stop ≠ f.range.stop) →
        w.recver.Refuses (Incoming.recvData w.recver frame body)) ∧
      ∀ frame : ResetStreamFrame, frame.finalSize.val ≠ f.range.stop →
        w.recver.Refuses (Incoming.recvReset w.recver frame)) ∧
    (w.recver.accepting = true → (∀ f ∈ w.accepted, f.isFin = false) → ∀ f ∈ w.accepted,
      ∀ frame : ResetStreamFrame, frame.finalSize.val < f.range.stop →
        w.recver.Refuses (Incoming.recvReset w.recver frame)) ∧
    (w.recver.accepting = true → ∀ f ∈ w.accepted, f.length ≠ 0 → ∀ frame body,
      w.Issued (.recvData frame body) → frame.isFin = true → frame.range.stop < f.range.stop →
        w.recver.Refuses (Incoming.recvData w.recver frame body)) ∧
    (w.recver.accepting = false → ∀ frame body,
      Incoming.recvData w.recver frame body = some (.ok (false, 0), w.recver)) := by
  have hw := RecverWorld.agrees_of_reach hr
  refine ⟨fun f hf hfin hacc => ?_, fun hacc hno f hf frame hlt => ?_, ?_, fun hacc frame body => ?_⟩
  · obtain ⟨r, hs, hrec, hsize⟩ := hw.sizeKnown hacc hf hfin
    rw [hs, ← hsize]
    exact ⟨fun frame body hop hother => SizeKnown.refuses hop.1 hother, fun frame hne => SizeKnown.refuses_reset hne⟩
  · obtain ⟨r, hs, hrec⟩ := hw.receiving hacc hno
    rw [hs]
    apply Recv.refuses_reset
    rw [hrec.largest]
    exact lt_of_lt_of_le hlt (le_claimedBy hf)
  · intro hacc f hf hdata frame body hop hfin hlt
    have hcarried := le_carriedBy hf hdata
    by_cases hno : ∀ g ∈ w.accepted, g.isFin = false
    · obtain ⟨r, hs, hrec⟩ := hw.receiving hacc hno
      rw [hs]
      apply Recv.refuses_fin hfin
      rw [hrec.holds.carried]
      omega
    · push Not at hno
      obtain ⟨g, hg, hgfin⟩ := hno
      obtain ⟨r, hs, hrec, -⟩ := hw.sizeKnown hacc hg (by simpa using hgfin)
      have hbounded := hrec.bounded
      rw [hrec.holds.carried] at hbounded
      rw [hs]
      exact SizeKnown.refuses hop.1 (.inr ⟨hfin, by omega⟩)
  · match hs : w.recver, hacc with
    | .error e, _ | .ok (.dataRcvd r), _ | .ok .dataRead, _ | .ok (.resetRcvd f), _ | .ok (.resetRead e), _ => rfl

/-- A FIN fixes the final size 5 while bytes are missing, and a frame up to 6 is refused. -/
theorem recverSystem_final_size_run : ∃ w, (recverSystem Unit ⟨⟨0, by decide⟩⟩ 10).Reach w ∧
    w.recver.accepting = true ∧
    w.recver.Refuses (Incoming.recvData w.recver
      ⟨⟨⟨0, by decide⟩⟩, ⟨5, by decide⟩, 1, .explicit, false⟩ [6]) := by
  have h₀ : (recverSystem Unit ⟨⟨0, by decide⟩⟩ 10).Reach _ := .start rfl
  have h₁ := h₀.step (e := RecverOp.recvData ⟨⟨⟨0, by decide⟩⟩, ⟨3, by decide⟩, 2, .explicit, true⟩ [4, 5])
    ⟨rfl, by decide⟩ rfl
  exact ⟨_, h₁, rfl, ((recverSystem_final_size Unit _ _ _ h₁).1 _ (List.mem_singleton_self _) rfl rfl).1 _ _
    ⟨rfl, by decide⟩ (.inl (by decide))⟩

/-- A stream whose only byte came with FIN is complete. Data at offset 5 is then ignored, not refused. -/
theorem recverSystem_final_size_ignored : ∃ w, (recverSystem Unit ⟨⟨0, by decide⟩⟩ 10).Reach w ∧
    (∃ f ∈ w.accepted, f.isFin = true ∧ f.range.stop = 1) ∧
    Incoming.recvData w.recver ⟨⟨⟨0, by decide⟩⟩, ⟨5, by decide⟩, 1, .explicit, false⟩ [6] =
      some (.ok (false, 0), w.recver) := by
  have h₀ : (recverSystem Unit ⟨⟨0, by decide⟩⟩ 10).Reach _ := .start rfl
  have h₁ := h₀.step (e := RecverOp.recvData ⟨⟨⟨0, by decide⟩⟩, ⟨0, by decide⟩, 1, .explicit, true⟩ [1])
    ⟨rfl, by decide⟩ rfl
  exact ⟨_, h₁, ⟨_, List.mem_singleton_self _, rfl, rfl⟩, rfl⟩

end Dquic
