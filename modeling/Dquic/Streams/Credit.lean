import Dquic.Streams.DataRuns

/-!
# The credit of the peer

Under `ConsistentConcurrency` (`qbase/src/sid/handy.rs`) the peer may open one more stream for
each of its streams that has ended.
-/

namespace Dquic

open Lib

variable {ε : Type}

/-! ### What the log says about limits -/

namespace StreamsEvent

def endsIn (dir : Dir) : StreamsEvent → Bool
  | ended sid => sid.dir = dir
  | _ => false

def limitFor (dir : Dir) : StreamsEvent → Option Nat
  | ctrl (.maxStreams f) => if f.dir = dir then some f.count.val else none
  | _ => none

def endedSid : StreamsEvent → Option StreamId
  | ended sid => some sid
  | _ => none

end StreamsEvent

/-! ### The limit grows with each end -/

/-- The strategy, the stored limit and the limits that were sent all count the ends in the log. -/
structure Credited (start r : RemoteStreamIds ConsistentConcurrency) (log : List StreamsEvent) : Prop where
  counts : r.ctrl.maxStreams = r.max
  limit : ∀ dir, r.max dir = start.max dir + log.countP (·.endsIn dir)
  sent : ∀ dir, log.filterMap (·.limitFor dir) = List.range' (start.max dir + 1) (log.countP (·.endsIn dir))

variable {start r r' : RemoteStreamIds ConsistentConcurrency} {log events : List StreamsEvent}

lemma Credited.append (h : Credited start r log) (hends : ∀ dir, events.countP (·.endsIn dir) = 0)
    (hsent : ∀ dir, events.filterMap (·.limitFor dir) = []) : Credited start r (log ++ events) := by
  refine ⟨h.counts, ?_, ?_⟩
  · intro dir
    rw [List.countP_append, hends, Nat.add_zero]
    exact h.limit dir
  · intro dir
    rw [List.countP_append, hends, Nat.add_zero, List.filterMap_append, hsent, List.append_nil]
    exact h.sent dir

lemma countP_endsIn_of_isLimit (hevents : ∀ x ∈ events, x.isLimit = false) (dir : Dir) :
    events.countP (·.endsIn dir) = 0 := by
  apply List.countP_eq_zero.mpr
  intro x hx hends
  cases x with
  | data f => cases hends
  | ctrl f => cases hends
  | ended sid => cases hevents _ hx

lemma filterMap_limitFor_of_isLimit (hevents : ∀ x ∈ events, x.isLimit = false) (dir : Dir) :
    events.filterMap (·.limitFor dir) = [] := by
  apply List.filterMap_eq_nil_iff.mpr
  intro x hx
  cases x with
  | data f => rfl
  | ctrl f =>
    cases f with
    | maxStreams f => cases hevents _ hx
    | _ => rfl
  | ended sid => rfl

variable {frame : Option MaxStreamsFrame} {sid : StreamId} {κ : Type}

lemma eq_none_of_answers {dir : Dir} (h : Answers dir none frame) : frame = none :=
  Option.map_eq_none_iff.mp h.count

lemma Credited.ended (h : Credited start r log) (hrole : sid.role = r.role)
    (hend : r.onEndOfStream sid = some (r', frame)) :
    Credited start r' (log ++ .ended sid :: DataStreams.limitEvents frame) := by
  obtain ⟨hne, -⟩ | ⟨-, answer, ctrl, hanswer, hframe, rfl⟩ := RemoteStreamIds.onEndOfStream_eq_some hend
  · exact absurd hrole hne
  obtain ⟨limit, hlimit, hanswer⟩ := of_bind hanswer
  cases hanswer
  have hnext : limit = r.max sid.dir + 1 := by rw [checkedAdd_eq_some hlimit, h.counts]
  obtain ⟨f, rfl, hcount⟩ := Option.map_eq_some_iff.mp hframe.count
  have hdir := hframe.dir f rfl
  have hends : ∀ dir, (StreamsEvent.ended sid :: DataStreams.limitEvents (some f)).countP (·.endsIn dir) =
      if dir = sid.dir then 1 else 0 := by
    intro dir
    change List.countP _ [StreamsEvent.ended sid, .ctrl (.maxStreams f)] = _
    by_cases heq : dir = sid.dir
    · simp [StreamsEvent.endsIn, heq]
    · simp [StreamsEvent.endsIn, heq, Ne.symm heq]
  refine ⟨?_, ?_, ?_⟩
  · change Function.update r.ctrl.maxStreams sid.dir limit = Function.update r.max f.dir f.count.val
    rw [h.counts, hdir, hcount]
  · intro dir
    change Function.update r.max f.dir f.count.val dir = _
    rw [List.countP_append, hends, hdir, hcount]
    by_cases heq : dir = sid.dir
    · rw [heq, Function.update_self, if_pos rfl, hnext, h.limit]
      rfl
    · rw [Function.update_of_ne heq, if_neg heq]
      exact h.limit dir
  · intro dir
    rw [List.filterMap_append, List.countP_append, hends, h.sent]
    change _ ++ List.filterMap _ [StreamsEvent.ended sid, .ctrl (.maxStreams f)] = _
    by_cases heq : dir = sid.dir
    · have hnew : [StreamsEvent.ended sid, .ctrl (.maxStreams f)].filterMap (·.limitFor dir) = [limit] := by
        simp [StreamsEvent.limitFor, hdir, heq, hcount]
      rw [hnew, if_pos heq, List.range'_concat, hnext, ← heq, h.limit, Nat.one_mul]
      congr 2
      omega
    · have hnew : [StreamsEvent.ended sid, .ctrl (.maxStreams f)].filterMap (·.limitFor dir) = [] := by
        simp [StreamsEvent.limitFor, hdir, Ne.symm heq]
      rw [hnew, if_neg heq, List.append_nil]
      rfl

lemma Credited.step (h : Credited start r log) (hstep : RemoteStep r events r') : Credited start r' (log ++ events) := by
  cases hstep with
  | idle hevents => exact h.append (countP_endsIn_of_isLimit hevents) (filterMap_limitFor_of_isLimit hevents)
  | accept haccept =>
    obtain ⟨-, ⟨-, -, rfl, rfl⟩ | ⟨-, ⟨-, -, rfl, rfl⟩ | ⟨-, -, answer, ctrl, hanswer, hframe, rfl⟩⟩⟩ :=
      RemoteStreamIds.tryAcceptSid_eq_some haccept
    · exact h.append (fun _ => rfl) fun _ => rfl
    · exact h.append (fun _ => rfl) fun _ => rfl
    · cases hanswer
      obtain rfl := eq_none_of_answers hframe
      exact Credited.append ⟨h.counts, h.limit, h.sent⟩ (fun _ => rfl) fun _ => rfl
  | ended hrole hend => exact h.ended hrole hend
  | blocked hblocked =>
    obtain ⟨answer, ctrl, hanswer, hframe, rfl⟩ := RemoteStreamIds.recvStreamsBlockedFrame_eq_some hblocked
    cases hanswer
    obtain rfl := eq_none_of_answers hframe
    exact Credited.append ⟨h.counts, h.limit, h.sent⟩ (fun _ => rfl) fun _ => rfl

lemma credited_of_logged (hstart : start.ctrl.maxStreams = start.max) (h : Logged RemoteStep start log r) :
    Credited start r log := by
  apply h.invariant (I := fun r log => Credited start r log) (l := []) (fun _ _ _ _ hr hstep => hr.step hstep)
  exact ⟨hstart, fun _ => rfl, fun _ => rfl⟩

/-! ### The number of ends -/

/-- Both halves of a stream that was created are terminated, as far as it has them. -/
def DataStreams.isTerminated {κ : Type} (d : DataStreams ε κ) (sid : StreamId) : Bool :=
  (d.streams sid).any fun e => !e.sendOpen && !e.recvOpen

lemma isTerminated_of_some {d : DataStreams ε κ} {e : StreamEntry ε} (he : d.streams sid = some e)
    (hconsistent : e.Consistent sid) : d.isTerminated sid = e.io.isTerminated := by
  rw [DataStreams.isTerminated, he, IOState.isTerminated, hconsistent.sending, hconsistent.receiving]
  rfl

/-- The end of a stream is in the log once if the stream is one of the peer and terminated, and never otherwise. -/
lemma DataStreams.Sound.count_ended [ControlStreamsConcurrency κ] {d : DataStreams ε κ} {start : RemoteStreamIds κ}
    (h : d.Sound start log) (sid : StreamId) :
    log.count (.ended sid) = if sid.role ≠ d.role ∧ d.isTerminated sid = true then 1 else 0 := by
  cases hstream : d.streams sid with
  | none =>
    have hkept := h.kept sid
    rw [hstream] at hkept
    rw [count_ended_of_about hkept, DataStreams.isTerminated, hstream]
    exact (if_neg fun hboth => absurd hboth.2 Bool.false_ne_true).symm
  | some e =>
    have hkept := h.kept_of_some hstream
    rw [hkept.ended, isTerminated_of_some hstream hkept.consistent]
    apply if_congr _ rfl rfl
    rw [Role.eq_not_iff]
    exact and_comm

/-- The streams of a direction whose end is logged are as many as there are ends of that direction. -/
lemma ncard_ended (log : List StreamsEvent) (honce : ∀ sid, log.count (.ended sid) ≤ 1) (dir : Dir) :
    {sid : StreamId | sid.dir = dir ∧ .ended sid ∈ log}.ncard = log.countP (·.endsIn dir) := by
  have hcount : ∀ sid, (log.filterMap StreamsEvent.endedSid).count sid = log.count (.ended sid) := by
    intro sid
    rw [List.count_filterMap, List.count]
    apply List.countP_congr
    intro x _
    cases x with
    | data | ctrl | ended => simp [StreamsEvent.endedSid]
  have hnodup : (log.filterMap StreamsEvent.endedSid).Nodup :=
    List.nodup_iff_count_le_one.mpr fun sid => (hcount sid).trans_le (honce sid)
  have hset : {sid : StreamId | sid.dir = dir ∧ .ended sid ∈ log} =
      ((log.filterMap StreamsEvent.endedSid).filter (·.dir = dir)).toFinset := by
    ext sid
    rw [Set.mem_ofPred_eq, Finset.mem_coe, List.mem_toFinset, List.mem_filter, decide_eq_true_eq, and_comm,
      ← List.one_le_count_iff, ← hcount, List.one_le_count_iff]
  rw [hset, Set.ncard_coe_finset, List.toFinset_card_of_nodup (hnodup.filter _), ← List.countP_eq_length_filter,
    List.countP_filterMap]
  apply List.countP_congr
  intro x _
  cases x with
  | data | ctrl | ended => simp [StreamsEvent.endedSid, StreamsEvent.endsIn]

/-! ### Conservation -/

/-- The limits of a direction that the peer was given, the initial one first. -/
def StreamsWorld.advertised {κ : Type} (w : StreamsWorld ε κ) (parameters : StreamParameters) (dir : Dir) : List Nat :=
  (parameters.initialMaxStreams dir).val :: w.log.filterMap (·.limitFor dir)

/-- The strategy learns the end of a stream exactly once, when the last half of a stream of the peer is terminated. The
limit of a direction is the initial one and the number of those streams, and each step up to it was advertised. -/
theorem streamsSystem_credit (role : Role) (parameters remoteParameters : StreamParameters)
    (w : StreamsWorld ε ConsistentConcurrency) (hr : (streamsSystem role parameters remoteParameters
      (ConsistentConcurrency.mk fun dir => (parameters.initialMaxStreams dir).val)).Reach w) :
    (∀ sid, w.log.count (.ended sid) = if sid.role ≠ role ∧ w.streams.isTerminated sid = true then 1 else 0) ∧
    ∀ dir, ∃ n, n = {sid : StreamId | sid.role ≠ role ∧ sid.dir = dir ∧ w.streams.isTerminated sid = true}.ncard ∧
      w.streams.remoteIds.max dir = (parameters.initialMaxStreams dir).val + n ∧
      w.advertised parameters dir = List.range' (parameters.initialMaxStreams dir).val (n + 1) := by
  have hsound := streamsSystem_sound hr
  have hrole : w.streams.role = role := by
    apply Role.not_injective
    exact hsound.aligned.1.symm
  have hcount := hsound.count_ended
  rw [hrole] at hcount
  refine ⟨hcount, ?_⟩
  intro dir
  have honce : ∀ sid, w.log.count (.ended sid) ≤ 1 := by
    intro sid
    rw [hcount sid]
    split_ifs
    · exact le_rfl
    · exact Nat.zero_le 1
  have hset : {sid : StreamId | sid.role ≠ role ∧ sid.dir = dir ∧ w.streams.isTerminated sid = true} =
      {sid : StreamId | sid.dir = dir ∧ .ended sid ∈ w.log} := by
    ext sid
    rw [Set.mem_ofPred_eq, Set.mem_ofPred_eq, ← List.one_le_count_iff, hcount sid, and_left_comm]
    apply and_congr_right'
    split_ifs with hended
    · exact iff_of_true hended le_rfl
    · exact iff_of_false hended (by decide)
  have hcredit := credited_of_logged rfl hsound.remote
  refine ⟨_, rfl, ?_, ?_⟩
  · rw [hset, ncard_ended w.log honce]
    exact hcredit.limit dir
  · rw [hset, ncard_ended w.log honce, StreamsWorld.advertised, hcredit.sent dir, List.range'_succ]
    rfl

/-- The client may open one unidirectional stream. It sends one byte with the end, so it may open a second one. -/
theorem streamsSystem_credit_two :
    ∃ w : StreamsWorld Unit ConsistentConcurrency,
      (streamsSystem .server (.uniform ⟨1, by decide⟩) (.uniform ⟨1, by decide⟩) (ConsistentConcurrency.mk fun _ => 1)).Reach w ∧
      w.streams.remoteIds.max .uni = 2 ∧
      ∃ n, n = {sid : StreamId | sid.role ≠ .server ∧ sid.dir = .uni ∧ w.streams.isTerminated sid = true}.ncard ∧
        w.streams.remoteIds.max .uni = 1 + n ∧ w.advertised (.uniform ⟨1, by decide⟩) .uni = List.range' 1 (n + 1) := by
  have h₀ : (streamsSystem .server (.uniform ⟨1, by decide⟩) (.uniform ⟨1, by decide⟩)
      (ConsistentConcurrency.mk fun _ => 1)).Reach (_ : StreamsWorld Unit ConsistentConcurrency) := .start rfl
  have h₁ := h₀.step (e := StreamsOp.recvData ⟨⟨⟨2, by decide⟩⟩, ⟨0, by decide⟩, 1, .explicit, true⟩ [7]) trivial rfl
  exact ⟨_, h₁, rfl, (streamsSystem_credit .server (.uniform ⟨1, by decide⟩) (.uniform ⟨1, by decide⟩) _ h₁).2 .uni⟩

end Dquic
