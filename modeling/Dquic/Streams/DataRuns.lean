import Dquic.Streams.Invariant

/-!
# Runs of all streams

Frames of the peer, acknowledgements and calls of the application in any order. Every call keeps
the invariant of all streams, and none ends in an `unreachable!()`.
-/

namespace Dquic

open Lib

variable {ε κ : Type}

namespace DataStreams

section Calls

variable [ControlStreamsConcurrency κ] {d : DataStreams ε κ} {start : RemoteStreamIds κ}
  {log : List StreamsEvent} {sid : StreamId}

/-! ### Calls on one half -/

def SenderCall (sid : StreamId) (s : ArcSender ε) (x : Call (ArcSender ε × List StreamsEvent)) : Prop :=
  x.Safe fun r => s.Continues r.1 ∧ ∀ y ∈ r.2, y.SentBy sid r.1

def RecverCall (s : ArcRecver ε) (x : Call (ArcRecver ε × List StreamsEvent)) : Prop :=
  x.Safe fun r => s.Continues r.1 ∧ ∀ y ∈ r.2, y.about = none ∧ y.isLimit = false

variable {f : ArcSender ε → Call (ArcSender ε × List StreamsEvent)} {frame : StreamFrame}

lemma onSender_safe (h : d.Sound start log) (hf : ∀ s, s.Named sid → SenderCall sid s (f s)) :
    (d.onSender sid f).Safe fun r => r.1.Sound start (log ++ r.2) := by
  unfold onSender
  cases he : d.streams sid with
  | none => exact h.nil
  | some e =>
    dsimp only
    cases hs : e.sender with
    | none => exact h.nil
    | some s =>
      apply Meets.bind (hf s ((h.kept_of_some he).consistent.named s hs))
      rintro ⟨s', events⟩ ⟨hcontinues, hevents⟩
      exact h.send he hs hcontinues hevents

lemma onRecver_safe (h : d.Sound start log) {f : ArcRecver ε → Call (ArcRecver ε × List StreamsEvent)}
    (hf : ∀ s, RecverCall s (f s)) : (d.onRecver sid f).Safe fun r => r.1.Sound start (log ++ r.2) := by
  unfold onRecver
  cases he : d.streams sid with
  | none => exact h.nil
  | some e =>
    dsimp only
    cases hs : e.recver with
    | none => exact h.nil
    | some s =>
      apply Meets.bind (hf s)
      rintro ⟨s', events⟩ ⟨hcontinues, hevents⟩
      exact h.recv he hs hcontinues id (fun x hx => (hevents x hx).1) fun x hx => (hevents x hx).2

lemma onOutgoing_safe (h : d.Sound start log) (hf : ∀ e s, d.outgoing sid = some (e, s) → SenderCall sid s (f s)) :
    (d.onOutgoing sid f).Safe fun r => r.1.Sound start (log ++ r.2) := by
  unfold onOutgoing
  cases hout : d.outgoing sid with
  | none => exact h.nil
  | some r =>
    obtain ⟨e, s⟩ := r
    obtain ⟨he, hs, -⟩ := outgoing_eq_some hout
    apply Meets.bind (hf e s hout)
    rintro ⟨s', events⟩ ⟨hcontinues, hevents⟩
    exact h.send he hs hcontinues hevents

/-! ### Acknowledgements and losses -/

lemma Sound.not_ready (h : d.Sound start log) (hissued : .data frame ∈ log) {e : StreamEntry ε} {s : ArcSender ε}
    (hout : d.outgoing frame.id = some (e, s)) : s.isReady = false := by
  obtain ⟨he, hs, -⟩ := outgoing_eq_some hout
  obtain ⟨t, ht, hready⟩ := (h.kept_of_some he).accounts.sent frame hissued rfl
  rw [hs] at ht
  cases ht
  exact hready

lemma onDataAcked_safe (h : d.Sound start log) (hissued : .data frame ∈ log) :
    (d.onDataAcked frame).Safe fun r => r.1.Sound start (log ++ r.2) := by
  unfold onDataAcked
  cases hout : d.outgoing frame.id with
  | none => exact h.nil
  | some r =>
    obtain ⟨e, s⟩ := r
    obtain ⟨he, hs, houtgoing⟩ := outgoing_eq_some hout
    dsimp only
    rw [h.not_ready hissued hout, if_neg Bool.false_ne_true]
    apply Meets.bind (Call.safe_of fun r hr => hr)
    rintro ⟨isAllRcvd, s'⟩ hacked
    obtain ⟨hfollows, hall, hnot⟩ := Outgoing.onDataAcked_follows hacked
    cases isAllRcvd with
    | true => exact finish_safe h he fun events hends => .finishSend houtgoing hs hfollows (hall rfl) hends
    | false => exact h.send he hs ⟨hfollows, hnot rfl⟩ (List.forall_mem_nil _)

lemma mayLossData_safe (h : d.Sound start log) (hissued : .data frame ∈ log) :
    (d.mayLossData frame).Safe fun r => r.1.Sound start (log ++ r.2) := by
  apply onOutgoing_safe h
  intro e s hout
  unfold SenderCall
  rw [h.not_ready hissued hout, if_neg Bool.false_ne_true]
  apply Meets.bind (Call.safe_of fun r hr => hr)
  intro s' hlost
  exact ⟨Outgoing.mayLossData_continues hlost, List.forall_mem_nil _⟩

lemma onResetAcked_safe (h : d.Sound start log) {frame : ResetStreamFrame} (hissued : .ctrl (.resetStream frame) ∈ log) :
    (d.onResetAcked frame).Safe fun r => r.1.Sound start (log ++ r.2) := by
  unfold onResetAcked
  cases hout : d.outgoing frame.streamId with
  | none => exact h.nil
  | some r =>
    obtain ⟨e, s⟩ := r
    obtain ⟨he, hs, houtgoing⟩ := outgoing_eq_some hout
    obtain ⟨t, ht, hreset⟩ := (h.kept_of_some he).accounts.reset frame hissued rfl
    rw [hs] at ht
    cases ht
    obtain ⟨s', hacked, hfollows, hdone⟩ := Outgoing.onResetAcked_of_isReset hreset
    dsimp only
    rw [hacked]
    exact finish_safe h he fun events hends => .finishSend houtgoing hs hfollows hdone hends

/-! ### Frames of the peer -/

/-- A handler that keeps the invariant, whether it fails or not. -/
abbrev Keeps {α : Type} (start : RemoteStreamIds κ) (log : List StreamsEvent) (x : Call (Handled ε κ α)) : Prop :=
  x.Safe fun r => r.2.1.Sound start (log ++ r.2.2)

lemma Keeps.andThen {α β : Type} {x : Call (Handled ε κ α)} {f : α → DataStreams ε κ → Call (Handled ε κ β)}
    (hx : Keeps start log x) (hf : ∀ a (d : DataStreams ε κ) log, d.Sound start log → Keeps start log (f a d)) :
    Keeps start log (x.andThen f) := by
  apply Meets.bind hx
  rintro ⟨res, d, events⟩ hd
  cases res with
  | error e => exact hd
  | ok a =>
    apply Meets.bind (hf a d _ hd)
    rintro ⟨res, d', more⟩ hd'
    rw [List.append_assoc] at hd'
    exact hd'

lemma acceptOr_keeps (h : d.Sound start log) (sid : StreamId) (fty : FrameType) : Keeps start log (d.acceptOr sid fty) := by
  apply Meets.bind (tryAcceptSid_safe h sid)
  rintro ⟨res, d', events⟩ hd'
  cases res with
  | error e => exact hd'
  | ok u => exact hd'

lemma fromSender_keeps (h : d.Sound start log) (sid : StreamId) (fty : FrameType) (name : String) :
    Keeps start log (d.fromSender sid fty name) := by
  unfold fromSender
  split_ifs
  · exact acceptOr_keeps h sid fty
  · exact h.nil
  · exact h.nil

lemma fromReceiver_keeps (h : d.Sound start log) (sid : StreamId) (fty : FrameType) (name : String) :
    Keeps start log (d.fromReceiver sid fty name) := by
  unfold fromReceiver
  split_ifs
  · exact h.nil
  · exact acceptOr_keeps h sid fty
  · exact h.nil

lemma onNewRcvd_keeps (h : d.Sound start log) (frameType : FrameType) (amount : Nat) :
    Keeps start log (d.onNewRcvd frameType amount) := by
  apply Meets.bind (Call.safe_of fun r hr => hr)
  rintro ⟨res, flowRecver, frame⟩ -
  have hevents : ∀ x ∈ frame.toList.map fun f => StreamsEvent.ctrl (.maxData f), x.about = none ∧ x.isLimit = false := by
    intro x hx
    obtain ⟨f, -, rfl⟩ := List.mem_map.mp hx
    exact ⟨rfl, rfl⟩
  exact h.same rfl rfl rfl (.idle fun x hx => (hevents x hx).2) (fun _ ht => ht) fun x hx => (hevents x hx).1

lemma deliver_keeps (h : d.Sound start log) (frame : StreamFrame) (body : Bytes) : Keeps start log (d.deliver frame body) := by
  unfold deliver
  cases hin : d.incoming frame.id with
  | none => exact h.nil
  | some r =>
    obtain ⟨e, s⟩ := r
    obtain ⟨he, hs, hincoming⟩ := incoming_eq_some hin
    apply Meets.bind (Call.safe_of fun r hr => hr)
    rintro ⟨res, s'⟩ hrecv
    obtain ⟨hdone, hcontinues⟩ := Incoming.recvData_terminates hrecv
    have hopen : (∀ n, res ≠ .ok (true, n)) → (d.put frame.id { e with recver := some s' }).Sound start (log ++ []) :=
      fun hres => h.recv he hs (hcontinues hres) id (List.forall_mem_nil _) (List.forall_mem_nil _)
    cases res with
    | error err => exact hopen fun n hn => by cases hn
    | ok r =>
      obtain ⟨isIntoRcvd, freshData⟩ := r
      cases isIntoRcvd with
      | true =>
        apply Meets.bind (finish_safe h he fun events hends => .finishRecv hincoming (hdone freshData rfl) hends)
        rintro ⟨d', events⟩ hd'
        exact hd'
      | false => exact hopen fun n hn => by cases hn

lemma recvData_keeps (h : d.Sound start log) (frame : StreamFrame) (body : Bytes) :
    Keeps start log (d.recvData frame body) := by
  unfold recvData
  split_ifs
  · exact h.nil
  · apply (fromSender_keeps h frame.id frame.frameType _).andThen
    intro _ d log hd
    apply (deliver_keeps hd frame body).andThen
    intro fresh d log hd
    exact onNewRcvd_keeps hd frame.frameType fresh

lemma resetIncoming_keeps (h : d.Sound start log) (frame : ResetStreamFrame) : Keeps start log (d.resetIncoming frame) := by
  unfold resetIncoming
  cases hin : d.incoming frame.streamId with
  | none => exact h.nil
  | some r =>
    obtain ⟨e, s⟩ := r
    obtain ⟨he, hs, hincoming⟩ := incoming_eq_some hin
    obtain ⟨hopen, hok⟩ := (h.kept_of_some he).consistent.of_incoming hincoming hs
    obtain ⟨res, s', hreset, hdone, hwrong⟩ := Incoming.recvReset_of_open hopen hok frame
    dsimp only
    rw [hreset]
    cases res with
    | error err =>
      obtain rfl := hwrong err rfl
      exact h.recv he hs (.refl s') (fun hfalse => absurd hfalse Bool.false_ne_true)
        (List.forall_mem_nil _) (List.forall_mem_nil _)
    | ok freshData =>
      apply Meets.bind (finish_safe h he fun events hends => .finishRecv hincoming (hdone freshData rfl) hends)
      rintro ⟨d', events⟩ hd'
      exact hd'

lemma stopOutgoing_safe (h : d.Sound start log) (frame : StopSendingFrame) :
    (d.stopOutgoing frame).Safe fun r => r.1.Sound start (log ++ r.2) := by
  apply onOutgoing_safe h
  intro e s hout
  apply Meets.bind (Call.safe_of fun r hr => hr)
  rintro ⟨finalSize, s'⟩ hstopped
  obtain ⟨hcontinues, hreset⟩ := Outgoing.beStopped_continues hstopped
  cases finalSize with
  | none => exact ⟨hcontinues, List.forall_mem_nil _⟩
  | some n =>
    apply Meets.bind (Call.safe_of fun r hr => hr)
    intro finalSize _
    refine ⟨hcontinues, ?_⟩
    intro x hx
    obtain rfl := List.mem_singleton.mp hx
    exact ⟨rfl, hreset (Option.some_ne_none n)⟩

lemma updateWindow_safe (h : d.Sound start log) (frame : MaxStreamDataFrame) :
    (d.updateWindow frame).Safe fun r => r.1.Sound start (log ++ r.2) := by
  apply onOutgoing_safe h
  intro e s hout
  apply Meets.bind (Call.safe_of fun r hr => hr)
  intro s' hwindow
  exact ⟨ArcSender.updateWindow_continues hwindow, List.forall_mem_nil _⟩

lemma control_keeps (h : d.Sound start log) (frame : StreamCtlFrame) : Keeps start log (d.control frame) := by
  cases frame with
  | maxData f => exact h.nil
  | dataBlocked f => exact h.nil
  | resetStream f =>
    rw [control]
    apply (fromSender_keeps h f.streamId .resetStream _).andThen
    intro _ d log hd
    exact resetIncoming_keeps hd f
  | stopSending f =>
    rw [control]
    apply (fromReceiver_keeps h f.streamId .stopSending _).andThen
    intro _ d log hd
    apply Meets.bind (stopOutgoing_safe hd f)
    rintro ⟨d', events⟩ hd'
    exact hd'
  | maxStreamData f =>
    rw [control]
    apply (fromReceiver_keeps h f.streamId .maxStreamData _).andThen
    intro _ d log hd
    apply Meets.bind (updateWindow_safe hd f)
    rintro ⟨d', events⟩ hd'
    exact hd'
  | maxStreams f =>
    apply Meets.bind (Call.safe_of fun r hr => hr)
    intro localIds hlocal
    obtain rfl := LocalStreamIds.recvMaxStreamsFrame_eq_some hlocal
    refine Sound.nil ?_
    exact h.of_same rfl rfl rfl rfl fun _ ht => ht
  | streamDataBlocked f =>
    rw [control]
    apply (fromSender_keeps h f.streamId .streamDataBlocked _).andThen
    intro _ d log hd
    exact hd.nil
  | streamsBlocked f =>
    apply Meets.bind (Call.safe_of fun r hr => hr)
    rintro ⟨remoteIds, limit⟩ hblocked
    have hremote := RemoteStreamIds.recvStreamsBlockedFrame_eq_some hblocked
    refine h.same rfl rfl rfl (.blocked hblocked) ?_ about_of_mem_limitEvents
    obtain ⟨answer, ctrl, -, -, rfl⟩ := hremote
    exact fun _ ht => ht

lemma recvStreamControl_keeps (h : d.Sound start log) (frame : StreamCtlFrame) :
    Keeps start log (d.recvStreamControl frame) := by
  have hcontrol : Keeps start log (if d.closed.isSome then .ok (.ok 0, d, []) else
      (d.control frame).andThen fun fresh d => d.onNewRcvd frame.frameType fresh) := by
    split_ifs
    · exact h.nil
    · apply (control_keeps h frame).andThen
      intro fresh d log hd
      exact onNewRcvd_keeps hd frame.frameType fresh
  cases frame with
  | maxData f =>
    refine Sound.nil ?_
    exact h.of_same rfl rfl rfl rfl fun _ ht => ht
  | dataBlocked f => exact h.nil
  | resetStream | stopSending | maxStreamData | maxStreams | streamDataBlocked | streamsBlocked => exact hcontrol

/-! ### All calls -/

lemma acceptBi_safe (h : d.Sound start log) : (d.acceptBi).Safe fun r => r.2.1.Sound start (log ++ r.2.2) := by
  unfold acceptBi
  split
  · exact h.nil
  · exact h.nil
  · rename_i sid rest _ _
    have hrest : ({ d with biStreams := rest } : DataStreams ε κ).Sound start log :=
      h.of_same rfl rfl rfl rfl fun _ ht => ht
    refine Meets.bind (onSender_safe hrest ?_) ?_
    · intro s _
      apply Meets.bind (Call.safe_of fun r hr => hr)
      intro s' hwindow
      exact ⟨ArcSender.updateWindow_continues hwindow, List.forall_mem_nil _⟩
    · rintro ⟨d', events⟩ hd'
      exact hd'

lemma acceptUni_sound (h : d.Sound start log) : d.acceptUni.2.Sound start log := by
  unfold acceptUni
  split
  · exact h
  · exact h
  · exact h.of_same rfl rfl rfl rfl fun _ ht => ht

lemma onError_sound (h : d.Sound start log) (err : ε) : (d.onError err).Sound start log := by
  unfold onError
  split_ifs
  · exact h
  · rw [← List.append_nil log]
    refine h.step rfl rfl (.refl _) ?_ ?_
    · intro sid
      dsimp only
      cases d.streams sid with
      | none => exact .idle (List.forall_mem_nil _)
      | some e => exact .fail err
    · intro sid hsid
      apply h.used
      dsimp only at hsid
      rwa [Option.isSome_map] at hsid

/-- The frames that were acknowledged or lost are among those that left the streams. -/
def Issued (log : List StreamsEvent) : StreamsOp ε → Prop
  | .onDataAcked frame => .data frame ∈ log
  | .mayLossData frame => .data frame ∈ log
  | .onResetAcked frame => .ctrl (.resetStream frame) ∈ log
  | _ => True

/-- No call ends in an `unreachable!()`, and those that return keep the invariant. -/
theorem run_safe (h : d.Sound start log) (op : StreamsOp ε) (hissued : Issued log op) :
    (d.run op).Safe fun r => r.1.Sound start (log ++ r.2) := by
  cases op with
  | recvData frame body =>
    apply Meets.bind (recvData_keeps h frame body)
    rintro ⟨res, d', events⟩ hd'
    exact hd'
  | recvStreamControl frame =>
    apply Meets.bind (recvStreamControl_keeps h frame)
    rintro ⟨res, d', events⟩ hd'
    exact hd'
  | onDataAcked frame => exact onDataAcked_safe h hissued
  | mayLossData frame => exact mayLossData_safe h hissued
  | onResetAcked frame => exact onResetAcked_safe h hissued
  | pollDump sid capacity credit budget =>
    apply onOutgoing_safe h
    intro e s hout
    apply Meets.bind (Call.safe_of fun r hr => hr)
    rintro ⟨dump, s'⟩ hdump
    obtain ⟨hcontinues, hready, hid⟩ := Outgoing.pollDump_continues hdump
    refine ⟨hcontinues, ?_⟩
    intro x hx
    obtain ⟨he, hs, -⟩ := outgoing_eq_some hout
    have hnamed := (h.kept_of_some he).consistent.named s hs
    cases dump with
    | error poll => cases hx
    | ok dump =>
      obtain rfl := List.mem_singleton.mp hx
      exact ⟨hid dump rfl sid hnamed, hready⟩
  | openBi sndBufSize =>
    apply Meets.bind (pollOpenBiWithLimit_safe h sndBufSize)
    rintro ⟨res, d', events⟩ hd'
    exact hd'
  | openUni sndBufSize =>
    apply Meets.bind (pollOpenUniWithLimit_safe h sndBufSize)
    rintro ⟨res, d', events⟩ hd'
    exact hd'
  | acceptBi =>
    apply Meets.bind (acceptBi_safe h)
    rintro ⟨res, d', events⟩ hd'
    exact hd'
  | acceptUni => exact (acceptUni_sound h).nil
  | write sid data =>
    apply onSender_safe h
    intro s _
    apply Meets.bind (Call.safe_of fun r hr => hr)
    rintro ⟨res, s'⟩ hwrite
    exact ⟨Writer.write_continues hwrite, List.forall_mem_nil _⟩
  | shutdown sid =>
    apply onSender_safe h
    intro s _
    apply Meets.bind (Call.safe_of fun r hr => hr)
    rintro ⟨res, s'⟩ hshutdown
    exact ⟨Writer.pollShutdown_continues hshutdown, List.forall_mem_nil _⟩
  | cancel sid errCode =>
    apply onSender_safe h
    intro s hnamed
    apply Meets.bind (Call.safe_of fun r hr => hr)
    rintro ⟨frame, s'⟩ hcancel
    obtain ⟨hcontinues, hframe⟩ := Writer.cancel_continues hcancel
    refine ⟨hcontinues, ?_⟩
    intro x hx
    obtain ⟨f, hf, rfl⟩ := List.mem_map.mp hx
    obtain ⟨hreset, hid⟩ := hframe f (Option.mem_toList.mp hf)
    exact ⟨hid sid hnamed, hreset⟩
  | stop sid errorCode =>
    apply onRecver_safe h
    intro s
    apply Meets.bind (Call.safe_of fun r hr => hr)
    rintro ⟨s', frame⟩ hstop
    refine ⟨Reader.stop_continues hstop, ?_⟩
    intro x hx
    obtain ⟨f, -, rfl⟩ := List.mem_map.mp hx
    exact ⟨rfl, rfl⟩
  | read sid room =>
    apply onRecver_safe h
    intro s
    refine ⟨(Reader.read_pollRead s room).continues, ?_⟩
    intro x hx
    obtain ⟨f, -, rfl⟩ := List.mem_map.mp hx
    exact ⟨rfl, rfl⟩
  | next sid =>
    apply onRecver_safe h
    intro s
    refine ⟨(Reader.read_pollNext s).continues, ?_⟩
    intro x hx
    obtain ⟨f, -, rfl⟩ := List.mem_map.mp hx
    exact ⟨rfl, rfl⟩
  | onError err => exact (onError_sound h err).nil

end Calls

end DataStreams

/-! ### The system -/

/-- The streams, with all that has left them and what the strategy was told. -/
structure StreamsWorld (ε κ : Type) where
  streams : DataStreams ε κ
  log : List StreamsEvent

section System

variable [ControlStreamsConcurrency κ]

/-- Any calls in any order, as long as only frames that were sent are acknowledged or lost. A run ends where a call panics. -/
def streamsSystem (role : Role) (parameters remoteParameters : StreamParameters) (ctrl : κ) :
    System (StreamsWorld ε κ) (StreamsOp ε) where
  init w := w = ⟨.new role parameters remoteParameters ctrl, []⟩
  issued w op := DataStreams.Issued w.log op
  exec w op := (w.streams.run op).toOption.map fun r => ⟨r.1, w.log ++ r.2⟩

def startIds (role : Role) (parameters : StreamParameters) (ctrl : κ) : RemoteStreamIds κ :=
  .new role.not (fun dir => (parameters.initialMaxStreams dir).val) ctrl

variable {role : Role} {parameters remoteParameters : StreamParameters} {ctrl : κ} {w : StreamsWorld ε κ}

/-- The invariant holds in every reachable state. -/
theorem streamsSystem_sound (hr : (streamsSystem role parameters remoteParameters ctrl).Reach w) :
    w.streams.Sound (startIds role parameters ctrl) w.log := by
  apply hr.invariant (I := fun w => w.streams.Sound (startIds role parameters ctrl) w.log)
  · rintro s rfl
    refine ⟨⟨rfl, fun dir => ⟨0, rfl⟩⟩, rfl, .nil _, ?_, ?_⟩
    · intro sid
      exact List.forall_mem_nil _
    · intro sid hsid
      cases hsid
  · intro s op s' hs hop hexec
    obtain ⟨r, hrun, rfl⟩ := Option.map_eq_some_iff.mp hexec
    have hok : s.streams.run op = .ok r := by
      cases hresult : s.streams.run op with
      | error p =>
        rw [hresult] at hrun
        cases hrun
      | ok x =>
        rw [hresult] at hrun
        cases hrun
        rfl
    exact (DataStreams.run_safe hs op hop).of_ok hok

/-- No call reaches an `unreachable!()`. The maps hold only halves that are alive and not terminated. -/
theorem streamsSystem_never_unreachable (role : Role) (parameters remoteParameters : StreamParameters) (ctrl : κ)
    (w : StreamsWorld ε κ) (hr : (streamsSystem role parameters remoteParameters ctrl).Reach w) :
    (∀ op, DataStreams.Issued w.log op → w.streams.run op ≠ .error .unreachable) ∧
    (∀ sid e s, w.streams.outgoing sid = some (e, s) → s.isOk = true ∧ s.isTerminated = false) ∧
    (∀ sid e s, w.streams.incoming sid = some (e, s) → s.isOk = true ∧ s.isTerminated = false) := by
  have hsound := streamsSystem_sound hr
  refine ⟨?_, ?_, ?_⟩
  · intro op hop herror
    exact (DataStreams.run_safe hsound op hop).not_bad herror rfl
  · intro sid e s hout
    obtain ⟨he, hs, houtgoing⟩ := DataStreams.outgoing_eq_some hout
    exact ((hsound.kept_of_some he).consistent.of_outgoing houtgoing hs).symm
  · intro sid e s hin
    obtain ⟨he, hs, hincoming⟩ := DataStreams.incoming_eq_some hin
    exact ((hsound.kept_of_some he).consistent.of_incoming hincoming hs).symm

end System

def StreamParameters.uniform (n : VarInt) : StreamParameters := ⟨n, n, n, n, fun _ => n⟩

/-- A stream of the client is received completely, so a late reset does not find it in the input map. A stream of the
server sends a byte, which is acknowledged before its end is. -/
theorem streamsSystem_never_unreachable_late :
    ∃ w : StreamsWorld Unit DemandConcurrency, (streamsSystem .server (.uniform ⟨9, by decide⟩) (.uniform ⟨9, by decide⟩)
      DemandConcurrency.mk).Reach w ∧
      w.streams.run (.recvStreamControl (.resetStream ⟨⟨⟨2, by decide⟩⟩, ⟨0, by decide⟩, ⟨1, by decide⟩⟩)) ≠
        .error .unreachable ∧
      w.streams.run (.onDataAcked ⟨⟨⟨3, by decide⟩⟩, ⟨0, by decide⟩, 1, .explicit, false⟩) ≠ .error .unreachable := by
  have h₀ : (streamsSystem .server (.uniform ⟨9, by decide⟩) (.uniform ⟨9, by decide⟩) DemandConcurrency.mk).Reach
      (_ : StreamsWorld Unit DemandConcurrency) := .start rfl
  have h₁ := h₀.step (e := StreamsOp.recvData ⟨⟨⟨2, by decide⟩⟩, ⟨0, by decide⟩, 1, .explicit, true⟩ [7]) trivial rfl
  have h₂ := h₁.step (e := StreamsOp.openUni 9) trivial rfl
  have h₃ := h₂.step (e := StreamsOp.write ⟨⟨3, by decide⟩⟩ [7]) trivial rfl
  have h₄ := h₃.step (e := StreamsOp.pollDump ⟨⟨3, by decide⟩⟩ 20 9 9) trivial rfl
  have hnever := (streamsSystem_never_unreachable _ _ _ _ _ h₄).1
  exact ⟨_, h₄, hnever _ trivial, hnever _ (.tail _ (.head _))⟩

end Dquic
