import Dquic.Streams.Halves

/-!
# The life of one stream

Each call changes a stream in one of a few ways.
-/

namespace Dquic

variable {ε : Type} {peer : Role} {sid : StreamId} {log events : List StreamsEvent}

/-! ### Events -/

namespace StreamsEvent

/-- The stream that an event tells something about: that its sender has sent, that it was reset, or that it has ended. -/
def about : StreamsEvent → Option StreamId
  | data f => some f.id
  | ctrl (.resetStream f) => some f.streamId
  | ctrl _ => none
  | ended sid => some sid

def SentBy (sid : StreamId) (s : ArcSender ε) : StreamsEvent → Prop
  | data f => f.id = sid ∧ s.isReady = false
  | ctrl (.resetStream f) => f.streamId = sid ∧ s.isReset = true
  | ctrl _ => False
  | ended _ => False

lemma SentBy.about_eq {s : ArcSender ε} {x : StreamsEvent} (h : x.SentBy sid s) : x.about = some sid := by
  cases x with
  | data f => exact congrArg some h.1
  | ctrl f =>
    cases f with
    | resetStream f => exact congrArg some h.1
    | _ => exact absurd h id
  | ended t => exact absurd h id

end StreamsEvent

/-- What is logged about a stream whose bits were changed: that it has ended, if it has and is one of the peer. -/
structure Ends (peer : Role) (sid : StreamId) (io : IOState) (events : List StreamsEvent) : Prop where
  told : events.count (.ended sid) = if io.isTerminated = true ∧ sid.role = peer then 1 else 0
  only : ∀ x ∈ events, x = .ended sid ∨ x.about = none

lemma Ends.silent {io : IOState} (h : Ends peer sid io events) (x : StreamsEvent) (hx : x ∈ events) :
    x = .ended sid ∨ x.about ≠ some sid := by
  cases h.only x hx with
  | inl heq => exact .inl heq
  | inr hnone =>
    rw [hnone]
    exact .inr (Option.some_ne_none sid).symm

/-! ### Changes of a stream -/

def StreamEntry.fresh (sid : StreamId) (sndBufSize rcvBufSize : Option Nat) : StreamEntry ε where
  sender := sndBufSize.map (ArcSender.new sid)
  recver := rcvBufSize.map (ArcRecver.new sid)
  io := ⟨sndBufSize.isSome, rcvBufSize.isSome⟩
  outgoing := sndBufSize.isSome
  incoming := rcvBufSize.isSome

/-- All that a call can do to one stream, with the events it adds to the log. -/
inductive StreamMove (peer : Role) (sid : StreamId) :
    Option (StreamEntry ε) → List StreamsEvent → Option (StreamEntry ε) → Prop
  | idle {x : Option (StreamEntry ε)} {events : List StreamsEvent} (h : ∀ y ∈ events, y.about ≠ some sid) :
      StreamMove peer sid x events x
  | create {snd rcv : Option Nat} (h : snd.isSome = true ∨ rcv.isSome = true) :
      StreamMove peer sid none [] (some (.fresh sid snd rcv))
  | send {e : StreamEntry ε} {s s' : ArcSender ε} {events : List StreamsEvent} (hs : e.sender = some s)
      (h : s.Continues s') (hevents : ∀ y ∈ events, y.SentBy sid s') :
      StreamMove peer sid (some e) events (some { e with sender := some s' })
  | recv {e : StreamEntry ε} {s s' : ArcRecver ε} {incoming : Bool} {events : List StreamsEvent} (hs : e.recver = some s)
      (h : s.Continues s') (hincoming : incoming = true → e.incoming = true) (hevents : ∀ y ∈ events, y.about = none) :
      StreamMove peer sid (some e) events (some { e with recver := some s', incoming := incoming })
  | finishSend {e : StreamEntry ε} {s s' : ArcSender ε} {events : List StreamsEvent} (hout : e.outgoing = true)
      (hs : e.sender = some s) (h : s.Follows s') (hdone : s'.isTerminated = true)
      (hevents : Ends peer sid e.io.shutdownSend events) :
      StreamMove peer sid (some e) events
        (some { e with sender := some s', io := e.io.shutdownSend, outgoing := false })
  | finishRecv {e : StreamEntry ε} {s' : ArcRecver ε} {events : List StreamsEvent} (hin : e.incoming = true)
      (hdone : s'.isTerminated = true) (hevents : Ends peer sid e.io.shutdownReceive events) :
      StreamMove peer sid (some e) events
        (some { e with recver := some s', io := e.io.shutdownReceive, incoming := false })
  | fail {e : StreamEntry ε} (err : ε) : StreamMove peer sid (some e) [] (some (e.fail err))

/-! ### Bits, halves and maps -/

namespace StreamEntry

/-- There is a sending half, and it is not terminated. -/
def sendOpen (e : StreamEntry ε) : Bool := e.sender.any (!·.isTerminated)

/-- There is a receiving half, and it is not terminated. -/
def recvOpen (e : StreamEntry ε) : Bool := e.recver.any (!·.isTerminated)

/-- The bits say which halves are open, and the maps hold only such halves. -/
structure Consistent (e : StreamEntry ε) (sid : StreamId) : Prop where
  named : ∀ s, e.sender = some s → s.Named sid
  sending : e.io.sending = e.sendOpen
  receiving : e.io.receiving = e.recvOpen
  outgoing : e.outgoing = true → e.sendOpen = true ∧ ∀ s, e.sender = some s → s.isOk = true
  incoming : e.incoming = true → e.recvOpen = true ∧ ∀ s, e.recver = some s → s.isOk = true

variable {e : StreamEntry ε}

variable {s s' : ArcSender ε}

lemma sendOpen_of_some (h : e.sender = some s) : e.sendOpen = !s.isTerminated := by
  rw [sendOpen, h]
  rfl

lemma recvOpen_of_some {s : ArcRecver ε} (h : e.recver = some s) : e.recvOpen = !s.isTerminated := by
  rw [recvOpen, h]
  rfl

lemma Consistent.of_outgoing (h : e.Consistent sid) (hout : e.outgoing = true) (hs : e.sender = some s) :
    s.isTerminated = false ∧ s.isOk = true := by
  obtain ⟨hopen, hok⟩ := h.outgoing hout
  rw [sendOpen_of_some hs, Bool.not_eq_true'] at hopen
  exact ⟨hopen, hok s hs⟩

lemma Consistent.of_incoming (h : e.Consistent sid) (hin : e.incoming = true) {s : ArcRecver ε}
    (hs : e.recver = some s) : s.isTerminated = false ∧ s.isOk = true := by
  obtain ⟨hopen, hok⟩ := h.incoming hin
  rw [recvOpen_of_some hs, Bool.not_eq_true'] at hopen
  exact ⟨hopen, hok s hs⟩

lemma consistent_fresh (sid : StreamId) (snd rcv : Option Nat) : (fresh sid snd rcv : StreamEntry ε).Consistent sid := by
  have hsend : (fresh sid snd rcv : StreamEntry ε).sendOpen = snd.isSome := by cases snd <;> rfl
  have hrecv : (fresh sid snd rcv : StreamEntry ε).recvOpen = rcv.isSome := by cases rcv <;> rfl
  refine ⟨?_, hsend.symm, hrecv.symm, ?_, ?_⟩
  · intro s hs
    obtain ⟨n, -, rfl⟩ := Option.map_eq_some_iff.mp hs
    rfl
  · intro hout
    refine ⟨hsend.trans hout, ?_⟩
    intro s hs
    obtain ⟨n, -, rfl⟩ := Option.map_eq_some_iff.mp hs
    rfl
  · intro hin
    refine ⟨hrecv.trans hin, ?_⟩
    intro s hs
    obtain ⟨n, -, rfl⟩ := Option.map_eq_some_iff.mp hs
    rfl

lemma Consistent.send (h : e.Consistent sid) (hs : e.sender = some s) (hc : s.Continues s') :
    ({ e with sender := some s' } : StreamEntry ε).Consistent sid := by
  have hopen : ({ e with sender := some s' } : StreamEntry ε).sendOpen = e.sendOpen := by
    rw [sendOpen_of_some rfl, sendOpen_of_some hs, hc.terminated]
  refine ⟨?_, h.sending.trans hopen.symm, h.receiving, ?_, h.incoming⟩
  · rintro t ⟨⟩
    exact hc.named sid (h.named s hs)
  · intro hout
    refine ⟨hopen.trans (h.outgoing hout).1, ?_⟩
    rintro t ⟨⟩
    exact hc.alive ((h.outgoing hout).2 s hs)

lemma Consistent.recv (h : e.Consistent sid) {s s' : ArcRecver ε} (hs : e.recver = some s) (hc : s.Continues s')
    {incoming : Bool} (hincoming : incoming = true → e.incoming = true) :
    ({ e with recver := some s', incoming := incoming } : StreamEntry ε).Consistent sid := by
  have hopen : ({ e with recver := some s', incoming := incoming } : StreamEntry ε).recvOpen = e.recvOpen := by
    rw [recvOpen_of_some rfl, recvOpen_of_some hs, hc.terminated]
  refine ⟨h.named, h.sending, h.receiving.trans hopen.symm, h.outgoing, ?_⟩
  intro hin
  refine ⟨hopen.trans (h.incoming (hincoming hin)).1, ?_⟩
  rintro t ⟨⟩
  exact hc.alive ((h.incoming (hincoming hin)).2 s hs)

lemma Consistent.finishSend (h : e.Consistent sid) (hs : e.sender = some s) (hf : s.Follows s')
    (hdone : s'.isTerminated = true) :
    ({ e with sender := some s', io := e.io.shutdownSend, outgoing := false } : StreamEntry ε).Consistent sid := by
  refine ⟨?_, ?_, h.receiving, ?_, h.incoming⟩
  · rintro t ⟨⟩
    exact hf.named sid (h.named s hs)
  · rw [sendOpen_of_some rfl, hdone]
    rfl
  · intro hout
    cases hout

lemma Consistent.finishRecv (h : e.Consistent sid) {s' : ArcRecver ε} (hdone : s'.isTerminated = true) :
    ({ e with recver := some s', io := e.io.shutdownReceive, incoming := false } : StreamEntry ε).Consistent sid := by
  refine ⟨h.named, h.sending, ?_, h.outgoing, ?_⟩
  · rw [recvOpen_of_some rfl, hdone]
    rfl
  · intro hin
    cases hin

/-- A connection error leaves the sender alone, or passes through `Outgoing::on_error`. -/
lemma fail_sender (e : StreamEntry ε) (err : ε) (hs : e.sender = some s) :
    (e.fail err).sender = some s ∨ (e.fail err).sender = some (Outgoing.onError s err) := by
  unfold fail
  dsimp only
  rw [hs]
  split_ifs
  · exact .inr rfl
  · exact .inl rfl

lemma fail_sender_none (e : StreamEntry ε) (err : ε) (hs : e.sender = none) : (e.fail err).sender = none := by
  unfold fail
  dsimp only
  rw [hs]
  split_ifs <;> rfl

lemma sendOpen_fail (e : StreamEntry ε) (err : ε) : (e.fail err).sendOpen = e.sendOpen := by
  cases hs : e.sender with
  | none => rw [sendOpen, sendOpen, fail_sender_none e err hs, hs]
  | some s =>
    rw [sendOpen_of_some hs]
    cases fail_sender e err hs with
    | inl hsame => exact sendOpen_of_some hsame
    | inr hfail => rw [sendOpen_of_some hfail, (Outgoing.onError_keeps s err).2.2.2]

lemma recvOpen_fail (e : StreamEntry ε) (err : ε) : (e.fail err).recvOpen = e.recvOpen := by
  unfold recvOpen fail
  dsimp only
  split_ifs
  · cases e.recver with
    | none => rfl
    | some s =>
      change (!(Incoming.onError s err).isTerminated) = !s.isTerminated
      rw [Incoming.onError_isTerminated]
  · rfl

lemma Consistent.fail (h : e.Consistent sid) (err : ε) : (e.fail err).Consistent sid := by
  refine ⟨?_, h.sending.trans (sendOpen_fail e err).symm, h.receiving.trans (recvOpen_fail e err).symm, ?_, ?_⟩
  · intro t ht
    cases hs : e.sender with
    | none =>
      rw [fail_sender_none e err hs] at ht
      cases ht
    | some s =>
      have hnamed := h.named s hs
      cases fail_sender e err hs with
      | inl hsame =>
        rw [hsame] at ht
        cases ht
        exact hnamed
      | inr hfail =>
        rw [hfail] at ht
        cases ht
        exact (Outgoing.onError_keeps s err).1 sid hnamed
  · intro hout
    cases hout
  · intro hin
    cases hin

/-! ### What was logged -/

structure Accounts (e : StreamEntry ε) (sid : StreamId) (log : List StreamsEvent) : Prop where
  sent : ∀ f, .data f ∈ log → f.id = sid → ∃ s, e.sender = some s ∧ s.isReady = false
  reset : ∀ f, .ctrl (.resetStream f) ∈ log → f.streamId = sid → ∃ s, e.sender = some s ∧ s.isReset = true

lemma Accounts.append (h : e.Accounts sid log) {e' : StreamEntry ε} (h' : e'.Accounts sid events)
    (hsender : ∀ s, e.sender = some s → ∃ s', e'.sender = some s' ∧ (s'.isReady = true → s.isReady = true) ∧
      (s.isReset = true → s'.isReset = true)) : e'.Accounts sid (log ++ events) := by
  constructor
  · intro f hf hid
    cases List.mem_append.mp hf with
    | inl hold =>
      obtain ⟨s, hs, hready⟩ := h.sent f hold hid
      obtain ⟨s', hs', hback, -⟩ := hsender s hs
      refine ⟨s', hs', Bool.eq_false_iff.mpr ?_⟩
      intro hr
      rw [hback hr] at hready
      cases hready
    | inr hnew => exact h'.sent f hnew hid
  · intro f hf hid
    cases List.mem_append.mp hf with
    | inl hold =>
      obtain ⟨s, hs, hr⟩ := h.reset f hold hid
      obtain ⟨s', hs', -, hgo⟩ := hsender s hs
      exact ⟨s', hs', hgo hr⟩
    | inr hnew => exact h'.reset f hnew hid

lemma accounts_of_not_mem (e : StreamEntry ε) (h : ∀ x ∈ events, x = .ended sid ∨ x.about ≠ some sid) :
    e.Accounts sid events := by
  constructor
  · intro f hf hid
    cases h _ hf with
    | inl heq => cases heq
    | inr hne => exact absurd (congrArg some hid) hne
  · intro f hf hid
    cases h _ hf with
    | inl heq => cases heq
    | inr hne => exact absurd (congrArg some hid) hne

lemma accounts_of_sentBy (hs : e.sender = some s) (h : ∀ x ∈ events, x.SentBy sid s) : e.Accounts sid events :=
  ⟨fun _ hf _ => ⟨s, hs, (h _ hf).2⟩, fun _ hf _ => ⟨s, hs, (h _ hf).2⟩⟩

/-- What holds of a stream in every run: its parts agree, and what the log says about it is true. Its end is logged
once both bits are clear, if it is a stream of the peer. -/
structure Kept (e : StreamEntry ε) (peer : Role) (sid : StreamId) (log : List StreamsEvent) : Prop where
  consistent : e.Consistent sid
  accounts : e.Accounts sid log
  ended : log.count (.ended sid) = if e.io.isTerminated = true ∧ sid.role = peer then 1 else 0

end StreamEntry

/-- What is kept for an id, whether its stream was created or not. -/
def Kept (peer : Role) (sid : StreamId) (log : List StreamsEvent) : Option (StreamEntry ε) → Prop
  | none => ∀ x ∈ log, x.about ≠ some sid
  | some e => e.Kept peer sid log

lemma count_ended_of_about (h : ∀ x ∈ events, x.about ≠ some sid) : events.count (.ended sid) = 0 :=
  List.count_eq_zero.mpr fun hmem => h _ hmem rfl

lemma count_ended_of_sentBy {s : ArcSender ε} (h : ∀ x ∈ events, x.SentBy sid s) : events.count (.ended sid) = 0 :=
  List.count_eq_zero.mpr fun hmem => h _ hmem

lemma StreamEntry.Kept.ended_of_open {e : StreamEntry ε} (h : e.Kept peer sid log)
    (hopen : e.sendOpen = true ∨ e.recvOpen = true) : log.count (.ended sid) = 0 := by
  have hio : e.io.isTerminated = false := by
    rw [IOState.isTerminated, h.consistent.sending, h.consistent.receiving]
    cases hopen with
    | inl hsend => rw [hsend]; rfl
    | inr hrecv => rw [hrecv, Bool.not_true, Bool.and_false]
  rw [h.ended, hio]
  exact if_neg fun hboth => absurd hboth.1 Bool.false_ne_true

/-- Every change keeps it. -/
theorem StreamMove.kept {x x' : Option (StreamEntry ε)} (hmove : StreamMove peer sid x events x') (h : Kept peer sid log x) :
    Kept peer sid (log ++ events) x' := by
  cases hmove with
  | idle hidle =>
    cases x with
    | none =>
      intro y hy
      cases List.mem_append.mp hy with
      | inl hold => exact h y hold
      | inr hnew => exact hidle y hnew
    | some e =>
      refine ⟨h.consistent, ?_, ?_⟩
      · exact h.accounts.append (e.accounts_of_not_mem fun y hy => .inr (hidle y hy)) fun s hs => ⟨s, hs, id, id⟩
      · rw [List.count_append, count_ended_of_about hidle, Nat.add_zero]
        exact h.ended
  | @create snd rcv hhalf =>
    refine ⟨StreamEntry.consistent_fresh sid snd rcv, ?_, ?_⟩
    · apply StreamEntry.accounts_of_not_mem
      rw [List.append_nil]
      exact fun y hy => .inr (h y hy)
    · have hio : (StreamEntry.fresh sid snd rcv : StreamEntry ε).io.isTerminated = false := by
        unfold StreamEntry.fresh IOState.isTerminated
        dsimp only
        cases hhalf with
        | inl hs => rw [hs]; rfl
        | inr hr => rw [hr, Bool.not_true, Bool.and_false]
      rw [List.append_nil, count_ended_of_about h, hio]
      exact (if_neg fun hboth => absurd hboth.1 Bool.false_ne_true).symm
  | send hs hcontinues hevents =>
    refine ⟨h.consistent.send hs hcontinues, ?_, ?_⟩
    · apply h.accounts.append (StreamEntry.accounts_of_sentBy rfl hevents)
      intro t ht
      rw [hs] at ht
      cases ht
      exact ⟨_, rfl, hcontinues.ready, hcontinues.reset⟩
    · rw [List.count_append, count_ended_of_sentBy hevents, Nat.add_zero]
      exact h.ended
  | recv hs hcontinues hincoming hevents =>
    have hother : ∀ y ∈ events, y.about ≠ some sid := by
      intro y hy heq
      rw [hevents y hy] at heq
      cases heq
    refine ⟨h.consistent.recv hs hcontinues hincoming, ?_, ?_⟩
    · exact h.accounts.append (StreamEntry.accounts_of_not_mem _ fun y hy => .inr (hother y hy)) fun s hs => ⟨s, hs, id, id⟩
    · rw [List.count_append, count_ended_of_about hother, Nat.add_zero]
      exact h.ended
  | finishSend hout hs hfollows hdone hevents =>
    refine ⟨h.consistent.finishSend hs hfollows hdone, ?_, ?_⟩
    · apply h.accounts.append (StreamEntry.accounts_of_not_mem _ hevents.silent)
      intro t ht
      rw [hs] at ht
      cases ht
      exact ⟨_, rfl, hfollows.ready, hfollows.reset⟩
    · rw [List.count_append, h.ended_of_open (.inl (h.consistent.outgoing hout).1), Nat.zero_add]
      exact hevents.told
  | finishRecv hin hdone hevents =>
    refine ⟨h.consistent.finishRecv hdone, ?_, ?_⟩
    · exact h.accounts.append (StreamEntry.accounts_of_not_mem _ hevents.silent) fun s hs => ⟨s, hs, id, id⟩
    · rw [List.count_append, h.ended_of_open (.inr (h.consistent.incoming hin).1), Nat.zero_add]
      exact hevents.told
  | @fail e err =>
    rw [List.append_nil]
    refine ⟨h.consistent.fail err, ?_, h.ended⟩
    rw [← List.append_nil log]
    apply h.accounts.append (StreamEntry.accounts_of_not_mem _ fun y hy => absurd hy List.not_mem_nil)
    intro s hs
    obtain ⟨-, hready, hreset, -⟩ := Outgoing.onError_keeps s err
    cases e.fail_sender err hs with
    | inl hsame => exact ⟨s, hsame, id, id⟩
    | inr hfail => exact ⟨_, hfail, hready, hreset⟩

end Dquic
