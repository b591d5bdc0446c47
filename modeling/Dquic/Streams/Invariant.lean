import Dquic.Streams.Lifecycle
import Dquic.Streams.Limits

/-!
# The invariant of all streams

What is kept for each stream, for the ids that have streams and for the limits of the peer, with
the ways in which calls change the streams: one stream goes on, one of its halves terminates, or
new streams are created.
-/

namespace Dquic

open Lib

variable {ε κ : Type}

/-! ### Calls -/

namespace Call

variable {α : Type} {Q : α → Prop}

/-- A call that does not reach an `unreachable!()`. -/
abbrev Safe (x : Call α) (Q : α → Prop) : Prop := Meets (· = Panic.unreachable) x Q

lemma safe_of {o : Option α} (h : ∀ a, o = some a → Q a) : (Call.of o).Safe Q := by
  cases o with
  | none =>
    intro hother
    cases hother
  | some a => exact h a rfl

end Call

/-! ### The ids of the peer -/

def StreamsEvent.isLimit : StreamsEvent → Bool
  | ctrl (.maxStreams _) => true
  | ended _ => true
  | _ => false

lemma StreamsEvent.SentBy.isLimit_eq {sid : StreamId} {s : ArcSender ε} {x : StreamsEvent} (h : x.SentBy sid s) :
    x.isLimit = false := by
  cases x with
  | data f => rfl
  | ctrl f =>
    cases f with
    | maxStreams f => exact absurd h id
    | _ => rfl
  | ended t => exact absurd h id

section Remote

variable [ControlStreamsConcurrency κ]

inductive RemoteStep : RemoteStreamIds κ → List StreamsEvent → RemoteStreamIds κ → Prop
  | idle {r : RemoteStreamIds κ} {events : List StreamsEvent} (h : ∀ x ∈ events, x.isLimit = false) : RemoteStep r events r
  | accept {r r' : RemoteStreamIds κ} {sid : StreamId} {result : Except ExceedLimitError AcceptSid}
      {frame : Option MaxStreamsFrame} (h : r.tryAcceptSid sid = some (result, r', frame)) :
      RemoteStep r (DataStreams.limitEvents frame) r'
  | ended {r r' : RemoteStreamIds κ} {sid : StreamId} {frame : Option MaxStreamsFrame} (hrole : sid.role = r.role)
      (h : r.onEndOfStream sid = some (r', frame)) : RemoteStep r (.ended sid :: DataStreams.limitEvents frame) r'
  | blocked {r r' : RemoteStreamIds κ} {f : StreamsBlockedFrame} {frame : Option MaxStreamsFrame}
      (h : r.recvStreamsBlockedFrame f = some (r', frame)) : RemoteStep r (DataStreams.limitEvents frame) r'

variable {r r' start : RemoteStreamIds κ} {log events : List StreamsEvent}

lemma RemoteStep.refl (r : RemoteStreamIds κ) : RemoteStep r [] r := .idle (List.forall_mem_nil _)

def RemoteStreamIds.Aligned (r : RemoteStreamIds κ) (peer : Role) : Prop :=
  r.role = peer ∧ ∀ dir, ∃ n, r.unallocated dir = StreamId.rawOf peer dir n

variable {peer : Role}

lemma RemoteStep.aligned (h : RemoteStep r events r') (hr : r.Aligned peer) : r'.Aligned peer := by
  cases h with
  | idle => exact hr
  | @accept _ sid _ _ h =>
    obtain ⟨hrole, ⟨-, -, rfl, -⟩ | ⟨-, ⟨-, -, rfl, -⟩ | ⟨-, -, answer, ctrl, -, -, rfl⟩⟩⟩ :=
      RemoteStreamIds.tryAcceptSid_eq_some h
    · exact hr
    · exact hr
    · refine ⟨hr.1, ?_⟩
      intro dir
      by_cases hdir : dir = sid.dir
      · subst hdir
        refine ⟨sid.id + 1, ?_⟩
        dsimp only
        rw [Function.update_self, StreamId.raw_eq sid, StreamId.rawOf_succ, hrole, hr.1]
      · dsimp only
        rw [Function.update_of_ne hdir]
        exact hr.2 dir
  | ended hrole h =>
    obtain ⟨-, rfl, -⟩ | ⟨-, answer, ctrl, -, -, rfl⟩ := RemoteStreamIds.onEndOfStream_eq_some h
    · exact hr
    · exact hr
  | blocked h =>
    obtain ⟨answer, ctrl, -, -, rfl⟩ := RemoteStreamIds.recvStreamsBlockedFrame_eq_some h
    exact hr

lemma aligned_of_logged (h : Logged RemoteStep start log r) (hstart : start.Aligned peer) : r.Aligned peer :=
  h.invariant (I := fun r _ => r.Aligned peer) (l := []) (fun _ _ _ _ hr hstep => hstep.aligned hr) hstart

end Remote

/-! ### What every call keeps -/

namespace DataStreams

/-- Ids of streams that were opened by this endpoint or accepted from the peer. -/
def Used (d : DataStreams ε κ) (sid : StreamId) : Prop :=
  (sid.role = d.role → sid.id < d.localIds.unallocated sid.dir) ∧
    (sid.role ≠ d.role → sid.raw.val < d.remoteIds.unallocated sid.dir)

lemma create_eq (d : DataStreams ε κ) (sid : StreamId) :
    (∃ snd rcv : Option Nat, (snd.isSome = true ∨ rcv.isSome = true) ∧
      (d.create sid).streams = Function.update d.streams sid (some (.fresh sid snd rcv))) ∧
    (d.create sid).role = d.role ∧ (d.create sid).localIds = d.localIds ∧ (d.create sid).remoteIds = d.remoteIds := by
  unfold create
  cases sid.dir with
  | bi => exact ⟨⟨some 0, some d.parameters.initialMaxStreamDataBidiRemote.val, .inl rfl, rfl⟩, rfl, rfl, rfl⟩
  | uni => exact ⟨⟨none, some d.parameters.initialMaxStreamDataUni.val, .inr rfl, rfl⟩, rfl, rfl, rfl⟩

lemma used_create (d : DataStreams ε κ) (sid t : StreamId) : (d.create sid).Used t ↔ d.Used t := by
  obtain ⟨-, hrole, hlocal, hremote⟩ := create_eq d sid
  unfold Used
  rw [hrole, hlocal, hremote]

lemma create_streams_of_ne (d : DataStreams ε κ) {sid t : StreamId} (h : t ≠ sid) :
    (d.create sid).streams t = d.streams t := by
  obtain ⟨⟨snd, rcv, -, hstreams⟩, -⟩ := create_eq d sid
  rw [hstreams, Function.update_of_ne h]

variable {e e' : StreamEntry ε} {s : ArcSender ε} {frame : Option MaxStreamsFrame}

lemma outgoing_eq_some {d : DataStreams ε κ} {sid : StreamId} (h : d.outgoing sid = some (e, s)) :
    d.streams sid = some e ∧ e.sender = some s ∧ e.outgoing = true := by
  obtain ⟨t, ht, h⟩ := of_bind h
  obtain ⟨u, hu, h⟩ := of_bind h
  split_ifs at h with hout
  cases h
  exact ⟨ht, hu, hout⟩

lemma incoming_eq_some {d : DataStreams ε κ} {sid : StreamId} {s : ArcRecver ε} (h : d.incoming sid = some (e, s)) :
    d.streams sid = some e ∧ e.recver = some s ∧ e.incoming = true := by
  obtain ⟨t, ht, h⟩ := of_bind h
  obtain ⟨u, hu, h⟩ := of_bind h
  split_ifs at h with hin
  cases h
  exact ⟨ht, hu, hin⟩

variable [ControlStreamsConcurrency κ]

/-- The invariant of all streams: it holds what is kept for each id, only used ids have streams, and the log accounts
for all that happened to the ids of the peer. -/
structure Sound (d : DataStreams ε κ) (start : RemoteStreamIds κ) (log : List StreamsEvent) : Prop where
  aligned : start.Aligned d.role.not
  localRole : d.localIds.role = d.role
  remote : Logged RemoteStep start log d.remoteIds
  kept : ∀ sid, Kept d.role.not sid log (d.streams sid)
  used : ∀ sid, (d.streams sid).isSome = true → d.Used sid

variable {d d' : DataStreams ε κ} {start : RemoteStreamIds κ} {log events : List StreamsEvent} {sid : StreamId}

lemma Sound.nil (h : d.Sound start log) : d.Sound start (log ++ []) := by
  rwa [List.append_nil]

lemma Sound.remote_role (h : d.Sound start log) : d.remoteIds.role = d.role.not := (aligned_of_logged h.remote h.aligned).1

lemma Sound.kept_of_some (h : d.Sound start log) (he : d.streams sid = some e) : e.Kept d.role.not sid log := by
  have hkept := h.kept sid
  rw [he] at hkept
  exact hkept

lemma Sound.step (h : d.Sound start log) (hrole : d'.role = d.role) (hlocal : d'.localIds.role = d.localIds.role)
    (hremote : RemoteStep d.remoteIds events d'.remoteIds)
    (hmoves : ∀ sid, StreamMove d.role.not sid (d.streams sid) events (d'.streams sid))
    (hused : ∀ sid, (d'.streams sid).isSome = true → d'.Used sid) : d'.Sound start (log ++ events) where
  aligned := by
    rw [hrole]
    exact h.aligned
  localRole := by
    rw [hlocal, hrole]
    exact h.localRole
  remote := h.remote.trans (.single hremote)
  kept sid := by
    rw [hrole]
    exact (hmoves sid).kept (h.kept sid)
  used := hused

lemma Sound.same (h : d.Sound start log) (hrole : d'.role = d.role) (hlocal : d'.localIds.role = d.localIds.role)
    (hstreams : d'.streams = d.streams) (hremote : RemoteStep d.remoteIds events d'.remoteIds)
    (hused : ∀ sid, d.Used sid → d'.Used sid) (hevents : ∀ x ∈ events, x.about = none) :
    d'.Sound start (log ++ events) := by
  apply h.step hrole hlocal hremote
  · intro sid
    rw [hstreams]
    apply StreamMove.idle
    intro x hx
    rw [hevents x hx]
    exact (Option.some_ne_none sid).symm
  · intro sid hsid
    rw [hstreams] at hsid
    exact hused sid (h.used sid hsid)

lemma Sound.of_same (h : d.Sound start log) (hrole : d'.role = d.role) (hlocal : d'.localIds.role = d.localIds.role)
    (hstreams : d'.streams = d.streams) (hremote : d'.remoteIds = d.remoteIds) (hused : ∀ sid, d.Used sid → d'.Used sid) :
    d'.Sound start log := by
  rw [← List.append_nil log]
  apply h.same hrole hlocal hstreams _ hused (List.forall_mem_nil _)
  rw [hremote]
  exact .refl _

lemma Sound.update (h : d.Sound start log) (hrole : d'.role = d.role) (hlocal : d'.localIds.role = d.localIds.role)
    (hstreams : d'.streams = Function.update d.streams sid (some e))
    (hmove : StreamMove d.role.not sid (d.streams sid) events (some e))
    (hevents : ∀ x ∈ events, x.about = none ∨ x.about = some sid) (hremote : RemoteStep d.remoteIds events d'.remoteIds)
    (hmono : ∀ t, d.Used t → d'.Used t) (hused : d'.Used sid) : d'.Sound start (log ++ events) := by
  apply h.step hrole hlocal hremote
  · intro t
    rw [hstreams]
    by_cases ht : t = sid
    · subst ht
      rw [Function.update_self]
      exact hmove
    · rw [Function.update_of_ne ht]
      apply StreamMove.idle
      intro x hx heq
      cases hevents x hx with
      | inl hnone =>
        rw [heq] at hnone
        cases hnone
      | inr hsid =>
        rw [heq] at hsid
        exact ht (Option.some.inj hsid)
  · intro t ht
    by_cases heq : t = sid
    · exact heq ▸ hused
    · rw [hstreams, Function.update_of_ne heq] at ht
      exact hmono t (h.used t ht)

lemma Sound.move (h : d.Sound start log) (he : d.streams sid = some e)
    (hmove : StreamMove d.role.not sid (some e) events (some e'))
    (hevents : ∀ x ∈ events, x.about = none ∨ x.about = some sid) (hlimit : ∀ x ∈ events, x.isLimit = false) :
    (d.put sid e').Sound start (log ++ events) := by
  refine h.update rfl rfl rfl ?_ hevents (.idle hlimit) (fun _ ht => ht) ?_
  · rw [he]
    exact hmove
  · apply h.used
    rw [he]
    rfl

lemma Sound.send (h : d.Sound start log) {s' : ArcSender ε} (he : d.streams sid = some e) (hs : e.sender = some s)
    (hcontinues : s.Continues s') (hevents : ∀ x ∈ events, x.SentBy sid s') :
    (d.put sid { e with sender := some s' }).Sound start (log ++ events) :=
  h.move he (.send hs hcontinues hevents) (fun x hx => .inr (hevents x hx).about_eq) fun x hx => (hevents x hx).isLimit_eq

lemma Sound.recv (h : d.Sound start log) {s s' : ArcRecver ε} {incoming : Bool} (he : d.streams sid = some e)
    (hs : e.recver = some s) (hcontinues : s.Continues s') (hincoming : incoming = true → e.incoming = true)
    (hevents : ∀ x ∈ events, x.about = none) (hlimit : ∀ x ∈ events, x.isLimit = false) :
    (d.put sid { e with recver := some s', incoming := incoming }).Sound start (log ++ events) :=
  h.move he (.recv hs hcontinues hincoming hevents) (fun x hx => .inl (hevents x hx)) hlimit

lemma eq_of_mem_limitEvents {x : StreamsEvent} (hx : x ∈ limitEvents frame) : ∃ f, x = .ctrl (.maxStreams f) := by
  obtain ⟨f, -, rfl⟩ := List.mem_map.mp hx
  exact ⟨f, rfl⟩

lemma count_limitEvents (frame : Option MaxStreamsFrame) (sid : StreamId) :
    (limitEvents frame).count (.ended sid) = 0 := by
  apply List.count_eq_zero.mpr
  intro hmem
  obtain ⟨f, hf⟩ := eq_of_mem_limitEvents hmem
  cases hf

lemma about_of_mem_limitEvents (x : StreamsEvent) (hx : x ∈ limitEvents frame) : x.about = none := by
  obtain ⟨f, rfl⟩ := eq_of_mem_limitEvents hx
  rfl

/-- The end of a stream of the peer is logged, and that of a stream of this endpoint is not. -/
lemma endOfStream_safe (h : d.Sound start log) (io : IOState) (sid : StreamId) :
    (endOfStream d.remoteIds io sid).Safe fun r => Ends d.role.not sid io r.2 ∧ RemoteStep d.remoteIds r.2 r.1 ∧
      r.1.unallocated = d.remoteIds.unallocated := by
  have hpeer := h.remote_role
  unfold endOfStream
  by_cases hio : io.isTerminated = true
  · rw [if_pos hio]
    apply Meets.bind (Call.safe_of fun r hr => hr)
    rintro ⟨r', frame⟩ hend
    by_cases hrole : sid.role = d.remoteIds.role
    · dsimp only
      rw [if_pos hrole, List.singleton_append]
      refine ⟨⟨?_, ?_⟩, .ended hrole hend, ?_⟩
      · rw [List.count_cons_self, count_limitEvents, if_pos ⟨hio, hrole.trans hpeer⟩]
      · intro x hx
        cases List.mem_cons.mp hx with
        | inl heq => exact .inl heq
        | inr hmem => exact .inr (about_of_mem_limitEvents x hmem)
      · obtain ⟨hne, -⟩ | ⟨-, answer, ctrl, -, -, rfl⟩ := RemoteStreamIds.onEndOfStream_eq_some hend
        · exact absurd hrole hne
        · rfl
    · dsimp only
      rw [if_neg hrole, List.nil_append]
      obtain ⟨-, rfl, rfl⟩ | ⟨heq, -⟩ := RemoteStreamIds.onEndOfStream_eq_some hend
      · refine ⟨⟨?_, List.forall_mem_nil _⟩, .refl _, rfl⟩
        rw [if_neg fun hboth => hrole (hboth.2.trans hpeer.symm)]
        rfl
      · exact absurd heq hrole
  · rw [if_neg hio]
    refine ⟨⟨?_, List.forall_mem_nil _⟩, .refl _, rfl⟩
    rw [if_neg fun hboth => hio hboth.1]
    rfl

lemma finish_safe (h : d.Sound start log) (he : d.streams sid = some e)
    (hmove : ∀ events, Ends d.role.not sid e'.io events → StreamMove d.role.not sid (some e) events (some e')) :
    (d.finish sid e').Safe fun r => r.1.Sound start (log ++ r.2) := by
  apply Meets.bind (endOfStream_safe h e'.io sid)
  rintro ⟨remoteIds, events⟩ ⟨hends, hremote, hunallocated⟩
  have hmono : ∀ t, d.Used t → ({ d.put sid e' with remoteIds := remoteIds } : DataStreams ε κ).Used t := by
    intro t ht
    refine ⟨ht.1, ?_⟩
    change t.role ≠ d.role → t.raw.val < remoteIds.unallocated t.dir
    rw [hunallocated]
    exact ht.2
  refine h.update rfl rfl rfl ?_ ?_ hremote hmono ?_
  · rw [he]
    exact hmove events hends
  · intro x hx
    cases hends.only x hx with
    | inl heq => exact .inr (congrArg StreamsEvent.about heq)
    | inr hnone => exact .inl hnone
  · apply hmono
    apply h.used
    rw [he]
    rfl

/-! ### Creating streams -/

lemma Sound.put_fresh (h : d.Sound start log) {snd rcv : Option Nat} (hhalf : snd.isSome = true ∨ rcv.isSome = true)
    (hnew : d.streams sid = none) (hrole : d'.role = d.role) (hlocal : d'.localIds.role = d.localIds.role)
    (hremote : d'.remoteIds = d.remoteIds)
    (hstreams : d'.streams = Function.update d.streams sid (some (.fresh sid snd rcv)))
    (hmono : ∀ t, d.Used t → d'.Used t) (hused : d'.Used sid) : d'.Sound start log := by
  rw [← List.append_nil log]
  refine h.update hrole hlocal hstreams ?_ (List.forall_mem_nil _) ?_ hmono hused
  · rw [hnew]
    exact .create hhalf
  · rw [hremote]
    exact .refl _

lemma Sound.create (h : d.Sound start log) (hnew : d.streams sid = none) (hused : d.Used sid) :
    (d.create sid).Sound start log := by
  obtain ⟨⟨snd, rcv, hhalf, hstreams⟩, hrole, hlocal, hremote⟩ := create_eq d sid
  have hmono : ∀ t, d.Used t → (d.create sid).Used t := fun t => (used_create d sid t).mpr
  exact h.put_fresh hhalf hnew hrole (congrArg LocalStreamIds.role hlocal) hremote hstreams hmono (hmono sid hused)

lemma Sound.create_all {sids : List StreamId} (h : d.Sound start log) (hnodup : sids.Nodup)
    (hnew : ∀ s ∈ sids, d.streams s = none ∧ d.Used s) : (sids.foldl DataStreams.create d).Sound start log := by
  induction sids generalizing d with
  | nil => exact h
  | cons s sids ih =>
    obtain ⟨hnot, hnodup⟩ := List.nodup_cons.mp hnodup
    obtain ⟨hnone, hused⟩ := hnew s List.mem_cons_self
    apply ih (h.create hnone hused) hnodup
    intro t ht
    obtain ⟨htnone, htused⟩ := hnew t (List.mem_cons_of_mem s ht)
    have hne : t ≠ s := fun heq => hnot (heq ▸ ht)
    exact ⟨(create_streams_of_ne d hne).trans htnone, (used_create d s t).mpr htused⟩

/-- The ids that an accepted id creates, from the first one that the peer has not used. -/
lemma Sound.new_ids (h : d.Sound start log) (hrole : sid.role = d.remoteIds.role)
    (hnew : d.remoteIds.unallocated sid.dir ≤ sid.raw.val) :
    (NeedCreate.ids ⟨d.remoteIds.unallocated sid.dir, sid⟩).Nodup ∧
      ∀ s ∈ NeedCreate.ids ⟨d.remoteIds.unallocated sid.dir, sid⟩,
        d.streams s = none ∧ s.role = sid.role ∧ s.dir = sid.dir ∧ s.raw.val < sid.raw.val + 4 := by
  obtain ⟨hpeer, hunallocated⟩ := aligned_of_logged h.remote h.aligned
  obtain ⟨n, hn⟩ := hunallocated sid.dir
  rw [← hpeer, ← hrole] at hn
  rw [hn, StreamId.raw_eq sid] at hnew
  have hle : n ≤ sid.id := not_lt.mp fun hlt => absurd (StreamId.rawOf_lt_iff.mpr hlt) (not_lt.mpr hnew)
  rw [hn]
  obtain ⟨hids, hall⟩ := NeedCreate.ids_indices hle
  constructor
  · apply List.Nodup.of_map StreamId.id
    rw [hids]
    exact List.nodup_range'
  intro s hs
  obtain ⟨hsrole, hsdir⟩ := hall s hs
  have hid : s.id ∈ List.range' n (sid.id + 1 - n) := hids ▸ List.mem_map_of_mem hs
  rw [List.mem_range'_1] at hid
  have hraw : s.raw.val = StreamId.rawOf sid.role sid.dir s.id := by rw [StreamId.raw_eq s, hsrole, hsdir]
  refine ⟨?_, hsrole, hsdir, ?_⟩
  · cases hstream : d.streams s with
    | none => rfl
    | some e =>
      -- a stream that exists has an id below the unallocated ones
      have hused := (h.used s (by rw [hstream]; rfl)).2 (by rw [hsrole, hrole, hpeer]; exact Role.not_ne d.role)
      rw [hraw, hsdir, hn, StreamId.rawOf_lt_iff] at hused
      omega
  · rw [hraw, StreamId.raw_eq sid, StreamId.rawOf_succ, StreamId.rawOf_lt_iff]
    omega

lemma tryAcceptSid_safe (h : d.Sound start log) (sid : StreamId) :
    (d.tryAcceptSid sid).Safe fun r => r.2.1.Sound start (log ++ r.2.2) := by
  unfold tryAcceptSid
  split_ifs
  · exact h.nil
  apply Meets.bind (Call.safe_of fun r hr => hr)
  rintro ⟨result, remoteIds, frame⟩ htry
  have hsame : (∀ t, d.Used t → ({ d with remoteIds := remoteIds } : DataStreams ε κ).Used t) →
      ({ d with remoteIds := remoteIds } : DataStreams ε κ).Sound start (log ++ limitEvents frame) := fun hmono =>
    h.same rfl rfl rfl (.accept htry) hmono about_of_mem_limitEvents
  obtain ⟨hrole, ⟨-, rfl, rfl, -⟩ | ⟨-, ⟨-, rfl, rfl, -⟩ | ⟨hnew, rfl, answer, ctrl, -, -, hremote⟩⟩⟩ :=
    RemoteStreamIds.tryAcceptSid_eq_some htry
  · exact hsame fun t ht => ht
  · exact hsame fun t ht => ht
  · obtain ⟨hnodup, hids⟩ := h.new_ids hrole hnew
    have hunallocated : remoteIds.unallocated = Function.update d.remoteIds.unallocated sid.dir (sid.raw.val + 4) := by
      rw [hremote]
    have hmono : ∀ t, d.Used t → ({ d with remoteIds := remoteIds } : DataStreams ε κ).Used t := by
      intro t ht
      refine ⟨ht.1, fun htrole => ?_⟩
      have hold := ht.2 htrole
      dsimp only
      rw [hunallocated]
      by_cases hdir : t.dir = sid.dir
      · rw [hdir, Function.update_self]
        rw [hdir] at hold
        omega
      · rw [Function.update_of_ne hdir]
        exact hold
    refine (hsame hmono).create_all hnodup ?_
    intro s hs
    obtain ⟨hnone, hsrole, hsdir, hlt⟩ := hids s hs
    refine ⟨hnone, fun hown => ?_, fun _ => ?_⟩
    · rw [hsrole, hrole, h.remote_role] at hown
      exact absurd hown (Role.not_ne d.role)
    · dsimp only
      rw [hunallocated, hsdir, Function.update_self]
      exact hlt

lemma Sound.alloc (h : d.Sound start log) {dir : Dir} {alloc : AllocSid} {localIds : LocalStreamIds}
    (hpoll : d.localIds.pollAllocSid dir = some (alloc, localIds)) (snd rcv : Option Nat)
    (hhalf : snd.isSome = true ∨ rcv.isSome = true) :
    (∀ sid, alloc = .allocated sid →
      (({ d with localIds := localIds } : DataStreams ε κ).put sid (.fresh sid snd rcv)).Sound start log) ∧
    ((∀ sid, alloc ≠ .allocated sid) → localIds = d.localIds) := by
  obtain ⟨sid, rfl, hrole, hdir, hid, -, hlocal⟩ | ⟨hnot, hlocal⟩ := LocalStreamIds.pollAllocSid_eq_some hpoll
  · refine ⟨?_, fun hne => absurd rfl (hne sid)⟩
    rintro t ⟨⟩
    have hown := hrole.trans h.localRole
    have hnew : d.streams sid = none := by
      cases hstream : d.streams sid with
      | none => rfl
      | some e =>
        have hused := (h.used sid (by rw [hstream]; rfl)).1 hown
        rw [hdir, hid] at hused
        exact absurd hused (lt_irrefl _)
    have hnext : localIds.unallocated = Function.update d.localIds.unallocated dir (d.localIds.unallocated dir + 1) := by
      rw [hlocal]
    refine h.put_fresh hhalf hnew rfl ?_ rfl rfl ?_ ⟨fun _ => ?_, fun hne => absurd hown hne⟩
    · rw [hlocal]
      rfl
    · intro t ht
      refine ⟨fun htrole => ?_, ht.2⟩
      have hold := ht.1 htrole
      change t.id < localIds.unallocated t.dir
      rw [hnext]
      by_cases htdir : t.dir = dir
      · rw [htdir, Function.update_self]
        rw [htdir] at hold
        omega
      · rw [Function.update_of_ne htdir]
        exact hold
    · change sid.id < localIds.unallocated sid.dir
      rw [hnext, hdir, hid, Function.update_self]
      exact Nat.lt_succ_self _
  · refine ⟨?_, fun _ => hlocal⟩
    rintro sid rfl
    obtain hexhausted | ⟨frame, hblocked⟩ := hnot
    · cases hexhausted
    · cases hblocked

lemma Sound.log_ctrl (h : d.Sound start log) (hevents : ∀ x ∈ events, x.about = none ∧ x.isLimit = false) :
    d.Sound start (log ++ events) :=
  h.same rfl rfl rfl (.idle fun x hx => (hevents x hx).2) (fun _ ht => ht) fun x hx => (hevents x hx).1

lemma pollOpenBiWithLimit_safe (h : d.Sound start log) (sndBufSize : Nat) :
    (d.pollOpenBiWithLimit sndBufSize).Safe fun r => r.2.1.Sound start (log ++ r.2.2) := by
  unfold pollOpenBiWithLimit
  split
  · exact h.nil
  · apply Meets.bind (Call.safe_of fun r hr => hr)
    rintro ⟨alloc, localIds⟩ hpoll
    obtain ⟨hnew, hold⟩ :=
      h.alloc hpoll (some sndBufSize) (some d.parameters.initialMaxStreamDataBidiLocal.val) (.inl rfl)
    cases alloc with
    | allocated sid => exact (hnew sid rfl).nil
    | exhausted =>
      obtain rfl := hold (by simp)
      exact h.nil
    | blocked frame =>
      obtain rfl := hold (by simp)
      exact h.log_ctrl (by simp [StreamsEvent.about, StreamsEvent.isLimit])

lemma pollOpenUniWithLimit_safe (h : d.Sound start log) (sndBufSize : Nat) :
    (d.pollOpenUniWithLimit sndBufSize).Safe fun r => r.2.1.Sound start (log ++ r.2.2) := by
  unfold pollOpenUniWithLimit
  split
  · exact h.nil
  · apply Meets.bind (Call.safe_of fun r hr => hr)
    rintro ⟨alloc, localIds⟩ hpoll
    obtain ⟨hnew, hold⟩ := h.alloc hpoll (some sndBufSize) none (.inl rfl)
    cases alloc with
    | allocated sid => exact (hnew sid rfl).nil
    | exhausted =>
      obtain rfl := hold (by simp)
      exact h.nil
    | blocked frame =>
      obtain rfl := hold (by simp)
      exact h.log_ctrl (by simp [StreamsEvent.about, StreamsEvent.isLimit])

end DataStreams

end Dquic
