import Dquic.Lib.Rotation
import Dquic.Lib.System
import Dquic.Send.Dumping

/-!
# The turns of the streams

`Output::poll_dump` of `qrecovery/src/streams/fair.rs` serves one stream a call.
-/

namespace Dquic

open Lib

instance : LinearOrder StreamId :=
  LinearOrder.lift' (fun sid => sid.raw.val) (by
    rintro ⟨⟨a, ha⟩⟩ ⟨⟨b, hb⟩⟩ h
    cases h
    rfl)

def streamQuantum : Nat := 4096

/-- The streams in the order of their ids, and the last served stream with the bytes that remain of its turn. -/
structure Output (ε : Type) where
  outgoings : List (StreamId × ArcSender ε)
  sorted : outgoings.Pairwise fun x y => x.1 < y.1
  turn : Option (StreamId × Nat)

/-- A stream that has written, with its payload and what is left of its turn. -/
structure Served where
  sid : StreamId
  payload : Nat
  left : Nat

/-- How the loop of `poll_dump` ends: the streams that were polled, and the one that has written. -/
structure Scan (ε : Type) where
  poll : PollDump
  served : Option Served
  polled : List (StreamId × ArcSender ε)
  buffer : PacketBuffer
  credit : Nat

/-- The streams that a call has found, those that it has polled, and the payload of the one that has written. -/
structure DumpCall where
  streams : List StreamId
  polled : List StreamId
  wrote : Option (StreamId × Nat)

namespace Output

variable {ε : Type}

def budget (current : StreamId) (remaining : Nat) (sid : StreamId) : Nat :=
  if sid = current ∧ 0 < remaining then remaining else streamQuantum

/-- The loop of `poll_dump`. -/
def scan (current : StreamId) (remaining : Nat) (availability : PollDump) (b : PacketBuffer) (credit : Nat) :
    List (StreamId × ArcSender ε) → Option (Scan ε)
  | [] => some ⟨availability, none, [], b, credit⟩
  | (sid, outgoing) :: streams => do
    let (poll, outgoing, b, credit, left) ← Outgoing.pollDumpIn outgoing b credit (budget current remaining sid)
    match poll with
    | .ready (.ok n) =>
      if 0 < n then
        some ⟨.ready (.ok n), some ⟨sid, budget current remaining sid - left, left⟩, [(sid, outgoing)], b, credit⟩
      else do
        let rest ← scan current remaining (.ready (.ok 0)) b credit streams
        some { rest with polled := (sid, outgoing) :: rest.polled }
    | .ready (.error error) => some ⟨.ready (.error error), none, [(sid, outgoing)], b, credit⟩
    | .pending => do
      let rest ← scan current remaining availability b credit streams
      some { rest with polled := (sid, outgoing) :: rest.polled }

/-- An exhausted turn goes on behind its stream, a partial one with it. -/
def low (current : StreamId) (remaining : Nat) (sid : StreamId) : Bool :=
  if remaining = 0 then sid < current else sid ≤ current

def update (polled outgoings : List (StreamId × ArcSender ε)) : List (StreamId × ArcSender ε) :=
  outgoings.map fun e => (e.1, (polled.lookup e.1).getD e.2)

lemma sorted_update {outgoings : List (StreamId × ArcSender ε)} (h : outgoings.Pairwise fun x y => x.1 < y.1)
    (polled : List (StreamId × ArcSender ε)) : (update polled outgoings).Pairwise fun x y => x.1 < y.1 :=
  List.pairwise_map.mpr h

def start (o : Output ε) : Option (StreamId × Nat) :=
  o.turn.or (o.outgoings.getLast?.map fun e => (e.1, streamQuantum))

def pollDump (o : Output ε) (b : PacketBuffer) (credit : Nat) :
    Option (PollDump × Output ε × PacketBuffer × Nat × DumpCall) :=
  match o.start with
  | none => some (.pending, o, b, credit, ⟨o.outgoings.map Prod.fst, [], none⟩)
  | some (current, remaining) => do
    let s ← scan current remaining .pending b credit (rotate (low current remaining) o.outgoings)
    let o' : Output ε := {
      outgoings := update s.polled o.outgoings
      sorted := sorted_update o.sorted s.polled
      turn := (s.served.map fun w => (w.sid, w.left)).or o.turn }
    some (s.poll, o', s.buffer, s.credit,
      ⟨o.outgoings.map Prod.fst, s.polled.map Prod.fst, s.served.map fun w => (w.sid, w.payload)⟩)

end Output

inductive OutputOp (ε : Type)
  | change (outgoings : List (StreamId × ArcSender ε)) (sorted : outgoings.Pairwise fun x y => x.1 < y.1)
  | pollDump (b : PacketBuffer) (credit : Nat)

structure OutputWorld (ε : Type) where
  output : Output ε
  calls : List DumpCall

def OutputWorld.exec {ε : Type} (w : OutputWorld ε) : OutputOp ε → Option (OutputWorld ε)
  | .change outgoings sorted => some { w with output := ⟨outgoings, sorted, w.output.turn⟩ }
  | .pollDump b credit => do
    let (_, output, _, _, call) ← w.output.pollDump b credit
    some ⟨output, w.calls ++ [call]⟩

def outputSystem (ε : Type) : System (OutputWorld ε) (OutputOp ε) where
  init w := w.calls = []
  issued _ _ := True
  exec := OutputWorld.exec

/-! ### What a call does -/

namespace Outgoing

variable {ε : Type}

lemma pollDumpIn_left {s s' : ArcSender ε} {b b' : PacketBuffer} {credit credit' budget left : Nat} {poll : PollDump}
    (h : pollDumpIn s b credit budget = some (poll, s', b', credit', left)) :
    left ≤ budget ∧ ∀ e, poll ≠ .ready (.error e) := by
  cases s with
  | error e =>
    cases h
    exact ⟨le_rfl, fun _ h => by cases h⟩
  | ok sender =>
    simp only [pollDumpIn] at h
    split at h
    · cases h
      exact ⟨le_rfl, fun _ h => by cases h⟩
    · obtain ⟨⟨picked, sender'⟩, -, h⟩ := of_bind h
      dsimp only at h
      split at h
      · obtain ⟨⟨b₁, credit₁, left₁⟩, hwrite, h⟩ := of_bind h
        obtain ⟨n, -, h⟩ := of_bind h
        cases h
        refine ⟨?_, fun _ h => by cases h⟩
        unfold writeIn at hwrite
        obtain ⟨length, -, hwrite⟩ := of_bind hwrite
        obtain ⟨frame, -, hwrite⟩ := of_bind hwrite
        obtain ⟨strategy, -, hwrite⟩ := of_bind hwrite
        obtain ⟨b₂, -, hwrite⟩ := of_bind hwrite
        obtain ⟨⟨result, b₃⟩, -, hwrite⟩ := of_bind hwrite
        obtain ⟨_, -, hwrite⟩ := of_bind hwrite
        obtain ⟨left₂, hleft, hwrite⟩ := of_bind hwrite
        have hle : left₂ ≤ budget := (checkedSub_eq_some hleft).2 ▸ Nat.sub_le _ _
        dsimp only at hwrite
        split_ifs at hwrite
        · obtain ⟨_, -, hwrite⟩ := of_bind hwrite
          cases hwrite
          exact hle
        · cases hwrite
          exact hle
      · cases h
        exact ⟨le_rfl, fun _ h => by cases h⟩
      · cases h
        exact ⟨le_rfl, fun _ h => by cases h⟩

end Outgoing

namespace Output

variable {ε : Type}

variable {b b' : PacketBuffer} {credit credit' : Nat} {call : DumpCall} {o o' : Output ε} {poll : PollDump}

lemma scan_cases {current : StreamId} {remaining : Nat} {availability : PollDump}
    {streams : List (StreamId × ArcSender ε)} {s : Scan ε}
    (h : scan current remaining availability b credit streams = some s) :
    (s.served = none ∧ s.polled.map Prod.fst = streams.map Prod.fst) ∨
    ∃ pre e post w, streams = pre ++ e :: post ∧ s.polled.map Prod.fst = pre.map Prod.fst ++ [e.1] ∧
      s.served = some w ∧ w.sid = e.1 ∧ w.payload + w.left = budget current remaining e.1 := by
  induction streams generalizing availability b credit s with
  | nil =>
    cases h
    exact .inl ⟨rfl, rfl⟩
  | cons e streams ih =>
    obtain ⟨sid, outgoing⟩ := e
    obtain ⟨⟨poll, outgoing', b', credit', left⟩, hpoll, h⟩ := of_bind h
    obtain ⟨hleft, herror⟩ := Outgoing.pollDumpIn_left hpoll
    have hnext : ∀ availability', (scan current remaining availability' b' credit' streams).bind
        (fun rest => some { rest with polled := (sid, outgoing') :: rest.polled }) = some s →
        (s.served = none ∧ s.polled.map Prod.fst = ((sid, outgoing) :: streams).map Prod.fst) ∨
        ∃ pre e post w, (sid, outgoing) :: streams = pre ++ e :: post ∧
          s.polled.map Prod.fst = pre.map Prod.fst ++ [e.1] ∧ s.served = some w ∧ w.sid = e.1 ∧ w.payload + w.left = budget current remaining e.1 := by
      intro availability' h
      obtain ⟨rest, hrest, h⟩ := of_bind h
      cases h
      rcases ih hrest with ⟨hserved, hpolled⟩ | ⟨pre, e, post, w, rfl, hpolled, hw⟩
      · exact .inl ⟨hserved, congrArg (sid :: ·) hpolled⟩
      · exact .inr ⟨(sid, outgoing) :: pre, e, post, w, rfl, congrArg (sid :: ·) hpolled, hw⟩
    dsimp only at h
    split at h
    · split_ifs at h
      · cases h
        exact .inr ⟨[], (sid, outgoing), streams, _, rfl, rfl, rfl, rfl, Nat.sub_add_cancel hleft⟩
      · exact hnext _ h
    · exact absurd rfl (herror _)
    · exact hnext _ h

lemma pollDump_cases (h : o.pollDump b credit = some (poll, o', b', credit', call)) :
    call.streams = o.outgoings.map Prod.fst ∧ call.polled.Nodup ∧
    ((call.wrote = none ∧ (∀ k ∈ call.streams, k ∈ call.polled) ∧ o'.turn = o.turn) ∨
      ∃ current remaining pre e post n left, o.start = some (current, remaining) ∧
        rotate (low current remaining) o.outgoings = pre ++ e :: post ∧ call.polled = pre.map Prod.fst ++ [e.1] ∧
        call.wrote = some (e.1, n) ∧ o'.turn = some (e.1, left) ∧ n + left = budget current remaining e.1) := by
  unfold pollDump at h
  split at h
  · next hstart =>
    cases h
    refine ⟨rfl, List.nodup_nil, .inl ⟨rfl, ?_, rfl⟩⟩
    -- without a turn there is no last stream
    have hlast : o.outgoings.getLast? = none := by
      have hor := (Option.or_eq_none_iff.mp hstart).2
      exact Option.map_eq_none_iff.mp hor
    rw [List.getLast?_eq_none_iff.mp hlast]
    exact List.forall_mem_nil _
  · next current remaining hstart =>
    obtain ⟨s, hscan, h⟩ := of_bind h
    cases h
    have hnodup : ((rotate (low current remaining) o.outgoings).map Prod.fst).Nodup := nodup_rotate o.sorted
    rcases scan_cases hscan with ⟨hserved, hpolled⟩ | ⟨pre, e, post, w, hsplit, hpolled, hserved, hsid, hbudget⟩
    · refine ⟨rfl, hpolled ▸ hnodup, .inl ⟨?_, ?_, ?_⟩⟩
      · rw [hserved]
        rfl
      · intro k hk
        obtain ⟨e, he, rfl⟩ := List.mem_map.mp hk
        change e.1 ∈ s.polled.map Prod.fst
        rw [hpolled]
        exact List.mem_map_of_mem (mem_rotate.mpr he)
      · rw [hserved]
        rfl
    · have honce : (s.polled.map Prod.fst).Nodup := by
        rw [hsplit, List.map_append, List.map_cons] at hnodup
        rw [hpolled]
        exact hnodup.sublist (List.Sublist.append_left (List.singleton_sublist.mpr List.mem_cons_self) _)
      refine ⟨rfl, honce, .inr ⟨current, remaining, pre, e, post, w.payload, w.left, hstart, hsplit, hpolled, ?_, ?_, hbudget⟩⟩
      · rw [hserved, Option.map_some, hsid]
      · rw [hserved, Option.map_some, hsid]
        rfl

/-- A call in the round after the turn of `a`, which finds `a` and does not get to it. -/
lemma round_pollDump (h : o.pollDump b credit = some (poll, o', b', credit', call)) {a : StreamId}
    (ha : a ∈ call.streams) (hnot : a ∉ call.polled) {cursor : StreamId × Nat} (hturn : o.turn = some cursor)
    {writes : List (StreamId × Nat)} (hround : Round a streamQuantum cursor writes) :
    ∃ cursor', o'.turn = some cursor' ∧ Round a streamQuantum cursor' (writes ++ call.wrote.toList) := by
  obtain ⟨hstreams, -, hcases⟩ := pollDump_cases h
  rcases hcases with
    ⟨-, hall, -⟩ | ⟨current, remaining, pre, e, post, n, left, hstart, hsplit, hpolled, hwrote, hturn', hbudget⟩
  · exact absurd (hall a ha) hnot
  · have hcursor : cursor = (current, remaining) := by
      unfold start at hstart
      rw [hturn] at hstart
      exact Option.some.inj hstart
    rw [hcursor] at hround
    rw [hpolled, List.mem_append, List.mem_singleton] at hnot
    push Not at hnot
    have hsooner := eq_or_sooner_of_split o.sorted hsplit (hstreams ▸ ha) hnot.1
    refine ⟨_, hturn', ?_⟩
    rw [hwrote]
    by_cases hzero : remaining = 0
    · have hlow : low current remaining = fun sid => decide (sid < current) := funext fun sid => if_pos hzero
      have hle : n + left ≤ streamQuantum := (hbudget.trans (if_neg fun hpos => by omega)).le
      rw [hlow] at hsooner
      by_cases hc : current = a
      · exact hround.advance hnot.2.symm (.inl hc) hle
      · exact hround.advance hnot.2.symm (.inr (.of_excluded hc hsooner)) hle
    · have hlow : low current remaining = fun sid => decide (sid ≤ current) := funext fun sid => if_neg hzero
      rw [hlow] at hsooner
      by_cases hc : current = a
      · subst hc
        exact absurd (hsooner.resolve_left hnot.2.symm) (Sooner.not_included _ _)
      · rcases Sooner.of_included hc hsooner with heq | hlater
        · have hle : n + left ≤ remaining := (hbudget.trans (if_pos ⟨heq, Nat.pos_of_ne_zero hzero⟩)).le
          rw [heq]
          exact hround.resume hc hle
        · have hle : n + left ≤ streamQuantum := (hbudget.trans (if_neg fun hpos => hlater.ne hpos.1.symm)).le
          exact hround.advance hnot.2.symm (.inr hlater) hle

end Output

/-! ### Whole runs -/

namespace DumpCall

/-- `a` is there, and writes if it is polled. -/
def Ready (a : StreamId) (call : DumpCall) : Prop :=
  a ∈ call.streams ∧ (a ∈ call.polled → ∃ n, call.wrote = some (a, n))

def payload (sid : StreamId) (calls : List DumpCall) : Nat := spent (calls.filterMap DumpCall.wrote) sid

end DumpCall

namespace OutputWorld

variable {ε : Type} {w w' : OutputWorld ε}

/-- The calls since a turn of `a` are a round, as long as `a` has no other turn. -/
def Rounds (a : StreamId) (w : OutputWorld ε) : Prop :=
  ∀ pre first mid, w.calls = pre ++ first :: mid → (∃ n, first.wrote = some (a, n)) → (∀ call ∈ mid, call.Ready a) →
    (∀ call ∈ mid, ∀ n, call.wrote ≠ some (a, n)) →
    ∃ cursor, w.output.turn = some cursor ∧ Round a streamQuantum cursor (mid.filterMap DumpCall.wrote)

variable {a : StreamId} {op : OutputOp ε}

lemma Rounds.step (hw : w.Rounds a) (he : w.exec op = some w') : w'.Rounds a := by
  cases op with
  | change outgoings sorted =>
    cases he
    exact hw
  | pollDump b credit =>
    obtain ⟨⟨poll, o, b', credit', call⟩, hpoll, he⟩ := of_bind he
    cases he
    intro pre first mid hcalls hfirst hready hquiet
    rcases List.eq_nil_or_concat mid with rfl | ⟨mid', last, rfl⟩
    · -- the call is a turn of `a`
      obtain ⟨hcalls, hlast⟩ := List.append_inj' hcalls rfl
      obtain rfl := (List.cons.inj hlast).1
      obtain ⟨n, hfirst⟩ := hfirst
      obtain ⟨-, -, ⟨hnone, -⟩ | ⟨_, _, _, e, _, _, left, -, -, -, hwrote, hturn, -⟩⟩ := Output.pollDump_cases hpoll
      · cases hnone.symm.trans hfirst
      · cases hwrote.symm.trans hfirst
        exact ⟨_, hturn, .start _ _ _⟩
    · rw [List.concat_eq_append] at *
      have hsplit : w.calls ++ [call] = (pre ++ first :: mid') ++ [last] := by
        rw [List.append_assoc]
        exact hcalls
      obtain ⟨hbefore, hlast⟩ := List.append_inj' hsplit rfl
      obtain rfl := (List.cons.inj hlast).1
      obtain ⟨cursor, hturn, hround⟩ := hw pre first mid' hbefore hfirst
        (fun c hc => hready c (List.mem_append_left _ hc)) (fun c hc => hquiet c (List.mem_append_left _ hc))
      have hcall : call ∈ mid' ++ [call] := List.mem_append_right _ (List.mem_singleton.mpr rfl)
      obtain ⟨ha, hpolled⟩ := hready call hcall
      have hnot : a ∉ call.polled := by
        intro hmem
        obtain ⟨n, hn⟩ := hpolled hmem
        exact hquiet call hcall n hn
      obtain ⟨cursor', hturn', hround'⟩ := Output.round_pollDump hpoll ha hnot hturn hround
      refine ⟨cursor', hturn', ?_⟩
      have hwrites : [call].filterMap DumpCall.wrote = call.wrote.toList := by
        cases hwrote : call.wrote <;> simp [hwrote]
      rw [List.filterMap_append, hwrites]
      exact hround'

/-- In these calls `a` has a turn, and then none while others may write. -/
def Between (a : StreamId) (w : OutputWorld ε) (mid : List DumpCall) : Prop :=
  ∃ pre first post, w.calls = pre ++ first :: (mid ++ post) ∧ (∃ n, first.wrote = some (a, n)) ∧
    (∀ call ∈ mid, call.Ready a) ∧ ∀ call ∈ mid, ∀ n, call.wrote ≠ some (a, n)

def Bounded (a : StreamId) (w : OutputWorld ε) : Prop :=
  ∀ mid, Between a w mid → ∀ sid, DumpCall.payload sid mid ≤ streamQuantum

lemma Rounds.bounded (hw : w.Rounds a) (hbefore : w.Bounded a) (he : w.exec op = some w') : w'.Bounded a := by
  have hnow := hw.step he
  rintro mid ⟨pre, first, post, hcalls, hfirst, hready, hquiet⟩ sid
  rcases List.eq_nil_or_concat post with rfl | ⟨post', last, rfl⟩
  · rw [List.append_nil] at hcalls
    obtain ⟨cursor, -, hround⟩ := hnow pre first mid hcalls hfirst hready hquiet
    exact hround.bounded sid
  · cases op with
    | change outgoings sorted =>
      cases he
      exact hbefore mid ⟨pre, first, _, hcalls, hfirst, hready, hquiet⟩ sid
    | pollDump b credit =>
      obtain ⟨⟨poll, o, b', credit', call⟩, -, he⟩ := of_bind he
      cases he
      have hsplit : w.calls ++ [call] = (pre ++ first :: (mid ++ post')) ++ [last] := by
        rw [List.concat_eq_append] at hcalls
        rw [List.append_assoc, List.cons_append, List.append_assoc]
        exact hcalls
      exact hbefore mid ⟨pre, first, post', (List.append_inj' hsplit rfl).1, hfirst, hready, hquiet⟩ sid

/-- No call polls a stream twice, and a call that writes nothing polls all of them. -/
def Polled (w : OutputWorld ε) : Prop :=
  ∀ call ∈ w.calls, call.polled.Nodup ∧ (call.wrote = none → ∀ sid ∈ call.streams, sid ∈ call.polled)

lemma Polled.step (hw : w.Polled) (he : w.exec op = some w') : w'.Polled := by
  cases op with
  | change outgoings sorted =>
    cases he
    exact hw
  | pollDump b credit =>
    obtain ⟨⟨poll, o, b', credit', call⟩, hpoll, he⟩ := of_bind he
    cases he
    intro c hc
    rcases List.mem_append.mp hc with hc | hc
    · exact hw c hc
    · obtain rfl := List.mem_singleton.mp hc
      obtain ⟨-, hnodup, ⟨-, hall, -⟩ | ⟨_, _, _, e, _, _, _, -, -, -, hwrote, -⟩⟩ := Output.pollDump_cases hpoll
      · exact ⟨hnodup, fun _ => hall⟩
      · refine ⟨hnodup, fun hnone => ?_⟩
        cases hwrote.symm.trans hnone

/-- Between two turns of a stream that writes whenever it is polled, each stream writes at most its quantum. No call
polls a stream twice, and a call that writes nothing polls all of them. -/
theorem pollDump_fair (hw : (outputSystem ε).Reach w) (a : StreamId) :
    (∀ mid, Between a w mid → ∀ sid, DumpCall.payload sid mid ≤ streamQuantum) ∧
      ∀ call ∈ w.calls, call.polled.Nodup ∧ (call.wrote = none → ∀ sid ∈ call.streams, sid ∈ call.polled) := by
  have hall : w.Rounds a ∧ w.Bounded a ∧ w.Polled := by
    refine hw.invariant (I := fun w => w.Rounds a ∧ w.Bounded a ∧ w.Polled) ?_ ?_
    · intro w hw
      have hnil : w.calls = [] := hw
      refine ⟨?_, ?_, ?_⟩
      · intro pre first mid hcalls
        rw [hnil] at hcalls
        exact absurd hcalls.symm (List.append_ne_nil_of_right_ne_nil _ (List.cons_ne_nil _ _))
      · rintro mid ⟨pre, first, post, hcalls, -⟩
        rw [hnil] at hcalls
        exact absurd hcalls.symm (List.append_ne_nil_of_right_ne_nil _ (List.cons_ne_nil _ _))
      · intro call hcall
        rw [hnil] at hcall
        cases hcall
    · rintro w op w' ⟨hrounds, hbounded, hpolled⟩ - he
      exact ⟨hrounds.step he, hrounds.bounded hbounded he, hpolled.step he⟩
  exact hall.2

def holding (sid : StreamId) (data : Bytes) : ArcSender Unit :=
  ((Writer.write (ArcSender.new sid 8) data).map Prod.snd).getD (.error ())

/-- Stream 0 has one byte left of its turn. Then stream 4 writes, and stream 0 again. -/
theorem pollDump_fair_two : ∃ w mid, ∃ a c : StreamId, (outputSystem Unit).Reach w ∧ Between a w mid ∧ a ≠ c ∧
    DumpCall.payload c mid = 2 ∧ DumpCall.payload c mid ≤ streamQuantum := by
  have hsorted : ([(⟨⟨0, by decide⟩⟩, holding ⟨⟨0, by decide⟩⟩ [1, 2]),
      (⟨⟨4, by decide⟩⟩, holding ⟨⟨4, by decide⟩⟩ [3, 4])] : List (StreamId × ArcSender Unit)).Pairwise fun x y => x.1 < y.1 := by
    refine List.pairwise_pair.mpr ?_
    change 0 < 4
    decide
  have h₀ : (outputSystem Unit).Reach ⟨⟨_, hsorted, some (⟨⟨0, by decide⟩⟩, 1)⟩, []⟩ := .start rfl
  have h₁ := h₀.step (e := OutputOp.pollDump (PacketBuffer.new 60 60 [] (.short false) 0 16) 10) trivial rfl
  have h₂ := h₁.step (e := OutputOp.pollDump (PacketBuffer.new 60 60 [] (.short false) 0 16) 10) trivial rfl
  have h₃ := h₂.step (e := OutputOp.pollDump (PacketBuffer.new 60 60 [] (.short false) 0 16) 10) trivial rfl
  obtain ⟨w, a, c, hac, hw, hcalls⟩ : ∃ w, ∃ a c : StreamId, a ≠ c ∧ (outputSystem Unit).Reach w ∧
      w.calls = [⟨[a, c], [a], some (a, 1)⟩, ⟨[a, c], [c], some (c, 2)⟩, ⟨[a, c], [c, a], some (a, 1)⟩] :=
    ⟨_, ⟨⟨0, by decide⟩⟩, ⟨⟨4, by decide⟩⟩, by decide, h₃, rfl⟩
  have hbetween : Between a w [⟨[a, c], [c], some (c, 2)⟩] := by
    refine ⟨[], _, [_], hcalls, ⟨1, rfl⟩, ?_, ?_⟩
    · intro call hcall
      rw [List.mem_singleton.mp hcall]
      exact ⟨List.mem_cons_self, fun h => absurd (List.mem_singleton.mp h) hac⟩
    · intro call hcall n hwrote
      rw [List.mem_singleton.mp hcall] at hwrote
      cases hwrote
      exact hac rfl
  have hpayload : DumpCall.payload c [⟨[a, c], [c], some (c, 2)⟩] = 2 := by simp [DumpCall.payload, spent]
  exact ⟨w, _, a, c, hw, hbetween, hac, hpayload, (pollDump_fair hw a).1 _ hbetween c⟩

end OutputWorld

end Dquic
