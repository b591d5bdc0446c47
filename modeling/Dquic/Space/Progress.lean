import Dquic.Congestion.Timer
import Dquic.Journal.IndexDeque
import Dquic.Lib.Window

/-!
# Spaces and their epochs

`ArcSpaces` of `qtransport/src/space/assemble.rs` and `Progress` of `qtransport/src/progress.rs`:
the packet-number spaces of a connection stand in a queue whose index is the epoch.
-/

namespace Dquic

open Lib Congestion

/-- `epoch as u64`. -/
def Epoch.index : Epoch → Nat
  | .initial => 0
  | .handshake => 1
  | .data => 2

/-- A shared space: the epoch it is for, and which object it is. -/
structure SpaceHandle where
  epoch : Epoch
  object : Nat
  deriving DecidableEq, Repr

abbrev ArcSpaces := IndexDeque SpaceHandle 2

namespace ArcSpaces

/-- `none` stands for the failed `expect`. -/
def add (spaces : ArcSpaces) (space : SpaceHandle) : Option ArcSpaces := spaces.pushBack space

def retire (spaces : ArcSpaces) (epoch : Epoch) : Option (List SpaceHandle × ArcSpaces) := do
  let stop := max (epoch.index + 1) spaces.offset
  let largest ← spaces.largest
  let (drained, spaces) ← spaces.drainTo (min stop largest)
  some (drained, spaces.resetOffset stop)

def get (spaces : ArcSpaces) (epoch : Epoch) : Option SpaceHandle := IndexDeque.get spaces epoch.index

def skipTo : Option Epoch → Option (List SpaceHandle × ArcSpaces)
  | some .handshake => retire .empty .initial
  | some .data => retire .empty .handshake
  | _ => some ([], .empty)

/-- What `poll_collect` makes of the handles it has read, the highest epoch first. -/
def rebuild (handles : List SpaceHandle) : Option (List SpaceHandle × ArcSpaces) := do
  let (drained, spaces) ← skipTo (handles.getLast?.map SpaceHandle.epoch)
  let spaces ← spaces.pushAll handles.reverse
  some (drained, spaces)

end ArcSpaces

namespace Congestion.HandshakeFacts

/-! Each event reports whether it was the first of its kind. -/

def installHandshakeKey (f : HandshakeFacts) : Bool × HandshakeFacts := (!f.gotHandshakeKey, { f with gotHandshakeKey := true })

def onHandshakeSent (f : HandshakeFacts) : Bool × HandshakeFacts := (!f.hasSentHandshake, { f with hasSentHandshake := true })

def onHandshakeReceived (f : HandshakeFacts) : Bool × HandshakeFacts :=
  (!f.hasReceivedHandshake, { f with hasReceivedHandshake := true })

def onHandshakeDone (f : HandshakeFacts) : Bool × HandshakeFacts := (!f.isHandshakeDone, { f with isHandshakeDone := true })

end Congestion.HandshakeFacts

/-- What the holder of the lifecycle lock has still to do to the resenders. -/
inductive Effect
  | push (space : SpaceHandle)
  | drain (epoch : Epoch)
  deriving DecidableEq, Repr

/-- A path between the reads of `poll_collect`: the epochs that it has still to read, and the handles that it found. -/
structure Collecting where
  todo : List Epoch
  handles : List SpaceHandle

/-- A connection. What was installed and retired, and each snapshot with the handles it was made of, is kept for the
record, and so is whether the data space was published and the connection cleaned. -/
structure ProgressWorld where
  facts : HandshakeFacts
  spaces : ArcSpaces
  resenders : IndexDeque SpaceHandle 2
  pending : Option Effect
  collecting : Nat → Option Collecting
  published : Bool
  cleaned : Bool
  installed : List SpaceHandle
  retired : List SpaceHandle
  snapshots : List (List SpaceHandle × ArcSpaces)

/-- The transitions of a connection, up to the release of the queue. `settle` is the rest of the one that holds the
lock. The others are the steps of `poll_collect`. -/
inductive ProgressOp
  | installHandshake (space : SpaceHandle)
  | installData (space : SpaceHandle)
  | onHandshakeSent
  | onHandshakeReceived
  | onHandshakeDone
  | clean
  | settle
  | collect (path : Nat)
  | read (path : Nat)
  | rebuild (path : Nat)

namespace ProgressWorld

def install (w : ProgressWorld) (space : SpaceHandle) : Option ProgressWorld := do
  let spaces ← w.spaces.add space
  some { w with spaces := spaces, installed := w.installed ++ [space], pending := some (.push space) }

def retire (w : ProgressWorld) (epoch : Epoch) : Option ProgressWorld := do
  let (drained, spaces) ← w.spaces.retire epoch
  some { w with spaces := spaces, retired := w.retired ++ drained, pending := some (.drain epoch) }

def installHandshake (w : ProgressWorld) (space : SpaceHandle) : Option ProgressWorld :=
  if w.facts.installHandshakeKey.1 then install { w with facts := w.facts.installHandshakeKey.2 } space
  else some { w with facts := w.facts.installHandshakeKey.2 }

def onHandshakeSent (w : ProgressWorld) : Option ProgressWorld :=
  if w.facts.onHandshakeSent.1 && w.facts.role = .client then retire { w with facts := w.facts.onHandshakeSent.2 } .initial
  else some { w with facts := w.facts.onHandshakeSent.2 }

def onHandshakeReceived (w : ProgressWorld) : Option ProgressWorld :=
  if w.facts.onHandshakeReceived.1 && w.facts.role = .server then
    retire { w with facts := w.facts.onHandshakeReceived.2 } .initial
  else some { w with facts := w.facts.onHandshakeReceived.2 }

/-- Without a data space the confirmation came after `clean`. -/
def onHandshakeDone (w : ProgressWorld) : Option ProgressWorld :=
  match (w.spaces.get .data).filter fun space => space.epoch = .data with
  | none => some w
  | some _ =>
    if w.facts.onHandshakeDone.1 then retire { w with facts := w.facts.onHandshakeDone.2 } .handshake
    else some { w with facts := w.facts.onHandshakeDone.2 }

/-- `clamp`, which panics where the bounds are the wrong way round. -/
def clamp (n lo hi : Nat) : Option Nat := if lo ≤ hi then some (max lo (min n hi)) else none

/-- The second half of `install` and `retire`. -/
def settle (w : ProgressWorld) : Option ProgressWorld :=
  match w.pending with
  | none => some w
  | some (.push space) => do
    let resenders ← w.resenders.pushBack space
    some { w with resenders := resenders, pending := none }
  | some (.drain epoch) => do
    let largest ← w.resenders.largest
    let stop ← clamp (epoch.index + 1) w.resenders.offset largest
    let (_, resenders) ← w.resenders.drainTo stop
    some { w with resenders := resenders, pending := none }

def read (w : ProgressWorld) (path : Nat) : Option ProgressWorld :=
  match w.collecting path with
  | some ⟨epoch :: todo, handles⟩ =>
    some { w with
      collecting := Function.update w.collecting path (some ⟨todo, handles ++ (w.spaces.get epoch).toList⟩) }
  | _ => some w

/-- Retiring inside the new queue would retire the spaces themselves. -/
def rebuild (w : ProgressWorld) (path : Nat) : Option ProgressWorld :=
  match w.collecting path with
  | some ⟨[], handles⟩ => do
    let (drained, spaces) ← ArcSpaces.rebuild handles
    some { w with
      collecting := Function.update w.collecting path none
      retired := w.retired ++ drained
      snapshots := w.snapshots ++ [(handles, spaces)] }
  | _ => some w

def exec (w : ProgressWorld) : ProgressOp → Option ProgressWorld
  | .installHandshake space => w.installHandshake space
  | .installData space => install { w with published := true } space
  | .onHandshakeSent => w.onHandshakeSent
  | .onHandshakeReceived => w.onHandshakeReceived
  | .onHandshakeDone => w.onHandshakeDone
  | .clean => retire { w with cleaned := true } .data
  | .settle => w.settle
  | .collect path => some { w with collecting := Function.update w.collecting path (some ⟨Epoch.all.reverse, []⟩) }
  | .read path => w.read path
  | .rebuild path => w.rebuild path

/-- The transitions take the lifecycle lock. The handshake space is installed before the data space, which is installed
once, and nothing is installed after `clean`. -/
def Issued (w : ProgressWorld) : ProgressOp → Prop
  | .installHandshake space => w.pending = none ∧ w.cleaned = false ∧ space.epoch = .handshake
  | .installData space =>
    w.pending = none ∧ w.cleaned = false ∧ space.epoch = .data ∧ w.facts.gotHandshakeKey = true ∧ w.published = false
  | .onHandshakeSent | .onHandshakeReceived | .onHandshakeDone | .clean => w.pending = none
  | .settle | .collect _ | .read _ | .rebuild _ => True

/-- `Paths::new`: the initial space is installed from the beginning. -/
def new (role : Role) (object : Nat) : ProgressWorld where
  facts := .withRole role
  spaces := ⟨[⟨.initial, object⟩], 0⟩
  resenders := ⟨[⟨.initial, object⟩], 0⟩
  pending := none
  collecting _ := none
  published := false
  cleaned := false
  installed := [⟨.initial, object⟩]
  retired := []
  snapshots := []

end ProgressWorld

def progressSystem (role : Role) (object : Nat) : System ProgressWorld ProgressOp where
  init w := w = .new role object
  issued := ProgressWorld.Issued
  exec := ProgressWorld.exec

/-! ### Queues that are the rest of a list -/

namespace ArcSpaces

variable {spaces : ArcSpaces} {l : List SpaceHandle}

/-- Retiring drops what lies before the new offset, also when the queue ends before it. -/
lemma retire_eq (h : spaces.deque = l.drop spaces.offset) (hoffset : spaces.offset ≤ 3) (hlen : l.length ≤ 3) (epoch : Epoch) :
    spaces.retire epoch =
      some ((l.take (max (epoch.index + 1) spaces.offset)).drop spaces.offset,
        ⟨l.drop (max (epoch.index + 1) spaces.offset), max (epoch.index + 1) spaces.offset⟩) := by
  have hcount : spaces.deque.length = l.length - spaces.offset := by rw [h, List.length_drop]
  have hlargest : spaces.largest = some (spaces.offset + spaces.deque.length) := checkedAdd_of_lt (by omega)
  unfold retire
  rw [hlargest]
  simp only [some_bind]
  generalize hstop : max (epoch.index + 1) spaces.offset = stop
  have hle : spaces.offset ≤ stop := by omega
  have hlength : (l.drop spaces.offset).length = spaces.deque.length := congrArg List.length h.symm
  -- where the queue ends before the new offset both sides take all of it
  have htaken : (l.drop spaces.offset).take (min stop (spaces.offset + spaces.deque.length) - spaces.offset) =
      (l.take stop).drop spaces.offset := by
    rw [List.drop_take]
    rcases le_total stop (spaces.offset + spaces.deque.length) with hin | hout
    · rw [min_eq_left hin]
    · rw [min_eq_right hout, List.take_of_length_le (by omega), List.take_of_length_le (by omega)]
  have hrest : (l.drop spaces.offset).drop (min stop (spaces.offset + spaces.deque.length) - spaces.offset) = l.drop stop := by
    rw [List.drop_drop]
    rcases le_total stop (spaces.offset + spaces.deque.length) with hin | hout
    · rw [min_eq_left hin, Nat.add_sub_cancel' hle]
    · rw [min_eq_right hout, List.drop_eq_nil_of_le (by omega), List.drop_eq_nil_of_le (by omega)]
  have hdrain : spaces.drainTo (min stop (spaces.offset + spaces.deque.length)) =
      some ((l.take stop).drop spaces.offset, ⟨l.drop stop, min stop (spaces.offset + spaces.deque.length)⟩) := by
    rw [IndexDeque.drainTo, if_pos ⟨by omega, min_le_right _ _⟩, ← htaken, ← hrest, h]
  rw [hdrain]
  rfl

lemma skipTo_some (epoch : Epoch) : skipTo (some epoch) = some ([], ⟨[], epoch.index⟩) := by
  cases epoch <;> rfl

/-- A run of epochs is rebuilt with each space at its own index, and nothing is retired. -/
lemma rebuild_eq {handles : List SpaceHandle} {a : Nat}
    (hrun : handles.reverse.map (fun s => s.epoch.index) = List.range' a handles.length)
    (hend : handles ≠ [] → a + handles.length ≤ 3) :
    ∃ offset, rebuild handles = some ([], ⟨handles.reverse, offset⟩) ∧
      handles.reverse.map (fun s => s.epoch.index) = List.range' offset handles.length := by
  unfold rebuild
  cases hback : handles.reverse with
  | nil =>
    rw [List.reverse_eq_nil_iff] at hback
    subst hback
    exact ⟨0, rfl, rfl⟩
  | cons s rest =>
    have hne : handles ≠ [] := by
      rintro rfl
      cases hback
    have hlen : (s :: rest).length = handles.length := by rw [← hback, List.length_reverse]
    have hlast : handles.getLast? = some s := by rw [← List.head?_reverse, hback, List.head?_cons]
    have hfirst : s.epoch.index = a := by
      rw [hback, ← hlen, List.length_cons, List.range'_succ] at hrun
      exact (List.cons.inj hrun).1
    refine ⟨a, ?_, hback ▸ hrun⟩
    rw [hlast, Option.map_some, skipTo_some, hfirst]
    have hroom : IndexDeque.next (⟨[], a⟩ : ArcSpaces) + (s :: rest).length ≤ 2 + 1 := by
      have hle := hend hne
      change a + 0 + (s :: rest).length ≤ 3
      omega
    simp only [some_bind, IndexDeque.pushAll_of_le (by decide) hroom, List.nil_append]

end ArcSpaces

/-! ### Every space at its own index -/

variable {epoch : Epoch}

lemma Epoch.index_inj {epoch' : Epoch} : epoch.index = epoch'.index ↔ epoch = epoch' := by
  cases epoch <;> cases epoch' <;> decide

lemma Epoch.index_of_getElem? {n : Nat} (h : Epoch.all[n]? = some epoch) : epoch.index = n := by
  match n, h with
  | 0, rfl => rfl
  | 1, rfl => rfl
  | 2, rfl => rfl

lemma epoch_of_getElem? {l : List SpaceHandle} (h : l.map SpaceHandle.epoch <+: Epoch.all) {space : SpaceHandle}
    (hget : l[epoch.index]? = some space) : space.epoch = epoch := by
  obtain ⟨rest, hall⟩ := h
  have hmap : (l.map SpaceHandle.epoch)[epoch.index]? = some space.epoch := by rw [List.getElem?_map, hget, Option.map_some]
  have hlt := (List.getElem?_eq_some_iff.mp hmap).1
  rw [← List.getElem?_append_left hlt, hall] at hmap
  cases epoch <;> exact (Option.some.inj hmap).symm

namespace ProgressWorld

variable {w w' : ProgressWorld}

/-- An installed space that the resenders do not have yet. -/
def unpushed : Option Effect → List SpaceHandle
  | some (.push space) => [space]
  | _ => []

/-- What a path has read so far, when `installed` are the spaces and those before `offset` are retired. -/
structure Reading (offset : Nat) (installed : List SpaceHandle) (c : Collecting) : Prop where
  todo : c.todo = (Epoch.all.take c.todo.length).reverse
  found : Lookup offset installed.length c.todo.length (c.handles.reverse.map fun s => s.epoch.index)
  mem : ∀ s ∈ c.handles, s ∈ installed

lemma Reading.mono {offset offset' : Nat} {installed installed' : List SpaceHandle} {c : Collecting}
    (h : Reading offset installed c) (hoffset : offset ≤ offset') (hinst : installed <+: installed') :
    Reading offset' installed' c :=
  ⟨h.todo, h.found.slide hoffset hinst.length_le, fun s hs => hinst.subset (h.mem s hs)⟩

/-- A snapshot holds what was read, each space at its own index. -/
structure Snapshot (installed : List SpaceHandle) (handles : List SpaceHandle) (spaces : ArcSpaces) : Prop where
  deque : spaces.deque = handles.reverse
  run : spaces.deque.map (fun s => s.epoch.index) = List.range' spaces.offset spaces.deque.length
  mem : ∀ s ∈ handles, s ∈ installed

/-- The queue is what was installed and not retired, and the resenders follow it. -/
structure Members (w : ProgressWorld) : Prop where
  epochs : w.installed.map SpaceHandle.epoch <+: Epoch.all
  spaces : w.spaces.deque = w.installed.drop w.spaces.offset
  retired : w.retired = w.installed.take w.spaces.offset
  bound : w.spaces.offset ≤ 3
  offset_le : w.cleaned = false → w.spaces.offset ≤ w.installed.length
  resenders : ∃ known, w.resenders.deque = known.drop w.resenders.offset ∧ w.resenders.offset ≤ known.length ∧
    w.installed = known ++ unpushed w.pending
  collecting : ∀ path c, w.collecting path = some c → Reading w.spaces.offset w.installed c
  snapshots : ∀ p ∈ w.snapshots, Snapshot w.installed p.1 p.2

structure Aligned (w : ProgressWorld) : Prop extends Members w where
  count : w.installed.length = 1 + w.facts.gotHandshakeKey.toNat + w.published.toNat
  key : w.published = true → w.facts.gotHandshakeKey = true

namespace Members

lemma length_le (h : w.Members) : w.installed.length ≤ 3 := by
  have hle := h.epochs.length_le
  rwa [List.length_map] at hle

lemma get_eq (h : w.Members) (epoch : Epoch) :
    w.spaces.get epoch = if w.spaces.offset ≤ epoch.index then w.installed[epoch.index]? else none :=
  IndexDeque.get_of_drop h.spaces epoch.index

lemma withFacts (h : w.Members) (facts : HandshakeFacts) (published : Bool) :
    Members { w with facts := facts, published := published } := { h with }

lemma resenders_eq (h : w.Members) (hidle : w.pending = none) :
    w.resenders.deque = w.installed.drop w.resenders.offset ∧ w.resenders.offset ≤ w.installed.length := by
  obtain ⟨known, hdeque, hle, hinst⟩ := h.resenders
  rw [hidle] at hinst
  rw [hinst.trans (List.append_nil known)]
  exact ⟨hdeque, hle⟩

/-- A result that keeps the queue in order, with the spaces that it adds. -/
def Gives (w : ProgressWorld) (added : List SpaceHandle) (x : Option ProgressWorld) : Prop :=
  ∃ w', x = some w' ∧ w'.Members ∧ w'.installed = w.installed ++ added ∧ w'.facts = w.facts ∧ w'.published = w.published

lemma Gives.stay (h : w.Members) : Gives w [] (some w) := ⟨w, rfl, h, (List.append_nil _).symm, rfl, rfl⟩

lemma install (h : w.Members) (hidle : w.pending = none) (hopen : w.cleaned = false) {space : SpaceHandle}
    (hnext : (w.installed ++ [space]).map SpaceHandle.epoch <+: Epoch.all) : Gives w [space] (w.install space) := by
  have hle := h.offset_le hopen
  have hcount : w.spaces.deque.length = w.installed.length - w.spaces.offset := by rw [h.spaces, List.length_drop]
  have hlen : w.installed.length + 1 ≤ 3 := by
    have hlen := hnext.length_le
    rwa [List.length_map, List.length_append] at hlen
  have hroom : IndexDeque.next w.spaces ≤ 2 := by
    unfold IndexDeque.next
    omega
  have hmono : w.installed <+: w.installed ++ [space] := List.prefix_append _ _
  obtain ⟨hdeque, hoffset⟩ := h.resenders_eq hidle
  have hstep : w.install space = some { w with
      spaces := ⟨w.spaces.deque ++ [space], w.spaces.offset⟩
      installed := w.installed ++ [space]
      pending := some (.push space) } := by
    rw [ProgressWorld.install, ArcSpaces.add, IndexDeque.pushBack_of_le (by decide) hroom]
    rfl
  refine ⟨_, hstep, ?_, rfl, rfl, rfl⟩
  refine ⟨hnext, ?_, ?_, h.bound, fun _ => hle.trans hmono.length_le, ⟨w.installed, hdeque, hoffset, rfl⟩, ?_, ?_⟩
  · rw [List.drop_append_of_le_length hle, h.spaces]
  · rw [List.take_append_of_le_length hle, h.retired]
  · exact fun path c hc => (h.collecting path c hc).mono le_rfl hmono
  · exact fun p hp => ⟨(h.snapshots p hp).deque, (h.snapshots p hp).run,
      fun s hs => hmono.subset ((h.snapshots p hp).mem s hs)⟩

lemma retire (h : w.Members) (hidle : w.pending = none)
    (hreach : w.cleaned = false → epoch.index + 1 ≤ w.installed.length) : Gives w [] (w.retire epoch) := by
  have hepoch : epoch.index + 1 ≤ 3 := by cases epoch <;> decide
  obtain ⟨hdeque, hoffset⟩ := h.resenders_eq hidle
  have hstop : w.spaces.offset ≤ max (epoch.index + 1) w.spaces.offset := le_max_right _ _
  have hstep : w.retire epoch = some { w with
      spaces := ⟨w.installed.drop (max (epoch.index + 1) w.spaces.offset), max (epoch.index + 1) w.spaces.offset⟩
      retired := w.retired ++ (w.installed.take (max (epoch.index + 1) w.spaces.offset)).drop w.spaces.offset
      pending := some (.drain epoch) } := by
    rw [ProgressWorld.retire, ArcSpaces.retire_eq h.spaces h.bound h.length_le]
    rfl
  refine ⟨_, hstep, ?_, (List.append_nil _).symm, rfl, rfl⟩
  refine ⟨h.epochs, rfl, ?_, max_le hepoch h.bound, fun hopen => max_le (hreach hopen) (h.offset_le hopen),
    ⟨w.installed, hdeque, hoffset, (List.append_nil _).symm⟩,
    fun path c hc => (h.collecting path c hc).mono hstop List.prefix_rfl, h.snapshots⟩
  calc w.retired ++ (w.installed.take (max (epoch.index + 1) w.spaces.offset)).drop w.spaces.offset
      = (w.installed.take (max (epoch.index + 1) w.spaces.offset)).take w.spaces.offset ++
          (w.installed.take (max (epoch.index + 1) w.spaces.offset)).drop w.spaces.offset := by
        rw [List.take_take, min_eq_left hstop, h.retired]
    _ = w.installed.take (max (epoch.index + 1) w.spaces.offset) := List.take_append_drop _ _

lemma settle (h : w.Members) : Gives w [] w.settle := by
  have hlen := h.length_le
  obtain ⟨known, hdeque, hle, hinst⟩ := h.resenders
  have hcount : w.resenders.deque.length = known.length - w.resenders.offset := by rw [hdeque, List.length_drop]
  unfold ProgressWorld.settle
  cases hpending : w.pending with
  | none => exact .stay h
  | some effect =>
    rw [hpending] at hinst
    cases effect with
    | push space =>
      change w.installed = known ++ [space] at hinst
      rw [hinst, List.length_append, List.length_singleton] at hlen
      have hroom : w.resenders.next ≤ 2 := by
        unfold IndexDeque.next
        omega
      refine ⟨{ w with resenders := ⟨w.resenders.deque ++ [space], w.resenders.offset⟩, pending := none }, ?_, ?_,
        (List.append_nil _).symm, rfl, rfl⟩
      · dsimp only
        rw [IndexDeque.pushBack_of_le (by decide) hroom]
        rfl
      · refine { h with resenders := ⟨w.installed, ?_, ?_, (List.append_nil _).symm⟩ }
        · rw [hinst, List.drop_append_of_le_length hle, hdeque]
        · rw [hinst, List.length_append]
          exact hle.trans (Nat.le_add_right _ _)
    | drain epoch =>
      replace hinst : w.installed = known := hinst.trans (List.append_nil known)
      rw [hinst] at hlen
      have hlargest : w.resenders.largest = some (w.resenders.offset + w.resenders.deque.length) :=
        checkedAdd_of_lt (by omega)
      dsimp only
      rw [hlargest]
      simp only [some_bind]
      rw [clamp, if_pos (Nat.le_add_right _ _), some_bind]
      generalize hstop : max w.resenders.offset (min (epoch.index + 1) (w.resenders.offset + w.resenders.deque.length)) = stop
      have hin : w.resenders.offset ≤ stop ∧ stop ≤ w.resenders.offset + w.resenders.deque.length := by omega
      have hstop : stop ≤ known.length := by omega
      refine ⟨{ w with resenders := ⟨known.drop stop, stop⟩, pending := none }, ?_, ?_, (List.append_nil _).symm, rfl, rfl⟩
      · rw [IndexDeque.drainTo, if_pos hin, hdeque, List.drop_drop, Nat.add_sub_cancel' hin.1]
        rfl
      · exact { h with resenders := ⟨known, rfl, hstop, hinst.trans (List.append_nil _).symm⟩ }

lemma update (h : w.Members) (path : Nat) {c : Option Collecting}
    (hc : ∀ c', c = some c' → Reading w.spaces.offset w.installed c') :
    Members { w with collecting := Function.update w.collecting path c } := by
  refine { h with collecting := fun path' c' hc' => ?_ }
  by_cases heq : path' = path
  · subst heq
    exact hc c' ((Function.update_self path' c w.collecting).symm.trans hc')
  · exact h.collecting path' c' ((Function.update_of_ne heq c w.collecting).symm.trans hc')

lemma reading (h : w.Members) {todo : List Epoch} {handles : List SpaceHandle}
    (hc : Reading w.spaces.offset w.installed ⟨epoch :: todo, handles⟩) :
    Reading w.spaces.offset w.installed ⟨todo, handles ++ (w.spaces.get epoch).toList⟩ := by
  obtain ⟨htodo, hfound, hmem⟩ := hc
  have hshape : todo = (Epoch.all.take todo.length).reverse ∧ epoch.index = todo.length := by
    change epoch :: todo = (Epoch.all.take (todo.length + 1)).reverse at htodo
    rw [List.take_add_one, List.reverse_append] at htodo
    cases hnext : Epoch.all[todo.length]? with
    | none =>
      have hlen := congrArg List.length htodo
      rw [hnext, Option.toList_none, List.reverse_nil, List.nil_append, List.length_cons, List.length_reverse,
        List.length_take] at hlen
      omega
    | some epoch' =>
      rw [hnext, Option.toList_some, List.reverse_singleton, List.singleton_append] at htodo
      obtain ⟨rfl, hrest⟩ := List.cons.inj htodo
      exact ⟨hrest, Epoch.index_of_getElem? hnext⟩
  obtain ⟨htodo, hepoch⟩ := hshape
  change Lookup w.spaces.offset w.installed.length (todo.length + 1) _ at hfound
  rw [← hepoch] at hfound
  cases hget : w.spaces.get epoch with
  | none =>
    have hout : ¬(w.spaces.offset ≤ epoch.index ∧ epoch.index < w.installed.length) := by
      rintro ⟨hle, hlt⟩
      rw [h.get_eq, if_pos hle, List.getElem?_eq_none_iff] at hget
      omega
    rw [Option.toList_none, List.append_nil]
    exact ⟨htodo, hepoch ▸ hfound.miss hout, hmem⟩
  | some space =>
    rw [h.get_eq] at hget
    split_ifs at hget with hle
    have hlt := (List.getElem?_eq_some_iff.mp hget).1
    refine ⟨htodo, ?_, ?_⟩
    · change Lookup _ _ todo.length ((handles ++ [space]).reverse.map fun s => s.epoch.index)
      rw [List.reverse_concat, List.map_cons, epoch_of_getElem? h.epochs hget, ← hepoch]
      exact hfound.hit hle hlt
    · intro s hs
      rcases List.mem_append.mp hs with hs | hs
      · exact hmem s hs
      · rw [Option.toList_some, List.mem_singleton] at hs
        exact hs ▸ List.mem_of_getElem? hget

lemma read (h : w.Members) (path : Nat) : Gives w [] (w.read path) := by
  unfold ProgressWorld.read
  split
  · next hc =>
    refine ⟨_, rfl, h.update path fun c' hc' => ?_, (List.append_nil _).symm, rfl, rfl⟩
    cases hc'
    exact h.reading (h.collecting path _ hc)
  · exact .stay h

lemma rebuild (h : w.Members) (path : Nat) : Gives w [] (w.rebuild path) := by
  unfold ProgressWorld.rebuild
  split
  · next handles hc =>
    obtain ⟨-, hfound, hmem⟩ := h.collecting path _ hc
    obtain ⟨a, hrun, hend⟩ := hfound.run
    rw [List.length_map, List.length_reverse] at hrun hend
    have hlen := h.length_le
    obtain ⟨offset, heq, hrun⟩ := ArcSpaces.rebuild_eq hrun fun hne => by
      have hle := hend (by simpa using hne)
      omega
    rw [heq]
    have hupdate := h.update path (c := none) fun c' hc' => by cases hc'
    have hsnapshot : Snapshot w.installed handles ⟨handles.reverse, offset⟩ :=
      ⟨rfl, hrun.trans (congrArg (List.range' offset) (List.length_reverse).symm), hmem⟩
    exact ⟨_, rfl, { hupdate with
      retired := (List.append_nil _).trans h.retired
      snapshots := List.forall_mem_append.mpr ⟨h.snapshots, List.forall_mem_singleton.mpr hsnapshot⟩ },
      (List.append_nil _).symm, rfl, rfl⟩
  · exact .stay h

end Members

namespace Aligned

lemma of_gives (h : w.Aligned) {v : ProgressWorld} (hinst : v.installed = w.installed)
    (hkey : v.facts.gotHandshakeKey = w.facts.gotHandshakeKey) (hpublished : v.published = w.published)
    {x : Option ProgressWorld} (hx : Members.Gives v [] x) : ∃ w', x = some w' ∧ w'.Aligned := by
  obtain ⟨w', hstep, hmembers, hinst', hfacts', hpublished'⟩ := hx
  rw [List.append_nil, hinst] at hinst'
  refine ⟨w', hstep, ⟨hmembers, ?_, ?_⟩⟩
  · rw [hinst', hfacts', hpublished', hkey, hpublished]
    exact h.count
  · rw [hfacts', hpublished', hkey, hpublished]
    exact h.key

variable {facts : HandshakeFacts}

lemma withFacts (h : w.Aligned) (hkey : facts.gotHandshakeKey = w.facts.gotHandshakeKey) :
    Aligned { w with facts := facts } := by
  refine ⟨h.toMembers.withFacts facts w.published, ?_, fun hpub => hkey.trans (h.key hpub)⟩
  change w.installed.length = 1 + facts.gotHandshakeKey.toNat + w.published.toNat
  rw [hkey]
  exact h.count

lemma install (h : w.Aligned) (hidle : w.pending = none) (hopen : w.cleaned = false) {published : Bool}
    {space : SpaceHandle} (hepoch : Epoch.all[w.installed.length]? = some space.epoch)
    (hcount : w.installed.length + 1 = 1 + facts.gotHandshakeKey.toNat + published.toNat)
    (hkey : published = true → facts.gotHandshakeKey = true) :
    ∃ w', ProgressWorld.install { w with facts := facts, published := published } space = some w' ∧ w'.Aligned := by
  have hnext : (w.installed ++ [space]).map SpaceHandle.epoch <+: Epoch.all := by
    have htake := List.prefix_iff_eq_take.mp h.epochs
    have hsucc : Epoch.all.take (w.installed.length + 1) = (w.installed ++ [space]).map SpaceHandle.epoch := by
      rw [List.take_add_one, hepoch, List.map_append, htake, List.length_map]
      rfl
    rw [← hsucc]
    exact List.take_prefix _ _
  obtain ⟨w', hstep, hmembers, hinst, hfacts, hpublished⟩ :=
    (h.toMembers.withFacts facts published).install hidle hopen hnext
  refine ⟨w', hstep, ⟨hmembers, ?_, ?_⟩⟩
  · rw [hinst, hfacts, hpublished, List.length_append, List.length_singleton]
    exact hcount
  · rw [hfacts, hpublished]
    exact hkey

lemma retireInitial (h : w.Aligned) (hidle : w.pending = none) (hkey : facts.gotHandshakeKey = w.facts.gotHandshakeKey) :
    ∃ w', retire { w with facts := facts } .initial = some w' ∧ w'.Aligned := by
  have hcount := h.count
  refine h.of_gives (v := { w with facts := facts }) rfl hkey rfl ?_
  refine (h.toMembers.withFacts facts w.published).retire hidle fun _ => ?_
  change 0 + 1 ≤ w.installed.length
  omega

lemma step (h : w.Aligned) {op : ProgressOp} (hop : w.Issued op) : ∃ w', w.exec op = some w' ∧ w'.Aligned := by
  have hcount := h.count
  cases op with
  | installHandshake space =>
    obtain ⟨hidle, hopen, hepoch⟩ := hop
    change ∃ w', w.installHandshake space = some w' ∧ w'.Aligned
    unfold installHandshake
    split_ifs with hfirst
    · -- the key was not there, and so the data space is not published
      have hkey : w.facts.gotHandshakeKey = false := (Bool.not_eq_true' _).mp hfirst
      have hpublished : w.published = false := by
        by_contra hpub
        cases hkey.symm.trans (h.key (Bool.eq_true_of_not_eq_false hpub))
      rw [hkey, hpublished] at hcount
      refine h.install hidle hopen ?_ ?_ fun hpub => ?_
      · rw [hcount, hepoch]
        rfl
      · rw [hcount, hpublished]
        rfl
      · rfl
    · have hkey : w.facts.gotHandshakeKey = true := by simpa [HandshakeFacts.installHandshakeKey] using hfirst
      exact ⟨_, rfl, h.withFacts hkey.symm⟩
  | installData space =>
    obtain ⟨hidle, hopen, hepoch, hkey, hpublished⟩ := hop
    rw [hkey, hpublished] at hcount
    refine h.install hidle hopen ?_ ?_ fun _ => hkey
    · rw [hcount, hepoch]
      rfl
    · rw [hcount, hkey]
      rfl
  | onHandshakeSent =>
    change ∃ w', w.onHandshakeSent = some w' ∧ w'.Aligned
    unfold onHandshakeSent
    split_ifs
    · exact h.retireInitial hop rfl
    · exact ⟨_, rfl, h.withFacts rfl⟩
  | onHandshakeReceived =>
    change ∃ w', w.onHandshakeReceived = some w' ∧ w'.Aligned
    unfold onHandshakeReceived
    split_ifs
    · exact h.retireInitial hop rfl
    · exact ⟨_, rfl, h.withFacts rfl⟩
  | onHandshakeDone =>
    change ∃ w', w.onHandshakeDone = some w' ∧ w'.Aligned
    unfold onHandshakeDone
    split
    · exact ⟨w, rfl, h⟩
    · next hdata =>
      split_ifs
      · -- the data space is there, so that all three were installed
        obtain ⟨hget, -⟩ := Option.filter_eq_some_iff.mp hdata
        rw [h.get_eq] at hget
        split_ifs at hget with hle
        have hlt : 2 < w.installed.length := (List.getElem?_eq_some_iff.mp hget).1
        refine h.of_gives (v := { w with facts := w.facts.onHandshakeDone.2 }) rfl rfl rfl ?_
        exact (h.toMembers.withFacts w.facts.onHandshakeDone.2 w.published).retire hop fun _ => hlt.le
      · exact ⟨_, rfl, h.withFacts rfl⟩
  | clean =>
    have hmembers : Members { w with cleaned := true } := { h.toMembers with offset_le := fun hopen => (by cases hopen) }
    refine h.of_gives rfl rfl rfl (hmembers.retire hop fun hopen => ?_)
    cases hopen
  | settle => exact h.of_gives rfl rfl rfl h.toMembers.settle
  | collect path =>
    have hmembers : Members { w with collecting := Function.update w.collecting path (some ⟨Epoch.all.reverse, []⟩) } := by
      refine h.toMembers.update path fun c hc => ?_
      cases hc
      exact ⟨rfl, .start _ _ _, List.forall_mem_nil _⟩
    exact ⟨_, rfl, ⟨hmembers, h.count, h.key⟩⟩
  | read path => exact h.of_gives rfl rfl rfl (h.toMembers.read path)
  | rebuild path => exact h.of_gives rfl rfl rfl (h.toMembers.rebuild path)

end Aligned

theorem aligned_of_reach {role : Role} {object : Nat} (h : (progressSystem role object).Reach w) : w.Aligned := by
  refine h.invariant ?_ fun w op w' hw hop he => ?_
  · rintro w rfl
    refine ⟨⟨⟨[.handshake, .data], rfl⟩, rfl, rfl, Nat.zero_le _, fun _ => Nat.zero_le _, ⟨_, rfl, Nat.zero_le _, rfl⟩, ?_,
      List.forall_mem_nil _⟩, rfl, fun hpub => (by cases hpub)⟩
    intro path c hc
    cases hc
  · obtain ⟨w'', he', h'⟩ := hw.step hop
    cases he.symm.trans he'
    exact h'

/-- Whatever the order of the transitions and of the reads of the paths: the queue and the resenders have at each index
nothing or the space of that epoch, what a path rebuilds from its reads is the run of the spaces it has read with each
of them at its own index, no space is retired twice, and nothing fails. -/
theorem spaces_stay_aligned {role : Role} {object : Nat} (hw : (progressSystem role object).Reach w) :
    (∀ epoch space, w.spaces.get epoch = some space →
      space.epoch = epoch ∧ w.installed[epoch.index]? = some space) ∧
    (∀ epoch space, w.resenders.get epoch.index = some space →
      space.epoch = epoch ∧ w.installed[epoch.index]? = some space) ∧
    (∀ handles spaces, (handles, spaces) ∈ w.snapshots →
      spaces.deque.map (fun s => s.epoch.index) = List.range' spaces.offset spaces.deque.length ∧
      ∀ epoch space, spaces.get epoch = some space ↔ space ∈ handles ∧ space.epoch = epoch) ∧
    (w.retired.map SpaceHandle.epoch).Nodup ∧
    ∀ op, w.Issued op → ∃ w', w.exec op = some w' := by
  have h := aligned_of_reach hw
  refine ⟨?_, ?_, ?_, ?_, ?_⟩
  · intro epoch space hget
    rw [h.get_eq] at hget
    split_ifs at hget
    exact ⟨epoch_of_getElem? h.epochs hget, hget⟩
  · intro epoch space hget
    obtain ⟨known, hdeque, -, hinst⟩ := h.resenders
    rw [IndexDeque.get_of_drop hdeque] at hget
    split_ifs at hget
    have hlt := (List.getElem?_eq_some_iff.mp hget).1
    rw [← List.getElem?_append_left hlt, ← hinst] at hget
    exact ⟨epoch_of_getElem? h.epochs hget, hget⟩
  · intro handles spaces hmem
    obtain ⟨hdeque, hrun, -⟩ := h.snapshots _ hmem
    refine ⟨hrun, fun epoch space => ?_⟩
    rw [ArcSpaces.get, IndexDeque.get_iff_of_run hrun, hdeque, List.mem_reverse]
    exact and_congr_right fun _ => Epoch.index_inj
  · rw [h.retired, List.map_take]
    have hall : (w.installed.map SpaceHandle.epoch).Nodup := h.epochs.sublist.nodup (by decide)
    exact (List.take_sublist _ _).nodup hall
  · intro op hop
    obtain ⟨w', he, -⟩ := h.step hop
    exact ⟨w', he⟩

/-- A client sends its first Handshake packet and installs the data space while a path is reading. -/
theorem spaces_stay_aligned_client : ∃ w, (progressSystem .client 1).Reach w ∧ w.retired = [⟨.initial, 1⟩] ∧
    w.snapshots = [([⟨.handshake, 2⟩], ⟨[⟨.handshake, 2⟩], 1⟩)] ∧
    ∀ op, w.Issued op → ∃ w', w.exec op = some w' := by
  have h₀ : (progressSystem .client 1).Reach _ := .start rfl
  have h₁ := h₀.step (e := ProgressOp.installHandshake ⟨.handshake, 2⟩) ⟨rfl, rfl, rfl⟩ rfl
  have h₂ := h₁.step (e := ProgressOp.settle) trivial rfl
  have h₃ := h₂.step (e := ProgressOp.collect 0) trivial rfl
  have h₄ := h₃.step (e := ProgressOp.read 0) trivial rfl
  have h₅ := h₄.step (e := ProgressOp.installData ⟨.data, 3⟩) ⟨rfl, rfl, rfl, rfl, rfl⟩ rfl
  have h₆ := h₅.step (e := ProgressOp.read 0) trivial rfl
  have h₇ := h₆.step (e := ProgressOp.settle) trivial rfl
  have h₈ := h₇.step (e := ProgressOp.onHandshakeSent) rfl rfl
  have h₉ := h₈.step (e := ProgressOp.read 0) trivial rfl
  have h₁₀ := h₉.step (e := ProgressOp.rebuild 0) trivial rfl
  exact ⟨_, h₁₀, rfl, rfl, (spaces_stay_aligned h₁₀).2.2.2.2⟩

end ProgressWorld

end Dquic
