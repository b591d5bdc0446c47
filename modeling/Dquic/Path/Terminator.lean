import Dquic.Lib.System
import Dquic.Packet.Package

/-!
# Closing a connection

`Terminator` and `ArcTerminator` of `qtransport/src/terminate.rs`. A connection closes on its own
account, drains after the peer has closed, and terminates.
-/

namespace Dquic

open Lib

/-- `CloseReason`: the application, the peer or the connection itself. -/
inductive CloseReason
  | app (errorCode : VarInt) (reason : String)
  | peer (frame : ConnectionCloseFrame)
  | internal (kind : ErrorKind) (frameType : ErrorFrameType) (reason : String)
  deriving DecidableEq, Repr

def CloseReason.error : CloseReason → ConnError
  | app errorCode reason => .app errorCode reason
  | peer frame => .ofFrame frame
  | internal kind frameType reason => .quic kind frameType reason

/-- `Terminator` over the components that are told when it closes. -/
inductive Terminator (κ : Type)
  | noError (components : List κ)
  | closing (error : ConnError) (syncCcf sentCcf : Bool) (rcvdPackets lastSent interval : Nat)
  | draining (error : ConnError) (sentCcf : Bool)
  | terminated (error : ConnError)
  deriving DecidableEq, Repr

structure TerminatorDump (κ : Type) where
  term : Terminator κ
  poll : PollPackage
  log : List (Frame Bytes)
  buffer : PacketBuffer

inductive Phase
  | noError
  | closing
  | draining
  | terminated
  deriving DecidableEq, Repr

def Phase.rank : Phase → Nat
  | noError => 0
  | closing => 1
  | draining => 2
  | terminated => 3

lemma Phase.eq_noError_of_rank_le {p : Phase} (h : p.rank ≤ Phase.noError.rank) : p = .noError := by
  cases p with
  | noError => rfl
  | _ => exact absurd h (by decide)

lemma Phase.rank_le_terminated (p : Phase) : p.rank ≤ Phase.terminated.rank := by
  cases p with
  | _ => decide

/-- The CONNECTION_CLOSE frame for an error. Initial and Handshake packets hide the errors of the application. -/
def closeFrame (pktype : PacketType) (error : ConnError) : ConnectionCloseFrame :=
  match pktype, error with
  | .long (.v1 .initial), .app _ _ | .long (.v1 .handshake), .app _ _ =>
    ConnError.toFrame (.ofQuic (.withDefaultFty .application ""))
  | _, error => error.toFrame

def dumpCcf (error : ConnError) (b : PacketBuffer) :
    Option (Except ConnError Nat × List (Frame Bytes) × PacketBuffer) := do
  let frame := Frame.close (closeFrame b.info.pktype error)
  let (result, b) ← b.pollFrame frame
  match result with
  | .ok n => some (.ok n, if 0 < n then [frame] else [], b)
  | .error e => some (.error (.ofQuic e), [], b)

/-- `matches!(result, Poll::Ready(Ok(n)) if n > 0)`. -/
def wroteFrame : Except ConnError Nat → Bool
  | .ok n => decide (0 < n)
  | .error _ => false

namespace Terminator

variable {κ : Type}

def phase : Terminator κ → Phase
  | noError _ => .noError
  | closing .. => .closing
  | draining .. => .draining
  | terminated _ => .terminated

/-- The terminator after a request, the components that are told, and the time after which it terminates if the request
was the first. -/
def close (t : Terminator κ) (reason : CloseReason) (pto now : Nat) :
    Terminator κ × List (κ × ConnError) × Option Nat :=
  match t with
  | noError components =>
    let error := reason.error
    let t :=
      match reason with
      | .peer _ => draining error false
      | .app .. | .internal .. => closing error true false 0 now pto
    (t, components.map fun c => (c, error), some pto)
  | t => (t, [], none)

def pollDump (t : Terminator κ) (b : PacketBuffer) : Option (TerminatorDump κ) :=
  match t with
  | noError _ => some ⟨t, none, [], b⟩
  | closing error syncCcf _ rcvdPackets lastSent interval =>
    if syncCcf then do
      let (result, log, b) ← dumpCcf error b
      if wroteFrame result then
        some ⟨closing error false true rcvdPackets lastSent interval, some result, log, b⟩
      else some ⟨t, some result, log, b.finish⟩
    else some ⟨t, none, [], b.finish⟩
  | draining error sentCcf =>
    if ¬ sentCcf then do
      let (result, log, b) ← dumpCcf error b
      if wroteFrame result then some ⟨draining error true, some result, log, b⟩
      else some ⟨t, some result, log, b.finish⟩
    else some ⟨t, some (.ok 0), [], b.finish⟩
  | terminated error => some ⟨t, some (.error error), [], b⟩

def onRcvdPacket (t : Terminator κ) (now : Nat) : Terminator κ :=
  match t with
  | closing error syncCcf sentCcf rcvdPackets lastSent interval =>
    let rcvdPackets := min (rcvdPackets + 1) 255
    if ¬ syncCcf ∧ (5 ≤ rcvdPackets ∨ interval ≤ now - lastSent) then closing error true sentCcf 0 now interval
    else closing error syncCcf sentCcf rcvdPackets lastSent interval
  | t => t

def recvConnCloseFrame (t : Terminator κ) (frame : ConnectionCloseFrame) : Terminator κ :=
  match t with
  | closing _ _ sentCcf _ _ _ => draining (.ofFrame frame) sentCcf
  | t => t

def register (t : Terminator κ) (component : κ) : Terminator κ × List (κ × ConnError) :=
  match t with
  | noError components => (noError (components ++ [component]), [])
  | closing error .. | draining error _ | terminated error => (t, [(component, error)])

def terminate : Terminator κ → Terminator κ × List (κ × ConnError)
  | noError components =>
    let error := ConnError.ofQuic (.withDefaultFty .none "connection terminated")
    (terminated error, components.map fun c => (c, error))
  | closing error .. | draining error _ | terminated error => (terminated error, [])

def abort (t : Terminator κ) (error : ConnError) : Terminator κ × List (κ × ConnError) :=
  match t with
  | noError components => (terminated error, components.map fun c => (c, error))
  | closing error .. | draining error _ | terminated error => (terminated error, [])

/-- `Package for &ArcTerminator`. -/
def package (t : Terminator κ) : Package where
  content := .nonAckEliciting
  belongsTo _ := true
  priority := 2 ^ 32 - 1
  pollDump b := (t.pollDump b).map fun d => (d.poll, d.log, d.buffer)

end Terminator

/-- The terminator with the components that were registered, those that were told, and the frames that it wrote, each
with its phase then. -/
structure TerminatorWorld (κ : Type) where
  term : Terminator κ
  registered : List κ
  told : List (κ × ConnError)
  written : List (Phase × Frame Bytes)

/-- The calls. `recvConnCloseFrame` takes the lock twice: `drain` is its second half, for a call that comes between. -/
inductive TerminatorOp (κ : Type)
  | register (component : κ)
  | close (reason : CloseReason) (pto now : Nat)
  | recvConnCloseFrame (frame : ConnectionCloseFrame) (pto now : Nat)
  | drain (frame : ConnectionCloseFrame)
  | onRcvdPacket (now : Nat)
  | abort (error : ConnError)
  | terminate
  | pollDump (b : PacketBuffer)

namespace TerminatorWorld

variable {κ : Type}

def init : TerminatorWorld κ := ⟨.noError [], [], [], []⟩

def move (w : TerminatorWorld κ) (r : Terminator κ × List (κ × ConnError)) : TerminatorWorld κ :=
  { w with term := r.1, told := w.told ++ r.2 }

def close (w : TerminatorWorld κ) (reason : CloseReason) (pto now : Nat) : TerminatorWorld κ :=
  w.move ((w.term.close reason pto now).1, (w.term.close reason pto now).2.1)

def drain (w : TerminatorWorld κ) (frame : ConnectionCloseFrame) : TerminatorWorld κ :=
  w.move (w.term.recvConnCloseFrame frame, [])

def exec (w : TerminatorWorld κ) : TerminatorOp κ → Option (TerminatorWorld κ)
  | .register component => some { w.move (w.term.register component) with registered := w.registered ++ [component] }
  | .close reason pto now => some (w.close reason pto now)
  | .recvConnCloseFrame frame pto now => some ((w.close (.peer frame) pto now).drain frame)
  | .drain frame => some (w.drain frame)
  | .onRcvdPacket now => some (w.move (w.term.onRcvdPacket now, []))
  | .abort error => some (w.move (w.term.abort error))
  | .terminate => some (w.move w.term.terminate)
  | .pollDump b => do
    let d ← w.term.pollDump b
    some { w.move (d.term, []) with written := w.written ++ d.log.map fun f => (w.term.phase, f) }

end TerminatorWorld

def terminatorSystem (κ : Type) : System (TerminatorWorld κ) (TerminatorOp κ) where
  init w := w = .init
  issued _ _ := True
  exec := TerminatorWorld.exec

/-! ### What polling writes -/

variable {b b' : PacketBuffer}

lemma PacketBuffer.finished_of_pollFrame_close {f : ConnectionCloseFrame} {n : Nat}
    (h : b.pollFrame (.close f) = some (.ok n, b')) (hn : 0 < n) : b'.finished = true := by
  unfold pollFrame at h
  by_cases hbelongs : ¬ (Frame.close f : Frame Bytes).frameType.belongsTo b.info.pktype = true
  · rw [if_pos hbelongs] at h
    cases h
  · rw [if_neg hbelongs] at h
    obtain ⟨size, -, h⟩ := of_bind h
    split at h
    · cases h
      exact absurd hn (Nat.lt_irrefl 0)
    · obtain ⟨b₁, -, h⟩ := of_bind h
      cases h
      cases f with
      | _ => exact Bool.or_true _

lemma dumpCcf_cases {error : ConnError} {result : Except ConnError Nat} {log : List (Frame Bytes)}
    (h : dumpCcf error b = some (result, log, b')) :
    (wroteFrame result = true ∧ (∃ f, log = [.close f]) ∧ b'.finished = true) ∨ (wroteFrame result = false ∧ log = []) := by
  obtain ⟨⟨result₁, b₁⟩, hpoll, h⟩ := of_bind h
  cases result₁ with
  | error e =>
    cases h
    exact .inr ⟨rfl, rfl⟩
  | ok n =>
    cases h
    by_cases hn : 0 < n
    · rw [if_pos hn]
      exact .inl ⟨decide_eq_true hn, ⟨_, rfl⟩, PacketBuffer.finished_of_pollFrame_close hpoll hn⟩
    · rw [if_neg hn]
      exact .inr ⟨decide_eq_false hn, rfl⟩

namespace Terminator

variable {κ : Type}

/-- The terminator stays silent, or writes a frame and remembers it. -/
inductive Dumps : Terminator κ → Terminator κ → List (Frame Bytes) → Prop
  | silent (t : Terminator κ) : Dumps t t []
  | closing (error : ConnError) (sentCcf : Bool) (rcvdPackets lastSent interval : Nat) (f : ConnectionCloseFrame) :
    Dumps (closing error true sentCcf rcvdPackets lastSent interval)
      (closing error false true rcvdPackets lastSent interval) [.close f]
  | draining (error : ConnError) (f : ConnectionCloseFrame) : Dumps (draining error false) (draining error true) [.close f]

variable {t t' : Terminator κ} {log : List (Frame Bytes)}

lemma pollDump_cases {d : TerminatorDump κ} (h : t.pollDump b = some d) :
    Dumps t d.term d.log ∧
      (t.phase ≠ .noError → d.buffer.finished = true ∨ ∃ e, d.poll = some (.error e)) := by
  cases t with
  | noError components =>
    cases h
    exact ⟨.silent _, fun hphase => absurd rfl hphase⟩
  | closing error syncCcf sentCcf rcvdPackets lastSent interval =>
    cases syncCcf with
    | false =>
      cases h
      exact ⟨.silent _, fun _ => .inl rfl⟩
    | true =>
      obtain ⟨⟨result, log, b₁⟩, hdump, h⟩ := of_bind h
      obtain ⟨hwrote, ⟨f, rfl⟩, hfin⟩ | ⟨hwrote, rfl⟩ := dumpCcf_cases hdump
      · simp only [hwrote, if_true] at h
        cases h
        exact ⟨.closing .., fun _ => .inl hfin⟩
      · simp only [hwrote, Bool.false_eq_true, if_false] at h
        cases h
        exact ⟨.silent _, fun _ => .inl rfl⟩
  | draining error sentCcf =>
    cases sentCcf with
    | true =>
      cases h
      exact ⟨.silent _, fun _ => .inl rfl⟩
    | false =>
      obtain ⟨⟨result, log, b₁⟩, hdump, h⟩ := of_bind h
      obtain ⟨hwrote, ⟨f, rfl⟩, hfin⟩ | ⟨hwrote, rfl⟩ := dumpCcf_cases hdump
      · simp only [hwrote, if_true] at h
        cases h
        exact ⟨.draining .., fun _ => .inl hfin⟩
      · simp only [hwrote, Bool.false_eq_true, if_false] at h
        cases h
        exact ⟨.silent _, fun _ => .inl rfl⟩
  | terminated error =>
    cases h
    exact ⟨.silent _, fun _ => .inr ⟨error, rfl⟩⟩

lemma Dumps.log_eq (h : Dumps t t' log) : log = [] ∨ ∃ f, log = [.close f] := by
  cases h with
  | silent => exact .inl rfl
  | closing error sentCcf rcvdPackets lastSent interval f | draining error f => exact .inr ⟨f, rfl⟩

lemma package_pollDump (t : Terminator κ) (b : PacketBuffer) :
    t.package.pollDump b = (t.pollDump b).map fun d => (d.poll, d.log, d.buffer) := rfl

/-- A packet that is assembled while the connection closes holds nothing but a CONNECTION_CLOSE frame. -/
lemma log_of_assemble (hphase : t.phase ≠ .noError) {content : PacketContent} {pre post : List Package}
    (hpre : ∀ q ∈ pre, q.priority < 2 ^ 32 - 1) (hpost : ∀ q ∈ post, q.priority ≤ 2 ^ 32 - 1) {result : PollPackage}
    (h : b.assemblePackages content (pre ++ t.package :: post) = some (result, log, b')) :
    log = [] ∨ ∃ f, log = [.close f] := by
  unfold PacketBuffer.assemblePackages at h
  by_cases hb : b.finished = true
  · rw [if_pos hb] at h
    cases h
    exact .inl rfl
  · have hfirst : ∃ rest, b.packageQueue content (pre ++ t.package :: post) = t.package :: rest :=
      PacketBuffer.packageQueue_eq_cons hpre hpost rfl rfl
    obtain ⟨rest, hqueue⟩ := hfirst
    rw [if_neg hb, hqueue] at h
    obtain ⟨⟨result₁, log₁, b₁⟩, hloop, h⟩ := of_bind h
    cases h
    cases hd : t.pollDump b with
    | none =>
      have hpanic : t.package.pollDump b = none := by rw [package_pollDump, hd, Option.map_none]
      unfold PacketBuffer.pollPackages at hloop
      rw [if_neg hb, hpanic] at hloop
      cases hloop
    | some d =>
      have hpoll : t.package.pollDump b = some (d.poll, d.log, d.buffer) := by
        rw [package_pollDump, hd, Option.map_some]
      obtain ⟨hdump, hlast⟩ := pollDump_cases hd
      rw [PacketBuffer.log_of_pollPackages (Bool.not_eq_true _ ▸ hb) hpoll (hlast hphase) hloop]
      exact hdump.log_eq

/-! ### What the calls do -/

def held : Terminator κ → List κ
  | noError components => components
  | _ => []

/-- A terminator that has written a frame, or will write no more. -/
def sent : Terminator κ → Bool
  | noError _ => false
  | closing _ _ sentCcf _ _ _ => sentCcf
  | draining _ sentCcf => sentCcf
  | terminated _ => true

lemma held_of_phase (h : t.phase ≠ .noError) : t.held = [] := by
  cases t with
  | noError components => exact absurd rfl h
  | _ => rfl

/-- A call that registers the components `fresh` and tells the components `told`. -/
structure Moves (t t' : Terminator κ) (fresh told : List κ) : Prop where
  rank_le : t.phase.rank ≤ t'.phase.rank
  sent_of : t.sent = true → t'.sent = true
  perm : (told ++ t'.held).Perm (t.held ++ fresh)
  silent : t'.phase = .noError → told = []

lemma moves_refl (t : Terminator κ) : Moves t t [] [] where
  rank_le := le_rfl
  sent_of h := h
  perm := by rw [List.nil_append, List.append_nil]
  silent _ := rfl

lemma moves_leave (components : List κ) (h : t'.phase ≠ .noError) :
    Moves (noError components) t' [] components where
  rank_le := Nat.zero_le _
  sent_of h := absurd h Bool.false_ne_true
  perm := by rw [held_of_phase h, held]
  silent h' := absurd h' h

lemma moves_later (h : t.phase ≠ .noError) (hrank : t.phase.rank ≤ t'.phase.rank)
    (hsent : t.sent = true → t'.sent = true) : Moves t t' [] [] where
  rank_le := hrank
  sent_of := hsent
  perm := by
    have h' : t'.phase ≠ .noError := by
      intro h'
      rw [h'] at hrank
      exact h (Phase.eq_noError_of_rank_le hrank)
    rw [held_of_phase h, held_of_phase h']
  silent _ := rfl

lemma moves_close (t : Terminator κ) (reason : CloseReason) (pto now : Nat) :
    Moves t (t.close reason pto now).1 [] ((t.close reason pto now).2.1.map Prod.fst) := by
  cases t with
  | noError components =>
    have htold : ((noError components).close reason pto now).2.1.map Prod.fst = components := by
      simp only [close, List.map_map, Function.comp_def, List.map_id']
    rw [htold]
    apply moves_leave
    cases reason with
    | _ => exact Phase.noConfusion
  | _ => exact moves_refl _

lemma moves_recvConnCloseFrame (t : Terminator κ) (frame : ConnectionCloseFrame) :
    Moves t (t.recvConnCloseFrame frame) [] [] := by
  cases t with
  | closing error syncCcf sentCcf rcvdPackets lastSent interval =>
    exact moves_later Phase.noConfusion (Nat.le_succ 1) fun h => h
  | _ => exact moves_refl _

lemma moves_onRcvdPacket (t : Terminator κ) (now : Nat) : Moves t (t.onRcvdPacket now) [] [] := by
  cases t with
  | closing error syncCcf sentCcf rcvdPackets lastSent interval =>
    unfold onRcvdPacket
    dsimp only
    split
    · exact moves_later Phase.noConfusion le_rfl fun h => h
    · exact moves_later Phase.noConfusion le_rfl fun h => h
  | _ => exact moves_refl _

lemma moves_register (t : Terminator κ) (component : κ) :
    Moves t (t.register component).1 [component] ((t.register component).2.map Prod.fst) := by
  cases t with
  | noError components => exact ⟨le_rfl, fun h => h, .refl _, fun _ => rfl⟩
  | _ => exact ⟨le_rfl, fun h => h, .refl _, fun h => Phase.noConfusion h⟩

lemma moves_terminate (t : Terminator κ) : Moves t t.terminate.1 [] (t.terminate.2.map Prod.fst) := by
  cases t with
  | noError components =>
    have htold : (noError components).terminate.2.map Prod.fst = components := by
      simp only [terminate, List.map_map, Function.comp_def, List.map_id']
    rw [htold]
    exact moves_leave components Phase.noConfusion
  | _ => exact moves_later Phase.noConfusion (Phase.rank_le_terminated _) fun _ => rfl

lemma moves_abort (t : Terminator κ) (error : ConnError) :
    Moves t (t.abort error).1 [] ((t.abort error).2.map Prod.fst) := by
  cases t with
  | noError components =>
    have htold : ((noError components).abort error).2.map Prod.fst = components := by
      simp only [abort, List.map_map, Function.comp_def, List.map_id']
    rw [htold]
    exact moves_leave components Phase.noConfusion
  | _ => exact moves_later Phase.noConfusion (Phase.rank_le_terminated _) fun _ => rfl

end Terminator

/-! ### Every run -/

namespace TerminatorWorld

variable {κ : Type}

def late (w : TerminatorWorld κ) : List (Phase × Frame Bytes) :=
  w.written.filter fun e => decide (Phase.draining.rank ≤ e.1.rank)

structure Orderly (w : TerminatorWorld κ) : Prop where
  perm : (w.told.map Prod.fst ++ w.term.held).Perm w.registered
  untold : w.term.phase = .noError → w.told = []
  unsent : w.term.sent = false → w.written = []
  past : ∀ e ∈ w.written, e.1.rank ≤ w.term.phase.rank
  once : w.late.length ≤ 1
  instead : (∃ e ∈ w.written, e.1 = .closing) → w.late = []

namespace Orderly

lemma init : (TerminatorWorld.init : TerminatorWorld κ).Orderly where
  perm := .refl _
  untold _ := rfl
  unsent _ := rfl
  past := List.forall_mem_nil _
  once := Nat.zero_le 1
  instead _ := rfl

variable {t' : Terminator κ}

lemma moved {w : TerminatorWorld κ} (h : w.Orderly) {fresh : List κ} {told : List (κ × ConnError)}
    (hmove : w.term.Moves t' fresh (told.map Prod.fst)) :
    Orderly { w.move (t', told) with registered := w.registered ++ fresh } where
  perm := by
    have hsplit : ((w.told ++ told).map Prod.fst ++ t'.held).Perm (w.told.map Prod.fst ++ (w.term.held ++ fresh)) := by
      rw [List.map_append, List.append_assoc]
      exact hmove.perm.append_left _
    rw [← List.append_assoc] at hsplit
    exact hsplit.trans (h.perm.append_right _)
  untold hphase := by
    have hphase' : t'.phase = .noError := hphase
    have hfirst : w.term.phase = .noError := by
      have hle := hmove.rank_le
      rw [hphase'] at hle
      exact Phase.eq_noError_of_rank_le hle
    have htold := List.map_eq_nil_iff.mp (hmove.silent hphase')
    rw [move, h.untold hfirst, htold]
    rfl
  unsent hsent := by
    apply h.unsent
    by_contra hne
    have hsent' : t'.sent = false := hsent
    rw [hmove.sent_of (Bool.not_eq_false _ ▸ hne)] at hsent'
    cases hsent'
  past e he := le_trans (h.past e he) hmove.rank_le
  once := h.once
  instead := h.instead

lemma dumped {w : TerminatorWorld κ} (h : w.Orderly) {log : List (Frame Bytes)} (hdump : w.term.Dumps t' log) :
    Orderly { w.move (t', []) with written := w.written ++ log.map fun f => (w.term.phase, f) } := by
  obtain ⟨term, registered, told, written⟩ := w
  cases hdump with
  | silent =>
    simp only [move, List.map_nil, List.append_nil]
    exact h
  | closing error sentCcf rcvdPackets lastSent interval f =>
    have hlate : written.filter (fun e => decide (Phase.draining.rank ≤ e.1.rank)) = [] := by
      apply List.filter_eq_nil_iff.mpr
      intro e he hge
      exact absurd (le_trans (of_decide_eq_true hge) (h.past e he)) (Nat.not_succ_le_self 1)
    have hlate' : late (⟨.closing error false true rcvdPackets lastSent interval, registered, told,
        written ++ [(.closing, .close f)]⟩ : TerminatorWorld κ) = [] := by
      unfold late
      rw [List.filter_append, hlate]
      rfl
    simp only [move, List.append_nil]
    refine ⟨h.perm, fun hphase => Phase.noConfusion hphase, fun hsent => Bool.noConfusion hsent, ?_, ?_, fun _ => hlate'⟩
    · intro e he
      obtain he | he := List.mem_append.mp he
      · exact h.past e he
      · rw [List.mem_singleton.mp he]
        exact le_rfl
    · exact le_of_eq_of_le (congrArg List.length hlate') (Nat.zero_le 1)
  | draining error f =>
    have hwritten : written = [] := h.unsent rfl
    subst hwritten
    simp only [move, List.append_nil]
    refine ⟨h.perm, fun hphase => Phase.noConfusion hphase, fun hsent => Bool.noConfusion hsent, ?_, le_rfl, ?_⟩
    · intro e he
      rw [List.mem_singleton.mp he]
      exact le_rfl
    · rintro ⟨e, he, hclosing⟩
      rw [List.mem_singleton.mp he] at hclosing
      cases hclosing

end Orderly

lemma exec_orderly {w w' : TerminatorWorld κ} {op : TerminatorOp κ} (h : w.Orderly) (hexec : w.exec op = some w') :
    w'.Orderly ∧ w.term.phase.rank ≤ w'.term.phase.rank := by
  have hmoved : ∀ {w : TerminatorWorld κ} {t' told}, w.Orderly → w.term.Moves t' [] (told.map Prod.fst) →
      (w.move (t', told)).Orderly := by
    intro w t' told hw hmove
    have hnext := hw.moved hmove
    rwa [List.append_nil] at hnext
  cases op with
  | register component =>
    cases hexec
    have hmove := w.term.moves_register component
    exact ⟨h.moved hmove, hmove.rank_le⟩
  | close reason pto now =>
    cases hexec
    have hmove := w.term.moves_close reason pto now
    exact ⟨hmoved h hmove, hmove.rank_le⟩
  | recvConnCloseFrame frame pto now =>
    cases hexec
    have hclose := w.term.moves_close (.peer frame) pto now
    have hdrain := (w.close (.peer frame) pto now).term.moves_recvConnCloseFrame frame
    exact ⟨hmoved (hmoved h hclose) hdrain, le_trans hclose.rank_le hdrain.rank_le⟩
  | drain frame =>
    cases hexec
    have hmove := w.term.moves_recvConnCloseFrame frame
    exact ⟨hmoved h hmove, hmove.rank_le⟩
  | onRcvdPacket now =>
    cases hexec
    have hmove := w.term.moves_onRcvdPacket now
    exact ⟨hmoved h hmove, hmove.rank_le⟩
  | abort error =>
    cases hexec
    have hmove := w.term.moves_abort error
    exact ⟨hmoved h hmove, hmove.rank_le⟩
  | terminate =>
    cases hexec
    have hmove := w.term.moves_terminate
    exact ⟨hmoved h hmove, hmove.rank_le⟩
  | pollDump b =>
    obtain ⟨d, hd, hexec⟩ := of_bind hexec
    cases hexec
    have hdump := (Terminator.pollDump_cases hd).1
    refine ⟨h.dumped hdump, ?_⟩
    have hphase : ∀ {t t' : Terminator κ} {log}, t.Dumps t' log → t.phase = t'.phase := by
      intro t t' log hdump
      cases hdump with
      | _ => rfl
    exact le_of_eq (congrArg Phase.rank (hphase hdump))

lemma orderly_of_reach {w : TerminatorWorld κ} (h : (terminatorSystem κ).Reach w) : w.Orderly := by
  apply h.invariant
  · rintro w rfl
    exact .init
  · intro w op w' hw _ hexec
    exact (exec_orderly hw hexec).1

end TerminatorWorld

/-- In every run the terminator goes forward through its phases. It tells nobody before it leaves the first, and then each
registered component once. A packet that is assembled with it, before all other sources of its priority, holds nothing but
one CONNECTION_CLOSE frame. Draining it writes one at most, and none if it wrote one while closing. -/
theorem terminatorSystem_closes {κ : Type} {w : TerminatorWorld κ} (h : (terminatorSystem κ).Reach w) :
    (∀ op w', w.exec op = some w' → w.term.phase.rank ≤ w'.term.phase.rank) ∧
    (w.term.phase = .noError → w.told = []) ∧
    (w.term.phase ≠ .noError → (w.told.map Prod.fst).Perm w.registered) ∧
    (w.term.phase ≠ .noError → ∀ b content pre post result log b',
      (∀ q ∈ pre, Package.priority q < 2 ^ 32 - 1) → (∀ q ∈ post, Package.priority q ≤ 2 ^ 32 - 1) →
      PacketBuffer.assemblePackages b content (pre ++ w.term.package :: post) = some (result, log, b') →
      log = [] ∨ ∃ f, log = [.close f]) ∧
    w.late.length ≤ 1 ∧ ((∃ e ∈ w.written, e.1 = .closing) → w.late = []) := by
  have hw := TerminatorWorld.orderly_of_reach h
  refine ⟨?_, hw.untold, ?_, ?_, hw.once, hw.instead⟩
  · intro op w' hexec
    exact (TerminatorWorld.exec_orderly hw hexec).2
  · intro hphase
    have hperm := hw.perm
    rwa [Terminator.held_of_phase hphase, List.append_nil] at hperm
  · intro hphase b content pre post result log b' hpre hpost hassemble
    exact Terminator.log_of_assemble hphase hpre hpost hassemble

theorem terminatorSystem_closes_two :
    ∃ w : TerminatorWorld Nat, (terminatorSystem Nat).Reach w ∧ w.term.phase = .draining ∧
      (w.told.map Prod.fst).Perm [7, 8] ∧ w.written.map Prod.fst = [.closing] ∧ w.late = [] := by
  let b := PacketBuffer.new 40 40 [] (.short false) 0 16
  have h₀ : (terminatorSystem Nat).Reach .init := .start rfl
  have h₁ := h₀.step (e := .register 7) trivial rfl
  have h₂ := h₁.step (e := .close (.app (.fromU32 1) "") 10 0) trivial rfl
  have h₃ := h₂.step (e := .register 8) trivial rfl
  have h₄ := h₃.step (e := .pollDump b) trivial rfl
  have h₅ := h₄.step (e := .recvConnCloseFrame (.app ⟨.fromU32 2, ""⟩) 10 0) trivial rfl
  have h₆ := h₅.step (e := .pollDump b) trivial rfl
  have hw := terminatorSystem_closes h₆
  exact ⟨_, h₆, rfl, hw.2.2.1 Phase.noConfusion, rfl, hw.2.2.2.2.2 ⟨_, .head _, rfl⟩⟩

end Dquic
