import Dquic.Lib.System
import Dquic.Space.Assemble

/-!
# The amplification limit of a path

`Validation` of `qbase/src/net/validate.rs` with the sending task of a path
(`qtransport/src/path/send.rs`, `send.rs`): it collects up to eight datagrams from one snapshot of
the credit, submits them in pieces and drops the rest.
-/

namespace Dquic

open Lib

/-- `Cancelled`, the error of a validation that was stopped. -/
inductive Cancelled
  | cancelled
  deriving DecidableEq, Repr

inductive Validation
  | validating (rcvdBytes sentBytes : Nat)
  | validated
  | cancelled
  deriving DecidableEq, Repr

namespace Validation

def new : Validation := validating 0 0

/-- Three times what was received, less what was sent. A validated path has no limit. -/
def credit : Validation → Except Cancelled (Option Nat)
  | validating rcvd sent => .ok (some (min (rcvd * 3) usizeMax - sent))
  | validated => .ok none
  | cancelled => .error .cancelled

def onReceived (v : Validation) (bytes : Nat) : Validation :=
  match v with
  | validating rcvd sent => validating (min (rcvd + bytes) usizeMax) sent
  | v => v

def onSent (v : Validation) (bytes : Nat) : Validation :=
  match v with
  | validating rcvd sent => validating rcvd (min (sent + bytes) usizeMax)
  | v => v

def trust : Validation → Validation
  | validating _ _ => validated
  | v => v

def revalidate : Validation → Validation
  | validated => validating 0 0
  | v => v

end Validation

inductive CollectPanic
  | assembly
  | underflow
  deriving DecidableEq, Repr

def inFlightBytes (packets : List Dumped) : Nat :=
  ((packets.filter fun d => d.packet.info.inFlight).map (·.size)).sum

/-- The quota behind a datagram. Datagrams that are not in flight leave it as it is. -/
def spendQuota (sendQuota overhead : Nat) (packets : List Dumped) : Nat :=
  if 0 < inFlightBytes packets then sendQuota - (inFlightBytes packets + overhead) else sendQuota

/-- The datagrams that fit the credit and the quota, each with what the spaces have when it is assembled. -/
def collectLoop (overhead : Nat) (content : PacketContent) : List Spaces → Nat → Nat → Except CollectPanic (List Nat)
  | [], _, _ => .ok []
  | spaces :: rest, credit, sendQuota =>
    let quota := if sendQuota = 0 then 1200 else sendQuota - overhead
    let length := min (min 1200 (credit - overhead)) quota
    match spaces.pollDump length content 0 with
    | none => .error .assembly
    | some (size, packets) =>
      if size = 0 then .ok []
      else
        match checkedSub credit (size + overhead) with
        | none => .error .underflow
        | some credit =>
          let sendQuota := spendQuota sendQuota overhead packets
          if sendQuota = 0 then .ok [size]
          else (collectLoop overhead content rest credit sendQuota).map (size :: ·)

/-- `Path::poll_collect` where the congestion controller grants this quota, or none. -/
def pollCollect (overhead : Nat) (v : Validation) (sendQuota : Option Nat) (content : PacketContent)
    (polls : List Spaces) : Except CollectPanic (List Nat) :=
  match v.credit, sendQuota with
  | .ok credit, some sendQuota =>
    if credit = some 0 then .ok [] else collectLoop overhead content polls (credit.getD usizeMax) sendQuota
  | _, _ => .ok []

/-- A path: its validation and the sizes of the datagrams collected and not submitted, with all that was received and
submitted on it and whether it is still in its first validation. -/
structure SendingPath where
  validation : Validation
  batch : List Nat
  received : Nat
  submitted : Nat
  stayed : Bool
  deriving DecidableEq, Repr

inductive PathOp
  | receive (bytes : Nat)
  | collect (sendQuota : Option Nat) (content : PacketContent) (polls : List Spaces)
  | submit (n : Nat)
  | refresh
  | trust
  | revalidate
  | cancel

def cost (overhead : Nat) (sizes : List Nat) : Nat := (sizes.map (· + overhead)).sum

namespace SendingPath

variable (overhead : Nat)

/-- The one sending task collects when it has nothing left to submit. -/
def Issued (p : SendingPath) : PathOp → Prop
  | .collect _ _ polls => p.batch = [] ∧ polls.length ≤ 8
  | .submit n => n ≤ p.batch.length ∧ p.validation ≠ .cancelled
  | _ => True

def exec (p : SendingPath) : PathOp → Option SendingPath
  | .receive bytes => some { p with validation := p.validation.onReceived bytes, received := p.received + bytes }
  | .collect sendQuota content polls =>
    match pollCollect overhead p.validation sendQuota content polls with
    | .ok sizes => some { p with batch := sizes }
    | .error _ => none
  | .submit n =>
    let sizes := p.batch.take n
    some { p with
      validation := sizes.foldl (fun v size => v.onSent (size + overhead)) p.validation
      batch := p.batch.drop n
      submitted := p.submitted + cost overhead sizes }
  | .refresh => some { p with batch := [] }
  | .trust => some { p with validation := p.validation.trust, stayed := false }
  | .revalidate => some { p with validation := p.validation.revalidate }
  | .cancel => some { p with validation := .cancelled, stayed := false }

end SendingPath

def pathSystem (overhead : Nat) : System SendingPath PathOp where
  init p := p = ⟨.new, [], 0, 0, true⟩
  issued := SendingPath.Issued
  exec := SendingPath.exec overhead

/-! ### One collection -/

variable {content : PacketContent} {overhead rcvd sent : Nat} {sizes : List Nat}

lemma pollDump_le {spaces : Spaces} {length n : Nat} {packets : List Dumped}
    (h : spaces.pollDump length content 0 = some (n, packets)) : n ≤ length := by
  have hle := (Spaces.dumps_of_pollDumpAt h).le
  omega

lemma collectLoop_spec (overhead : Nat) (content : PacketContent) (polls : List Spaces) (credit sendQuota : Nat) :
    collectLoop overhead content polls credit sendQuota ≠ .error .underflow ∧
    ∀ sizes, collectLoop overhead content polls credit sendQuota = .ok sizes →
      cost overhead sizes ≤ credit := by
  induction polls generalizing credit sendQuota with
  | nil =>
    refine ⟨by simp [collectLoop], fun sizes h => ?_⟩
    cases h
    exact Nat.zero_le _
  | cons spaces rest ih =>
    rw [collectLoop]
    dsimp only
    split
    · exact ⟨by simp, by simp⟩
    · rename_i size packets hdump
      by_cases hzero : size = 0
      · rw [if_pos hzero]
        refine ⟨by simp, fun sizes h => ?_⟩
        cases h
        exact Nat.zero_le _
      · -- the datagram was given no more room than the credit behind the overhead
        have hle := pollDump_le hdump
        have hpaid : size + overhead ≤ credit := by omega
        rw [if_neg hzero, checkedSub_of_le hpaid]
        dsimp only
        split
        · refine ⟨by simp, fun sizes h => ?_⟩
          cases h
          simpa [cost] using hpaid
        · obtain ⟨hno, hrest⟩ := ih (credit - (size + overhead)) (spendQuota sendQuota overhead packets)
          cases hloop : collectLoop overhead content rest (credit - (size + overhead))
              (spendQuota sendQuota overhead packets) with
          | error e =>
            rw [hloop] at hno
            exact ⟨hno, fun sizes h => by cases h⟩
          | ok behind =>
            refine ⟨by simp [Except.map], fun sizes h => ?_⟩
            cases h
            have hbehind := hrest behind hloop
            rw [cost, List.map_cons, List.sum_cons, ← cost]
            omega

lemma pollCollect_ne_underflow (overhead : Nat) (v : Validation) (sendQuota : Option Nat) (content : PacketContent)
    (polls : List Spaces) : pollCollect overhead v sendQuota content polls ≠ .error .underflow := by
  unfold pollCollect
  split
  · split_ifs with hzero
    · simp
    · exact (collectLoop_spec overhead content polls _ _).1
  · simp

/-- Without a validation, a batch costs no more than what is left of three times the bytes received. -/
lemma pollCollect_cost {sendQuota : Option Nat} {polls : List Spaces}
    (h : pollCollect overhead (.validating rcvd sent) sendQuota content polls = .ok sizes) :
    cost overhead sizes ≤ min (rcvd * 3) usizeMax - sent := by
  cases sendQuota with
  | none =>
    cases h
    exact Nat.zero_le _
  | some quota =>
    simp only [pollCollect, Validation.credit, Option.getD_some] at h
    split_ifs at h with hzero
    · cases h
      exact Nat.zero_le _
    · exact (collectLoop_spec overhead content polls _ quota).2 sizes h

lemma foldl_onSent (h : sent + cost overhead sizes ≤ usizeMax) :
    sizes.foldl (fun v size => Validation.onSent v (size + overhead)) (Validation.validating rcvd sent) =
      .validating rcvd (sent + cost overhead sizes) := by
  induction sizes generalizing sent with
  | nil => rfl
  | cons size rest ih =>
    rw [cost, List.map_cons, List.sum_cons, ← cost] at h ⊢
    rw [List.foldl_cons, Validation.onSent, min_eq_left (by omega), ih (by omega), Nat.add_assoc]

/-! ### Runs -/

namespace SendingPath

/-- While the first validation lasts, what was submitted and what is collected stay within three times what was received. -/
def Covered (overhead : Nat) (p : SendingPath) : Prop :=
  p.stayed → p.validation = .validating (min p.received usizeMax) p.submitted ∧
    p.submitted + cost overhead p.batch ≤ min (min p.received usizeMax * 3) usizeMax

variable {overhead : Nat} {p p' : SendingPath}

lemma Covered.step (h : p.Covered overhead) {op : PathOp} (hissued : p.Issued op) (hexec : p.exec overhead op = some p') :
    p'.Covered overhead := by
  cases op with
  | receive bytes =>
    cases hexec
    intro hstayed
    obtain ⟨hval, hle⟩ := h hstayed
    have hmin : min (min p.received usizeMax + bytes) usizeMax = min (p.received + bytes) usizeMax := by omega
    constructor
    · change p.validation.onReceived bytes = _
      rw [hval, Validation.onReceived, hmin]
    · change p.submitted + cost overhead p.batch ≤ min (min (p.received + bytes) usizeMax * 3) usizeMax
      omega
  | collect sendQuota content polls =>
    rw [exec] at hexec
    split at hexec
    · rename_i sizes hcollect
      cases hexec
      intro hstayed
      obtain ⟨hval, hle⟩ := h hstayed
      rw [hissued.1] at hle
      rw [hval] at hcollect
      have hcost := pollCollect_cost hcollect
      refine ⟨hval, ?_⟩
      change p.submitted + cost overhead sizes ≤ min (min p.received usizeMax * 3) usizeMax
      omega
    · cases hexec
  | submit n =>
    cases hexec
    intro hstayed
    obtain ⟨hval, hle⟩ := h hstayed
    have hsplit : cost overhead p.batch = cost overhead (p.batch.take n) + cost overhead (p.batch.drop n) := by
      rw [cost, cost, cost, ← List.sum_append, ← List.map_append, List.take_append_drop]
    have hfits : p.submitted + cost overhead (p.batch.take n) ≤ usizeMax := by omega
    constructor
    · change (p.batch.take n).foldl _ p.validation = _
      rw [hval, foldl_onSent hfits]
    · change p.submitted + cost overhead (p.batch.take n) + cost overhead (p.batch.drop n) ≤
        min (min p.received usizeMax * 3) usizeMax
      omega
  | refresh =>
    cases hexec
    intro hstayed
    obtain ⟨hval, hle⟩ := h hstayed
    exact ⟨hval, (Nat.add_le_add_left (Nat.zero_le _) _).trans hle⟩
  | trust | cancel =>
    cases hexec
    exact fun hstayed => absurd hstayed (by simp)
  | revalidate =>
    cases hexec
    intro hstayed
    obtain ⟨hval, hle⟩ := h hstayed
    refine ⟨?_, hle⟩
    change p.validation.revalidate = _
    rw [hval]
    rfl

end SendingPath

/-- A path in its first validation submits at most three times what it has received, and the credit of a batch never
runs out in the middle of it. -/
theorem pathSystem_amplification (overhead : Nat) (p : SendingPath) (hr : (pathSystem overhead).Reach p) :
    (p.stayed → p.submitted ≤ 3 * p.received) ∧
    ∀ sendQuota content polls, pollCollect overhead p.validation sendQuota content polls ≠ .error .underflow := by
  have hcovered : p.Covered overhead := by
    apply hr.invariant (I := SendingPath.Covered overhead)
    · rintro s rfl
      exact fun _ => ⟨rfl, Nat.zero_le _⟩
    · intro s op s' h hissued hexec
      exact h.step hissued hexec
  refine ⟨fun hstayed => ?_, pollCollect_ne_underflow overhead p.validation⟩
  obtain ⟨-, hle⟩ := hcovered hstayed
  omega

/-- After a datagram of 100 bytes was received, a PING of 29 bytes is sent. -/
theorem pathSystem_amplification_ping : ∃ p, (pathSystem 0).Reach p ∧ p.stayed = true ∧ p.submitted = 29 ∧
    p.received = 100 ∧ p.submitted ≤ 3 * p.received := by
  let polls : List Spaces := [Spaces.of none none (some (shortSpace 1200 [(Frame.ping).source trivial]))]
  have h₀ : (pathSystem 0).Reach ⟨.new, [], 0, 0, true⟩ := .start rfl
  have h₁ : (pathSystem 0).Reach ⟨.validating 100 0, [], 100, 0, true⟩ := h₀.step (e := PathOp.receive 100) trivial rfl
  have hcollect : SendingPath.exec 0 ⟨.validating 100 0, [], 100, 0, true⟩ (.collect (some 1200) .effectivePayload polls) =
      some ⟨.validating 100 0, [29], 100, 0, true⟩ := by decide +kernel
  have h₂ := h₁.step (e := PathOp.collect (some 1200) .effectivePayload polls) ⟨rfl, by decide⟩ hcollect
  have h₃ : (pathSystem 0).Reach ⟨.validating 100 29, [], 100, 29, true⟩ :=
    h₂.step (e := PathOp.submit 1) ⟨by decide, by decide⟩ rfl
  exact ⟨_, h₃, rfl, rfl, rfl, (pathSystem_amplification 0 _ h₃).1 rfl⟩

end Dquic
