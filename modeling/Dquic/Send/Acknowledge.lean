import Dquic.Send.Scan

/-!
# Acknowledging a range

`BufMap::ack_rcvd` colours exactly the acknowledged range as received. The last part of the
argument, which puts the scanned states together again, is shared with loss.
-/

namespace Dquic

open Lib

/-- A range of bytes already sent. An empty one lies at the end of the map: it stands for a frame
that carries only the end of the stream. -/
structure Range.SentIn (range : Range) (m : BufMap) : Prop where
  le : range.start ≤ range.stop
  stop_le : range.stop ≤ m.sent
  nonempty : range.start < range.stop ∨ range.stop = m.size

lemma Range.SentIn.mono {range : Range} {m m' : BufMap} (h : range.SentIn m) (hne : range.start < range.stop)
    (hsent : m.sent ≤ m'.sent) : range.SentIn m' :=
  ⟨h.le, h.stop_le.trans hsent, .inl hne⟩

namespace BufMap

/-- `m'` is `m` with the bytes of a range recoloured by `f`. -/
structure Repaint (m m' : BufMap) (range : Range) (f : Color → Color) : Prop where
  wf : m'.Wf
  size_eq : m'.size = m.size
  sent_eq : m'.sent = m.sent
  color : ∀ b < m.size, m'.colorAt b = if range.Mem b then f (m.colorAt b) else m.colorAt b
  offsets : ∀ s ∈ m'.segs, (∃ t ∈ m.segs, t.offset = s.offset) ∨ s.offset = range.start ∨
    s.offset = range.stop ∧ range.stop < m.size

/-- How the states up to the start of a range are left: `H` paints like the states `A` before the
range and then in colour `c`. -/
structure ScanStart (start : Nat) (c : Color) (A H : List State) : Prop where
  increasing : Increasing H
  below : ∀ h ∈ H, h.offset ≤ start
  offsets : ∀ h ∈ H, (∃ t ∈ A, t.offset = h.offset) ∨ h.offset = start
  sent : ∀ h ∈ H, h.color ≠ .pending
  before : ∀ b < start, paintAt .recved H b = paintAt .recved A b
  inside : ∀ b, start ≤ b → paintAt .recved H b = c

/-- How a scan leaves the states behind a range recoloured to `c`: the run `Z₁` of that colour is
drained, and a mark restores the colour `pre` before `Z₂` where `Z₂` does not start there itself. -/
structure ScanEnd (size stop : Nat) (c pre : Color) (Z₁ Z₂ : List State) (atEnd : Bool) : Prop where
  behind : ∀ z ∈ Z₁ ++ Z₂, stop ≤ z.offset
  run : ∀ z ∈ Z₁, z.color = c
  insert : atEnd = true → Z₁ = [] ∧ stop < size ∧ ∀ z ∈ Z₂, stop < z.offset
  keep : atEnd = false → pre = c ∨ size ≤ stop ∨ ∃ z l, Z₁ ++ Z₂ = z :: l ∧ z.offset = stop

variable {m : BufMap} {A X : List State} {c : Color} {range : Range} {start : Nat}

lemma Wf.not_pending_of_lt (hm : m.Wf) {s : State} (hs : s ∈ m.segs) (h : s.offset < m.sent ∨ s.offset = m.size) :
    s.color ≠ .pending := by
  intro hp
  have := hm.pending s hs hp
  omega

lemma lastColor_ne_pending {l : List State} (h : ∀ s ∈ l, s.color ≠ .pending) (d : Color)
    (hd : d ≠ .pending) : lastColor d l ≠ .pending := by
  induction l generalizing d with
  | nil => exact hd
  | cons s l ih => exact ih (fun t ht => h t (by simp [ht])) s.color (h s (by simp))

/-- `N` is `L` with the bytes from `start` to `stop` in colour `c`, by marks at old offsets and at the
two ends. -/
structure Spliced (size start stop : Nat) (c : Color) (L N : List State) : Prop where
  increasing : Increasing N
  offsets : ∀ s ∈ N, (∃ t ∈ L, t.offset = s.offset) ∨ s.offset = start ∨ s.offset = stop ∧ stop < size
  pending : ∀ s, s.color = .pending → (s ∈ N ↔ s ∈ L)
  color : ∀ b < size, paintAt .recved N b = if start ≤ b ∧ b < stop then c else paintAt .recved L b

theorem Spliced.of_scan {Z₁ Z₂ H : List State} {atEnd : Bool} {stop size : Nat} (hc : c ≠ .pending) (hle : start ≤ stop)
    (hne : start < stop ∨ size ≤ stop) (hinc : Increasing (A ++ X ++ (Z₁ ++ Z₂))) (hA : ∀ a ∈ A, a.offset < start)
    (hX : ∀ x ∈ X, start ≤ x.offset ∧ (stop < size → x.offset < stop)) (hAX : ∀ s ∈ A ++ X, s.color ≠ .pending)
    (hZ : ∀ z ∈ Z₂, start < z.offset) (hH : ScanStart start c A H)
    (hend : ScanEnd size stop c (lastColor .recved (A ++ X)) Z₁ Z₂ atEnd) :
    Spliced size start stop c (A ++ X ++ (Z₁ ++ Z₂))
      (H ++ (if atEnd then [⟨stop, lastColor .recved (A ++ X)⟩] else []) ++ Z₂) := by
  have hpre : lastColor .recved (A ++ X) ≠ .pending := lastColor_ne_pending hAX _ (by decide)
  set pre := lastColor .recved (A ++ X) with hpredef
  set E : List State := if atEnd then [⟨stop, pre⟩] else [] with hE
  have hEmem : ∀ s ∈ E, s = ⟨stop, pre⟩ ∧ atEnd = true := by
    intro s hs
    cases atEnd with
    | true => simpa [hE] using hs
    | false => simp [hE] at hs
  have hEZ : Increasing (E ++ Z₂) := by
    refine List.pairwise_append.mpr ⟨by cases atEnd <;> simp [hE], ?_, fun s hs z hz => ?_⟩
    · exact (increasing_append.mp (increasing_append.mp hinc).2.1).2.1
    · obtain ⟨rfl, hat⟩ := hEmem s hs
      exact (hend.insert hat).2.2 z hz
  refine ⟨?_, fun s hs => ?_, fun s hs => ?_, ?_⟩
  · rw [List.append_assoc]
    refine List.pairwise_append.mpr ⟨hH.increasing, hEZ, fun h hh s hs => lt_of_le_of_lt (hH.below h hh) ?_⟩
    rcases List.mem_append.mp hs with hs | hs
    · obtain ⟨rfl, hat⟩ := hEmem s hs
      have := (hend.insert hat).2.1
      change start < stop
      omega
    · exact hZ s hs
  · rcases List.mem_append.mp hs with hs | hs
    · rcases List.mem_append.mp hs with hs | hs
      · exact (hH.offsets s hs).imp (fun ⟨t, ht, hts⟩ => ⟨t, by simp [ht], hts⟩) .inl
      · obtain ⟨rfl, hat⟩ := hEmem s hs
        exact .inr (.inr ⟨rfl, (hend.insert hat).2.1⟩)
    · exact .inl ⟨s, by simp [hs], rfl⟩
  · have h₁ : s ∉ H := fun h => hH.sent s h hs
    have h₂ : s ∉ E := fun h => hpre (by rw [(hEmem s h).1] at hs; exact hs)
    have h₃ : s ∉ A ++ X := fun h => hAX s h hs
    have h₄ : s ∉ Z₁ := fun h => hc ((hend.run s h).symm.trans hs)
    simp only [List.mem_append] at h₃ ⊢
    tauto
  · have hlast : E = [⟨stop, pre⟩] ∧ Z₁ = [] ∨
        E = [] ∧ (pre = c ∨ size ≤ stop ∨ ∃ z l, Z₁ ++ Z₂ = z :: l ∧ z.offset = stop) := by
      cases atEnd with
      | true => exact .inl ⟨rfl, (hend.insert rfl).1⟩
      | false => exact .inr ⟨rfl, hend.keep rfl⟩
    exact paintAt_splice hle hA (fun hlt x hx => (hX x hx).2 hlt) (fun x hx => (hX x hx).1) hend.behind hpredef
      hH.before hH.inside hend.run hlast

/-- Replacing the states around a sent range recolours the range and nothing else. -/
theorem Wf.repaint (hm : m.Wf) (hr : range.SentIn m) {Z₁ Z₂ H : List State} {atEnd : Bool} (hc : c ≠ .pending)
    (hsegs : m.segs = A ++ X ++ (Z₁ ++ Z₂)) (hA : ∀ a ∈ A, a.offset < range.start)
    (hX : ∀ x ∈ X, range.start ≤ x.offset ∧ (x.offset < range.stop ∨ x.offset = m.size ∧ range.stop = m.size))
    (hZ : ∀ z ∈ Z₁ ++ Z₂, range.start < z.offset) (hH : ScanStart range.start c A H)
    (hend : ScanEnd m.size range.stop c (lastColor .recved (A ++ X)) Z₁ Z₂ atEnd) :
    Repaint m ⟨H ++ (if atEnd then [⟨range.stop, lastColor .recved (A ++ X)⟩] else []) ++ Z₂, m.size⟩
      range (fun _ => c) := by
  have hle := hr.le
  have hstop := hr.stop_le
  have hne := hr.nonempty
  have hAX : ∀ s ∈ A ++ X, s.color ≠ .pending := by
    intro s hs
    refine hm.not_pending_of_lt (hsegs ▸ List.mem_append_left _ hs) ?_
    rcases List.mem_append.mp hs with hs | hs
    · have := hA s hs
      omega
    · have := (hX s hs).2
      omega
  have h := Spliced.of_scan hc hle (by omega) (hsegs ▸ hm.increasing) hA
    (fun x hx => by have := hX x hx; omega) hAX (fun z hz => hZ z (by simp [hz])) hH hend
  rw [← hsegs] at h
  obtain ⟨hwf, hsent⟩ := hm.rebuild h.increasing h.offsets hle hstop h.pending
  exact ⟨hwf, rfl, hsent, h.color, h.offsets⟩

/-! ### The start of the range -/

lemma ScanStart.keep (hinc : Increasing A) (hA : ∀ a ∈ A, a.offset < start) (hsent : ∀ a ∈ A, a.color ≠ .pending)
    (hlast : lastColor .recved A = c) : ScanStart start c A A where
  increasing := hinc
  below a ha := (hA a ha).le
  offsets a ha := .inl ⟨a, ha, rfl⟩
  sent := hsent
  before _ _ := rfl
  inside b hb := by
    rw [paintAt_of_le (fun a ha => by have := hA a ha; omega), hlast]

lemma ScanStart.insert (hc : c ≠ .pending) (hinc : Increasing A) (hA : ∀ a ∈ A, a.offset < start)
    (hsent : ∀ a ∈ A, a.color ≠ .pending) :
    ScanStart start c A (A ++ [⟨start, c⟩]) where
  increasing := by
    refine List.pairwise_append.mpr ⟨hinc, by simp, fun a ha s hs => ?_⟩
    rw [List.mem_singleton.mp hs]
    exact hA a ha
  below s hs := by
    rcases List.mem_append.mp hs with hs | hs
    · exact (hA s hs).le
    · rw [List.mem_singleton.mp hs]
  offsets s hs := by
    rcases List.mem_append.mp hs with hs | hs
    · exact .inl ⟨s, hs, rfl⟩
    · exact .inr (by rw [List.mem_singleton.mp hs])
  sent s hs := by
    rcases List.mem_append.mp hs with hs | hs
    · exact hsent s hs
    · rw [List.mem_singleton.mp hs]
      exact hc
  before b hb := by
    have hb' : ¬start ≤ b := by omega
    rw [paintAt_append, paintAt_cons, if_neg hb', paintAt_nil]
  inside b hb := by
    rw [paintAt_append, paintAt_cons, if_pos hb, paintAt_nil]

/-- The states before a recoloured state are kept up to the first of the run it joins. -/
lemma ScanStart.merge {A₁ A₂ T : List State} {h : State} (hc : c ≠ .pending) (hinc : Increasing (A₁ ++ A₂))
    (hA : ∀ a ∈ A₁ ++ A₂, a.offset < start) (hsent : ∀ a ∈ A₁ ++ A₂, a.color ≠ .pending) (hrun : ∀ a ∈ A₂, a.color = c)
    (hh : A₂ ++ [⟨start, c⟩] = h :: T) : ScanStart start c (A₁ ++ A₂) (A₁ ++ [h]) := by
  have hfull := ScanStart.insert hc hinc hA hsent
  have hsplit : A₁ ++ A₂ ++ [⟨start, c⟩] = A₁ ++ [h] ++ T := by
    rw [List.append_assoc, hh, List.append_assoc, List.singleton_append]
  rw [hsplit] at hfull
  have hcol : ∀ s ∈ h :: T, s.color = c := by
    rw [← hh]
    intro s hs
    rcases List.mem_append.mp hs with hs | hs
    · exact hrun s hs
    · rw [List.mem_singleton.mp hs]
  have hpaint : ∀ b, paintAt .recved (A₁ ++ [h] ++ T) b = paintAt .recved (A₁ ++ [h]) b := by
    intro b
    have hincT := (increasing_append.mp (by simpa using hfull.increasing : Increasing (A₁ ++ h :: T))).2.1
    rw [List.append_assoc, List.singleton_append, paintAt_append, paintAt_append]
    exact paintAt_run (hcol h (by simp))
      (fun s hs => ⟨hcol s (by simp [hs]), ((List.pairwise_cons.mp hincT).1 s hs).le⟩)
  have hmem : ∀ s ∈ A₁ ++ [h], s ∈ A₁ ++ [h] ++ T := fun s hs => List.mem_append_left _ hs
  exact ⟨(increasing_append.mp hfull.increasing).1, fun s hs => hfull.below s (hmem s hs),
    fun s hs => hfull.offsets s (hmem s hs), fun s hs => hfull.sent s (hmem s hs),
    fun b hb => by rw [← hpaint]; exact hfull.before b hb,
    fun b hb => by rw [← hpaint]; exact hfull.inside b hb⟩

/-- Recolouring the state at the start of a range and joining it to the run before it. -/
theorem ScanStart.recolor (B : List State) (hc : c ≠ .pending) (hinc : Increasing A) (hA : ∀ a ∈ A, a.offset < start)
    (hsent : ∀ a ∈ A, a.color ≠ .pending) :
    ∃ K D, A ++ ⟨start, c⟩ :: B = K ++ D ++ B ∧ (K ++ D).length = A.length + 1 ∧
      sameBefore (A ++ ⟨start, c⟩ :: B) c A.length + 1 = K.length ∧ ScanStart start c A K := by
  obtain ⟨A₁, A₂, rfl, hbefore, hrun⟩ := sameBefore_split c A (⟨start, c⟩ :: B)
  obtain ⟨h, T, hT⟩ : ∃ h T, A₂ ++ [⟨start, c⟩] = h :: T := List.exists_cons_of_ne_nil (by simp)
  refine ⟨A₁ ++ [h], T, ?_, ?_, by rw [hbefore]; simp, ScanStart.merge hc hinc hA hsent hrun hT⟩
  · rw [List.append_cons, List.append_assoc A₁, hT]
    simp
  · have hlen := congrArg List.length hT
    simp only [List.length_append, List.length_cons, List.length_nil] at hlen ⊢
    omega

/-! ### The end of the range -/

/-- A scan that moves on over the states of `M` and leaves `g` of each. -/
lemma scan_pass {β : Type} (F : Nat → List State → Nat → Color → β) (g : State → State) (fuel : Nat) (P M Z : List State)
    (pre : Color) (hstep : ∀ fuel P Z pre, ∀ s ∈ M,
      F (fuel + 1) (P ++ s :: Z) P.length pre = F fuel (P ++ g s :: Z) (P.length + 1) s.color) :
    F (fuel + M.length) (P ++ (M ++ Z)) P.length pre =
      F fuel (P ++ M.map g ++ Z) (P ++ M).length (lastColor pre M) := by
  induction M generalizing P pre with
  | nil => simp
  | cons s M ih =>
    have hone := hstep (fuel + M.length) P (M ++ Z) pre s List.mem_cons_self
    have hrest := ih (P ++ [g s]) s.color (fun fuel P Z pre t ht => hstep fuel P Z pre t (List.mem_cons_of_mem s ht))
    simp only [List.append_assoc, List.length_append, List.length_cons, List.length_nil, List.map_cons,
      List.cons_append, List.nil_append, Nat.zero_add, lastColor_cons] at hrest ⊢
    rw [← Nat.add_assoc, hone, hrest]

/-- What a scan does at the end of the range: it passes the run of colour `c` that starts there, or
tells whether the colour before has to be restored. -/
def scanEnd (segs : List State) (size stop : Nat) (c : Color) (index : Nat) (restore : Bool) : Nat × Bool :=
  match segs[index]? with
  | some s => if s.offset = stop then (skipAfter segs c index, false) else (index, restore)
  | none => (index, decide (stop < size) && restore)

lemma scanEnd_spec {size stop : Nat} (P : List State) {Z : List State} (hinc : Increasing Z)
    (hlen : (P ++ Z).length < usizeMax) (hb : ∀ z ∈ Z, z.offset ≤ size) (hZ : ∀ z ∈ Z, stop ≤ z.offset) (c pre : Color)
    (restore : Bool) :
    ∃ Z₁ Z₂ atEnd, Z = Z₁ ++ Z₂ ∧ scanEnd (P ++ Z) size stop c P.length restore = (P.length + Z₁.length, atEnd) ∧
      (∀ z ∈ Z₁, z.color = c) ∧ (atEnd = true → restore = true) ∧
      ((restore = false → pre = c) → ScanEnd size stop c pre Z₁ Z₂ atEnd) := by
  cases Z with
  | nil =>
    refine ⟨[], [], decide (stop < size) && restore, rfl, by simp [scanEnd], by simp, by simp, fun hpre =>
      ⟨by simp, by simp, fun h => ?_, fun h => ?_⟩⟩
    · simp only [Bool.and_eq_true, decide_eq_true_eq] at h
      exact ⟨rfl, h.1, by simp⟩
    · cases restore with
      | false => exact .inl (hpre rfl)
      | true => exact .inr (.inl (by simpa using h))
  | cons z Z =>
    have hget : (P ++ z :: Z)[P.length]? = some z := by simp
    by_cases heq : z.offset = stop
    · obtain ⟨Z₁, Z₂, hsplit, hskip, hrun⟩ := skipAfter_split c P (z :: Z) hlen
      refine ⟨Z₁, Z₂, false, hsplit, ?_, hrun, by simp, fun _ => ⟨hsplit ▸ hZ, hrun, by simp, fun _ => ?_⟩⟩
      · simp only [scanEnd, hget, if_pos heq, hskip]
      · exact .inr (.inr ⟨z, Z, hsplit.symm, heq⟩)
    · have hlt : stop < z.offset := lt_of_le_of_ne (hZ z (by simp)) (Ne.symm heq)
      refine ⟨[], z :: Z, restore, rfl, ?_, by simp, id, fun hpre => ⟨hZ, by simp, fun _ => ?_, fun h => .inl (hpre h)⟩⟩
      · simp only [scanEnd, hget, if_neg heq, List.length_nil, Nat.add_zero]
      · exact ⟨rfl, lt_of_lt_of_le hlt (hb z (by simp)),
          List.forall_mem_cons.mpr ⟨hlt, fun s hs => hlt.trans ((List.pairwise_cons.mp hinc).1 s hs)⟩⟩

lemma ackLoop_eq {size stop : Nat} (hstop : stop ≤ size) (fuel : Nat) {P M Z : List State} (pre : Color)
    (hM : ∀ s ∈ M, s.offset < stop ∧ s.color ≠ .pending) (hZ : ∀ z ∈ Z, stop ≤ z.offset) :
    ackLoop (P ++ (M ++ Z)) size stop (fuel + 1 + M.length) P.length pre =
      let ending := scanEnd (P ++ M ++ Z) size stop .recved (P ++ M).length (decide (lastColor pre M ≠ .recved))
      some (ending.1, lastColor pre M, ending.2) := by
  have hpass := scan_pass (fun fuel segs i pre => ackLoop segs size stop fuel i pre) id (fuel + 1) P M Z pre
    (fun fuel P Z pre s hs => by
      have hget : (P ++ s :: Z)[P.length]? = some s := by simp
      simp only [ackLoop, hget, Nat.compare_eq_lt.mpr (hM s hs).1, debugAssert_of (hM s hs).2, some_bind, id])
  rw [hpass, List.map_id, ackLoop]
  unfold scanEnd
  cases hget : (P ++ M ++ Z)[(P ++ M).length]? with
  | none => simp [debugAssert_of hstop]
  | some s =>
    rw [List.getElem?_append_right le_rfl] at hget
    rcases (hZ s (List.mem_of_getElem? hget)).eq_or_lt with heq | hlt
    · simp [heq]
    · simp [Nat.compare_eq_gt.mpr hlt, hlt.ne']

/-! ### The whole operation -/

/-- The states before the start of a range, at it and behind it. -/
structure Cut (m : BufMap) (start : Nat) (A X B : List State) : Prop where
  segs : m.segs = A ++ X ++ B
  before : ∀ a ∈ A, a.offset < start
  hit : ∀ x ∈ X, x.offset = start
  behind : ∀ b ∈ B, start < b.offset
  sent : ∀ s ∈ A ++ X, s.color ≠ .pending
  increasing : Increasing A

section

variable {B K D M Z : List State} {atStart restore : Bool} {i : Nat} {pre : Color}

lemma Wf.cut (hm : m.Wf) (hr : range.SentIn m) (hsegs : m.segs = A ++ X ++ B) (hA : ∀ a ∈ A, a.offset < range.start)
    (hX : ∀ x ∈ X, x.offset = range.start) (hB : ∀ b ∈ B, range.start < b.offset) : Cut m range.start A X B := by
  have hle := hr.le
  have hstop := hr.stop_le
  have hne := hr.nonempty
  refine ⟨hsegs, hA, hX, hB, fun s hs => hm.not_pending_of_lt (hsegs ▸ List.mem_append_left _ hs) ?_, ?_⟩
  · rcases List.mem_append.mp hs with hs | hs
    · have := hA s hs
      omega
    · have := hX s hs
      omega
  · exact (increasing_append.mp (increasing_append.mp (hsegs ▸ hm.increasing)).1).1

lemma Wf.cut_of_ok (hm : m.Wf) (hr : range.SentIn m) (h : binarySearchBy Mark.offset m.segs range.start = .ok i) :
    ∃ A x B, Cut m range.start A [x] B ∧ A.length = i ∧ m.segs[i]? = some x ∧ x.color ≠ .pending ∧
      x.color = lastColor .recved (A ++ [x]) := by
  obtain ⟨A, x, B, hsegs, rfl, hx, hA, hB⟩ := binarySearchBy_ok _ hm.increasing h
  have hcut := hm.cut hr (X := [x]) (by simpa using hsegs) hA (by simpa using hx) hB
  exact ⟨A, x, B, hcut, rfl, by simp [hsegs], hcut.sent x (by simp), by rw [lastColor_append]; rfl⟩

/-- Nothing starts at the range: it starts before all states or behind the last state of `A`. -/
lemma Wf.cut_of_error (hm : m.Wf) (hr : range.SentIn m) (h : binarySearchBy Mark.offset m.segs range.start = .error i) :
    (i = 0 ∧ Cut m range.start [] [] m.segs) ∨
    ∃ A s B, i = A.length + 1 ∧ Cut m range.start (A ++ [s]) [] B ∧ m.segs[A.length]? = some s ∧ s.color ≠ .pending ∧
      s.color = lastColor .recved (A ++ [s]) := by
  obtain ⟨A, B, hsegs, rfl, hA, hB⟩ := binarySearchBy_error _ hm.increasing h
  have hcut := hm.cut hr (X := []) (by simpa using hsegs) hA (by simp) hB
  rcases List.eq_nil_or_concat A with rfl | ⟨A, s, rfl⟩
  · exact .inl ⟨rfl, by simpa [hsegs] using hcut⟩
  · rw [List.concat_eq_append] at hcut hsegs ⊢
    exact .inr ⟨A, s, B, by simp, hcut, by simp [hsegs], hcut.sent s (by simp), by rw [lastColor_append]; rfl⟩

lemma Cut.keep (h : Cut m start A X B) (hlast : lastColor .recved A = c) : ScanStart start c A A :=
  .keep h.increasing h.before (fun a ha => h.sent a (by simp [ha])) hlast

lemma Cut.insert (h : Cut m start A X B) (hc : c ≠ .pending) : ScanStart start c A (A ++ [⟨start, c⟩]) :=
  .insert hc h.increasing h.before (fun a ha => h.sent a (by simp [ha]))

/-- Splicing after a scan that has passed `M` recolours the range. -/
theorem Cut.splice_repaint (hm : m.Wf) (hr : range.SentIn m) (restore : Bool)
    (h : Cut m range.start A X (M ++ Z)) (hc : c ≠ .pending)
    (hlen : (K ++ D ++ (M ++ Z)).length = m.segs.length) (hM : ∀ s ∈ M, s.offset < range.stop)
    (hZ : ∀ z ∈ Z, range.stop ≤ z.offset) (hrestore : restore = false → lastColor .recved (A ++ X ++ M) = c)
    (hH : ScanStart range.start c A (K ++ if atStart then [⟨range.start, c⟩] else [])) :
    let ending := scanEnd (K ++ D ++ M ++ Z) m.size range.stop c (K ++ D ++ M).length restore
    ∃ segs, splice (K ++ D ++ M ++ Z) range c (lastColor .recved (A ++ X ++ M)) K.length ending.1 atStart ending.2 =
      some segs ∧ Repaint m ⟨segs, m.size⟩ range (fun _ => c) := by
  have hmB : ∀ s ∈ M ++ Z, s ∈ m.segs := fun s hs => h.segs ▸ List.mem_append_right _ hs
  have hincZ := (increasing_append.mp (increasing_append.mp (h.segs ▸ hm.increasing)).2.1).2.1
  obtain ⟨Z₁, Z₂, atEnd, rfl, hscan, -, -, hend⟩ := scanEnd_spec (K ++ D ++ M) hincZ
    (by have := hm.length_lt; simp only [List.length_append] at hlen ⊢; omega) (fun z hz => hm.bounded z (hmB z (by simp [hz]))) hZ c
    (lastColor .recved (A ++ X ++ M)) restore
  have hgap : Gap (K ++ D ++ M ++ (Z₁ ++ Z₂)) K.length ((K ++ D ++ M).length + Z₁.length) K (D ++ M ++ Z₁) Z₂ :=
    ⟨by simp, rfl, by simp only [List.length_append]; omega⟩
  refine ⟨_, by rw [hscan]; exact splice_gap hgap .., ?_⟩
  rw [List.append_assoc A X M] at hend hrestore ⊢
  refine hm.repaint hr hc (by rw [h.segs]; simp) h.before (fun x hx => ?_)
    (fun z hz => h.behind z (List.mem_append_right _ hz)) hH (hend hrestore)
  have hle := hr.le
  have hne := hr.nonempty
  rcases List.mem_append.mp hx with hx | hx
  · have := h.hit x hx
    omega
  · have := hM x hx
    have := h.behind x (by simp [hx])
    omega

/-- From any of its starting cases, `ack_rcvd` recolours the range. -/
theorem Cut.ackFrom_repaint (hm : m.Wf) (hr : range.SentIn m) (atStart : Bool) (h : Cut m range.start A X B)
    (hlen : (K ++ D ++ B).length = m.segs.length) (hpre : pre = lastColor .recved (A ++ X))
    (hH : ScanStart range.start .recved A (K ++ if atStart then [⟨range.start, .recved⟩] else [])) :
    ∃ m', ackFrom m (K ++ D ++ B) range K.length atStart (K ++ D).length pre = some m' ∧
      Repaint m m' range (fun _ => .recved) := by
  have hstop := hr.stop_le
  have hsize := hm.sent_le
  have hincB := (increasing_append.mp (h.segs ▸ hm.increasing)).2.1
  obtain ⟨M, Z, rfl, -, hM, hZ⟩ := search_split Mark.offset B range.stop hincB
  have hM' : ∀ s ∈ M, s.offset < range.stop ∧ s.color ≠ .pending := by
    intro s hs
    have := hM s hs
    exact ⟨hM s hs, hm.not_pending_of_lt (by simp [h.segs, hs]) (.inl (by omega))⟩
  have hlast : lastColor pre M = lastColor .recved (A ++ X ++ M) := by rw [hpre, ← lastColor_append]
  obtain ⟨segs, hsplice, hpaint⟩ := h.splice_repaint hm hr (decide (lastColor pre M ≠ .recved)) (by decide)
    hlen hM hZ (by simp [hlast]) hH
  refine ⟨_, ?_, hpaint⟩
  have hfuel : (K ++ D ++ (M ++ Z)).length + 1 = (K ++ D).length + Z.length + 1 + M.length := by
    simp only [List.length_append]
    omega
  rw [ackFrom, hfuel, ackLoop_eq (by omega) _ _ hM' hZ, hlast]
  rw [hlast] at hsplice
  rw [← List.append_assoc (K ++ D) M Z]
  simp only [some_bind, hsplice]

end

/-- `ack_rcvd` of a sent range does not panic and colours exactly that range as received. -/
theorem Wf.ackRcvd_repaint (hm : m.Wf) (hr : range.SentIn m) :
    ∃ m', m.ackRcvd range = some m' ∧ Repaint m m' range (fun _ => .recved) := by
  unfold ackRcvd
  cases hsearch : binarySearchBy Mark.offset m.segs range.start with
  | ok i =>
    obtain ⟨A, x, B, hcut, rfl, hget, hxs, hpre⟩ := hm.cut_of_ok hr hsearch
    have hx := hcut.hit x (by simp)
    have hset : m.segs.set A.length ⟨x.offset, .recved⟩ = A ++ ⟨range.start, .recved⟩ :: B := by
      rw [hcut.segs, hx]
      simp
    obtain ⟨K, D, hsplit, hlenK, hstart, hH⟩ := ScanStart.recolor B (by decide : Color.recved ≠ .pending)
      hcut.increasing hcut.before (fun a ha => hcut.sent a (by simp [ha]))
    simp only [hget, debugAssert_of hxs, hset, hstart, some_bind, ← hlenK]
    rw [hsplit]
    exact hcut.ackFrom_repaint hm hr _ (by rw [← hsplit, hcut.segs]; simp) hpre (by simpa using hH)
  | error i =>
    obtain ⟨rfl, hcut⟩ | ⟨A, s, B, rfl, hcut, hget, hss, hpre⟩ := hm.cut_of_error hr hsearch
    · exact hcut.ackFrom_repaint (K := []) (D := []) hm hr _ rfl rfl (by simpa using hcut.keep rfl)
    · simp only [hget, debugAssert_of hss, some_bind]
      have hfinish := hcut.ackFrom_repaint (K := A ++ [s]) (D := []) hm hr (decide (s.color ≠ .recved))
        (by simp [hcut.segs]) (by simpa using hpre)
      have hsegs : A ++ [s] ++ [] ++ B = m.segs := by rw [hcut.segs]
      rw [hsegs, List.append_nil, List.length_append] at hfinish
      apply hfinish
      by_cases hcol : s.color = .recved
      · simpa [hcol] using hcut.keep (hpre.symm.trans hcol)
      · simpa [hcol] using hcut.insert (by decide)

end BufMap

end Dquic
