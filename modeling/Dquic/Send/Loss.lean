import Dquic.Send.Acknowledge

/-!
# Losing a range

`BufMap::may_loss` colours as lost exactly the bytes of the range that are in flight.
-/

namespace Dquic

open Lib

/-- What the loss of a packet does to the colour of a byte it carried. -/
def Color.lose : Color → Color
  | .flighting => .lost
  | c => c

lemma Color.flighting_or_lost {c : Color} (hp : c ≠ .pending) (hr : c ≠ .recved) : c = .flighting ∨ c = .lost := by
  cases c <;> simp_all

lemma Color.lose_eq_recved {c : Color} : c.lose = .recved ↔ c = .recved := by
  cases c <;> simp [Color.lose]

namespace BufMap

/-- `rest'` is `rest`, states behind received bytes, with the bytes before `stop` lost. -/
structure LostSuffix (size stop : Nat) (rest rest' : List State) : Prop where
  color : ∀ b < size, paintAt .recved rest' b =
    if b < stop then (paintAt .recved rest b).lose else paintAt .recved rest b
  increasing : Increasing rest'
  offsets : ∀ s ∈ rest', (∃ t ∈ rest, t.offset = s.offset) ∨
    s.offset = stop ∧ stop < size ∧ ∃ t ∈ rest, t.offset < stop
  pending : ∀ s, s.color = .pending → (s ∈ rest' ↔ s ∈ rest)

def Losable (stop : Nat) (M : List State) : Prop :=
  ∀ s ∈ M, s.offset < stop ∧ s.color ≠ .pending ∧ s.color ≠ .recved

variable {M Z₁ Z₂ Z Z' D K segs segs' : List State} {stop size fuel i index : Nat} {d pre : Color} {f : State}
  {atEnd : Bool} {m : BufMap} {range : Range}

lemma Losable.color_eq (h : Losable stop M) {s : State} (hs : s ∈ M) : s.color = .flighting ∨ s.color = .lost :=
  Color.flighting_or_lost (h s hs).2.1 (h s hs).2.2

lemma Losable.lastColor_eq (h : Losable stop M) (hd : d = .flighting ∨ d = .lost) :
    lastColor d M = .flighting ∨ lastColor d M = .lost := by
  induction M generalizing d with
  | nil => exact hd
  | cons s M ih => exact ih (fun t ht => h t (by simp [ht])) (h.color_eq (by simp))

lemma Losable.lose_paintAt (h : Losable stop M) (hd : d = .flighting ∨ d = .lost) (b : Nat) :
    (paintAt d M b).lose = .lost := by
  have hcol : paintAt d M b = .flighting ∨ paintAt d M b = .lost := by
    rcases paintAt_eq_ground_or d M b with ⟨hg, -⟩ | ⟨s, hs, -, hc⟩
    · rw [hg]
      exact hd
    · rw [← hc]
      exact h.color_eq hs
  rcases hcol with h | h <;> rw [h] <;> rfl

lemma Losable.front (h : Losable stop (f :: M)) (hinc : Increasing (f :: M)) (b : Nat) :
    (paintAt .recved (f :: M) b).lose = if f.offset ≤ b then .lost else .recved := by
  by_cases hb : f.offset ≤ b
  · have hM : Losable stop M := fun s hs => h s (by simp [hs])
    rw [if_pos hb, paintAt_cons, if_pos hb, hM.lose_paintAt (h.color_eq (by simp))]
  · rw [if_neg hb, hinc.paintAt_of_lt (by omega)]
    rfl

lemma lose_split (stop : Nat) (rest : List State) (hinc : Increasing rest)
    (hsent : ∀ s ∈ rest, s.offset < stop → s.color ≠ .pending) :
    ∃ M Z, rest = M ++ Z ∧ Losable stop M ∧ ((∀ z ∈ Z, stop ≤ z.offset) ∨
      ∃ hole Z', Z = hole :: Z' ∧ hole.offset < stop ∧ hole.color = .recved) := by
  induction rest with
  | nil => exact ⟨[], [], rfl, by simp [Losable], .inl (by simp)⟩
  | cons s rest ih =>
    by_cases hlt : s.offset < stop
    · by_cases hr : s.color = .recved
      · exact ⟨[], s :: rest, rfl, by simp [Losable], .inr ⟨s, rest, rfl, hlt, hr⟩⟩
      · obtain ⟨M, Z, rfl, hM, hZ⟩ := ih hinc.of_cons (fun t ht => hsent t (by simp [ht]))
        exact ⟨s :: M, Z, rfl, List.forall_mem_cons.mpr ⟨⟨hlt, hsent s (by simp) hlt, hr⟩, hM⟩, hZ⟩
    · exact ⟨[], s :: rest, rfl, by simp [Losable], .inl fun z hz => (not_lt.mp hlt).trans (hinc.forall_le z hz)⟩

/-! ### Specifications of the suffix -/

lemma LostSuffix.behind {z : State} (hinc : Increasing (z :: (Z₁ ++ Z₂))) (hstop : stop ≤ z.offset)
    (hrun : ∀ s ∈ Z₁, s.color = .lost ∧ z.color = .lost) :
    LostSuffix size stop (z :: (Z₁ ++ Z₂)) (z :: Z₂) where
  color b hb := by
    have hpaint : paintAt .recved (z :: Z₂) b = paintAt .recved (z :: (Z₁ ++ Z₂)) b := by
      rw [← List.cons_append, paintAt_append, ← List.singleton_append, paintAt_append]
      cases Z₁ with
      | nil => rfl
      | cons s Z₁ =>
        have hzc := (hrun s (by simp)).2
        rw [paintAt_run hzc (fun n hn => ⟨(hrun n hn).1, hinc.forall_le n (List.mem_cons_of_mem _ (List.mem_append_left _ hn))⟩)]
    rw [hpaint]
    by_cases hlt : b < stop
    · rw [if_pos hlt, hinc.paintAt_of_lt (by omega)]
      rfl
    · rw [if_neg hlt]
  increasing := hinc.sublist (by simp)
  offsets s hs := .inl ⟨s, by
    rcases List.mem_cons.mp hs with rfl | hs
    · simp
    · simp [hs], rfl⟩
  pending s hs := by
    have h₁ : s ∉ Z₁ := fun h => by simp [(hrun s h).1] at hs
    simp [h₁]

lemma LostSuffix.hole {hole : State} (hinc : Increasing (hole :: Z)) (hlt : hole.offset < stop)
    (hcol : hole.color = .recved) (h : LostSuffix size stop Z Z') : LostSuffix size stop (hole :: Z) (hole :: Z') where
  color b hb := by
    rw [paintAt_cons, paintAt_cons, hcol, ite_self]
    exact h.color b hb
  increasing := by
    refine List.pairwise_cons.mpr ⟨fun s hs => ?_, h.increasing⟩
    rcases h.offsets s hs with ⟨t, ht, hts⟩ | ⟨hs, -⟩
    · rw [← hts]
      exact (List.pairwise_cons.mp hinc).1 t ht
    · omega
  offsets s hs := by
    rcases List.mem_cons.mp hs with rfl | hs
    · exact .inl ⟨s, by simp, rfl⟩
    · rcases h.offsets s hs with ⟨t, ht, hts⟩ | ⟨hs, hsize, t, ht, htlt⟩
      · exact .inl ⟨t, by simp [ht], hts⟩
      · exact .inr ⟨hs, hsize, t, by simp [ht], htlt⟩
  pending s hs := by
    have hne : s ≠ hole := fun h => by simp [h, hcol] at hs
    simp [hne, h.pending s hs]

lemma LostSuffix.lead {hole : State} (hM : Losable stop (f :: M)) (hinc : Increasing (f :: M ++ hole :: Z))
    (hlt : hole.offset < stop) (h : LostSuffix size stop (hole :: Z) (hole :: Z')) :
    LostSuffix size stop (f :: M ++ hole :: Z) (⟨f.offset, .lost⟩ :: hole :: Z') := by
  obtain ⟨hincM, hincZ, hMZ⟩ := increasing_append.mp hinc
  have hf : f.offset < hole.offset := hMZ f (by simp) hole (by simp)
  refine ⟨fun b hb => ?_, ?_, fun s hs => ?_, fun s hs => ?_⟩
  · rw [← List.singleton_append, paintAt_append, paintAt_append]
    by_cases hhole : hole.offset ≤ b
    · have hground : ∀ d l, paintAt d (hole :: l) b = paintAt .recved (hole :: l) b := by
        intro d l
        rw [paintAt_cons, paintAt_cons, if_pos hhole, if_pos hhole]
      rw [hground, hground (paintAt .recved (f :: M) b)]
      exact h.color b hb
    · have hlt : b < hole.offset := by omega
      rw [h.increasing.paintAt_of_lt hlt, hincZ.paintAt_of_lt hlt, if_pos (by omega), hM.front hincM]
      rfl
  · exact List.pairwise_cons.mpr ⟨fun s hs => lt_of_lt_of_le hf (h.increasing.forall_le s hs), h.increasing⟩
  · rcases List.mem_cons.mp hs with rfl | hs
    · exact .inl ⟨f, by simp, rfl⟩
    · rcases h.offsets s hs with ⟨t, ht, hts⟩ | ⟨hs, hsize, t, ht, htlt⟩
      · exact .inl ⟨t, List.mem_append_right _ ht, hts⟩
      · exact .inr ⟨hs, hsize, t, List.mem_append_right _ ht, htlt⟩
  · have hM' : s ∉ f :: M := fun h => (hM s h).2.1 hs
    have hne : s ≠ ⟨f.offset, .lost⟩ := fun h => by simp [h] at hs
    rw [List.mem_cons, List.mem_append, h.pending s hs]
    tauto

lemma LostSuffix.finish (hM : Losable stop (f :: M)) (hinc : Increasing (f :: M ++ (Z₁ ++ Z₂)))
    (hend : ScanEnd size stop .lost (lastColor .recved (f :: M)) Z₁ Z₂ atEnd) :
    LostSuffix size stop (f :: M ++ (Z₁ ++ Z₂)) ([⟨f.offset, .lost⟩] ++
      (if atEnd then [⟨stop, lastColor .recved (f :: M)⟩] else []) ++ Z₂) := by
  obtain ⟨hincM, -, hMZ⟩ := increasing_append.mp hinc
  have hf := (hM f (by simp)).1
  -- the states from `f` on are spliced, with nothing before them
  have h := Spliced.of_scan (A := []) (X := f :: M) (by decide) hf.le (.inl hf) hinc (by simp)
    (fun x hx => ⟨hincM.forall_le x hx, fun _ => (hM x hx).1⟩) (fun s hs => (hM s hs).2.1)
    (fun z hz => hMZ f (by simp) z (by simp [hz])) (ScanStart.insert (by decide) .nil (by simp) (by simp)) hend
  simp only [List.nil_append] at h
  refine ⟨fun b hb => ?_, h.increasing, fun s hs => ?_, h.pending⟩
  · rw [h.color b hb]
    by_cases hbs : b < stop
    · have hlow : paintAt .recved (f :: M ++ (Z₁ ++ Z₂)) b = paintAt .recved (f :: M) b := by
        rw [paintAt_append]
        exact paintAt_of_lt (fun z hz => lt_of_lt_of_le hbs (hend.behind z hz))
      simp only [hlow, hbs, and_true, if_true, hM.front hincM]
      by_cases hfb : f.offset ≤ b
      · rw [if_pos hfb, if_pos hfb]
      · rw [if_neg hfb, if_neg hfb, hincM.paintAt_of_lt (by omega)]
    · rw [if_neg hbs, if_neg (fun h => hbs h.2)]
  · rcases h.offsets s hs with h | h | ⟨h, hsize⟩
    · exact .inl h
    · exact .inl ⟨f, by simp, h.symm⟩
    · exact .inr ⟨h, hsize, f, by simp, hf⟩

/-! ### The scans -/

lemma lostLoop_pass (again : List State → Nat → Option (List State)) (size stop fuel : Nat)
    (P M Z : List State) (pre : Color) (hM : Losable stop M) :
    lostLoop again size stop (fuel + M.length) (P ++ (M ++ Z)) P.length pre =
      lostLoop again size stop fuel (P ++ M.map (fun s => ⟨s.offset, .lost⟩) ++ Z) (P ++ M).length (lastColor pre M) := by
  refine scan_pass (lostLoop again size stop) _ fuel P M Z pre (fun fuel P Z pre s hs => ?_)
  obtain ⟨hlt, hp, hr⟩ := hM s hs
  have hget : (P ++ s :: Z)[P.length]? = some s := by simp
  have hset : (P ++ s :: Z).set P.length ⟨s.offset, .lost⟩ = P ++ ⟨s.offset, .lost⟩ :: Z := by simp
  simp only [lostLoop, hget, Nat.compare_eq_lt.mpr hlt, debugAssert_of hp, some_bind, if_neg hr, hset]

lemma lossLoop_pass (size stop fuel : Nat) (P M Z : List State) (pre : Color) (hM : Losable stop M) :
    lossLoop size stop (P ++ (M ++ Z)) (fuel + M.length) P.length pre =
      lossLoop size stop (P ++ M ++ Z) fuel (P ++ M).length (lastColor pre M) := by
  have hpass := scan_pass (fun fuel segs i pre => lossLoop size stop segs fuel i pre) id fuel P M Z pre
    (fun fuel P Z pre s hs => by
      obtain ⟨hlt, hp, hr⟩ := hM s hs
      have hget : (P ++ s :: Z)[P.length]? = some s := by simp
      simp only [lossLoop, hget, Nat.compare_eq_lt.mpr hlt, debugAssert_of hp, some_bind, if_neg hr, id])
  rwa [List.map_id] at hpass

/-- Both scans end alike. -/
lemma lostLoop_behind (again : List State → Nat → Option (List State)) (hstop : stop ≤ size)
    (h : ∀ s, segs[i]? = some s → stop ≤ s.offset) :
    let ending := scanEnd segs size stop .lost i (decide (pre = .flighting))
    lostLoop again size stop (fuel + 1) segs i pre = some (segs, ending.1, pre, ending.2) ∧
      lossLoop size stop segs (fuel + 1) i pre = some (segs, ending.1, pre, ending.2) := by
  unfold lostLoop lossLoop scanEnd
  cases hget : segs[i]? with
  | none => simp [debugAssert_of hstop]
  | some s =>
    rcases (h s hget).eq_or_lt with heq | hlt
    · simp [heq]
    · simp [Nat.compare_eq_gt.mpr hlt, hlt.ne']

lemma forall_getElem?_append (h : ∀ z ∈ Z, stop ≤ z.offset) (s : State) (hs : (K ++ Z)[K.length]? = some s) :
    stop ≤ s.offset := by
  rw [List.getElem?_append_right le_rfl] at hs
  exact h s (List.mem_of_getElem? hs)

lemma mayLostFrom_of_gap
    (hloop : lostLoop (fun segs i => mayLostFrom size stop fuel segs i) size stop (fuel + 1)
      segs i .recved = some (segs', index, pre, atEnd))
    (hgap : Gap segs' (i + 1) index K D Z) :
    mayLostFrom size stop (fuel + 1) segs i =
      some (K ++ (if atEnd then [⟨stop, pre⟩] else []) ++ Z) := by
  rw [mayLostFrom, hloop]
  cases atEnd with
  | false => simpa using hgap.close
  | true =>
    obtain ⟨l, hl, hg⟩ := hgap.put ⟨stop, pre⟩
    simpa [hl] using hg.close

lemma mayLostFrom_of_stay
    (hloop : lostLoop (fun segs i => mayLostFrom size stop fuel segs i) size stop (fuel + 1) segs i .recved =
      some (segs', index, pre, false))
    (hidx : index ≤ i) : mayLostFrom size stop (fuel + 1) segs i = some segs' := by
  have hno : ¬i + 1 < index := by omega
  rw [mayLostFrom, hloop]
  simp [drainIf, hno]

lemma mayLostFrom_append {hole : State}
    (h : mayLostFrom size stop fuel (K ++ [hole] ++ Z) (K ++ [hole]).length = some (K ++ [hole] ++ Z')) :
    mayLostFrom size stop fuel (K ++ hole :: Z) (K.length + 1) = some (K ++ hole :: Z') := by
  rw [List.length_append] at h
  rwa [List.append_cons, List.append_cons K hole Z']

/-- What a scan leaves of the states it passes. -/
def lostMarks (M : List State) : List State := M.map fun s => ⟨s.offset, .lost⟩

lemma length_append_lostMarks (K M : List State) : (K ++ lostMarks M).length = (K ++ M).length := by
  simp [lostMarks]

lemma lostLoop_passed (again : List State → Nat → Option (List State)) (size : Nat) (K Z : List State) (hM : Losable stop M) (hfuel : M.length ≤ fuel) :
    lostLoop again size stop (fuel + 1) (K ++ (M ++ Z)) K.length .recved =
      lostLoop again size stop (fuel - M.length + 1) (K ++ lostMarks M ++ Z) (K ++ lostMarks M).length
        (lastColor .recved M) := by
  have hpass := lostLoop_pass again size stop (fuel - M.length + 1) K M Z .recved hM
  rwa [Nat.add_right_comm, Nat.sub_add_cancel hfuel, ← length_append_lostMarks] at hpass

lemma lostLoop_hole {again : List State → Nat → Option (List State)} {hole : State} (hlt : hole.offset < stop)
    (hcol : hole.color = .recved) (hagain : again (K ++ hole :: Z) (K.length + 1) = some segs) :
    lostLoop again size stop (fuel + 1) (K ++ hole :: Z) K.length pre = some (segs, K.length, .recved, false) := by
  have hget : (K ++ hole :: Z)[K.length]? = some hole := by simp
  have hnp : hole.color ≠ .pending := by rw [hcol]; decide
  rw [lostLoop, hget]
  simp only [Nat.compare_eq_lt.mpr hlt, debugAssert_of hnp, some_bind, if_pos hcol, hagain]
  rw [hcol]

/-- No received interval starts before `stop`. -/
lemma mayLostFrom_behind (hstop : stop ≤ size) (hfuel : M.length ≤ fuel) (hM : Losable stop M) (hinc : Increasing (M ++ Z))
    (hb : ∀ z ∈ Z, z.offset ≤ size) (hZ : ∀ z ∈ Z, stop ≤ z.offset) (hlen : (K ++ (M ++ Z)).length < usizeMax) :
    ∃ rest', mayLostFrom size stop (fuel + 1) (K ++ (M ++ Z)) K.length = some (K ++ rest') ∧
      LostSuffix size stop (M ++ Z) rest' := by
  have hlenP : (K ++ lostMarks M ++ Z).length < usizeMax := by
    rw [List.length_append, length_append_lostMarks, ← List.length_append, List.append_assoc]
    exact hlen
  have hpass := lostLoop_passed (mayLostFrom size stop fuel) size K Z hM hfuel
  obtain ⟨Z₁, Z₂, atEnd, rfl, hscan, hrun, hat, hend⟩ := scanEnd_spec (K ++ lostMarks M) (increasing_append.mp hinc).2.1
    hlenP hb hZ .lost (lastColor .recved M) (decide (lastColor .recved M = .flighting))
  rw [(lostLoop_behind _ hstop (forall_getElem?_append hZ)).1, hscan] at hpass
  cases M with
  | nil =>
    obtain rfl : atEnd = false := by
      cases atEnd with
      | false => rfl
      | true => simp at hat
    cases Z₁ with
    | nil =>
      refine ⟨Z₂, ?_, ?_⟩
      · simpa [lostMarks] using mayLostFrom_of_stay hpass (by simp [lostMarks])
      · cases Z₂ with
        | nil => exact ⟨fun b _ => by simp [Color.lose], by simp [Increasing], by simp, by simp⟩
        | cons z Z₂ =>
          have hinc' : Increasing (z :: ([] ++ Z₂)) := hinc
          exact LostSuffix.behind hinc' (hZ z (by simp)) (by simp)
    | cons z Z₁ =>
      refine ⟨z :: Z₂, ?_, LostSuffix.behind (by simpa using hinc) (hZ z (by simp)) ?_⟩
      · simpa using mayLostFrom_of_gap hpass (K := K ++ [z]) (D := Z₁) (Z := Z₂)
          ⟨by simp [lostMarks], by simp, by simp [lostMarks]; omega⟩
      · intro s hs
        exact ⟨hrun s (by simp [hs]), hrun z (by simp)⟩
  | cons f M =>
    have hpre : lastColor .recved (f :: M) = .flighting ∨ lastColor .recved (f :: M) = .lost := by
      have hM' : Losable stop M := fun s hs => hM s (by simp [hs])
      rw [lastColor_cons]
      exact hM'.lastColor_eq (hM.color_eq (by simp))
    refine ⟨_, ?_, LostSuffix.finish hM hinc (hend fun hno => hpre.resolve_left (of_decide_eq_false hno))⟩
    have hgap : Gap (K ++ lostMarks (f :: M) ++ (Z₁ ++ Z₂)) (K.length + 1) ((K ++ lostMarks (f :: M)).length + Z₁.length)
        (K ++ [⟨f.offset, .lost⟩]) (lostMarks M ++ Z₁) Z₂ :=
      ⟨by simp [lostMarks], by simp, by simp [lostMarks]; omega⟩
    rw [mayLostFrom_of_gap hpass hgap, List.append_assoc, List.append_assoc, List.append_assoc]

/-- The scan stops at a received interval, behind which the next call goes on. -/
lemma mayLostFrom_hole {hole : State} (hfuel : M.length ≤ fuel) (hM : Losable stop M) (hinc : Increasing (M ++ hole :: Z))
    (hlt : hole.offset < stop) (hcol : hole.color = .recved)
    (hagain : mayLostFrom size stop fuel (K ++ lostMarks M ++ [hole] ++ Z) (K ++ lostMarks M ++ [hole]).length =
      some (K ++ lostMarks M ++ [hole] ++ Z')) (hsuffix : LostSuffix size stop Z Z') :
    ∃ rest', mayLostFrom size stop (fuel + 1) (K ++ (M ++ hole :: Z)) K.length = some (K ++ rest') ∧
      LostSuffix size stop (M ++ hole :: Z) rest' := by
  have hpass := lostLoop_passed (mayLostFrom size stop fuel) size K (hole :: Z) hM hfuel
  have hhole := LostSuffix.hole (increasing_append.mp hinc).2.1 hlt hcol hsuffix
  rw [lostLoop_hole hlt hcol (mayLostFrom_append hagain)] at hpass
  cases M with
  | nil =>
    refine ⟨hole :: Z', ?_, hhole⟩
    simpa [lostMarks] using mayLostFrom_of_stay hpass (by simp [lostMarks])
  | cons f M =>
    refine ⟨_, ?_, LostSuffix.lead hM hinc hlt hhole⟩
    have hgap : Gap (K ++ lostMarks (f :: M) ++ hole :: Z') (K.length + 1) (K ++ lostMarks (f :: M)).length
        (K ++ [⟨f.offset, .lost⟩]) (lostMarks M) (hole :: Z') := ⟨by simp [lostMarks], by simp, by simp [lostMarks]; omega⟩
    rw [mayLostFrom_of_gap hpass hgap, List.append_assoc, List.append_assoc]
    rfl

/-- `may_lost_from` loses the bytes before `stop` behind the states `K`. -/
theorem mayLostFrom_suffix (size stop : Nat) (hstop : stop ≤ size) (fuel : Nat) (K rest : List State)
    (hfuel : rest.length < fuel) (hinc : Increasing rest) (hb : ∀ s ∈ rest, s.offset ≤ size)
    (hsent : ∀ s ∈ rest, s.offset < stop → s.color ≠ .pending) (hlen : (K ++ rest).length < usizeMax) :
    ∃ rest', mayLostFrom size stop fuel (K ++ rest) K.length = some (K ++ rest') ∧
      LostSuffix size stop rest rest' := by
  induction fuel generalizing K rest with
  | zero => simp at hfuel
  | succ fuel ih =>
    obtain ⟨M, Z, rfl, hM, hZ⟩ := lose_split stop rest hinc hsent
    rw [List.length_append] at hfuel
    rcases hZ with hZ | ⟨hole, Z, rfl, hlt, hcol⟩
    · exact mayLostFrom_behind hstop (by omega) hM hinc (fun z hz => hb z (by simp [hz])) hZ hlen
    · rw [List.length_cons] at hfuel
      have hincZ := (increasing_append.mp hinc).2.1
      obtain ⟨Z', hagain, hsuffix⟩ := ih (K ++ lostMarks M ++ [hole]) Z (by omega) (List.pairwise_cons.mp hincZ).2
        (fun s hs => hb s (by simp [hs])) (fun s hs => hsent s (by simp [hs])) (by simpa [lostMarks] using hlen)
      exact mayLostFrom_hole (by omega) hM hinc hlt hcol hagain hsuffix

/-! ### The whole operation -/

/-- Losing what lies behind received bytes. -/
theorem Wf.repaint_suffix (hm : m.Wf) (hr : range.SentIn m) {rest rest' : List State} (hsegs : m.segs = K ++ rest)
    (hK : ∀ k ∈ K, k.offset ≤ range.start) (hlast : lastColor .recved K = .recved)
    (hrest : ∀ s ∈ rest, range.start < s.offset) (h : LostSuffix m.size range.stop rest rest') :
    Repaint m ⟨K ++ rest', m.size⟩ range Color.lose := by
  have hle := hr.le
  have hinc := hm.increasing
  rw [hsegs] at hinc
  have hrest' : ∀ s ∈ rest', range.start < s.offset := by
    intro s hs
    rcases h.offsets s hs with ⟨t, ht, hts⟩ | ⟨hs, hsize, t, ht, htlt⟩
    · rw [← hts]
      exact hrest t ht
    · have := hrest t ht
      omega
  have hIncN : Increasing (K ++ rest') := by
    refine increasing_append.mpr ⟨(increasing_append.mp hinc).1, h.increasing, fun k hk s hs => ?_⟩
    exact lt_of_le_of_lt (hK k hk) (hrest' s hs)
  have hoff : ∀ s ∈ K ++ rest', (∃ t ∈ m.segs, t.offset = s.offset) ∨ s.offset = range.start ∨
      s.offset = range.stop ∧ range.stop < m.size := by
    intro s hs
    rcases List.mem_append.mp hs with hs | hs
    · exact .inl ⟨s, by simp [hsegs, hs], rfl⟩
    · rcases h.offsets s hs with ⟨t, ht, hts⟩ | ⟨hs, hsize, -⟩
      · exact .inl ⟨t, by simp [hsegs, ht], hts⟩
      · exact .inr (.inr ⟨hs, hsize⟩)
  have hpend : ∀ s : State, s.color = .pending → (s ∈ K ++ rest' ↔ s ∈ m.segs) := by
    intro s hs
    rw [hsegs, List.mem_append, List.mem_append, h.pending s hs]
  obtain ⟨hwf, hsent⟩ := hm.rebuild hIncN hoff hle hr.stop_le hpend
  refine ⟨hwf, rfl, hsent, fun b hb => ?_, hoff⟩
  unfold colorAt
  rw [hsegs, paintAt_append, paintAt_append]
  by_cases hbs : range.start ≤ b
  · have hmem : range.Mem b ↔ b < range.stop := and_iff_right hbs
    have hground : paintAt .recved K b = .recved := by
      rw [paintAt_of_le (fun k hk => (hK k hk).trans hbs), hlast]
    rw [hground, h.color b hb]
    simp only [hmem]
  · have hmem : ¬range.Mem b := fun h => hbs h.1
    have hnew : paintAt (paintAt .recved K b) rest' b = paintAt .recved K b :=
      paintAt_of_lt (fun s hs => by have := hrest' s hs; omega)
    have hold : paintAt (paintAt .recved K b) rest b = paintAt .recved K b :=
      paintAt_of_lt (fun s hs => by have := hrest s hs; omega)
    rw [if_neg hmem, hnew, hold]

/-- Recolouring behind a state and then before it recolours both. -/
lemma Repaint.join {m₁ m₂ : BufMap} {start mid : Nat} {c c' : Color → Color} (h₁ : Repaint m m₁ ⟨mid, stop⟩ c)
    (h₂ : Repaint m₁ m₂ ⟨start, mid⟩ c') (hle : start ≤ mid) (hmid : mid ≤ stop) (hmem : ∃ t ∈ m.segs, t.offset = mid)
    (hlow : ∀ b, Range.Mem ⟨start, mid⟩ b → c' (m.colorAt b) = c (m.colorAt b)) : Repaint m m₂ ⟨start, stop⟩ c where
  wf := h₂.wf
  size_eq := h₂.size_eq.trans h₁.size_eq
  sent_eq := h₂.sent_eq.trans h₁.sent_eq
  color b hb := by
    have hiff : Range.Mem ⟨start, stop⟩ b ↔ Range.Mem ⟨start, mid⟩ b ∨ Range.Mem ⟨mid, stop⟩ b := by
      unfold Range.Mem
      simp only
      omega
    rw [h₂.color b (by rwa [h₁.size_eq]), h₁.color b hb]
    by_cases hb₁ : Range.Mem ⟨start, mid⟩ b
    · have hb₂ : ¬Range.Mem ⟨mid, stop⟩ b := fun h => absurd h.1 (not_le.mpr hb₁.2)
      rw [if_pos hb₁, if_neg hb₂, if_pos (hiff.mpr (.inl hb₁)), hlow b hb₁]
    · simp only [hiff, hb₁, if_false, false_or]
  offsets s hs := by
    obtain ⟨u, hu, hmid⟩ := hmem
    rcases h₂.offsets s hs with ⟨t, ht, hts⟩ | h | ⟨h, -⟩
    · rcases h₁.offsets t ht with ⟨v, hv, hvt⟩ | h | h
      · exact .inl ⟨v, hv, hvt.trans hts⟩
      · exact .inl ⟨u, hu, hmid.trans (h.symm.trans hts)⟩
      · rw [← hts, ← h₁.size_eq]
        exact .inr (.inr ⟨h.1, h₁.size_eq ▸ h.2⟩)
    · exact .inr (.inl h)
    · exact .inl ⟨u, hu, hmid.trans h.symm⟩

section

variable {A X : List State}

lemma Cut.offset_le (h : Cut m i A X Z) : ∀ s ∈ A ++ X, s.offset ≤ i :=
  List.forall_mem_append.mpr ⟨fun s hs => (h.before s hs).le, fun s hs => (h.hit s hs).le⟩

lemma Cut.lose_colorAt (h : Cut m i A X (M ++ Z)) (hM : Losable stop M)
    (hlose : lastColor .recved (A ++ X) = .flighting ∨ lastColor .recved (A ++ X) = .lost) {b : Nat} (hb : i ≤ b)
    (hbZ : ∀ z ∈ Z, b < z.offset) : (m.colorAt b).lose = .lost := by
  have hcol : m.colorAt b = paintAt (lastColor .recved (A ++ X)) M b := by
    rw [colorAt, h.segs, ← List.append_assoc, paintAt_append, paintAt_of_lt hbZ, paintAt_append,
      paintAt_of_le (fun s hs => (h.offset_le s hs).trans hb)]
  rw [hcol, hM.lose_paintAt hlose]

/-- The range reaches past the received interval `hole`: what lies behind it is lost, and so are the bytes before it. -/
lemma Cut.repaint_hole {H : List State} {hole : State} (hm : m.Wf) (hr : range.SentIn m)
    (h : Cut m range.start A X (M ++ hole :: Z)) (hM : Losable range.stop M)
    (hlose : lastColor .recved (A ++ X) = .flighting ∨ lastColor .recved (A ++ X) = .lost) (hlt : hole.offset < range.stop)
    (hcol : hole.color = .recved) (hH : ScanStart range.start .lost A H) (hsuffix : LostSuffix m.size range.stop Z Z') :
    Repaint m ⟨H ++ hole :: Z', m.size⟩ range Color.lose := by
  have hstop := hr.stop_le
  have hhole := h.behind hole (by simp)
  obtain ⟨-, hincZ, hincMZ⟩ := increasing_append.mp (increasing_append.mp (h.segs ▸ hm.increasing)).2.1
  -- first what lies behind the received interval, then the bytes before it
  have hsecond : Repaint m ⟨A ++ X ++ (M ++ [hole]) ++ Z', m.size⟩ ⟨hole.offset, range.stop⟩ Color.lose := by
    have hr₂ : Range.SentIn ⟨hole.offset, range.stop⟩ m := ⟨hlt.le, hstop, .inl hlt⟩
    have hsegs₂ : m.segs = A ++ X ++ (M ++ [hole]) ++ Z := by rw [h.segs]; simp
    refine hm.repaint_suffix hr₂ hsegs₂ (List.forall_mem_append.mpr ⟨fun k hk => (h.offset_le k hk).trans hhole.le,
      List.forall_mem_append.mpr ⟨fun k hk => (hincMZ k hk hole (by simp)).le, by simp⟩⟩) ?_
      (List.pairwise_cons.mp hincZ).1 hsuffix
    rw [← List.append_assoc, lastColor_append]
    exact hcol
  set m₁ : BufMap := ⟨A ++ X ++ (M ++ [hole]) ++ Z', m.size⟩ with hm₁
  have hr₁ : Range.SentIn ⟨range.start, hole.offset⟩ m₁ :=
    ⟨hhole.le, hsecond.sent_eq ▸ (hlt.le.trans hstop), .inl hhole⟩
  have hbehind : ∀ z ∈ [] ++ hole :: Z', hole.offset ≤ z.offset :=
    List.forall_mem_cons.mpr ⟨le_rfl, fun z hz => ((increasing_append.mp hsecond.wf.increasing).2.2 _ (by simp) z hz).le⟩
  have hend₁ : ScanEnd m₁.size hole.offset .lost (lastColor .recved (A ++ (X ++ M))) [] (hole :: Z') false :=
    ⟨hbehind, by simp, by simp, fun _ => .inr (.inr ⟨hole, Z', rfl, rfl⟩)⟩
  have hin : ∀ x ∈ X ++ M, range.start ≤ x.offset ∧ (x.offset < hole.offset ∨ x.offset = m₁.size ∧ hole.offset = m₁.size) :=
    List.forall_mem_append.mpr ⟨fun x hx => ⟨(h.hit x hx).ge, .inl (h.hit x hx ▸ hhole)⟩,
      fun x hx => ⟨(h.behind x (by simp [hx])).le, .inl (hincMZ x hx hole (by simp))⟩⟩
  have hfirst := hsecond.wf.repaint hr₁ (by decide) (by simp [hm₁]) h.before hin
    (fun z hz => lt_of_lt_of_le hhole (hbehind z hz)) hH hend₁
  simp only [Bool.false_eq_true, if_false, List.append_nil] at hfirst
  refine hsecond.join hfirst hhole.le hlt.le ⟨hole, by simp [h.segs], rfl⟩ fun b hb => ?_
  exact (h.lose_colorAt hM hlose hb.1 fun z hz => lt_of_lt_of_le hb.2 (hincZ.forall_le z hz)).symm

/-- From any of its starting cases, `may_loss` loses the range. -/
theorem Cut.lossFrom_repaint {B : List State} (hm : m.Wf) (hr : range.SentIn m) (atStart : Bool)
    (h : Cut m range.start A X B) (hlen : (K ++ D ++ B).length = m.segs.length) (hpre : pre = lastColor .recved (A ++ X))
    (hlose : pre = .flighting ∨ pre = .lost)
    (hH : ScanStart range.start .lost A (K ++ if atStart then [⟨range.start, .lost⟩] else [])) :
    ∃ m', lossFrom m (K ++ D ++ B) range K.length atStart (K ++ D).length pre = some m' ∧
      Repaint m m' range Color.lose := by
  have hstop := hr.stop_le
  have hsize := hm.sent_le
  have hlt := hm.length_lt
  rw [← hlen] at hlt
  have hmB : ∀ s ∈ B, s ∈ m.segs := fun s hs => h.segs ▸ List.mem_append_right _ hs
  have hsent : ∀ s ∈ B, s.offset < range.stop → s.color ≠ .pending := fun s hs h =>
    hm.not_pending_of_lt (hmB s hs) (.inl (by omega))
  have hincB := (increasing_append.mp (h.segs ▸ hm.increasing)).2.1
  obtain ⟨M, Z, rfl, hM, hZ⟩ := lose_split range.stop B hincB hsent
  obtain ⟨-, hincZ, -⟩ := increasing_append.mp hincB
  have hpass : lossLoop m.size range.stop (K ++ D ++ (M ++ Z)) ((K ++ D ++ (M ++ Z)).length + 1) (K ++ D).length pre =
      lossLoop m.size range.stop (K ++ D ++ M ++ Z) ((K ++ D).length + Z.length + 1) (K ++ D ++ M).length
        (lastColor pre M) := by
    rw [← lossLoop_pass _ _ _ _ _ _ _ hM]
    congr 1
    simp only [List.length_append]
    omega
  rcases hZ with hZ | ⟨hole, Z, rfl, hholelt, hcol⟩
  · have hlast : lastColor pre M = lastColor .recved (A ++ X ++ M) := by rw [hpre, ← lastColor_append]
    obtain ⟨segs, hsplice, hpaint⟩ := h.splice_repaint hm hr (decide (lastColor pre M = .flighting))
      (by decide) hlen (fun s hs => (hM s hs).1) hZ
      (fun hno => hlast ▸ (hM.lastColor_eq hlose).resolve_left (of_decide_eq_false hno)) hH
    refine ⟨_, ?_, { hpaint with color := fun b hb => ?_ }⟩
    · rw [lossFrom, hpass, (lostLoop_behind (fun _ _ => none) (by omega) (forall_getElem?_append hZ)).2, hlast]
      rw [hlast] at hsplice
      simp only [some_bind, hsplice]
    · rw [hpaint.color b hb]
      by_cases hbr : range.Mem b
      · rw [if_pos hbr, if_pos hbr,
          h.lose_colorAt hM (hpre ▸ hlose) hbr.1 (fun z hz => lt_of_lt_of_le hbr.2 (hZ z hz))]
      · rw [if_neg hbr, if_neg hbr]
  · obtain ⟨Z', hagain, hsuffix⟩ := mayLostFrom_suffix m.size range.stop (by omega)
      ((K ++ D ++ M ++ hole :: Z).length + 1) (K ++ D ++ M ++ [hole]) Z (by simp; omega)
      (List.pairwise_cons.mp hincZ).2 (fun s hs => hm.bounded s (hmB s (by simp [hs])))
      (fun s hs => hsent s (by simp [hs])) (by simpa using hlt)
    have hloop : lossLoop m.size range.stop (K ++ D ++ M ++ hole :: Z)
        ((K ++ D).length + (hole :: Z).length + 1) (K ++ D ++ M).length (lastColor pre M) =
        some (K ++ D ++ M ++ hole :: Z', (K ++ D ++ M).length, lastColor pre M, false) := by
      have hget : (K ++ D ++ M ++ hole :: Z)[(K ++ D ++ M).length]? = some hole := by simp
      have hnp : hole.color ≠ .pending := by rw [hcol]; decide
      rw [lossLoop, hget]
      simp only [Nat.compare_eq_lt.mpr hholelt, debugAssert_of hnp, some_bind, if_pos hcol, mayLostFrom_append hagain]
    have hgap : Gap (K ++ D ++ M ++ hole :: Z') K.length (K ++ D ++ M).length K (D ++ M) (hole :: Z') :=
      ⟨by simp, rfl, by simp⟩
    refine ⟨_, ?_, h.repaint_hole hm hr hM (hpre ▸ hlose) hholelt hcol hH hsuffix⟩
    rw [lossFrom, hpass, hloop]
    simp only [some_bind]
    rw [splice_gap hgap]
    simp

end

/-- `may_loss` of a sent range does not panic and loses exactly the bytes of it that are in flight. -/
theorem Wf.mayLoss_repaint (hm : m.Wf) (hr : range.SentIn m) :
    ∃ m', m.mayLoss range = some m' ∧ Repaint m m' range Color.lose := by
  -- the range starts in received bytes
  have hrecved : ∀ {A X B}, Cut m range.start A X B → lastColor .recved (A ++ X) = .recved →
      ∃ m', (mayLostFrom m.size range.stop (m.segs.length + 1) m.segs (A ++ X).length >>= fun segs =>
        some ⟨segs, m.size⟩) = some m' ∧ Repaint m m' range Color.lose := by
    intro A X B hcut hlast
    have hstop := hr.stop_le
    have hsize := hm.sent_le
    have hmB : ∀ s ∈ B, s ∈ m.segs := fun s hs => hcut.segs ▸ List.mem_append_right _ hs
    obtain ⟨rest', hres, hsuffix⟩ := mayLostFrom_suffix m.size range.stop (by omega) (m.segs.length + 1) (A ++ X) B
      (by simp [hcut.segs]; omega) (increasing_append.mp (hcut.segs ▸ hm.increasing)).2.1
      (fun s hs => hm.bounded s (hmB s hs)) (fun s hs h => hm.not_pending_of_lt (hmB s hs) (.inl (by omega)))
      (hcut.segs ▸ hm.length_lt)
    rw [← hcut.segs] at hres
    rw [hres]
    exact ⟨_, rfl, hm.repaint_suffix hr hcut.segs hcut.offset_le hlast hcut.behind hsuffix⟩
  unfold mayLoss
  cases hsearch : binarySearchBy Mark.offset m.segs range.start with
  | ok i =>
    obtain ⟨A, x, B, hcut, rfl, hget, hxs, hpre⟩ := hm.cut_of_ok hr hsearch
    have hx := hcut.hit x (by simp)
    simp only [hget, debugAssert_of hxs, some_bind]
    by_cases hrec : x.color = .recved
    · rw [if_pos hrec]
      simpa using hrecved hcut (hpre.symm.trans hrec)
    · rw [if_neg hrec]
      by_cases hflight : x.color = .flighting
      · have hset : m.segs.set A.length ⟨x.offset, .lost⟩ = A ++ ⟨range.start, .lost⟩ :: B := by
          rw [hcut.segs, hx]
          simp
        obtain ⟨K, D, hsplit, hlenK, hstart, hH⟩ := ScanStart.recolor B (by decide : Color.lost ≠ .pending)
          hcut.increasing hcut.before (fun a ha => hcut.sent a (by simp [ha]))
        rw [if_pos hflight, hset, hstart, ← hlenK, hsplit]
        exact hcut.lossFrom_repaint hm hr _ (by rw [← hsplit, hcut.segs]; simp) hpre (.inl hflight) (by simpa using hH)
      · have hlost := (Color.flighting_or_lost hxs hrec).resolve_left hflight
        have hH : ScanStart range.start .lost A (A ++ [x]) := by
          have hx' : x = ⟨range.start, .lost⟩ := by rw [← hx, ← hlost]
          rw [hx']
          exact hcut.insert (by decide)
        have hfinish := hcut.lossFrom_repaint (K := A ++ [x]) (D := []) hm hr false (by simp [hcut.segs])
          hpre (.inr hlost) (by simpa using hH)
        rw [List.append_nil, ← hcut.segs, List.length_append] at hfinish
        rw [if_neg hflight]
        exact hfinish
  | error i =>
    obtain ⟨rfl, hcut⟩ | ⟨A, s, B, rfl, hcut, hget, hss, hpre⟩ := hm.cut_of_error hr hsearch
    · exact hrecved hcut rfl
    · simp only [hget, debugAssert_of hss, some_bind]
      by_cases hrec : s.color = .recved
      · rw [if_pos hrec]
        simpa using hrecved hcut (by simpa using hpre.symm.trans hrec)
      · have hlose := Color.flighting_or_lost hss hrec
        have hfinish := hcut.lossFrom_repaint (K := A ++ [s]) (D := []) hm hr (decide (s.color = .flighting))
          (by simp [hcut.segs]) (by simpa using hpre) hlose
        have hsegs : A ++ [s] ++ [] ++ B = m.segs := by rw [hcut.segs]
        rw [hsegs, List.append_nil, List.length_append] at hfinish
        rw [if_neg hrec]
        apply hfinish
        rcases hlose with hc | hc
        · simpa [hc] using hcut.insert (by decide)
        · simpa [hc] using hcut.keep (hpre.symm.trans hc)

end BufMap

end Dquic
