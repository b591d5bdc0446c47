import Dquic.Keys.Short

/-!
# Generations in the ring

The ring holds consecutive generations, and the candidate comes after them.
-/

namespace Dquic

lemma keyPhase_eq (g : Nat) : keyPhase g = decide (g % 2 = 1) := by
  unfold keyPhase
  rw [Nat.and_one_is_mod]
  rcases Nat.mod_two_eq_zero_or_one g with h | h
  · rw [h]
    rfl
  · rw [h]
    rfl

lemma keyPhase_succ_ne (g : Nat) : keyPhase (g + 1) ≠ keyPhase g := by
  rw [keyPhase_eq, keyPhase_eq]
  intro h
  rw [decide_eq_decide] at h
  omega

section Rposition

variable {α : Type} {p : α → Bool}

variable {l : List α}

lemma rposition_eq_none (h : rposition p l = none) : ∀ a ∈ l, p a = false := by
  induction l with
  | nil => simp
  | cons b l ih =>
    unfold rposition at h
    split at h
    · cases h
    · rename_i hl
      split_ifs at h with hb
      intro a ha
      rcases List.mem_cons.mp ha with rfl | ha
      · exact Bool.eq_false_iff.mpr hb
      · exact ih hl a ha

lemma rposition_eq_some {i : Nat} (h : rposition p l = some i) :
    ∃ a, l[i]? = some a ∧ p a ∧ ∀ j b, i < j → l[j]? = some b → p b = false := by
  induction l generalizing i with
  | nil => cases h
  | cons a l ih =>
    unfold rposition at h
    split at h
    · rename_i k hk
      cases h
      obtain ⟨b, hb, hpb, hafter⟩ := ih hk
      refine ⟨b, by simpa using hb, hpb, fun j c hj hc => ?_⟩
      obtain ⟨j, rfl⟩ : ∃ n, j = n + 1 := ⟨j - 1, by omega⟩
      exact hafter j c (by omega) (by simpa using hc)
    · rename_i hl
      split_ifs at h with ha
      cases h
      refine ⟨a, rfl, ha, fun j c hj hc => ?_⟩
      obtain ⟨j, rfl⟩ : ∃ n, j = n + 1 := ⟨j - 1, by omega⟩
      exact rposition_eq_none hl c (List.mem_of_getElem? (by simpa using hc))

end Rposition

namespace PacketKeyRing

variable {keys : List PacketKeyState} {g index now pn : Nat} {result : Except QuicError Unit}

lemma expireFront_eq (now : Nat) (hpos : 0 < keys.length) :
    ∃ k < keys.length, expireFront now keys = keys.drop k ∧ ∀ s ∈ keys.take k, s.expired now := by
  fun_induction expireFront now keys with
  | case1 s t rest hs ih =>
    obtain ⟨k, hk, heq, hexpired⟩ := ih (by simp)
    refine ⟨k + 1, by simpa using hk, heq, fun u hu => ?_⟩
    rcases List.mem_cons.mp hu with rfl | hu
    · exact hs
    · exact hexpired u hu
  | case2 s t rest hs | case3 keys hshort => exact ⟨0, hpos, rfl, by simp⟩

lemma mem_expireFront_or_expired (now : Nat) {s : PacketKeyState} (hs : s ∈ keys) :
    s ∈ expireFront now keys ∨ s.expired now := by
  obtain ⟨k, -, heq, hexpired⟩ := expireFront_eq now (List.length_pos_of_mem hs)
  rw [← List.take_append_drop k keys, List.mem_append] at hs
  rcases hs with hs | hs
  · exact Or.inr (hexpired s hs)
  · rw [heq]
    exact Or.inl hs

def oldest (r : PacketKeyRing) : Nat := (r.keys.head?.map (·.generation)).getD 0

def upcoming (r : PacketKeyRing) : Nat := r.oldest + r.keys.length

/-- One to three consecutive generations, and the candidate after them. -/
structure Consecutive (r : PacketKeyRing) : Prop where
  generations : r.keys.map (·.generation) = List.range' r.oldest r.keys.length
  pos : 1 ≤ r.keys.length
  le : r.keys.length ≤ 3
  next : ∀ g, r.next = some g → g = r.upcoming

lemma consecutive_of (next : Option Nat) (canUpdate : Bool) {n : Nat} (hlen : keys.length = n) (hpos : 1 ≤ n)
    (hle : n ≤ 3) (hmap : keys.map (·.generation) = List.range' g n) (hnext : ∀ c, next = some c → c = g + n) :
    (⟨keys, next, canUpdate⟩ : PacketKeyRing).Consecutive ∧
      (⟨keys, next, canUpdate⟩ : PacketKeyRing).upcoming = g + n := by
  subst hlen
  have hold : (⟨keys, next, canUpdate⟩ : PacketKeyRing).oldest = g := by
    cases keys with
    | nil => simp at hpos
    | cons s rest =>
      rw [List.length_cons, List.range'_succ, List.map_cons] at hmap
      exact (List.cons.inj hmap).1
  have hup : (⟨keys, next, canUpdate⟩ : PacketKeyRing).upcoming = g + keys.length := by rw [upcoming, hold]
  refine ⟨⟨?_, hpos, hle, ?_⟩, hup⟩
  · rw [hold]
    exact hmap
  · rw [hup]
    exact hnext

lemma initial_consecutive : initial.Consecutive := by
  refine (consecutive_of none false (g := 0) (n := 1) rfl le_rfl (by decide) rfl ?_).1
  intro n hn
  cases hn

namespace Consecutive

variable {r : PacketKeyRing}

variable {s : PacketKeyState}

lemma generation_eq (h : r.Consecutive) {i : Nat} (hi : r.keys[i]? = some s) : s.generation = r.oldest + i := by
  have hmap : (r.keys.map (·.generation))[i]? = (List.range' r.oldest r.keys.length)[i]? := by rw [h.generations]
  rw [List.getElem?_map, hi, List.getElem?_range' (List.getElem?_eq_some_iff.mp hi).1] at hmap
  simpa using hmap

lemma mem_bounds (h : r.Consecutive) (hs : s ∈ r.keys) : r.oldest ≤ s.generation ∧ s.generation < r.upcoming := by
  have hmem : s.generation ∈ r.keys.map (·.generation) := List.mem_map.mpr ⟨s, hs, rfl⟩
  rw [h.generations, List.mem_range'_1] at hmem
  exact hmem

lemma exists_state (h : r.Consecutive) (hge : r.oldest ≤ g) (hlt : g < r.upcoming) :
    ∃ s, r.keys[g - r.oldest]? = some s ∧ s.generation = g := by
  have hi : g - r.oldest < r.keys.length := by
    unfold upcoming at hlt
    omega
  refine ⟨r.keys[g - r.oldest], List.getElem?_eq_getElem hi, ?_⟩
  rw [h.generation_eq (List.getElem?_eq_getElem hi)]
  omega

lemma back (h : r.Consecutive) : ∃ s, r.keys.getLast? = some s ∧ s.generation + 1 = r.upcoming := by
  have hlen := h.pos
  have hi : r.keys.length - 1 < r.keys.length := by omega
  refine ⟨r.keys[r.keys.length - 1], ?_, ?_⟩
  · rw [List.getLast?_eq_getElem?]
    exact List.getElem?_eq_getElem hi
  · rw [h.generation_eq (List.getElem?_eq_getElem hi), upcoming]
    omega

lemma keys_drop (h : r.Consecutive) (k : Nat) :
    (r.keys.drop k).map (·.generation) = List.range' (r.oldest + k) (r.keys.length - k) := by
  rw [List.map_drop, h.generations, List.drop_range']
  simp

end Consecutive

/-! ### What an operation may do -/

/-- Generations of `r` that stay have received the same, and the others are new. -/
structure Advances (r r' : PacketKeyRing) : Prop where
  consecutive : r'.Consecutive
  kept : ∀ s ∈ r'.keys, (∃ t ∈ r.keys, t.generation = s.generation ∧ t.received = s.received) ∨
    (r.upcoming ≤ s.generation ∧ s.received = none)
  upcoming_le : r.upcoming ≤ r'.upcoming
  next : ∀ g, r.next = some g → g < r'.upcoming ∨ r'.next = some g

namespace Advances

variable {r r' r'' : PacketKeyRing}

lemma of_keys (h : r.Consecutive) {next : Option Nat} {canUpdate : Bool}
    (hnext : next = r.next ∨ (r.next = none ∧ next = some r.upcoming)) :
    Advances r ⟨r.keys, next, canUpdate⟩ where
  consecutive := by
    refine ⟨h.generations, h.pos, h.le, fun g hg => ?_⟩
    rcases hnext with rfl | ⟨-, rfl⟩
    · exact h.next g hg
    · exact (Option.some.inj hg).symm
  kept s hs := Or.inl ⟨s, hs, rfl, rfl⟩
  upcoming_le := le_rfl
  next g hg := by
    rcases hnext with rfl | ⟨hnone, -⟩
    · exact Or.inr hg
    · rw [hnone] at hg
      cases hg

protected lemma refl (h : r.Consecutive) : Advances r r := of_keys h (Or.inl rfl)

lemma trans (h : Advances r r') (h' : Advances r' r'') : Advances r r'' where
  consecutive := h'.consecutive
  kept s hs := by
    rcases h'.kept s hs with ⟨t, ht, hgen, hrecv⟩ | ⟨hle, hnone⟩
    · rw [← hgen, ← hrecv]
      exact h.kept t ht
    · exact Or.inr ⟨h.upcoming_le.trans hle, hnone⟩
  upcoming_le := h.upcoming_le.trans h'.upcoming_le
  next g hg := by
    rcases h.next g hg with hlt | hnext
    · exact Or.inl (hlt.trans_le h'.upcoming_le)
    · exact h'.next g hnext

end Advances

variable {r r' : PacketKeyRing}

lemma expireFront_advances (h : r.Consecutive) (now : Nat) :
    Advances r { r with keys := expireFront now r.keys } ∧
      ({ r with keys := expireFront now r.keys } : PacketKeyRing).upcoming = r.upcoming := by
  obtain ⟨k, hk, heq, -⟩ := expireFront_eq now h.pos
  rw [heq]
  have hle := h.le
  have hcand : ∀ c, r.next = some c → c = r.oldest + k + (r.keys.length - k) := by
    intro c hc
    rw [h.next c hc, upcoming]
    omega
  obtain ⟨hcons, hup⟩ := consecutive_of r.next r.canUpdate List.length_drop (by omega) (by omega) (h.keys_drop k) hcand
  have hup' : r.oldest + k + (r.keys.length - k) = r.upcoming := by
    unfold upcoming
    omega
  rw [hup'] at hup
  exact ⟨⟨hcons, fun s hs => Or.inl ⟨s, List.mem_of_mem_drop hs, rfl, rfl⟩, hup.ge, fun g hg => Or.inr hg⟩, hup⟩

lemma nextKeys_spec (h : r.Consecutive) : ∃ result r', r.nextKeys = some (result, r') ∧ Advances r r' ∧
    r'.keys = r.keys ∧ r'.canUpdate = r.canUpdate ∧
    (∀ g, result = .ok g → g = r.upcoming ∧ r'.next = some g) ∧ (r.upcoming < 2 ^ 64 → result = .ok r.upcoming) := by
  obtain ⟨back, hback, hgen⟩ := h.back
  unfold nextKeys
  split
  · rename_i generation hnext
    have hup := h.next generation hnext
    refine ⟨_, _, rfl, Advances.refl h, rfl, rfl, fun g hg => ?_, fun _ => by rw [hup]⟩
    cases hg
    exact ⟨hup, hnext⟩
  · rename_i hnext
    simp only [hback, some_bind]
    split
    · rename_i generation hadd
      have hup : generation = r.upcoming := (checkedAdd_eq_some hadd).trans hgen
      refine ⟨_, _, rfl, Advances.of_keys h (Or.inr ⟨hnext, by rw [hup]⟩), rfl, rfl, fun g hg => ?_,
        fun _ => by rw [hup]⟩
      cases hg
      exact ⟨hup, rfl⟩
    · rename_i hadd
      refine ⟨_, _, rfl, Advances.refl h, rfl, rfl, fun g hg => (by cases hg), fun hlt => ?_⟩
      rw [checkedAdd_of_lt (by omega)] at hadd
      cases hadd

lemma pushNext_spec (h : r.Consecutive) (hnext : r.next = some g) :
    ∃ r', r.pushNext = some r' ∧ Advances r r' ∧ r'.upcoming = r.upcoming + 1 := by
  have hg := h.next g hnext
  have hpos := h.pos
  have hle := h.le
  -- three generations lose the first
  obtain ⟨k, hk, hkept⟩ : ∃ k ≤ 1, (if r.keys.length = 3 then r.keys.tail else r.keys) = r.keys.drop k ∧
      k < r.keys.length ∧ r.keys.length - k ≤ 2 := by
    split_ifs with hthree
    · exact ⟨1, le_rfl, List.drop_one.symm, by omega, by omega⟩
    · exact ⟨0, by omega, rfl, by omega, by omega⟩
  obtain ⟨hkept, hlt, htwo⟩ := hkept
  have hlen : (r.keys.drop k ++ [(⟨g, none, none⟩ : PacketKeyState)]).length = r.keys.length - k + 1 := by simp
  have hmap : (r.keys.drop k ++ [(⟨g, none, none⟩ : PacketKeyState)]).map (·.generation) =
      List.range' (r.oldest + k) (r.keys.length - k + 1) := by
    have hadd : r.oldest + k + (r.keys.length - k) = g := by
      rw [hg, upcoming]
      omega
    rw [List.map_append, h.keys_drop, List.range'_1_concat, hadd]
    rfl
  obtain ⟨hcons, hup⟩ := consecutive_of none false hlen (by omega) (by omega) hmap (fun c hc => (by cases hc))
  have hup' : r.oldest + k + (r.keys.length - k + 1) = r.upcoming + 1 := by
    unfold upcoming
    omega
  rw [hup'] at hup
  refine ⟨_, ?_, ⟨hcons, fun s hs => ?_, ?_, fun n hn => ?_⟩, hup⟩
  · unfold pushNext
    rw [hnext, hkept]
    rfl
  · rcases List.mem_append.mp hs with hs | hs
    · exact Or.inl ⟨s, List.mem_of_mem_drop hs, rfl, rfl⟩
    · rw [List.mem_singleton.mp hs]
      exact Or.inr ⟨hg.ge, rfl⟩
  · omega
  · rw [hup, h.next n hn]
    exact Or.inl (Nat.lt_succ_self _)

lemma update_spec (h : r.Consecutive) : ∃ result r', r.update = some (result, r') ∧ Advances r r' ∧
    (r.canUpdate → r.upcoming < 2 ^ 64 → result = .ok () ∧ r'.upcoming = r.upcoming + 1) := by
  unfold update
  split_ifs with hcan
  · obtain ⟨result, r₁, hnext, hadv, -, -, hok, hlt⟩ := nextKeys_spec h
    rw [hnext]
    simp only [some_bind]
    cases result with
    | error e => exact ⟨_, _, rfl, hadv, fun _ hup => by cases hlt hup⟩
    | ok g =>
      obtain ⟨hg, hnext₁⟩ := hok g rfl
      obtain ⟨r₂, hpush, hadv₂, hup⟩ := pushNext_spec hadv.consecutive hnext₁
      simp only [hpush]
      refine ⟨_, _, rfl, hadv.trans hadv₂, fun _ _ => ⟨rfl, ?_⟩⟩
      rw [hup, ← hg, hadv.consecutive.next g hnext₁]
  · exact ⟨_, _, rfl, Advances.refl h, fun hcan' => absurd hcan' hcan⟩

lemma update_advances (h : r.Consecutive) (hup : r.update = some (result, r')) : Advances r r' := by
  obtain ⟨_, _, heq, hadv, -⟩ := update_spec h
  rw [heq] at hup
  cases hup
  exact hadv

lemma prepareSealing_advances (h : r.Consecutive) {limit : Nat} {sealedCount : Nat → Nat}
    (hprep : r.prepareSealing limit sealedCount = some (result, r')) : Advances r r' := by
  unfold prepareSealing at hprep
  simp only [Option.bind_eq_bind, Option.bind_eq_some_iff] at hprep
  obtain ⟨back, -, ⟨updated, r₁⟩, hupdate, hrest⟩ := hprep
  have hadv : Advances r r₁ := by
    unfold renew at hupdate
    split_ifs at hupdate with hnear
    · exact update_advances h hupdate
    · cases hupdate
      exact Advances.refl h
  cases updated with
  | error e =>
    cases hrest
    exact hadv
  | ok _ =>
    simp only [Option.bind_eq_some_iff] at hrest
    obtain ⟨back₁, -, hlimit⟩ := hrest
    split_ifs at hlimit with hreached
    · cases hlimit
      exact hadv
    · cases hlimit
      exact hadv

lemma onAck_advances (h : r.Consecutive) (hack : r.onAck g = some r') : Advances r r' := by
  unfold onAck at hack
  simp only [Option.bind_eq_bind, Option.bind_eq_some_iff] at hack
  obtain ⟨back, -, hack⟩ := hack
  cases hack
  split_ifs with hgen
  · exact Advances.of_keys h (Or.inl rfl)
  · exact Advances.refl h

/-- The keys that were selected belong to a generation of the ring or to the candidate. -/
lemma select_advances (h : r.Consecutive) {result : Except QuicError (Option Nat)}
    (hsel : r.select now index = some (result, r')) :
    Advances r r' ∧ ∀ g, result = .ok (some g) → g < r'.upcoming ∨ r'.next = some g := by
  unfold select at hsel
  split_ifs at hsel with hindex
  · obtain ⟨found, r₁, hnext, hadv, -, -, hok, -⟩ := nextKeys_spec h
    rw [hnext] at hsel
    cases hsel
    refine ⟨hadv, fun g hg => Or.inr ?_⟩
    cases found with
    | error e => cases hg
    | ok _ =>
      cases hg
      exact (hok g rfl).2
  · simp only [Option.bind_eq_bind, Option.bind_eq_some_iff] at hsel
    obtain ⟨s, hs, hsel⟩ := hsel
    cases hsel
    refine ⟨Advances.refl h, fun g hg => Or.inl ?_⟩
    split_ifs at hg with hexpired
    · cases hg
    · cases hg
      exact (h.mem_bounds (List.mem_of_getElem? hs)).2

lemma opening_advances (h : r.Consecutive) {phase : Bool} {result : Except QuicError (Option Nat)}
    (hopen : r.opening now pn phase = some (result, r')) :
    Advances r r' ∧ ∀ g, result = .ok (some g) → g < r'.upcoming ∨ r'.next = some g := by
  have hfront := (expireFront_advances h now).1
  have hselect : ∀ index, select { r with keys := expireFront now r.keys } now index = some (result, r') →
      Advances r r' ∧ ∀ g, result = .ok (some g) → g < r'.upcoming ∨ r'.next = some g := by
    intro index hsel
    obtain ⟨hadv, hfound⟩ := select_advances hfront.consecutive hsel
    exact ⟨hfront.trans hadv, hfound⟩
  unfold opening at hopen
  simp only [Option.bind_eq_bind, Option.bind_eq_some_iff] at hopen
  obtain ⟨s, -, hopen⟩ := hopen
  split_ifs at hopen with hphase hseen
  · exact hselect _ hopen
  · cases hopen
    exact ⟨hfront, fun g hg => (by cases hg)⟩
  · exact hselect _ hopen

lemma observe_spec (h : r.Consecutive) (expiry pn : Nat)
    (hfind : (r.keys.findIdx? fun s => s.generation = g) = some index)
    (hkeys : keys = (r.keys.take index).map (fun s => s.age expiry) ++
      (r.keys.drop index).modifyHead fun s => s.observe pn) :
    keys.map (·.generation) = r.keys.map (·.generation) ∧ ∀ s ∈ keys, ∃ t ∈ r.keys, s.generation = t.generation ∧
      s.received = if t.generation = g then (t.observe pn).received else t.received := by
  obtain ⟨hlt, hgen, -⟩ := List.findIdx?_eq_some_iff_getElem.mp hfind
  have hg : g = r.oldest + index := by
    rw [← of_decide_eq_true hgen]
    exact h.generation_eq (List.getElem?_eq_getElem hlt)
  have hother : ∀ i t, r.keys[i]? = some t → i ≠ index → t.generation ≠ g := by
    intro i t ht hne
    rw [h.generation_eq ht]
    omega
  have hdrop : r.keys.drop index = r.keys[index] :: r.keys.drop (index + 1) := List.drop_eq_getElem_cons hlt
  rw [hdrop, List.modifyHead_cons] at hkeys
  subst hkeys
  constructor
  · conv_rhs => rw [← List.take_append_drop index r.keys, hdrop]
    simp only [List.map_append, List.map_cons, List.map_map]
    rfl
  intro s hs
  simp only [List.mem_append, List.mem_map, List.mem_cons] at hs
  rcases hs with ⟨t, ht, rfl⟩ | rfl | hs
  · obtain ⟨i, hi⟩ := List.mem_iff_getElem?.mp ht
    rw [List.getElem?_take] at hi
    split_ifs at hi with hlt'
    exact ⟨t, List.mem_of_mem_take ht, rfl, (if_neg (hother i t hi (by omega))).symm⟩
  · exact ⟨r.keys[index], List.getElem_mem hlt, rfl, (if_pos (of_decide_eq_true hgen)).symm⟩
  · obtain ⟨i, hi⟩ := List.mem_iff_getElem?.mp hs
    rw [List.getElem?_drop] at hi
    exact ⟨s, List.mem_of_mem_drop hs, rfl, (if_neg (hother _ s hi (by omega))).symm⟩

/-- The candidate is installed if it has opened the packet. Then the packet number is counted, unless the generation is gone. -/
lemma onOpened_spec (h : r.Consecutive) {pto : Nat} (hopen : r.onOpened now pn g pto = some r') :
    ∃ r₁, Advances r r₁ ∧ (r.next = some g → g < r₁.upcoming) ∧ r'.Consecutive ∧ r'.upcoming = r₁.upcoming ∧
      r'.next = r₁.next ∧ ∀ s ∈ r'.keys, ∃ t ∈ r₁.keys, s.generation = t.generation ∧
        s.received = if t.generation = g then (t.observe pn).received else t.received := by
  unfold onOpened at hopen
  simp only [Option.bind_eq_bind, Option.bind_eq_some_iff] at hopen
  obtain ⟨r₁, hfirst, hopen⟩ := hopen
  obtain ⟨hadv, hcand⟩ : Advances r r₁ ∧ (r.next = some g → g < r₁.upcoming) := by
    unfold install at hfirst
    split_ifs at hfirst with hnext
    · obtain ⟨r₂, hpush, hadv, hup⟩ := pushNext_spec h hnext
      rw [hpush] at hfirst
      cases hfirst
      have hg := h.next g hnext
      exact ⟨hadv, fun _ => by omega⟩
    · cases hfirst
      exact ⟨Advances.refl h, fun hnext' => absurd hnext' hnext⟩
  have hcons := hadv.consecutive
  refine ⟨r₁, hadv, hcand, ?_⟩
  cases hfind : r₁.keys.findIdx? fun s => s.generation = g with
  | none =>
    rw [hfind] at hopen
    cases hopen
    refine ⟨hcons, rfl, rfl, fun s hs => ⟨s, hs, rfl, ?_⟩⟩
    have hne := List.findIdx?_eq_none_iff.mp hfind s hs
    exact (if_neg (of_decide_eq_false hne)).symm
  | some index =>
    rw [hfind] at hopen
    cases hopen
    obtain ⟨hmap, hstates⟩ := observe_spec hcons (now + 3 * pto) pn hfind rfl
    have hlen := congrArg List.length hmap
    rw [List.length_map, List.length_map] at hlen
    obtain ⟨hcons', hup⟩ := consecutive_of r₁.next r₁.canUpdate hlen hcons.pos hcons.le
      (hmap.trans hcons.generations) hcons.next
    exact ⟨hcons', hup, rfl, hstates⟩

end PacketKeyRing

end Dquic
