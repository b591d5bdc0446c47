import Mathlib.Tactic

/-!
# Rounds over ordered keys

The entries of an ordered map are visited from the largest key down: first the low ones, then the
others.
-/

namespace Dquic.Lib

variable {κ υ : Type*}

/-- The low entries and then the others, each from the largest key down. -/
def rotate (low : κ → Bool) (l : List (κ × υ)) : List (κ × υ) :=
  (l.filter fun e => low e.1).reverse ++ (l.filter fun e => !low e.1).reverse

lemma mem_rotate {low : κ → Bool} {l : List (κ × υ)} {e : κ × υ} : e ∈ rotate low l ↔ e ∈ l := by
  unfold rotate
  rw [List.mem_append, List.mem_reverse, List.mem_reverse, List.mem_filter, List.mem_filter]
  cases low e.1 <;> simp

variable [LinearOrder κ]

/-- `x` is visited before `y`. -/
def Sooner (low : κ → Bool) (x y : κ) : Prop := low x = true ∧ low y = false ∨ low x = low y ∧ y < x

namespace Sooner

variable {low : κ → Bool} {x y z : κ}

lemma ne (h : Sooner low x y) : x ≠ y := by
  rintro rfl
  rcases h with ⟨hx, hy⟩ | ⟨-, hlt⟩
  · rw [hx] at hy
    cases hy
  · exact lt_irrefl x hlt

lemma trans (h : Sooner low x y) (h' : Sooner low y z) : Sooner low x z := by
  rcases h with ⟨hx, hy⟩ | ⟨hxy, hlt⟩
  · rcases h' with ⟨hy', -⟩ | ⟨hyz, -⟩
    · rw [hy] at hy'
      cases hy'
    · exact .inl ⟨hx, hyz ▸ hy⟩
  · rcases h' with ⟨hy, hz⟩ | ⟨hyz, hlt'⟩
    · exact .inl ⟨hxy ▸ hy, hz⟩
    · exact .inr ⟨hxy.trans hyz, hlt'.trans hlt⟩

lemma of_excluded {a c d : κ} (hne : c ≠ a) (h : d = a ∨ Sooner (fun x => decide (x < c)) d a) :
    Sooner (fun x => decide (x < a)) c d := by
  unfold Sooner at *
  grind

lemma of_included {a c d : κ} (hne : c ≠ a) (h : d = a ∨ Sooner (fun x => decide (x ≤ c)) d a) :
    d = c ∨ Sooner (fun x => decide (x < a)) c d := by
  unfold Sooner at *
  grind

lemma not_included (a d : κ) : ¬ Sooner (fun x => decide (x ≤ a)) d a := by
  unfold Sooner
  grind

end Sooner

section

variable {low : κ → Bool} {l : List (κ × υ)}

lemma pairwise_reverse_filter (h : l.Pairwise fun x y => x.1 < y.1) (keep : κ → Bool)
    (hsame : ∀ x y, keep x = true → keep y = true → low x = low y) :
    (l.filter fun e => keep e.1).reverse.Pairwise fun x y => Sooner low x.1 y.1 := by
  rw [List.pairwise_reverse]
  refine (h.filter _).imp_of_mem ?_
  intro x y hx hy hlt
  exact .inr ⟨hsame _ _ (List.mem_filter.mp hy).2 (List.mem_filter.mp hx).2, hlt⟩

lemma pairwise_rotate (h : l.Pairwise fun x y => x.1 < y.1) :
    (rotate low l).Pairwise fun x y => Sooner low x.1 y.1 := by
  unfold rotate
  refine List.pairwise_append.mpr ⟨pairwise_reverse_filter h low ?_, pairwise_reverse_filter h (fun k => !low k) ?_, ?_⟩
  · intro x y hx hy
    rw [hx, hy]
  · intro x y hx hy
    rw [(Bool.not_eq_true' _).mp hx, (Bool.not_eq_true' _).mp hy]
  · intro x hx y hy
    have hlow := (List.mem_filter.mp (List.mem_reverse.mp hx)).2
    have hhigh := (List.mem_filter.mp (List.mem_reverse.mp hy)).2
    exact .inl ⟨hlow, (Bool.not_eq_true' _).mp hhigh⟩

lemma nodup_rotate (h : l.Pairwise fun x y => x.1 < y.1) : ((rotate low l).map Prod.fst).Nodup := by
  rw [List.nodup_iff_pairwise_ne, List.pairwise_map]
  exact (pairwise_rotate h).imp fun hs => hs.ne

lemma eq_or_sooner_of_split (h : l.Pairwise fun x y => x.1 < y.1) {pre post : List (κ × υ)} {e : κ × υ}
    (hsplit : rotate low l = pre ++ e :: post) {a : κ} (ha : a ∈ l.map Prod.fst) (hpre : a ∉ pre.map Prod.fst) :
    e.1 = a ∨ Sooner low e.1 a := by
  obtain ⟨f, hf, rfl⟩ := List.mem_map.mp ha
  have hmem : f ∈ pre ++ e :: post := hsplit ▸ mem_rotate.mpr hf
  rcases List.mem_append.mp hmem with hf' | hf'
  · exact absurd (List.mem_map_of_mem hf') hpre
  · rcases List.mem_cons.mp hf' with rfl | hf'
    · exact .inl rfl
    · have hpair : (pre ++ e :: post).Pairwise fun x y => Sooner low x.1 y.1 := hsplit ▸ pairwise_rotate h
      exact .inr ((List.pairwise_cons.mp (List.pairwise_append.mp hpair).2.1).1 f hf')

end

/-! ### What a round costs -/

def spent (writes : List (κ × Nat)) (k : κ) : Nat := ((writes.filter fun w => w.1 = k).map Prod.snd).sum

lemma spent_append (writes : List (κ × Nat)) (k : κ) (w : κ × Nat) :
    spent (writes ++ [w]) k = spent writes k + if w.1 = k then w.2 else 0 := by
  unfold spent
  rw [List.filter_append, List.map_append, List.sum_append]
  by_cases hk : w.1 = k
  · rw [if_pos hk, List.filter_singleton]
    simp [hk]
  · rw [if_neg hk, List.filter_singleton]
    simp [hk]

lemma spent_eq_zero {writes : List (κ × Nat)} {k : κ} (h : ∀ w ∈ writes, w.1 ≠ k) : spent writes k = 0 := by
  have hnil : writes.filter (fun w => w.1 = k) = [] :=
    List.filter_eq_nil_iff.mpr fun w hw => by simpa using h w hw
  unfold spent
  rw [hnil]
  rfl

/-- What was written since the turn of `a`, with the cursor at the last writer and what is left of its quantum. -/
structure Round (a : κ) (quantum : Nat) (cursor : κ × Nat) (writes : List (κ × Nat)) : Prop where
  bounded : ∀ k, spent writes k ≤ quantum
  behind : ∀ w ∈ writes, w.1 = cursor.1 ∨ Sooner (fun x => decide (x < a)) w.1 cursor.1
  left : cursor.1 = a ∧ writes = [] ∨ cursor.1 ≠ a ∧ spent writes cursor.1 + cursor.2 ≤ quantum

namespace Round

variable {a c d : κ} {quantum r r' n : Nat} {writes : List (κ × Nat)}

lemma start (a : κ) (quantum r : Nat) : Round a quantum (a, r) [] :=
  ⟨fun _ => Nat.zero_le _, List.forall_mem_nil _, .inl ⟨rfl, rfl⟩⟩

lemma resume (h : Round a quantum (c, r) writes) (hc : c ≠ a) (hle : n + r' ≤ r) :
    Round a quantum (c, r') (writes ++ [(c, n)]) := by
  have hleft : spent writes c + r ≤ quantum := (h.left.resolve_left fun hl => hc hl.1).2
  refine ⟨?_, ?_, .inr ⟨hc, ?_⟩⟩
  · intro k
    have hk := h.bounded k
    rw [spent_append]
    split
    · next heq =>
      subst heq
      dsimp only
      omega
    · exact hk
  · intro w hw
    rcases List.mem_append.mp hw with hw | hw
    · exact h.behind w hw
    · rw [List.mem_singleton.mp hw]
      exact .inl rfl
  · rw [spent_append, if_pos rfl]
    dsimp only
    omega

/-- The cursor goes on to a key that comes later in the round, which has its quantum. -/
lemma advance (h : Round a quantum (c, r) writes) (hd : d ≠ a) (hcd : c = a ∨ Sooner (fun x => decide (x < a)) c d)
    (hle : n + r' ≤ quantum) : Round a quantum (d, r') (writes ++ [(d, n)]) := by
  have hbehind : ∀ w ∈ writes, Sooner (fun x => decide (x < a)) w.1 d := by
    intro w hw
    rcases hcd with hc | hcd
    · have hnil := (h.left.resolve_right fun hr => hr.1 hc).2
      rw [hnil] at hw
      cases hw
    · rcases h.behind w hw with heq | hs
      · rw [heq]
        exact hcd
      · exact hs.trans hcd
  have hzero : spent writes d = 0 := spent_eq_zero fun w hw => (hbehind w hw).ne
  refine ⟨?_, ?_, .inr ⟨hd, ?_⟩⟩
  · intro k
    have hk := h.bounded k
    rw [spent_append]
    split
    · next heq =>
      subst heq
      dsimp only
      omega
    · exact hk
  · intro w hw
    rcases List.mem_append.mp hw with hw | hw
    · exact .inr (hbehind w hw)
    · rw [List.mem_singleton.mp hw]
      exact .inl rfl
  · rw [spent_append, if_pos rfl, hzero]
    dsimp only
    omega

end Round

end Dquic.Lib
