import Mathlib.Data.List.AList
import Mathlib.Tactic

/-!
# Tables

Finite maps as association lists without repeated keys, in any order of their entries, with the
operation that keeps some of the entries and the sum of a measure over all of them.
-/

namespace Dquic.Lib

abbrev Table (κ υ : Type) := AList fun _ : κ => υ

namespace Table

variable {κ υ : Type} (t : Table κ υ)

def total (f : υ → Nat) : Nat := (t.entries.map fun e => f e.2).sum

variable [DecidableEq κ]

lemma lookup_insert_eq (k k' : κ) (v : υ) :
    (t.insert k v).lookup k' = if k' = k then some v else t.lookup k' := by
  split
  · next h =>
    subst h
    exact t.lookup_insert
  · next h => exact AList.lookup_insert_ne h

lemma lookup_erase_eq (k k' : κ) : (t.erase k).lookup k' = if k' = k then none else t.lookup k' := by
  split
  · next h =>
    subst h
    exact AList.lookup_erase _ t
  · next h => exact AList.lookup_erase_ne h

variable {t}

lemma forall_insert {P : υ → Prop} (h : ∀ k v, t.lookup k = some v → P v) {k : κ} {v : υ} (hv : P v) (k' : κ) (v' : υ)
    (hk : (t.insert k v).lookup k' = some v') : P v' := by
  rw [lookup_insert_eq] at hk
  split at hk
  · cases hk
    exact hv
  · exact h k' v' hk

lemma forall_erase {P : υ → Prop} (h : ∀ k v, t.lookup k = some v → P v) {k : κ} (k' : κ) (v' : υ)
    (hk : (t.erase k).lookup k' = some v') : P v' := by
  rw [lookup_erase_eq] at hk
  split at hk
  · cases hk
  · exact h k' v' hk

variable (t)

/-! ### Sums over a table -/

lemma total_erase (f : υ → Nat) (k : κ) : total (t.erase k) f + (t.lookup k).elim 0 f = t.total f := by
  obtain ⟨entries, hnodup⟩ := t
  change ((entries.kerase k).map fun e => f e.2).sum + (entries.dlookup k).elim 0 f = (entries.map fun e => f e.2).sum
  clear hnodup
  induction entries with
  | nil => rfl
  | cons e entries ih =>
    obtain ⟨k', v⟩ := e
    by_cases hk : k = k'
    · subst hk
      have herase : List.kerase k (⟨k, v⟩ :: entries) = entries := List.kerase_cons_eq rfl
      rw [herase, List.dlookup_cons_eq, List.map_cons, List.sum_cons, Nat.add_comm]
      rfl
    · rw [List.kerase_cons_ne hk, List.dlookup_cons_ne _ _ hk, List.map_cons, List.sum_cons, List.map_cons, List.sum_cons,
        Nat.add_assoc, ih]

lemma total_insert (f : υ → Nat) (k : κ) (v : υ) : total (t.insert k v) f + (t.lookup k).elim 0 f = t.total f + f v := by
  have hinsert : total (t.insert k v) f = f v + total (t.erase k) f := rfl
  rw [hinsert, Nat.add_assoc, total_erase, Nat.add_comm]

lemma le_total (f : υ → Nat) (k : κ) : (t.lookup k).elim 0 f ≤ t.total f := by
  rw [← t.total_erase f k]
  exact Nat.le_add_left _ _

lemma elim_id (k : κ) (t : Table κ Nat) : (t.lookup k).elim 0 id = (t.lookup k).getD 0 := by
  cases t.lookup k with
  | _ => rfl

/-- A count is lowered, and the entry goes when nothing is left. -/
lemma total_lower {t : Table κ Nat} {k : κ} {n : Nat} (hn : n ≤ (t.lookup k).getD 0) :
    total (if n < (t.lookup k).getD 0 then t.insert k ((t.lookup k).getD 0 - n) else t.erase k) id + n = t.total id := by
  split
  · have hinsert := t.total_insert id k ((t.lookup k).getD 0 - n)
    rw [elim_id, id_eq] at hinsert
    omega
  · have herase := t.total_erase id k
    rw [elim_id] at herase
    omega

lemma lookup_lower {t : Table κ Nat} {k : κ} {n : Nat} (hn : n ≤ (t.lookup k).getD 0) (k' : κ) :
    ((if n < (t.lookup k).getD 0 then t.insert k ((t.lookup k).getD 0 - n) else t.erase k).lookup k').getD 0 +
      (if k = k' then n else 0) = (t.lookup k').getD 0 := by
  by_cases hk : k = k'
  · subst hk
    rw [if_pos rfl]
    split
    · rw [t.lookup_insert, Option.getD_some, Nat.sub_add_cancel hn]
    · rw [t.lookup_erase, Option.getD_none]
      omega
  · rw [if_neg hk]
    split
    · rw [lookup_insert_eq, if_neg (Ne.symm hk), Nat.add_zero]
    · rw [lookup_erase_eq, if_neg (Ne.symm hk), Nat.add_zero]

lemma mem_entries {k : κ} {v : υ} : ⟨k, v⟩ ∈ t.entries ↔ t.lookup k = some v := AList.mem_lookup_iff.symm

end Table

end Dquic.Lib
