import QaSys.Data.Keyset

/-! Pages of a table in descending order of a key, addressed by how many rows come before them. -/

universe u v

namespace QaSys.Keyset

variable {α : Type u} {κ : Type v} [LinearOrder κ] (key : α → κ)

def rank (rows : List α) (k : κ) : Nat := rows.countP (k < key ·)

variable {key} {rows : List α} {r : α}

theorem rank_lt_length (hr : r ∈ rows) : rank key rows (key r) < rows.length := by
  refine Nat.lt_of_le_of_ne List.countP_le_length fun hall => ?_
  exact lt_irrefl _ (of_decide_eq_true (List.countP_eq_length.mp hall r hr))

theorem rank_eq_length {before after : List α}
    (h : (before ++ r :: after).Pairwise fun a b => key b < key a) :
    rank key (before ++ r :: after) (key r) = before.length := by
  obtain ⟨-, hafter, hbefore⟩ := List.pairwise_append.mp h
  have hall : before.countP (key r < key ·) = before.length := List.countP_eq_length.mpr fun a ha =>
    decide_eq_true (hbefore a ha r List.mem_cons_self)
  have hnone : (r :: after).countP (key r < key ·) = 0 := by
    refine List.countP_eq_zero.mpr fun a ha => ?_
    rw [decide_eq_true_eq, not_lt]
    rcases List.mem_cons.mp ha with rfl | ha
    · exact le_rfl
    · exact le_of_lt ((List.pairwise_cons.mp hafter).1 a ha)
  rw [rank, List.countP_append, hall, hnone, Nat.add_zero]

theorem mem_page_iff (hnd : (rows.map key).Nodup) (hr : r ∈ rows) (limit offset : Nat) :
    r ∈ ((descending key rows).drop offset).take limit ↔
      offset ≤ rank key rows (key r) ∧ rank key rows (key r) < offset + limit := by
  have hsorted := pairwise_descending hnd
  have hperm : (descending key rows).Perm rows := perm_descending
  have hrank : rank key rows (key r) = rank key (descending key rows) (key r) :=
    (hperm.countP_eq _).symm
  obtain ⟨before, after, hsplit⟩ := List.append_of_mem (hperm.mem_iff.mpr hr)
  rw [hrank]
  generalize descending key rows = sorted at hsorted hsplit
  subst hsplit
  rw [rank_eq_length hsorted]
  have hat : (before ++ r :: after)[before.length]? = some r := by
    rw [List.getElem?_append_right le_rfl, Nat.sub_self]
    rfl
  constructor
  · intro hmem
    obtain ⟨i, hi⟩ := List.mem_iff_getElem?.mp hmem
    rw [List.getElem?_take] at hi
    split at hi
    next hlt =>
      rw [List.getElem?_drop] at hi
      have hnodup : (before ++ r :: after).Nodup := hsorted.imp fun {a b} h heq => by
        rw [heq] at h
        exact lt_irrefl _ h
      obtain ⟨hlen, -⟩ := List.getElem?_eq_some_iff.mp hi
      have heq := (List.getElem?_inj hlen hnodup).mp (hi.trans hat.symm)
      omega
    next => cases hi
  · rintro ⟨hle, hlt⟩
    refine List.mem_iff_getElem?.mpr ⟨before.length - offset, ?_⟩
    rw [List.getElem?_take, if_pos (by omega), List.getElem?_drop, Nat.add_sub_cancel' hle, hat]

end QaSys.Keyset
