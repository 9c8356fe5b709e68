import Mathlib.Data.List.Nodup

/-! Tables with a key, as lists of rows. -/

namespace QaSys

variable {α : Type u} {β : Type w} {κ : Type v} [DecidableEq κ]

def replaceBy (key : α → κ) (row : α) (rows : List α) : List α :=
  rows.map fun r => if key r = key row then row else r

def removeBy (key : α → κ) (id : κ) (rows : List α) : List α :=
  rows.filter fun r => key r ≠ id

variable {key : α → κ} {row : α} {rows : List α} {id : κ}

@[simp] theorem mem_removeBy {r : α} : r ∈ removeBy key id rows ↔ r ∈ rows ∧ key r ≠ id := by
  simp [removeBy]

theorem mem_replaceBy {r : α} : r ∈ replaceBy key row rows ↔
    (∃ x ∈ rows, key x = key row ∧ r = row) ∨ (r ∈ rows ∧ key r ≠ key row) := by
  simp only [replaceBy, List.mem_map]
  constructor
  · rintro ⟨x, hx, rfl⟩
    split
    next h => exact .inl ⟨x, hx, h, rfl⟩
    next h => exact .inr ⟨hx, h⟩
  · rintro (⟨x, hx, h, rfl⟩ | ⟨hr, h⟩)
    · exact ⟨x, hx, if_pos h⟩
    · exact ⟨r, hr, if_neg h⟩

@[simp] theorem map_key_replaceBy : (replaceBy key row rows).map key = rows.map key := by
  simp only [replaceBy, List.map_map]
  apply List.map_congr_left
  intro r _
  by_cases h : key r = key row <;> simp [h]

theorem filter_key_of_nodup (hnd : (rows.map key).Nodup) (id : κ) :
    rows.filter (key · = id) = [] ∨ ∃ r ∈ rows, key r = id ∧ rows.filter (key · = id) = [r] := by
  induction rows with
  | nil => exact .inl rfl
  | cons a rows ih =>
    have hnd := List.nodup_cons.mp hnd
    by_cases ha : key a = id
    · have hrest : rows.filter (key · = id) = [] := by
        refine List.filter_eq_nil_iff.mpr fun r hr => ?_
        simp only [decide_eq_true_eq]
        exact fun h => hnd.1 (ha.trans h.symm ▸ List.mem_map_of_mem hr)
      exact .inr ⟨a, List.mem_cons_self, ha, by simp [ha, hrest]⟩
    · simp only [List.filter_cons, ha, decide_false, Bool.false_eq_true, if_false]
      rcases ih hnd.2 with h | ⟨r, hr, hid, h⟩
      · exact .inl h
      · exact .inr ⟨r, List.mem_cons_of_mem _ hr, hid, h⟩

theorem filter_replaceBy {x : α} (hx : rows.filter (key · = id) = [x]) (hrow : key row = id) :
    (replaceBy key row rows).filter (key · = id) = [row] := by
  have hid : (fun r => decide (key r = id)) ∘ (fun r => if key r = key row then row else r) =
      fun r => decide (key r = id) := by
    funext r
    by_cases hr : key r = id <;> simp [hr, hrow]
  have hxid : key x = id := by
    have := List.mem_filter.mp (hx ▸ List.mem_singleton_self x : x ∈ rows.filter (key · = id))
    simpa using this.2
  rw [replaceBy, List.filter_map, hid, hx, List.map_singleton, if_pos (hxid.trans hrow.symm)]

def rowAt (key : α → κ) (id : κ) (rows : List α) : Option α := rows.find? (key · = id)

theorem rowAt_isSome : (rowAt key id rows).isSome = true ↔ ∃ r ∈ rows, key r = id := by
  simp [rowAt]

theorem rowAt_eq_some (hnd : (rows.map key).Nodup) {r : α} :
    rowAt key id rows = some r ↔ r ∈ rows ∧ key r = id := by
  constructor
  · intro h
    have hid : key r = id := by simpa using List.find?_some h
    exact ⟨List.mem_of_find?_eq_some h, hid⟩
  · rintro ⟨hr, rfl⟩
    have hsome : (rowAt key (key r) rows).isSome = true := rowAt_isSome.mpr ⟨r, hr, rfl⟩
    obtain ⟨x, hx⟩ := Option.isSome_iff_exists.mp hsome
    have hid : key x = key r := by simpa using List.find?_some hx
    rw [hx, List.inj_on_of_nodup_map hnd (List.mem_of_find?_eq_some hx) hr hid]

theorem rowAt_replaceBy : rowAt key id (replaceBy key row rows) =
    (rowAt key id rows).map fun r => if id = key row then row else r := by
  have hkey : (fun r => decide (key r = id)) ∘ (fun r => if key r = key row then row else r) =
      fun r => decide (key r = id) := by
    funext r
    by_cases h : key r = key row <;> simp [h]
  rw [rowAt, replaceBy, List.find?_map, hkey]
  apply Option.map_congr
  intro r hr
  have hid : key r = id := by simpa using List.find?_some hr
  rw [hid]

theorem removeBy_eq_erase [DecidableEq α] (hnd : (rows.map key).Nodup) {r : α} (hr : r ∈ rows) :
    removeBy key (key r) rows = rows.erase r := by
  rw [(hnd.of_map key).erase_eq_filter, removeBy]
  apply List.filter_congr
  intro x hx
  rw [Bool.eq_iff_iff, decide_eq_true_iff, bne_iff_ne]
  exact not_congr ⟨fun h => List.inj_on_of_nodup_map hnd hx hr h, congrArg key⟩

theorem map_key_update (f : α → α) (hf : ∀ r, key (f r) = key r) (id : κ) (rows : List α) :
    (rows.map fun r => if key r = id then f r else r).map key = rows.map key := by
  rw [List.map_map]
  refine List.map_congr_left fun r _ => ?_
  by_cases h : key r = id <;> simp [h, hf]

section

/-! A row is gone from a table when no row with its key says the same. -/

variable {R : α → α → Prop} {P : α → Prop}

theorem forall_gone_update (hsame : ∀ r, R r r) {f : α → α} (hf : ∀ r, key (f r) = key r)
    (id : κ) (hnd : (rows.map key).Nodup) :
    (∀ r ∈ rows, (∀ r' ∈ rows.map fun r => if key r = id then f r else r,
      key r' = key r → ¬ R r r') → P r) ↔ ∀ r ∈ rows, key r = id → P r ∨ R r (f r) := by
  constructor
  · intro h r hr hid
    by_cases hs : R r (f r)
    · exact .inr hs
    · refine .inl (h r hr fun r' hr' hkey => ?_)
      obtain ⟨x, hx, rfl⟩ := List.mem_map.mp hr'
      have hxkey : key x = key r := by
        split at hkey
        next => rwa [hf] at hkey
        next => exact hkey
      rw [List.inj_on_of_nodup_map hnd hx hr hxkey, if_pos hid]
      exact hs
  · intro h r hr hgone
    by_cases hid : key r = id
    · refine (h r hr hid).resolve_right (hgone (f r) ?_ (hf r))
      exact List.mem_map.mpr ⟨r, hr, if_pos hid⟩
    · exact absurd (hsame r) (hgone r (List.mem_map.mpr ⟨r, hr, if_neg hid⟩) rfl)

omit [DecidableEq κ] in
theorem forall_gone_filter (hsame : ∀ r, R r r) {p : α → Bool}
    (h : ∀ r ∈ rows, p r = true → P r) : ∀ r ∈ rows,
      (∀ r' ∈ rows.filter fun r => !p r, key r' = key r → ¬ R r r') → P r := by
  intro r hr hgone
  cases hp : p r with
  | true => exact h r hr hp
  | false => exact absurd (hsame r) (hgone r (List.mem_filter.mpr ⟨hr, by rw [hp]; rfl⟩) rfl)

end

theorem foldl_removeBy (ids : List κ) (rows : List α) :
    ids.foldl (fun rows id => removeBy key id rows) rows = rows.filter fun r => key r ∉ ids := by
  induction ids generalizing rows with
  | nil => simp
  | cons id ids ih =>
    rw [List.foldl_cons, ih, removeBy, List.filter_filter]
    refine List.filter_congr fun r _ => ?_
    by_cases h : key r = id <;> simp [h]

theorem foldl_removeBy_filter (hnd : (rows.map key).Nodup) (p : α → Bool) :
    ((rows.filter p).map key).foldl (fun rows id => removeBy key id rows) rows =
      rows.filter fun r => !p r := by
  rw [foldl_removeBy]
  refine List.filter_congr fun r hr => ?_
  have hmem : key r ∈ (rows.filter p).map key ↔ p r = true := by
    rw [List.mem_map]
    constructor
    · rintro ⟨x, hx, hkey⟩
      obtain ⟨hx, hp⟩ := List.mem_filter.mp hx
      rwa [List.inj_on_of_nodup_map hnd hx hr hkey] at hp
    · exact fun hp => ⟨r, List.mem_filter.mpr ⟨hr, hp⟩, rfl⟩
  rw [Bool.eq_iff_iff, decide_eq_true_iff, hmem, Bool.not_eq_true, Bool.not_eq_true']

omit [DecidableEq κ] in
theorem mem_map_filter_not (hnd : (rows.map key).Nodup) {p : α → Bool} :
    id ∈ (rows.filter fun r => !p r).map key ↔
      id ∈ rows.map key ∧ ∀ r ∈ rows, p r = true → key r ≠ id := by
  simp only [List.mem_map, List.mem_filter, Bool.not_eq_true']
  constructor
  · rintro ⟨r, ⟨hr, hp⟩, rfl⟩
    refine ⟨⟨r, hr, rfl⟩, fun x hx hpx hkey => ?_⟩
    rw [List.inj_on_of_nodup_map hnd hx hr hkey, hp] at hpx
    cases hpx
  · rintro ⟨⟨r, hr, rfl⟩, h⟩
    exact ⟨r, ⟨hr, Bool.eq_false_iff.mpr fun hp => h r hr hp rfl⟩, rfl⟩

theorem foldl_replaceBy_filter (hnd : (rows.map key).Nodup) (id : κ) {f : α → α}
    (hf : ∀ r, key (f r) = key r) :
    ((rows.filter (key · = id)).map f).foldl (fun rows r => replaceBy key r rows) rows =
      rows.map fun r => if key r = id then f r else r := by
  rcases filter_key_of_nodup hnd id with hnone | ⟨r, hr, hid, hone⟩
  · rw [hnone]
    have hmap : rows.map (fun r => if key r = id then f r else r) = rows.map fun r => r := by
      refine List.map_congr_left fun x hx => if_neg fun h => ?_
      exact absurd (List.mem_filter.mpr ⟨hx, decide_eq_true h⟩) (hnone ▸ List.not_mem_nil)
    rw [hmap, List.map_id']
    rfl
  · rw [hone]
    refine List.map_congr_left fun x hx => ?_
    rw [hf, hid]
    split
    next h => rw [List.inj_on_of_nodup_map hnd hx hr (h.trans hid.symm)]
    next => rfl

theorem nodup_map_removeBy {f : α → β} (h : (rows.map f).Nodup) :
    ((removeBy key id rows).map f).Nodup :=
  h.sublist (List.filter_sublist.map f)

section

variable {r : α} (hnd : (rows.map key).Nodup) (hr : r ∈ rows)
include hnd hr

theorem mem_map_removeBy {f : α → β} (htags : (rows.map f).Nodup) {b : β} :
    b ∈ (removeBy key (key r) rows).map f ↔ b ∈ rows.map f ∧ b ≠ f r := by
  simp only [List.mem_map, mem_removeBy]
  constructor
  · rintro ⟨x, ⟨hx, hne⟩, rfl⟩
    exact ⟨⟨x, hx, rfl⟩, fun h => hne (congrArg key (List.inj_on_of_nodup_map htags hx hr h))⟩
  · rintro ⟨⟨x, hx, rfl⟩, hne⟩
    exact ⟨x, ⟨hx, fun h => hne (congrArg f (List.inj_on_of_nodup_map hnd hx hr h))⟩, rfl⟩

theorem countP_removeBy (p : α → Bool) :
    (removeBy key (key r) rows).countP p + (if p r then 1 else 0) = rows.countP p := by
  classical
  rw [removeBy_eq_erase hnd hr, ← List.countP_singleton, Nat.add_comm, ← List.countP_append]
  exact (List.perm_cons_erase hr).symm.countP_eq p

end

end QaSys
