import Mathlib.Data.List.Sort

/-! Pages of a table in descending order of a key, and the walk that asks for what lies below the
last key it has seen while rows come and go. -/

universe u v

namespace QaSys.Keyset

variable {α : Type u} {κ : Type v} [LinearOrder κ] (key : α → κ)

def descending (rows : List α) : List α := rows.insertionSort fun a b => key b ≤ key a

def below (cursor : Option κ) (rows : List α) : List α :=
  match cursor with
  | none => rows
  | some c => rows.filter (key · < c)

def page (limit : Nat) (cursor : Option κ) (rows : List α) : List α :=
  (descending key (below key cursor rows)).take limit

/-- The pages of a walk, each with the rows that are there when it is asked for.  A page with fewer
rows than asked for is the last one. -/
inductive Walk (limit : Nat) : Option κ → List (List α × List α) → Prop
  | stop (cursor rows) : (page key limit cursor rows).length < limit →
      Walk limit cursor [(rows, page key limit cursor rows)]
  | more (cursor rows last rest) : (page key limit cursor rows).length = limit →
      (page key limit cursor rows).getLast? = some last → Walk limit (some (key last)) rest →
      Walk limit cursor ((rows, page key limit cursor rows) :: rest)

variable {key} {rows : List α} {cursor : Option κ} {limit : Nat} {k : κ}

def Under (cursor : Option κ) (k : κ) : Prop := ∀ c, cursor = some c → k < c

@[simp] theorem under_none : Under none k := nofun

@[simp] theorem under_some {c : κ} : Under (some c) k ↔ k < c :=
  ⟨fun h => h c rfl, fun h _ hc => Option.some.inj hc ▸ h⟩

@[simp] theorem mem_descending {r : α} : r ∈ descending key rows ↔ r ∈ rows :=
  List.mem_insertionSort _

@[simp] theorem mem_below {r : α} : r ∈ below key cursor rows ↔ r ∈ rows ∧ Under cursor (key r) := by
  cases cursor with
  | none => simp [below]
  | some c => simp [below]

theorem below_sublist : (below key cursor rows).Sublist rows := by
  cases cursor with
  | none => exact .refl _
  | some c => exact List.filter_sublist

theorem perm_descending : (descending key rows).Perm rows := List.perm_insertionSort _ _

theorem length_descending : (descending key rows).length = rows.length :=
  List.length_insertionSort _ _

theorem pairwise_descending (hnd : (rows.map key).Nodup) :
    (descending key rows).Pairwise fun a b => key b < key a := by
  have : Std.Total fun a b : α => key b ≤ key a := ⟨fun a b => le_total _ _⟩
  have : IsTrans α fun a b => key b ≤ key a := ⟨fun a b c hab hbc => le_trans hbc hab⟩
  have hle := List.pairwise_insertionSort (fun a b : α => key b ≤ key a) rows
  have hne : (descending key rows).Pairwise fun a b => key a ≠ key b :=
    List.pairwise_map.mp ((perm_descending.map key).nodup_iff.mpr hnd)
  exact (hle.and hne).imp fun h => lt_of_le_of_ne h.1 h.2.symm

theorem nodup_below (hnd : (rows.map key).Nodup) (cursor : Option κ) :
    ((below key cursor rows).map key).Nodup := hnd.sublist (below_sublist.map key)

theorem pairwise_page (hnd : (rows.map key).Nodup) (limit : Nat) (cursor : Option κ) :
    (page key limit cursor rows).Pairwise fun a b => key b < key a :=
  (pairwise_descending (nodup_below hnd cursor)).sublist (List.take_sublist _ _)

theorem of_mem_page {r : α} (h : r ∈ page key limit cursor rows) :
    r ∈ rows ∧ Under cursor (key r) := by
  have := List.mem_of_mem_take h
  rwa [mem_descending, mem_below] at this

theorem length_page_le : (page key limit cursor rows).length ≤ limit := List.length_take_le _ _

theorem mem_page_of_short (hshort : (page key limit cursor rows).length < limit) {r : α}
    (hr : r ∈ rows) (hc : Under cursor (key r)) : r ∈ page key limit cursor rows := by
  have hall : page key limit cursor rows = descending key (below key cursor rows) := by
    rw [page, List.length_take] at hshort
    exact List.take_of_length_le (by omega)
  rw [hall, mem_descending, mem_below]
  exact ⟨hr, hc⟩

theorem mem_page_of_ge (hnd : (rows.map key).Nodup) {last : α}
    (hlast : (page key limit cursor rows).getLast? = some last) {r : α} (hr : r ∈ rows)
    (hc : Under cursor (key r)) (hge : key last ≤ key r) : r ∈ page key limit cursor rows := by
  have hsplit := List.take_append_drop limit (descending key (below key cursor rows))
  have hmem : r ∈ descending key (below key cursor rows) := by
    rw [mem_descending, mem_below]
    exact ⟨hr, hc⟩
  rw [← hsplit, List.mem_append] at hmem
  refine hmem.resolve_right fun hdrop => ?_
  have hpair := pairwise_descending (nodup_below hnd cursor)
  rw [← hsplit, List.pairwise_append] at hpair
  have hlt := hpair.2.2 last (List.mem_of_getLast? hlast) r hdrop
  exact absurd hge (not_le_of_gt hlt)

theorem last_le (hnd : (rows.map key).Nodup) {last r : α}
    (hlast : (page key limit cursor rows).getLast? = some last)
    (hr : r ∈ page key limit cursor rows) : key last ≤ key r := by
  obtain ⟨init, hinit⟩ := List.getLast?_eq_some_iff.mp hlast
  have hpair := pairwise_page hnd limit cursor
  rw [hinit, List.pairwise_append] at hpair
  rw [hinit, List.mem_append, List.mem_singleton] at hr
  rcases hr with hr | rfl
  · exact (hpair.2.2 r hr last (List.mem_singleton_self _)).le
  · exact le_rfl

theorem page_eq_nil (hpos : 0 < limit) : page key limit cursor rows = [] ↔
    below key cursor rows = [] := by
  rw [← List.length_eq_zero_iff, ← List.length_eq_zero_iff, page, List.length_take,
    length_descending]
  omega

theorem exists_lt_last (hnd : (rows.map key).Nodup) {last : α}
    (hlast : (page key limit cursor rows).getLast? = some last) :
    (∃ r ∈ rows, key r < key last) ↔ limit < (below key cursor rows).length := by
  have hpair := pairwise_descending (nodup_below hnd cursor)
  rw [← List.take_append_drop limit (descending key (below key cursor rows)),
    List.pairwise_append] at hpair
  have hmem := List.mem_of_getLast? hlast
  have hunder := (of_mem_page hmem).2
  constructor
  · rintro ⟨r, hr, hlt⟩
    by_contra hle
    have hall : page key limit cursor rows = descending key (below key cursor rows) :=
      List.take_of_length_le (by rw [length_descending]; omega)
    have hpage : r ∈ page key limit cursor rows := by
      rw [hall, mem_descending, mem_below]
      exact ⟨hr, fun c hc => hlt.trans (hunder c hc)⟩
    exact absurd hlt (not_lt_of_ge (last_le hnd hlast hpage))
  · intro hlt
    have hrest : 0 < ((descending key (below key cursor rows)).drop limit).length := by
      rw [List.length_drop, length_descending]
      omega
    obtain ⟨r, hr⟩ := List.exists_mem_of_length_pos hrest
    have hrow := mem_below.mp (mem_descending.mp (List.mem_of_mem_drop hr))
    exact ⟨r, hrow.1, hpair.2.2 last hmem r hr⟩

namespace Walk

variable {visits : List (List α × List α)}

theorem pairwise (h : Walk key limit cursor visits)
    (hnd : ∀ v ∈ visits, (v.1.map key).Nodup) :
    (visits.flatMap (·.2)).Pairwise (fun a b => key b < key a) ∧
      ∀ r ∈ visits.flatMap (·.2), Under cursor (key r) := by
  induction h with
  | stop cursor rows hshort =>
    rw [List.flatMap_singleton]
    exact ⟨pairwise_page (hnd _ List.mem_cons_self) _ _, fun r hr => (of_mem_page hr).2⟩
  | more cursor rows last rest hfull hlast hrest ih =>
    obtain ⟨ihpair, ihunder⟩ := ih fun v hv => hnd v (List.mem_cons_of_mem _ hv)
    have hrows := hnd _ List.mem_cons_self
    have hlower : ∀ r ∈ rest.flatMap (·.2), key r < key last := fun r hr =>
      under_some.mp (ihunder r hr)
    have hmem := List.mem_of_getLast? hlast
    rw [List.flatMap_cons]
    refine ⟨List.pairwise_append.mpr ⟨pairwise_page hrows _ _, ihpair, fun a ha b hb =>
      lt_of_lt_of_le (hlower b hb) (last_le hrows hlast ha)⟩, fun r hr => ?_⟩
    rcases List.mem_append.mp hr with hr | hr
    · exact (of_mem_page hr).2
    · exact fun c hc => lt_trans (hlower r hr) ((of_mem_page hmem).2 c hc)

theorem complete (h : Walk key limit cursor visits)
    (hnd : ∀ v ∈ visits, (v.1.map key).Nodup) (hk : Under cursor k)
    (hall : ∀ v ∈ visits, k ∈ v.1.map key) : k ∈ (visits.flatMap (·.2)).map key := by
  induction h with
  | stop cursor rows hshort =>
    obtain ⟨r, hr, rfl⟩ := List.mem_map.mp (hall _ List.mem_cons_self)
    rw [List.flatMap_singleton]
    exact List.mem_map_of_mem (mem_page_of_short hshort hr hk)
  | more cursor rows last rest hfull hlast hrest ih =>
    rw [List.flatMap_cons, List.map_append, List.mem_append]
    rcases lt_or_ge k (key last) with hlt | hge
    · exact .inr (ih (fun v hv => hnd v (List.mem_cons_of_mem _ hv)) (under_some.mpr hlt)
        fun v hv => hall v (List.mem_cons_of_mem _ hv))
    · obtain ⟨r, hr, rfl⟩ := List.mem_map.mp (hall _ List.mem_cons_self)
      exact .inl (List.mem_map_of_mem
        (mem_page_of_ge (hnd _ List.mem_cons_self) hlast hr hk hge))

theorem ends (h : Walk key limit cursor visits) : ∃ init last, visits = init ++ [last] ∧
    last.2.length < limit ∧ ∀ v ∈ init, v.2.length = limit ∧ v.2.getLast?.isSome = true := by
  induction h with
  | stop cursor rows hshort => exact ⟨[], _, rfl, hshort, nofun⟩
  | more cursor rows last rest hfull hlast hrest ih =>
    obtain ⟨init, final, hrest, hshort, hinit⟩ := ih
    refine ⟨(rows, page key limit cursor rows) :: init, final, by rw [hrest]; rfl, hshort, ?_⟩
    intro v hv
    rcases List.mem_cons.mp hv with rfl | hv
    · exact ⟨hfull, by rw [hlast]; rfl⟩
    · exact hinit v hv

theorem mem_rows (h : Walk key limit cursor visits) :
    ∀ v ∈ visits, v.2.length ≤ limit ∧ ∀ r ∈ v.2, r ∈ v.1 := by
  induction h with
  | stop cursor rows hshort =>
    intro v hv
    rw [List.mem_singleton.mp hv]
    exact ⟨length_page_le, fun r hr => (of_mem_page hr).1⟩
  | more cursor rows last rest hfull hlast hrest ih =>
    intro v hv
    rcases List.mem_cons.mp hv with rfl | hv
    · exact ⟨length_page_le, fun r hr => (of_mem_page hr).1⟩
    · exact ih v hv

end Walk

end QaSys.Keyset
