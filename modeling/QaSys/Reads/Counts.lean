import QaSys.Store.QuestionTable

/-! A read of a question is counted in a Redis hash first and moved to its row later. -/

namespace QaSys

namespace Store

variable {fields : List (String × Int)} {f g : String} {d : Int}

theorem lookup_map_add : (fields.map fun p => if p.1 = f then (p.1, p.2 + d) else p).lookup g =
    (fields.lookup g).map fun v => if g = f then v + d else v := by
  induction fields with
  | nil => rfl
  | cons p fields ih =>
    obtain ⟨k, v⟩ := p
    by_cases hg : g = k
    · subst hg
      by_cases hf : g = f <;> simp [hf]
    · have hg : (g == k) = false := by simpa using hg
      have hkey : (if k = f then (k, v + d) else (k, v)) = (k, if k = f then v + d else v) := by
        split <;> rfl
      simp only [List.map_cons, hkey, List.lookup_cons, hg, ih]

theorem lookup_eq_none (h : fields.any (·.1 = f) = false) : fields.lookup f = none := by
  rw [List.lookup_eq_none_iff]
  intro p hp
  have := List.any_eq_false.mp h p hp
  simp only [decide_eq_true_eq] at this
  simpa using fun he => this he.symm

theorem lookup_append_single : (fields ++ [(f, d)]).lookup g =
    (fields.lookup g).or (if g = f then some d else none) := by
  rw [List.lookup_append]
  congr 1
  by_cases h : g = f
  · simp [h]
  · have h' : (g == f) = false := by simpa using h
    simp [h, List.lookup_cons, h']

theorem hget_hincr : hget (hincr fields f d) g = hget fields g + if g = f then d else 0 := by
  unfold hincr hget
  split
  next h =>
    rw [lookup_map_add]
    cases hl : fields.lookup g with
    | some v => by_cases hg : g = f <;> simp [hg]
    | none =>
      have hg : g ≠ f := by
        rintro rfl
        obtain ⟨p, hp, hpg⟩ := List.any_eq_true.mp h
        have := List.lookup_eq_none_iff.mp hl p hp
        simp only [decide_eq_true_eq] at hpg
        simp [hpg] at this
      simp [hg]
  next h =>
    rw [lookup_append_single]
    by_cases hg : g = f
    · subst hg
      simp [lookup_eq_none (Bool.not_eq_true _ ▸ h)]
    · simp [hg]

end Store

namespace Reads

variable {s : Store} {n id q : Int} {ty : String}

def row (s : Store) (q : Int) : Option QuestionRow := rowAt QuestionRow.id q s.db.questions

/-- The reads of question `q` that Redis has and its row has not. -/
def pending (ty : String) (s : Store) (q : Int) : Int :=
  Store.hget (s.hashes (Question.getHashKey ty)) (toString q)

def bump (s : Store) (n id : Int) : Store :=
  match row s id with
  | some r => s.settled { s.db with
      questions := replaceBy QuestionRow.id { r with readCount := r.readCount + n } s.db.questions }
      s.seq
  | none => s

theorem exec_addReadCount (h : s.pg.Quiet) (hk : Keyed s) (i : Nat) {ch : Choice}
    (hch : ¬ ch.Faulty) : s.exec i ch (.sql (.addReadCount n id)) =
      some (.ok (if (row s id).isSome then 1 else 0), bump s n id) := by
  rw [Store.exec_sql h.alone (mt (Store.refuses_of_nil rfl).mp hch)]
  rcases filter_key_of_nodup hk id with hnone | ⟨r, hr, hid, hone⟩
  · have hrow : row s id = none := by
      rw [← Option.not_isSome_iff_eq_none, row, rowAt_isSome]
      rintro ⟨r, hr, hid⟩
      exact absurd (List.mem_filter.mpr ⟨hr, decide_eq_true hid⟩) (hnone ▸ List.not_mem_nil)
    simp only [Stmt.eval, hnone, bump, hrow]
    rfl
  · have hrow : row s id = some r := (rowAt_eq_some hk).mpr ⟨hr, hid⟩
    simp only [Stmt.eval, hone, bump, hrow]
    rfl

theorem row_bump : row (bump s n id) q = (row s q).map fun r =>
    if q = id then { r with readCount := r.readCount + n } else r := by
  unfold bump
  split
  next r hr =>
    have hid : r.id = id := by simpa using List.find?_some hr
    rw [row, Store.settled_db, rowAt_replaceBy, row]
    by_cases hq : q = id
    · subst hq
      have hr : rowAt QuestionRow.id q s.db.questions = some r := hr
      simp only [hr, hid, if_true, Option.map_some]
    · simp only [hid, if_neg hq]
  next hnone =>
    by_cases hq : q = id
    · subst hq
      simp [hnone]
    · simp [hq]

theorem bump_ids : (bump s n id).db.questions.map QuestionRow.id =
    s.db.questions.map QuestionRow.id := by
  unfold bump
  split
  next => rw [Store.settled_db, map_key_replaceBy]
  next => rfl

theorem bump_seq : (bump s n id).seq = s.seq := by
  unfold bump
  split <;> rfl

theorem bump_hashes : (bump s n id).hashes = s.hashes := by
  unfold bump
  split <;> rfl

theorem keyed_bump (h : Keyed s) : Keyed (bump s n id) := by
  rw [Keyed, bump_ids]
  exact h

theorem quiet_bump (h : s.pg.Quiet) : (bump s n id).pg.Quiet := by
  unfold bump
  split <;> exact h

theorem pending_bump : pending ty (bump s n id) q = pending ty s q := by
  rw [pending, bump_hashes, pending]

def addPending (ty : String) (s : Store) (field : String) (d : Int) : Store :=
  { s with
    hashes := Function.update s.hashes (Question.getHashKey ty)
      (Store.hincr (s.hashes (Question.getHashKey ty)) field d) }

theorem exec_hincr_eq (s : Store) (ty : String) (i : Nat) {ch : Choice} (hch : ¬ ch.Faulty)
    (field : String) (d : Int) : s.exec i ch (.hincr (Question.getHashKey ty) field d) =
      some (.ok (Store.hget (s.hashes (Question.getHashKey ty)) field + d),
        addPending ty s field d) := by
  have served : Store.hget (s.hashes (Question.getHashKey ty)) field + d =
      Store.hget (Store.hincr (s.hashes (Question.getHashKey ty)) field d) field := by
    rw [Store.hget_hincr, if_pos rfl]
  rw [served]
  cases ch with
  | fail msg => exact absurd trivial hch
  | lost msg => exact absurd trivial hch
  | serve => rfl
  | page next fields => rfl
  | raw value => rfl

theorem exec_hincr (s : Store) (ty : String) (i : Nat) {ch : Choice} (hch : ¬ ch.Faulty)
    (field : String) (d : Int) : ∃ v, s.exec i ch (.hincr (Question.getHashKey ty) field d) =
      some (.ok v, addPending ty s field d) := ⟨_, exec_hincr_eq s ty i hch field d⟩

theorem pending_addPending {field : String} {d : Int} : pending ty (addPending ty s field d) q =
    pending ty s q + if toString q = field then d else 0 := by
  simp only [pending, addPending, Function.update_self, Store.hget_hincr]

end Reads

end QaSys
