import QaSys.Concurrent.Books

/-! What a session with a transaction holds, and everything its next call can do. -/

namespace QaSys.Concurrent

open UserVote Overlap Transaction Sessions

def rowsAt : RowKey → Db → List VoteRow × List AnswerRow
  | .vote id, db => (db.usersVotes.filter (·.id = id), [])
  | .answer id, db => ([], db.answers.filter (·.id = id))
  | _, _ => ([], [])

section

variable {α : Type*} {key : α → Int} {row : α} {id t : Int} {rows : List α}

theorem filter_key_snoc (h : t ≠ key row) :
    (rows ++ [row]).filter (key · = t) = rows.filter (key · = t) := by
  rw [List.filter_append, List.filter_singleton, decide_eq_false h.symm]
  exact List.append_nil _

theorem filter_key_replaceBy (h : t ≠ key row) :
    (replaceBy key row rows).filter (key · = t) = rows.filter (key · = t) := by
  induction rows with
  | nil => rfl
  | cons r rows ih =>
    rw [replaceBy] at ih ⊢
    by_cases hr : key r = key row
    · simp only [List.map_cons, hr, if_true, List.filter_cons, decide_eq_false h.symm, ih,
        Bool.false_eq_true, if_false]
    · simp only [List.map_cons, hr, if_false, List.filter_cons, ih]

theorem filter_key_removeBy (h : t ≠ id) :
    (removeBy key id rows).filter (key · = t) = rows.filter (key · = t) := by
  rw [removeBy, List.filter_filter]
  refine List.filter_congr fun r _ => ?_
  by_cases hr : key r = t
  · simp [hr, h]
  · simp [hr]

theorem filter_key_of_mem (hnd : (rows.map key).Nodup) {r : α} (hr : r ∈ rows) :
    rows.filter (key · = key r) = [r] := by
  rcases filter_key_of_nodup hnd (key r) with hnone | ⟨x, hx, hid, hone⟩
  · exact absurd (List.mem_filter.mpr ⟨hr, decide_eq_true rfl⟩) (hnone ▸ List.not_mem_nil)
  · rw [hone, List.inj_on_of_nodup_map hnd hx hr hid]

theorem mem_of_filter_key {r : α} (h : rows.filter (key · = t) = [r]) : r ∈ rows :=
  (List.mem_filter.mp (h ▸ List.mem_singleton_self r)).1

theorem not_mem_of_filter_key (h : rows.filter (key · = t) = []) : t ∉ rows.map key := by
  rintro hmem
  obtain ⟨r, hr, rfl⟩ := List.mem_map.mp hmem
  exact List.filter_eq_nil_iff.mp h r hr (decide_eq_true rfl)

end

theorem shows_rowsAt (k : RowKey) : journal.Shows k (rowsAt k) := by
  intro db w hk
  cases k with
  | user id => rfl
  | question id => rfl
  | vote id =>
    cases w with
    | insertVote row =>
      have hne : id ≠ row.id := fun h => hk (h ▸ List.mem_singleton_self _)
      exact congrArg (·, []) (filter_key_snoc hne)
    | deleteVote i =>
      have hne : id ≠ i := fun h => hk (h ▸ List.mem_singleton_self _)
      exact congrArg (·, []) (filter_key_removeBy hne)
    | _ => rfl
  | answer id =>
    cases w with
    | insertAnswer row =>
      have hne : id ≠ row.id := fun h => hk (h ▸ List.mem_singleton_self _)
      exact congrArg (([], ·)) (filter_key_snoc hne)
    | updateAnswer row =>
      have hne : id ≠ row.id := fun h => hk (h ▸ List.mem_singleton_self _)
      exact congrArg (([], ·)) (filter_key_replaceBy hne)
    | deleteAnswer i =>
      have hne : id ≠ i := fun h => hk (h ▸ List.mem_singleton_self _)
      exact congrArg (([], ·)) (filter_key_removeBy hne)
    | _ => rfl

structure Placed (db : Db) (seq : Seq) (t : Int) (u : String) (row : VoteRow) : Prop where
  vote : VoteOf t u row
  drawn : row.id ≤ seq.usersVotes
  absent : db.usersVotes.filter (·.id = row.id) = []

structure Dropped (db : Db) (t : Int) (u : String) (row : VoteRow) : Prop where
  vote : row.matches t "answer" u = true
  present : db.usersVotes.filter (·.id = row.id) = [row]

/-- The writes a session has made in a phase, and what it found. -/
inductive Holds (db : Db) (seq : Seq) : Phase → Option (List Write) → Prop
  | idle : Holds db seq .idle none
  | begun : Holds db seq .begun (some [])
  | placed {t : Int} {u : String} (row : VoteRow) : Placed db seq t u row →
      Holds db seq (.placed t u) (some [.insertVote row])
  | counted {t : Int} {u : String} (row : VoteRow) (a : AnswerRow) (now : Int) :
      Placed db seq t u row → db.answers.filter (·.id = t) = [a] →
      Holds db seq (.counted t u) (some [.insertVote row, .updateAnswer (upvoted a now)])
  | dropped {t : Int} {u : String} (row : VoteRow) : Dropped db t u row →
      Holds db seq (.dropped t u) (some [.deleteVote row.id])
  | discounted {t : Int} {u : String} (row : VoteRow) (a : AnswerRow) (now : Int) :
      Dropped db t u row → db.answers.filter (·.id = t) = [a] →
      Holds db seq (.discounted t u) (some [.deleteVote row.id, .updateAnswer (downvoted a now)])
  | broken (l : List Write) : Holds db seq .broken (some l)

variable {db db' : Db} {seq seq' : Seq} {φ φ' : Phase} {s s' : Store} {i : Nat}

theorem Holds.idle_iff {log : Option (List Write)} (h : Holds db seq φ log) :
    φ = .idle ↔ log = none := by
  cases h with
  | idle => exact iff_of_true rfl rfl
  | _ => exact iff_of_false (by rintro ⟨⟩) (by rintro ⟨⟩)

theorem Holds.frame (h : Holds s.pg.db seq φ (s.pg.log i)) (hseq : Drawn seq seq')
    (hrows : ∀ k, s.pg.Locks journal i k → rowsAt k db' = rowsAt k s.pg.db) :
    Holds db' seq' φ (s.pg.log i) := by
  have locked {l : List Write} (hl : some l = s.pg.log i) {w : Write} (hw : w ∈ l) {k : RowKey}
      (hk : k ∈ w.rows) : rowsAt k db' = rowsAt k s.pg.db :=
    hrows k ⟨l, hl.symm, w, hw, hk⟩
  have vote {id : Int} (hk : rowsAt (.vote id) db' = rowsAt (.vote id) s.pg.db) :
      db'.usersVotes.filter (·.id = id) = s.pg.db.usersVotes.filter (·.id = id) :=
    congrArg Prod.fst hk
  have answer {a : AnswerRow} {t : Int} (ha : s.pg.db.answers.filter (·.id = t) = [a])
      (hk : rowsAt (.answer a.id) db' = rowsAt (.answer a.id) s.pg.db) :
      db'.answers.filter (·.id = t) = [a] := by
    obtain ⟨-, rfl⟩ := eq_of_filter ha
    exact (congrArg Prod.snd hk).trans ha
  generalize hlog : s.pg.log i = log at h locked
  cases h with
  | idle => exact .idle
  | begun => exact .begun
  | placed row hp =>
    exact .placed row ⟨hp.vote, hp.drawn.trans hseq.usersVotes,
      (vote (locked rfl (.head _) (.head _))).trans hp.absent⟩
  | counted row a now hp ha =>
    exact .counted row a now ⟨hp.vote, hp.drawn.trans hseq.usersVotes,
      (vote (locked rfl (.head _) (.head _))).trans hp.absent⟩
      (answer ha (locked rfl (.tail _ (.head _)) (.head _)))
  | dropped row hd =>
    exact .dropped row ⟨hd.vote, (vote (locked rfl (.head _) (.head _))).trans hd.present⟩
  | discounted row a now hd ha =>
    exact .discounted row a now
      ⟨hd.vote, (vote (locked rfl (.head _) (.head _))).trans hd.present⟩
      (answer ha (locked rfl (.tail _ (.head _)) (.head _)))
  | broken l => exact .broken l

theorem Holds.rank (h : Holds db seq φ (s.pg.log i)) {k : RowKey} (hk : s.pg.Locks journal i k) :
    1 ≤ φ.rank ∧ ∀ t, k = .answer t → φ.rank = 2 := by
  obtain ⟨l, hl, w, hw, hrow⟩ := hk
  rw [hl] at h
  cases h with
  | begun => exact absurd hw List.not_mem_nil
  | placed row hp =>
    rw [List.mem_singleton.mp hw] at hrow
    refine ⟨le_rfl, fun t ht => ?_⟩
    rw [ht] at hrow
    cases List.mem_singleton.mp hrow
  | dropped row hd =>
    rw [List.mem_singleton.mp hw] at hrow
    refine ⟨le_rfl, fun t ht => ?_⟩
    rw [ht] at hrow
    cases List.mem_singleton.mp hrow
  | counted row a now hp ha => exact ⟨Nat.le_succ 1, fun _ _ => rfl⟩
  | discounted row a now hd ha => exact ⟨Nat.le_succ 1, fun _ _ => rfl⟩
  | broken l => exact ⟨Nat.le_succ 1, fun _ _ => rfl⟩

end QaSys.Concurrent
