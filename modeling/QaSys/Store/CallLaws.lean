import QaSys.Store.Call

/-! What a single call does when no other session has a transaction open, whatever the environment
chooses. -/

namespace QaSys

open Transaction.Sessions

variable {s : Store} {allow : Choice → Prop}

namespace Store

def settled (s : Store) (db : Db) (seq : Seq) : Store :=
  { s with pg := { s.pg with db := db }, seq := seq }

def opened (s : Store) (l : List Write) (seq : Seq) : Store :=
  { s with pg := { s.pg with log := Function.update s.pg.log 0 (some l) }, seq := seq }

@[simp] theorem settled_db {db : Db} {seq : Seq} : (s.settled db seq).db = db := rfl

@[simp] theorem settled_seq {db : Db} {seq : Seq} : (s.settled db seq).seq = seq := rfl

theorem opened_alone (h : s.pg.Quiet) {l : List Write} {seq : Seq} :
    (s.opened l seq).pg.Alone 0 := fun j hj => by
  simp only [opened, Function.update_of_ne hj, h j]

@[simp] theorem opened_log {l : List Write} {seq : Seq} : (s.opened l seq).pg.log 0 = some l := by
  simp only [opened, Function.update_self]

def aborted (s : Store) : Store := { s with pg := s.pg.rollback 0 }

theorem settled_aborted (h : s.pg.Quiet) {db : Db} {seq : Seq} :
    (s.settled db seq).aborted = s.settled db seq := by
  have hlog : Function.update s.pg.log 0 none = s.pg.log :=
    Function.update_eq_self_iff.mpr (h 0).symm
  simp only [aborted, settled, rollback, hlog]

theorem opened_aborted (h : s.pg.Quiet) {l : List Write} {seq : Seq} :
    (s.opened l seq).aborted = s.settled s.db seq := by
  have hlog : Function.update s.pg.log 0 none = s.pg.log :=
    Function.update_eq_self_iff.mpr (h 0).symm
  simp only [aborted, opened, rollback, settled, db, Function.update_idem, hlog]

theorem opened_commit (h : s.pg.Quiet) {l : List Write} {seq : Seq} :
    { s.opened l seq with pg := (s.opened l seq).pg.commit journal 0 } =
      s.settled (l.foldl Db.apply s.db) seq := by
  have hlog : Function.update s.pg.log 0 none = s.pg.log :=
    Function.update_eq_self_iff.mpr (h 0).symm
  have hview : (s.opened l seq).pg.view journal 0 = l.foldl Db.apply s.db :=
    view_of_some opened_log
  simp only [commit, hview]
  simp only [opened, settled, Function.update_idem, hlog]

theorem exec_refused {i : Nat} {ch : Choice} {q : Stmt} (h : ch.Refuses q) :
    ∃ msg, s.exec i ch (.sql q) = some (.error (.sqlx (.other msg)), s) ∧
      s.exec i ch (.tx q) = some (.error (.sqlx (.other msg)), s) := by
  have hbind (hf : ¬ ch.Faulty) : ¬ q.Bindable := h.resolve_left hf
  cases ch with
  | fail msg => exact ⟨msg, rfl, rfl⟩
  | lost msg => exact ⟨msg, rfl, rfl⟩
  | serve => exact ⟨_, if_neg (hbind id), if_neg (hbind id)⟩
  | page next fields => exact ⟨_, if_neg (hbind id), if_neg (hbind id)⟩
  | raw value => exact ⟨_, if_neg (hbind id), if_neg (hbind id)⟩

theorem refuses_iff {ch : Choice} {q : Stmt} (hq : q.Bindable) : ch.Refuses q ↔ ch.Faulty :=
  or_iff_left (not_not.mpr hq)

theorem refuses_of_nil {ch : Choice} {q : Stmt} (h : q.bound = []) :
    ch.Refuses q ↔ ch.Faulty := refuses_iff (Stmt.bindable_of_nil h)

theorem not_refuses {ch : Choice} {q : Stmt} (hch : ¬ ch.Faulty) (hq : q.Bindable) :
    ¬ ch.Refuses q := mt (refuses_iff hq).mp hch

theorem exec_sql {i : Nat} (h : s.pg.Alone i) {ch : Choice} {q : Stmt} (hch : ¬ ch.Refuses q) :
    s.exec i ch (.sql q) = some (match q.eval s.seq s.db with
      | .error msg => (.error (.sqlx (.other msg)), s.settled s.db (q.draw s.seq))
      | .ok (a, ws) => (.ok a, s.settled (ws.foldl Db.apply s.db) (q.draw s.seq))) := by
  have served : s.statement q (auto journal i) = some (match q.eval s.seq s.db with
      | .error msg => (.error (.sqlx (.other msg)), s.settled s.db (q.draw s.seq))
      | .ok (a, ws) => (.ok a, s.settled (ws.foldl Db.apply s.db) (q.draw s.seq))) := by
    simp only [statement, if_pos (not_not.mp (not_or.mp hch).2), auto_alone h, Store.db]
    cases q.eval s.seq s.pg.db <;> rfl
  cases ch with
  | fail msg => exact absurd (.inl trivial) hch
  | lost msg => exact absurd (.inl trivial) hch
  | serve => exact served
  | page next fields => exact served
  | raw value => exact served

theorem serve_sql (h : s.pg.Alone 0) (q : Stmt) (ch : Choice) :
    (ch.Refuses q ∧ ∃ msg, serve ch (.sql q) s = (.error (.sqlx (.other msg)), s)) ∨
    ¬ ch.Refuses q ∧ serve ch (.sql q) s = match q.eval s.seq s.db with
      | .error msg => (.error (.sqlx (.other msg)), s.settled s.db (q.draw s.seq))
      | .ok (a, ws) => (.ok a, s.settled (ws.foldl Db.apply s.db) (q.draw s.seq)) := by
  by_cases hch : ch.Refuses q
  · obtain ⟨msg, hsql, -⟩ := exec_refused (s := s) (i := 0) hch
    exact .inl ⟨hch, msg, by rw [serve, hsql]; rfl⟩
  · refine .inr ⟨hch, ?_⟩
    rw [serve, exec_sql h hch]
    rfl

theorem serve_tx (h : s.pg.Quiet) {l : List Write} {seq : Seq} (q : Stmt) (ch : Choice) :
    (ch.Refuses q ∧ ∃ msg, serve ch (.tx q) (s.opened l seq) =
      (.error (.sqlx (.other msg)), s.opened l seq)) ∨
    serve ch (.tx q) (s.opened l seq) = match q.eval seq (l.foldl Db.apply s.db) with
      | .error msg => (.error (.sqlx (.other msg)), s.opened l (q.draw seq))
      | .ok (a, ws) => (.ok a, s.opened (l ++ ws) (q.draw seq)) := by
  by_cases hch : ch.Refuses q
  · obtain ⟨msg, -, htx⟩ := exec_refused (s := s.opened l seq) (i := 0) hch
    exact .inl ⟨hch, msg, by rw [serve, htx]; rfl⟩
  have served : (((s.opened l seq).statement q (stmt journal 0)).getD
      (.error (.sqlx (.other "lock timeout")), s.opened l seq)) =
      match q.eval seq (l.foldl Db.apply s.db) with
      | .error msg => (.error (.sqlx (.other msg)), s.opened l (q.draw seq))
      | .ok (a, ws) => (.ok a, s.opened (l ++ ws) (q.draw seq)) := by
    have hview : l.foldl journal.apply (s.opened l seq).pg.db = l.foldl Db.apply s.db := rfl
    simp only [statement, if_pos (not_not.mp (not_or.mp hch).2),
      stmt_alone (opened_alone h) opened_log, hview]
    simp only [opened, Function.update_idem]
    cases q.eval seq (l.foldl Db.apply s.db) <;> rfl
  cases ch with
  | fail msg => exact absurd (.inl trivial) hch
  | lost msg => exact absurd (.inl trivial) hch
  | serve => exact .inr served
  | page next fields => exact .inr served
  | raw value => exact .inr served

theorem exec_select (h : s.pg.Quiet) (i : Nat) {ch : Choice} {q : Stmt} (hch : ¬ ch.Refuses q)
    {a : q.Reply} (heval : q.eval s.seq s.db = .ok (a, [])) (hdraw : q.draw s.seq = s.seq) :
    s.exec i ch (.sql q) = some (.ok a, s) := by
  rw [exec_sql h.alone hch, heval, hdraw]
  rfl

theorem exec_read (h : s.pg.Quiet) (i : Nat) (ch : Choice) {q : Stmt} {a : q.Reply}
    (heval : q.eval s.seq s.db = .ok (a, [])) (hdraw : q.draw s.seq = s.seq) :
    (ch.Refuses q ∧ ∃ e, s.exec i ch (.sql q) = some (.error e, s)) ∨
      (¬ ch.Refuses q ∧ s.exec i ch (.sql q) = some (.ok a, s)) := by
  by_cases hch : ch.Refuses q
  · obtain ⟨msg, hsql, -⟩ := exec_refused (s := s) (i := i) hch
    exact .inl ⟨hch, _, hsql⟩
  · exact .inr ⟨hch, exec_select h i hch heval hdraw⟩

def logged (s : Store) (i : Nat) (l ws : List Write) (seq : Seq) : Store :=
  { s with pg := { s.pg with log := Function.update s.pg.log i (some (l ++ ws)) }, seq := seq }

theorem exec_tx {i : Nat} {ch : Choice} {l : List Write} (hlog : s.pg.log i = some l) {q : Stmt}
    {r : Except Err q.Reply} {s' : Store} (h : s.exec i ch (.tx q) = some (r, s')) :
    (ch.Refuses q ∧ s' = s ∧ ∃ e, r = .error e) ∨
    (∃ msg, q.eval s.seq (l.foldl Db.apply s.db) = .error msg ∧ r = .error (.sqlx (.other msg)) ∧
      s' = { s with seq := q.draw s.seq }) ∨
    ∃ a ws, q.eval s.seq (l.foldl Db.apply s.db) = .ok (a, ws) ∧
      s.pg.blocked journal i ws = false ∧ r = .ok a ∧ s' = s.logged i l ws (q.draw s.seq) := by
  by_cases hch : ch.Refuses q
  · obtain ⟨msg, -, htx⟩ := exec_refused (s := s) (i := i) hch
    cases htx.symm.trans h
    exact .inl ⟨hch, rfl, _, rfl⟩
  refine .inr ?_
  have hview : s.pg.view journal i = l.foldl Db.apply s.db := view_of_some hlog
  have h : s.statement q (stmt journal i) = some (r, s') := by
    cases ch with
    | fail msg => exact absurd (.inl trivial) hch
    | lost msg => exact absurd (.inl trivial) hch
    | serve => exact h
    | page next fields => exact h
    | raw value => exact h
  simp only [statement, if_pos (not_not.mp (not_or.mp hch).2), stmt, hlog, hview] at h
  cases heval : q.eval s.seq (l.foldl Db.apply s.db) with
  | error msg =>
    simp only [heval] at h
    cases h
    exact .inl ⟨msg, rfl, rfl, rfl⟩
  | ok res =>
    obtain ⟨a, ws⟩ := res
    simp only [heval] at h
    cases hb : s.pg.blocked journal i ws with
    | true =>
      rw [hb] at h
      cases h
    | false =>
      rw [hb] at h
      cases h
      exact .inr ⟨a, ws, rfl, hb, rfl, rfl⟩

theorem statement_eq_none {q : Stmt}
    {via : (Db → Except String (q.Reply × List Write)) → Transaction.Sessions Db Write →
      Option (Except String q.Reply × Transaction.Sessions Db Write)}
    (h : s.statement q via = none) : via (q.eval s.seq) s.pg = none := by
  unfold statement at h
  split at h
  · exact Option.map_eq_none_iff.mp h
  · cases h

theorem exec_tx_alone {i : Nat} (ha : s.pg.Alone i) {l : List Write} (hlog : s.pg.log i = some l)
    (q : Stmt) : (s.exec i .serve (.tx q)).isSome = true := by
  change (s.statement q (stmt journal i)).isSome = true
  unfold statement
  split
  swap
  · rfl
  simp only [stmt_alone ha hlog]
  cases q.eval s.seq (l.foldl journal.apply s.pg.db) <;> rfl

end Store

/-- A statement of its own fails without effect, or its writes are committed. -/
theorem ensures_query (h : s.pg.Quiet) {q : Stmt} {Q : Except Err q.Reply → Store → Prop}
    (hfail : ∀ ch, allow ch → ch.Refuses q → ∀ e, Q (.error e) s)
    (herr : ∀ msg, q.eval s.seq s.db = .error msg →
      Q (.error (.sqlx (.other msg))) (s.settled s.db (q.draw s.seq)))
    (hok : ∀ a ws, q.eval s.seq s.db = .ok (a, ws) →
      Q (.ok a) (s.settled (ws.foldl Db.apply s.db) (q.draw s.seq))) :
    (query q).Ensures Store.serve allow s Q := by
  refine Prog.ensures_op.mpr fun ch hch => ?_
  rcases Store.serve_sql h.alone q ch with ⟨hf, msg, hs⟩ | ⟨-, hs⟩
  · rw [hs]; exact hfail ch hch hf _
  · rw [hs]
    cases hq : q.eval s.seq s.db with
    | error msg => exact herr msg hq
    | ok r => exact hok r.1 r.2 hq

theorem ensures_refused {q : Stmt} (hq : ¬ q.Bindable) {Q : Except Err q.Reply → Store → Prop}
    (h : ∀ e, Q (.error e) s) : (query q).Ensures Store.serve allow s Q := by
  refine Prog.ensures_op.mpr fun ch _ => ?_
  obtain ⟨msg, hsql, -⟩ := @Store.exec_refused s 0 ch q (.inr hq)
  rw [Store.serve, hsql]
  exact h _

theorem ensures_select (hq : s.pg.Quiet) (hallow : ∀ ch, allow ch → ¬ ch.Faulty) {q : Stmt}
    (hbound : q.Bindable) {a : q.Reply} (heval : q.eval s.seq s.db = .ok (a, []))
    (hdraw : q.draw s.seq = s.seq) :
    (query q).Ensures Store.serve allow s fun r s' => s' = s ∧ r = .ok a := by
  refine ensures_query hq (fun ch hch hr => absurd hr (Store.not_refuses (hallow ch hch) hbound))
    ?_ ?_
  · intro msg herr
    rw [heval] at herr
    cases herr
  · intro b ws hok
    rw [heval] at hok
    cases hok
    exact ⟨by rw [hdraw]; rfl, rfl⟩

theorem ensures_tx (h : s.pg.Quiet) {l : List Write} {seq : Seq} {q : Stmt}
    {Q : Except Err q.Reply → Store → Prop}
    (hfail : ∀ ch, allow ch → ch.Refuses q → ∀ e, Q (.error e) (s.opened l seq))
    (herr : ∀ msg, q.eval seq (l.foldl Db.apply s.db) = .error msg →
      Q (.error (.sqlx (.other msg))) (s.opened l (q.draw seq)))
    (hok : ∀ a ws, q.eval seq (l.foldl Db.apply s.db) = .ok (a, ws) →
      Q (.ok a) (s.opened (l ++ ws) (q.draw seq))) :
    (await (.tx q)).Ensures Store.serve allow (s.opened l seq) Q := by
  refine Prog.ensures_op.mpr fun ch hch => ?_
  rcases Store.serve_tx h q ch with ⟨hf, msg, hs⟩ | hs
  · rw [hs]; exact hfail ch hch hf _
  · rw [hs]
    cases hq : q.eval seq (l.foldl Db.apply s.db) with
    | error msg => exact herr msg hq
    | ok r => exact hok r.1 r.2 hq

theorem exec_of_ensures {p : Svc A} {Q : Except Err A → Store → Prop}
    (hp : p.Ensures Store.serve (fun _ => True) s Q) (script : List Choice) :
    Q (p.run World.exec ⟨s, script⟩).1 (p.run World.exec ⟨s, script⟩).2.state :=
  hp.run trivial fun _ _ => trivial

theorem served_of_ensures {p : Svc A} {Q : Except Err A → Store → Prop}
    (hp : p.Ensures Store.serve (fun ch => ¬ ch.Faulty) s Q) :
    Q (p.run World.exec ⟨s, []⟩).1 (p.run World.exec ⟨s, []⟩).2.state := by
  have hscript : ∀ ch ∈ ([] : List Choice), ¬ ch.Faulty := nofun
  exact Prog.Ensures.run (d := .serve) id hscript hp

theorem ensures_now {Q : Except Err Int → Store → Prop} (h : Q (.ok s.clock) s) :
    (await .now).Ensures Store.serve allow s Q := Prog.ensures_op.mpr fun _ _ => h

theorem ensures_begin {Q : Except Err Unit → Store → Prop}
    (hfail : ∀ ch, allow ch → ch.Faulty → ∀ e, Q (.error e) s)
    (hok : Q (.ok ()) (s.opened [] s.seq)) :
    (await .begin).Ensures Store.serve allow s Q := Prog.ensures_op.mpr fun ch hch => by
  cases ch with
  | fail msg => exact hfail _ hch trivial _
  | lost msg => exact hfail _ hch trivial _
  | serve => exact hok
  | page next fields => exact hok
  | raw value => exact hok

theorem ensures_rollback {Q : Except Err Unit → Store → Prop} (h : Q (.ok ()) s.aborted) :
    (await .rollback).Ensures Store.serve allow s Q := Prog.ensures_op.mpr fun _ _ => h

/-- A commit that fails leaves the transaction rolled back. -/
theorem ensures_commit (h : s.pg.Quiet) {l : List Write} {seq : Seq}
    {Q : Except Err Unit → Store → Prop}
    (hfail : ∀ ch, allow ch → ch.Faulty → ∀ e, Q (.error e) (s.settled s.db seq))
    (hok : Q (.ok ()) (s.settled (l.foldl Db.apply s.db) seq)) :
    (await .commit).Ensures Store.serve allow (s.opened l seq) Q := by
  rw [← Store.opened_commit h] at hok
  rw [← Store.opened_aborted h (l := l)] at hfail
  refine Prog.ensures_op.mpr fun ch hch => ?_
  cases ch with
  | fail msg => exact hfail _ hch trivial _
  | lost msg => exact hfail _ hch trivial _
  | serve => exact hok
  | page next fields => exact hok
  | raw value => exact hok

@[simp] theorem ensures_ensure {cond : Bool} {msg : String} {Q : Except Err Unit → Store → Prop} :
    (ensure cond msg).Ensures Store.serve allow s Q ↔
      (cond = true → Q (.ok ()) s) ∧ (cond = false → Q (.error (.anyhow msg)) s) := by
  cases cond <;> simp [ensure]

@[simp] theorem ensures_context {o : Option A} {msg : String} {Q : Except Err A → Store → Prop} :
    (context o msg).Ensures Store.serve allow s Q ↔
      (∀ a, o = some a → Q (.ok a) s) ∧ (o = none → Q (.error (.anyhow msg)) s) := by
  cases o <;> simp [context]

def turn (script : List Choice) (n : Nat) : Choice := (script.drop n).headD .serve

theorem mem_of_turn {script : List Choice} {n : Nat} {value : String}
    (h : turn script n = .raw value) : .raw value ∈ script := by
  unfold turn at h
  cases hl : script.drop n with
  | nil =>
    rw [hl] at h
    cases h
  | cons ch rest =>
    rw [hl] at h
    exact List.mem_of_mem_drop (hl ▸ List.mem_cons.mpr (.inl h.symm))

section

open Prog

variable {script : List Choice} {n : Nat}

theorem ends_await {c : Call} {Q : Except Err c.Reply → World → Prop} :
    (await c).Ends World.exec ⟨s, script.drop n⟩ Q ↔
      Q (Store.serve (turn script n) c s).1
        ⟨(Store.serve (turn script n) c s).2, script.drop (n + 1)⟩ := by
  rw [← List.tail_drop]
  exact ends_op

/-- PostgreSQL takes the statement `q`, and its writes are committed. -/
def Store.Accepts (s : Store) (ch : Choice) (q : Stmt) : Prop :=
  ¬ ch.Refuses q ∧ (q.eval s.seq s.db).isOk = true

instance {ch : Choice} {q : Stmt} : Decidable (s.Accepts ch q) :=
  inferInstanceAs (Decidable (_ ∧ _))

theorem ends_query (hq : s.pg.Quiet) {q : Stmt} {Q : Except Err q.Reply → World → Prop}
    (hrefused : ¬ s.Accepts (turn script n) q → ∀ e seq, seq = s.seq ∨ seq = q.draw s.seq →
      Q (.error e) ⟨s.settled s.db seq, script.drop (n + 1)⟩)
    (hok : ∀ a ws, s.Accepts (turn script n) q → q.eval s.seq s.db = .ok (a, ws) →
      Q (.ok a) ⟨s.settled (ws.foldl Db.apply s.db) (q.draw s.seq), script.drop (n + 1)⟩) :
    (query q).Ends World.exec ⟨s, script.drop n⟩ Q := by
  refine ends_await.mpr ?_
  rcases Store.serve_sql hq.alone q (turn script n) with ⟨hf, msg, hs⟩ | ⟨hf, hs⟩
  · rw [hs]
    exact hrefused (fun h => h.1 hf) _ s.seq (.inl rfl)
  · rw [hs]
    cases heval : q.eval s.seq s.db with
    | error msg =>
      refine hrefused (fun h => ?_) _ _ (.inr rfl)
      rw [Store.Accepts, heval] at h
      exact nomatch h.2
    | ok res => exact hok res.1 res.2 ⟨hf, by rw [heval]; rfl⟩ heval

theorem ends_select (hq : s.pg.Quiet) {q : Stmt} {a : q.Reply}
    (heval : q.eval s.seq s.db = .ok (a, [])) (hdraw : q.draw s.seq = s.seq)
    {Q : Except Err q.Reply → World → Prop}
    (hfail : (turn script n).Refuses q → ∀ e, Q (.error e) ⟨s, script.drop (n + 1)⟩)
    (hok : ¬ (turn script n).Refuses q → Q (.ok a) ⟨s, script.drop (n + 1)⟩) :
    (query q).Ends World.exec ⟨s, script.drop n⟩ Q := by
  refine ends_await.mpr ?_
  rcases Store.serve_sql hq.alone q (turn script n) with ⟨hf, msg, hs⟩ | ⟨hf, hs⟩
  · rw [hs]
    exact hfail hf _
  · rw [hs, heval, hdraw]
    exact hok hf

end

end QaSys
