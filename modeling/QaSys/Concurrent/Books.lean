import QaSys.Concurrent.Phases
import QaSys.Data.Locks
import QaSys.Vote.Ledger

/-! What the rows of the votes and the answers say, and what the statements that are transactions of
their own leave of it. -/

namespace QaSys.Concurrent

open UserVote Content Ledger

/-- The rows everybody sees: keys are not given twice, and the counter of each answer is the number
of its votes. -/
structure Books (db : Db) (seq : Seq) : Prop where
  ids : (db.usersVotes.map VoteRow.id).Nodup
  drawn : ∀ r ∈ db.usersVotes, r.id ≤ seq.usersVotes
  known : ∀ r ∈ db.usersVotes, r.targetId ≤ seq.answers
  keyed : (db.answers.map AnswerRow.id).Nodup
  answers : ∀ a ∈ db.answers, a.id ≤ seq.answers
  counted : ∀ a ∈ db.answers, a.agreeCount = tally db a.id
  asked : (db.questions.map QuestionRow.id).Nodup
  questions : ∀ q ∈ db.questions, q.id ≤ seq.questions

structure VoteOf (t : Int) (u : String) (row : VoteRow) : Prop where
  target : row.targetId = t
  typed : row.targetType.val = "answer"
  author : Varchar.assign 50 u = some row.createdBy

structure Drawn (seq seq' : Seq) : Prop where
  questions : seq.questions ≤ seq'.questions
  answers : seq.answers ≤ seq'.answers
  usersVotes : seq.usersVotes ≤ seq'.usersVotes

/-- What a statement of its own does to the questions and the answers. -/
inductive Edit (db : Db) (seq : Seq) : Stmt → Db → Prop
  | aside {q : Stmt} {db' : Db} : db'.questions = db.questions → db'.answers = db.answers →
      Edit db seq q db'
  | addQuestion {title content u : String} {now : Int} (row : QuestionRow) : row.readCount = 0 →
      row.id = seq.questions + 1 → advance seq.questions = row.id →
      Edit db seq (.insertQuestion title content u now)
        { db with questions := db.questions ++ [row] }
  | changeQuestion {q : Stmt} (id : Int) (f : QuestionRow → QuestionRow) :
      (∀ r, (f r).id = r.id ∧ (f r).createdBy = r.createdBy ∧ (f r).createdAt = r.createdAt) →
      (∀ r, (f r).title = r.title ∧ (f r).content = r.content ∧ (f r).updatedBy = r.updatedBy ∨
        ∃ title u at', q = .updateQuestion title (f r).content at' u id ∧
          Varchar.assign 300 title = some (f r).title ∧
          Varchar.assign 50 u = some (f r).updatedBy) →
      (∀ r, (f r).readCount = r.readCount ∨ ∃ n, q = .addReadCount n id) →
      Edit db seq q { db with questions := db.questions.map fun r => if r.id = id then f r else r }
  | dropQuestions {q : Stmt} (p : QuestionRow → Bool) :
      Edit db seq q { db with questions := db.questions.filter fun r => !p r }
  | addAnswer {questionId now : Int} {content u : String} (row : AnswerRow) : row.agreeCount = 0 →
      row.id = seq.answers + 1 → advance seq.answers = row.id →
      Edit db seq (.insertAnswer questionId content u now)
        { db with answers := db.answers ++ [row] }
  | changeAnswer {content u : String} {now : Int} (id : Int) (by' : Varchar 50) :
      Varchar.assign 50 u = some by' →
      Edit db seq (.updateAnswer content u now id) { db with
        answers := db.answers.map fun r => if r.id = id then answered r content by' now else r }
  | dropAnswers {q : Stmt} (p : AnswerRow → Bool) :
      Edit db seq q { db with answers := db.answers.filter fun r => !p r }

variable {db db' : Db} {seq seq' : Seq} {q : Stmt}

theorem Drawn.refl : Drawn seq seq := ⟨le_rfl, le_rfl, le_rfl⟩

theorem Drawn.draw (q : Stmt) (seq : Seq) : Drawn seq (q.draw seq) := by
  cases q with
  | insertQuestion title content u now => exact ⟨le_advance _, le_rfl, le_rfl⟩
  | insertAnswer questionId content u now => exact ⟨le_rfl, le_advance _, le_rfl⟩
  | insertVote t ty u now => exact ⟨le_rfl, le_rfl, le_advance _⟩
  | _ => exact ⟨le_rfl, le_rfl, le_rfl⟩

theorem Drawn.trans {seq'' : Seq} (h : Drawn seq seq') (h' : Drawn seq' seq'') : Drawn seq seq'' :=
  ⟨h.questions.trans h'.questions, h.answers.trans h'.answers, h.usersVotes.trans h'.usersVotes⟩

theorem Books.empty {seq : Seq} : Books .empty seq :=
  ⟨List.nodup_nil, nofun, nofun, List.nodup_nil, nofun, nofun, List.nodup_nil, nofun⟩

theorem Books.drawn_on (h : Books db seq) (hseq : Drawn seq seq') : Books db seq' :=
  ⟨h.ids, fun r hr => (h.drawn r hr).trans hseq.usersVotes,
    fun r hr => (h.known r hr).trans hseq.answers, h.keyed,
    fun a ha => (h.answers a ha).trans hseq.answers, h.counted, h.asked,
    fun r hr => (h.questions r hr).trans hseq.questions⟩

theorem Books.with_questions (h : Books db seq) {rows : List QuestionRow}
    (hasked : (rows.map QuestionRow.id).Nodup) (hseq : ∀ r ∈ rows, r.id ≤ seq.questions) :
    Books { db with questions := rows } seq :=
  ⟨h.ids, h.drawn, h.known, h.keyed, h.answers, h.counted, hasked, hseq⟩

theorem Books.with_answers (h : Books db seq) {rows : List AnswerRow}
    (hkeyed : (rows.map AnswerRow.id).Nodup) (hseq : ∀ a ∈ rows, a.id ≤ seq.answers)
    (hcounted : ∀ a ∈ rows, a.agreeCount = tally db a.id) :
    Books { db with answers := rows } seq :=
  ⟨h.ids, h.drawn, h.known, hkeyed, hseq, hcounted, h.asked, h.questions⟩

theorem nodup_snoc {α : Type*} {key : α → Int} {rows : List α} {row : α}
    (hnd : (rows.map key).Nodup) (hnew : ∀ r ∈ rows, key r < key row) :
    ((rows ++ [row]).map key).Nodup := by
  rw [List.map_append, List.map_singleton]
  refine hnd.append (List.nodup_singleton _) (List.disjoint_singleton.mpr fun hmem => ?_)
  obtain ⟨r, hr, heq⟩ := List.mem_map.mp hmem
  exact absurd heq (hnew r hr).ne

theorem Books.tally_eq_zero (h : Books db seq) {t : Int} (ht : seq.answers < t) :
    tally db t = 0 := by
  refine List.countP_eq_zero.mpr fun r hr => ?_
  have := h.known r hr
  simp only [decide_eq_true_eq]
  omega

theorem Books.edit (h : Books db seq) (he : Edit db seq q db')
    (hvotes : db'.usersVotes = db.usersVotes) : Books db' (q.draw seq) := by
  have hdrawn := h.drawn_on (.draw q seq)
  cases he with
  | aside hq ha =>
    refine ⟨by rw [hvotes]; exact hdrawn.ids, by rw [hvotes]; exact hdrawn.drawn,
      by rw [hvotes]; exact hdrawn.known, by rw [ha]; exact hdrawn.keyed,
      by rw [ha]; exact hdrawn.answers, ?_, by rw [hq]; exact hdrawn.asked,
      by rw [hq]; exact hdrawn.questions⟩
    rw [ha]
    intro a hmem
    rw [h.counted a hmem, tally, tally, hvotes]
  | addQuestion row _ hid hadv =>
    refine hdrawn.with_questions (nodup_snoc h.asked fun r hr => ?_) fun r hr => ?_
    · have := h.questions r hr
      omega
    · rcases List.mem_append.mp hr with hr | hr
      · exact hdrawn.questions r hr
      · rw [List.mem_singleton.mp hr]
        exact hadv.ge
  | changeQuestion id f hf _ _ =>
    refine hdrawn.with_questions ?_ fun r hr => ?_
    · rw [map_key_update f (fun r => (hf r).1)]
      exact h.asked
    · obtain ⟨x, hx, rfl⟩ := List.mem_map.mp hr
      have hid : (if x.id = id then f x else x).id = x.id := by
        split
        · exact (hf x).1
        · rfl
      rw [hid]
      exact hdrawn.questions x hx
  | dropQuestions p =>
    exact hdrawn.with_questions (h.asked.sublist (List.filter_sublist.map _))
      fun r hr => hdrawn.questions r (List.mem_filter.mp hr).1
  | addAnswer row hzero hid hadv =>
    refine hdrawn.with_answers (nodup_snoc h.keyed fun r hr => ?_) (fun a ha => ?_) fun a ha => ?_
    · have := h.answers r hr
      omega
    · rcases List.mem_append.mp ha with ha | ha
      · exact hdrawn.answers a ha
      · rw [List.mem_singleton.mp ha]
        exact hadv.ge
    · rcases List.mem_append.mp ha with ha | ha
      · exact h.counted a ha
      · rw [List.mem_singleton.mp ha, hzero, h.tally_eq_zero (by omega)]
        rfl
  | @changeAnswer content u now id by' hby =>
    have row (r : AnswerRow) : (if r.id = id then answered r content by' now else r).id = r.id ∧
        (if r.id = id then answered r content by' now else r).agreeCount = r.agreeCount := by
      split <;> exact ⟨rfl, rfl⟩
    refine hdrawn.with_answers ?_ (fun a ha => ?_) fun a ha => ?_
    · rw [ids_answered]
      exact h.keyed
    · obtain ⟨r, hr, rfl⟩ := List.mem_map.mp ha
      rw [(row r).1]
      exact hdrawn.answers r hr
    · obtain ⟨r, hr, rfl⟩ := List.mem_map.mp ha
      rw [(row r).1, (row r).2]
      exact h.counted r hr
  | dropAnswers p =>
    exact hdrawn.with_answers (h.keyed.sublist (List.filter_sublist.map _))
      (fun a ha => hdrawn.answers a (List.mem_filter.mp ha).1)
      fun a ha => h.counted a (List.mem_filter.mp ha).1

theorem foldl_changeQuestions (h : Books db seq) (id : Int) {f : QuestionRow → QuestionRow}
    (hf : ∀ r, (f r).id = r.id) :
    ((db.questions.filter (·.id = id)).map fun r => Write.updateQuestion (f r)).foldl Db.apply db =
      { db with questions := db.questions.map fun r => if r.id = id then f r else r } := by
  rw [← foldl_replaceBy_filter h.asked id hf, ← foldl_updateQuestion, List.map_map]
  rfl

theorem foldl_dropQuestions (h : Books db seq) (p : QuestionRow → Bool) :
    ((db.questions.filter p).map fun r => Write.deleteQuestion r.id).foldl Db.apply db =
      { db with questions := db.questions.filter fun r => !p r } := by
  rw [← foldl_removeBy_filter h.asked, ← foldl_deleteQuestion, List.map_map]
  rfl

theorem foldl_changeAnswers (h : Books db seq) (id : Int) {f : AnswerRow → AnswerRow}
    (hf : ∀ r, (f r).id = r.id) :
    ((db.answers.filter (·.id = id)).map fun r => Write.updateAnswer (f r)).foldl Db.apply db =
      { db with answers := db.answers.map fun r => if r.id = id then f r else r } := by
  rw [← foldl_replaceBy_filter h.keyed id hf, ← foldl_updateAnswer, List.map_map]
  rfl

theorem foldl_dropAnswers (h : Books db seq) (p : AnswerRow → Bool) :
    ((db.answers.filter p).map fun r => Write.deleteAnswer r.id).foldl Db.apply db =
      { db with answers := db.answers.filter fun r => !p r } := by
  rw [← foldl_removeBy_filter h.keyed, ← foldl_deleteAnswer, List.map_map]
  rfl

theorem edit_of_eval (h : Books db seq) (hq : Civil q) {a : q.Reply} {ws : List Write}
    (heval : q.eval seq db = .ok (a, ws)) :
    Edit db seq q (ws.foldl Db.apply db) ∧ (ws.foldl Db.apply db).usersVotes = db.usersVotes := by
  have edited {q : Stmt} {ws : List Write} {db' : Db} (heq : ws.foldl Db.apply db = db')
      (he : Edit db seq q db') (hv : db'.usersVotes = db.usersVotes) :
      Edit db seq q (ws.foldl Db.apply db) ∧
        (ws.foldl Db.apply db).usersVotes = db.usersVotes := by
    rw [heq]
    exact ⟨he, hv⟩
  have light (hlight : q.Light) : Edit db seq q (ws.foldl Db.apply db) ∧
      (ws.foldl Db.apply db).usersVotes = db.usersVotes := by
    obtain ⟨rfl, -⟩ := hlight.writes heval
    exact ⟨.aside rfl rfl, rfl⟩
  cases q with
  | insertUser username password openid now =>
    obtain ⟨row, rfl, -⟩ := eval_insertUser heval
    exact ⟨.aside rfl rfl, rfl⟩
  | insertQuestion title content u now =>
    obtain ⟨id, hid, heval⟩ := except_bind_eq_ok heval
    obtain ⟨title', -, heval⟩ := except_bind_eq_ok heval
    obtain ⟨by', -, heval⟩ := except_bind_eq_ok heval
    cases heval
    obtain ⟨hid, hadv⟩ := nextval_eq_ok hid
    exact ⟨.addQuestion _ rfl hid hadv, rfl⟩
  | updateQuestion title content at' u id =>
    obtain ⟨title', htitle, heval⟩ := except_bind_eq_ok heval
    obtain ⟨by', hby, heval⟩ := except_bind_eq_ok heval
    cases heval
    exact edited (foldl_changeQuestions h id fun _ => rfl)
      (.changeQuestion id _ (fun _ => ⟨rfl, rfl, rfl⟩) (fun _ =>
        .inr ⟨title, u, at', rfl, assign_eq_ok htitle, assign_eq_ok hby⟩) fun _ => .inl rfl) rfl
  | addReadCount increment id =>
    cases heval
    exact edited (foldl_changeQuestions h id fun _ => rfl)
      (.changeQuestion id _ (fun _ => ⟨rfl, rfl, rfl⟩) (fun _ => .inl ⟨rfl, rfl, rfl⟩)
        fun _ => .inr ⟨increment, rfl⟩) rfl
  | deleteQuestion id u =>
    cases heval
    exact edited (foldl_dropQuestions h _) (.dropQuestions _) rfl
  | insertAnswer questionId content u now =>
    obtain ⟨row, -, rfl, -, -, -, hzero, -, -, hid, hadv⟩ := eval_insertAnswer heval
    exact ⟨.addAnswer row hzero hid hadv, rfl⟩
  | updateAnswer content u now id =>
    obtain ⟨by', hby, heval⟩ := except_bind_eq_ok heval
    cases heval
    exact edited (foldl_changeAnswers (f := (answered · content by' now)) h id fun _ => rfl)
      (.changeAnswer id by' (assign_eq_ok hby)) rfl
  | deleteAnswer id u =>
    cases heval
    exact edited (foldl_dropAnswers h _) (.dropAnswers _) rfl
  | addAgree n now id => exact hq.elim
  | subAgree n now id => exact hq.elim
  | insertVote t ty u now => exact hq.elim
  | deleteVote t ty u => exact hq.elim
  | _ => exact light trivial

end QaSys.Concurrent
