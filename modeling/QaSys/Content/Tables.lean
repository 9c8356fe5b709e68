import QaSys.Store.CallLaws
import QaSys.Store.SqlLaws

/-! The tables of questions, answers and votes, and what the statements on them leave. -/

namespace QaSys

/-- Keys a sequence has handed out, of which `last` is the latest. -/
structure Serial (ids : List Int) (last : Int) : Prop where
  nodup : ids.Nodup
  range : ∀ i ∈ ids, 0 < i ∧ i ≤ last ∧ i ≤ i64Max
  nonneg : 0 ≤ last

namespace Serial

variable {ids : List Int} {last : Int}

theorem nil : Serial [] 0 := ⟨List.nodup_nil, nofun, le_rfl⟩

theorem mono (h : Serial ids last) {last' : Int} (hle : last ≤ last') : Serial ids last' :=
  ⟨h.nodup, fun i hi => ⟨(h.range i hi).1, (h.range i hi).2.1.trans hle, (h.range i hi).2.2⟩,
    h.nonneg.trans hle⟩

theorem sublist (h : Serial ids last) {ids' : List Int} (hsub : ids'.Sublist ids) :
    Serial ids' last :=
  ⟨h.nodup.sublist hsub, fun i hi => h.range i (hsub.subset hi), h.nonneg⟩

theorem fresh (h : Serial ids last) {i : Int} (hi : last < i) : i ∉ ids := fun hm => by
  have := (h.range i hm).2.1
  omega

theorem snoc {key : α → Int} {rows : List α} (h : Serial (rows.map key) last) {row : α}
    (hid : key row = last + 1) (hadv : advance last = key row) :
    Serial ((rows ++ [row]).map key) (advance last) := by
  rw [List.map_append, List.map_singleton, hadv]
  generalize key row = i at hid hadv
  have hnonneg := h.nonneg
  have hmax : i ≤ i64Max := by
    unfold advance at hadv
    split at hadv <;> omega
  refine ⟨h.nodup.append (List.nodup_singleton _) ?_, fun j hj => ?_, by omega⟩
  · exact List.disjoint_singleton.mpr (h.fresh (by omega))
  · rcases List.mem_append.mp hj with hj | hj
    · have := h.range j hj
      omega
    · rw [List.mem_singleton.mp hj]
      omega

theorem snoc_range {key : α → Int} {rows : List α} (h : Serial (rows.map key) last) {row : α}
    (hid : key row = last + 1) (hadv : advance last = key row) :
    0 < key row ∧ key row ≤ i64Max := by
  have hmem : key row ∈ (rows ++ [row]).map key :=
    List.mem_map_of_mem (List.mem_append_right _ (List.mem_singleton_self row))
  have := (h.snoc hid hadv).range _ hmem
  exact ⟨this.1, this.2.2⟩

end Serial

namespace Content

structure Tables (s : Store) : Prop where
  quiet : s.pg.Quiet
  questions : Serial (s.db.questions.map QuestionRow.id) s.seq.questions
  answers : Serial (s.db.answers.map AnswerRow.id) s.seq.answers

structure Kept (s s' : Store) : Prop where
  quiet : s'.pg.Quiet
  questions : s'.db.questions = s.db.questions
  answers : s'.db.answers = s.db.answers
  usersVotes : s'.db.usersVotes = s.db.usersVotes
  questionsSeq : s.seq.questions ≤ s'.seq.questions
  answersSeq : s.seq.answers ≤ s'.seq.answers
  clock : s'.clock = s.clock

variable {s s' : Store}

theorem Tables.empty {size : Nat} {clock : Int} {supply : Nat → Uuid} :
    Tables (Store.empty size clock supply) :=
  ⟨fun _ => rfl, .nil, .nil⟩

theorem Kept.refl (hq : s.pg.Quiet) : Kept s s := ⟨hq, rfl, rfl, rfl, le_rfl, le_rfl, rfl⟩

theorem le_draw (q : Stmt) (seq : Seq) : seq.questions ≤ (q.draw seq).questions ∧
    seq.answers ≤ (q.draw seq).answers := by
  cases q with
  | insertQuestion title content createdBy createdAt => exact ⟨le_advance _, le_rfl⟩
  | insertAnswer questionId content createdBy createdAt => exact ⟨le_rfl, le_advance _⟩
  | _ => exact ⟨le_rfl, le_rfl⟩

theorem Kept.settled (hq : s.pg.Quiet) {q : Stmt} {seq : Seq}
    (h : seq = s.seq ∨ seq = q.draw s.seq) : Kept s (s.settled s.db seq) := by
  rcases h with rfl | rfl
  · exact .refl hq
  · obtain ⟨hquestions, hanswers⟩ := le_draw q s.seq
    exact ⟨hq, rfl, rfl, rfl, hquestions, hanswers, rfl⟩

theorem Tables.kept (h : Tables s) (hk : Kept s s') : Tables s' :=
  ⟨hk.quiet, by rw [hk.questions]; exact h.questions.mono hk.questionsSeq,
    by rw [hk.answers]; exact h.answers.mono hk.answersSeq⟩

def withQuestions (s : Store) (rows : List QuestionRow) (seq : Seq) : Store :=
  s.settled { s.db with questions := rows } seq

def withAnswers (s : Store) (rows : List AnswerRow) (seq : Seq) : Store :=
  s.settled { s.db with answers := rows } seq

theorem foldl_deleteQuestion (ids : List Int) (db : Db) :
    (ids.map Write.deleteQuestion).foldl Db.apply db = { db with
      questions := ids.foldl (fun rows id => removeBy QuestionRow.id id rows) db.questions } := by
  induction ids generalizing db with
  | nil => rfl
  | cons id ids ih => exact ih _

theorem foldl_updateQuestion (rows : List QuestionRow) (db : Db) :
    (rows.map Write.updateQuestion).foldl Db.apply db = { db with
      questions := rows.foldl (fun rows r => replaceBy QuestionRow.id r rows) db.questions } := by
  induction rows generalizing db with
  | nil => rfl
  | cons row rows ih => exact ih _

theorem foldl_deleteAnswer (ids : List Int) (db : Db) :
    (ids.map Write.deleteAnswer).foldl Db.apply db = { db with
      answers := ids.foldl (fun rows id => removeBy AnswerRow.id id rows) db.answers } := by
  induction ids generalizing db with
  | nil => rfl
  | cons id ids ih => exact ih _

theorem foldl_updateAnswer (rows : List AnswerRow) (db : Db) :
    (rows.map Write.updateAnswer).foldl Db.apply db = { db with
      answers := rows.foldl (fun rows r => replaceBy AnswerRow.id r rows) db.answers } := by
  induction rows generalizing db with
  | nil => rfl
  | cons row rows ih => exact ih _

theorem settled_deleteQuestions (h : Tables s) (p : QuestionRow → Bool) (seq : Seq) :
    s.settled (((s.db.questions.filter p).map fun r => Write.deleteQuestion r.id).foldl Db.apply
      s.db) seq = withQuestions s (s.db.questions.filter fun r => !p r) seq := by
  rw [withQuestions, ← foldl_removeBy_filter h.questions.nodup, ← foldl_deleteQuestion,
    List.map_map]
  rfl

theorem settled_updateQuestion (h : Tables s) (id : Int) (f : QuestionRow → QuestionRow)
    (hf : ∀ r, (f r).id = r.id) (seq : Seq) :
    s.settled (((s.db.questions.filter (·.id = id)).map fun r => Write.updateQuestion (f r)).foldl
      Db.apply s.db) seq =
      withQuestions s (s.db.questions.map fun r => if r.id = id then f r else r) seq := by
  rw [withQuestions, ← foldl_replaceBy_filter h.questions.nodup id hf, ← foldl_updateQuestion,
    List.map_map]
  rfl

theorem settled_deleteAnswers (h : Tables s) (p : AnswerRow → Bool) (seq : Seq) :
    s.settled (((s.db.answers.filter p).map fun r => Write.deleteAnswer r.id).foldl Db.apply
      s.db) seq = withAnswers s (s.db.answers.filter fun r => !p r) seq := by
  rw [withAnswers, ← foldl_removeBy_filter h.answers.nodup, ← foldl_deleteAnswer, List.map_map]
  rfl

theorem settled_updateAnswer (h : Tables s) (id : Int) (f : AnswerRow → AnswerRow)
    (hf : ∀ r, (f r).id = r.id) (seq : Seq) :
    s.settled (((s.db.answers.filter (·.id = id)).map fun r => Write.updateAnswer (f r)).foldl
      Db.apply s.db) seq =
      withAnswers s (s.db.answers.map fun r => if r.id = id then f r else r) seq := by
  rw [withAnswers, ← foldl_replaceBy_filter h.answers.nodup id hf, ← foldl_updateAnswer,
    List.map_map]
  rfl

end Content

end QaSys
