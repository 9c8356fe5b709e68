import QaSys.Concurrent.Books
import QaSys.Program.Runs

/-! The database as it looks from outside: statements, votes and withdrawals of votes, each at
once. -/

namespace QaSys.Concurrent

open UserVote Ledger Overlap

/-- What everybody sees of the database. -/
structure Seen where
  db : Db
  seq : Seq

/-- What can happen at once, by the call that makes it happen. -/
inductive Happens (x : Seen) : Option Call → Seen → Prop
  | nothing {c : Option Call} {seq : Seq} : Drawn x.seq seq → Happens x c ⟨x.db, seq⟩
  | statement {q : Stmt} {a : q.Reply} {ws : List Write} : Civil q →
      q.eval x.seq x.db = .ok (a, ws) →
      Happens x (some (.sql q)) ⟨ws.foldl Db.apply x.db, q.draw x.seq⟩
  | vote {t now : Int} {u : String} {row : VoteRow} {a : AnswerRow} : VoteOf t u row →
      row.id ∉ x.db.usersVotes.map VoteRow.id → row.id ≤ x.seq.usersVotes →
      x.db.answers.filter (·.id = t) = [a] →
      Happens x (some .commit) ⟨castVote x.db now row a, x.seq⟩
  | withdrawal {t now : Int} {u : String} {row : VoteRow} {a : AnswerRow} :
      row ∈ x.db.usersVotes → row.matches t "answer" u = true →
      x.db.answers.filter (·.id = t) = [a] →
      Happens x (some .commit) ⟨cancelVote x.db now row a, x.seq⟩

variable {x x' : Seen} {c : Option Call} {db : Db} {seq : Seq} {t now : Int} {u : String}
  {row : VoteRow} {a : AnswerRow}

theorem target_of_matches (h : row.matches t "answer" u = true) : row.targetId = t := by
  simp only [VoteRow.matches, Bool.and_eq_true, decide_eq_true_eq] at h
  exact h.1.1

theorem Books.castVote (h : Books db seq) (hv : VoteOf t u row)
    (hnew : row.id ∉ db.usersVotes.map VoteRow.id) (hdrawn : row.id ≤ seq.usersVotes)
    (hone : db.answers.filter (·.id = t) = [a]) : Books (UserVote.castVote db now row a) seq := by
  obtain ⟨ha, hat⟩ := eq_of_filter hone
  refine ⟨?_, fun r hr => ?_, fun r hr => ?_, ?_, ids_replaceBy h.answers,
    counted_castVote h.counted ha (hv.target.trans hat.symm), h.asked, h.questions⟩
  · simp only [UserVote.castVote, List.map_append, List.map_singleton]
    exact h.ids.append (List.nodup_singleton _) (List.disjoint_singleton.mpr hnew)
  · rcases List.mem_append.mp hr with hr | hr
    · exact h.drawn r hr
    · rw [List.mem_singleton.mp hr]
      exact hdrawn
  · rcases List.mem_append.mp hr with hr | hr
    · exact h.known r hr
    · rw [List.mem_singleton.mp hr, hv.target, ← hat]
      exact h.answers a ha
  · simp only [UserVote.castVote, map_key_replaceBy]
    exact h.keyed

theorem Books.cancelVote (h : Books db seq) (hrow : row ∈ db.usersVotes) (ht : row.targetId = t)
    (hone : db.answers.filter (·.id = t) = [a]) :
    Books (UserVote.cancelVote db now row a) seq := by
  obtain ⟨ha, hat⟩ := eq_of_filter hone
  refine ⟨nodup_map_removeBy h.ids, fun r hr => h.drawn r (mem_removeBy.mp hr).1,
    fun r hr => h.known r (mem_removeBy.mp hr).1, ?_, ids_replaceBy h.answers,
    counted_cancelVote h.ids h.counted ha hrow (ht.trans hat.symm), h.asked, h.questions⟩
  simp only [UserVote.cancelVote, map_key_replaceBy]
  exact h.keyed

theorem Books.happens (h : Books x.db x.seq) (hx : Happens x c x') : Books x'.db x'.seq := by
  cases hx with
  | nothing hseq => exact h.drawn_on hseq
  | statement hq heval =>
    obtain ⟨he, hvotes⟩ := edit_of_eval h hq heval
    exact h.edit he hvotes
  | vote hv hnew hdrawn hone => exact h.castVote hv hnew hdrawn hone
  | withdrawal hrow hm hone => exact h.cancelVote hrow (target_of_matches hm) hone

/-- Where an answer comes from: its key was just drawn, or it was there before, for the same
question and by the same author, with the same text or one that a statement brings. -/
def AnswerFrom (x : Seen) (c : Option Call) (a' : AnswerRow) : Prop :=
  x.seq.answers < a'.id ∨ ∃ a ∈ x.db.answers, a.id = a'.id ∧ a.questionId = a'.questionId ∧
    a.createdBy = a'.createdBy ∧ a.createdAt = a'.createdAt ∧
    (a.content = a'.content ∧ a.updatedBy = a'.updatedBy ∨ ∃ u now,
      c = some (.sql (.updateAnswer a'.content u now a'.id)) ∧
      Varchar.assign 50 u = some a'.updatedBy)

def QuestionFrom (x : Seen) (c : Option Call) (r' : QuestionRow) : Prop :=
  x.seq.questions < r'.id ∨ ∃ r ∈ x.db.questions, r.id = r'.id ∧ r.createdBy = r'.createdBy ∧
    r.createdAt = r'.createdAt ∧
    (r.title = r'.title ∧ r.content = r'.content ∧ r.updatedBy = r'.updatedBy ∨ ∃ title u now,
      c = some (.sql (.updateQuestion title r'.content now u r'.id)) ∧
      Varchar.assign 300 title = some r'.title ∧ Varchar.assign 50 u = some r'.updatedBy)

theorem AnswerFrom.refl (h : a ∈ x.db.answers) : AnswerFrom x c a :=
  .inr ⟨a, h, rfl, rfl, rfl, rfl, .inl ⟨rfl, rfl⟩⟩

theorem QuestionFrom.refl {r : QuestionRow} (h : r ∈ x.db.questions) : QuestionFrom x c r :=
  .inr ⟨r, h, rfl, rfl, rfl, .inl ⟨rfl, rfl, rfl⟩⟩

theorem answerFrom_replaceBy {n : Int} {at' : Option Int}
    (hone : x.db.answers.filter (·.id = t) = [a]) {a' : AnswerRow}
    (ha' : a' ∈ replaceBy AnswerRow.id { a with agreeCount := n, updatedAt := at' } x.db.answers) :
    AnswerFrom x c a' := by
  rcases mem_replaceBy.mp ha' with ⟨_, _, _, rfl⟩ | ⟨ha', -⟩
  · exact .inr ⟨a, (eq_of_filter hone).1, rfl, rfl, rfl, rfl, .inl ⟨rfl, rfl⟩⟩
  · exact .refl ha'

theorem answers_from (h : Books x.db x.seq) (hx : Happens x c x') :
    ∀ a' ∈ x'.db.answers, AnswerFrom x c a' := by
  intro a' ha'
  cases hx with
  | nothing => exact .refl ha'
  | vote _ _ _ hone => exact answerFrom_replaceBy hone ha'
  | withdrawal _ _ hone => exact answerFrom_replaceBy hone ha'
  | @statement q r ws hq heval =>
    obtain ⟨he, -⟩ := edit_of_eval h hq heval
    change a' ∈ (ws.foldl Db.apply x.db).answers at ha'
    generalize ws.foldl Db.apply x.db = db' at he ha'
    cases he with
    | aside _ ha => exact .refl (ha ▸ ha')
    | addQuestion row _ _ _ => exact .refl ha'
    | changeQuestion id f _ _ _ => exact .refl ha'
    | dropQuestions p => exact .refl ha'
    | addAnswer row _ hid _ =>
      rcases List.mem_append.mp ha' with ha' | ha'
      · exact .refl ha'
      · rw [List.mem_singleton.mp ha']
        exact .inl (by omega)
    | @changeAnswer content u now id by' hby =>
      obtain ⟨a, ha, rfl⟩ := List.mem_map.mp ha'
      by_cases hid : a.id = id
      · rw [if_pos hid]
        exact .inr ⟨a, ha, rfl, rfl, rfl, rfl, .inr ⟨u, now, by rw [← hid]; rfl, hby⟩⟩
      · rw [if_neg hid]
        exact .refl ha
    | dropAnswers p => exact .refl (List.mem_filter.mp ha').1

theorem questions_from (h : Books x.db x.seq) (hx : Happens x c x') :
    ∀ r' ∈ x'.db.questions, QuestionFrom x c r' := by
  intro r' hr'
  cases hx with
  | nothing => exact .refl hr'
  | vote => exact .refl hr'
  | withdrawal => exact .refl hr'
  | @statement q r ws hq heval =>
    obtain ⟨he, -⟩ := edit_of_eval h hq heval
    change r' ∈ (ws.foldl Db.apply x.db).questions at hr'
    generalize ws.foldl Db.apply x.db = db' at he hr'
    cases he with
    | aside hquestions _ => exact .refl (hquestions ▸ hr')
    | addQuestion row _ hid _ =>
      rcases List.mem_append.mp hr' with hr' | hr'
      · exact .refl hr'
      · rw [List.mem_singleton.mp hr']
        exact .inl (by omega)
    | changeQuestion id f hf htext _ =>
      obtain ⟨r, hr, rfl⟩ := List.mem_map.mp hr'
      by_cases hid : r.id = id
      · rw [if_pos hid]
        obtain ⟨hkey, hby, hat⟩ := hf r
        refine .inr ⟨r, hr, hkey.symm, hby.symm, hat.symm, ?_⟩
        rcases htext r with ⟨h1, h2, h3⟩ | ⟨title, u, now, hq, htitle, hu⟩
        · exact .inl ⟨h1.symm, h2.symm, h3.symm⟩
        · exact .inr ⟨title, u, now, by rw [hkey, hid, hq], htitle, hu⟩
      · rw [if_neg hid]
        exact .refl hr
    | dropQuestions p => exact .refl (List.mem_filter.mp hr').1
    | addAnswer row _ _ _ => exact .refl hr'
    | changeAnswer id by' _ => exact .refl hr'
    | dropAnswers p => exact .refl hr'

theorem Happens.drawn (hx : Happens x c x') : Drawn x.seq x'.seq := by
  cases hx with
  | nothing hseq => exact hseq
  | @statement q r ws hq heval => exact .draw q x.seq
  | vote => exact .refl
  | withdrawal => exact .refl

end QaSys.Concurrent
