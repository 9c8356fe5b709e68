import QaSys.Content.Runs
import QaSys.Auth.Tabulated

/-! The number of answers a question says it has. -/

namespace QaSys.Content

open UserVote Runs

variable {svc : QaServiceImpl} {s s' : Store} {script : List Choice}

def replies (rows : List AnswerRow) (q : Int) : Nat := rows.countP (·.questionId = q)

def RepliesCounted (s : Store) : Prop :=
  ∀ r ∈ s.db.questions, r.replyCount = replies s.db.answers r.id

/-- What PostgreSQL is told to store or to delete is no answer of a stored question, and a question
that is stored has no answers yet. -/
def Unanswered (s : Store) : Event → Prop
  | .rpc c script => c.Accepted s script → match c with
    | .addQuestion _ => ∀ a ∈ s.db.answers, a.questionId ≠ s.seq.questions + 1
    | .addAnswer ⟨some a⟩ => ∀ r ∈ s.db.questions, r.id ≠ a.questionId.asI64
    | .deleteAnswer req => ∀ a ∈ s.db.answers, a.id = req.id.asI64 → a.createdBy.val = req.username →
      ∀ r ∈ s.db.questions, r.id ≠ a.questionId
    | _ => True
  | _ => True

instance : DecidablePred RepliesCounted := fun s =>
  inferInstanceAs (Decidable (∀ r ∈ s.db.questions, _))

instance : (e : Event) → Decidable (Unanswered s e)
  | .rpc c _ => match c with
    | .addQuestion _ | .deleteQuestion _ | .updateQuestion _ | .addAnswer ⟨some _⟩
    | .addAnswer ⟨none⟩ | .deleteAnswer _ | .updateAnswer _ | .agreeAnswer _ | .questionDetail _
    | .latestQuestion _ | .answerList _ | .answerDetail _ | .answerAgree _ | .userLogin _
    | .userLogout _ | .userRegister _ | .verifyToken _ => instDecidableForall
  | .tick _ | .vote .. => instDecidableTrue

theorem replies_congr {rows rows' : List AnswerRow}
    (h : rows'.map AnswerRow.questionId = rows.map AnswerRow.questionId) (q : Int) :
    replies rows' q = replies rows q := by
  have hcount (rows : List AnswerRow) :
      replies rows q = (rows.map AnswerRow.questionId).countP (· = q) := by
    rw [List.countP_map]
    rfl
  rw [hcount, hcount, h]

theorem replies_snoc {rows : List AnswerRow} {row : AnswerRow} {q : Int} :
    replies (rows ++ [row]) q = replies rows q + if row.questionId = q then 1 else 0 := by
  simp only [replies, List.countP_append, List.countP_singleton, decide_eq_true_eq]

theorem replies_filter {rows : List AnswerRow} {p : AnswerRow → Bool} {q : Int} :
    replies (rows.filter fun r => !p r) q = replies rows q ↔
      ∀ a ∈ rows, p a = true → a.questionId ≠ q := by
  have hsplit : replies rows q = replies (rows.filter fun r => !p r) q +
      replies (rows.filter p) q := by
    rw [replies, List.countP_eq_countP_filter_add rows _ p, Nat.add_comm]
    rfl
  have hnone : replies (rows.filter p) q = 0 ↔ ∀ a ∈ rows, p a = true → a.questionId ≠ q := by
    simp [replies, List.countP_eq_zero]
  rw [← hnone]
  omega

theorem replies_eq_zero {rows : List AnswerRow} {q : Int} :
    replies rows q = 0 ↔ ∀ a ∈ rows, a.questionId ≠ q := by
  simp [replies, List.countP_eq_zero]

def counter (r : QuestionRow) : Int × Int := (r.id, r.replyCount)

theorem counted_congr (hq : s'.db.questions.map counter = s.db.questions.map counter)
    (ha : s'.db.answers.map AnswerRow.questionId = s.db.answers.map AnswerRow.questionId) :
    RepliesCounted s' ↔ RepliesCounted s := by
  have hall (s : Store) : RepliesCounted s ↔
      ∀ p ∈ s.db.questions.map counter, p.2 = replies s.db.answers p.1 := by
    rw [List.forall_mem_map]
    rfl
  rw [hall, hall, hq]
  simp only [replies_congr ha]

theorem counted_kept (hk : Kept s s') : RepliesCounted s' ↔ RepliesCounted s :=
  counted_congr (by rw [hk.questions]) (by rw [hk.answers])

theorem counter_asked {rows : List QuestionRow} {id : Int} {title : Varchar 300}
    {content : String} {updatedBy : Varchar 50} : (rows.map fun r =>
      if r.id = id then asked r title content updatedBy else r).map counter =
      rows.map counter := by
  rw [List.map_map]
  refine List.map_congr_left fun r _ => ?_
  by_cases h : r.id = id <;> simp [h, counter, asked]

theorem counted_effect (hc : RepliesCounted s) {c : Rpc} {r : Except Err (App.Reply c.Reply)}
    (he : Effect s script c r s') : RepliesCounted s' ↔ Unanswered s (.rpc c script) := by
  cases he with
  | kept hk hno =>
    exact iff_of_true ((counted_kept hk).mpr hc) fun hacc => absurd hacc hno
  | @addQuestion req row hacc _ _ _ _ _ hreply hid hadv =>
    have hnew : RepliesCounted (withQuestions s (s.db.questions ++ [row])
        { s.seq with questions := advance s.seq.questions }) ↔
        ∀ a ∈ s.db.answers, a.questionId ≠ row.id := by
      rw [← replies_eq_zero]
      constructor
      · intro h
        have : row.replyCount = replies s.db.answers row.id :=
          h row (List.mem_append_right _ (List.mem_singleton_self row))
        omega
      · intro h r hr
        rcases List.mem_append.mp hr with hr | hr
        · exact hc r hr
        · rw [List.mem_singleton.mp hr, hreply]
          change (0 : Int) = replies s.db.answers row.id
          omega
    rw [hnew, hid]
    exact ⟨fun h _ => h, fun h => h hacc⟩
  | deleteQuestion =>
    exact iff_of_true (fun r hr => hc r (List.mem_of_mem_filter hr)) fun _ => trivial
  | updateQuestion =>
    refine iff_of_true ((counted_congr (s := s) ?_ ?_).mpr hc) fun _ => trivial
    · exact counter_asked
    · rfl
  | @addAnswer a row hacc hquestion =>
    have hnew : RepliesCounted (withAnswers s (s.db.answers ++ [row])
        { s.seq with answers := advance s.seq.answers }) ↔
        ∀ r ∈ s.db.questions, r.id ≠ row.questionId := by
      refine forall₂_congr fun r hr => ?_
      have := hc r hr
      change r.replyCount = (replies (s.db.answers ++ [row]) r.id : Nat) ↔ _
      rw [replies_snoc]
      split <;> omega
    rw [hnew, hquestion]
    exact ⟨fun h _ => h, fun h => h hacc⟩
  | @deleteAnswer req hacc =>
    have hnew : RepliesCounted (withAnswers s (s.db.answers.filter fun r =>
        !(r.id = req.id.asI64 && r.createdBy.val = req.username)) s.seq) ↔
        ∀ r ∈ s.db.questions, ∀ a ∈ s.db.answers,
          (a.id = req.id.asI64 && a.createdBy.val = req.username) = true → a.questionId ≠ r.id := by
      refine forall₂_congr fun r hr => ?_
      have := hc r hr
      rw [← replies_filter]
      change r.replyCount = (replies (s.db.answers.filter _) r.id : Nat) ↔ _
      omega
    rw [hnew]
    simp only [Bool.and_eq_true, decide_eq_true_eq]
    exact ⟨fun h _ a ha hid hby r hr he => h r hr a ha ⟨hid, hby⟩ he.symm,
      fun h r hr a ha hp he => h hacc a ha hp.1 hp.2 r hr he.symm⟩
  | updateAnswer =>
    refine iff_of_true ((counted_congr (s := s) ?_ ?_).mpr hc) fun _ => trivial
    · rfl
    · exact questionId_answered

theorem counted_step (h : Tables s) (hc : RepliesCounted s) (e : Event) :
    RepliesCounted (next svc s e) ↔ Unanswered s e := by
  cases e with
  | tick seconds => exact iff_of_true hc trivial
  | rpc c script => exact counted_effect hc (rpc_effect h c)
  | vote msg script =>
    refine iff_of_true ?_ trivial
    have voted {rows : List VoteRow} {a row : AnswerRow} {s' : Store}
        (hdb : s'.db = { s.db with
          usersVotes := rows, answers := replaceBy AnswerRow.id row s.db.answers })
        (ha : a ∈ s.db.answers) (hid : row.id = a.id) (hq : row.questionId = a.questionId) :
        RepliesCounted s' := by
      refine (counted_congr (by rw [hdb]) ?_).mpr hc
      rw [hdb]
      exact questionId_replaceBy h.answers.nodup ha hid hq
    have hb : Ballot s script msg ((onMessage "answer" msg).run World.exec ⟨s, script⟩).2.state :=
      vote_effect h.quiet msg
    change RepliesCounted ((onMessage "answer" msg).run World.exec ⟨s, script⟩).2.state
    cases hb with
    | kept hk => exact (counted_kept hk).mpr hc
    | up _ _ ha _ _ hdb => exact voted hdb ha rfl rfl
    | down _ ha _ _ hdb => exact voted hdb ha rfl rfl

/-- `reply_count` stays the number of answers exactly in the runs in which no question that is
stored gets an answer or loses one. -/
theorem reply_counts (hs : Tables s) (hc : RepliesCounted s) (evs : List Event) :
    Always (next svc) (fun s e => RepliesCounted (next svc s e)) s evs ↔
      Always (next svc) Unanswered s evs :=
  always_next_iff (I := Tables) (fun _ e h => h.next e) (fun _ e h hc => counted_step h hc e) hs hc

def noReplies : List Event :=
  [.rpc (.addQuestion ⟨"title", "content", "alice"⟩) [],
    .rpc (.updateQuestion ⟨1, "title", "other content", "alice"⟩) [],
    .rpc (.addAnswer ⟨some { questionId := 7, content := "answer", createBy := "bob" }⟩) [],
    .vote ⟨1, .ok ⟨1, "answer", "alice", "up"⟩⟩ [],
    .rpc (.addAnswer ⟨some { questionId := 1, content := "answer", createBy := "bob" }⟩) [.fail "io"]]

theorem reply_counts_noReplies : Always (next default)
    (fun s e => RepliesCounted (next default s e)) (Store.empty 1 0 fun _ => 0) noReplies :=
  (reply_counts .empty nofun _).mpr (by decide)

def oneReply : List Event :=
  [.rpc (.addQuestion ⟨"title", "content", "alice"⟩) [],
    .rpc (.addAnswer ⟨some { questionId := 1, content := "answer", createBy := "bob" }⟩) []]

theorem oneReply_uncounted : ¬ Always (next default)
    (fun s e => RepliesCounted (next default s e)) (Store.empty 1 0 fun _ => 0) oneReply := by
  decide

end QaSys.Content
