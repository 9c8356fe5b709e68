import QaSys.Content.Runs
import QaSys.Auth.Tabulated

/-! What the answers and the votes refer to. -/

namespace QaSys.Content

open UserVote Runs

variable {svc : QaServiceImpl} {s s' : Store} {script : List Choice}

structure Integrity (s : Store) : Prop where
  answers : ∀ a ∈ s.db.answers, a.questionId ∈ s.db.questions.map QuestionRow.id
  votes : ∀ r ∈ s.db.usersVotes, r.targetType.val = "answer" →
    r.targetId ∈ s.db.answers.map AnswerRow.id

/-- What PostgreSQL is told to delete is nothing that others refer to, and an answer it is told to
store is one to a stored question. -/
def Guarded (s : Store) : Event → Prop
  | .rpc c script => c.Accepted s script → match c with
    | .deleteQuestion req => ∀ q ∈ s.db.questions,
      (q.id = req.id.asI64 && q.createdBy.val = req.username) = true →
      ∀ a ∈ s.db.answers, q.id ≠ a.questionId
    | .addAnswer ⟨some a⟩ => a.questionId.asI64 ∈ s.db.questions.map QuestionRow.id
    | .deleteAnswer req => ∀ a ∈ s.db.answers,
      (a.id = req.id.asI64 && a.createdBy.val = req.username) = true →
      ∀ r ∈ s.db.usersVotes, r.targetType.val = "answer" → a.id ≠ r.targetId
    | _ => True
  | _ => True

instance : (e : Event) → Decidable (Guarded s e)
  | .rpc c _ => match c with
    | .addQuestion _ | .deleteQuestion _ | .updateQuestion _ | .addAnswer ⟨some _⟩
    | .addAnswer ⟨none⟩ | .deleteAnswer _ | .updateAnswer _ | .agreeAnswer _ | .questionDetail _
    | .latestQuestion _ | .answerList _ | .answerDetail _ | .answerAgree _ | .userLogin _
    | .userLogout _ | .userRegister _ | .verifyToken _ => instDecidableForall
  | .tick _ | .vote .. => instDecidableTrue

theorem integrity_iff : Integrity s ↔
    (∀ a ∈ s.db.answers, a.questionId ∈ s.db.questions.map QuestionRow.id) ∧
    ∀ r ∈ s.db.usersVotes, r.targetType.val = "answer" →
      r.targetId ∈ s.db.answers.map AnswerRow.id :=
  ⟨fun h => ⟨h.answers, h.votes⟩, fun h => ⟨h.1, h.2⟩⟩

instance : DecidablePred Integrity := fun _ => decidable_of_iff _ integrity_iff.symm

namespace Integrity

theorem empty {size : Nat} {clock : Int} {supply : Nat → Uuid} :
    Integrity (Store.empty size clock supply) := ⟨nofun, nofun⟩

theorem of_columns (hi : Integrity s)
    (hq : s'.db.questions.map QuestionRow.id = s.db.questions.map QuestionRow.id)
    (hid : s'.db.answers.map AnswerRow.id = s.db.answers.map AnswerRow.id)
    (ha : s'.db.answers.map AnswerRow.questionId = s.db.answers.map AnswerRow.questionId)
    (hv : ∀ r ∈ s'.db.usersVotes, r ∈ s.db.usersVotes ∨
      r.targetId ∈ s.db.answers.map AnswerRow.id) : Integrity s' := by
  refine ⟨fun a hmem => ?_, fun r hr hty => ?_⟩
  · obtain ⟨a', hmem', hsame⟩ := List.mem_map.mp (ha ▸ List.mem_map_of_mem hmem)
    rw [hq, ← hsame]
    exact hi.answers a' hmem'
  · rw [hid]
    exact (hv r hr).elim (fun hr => hi.votes r hr hty) id

theorem kept (hi : Integrity s) (hk : Kept s s') : Integrity s' :=
  hi.of_columns (by rw [hk.questions]) (by rw [hk.answers]) (by rw [hk.answers])
    fun r hr => .inl (hk.usersVotes ▸ hr)

theorem addQuestion (hi : Integrity s) (row : QuestionRow) (seq : Seq) :
    Integrity (withQuestions s (s.db.questions ++ [row]) seq) := by
  refine ⟨fun a ha => ?_, hi.votes⟩
  change a.questionId ∈ (s.db.questions ++ [row]).map QuestionRow.id
  rw [List.map_append]
  exact List.mem_append_left _ (hi.answers a ha)

theorem deleteQuestions (h : Tables s) (hi : Integrity s) (p : QuestionRow → Bool) :
    Integrity (withQuestions s (s.db.questions.filter fun r => !p r) s.seq) ↔
      ∀ q ∈ s.db.questions, p q = true → ∀ a ∈ s.db.answers, q.id ≠ a.questionId := by
  have hleft : Integrity (withQuestions s (s.db.questions.filter fun r => !p r) s.seq) ↔
      ∀ a ∈ s.db.answers, a.questionId ∈ (s.db.questions.filter fun r => !p r).map QuestionRow.id :=
    ⟨fun h => h.answers, fun h => ⟨h, hi.votes⟩⟩
  rw [hleft]
  simp only [mem_map_filter_not h.questions.nodup]
  exact ⟨fun h q hq hp a ha => (h a ha).2 q hq hp,
    fun h a ha => ⟨hi.answers a ha, fun q hq hp => h q hq hp a ha⟩⟩

theorem addAnswer (hi : Integrity s) (row : AnswerRow) (seq : Seq) :
    Integrity (withAnswers s (s.db.answers ++ [row]) seq) ↔
      row.questionId ∈ s.db.questions.map QuestionRow.id := by
  constructor
  · exact fun h => h.answers row (List.mem_append_right _ (List.mem_singleton_self row))
  · refine fun hrow => ⟨fun a ha => ?_, fun r hr hty => ?_⟩
    · rcases List.mem_append.mp ha with ha | ha
      · exact hi.answers a ha
      · rwa [List.mem_singleton.mp ha]
    · change r.targetId ∈ (s.db.answers ++ [row]).map AnswerRow.id
      rw [List.map_append]
      exact List.mem_append_left _ (hi.votes r hr hty)

theorem deleteAnswers (h : Tables s) (hi : Integrity s) (p : AnswerRow → Bool) :
    Integrity (withAnswers s (s.db.answers.filter fun r => !p r) s.seq) ↔
      ∀ a ∈ s.db.answers, p a = true → ∀ r ∈ s.db.usersVotes, r.targetType.val = "answer" →
        a.id ≠ r.targetId := by
  have hleft : Integrity (withAnswers s (s.db.answers.filter fun r => !p r) s.seq) ↔
      ∀ r ∈ s.db.usersVotes, r.targetType.val = "answer" →
        r.targetId ∈ (s.db.answers.filter fun r => !p r).map AnswerRow.id :=
    ⟨fun h => h.votes, fun h => ⟨fun a ha => hi.answers a (List.mem_of_mem_filter ha), h⟩⟩
  rw [hleft]
  simp only [mem_map_filter_not h.answers.nodup]
  exact ⟨fun h a ha hp r hr hty => (h r hr hty).2 a ha hp,
    fun h r hr hty => ⟨hi.votes r hr hty, fun a ha hp => h a ha hp r hr hty⟩⟩

theorem effect (h : Tables s) (hi : Integrity s) {c : Rpc} {r : Except Err (App.Reply c.Reply)}
    (he : Effect s script c r s') : Integrity s' ↔ Guarded s (.rpc c script) := by
  cases he with
  | kept hk hno => exact iff_of_true (hi.kept hk) fun hacc => absurd hacc hno
  | addQuestion => exact iff_of_true (hi.addQuestion _ _) fun _ => trivial
  | deleteQuestion hacc =>
    rw [deleteQuestions h hi]
    exact ⟨fun h _ => h, fun h => h hacc⟩
  | updateQuestion =>
    exact iff_of_true (hi.of_columns ids_asked rfl rfl fun _ => .inl) fun _ => trivial
  | addAnswer hacc hquestion =>
    rw [addAnswer hi, hquestion]
    exact ⟨fun h _ => h, fun h => h hacc⟩
  | deleteAnswer hacc =>
    rw [deleteAnswers h hi]
    exact ⟨fun h _ => h, fun h => h hacc⟩
  | updateAnswer =>
    exact iff_of_true (hi.of_columns rfl ids_answered questionId_answered fun _ => .inl)
      fun _ => trivial

theorem ballot (h : Tables s) (hi : Integrity s) {msg : Delivery} (hb : Ballot s script msg s') :
    Integrity s' := by
  cases hb with
  | kept hk => exact hi.kept hk
  | @up id data row a _ _ htarget ha _ _ hdb =>
    refine hi.of_columns (by rw [hdb]; rfl) (by rw [hdb]; exact map_key_replaceBy) ?_ fun r hr => ?_
    · rw [hdb]
      exact questionId_replaceBy h.answers.nodup ha rfl rfl
    · rw [hdb] at hr
      refine (List.mem_append.mp hr).imp_right fun hr => ?_
      rw [List.mem_singleton.mp hr, htarget]
      exact List.mem_map_of_mem ha
  | down _ ha _ _ hdb =>
    refine hi.of_columns (by rw [hdb]; rfl) (by rw [hdb]; exact map_key_replaceBy) ?_ fun r hr => ?_
    · rw [hdb]
      exact questionId_replaceBy h.answers.nodup ha rfl rfl
    · rw [hdb] at hr
      exact .inl (mem_removeBy.mp hr).1

theorem step (h : Tables s) (hi : Integrity s) (e : Event) :
    Integrity (next svc s e) ↔ Guarded s e := by
  cases e with
  | tick seconds => exact iff_of_true ⟨hi.answers, hi.votes⟩ trivial
  | rpc c script => exact effect h hi (rpc_effect h c)
  | vote msg script => exact iff_of_true (hi.ballot h (vote_effect h.quiet msg)) trivial

end Integrity

/-- Every answer stays one to a stored question and every vote one for a stored answer exactly in
the runs in which no answer to a missing question is stored and nothing is deleted that others
refer to. -/
theorem references_kept (hs : Tables s) (hi : Integrity s) (evs : List Event) :
    Always (next svc) (fun s e => Integrity (next svc s e)) s evs ↔
      Always (next svc) Guarded s evs :=
  always_next_iff (I := Tables) (fun _ e h => h.next e) (fun _ e h hi => hi.step h e) hs hi

def guarded : List Event :=
  [.rpc (.addQuestion ⟨"title", "content", "alice"⟩) [],
    .rpc (.addAnswer ⟨some { questionId := 1, content := "answer", createBy := "bob" }⟩) [],
    .vote ⟨1, .ok ⟨1, "answer", "carol", "up"⟩⟩ [], .vote ⟨2, .ok ⟨9, "answer", "carol", "up"⟩⟩ [],
    .rpc (.deleteQuestion ⟨1, "bob"⟩) [], .rpc (.deleteAnswer ⟨1, "alice"⟩) [],
    .vote ⟨3, .ok ⟨1, "answer", "carol", "down"⟩⟩ [], .rpc (.deleteAnswer ⟨1, "bob"⟩) [],
    .rpc (.deleteQuestion ⟨1, "alice"⟩) []]

theorem references_kept_guarded : Always (next default)
    (fun s e => Integrity (next default s e)) (Store.empty 1 0 fun _ => 0) guarded :=
  (references_kept .empty .empty _).mpr (by decide)

/-- An answer to a question nobody asked. -/
theorem orphan_stored : ¬ Always (next default)
    (fun s e => Integrity (next default s e)) (Store.empty 1 0 fun _ => 0)
    [.rpc (.addAnswer ⟨some { questionId := 7, content := "answer", createBy := "bob" }⟩) []] := by
  decide

end QaSys.Content
