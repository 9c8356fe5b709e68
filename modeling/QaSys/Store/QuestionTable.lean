import QaSys.Service.Question
import QaSys.Store.CallLaws
import QaSys.Store.SqlLaws

/-! The ids of the stored questions, as questions are added and deleted. -/

namespace QaSys

def Keyed (s : Store) : Prop := (s.db.questions.map QuestionRow.id).Nodup

structure QuestionTable (s : Store) : Prop where
  quiet : s.pg.Quiet
  keyed : Keyed s
  range : ∀ i ∈ s.db.questions.map QuestionRow.id, 0 < i ∧ i ≤ s.seq.questions ∧ i ≤ i64Max
  nonneg : 0 ≤ s.seq.questions

namespace QuestionTable

variable {s : Store} {allow : Choice → Prop}

theorem empty {size : Nat} {clock : Int} {supply : Nat → Uuid} :
    QuestionTable (Store.empty size clock supply) :=
  ⟨fun _ => rfl, List.nodup_nil, nofun, le_rfl⟩

theorem settled (h : QuestionTable s) {seq : Seq} (hseq : s.seq.questions ≤ seq.questions) :
    QuestionTable (s.settled s.db seq) :=
  ⟨h.quiet, h.keyed, fun i hi => ⟨(h.range i hi).1, (h.range i hi).2.1.trans hseq,
    (h.range i hi).2.2⟩, h.nonneg.trans hseq⟩

theorem insert (h : QuestionTable s) {row : QuestionRow} {seq : Seq}
    (hid : row.id = s.seq.questions + 1) (hadv : advance s.seq.questions = row.id)
    (hseq : seq.questions = row.id) :
    QuestionTable (s.settled (s.db.apply (.insertQuestion row)) seq) := by
  have hnonneg := h.nonneg
  have hmax : row.id ≤ i64Max := by
    unfold advance at hadv
    split at hadv <;> omega
  have hids : (s.db.apply (.insertQuestion row)).questions.map QuestionRow.id =
      s.db.questions.map QuestionRow.id ++ [row.id] := List.map_append
  have hnew : row.id ∉ s.db.questions.map QuestionRow.id := fun hm => by
    have := (h.range _ hm).2.1
    omega
  refine ⟨h.quiet, ?_, fun i hi => ?_, by simp only [Store.settled_seq]; omega⟩
  · rw [Keyed, Store.settled_db, hids]
    exact h.keyed.append (List.nodup_singleton _) (List.disjoint_singleton.mpr hnew)
  · rw [Store.settled_db, hids, List.mem_append, List.mem_singleton] at hi
    simp only [Store.settled_seq]
    rcases hi with hi | rfl
    · have := h.range i hi
      omega
    · omega

theorem sublist_deleteQuestion (db : Db) (ids : List Int) :
    ((ids.map Write.deleteQuestion).foldl Db.apply db).questions.Sublist db.questions := by
  induction ids generalizing db with
  | nil => exact .refl _
  | cons i ids ih => exact (ih _).trans List.filter_sublist

theorem delete (h : QuestionTable s) (ids : List Int) :
    QuestionTable (s.settled ((ids.map Write.deleteQuestion).foldl Db.apply s.db) s.seq) := by
  have hsub := (sublist_deleteQuestion s.db ids).map QuestionRow.id
  exact ⟨h.quiet, h.keyed.sublist hsub, fun i hi => h.range i (hsub.subset hi), h.nonneg⟩

theorem add_ensures (h : QuestionTable s) (question : QuestionEntity) :
    (Question.add question).Ensures Store.serve allow s fun _ s' =>
      QuestionTable s' ∧ s'.hashes = s.hashes := by
  refine Prog.ensures_bind.mpr (ensures_query h.quiet (fun _ _ _ _ => ⟨h, rfl⟩) ?_ ?_)
  · exact fun msg _ => ⟨h.settled (le_advance _), rfl⟩
  · intro i ws hins
    obtain ⟨row, rfl, rfl, -, -, -, -, -, -, hid, hadv⟩ := eval_insertQuestion hins
    exact ⟨h.insert hid hadv hadv, rfl⟩

theorem delete_ensures (h : QuestionTable s) (id : UInt64) (username : String) :
    (Question.delete id username).Ensures Store.serve allow s fun _ s' =>
      QuestionTable s' ∧ s'.hashes = s.hashes := by
  refine Prog.ensures_bind.mpr (ensures_query h.quiet (fun _ _ _ _ => ⟨h, rfl⟩) ?_ ?_)
  · intro msg hdel
    cases hdel
  · intro n ws hdel
    cases hdel
    have hdelete := h.delete ((s.db.questions.filter fun r =>
      r.id = id.asI64 && r.createdBy.val = username).map QuestionRow.id)
    rw [List.map_map] at hdelete
    exact ⟨hdelete, rfl⟩

end QuestionTable

end QaSys
