import QaSys.Content.Effect
import QaSys.Vote.Batch

/-! Whether an answer that was added is read back under the id of its question. -/

namespace QaSys.ReadBack

open AnswerWalk Keyset

variable {s : Store} {a : Pb.AnswerEntity} {script : List Choice} {q id : UInt64}

/-- The pages of the question and the detail show the answer, with the id of the question. -/
structure Shown (s : Store) (q id : UInt64) (content : String) : Prop where
  listed : ∀ limit username, limit ≠ 0 → limit.toNat ≤ i64Max → ∃ requests init last,
    walk q limit username requests 1 s = init ++ [last] ∧ last.isEnd = true ∧
    ∃ x ∈ (init ++ [last]).flatMap (·.answers), x.id = id ∧ x.questionId = q ∧ x.content = content
  detailed : ∀ username, ∃ x,
    ((App.answerDetail ⟨id, username⟩).run World.exec ⟨s, []⟩).1 = .ok (.ok ⟨some x⟩) ∧
    x.id = id ∧ x.questionId = q ∧ x.content = content

theorem answerTable (h : Content.Tables s) : AnswerTable s :=
  ⟨h.quiet, h.answers.nodup, fun i hi => ⟨(h.answers.range i hi).1, (h.answers.range i hi).2.2⟩⟩

theorem shown_of_stored (h : AnswerTable s) {row : AnswerRow} (hrow : row ∈ s.db.answers)
    (hq : q.toNat ≤ i64Max) (hquestion : row.questionId = q.asI64) :
    Shown s q row.id.asU64 row.content := by
  have hback : row.questionId.asU64 = q := by rw [hquestion, Int.asU64_asI64]
  refine ⟨fun limit username hpos hmax => ?_, fun username => ?_⟩
  · have hlimit : 0 < limit.toNat := Nat.pos_of_ne_zero fun h0 => hpos (UInt64.toNat_inj.mp h0)
    obtain ⟨voted, hwalk⟩ := walk_serves h hlimit hmax hq username
    obtain ⟨init, last, hpages, hend, -⟩ := replies_end h hlimit voted
    have hshown := shown_eq h hlimit q voted
    have hmem : row ∈ answersOf s q := by
      refine mem_descending.mpr (List.mem_filter.mpr ⟨hrow, decide_eq_true ?_⟩)
      rw [hquestion, UInt64.asI64_eq, if_pos hq]
    have hentity := List.mem_map_of_mem (f := fun r : AnswerRow => r.toEntity.toPb false) hmem
    rw [← hshown, hpages] at hentity
    obtain ⟨x, hx, hsame⟩ := List.mem_map.mp hentity
    refine ⟨_, init, last, (hwalk _ le_rfl).trans hpages, hend, x, hx, ?_, ?_, ?_⟩
    · exact congrArg Pb.AnswerEntity.id hsame
    · exact (congrArg Pb.AnswerEntity.questionId hsame).trans hback
    · exact congrArg Pb.AnswerEntity.content hsame
  · have hdetail := (served_of_ensures (Batch.answerDetail_serves h (fun _ h => h) hrow username)).2
    exact ⟨_, hdetail, rfl, hback, rfl⟩

theorem walk_of_refused (h : AnswerTable s) (hq : i64Max < q.toNat) (limit : UInt64)
    (username : String) (requests : Nat) : walk q limit username requests 1 s = [] := by
  cases requests with
  | zero => rfl
  | succ n =>
    obtain ⟨-, hrefused, -⟩ := served_of_ensures
      (answerList_ensures h.quiet (fun _ => id) q limit 1 username)
    obtain ⟨status, hs⟩ := hrefused (.inr (.inr (.inl hq)))
    rw [walk, hs]

theorem not_shown (h : AnswerTable s) (hq : i64Max < q.toNat) {content : String} :
    ¬ Shown s q id content := by
  intro hshown
  obtain ⟨requests, init, last, hwalk, -⟩ := hshown.listed 1 "" (by decide) (by decide)
  rw [walk_of_refused h hq] at hwalk
  exact List.append_ne_nil_of_right_ne_nil _ (List.cons_ne_nil _ _) hwalk.symm

/-- An answer that was added is listed and shown in detail with the id of its question exactly if
that id is in the range of PostgreSQL. -/
theorem added_shown (h : Content.Tables s) (a : Pb.AnswerEntity) (script : List Choice) :
    (∀ id, ((App.addAnswer ⟨some a⟩).run World.exec ⟨s, script⟩).1 = .ok (.ok ⟨id⟩) →
      Shown ((App.addAnswer ⟨some a⟩).run World.exec ⟨s, script⟩).2.state a.questionId id
        a.content) ↔
    (Rpc.Accepted (.addAnswer ⟨some a⟩) s script → a.questionId.toNat ≤ i64Max) := by
  have he : Content.Effect s script (.addAnswer ⟨some a⟩)
      ((App.addAnswer ⟨some a⟩).run World.exec ⟨s, script⟩).1
      ((App.addAnswer ⟨some a⟩).run World.exec ⟨s, script⟩).2.state := Content.addAnswer_effect h _
  generalize ((App.addAnswer ⟨some a⟩).run World.exec ⟨s, script⟩).1 = r at he ⊢
  generalize ((App.addAnswer ⟨some a⟩).run World.exec ⟨s, script⟩).2.state = s' at he ⊢
  cases he with
  | kept _ hno hres =>
    exact iff_of_true (fun id hr => absurd hr (hres trivial _)) fun hacc => absurd hacc hno
  | @addAnswer _ row hacc hquestion hcontent hby hagree hcreated hupdated hid hadv =>
    have htable : AnswerTable (Content.withAnswers s (s.db.answers ++ [row])
        { s.seq with answers := advance s.seq.answers }) :=
      answerTable ⟨h.quiet, h.questions, h.answers.snoc hid hadv⟩
    have hrow : row ∈ s.db.answers ++ [row] := List.mem_append_right _ (List.mem_singleton_self row)
    constructor
    · intro hall _
      by_contra hq
      exact not_shown htable (Nat.lt_of_not_le hq) (hall _ rfl)
    · intro hq id hr
      cases hr
      rw [← hcontent]
      exact shown_of_stored htable hrow (hq hacc) hquestion

theorem added_shown_seven :
    Shown ((App.addAnswer ⟨some { questionId := 7, content := "answer", createBy := "bob" }⟩).run
      World.exec ⟨Store.empty 1 0 fun _ => 0, []⟩).2.state 7 1 "answer" :=
  (added_shown .empty { questionId := 7, content := "answer", createBy := "bob" } []).mpr
    (by decide) 1 (by decide)

def farAnswer : Pb.AnswerEntity :=
  { questionId := 9223372036854775808, content := "answer", createBy := "bob" }

theorem farAnswer_past : i64Max < farAnswer.questionId.toNat := by decide

/-- It is stored, and no listing of its question is served. -/
theorem farAnswer_not_shown : ¬ ∀ id,
    ((App.addAnswer ⟨some farAnswer⟩).run World.exec ⟨Store.empty 1 0 fun _ => 0, []⟩).1 =
      .ok (.ok ⟨id⟩) →
    Shown ((App.addAnswer ⟨some farAnswer⟩).run World.exec
      ⟨Store.empty 1 0 fun _ => 0, []⟩).2.state farAnswer.questionId id farAnswer.content := by
  intro h
  have htable : AnswerTable ((App.addAnswer ⟨some farAnswer⟩).run World.exec
      ⟨Store.empty 1 0 fun _ => 0, []⟩).2.state := ⟨fun _ => rfl, by decide, by decide⟩
  exact not_shown htable farAnswer_past (h 1 (by decide))

end QaSys.ReadBack
