import QaSys.Program.Runs
import QaSys.Content.Tables
import QaSys.Service.Light
import QaSys.Vote.Handled

/-! What the calls of the service and the handling of votes do to the questions, the answers and the
votes, whichever of the calls to the stores fail. -/

namespace QaSys

/-- The statement by which a call of the service changes the questions or the answers, after the
number of calls to the stores that come before it. -/
def Rpc.statement (clock : Int) : Rpc → Option (Nat × Stmt)
  | .addQuestion req => some (0, .insertQuestion req.title req.content req.createBy 0)
  | .deleteQuestion req => some (0, .deleteQuestion req.id.asI64 req.username)
  | .updateQuestion req =>
    some (0, .updateQuestion req.title req.content none req.updateBy req.id.asI64)
  | .addAnswer req =>
    req.answer.map fun a => (0, .insertAnswer a.questionId.asI64 a.content a.createBy 0)
  | .deleteAnswer req => some (0, .deleteAnswer req.id.asI64 req.username)
  | .updateAnswer req => some (1, .updateAnswer req.content req.username clock req.id.asI64)
  | _ => none

/-- A call that is there to change the questions or the answers. -/
def Rpc.Editing : Rpc → Prop
  | .addQuestion _ | .deleteQuestion _ | .updateQuestion _ | .addAnswer _ | .deleteAnswer _
  | .updateAnswer _ => True
  | _ => False

def Rpc.Accepted (c : Rpc) (s : Store) (script : List Choice) : Prop :=
  match c.statement s.clock with
  | some (n, q) => s.Accepts (turn script n) q
  | none => False

instance {c : Rpc} {s : Store} {script : List Choice} : Decidable (c.Accepted s script) := by
  unfold Rpc.Accepted
  split <;> infer_instance

namespace Content

def asked (r : QuestionRow) (title : Varchar 300) (content : String) (updatedBy : Varchar 50) :
    QuestionRow :=
  { r with title, content, updatedBy, updatedAt := none }

def answered (r : AnswerRow) (content : String) (updatedBy : Varchar 50) (now : Int) : AnswerRow :=
  { r with content, updatedBy, updatedAt := some now }

@[simp] theorem ids_asked {rows : List QuestionRow} {id : Int} {title : Varchar 300}
    {content : String} {updatedBy : Varchar 50} : (rows.map fun r =>
      if r.id = id then asked r title content updatedBy else r).map QuestionRow.id =
      rows.map QuestionRow.id :=
  map_key_update (asked · title content updatedBy) (fun _ => rfl) id rows

@[simp] theorem ids_answered {rows : List AnswerRow} {id now : Int} {content : String}
    {updatedBy : Varchar 50} : (rows.map fun r =>
      if r.id = id then answered r content updatedBy now else r).map AnswerRow.id =
      rows.map AnswerRow.id :=
  map_key_update (answered · content updatedBy now) (fun _ => rfl) id rows

theorem questionId_answered {rows : List AnswerRow} {id now : Int} {content : String}
    {updatedBy : Varchar 50} : (rows.map fun r =>
      if r.id = id then answered r content updatedBy now else r).map AnswerRow.questionId =
      rows.map AnswerRow.questionId := by
  rw [List.map_map]
  refine List.map_congr_left fun r _ => ?_
  by_cases h : r.id = id <;> simp [h, answered]

/-- What a call of the service did to the questions and the answers, with its reply. -/
inductive Effect (s : Store) (script : List Choice) :
    (c : Rpc) → Except Err (App.Reply c.Reply) → Store → Prop
  | kept {c : Rpc} {r : Except Err (App.Reply c.Reply)} {s' : Store} : Kept s s' →
      ¬ c.Accepted s script →
      (c.Editing → ∀ res, r ≠ .ok (.ok res)) → Effect s script c r s'
  | addQuestion {req : Pb.AddQuestionRequest} {row : QuestionRow} :
      Rpc.Accepted (.addQuestion req) s script →
      Varchar.assign 300 req.title = some row.title → row.content = req.content →
      Varchar.assign 50 req.createBy = some row.createdBy → row.createdAt = 0 →
      row.updatedAt = none → row.replyCount = 0 → row.id = s.seq.questions + 1 →
      advance s.seq.questions = row.id →
      Effect s script (.addQuestion req) (.ok (.ok ⟨row.id.asU64⟩))
        (withQuestions s (s.db.questions ++ [row])
          { s.seq with questions := advance s.seq.questions })
  | deleteQuestion {req : Pb.DeleteRequest} : Rpc.Accepted (.deleteQuestion req) s script →
      Effect s script (.deleteQuestion req) (.ok (.ok ⟨1⟩)) (withQuestions s
        (s.db.questions.filter fun r => !(r.id = req.id.asI64 && r.createdBy.val = req.username))
        s.seq)
  | updateQuestion {req : Pb.UpdateQuestionRequest} {title : Varchar 300} {by' : Varchar 50} :
      Rpc.Accepted (.updateQuestion req) s script → Varchar.assign 300 req.title = some title →
      Varchar.assign 50 req.updateBy = some by' →
      Effect s script (.updateQuestion req) (.ok (.ok ⟨1⟩)) (withQuestions s
        (s.db.questions.map fun r =>
          if r.id = req.id.asI64 then asked r title req.content by' else r) s.seq)
  | addAnswer {a : Pb.AnswerEntity} {row : AnswerRow} :
      Rpc.Accepted (.addAnswer ⟨some a⟩) s script →
      row.questionId = a.questionId.asI64 → row.content = a.content →
      Varchar.assign 50 a.createBy = some row.createdBy → row.agreeCount = 0 → row.createdAt = 0 →
      row.updatedAt = none → row.id = s.seq.answers + 1 → advance s.seq.answers = row.id →
      Effect s script (.addAnswer ⟨some a⟩) (.ok (.ok ⟨row.id.asU64⟩))
        (withAnswers s (s.db.answers ++ [row]) { s.seq with answers := advance s.seq.answers })
  | deleteAnswer {req : Pb.DeleteRequest} : Rpc.Accepted (.deleteAnswer req) s script →
      Effect s script (.deleteAnswer req) (.ok (.ok ⟨1⟩)) (withAnswers s
        (s.db.answers.filter fun r => !(r.id = req.id.asI64 && r.createdBy.val = req.username))
        s.seq)
  | updateAnswer {req : Pb.UpdateAnswerRequest} {by' : Varchar 50} :
      Rpc.Accepted (.updateAnswer req) s script → Varchar.assign 50 req.username = some by' →
      Effect s script (.updateAnswer req) (.ok (.ok ⟨1⟩)) (withAnswers s
        (s.db.answers.map fun r =>
          if r.id = req.id.asI64 then answered r req.content by' s.clock else r) s.seq)

variable {svc : QaServiceImpl} {s s' : Store} {script : List Choice}

def Aside : Call → Prop
  | .sql q => q.Light ∨ ∃ username password openid now, q = .insertUser username password openid now
  | .begin | .tx _ | .commit | .rollback => False
  | _ => True

theorem Aside.of_light {c : Call} (h : c.Light) : Aside c := by
  cases c with
  | sql q => exact .inl h
  | _ => trivial

theorem Kept.serve (h : Kept s s') {c : Call} (hc : Aside c) (ch : Choice) :
    Kept s (Store.serve ch c s').2 := by
  have same {s'' : Store} (hpg : s''.pg = s'.pg) (hseq : s''.seq = s'.seq)
      (hclock : s''.clock = s'.clock) : Kept s s'' := by
    obtain ⟨hq, hquestions, hanswers, hvotes, h1, h2, hsame⟩ := h
    refine ⟨hpg ▸ hq, ?_, ?_, ?_, hseq ▸ h1, hseq ▸ h2, hclock.trans hsame⟩
    all_goals simp only [Store.db, hpg]
    · exact hquestions
    · exact hanswers
    · exact hvotes
  cases c with
  | sql q =>
    rcases Store.serve_sql h.quiet.alone q ch with ⟨-, msg, hs⟩ | ⟨-, hs⟩
    · rw [hs]
      exact h
    · rw [hs]
      obtain ⟨h1, h2⟩ := le_draw q s'.seq
      cases heval : q.eval s'.seq s'.db with
      | error msg =>
        exact ⟨h.quiet, h.questions, h.answers, h.usersVotes, h.questionsSeq.trans h1,
          h.answersSeq.trans h2, h.clock⟩
      | ok res =>
        obtain ⟨a, ws⟩ := res
        rcases hc with hlight | ⟨username, password, openid, now, rfl⟩
        · obtain ⟨rfl, hdraw⟩ := hlight.writes heval
          dsimp only
          rw [hdraw]
          exact h
        · obtain ⟨row, rfl, -⟩ := eval_insertUser heval
          exact ⟨h.quiet, h.questions, h.answers, h.usersVotes, h.questionsSeq, h.answersSeq,
            h.clock⟩
  | get key => cases ch <;> exact h
  | setEx key value seconds => cases ch <;> exact same rfl rfl rfl
  | del key => cases ch <;> exact same rfl rfl rfl
  | hincr key field delta => cases ch <;> exact same rfl rfl rfl
  | hscan key cursor pattern count => cases ch <;> exact h
  | send msg => cases ch <;> exact same rfl rfl rfl
  | ack messageId => cases ch <;> exact same rfl rfl rfl
  | now => exact h
  | newV4 => exact same rfl rfl rfl
  | begin => exact hc.elim
  | tx q => exact hc.elim
  | commit => exact hc.elim
  | rollback => exact hc.elim

theorem Kept.run (hq : s.pg.Quiet) {p : Svc A} (hp : p.Within Aside) (script : List Choice) :
    Kept s (p.run World.exec ⟨s, script⟩).2.state :=
  hp.run_preserves (I := fun w : World => Kept s w.state) (fun _ _ hc hk => hk.serve hc _) (.refl hq)

section

open Prog

theorem aside_userLogin (req : Pb.UserLoginRequest) : (svc.userLogin req).Within Aside := by
  refine within_handled ((within_query (.inl (by trivial))).bind fun _ =>
    within_fetchOne.bind fun _ => within_pure _) fun r => ?_
  cases r with
  | error err => split <;> trivial
  | ok u =>
    dsimp only
    split
    · trivial
    · refine within_handled (light_get.mono fun _ => .of_light) fun r => ?_
      cases r with
      | ok user => trivial
      | error err =>
        refine (within_await (by trivial)).bind fun loginId =>
          (within_await (by trivial)).bind fun loginTime => ?_
        split
        · trivial
        · refine within_handled ?_ fun r => by cases r <;> trivial
          unfold User.set
          split
          · exact within_await (by trivial)
          · trivial

theorem aside_userLogout (req : Pb.UserLogoutRequest) : (svc.userLogout req).Within Aside := by
  refine (light_checkToken.mono fun _ => .of_light).bind fun r => ?_
  cases r with
  | error err => trivial
  | ok openid => exact within_handled (within_await (by trivial)) fun r => by cases r <;> trivial

theorem aside_userRegister (req : Pb.UserRegisterRequest) :
    (svc.userRegister req).Within Aside := by
  refine within_handled ((within_query (.inl (by trivial))).bind fun _ => within_pure _) fun r => ?_
  cases r with
  | error err => trivial
  | ok found =>
    cases found with
    | true => trivial
    | false =>
      refine within_handled ((within_await (by trivial)).bind fun openid =>
        (within_await (by trivial)).bind fun now =>
        (within_query (.inr ⟨_, _, _, _, rfl⟩)).bind fun _ => within_pure _) fun r => ?_
      cases r <;> trivial

theorem not_accepted {c : Rpc} {n : Nat} {q : Stmt} (hc : c.statement s.clock = some (n, q))
    (h : ¬ s.Accepts (turn script n) q) : ¬ c.Accepted s script := by
  rw [Rpc.Accepted, hc]
  exact h

theorem not_accepted_none {c : Rpc} (hc : c.statement s.clock = none) :
    ¬ c.Accepted s script := by
  rw [Rpc.Accepted, hc]
  exact id

theorem addQuestion_effect (h : Tables s) (req : Pb.AddQuestionRequest) :
    (App.addQuestion req).Ends World.exec ⟨s, script⟩ fun r w =>
      Effect s script (.addQuestion req) r w.state := by
  change (App.addQuestion req).Ends World.exec ⟨s, script.drop 0⟩ _
  refine ends_bind.mpr (ends_attempt.mpr (ends_bind.mpr (ends_query h.quiet ?_ ?_)))
  · exact fun hno e seq hseq => .kept (.settled h.quiet hseq) (not_accepted rfl hno) fun _ => nofun
  · intro id ws hacc heval
    obtain ⟨row, rfl, rfl, htitle, hcontent, hby, hcreated, hupdated, hreply, hid, hadv⟩ :=
      eval_insertQuestion heval
    exact .addQuestion hacc htitle hcontent hby hcreated hupdated hreply hid hadv

theorem deleteQuestion_effect (h : Tables s) (req : Pb.DeleteRequest) :
    (App.deleteQuestion req).Ends World.exec ⟨s, script⟩ fun r w =>
      Effect s script (.deleteQuestion req) r w.state := by
  change (App.deleteQuestion req).Ends World.exec ⟨s, script.drop 0⟩ _
  refine ends_bind.mpr (ends_attempt.mpr (ends_bind.mpr (ends_query h.quiet ?_ ?_)))
  · exact fun hno e seq hseq => .kept (.settled h.quiet hseq) (not_accepted rfl hno) fun _ => nofun
  · intro n ws hacc heval
    cases heval
    change Effect s script (.deleteQuestion req) (.ok (.ok ⟨1⟩)) (s.settled (List.foldl Db.apply s.db
      ((s.db.questions.filter _).map fun r => Write.deleteQuestion r.id)) s.seq)
    rw [settled_deleteQuestions h]
    exact .deleteQuestion hacc

theorem updateQuestion_effect (h : Tables s) (req : Pb.UpdateQuestionRequest) :
    (App.updateQuestion req).Ends World.exec ⟨s, script⟩ fun r w =>
      Effect s script (.updateQuestion req) r w.state := by
  change (App.updateQuestion req).Ends World.exec ⟨s, script.drop 0⟩ _
  refine ends_bind.mpr (ends_attempt.mpr (ends_bind.mpr (ends_query h.quiet ?_ ?_)))
  · exact fun hno e seq hseq => .kept (.settled h.quiet hseq) (not_accepted rfl hno) fun _ => nofun
  · intro n ws hacc heval
    obtain ⟨title, htitle, heval⟩ := except_bind_eq_ok heval
    obtain ⟨by', hby, heval⟩ := except_bind_eq_ok heval
    cases heval
    change Effect s script (.updateQuestion req) (.ok (.ok ⟨1⟩)) (s.settled (List.foldl Db.apply s.db
      ((s.db.questions.filter (·.id = req.id.asI64)).map fun r =>
        Write.updateQuestion (asked r title req.content by'))) s.seq)
    rw [settled_updateQuestion h _ (asked · title req.content by') fun _ => rfl]
    exact .updateQuestion hacc (assign_eq_ok htitle) (assign_eq_ok hby)

theorem addAnswer_effect (h : Tables s) (req : Pb.AddAnswerRequest) :
    (App.addAnswer req).Ends World.exec ⟨s, script⟩ fun r w =>
      Effect s script (.addAnswer req) r w.state := by
  obtain ⟨answer⟩ := req
  cases answer with
  | none => exact .kept (.refl h.quiet) (not_accepted_none rfl) fun _ => nofun
  | some a =>
    change (App.addAnswer ⟨some a⟩).Ends World.exec ⟨s, script.drop 0⟩ _
    refine ends_bind.mpr (ends_attempt.mpr (ends_bind.mpr (ends_query h.quiet ?_ ?_)))
    · exact fun hno e seq hseq => .kept (.settled h.quiet hseq) (not_accepted rfl hno)
        fun _ => nofun
    · intro id ws hacc heval
      obtain ⟨row, rfl, rfl, hquestion, hcontent, hby, hagree, hcreated, hupdated, hid, hadv⟩ :=
        eval_insertAnswer heval
      exact .addAnswer hacc hquestion hcontent hby hagree hcreated hupdated hid hadv

theorem deleteAnswer_effect (h : Tables s) (req : Pb.DeleteRequest) :
    (App.deleteAnswer req).Ends World.exec ⟨s, script⟩ fun r w =>
      Effect s script (.deleteAnswer req) r w.state := by
  change (App.deleteAnswer req).Ends World.exec ⟨s, script.drop 0⟩ _
  refine ends_bind.mpr (ends_attempt.mpr (ends_bind.mpr (ends_query h.quiet ?_ ?_)))
  · exact fun hno e seq hseq => .kept (.settled h.quiet hseq) (not_accepted rfl hno) fun _ => nofun
  · intro n ws hacc heval
    cases heval
    change Effect s script (.deleteAnswer req) (.ok (.ok ⟨1⟩)) (s.settled (List.foldl Db.apply s.db
      ((s.db.answers.filter _).map fun r => Write.deleteAnswer r.id)) s.seq)
    rw [settled_deleteAnswers h]
    exact .deleteAnswer hacc

theorem updateAnswer_effect (h : Tables s) (req : Pb.UpdateAnswerRequest) :
    (App.updateAnswer req).Ends World.exec ⟨s, script⟩ fun r w =>
      Effect s script (.updateAnswer req) r w.state := by
  change (App.updateAnswer req).Ends World.exec ⟨s, script.drop 0⟩ _
  refine ends_bind.mpr (ends_attempt.mpr (ends_bind.mpr (ends_await.mpr
    (ends_bind.mpr (ends_query h.quiet ?_ ?_)))))
  · exact fun hno e seq hseq => .kept (.settled h.quiet hseq) (not_accepted rfl hno) fun _ => nofun
  · intro n ws hacc heval
    obtain ⟨by', hby, heval⟩ := except_bind_eq_ok heval
    cases heval
    change Effect s script (.updateAnswer req) (.ok (.ok ⟨1⟩)) (s.settled (List.foldl Db.apply s.db
      ((s.db.answers.filter (·.id = req.id.asI64)).map fun r =>
        Write.updateAnswer (answered r req.content by' s.clock))) s.seq)
    rw [settled_updateAnswer h _ (answered · req.content by' s.clock) fun _ => rfl]
    exact .updateAnswer hacc (assign_eq_ok hby)

/-- Everything a call of the service can do to the questions and the answers. -/
theorem rpc_effect (h : Tables s) (c : Rpc) :
    (c.serve svc).Ends World.exec ⟨s, script⟩ fun r w => Effect s script c r w.state := by
  have aside {c : Rpc} (hc : (c.serve svc).Within Aside) (hst : c.statement s.clock = none)
      (hno : ¬ c.Editing) :
      (c.serve svc).Ends World.exec ⟨s, script⟩ fun r w => Effect s script c r w.state :=
    .kept (.run h.quiet hc script) (not_accepted_none hst) fun hc => absurd hc hno
  have light {c : Rpc} (hc : c.Light) (hst : c.statement s.clock = none) (hno : ¬ c.Editing) :
      (c.serve svc).Ends World.exec ⟨s, script⟩ fun r w => Effect s script c r w.state :=
    aside (hc.within.mono fun _ => .of_light) hst hno
  cases c with
  | userLogin req => exact aside (aside_userLogin req) rfl id
  | userLogout req => exact aside (aside_userLogout req) rfl id
  | userRegister req => exact aside (aside_userRegister req) rfl id
  | addQuestion req => exact addQuestion_effect h req
  | deleteQuestion req => exact deleteQuestion_effect h req
  | updateQuestion req => exact updateQuestion_effect h req
  | addAnswer req => exact addAnswer_effect h req
  | deleteAnswer req => exact deleteAnswer_effect h req
  | updateAnswer req => exact updateAnswer_effect h req
  | _ => exact light trivial rfl id

end

end Content

end QaSys
