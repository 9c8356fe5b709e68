import QaSys.Program.Runs
import QaSys.Service.Light

/-! Which messages the calls of the service publish.  The votes themselves they leave alone. -/

namespace QaSys

def Rpc.Publishes : Rpc → VoteMessage → Prop
  | .agreeAnswer req, msg | .answerAgree req, msg =>
    msg = ⟨req.id.toInt64, "answer", req.createBy, req.action⟩
  | _, _ => False

def Call.Sends (M : VoteMessage → Prop) : Call → Prop
  | .send msg => M msg
  | .sql (.insertVote ..) | .tx (.insertVote ..) => False
  | _ => True

variable {M : VoteMessage → Prop} {self : QaServiceImpl}

section

open Prog

theorem sends_handled {q : Stmt} (hq : (Call.sql q).Sends M) {f : q.Reply → A}
    {g : Except Err A → Svc B} (hg : ∀ r, (g r).Within (Call.Sends M)) :
    ((do return f (← query q) : Svc A).attempt >>= g).Within (Call.Sends M) :=
  within_handled ((within_query hq).bind fun _ => within_pure _) hg

theorem sends_answerFindOne {id : UInt64} : (Answer.findOne id).Within (Call.Sends M) :=
  (within_query (by trivial)).bind fun _ => within_fetchOne.bind fun _ => within_pure _

theorem sends_isVoted {targetId : UInt64} {username targetType : String} :
    (UserVote.isVoted targetId username targetType).Within (Call.Sends M) :=
  (within_query (by trivial)).bind fun _ => within_pure _

theorem sends_publish {msg : VoteMessage} (h : M msg) :
    (UserVote.publish msg).Within (Call.Sends M) :=
  (within_await (c := .send msg) h).bind fun _ => within_pure _

theorem sends_checkToken {token : String} : (self.checkToken token).Within (Call.Sends M) := by
  unfold QaServiceImpl.checkToken
  split
  · trivial
  split
  · trivial
  split
  · split
    · trivial
    split
    · trivial
    · refine (within_await (by trivial)).bind fun currentTime => ?_
      split <;> trivial
  · trivial

theorem sends_get {x : Crates} {key : String} : (User.get x key).Within (Call.Sends M) := by
  refine (within_await (by trivial)).bind fun value => ?_
  unfold User.session
  split
  · trivial
  · split <;> trivial

theorem sends_userLogin {req : Pb.UserLoginRequest} :
    (self.userLogin req).Within (Call.Sends M) := by
  refine within_handled ((within_query (by trivial)).bind fun _ =>
    within_fetchOne.bind fun _ => within_pure _) fun r => ?_
  cases r with
  | error err => split <;> trivial
  | ok u =>
    dsimp only
    split
    · trivial
    · refine within_handled sends_get fun r => ?_
      cases r with
      | ok user => trivial
      | error err =>
        refine (within_await (by trivial)).bind fun loginId =>
          (within_await (by trivial)).bind fun loginTime => ?_
        split
        · trivial
        · refine within_handled ?_ fun r => by cases r <;> trivial
          unfold User.set
          split
          · exact within_await (by trivial)
          · trivial

theorem sends_agreeAnswer {req : Pb.AgreeAnswerRequest}
    (h : M ⟨req.id.toInt64, "answer", req.createBy, req.action⟩) :
    (App.agreeAnswer req).Within (Call.Sends M) := by
  refine within_handled sends_answerFindOne fun answer => ?_
  cases answer with
  | error err => trivial
  | ok answer =>
    refine sends_isVoted.attempt.bind fun voted => ?_
    cases voted <;>
    · dsimp only
      split
      · trivial
      · split
        · trivial
        · exact within_handled (sends_publish h) fun r => by cases r <;> trivial

theorem sends_answerList {req : Pb.AnswerListRequest} :
    (App.answerList req).Within (Call.Sends M) := by
  have hfind : (Answer.findLatest req.questionId req.limit req.page).Within (Call.Sends M) := by
    refine within_ensure.bind fun _ => within_context.bind fun _ => within_context.bind fun _ =>
      within_context.bind fun _ => within_context.bind fun _ => within_context.bind fun _ =>
      (within_query (by trivial)).bind fun _ => (within_query (by trivial)).bind fun _ => ?_
    split <;> trivial
  refine within_handled hfind fun r => ?_
  cases r with
  | error err => trivial
  | ok res =>
    dsimp only
    split
    · trivial
    · refine within_handled ?_ fun _ => within_pure _
      unfold UserVote.isBatchVoted
      split
      · trivial
      · exact (within_query (by trivial)).bind fun _ => within_pure _

theorem sends_latestQuestion {req : Pb.LatestQuestionRequest} :
    (App.latestQuestion req).Within (Call.Sends M) := by
  refine within_handled (within_context.bind fun limit => ?_) fun r => ?_
  · dsimp only
    split
    · exact (within_query (by trivial)).bind fun _ => within_pure _
    · exact within_context.bind fun _ => (within_query (by trivial)).bind fun _ => within_pure _
  · cases r with
    | error err => trivial
    | ok result => dsimp only; split <;> trivial

theorem rpc_sends (c : Rpc) : (c.serve self).Within (Call.Sends c.Publishes) := by
  cases c with
  | userLogin req => exact sends_userLogin
  | userLogout req =>
    refine sends_checkToken.bind fun r => ?_
    cases r with
    | error err => trivial
    | ok openid => exact within_handled (within_await (by trivial)) fun r => by cases r <;> trivial
  | userRegister req =>
    refine sends_handled (by trivial) fun r => ?_
    cases r with
    | error err => trivial
    | ok found =>
      cases found with
      | true => trivial
      | false =>
        refine within_handled ((within_await (by trivial)).bind fun openid =>
          (within_await (by trivial)).bind fun now =>
          (within_query (by trivial)).bind fun _ => within_pure _) fun r => ?_
        cases r <;> trivial
  | verifyToken req =>
    refine sends_checkToken.bind fun r => ?_
    cases r with
    | error err => trivial
    | ok openid =>
      refine within_handled sends_get fun user => ?_
      cases user with
      | error err => dsimp only; split <;> trivial
      | ok user => trivial
  | addAnswer req =>
    obtain ⟨answer⟩ := req
    cases answer with
    | none => trivial
    | some answer => exact sends_handled (by trivial) fun r => by cases r <;> trivial
  | updateAnswer req =>
    exact within_handled ((within_await (by trivial)).bind fun _ =>
      (within_query (by trivial)).bind fun _ => within_pure _) fun r => by cases r <;> trivial
  | agreeAnswer req => exact sends_agreeAnswer rfl
  | answerAgree req => exact sends_agreeAnswer rfl
  | questionDetail req =>
    refine within_handled ((within_query (by trivial)).bind fun _ => within_fetchOne.bind fun _ =>
      within_pure _) fun r => ?_
    cases r with
    | error err => trivial
    | ok question =>
      exact within_handled ((within_await (by trivial)).bind fun _ => within_pure _) fun r => by
        cases r <;> trivial
  | latestQuestion req => exact sends_latestQuestion
  | answerList req => exact sends_answerList
  | answerDetail req =>
    refine within_handled sends_answerFindOne fun r => ?_
    cases r with
    | error err => trivial
    | ok answer => exact within_handled sends_isVoted fun _ => within_pure _
  | addQuestion req => exact sends_handled (by trivial) fun r => by cases r <;> trivial
  | deleteQuestion req => exact sends_handled (by trivial) fun r => by cases r <;> trivial
  | updateQuestion req => exact sends_handled (by trivial) fun r => by cases r <;> trivial
  | deleteAnswer req => exact sends_handled (by trivial) fun r => by cases r <;> trivial

end

/-- The keys of the votes stay, and what comes into the topic is of `M`. -/
structure Store.Sent (M : VoteMessage → Prop) (s s' : Store) : Prop where
  topic : ∀ msg ∈ s'.topic, msg ∈ s.topic ∨ M msg
  usersVotes : s'.seq.usersVotes = s.seq.usersVotes

variable {s s' : Store}

theorem Store.Sent.refl : s.Sent M s := ⟨fun _ => .inl, rfl⟩

theorem Store.Sent.trans {s'' : Store} (h : s.Sent M s') (h' : s'.Sent M s'') : s.Sent M s'' :=
  ⟨fun msg hmsg => (h'.topic msg hmsg).elim (h.topic msg) .inr, h'.usersVotes.trans h.usersVotes⟩

theorem usersVotes_draw {q : Stmt} (hq : (Call.sql q).Sends M) (seq : Seq) :
    (q.draw seq).usersVotes = seq.usersVotes := by
  cases q with
  | insertVote targetId targetType createdBy now => exact hq.elim
  | _ => rfl

theorem Store.sent_statement {q : Stmt} (hq : (Call.sql q).Sends M) {r : Except Err q.Reply}
    {via : (Db → Except String (q.Reply × List Write)) → Transaction.Sessions Db Write →
      Option (Except String q.Reply × Transaction.Sessions Db Write)}
    (h : s.statement q via = some (r, s')) : s.Sent M s' := by
  unfold Store.statement at h
  split at h
  swap
  · cases h
    exact .refl
  obtain ⟨a, -, heq⟩ := Option.map_eq_some_iff.mp h
  cases heq
  exact ⟨fun _ => .inl, usersVotes_draw hq _⟩

theorem Call.Sends.exec {c : Call} (hc : c.Sends M) {i : Nat} {ch : Choice}
    {r : Except Err c.Reply} (h : s.exec i ch c = some (r, s')) : s.Sent M s' := by
  cases c with
  | sql q =>
    cases ch with
    | fail e => cases h; exact .refl
    | lost e => cases h; exact .refl
    | _ => exact Store.sent_statement hc h
  | tx q =>
    have hq : (Call.sql q).Sends M := by cases q <;> trivial
    cases ch with
    | fail e => cases h; exact .refl
    | lost e => cases h; exact .refl
    | _ => exact Store.sent_statement hq h
  | send sent =>
    have hsent : s.Sent M { s with topic := s.topic ++ [sent] } := by
      refine ⟨fun msg hmsg => ?_, rfl⟩
      rcases List.mem_append.mp hmsg with hmsg | hmsg
      · exact .inl hmsg
      · rw [List.mem_singleton.mp hmsg]
        exact .inr hc
    cases ch with
    | fail e => cases h; exact .refl
    | _ => cases h; exact hsent
  | _ => cases ch <;> cases h <;> exact ⟨fun _ => .inl, rfl⟩

theorem sent_rpc (s : Store) (script : List Choice) (c : Rpc) :
    s.Sent c.Publishes ((c.serve self).run World.exec ⟨s, script⟩).2.state := by
  refine (rpc_sends c).run_preserves (I := fun w : World => s.Sent c.Publishes w.state)
    (fun call w hcall hw => hw.trans ?_) .refl
  change w.state.Sent c.Publishes (Store.serve (w.script.headD .serve) call w.state).2
  rw [Store.serve]
  cases hexec : w.state.exec 0 (w.script.headD .serve) call with
  | none => exact .refl
  | some q => exact hcall.exec hexec

end QaSys
