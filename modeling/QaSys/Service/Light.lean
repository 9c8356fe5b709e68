import QaSys.Service.Rpc
import QaSys.Store.CallLaws
import QaSys.Store.SqlLaws

/-! The calls of the service that change no row, no session and not the clock. -/

namespace QaSys

def Stmt.Light : Stmt → Prop
  | .userId _ | .user _ | .question _ | .latestQuestions _ | .questionsBelow .. | .answer _
  | .countAnswers _ | .pageAnswers .. | .vote .. | .votesIn .. => True
  | _ => False

def Call.Light : Call → Prop
  | .sql q => q.Light
  | .get _ | .hincr .. | .hscan .. | .send _ | .ack _ | .now | .newV4 => True
  | _ => False

def Rpc.Light : Rpc → Prop
  | .verifyToken _ | .agreeAnswer _ | .answerAgree _ | .questionDetail _ | .latestQuestion _
  | .answerList _ | .answerDetail _ => True
  | _ => False

theorem Stmt.Light.draw {q : Stmt} (hq : q.Light) {seq : Seq} : q.draw seq = seq := by
  cases q <;> first | rfl | exact hq.elim

theorem Stmt.Light.writes {q : Stmt} (hq : q.Light) {seq : Seq} {db : Db} {a : q.Reply}
    {ws : List Write} (h : q.eval seq db = .ok (a, ws)) : ws = [] ∧ q.draw seq = seq := by
  cases q with
  | userId username => cases h; exact ⟨rfl, rfl⟩
  | user username => cases h; exact ⟨rfl, rfl⟩
  | question id => cases h; exact ⟨rfl, rfl⟩
  | latestQuestions limit =>
    obtain ⟨rows, -, h⟩ := except_bind_eq_ok h
    cases h
    exact ⟨rfl, rfl⟩
  | questionsBelow lastId limit =>
    obtain ⟨rows, -, h⟩ := except_bind_eq_ok h
    cases h
    exact ⟨rfl, rfl⟩
  | answer id => cases h; exact ⟨rfl, rfl⟩
  | countAnswers questionId => cases h; exact ⟨rfl, rfl⟩
  | pageAnswers questionId limit offset =>
    obtain ⟨rows, -, h⟩ := except_bind_eq_ok h
    cases h
    exact ⟨rfl, rfl⟩
  | vote targetId createdBy targetType => cases h; exact ⟨rfl, rfl⟩
  | votesIn targetIds targetType createdBy => cases h; exact ⟨rfl, rfl⟩
  | _ => exact hq.elim

theorem Call.Light.serve {c : Call} (h : c.Light) {s : Store} (hq : s.pg.Quiet) (ch : Choice) :
    (Store.serve ch c s).2.pg = s.pg ∧ (Store.serve ch c s).2.seq = s.seq := by
  cases c with
  | sql q =>
    rcases Store.serve_sql hq.alone q ch with ⟨-, msg, hs⟩ | ⟨-, hs⟩
    · rw [hs]
      exact ⟨rfl, rfl⟩
    · rw [hs]
      cases heval : q.eval s.seq s.db with
      | error msg => exact ⟨rfl, Stmt.Light.draw h⟩
      | ok res =>
        obtain ⟨a, ws⟩ := res
        obtain ⟨rfl, hdraw⟩ := Stmt.Light.writes h heval
        exact ⟨rfl, hdraw⟩
  | get key => cases ch <;> exact ⟨rfl, rfl⟩
  | hincr key field delta => cases ch <;> exact ⟨rfl, rfl⟩
  | hscan key cursor pattern count => cases ch <;> exact ⟨rfl, rfl⟩
  | send msg => cases ch <;> exact ⟨rfl, rfl⟩
  | ack messageId => cases ch <;> exact ⟨rfl, rfl⟩
  | now => exact ⟨rfl, rfl⟩
  | newV4 => exact ⟨rfl, rfl⟩
  | _ => exact h.elim

theorem Call.Light.exec {c : Call} (h : c.Light) {s s' : Store} (hq : s.pg.Quiet) {ch : Choice}
    {r : Except Err c.Reply} (hexec : s.exec 0 ch c = some (r, s')) :
    s'.pg = s.pg ∧ s'.seq = s.seq := by
  have hserve : Store.serve ch c s = (r, s') := by rw [Store.serve, hexec]; rfl
  have := h.serve hq ch
  rwa [hserve] at this

namespace Prog

variable {P : Call → Prop}

theorem within_fetchOne {row : Option A} : (fetchOne row).Within P := by
  cases row <;> trivial

theorem within_ensure {cond : Bool} {msg : String} : (ensure cond msg).Within P := by
  cases cond <;> trivial

theorem within_context {o : Option A} {msg : String} : (context o msg).Within P := by
  cases o <;> trivial

theorem within_query {q : Stmt} (h : P (.sql q)) : (query q).Within P := (within_op _).mpr h

theorem within_await {c : Call} (h : P c) : (await c).Within P := (within_op _).mpr h

theorem within_handled {p : Svc A} (hp : p.Within P) {f : Except Err A → Svc B}
    (hf : ∀ r, (f r).Within P) : (p.attempt >>= f).Within P :=
  hp.attempt.bind hf

end Prog

section

open Prog

theorem light_isVoted {targetId : UInt64} {username targetType : String} :
    (UserVote.isVoted targetId username targetType).Within Call.Light :=
  (within_query (by trivial)).bind fun _ => within_pure _

theorem light_isBatchVoted {targetIds : List UInt64} {username targetType : String} :
    (UserVote.isBatchVoted targetIds username targetType).Within Call.Light := by
  unfold UserVote.isBatchVoted
  split
  · trivial
  · exact (within_query (by trivial)).bind fun _ => within_pure _

theorem light_publish {msg : VoteMessage} : (UserVote.publish msg).Within Call.Light :=
  (within_await (by trivial)).bind fun _ => within_pure _

theorem light_answerFindOne {id : UInt64} : (Answer.findOne id).Within Call.Light :=
  (within_query (by trivial)).bind fun _ => within_fetchOne.bind fun _ => within_pure _

theorem light_answerFindLatest {questionId limit page : UInt64} :
    (Answer.findLatest questionId limit page).Within Call.Light := by
  refine within_ensure.bind fun _ => within_context.bind fun _ => within_context.bind fun _ =>
    within_context.bind fun _ => within_context.bind fun _ => within_context.bind fun _ =>
    (within_query (by trivial)).bind fun _ => (within_query (by trivial)).bind fun _ => ?_
  split <;> trivial

theorem light_questionFindLatest {lastId limit : UInt64} :
    (Question.findLatest lastId limit).Within Call.Light := by
  refine within_context.bind fun limit => ?_
  dsimp only
  split
  · exact (within_query (by trivial)).bind fun _ => within_pure _
  · exact within_context.bind fun _ => (within_query (by trivial)).bind fun _ => within_pure _

theorem light_agreeAnswer {req : Pb.AgreeAnswerRequest} :
    (App.agreeAnswer req).Within Call.Light := by
  refine within_handled light_answerFindOne fun answer => ?_
  cases answer with
  | error err => trivial
  | ok answer =>
    refine light_isVoted.attempt.bind fun voted => ?_
    -- A look-up that failed and one that found nothing go on in the same way.
    cases voted <;>
    · dsimp only
      split
      · trivial
      · split
        · trivial
        · exact within_handled light_publish fun r => by cases r <;> trivial

theorem light_checkToken {self : QaServiceImpl} {token : String} :
    (self.checkToken token).Within Call.Light := by
  unfold QaServiceImpl.checkToken
  split
  · trivial
  split
  · trivial
  split
  · split
    · trivial
    split
    · trivial
    · refine (within_await (by trivial)).bind fun currentTime => ?_
      split <;> trivial
  · trivial

theorem light_get {x : Crates} {key : String} : (User.get x key).Within Call.Light := by
  refine (within_await (by trivial)).bind fun value => ?_
  unfold User.session
  split
  · trivial
  · split <;> trivial

theorem light_verifyToken {self : QaServiceImpl} {req : Pb.VerifyTokenRequest} :
    (self.verifyToken req).Within Call.Light := by
  refine light_checkToken.bind fun r => ?_
  cases r with
  | error err => trivial
  | ok openid =>
    refine within_handled light_get fun user => ?_
    cases user with
    | error err => dsimp only; split <;> trivial
    | ok user => trivial

theorem Rpc.Light.within {self : QaServiceImpl} {c : Rpc} (h : c.Light) :
    (c.serve self).Within Call.Light := by
  cases c with
  | verifyToken req => exact light_verifyToken
  | agreeAnswer req => exact light_agreeAnswer
  | answerAgree req => exact light_agreeAnswer
  | questionDetail req =>
    refine within_handled ((within_query (by trivial)).bind fun _ => within_fetchOne.bind fun _ =>
      within_pure _) fun r => ?_
    cases r with
    | error err => trivial
    | ok question =>
      exact within_handled ((within_await (by trivial)).bind fun _ => within_pure _) fun r => by
        cases r <;> trivial
  | latestQuestion req =>
    refine within_handled light_questionFindLatest fun r => ?_
    cases r with
    | error err => trivial
    | ok result => dsimp only; split <;> trivial
  | answerList req =>
    refine within_handled light_answerFindLatest fun r => ?_
    cases r with
    | error err => trivial
    | ok res =>
      dsimp only
      split
      · trivial
      · exact within_handled light_isBatchVoted fun _ => within_pure _
  | answerDetail req =>
    refine within_handled light_answerFindOne fun r => ?_
    cases r with
    | error err => trivial
    | ok answer => exact within_handled light_isVoted fun _ => within_pure _
  | _ => exact h.elim

end

end QaSys
