import QaSys.Service.Proto
import QaSys.Service.Answer
import QaSys.Service.Question
import QaSys.Service.UserVote

/-! The calls of `qa-svc/src/application/app.rs` on questions, answers and votes. -/

namespace QaSys

def QuestionEntity.toPb (q : QuestionEntity) (readCount : Int) : Pb.QuestionEntity :=
  ⟨q.id.asU64, q.title, q.content, q.createdBy, readCount.asU64, q.replyCount.asU64⟩

def AnswerEntity.toPb (a : AnswerEntity) (hasAggreed : Bool) : Pb.AnswerEntity :=
  ⟨a.id.asU64, a.questionId.asU64, a.content, a.createdBy, a.agreeCount.asU64, hasAggreed⟩

namespace App

open Pb

abbrev Reply (A : Type) := Except Status A

def failed (code : Code) (what : String) (err : Err) : Reply A :=
  .error ⟨code, s!"{what}, error:{err.toString}"⟩

def addQuestion (req : AddQuestionRequest) : Svc (Reply IdResponse) := do
  let question : QaSys.QuestionEntity :=
    { title := req.title, content := req.content, createdBy := req.createBy }
  match ← (Question.add question).attempt with
  | .error err => return failed .unknown "failed to add question" err
  | .ok id => return .ok ⟨id⟩

def deleteQuestion (req : DeleteRequest) : Svc (Reply StateResponse) := do
  match ← (Question.delete req.id req.username).attempt with
  | .error err => return failed .unknown "failed to delete question" err
  | .ok _ => return .ok ⟨1⟩

def updateQuestion (req : UpdateQuestionRequest) : Svc (Reply StateResponse) := do
  let question : QaSys.QuestionEntity :=
    { title := req.title, content := req.content, updatedBy := req.updateBy }
  match ← (Question.update req.id question).attempt with
  | .error err => return failed .unknown "failed to update question" err
  | .ok _ => return .ok ⟨1⟩

def addAnswer (req : AddAnswerRequest) : Svc (Reply IdResponse) := do
  match req.answer with
  | none => return .error ⟨.invalidArgument, "answer is empty"⟩
  | some answer =>
    let answer : QaSys.AnswerEntity :=
      { questionId := answer.questionId.asI64, content := answer.content,
        createdBy := answer.createBy }
    match ← (Answer.add answer).attempt with
    | .error err => return failed .unknown "failed to add answer" err
    | .ok id => return .ok ⟨id⟩

def deleteAnswer (req : DeleteRequest) : Svc (Reply StateResponse) := do
  match ← (Answer.delete req.id req.username).attempt with
  | .error err => return failed .unknown "failed to delete answer" err
  | .ok _ => return .ok ⟨1⟩

def updateAnswer (req : UpdateAnswerRequest) : Svc (Reply StateResponse) := do
  match ← (Answer.update req.id req.content req.username).attempt with
  | .error err => return failed .unknown "failed to update answer" err
  | .ok _ => return .ok ⟨1⟩

/-- The check of `agree_answer` against the stored votes; a failed look-up counts as not voted. -/
def agreeAnswer (req : AgreeAnswerRequest) : Svc (Reply AgreeAnswerResponse) := do
  match ← (Answer.findOne req.id).attempt with
  | .error err => return failed .unknown "failed to find answer" err
  | .ok answer =>
    let isVoted : Bool := match ← (UserVote.isVoted req.id req.createBy "answer").attempt with
      | .ok voted => voted
      | .error _ => false
    if req.action = "up" ∧ isVoted then return .ok ⟨0, 0, "already voted it"⟩
    if req.action ≠ "up" ∧ !isVoted then return .ok ⟨0, 0, "not voted it"⟩
    let agreeCount := if req.action = "up" then answer.agreeCount + 1 else answer.agreeCount - 1
    let msg : VoteMessage := ⟨req.id.toInt64, "answer", req.createBy, req.action⟩
    match ← (UserVote.publish msg).attempt with
    | .error err => return failed .internal "failed to publish vote message" err
    | .ok _ => return .ok ⟨1, agreeCount.asU64, ""⟩

def answerAgree (req : AgreeAnswerRequest) : Svc (Reply AgreeAnswerResponse) := agreeAnswer req

def questionDetail (req : DetailRequest) : Svc (Reply QuestionDetailResponse) := do
  match ← (Question.findOne req.id).attempt with
  | .error err => return failed .unknown "failed to find question" err
  | .ok question =>
    match ← (Question.incr question.id.asU64 "question").attempt with
    | .error err => return failed .unknown "failed to incr question" err
    | .ok viewCount =>
      return .ok ⟨some (question.toPb (question.readCount + viewCount.asI64))⟩

def latestQuestion (req : LatestQuestionRequest) : Svc (Reply Pb.LatestQuestionResponse) := do
  match ← (Question.findLatest req.lastId req.limit).attempt with
  | .error err => return failed .unknown "failed to find latest question" err
  | .ok result =>
    if result.questions.isEmpty then return .ok ⟨[], 0, true⟩
    return .ok ⟨result.questions.map fun q => q.toPb q.readCount, (result.lastId.getD 0).asU64,
      result.isEnd⟩

/-- A failed look-up of the votes shows every answer as not voted. -/
def answerList (req : AnswerListRequest) : Svc (Reply AnswerListResponse) := do
  match ← (Answer.findLatest req.questionId req.limit req.page).attempt with
  | .error err => return failed .unknown "failed to find answer" err
  | .ok res =>
    if res.total = 0 then return .ok ⟨[], 0, 0, 0, 0, true⟩
    let ids := res.answers.map (·.id.asU64)
    let voted := match ← (UserVote.isBatchVoted ids req.username "answer").attempt with
      | .ok voted => voted
      | .error _ => []
    return .ok ⟨res.answers.map fun a => a.toPb (voted.contains a.id.asU64), res.total.asU64,
      res.totalPage.asU64, res.pageSize.asU64, res.currentPage.asU64, res.isEnd⟩

def answerDetail (req : DetailRequest) : Svc (Reply AnswerDetailResponse) := do
  match ← (Answer.findOne req.id).attempt with
  | .error err => return failed .unknown "failed to find answer" err
  | .ok answer =>
    let isVoted : Bool := match ← (UserVote.isVoted answer.id.asU64 req.username "answer").attempt with
      | .ok voted => voted
      | .error _ => false
    return .ok ⟨some (answer.toPb isVoted)⟩

end App

end QaSys
