import QaSys.Service.Auth

/-! The service of `proto/qa.proto`, and a backend that answers its calls one after another. -/

namespace QaSys

open Pb

inductive Rpc
  | userLogin (req : UserLoginRequest)
  | userLogout (req : UserLogoutRequest)
  | userRegister (req : UserRegisterRequest)
  | verifyToken (req : VerifyTokenRequest)
  | addQuestion (req : AddQuestionRequest)
  | deleteQuestion (req : DeleteRequest)
  | updateQuestion (req : UpdateQuestionRequest)
  | addAnswer (req : AddAnswerRequest)
  | deleteAnswer (req : DeleteRequest)
  | updateAnswer (req : UpdateAnswerRequest)
  | agreeAnswer (req : AgreeAnswerRequest)
  | questionDetail (req : DetailRequest)
  | latestQuestion (req : LatestQuestionRequest)
  | answerList (req : AnswerListRequest)
  | answerDetail (req : DetailRequest)
  | answerAgree (req : AgreeAnswerRequest)
  deriving DecidableEq

namespace Rpc

@[reducible] def Reply : Rpc → Type
  | .userLogin _ => UserLoginResponse
  | .verifyToken _ => VerifyTokenResponse
  | .addQuestion _ | .addAnswer _ => IdResponse
  | .agreeAnswer _ | .answerAgree _ => AgreeAnswerResponse
  | .questionDetail _ => QuestionDetailResponse
  | .latestQuestion _ => Pb.LatestQuestionResponse
  | .answerList _ => AnswerListResponse
  | .answerDetail _ => AnswerDetailResponse
  | _ => StateResponse

def serve (self : QaServiceImpl) : (c : Rpc) → Svc (App.Reply c.Reply)
  | .userLogin req => self.userLogin req
  | .userLogout req => self.userLogout req
  | .userRegister req => self.userRegister req
  | .verifyToken req => self.verifyToken req
  | .addQuestion req => App.addQuestion req
  | .deleteQuestion req => App.deleteQuestion req
  | .updateQuestion req => App.updateQuestion req
  | .addAnswer req => App.addAnswer req
  | .deleteAnswer req => App.deleteAnswer req
  | .updateAnswer req => App.updateAnswer req
  | .agreeAnswer req => App.agreeAnswer req
  | .questionDetail req => App.questionDetail req
  | .latestQuestion req => App.latestQuestion req
  | .answerList req => App.answerList req
  | .answerDetail req => App.answerDetail req
  | .answerAgree req => App.answerAgree req

/-- The user a call says it acts for. -/
def actor : Rpc → Option String
  | .addQuestion req => some req.createBy
  | .deleteQuestion req | .deleteAnswer req => some req.username
  | .updateQuestion req => some req.updateBy
  | .addAnswer req => req.answer.map (·.createBy)
  | .updateAnswer req => some req.username
  | .agreeAnswer req | .answerAgree req => some req.createBy
  | .questionDetail req | .answerDetail req => some req.username
  | .answerList req => some req.username
  | _ => none

end Rpc

/-- A token a login has handed out. -/
structure Issue where
  username : String
  password : String
  openid : String
  token : String
  issuedAt : Int
  deriving DecidableEq

def Issue.expiry (i : Issue) : Int := i.issuedAt + 86400

def Issue.key (i : Issue) : String := QaServiceImpl.sessionKey i.openid

def UserRow.issue (row : UserRow) (req : UserLoginRequest) (token : String) (clock : Int) : Issue :=
  ⟨req.username, req.password, row.openid.val, token, clock⟩

/-- The store, with a record of the tokens handed out and of those presented to a logout since. -/
structure Backend where
  store : Store
  issued : List Issue
  revoked : List String

namespace Backend

def empty (store : Store) : Backend := ⟨store, [], []⟩

def user (b : Backend) (username : String) : Option UserRow :=
  b.store.db.users.find? (·.username.val = username)

def record (b : Backend) (store : Store) : (c : Rpc) → Except Err (App.Reply c.Reply) → Backend
  | .userLogin req, .ok (.ok res) => match b.user req.username with
    | some row => { b with store, issued := b.issued ++ [row.issue req res.token b.store.clock] }
    | none => { b with store }
  | .userLogout req, .ok (.ok _) =>
    if b.issued.any (·.token = req.token) then
      { b with store, revoked := b.revoked ++ [req.token] }
    else { b with store }
  | _, _ => { b with store }

variable (self : QaServiceImpl) (script : List Choice) (c : Rpc) (b : Backend)

def ran : Except Err (App.Reply c.Reply) × World := (c.serve self).run World.exec ⟨b.store, script⟩

def reply : Except Err (App.Reply c.Reply) := (b.ran self script c).1

def call : Backend := b.record (b.ran self script c).2.state c (b.reply self script c)

end Backend

end QaSys
