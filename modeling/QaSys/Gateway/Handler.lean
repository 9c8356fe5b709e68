import QaSys.Gateway.Http
import QaSys.Data.Text

/-! The handlers of `gateway/src/handler/qa.rs`, and what reads their bodies,
`handler/json_or_form.rs`. -/

namespace QaSys.Gateway

structure AuthenticatedPrincipal where
  username : String
  token : String
  deriving DecidableEq

def authenticatedUsername (principal : AuthenticatedPrincipal) (claimedUsername : String) :
    Gate String :=
  if principal.username ≠ claimedUsername then throw .forbidden else pure principal.username

def authenticatedToken (principal : AuthenticatedPrincipal) (claimedToken : String) :
    Gate String :=
  if principal.token ≠ claimedToken then throw .forbidden else pure principal.token

def root : String := "API gateway root!"

def hello : String := "Qa-svc!"

def userRegister (payload : RegisterRequest) : Gate RegisterReply := do
  let req := ⟨payload.username, payload.password, payload.email, payload.phone⟩
  let resp ← grpc (← await (.rpc (.userRegister req)))
  return ⟨resp.state⟩

def userLogin (payload : LoginRequest) : Gate LoginReply := do
  let resp ← grpc (← await (.rpc (.userLogin ⟨payload.username, payload.password⟩)))
  return ⟨resp.token⟩

def userLogout (principal : AuthenticatedPrincipal) (payload : LogoutRequest) :
    Gate LogoutReply := do
  let token ← authenticatedToken principal payload.token
  let resp ← grpc (← await (.rpc (.userLogout ⟨token⟩)))
  return ⟨resp.state⟩

def questionOf (q : Pb.QuestionEntity) : QuestionEntity where
  id := q.id.asI64
  title := q.title
  content := q.content
  createdBy := q.createBy
  readCount := q.readCount.asI64
  replyCount := q.replyCount.asI64

def questionDetail (principal : AuthenticatedPrincipal) (payload : QuestionRequest) :
    Gate QuestionDetailResponse := do
  let username ← authenticatedUsername principal payload.username
  let resp ← grpc (← await (.rpc (.questionDetail ⟨payload.questionId, username⟩)))
  return ⟨resp.question.map questionOf⟩

def questionAdd (principal : AuthenticatedPrincipal) (payload : AddQuestRequest) :
    Gate AddQuesReply := do
  let username ← authenticatedUsername principal payload.username
  let resp ← grpc (← await (.rpc (.addQuestion ⟨payload.title, payload.content, username⟩)))
  return ⟨resp.id.asI64⟩

def questionUpdate (principal : AuthenticatedPrincipal) (payload : UpdateQuestRequest) :
    Gate UpdateQuestReply := do
  let username ← authenticatedUsername principal payload.question.updatedBy
  let req := ⟨payload.id, payload.question.title, payload.question.content, username⟩
  let resp ← grpc (← await (.rpc (.updateQuestion req)))
  return ⟨resp.state⟩

def questionDelete (principal : AuthenticatedPrincipal) (payload : DeleteQuestRequest) :
    Gate DeleteQuestReply := do
  let username ← authenticatedUsername principal payload.username
  let resp ← grpc (← await (.rpc (.deleteQuestion ⟨payload.id, username⟩)))
  return ⟨resp.state⟩

def questionFindLatest (payload : LastestQuestRequest) : Gate LastestQuestReply := do
  let resp ← grpc (← await (.rpc (.latestQuestion ⟨payload.lastId, payload.limit⟩)))
  return ⟨resp.questions.map questionOf, resp.lastId, resp.isEnd⟩

def answerAdd (principal : AuthenticatedPrincipal) (payload : AnswerAddRequest) :
    Gate AddAnswerReply := do
  let username ← authenticatedUsername principal payload.username
  let answer : Pb.AnswerEntity :=
    { questionId := payload.questionId, content := payload.content, createBy := username }
  let resp ← grpc (← await (.rpc (.addAnswer ⟨some answer⟩)))
  return ⟨resp.id.asI64⟩

def answerDelete (principal : AuthenticatedPrincipal) (payload : AnswerDeleteRequest) :
    Gate AnswerDeleteReply := do
  let username ← authenticatedUsername principal payload.username
  let resp ← grpc (← await (.rpc (.deleteAnswer ⟨payload.id, username⟩)))
  return ⟨resp.state⟩

def answerUpdate (principal : AuthenticatedPrincipal) (payload : AnswerUpdateRequest) :
    Gate AnswerUpdateReply := do
  let username ← authenticatedUsername principal payload.username
  let resp ← grpc (← await (.rpc (.updateAnswer ⟨payload.id, payload.content, username⟩)))
  return ⟨resp.state⟩

def answerOf (a : Pb.AnswerEntity) : AnswerObject where
  id := a.id.asI64
  questionId := a.questionId.asI64
  content := a.content
  createdBy := a.createBy
  agreeCount := a.agreeCount.asI64

def answerFindOne (principal : AuthenticatedPrincipal) (payload : FindAnswerRequest) :
    Gate FindAnswerReply := do
  let username ← authenticatedUsername principal payload.username
  let resp ← grpc (← await (.rpc (.answerDetail ⟨payload.id, username⟩)))
  return ⟨resp.answer.map answerOf⟩

def answerFindList (principal : AuthenticatedPrincipal) (payload : AnswerLastestRequest) :
    Gate AnswerLatestResponse := do
  let username ← authenticatedUsername principal payload.username
  let req := ⟨payload.questionId, payload.page, payload.limit, username⟩
  let resp ← grpc (← await (.rpc (.answerList req)))
  return ⟨resp.answers.map answerOf, resp.total.asI64, resp.totalPage.asI64, resp.pageSize.asI64,
    resp.currentPage.asI64, resp.isEnd⟩

def answerAgree (principal : AuthenticatedPrincipal) (payload : AnswerAgreeRequest) :
    Gate AnswerAgreeReply := do
  let username ← authenticatedUsername principal payload.username
  let resp ← grpc (← await (.rpc (.agreeAnswer ⟨payload.id, username, payload.action⟩)))
  return ⟨resp.state⟩

/-- What the gateway takes from the crates for JSON, for forms and for checks. -/
structure Formats where
  json : (e : Endpoint) → Request → Option e.Payload
  form : (e : Endpoint) → Request → Option e.Payload
  validEmail : String → Bool
  display : ValidationErrors → String

structure JsonOrFormRejection where
  status : Nat
  validationMessage : Option String

namespace JsonOrFormRejection

def badRequest : JsonOrFormRejection := ⟨400, none⟩

def validation (message : String) : JsonOrFormRejection := ⟨400, some message⟩

def unsupportedMediaType : JsonOrFormRejection := ⟨415, none⟩

def intoResponse (rejection : JsonOrFormRejection) : Response :=
  match rejection.validationMessage with
  | none => { status := rejection.status, body := .empty }
  | some msg => { status := rejection.status, body := .reply 400 msg }

end JsonOrFormRejection

def contentTypeEssence (contentType : String) : String :=
  Text.trim (match Text.splitOnce ';' contentType with
    | some (essence, _) => essence
    | none => contentType)

def isJsonContentType (contentType : String) : Bool :=
  match Text.splitOnce '/' (contentTypeEssence contentType) with
  | none => false
  | some (mediaType, subtype) => Text.eqIgnoreAsciiCase mediaType "application" &&
    (Text.eqIgnoreAsciiCase subtype "json" || match Text.rsplitOnce '+' subtype with
      | none => false
      | some (_, suffix) => Text.eqIgnoreAsciiCase suffix "json")

def isFormContentType (contentType : String) : Bool :=
  Text.eqIgnoreAsciiCase (contentTypeEssence contentType) "application/x-www-form-urlencoded"

variable (x : Formats) (e : Endpoint)

def validated (payload : Option e.Payload) : Except JsonOrFormRejection e.Payload :=
  match payload with
  | none => .error .badRequest
  | some payload => match e.validate x.validEmail payload with
    | [] => .ok payload
    | errors => .error (.validation (x.display errors))

/-- `JsonOrForm::from_request`. -/
def jsonOrForm (req : Request) : Except JsonOrFormRejection e.Payload :=
  match (req.headers.get "content-type").bind HeaderValue.toStr with
  | some value =>
    if isJsonContentType value then validated x e (x.json e req)
    else if isFormContentType value then validated x e (x.form e req)
    else .error .unsupportedMediaType
  | none => .error .unsupportedMediaType

def responded (handler : Gate e.Reply) : Gate Response := do
  match ← handler.attempt with
  | .ok reply => return { status := 200, body := .json e reply }
  | .error error => return error.intoResponse

/-- The arguments of a handler besides the state: the principal, for most, and the body. -/
inductive Handler (e : Endpoint)
  | body (handler : e.Payload → Gate e.Reply)
  | principal (handler : AuthenticatedPrincipal → e.Payload → Gate e.Reply)

def handler : (e : Endpoint) → Handler e
  | .userRegister => .body userRegister
  | .userLogin => .body userLogin
  | .userLogout => .principal userLogout
  | .questionAdd => .principal questionAdd
  | .questionDetail => .principal questionDetail
  | .questionUpdate => .principal questionUpdate
  | .questionDelete => .principal questionDelete
  | .questionFindLatest => .body questionFindLatest
  | .answerAdd => .principal answerAdd
  | .answerUpdate => .principal answerUpdate
  | .answerDelete => .principal answerDelete
  | .answerFindOne => .principal answerFindOne
  | .answerFindList => .principal answerFindList
  | .answerAgree => .principal answerAgree

variable {e}

def withBody (handler : e.Payload → Gate e.Reply) (req : Request) : Gate Response :=
  match jsonOrForm x e req with
  | .error rejection => pure rejection.intoResponse
  | .ok payload => responded e (handler payload)

/-- The arguments are taken in the order in which the handlers name them. -/
def Handler.run (principal : Option AuthenticatedPrincipal) (req : Request) :
    Handler e → Gate Response
  | .body handler => withBody x handler req
  | .principal handler => match principal with
    | none => pure { status := 500, body := .missingExtension }
    | some principal => withBody x (handler principal) req

end QaSys.Gateway
