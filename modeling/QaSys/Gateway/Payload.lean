import QaSys.Data.Int64
import Mathlib.Data.List.ReduceOption

/-! The bodies of the requests and replies of `gateway/src/handler/qa.rs`, with the checks of the
`validator` crate.  Instants are seconds since the epoch. -/

namespace QaSys.Gateway

/-- The messages of each field that fails a check. -/
abbrev ValidationErrors := List (String × List String)

def field (name : String) (checks : List (Option String)) : ValidationErrors :=
  match checks.reduceOption with
  | [] => []
  | messages => [(name, messages)]

def check (ok : Bool) (message : String) : Option String := if ok then none else some message

/-- The crate counts the characters, not the bytes. -/
def length (min max : Nat) (message value : String) : Option String :=
  check (decide (min ≤ value.length ∧ value.length ≤ max)) message

def range (min : UInt64) (message : String) (value : UInt64) : Option String :=
  check (decide (min ≤ value)) message

def rangeTo (min max : UInt64) (message : String) (value : UInt64) : Option String :=
  check (decide (min ≤ value ∧ value ≤ max)) message

/-- The message of the attribute takes the place of the one the function gives. -/
def custom (function : String → Except String Unit) (message value : String) : Option String :=
  check (function value).isOk message

def validateRequired (value : String) : Except String Unit :=
  if value.isEmpty then .error "username is empty" else .ok ()

def validateVoteAction (value : String) : Except String Unit :=
  if value = "up" ∨ value = "down" then .ok () else .error "action invalid"

section

variable {name message value : String} {checks : List (Option String)} {low high : Nat}

@[simp] theorem check_eq_none {ok : Bool} : check ok message = none ↔ ok = true := by
  cases ok <;> simp [check]

@[simp] theorem length_eq_none :
    length low high message value = none ↔ low ≤ value.length ∧ value.length ≤ high := by
  simp [length]

@[simp] theorem required_eq_none : custom validateRequired message value = none ↔ value ≠ "" := by
  by_cases h : value = "" <;> simp [custom, validateRequired, Except.isOk, Except.toBool, h]

@[simp] theorem field_eq_nil : field name checks = [] ↔ ∀ c ∈ checks, c = none := by
  have hsome : checks.reduceOption = [] ↔ ∀ c ∈ checks, c = none := by
    rw [List.reduceOption, List.filterMap_eq_nil_iff]
    rfl
  rw [← hsome]
  unfold field
  split
  next h => exact iff_of_true rfl h
  next h => exact iff_of_false (List.cons_ne_nil _ _) h

end

structure RegisterRequest where
  username : String
  password : String
  email : String
  phone : String
  deriving DecidableEq

def RegisterRequest.validate (validEmail : String → Bool) (r : RegisterRequest) : ValidationErrors :=
  field "username" [length 0 32 "username invalid" r.username,
      custom validateRequired "username is empty" r.username] ++
    field "password" [length 6 32 "password invalid" r.password,
      custom validateRequired "password is empty" r.password] ++
    field "email" [check (validEmail r.email) "email invalid",
      custom validateRequired "email is empty" r.email] ++
    field "phone" [length 8 11 "phone invalid" r.phone,
      custom validateRequired "phone is empty" r.phone]

theorem RegisterRequest.username_length {validEmail : String → Bool} {r : RegisterRequest}
    (h : r.validate validEmail = []) : r.username ≠ "" ∧ r.username.length ≤ 32 := by
  simp only [validate, List.append_eq_nil_iff, field_eq_nil, List.forall_mem_cons, length_eq_none,
    required_eq_none] at h
  exact ⟨h.1.1.1.2.1, h.1.1.1.1.2⟩

structure LoginRequest where
  username : String
  password : String
  deriving DecidableEq

def LoginRequest.validate (r : LoginRequest) : ValidationErrors :=
  field "username" [length 0 32 "username invalid" r.username,
      custom validateRequired "username is empty" r.username] ++
    field "password" [length 6 32 "password invalid" r.password,
      custom validateRequired "password is empty" r.password]

structure LogoutRequest where
  token : String
  deriving DecidableEq

def LogoutRequest.validate (r : LogoutRequest) : ValidationErrors :=
  field "token" [length 0 512 "token invalid" r.token,
    custom validateRequired "token is empty" r.token]

structure QuestionEntity where
  id : Int := 0
  title : String := ""
  content : String := ""
  createdBy : String := ""
  updatedBy : String := ""
  createdAt : Int := 0
  updatedAt : Option Int := none
  readCount : Int := 0
  replyCount : Int := 0
  deriving DecidableEq

structure QuestionRequest where
  questionId : UInt64
  username : String
  deriving DecidableEq

def QuestionRequest.validate (r : QuestionRequest) : ValidationErrors :=
  field "question_id" [range 1 "question_id invalid" r.questionId] ++
    field "username" [custom validateRequired "username is empty" r.username]

structure AddQuestRequest where
  title : String
  content : String
  username : String
  deriving DecidableEq

def AddQuestRequest.validate (r : AddQuestRequest) : ValidationErrors :=
  field "title" [length 1 512 "title invalid" r.title,
      custom validateRequired "title is empty" r.title] ++
    field "content" [length 1 4096 "content invalid" r.content,
      custom validateRequired "content is empty" r.content] ++
    field "username" [custom validateRequired "username is empty" r.username]

theorem AddQuestRequest.lengths {r : AddQuestRequest} (h : r.validate = []) :
    (1 ≤ r.title.length ∧ r.title.length ≤ 512) ∧
      1 ≤ r.content.length ∧ r.content.length ≤ 4096 := by
  simp only [validate, List.append_eq_nil_iff, field_eq_nil, List.forall_mem_cons,
    length_eq_none] at h
  exact ⟨h.1.1.1, h.1.2.1⟩

/-- The question inside has no checks of its own. -/
structure UpdateQuestRequest where
  id : UInt64
  question : QuestionEntity
  deriving DecidableEq

def UpdateQuestRequest.validate (r : UpdateQuestRequest) : ValidationErrors :=
  field "id" [range 1 "id invalid" r.id]

def username (value : String) : ValidationErrors :=
  field "username" [length 1 32 "username invalid" value,
    custom validateRequired "username is empty" value]

structure DeleteQuestRequest where
  id : UInt64
  username : String
  deriving DecidableEq

def DeleteQuestRequest.validate (r : DeleteQuestRequest) : ValidationErrors :=
  field "id" [range 1 "id invalid" r.id] ++ Gateway.username r.username

structure LastestQuestRequest where
  lastId : UInt64
  limit : UInt64
  deriving DecidableEq

def LastestQuestRequest.validate (r : LastestQuestRequest) : ValidationErrors :=
  field "last_id" [range 0 "last_id invalid" r.lastId] ++
    field "limit" [rangeTo 1 100 "limit invalid" r.limit]

structure AnswerObject where
  id : Int := 0
  questionId : Int := 0
  content : String := ""
  createdBy : String := ""
  updatedBy : Option String := none
  createdAt : Int := 0
  updatedAt : Option Int := none
  agreeCount : Int := 0
  deriving DecidableEq

structure AnswerAddRequest where
  content : String
  username : String
  questionId : UInt64
  deriving DecidableEq

def AnswerAddRequest.validate (r : AnswerAddRequest) : ValidationErrors :=
  field "content" [length 1 1024 "content invalid" r.content,
      custom validateRequired "content is empty" r.content] ++
    Gateway.username r.username ++
    field "question_id" [range 1 "question_id invalid" r.questionId]

theorem AnswerAddRequest.content_length {r : AnswerAddRequest} (h : r.validate = []) :
    1 ≤ r.content.length ∧ r.content.length ≤ 1024 := by
  simp only [validate, List.append_eq_nil_iff, field_eq_nil, List.forall_mem_cons,
    length_eq_none] at h
  exact h.1.1.1

structure AnswerDeleteRequest where
  id : UInt64
  username : String
  deriving DecidableEq

def AnswerDeleteRequest.validate (r : AnswerDeleteRequest) : ValidationErrors :=
  field "id" [range 1 "id invalid" r.id] ++ Gateway.username r.username

structure AnswerUpdateRequest where
  id : UInt64
  content : String
  username : String
  deriving DecidableEq

def AnswerUpdateRequest.validate (r : AnswerUpdateRequest) : ValidationErrors :=
  field "id" [range 1 "id invalid" r.id] ++
    field "content" [length 1 1024 "content invalid" r.content,
      custom validateRequired "content is empty" r.content] ++
    Gateway.username r.username

theorem AnswerUpdateRequest.content_length {r : AnswerUpdateRequest} (h : r.validate = []) :
    1 ≤ r.content.length ∧ r.content.length ≤ 1024 := by
  simp only [validate, List.append_eq_nil_iff, field_eq_nil, List.forall_mem_cons,
    length_eq_none] at h
  exact h.1.2.1

structure FindAnswerRequest where
  id : UInt64
  username : String
  deriving DecidableEq

def FindAnswerRequest.validate (r : FindAnswerRequest) : ValidationErrors :=
  field "id" [range 1 "id invalid" r.id] ++ Gateway.username r.username

structure AnswerLastestRequest where
  questionId : UInt64
  page : UInt64
  limit : UInt64
  username : String
  deriving DecidableEq

/-- The messages on the username speak of the order. -/
def AnswerLastestRequest.validate (r : AnswerLastestRequest) : ValidationErrors :=
  field "question_id" [range 1 "question_id invalid" r.questionId] ++
    field "page" [range 1 "page invalid" r.page] ++
    field "limit" [rangeTo 1 100 "limit invalid" r.limit] ++
    field "username" [length 1 32 "sort invalid" r.username,
      custom validateRequired "sort is empty" r.username]

structure AnswerAgreeRequest where
  id : UInt64
  username : String
  action : String
  deriving DecidableEq

/-- The messages on the username speak of the author. -/
def AnswerAgreeRequest.validate (r : AnswerAgreeRequest) : ValidationErrors :=
  field "id" [range 1 "id invalid" r.id] ++
    field "username" [length 1 32 "create_by invalid" r.username,
      custom validateRequired "create_by is empty" r.username] ++
    field "action" [length 1 32 "action invalid" r.action,
      custom validateRequired "action is empty" r.action,
      custom validateVoteAction "action invalid" r.action]

structure StateReply where
  state : Int
  deriving DecidableEq

abbrev RegisterReply := StateReply

abbrev LogoutReply := StateReply

abbrev UpdateQuestReply := StateReply

abbrev DeleteQuestReply := StateReply

abbrev AnswerDeleteReply := StateReply

abbrev AnswerUpdateReply := StateReply

abbrev AnswerAgreeReply := StateReply

structure LoginReply where
  token : String
  deriving DecidableEq

structure QuestionDetailResponse where
  question : Option QuestionEntity
  deriving DecidableEq

structure AddQuesReply where
  questionId : Int
  deriving DecidableEq

structure LastestQuestReply where
  questions : List QuestionEntity
  lastId : UInt64
  isEnd : Bool
  deriving DecidableEq

structure AddAnswerReply where
  answerId : Int
  deriving DecidableEq

structure FindAnswerReply where
  answer : Option AnswerObject
  deriving DecidableEq

structure AnswerLatestResponse where
  answers : List AnswerObject
  total : Int
  totalPage : Int
  pageSize : Int
  currentPage : Int
  isEnd : Bool
  deriving DecidableEq

/-- The handlers that read a body, by their names. -/
inductive Endpoint
  | userRegister | userLogin | userLogout
  | questionAdd | questionDetail | questionUpdate | questionDelete | questionFindLatest
  | answerAdd | answerUpdate | answerDelete | answerFindOne | answerFindList | answerAgree
  deriving DecidableEq

namespace Endpoint

@[reducible] def Payload : Endpoint → Type
  | .userRegister => RegisterRequest
  | .userLogin => LoginRequest
  | .userLogout => LogoutRequest
  | .questionAdd => AddQuestRequest
  | .questionDetail => QuestionRequest
  | .questionUpdate => UpdateQuestRequest
  | .questionDelete => DeleteQuestRequest
  | .questionFindLatest => LastestQuestRequest
  | .answerAdd => AnswerAddRequest
  | .answerUpdate => AnswerUpdateRequest
  | .answerDelete => AnswerDeleteRequest
  | .answerFindOne => FindAnswerRequest
  | .answerFindList => AnswerLastestRequest
  | .answerAgree => AnswerAgreeRequest

@[reducible] def Reply : Endpoint → Type
  | .userRegister => RegisterReply
  | .userLogin => LoginReply
  | .userLogout => LogoutReply
  | .questionAdd => AddQuesReply
  | .questionDetail => QuestionDetailResponse
  | .questionUpdate => UpdateQuestReply
  | .questionDelete => DeleteQuestReply
  | .questionFindLatest => LastestQuestReply
  | .answerAdd => AddAnswerReply
  | .answerUpdate => AnswerUpdateReply
  | .answerDelete => AnswerDeleteReply
  | .answerFindOne => FindAnswerReply
  | .answerFindList => AnswerLatestResponse
  | .answerAgree => AnswerAgreeReply

def validate (validEmail : String → Bool) : (e : Endpoint) → e.Payload → ValidationErrors
  | .userRegister, payload => payload.validate validEmail
  | .userLogin, payload => payload.validate
  | .userLogout, payload => payload.validate
  | .questionAdd, payload => payload.validate
  | .questionDetail, payload => payload.validate
  | .questionUpdate, payload => payload.validate
  | .questionDelete, payload => payload.validate
  | .questionFindLatest, payload => payload.validate
  | .answerAdd, payload => payload.validate
  | .answerUpdate, payload => payload.validate
  | .answerDelete, payload => payload.validate
  | .answerFindOne, payload => payload.validate
  | .answerFindList, payload => payload.validate
  | .answerAgree, payload => payload.validate

end Endpoint

end QaSys.Gateway
