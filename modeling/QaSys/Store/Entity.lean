import QaSys.Store.Schema

/-! The structs of `qa-svc/src/domain/entity`. -/

namespace QaSys

structure UserEntity where
  id : Int
  username : String
  password : String
  openid : String
  createdAt : Int
  deriving DecidableEq

structure UserSessionEntity where
  uid : Int
  username : String
  openid : String
  loginTime : String
  expireTime : String
  deriving DecidableEq

structure QuestionEntity where
  id : Int := 0
  title : String := ""
  content : String := ""
  createdBy : String := ""
  updatedBy : String := ""
  createdAt : Int := 0
  updatedAt : Option Int := none
  readCount : Int := 0
  replyCount : Int := 0
  deriving DecidableEq

structure LatestQuestionResponse where
  questions : List QuestionEntity
  lastId : Option Int
  isEnd : Bool
  deriving DecidableEq

structure AnswerEntity where
  id : Int := 0
  questionId : Int := 0
  content : String := ""
  createdBy : String := ""
  updatedBy : Option String := none
  createdAt : Int := 0
  updatedAt : Option Int := none
  agreeCount : Int := 0
  deriving DecidableEq

structure VoteMessage where
  targetId : Int64
  targetType : String
  createdBy : String
  action : String
  deriving DecidableEq

def UserRow.toEntity (r : UserRow) : UserEntity :=
  ⟨r.id, r.username.val, r.password.val, r.openid.val, r.createdAt⟩

def QuestionRow.toEntity (r : QuestionRow) : QuestionEntity :=
  ⟨r.id, r.title.val, r.content, r.createdBy.val, r.updatedBy.val, r.createdAt, r.updatedAt,
    r.readCount, r.replyCount⟩

def AnswerRow.toEntity (r : AnswerRow) : AnswerEntity :=
  ⟨r.id, r.questionId, r.content, r.createdBy.val, some r.updatedBy.val, r.createdAt, r.updatedAt,
    r.agreeCount⟩

inductive PaginationError
  | negativeTotal (total : Int)
  | invalidPageSize (pageSize : Int)
  | invalidCurrentPage (currentPage : Int)
  deriving DecidableEq

def PaginationError.toString : PaginationError → String
  | .negativeTotal n => s!"total must not be negative, got {n}"
  | .invalidPageSize n => s!"page size must be greater than zero, got {n}"
  | .invalidCurrentPage n => s!"current page must be greater than zero, got {n}"

structure LatestAnswerResponse where
  answers : List AnswerEntity
  total : Int
  totalPage : Int
  pageSize : Int
  currentPage : Int
  isEnd : Bool
  deriving DecidableEq

/-- Rust's `/` and `%` round towards zero, as `Int.tdiv` and `Int.tmod` do. -/
def LatestAnswerResponse.tryNew (answers : List AnswerEntity) (total pageSize currentPage : Int) :
    Except PaginationError LatestAnswerResponse :=
  if total < 0 then .error (.negativeTotal total)
  else if pageSize ≤ 0 then .error (.invalidPageSize pageSize)
  else if currentPage ≤ 0 then .error (.invalidCurrentPage currentPage)
  else
    let totalPage := total.tdiv pageSize + if total.tmod pageSize ≠ 0 then 1 else 0
    let isEnd := decide (totalPage = 0) || decide (currentPage ≥ totalPage)
    .ok ⟨answers, total, totalPage, pageSize, currentPage, isEnd⟩

end QaSys
