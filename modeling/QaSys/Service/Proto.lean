import QaSys.Data.Int64

/-! The messages of `proto/qa.proto`. -/

namespace QaSys.Pb

inductive Code
  | unknown | invalidArgument | alreadyExists | aborted | internal | unauthenticated
  | cancelled | deadlineExceeded | notFound | permissionDenied | resourceExhausted
  | failedPrecondition | outOfRange | unimplemented | unavailable | dataLoss
  deriving DecidableEq

structure Status where
  code : Code
  message : String
  deriving DecidableEq

structure UserLoginRequest where
  username : String
  password : String
  deriving DecidableEq

structure UserLoginResponse where
  token : String
  deriving DecidableEq

structure UserLogoutRequest where
  token : String
  deriving DecidableEq

structure StateResponse where
  state : Int
  deriving DecidableEq

structure UserRegisterRequest where
  username : String
  password : String
  email : String
  phone : String
  deriving DecidableEq

structure VerifyTokenRequest where
  token : String
  requestId : String
  deriving DecidableEq

structure VerifyTokenResponse where
  state : Int
  reason : String
  username : String
  deriving DecidableEq

structure AddQuestionRequest where
  title : String
  content : String
  createBy : String
  deriving DecidableEq

structure IdResponse where
  id : UInt64
  deriving DecidableEq

structure DeleteRequest where
  id : UInt64
  username : String
  deriving DecidableEq

structure UpdateQuestionRequest where
  id : UInt64
  title : String
  content : String
  updateBy : String
  deriving DecidableEq

structure AnswerEntity where
  id : UInt64 := 0
  questionId : UInt64 := 0
  content : String := ""
  createBy : String := ""
  agreeCount : UInt64 := 0
  hasAggreed : Bool := false
  deriving DecidableEq

structure AddAnswerRequest where
  answer : Option AnswerEntity
  deriving DecidableEq

structure UpdateAnswerRequest where
  id : UInt64
  content : String
  username : String
  deriving DecidableEq

structure AgreeAnswerRequest where
  id : UInt64
  createBy : String
  action : String
  deriving DecidableEq

structure AgreeAnswerResponse where
  state : Int
  agreeCount : UInt64
  reason : String
  deriving DecidableEq

structure DetailRequest where
  id : UInt64
  username : String
  deriving DecidableEq

structure QuestionEntity where
  id : UInt64
  title : String
  content : String
  createBy : String
  readCount : UInt64
  replyCount : UInt64
  deriving DecidableEq

structure QuestionDetailResponse where
  question : Option QuestionEntity
  deriving DecidableEq

structure LatestQuestionRequest where
  lastId : UInt64
  limit : UInt64
  deriving DecidableEq

structure LatestQuestionResponse where
  questions : List QuestionEntity
  lastId : UInt64
  isEnd : Bool
  deriving DecidableEq

structure AnswerListRequest where
  questionId : UInt64
  page : UInt64
  limit : UInt64
  username : String
  deriving DecidableEq

structure AnswerListResponse where
  answers : List AnswerEntity
  total : UInt64
  totalPage : UInt64
  pageSize : UInt64
  currentPage : UInt64
  isEnd : Bool
  deriving DecidableEq

structure AnswerDetailResponse where
  answer : Option AnswerEntity
  deriving DecidableEq

end QaSys.Pb
