import QaSys.Service.Answer
import QaSys.Data.Decimal

/-! `qa-svc/src/core/question.rs`. -/

namespace QaSys.Question

def getHashKey (targetType : String) : String := s!"qa-sys:{targetType}:read_count:hash"

def updateReadCount (targetType : String) (targetId icreament : Int) : Svc Unit := do
  let rowsAffected ← query (.addReadCount icreament targetId)
  if rowsAffected = 0 then
    throw (.anyhow s!"failed to update target_id:{targetId} target_type:{targetType}")
  let _remain ← await (.hincr (getHashKey targetType) (toString targetId) (-icreament))

def flushField (targetType : String) (reply : String × Int) : Svc Unit := do
  match parseI64 reply.1 with
  | .error e => throw (.parse e)
  | .ok targetId =>
    match ← (updateReadCount targetType targetId reply.2).attempt with
    | .error _ =>
      throw (.anyhow s!"failed to update read count,target_type:{targetType},target_id:{targetId}")
    | .ok _ => return ()

def reidsCmd (targetType : String) (cursor : UInt64) (pattern : String) (count : UInt64) :
    Svc UInt64 := do
  let (nextCursor, replies) ← await (.hscan (getHashKey targetType) cursor pattern count)
  replies.forM (flushField targetType)
  return nextCursor

/-- The scan loop, which ends when the cursor comes back as 0.  `rounds` bounds its turns. -/
def handlerRedisTopg (targetType : String) : (rounds : Nat) → (cursor : UInt64) → Svc Int
  | 0, _ => throw .diverged
  | rounds + 1, cursor => do
    let cursor ← reidsCmd targetType cursor "*" 500
    if cursor = 0 then return 0
    handlerRedisTopg targetType rounds cursor

def handler (rounds : Nat) (targetType : String) : Svc Unit := do
  let _ ← handlerRedisTopg targetType rounds 0

def incr (targetId : UInt64) (targetType : String) : Svc UInt64 := do
  let increment ← await (.hincr (getHashKey targetType) (toString targetId) 1)
  return increment.asU64

def add (question : QuestionEntity) : Svc UInt64 := do
  let id ← query
    (.insertQuestion question.title question.content question.createdBy question.createdAt)
  return id.asU64

def update (id : UInt64) (question : QuestionEntity) : Svc Unit := do
  let _rowsAffected ← query (.updateQuestion question.title question.content question.updatedAt
    question.updatedBy id.asI64)

def delete (id : UInt64) (username : String) : Svc Unit := do
  let _rowsAffected ← query (.deleteQuestion id.asI64 username)

def findOne (id : UInt64) : Svc QuestionEntity := do
  let row ← fetchOne (← query (.question id.asI64))
  return row.toEntity

def findLatest (lastId limit : UInt64) : Svc LatestQuestionResponse := do
  let limit ← context limit.tryI64 "question limit exceeds PostgreSQL bigint"
  let rows ← if lastId = 0 then query (.latestQuestions limit) else do
    let lastId ← context lastId.tryI64 "question cursor exceeds PostgreSQL bigint"
    query (.questionsBelow lastId limit)
  let questions := rows.map (·.toEntity)
  return ⟨questions, questions.getLast?.map (·.id), decide ((questions.length : Int) < limit)⟩

end QaSys.Question
