import QaSys.Store.Call

/-! `qa-svc/src/core/answer.rs`. -/

namespace QaSys

def checkedI64 (x : Int) : Option Int :=
  if -2 ^ 63 ≤ x ∧ x < 2 ^ 63 then some x else none

/-- `fetch_one`: no row is an error. -/
def fetchOne (row : Option A) : Svc A :=
  match row with
  | some r => pure r
  | none => throw (.sqlx .rowNotFound)

namespace Answer

def add (answer : AnswerEntity) : Svc UInt64 := do
  let result ← query (.insertAnswer answer.questionId answer.content answer.createdBy answer.createdAt)
  return result.asU64

def update (id : UInt64) (content updatedBy : String) : Svc Unit := do
  let now ← await .now
  let _rowsAffected ← query (.updateAnswer content updatedBy now id.asI64)

def delete (id : UInt64) (username : String) : Svc Unit := do
  let _rowsAffected ← query (.deleteAnswer id.asI64 username)

def findOne (id : UInt64) : Svc AnswerEntity := do
  let row ← fetchOne (← query (.answer id.asI64))
  return row.toEntity

def findLatest (questionId limit currentPage : UInt64) : Svc LatestAnswerResponse := do
  ensure (limit > 0) "answer page size must be greater than zero"
  let questionId ← context questionId.tryI64 "answer question ID exceeds PostgreSQL bigint"
  let pageSize ← context limit.tryI64 "answer page size exceeds PostgreSQL bigint"
  let currentPage ← context currentPage.tryI64 "answer page number exceeds PostgreSQL bigint"
  let pageIndex ← context (checkedI64 (currentPage - 1)) "answer page number must be greater than zero"
  let offset ← context (checkedI64 (pageIndex * pageSize)) "answer page offset overflow"
  let total ← query (.countAnswers questionId)
  let res ← query (.pageAnswers questionId pageSize offset)
  match LatestAnswerResponse.tryNew (res.map (·.toEntity)) total pageSize currentPage with
  | .ok r => return r
  | .error e => throw (.anyhow e.toString)

end Answer

end QaSys
