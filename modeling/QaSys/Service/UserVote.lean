import QaSys.Store.Call

/-! `qa-svc/src/core/user_vote.rs`. -/

namespace QaSys

/-- Statements between `db.begin()` and `commit()`.  An error leaves the scope of the transaction,
which rolls it back. -/
def transaction (body : Svc A) : Svc A := do
  await .begin
  tryCatch body fun e => do
    await .rollback
    throw e

namespace UserVote

def isVoted (targetId : UInt64) (username targetType : String) : Svc Bool := do
  let result ← query (.vote targetId.asI64 username targetType)
  return result.isSome

def voteAnswer (targetId : UInt64) (createdBy : String) : Svc Bool := do
  let targetId ← context targetId.tryI64 "answer vote target ID exceeds PostgreSQL bigint"
  let now ← await .now
  transaction do
    let voteResult ← await (.tx (.insertVote targetId "answer" createdBy now))
    ensure (voteResult = 1) "failed to insert answer vote"
    let answerResult ← await (.tx (.addAgree 1 now targetId))
    ensure (answerResult = 1) "answer vote target does not exist"
    await .commit
    return true

def cancelVoteAnswer (targetId : UInt64) (createdBy : String) : Svc Bool := do
  let targetId ← context targetId.tryI64 "answer vote target ID exceeds PostgreSQL bigint"
  let now ← await .now
  transaction do
    let voteResult ← await (.tx (.deleteVote targetId "answer" createdBy))
    ensure (voteResult = 1) "answer vote record does not exist"
    let answerResult ← await (.tx (.subAgree 1 now targetId))
    ensure (answerResult = 1) "answer vote target does not exist"
    await .commit
    return true

def handlerAnswerAgree (targetId : UInt64) (createdBy action : String) : Svc Bool := do
  let hasVoted ← isVoted targetId createdBy "answer"
  if action = "up" then
    if hasVoted then return false
    voteAnswer targetId createdBy
  else if action = "down" then
    if !hasVoted then return false
    cancelVoteAnswer targetId createdBy
  else throw (.anyhow "unsupported answer vote action")

/-- The ids, each once, under which the user has a vote row.  The map of the source has the value
`true` at each of its keys. -/
def isBatchVoted (targetIds : List UInt64) (username targetType : String) : Svc (List UInt64) := do
  if targetIds.isEmpty then return []
  let rest ← query (.votesIn (targetIds.map (·.asI64)) targetType username)
  return (rest.map (·.asU64)).dedup

def publish (msg : VoteMessage) : Svc Bool := do
  await (.send msg)
  return true

/-- A message as the client library hands it over, with the outcome of `msg.deserialize()`. -/
structure Delivery where
  messageId : Nat
  payload : Except String VoteMessage

/-- What the consumer does with the data of a message; `none` when it is of no interest to it. -/
def handle (targetType : String) (data : VoteMessage) : Svc (Option Bool) := do
  if targetType = "answer" then
    return some (← handlerAnswerAgree data.targetId.toUInt64 data.createdBy data.action)
  else return none

/-- One turn of the loop of `consumer`.  A message that does not parse or whose handling fails is
left unacknowledged. -/
def onMessage (targetType : String) (msg : Delivery) : Svc Unit := do
  match msg.payload with
  | .error _ => return ()
  | .ok data =>
    match ← (handle targetType data).attempt with
    | .error _ => return ()
    | .ok _ => await (.ack msg.messageId)

end UserVote

end QaSys
