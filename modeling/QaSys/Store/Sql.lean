import QaSys.Store.Entity
import QaSys.Data.Keyset

/-! The SQL statements of the repositories, with the parameters bound to them. -/

namespace QaSys

structure Seq where
  users : Int
  questions : Int
  answers : Int
  usersVotes : Int
  deriving DecidableEq

inductive Stmt
  | userId (username : String)
  | insertUser (username password openid : String) (createdAt : Int)
  | user (username : String)
  | insertQuestion (title content createdBy : String) (createdAt : Int)
  | updateQuestion (title content : String) (updatedAt : Option Int) (updatedBy : String) (id : Int)
  | deleteQuestion (id : Int) (createdBy : String)
  | question (id : Int)
  | latestQuestions (limit : Int)
  | questionsBelow (lastId limit : Int)
  | addReadCount (increment id : Int)
  | insertAnswer (questionId : Int) (content createdBy : String) (createdAt : Int)
  | updateAnswer (content updatedBy : String) (updatedAt id : Int)
  | deleteAnswer (id : Int) (createdBy : String)
  | answer (id : Int)
  | countAnswers (questionId : Int)
  | pageAnswers (questionId limit offset : Int)
  | addAgree (n updatedAt id : Int)
  | subAgree (n updatedAt id : Int)
  | vote (targetId : Int) (createdBy targetType : String)
  | votesIn (targetIds : List Int) (targetType createdBy : String)
  | insertVote (targetId : Int) (targetType createdBy : String) (createdAt : Int)
  | deleteVote (targetId : Int) (targetType createdBy : String)
  deriving DecidableEq

/-- An update or delete replies with the number of rows it affected, an insert of a question or an
answer with the new id. -/
@[reducible] def Stmt.Reply : Stmt → Type
  | .userId _ | .vote .. => Option Int
  | .user _ => Option UserRow
  | .question _ => Option QuestionRow
  | .answer _ => Option AnswerRow
  | .latestQuestions _ | .questionsBelow .. => List QuestionRow
  | .pageAnswers .. => List AnswerRow
  | .votesIn .. => List Int
  | .insertQuestion .. | .insertAnswer .. | .countAnswers _ => Int
  | _ => Nat

def invalidText : String := "invalid byte sequence for encoding \"UTF8\": 0x00"

def nextval (last : Int) : Except String Int :=
  if last < i64Max then .ok (last + 1) else .error "nextval: reached maximum value of sequence"

def assign (n : Nat) (s : String) : Except String (Varchar n) :=
  match Varchar.assign n s with
  | some v => .ok v
  | none => .error
    (if Storable s then s!"value too long for type character varying({n})" else invalidText)

def window (limit offset : Int) (rows : List α) : Except String (List α) :=
  if limit < 0 then .error "LIMIT must not be negative"
  else if offset < 0 then .error "OFFSET must not be negative"
  else .ok ((rows.drop offset.toNat).take limit.toNat)

def VoteRow.matches (targetId : Int) (targetType createdBy : String) (r : VoteRow) : Bool :=
  r.targetId = targetId && r.targetType.val = targetType && r.createdBy.val = createdBy

def Stmt.bound : Stmt → List String
  | .userId username | .user username => [username]
  | .insertUser username password openid _ => [username, password, openid]
  | .insertQuestion title content createdBy _ => [title, content, createdBy]
  | .updateQuestion title content _ updatedBy _ => [title, content, updatedBy]
  | .insertAnswer _ content createdBy _ => [content, createdBy]
  | .updateAnswer content updatedBy _ _ => [content, updatedBy]
  | .deleteQuestion _ createdBy | .deleteAnswer _ createdBy => [createdBy]
  | .vote _ createdBy targetType | .votesIn _ targetType createdBy
  | .insertVote _ targetType createdBy _ | .deleteVote _ targetType createdBy =>
    [targetType, createdBy]
  | _ => []

/-- PostgreSQL refuses a statement with a text it cannot hold before it executes any of it. -/
def Stmt.Bindable (q : Stmt) : Prop := ∀ s ∈ q.bound, Storable s

instance : DecidablePred Stmt.Bindable := fun q => inferInstanceAs (Decidable (∀ s ∈ q.bound, _))

theorem Stmt.bindable_of_nil {q : Stmt} (h : q.bound = []) : q.Bindable := by
  rw [Bindable, h]
  exact fun _ hs => absurd hs List.not_mem_nil

theorem storable_pair_iff {a b : String} :
    (∀ s ∈ [a, b], Storable s) ↔ Storable a ∧ Storable b := by
  rw [List.forall_mem_cons, List.forall_mem_singleton]

theorem storable_pair {a b : String} (ha : Storable a) (hb : Storable b) :
    ∀ s ∈ [a, b], Storable s := storable_pair_iff.mpr ⟨ha, hb⟩

/-- What a statement replies on the rows it sees, and the writes it makes. -/
def Stmt.eval (seq : Seq) : (q : Stmt) → Db → Except String (q.Reply × List Write)
  | .userId username, db => .ok ((db.users.find? (·.username.val = username)).map (·.id), [])
  | .insertUser username password openid createdAt, db => do
    let id ← nextval seq.users
    let username ← assign 50 username
    let password ← assign 50 password
    let openid ← assign 32 openid
    if db.users.any (·.username = username) then
      throw "duplicate key value violates unique constraint uk_users_username"
    return (1, [.insertUser ⟨id, username, password, openid, createdAt⟩])
  | .user username, db => .ok (db.users.find? (·.username.val = username), [])
  | .insertQuestion title content createdBy createdAt, _ => do
    let id ← nextval seq.questions
    let title ← assign 300 title
    let createdBy ← assign 50 createdBy
    return (id, [.insertQuestion ⟨id, title, content, createdBy, .empty 50, createdAt, none, 0, 0⟩])
  | .updateQuestion title content updatedAt updatedBy id, db => do
    let title ← assign 300 title
    let updatedBy ← assign 50 updatedBy
    let hit := db.questions.filter (·.id = id)
    return (hit.length, hit.map fun r => .updateQuestion { r with title, content, updatedAt, updatedBy })
  | .deleteQuestion id createdBy, db =>
    let hit := db.questions.filter fun r => r.id = id && r.createdBy.val = createdBy
    .ok (hit.length, hit.map fun r => .deleteQuestion r.id)
  | .question id, db => .ok (db.questions.find? (·.id = id), [])
  | .latestQuestions limit, db => do
    return (← window limit 0 (Keyset.descending QuestionRow.id db.questions), [])
  | .questionsBelow lastId limit, db => do
    return (← window limit 0 (Keyset.descending QuestionRow.id (db.questions.filter (·.id < lastId))), [])
  | .addReadCount increment id, db =>
    let hit := db.questions.filter (·.id = id)
    .ok (hit.length, hit.map fun r => .updateQuestion { r with readCount := r.readCount + increment })
  | .insertAnswer questionId content createdBy createdAt, _ => do
    let id ← nextval seq.answers
    let createdBy ← assign 50 createdBy
    return (id, [.insertAnswer ⟨id, questionId, content, createdBy, .empty 50, createdAt, none, 0⟩])
  | .updateAnswer content updatedBy updatedAt id, db => do
    let updatedBy ← assign 50 updatedBy
    let hit := db.answers.filter (·.id = id)
    return (hit.length,
      hit.map fun r => .updateAnswer { r with content, updatedBy, updatedAt := some updatedAt })
  | .deleteAnswer id createdBy, db =>
    let hit := db.answers.filter fun r => r.id = id && r.createdBy.val = createdBy
    .ok (hit.length, hit.map fun r => .deleteAnswer r.id)
  | .answer id, db => .ok (db.answers.find? (·.id = id), [])
  | .countAnswers questionId, db => .ok ((db.answers.filter (·.questionId = questionId)).length, [])
  | .pageAnswers questionId limit offset, db => do
    let rows := db.answers.filter (·.questionId = questionId)
    return (← window limit offset (Keyset.descending AnswerRow.id rows), [])
  | .addAgree n updatedAt id, db =>
    let hit := db.answers.filter (·.id = id)
    .ok (hit.length, hit.map fun r =>
      .updateAnswer { r with agreeCount := r.agreeCount + n, updatedAt := some updatedAt })
  | .subAgree n updatedAt id, db =>
    let hit := db.answers.filter (·.id = id)
    .ok (hit.length, hit.map fun r =>
      .updateAnswer { r with agreeCount := max (r.agreeCount - n) 0, updatedAt := some updatedAt })
  | .vote targetId createdBy targetType, db =>
    .ok ((db.usersVotes.find? (VoteRow.matches targetId targetType createdBy)).map (·.id), [])
  | .votesIn targetIds targetType createdBy, db =>
    .ok ((db.usersVotes.filter fun r => targetIds.contains r.targetId &&
      r.targetType.val = targetType && r.createdBy.val = createdBy).map (·.targetId), [])
  | .insertVote targetId targetType createdBy createdAt, _ => do
    let id ← nextval seq.usersVotes
    let targetType ← assign 50 targetType
    let createdBy ← assign 50 createdBy
    return (1, [.insertVote ⟨id, targetId, targetType, createdBy, createdAt⟩])
  | .deleteVote targetId targetType createdBy, db =>
    let hit := db.usersVotes.filter (VoteRow.matches targetId targetType createdBy)
    .ok (hit.length, hit.map fun r => .deleteVote r.id)

def advance (last : Int) : Int := if last < i64Max then last + 1 else last

/-- An insert draws from the sequence of its table.  A value once drawn is never drawn again, also
when the insert or its transaction fails. -/
def Stmt.draw (seq : Seq) : Stmt → Seq
  | .insertUser .. => { seq with users := advance seq.users }
  | .insertQuestion .. => { seq with questions := advance seq.questions }
  | .insertAnswer .. => { seq with answers := advance seq.answers }
  | .insertVote .. => { seq with usersVotes := advance seq.usersVotes }
  | _ => seq

theorem le_advance (last : Int) : last ≤ advance last := by
  unfold advance
  split <;> omega

theorem nextval_eq_ok {last id : Int} (h : nextval last = .ok id) :
    id = last + 1 ∧ advance last = id := by
  unfold nextval at h
  split at h
  next hl => cases h; exact ⟨rfl, if_pos hl⟩
  next => cases h

theorem assign_eq_ok {n : Nat} {s : String} {v : Varchar n} (h : assign n s = .ok v) :
    Varchar.assign n s = some v := by
  unfold assign at h
  split at h
  next hv => cases h; exact hv
  next => cases h

end QaSys
