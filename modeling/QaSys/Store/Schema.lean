import QaSys.Data.Transaction
import QaSys.Data.Int64
import QaSys.Data.Table

/-! The tables of `migrations/20260725064428_db.sql`.  Instants are seconds since the epoch. -/

namespace QaSys

/-- PostgreSQL takes no text with the character U+0000. -/
def Storable (s : String) : Prop := Char.ofNat 0 ∉ s.toList

instance : DecidablePred Storable := fun _ => inferInstanceAs (Decidable (_ ∉ _))

structure Varchar (n : Nat) where
  val : String
  fits : val.length ≤ n
  storable : Storable val
  deriving DecidableEq

/-- Assignment to a `varchar(n)` column.  A longer string is refused, unless everything past the
limit is blanks: PostgreSQL then stores the first `n` characters. -/
def Varchar.assign (n : Nat) (s : String) : Option (Varchar n) :=
  if hs : Storable s then
    if h : s.length ≤ n then some ⟨s, h, hs⟩
    else if (s.toList.drop n).all (· == ' ') then
      some ⟨String.ofList (s.toList.take n),
        by rw [String.length_ofList]; exact List.length_take_le _ _,
        by rw [Storable, String.toList_ofList]; exact fun h => hs (List.mem_of_mem_take h)⟩
    else none
  else none

def Varchar.empty (n : Nat) : Varchar n := ⟨"", Nat.zero_le n, by decide⟩

def Varchar.ofString (n : Nat) (s : String) : Varchar n := (Varchar.assign n s).getD (.empty n)

/-- `s` reaches a `varchar(n)` column unchanged or not at all. -/
def Uncut (n : Nat) (s : String) : Prop :=
  s.length ≤ n ∨ (s.toList.drop n).all (· == ' ') = false

instance (n : Nat) (s : String) : Decidable (Uncut n s) := by
  unfold Uncut; infer_instance

theorem Varchar.assign_of_le {n : Nat} {s : String} (hs : Storable s) (h : s.length ≤ n) :
    Varchar.assign n s = some ⟨s, h, hs⟩ := (dif_pos hs).trans (dif_pos h)

/-- `s` reaches a `varchar(n)` column unchanged. -/
structure Varchar.Holds (n : Nat) (s : String) : Prop where
  storable : Storable s
  fits : s.length ≤ n

theorem Varchar.assign_val {n : Nat} (v : Varchar n) : Varchar.assign n v.val = some v :=
  assign_of_le v.storable v.fits

theorem Varchar.storable_of_assign {n : Nat} {s : String} {v : Varchar n}
    (h : Varchar.assign n s = some v) : Storable s := by
  by_contra hs
  rw [Varchar.assign, dif_neg hs] at h
  cases h

theorem Varchar.val_of_assign {n : Nat} {s : String} {v : Varchar n}
    (h : Varchar.assign n s = some v) (hs : Uncut n s) : v.val = s := by
  have hstorable := storable_of_assign h
  rw [Varchar.assign, dif_pos hstorable] at h
  split at h
  next => cases h; rfl
  next hn =>
    split at h
    next hb => exact absurd (hs.resolve_left hn) (by simp [hb])
    next => cases h

structure UserRow where
  id : Int
  username : Varchar 50
  password : Varchar 50
  openid : Varchar 32
  createdAt : Int
  deriving DecidableEq

structure QuestionRow where
  id : Int
  title : Varchar 300
  content : String
  createdBy : Varchar 50
  updatedBy : Varchar 50
  createdAt : Int
  updatedAt : Option Int
  readCount : Int
  replyCount : Int
  deriving DecidableEq

structure AnswerRow where
  id : Int
  questionId : Int
  content : String
  createdBy : Varchar 50
  updatedBy : Varchar 50
  createdAt : Int
  updatedAt : Option Int
  agreeCount : Int
  deriving DecidableEq

structure VoteRow where
  id : Int
  targetId : Int
  targetType : Varchar 50
  createdBy : Varchar 50
  createdAt : Int
  deriving DecidableEq

structure Db where
  users : List UserRow
  questions : List QuestionRow
  answers : List AnswerRow
  usersVotes : List VoteRow
  deriving DecidableEq

def Db.empty : Db := ⟨[], [], [], []⟩

inductive Write
  | insertUser (row : UserRow)
  | insertQuestion (row : QuestionRow)
  | updateQuestion (row : QuestionRow)
  | deleteQuestion (id : Int)
  | insertAnswer (row : AnswerRow)
  | updateAnswer (row : AnswerRow)
  | deleteAnswer (id : Int)
  | insertVote (row : VoteRow)
  | deleteVote (id : Int)
  deriving DecidableEq

inductive RowKey
  | user (id : Int) | question (id : Int) | answer (id : Int) | vote (id : Int)
  deriving DecidableEq

def Db.apply (db : Db) : Write → Db
  | .insertUser row => { db with users := db.users ++ [row] }
  | .insertQuestion row => { db with questions := db.questions ++ [row] }
  | .updateQuestion row => { db with questions := replaceBy QuestionRow.id row db.questions }
  | .deleteQuestion id => { db with questions := removeBy QuestionRow.id id db.questions }
  | .insertAnswer row => { db with answers := db.answers ++ [row] }
  | .updateAnswer row => { db with answers := replaceBy AnswerRow.id row db.answers }
  | .deleteAnswer id => { db with answers := removeBy AnswerRow.id id db.answers }
  | .insertVote row => { db with usersVotes := db.usersVotes ++ [row] }
  | .deleteVote id => { db with usersVotes := removeBy VoteRow.id id db.usersVotes }

def Write.rows : Write → List RowKey
  | .insertUser row => [.user row.id]
  | .insertQuestion row | .updateQuestion row => [.question row.id]
  | .deleteQuestion id => [.question id]
  | .insertAnswer row | .updateAnswer row => [.answer row.id]
  | .deleteAnswer id => [.answer id]
  | .insertVote row => [.vote row.id]
  | .deleteVote id => [.vote id]

def journal : Transaction.Journal Db Write RowKey where
  apply := Db.apply
  rows := Write.rows

end QaSys
