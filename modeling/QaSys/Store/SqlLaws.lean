import QaSys.Store.Sql

/-! What the statements that can be refused have done when they are not. -/

namespace QaSys

variable {seq : Seq} {db : Db}

theorem except_bind_eq_ok {x : Except ε α} {f : α → Except ε β} {b : β}
    (h : (x >>= f) = .ok b) : ∃ a, x = .ok a ∧ f a = .ok b := by
  cases x with
  | error e => cases h
  | ok a => exact ⟨a, rfl, h⟩

theorem Stmt.bindable_insertUser {username password openid : String} {now : Int}
    (hname : Storable username) (hpassword : Storable password) (hopenid : Storable openid) :
    (Stmt.insertUser username password openid now).Bindable :=
  List.forall_mem_cons.mpr ⟨hname, storable_pair hpassword hopenid⟩

theorem eval_insertUser {username password openid : String} {now : Int} {n : Nat}
    {ws : List Write}
    (h : (Stmt.insertUser username password openid now).eval seq db = .ok (n, ws)) :
    ∃ row : UserRow, ws = [.insertUser row] ∧ Varchar.assign 50 username = some row.username ∧
      Varchar.assign 32 openid = some row.openid := by
  obtain ⟨id, -, h⟩ := except_bind_eq_ok h
  obtain ⟨username', husername, h⟩ := except_bind_eq_ok h
  obtain ⟨password', -, h⟩ := except_bind_eq_ok h
  obtain ⟨openid', hopenid, h⟩ := except_bind_eq_ok h
  split at h
  · cases h
  · cases h
    exact ⟨_, rfl, assign_eq_ok husername, assign_eq_ok hopenid⟩

theorem eval_insertUser_cases (username password : String) {openid : String} (now : Int) (db : Db)
    (hseq : seq.users < i64Max) (hstorable : Storable openid) (hopenid : openid.length ≤ 32) :
    (∃ msg, (Stmt.insertUser username password openid now).eval seq db = .error msg ∧
      ∀ name secret, Varchar.assign 50 username = some name →
        Varchar.assign 50 password = some secret → ∃ row ∈ db.users, row.username = name) ∨
    ∃ name secret, Varchar.assign 50 username = some name ∧
      Varchar.assign 50 password = some secret ∧ (∀ row ∈ db.users, row.username ≠ name) ∧
      (Stmt.insertUser username password openid now).eval seq db =
        .ok (1, [.insertUser ⟨seq.users + 1, name, secret, ⟨openid, hopenid, hstorable⟩, now⟩]) := by
  cases hname : Varchar.assign 50 username with
  | none =>
    have heval : (Stmt.insertUser username password openid now).eval seq db = .error
        (if Storable username then s!"value too long for type character varying({50})"
          else invalidText) := by
      simp only [Stmt.eval, nextval, if_pos hseq, assign, hname]
      rfl
    exact .inl ⟨_, heval, fun name secret h => by cases h⟩
  | some name =>
    cases hsecret : Varchar.assign 50 password with
    | none =>
      have heval : (Stmt.insertUser username password openid now).eval seq db = .error
          (if Storable password then s!"value too long for type character varying({50})"
            else invalidText) := by
        simp only [Stmt.eval, nextval, if_pos hseq, assign, hname, hsecret]
        rfl
      exact .inl ⟨_, heval, fun name secret _ h => by cases h⟩
    | some secret =>
      have heval : (Stmt.insertUser username password openid now).eval seq db =
          if db.users.any (·.username = name) then
            .error "duplicate key value violates unique constraint uk_users_username"
          else .ok (1, [.insertUser
            ⟨seq.users + 1, name, secret, ⟨openid, hopenid, hstorable⟩, now⟩]) := by
        simp only [Stmt.eval, nextval, if_pos hseq, assign, hname, hsecret,
          Varchar.assign_of_le hstorable hopenid]
        rfl
      cases hany : db.users.any (·.username = name) with
      | true =>
        obtain ⟨row, hrow, hrowName⟩ := List.any_eq_true.mp hany
        rw [hany] at heval
        refine .inl ⟨_, heval, fun name' secret' hname' _ => ⟨row, hrow, ?_⟩⟩
        cases hname'
        exact of_decide_eq_true hrowName
      | false =>
        rw [hany] at heval
        refine .inr ⟨name, secret, rfl, rfl, fun row hrow hrowName => ?_, heval⟩
        exact List.any_eq_false.mp hany row hrow (decide_eq_true hrowName)

theorem eval_insertVote {t now : Int} {ty u : String} {n : Nat} {ws : List Write}
    (h : (Stmt.insertVote t ty u now).eval seq db = .ok (n, ws)) :
    ∃ row : VoteRow, n = 1 ∧ ws = [.insertVote row] ∧ row.targetId = t ∧
      Varchar.assign 50 ty = some row.targetType ∧ Varchar.assign 50 u = some row.createdBy ∧
      row.id = seq.usersVotes + 1 ∧ advance seq.usersVotes = row.id := by
  obtain ⟨id, hid, h⟩ := except_bind_eq_ok h
  obtain ⟨targetType, hty, h⟩ := except_bind_eq_ok h
  obtain ⟨createdBy, hu, h⟩ := except_bind_eq_ok h
  cases h
  obtain ⟨hid, hadv⟩ := nextval_eq_ok hid
  exact ⟨_, rfl, rfl, rfl, assign_eq_ok hty, assign_eq_ok hu, hid, hadv⟩

theorem eval_insertQuestion {title content u : String} {now i : Int} {ws : List Write}
    (h : (Stmt.insertQuestion title content u now).eval seq db = .ok (i, ws)) :
    ∃ row : QuestionRow, i = row.id ∧ ws = [.insertQuestion row] ∧
      Varchar.assign 300 title = some row.title ∧ row.content = content ∧
      Varchar.assign 50 u = some row.createdBy ∧ row.createdAt = now ∧ row.updatedAt = none ∧
      row.replyCount = 0 ∧ row.id = seq.questions + 1 ∧ advance seq.questions = row.id := by
  obtain ⟨id, hid, h⟩ := except_bind_eq_ok h
  obtain ⟨title', htitle, h⟩ := except_bind_eq_ok h
  obtain ⟨createdBy, hu, h⟩ := except_bind_eq_ok h
  cases h
  obtain ⟨hid, hadv⟩ := nextval_eq_ok hid
  exact ⟨_, rfl, rfl, assign_eq_ok htitle, rfl, assign_eq_ok hu, rfl, rfl, rfl, hid, hadv⟩

theorem eval_insertAnswer {q now : Int} {content u : String} {i : Int} {ws : List Write}
    (h : (Stmt.insertAnswer q content u now).eval seq db = .ok (i, ws)) :
    ∃ row : AnswerRow, i = row.id ∧ ws = [.insertAnswer row] ∧ row.questionId = q ∧
      row.content = content ∧ Varchar.assign 50 u = some row.createdBy ∧ row.agreeCount = 0 ∧
      row.createdAt = now ∧ row.updatedAt = none ∧ row.id = seq.answers + 1 ∧
      advance seq.answers = row.id := by
  obtain ⟨id, hid, h⟩ := except_bind_eq_ok h
  obtain ⟨createdBy, hu, h⟩ := except_bind_eq_ok h
  cases h
  obtain ⟨hid, hadv⟩ := nextval_eq_ok hid
  exact ⟨_, rfl, rfl, rfl, rfl, assign_eq_ok hu, rfl, rfl, rfl, hid, hadv⟩

end QaSys
