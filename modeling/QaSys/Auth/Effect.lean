import QaSys.Auth.Plain

/-! What each call of the service does to the users and their sessions, whichever of the calls it
makes itself fail. -/

namespace QaSys

/-- An answer to a GET that is not the value stored. -/
def Choice.Unread : Choice → Prop
  | .fail _ | .lost _ | .raw _ => True
  | _ => False

instance : DecidablePred Choice.Unread
  | .fail _ | .lost _ | .raw _ => isTrue trivial
  | .serve | .page .. => isFalse id

/-- A value that stands where a session should, but is none. -/
def Choice.NoSession (x : Crates) : Choice → Prop
  | .raw value => (x.fromJson value).isOk = false
  | _ => True

instance {x : Crates} : DecidablePred (Choice.NoSession x)
  | .raw value => inferInstanceAs (Decidable ((x.fromJson value).isOk = false))
  | .serve | .fail _ | .lost _ | .page .. => isTrue trivial

variable {self : QaServiceImpl} {x : Crates} {s : Store} {script : List Choice} {n : Nat}

section

open Prog

theorem get_ends {key : String} {Q : Except Err UserSessionEntity → World → Prop}
    (hread : ∀ value user, x.fromJson value = .ok user →
      s.live key = some value ∨ turn script n = .raw value →
      Q (.ok user) ⟨s, script.drop (n + 1)⟩)
    (hunread : (∀ value user, s.live key = some value → x.fromJson value = .ok user →
      (turn script n).Unread) → ∀ e, Q (.error e) ⟨s, script.drop (n + 1)⟩) :
    (User.get x key).Ends World.exec ⟨s, script.drop n⟩ Q := by
  have parsed : ∀ value, (s.live key = some value ∨ turn script n = .raw value) →
      ((∃ e, x.fromJson value = .error e) → ∀ e, Q (.error e) ⟨s, script.drop (n + 1)⟩) →
      (User.session x (some value)).Ends World.exec ⟨s, script.drop (n + 1)⟩ Q := by
    intro value hvalue herr
    cases hjson : x.fromJson value with
    | ok user =>
      simp only [User.session, hjson]
      exact hread value user hjson hvalue
    | error e =>
      simp only [User.session, hjson]
      exact herr ⟨e, hjson⟩ _
  have found : (User.session x (s.live key)).Ends World.exec ⟨s, script.drop (n + 1)⟩ Q := by
    cases hlive : s.live key with
    | none => exact hunread (fun value user hv => by rw [hlive] at hv; cases hv) _
    | some value =>
      refine parsed value (.inl hlive) fun herr => hunread fun value' user hv hu => ?_
      obtain ⟨e, he⟩ := herr
      rw [hlive] at hv
      cases hv
      rw [he] at hu
      cases hu
  refine ends_bind.mpr (ends_await.mpr ?_)
  cases hch : turn script n with
  | fail msg => exact hunread (fun _ _ _ _ => by rw [hch]; trivial) _
  | lost msg => exact hunread (fun _ _ _ _ => by rw [hch]; trivial) _
  | raw value => exact parsed value (.inr hch) fun _ => hunread fun _ _ _ _ => by rw [hch]; trivial
  | serve => exact found
  | page next fields => exact found

theorem fetchOne_ends (hq : s.pg.Quiet) {username : String}
    {Q : Except Err UserEntity → World → Prop} (hfail : ∀ e, Q (.error e) ⟨s, script.drop (n + 1)⟩)
    (hok : ¬ (turn script n).Faulty → ∀ row,
      s.db.users.find? (·.username.val = username) = some row →
      Q (.ok row.toEntity) ⟨s, script.drop (n + 1)⟩) :
    (User.fetchOne username).Ends World.exec ⟨s, script.drop n⟩ Q := by
  refine ends_bind.mpr (ends_select hq rfl rfl (fun _ e => hfail e) fun hf => ?_)
  cases hfind : s.db.users.find? (·.username.val = username) with
  | none => exact hfail _
  | some row => exact hok (fun h => hf (.inl h)) row hfind

theorem checkUserExist_ends (hq : s.pg.Quiet) {username : String}
    {Q : Except Err Bool → World → Prop} (hfail : ∀ e, Q (.error e) ⟨s, script.drop (n + 1)⟩)
    (hok : ∀ found, Q (.ok found) ⟨s, script.drop (n + 1)⟩) :
    (User.checkUserExist username).Ends World.exec ⟨s, script.drop n⟩ Q :=
  ends_bind.mpr (ends_select hq rfl rfl (fun _ e => hfail e) fun _ => hok _)

def Store.drew (s : Store) : Store := { s with drawn := s.drawn + 1 }

theorem Store.kept_drew (hq : s.pg.Quiet) : s.Kept s.drew :=
  ⟨hq, rfl, rfl, rfl, rfl, Nat.le_succ _⟩

def Store.keep (s : Store) (key value : String) : Store :=
  { s with strings := Function.update s.strings key (some (value, s.clock + 86400)) }

theorem Store.keep_strings_self {key value : String} :
    (s.keep key value).strings key = some (value, s.clock + 86400) := Function.update_self ..

theorem Store.keep_strings_of_ne {key key' value : String} (h : key' ≠ key) :
    (s.keep key value).strings key' = s.strings key' := Function.update_of_ne h ..

def Store.forget (s : Store) (key : String) : Store :=
  { s with strings := Function.update s.strings key none }

theorem Store.forget_live_self {key : String} : (s.forget key).live key = none :=
  Store.live_of_none (Function.update_self ..)

theorem Store.forget_live_of_ne {key key' : String} (h : key' ≠ key) :
    (s.forget key).live key' = s.live key' :=
  Store.live_congr (Function.update_of_ne h ..) rfl

theorem set_ends {key : String} {user : UserSessionEntity} {Q : Except Err Unit → World → Prop}
    (hfail : ∀ e, Q (.error e) ⟨s, script.drop n⟩)
    (hlost : ∀ e, Q (.error e) ⟨s, script.drop (n + 1)⟩)
    (hok : ¬ (turn script n).Faulty → ∀ value, x.toJson user = .ok value →
      Q (.ok ()) ⟨s.keep key value, script.drop (n + 1)⟩) :
    (User.set x key user 86400).Ends World.exec ⟨s, script.drop n⟩ Q := by
  cases hjson : x.toJson user with
  | error e =>
    simp only [User.set, hjson]
    exact hfail _
  | ok value =>
    simp only [User.set, hjson]
    refine ends_await.mpr ?_
    cases hch : turn script n with
    | fail msg => exact hlost _
    | lost msg => exact hlost _
    | serve => exact hok (by rw [hch]; exact id) value hjson
    | page next fields => exact hok (by rw [hch]; exact id) value hjson
    | raw raw => exact hok (by rw [hch]; exact id) value hjson

end

/-- What the login of `req` finds when it goes all the way to a new session of the user `row`. -/
structure QaServiceImpl.Admits (svc : QaServiceImpl) (s : Store) (script : List Choice)
    (req : Pb.UserLoginRequest) (row : UserRow) : Prop where
  fetched : s.db.users.find? (·.username.val = req.username) = some row
  password : row.password.val = svc.crates.md5 req.password
  absent : ∀ value user, s.live (QaServiceImpl.sessionKey row.openid.val) = some value →
    svc.crates.fromJson value = .ok user → (turn script 1).Unread
  found : ¬ (turn script 0).Faulty
  stored : ¬ (turn script 4).Faulty

/-- The store and the token that the login of `row` leaves. -/
structure QaServiceImpl.Opened (svc : QaServiceImpl) (s : Store) (row : UserRow) (token : String)
    (s' : Store) : Prop where
  token : svc.aesCrypto.encrypt svc.crates.ciphers
    (QaServiceImpl.payload (s.supply s.drawn).simple row.openid.val (s.clock + 86400)) = .ok token
  store : ∃ user value, svc.crates.toJson user = .ok value ∧ user.username = row.username.val ∧
    user.openid = row.openid.val ∧
    s' = s.drew.keep (QaServiceImpl.sessionKey row.openid.val) value

open Prog in
theorem QaServiceImpl.userLogin_ends (self : QaServiceImpl) (script : List Choice)
    (hq : s.pg.Quiet) (req : Pb.UserLoginRequest) :
    (self.userLogin req).Ends World.exec ⟨s, script⟩ fun r w =>
      (s.Kept w.state ∧ ∀ res, r ≠ .ok (.ok res)) ∨
      ∃ row token, self.Admits s script req row ∧ r = .ok (.ok ⟨token⟩) ∧
        self.Opened s row token w.state := by
  change (self.userLogin req).Ends World.exec ⟨s, script.drop 0⟩ _
  have kept : s.Kept s := .refl hq
  have drew := Store.kept_drew hq
  refine ends_bind.mpr (ends_attempt.mpr (fetchOne_ends hq ?_ ?_))
  · intro e
    cases e with
    | sqlx e =>
      cases e with
      | rowNotFound => exact .inl ⟨kept, nofun⟩
      | other msg => exact .inl ⟨kept, nofun⟩
    | redis msg => exact .inl ⟨kept, nofun⟩
    | pulsar msg => exact .inl ⟨kept, nofun⟩
    | serde msg => exact .inl ⟨kept, nofun⟩
    | parse msg => exact .inl ⟨kept, nofun⟩
    | anyhow msg => exact .inl ⟨kept, nofun⟩
    | panic msg => exact .inl ⟨kept, nofun⟩
    | diverged => exact .inl ⟨kept, nofun⟩
  · intro hf row hrow
    dsimp only
    by_cases hpwd : row.toEntity.password = self.crates.md5 req.password
    · rw [if_neg (by simpa using hpwd)]
      refine ends_bind.mpr (ends_attempt.mpr (get_ends ?_ ?_))
      · exact fun _ _ _ _ => .inl ⟨kept, nofun⟩
      · intro habsent e
        refine ends_bind.mpr (ends_await.mpr (ends_bind.mpr (ends_await.mpr ?_)))
        dsimp only [Store.serve, Store.exec, Option.getD]
        cases henc : self.aesCrypto.encrypt self.crates.ciphers (payload (s.supply s.drawn).simple
            row.toEntity.openid (s.clock + 86400)) with
        | error e => exact .inl ⟨drew, nofun⟩
        | ok token =>
          refine ends_bind.mpr (ends_attempt.mpr (set_ends ?_ ?_ ?_))
          · exact fun _ => .inl ⟨drew, nofun⟩
          · exact fun _ => .inl ⟨drew, nofun⟩
          · intro hset value hjson
            exact .inr ⟨row, token, ⟨hrow, hpwd, habsent, hf, hset⟩, rfl,
              henc, _, value, hjson, rfl, rfl, rfl⟩
    · rw [if_pos hpwd]
      exact .inl ⟨kept, nofun⟩

/-- The token decrypts to a text of the right form that names the openid and has not expired. -/
def QaServiceImpl.Valid (self : QaServiceImpl) (clock : Int) (token openid : String) : Prop :=
  ∃ text loginId expireTime expire, self.aesCrypto.decrypt self.crates.ciphers token = .ok text ∧
    Text.split ':' text = [loginId, openid, expireTime] ∧ parseI64 expireTime = .ok expire ∧
    clock < expire

namespace QaServiceImpl

open Prog

theorem checkToken_ends {token : String} {Q : Except Err (Except String String) → World → Prop}
    (hbad : ∀ err m, Q (.ok (.error err)) ⟨s, script.drop m⟩)
    (hok : ∀ openid, self.Valid s.clock token openid →
      Q (.ok (.ok openid)) ⟨s, script.drop (n + 1)⟩) :
    (self.checkToken token).Ends World.exec ⟨s, script.drop n⟩ Q := by
  unfold checkToken
  split
  · exact hbad _ _
  cases hdec : self.aesCrypto.decrypt self.crates.ciphers token with
  | error e => exact hbad _ _
  | ok text =>
    dsimp only
    split
    next loginId openid expireTime hsplit =>
      split
      · exact hbad _ _
      cases hparse : parseI64 expireTime with
      | error e => exact hbad _ _
      | ok expire =>
        refine ends_bind.mpr (ends_await.mpr ?_)
        dsimp only [Store.serve, Store.exec, Option.getD]
        split
        · exact hbad _ _
        next hlt =>
          exact hok openid ⟨text, loginId, expireTime, expire, hdec, hsplit, hparse,
            not_le.mp hlt⟩
    · exact hbad _ _

theorem verifyToken_ends (self : QaServiceImpl) (script : List Choice)
    (req : Pb.VerifyTokenRequest) :
    (self.verifyToken req).Ends World.exec ⟨s, script⟩ fun r _ => ∀ res, r = .ok (.ok res) →
      res.state = 1 → res.username ≠ "" → ∃ openid value user,
        self.Valid s.clock req.token openid ∧ self.crates.fromJson value = .ok user ∧
        (s.live (sessionKey openid) = some value ∨ .raw value ∈ script) ∧
        user.username = res.username := by
  change (self.verifyToken req).Ends World.exec ⟨s, script.drop 0⟩ _
  refine ends_bind.mpr (checkToken_ends ?_ ?_)
  · intro err m res hres
    simp only [rejected] at hres
    split at hres <;> cases hres
  · intro openid hvalid
    refine ends_bind.mpr (ends_attempt.mpr (get_ends ?_ ?_))
    · intro value user hjson hvalue res hres _ _
      cases hres
      exact ⟨openid, value, user, hvalid, hjson, hvalue.imp id mem_of_turn, rfl⟩
    · intro _ e
      dsimp only
      split
      all_goals
        intro res hres _ hname
        cases hres
        exact absurd rfl hname

theorem userLogout_ends (self : QaServiceImpl) (script : List Choice) (hq : s.pg.Quiet)
    (req : Pb.UserLogoutRequest) :
    (self.userLogout req).Ends World.exec ⟨s, script⟩ fun r w =>
      (s.Kept w.state ∧ ∀ res, r ≠ .ok (.ok res)) ∨
      ∃ res openid, r = .ok (.ok res) ∧ self.Valid s.clock req.token openid ∧
        w.state = s.forget (sessionKey openid) := by
  change (self.userLogout req).Ends World.exec ⟨s, script.drop 0⟩ _
  have kept : s.Kept s := .refl hq
  refine ends_bind.mpr (checkToken_ends ?_ ?_)
  · intro err m
    refine .inl ⟨kept, fun res hres => ?_⟩
    simp only [rejected] at hres
    split at hres <;> cases hres
  · intro openid hvalid
    refine ends_bind.mpr (ends_attempt.mpr (ends_await.mpr ?_))
    cases turn script 1 with
    | fail msg => exact .inl ⟨kept, nofun⟩
    | lost msg => exact .inl ⟨kept, nofun⟩
    | serve => exact .inr ⟨⟨1⟩, openid, rfl, hvalid, rfl⟩
    | page next fields => exact .inr ⟨⟨1⟩, openid, rfl, hvalid, rfl⟩
    | raw value => exact .inr ⟨⟨1⟩, openid, rfl, hvalid, rfl⟩

end QaServiceImpl

structure Store.Registered (s : Store) (row : UserRow) (s' : Store) : Prop where
  openid : row.openid.val = (s.supply s.drawn).simple
  quiet : s'.pg.Quiet
  users : s'.db.users = s.db.users ++ [row]
  strings : s'.strings = s.strings
  clock : s'.clock = s.clock
  supply : s'.supply = s.supply
  drawn : s'.drawn = s.drawn + 1

open Prog in
theorem add_ends (hq : s.pg.Quiet) {username password : String} :
    (User.add x username password).Ends World.exec ⟨s, script.drop n⟩ fun _ w =>
      s.Kept w.state ∨
        ∃ row, s.Registered row w.state ∧ Varchar.assign 50 username = some row.username := by
  have hquiet : s.drew.pg.Quiet := hq
  have insert : ∀ q : Stmt, q = .insertUser username (x.md5 password)
      (s.supply s.drawn).simple s.clock → (query q).Ends World.exec
      ⟨s.drew, script.drop (n + 2)⟩ fun _ w => s.Kept w.state ∨
        ∃ row, s.Registered row w.state ∧ Varchar.assign 50 username = some row.username := by
    rintro q rfl
    refine ends_await.mpr ?_
    rcases Store.serve_sql hquiet.alone _ (turn script (n + 2)) with ⟨-, msg, hs⟩ | ⟨-, hs⟩
    · rw [hs]
      exact .inl (Store.kept_drew hq)
    · rw [hs]
      cases heval : Stmt.eval s.drew.seq (.insertUser username (x.md5 password)
          (s.supply s.drawn).simple s.clock) s.drew.db with
      | error msg => exact .inl ⟨hq, rfl, rfl, rfl, rfl, Nat.le_succ _⟩
      | ok res =>
        obtain ⟨k, ws⟩ := res
        obtain ⟨row, rfl, hname, hopenid⟩ := eval_insertUser heval
        have hfits : Uncut 32 (s.supply s.drawn).simple := .inl (by
          rw [← String.length_toList, Uuid.length_simple])
        exact .inr
          ⟨row, ⟨Varchar.val_of_assign hopenid hfits, hq, rfl, rfl, rfl, rfl, rfl⟩, hname⟩
  refine ends_bind.mpr (ends_await.mpr ?_)
  change ((await .now) >>= _).Ends World.exec ⟨s.drew, script.drop (n + 1)⟩ _
  refine ends_bind.mpr (ends_await.mpr ?_)
  change ((query _) >>= _).Ends World.exec ⟨s.drew, script.drop (n + 2)⟩ _
  refine ends_bind.mpr ((insert _ rfl).mono fun r w h => ?_)
  cases r <;> exact h

open Prog in
theorem QaServiceImpl.userRegister_ends (self : QaServiceImpl) (script : List Choice)
    (hq : s.pg.Quiet) (req : Pb.UserRegisterRequest) :
    (self.userRegister req).Ends World.exec ⟨s, script⟩ fun _ w =>
      s.Kept w.state ∨
        ∃ row, s.Registered row w.state ∧ Varchar.assign 50 req.username = some row.username := by
  change (self.userRegister req).Ends World.exec ⟨s, script.drop 0⟩ _
  have kept : s.Kept s := .refl hq
  refine ends_bind.mpr (ends_attempt.mpr (checkUserExist_ends hq ?_ ?_))
  · exact fun e => .inl kept
  · intro found
    cases found with
    | true => exact .inl kept
    | false =>
      refine ends_bind.mpr (ends_attempt.mpr ((add_ends hq).mono fun r w h => ?_))
      cases r <;> exact h

end QaSys
