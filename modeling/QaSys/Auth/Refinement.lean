import QaSys.Auth.Authority
import QaSys.Gateway.Token

/-! The service answers registrations, logins, logouts and checks of tokens as the authority does,
for the accounts in its table and the sessions in its store. -/

namespace QaSys.Authority

open QaServiceImpl Backend Revocation Runs Prog

/-- The stores execute the calls, and show what is stored. -/
def Steady : Choice → Prop
  | .serve | .page .. => True
  | _ => False

instance : DecidablePred Steady
  | .serve | .page .. => isTrue trivial
  | .fail _ | .lost _ | .raw _ => isFalse id

section

variable (self : QaServiceImpl)

def rules : Rules String String String where
  name name := (Varchar.assign 50 name).map (·.val)
  secret := self.crates.md5
  keep secret := (Varchar.assign 50 secret).map (·.val)
  lifetime := 86400

/-- The accounts and the sessions that the tables and the stored strings stand for. -/
def authority (s : Store) : State String String String where
  accounts name := (s.db.users.find? (·.username.val = name)).map fun row =>
    ⟨row.password.val, row.openid.val⟩
  sessions openid := (s.strings (sessionKey openid)).bind fun entry =>
    match self.crates.fromJson entry.1 with
    | .ok user => some (user.username, entry.2)
    | .error _ => none
  clock := s.clock

def ticket (token : String) : Option (String × Int) :=
  if token.isEmpty then none
  else match self.aesCrypto.decrypt self.crates.ciphers token with
    | .error _ => none
    | .ok text => match Text.split ':' text with
      | [_, openid, expireTime] =>
        if openid.utf8ByteSize ≠ 32 then none
        else match parseI64 expireTime with
          | .ok expire => some (openid, expire)
          | .error _ => none
      | _ => none

def request : Event → Request String String String
  | .rpc (.userRegister req) _ => .register req.username req.password
  | .rpc (.userLogin req) _ => .login req.username req.password
  | .rpc (.userLogout req) _ => .logout (ticket self req.token)
  | .rpc (.verifyToken req) _ => .verify (ticket self req.token)
  | .rpc .. => .other
  | .tick seconds => .tick seconds

/-- What a reply of the service says. -/
def said : (c : Rpc) → Except Err (App.Reply c.Reply) → Answer String String
  | .userRegister _, .ok (.ok _) => .registered
  | .userRegister _, .ok (.error status) => match status.code with
    | .alreadyExists => .taken
    | .unknown => .unfit
    | _ => .silent
  | .userLogin _, .ok (.ok res) => match ticket self res.token with
    | some ticket => .opened ticket
    | none => .silent
  | .userLogin _, .ok (.error status) => match status.code with
    | .unknown => .unregistered
    | .invalidArgument => .wrong
    | .alreadyExists => .busy
    | _ => .silent
  | .userLogout _, .ok (.ok _) => .closed
  | .verifyToken _, .ok (.ok res) =>
    if res.state = 1 ∧ res.reason = "" then .holder res.username
    else if res.state = 0 then .absent
    else .silent
  | .userLogout _, .ok (.error status) | .verifyToken _, .ok (.error status) =>
    match status.code with
    | .unauthenticated | .invalidArgument => .refused
    | _ => .silent
  | _, _ => .silent

def label (b : Backend) (e : Event) : Request String String String × Answer String String :=
  (request self e, match e with
    | .rpc c script => said self c (b.reply self script c)
    | .tick _ => .silent)

/-- The session of the user can be stored, and the token for it can be encrypted. -/
def Sealed (s : Store) (row : UserRow) : Prop :=
  (self.aesCrypto.encrypt self.crates.ciphers
      (payload (s.supply s.drawn).simple row.openid.val (s.clock + 86400))).isOk = true ∧
    (self.crates.toJson ⟨row.id, row.username.val, row.openid.val, self.crates.format s.clock,
      self.crates.format (s.clock + 86400)⟩).isOk = true ∧
    fitsI64 (s.clock + 86400) = true

/-- The stores and the crates do not fail (PostgreSQL takes the name, too), and the table of users is
not full. -/
def Served (b : Backend) : Event → Prop
  | .rpc (.userRegister req) script =>
    (∀ ch ∈ script, Steady ch) ∧ Storable req.username ∧ b.store.seq.users < i64Max
  | .rpc (.userLogin req) script =>
    (∀ ch ∈ script, Steady ch) ∧ Storable req.username ∧ ∀ row ∈ b.user req.username,
      b.store.live (sessionKey row.openid.val) = none → Sealed self b.store row
  | .rpc (.userLogout _) script | .rpc (.verifyToken _) script => ∀ ch ∈ script, Steady ch
  | _ => True

end

variable {self : QaServiceImpl} {x : Crates} {s s' : Store} {key : String}

theorem Steady.not_faulty {ch : Choice} (h : Steady ch) : ¬ ch.Faulty := by
  cases ch with
  | serve => exact id
  | page next fields => exact id
  | fail msg => exact h.elim
  | lost msg => exact h.elim
  | raw value => exact h.elim

theorem authority_congr (husers : s'.db.users = s.db.users) (hstrings : s'.strings = s.strings)
    (hclock : s'.clock = s.clock) : authority self s' = authority self s := by
  simp only [authority, husers, hstrings, hclock]

theorem live_authority (openid : String) : (authority self s).live openid =
    (s.live (sessionKey openid)).bind fun value => match self.crates.fromJson value with
      | .ok user => some user.username
      | .error _ => none := by
  cases hs : s.strings (sessionKey openid) with
  | none => simp only [State.live, authority, Store.live, hs, Option.bind_none]
  | some entry =>
    obtain ⟨value, expiry⟩ := entry
    simp only [State.live, authority, Store.live, hs, Option.bind_some]
    by_cases hlt : s.clock < expiry
    · simp only [if_pos hlt, Option.bind_some]
      cases self.crates.fromJson value <;> simp [hlt]
    · simp only [if_neg hlt, Option.bind_none]
      cases self.crates.fromJson value <;> simp [hlt]

theorem ensures_get {Q : Except Err UserSessionEntity → Store → Prop}
    (h : (User.session x (s.live key)).Ensures Store.serve Steady s Q) :
    (User.get x key).Ensures Store.serve Steady s Q := by
  refine ensures_bind.mpr (ensures_op.mpr fun ch hch => ?_)
  cases ch with
  | serve => exact h
  | page next fields => exact h
  | fail msg => exact hch.elim
  | lost msg => exact hch.elim
  | raw value => exact hch.elim

theorem checkToken_steady (token : String) :
    (self.checkToken token).Ensures Store.serve Steady s fun r s' => s' = s ∧
      match (authority self s).present (ticket self token) with
      | some openid => r = .ok (.ok openid)
      | none => ∃ err, r = .ok (.error err) := by
  unfold checkToken ticket
  split
  · exact ⟨rfl, _, rfl⟩
  cases self.aesCrypto.decrypt self.crates.ciphers token with
  | error e => exact ⟨rfl, _, rfl⟩
  | ok text =>
    dsimp only
    generalize Text.split ':' text = parts
    match parts with
    | [] | [_] | [_, _] | _ :: _ :: _ :: _ :: _ => exact ⟨rfl, _, rfl⟩
    | [loginId, openid, expireTime] =>
      dsimp only
      by_cases hsize : openid.utf8ByteSize ≠ 32
      · simp only [if_pos hsize]
        exact ⟨rfl, _, rfl⟩
      simp only [if_neg hsize]
      cases parseI64 expireTime with
      | error e => exact ⟨rfl, _, rfl⟩
      | ok expire =>
        refine ensures_bind.mpr (ensures_op.mpr fun ch hch => ?_)
        dsimp only [Store.serve, Store.exec, Option.getD]
        by_cases hlt : s.clock < expire
        · have hpresent : (authority self s).present (some (openid, expire)) = some openid :=
            if_pos hlt
          rw [if_neg (not_le.mpr hlt), hpresent]
          exact ⟨rfl, rfl⟩
        · have hpresent : (authority self s).present (some (openid, expire)) = none := if_neg hlt
          rw [if_pos (not_lt.mp hlt), hpresent]
          exact ⟨rfl, _, rfl⟩

/-- Every session that is live can be read. -/
def Readable (self : QaServiceImpl) (s : Store) : Prop :=
  ∀ key value, s.live key = some value → ∃ user, self.crates.fromJson value = .ok user

theorem verifyToken_steady (hread : Readable self s) (req : Pb.VerifyTokenRequest) :
    (self.verifyToken req).Ensures Store.serve Steady s fun r s' => s' = s ∧
      said self (.verifyToken req) r = (authority self s).verify (ticket self req.token) := by
  refine ensures_bind.mpr ((checkToken_steady req.token).mono fun r s' h => ?_)
  obtain ⟨rfl, h⟩ := h
  cases hpresent : (authority self s').present (ticket self req.token) with
  | none =>
    rw [hpresent] at h
    obtain ⟨err, rfl⟩ := h
    refine ⟨rfl, ?_⟩
    simp only [State.verify, hpresent, rejected]
    split <;> rfl
  | some openid =>
    rw [hpresent] at h
    subst h
    simp only [State.verify, hpresent, live_authority]
    refine ensures_bind.mpr (ensures_attempt.mpr (ensures_get ?_))
    cases hlive : s'.live (sessionKey openid) with
    | none => exact ⟨rfl, rfl⟩
    | some value =>
      obtain ⟨user, hjson⟩ := hread _ _ hlive
      simp only [User.session, hjson, Option.bind_some]
      exact ⟨rfl, rfl⟩

theorem authority_forget (openid : String) : authority self (s.forget (sessionKey openid)) =
    (authority self s).withSession openid none := by
  refine State.ext rfl (funext fun other => ?_) rfl
  by_cases hother : other = openid
  · subst hother
    simp only [State.withSession_self, authority, Store.forget, Function.update_self,
      Option.bind_none]
  · have hkey : sessionKey other ≠ sessionKey openid := sessionKey_injective.ne hother
    simp only [State.withSession_of_ne _ hother, authority, Store.forget,
      Function.update_of_ne hkey]

theorem userLogout_steady (req : Pb.UserLogoutRequest) :
    (self.userLogout req).Ensures Store.serve Steady s fun r s' =>
      said self (.userLogout req) r = ((authority self s).logout (ticket self req.token)).1 ∧
      authority self s' = ((authority self s).logout (ticket self req.token)).2 := by
  refine ensures_bind.mpr ((checkToken_steady req.token).mono fun r s' h => ?_)
  obtain ⟨rfl, h⟩ := h
  cases hpresent : (authority self s').present (ticket self req.token) with
  | none =>
    rw [hpresent] at h
    obtain ⟨err, rfl⟩ := h
    simp only [State.logout, hpresent, rejected]
    split <;> exact ⟨rfl, rfl⟩
  | some openid =>
    rw [hpresent] at h
    subst h
    simp only [State.logout, hpresent]
    refine ensures_bind.mpr (ensures_attempt.mpr (ensures_op.mpr fun ch hch => ?_))
    cases ch with
    | serve => exact ⟨rfl, authority_forget openid⟩
    | page next fields => exact ⟨rfl, authority_forget openid⟩
    | fail msg => exact hch.elim
    | lost msg => exact hch.elim
    | raw value => exact hch.elim

/-- The handles of the users are such as tokens can carry. -/
def Handled (s : Store) : Prop :=
  ∀ row ∈ s.db.users, ':' ∉ row.openid.val.toList ∧ row.openid.val.utf8ByteSize = 32

theorem ticket_token (hc : self.crates.ciphers.Standard) {loginId : Uuid} {openid token : String}
    {expired : Int} (hcolon : ':' ∉ openid.toList) (hsize : openid.utf8ByteSize = 32)
    (hfits : fitsI64 expired = true)
    (h : self.aesCrypto.encrypt self.crates.ciphers (payload loginId.simple openid expired) =
      .ok token) : ticket self token = some (openid, expired) := by
  have hnonempty : ¬ token.isEmpty = true := Bool.eq_false_iff.mp (token_ne_empty hc h)
  simp only [ticket, if_neg hnonempty, AesCBCCrypto.decrypt_of_encrypt hc.toLawful h,
    split_payload (Uuid.colon_not_mem loginId) hcolon, ne_eq, hsize, not_true_eq_false, if_false,
    parseI64_toString hfits]

theorem authority_keep {openid value : String} {user : UserSessionEntity}
    (hjson : self.crates.fromJson value = .ok user) :
    authority self (s.drew.keep (sessionKey openid) value) =
      (authority self s).withSession openid (some (user.username, s.clock + 86400)) := by
  refine State.ext rfl (funext fun other => ?_) rfl
  by_cases hother : other = openid
  · subst hother
    simp only [State.withSession_self, authority, Store.keep_strings_self, Option.bind_some, hjson]
    rfl
  · have hkey : sessionKey other ≠ sessionKey openid := sessionKey_injective.ne hother
    simp only [State.withSession_of_ne _ hother, authority, Store.keep_strings_of_ne hkey]
    rfl

theorem fetchOne_steady (hq : s.pg.Quiet) {username : String} (hname : Storable username) :
    (User.fetchOne username).Ensures Store.serve Steady s fun r s' => s' = s ∧
      r = match s.db.users.find? (·.username.val = username) with
        | some row => .ok row.toEntity
        | none => .error (.sqlx .rowNotFound) := by
  refine ensures_bind.mpr ((ensures_select hq (fun _ => Steady.not_faulty)
    (q := .user username) (List.forall_mem_singleton.mpr hname) rfl rfl).mono fun r s' hr => ?_)
  obtain ⟨rfl, rfl⟩ := hr
  change (fetchOne (s'.db.users.find? _) >>= fun row => pure row.toEntity).Ensures _ _ _ _
  cases s'.db.users.find? (·.username.val = username) <;> exact ⟨rfl, rfl⟩

theorem set_steady {user : UserSessionEntity} {value : String} (h : x.toJson user = .ok value) :
    (User.set x key user 86400).Ensures Store.serve Steady s fun r s' =>
      r = .ok () ∧ s' = s.keep key value := by
  simp only [User.set, h]
  refine ensures_op.mpr fun ch hch => ?_
  cases ch with
  | serve => exact ⟨rfl, rfl⟩
  | page next fields => exact ⟨rfl, rfl⟩
  | fail msg => exact hch.elim
  | lost msg => exact hch.elim
  | raw value => exact hch.elim

theorem userLogin_steady (hc : self.crates.ciphers.Standard) (hx : self.crates.Lawful)
    (hq : s.pg.Quiet) (hread : Readable self s) (hhandled : Handled s)
    (req : Pb.UserLoginRequest) (hname : Storable req.username)
    (hsealed : ∀ row, s.db.users.find? (·.username.val = req.username) = some row →
      s.live (sessionKey row.openid.val) = none → Sealed self s row) :
    (self.userLogin req).Ensures Store.serve Steady s fun r s' =>
      said self (.userLogin req) r =
        ((authority self s).login (rules self) req.username req.password).1 ∧
      authority self s' =
        ((authority self s).login (rules self) req.username req.password).2 := by
  refine ensures_bind.mpr (ensures_attempt.mpr ((fetchOne_steady hq hname).mono
    fun r s' hr => ?_))
  obtain ⟨rfl, rfl⟩ := hr
  cases hfind : s'.db.users.find? (·.username.val = req.username) with
  | none =>
    have haccount : (authority self s').accounts req.username = none := by
      simp only [authority, hfind, Option.map_none]
    simp only [State.login, haccount]
    exact ⟨rfl, rfl⟩
  | some row =>
    have haccount : (authority self s').accounts req.username =
        some ⟨row.password.val, row.openid.val⟩ := by
      simp only [authority, hfind, Option.map_some]
    simp only [State.login, haccount, live_authority]
    by_cases hpwd : row.password.val = self.crates.md5 req.password
    · have hentity : ¬ row.toEntity.password ≠ self.crates.md5 req.password := not_not.mpr hpwd
      have hsecret : ¬ row.password.val ≠ (rules self).secret req.password := not_not.mpr hpwd
      rw [if_neg hentity, if_neg hsecret]
      refine ensures_bind.mpr (ensures_attempt.mpr (ensures_get ?_))
      have hopenid : row.toEntity.openid = row.openid.val := rfl
      rw [hopenid]
      cases hlive : s'.live (sessionKey row.openid.val) with
      | some value =>
        obtain ⟨user, hjson⟩ := hread _ _ hlive
        simp only [User.session, hjson, Option.bind_some]
        exact ⟨rfl, rfl⟩
      | none =>
        obtain ⟨henc, hjson, hfits⟩ := hsealed row hfind hlive
        obtain ⟨hcolon, hsize⟩ := hhandled row (List.mem_of_find?_eq_some hfind)
        refine ensures_bind.mpr (ensures_op.mpr fun _ _ => ?_)
        refine ensures_bind.mpr (ensures_op.mpr fun _ _ => ?_)
        dsimp only [Store.serve, Store.exec, Option.getD]
        cases htoken : self.aesCrypto.encrypt self.crates.ciphers
            (payload (s'.supply s'.drawn).simple row.openid.val (s'.clock + 86400)) with
        | error e =>
          rw [htoken] at henc
          cases henc
        | ok token =>
          have hticket := ticket_token hc hcolon hsize hfits htoken
          cases hvalue : self.crates.toJson ⟨row.id, row.username.val, row.openid.val,
              self.crates.format s'.clock, self.crates.format (s'.clock + 86400)⟩ with
          | error e =>
            rw [hvalue] at hjson
            cases hjson
          | ok value =>
            refine ensures_bind.mpr (ensures_attempt.mpr ((set_steady hvalue).mono
              fun r s'' hr => ?_))
            obtain ⟨rfl, rfl⟩ := hr
            have hname : row.username.val = req.username := by simpa using List.find?_some hfind
            refine ⟨?_, (authority_keep (hx.fromJson_toJson hvalue)).trans ?_⟩
            · change (match ticket self token with
                | some ticket => Answer.opened ticket
                | none => Answer.silent) = _
              rw [hticket]
              rfl
            · rw [hname]
              rfl
    · have hentity : row.toEntity.password ≠ self.crates.md5 req.password := hpwd
      have hsecret : row.password.val ≠ (rules self).secret req.password := hpwd
      rw [if_pos hentity, if_pos hsecret]
      exact ⟨rfl, rfl⟩

theorem val_injective {n : Nat} : Function.Injective (Varchar.val (n := n)) := by
  rintro ⟨a, ha, ha'⟩ ⟨b, hb, hb'⟩ rfl
  rfl

theorem accounts_eq_none {name : String} : (authority self s).accounts name = none ↔
    ∀ row ∈ s.db.users, row.username.val ≠ name := by
  simp only [authority, Option.map_eq_none_iff, List.find?_eq_none, decide_eq_true_eq, ne_eq]

theorem authority_insert {row : UserRow} (husers : s'.db.users = s.db.users ++ [row])
    (hstrings : s'.strings = s.strings) (hclock : s'.clock = s.clock)
    (hnew : (authority self s).accounts row.username.val = none) : authority self s' =
      (authority self s).withAccount row.username.val ⟨row.password.val, row.openid.val⟩ := by
  refine State.ext (funext fun name => ?_) ?_ hclock
  · simp only [authority, husers, List.find?_append]
    by_cases hname : name = row.username.val
    · subst hname
      have hnone : s.db.users.find? (·.username.val = row.username.val) = none := by
        simpa only [authority, Option.map_eq_none_iff] using hnew
      rw [State.withAccount_self, hnone, Option.none_or, List.find?_cons_of_pos (by simp)]
      rfl
    · have hother : [row].find? (·.username.val = name) = none := by
        rw [List.find?_cons_of_neg (by simpa using Ne.symm hname), List.find?_nil]
      rw [State.withAccount_of_ne _ hname, hother, Option.or_none]
  · simp only [authority, hstrings, State.withAccount]

theorem checkUserExist_steady (hq : s.pg.Quiet) {username : String} (hname : Storable username) :
    (User.checkUserExist username).Ensures Store.serve Steady s fun r s' => s' = s ∧
      r = .ok (s.db.users.find? (·.username.val = username)).isSome := by
  refine ensures_bind.mpr ((ensures_select hq (fun _ => Steady.not_faulty)
    (q := .userId username) (List.forall_mem_singleton.mpr hname) rfl rfl).mono fun r s' hr => ?_)
  obtain ⟨rfl, rfl⟩ := hr
  exact ⟨rfl, by rw [Option.isSome_map]⟩

theorem add_steady (hq : s.pg.Quiet) (hseq : s.seq.users < i64Max) {username : String}
    (hname : Storable username) (password : String) :
    (User.add x username password).Ensures Store.serve Steady s fun r s' =>
      s'.strings = s.strings ∧ s'.clock = s.clock ∧ s.drawn < s'.drawn ∧
      ((∃ e, r = .error e ∧ s'.db.users = s.db.users ∧
        ∀ name secret, Varchar.assign 50 username = some name →
          Varchar.assign 50 (x.md5 password) = some secret →
          ∃ row ∈ s.db.users, row.username = name) ∨
      ∃ row : UserRow, r = .ok () ∧ s'.db.users = s.db.users ++ [row] ∧
        Varchar.assign 50 username = some row.username ∧
        Varchar.assign 50 (x.md5 password) = some row.password ∧
        row.openid.val = (s.supply s.drawn).simple ∧
        ∀ other ∈ s.db.users, other.username ≠ row.username) := by
  have hquiet : s.drew.pg.Quiet := hq
  have hopenid : (s.supply s.drawn).simple.length ≤ 32 := by
    rw [← String.length_toList, Uuid.length_simple]
  refine ensures_bind.mpr (ensures_op.mpr fun _ _ => ?_)
  refine ensures_bind.mpr (ensures_op.mpr fun _ _ => ?_)
  dsimp only [Store.serve, Store.exec, Option.getD]
  change ((query _) >>= _).Ensures Store.serve Steady s.drew _
  by_cases hhash : Storable (x.md5 password)
  swap
  · have hbind : ¬ (Stmt.insertUser username (x.md5 password) (s.supply s.drawn).simple
        s.clock).Bindable := fun h => hhash (h _ (List.mem_cons_of_mem _ List.mem_cons_self))
    refine ensures_bind.mpr (ensures_refused hbind fun e => ?_)
    exact ⟨rfl, rfl, Nat.lt_succ_self _, .inl ⟨e, rfl, rfl, fun name secret _ h =>
      absurd (Varchar.storable_of_assign h) hhash⟩⟩
  have hbind : (Stmt.insertUser username (x.md5 password) (s.supply s.drawn).simple
      s.clock).Bindable := Stmt.bindable_insertUser hname hhash (s.supply s.drawn).nul_not_mem
  have accepted : ∀ {P : Err → Prop} ch, Steady ch → ch.Refuses _ → ∀ e, P e :=
    fun ch hch hr => absurd hr (Store.not_refuses hch.not_faulty hbind)
  rcases eval_insertUser_cases username (x.md5 password) s.clock s.db hseq
    (s.supply s.drawn).nul_not_mem hopenid with
    ⟨msg, heval, htaken⟩ | ⟨name, secret, hname, hsecret, hnew, heval⟩
  · refine ensures_bind.mpr (ensures_query hquiet accepted
      (fun msg' herr => ?_) fun a ws hok => ?_)
    · exact ⟨rfl, rfl, Nat.lt_succ_self _, .inl ⟨_, rfl, rfl, htaken⟩⟩
    · cases heval.symm.trans hok
  · refine ensures_bind.mpr (ensures_query hquiet accepted
      (fun msg' herr => ?_) fun a ws hok => ?_)
    · cases heval.symm.trans herr
    · cases heval.symm.trans hok
      exact ⟨rfl, rfl, Nat.lt_succ_self _, .inr ⟨_, rfl, rfl, hname, hsecret, rfl, hnew⟩⟩

theorem userRegister_steady (hq : s.pg.Quiet) (hseq : s.seq.users < i64Max)
    (req : Pb.UserRegisterRequest) (hstorable : Storable req.username) :
    (self.userRegister req).Ensures Store.serve Steady s fun r s' =>
      said self (.userRegister req) r = ((authority self s).register (rules self)
        (s.supply s.drawn).simple req.username req.password).1 ∧
      authority self s' = ((authority self s).register (rules self)
        (s.supply s.drawn).simple req.username req.password).2 ∧
      (said self (.userRegister req) r = .registered → s.drawn < s'.drawn) := by
  refine ensures_bind.mpr (ensures_attempt.mpr ((checkUserExist_steady hq hstorable).mono
    fun r s' hr => ?_))
  obtain ⟨rfl, rfl⟩ := hr
  cases hfind : s'.db.users.find? (·.username.val = req.username) with
  | some row =>
    have haccount : (authority self s').accounts req.username =
        some ⟨row.password.val, row.openid.val⟩ := by
      simp only [authority, hfind, Option.map_some]
    simp only [State.register, haccount]
    exact ⟨rfl, rfl, fun h => by cases h⟩
  | none =>
    have haccount : (authority self s').accounts req.username = none := by
      simp only [authority, hfind, Option.map_none]
    refine ensures_bind.mpr (ensures_attempt.mpr ((add_steady hq hseq hstorable
      req.password).mono fun r s'' hr => ?_))
    obtain ⟨hstrings, hclock, hdrawn, ⟨e, rfl, husers, htaken⟩ |
      ⟨row, rfl, husers, hname, hsecret, hopenid, hnew⟩⟩ := hr
    · have hunfit : (authority self s').register (rules self) (s'.supply s'.drawn).simple
          req.username req.password = (.unfit, authority self s') := by
        refine State.register_unfit haccount fun _ _ hstored hkept hnone => ?_
        obtain ⟨name, hname, rfl⟩ := Option.map_eq_some_iff.mp hstored
        obtain ⟨secret, hsecret, -⟩ := Option.map_eq_some_iff.mp hkept
        obtain ⟨row, hrow, hrowName⟩ := htaken name secret hname hsecret
        exact accounts_eq_none.mp hnone row hrow (congrArg Varchar.val hrowName)
      rw [hunfit]
      exact ⟨rfl, authority_congr husers hstrings hclock, fun h => by cases h⟩
    · have hfree : (authority self s').accounts row.username.val = none :=
        accounts_eq_none.mpr fun other hother hval => hnew other hother (val_injective hval)
      have hregistered : (authority self s').register (rules self) (s'.supply s'.drawn).simple
          req.username req.password = (.registered, (authority self s').withAccount
            row.username.val ⟨row.password.val, row.openid.val⟩) := by
        have hstored : (rules self).name req.username = some row.username.val :=
          congrArg (Option.map Varchar.val) hname
        have hkept : (rules self).keep ((rules self).secret req.password) =
            some row.password.val := congrArg (Option.map Varchar.val) hsecret
        simp only [State.register, haccount, hstored, hkept, hfree, hopenid]
      rw [hregistered]
      exact ⟨rfl, authority_insert husers hstrings hclock hfree, fun _ => hdrawn⟩

variable {b : Backend}

theorem readable_of_sound (h : Sound self b) : Readable self b.store := by
  intro key value hlive
  obtain ⟨i, -, -, -, -, user, hjson, -⟩ := h.live_session hlive
  exact ⟨user, hjson⟩

theorem handled_of_sound (h : Sound self b) : Handled b.store := by
  intro row hrow
  refine ⟨h.colon_not_mem hrow, ?_⟩
  obtain ⟨ks, -, -, hks⟩ := h.openids
  have hmem : row.openid.val ∈ b.store.db.users.map (·.openid.val) := List.mem_map_of_mem hrow
  rw [hks] at hmem
  obtain ⟨k, -, hk⟩ := List.mem_map.mp hmem
  rw [← hk, (Text.isAscii_of_hexDigits (Uuid.isAsciiHexdigit_simple _)).utf8ByteSize,
    ← String.length_toList, Uuid.length_simple]

theorem unused_of_sound (h : Sound self b) (hsupply : s'.supply = b.store.supply)
    (hdrawn : b.store.drawn < s'.drawn) (hd : s'.Distinct) :
    (authority self b.store).Unused (b.store.supply b.store.drawn).simple := by
  intro name account haccount hsame
  obtain ⟨row, hrow, rfl⟩ := Option.map_eq_some_iff.mp haccount
  obtain ⟨ks, -, hlt, hks⟩ := h.openids
  have hmem : row.openid.val ∈ b.store.db.users.map (·.openid.val) :=
    List.mem_map_of_mem (List.mem_of_find?_eq_some hrow)
  rw [hks] at hmem
  obtain ⟨k, hk, hopenid⟩ := List.mem_map.mp hmem
  have hid : b.store.supply k = b.store.supply b.store.drawn :=
    Uuid.simple_injective (hopenid.trans hsame)
  rw [← hsupply] at hid
  exact absurd (hd k ((hlt k hk).trans hdrawn) b.store.drawn hdrawn hid) (hlt k hk).ne

theorem sound_next (hx : self.crates.Lawful) (h : Sound self b) (e : Event) :
    Sound self (next self b e) := by
  cases e with
  | tick seconds => exact h.tick seconds
  | rpc c script => exact h.call hx script c

theorem step_next (hc : self.crates.ciphers.Standard) (hx : self.crates.Lawful)
    (hs : Sound self b) {e : Event} (hserved : Served self b e)
    (hd : (next self b e).store.Distinct) :
    Step (rules self) (authority self b.store) (label self b e).1 (label self b e).2
      (authority self (next self b e).store) := by
  cases e with
  | tick seconds => exact .tick seconds
  | rpc c script =>
    have hrun {Q : Except Err (App.Reply c.Reply) → Store → Prop}
        (hsteady : ∀ ch ∈ script, Steady ch)
        (h : (c.serve self).Ensures Store.serve Steady b.store Q) :
        Q (b.reply self script c) (b.call self script c).store := by
      rw [call_store]
      exact Ensures.run (d := Choice.serve) trivial hsteady h
    have haside (hplain : c.Plain) :
        authority self (b.call self script c).store = authority self b.store := by
      have hwithin : (c.serve self).Within Call.Plain := hplain.within
      have hkept := Store.Kept.run hs.quiet hwithin script
      rw [call_store]
      exact authority_congr hkept.users hkept.strings hkept.clock
    have heffect := call_effect self script hs.quiet c
    change Step _ _ _ (said self c (b.reply self script c))
      (authority self (b.call self script c).store)
    change (b.call self script c).store.Distinct at hd
    cases c with
    | userRegister req =>
      obtain ⟨hsteady, hname, hseq⟩ := hserved
      obtain ⟨hsaid, hstate, hdrawn⟩ := hrun hsteady (userRegister_steady hs.quiet hseq req hname)
      have hsupply : (b.call self script (.userRegister req)).store.supply = b.store.supply := by
        generalize b.call self script (.userRegister req) = b' at heffect
        cases heffect with
        | kept hk => exact hk.supply
        | registered hr => exact hr.supply
      have hstep : Step (rules self) (authority self b.store)
          (.register req.username req.password) _ _ :=
        .register req.username req.password (b.store.supply b.store.drawn).simple fun hreg =>
          unused_of_sound hs hsupply (hdrawn (hsaid.trans hreg)) hd
      rw [← hsaid, ← hstate] at hstep
      exact hstep
    | userLogin req =>
      obtain ⟨hsteady, hname, hsealed⟩ := hserved
      obtain ⟨hsaid, hstate⟩ := hrun hsteady (userLogin_steady hc hx hs.quiet
        (readable_of_sound hs) (handled_of_sound hs) req hname hsealed)
      rw [hsaid, hstate]
      exact .login req.username req.password
    | userLogout req =>
      obtain ⟨hsaid, hstate⟩ := hrun hserved (userLogout_steady req)
      rw [hsaid, hstate]
      exact .logout _
    | verifyToken req =>
      obtain ⟨hstore, hsaid⟩ := hrun hserved (verifyToken_steady (readable_of_sound hs) req)
      rw [hsaid, hstore]
      exact .verify _
    | _ =>
      rw [haside trivial]
      exact .other

end QaSys.Authority
