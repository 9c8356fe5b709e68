import QaSys.Program.Threads
import QaSys.Auth.Revocation

/-! Logins of one user that run at the same time. -/

namespace QaSys.SingleLogin

open QaServiceImpl Pb

abbrev Login := Svc (App.Reply UserLoginResponse)

abbrev Threads (n : Nat) := Pool (Fin n) Call Call.Reply Err (App.Reply UserLoginResponse) Store

inductive Event (n : Nat)
  | login (i : Fin n) (ch : Choice)
  | logout (req : UserLogoutRequest) (script : List Choice)
  | tick (seconds : Nat)

def start (self : QaServiceImpl) (req : Fin n → UserLoginRequest) (s : Store) : Threads n :=
  ⟨fun i => self.userLogin (req i), s⟩

def next (self : QaServiceImpl) (pool : Threads n) : Event n → Threads n
  | .login i ch => pool.step (fun i ch c s => s.exec i.val ch c) (i, ch)
  | .logout req script =>
    { pool with state := ((self.userLogout req).run World.exec ⟨pool.state, script⟩).2.state }
  | .tick seconds => { pool with state.clock := pool.state.clock + seconds }

def HasToken : Login → Prop
  | .ret (.ok _) => True
  | _ => False

def AlreadyIn : Login → Prop
  | .ret (.error ⟨.alreadyExists, _⟩) => True
  | _ => False

/-- At most one login has returned a token, and the others that are finished were told that the user
is logged in already. -/
structure Single (pool : Threads n) : Prop where
  unique : ∀ i j, HasToken (pool.prog i) → HasToken (pool.prog j) → i = j
  refused : ∀ i, (pool.prog i).Finished → HasToken (pool.prog i) ∨ AlreadyIn (pool.prog i)

def Entering : Login → Prop
  | .call .newV4 _ | .call .now _ | .call (.setEx ..) _ => True
  | _ => False

/-- The stores serve the next call, and it does not look for a session while a login enters.  The
look for a session may fail as long as there is none. -/
def Admitted (pool : Threads n) (ch : Choice) : Login → Prop
  | .call (.get key) _ =>
    (∀ j, ¬ Entering (pool.prog j)) ∧ ((pool.state.live key).isSome = true → ¬ ch.Unread)
  | .call (.sql _) _ | .call (.setEx ..) _ => ¬ ch.Faulty
  | _ => True

def Orderly (pool : Threads n) : Event n → Prop
  | .login i ch => Admitted pool ch (pool.prog i)
  | _ => True

/-- A session is there when a token was returned: it has not expired and its user has not logged
out. -/
def Lasting (self : QaServiceImpl) (key : String) (pool : Threads n) (e : Event n) : Prop :=
  (∃ i, HasToken ((next self pool e).prog i)) → ((next self pool e).state.live key).isSome = true

instance : DecidablePred HasToken
  | .ret (.ok _) => isTrue trivial
  | .ret (.error _) | .fail _ | .call .. => isFalse id

instance : DecidablePred Entering
  | .call c _ => match c with
    | .newV4 | .now | .setEx .. => isTrue trivial
    | .sql _ | .begin | .tx _ | .commit | .rollback | .get _ | .del _ | .hincr .. | .hscan .. | .send _
    | .ack _ => isFalse id
  | .ret _ | .fail _ => isFalse id

instance (pool : Threads n) (ch : Choice) : DecidablePred (Admitted pool ch)
  | .call c _ => match c with
    | .get _ => instDecidableAnd
    | .sql _ | .setEx .. => instDecidableNot
    | .begin | .tx _ | .commit | .rollback | .del _ | .hincr .. | .hscan .. | .send _ | .ack _ | .now
    | .newV4 => isTrue trivial
  | .ret _ | .fail _ => isTrue trivial

instance (pool : Threads n) : DecidablePred (Orderly pool)
  | .login i ch => inferInstanceAs (Decidable (Admitted pool ch (pool.prog i)))
  | .logout .. | .tick _ => isTrue trivial

instance (self : QaServiceImpl) (key : String) (pool : Threads n) (e : Event n) :
    Decidable (Lasting self key pool e) :=
  inferInstanceAs (Decidable ((∃ i, HasToken ((next self pool e).prog i)) → _))

/-- Tokens can be encrypted, and sessions written as JSON and read again. -/
structure Total (svc : QaServiceImpl) : Prop where
  encrypt (text : String) : ∃ token, svc.aesCrypto.encrypt svc.crates.ciphers text = .ok token
  toJson (user : UserSessionEntity) : ∃ value user', svc.crates.toJson user = .ok value ∧
    svc.crates.fromJson value = .ok user'

variable {self : QaServiceImpl} {key : String} {p : Login}

def Storing (x : Crates) (key : String) (p : Login) : Prop :=
  ∃ value user k, p = .call (.setEx key value 86400) k ∧ x.fromJson value = .ok user ∧
    HasToken (k (.ok ()))

def Timing (x : Crates) (key : String) (p : Login) : Prop :=
  ∃ k, p = .call .now k ∧ ∀ t, Storing x key (k (.ok t))

def Drawing (x : Crates) (key : String) (p : Login) : Prop :=
  ∃ k, p = .call .newV4 k ∧ ∀ id, Timing x key (k (.ok id))

def Looking (x : Crates) (key : String) (p : Login) : Prop :=
  ∃ k, p = .call (.get key) k ∧ (∀ r, Drawing x key (k r) ∨ AlreadyIn (k r)) ∧
    ∀ value user, x.fromJson value = .ok user → AlreadyIn (k (.ok (some value)))

def Fetching (x : Crates) (key username : String) (row : UserRow) (p : Login) : Prop :=
  ∃ k, p = .call (.sql (.user username)) k ∧ Looking x key (k (.ok (some row)))

def entered (self : QaServiceImpl) (req : UserLoginRequest) (u : UserEntity) :
    Except Err UserSessionEntity → Login
  | .ok _ => return .error ⟨.alreadyExists, s!"用户 {req.username} 已经登陆，请不要重复登录"⟩
  | .error _ => do
    let loginId := (← await .newV4).simple
    let loginTime ← await .now
    let expired := loginTime + 86400
    match self.aesCrypto.encrypt self.crates.ciphers (payload loginId u.openid expired) with
    | .error e => throw (.panic s!"fail to encrypt token: {e.debug}")
    | .ok token =>
      let userSession : UserSessionEntity :=
        ⟨u.id, u.username, u.openid, self.crates.format loginTime, self.crates.format expired⟩
      match ← (User.set self.crates (sessionKey u.openid) userSession 86400).attempt with
      | .error e => return .error ⟨.internal, s!"保存 Session 失败: {e.toString}"⟩
      | .ok _ => return .ok ⟨token⟩

theorem drawing_entered (ht : Total self) (req : UserLoginRequest) (u : UserEntity) (e : Err) :
    Drawing self.crates (sessionKey u.openid) (entered self req u (.error e)) := by
  refine ⟨_, rfl, fun id => ⟨_, rfl, fun t => ?_⟩⟩
  obtain ⟨token, htoken⟩ := ht.encrypt (payload id.simple u.openid (t + 86400))
  obtain ⟨value, user, hvalue, huser⟩ := ht.toJson
    ⟨u.id, u.username, u.openid, self.crates.format t, self.crates.format (t + 86400)⟩
  change Storing _ _ (match self.aesCrypto.encrypt self.crates.ciphers _ with
    | .error e => _
    | .ok token => _ : Login)
  rw [htoken]
  simp only [User.set, hvalue]
  exact ⟨value, user, _, rfl, huser, trivial⟩

theorem get_prog (x : Crates) (key : String) (f : Except Err UserSessionEntity → Login) :
    ∃ k, ((User.get x key).attempt >>= f : Login) = .call (.get key) k ∧
      (∀ e, k (.error e) = f (.error e)) ∧ (∃ e, k (.ok none) = f (.error e)) ∧
      ∀ value, k (.ok (some value)) = f ((x.fromJson value).mapError .serde) := by
  refine ⟨_, rfl, fun _ => rfl, ⟨_, rfl⟩, fun value => ?_⟩
  change ((User.session x (some value)).attempt >>= f : Login) = _
  cases hjson : x.fromJson value <;> simp only [User.session, hjson] <;> rfl

theorem fetching_start (ht : Total self) {req : UserLoginRequest} {row : UserRow}
    (hpassword : row.password.val = self.crates.md5 req.password) :
    Fetching self.crates (sessionKey row.openid.val) req.username row (self.userLogin req) := by
  have hgate : row.toEntity.password = self.crates.md5 req.password := hpassword
  refine ⟨_, rfl, ?_⟩
  change Looking _ _ (if row.toEntity.password ≠ self.crates.md5 req.password then _ else
    (User.get self.crates (sessionKey row.toEntity.openid)).attempt >>=
      entered self req row.toEntity : Login)
  rw [if_neg (not_not_intro hgate)]
  have drawing (e : Err) := drawing_entered ht req row.toEntity e
  obtain ⟨k, hprog, herror, ⟨e, hnone⟩, hsome⟩ :=
    get_prog self.crates (sessionKey row.toEntity.openid) (entered self req row.toEntity)
  refine ⟨k, hprog, fun r => ?_, fun value user hjson => ?_⟩
  · rcases r with e | _ | value
    · exact .inl (herror e ▸ drawing e)
    · exact .inl (hnone ▸ drawing e)
    · rw [hsome]
      cases self.crates.fromJson value with
      | ok user => exact .inr trivial
      | error e => exact .inl (drawing _)
  · rw [hsome, hjson]
    trivial

inductive Stage (x : Crates) (key username : String) (row : UserRow) (p : Login) : Prop
  | fetching (h : Fetching x key username row p)
  | looking (h : Looking x key p)
  | drawing (h : Drawing x key p)
  | timing (h : Timing x key p)
  | storing (h : Storing x key p)
  | done (h : HasToken p)
  | refused (h : AlreadyIn p)

variable {x : Crates} {username : String} {row : UserRow} {n : Nat} {pool : Threads n}

theorem Drawing.entering (h : Drawing x key p) : Entering p := by
  obtain ⟨k, rfl, -⟩ := h
  trivial

theorem Timing.entering (h : Timing x key p) : Entering p := by
  obtain ⟨k, rfl, -⟩ := h
  trivial

theorem Storing.entering (h : Storing x key p) : Entering p := by
  obtain ⟨value, user, k, rfl, -⟩ := h
  trivial

theorem Entering.not_hasToken (h : Entering p) : ¬ HasToken p := by
  cases p with
  | ret a => exact absurd h id
  | fail e => exact absurd h id
  | call c k => exact id

def Active (p : Login) : Prop := Entering p ∨ HasToken p

theorem AlreadyIn.not_active (h : AlreadyIn p) : ¬ Active p := by
  cases p with
  | ret a =>
    cases a with
    | ok res => exact absurd h id
    | error status => exact fun hactive => hactive.elim id id
  | fail e => exact absurd h id
  | call c k => exact absurd h id

theorem Looking.not_active (h : Looking x key p) : ¬ Active p := by
  obtain ⟨k, rfl, -⟩ := h
  exact fun hactive => hactive.elim id id

def Readable (x : Crates) (key : String) (s : Store) : Prop :=
  ∀ value expiry, s.strings key = some (value, expiry) → ∃ user, x.fromJson value = .ok user

/-- At most one login enters or has come in, and then it has a session. -/
structure Sound (x : Crates) (key username : String) (row : UserRow) (pool : Threads n) :
    Prop where
  quiet : pool.state.pg.Quiet
  found : pool.state.db.users.find? (·.username.val = username) = some row
  stage : ∀ i, Stage x key username row (pool.prog i)
  unique : ∀ i j, Active (pool.prog i) → Active (pool.prog j) → i = j
  readable : ∀ i, HasToken (pool.prog i) → Readable x key pool.state
  live : ∀ i, HasToken (pool.prog i) → (pool.state.live key).isSome = true

theorem Sound.update (h : Sound x key username row pool) {i : Fin n} {s : Store}
    (hq : s.pg.Quiet) (hdb : s.db = pool.state.db) (hstage : Stage x key username row p)
    (halone : Active p → ∀ j, j ≠ i → ¬ Active (pool.prog j))
    (hreadable : (∃ j, HasToken (Function.update pool.prog i p j)) → Readable x key s)
    (hlive : (∃ j, HasToken (Function.update pool.prog i p j)) → (s.live key).isSome = true) :
    Sound x key username row ⟨Function.update pool.prog i p, s⟩ := by
  have of_ne {j : Fin n} (hj : j ≠ i) : Function.update pool.prog i p j = pool.prog j :=
    Function.update_of_ne hj ..
  have self : Function.update pool.prog i p i = p := Function.update_self ..
  refine ⟨hq, hdb ▸ h.found, fun j => ?_, fun j k hj hk => ?_, fun j hj => hreadable ⟨j, hj⟩,
    fun j hj => hlive ⟨j, hj⟩⟩
  · dsimp only
    by_cases hj : j = i
    · rw [hj, self]
      exact hstage
    · rw [of_ne hj]
      exact h.stage j
  · dsimp only at hj hk
    by_cases hji : j = i
    · by_cases hki : k = i
      · rw [hji, hki]
      · rw [hji, self] at hj
        rw [of_ne hki] at hk
        exact absurd hk (halone hj k hki)
    · by_cases hki : k = i
      · rw [of_ne hji] at hj
        rw [hki, self] at hk
        exact absurd hj (halone hk j hji)
      · rw [of_ne hji] at hj
        rw [of_ne hki] at hk
        exact h.unique j k hj hk

theorem Sound.goOn (h : Sound x key username row pool) {i : Fin n} {s : Store}
    (hkept : pool.state.Kept s) (hdb : s.db = pool.state.db)
    (hstage : Stage x key username row p) (htoken : ¬ HasToken p)
    (halone : Active p → ∀ j, j ≠ i → ¬ Active (pool.prog j)) :
    Sound x key username row ⟨Function.update pool.prog i p, s⟩ := by
  have hother : (∃ j, HasToken (Function.update pool.prog i p j)) → ∃ j, HasToken (pool.prog j) := by
    rintro ⟨j, hj⟩
    by_cases hji : j = i
    · rw [hji, Function.update_self] at hj
      exact absurd hj htoken
    · rw [Function.update_of_ne hji] at hj
      exact ⟨j, hj⟩
  refine h.update hkept.quiet hdb hstage halone (fun hj => ?_) fun hj => ?_
  · obtain ⟨j, hj⟩ := hother hj
    intro value expiry hvalue
    exact h.readable j hj value expiry (hkept.strings ▸ hvalue)
  · obtain ⟨j, hj⟩ := hother hj
    rw [Store.live_congr (congrFun hkept.strings key) hkept.clock]
    exact h.live j hj

theorem exec_get (s : Store) (i : Nat) (ch : Choice) (key : String) :
    ∃ r, s.exec i ch (.get key) = some (r, s) ∧ (¬ ch.Unread → r = .ok (s.live key)) := by
  cases ch with
  | serve => exact ⟨_, rfl, fun _ => rfl⟩
  | page next fields => exact ⟨_, rfl, fun _ => rfl⟩
  | fail msg => exact ⟨_, rfl, fun h => absurd trivial h⟩
  | lost msg => exact ⟨_, rfl, fun h => absurd trivial h⟩
  | raw value => exact ⟨_, rfl, fun h => absurd trivial h⟩

theorem exec_setEx (s : Store) (i : Nat) {ch : Choice} (hch : ¬ ch.Faulty) (key value : String) :
    s.exec i ch (.setEx key value 86400) = some (.ok (), s.keep key value) := by
  cases ch with
  | fail msg => exact absurd trivial hch
  | lost msg => exact absurd trivial hch
  | serve => rfl
  | page next fields => rfl
  | raw raw => rfl

theorem Readable.live {s : Store} (h : Readable x key s) (hlive : (s.live key).isSome = true) :
    ∃ value user, s.live key = some value ∧ x.fromJson value = .ok user := by
  obtain ⟨value, hvalue⟩ := Option.isSome_iff_exists.mp hlive
  have hstored : ∃ expiry, s.strings key = some (value, expiry) := by
    unfold Store.live at hvalue
    split at hvalue
    next stored expiry hstored =>
      split at hvalue
      · cases hvalue
        exact ⟨expiry, hstored⟩
      · cases hvalue
    next => cases hvalue
  obtain ⟨expiry, hstored⟩ := hstored
  obtain ⟨user, huser⟩ := h value expiry hstored
  exact ⟨value, user, hvalue, huser⟩

theorem next_login {i : Fin n} {ch : Choice} {c : Call} {k : Except Err c.Reply → Login}
    {r : Except Err c.Reply} {s : Store} (hprog : pool.prog i = .call c k)
    (hexec : pool.state.exec i ch c = some (r, s)) :
    next self pool (.login i ch) = ⟨Function.update pool.prog i (k r), s⟩ := by
  change pool.step (fun i ch c s => s.exec i.val ch c) (i, ch) = _
  exact Pool.step_call hprog hexec

theorem next_finished {i : Fin n} {ch : Choice} (h : (pool.prog i).Finished) :
    next self pool (.login i ch) = pool := by
  change pool.step (fun i ch c s => s.exec i.val ch c) (i, ch) = _
  exact Pool.step_finished h

theorem HasToken.finished (h : HasToken p) : p.Finished := by
  cases p with
  | ret a => trivial
  | fail e => trivial
  | call c k => exact absurd h id

theorem AlreadyIn.finished (h : AlreadyIn p) : p.Finished := by
  cases p with
  | ret a => trivial
  | fail e => trivial
  | call c k => exact absurd h id

theorem Sound.login (h : Sound x key username row pool) (i : Fin n) (ch : Choice)
    (horderly : Orderly pool (.login i ch)) :
    Sound x key username row (next self pool (.login i ch)) := by
  have kept : pool.state.Kept pool.state := .refl h.quiet
  simp only [Orderly, Admitted] at horderly
  cases h.stage i with
  | fetching hstage =>
    obtain ⟨k, hprog, hlook⟩ := hstage
    rw [hprog] at horderly
    have heval : Stmt.eval pool.state.seq (.user username) pool.state.db =
        .ok (some row, []) := by rw [← h.found]; rfl
    have hname : row.username.val = username := by simpa using List.find?_some h.found
    have hserved := Store.not_refuses horderly (q := .user username)
      (List.forall_mem_singleton.mpr (hname ▸ row.username.storable))
    rw [next_login hprog (Store.exec_select h.quiet i hserved heval rfl)]
    have hidle := hlook.not_active
    exact h.goOn kept rfl (.looking hlook) (fun ht => hidle (.inr ht)) fun ha => absurd ha hidle
  | looking hstage =>
    obtain ⟨k, hprog, hcases, hsome⟩ := hstage
    rw [hprog] at horderly
    obtain ⟨hnone, hread⟩ := horderly
    obtain ⟨r, hexec, hr⟩ := exec_get pool.state i ch key
    rw [next_login hprog hexec]
    have refused (hr : AlreadyIn (k r)) : Sound x key username row
        ⟨Function.update pool.prog i (k r), pool.state⟩ :=
      h.goOn kept rfl (.refused hr) (fun ht => hr.not_active (.inr ht))
        fun ha => absurd ha hr.not_active
    by_cases htoken : ∃ j, HasToken (pool.prog j)
    · obtain ⟨j, hj⟩ := htoken
      obtain ⟨value, user, hvalue, huser⟩ := (h.readable j hj).live (h.live j hj)
      refine refused ?_
      rw [hr (hread (h.live j hj)), hvalue]
      exact hsome value user huser
    · rcases hcases r with hdraw | hr
      · refine h.goOn kept rfl (.drawing hdraw) ?_ fun _ j _ hj => ?_
        · exact hdraw.entering.not_hasToken
        · exact hj.elim (hnone j) fun ht => htoken ⟨j, ht⟩
      · exact refused hr
  | drawing hstage =>
    have hself : Active (pool.prog i) := .inl hstage.entering
    obtain ⟨k, hprog, htiming⟩ := hstage
    have hexec : pool.state.exec i ch .newV4 =
        some (.ok (pool.state.supply pool.state.drawn), pool.state.drew) := rfl
    rw [next_login hprog hexec]
    exact h.goOn (Store.kept_drew h.quiet) rfl (.timing (htiming _))
      (htiming _).entering.not_hasToken fun _ j hj ha => hj (h.unique j i ha hself)
  | timing hstage =>
    have hself : Active (pool.prog i) := .inl hstage.entering
    obtain ⟨k, hprog, hstoring⟩ := hstage
    have hexec : pool.state.exec i ch .now = some (.ok pool.state.clock, pool.state) := rfl
    rw [next_login hprog hexec]
    exact h.goOn kept rfl (.storing (hstoring _)) (hstoring _).entering.not_hasToken
      fun _ j hj ha => hj (h.unique j i ha hself)
  | storing hstage =>
    have hself : Active (pool.prog i) := .inl hstage.entering
    obtain ⟨value, user, k, hprog, huser, htoken⟩ := hstage
    rw [hprog] at horderly
    rw [next_login hprog (exec_setEx pool.state i horderly key value)]
    refine h.update h.quiet rfl (.done htoken) (fun _ j hj ha => hj (h.unique j i ha hself))
      (fun _ stored expiry hstored => ?_) fun _ => ?_
    · rw [Store.keep_strings_self] at hstored
      cases hstored
      exact ⟨user, huser⟩
    · have hnow : (pool.state.keep key value).clock < pool.state.clock + 86400 :=
        Int.lt_add_of_pos_right _ (by decide)
      simp only [Store.live, Store.keep_strings_self]
      rw [if_pos hnow]
      rfl
  | done hstage =>
    rw [next_finished hstage.finished]
    exact h
  | refused hstage =>
    rw [next_finished hstage.finished]
    exact h

theorem Readable.of_strings {s s' : Store} (h : Readable x key s)
    (hstrings : s'.strings key = s.strings key ∨ s'.strings key = none) : Readable x key s' := by
  intro value expiry hvalue
  rcases hstrings with hsame | hnone
  · exact h value expiry (hsame ▸ hvalue)
  · cases hnone.symm.trans hvalue

theorem Sound.beside (h : Sound x key username row pool) {s : Store} (hq : s.pg.Quiet)
    (husers : s.db.users = pool.state.db.users)
    (hstrings : s.strings key = pool.state.strings key ∨ s.strings key = none)
    (hlive : (∃ i, HasToken (pool.prog i)) → (s.live key).isSome = true) :
    Sound x key username row ⟨pool.prog, s⟩ :=
  ⟨hq, husers ▸ h.found, h.stage, h.unique, fun i hi => (h.readable i hi).of_strings hstrings,
    fun i hi => hlive ⟨i, hi⟩⟩

theorem Sound.next (h : Sound x key username row pool) (e : Event n) (horderly : Orderly pool e)
    (hlasting : Lasting self key pool e) : Sound x key username row (next self pool e) := by
  cases e with
  | login i ch => exact h.login i ch horderly
  | tick seconds => exact h.beside h.quiet rfl (.inl rfl) hlasting
  | logout req script =>
    have hlogout := self.userLogout_ends script h.quiet req
    rcases hlogout with ⟨hkept, -⟩ | ⟨-, openid, -, -, hforget⟩
    · exact h.beside hkept.quiet hkept.users (.inl (congrFun hkept.strings key)) hlasting
    · rw [SingleLogin.next]
      refine h.beside ?_ ?_ ?_ hlasting
      · rw [hforget]
        exact h.quiet
      · rw [hforget]
        rfl
      · rw [hforget]
        by_cases hkey : key = sessionKey openid
        · exact .inr (hkey ▸ Function.update_self ..)
        · exact .inl (Function.update_of_ne hkey ..)

theorem Sound.single (h : Sound x key username row pool) : Single pool := by
  refine ⟨fun i j hi hj => h.unique i j (.inr hi) (.inr hj), fun i hi => ?_⟩
  cases h.stage i with
  | done hstage => exact .inl hstage
  | refused hstage => exact .inr hstage
  | fetching hstage =>
    obtain ⟨k, hprog, -⟩ := hstage
    exact absurd (hprog ▸ hi) (Prog.not_finished_call _ k)
  | looking hstage =>
    obtain ⟨k, hprog, -⟩ := hstage
    exact absurd (hprog ▸ hi) (Prog.not_finished_call _ k)
  | drawing hstage =>
    obtain ⟨k, hprog, -⟩ := hstage
    exact absurd (hprog ▸ hi) (Prog.not_finished_call _ k)
  | timing hstage =>
    obtain ⟨k, hprog, -⟩ := hstage
    exact absurd (hprog ▸ hi) (Prog.not_finished_call _ k)
  | storing hstage =>
    obtain ⟨value, user, k, hprog, -⟩ := hstage
    exact absurd (hprog ▸ hi) (Prog.not_finished_call _ k)

theorem Sound.start (ht : Total self) {s : Store} (hq : s.pg.Quiet)
    (hfound : s.db.users.find? (·.username.val = username) = some row)
    {req : Fin n → UserLoginRequest} (hreq : ∀ i, (req i).username = username ∧
      row.password.val = self.crates.md5 (req i).password) :
    Sound self.crates (sessionKey row.openid.val) username row (start self req s) := by
  have hstage (i : Fin n) : Fetching self.crates (sessionKey row.openid.val) username row
      (self.userLogin (req i)) := (hreq i).1 ▸ fetching_start ht (hreq i).2
  have hidle (i : Fin n) : ¬ Active (self.userLogin (req i)) := by
    obtain ⟨k, hprog, -⟩ := hstage i
    rw [hprog]
    exact fun ha => ha.elim id id
  exact ⟨hq, hfound, fun i => .fetching (hstage i), fun i _ hi _ => absurd hi (hidle i),
    fun i hi => absurd (.inr hi) (hidle i), fun i hi => absurd (.inr hi) (hidle i)⟩

/-- While a session lasts, at most one of the logins of a user has a token, when no login looks for
a session while another one is entering. -/
theorem single_login (ht : Total self) {s : Store} (hq : s.pg.Quiet)
    (hfound : s.db.users.find? (·.username.val = username) = some row)
    {req : Fin n → UserLoginRequest} (hreq : ∀ i, (req i).username = username ∧
      row.password.val = self.crates.md5 (req i).password) {evs : List (Event n)}
    (hlasting : Runs.Always (next self) (Lasting self (sessionKey row.openid.val))
      (start self req s) evs)
    (horderly : Runs.Always (next self) Orderly (start self req s) evs) :
    Runs.Always (next self) (fun pool e => Single (next self pool e)) (start self req s) evs :=
  (hlasting.and horderly).of_invariant
    (I := Sound self.crates (sessionKey row.openid.val) username row)
    (fun _ e h he => h.next e he.2 he.1) (fun _ e h he => (h.next e he.2 he.1).single)
    (.start ht hq hfound hreq)

/-! Two logins of one user, with the key of `app.yaml`. -/

def alice : UserRow :=
  ⟨1, ⟨"alice", by decide, by decide⟩,
    ⟨"2304d4770a72d09106045fea654c4188", by decide, by decide⟩,
    ⟨Revocation.openid, by decide, by decide⟩, 1785000000⟩

def registered : Store :=
  { Store.empty 1 1785000000 fun n =>
      BitVec.ofNat 128 (0x5f0c1d2e3a4b4c5d8e6f708192a3b401 + n) with
    pg := ⟨{ Db.empty with users := [alice] }, 1, fun _ => none⟩ }

def request : Fin 2 → UserLoginRequest := fun _ => ⟨"alice", "secret-password"⟩

def crates : Crates :=
  { Revocation.crates with
    ciphers := { Revocation.crates.ciphers with
      encryptPadded := fun size key iv data =>
        .ok ((Revocation.crates.ciphers.encryptPadded size key iv data).toOption.getD data) }
    toJson := fun user => .ok ((Revocation.crates.toJson user).toOption.getD "null")
    fromJson := fun value =>
      .ok ((Revocation.crates.fromJson value).toOption.getD ⟨0, "", "", "", ""⟩) }

def svc : QaServiceImpl := .configured crates

theorem total_svc : Total svc := ⟨fun _ => ⟨_, rfl⟩, fun _ => ⟨_, _, rfl, rfl⟩⟩

def served (i : Fin 2) (calls : Nat) : List (Event 2) := List.replicate calls (.login i .serve)

def inTurn : List (Event 2) := served 1 1 ++ served 0 5 ++ [.tick 60] ++ served 1 1

theorem single_login_inTurn : Runs.Always (next svc) (fun pool e => Single (next svc pool e))
    (start svc request registered) inTurn :=
  single_login total_svc (fun _ => rfl) rfl (fun _ => ⟨rfl, rfl⟩) (by decide +kernel)
    (by decide +kernel)

def racing : List (Event 2) :=
  served 0 2 ++ served 1 2 ++ served 0 3 ++ served 1 1 ++ [.tick 60] ++ served 1 2

theorem racing_twoTokens :
    let pool := Runs.after (next Revocation.svc) (start Revocation.svc request registered) racing
    Runs.Always (next Revocation.svc) (Lasting Revocation.svc (sessionKey Revocation.openid))
      (start Revocation.svc request registered) racing ∧
    HasToken (pool.prog 0) ∧ HasToken (pool.prog 1) := by
  decide +kernel

end QaSys.SingleLogin
