import QaSys.Gateway.Conduct

/-! For whom the gateway acts: the user whose login handed out the token of the request. -/

namespace QaSys

theorem Backend.Sound.openids_nodup {svc : QaServiceImpl} {b : Backend} (h : b.Sound svc)
    (hd : b.store.Distinct) : (b.store.db.users.map (·.openid.val)).Nodup := by
  obtain ⟨ks, hnodup, hlt, hks⟩ := h.openids
  rw [hks]
  refine hnodup.map_on fun i hi j hj heq => ?_
  exact hd i (hlt i hi) j (hlt j hj) (Uuid.simple_injective heq)

theorem Backend.Sound.same_user {svc : QaServiceImpl} {b : Backend} (h : b.Sound svc)
    (hd : b.store.Distinct) {i j : Issue} (hi : i ∈ b.issued) (hj : j ∈ b.issued)
    (hopenid : i.openid = j.openid) : i.username = j.username := by
  obtain ⟨row, hrow, hname, hid, -⟩ := h.user i hi
  obtain ⟨row', hrow', hname', hid', -⟩ := h.user j hj
  have hsame : row = row' := List.inj_on_of_nodup_map (h.openids_nodup hd) hrow hrow'
    (hid.trans (hopenid.trans hid'.symm))
  rw [← hname, ← hname', hsame]

namespace Gateway

open Prog Runs Backend

/-- In `b` the token was handed out by a login of the user with their password, it has not expired,
and a session of the user is live. -/
def LoggedIn (svc : QaServiceImpl) (b : Backend) (token u : String) : Prop :=
  ∃ i ∈ b.issued, i.token = token ∧ i.username = u ∧ b.store.clock < i.expiry ∧
    (∃ value, b.store.live i.key = some value) ∧
    ∃ row ∈ b.store.db.users, row.username.val = u ∧ row.openid.val = i.openid ∧
      row.password.val = svc.crates.md5 i.password

/-- The exchange was let pass as the user by a verification that saw the user logged in with the
token of the request. -/
def Identified (svc : QaServiceImpl) (e : Exchanged) (u : String) : Prop :=
  ∃ entry ∈ e.past, ∃ token id verification, entry.answered =
      ⟨.timeout (.verifyToken ⟨token, id⟩), .ok (some (.ok verification))⟩ ∧
    Router.authenticatedUsername verification = .ok u ∧
    authorizationToken e.request.headers = .ok token ∧ LoggedIn svc entry.state token u

/-- `verify_token` has passed the request on to the handlers. -/
def Admitted (e : Exchanged) (principal : Option AuthenticatedPrincipal) : Prop :=
  ∃ before, before <+: e.answers ∧ (verifyToken e.request pure).Reaches before (.ret principal)

/-- The exchange is with the handlers or has been: its program is what they leave to do after some
answers, whoever they were run for. -/
def Handled (x : Formats) (e : Exchanged) : Prop :=
  ∃ principal before rest, e.answers = before ++ rest ∧
    (handling x principal e.request).Reaches rest e.prog

/-- The gateway calls the service for the user of the token only, and on a path that is not public
no handler is reached without one. -/
structure Authentic (svc : QaServiceImpl) (x : Formats) (e : Exchanged) : Prop where
  acting : ∀ call c u, e.prog.calling = some call → call.service = some c → c.actor = some u →
    Identified svc e u
  admitted : isPublicPath e.request.path = false → ∀ principal, Admitted e principal →
    ∃ p, principal = some p ∧ Identified svc e p.username
  handled : isPublicPath e.request.path = false → Handled x e → ∃ u, Identified svc e u

/-- The token of the verification that comes next when it is the turn of an exchange. -/
def presented (s : System) : Event → Option String
  | .call i _ => match s.exchanges[i]? with
    | some ⟨_, _, .call (.timeout (.verifyToken req)) _⟩ => some req.token
    | _ => none
  | _ => none

section

variable (svc : QaServiceImpl)

def Unforged (b : Backend) (token : String) : Prop :=
  (svc.aesCrypto.decrypt svc.crates.ciphers token).isOk = true → ∃ i ∈ b.issued, i.token = token

/-- The identifiers are distinct, a token that decrypts was handed out by a login, and what is found
in place of a stored session is no session. -/
def Assumed (s : System) (e : Event) : Prop :=
  s.state.store.Distinct ∧ (∀ token ∈ presented s e, Unforged svc s.state token) ∧
    ∀ ch ∈ e.script, ch.NoSession svc.crates

instance (b : Backend) (token : String) : Decidable (Unforged svc b token) :=
  inferInstanceAs (Decidable (_ → _))

instance (s : System) (e : Event) : Decidable (Assumed svc s e) :=
  inferInstanceAs (Decidable (_ ∧ _ ∧ _))

structure Answering (entry : Made) : Prop where
  sound : entry.state.Sound svc
  noSession : ∀ ch ∈ entry.choice.script, ch.NoSession svc.crates
  answer : ∃ b, serve svc entry.choice entry.answered.call entry.state =
    some (entry.answered.answer, b)

structure Vouched (entry : Made) : Prop extends Answering svc entry where
  distinct : entry.state.store.Distinct
  unforged : ∀ req, entry.answered.call = .timeout (.verifyToken req) →
    Unforged svc entry.state req.token

variable {svc} {x : Formats} {s : System} {b : Backend} {script : List Choice}

theorem authenticatedUsername_eq_ok {res : Pb.VerifyTokenResponse} {u : String}
    (h : Router.authenticatedUsername res = .ok u) :
    res.state = 1 ∧ res.username ≠ "" ∧ res.username = u := by
  unfold Router.authenticatedUsername at h
  split at h
  next => cases h
  next hno =>
    cases h
    simp only [not_or, not_not, gt_iff_lt, not_lt, String.isEmpty_iff] at hno
    exact ⟨hno.1, hno.2.1, rfl⟩

theorem session_of_reply (h : b.Sound svc) {token id u : String}
    (hno : ∀ ch ∈ script, ch.NoSession svc.crates) {res : Pb.VerifyTokenResponse}
    (hreply : b.reply svc script (.verifyToken ⟨token, id⟩) = .ok (.ok res))
    (hu : Router.authenticatedUsername res = .ok u) : ∃ openid, ∃ j ∈ b.issued,
      svc.Valid b.store.clock token openid ∧ j.openid = openid ∧ j.username = u ∧
      ∃ value, b.store.live (QaServiceImpl.sessionKey openid) = some value := by
  obtain ⟨hstate, hname, rfl⟩ := authenticatedUsername_eq_ok hu
  obtain ⟨openid, value, user, hvalid, hjson, hvalue, huser⟩ :=
    QaServiceImpl.verifyToken_ends svc script ⟨token, id⟩ res hreply hstate hname
  have hlive : b.store.live (QaServiceImpl.sessionKey openid) = some value := by
    refine hvalue.resolve_right fun hraw => ?_
    have hraw : (svc.crates.fromJson value).isOk = false := hno _ hraw
    rw [hjson] at hraw
    cases hraw
  obtain ⟨j, hj, -, hkey, -, user', hjson', huser'⟩ := h.live_session hlive
  have hsame : user = user' := Except.ok.inj (hjson.symm.trans hjson')
  exact ⟨openid, j, hj, hvalid, QaServiceImpl.sessionKey_injective hkey,
    huser'.symm.trans (hsame ▸ huser), value, hlive⟩

theorem loggedIn_of_reply (h : b.Sound svc) (hd : b.store.Distinct) {token id u : String}
    (hun : Unforged svc b token) (hno : ∀ ch ∈ script, ch.NoSession svc.crates)
    {res : Pb.VerifyTokenResponse}
    (hreply : b.reply svc script (.verifyToken ⟨token, id⟩) = .ok (.ok res))
    (hu : Router.authenticatedUsername res = .ok u) : LoggedIn svc b token u := by
  obtain ⟨openid, j, hj, hvalid, hopenid, hname, value, hlive⟩ := session_of_reply h hno hreply hu
  obtain ⟨i, hi, rfl⟩ : ∃ i ∈ b.issued, i.token = token := by
    obtain ⟨text, -, -, -, hdec, -⟩ := hvalid
    exact hun (by rw [hdec]; rfl)
  obtain ⟨rfl, hlt⟩ := h.valid_token hi hvalid
  have hname : i.username = u := (h.same_user hd hi hj hopenid.symm).trans hname
  obtain ⟨row, hrow, hrowname, hrest⟩ := h.user i hi
  exact ⟨i, hi, rfl, hname, hlt, ⟨value, hlive⟩, row, hrow, hrowname.trans hname, hrest⟩

theorem reply_of_serve {fate : Fate} {req : Pb.VerifyTokenRequest} {res : Pb.VerifyTokenResponse}
    {b' : Backend} (h : serve svc fate (.timeout (.verifyToken req)) b =
      some (.ok (some (.ok res)), b')) :
    b.reply svc fate.script (.verifyToken req) = .ok (.ok res) := by
  cases fate with
  | served script broken =>
    have hr : replied broken (b.reply svc script (.verifyToken req)) = .ok res := by
      simpa [serve, answer] using congrArg (Option.map Prod.fst) h
    cases hreply : b.reply svc script (.verifyToken req) with
    | error e => rw [hreply] at hr; cases hr
    | ok r =>
      rw [hreply] at hr
      exact hreply.trans (congrArg Except.ok hr)
  | uuid id => cases h
  | lost script status => cases h
  | refused status => cases h
  | late script => cases h

theorem verification_of_verified (svc : QaServiceImpl) {e : Exchanged} {p : AuthenticatedPrincipal}
    (hv : Verified e.request e.answers p) : ∃ entry ∈ e.past, ∃ id verification,
      entry.answered =
        ⟨.timeout (.verifyToken ⟨p.token, id⟩), .ok (some (.ok verification))⟩ ∧
      Router.authenticatedUsername verification = .ok p.username ∧
      (Answering svc entry →
        entry.state.reply svc entry.choice.script (.verifyToken ⟨p.token, id⟩) =
          .ok (.ok verification)) := by
  obtain ⟨id, verification, hseen, -, hname⟩ := hv
  obtain ⟨entry, hentry, hanswered⟩ := List.mem_map.mp
    (hseen.subset (List.mem_cons_of_mem _ (List.mem_singleton_self _)))
  refine ⟨entry, hentry, id.simple, verification, hanswered, hname, fun ha => ?_⟩
  obtain ⟨b, hserve⟩ := ha.answer
  obtain ⟨state, fate, answered⟩ := entry
  dsimp only at hanswered hserve
  subst hanswered
  exact reply_of_serve hserve

theorem identified {e : Exchanged} (ht : Server.Traced (app x) (Vouched svc) e)
    {p : AuthenticatedPrincipal} (hv : Verified e.request e.answers p) :
    Identified svc e p.username := by
  obtain ⟨entry, hentry, id, verification, hanswered, hname, hreply⟩ :=
    verification_of_verified svc hv
  have ha := ht.past entry hentry
  obtain ⟨-, -, -, htoken, -⟩ := hv
  refine ⟨entry, hentry, p.token, id, verification, hanswered, hname, htoken, ?_⟩
  exact loggedIn_of_reply ha.sound ha.distinct (ha.unforged _ (by rw [hanswered])) ha.noSession
    (hreply ha.toAnswering) hname

theorem passed_of_handled {J : Made → Prop} {e : Exchanged} (ht : Server.Traced (app x) J e)
    (h : Handled x e) : ∃ principal, Passed e.request e.answers principal := by
  obtain ⟨principal, before, rest, -, hreaches⟩ := h
  have hheeds := (app_heeds x e.request).reaches ht.reaches
  have hheaded := handling_headed.reaches hreaches
  have hwithin := (within_handling.reaches hreaches).2
  cases hprog : e.prog with
  | ret response =>
    rw [hprog] at hheeds hheaded
    exact hheeds.resolve_right hheaded
  | fail error =>
    rw [hprog] at hheaded
    exact hheaded.elim
  | call call k =>
    rw [hprog] at hheeds hwithin
    cases call with
    | rpc c =>
      obtain ⟨principal', hpassed, -⟩ := hheeds.1
      exact ⟨principal', hpassed⟩
    | timeout c => exact hwithin.1.elim
    | newV4 => exact hwithin.1.elim

theorem authentic {e : Exchanged} (ht : Server.Traced (app x) (Vouched svc) e) :
    Authentic svc x e := by
  refine ⟨fun call c u hcalling hc hu => ?_, fun hpath principal hadmitted => ?_,
    fun hpath hhandled => ?_⟩
  · obtain ⟨k, hprog⟩ := calling_eq_some hcalling
    have hheeds := (app_heeds x e.request).reaches ht.reaches
    rw [hprog] at hheeds
    have hpermitted := hheeds.1
    cases call with
    | newV4 => cases hc
    | timeout c' =>
      cases hc
      obtain ⟨token, id, rfl⟩ := hpermitted
      cases hu
    | rpc c' =>
      cases hc
      obtain ⟨principal, hpassed, hacts, -⟩ := hpermitted
      obtain ⟨p, rfl, rfl⟩ := hacts u hu
      exact identified ht hpassed
  · obtain ⟨before, hbefore, hreaches⟩ := hadmitted
    have hpassed := (verifyToken_passes e.request).reaches hreaches principal rfl
    cases principal with
    | none => exact absurd (hpath.symm.trans hpassed) Bool.false_ne_true
    | some p => exact ⟨p, rfl, identified ht (Passed.mono hpassed hbefore)⟩
  · obtain ⟨principal, hpassed⟩ := passed_of_handled ht hhandled
    cases principal with
    | none => exact absurd (hpath.symm.trans hpassed) Bool.false_ne_true
    | some p => exact ⟨p.username, identified ht hpassed⟩

structure Conducted (svc : QaServiceImpl) (x : Formats) (s : System) : Prop where
  sound : s.state.Sound svc
  traced : ∀ e ∈ s.exchanges, Server.Traced (app x) (Vouched svc) e

theorem Conducted.start (h : b.Sound svc) : Conducted svc x (start b) := ⟨h, nofun⟩

theorem Conducted.next (hx : svc.crates.Lawful) (h : Conducted svc x s) {e : Event}
    (ha : Assumed svc s e) : Conducted svc x (next svc x s e) := by
  refine ⟨sound_next hx h.sound e, Server.traced_step h.traced e ?_⟩
  rintro i fate d c k r b rfl hans
  refine ⟨⟨h.sound, ha.2.2, b, hans.answer⟩, ha.1, ?_⟩
  rintro req rfl
  refine ha.2.1 req.token ?_
  obtain ⟨request, past, prog⟩ := d
  have hprog : prog = .call (.timeout (.verifyToken req)) k := hans.prog
  simp only [presented, hans.exchange, hprog]
  rfl

end

/-! The service with the tokens of two users, and the gateway on some bodies. -/

def tokens : List (String × ByteArray × String) := Revocation.tokens ++ [
  ("5f0c1d2e3a4b4c5d8e6f708192a3b403:5f0c1d2e3a4b4c5d8e6f708192a3b402:1785086400",
    ⟨#[69, 64, 29, 175, 100, 44, 44, 75, 56, 63, 157, 153, 245, 111, 86, 51, 187, 30, 31, 66,
      156, 182, 180, 243, 110, 23, 115, 107, 126, 59, 21, 102, 10, 165, 161, 169, 112, 130, 217, 160,
      235, 177, 39, 113, 170, 107, 6, 6, 34, 194, 39, 217, 205, 210, 58, 158, 105, 244, 110, 220,
      144, 230, 147, 194, 151, 151, 73, 122, 95, 239, 168, 163, 174, 93, 255, 8, 170, 144, 110, 181]⟩,
    "RUAdr2QsLEs4P52Z9W9WM7seH0KctrTzbhdza347FWYKpaGpcILZoOuxJ3GqawYGIsIn2c3SOp5p9G7ckOaTwpeXSXpf76ijrl3/CKqQbrU=")]

def longName : String := "用户用户用户用户用户用户用户用户用户用户用户"

def sessions : List (UserSessionEntity × String) := [
  (⟨1, "alice", "5f0c1d2e3a4b4c5d8e6f708192a3b400", "2026-07-25 17:20:00", "2026-07-26 17:20:00"⟩,
    "\x7b\"uid\":1,\"username\":\"alice\",\"openid\":\"5f0c1d2e3a4b4c5d8e6f708192a3b400\",\"login_time\":\"2026-07-25 17:20:00\",\"expire_time\":\"2026-07-26 17:20:00\"\x7d"),
  (⟨2, "bob", "5f0c1d2e3a4b4c5d8e6f708192a3b402", "2026-07-25 17:20:00", "2026-07-26 17:20:00"⟩,
    "\x7b\"uid\":2,\"username\":\"bob\",\"openid\":\"5f0c1d2e3a4b4c5d8e6f708192a3b402\",\"login_time\":\"2026-07-25 17:20:00\",\"expire_time\":\"2026-07-26 17:20:00\"\x7d"),
  (⟨1, longName, "5f0c1d2e3a4b4c5d8e6f708192a3b400", "2026-07-25 17:20:00", "2026-07-26 17:20:00"⟩,
    "\x7b\"uid\":1,\"username\":\"用户用户用户用户用户用户用户用户用户用户用户\",\"openid\":\"5f0c1d2e3a4b4c5d8e6f708192a3b400\",\"login_time\":\"2026-07-25 17:20:00\",\"expire_time\":\"2026-07-26 17:20:00\"\x7d")]

def crates : Crates := .tabulated tokens sessions Revocation.crates.md5 Revocation.crates.format

theorem crates_lawful : crates.Lawful :=
  Crates.lawful_tabulated
    (Ciphers.lawful_tabulated (by decide +kernel) (by decide +kernel) (by decide +kernel))
    (by decide +kernel)

def svc : QaServiceImpl := .configured crates

def bytes (text : String) : List UInt8 := text.toUTF8.data.toList

def registrations : List (String × RegisterRequest) := [
  ("\x7b\"username\":\"alice\",\"password\":\"secret-password\",\"email\":\"alice@example.com\",\"phone\":\"12345678\"\x7d",
    ⟨"alice", "secret-password", "alice@example.com", "12345678"⟩),
  ("\x7b\"username\":\"bob\",\"password\":\"secret-password\",\"email\":\"bob@example.com\",\"phone\":\"12345678\"\x7d",
    ⟨"bob", "secret-password", "bob@example.com", "12345678"⟩),
  ("\x7b\"username\":\"用户用户用户用户用户用户用户用户用户用户用户\",\"password\":\"secret-password\",\"email\":\"user@example.com\",\"phone\":\"12345678\"\x7d",
    ⟨longName, "secret-password", "user@example.com", "12345678"⟩)]

def logins : List (String × LoginRequest) := [
  ("\x7b\"username\":\"alice\",\"password\":\"secret-password\"\x7d", ⟨"alice", "secret-password"⟩),
  ("\x7b\"username\":\"bob\",\"password\":\"secret-password\"\x7d", ⟨"bob", "secret-password"⟩),
  ("\x7b\"username\":\"用户用户用户用户用户用户用户用户用户用户用户\",\"password\":\"secret-password\"\x7d",
    ⟨longName, "secret-password"⟩)]

def additions : List (String × AddQuestRequest) := [
  ("\x7b\"title\":\"title\",\"content\":\"content\",\"username\":\"alice\"\x7d",
    ⟨"title", "content", "alice"⟩)]

def updates : List (String × UpdateQuestRequest) := [
  ("\x7b\"id\":1,\"question\":\x7b\"id\":1,\"title\":\"other\",\"content\":\"words\",\"created_by\":\"alice\",\"updated_by\":\"bob\",\"created_at\":\"1970-01-01T00:00:00\",\"updated_at\":null,\"read_count\":0,\"reply_count\":0\x7d\x7d",
    ⟨1, { id := 1, title := "other", content := "words", createdBy := "alice", updatedBy := "bob" }⟩),
  ("\x7b\"id\":1,\"question\":\x7b\"id\":1,\"title\":\"\",\"content\":\"\",\"created_by\":\"alice\",\"updated_by\":\"alice\",\"created_at\":\"1970-01-01T00:00:00\",\"updated_at\":null,\"read_count\":0,\"reply_count\":0\x7d\x7d",
    ⟨1, { id := 1, createdBy := "alice", updatedBy := "alice" }⟩)]

def formats : Formats where
  json e req := match e with
    | .userRegister => (registrations.find? (bytes ·.1 = req.body)).map (·.2)
    | .userLogin => (logins.find? (bytes ·.1 = req.body)).map (·.2)
    | .questionAdd => (additions.find? (bytes ·.1 = req.body)).map (·.2)
    | .questionUpdate => (updates.find? (bytes ·.1 = req.body)).map (·.2)
    | _ => none
  form _ _ := none
  validEmail email := Text.contains email "@"
  display errors := "\n".intercalate (errors.map fun e => e.1 ++ ": " ++ ", ".intercalate e.2)

def token (n : Nat) : String := (tokens.map (·.2.2)).getD n ""

def json : String × HeaderValue := ("content-type", bytes "application/json")

def posted (path : String) (body : List UInt8) : Request := ⟨.post, path, [json], body⟩

def postedAs (token path : String) (body : List UInt8) : Request :=
  ⟨.post, path, [json, ("authorization", bytes s!"Bearer {token}")], body⟩

def registration (n : Nat) : Request :=
  posted "/api/user/register" (bytes ((registrations.map (·.1)).getD n ""))

def login (n : Nat) : Request :=
  posted "/api/user/login" (bytes ((logins.map (·.1)).getD n ""))

def addition (token : String) (n : Nat) : Request :=
  postedAs token "/api/question/add" (bytes ((additions.map (·.1)).getD n ""))

def update (token : String) (n : Nat) : Request :=
  postedAs token "/api/question/update" (bytes ((updates.map (·.1)).getD n ""))

def ok : Fate := .served [] ⟨.unknown, ""⟩

def openly (i : Nat) (request : Request) : List Event := [.arrive request, .call i ok]

/-- A request with a token, the `i`-th of the run, up to the call of its handler. -/
def verified (i : Nat) (request : Request) : List Event :=
  [.arrive request, .call i (.uuid 0), .call i ok]

def through (i : Nat) (request : Request) : List Event := verified i request ++ [.call i ok]

def origin : Backend := .empty (.empty 1 1785000000 fun n =>
  BitVec.ofNat 128 (0x5f0c1d2e3a4b4c5d8e6f708192a3b400 + n))

def asking : List Event :=
  openly 0 (registration 0) ++ openly 1 (login 0) ++ through 2 (addition (token 0) 0)

def edited : List Event := asking ++ openly 3 (registration 1) ++ openly 4 (login 1) ++
  through 5 (update (token 3) 0)

def asked : List Event :=
  openly 0 (registration 0) ++ openly 1 (login 0) ++ verified 2 (addition (token 0) 0)

end Gateway

end QaSys
