import QaSys.Auth.Sessions
import QaSys.Auth.Tabulated
import QaSys.Program.Runs

/-! Which tokens still verify after logouts and new logins, and which sessions a logout ends. -/

namespace QaSys

namespace Backend

def tick (b : Backend) (seconds : Nat) : Backend :=
  { b with store := { b.store with clock := b.store.clock + seconds } }

theorem Sound.tick {self : QaServiceImpl} {b : Backend} (h : Sound self b) (seconds : Nat) :
    Sound self (b.tick seconds) := ⟨h.quiet, h.openids, h.user, h.token, h.session⟩

end Backend

theorem Store.live_tick {s : Store} {key : String} {seconds : Nat} (h : s.live key = none) :
    ({ s with clock := s.clock + seconds } : Store).live key = none := by
  unfold Store.live at h ⊢
  dsimp only
  cases hs : s.strings key with
  | none => rfl
  | some entry =>
    obtain ⟨value, expiry⟩ := entry
    rw [hs] at h
    dsimp only at h ⊢
    by_cases hlt : s.clock < expiry
    · rw [if_pos hlt] at h
      cases h
    · exact if_neg (by omega)

theorem mem_revoke {b : Backend} {t token : String} (h : t ∈ b.revoke token) :
    t ∈ b.revoked ∨ t = token ∧ ∃ i ∈ b.issued, i.token = t := by
  unfold Backend.revoke at h
  split at h
  next hany =>
    rcases List.mem_append.mp h with h | h
    · exact .inl h
    · rw [List.mem_singleton.mp h]
      exact .inr ⟨rfl, by simpa using hany⟩
  next => exact .inl h

namespace Revocation

open QaServiceImpl Backend Runs

inductive Event
  | tick (seconds : Nat)
  | rpc (c : Rpc) (script : List Choice)

def Event.script : Event → List Choice
  | .tick _ => []
  | .rpc _ script => script

variable {self : QaServiceImpl} {b b' : Backend} {c : Rpc} {script : List Choice}

section

variable (self : QaServiceImpl)

def next (b : Backend) : Event → Backend
  | .tick seconds => b.tick seconds
  | .rpc c script => b.call self script c

/-- The identifiers are distinct, and what is found in place of a stored session is no session. -/
def Assumed (b : Backend) (e : Event) : Prop :=
  (next self b e).store.Distinct ∧ ∀ ch ∈ e.script, ch.NoSession self.crates

instance (b : Backend) (e : Event) : Decidable (Assumed self b e) := by
  unfold Assumed
  infer_instance

/-- A login that goes through finds no token of its user that has not expired. -/
def AfterExpiry (b : Backend) : Event → Prop
  | .rpc (.userLogin req) script => ∀ row, self.Admits b.store script req row →
    ∀ i ∈ b.issued, i.openid = row.openid.val → i.expiry ≤ b.store.clock
  | _ => True

def LiveFor (b : Backend) (i : Issue) : Prop :=
  b.store.clock < i.expiry ∧ i.token ∉ b.revoked ∧
    ∃ value j, b.store.live i.key = some value ∧ b.creator i.key = some j ∧ j.token = i.token

def Revocable (b : Backend) : Event → Prop
  | .rpc (.verifyToken req) script => ∀ i ∈ b.issued, i.token = req.token →
    ∀ res, b.reply self script (.verifyToken req) = .ok (.ok res) → res.state = 1 →
      res.username ≠ "" → LiveFor b i
  | .rpc (.userLogout req) script => ∀ i ∈ b.issued, i.token = req.token →
    ∀ res, b.reply self script (.userLogout req) = .ok (.ok res) →
      ∀ key value, b.store.live key = some value →
        (b.call self script (.userLogout req)).store.live key = none →
        ∃ j, b.creator key = some j ∧ j.token = req.token
  | _ => True

end

/-- A user has one token that has not expired at most, and no session once it is logged out. -/
structure Single (svc : QaServiceImpl) (b : Backend) : Prop where
  sound : Sound svc b
  revoked : ∀ t ∈ b.revoked, ∃ i ∈ b.issued, i.token = t
  one : ∀ i ∈ b.issued, ∀ j ∈ b.issued, i.openid = j.openid → b.store.clock < i.expiry →
    b.store.clock < j.expiry → i.token = j.token
  gone : ∀ i ∈ b.issued, i.token ∈ b.revoked → b.store.clock < i.expiry →
    b.store.live i.key = none

namespace Single

theorem empty {size : Nat} {clock : Int} {supply : Nat → Uuid} :
    Single self (Backend.empty (Store.empty size clock supply)) :=
  ⟨.empty, nofun, nofun, nofun⟩

theorem creator_token (h : Single self b) {i : Issue} (hi : i ∈ b.issued)
    (hlt : b.store.clock < i.expiry) {value : String} (hlive : b.store.live i.key = some value) :
    ∃ j, b.creator i.key = some j ∧ j.token = i.token := by
  obtain ⟨j, hj, hc, hkey, hexp, -⟩ := h.sound.live_session hlive
  exact ⟨j, hc, h.one j hj i hi (sessionKey_injective hkey) hexp hlt⟩

theorem verified (h : Single self b) {req : Pb.VerifyTokenRequest}
    (ha : Assumed self b (.rpc (.verifyToken req) script)) :
    Revocable self b (.rpc (.verifyToken req) script) := by
  intro i hi htoken res hreply hstate hname
  obtain ⟨openid, value, user, hvalid, hjson, hvalue, -⟩ :=
    verifyToken_ends self script req res hreply hstate hname
  rw [← htoken] at hvalid
  obtain ⟨rfl, hlt⟩ := h.sound.valid_token hi hvalid
  have hlive : b.store.live i.key = some value := by
    refine hvalue.resolve_right fun hraw => ?_
    have hno : (self.crates.fromJson value).isOk = false := ha.2 _ hraw
    rw [hjson] at hno
    cases hno
  obtain ⟨j, hc, hj⟩ := h.creator_token hi hlt hlive
  refine ⟨hlt, fun hrev => ?_, value, j, hlive, hc, hj⟩
  rw [h.gone i hi hrev hlt] at hlive
  cases hlive

theorem loggedOut (h : Single self b) (req : Pb.UserLogoutRequest) :
    Revocable self b (.rpc (.userLogout req) script) := by
  intro i hi htoken res hreply key value hlive hended
  rcases userLogout_ends self script h.sound.quiet req with
    ⟨-, hnot⟩ | ⟨_, openid, -, hvalid, hstate⟩
  · exact absurd hreply (hnot res)
  rw [← htoken] at hvalid
  obtain ⟨rfl, hlt⟩ := h.sound.valid_token hi hvalid
  have hafter : (b.call self script (.userLogout req)).store = b.store.forget i.key :=
    call_store.trans hstate
  have hkey : key = i.key := by
    by_contra hne
    rw [hafter, Store.forget_live_of_ne hne, hlive] at hended
    cases hended
  rw [hkey] at hlive ⊢
  obtain ⟨j, hc, hj⟩ := h.creator_token hi hlt hlive
  exact ⟨j, hc, hj.trans htoken⟩

theorem revocable (h : Single self b) {e : Event} (ha : Assumed self b e) :
    Revocable self b e := by
  cases e with
  | tick seconds => trivial
  | rpc c script =>
    cases c with
    | verifyToken req => exact h.verified ha
    | userLogout req => exact h.loggedOut req
    | _ => trivial

theorem frame (h : Single self b) {store : Store} (hs : Sound self { b with store })
    (hstrings : store.strings = b.store.strings) (hclock : store.clock = b.store.clock) :
    Single self { b with store } := by
  refine ⟨hs, h.revoked, ?_, ?_⟩
  · rw [hclock]
    exact h.one
  · intro i hi hrev hlt
    rw [hclock] at hlt
    exact (Store.live_congr (congrFun hstrings _) hclock).trans (h.gone i hi hrev hlt)

theorem tick (h : Single self b) (seconds : Nat) : Single self (b.tick seconds) := by
  have earlier : ∀ {t : Int}, b.store.clock + seconds < t → b.store.clock < t := by omega
  refine ⟨h.sound.tick seconds, h.revoked, fun i hi j hj ho hlt hlt' =>
    h.one i hi j hj ho (earlier hlt) (earlier hlt'), fun i hi hrev hlt => ?_⟩
  exact Store.live_tick (h.gone i hi hrev (earlier hlt))

theorem fresh_token (hx : self.crates.Lawful) (h : Single self b) (hd : b.store.drew.Distinct)
    {row : UserRow} (hrow : row ∈ b.store.db.users) {token : String} {store : Store}
    (ho : self.Opened b.store row token store) :
    ∀ i ∈ b.issued, i.token ≠ token := by
  rintro i hi rfl
  obtain ⟨k, hk, hdec⟩ := h.sound.token i hi
  obtain ⟨row', hrow', -, hopenid, -⟩ := h.sound.user i hi
  rw [AesCBCCrypto.decrypt_of_encrypt hx.ciphers ho.token, Except.ok.injEq] at hdec
  have hsplit := congrArg (Text.split ':') hdec
  rw [split_payload (Uuid.colon_not_mem _) (h.sound.colon_not_mem hrow),
    split_payload (Uuid.colon_not_mem _) (hopenid ▸ h.sound.colon_not_mem hrow')] at hsplit
  simp only [List.cons.injEq, and_true] at hsplit
  have hsame := hd _ (Nat.lt_succ_self _) k (Nat.lt_succ_of_lt hk)
    (Uuid.simple_injective hsplit.1)
  exact absurd hk (hsame ▸ lt_irrefl _)

theorem opened (hx : self.crates.Lawful) (h : Single self b) {req : Pb.UserLoginRequest}
    {row : UserRow} {token : String} {store : Store} (ha : self.Admits b.store script req row)
    (ho : self.Opened b.store row token store) (hd : store.Distinct)
    (hl : ∀ i ∈ b.issued, i.openid = row.openid.val → i.expiry ≤ b.store.clock) :
    Single self { b with store, issued := b.issued ++ [row.issue req token b.store.clock] } := by
  have hs := h.sound.opened hx ha ho
  have hclock : store.clock = b.store.clock := by
    obtain ⟨user, value, -, -, -, rfl⟩ := ho.store
    rfl
  have hfresh : ∀ i ∈ b.issued, i.token ≠ token := by
    refine h.fresh_token hx ?_ (List.mem_of_find?_eq_some ha.fetched) ho
    obtain ⟨user, value, -, -, -, rfl⟩ := ho.store
    exact hd
  refine ⟨hs, fun t ht => ?_, ?_, ?_⟩
  · obtain ⟨i, hi, hit⟩ := h.revoked t ht
    exact ⟨i, List.mem_append_left _ hi, hit⟩
  · intro i hi j hj ho hlt hlt'
    rw [hclock] at hlt hlt'
    rcases List.mem_append.mp hi with hi | hi <;> rcases List.mem_append.mp hj with hj | hj
    · exact h.one i hi j hj ho hlt hlt'
    · rw [List.mem_singleton.mp hj] at ho
      exact absurd hlt (not_lt.mpr (hl i hi ho))
    · rw [List.mem_singleton.mp hi] at ho
      exact absurd hlt' (not_lt.mpr (hl j hj ho.symm))
    · rw [List.mem_singleton.mp hi, List.mem_singleton.mp hj]
  · intro i hi hrev hlt
    rw [hclock] at hlt
    rcases List.mem_append.mp hi with hold | hnew
    · have hkey : i.key ≠ sessionKey row.openid.val := fun hkey =>
        absurd hlt (not_lt.mpr (hl i hold (sessionKey_injective hkey)))
      obtain ⟨user, value, -, -, -, rfl⟩ := ho.store
      change (b.store.drew.keep _ value).live i.key = none
      rw [Store.live_congr (Store.keep_strings_of_ne hkey) rfl]
      exact h.gone i hold hrev hlt
    · rw [List.mem_singleton.mp hnew] at hrev
      obtain ⟨j, hj, hjt⟩ := h.revoked _ hrev
      exact absurd hjt (hfresh j hj)

theorem closed (h : Single self b) {openid token : String}
    (hv : self.Valid b.store.clock token openid) : Single self { b with
      store := b.store.forget (sessionKey openid)
      revoked := b.revoke token } := by
  refine ⟨h.sound.closed openid token, fun t ht => ?_, h.one, fun i hi hrev hlt => ?_⟩
  · rcases mem_revoke ht with ht | ⟨rfl, hany⟩
    · exact h.revoked t ht
    · exact hany
  · by_cases hkey : i.key = sessionKey openid
    · rw [hkey]
      exact Store.forget_live_self
    · change (b.store.forget (sessionKey openid)).live i.key = none
      rw [Store.forget_live_of_ne hkey]
      refine h.gone i hi ((mem_revoke hrev).resolve_right fun ht => hkey ?_) hlt
      obtain ⟨rfl, -⟩ := h.sound.valid_token hi (ht.1 ▸ hv)
      rfl

theorem step (hx : self.crates.Lawful) (h : Single self b) {e : Event} (ha : Assumed self b e)
    (hl : AfterExpiry self b e) : Single self (next self b e) := by
  cases e with
  | tick seconds => exact h.tick seconds
  | rpc c script =>
    have he := call_effect self script h.sound.quiet c
    have hs := h.sound.call hx script c
    have hd : (b.call self script c).store.Distinct := ha.1
    change Single self (b.call self script c)
    generalize b.call self script c = b' at he hs hd
    cases he with
    | kept hk => exact h.frame hs hk.strings hk.clock
    | registered hr => exact h.frame hs hr.strings hr.clock
    | opened hadm ho => exact h.opened hx hadm ho hd (hl _ hadm)
    | closed hv => exact h.closed hv

end Single

/-- In every run in which nobody is logged in anew while an earlier token of theirs could still be
presented, a token verifies only while the session of its own login is live, and a logout ends no
session but that of the login that handed out its token. -/
theorem token_revocation (hx : self.crates.Lawful) {size : Nat} {clock : Int} {supply : Nat → Uuid}
    {evs : List Event}
    (h : Always (next self) (fun b e => Assumed self b e ∧ AfterExpiry self b e)
      (Backend.empty (Store.empty size clock supply)) evs) :
    Always (next self) (Revocable self) (Backend.empty (Store.empty size clock supply)) evs :=
  h.of_invariant (I := Single self) (fun _ _ hs hg => hs.step hx hg.1 hg.2)
    (fun _ _ hs hg => hs.revocable hg.1) .empty

/-! A user whose token of an earlier login ends and outlives a later one, with the key of `app.yaml`. -/

def openid : String := "5f0c1d2e3a4b4c5d8e6f708192a3b400"

/-- The texts of some tokens, their encryptions and the tokens. -/
def tokens : List (String × ByteArray × String) := [
  ("5f0c1d2e3a4b4c5d8e6f708192a3b401:5f0c1d2e3a4b4c5d8e6f708192a3b400:1785086400",
    ⟨#[69, 64, 29, 175, 100, 44, 44, 75, 56, 63, 157, 153, 245, 111, 86, 51, 131, 242, 217, 75,
      2, 200, 99, 20, 249, 172, 94, 100, 67, 96, 115, 1, 9, 222, 193, 25, 76, 113, 193, 66,
      181, 90, 146, 147, 136, 60, 108, 133, 79, 28, 9, 192, 93, 43, 160, 228, 221, 160, 188, 81,
      217, 121, 249, 39, 27, 26, 120, 252, 101, 178, 160, 132, 28, 30, 208, 10, 172, 111, 14, 107]⟩,
    "RUAdr2QsLEs4P52Z9W9WM4Py2UsCyGMU+axeZENgcwEJ3sEZTHHBQrVakpOIPGyFTxwJwF0roOTdoLxR2Xn5JxsaePxlsqCEHB7QCqxvDms="),
  ("5f0c1d2e3a4b4c5d8e6f708192a3b402:5f0c1d2e3a4b4c5d8e6f708192a3b400:1785086460",
    ⟨#[69, 64, 29, 175, 100, 44, 44, 75, 56, 63, 157, 153, 245, 111, 86, 51, 197, 147, 175, 60,
      235, 80, 147, 102, 20, 217, 239, 209, 117, 248, 47, 157, 122, 254, 44, 19, 229, 59, 168, 186,
      178, 248, 80, 61, 21, 76, 244, 112, 32, 142, 117, 202, 132, 178, 74, 92, 25, 186, 41, 131,
      164, 13, 156, 117, 185, 240, 117, 247, 59, 107, 42, 219, 55, 66, 180, 142, 139, 104, 178, 173]⟩,
    "RUAdr2QsLEs4P52Z9W9WM8WTrzzrUJNmFNnv0XX4L516/iwT5TuourL4UD0VTPRwII51yoSySlwZuimDpA2cdbnwdfc7ayrbN0K0jotosq0="),
  ("5f0c1d2e3a4b4c5d8e6f708192a3b402:5f0c1d2e3a4b4c5d8e6f708192a3b400:1785172860",
    ⟨#[69, 64, 29, 175, 100, 44, 44, 75, 56, 63, 157, 153, 245, 111, 86, 51, 197, 147, 175, 60,
      235, 80, 147, 102, 20, 217, 239, 209, 117, 248, 47, 157, 122, 254, 44, 19, 229, 59, 168, 186,
      178, 248, 80, 61, 21, 76, 244, 112, 32, 142, 117, 202, 132, 178, 74, 92, 25, 186, 41, 131,
      164, 13, 156, 117, 240, 29, 178, 36, 208, 101, 177, 108, 204, 239, 24, 78, 219, 21, 175, 39]⟩,
    "RUAdr2QsLEs4P52Z9W9WM8WTrzzrUJNmFNnv0XX4L516/iwT5TuourL4UD0VTPRwII51yoSySlwZuimDpA2cdfAdsiTQZbFszO8YTtsVryc=")]

def sessions : List (UserSessionEntity × String) := [
  (⟨1, "alice", openid, "2026-07-25 17:20:00", "2026-07-26 17:20:00"⟩,
    "\x7b\"uid\":1,\"username\":\"alice\",\"openid\":\"5f0c1d2e3a4b4c5d8e6f708192a3b400\",\"login_time\":\"2026-07-25 17:20:00\",\"expire_time\":\"2026-07-26 17:20:00\"\x7d"),
  (⟨1, "alice", openid, "2026-07-25 17:21:00", "2026-07-26 17:21:00"⟩,
    "\x7b\"uid\":1,\"username\":\"alice\",\"openid\":\"5f0c1d2e3a4b4c5d8e6f708192a3b400\",\"login_time\":\"2026-07-25 17:21:00\",\"expire_time\":\"2026-07-26 17:21:00\"\x7d"),
  (⟨1, "alice", openid, "2026-07-26 17:21:00", "2026-07-27 17:21:00"⟩,
    "\x7b\"uid\":1,\"username\":\"alice\",\"openid\":\"5f0c1d2e3a4b4c5d8e6f708192a3b400\",\"login_time\":\"2026-07-26 17:21:00\",\"expire_time\":\"2026-07-27 17:21:00\"\x7d")]

def crates : Crates := .tabulated tokens sessions
  (fun password =>
    if password = "secret-password" then "2304d4770a72d09106045fea654c4188" else password)
  fun t => ([(1785000000, "2026-07-25 17:20:00"), (1785000060, "2026-07-25 17:21:00"),
    (1785086400, "2026-07-26 17:20:00"), (1785086460, "2026-07-26 17:21:00"),
    (1785172860, "2026-07-27 17:21:00")].lookup t).getD ""

theorem crates_lawful : crates.Lawful :=
  Crates.lawful_tabulated
    (Ciphers.lawful_tabulated (by decide +kernel) (by decide +kernel) (by decide +kernel))
    (by decide +kernel)

def svc : QaServiceImpl := .configured crates

def start : Backend := .empty (.empty 1 1785000000 fun n =>
  BitVec.ofNat 128 (0x5f0c1d2e3a4b4c5d8e6f708192a3b400 + n))

def token (n : Nat) : String := (tokens.map (·.2.2)).getD n ""

def registration : Event :=
  .rpc (.userRegister ⟨"alice", "secret-password", "alice@example.com", "12345678"⟩) []

def login : Event := .rpc (.userLogin ⟨"alice", "secret-password"⟩) []

def logout (token : String) : Event := .rpc (.userLogout ⟨token⟩) []

def verify (token : String) : Event := .rpc (.verifyToken ⟨token, "request"⟩) []

def lateLogin : List Event := [registration, login, logout (token 0), .tick 86460, login,
  verify (token 0), verify (token 2)]

theorem token_revocation_lateLogin : Always (next svc) (Revocable svc) start lateLogin := by
  have nobody : (after (next svc) start [registration]).issued = [] := by decide +kernel
  have expired : ∀ i ∈ (after (next svc) start
      [registration, login, logout (token 0), .tick 86460]).issued, i.expiry ≤
      (after (next svc) start [registration, login, logout (token 0), .tick 86460]).store.clock := by
    decide +kernel
  have assumed : Always (next svc) (Assumed svc) start lateLogin := by decide +kernel
  refine token_revocation crates_lawful (assumed.and ⟨trivial, fun _ _ i hi => ?_, trivial, trivial,
    fun _ _ i hi _ => expired i hi, trivial, trivial, trivial⟩)
  exact absurd (nobody ▸ hi) List.not_mem_nil

/-- The user logs in again at once, and presents the token of the login that was ended. -/
def secondLogin : List Event := [registration, login, logout (token 0), .tick 60, login,
  verify (token 0)]

theorem secondLogin_reopens : Always (next svc) (Assumed svc) start secondLogin ∧
    ¬ Always (next svc) (Revocable svc) start secondLogin := by
  refine ⟨by decide +kernel, fun h => ?_⟩
  have hlast := always_iff.mp h (secondLogin.take 5) (verify (token 0)) [] rfl
  have hissued : ⟨"alice", "secret-password", openid, token 0, 1785000000⟩ ∈
      (after (next svc) start (secondLogin.take 5)).issued := by decide +kernel
  have hreply : (after (next svc) start (secondLogin.take 5)).reply svc []
      (.verifyToken ⟨token 0, "request"⟩) = .ok (.ok ⟨1, "", "alice"⟩) := by decide +kernel
  have hrevoked : token 0 ∈ (after (next svc) start (secondLogin.take 5)).revoked := by
    decide +kernel
  exact (hlast _ hissued rfl _ hreply rfl (by decide)).2.1 hrevoked

end Revocation

end QaSys
