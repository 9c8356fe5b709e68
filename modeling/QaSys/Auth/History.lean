import QaSys.Auth.Refinement

/-! What the service answers follows from what it answered before: it runs through the traces of the
authority, and nothing else counts. -/

namespace QaSys.Authority

open QaServiceImpl Revocation Runs

variable {self : QaServiceImpl} {b : Backend} {past : List (Request String String String ×
  Answer String String)} {script : List Choice}

/-- The stores and the crates do not fail at the event, and the identifiers are distinct. -/
def Sure (self : QaServiceImpl) (b : Backend) (e : Event) : Prop :=
  Served self b e ∧ (next self b e).store.Distinct

instance {s : Store} {row : UserRow} : Decidable (Sealed self s row) :=
  inferInstanceAs (Decidable (_ ∧ _ ∧ _))

instance (b : Backend) (e : Event) : Decidable (Sure self b e) := by
  unfold Sure
  refine @instDecidableAnd _ _ ?_ inferInstance
  cases e with
  | tick seconds => exact isTrue trivial
  | rpc c script => cases c <;> unfold Served <;> infer_instance

/-- The replies to the next request, by what was answered in the past. -/
structure Determined (self : QaServiceImpl)
    (past : List (Request String String String × Answer String String)) (b : Backend) : Prop where
  registers : ∀ req script, Sure self b (.rpc (.userRegister req) script) →
    ((∃ res, b.reply self script (.userRegister req) = .ok (.ok res)) ↔
      (∀ s, ¬ Known (rules self) past req.username s) ∧
        ∃ name secret, (rules self).name req.username = some name ∧
          (rules self).keep (self.crates.md5 req.password) = some secret ∧
          ∀ s, ¬ Known (rules self) past name s)
  logsIn : ∀ req script, Sure self b (.rpc (.userLogin req) script) →
    ((∃ res, b.reply self script (.userLogin req) = .ok (.ok res)) ↔
      Known (rules self) past req.username (self.crates.md5 req.password) ∧
        ∀ openid e, Opened past req.username openid e → e ≤ b.store.clock)
  verifies : ∀ req script name, Sure self b (.rpc (.verifyToken req) script) →
    (b.reply self script (.verifyToken req) = .ok (.ok ⟨1, "", name⟩) ↔
      ∃ openid e, ticket self req.token = some (openid, e) ∧ b.store.clock < e ∧
        ∃ e', Opened past name openid e' ∧ b.store.clock < e')

theorem said_registered {req : Pb.UserRegisterRequest}
    {r : Except Err (App.Reply Pb.StateResponse)} :
    said self (.userRegister req) r = .registered ↔ ∃ res, r = .ok (.ok res) := by
  constructor
  · intro hsaid
    match r with
    | .ok (.ok res) => exact ⟨res, rfl⟩
    | .ok (.error status) =>
      simp only [said] at hsaid
      split at hsaid <;> cases hsaid
    | .error e => cases hsaid
  · rintro ⟨res, rfl⟩
    rfl

theorem said_opened {req : Pb.UserLoginRequest}
    {r : Except Err (App.Reply Pb.UserLoginResponse)} {t : String × Int}
    (hsaid : said self (.userLogin req) r = .opened t) : ∃ res, r = .ok (.ok res) := by
  match r with
  | .ok (.ok res) => exact ⟨res, rfl⟩
  | .ok (.error status) =>
    simp only [said] at hsaid
    split at hsaid <;> cases hsaid
  | .error e => cases hsaid

theorem said_holder {req : Pb.VerifyTokenRequest} {name : String}
    {r : Except Err (App.Reply Pb.VerifyTokenResponse)} :
    said self (.verifyToken req) r = .holder name ↔ r = .ok (.ok ⟨1, "", name⟩) := by
  constructor
  · intro hsaid
    match r with
    | .ok (.ok ⟨state, reason, username⟩) =>
      simp only [said] at hsaid
      split at hsaid
      next h =>
        obtain ⟨rfl, rfl⟩ := h
        cases hsaid
        rfl
      next => split at hsaid <;> cases hsaid
    | .ok (.error status) =>
      simp only [said] at hsaid
      split at hsaid <;> cases hsaid
    | .error e => cases hsaid
  · rintro rfl
    rfl

theorem determined (hc : self.crates.ciphers.Standard) (hx : self.crates.Lawful)
    (hs : Backend.Sound self b) (hr : Recorded (rules self) past (authority self b.store)) :
    Determined self past b where
  registers req script hsure := by
    obtain ⟨fresh, hsaid⟩ := (step_next hc hx hs hsure.1 hsure.2).of_register
    refine Iff.trans ?_ (hr.register_iff fresh)
    rw [← hsaid]
    exact said_registered.symm
  logsIn req script hsure := by
    have hsaid := (step_next hc hx hs hsure.1 hsure.2).of_login
    constructor
    · rintro ⟨res, hreply⟩
      refine hr.login_iff.mp ?_
      rcases State.login_cases (rules self) (authority self b.store) req.username req.password with
        ⟨h, -, -, heq⟩ | ⟨an, han, heq⟩
      · exact ⟨_, congrArg Prod.fst heq⟩
      · rw [heq] at hsaid
        change said self (.userLogin req) (b.reply self script (.userLogin req)) = an at hsaid
        rw [hreply] at hsaid
        simp only [said] at hsaid
        split at hsaid <;> rcases han with rfl | rfl | rfl <;> cases hsaid
    · intro hopens
      obtain ⟨t, ht⟩ := hr.login_iff.mpr hopens
      exact said_opened (hsaid.trans ht)
  verifies req script name hsure := by
    have hsaid := (step_next hc hx hs hsure.1 hsure.2).of_verify
    refine said_holder.symm.trans (Iff.trans (iff_of_eq (congrArg (· = _) hsaid)) ?_)
    cases ticket self req.token with
    | none =>
      refine iff_of_false (fun hrefused => ?_) fun ⟨openid, e, hnone, _⟩ => ?_
      · cases hrefused
      · cases hnone
    | some t =>
      obtain ⟨openid, e⟩ := t
      refine hr.verify_iff.trans ⟨fun h => ⟨openid, e, rfl, h⟩, ?_⟩
      rintro ⟨openid', e', heq, h⟩
      cases heq
      exact h

section

variable {size : Nat} {clock : Int} {supply : Nat → Uuid} {evs : List Event}

theorem traced (hc : self.crates.ciphers.Standard) (hx : self.crates.Lawful)
    (h : Always (next self) (Sure self) (.empty (.empty size clock supply)) evs) :
    Trace (Step (rules self)) (.empty clock)
      (log (next self) (label self) (.empty (.empty size clock supply)) evs)
      (authority self (after (next self) (.empty (.empty size clock supply)) evs).store) :=
  h.trace (I := Backend.Sound self) (label self) (authority self ·.store)
    (fun _ e hs _ => sound_next hx hs e)
    (fun _ _ hs hsure => step_next hc hx hs hsure.1 hsure.2) .empty

/-- In every run in which nothing fails, the service answers as the authority, whatever else it is
called for in between. -/
theorem service_refines (hc : self.crates.ciphers.Standard) (hx : self.crates.Lawful)
    (h : Always (next self) (Sure self) (.empty (.empty size clock supply)) evs) :
    Trace (Step (rules self)) (.empty clock)
      (log (next self) (label self) (.empty (.empty size clock supply)) evs)
      (authority self (after (next self) (.empty (.empty size clock supply)) evs).store) :=
  traced hc hx h

/-- In every run in which nothing fails, a registration goes through exactly when its name has not
been registered and PostgreSQL can store the name and the digest, a login exactly when the password
is that of the registration and the session of the last login is over, and a token shows its holder
exactly while it and the session opened last are good. -/
theorem answers_by_history (hc : self.crates.ciphers.Standard) (hx : self.crates.Lawful)
    (h : Always (next self) (Sure self) (.empty (.empty size clock supply)) evs) :
    Determined self (log (next self) (label self) (.empty (.empty size clock supply)) evs)
      (after (next self) (.empty (.empty size clock supply)) evs) := by
  have hsound := h.invariant (I := Backend.Sound self) (fun _ e hs _ => sound_next hx hs e) .empty
  exact determined hc hx hsound (Recorded.trace (traced hc hx h))

end

/-- A user registers and logs in, a second login and a second registration under the name come to
nothing, the token is shown, and after the logout it is shown once more. -/
def visit : List Event := [registration, login, login, registration, verify (token 0),
  logout (token 0), verify (token 0)]

def visited : List (Request String String String × Answer String String) := [
  (.register "alice" "secret-password", .registered),
  (.login "alice" "secret-password", .opened (openid, 1785086400)),
  (.login "alice" "secret-password", .busy), (.register "alice" "secret-password", .taken),
  (.verify (some (openid, 1785086400)), .holder "alice"),
  (.logout (some (openid, 1785086400)), .closed), (.verify (some (openid, 1785086400)), .absent)]

theorem sure_visit : Always (next Gateway.svc) (Sure Gateway.svc) start visit := by
  decide +kernel

theorem service_refines_visit : log (next Gateway.svc) (label Gateway.svc) start visit = visited ∧
    Trace (Step (rules Gateway.svc)) (.empty 1785000000)
      (log (next Gateway.svc) (label Gateway.svc) start visit)
      (authority Gateway.svc (after (next Gateway.svc) start visit).store) :=
  ⟨by decide +kernel,
    service_refines Gateway.ciphers_standard Gateway.crates_lawful sure_visit⟩

theorem answers_by_history_visit :
    Determined Gateway.svc (log (next Gateway.svc) (label Gateway.svc) start visit)
      (after (next Gateway.svc) start visit) :=
  answers_by_history Gateway.ciphers_standard Gateway.crates_lawful sure_visit

end QaSys.Authority
