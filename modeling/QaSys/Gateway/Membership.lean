import QaSys.Gateway.Ownership

/-! What the gateway sends to the service for the bodies it takes, and whom it has registered. -/

namespace QaSys

def Rpc.Adding : Rpc → Prop
  | .userRegister _ | .addQuestion _ | .addAnswer _ => True
  | _ => False

namespace Gateway

open Prog Runs

/-- The request is for the endpoint, and its body is taken as the payload. -/
def Posted (x : Formats) (request : Request) (e : Endpoint) (payload : e.Payload) : Prop :=
  routeOf request.path = .post e ∧ jsonOrForm x e request = .ok payload

/-- What the gateway calls to add something for a request. -/
inductive Sends (x : Formats) (request : Request) : Rpc → Prop
  | userRegister {payload : RegisterRequest} : Posted x request .userRegister payload →
      Sends x request
        (.userRegister ⟨payload.username, payload.password, payload.email, payload.phone⟩)
  | questionAdd {payload : AddQuestRequest} : Posted x request .questionAdd payload →
      Sends x request (.addQuestion ⟨payload.title, payload.content, payload.username⟩)
  | answerAdd {payload : AnswerAddRequest} : Posted x request .answerAdd payload →
      Sends x request (.addAnswer ⟨some
        { questionId := payload.questionId, content := payload.content,
          createBy := payload.username }⟩)
  | other {c : Rpc} : ¬ c.Adding → Sends x request c

def registrantOf : Answer → Option String
  | ⟨.rpc (.userRegister req), _⟩ => some req.username
  | _ => none

/-- The gateway has called for the registration of the user. -/
def Registered (s : System) (u : String) : Prop :=
  ∃ e ∈ s.exchanges, ∃ a ∈ e.answers, registrantOf a = some u

variable {svc : QaServiceImpl} {x : Formats} {s : System} {request : Request} {d : Exchanged}
  {c : Rpc} {u : String}

theorem within_verifyToken {P : Call → Prop} {f : Option AuthenticatedPrincipal → Gate A}
    (hdraw : P .newV4) (hverify : ∀ c, P (.timeout c)) (hf : ∀ principal, (f principal).Within P) :
    (verifyToken request f).Within P := by
  unfold verifyToken
  split
  · exact hf none
  · refine (within_ofExcept _).bind fun token => ((within_op _).mpr hdraw).bind fun id =>
      ((within_op _).mpr (hverify _)).bind fun r => ?_
    rcases r with _ | status | verification
    · exact within_throw _
    · exact within_throw _
    · exact (within_ofExcept _).bind fun username => hf _

def Sending (x : Formats) (request : Request) (call : Call) : Prop :=
  ∀ c, call = .rpc c → Sends x request c

theorem sending_rpc (h : Sends x request c) : Sending x request (.rpc c) := by
  intro c' hc
  cases hc
  exact h

theorem handler_sends {e : Endpoint} (hroute : routeOf request.path = .post e)
    (principal : Option AuthenticatedPrincipal) :
    ((handler e).run x principal request).Within (Sending x request) := by
  have hregister (principal : Option AuthenticatedPrincipal) (he : e = .userRegister) :
      ((handler e).run x principal request).Within (Sending x request) := by
    subst he
    exact within_withBody fun _ hv => within_grpc (sending_rpc (.userRegister ⟨hroute, hv⟩))
  cases principal with
  | none =>
    cases e with
    | userRegister => exact hregister none rfl
    | userLogin => exact within_withBody fun _ _ => within_grpc (sending_rpc (.other id))
    | questionFindLatest => exact within_withBody fun _ _ => within_grpc (sending_rpc (.other id))
    | _ => exact within_pure _
  | some p =>
    cases e with
    | userRegister => exact hregister (some p) rfl
    | userLogin => exact within_withBody fun _ _ => within_grpc (sending_rpc (.other id))
    | questionFindLatest => exact within_withBody fun _ _ => within_grpc (sending_rpc (.other id))
    | userLogout =>
      exact within_withBody fun _ _ => within_token (within_grpc (sending_rpc (.other id)))
    | questionAdd =>
      refine within_withBody fun payload hv => within_username fun hsame => within_grpc ?_
      rw [hsame]
      exact sending_rpc (.questionAdd ⟨hroute, hv⟩)
    | answerAdd =>
      refine within_withBody fun payload hv => within_username fun hsame => within_grpc ?_
      rw [hsame]
      exact sending_rpc (.answerAdd ⟨hroute, hv⟩)
    | _ =>
      exact within_withBody fun _ _ => within_username fun _ => within_grpc (sending_rpc (.other id))

theorem app_sends (x : Formats) (request : Request) :
    (app x request).Within (Sending x request) := by
  have hroute (principal : Option AuthenticatedPrincipal) :
      ((routeOf request.path).run x principal request).Within (Sending x request) := by
    cases hpath : routeOf request.path with
    | get text =>
      simp only [Route.run]
      split <;> exact within_pure _
    | post e =>
      simp only [Route.run]
      split
      · exact handler_sends hpath principal
      · exact within_pure _
    | apiNotFound => exact within_pure _
    | methodNotFound => exact within_pure _
  have hdraw : Sending x request .newV4 := fun c hc => by cases hc
  have hverify (c : Rpc) : Sending x request (.timeout c) := fun c' hc => by cases hc
  refine Within.bind (within_verifyToken hdraw hverify fun principal =>
    (hroute principal).bind fun _ => within_pure _).attempt fun r => ?_
  cases r <;> exact within_pure _

theorem traced_after (svc : QaServiceImpl) (x : Formats) (b : Backend) (evs : List Event) :
    ∀ e ∈ (after (next svc x) (start b) evs).exchanges, Server.Traced (app x) (fun _ => True) e :=
  (always_of_forall (P := fun _ _ => True) (fun _ _ => trivial) (start b) evs).invariant
    (I := fun s : System => ∀ e ∈ s.exchanges, Server.Traced (app x) (fun _ => True) e)
    (fun _ e h _ => Server.traced_step h e fun _ _ _ _ _ _ _ _ _ => trivial)
    fun _ h => absurd h List.not_mem_nil

variable {J : Made → Prop}

theorem length_of_sends {req : Pb.UserRegisterRequest} (h : Sends x request (.userRegister req)) :
    req.username.length ≤ 32 := by
  cases h with
  | userRegister hposted =>
    exact (RegisterRequest.username_length (validate_of_jsonOrForm hposted.2)).2
  | other hno => exact absurd trivial hno

theorem length_of_registered (ht : ∀ e ∈ s.exchanges, Server.Traced (app x) J e)
    (h : Registered s u) : u.length ≤ 32 := by
  obtain ⟨e, he, a, ha, hu⟩ := h
  have hcalled := ((app_sends x e.request).reaches (ht e he).reaches).1 a ha
  obtain ⟨call, answer⟩ := a
  unfold registrantOf at hu
  split at hu
  next req hreq =>
    cases hreq
    cases hu
    exact length_of_sends (hcalled _ rfl)
  next => cases hu

theorem principal_of_calling (ht : Server.Traced (app x) J d)
    (hc : d.prog.calling = some (.rpc c)) (hu : c.actor = some u) :
    Gateway.principal d = some u := by
  obtain ⟨k, hprog⟩ := calling_eq_some hc
  have hheeds := (app_heeds x d.request).reaches ht.reaches
  rw [hprog] at hheeds
  obtain ⟨principal, hpassed, hacts, -⟩ := hheeds.1
  obtain ⟨p, rfl, rfl⟩ := hacts u hu
  exact principal_of_verified hpassed

theorem Registered.next (h : Registered s u) (ev : Event) : Registered (next svc x s ev) u := by
  obtain ⟨e, he, a, ha, hu⟩ := h
  obtain ⟨e', he', hpast⟩ := Server.step_extends he ev
  exact ⟨e', he', a, (hpast.map _).subset ha, hu⟩

theorem registered_of_executed {i : Nat} {fate : Fate} {req : Pb.UserRegisterRequest}
    {script : List Choice} (ht : ∀ e ∈ s.exchanges, Server.Traced (app x) J e)
    (h : executed svc s (.call i fate) = some (.userRegister req, script)) :
    req.username.length ≤ 32 ∧ Registered (next svc x s (.call i fate)) req.username := by
  obtain ⟨d, call, k, r, b, hans, hcall⟩ := executed_answered h
  have hd := ht d (List.mem_of_getElem? hans.exchange)
  have hsends := ((app_sends x d.request).reaches hd.reaches).2
  have hheeds := (app_heeds x d.request).reaches hd.reaches
  rw [hans.prog] at hsends hheeds
  cases call with
  | rpc c =>
    cases hcall
    refine ⟨length_of_sends (hsends.1 _ rfl), _, List.mem_of_getElem? hans.getElem?_step,
      ⟨.rpc (.userRegister req), r⟩, ?_, rfl⟩
    rw [Exchange.answers, List.map_append]
    exact List.mem_append_right _ (List.mem_singleton_self _)
  | timeout c =>
    cases hcall
    obtain ⟨token, id, hverify⟩ := hheeds.1
    cases hverify
  | newV4 => cases hcall

end Gateway

namespace Backend

variable {svc : QaServiceImpl} {b : Backend}

theorem users_call (hq : b.store.pg.Quiet) (script : List Choice) (c : Rpc) :
    (b.call svc script c).store.db.users = b.store.db.users ∨
      ∃ req row, c = .userRegister req ∧ Varchar.assign 50 req.username = some row.username ∧
        (b.call svc script c).store.db.users = b.store.db.users ++ [row] := by
  have he := call_effect svc script hq c
  generalize hb : b.call svc script c = b' at he
  cases he with
  | kept hk => exact .inl hk.users
  | @registered req row store hrow =>
    have hstore : (b.ran svc script (.userRegister req)).2.state = store :=
      call_store.symm.trans (congrArg Backend.store hb)
    have hends := QaServiceImpl.userRegister_ends svc script hq req
    change b.store.Kept (b.ran svc script (.userRegister req)).2.state ∨
      ∃ row, b.store.Registered row (b.ran svc script (.userRegister req)).2.state ∧ _ at hends
    rw [hstore] at hends
    rcases hends with hk | ⟨row, hrow, hname⟩
    · exact .inl hk.users
    · exact .inr ⟨req, row, rfl, hname, hrow.users⟩
  | opened hadmits hopened =>
    obtain ⟨user, value, -, -, -, rfl⟩ := hopened.store
    exact .inl rfl
  | closed => exact .inl rfl

end Backend

namespace Gateway

open Runs

variable {svc : QaServiceImpl} {x : Formats} {s : System}

/-- Every user, and every principal, has been registered through the gateway. -/
structure Enrolled (svc : QaServiceImpl) (x : Formats) (s : System) : Prop where
  attended : Attended svc x s
  users : ∀ row ∈ s.state.store.db.users, Registered s row.username.val
  principals : ∀ e ∈ s.exchanges, ∀ u, principal e = some u → Registered s u

namespace Enrolled

theorem users_next (h : Enrolled svc x s) {e : Event} (he : Ordinary svc e) :
    ∀ row ∈ (next svc x s e).state.store.db.users,
      Registered (next svc x s e) row.username.val := by
  have hold : ∀ row ∈ s.state.store.db.users, Registered (next svc x s e) row.username.val :=
    fun row hrow => (h.users row hrow).next e
  have hq := h.attended.sound.quiet
  have hback := next_backed svc x s e
  generalize (next svc x s e).state = b at hback
  cases hback with
  | same => exact hold
  | @called c script hex =>
    rcases Backend.users_call hq script c with hsame | ⟨req, new, rfl, hname, husers⟩
    · rw [hsame]
      exact hold
    · rw [husers]
      intro row hrow
      rcases List.mem_append.mp hrow with hrow | hrow
      · exact hold row hrow
      · rw [List.mem_singleton.mp hrow]
        cases e with
        | arrive request => cases hex
        | other ev =>
          cases ev with
          | rpc c script => exact absurd trivial he.1
          | tick seconds => cases hex
          | vote msg script => cases hex
        | call i fate =>
          obtain ⟨hlen, hreg⟩ := registered_of_executed h.attended.traced hex
          rw [Varchar.val_of_assign hname (.inl (hlen.trans (by decide)))]
          exact hreg
  | @aside ev hev =>
    subst hev
    cases ev with
    | rpc c script => exact absurd trivial he.1
    | tick seconds => exact hold
    | vote msg script =>
      have hk : s.state.store.Kept (Content.next svc s.state.store (.vote msg script)) :=
        kept_vote hq msg script
      rw [Backend.store_next, hk.users]
      exact hold

theorem registered_of_answer (h : Enrolled svc x s) {fate : Fate}
    (hno : ∀ ch ∈ fate.script, ch.NoSession svc.crates) {c : Call}
    {r : Except GatewayError c.Reply} {b : Backend} (hserve : serve svc fate c s.state = some (r, b))
    {u : String} (hu : usernameOf ⟨c, r⟩ = some u) : Registered s u := by
  unfold usernameOf at hu
  split at hu
  next req verification hanswer =>
    cases hanswer
    have hname : Router.authenticatedUsername verification = .ok u := by
      cases hname : Router.authenticatedUsername verification with
      | error e =>
        rw [hname] at hu
        cases hu
      | ok u' =>
        rw [hname] at hu
        cases hu
        rfl
    obtain ⟨-, j, hj, -, -, hju, -⟩ :=
      session_of_reply h.attended.sound hno (reply_of_serve hserve) hname
    obtain ⟨row, hrow, hrowname, -⟩ := h.attended.sound.user j hj
    rw [← hju, ← hrowname]
    exact h.users row hrow
  next => cases hu

theorem principals_next (h : Enrolled svc x s) {e : Event} (he : Ordinary svc e) :
    ∀ d ∈ (next svc x s e).exchanges, ∀ u, principal d = some u →
      Registered (next svc x s e) u := by
  have hold : ∀ d ∈ s.exchanges, ∀ u, principal d = some u → Registered (next svc x s e) u :=
    fun d hd u hu => (h.principals d hd u hu).next e
  intro d hd u hu
  cases e with
  | arrive request =>
    rcases List.mem_append.mp hd with hd | hd
    · exact hold d hd u hu
    · rw [List.mem_singleton.mp hd] at hu
      cases hu
  | other ev => exact hold d hd u hu
  | call i fate =>
    rcases Server.step_call (h := serve svc) (app x) (Backend.next svc) s i fate with
      hsame | ⟨d', c, k, r, b, hans, hstep⟩
    · have hd' : d ∈ s.exchanges := by
        rw [next, hsame] at hd
        exact hd
      exact hold d hd' u hu
    · rw [next, hstep] at hd
      rcases List.mem_or_eq_of_mem_set hd with hd | rfl
      · exact hold d hd u hu
      · simp only [principal, Exchange.answers, List.map_append, List.findSome?_append] at hu
        rcases Option.or_eq_some_iff.mp hu with hu | ⟨-, hu⟩
        · exact hold d' (List.mem_of_getElem? hans.exchange) u hu
        · refine (h.registered_of_answer he.2 hans.answer ?_).next _
          simpa using hu

theorem next (hx : svc.crates.Lawful) (h : Enrolled svc x s) {e : Event} (he : Ordinary svc e) :
    Enrolled svc x (next svc x s e) :=
  ⟨h.attended.next hx he, h.users_next he, h.principals_next he⟩

end Enrolled

/-- In a run in which users register through the gateway only, everyone it lets in has. -/
theorem registered_of_principal (hx : svc.crates.Lawful) {size : Nat} {clock : Int}
    {supply : Nat → Uuid} {evs : List Event} (he : ∀ e ∈ evs, Ordinary svc e)
    (hs : after (next svc x) (start (.empty (.empty size clock supply))) evs = s) {d : Exchanged}
    (hd : d ∈ s.exchanges) {u : String} (hu : principal d = some u) : Registered s u := by
  have hstart : Enrolled svc x (start (.empty (.empty size clock supply))) :=
    ⟨⟨.empty, .empty, fun _ h => absurd h List.not_mem_nil⟩,
      fun _ h => absurd h List.not_mem_nil, fun _ h => absurd h List.not_mem_nil⟩
  have henrolled := (always_of_mem he _).invariant (I := Enrolled svc x)
    (fun _ _ h he => h.next hx he) hstart
  rw [hs] at henrolled
  exact henrolled.principals d hd u hu

end Gateway

end QaSys
