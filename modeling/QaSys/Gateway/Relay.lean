import QaSys.Gateway.Membership

/-! What the gateway is there for: it sends the call that the body of a request asks for, once, and
hands on the reply. -/

namespace QaSys.Gateway

open Prog Runs

/-- The call of the service that a body asks for. -/
@[reducible] def Endpoint.call : (e : Endpoint) → e.Payload → Rpc
  | .userRegister, p => .userRegister ⟨p.username, p.password, p.email, p.phone⟩
  | .userLogin, p => .userLogin ⟨p.username, p.password⟩
  | .userLogout, p => .userLogout ⟨p.token⟩
  | .questionAdd, p => .addQuestion ⟨p.title, p.content, p.username⟩
  | .questionDetail, p => .questionDetail ⟨p.questionId, p.username⟩
  | .questionUpdate, p =>
    .updateQuestion ⟨p.id, p.question.title, p.question.content, p.question.updatedBy⟩
  | .questionDelete, p => .deleteQuestion ⟨p.id, p.username⟩
  | .questionFindLatest, p => .latestQuestion ⟨p.lastId, p.limit⟩
  | .answerAdd, p => .addAnswer ⟨some
    { questionId := p.questionId, content := p.content, createBy := p.username }⟩
  | .answerUpdate, p => .updateAnswer ⟨p.id, p.content, p.username⟩
  | .answerDelete, p => .deleteAnswer ⟨p.id, p.username⟩
  | .answerFindOne, p => .answerDetail ⟨p.id, p.username⟩
  | .answerFindList, p => .answerList ⟨p.questionId, p.page, p.limit, p.username⟩
  | .answerAgree, p => .agreeAnswer ⟨p.id, p.username, p.action⟩

def Endpoint.reply : (e : Endpoint) → (p : e.Payload) → (e.call p).Reply → e.Reply
  | .userRegister, _, resp => ⟨resp.state⟩
  | .userLogin, _, resp => ⟨resp.token⟩
  | .userLogout, _, resp => ⟨resp.state⟩
  | .questionAdd, _, resp => ⟨resp.id.asI64⟩
  | .questionDetail, _, resp => ⟨resp.question.map questionOf⟩
  | .questionUpdate, _, resp => ⟨resp.state⟩
  | .questionDelete, _, resp => ⟨resp.state⟩
  | .questionFindLatest, _, resp => ⟨resp.questions.map questionOf, resp.lastId, resp.isEnd⟩
  | .answerAdd, _, resp => ⟨resp.id.asI64⟩
  | .answerUpdate, _, resp => ⟨resp.state⟩
  | .answerDelete, _, resp => ⟨resp.state⟩
  | .answerFindOne, _, resp => ⟨resp.answer.map answerOf⟩
  | .answerFindList, _, resp => ⟨resp.answers.map answerOf, resp.total.asI64, resp.totalPage.asI64,
      resp.pageSize.asI64, resp.currentPage.asI64, resp.isEnd⟩
  | .answerAgree, _, resp => ⟨resp.state⟩

/-- The body says it comes from the principal. -/
def Endpoint.admits : (e : Endpoint) → Option AuthenticatedPrincipal → e.Payload → Bool
  | .userRegister, _, _ | .userLogin, _, _ | .questionFindLatest, _, _ => true
  | _, none, _ => false
  | .userLogout, some p, payload => p.token = payload.token
  | .questionAdd, some p, payload => p.username = payload.username
  | .questionDetail, some p, payload => p.username = payload.username
  | .questionUpdate, some p, payload => p.username = payload.question.updatedBy
  | .questionDelete, some p, payload => p.username = payload.username
  | .answerAdd, some p, payload => p.username = payload.username
  | .answerUpdate, some p, payload => p.username = payload.username
  | .answerDelete, some p, payload => p.username = payload.username
  | .answerFindOne, some p, payload => p.username = payload.username
  | .answerFindList, some p, payload => p.username = payload.username
  | .answerAgree, some p, payload => p.username = payload.username

def relay (e : Endpoint) (payload : e.Payload) : Gate e.Reply := do
  let resp ← grpc (← await (.rpc (e.call payload)))
  return e.reply payload resp

variable {x : Formats} {request : Request} {principal : Option AuthenticatedPrincipal}
  {p : AuthenticatedPrincipal} {e : Endpoint}

theorem authenticatedUsername_bind {claimed : String} {f : String → Gate A} :
    (authenticatedUsername p claimed >>= f) =
      if decide (p.username = claimed) then f claimed else throw .forbidden := by
  unfold authenticatedUsername
  by_cases h : p.username = claimed
  · rw [if_neg (not_not.mpr h), if_pos (decide_eq_true h), h]
    rfl
  · rw [if_pos h, decide_eq_false h]
    rfl

theorem authenticatedToken_bind {claimed : String} {f : String → Gate A} :
    (authenticatedToken p claimed >>= f) =
      if decide (p.token = claimed) then f claimed else throw .forbidden := by
  unfold authenticatedToken
  by_cases h : p.token = claimed
  · rw [if_neg (not_not.mpr h), if_pos (decide_eq_true h), h]
    rfl
  · rw [if_pos h, decide_eq_false h]
    rfl

/-- Every handler relays what it admits, where the middleware leaves a principal. -/
theorem run_handler (e : Endpoint) (h : principal.isSome = true ∨ isPublicPath e.path = true) :
    (handler e).run x principal request = withBody x (fun payload =>
      if e.admits principal payload then relay e payload else throw .forbidden) request := by
  cases principal with
  | none =>
    have hpublic : isPublicPath e.path = true := h.resolve_left Bool.false_ne_true
    cases e with
    | userRegister => rfl
    | userLogin => rfl
    | questionFindLatest => rfl
    | _ => exact absurd hpublic (by decide)
  | some p =>
    cases e with
    | userRegister => rfl
    | userLogin => rfl
    | questionFindLatest => rfl
    | userLogout => exact congrArg (withBody x · request) (funext fun _ => authenticatedToken_bind)
    | _ => exact congrArg (withBody x · request) (funext fun _ => authenticatedUsername_bind)

/-- The gateway calls for a body after nothing but its verification, and what the body asks for. -/
def Relaying (x : Formats) (request : Request) (past : List Answer) (call : Call) : Prop :=
  ∀ c, call = .rpc c → Unrelayed past ∧ ∃ e payload, Posted x request e payload ∧ c = e.call payload

def Body.Own : Body → Prop
  | .json .. | .missingExtension => False
  | _ => True

/-- How the gateway responds to a request, after the calls it has made. -/
inductive Responds (x : Formats) (request : Request) (past : List Answer) : Response → Prop
  | unverified {error : GatewayError} : Unrelayed past → isPublicPath request.path = false →
      Responds x request past error.intoResponse
  | own {response : Response} : Unrelayed past → response.body.Own →
      (response.status = 200 → ∃ text, routeOf request.path = .get text) →
      Responds x request past (noCacheHeader response)
  | lost {e : Endpoint} {payload : e.Payload} {before : List Answer} {error : GatewayError} :
      Posted x request e payload → past = before ++ [⟨.rpc (e.call payload), .error error⟩] →
      Unrelayed before → Responds x request past (noCacheHeader error.intoResponse)
  | refused {e : Endpoint} {payload : e.Payload} {before : List Answer} {status : Pb.Status} :
      Posted x request e payload →
      past = before ++ [⟨.rpc (e.call payload), .ok (.error status)⟩] → Unrelayed before →
      Responds x request past (noCacheHeader (GatewayError.grpcError status).intoResponse)
  | replied {e : Endpoint} {payload : e.Payload} {before : List Answer}
      {reply : (e.call payload).Reply} : Posted x request e payload →
      past = before ++ [⟨.rpc (e.call payload), .ok (.ok reply)⟩] → Unrelayed before →
      Responds x request past
        (noCacheHeader { status := 200, body := .json e (e.reply payload reply) })

variable {past : List Answer}

theorem relaying_of_ne {call : Call} (h : ∀ c, call ≠ .rpc c) : Relaying x request past call :=
  fun c hc => absurd hc (h c)

theorem path_of_routeOf {path : String} (h : routeOf path = .post e) : e.path = path := by
  unfold routeOf at h
  split at h
  · cases h
  split at h
  · cases h
  split at h
  next e' hfind =>
    cases h
    simpa using List.find?_some hfind
  next =>
    split at h
    · cases h
    · cases h

theorem own_of_intoResponse (error : GatewayError) :
    error.intoResponse.body.Own ∧ error.intoResponse.status ≠ 200 := by
  cases error with
  | grpcError status =>
    simp only [GatewayError.intoResponse]
    split <;> exact ⟨trivial, by dsimp only; decide⟩
  | _ => exact ⟨trivial, by dsimp only [GatewayError.intoResponse]; decide⟩

theorem own_of_rejection {payload : Option e.Payload} {rejection : JsonOrFormRejection}
    (h : validated x e payload = .error rejection) :
    rejection.intoResponse.body.Own ∧ rejection.intoResponse.status ≠ 200 := by
  unfold validated at h
  split at h
  · cases h
    exact ⟨trivial, by decide⟩
  · split at h
    · cases h
    · cases h
      exact ⟨trivial, (by decide : (400 : Nat) ≠ 200)⟩

theorem own_of_jsonOrForm {rejection : JsonOrFormRejection}
    (h : jsonOrForm x e request = .error rejection) :
    rejection.intoResponse.body.Own ∧ rejection.intoResponse.status ≠ 200 := by
  unfold jsonOrForm at h
  split at h
  · split at h
    · exact own_of_rejection h
    · split at h
      · exact own_of_rejection h
      · cases h
        exact ⟨trivial, by decide⟩
  · cases h
    exact ⟨trivial, by decide⟩

def Served (x : Formats) (request : Request) (past : List Answer) :
    Except GatewayError Response → Prop
  | .ok response => Responds x request past (noCacheHeader response)
  | .error _ => False

theorem heeds_own {response : Response} (hpast : Unrelayed past)
    (h : response.body.Own ∧ response.status ≠ 200) :
    (pure response : Gate Response).Heeds (Relaying x request) (Served x request) past :=
  heeds_pure.mpr (.own hpast h.1 fun hok => absurd hok h.2)

theorem heeds_relay (hpast : Unrelayed past) {payload : e.Payload}
    (hposted : Posted x request e payload) : (responded e (relay e payload)).Heeds
      (Relaying x request) (Served x request) past := by
  refine heeds_bind.mpr (heeds_attempt.mpr (heeds_bind.mpr (heeds_op.mpr
    ⟨fun c hc => ?_, fun r => ?_⟩)))
  · cases hc
    exact ⟨hpast, e, payload, hposted, rfl⟩
  · rcases r with error | status | reply
    · exact .lost hposted rfl hpast
    · exact .refused hposted rfl hpast
    · exact .replied hposted rfl hpast

theorem heeds_handler (hpast : Unrelayed past) (hroute : routeOf request.path = .post e)
    (h : principal.isSome = true ∨ isPublicPath request.path = true) :
    ((handler e).run x principal request).Heeds (Relaying x request) (Served x request) past := by
  rw [run_handler e (path_of_routeOf hroute ▸ h)]
  unfold withBody
  split
  next rejection hbody => exact heeds_own hpast (own_of_jsonOrForm hbody)
  next payload hbody =>
    dsimp only
    split
    · exact heeds_relay hpast ⟨hroute, hbody⟩
    · exact heeds_own hpast ⟨trivial, by decide⟩

theorem heeds_route (hpast : Unrelayed past)
    (h : principal.isSome = true ∨ isPublicPath request.path = true) :
    ((routeOf request.path).run x principal request).Heeds (Relaying x request)
      (Served x request) past := by
  cases hroute : routeOf request.path with
  | get text =>
    simp only [Route.run]
    split
    · exact heeds_pure.mpr (.own hpast trivial fun _ => ⟨text, hroute⟩)
    · exact heeds_pure.mpr (.own hpast trivial fun _ => ⟨text, hroute⟩)
    · exact heeds_own hpast ⟨trivial, by decide⟩
  | post e =>
    simp only [Route.run]
    split
    · exact heeds_handler hpast hroute h
    · exact heeds_own hpast ⟨trivial, by decide⟩
  | apiNotFound => exact heeds_own hpast ⟨trivial, by decide⟩
  | methodNotFound => exact heeds_own hpast ⟨trivial, by decide⟩

theorem app_relays (x : Formats) (request : Request) : (app x request).Heeds (Relaying x request)
    (fun past r => ∃ response, r = .ok response ∧ Responds x request past response) [] := by
  refine heeds_bind.mpr (heeds_attempt.mpr (verifyToken_heeds ?_ ?_ ?_ ?_))
  · exact relaying_of_ne fun _ h => by cases h
  · exact fun _ _ _ => relaying_of_ne fun _ h => by cases h
  · exact fun past e hpast hpublic => ⟨_, rfl, .unverified hpast hpublic⟩
  · intro principal past hpast hpassed
    refine heeds_bind.mpr ((heeds_route hpast hpassed.admitted).mono (fun _ _ => id)
      fun past' r hr => ?_)
    cases r with
    | error e => exact hr.elim
    | ok response => exact ⟨_, rfl, hr⟩

/-- The exchange makes one call for its body at most, and ends in a response to the request. -/
structure Relayed (x : Formats) (e : Exchanged) : Prop where
  called : ∀ before a rest, e.answers = before ++ a :: rest → Relaying x e.request before a.call
  calling : ∀ call, e.prog.calling = some call → Relaying x e.request e.answers call
  responds : ∀ response, e.prog = .ret response → Responds x e.request e.answers response
  alive : ∀ error, e.prog ≠ .fail error

theorem relayed {J : Made → Prop} {d : Exchanged} (h : Server.Traced (app x) J d) :
    Relayed x d := by
  have hrelays := app_relays x d.request
  have hrest := hrelays.reaches h.reaches
  refine ⟨fun before a rest => hrelays.called h.reaches, fun call hcall => ?_,
    fun response hret => ?_, fun error hfail => ?_⟩
  · obtain ⟨k, hprog⟩ := calling_eq_some hcall
    rw [hprog] at hrest
    exact hrest.1
  · rw [hret] at hrest
    obtain ⟨response', heq, hresponds⟩ := hrest
    cases heq
    exact hresponds
  · rw [hfail] at hrest
    obtain ⟨response, heq, -⟩ := hrest
    cases heq

/-- In every run each request has the service called for its body at most once, after its
verification, and gets the reply to that call or a text of the gateway. -/
theorem exchanges_relayed (svc : QaServiceImpl) (x : Formats) (b : Backend) (evs : List Event) :
    ∀ e ∈ (after (next svc x) (start b) evs).exchanges, Relayed x e :=
  fun e he => relayed (traced_after svc x b evs e he)

def statusOf : Gate Response → Option Nat
  | .ret response => some response.status
  | _ => none

theorem exchanges_relayed_asking :
    (after (next Gateway.svc formats) (start origin) asking).exchanges.map (statusOf ·.prog) =
      [some 200, some 200, some 200] ∧
    ∀ e ∈ (after (next Gateway.svc formats) (start origin) asking).exchanges, Relayed formats e :=
  ⟨by decide +kernel, exchanges_relayed Gateway.svc formats origin asking⟩

end QaSys.Gateway
