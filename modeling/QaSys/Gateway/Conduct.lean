import QaSys.Gateway.Runs

/-! Which calls the gateway makes, and for whom. -/

namespace QaSys.Gateway

open Prog

/-- The call acts for nobody but the principal of the request. -/
def ActsFor (principal : Option AuthenticatedPrincipal) (c : Rpc) : Prop :=
  ∀ u, c.actor = some u → ∃ p, principal = some p ∧ p.username = u

/-- What the checks of the bodies promise of the texts that are to be stored. -/
def Checked : Rpc → Prop
  | .addQuestion req => (1 ≤ req.title.length ∧ req.title.length ≤ 512) ∧
    1 ≤ req.content.length ∧ req.content.length ≤ 4096
  | .addAnswer req => ∀ a, req.answer = some a → 1 ≤ a.content.length ∧ a.content.length ≤ 1024
  | .updateAnswer req => 1 ≤ req.content.length ∧ req.content.length ≤ 1024
  | _ => True

def Proper (principal : Option AuthenticatedPrincipal) : Call → Prop
  | .rpc c => ActsFor principal c ∧ Checked c
  | _ => False

variable {x : Formats} {principal : Option AuthenticatedPrincipal} {p : AuthenticatedPrincipal}
  {request : Request} {e : Endpoint}

theorem actsFor_nobody {c : Rpc} (h : c.actor = none) : ActsFor principal c := by
  intro u hu
  rw [h] at hu
  cases hu

theorem actsFor_self {c : Rpc} (h : c.actor = some p.username) : ActsFor (some p) c := by
  intro u hu
  rw [h] at hu
  exact ⟨p, rfl, Option.some.inj hu⟩

theorem within_grpc {P : Call → Prop} {c : Rpc} {f : c.Reply → A} (h : P (.rpc c)) :
    (do return f (← grpc (← await (.rpc c)))).Within P := by
  refine ((within_op _).mpr h).bind fun r => ?_
  cases r with
  | ok a => exact within_pure _
  | error status => exact within_throw _

theorem within_username {P : Call → Prop} {claimed : String} {f : String → Gate A}
    (h : p.username = claimed → (f p.username).Within P) :
    (authenticatedUsername p claimed >>= f).Within P := by
  unfold authenticatedUsername
  split
  · exact within_throw _
  next hsame => exact h (not_not.mp hsame)

theorem within_token {P : Call → Prop} {claimed : String} {f : String → Gate A}
    (h : (f p.token).Within P) : (authenticatedToken p claimed >>= f).Within P := by
  unfold authenticatedToken
  split
  · exact within_throw _
  · exact h

theorem validate_of_jsonOrForm {payload : e.Payload} (h : jsonOrForm x e request = .ok payload) :
    e.validate x.validEmail payload = [] := by
  have hvalidated {body : Option e.Payload} (hbody : validated x e body = .ok payload) :
      e.validate x.validEmail payload = [] := by
    unfold validated at hbody
    split at hbody
    · cases hbody
    · split at hbody
      next hnil =>
        cases hbody
        exact hnil
      next => cases hbody
  unfold jsonOrForm at h
  split at h
  · split at h
    · exact hvalidated h
    · split at h
      · exact hvalidated h
      · cases h
  · cases h

theorem within_withBody {P : Call → Prop} {handler : e.Payload → Gate e.Reply}
    (h : ∀ payload, jsonOrForm x e request = .ok payload → (handler payload).Within P) :
    (withBody x handler request).Within P := by
  unfold withBody
  split
  · exact within_pure _
  next payload hbody =>
    refine (h payload hbody).attempt.bind fun r => ?_
    cases r <;> exact within_pure _

theorem within_handler (e : Endpoint) :
    ((handler e).run x principal request).Within (Proper principal) := by
  cases principal with
  | none =>
    cases e with
    | userRegister => exact within_withBody fun _ _ => within_grpc ⟨actsFor_nobody rfl, trivial⟩
    | userLogin => exact within_withBody fun _ _ => within_grpc ⟨actsFor_nobody rfl, trivial⟩
    | questionFindLatest =>
      exact within_withBody fun _ _ => within_grpc ⟨actsFor_nobody rfl, trivial⟩
    | _ => exact within_pure _
  | some p =>
    cases e with
    | userRegister => exact within_withBody fun _ _ => within_grpc ⟨actsFor_nobody rfl, trivial⟩
    | userLogin => exact within_withBody fun _ _ => within_grpc ⟨actsFor_nobody rfl, trivial⟩
    | questionFindLatest =>
      exact within_withBody fun _ _ => within_grpc ⟨actsFor_nobody rfl, trivial⟩
    | userLogout =>
      exact within_withBody fun _ _ => within_token (within_grpc ⟨actsFor_nobody rfl, trivial⟩)
    | questionAdd =>
      exact within_withBody fun _ hv => within_username fun _ =>
        within_grpc ⟨actsFor_self rfl, AddQuestRequest.lengths (validate_of_jsonOrForm hv)⟩
    | answerAdd =>
      refine within_withBody fun _ hv => within_username fun _ =>
        within_grpc ⟨actsFor_self rfl, fun a ha => ?_⟩
      cases ha
      exact AnswerAddRequest.content_length (validate_of_jsonOrForm hv)
    | answerUpdate =>
      refine within_withBody fun _ hv => within_username fun _ =>
        within_grpc ⟨actsFor_self rfl, ?_⟩
      exact AnswerUpdateRequest.content_length (validate_of_jsonOrForm hv)
    | _ =>
      exact within_withBody fun _ _ => within_username fun _ =>
        within_grpc ⟨actsFor_self rfl, trivial⟩

theorem within_route (route : Route) :
    (route.run x principal request).Within (Proper principal) := by
  cases route with
  | get text =>
    simp only [Route.run]
    split <;> exact within_pure _
  | post e =>
    simp only [Route.run]
    split
    · exact within_handler e
    · exact within_pure _
  | apiNotFound => exact within_pure _
  | methodNotFound => exact within_pure _

/-- The answers by which a request came past `verify_token` as the principal. -/
def Verified (request : Request) (past : List Answer) (p : AuthenticatedPrincipal) : Prop :=
  ∃ id verification, [⟨.newV4, .ok id⟩, ⟨.timeout (.verifyToken ⟨p.token, Uuid.simple id⟩),
      .ok (some (.ok verification))⟩] <+: past ∧
    authorizationToken request.headers = .ok p.token ∧
    Router.authenticatedUsername verification = .ok p.username

def Passed (request : Request) (past : List Answer) : Option AuthenticatedPrincipal → Prop
  | none => isPublicPath request.path = true
  | some p => Verified request past p

theorem Passed.mono {past past' : List Answer} (h : Passed request past principal)
    (hpast : past <+: past') : Passed request past' principal := by
  cases principal with
  | none => exact h
  | some p =>
    obtain ⟨id, verification, hseen, hrest⟩ := h
    exact ⟨id, verification, hseen.trans hpast, hrest⟩

/-- What the gateway may call for a request after these answers. -/
def Permitted (request : Request) (past : List Answer) : Call → Prop
  | .rpc c => ∃ principal, Passed request past principal ∧ ActsFor principal c ∧ Checked c
  | .timeout c => ∃ token id, c = .verifyToken ⟨token, id⟩
  | .newV4 => True

theorem Passed.admitted {past : List Answer} (h : Passed request past principal) :
    principal.isSome = true ∨ isPublicPath request.path = true := by
  cases principal with
  | none => exact .inr h
  | some p => exact .inl rfl

def Unrelayed (past : List Answer) : Prop := ∀ a ∈ past, ∀ c, a.call ≠ .rpc c

theorem Unrelayed.snoc {past : List Answer} (h : Unrelayed past) {a : Answer}
    (ha : ∀ c, a.call ≠ .rpc c) : Unrelayed (past ++ [a]) := by
  intro a' ha'
  rcases List.mem_append.mp ha' with ha' | ha'
  · exact h a' ha'
  · rw [List.mem_singleton.mp ha']
    exact ha

/-- The middleware asks for one verification at most, and then it refuses the request or passes it
on. -/
theorem verifyToken_heeds {P : List Answer → Call → Prop}
    {next : Option AuthenticatedPrincipal → Gate A}
    {Q : List Answer → Except GatewayError A → Prop} (hnew : P [] .newV4)
    (hask : ∀ past token id, P past (.timeout (.verifyToken ⟨token, id⟩)))
    (herror : ∀ past e, Unrelayed past → isPublicPath request.path = false → Q past (.error e))
    (hnext : ∀ principal past, Unrelayed past → Passed request past principal →
      (next principal).Heeds P Q past) : (verifyToken request next).Heeds P Q [] := by
  have hnil : Unrelayed [] := fun _ h => absurd h List.not_mem_nil
  unfold verifyToken
  split
  next hpublic => exact hnext none [] hnil hpublic
  next hpublic =>
    have hpublic : isPublicPath request.path = false := Bool.eq_false_iff.mpr hpublic
    refine heeds_bind.mpr (heeds_ofExcept.mpr ?_)
    cases htoken : authorizationToken request.headers with
    | error e => exact herror _ e hnil hpublic
    | ok token =>
      refine heeds_bind.mpr (heeds_op.mpr ⟨hnew, fun id => ?_⟩)
      have hid : Unrelayed ([] ++ [⟨.newV4, id⟩]) := hnil.snoc fun _ h => by cases h
      cases id with
      | error e => exact herror _ e hid hpublic
      | ok id =>
        refine heeds_bind.mpr (heeds_op.mpr ⟨hask _ token id.simple, fun r => ?_⟩)
        have hr := hid.snoc (a := ⟨.timeout (.verifyToken ⟨token, id.simple⟩), r⟩)
          fun _ h => by cases h
        rcases r with e | _ | status | verification
        · exact herror _ e hr hpublic
        · exact herror _ _ hr hpublic
        · exact herror _ _ hr hpublic
        · refine heeds_bind.mpr (heeds_ofExcept.mpr ?_)
          cases husername : Router.authenticatedUsername verification with
          | error e => exact herror _ e hr hpublic
          | ok username =>
            exact hnext _ _ hr ⟨id, verification, List.prefix_refl _, htoken, husername⟩

theorem permitted_verifyToken (past : List Answer) (token id : String) :
    Permitted request past (.timeout (.verifyToken ⟨token, id⟩)) := ⟨token, id, rfl⟩

theorem headers_intoResponse (error : GatewayError) : error.intoResponse.headers = [] := by
  cases error with
  | grpcError status =>
    simp only [GatewayError.intoResponse]
    split <;> rfl
  | _ => rfl

def Owed (request : Request) (past : List Answer) : Except GatewayError Response → Prop
  | .ok response => (∃ principal, Passed request past principal) ∨ response.headers = []
  | .error _ => True

theorem app_heeds (x : Formats) (request : Request) :
    (app x request).Heeds (Permitted request) (Owed request) [] := by
  refine heeds_bind.mpr (heeds_attempt.mpr (verifyToken_heeds trivial permitted_verifyToken ?_ ?_))
  · exact fun _ error _ _ => .inr (headers_intoResponse error)
  intro principal past _ hpassed
  refine heeds_bind.mpr (((within_route _).heeds ?_ (List.prefix_refl past)).mono
    (fun _ _ => id) fun past' r hpast => ?_)
  · intro past' c hpast hc
    cases c with
    | rpc c => exact ⟨principal, hpassed.mono hpast, hc.1, hc.2⟩
    | timeout c => exact hc.elim
    | newV4 => exact hc.elim
  · cases r with
    | ok response => exact .inl ⟨principal, hpassed.mono hpast⟩
    | error error => exact .inr (headers_intoResponse error)

/-- What is left of a request that `verify_token` has passed on: its handler, run as the
principal. -/
def handling (x : Formats) (principal : Option AuthenticatedPrincipal) (request : Request) :
    Gate Response := do
  match ← (do return noCacheHeader (← (routeOf request.path).run x principal request) :
      Gate Response).attempt with
  | .ok response => return response
  | .error error => return error.intoResponse

/-- Only a handler sets headers, and its errors are caught below `no_cache_header`. -/
def Headed : Except GatewayError Response → Prop
  | .ok response => response.headers ≠ []
  | .error _ => False

variable {past : List Answer}

theorem isOk_withBody (handler : e.Payload → Gate e.Reply) :
    (withBody x handler request).Heeds (fun _ _ => True) (fun _ r => r.isOk = true) past := by
  unfold withBody
  split
  · rfl
  next payload _ =>
    have hhandler := (within_true (handler payload)).heeds (P := fun _ _ => True)
      (fun _ _ _ => id) past.nil_prefix
    refine heeds_bind.mpr (heeds_attempt.mpr (hhandler.mono (fun _ _ => id) fun _ r _ => ?_))
    cases r <;> rfl

theorem isOk_route (route : Route) :
    (route.run x principal request).Heeds (fun _ _ => True) (fun _ r => r.isOk = true) past := by
  cases route with
  | get text =>
    simp only [Route.run]
    split <;> rfl
  | post e =>
    simp only [Route.run]
    split
    · cases handler e with
      | body handler => exact isOk_withBody handler
      | principal handler =>
        cases principal with
        | none => rfl
        | some p => exact isOk_withBody (handler p)
    · rfl
  | apiNotFound => rfl
  | methodNotFound => rfl

theorem handling_headed : (handling x principal request).Heeds (fun _ _ => True)
    (fun _ => Headed) past := by
  refine heeds_bind.mpr (heeds_attempt.mpr (heeds_bind.mpr
    ((isOk_route _).mono (fun _ _ => id) fun past' r hr => ?_)))
  cases r with
  | ok response => exact List.cons_ne_nil _ _
  | error error => cases hr

theorem within_handling : (handling x principal request).Within (Proper principal) := by
  refine (((within_route _).bind fun _ => within_pure _).attempt).bind fun r => ?_
  cases r <;> exact within_pure _

theorem executed_answered {svc : QaServiceImpl} {s : System} {i : Nat} {fate : Fate} {c : Rpc}
    {script : List Choice} (h : executed svc s (.call i fate) = some (c, script)) :
    ∃ d call k r b, Server.Answers (serve svc) s i fate d call k r b ∧ call.service = some c := by
  simp only [executed] at h
  split at h
  next request past c' k hi =>
    obtain ⟨r, hr, h⟩ := Option.bind_eq_some_iff.mp h
    obtain ⟨script', -, hpair⟩ := Option.map_eq_some_iff.mp h
    cases hpair
    exact ⟨_, .rpc c, k, .ok r, ran svc fate c s.state, ⟨hi, rfl, by rw [serve, hr]; rfl⟩, rfl⟩
  next request past c' k hi =>
    obtain ⟨script', hrun, hpair⟩ := Option.map_eq_some_iff.mp h
    cases hpair
    have hserve : serve svc fate (.timeout c) s.state =
        some (.ok (answer svc fate c s.state), ran svc fate c s.state) := by
      cases fate with
      | uuid id => cases hrun
      | _ => rfl
    exact ⟨_, .timeout c, k, _, _, ⟨hi, rfl, hserve⟩, rfl⟩
  next => cases h

theorem executed_permitted {svc : QaServiceImpl} {s : System} {J : Made → Prop}
    (ht : ∀ e ∈ s.exchanges, Server.Traced (app x) J e) {i : Nat} {fate : Fate} {c : Rpc}
    {script : List Choice} (h : executed svc s (.call i fate) = some (c, script)) :
    ∃ d call, s.exchanges[i]? = some d ∧ Server.Traced (app x) J d ∧ call.service = some c ∧
      Permitted d.request d.answers call := by
  obtain ⟨d, call, k, r, b, hans, hcall⟩ := executed_answered h
  have hd := ht d (List.mem_of_getElem? hans.exchange)
  have hheeds := (app_heeds x d.request).reaches hd.reaches
  rw [hans.prog] at hheeds
  exact ⟨d, call, hans.exchange, hd, hcall, hheeds.1⟩

theorem executed_checked {svc : QaServiceImpl} {s : System} {J : Made → Prop}
    (ht : ∀ e ∈ s.exchanges, Server.Traced (app x) J e) {i : Nat} {fate : Fate} {c : Rpc}
    {script : List Choice} (h : executed svc s (.call i fate) = some (c, script)) :
    Checked c := by
  obtain ⟨d, call, -, -, hc, hpermitted⟩ := executed_permitted ht h
  cases call with
  | rpc c' =>
    cases hc
    obtain ⟨principal, -, -, hchecked⟩ := hpermitted
    exact hchecked
  | timeout c' =>
    cases hc
    obtain ⟨token, id, rfl⟩ := hpermitted
    trivial
  | newV4 => cases hc

theorem principal_of_verified {d : Exchanged} (h : Verified d.request d.answers p) :
    Gateway.principal d = some p.username := by
  obtain ⟨id, verification, ⟨rest, hrest⟩, -, hname⟩ := h
  rw [Gateway.principal, ← hrest]
  simp only [usernameOf, List.cons_append, List.findSome?_cons, hname]
  rfl

theorem executed_actor {svc : QaServiceImpl} {s : System} {J : Made → Prop}
    (ht : ∀ e ∈ s.exchanges, Server.Traced (app x) J e) {i : Nat} {fate : Fate} {c : Rpc}
    {script : List Choice} (h : executed svc s (.call i fate) = some (c, script)) {u : String}
    (hu : c.actor = some u) : ∃ d p, s.exchanges[i]? = some d ∧ Server.Traced (app x) J d ∧
      Verified d.request d.answers p ∧ p.username = u := by
  obtain ⟨d, call, hi, hd, hc, hpermitted⟩ := executed_permitted ht h
  cases call with
  | rpc c' =>
    cases hc
    obtain ⟨principal, hpassed, hacts, -⟩ := hpermitted
    obtain ⟨p, rfl, rfl⟩ := hacts u hu
    exact ⟨d, p, hi, hd, hpassed, rfl⟩
  | timeout c' =>
    cases hc
    obtain ⟨token, id, rfl⟩ := hpermitted
    cases hu
  | newV4 => cases hc

theorem verifyToken_passes (request : Request) :
    (verifyToken request pure).Heeds (Permitted request)
      (fun past r => ∀ principal, r = .ok principal → Passed request past principal) [] := by
  refine verifyToken_heeds trivial permitted_verifyToken (fun _ _ _ _ _ => nofun)
    fun principal past _ hpassed => ?_
  intro principal' h
  cases h
  exact hpassed

end QaSys.Gateway
