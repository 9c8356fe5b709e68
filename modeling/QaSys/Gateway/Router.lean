import QaSys.Gateway.Handler

/-! `gateway/src/router.rs`. -/

namespace QaSys.Gateway

def maxTokenLength : Nat := 512

def maxUsernameLength : Nat := 64

def publicPaths : List String :=
  ["/", "/api/home", "/api/hello", "/api/user/register", "/api/user/login"]

def isPublicPath (path : String) : Bool := publicPaths.contains path

def authorizationToken (headers : HeaderMap) : Except GatewayError String :=
  match (headers.get "authorization").bind HeaderValue.toStr with
  | none => .error .unauthorized
  | some authorization => match Text.splitOnce ' ' authorization with
    | none => .error .unauthorized
    | some (scheme, token) =>
      if !Text.eqIgnoreAsciiCase scheme "Bearer" ∨ token.isEmpty ∨
          token.utf8ByteSize > maxTokenLength ∨ token.toList.any Text.isAsciiWhitespace then
        .error .unauthorized
      else .ok token

def Router.authenticatedUsername (response : Pb.VerifyTokenResponse) : Except GatewayError String :=
  if response.state ≠ 1 ∨ response.username.isEmpty ∨
      response.username.utf8ByteSize > maxUsernameLength then
    .error .unauthorized
  else .ok response.username

def mapVerificationError (status : Pb.Status) : GatewayError :=
  match status.code with
  | .invalidArgument | .unauthenticated | .permissionDenied => .unauthorized
  | _ => .grpcError status

/-- The middleware before the handlers, which are `next`. -/
def verifyToken (request : Request) (next : Option AuthenticatedPrincipal → Gate A) : Gate A := do
  if isPublicPath request.path then
    next none
  else
    let token ← Prog.ofExcept (authorizationToken request.headers)
    let requestId := (← await .newV4).simple
    match ← await (.timeout (.verifyToken ⟨token, requestId⟩)) with
    | none => throw .internalServerError
    | some (.error status) => throw (mapVerificationError status)
    | some (.ok verification) =>
      let username ← Prog.ofExcept (Router.authenticatedUsername verification)
      next (some ⟨username, token⟩)

def Endpoint.path : Endpoint → String
  | .userRegister => "/api/user/register"
  | .userLogin => "/api/user/login"
  | .userLogout => "/api/user/logout"
  | .questionAdd => "/api/question/add"
  | .questionDetail => "/api/question/detail"
  | .questionUpdate => "/api/question/update"
  | .questionDelete => "/api/question/delete"
  | .questionFindLatest => "/api/question/find_latest"
  | .answerAdd => "/api/answer/add"
  | .answerUpdate => "/api/answer/update"
  | .answerDelete => "/api/answer/delete"
  | .answerFindOne => "/api/answer/find_one"
  | .answerFindList => "/api/answer/find_list"
  | .answerAgree => "/api/user_vote/add"

def endpoints : List Endpoint :=
  [.userRegister, .userLogin, .userLogout, .questionAdd, .questionDetail, .questionUpdate,
    .questionDelete, .questionFindLatest, .answerAdd, .answerUpdate, .answerDelete, .answerFindOne,
    .answerFindList, .answerAgree]

inductive Route
  | get (text : String)
  | post (e : Endpoint)
  | apiNotFound
  | methodNotFound

/-- What is nested under `/api` has a fallback of its own. -/
def routeOf (path : String) : Route :=
  if path = "/" ∨ path = "/api/home" then .get root
  else if path = "/api/hello" then .get hello
  else match endpoints.find? (·.path = path) with
    | some e => .post e
    | none =>
      if path = "/api" ∨ (path.startsWith "/api/" ∧ path ≠ "/api/") then .apiNotFound
      else .methodNotFound

variable (x : Formats)

def Route.run (principal : Option AuthenticatedPrincipal) (request : Request) :
    Route → Gate Response
  | .get text => match request.method with
    | .get => pure { status := 200, body := .text text }
    | .head => pure { status := 200, body := .empty }
    | _ => pure { status := 405, body := .empty }
  | .post e => match request.method with
    | .post => (handler e).run x principal request
    | _ => pure { status := 405, body := .empty }
  | .apiNotFound => pure { status := 404, body := .reply 404 "api not found" }
  | .methodNotFound => pure { status := 405, body := .reply 405 "method not allowed" }

def app (request : Request) : Gate Response := do
  match ← (verifyToken request fun principal => do
      return noCacheHeader (← (routeOf request.path).run x principal request)).attempt with
  | .ok response => return response
  | .error error => return error.intoResponse

end QaSys.Gateway
