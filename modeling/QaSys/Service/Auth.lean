import QaSys.Service.App
import QaSys.Service.User
import QaSys.Data.Decimal
import QaSys.Data.Text

/-! The calls of `qa-svc/src/application/app.rs` on users and their tokens. -/

namespace QaSys

structure QaServiceImpl where
  crates : Crates
  aesCrypto : AesCBCCrypto

namespace QaServiceImpl

open Pb App

def sessionKey (openid : String) : String := s!"user_login:{openid}"

def payload (loginId openid : String) (expired : Int) : String := s!"{loginId}:{openid}:{expired}"

variable (self : QaServiceImpl)

/-- The openid of the user the token is for, when the token is in order. -/
def checkToken (token : String) : Svc (Except String String) := do
  if token.isEmpty then return .error "token length invalid"
  match self.aesCrypto.decrypt self.crates.ciphers token with
  | .error error => return .error s!"parse token error:{error.debug}"
  | .ok payload =>
    match Text.split ':' payload with
    | [_loginId, openid, expireTime] =>
      if openid.utf8ByteSize ≠ 32 then return .error "token length invalid"
      match parseI64 expireTime with
      | .error error => return .error s!"token expire_time parse error:{error}"
      | .ok expireTime =>
        let currentTime ← await .now
        if currentTime ≥ expireTime then return .error "token has expired"
        return .ok openid
    | _ => return .error "token invalid"

def rejected (err : String) : Reply A :=
  if Text.contains err "token has expired" then .error ⟨.unauthenticated, "token has expired"⟩
  else .error ⟨.invalidArgument, err⟩

def userLogin (req : UserLoginRequest) : Svc (Reply UserLoginResponse) := do
  match ← (User.fetchOne req.username).attempt with
  | .ok u =>
    let pwd := self.crates.md5 req.password
    if u.password ≠ pwd then
      return .error ⟨.invalidArgument, s!"用户 {req.username} 输入的密码错误"⟩
    let key := sessionKey u.openid
    match ← (User.get self.crates key).attempt with
    | .ok _ => return .error ⟨.alreadyExists, s!"用户 {req.username} 已经登陆，请不要重复登录"⟩
    | .error _ =>
      let loginId := (← await .newV4).simple
      let loginTime ← await .now
      let expired := loginTime + 86400
      match self.aesCrypto.encrypt self.crates.ciphers (payload loginId u.openid expired) with
      | .error e => throw (.panic s!"fail to encrypt token: {e.debug}")
      | .ok token =>
        let userSession : UserSessionEntity :=
          ⟨u.id, u.username, u.openid, self.crates.format loginTime, self.crates.format expired⟩
        match ← (User.set self.crates key userSession 86400).attempt with
        | .error e => return .error ⟨.internal, s!"保存 Session 失败: {e.toString}"⟩
        | .ok _ => return .ok ⟨token⟩
  | .error (.sqlx .rowNotFound) => return .error ⟨.unknown, s!"当前用户 {req.username} 未注册"⟩
  | .error (.sqlx (.other msg)) =>
    return .error ⟨.internal, s!"用户 {req.username} 登陆发生未知错误: {msg}"⟩
  | .error err => throw (.panic s!"fail to conver into sqlx error: {err.toString}")

def userLogout (req : UserLogoutRequest) : Svc (Reply StateResponse) := do
  match ← self.checkToken req.token with
  | .error err => return rejected err
  | .ok openid =>
    match ← (User.del (sessionKey openid)).attempt with
    | .error err => return .error ⟨.aborted, s!"用户登出 失败:{err.toString}"⟩
    | .ok _ => return .ok ⟨1⟩

def userRegister (req : UserRegisterRequest) : Svc (Reply StateResponse) := do
  match ← (User.checkUserExist req.username).attempt with
  | .error error => return .error ⟨.internal, s!"查询用户 {req.username} 失败:{error.toString}"⟩
  | .ok true => return .error ⟨.alreadyExists, "用户名已存在"⟩
  | .ok false =>
    match ← (User.add self.crates req.username req.password).attempt with
    | .error error => return .error ⟨.unknown, s!"用户 {req.username} 注册失败:{error.toString}"⟩
    | .ok _ => return .ok ⟨1⟩

/-- A session that is there but cannot be read answers with state 1 too, without a name. -/
def verifyToken (req : VerifyTokenRequest) : Svc (Reply VerifyTokenResponse) := do
  match ← self.checkToken req.token with
  | .error err => return rejected err
  | .ok openid =>
    match ← (User.get self.crates (sessionKey openid)).attempt with
    | .error err =>
      if Text.contains err.toString "session not found" then
        return .ok ⟨0, "login session not found", ""⟩
      return .ok ⟨1, s!"Unkown error: {err.toString}", ""⟩
    | .ok user => return .ok ⟨1, "", user.username⟩

end QaServiceImpl

end QaSys
