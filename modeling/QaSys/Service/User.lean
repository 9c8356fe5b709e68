import QaSys.Service.Answer
import QaSys.Core.Aes

/-! `qa-svc/src/core/user.rs`. -/

namespace QaSys

/-- What the service takes from the crates for ciphers, MD5 in hexadecimal, JSON and local time. -/
structure Crates where
  ciphers : Ciphers
  md5 : String → String
  toJson : UserSessionEntity → Except String String
  fromJson : String → Except String UserSessionEntity
  format : Int → String

structure Crates.Lawful (x : Crates) : Prop where
  ciphers : x.ciphers.Lawful
  fromJson_toJson {u : UserSessionEntity} {value : String} :
    x.toJson u = .ok value → x.fromJson value = .ok u

namespace User

variable (x : Crates)

def checkUserExist (username : String) : Svc Bool := do
  let user ← query (.userId username)
  return user.isSome

def add (username password : String) : Svc Unit := do
  let pwd := x.md5 password
  let openid := (← await .newV4).simple
  let createAt ← await .now
  let _ ← query (.insertUser username pwd openid createAt)

def fetchOne (username : String) : Svc UserEntity := do
  let user ← QaSys.fetchOne (← query (.user username))
  return user.toEntity

def session : Option String → Svc UserSessionEntity
  | none => throw (.anyhow "user session not found")
  | some val => match x.fromJson val with
    | .ok user => pure user
    | .error e => throw (.serde e)

def get (key : String) : Svc UserSessionEntity := do
  let value ← await (.get key)
  session x value

def set (key : String) (value : UserSessionEntity) (second : UInt64) : Svc Unit :=
  match x.toJson value with
  | .ok value => await (.setEx key value second)
  | .error e => throw (.serde e)

def del (key : String) : Svc Unit := await (.del key)

end User

end QaSys
