import QaSys.Program.Demonic
import QaSys.Store.Sql
import QaSys.Data.Uuid

/-! The calls of the service to PostgreSQL, Redis, Pulsar, the clock and the generator of UUIDs, and
what the environment may answer. -/

namespace QaSys

inductive Call
  | sql (q : Stmt)
  | begin | tx (q : Stmt) | commit | rollback
  | get (key : String) | setEx (key value : String) (seconds : UInt64) | del (key : String)
  | hincr (key field : String) (delta : Int)
  | hscan (key : String) (cursor : UInt64) (pattern : String) (count : UInt64)
  | send (msg : VoteMessage) | ack (messageId : Nat)
  | now | newV4
  deriving DecidableEq

@[reducible] def Call.Reply : Call → Type
  | .sql q | .tx q => q.Reply
  | .get _ => Option String
  | .hincr .. => Int
  | .hscan .. => UInt64 × List (String × Int)
  | .now => Int
  | .newV4 => Uuid
  | _ => Unit

inductive SqlxError
  | rowNotFound
  | other (msg : String)
  deriving DecidableEq

/-- The kinds of `anyhow::Error` the service builds; `panic` is the unwinding of an `expect`,
and `diverged` stands for a loop that is not given enough turns to end. -/
inductive Err
  | sqlx (e : SqlxError)
  | redis (msg : String)
  | pulsar (msg : String)
  | serde (msg : String)
  | parse (msg : String)
  | anyhow (msg : String)
  | panic (msg : String)
  | diverged
  deriving DecidableEq

def SqlxError.toString : SqlxError → String
  | .rowNotFound => "no rows returned by a query that expected to return at least one row"
  | .other msg => msg

def Err.toString : Err → String
  | .sqlx e => e.toString
  | .diverged => ""
  | .redis msg | .pulsar msg | .serde msg | .parse msg | .anyhow msg | .panic msg => msg

/-- What the environment does at a call: it serves it, refuses it without effect, or stores the
message and loses the receipt; an HSCAN may return any page, a GET a value nobody can read.  A
statement, a COMMIT or a SETEX that comes back with an error is taken not to have had effect. -/
inductive Choice
  | serve
  | fail (msg : String)
  | lost (msg : String)
  | page (next : UInt64) (fields : List (String × Int))
  | raw (value : String)
  deriving DecidableEq

def Choice.Faulty : Choice → Prop
  | .fail _ | .lost _ => True
  | _ => False

instance : DecidablePred Choice.Faulty := fun ch => by
  cases ch <;> unfold Choice.Faulty <;> infer_instance

/-- The statement is not executed: the call fails, or PostgreSQL does not take its texts. -/
def Choice.Refuses (ch : Choice) (q : Stmt) : Prop := ch.Faulty ∨ ¬ q.Bindable

instance (ch : Choice) (q : Stmt) : Decidable (ch.Refuses q) :=
  inferInstanceAs (Decidable (_ ∨ _))

structure Store where
  pg : Transaction.Sessions Db Write
  seq : Seq
  strings : String → Option (String × Int)
  hashes : String → List (String × Int)
  topic : List VoteMessage
  acked : List Nat
  clock : Int
  supply : Nat → Uuid
  drawn : Nat

namespace Store

def empty (size : Nat) (clock : Int) (supply : Nat → Uuid) : Store where
  pg := ⟨Db.empty, size, fun _ => none⟩
  seq := ⟨0, 0, 0, 0⟩
  strings _ := none
  hashes _ := []
  topic := []
  acked := []
  clock := clock
  supply := supply
  drawn := 0

def db (s : Store) : Db := s.pg.db

def live (s : Store) (key : String) : Option String :=
  match s.strings key with
  | some (value, expiry) => if s.clock < expiry then some value else none
  | none => none

def hget (fields : List (String × Int)) (field : String) : Int := (fields.lookup field).getD 0

def hincr (fields : List (String × Int)) (field : String) (delta : Int) : List (String × Int) :=
  if fields.any (·.1 = field) then fields.map fun f => if f.1 = field then (f.1, f.2 + delta) else f
  else fields ++ [(field, delta)]

/-- Run a statement through `via`, which is either a transaction of its own or the open one. -/
def statement (s : Store) (q : Stmt)
    (via : (Db → Except String (q.Reply × List Write)) → Transaction.Sessions Db Write →
      Option (Except String q.Reply × Transaction.Sessions Db Write)) :
    Option (Except Err q.Reply × Store) :=
  if q.Bindable then
    (via (q.eval s.seq) s.pg).map fun r =>
      (r.1.mapError fun msg => .sqlx (.other msg), { s with pg := r.2, seq := q.draw s.seq })
  else some (.error (.sqlx (.other invalidText)), s)

/-- The answer to a call of session `i`; `none` when the session has to wait for a row lock.
Dropping a transaction without a commit always rolls it back. -/
def exec (i : Nat) (ch : Choice) : (c : Call) → Store → Option (Except Err c.Reply × Store)
  | .sql q, s => match ch with
    | .fail msg | .lost msg => some (.error (.sqlx (.other msg)), s)
    | _ => s.statement q (Transaction.Sessions.auto journal i)
  | .begin, s => match ch with
    | .fail msg | .lost msg => some (.error (.sqlx (.other msg)), s)
    | _ => some (.ok (), { s with pg := s.pg.start i })
  | .tx q, s => match ch with
    | .fail msg | .lost msg => some (.error (.sqlx (.other msg)), s)
    | _ => s.statement q (Transaction.Sessions.stmt journal i)
  | .commit, s => match ch with
    | .fail msg | .lost msg => some (.error (.sqlx (.other msg)), { s with pg := s.pg.rollback i })
    | _ => some (.ok (), { s with pg := s.pg.commit journal i })
  | .rollback, s => some (.ok (), { s with pg := s.pg.rollback i })
  | .get key, s => match ch with
    | .fail msg | .lost msg => some (.error (.redis msg), s)
    | .raw value => some (.ok (some value), s)
    | _ => some (.ok (s.live key), s)
  | .setEx key value seconds, s => match ch with
    | .fail msg | .lost msg => some (.error (.redis msg), s)
    | _ => some (.ok (), { s with
        strings := Function.update s.strings key (some (value, s.clock + seconds.toNat)) })
  | .del key, s => match ch with
    | .fail msg | .lost msg => some (.error (.redis msg), s)
    | _ => some (.ok (), { s with strings := Function.update s.strings key none })
  | .hincr key field delta, s => match ch with
    | .fail msg | .lost msg => some (.error (.redis msg), s)
    | _ =>
      let fields := hincr (s.hashes key) field delta
      some (.ok (hget fields field), { s with hashes := Function.update s.hashes key fields })
  | .hscan key _ _ _, s => match ch with
    | .fail msg | .lost msg => some (.error (.redis msg), s)
    | .page next fields => some (.ok (next, fields), s)
    | _ => some (.ok (0, s.hashes key), s)
  | .send msg, s => match ch with
    | .fail e => some (.error (.pulsar e), s)
    | .lost e => some (.error (.pulsar e), { s with topic := s.topic ++ [msg] })
    | _ => some (.ok (), { s with topic := s.topic ++ [msg] })
  | .ack messageId, s => match ch with
    | .fail e | .lost e => some (.error (.pulsar e), s)
    | _ => some (.ok (), { s with acked := s.acked ++ [messageId] })
  | .now, s => some (.ok s.clock, s)
  | .newV4, s => some (.ok (s.supply s.drawn), { s with drawn := s.drawn + 1 })

end Store

def Store.serve (ch : Choice) (c : Call) (s : Store) : Except Err c.Reply × Store :=
  (s.exec 0 ch c).getD (.error (.sqlx (.other "lock timeout")), s)

abbrev World := Scripted Store Choice

def World.exec (c : Call) (w : World) : Except Err c.Reply × World :=
  Prog.scripted Store.serve .serve c w

abbrev Svc (A : Type) := Prog Call Call.Reply Err A

def await (c : Call) : Svc c.Reply := Prog.op c

def query (q : Stmt) : Svc q.Reply := await (.sql q)

def ensure (cond : Bool) (msg : String) : Svc Unit :=
  if cond then pure () else throw (.anyhow msg)

def context (o : Option A) (msg : String) : Svc A :=
  match o with
  | some a => pure a
  | none => throw (.anyhow msg)

end QaSys
