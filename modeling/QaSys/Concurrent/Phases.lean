import QaSys.Program.Protocol
import QaSys.Content.Effect
import QaSys.Vote.Stages

/-! The phases a database session goes through, and that the jobs of the service keep to them: the
calls of `proto/qa.proto`, the handling of a vote and the transfer of the read counts. -/

namespace QaSys.Concurrent

open UserVote

/-- A statement of its own that touches neither the votes nor their counts. -/
def Civil : Stmt → Prop
  | .addAgree .. | .subAgree .. | .insertVote .. | .deleteVote .. => False
  | _ => True

def Calm : Call → Prop
  | .sql q => Civil q
  | .begin | .tx _ | .commit | .rollback => False
  | _ => True

/-- How far the transaction of a session has got; `broken` can only be rolled back. -/
inductive Phase
  | idle
  | begun
  | placed (t : Int) (u : String)
  | counted (t : Int) (u : String)
  | dropped (t : Int) (u : String)
  | discounted (t : Int) (u : String)
  | broken
  deriving DecidableEq

namespace Phase

def allows : Phase → Call → Prop
  | _, .rollback => True
  | idle, .begin => True
  | idle, c => Calm c
  | begun, .tx (.insertVote _ targetType _ _) => targetType = "answer"
  | begun, .tx (.deleteVote _ targetType _) => targetType = "answer"
  | placed t _, .tx (.addAgree n _ id) => n = 1 ∧ id = t
  | dropped t _, .tx (.subAgree n _ id) => n = 1 ∧ id = t
  | counted .., .commit | discounted .., .commit => True
  | _, _ => False

def next : Phase → (c : Call) → Except Err c.Reply → Phase
  | _, .rollback, _ | _, .commit, _ => idle
  | idle, .begin, .ok _ => begun
  | begun, .tx (.insertVote t _ u _), .ok _ => placed t u
  | begun, .tx (.deleteVote t _ u), .ok (n : Nat) => if n = 1 then dropped t u else broken
  | placed t u, .tx (.addAgree ..), .ok (n : Nat) => if n = 1 then counted t u else broken
  | dropped t u, .tx (.subAgree ..), .ok (n : Nat) => if n = 1 then discounted t u else broken
  | φ, _, _ => φ

/-- A session waits only for one that is further. -/
def rank : Phase → Nat
  | idle | begun => 0
  | placed .. | dropped .. => 1
  | counted .. | discounted .. | broken => 2

end Phase

def protocol : Protocol Call Call.Reply Err Phase := ⟨Phase.allows, Phase.next⟩

abbrev Keeps (φ : Phase) (p : Svc A) : Prop := p.Keeps protocol (fun φ _ => φ = .idle) φ

open Prog

theorem Calm.keeps {p : Svc A} (h : p.Within Calm) : Keeps .idle p := by
  refine h.keeps (fun c hc => ?_) fun c hc r => ?_
  · cases c <;> first | exact hc | trivial
  · cases c with
    | begin => exact hc.elim
    | tx q => exact hc.elim
    | _ => rfl

def Served : Call → Prop
  | .sql (.addReadCount ..) => False
  | c => Calm c

theorem Served.calm {c : Call} (h : Served c) : Calm c := by
  unfold Served at h
  split at h
  · exact h.elim
  · exact h

theorem Served.of_aside {c : Call} (h : Content.Aside c) : Served c := by
  cases c with
  | sql q =>
    rcases h with h | ⟨_, _, _, _, rfl⟩
    · cases q <;> trivial
    · trivial
  | begin => exact h.elim
  | tx q => exact h.elim
  | commit => exact h.elim
  | rollback => exact h.elim
  | _ => trivial

theorem within_serve {svc : QaServiceImpl} (c : Rpc) : (c.serve svc).Within Served := by
  have aside {c : Rpc} (h : (c.serve svc).Within Content.Aside) : (c.serve svc).Within Served :=
    h.mono fun _ => .of_aside
  have light {c : Rpc} (h : c.Light) : (c.serve svc).Within Served :=
    aside (h.within.mono fun _ => .of_light)
  cases c with
  | userLogin req => exact aside (Content.aside_userLogin req)
  | userLogout req => exact aside (Content.aside_userLogout req)
  | userRegister req => exact aside (Content.aside_userRegister req)
  | addQuestion req =>
    exact within_handled ((within_query (by trivial)).bind fun _ => within_pure _) fun r => by
      cases r <;> trivial
  | deleteQuestion req =>
    exact within_handled ((within_query (by trivial)).bind fun _ => within_pure _) fun r => by
      cases r <;> trivial
  | updateQuestion req =>
    exact within_handled ((within_query (by trivial)).bind fun _ => within_pure _) fun r => by
      cases r <;> trivial
  | addAnswer req =>
    change (App.addAnswer req).Within Served
    unfold App.addAnswer
    split
    · trivial
    · exact within_handled ((within_query (by trivial)).bind fun _ => within_pure _) fun r => by
        cases r <;> trivial
  | deleteAnswer req =>
    exact within_handled ((within_query (by trivial)).bind fun _ => within_pure _) fun r => by
      cases r <;> trivial
  | updateAnswer req =>
    exact within_handled ((within_await (by trivial)).bind fun _ =>
      (within_query (by trivial)).bind fun _ => within_pure _) fun r => by cases r <;> trivial
  | _ => exact light trivial

/-- What happens between `begin` and the end of a transaction, whichever way it ends. -/
theorem keeps_transaction {body : Svc A} {Q : Phase → Except Err A → Prop}
    (hfail : ∀ e, Q .idle (.error e))
    (hbody : body.Keeps protocol (fun φ r => match r with
      | .ok a => Q φ (.ok a)
      | .error e => Q .idle (.error e)) .begun) :
    (transaction body).Keeps protocol Q .idle := by
  refine keeps_bind.mpr (keeps_op.mpr ⟨trivial, fun r => ?_⟩)
  cases r with
  | error e => exact hfail e
  | ok _ =>
    refine keeps_tryCatch.mpr (hbody.mono fun φ r hr => ?_)
    cases r with
    | ok a => exact hr
    | error e =>
      refine keeps_bind.mpr (keeps_op.mpr ⟨?_, fun r => ?_⟩)
      · cases φ <;> trivial
      · cases φ <;> cases r <;> first | exact hr | exact hfail _

theorem keeps_ensure {cond : Bool} {msg : String} {φ : Phase} {Q : Phase → Except Err Unit → Prop} :
    (ensure cond msg).Keeps protocol Q φ ↔
      (cond = true → Q φ (.ok ())) ∧ (cond = false → Q φ (.error (.anyhow msg))) := by
  cases cond <;> simp [ensure]

def Over (φ : Phase) : Except Err A → Prop
  | .ok _ => φ = .idle
  | .error _ => True

theorem keeps_over {body : Svc A} (h : body.Keeps protocol Over .begun) :
    Keeps .idle (transaction body) :=
  keeps_transaction (fun _ => rfl) (h.mono fun _ r hr => by cases r <;> first | exact hr | rfl)

variable {t now : Int} {u : String}

theorem keeps_settle {φ : Phase} (hφ : φ.allows .commit) :
    Overlap.settle.Keeps protocol Over φ := by
  refine keeps_bind.mpr (keeps_op.mpr ⟨hφ, fun r => ?_⟩)
  cases r with
  | error e => trivial
  | ok _ => cases φ <;> rfl

theorem keeps_single (q : Stmt) (f : q.Reply → Nat) {φ : Phase} (φ' : Phase) {rest : Svc Bool}
    {msg : String} (hq : φ.allows (.tx q)) (hnext : ∀ n, f n = 1 → φ.next (.tx q) (.ok n) = φ')
    (hrest : rest.Keeps protocol Over φ') : (do
      let n ← await (.tx q)
      ensure (f n = 1) msg
      rest).Keeps protocol Over φ := by
  refine keeps_bind.mpr (keeps_op.mpr ⟨hq, fun r => ?_⟩)
  cases r with
  | error e => trivial
  | ok n =>
    refine keeps_bind.mpr (keeps_ensure.mpr ⟨fun hone => ?_, fun _ => trivial⟩)
    change rest.Keeps protocol Over (φ.next (.tx q) (.ok n))
    rw [hnext n (of_decide_eq_true hone)]
    exact hrest

theorem keeps_place : (Overlap.place t u now).Keeps protocol Over .begun :=
  keeps_single (.insertVote t "answer" u now) id (.placed t u) rfl (fun _ _ => rfl) <|
    keeps_single (.addAgree 1 now t) id (.counted t u) ⟨rfl, rfl⟩ (fun _ h => if_pos h)
      (keeps_settle trivial)

theorem keeps_drop : (Overlap.drop t u now).Keeps protocol Over .begun :=
  keeps_single (.deleteVote t "answer" u) id (.dropped t u) rfl (fun _ h => if_pos h) <|
    keeps_single (.subAgree 1 now t) id (.discounted t u) ⟨rfl, rfl⟩ (fun _ h => if_pos h)
      (keeps_settle trivial)

theorem Calm.bind {p : Svc A} {f : A → Svc B} (hp : p.Within Calm) (hf : ∀ a, Keeps .idle (f a)) :
    Keeps .idle (p >>= f) := by
  refine keeps_bind.mpr ((Calm.keeps hp).mono fun φ r hr => ?_)
  subst hr
  cases r with
  | ok a => exact hf a
  | error e => rfl

theorem keeps_handlerAnswerAgree (id : UInt64) (u action : String) :
    Keeps .idle (handlerAnswerAgree id u action) := by
  have vote : Keeps .idle (voteAnswer id u) :=
    Calm.bind within_context fun _ => Calm.bind (within_await trivial) fun _ =>
      keeps_over keeps_place
  have cancel : Keeps .idle (cancelVoteAnswer id u) :=
    Calm.bind within_context fun _ => Calm.bind (within_await trivial) fun _ =>
      keeps_over keeps_drop
  refine Calm.bind ((within_query trivial).bind fun _ => within_pure _) fun hasVoted => ?_
  by_cases hup : action = "up"
  · rw [if_pos hup]
    cases hasVoted with
    | true => exact rfl
    | false => exact vote
  by_cases hdown : action = "down"
  · rw [if_neg hup, if_pos hdown]
    cases hasVoted with
    | true => exact cancel
    | false => exact rfl
  · rw [if_neg hup, if_neg hdown]
    exact rfl

theorem keeps_onMessage (msg : Delivery) : Keeps .idle (onMessage "answer" msg) := by
  obtain ⟨id, payload⟩ := msg
  cases payload with
  | error e => exact rfl
  | ok data =>
    refine keeps_bind.mpr (keeps_attempt.mpr (keeps_bind.mpr
      ((keeps_handlerAnswerAgree _ _ _).mono fun φ r hr => ?_)))
    subst hr
    cases r with
    | error e => exact rfl
    | ok done => exact Calm.keeps (within_await trivial)

theorem calm_handler (rounds : Nat) (targetType : String) :
    (Question.handler rounds targetType).Within Calm := by
  have calm_flushField (reply : String × Int) :
      (Question.flushField targetType reply).Within Calm := by
    unfold Question.flushField
    split
    · trivial
    · refine within_handled ((within_query trivial).bind fun n => ?_) fun r => by
        cases r <;> trivial
      split
      · trivial
      · exact (within_await trivial).bind fun _ => within_pure _
  have calm_fields (replies : List (String × Int)) :
      (replies.forM (Question.flushField targetType)).Within Calm := by
    induction replies with
    | nil => trivial
    | cons reply replies ih => exact (calm_flushField reply).bind fun _ => ih
  have calm_scan (rounds : Nat) (cursor : UInt64) :
      (Question.handlerRedisTopg targetType rounds cursor).Within Calm := by
    induction rounds generalizing cursor with
    | zero => trivial
    | succ rounds ih =>
      refine Within.bind ((within_await trivial).bind fun page =>
        (calm_fields page.2).bind fun _ => within_pure _) fun cursor => ?_
      split
      · exact within_pure _
      · exact ih cursor
  exact (calm_scan rounds 0).bind fun _ => within_pure _

end QaSys.Concurrent
