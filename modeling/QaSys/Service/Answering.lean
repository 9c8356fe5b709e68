import QaSys.Program.Yields
import QaSys.Service.Rpc

/-! The service answers every call, however its stores answer. -/

namespace QaSys

open Prog

/-- PostgreSQL fails with errors of its own, and the clock and the identifiers never fail. -/
def Call.Answers : (c : Call) → Except Err c.Reply → Prop
  | .sql _, r => ∀ e, r = .error e → ∃ e', e = .sqlx e'
  | .now, r | .newV4, r => r.isOk = true
  | _, _ => True

theorem answers_serve (ch : Choice) (c : Call) (s : Store) : c.Answers (Store.serve ch c s).1 := by
  cases c with
  | sql q =>
    have hstatement : ∀ e, ((s.statement q (Transaction.Sessions.auto journal 0)).getD
        (.error (.sqlx (.other "lock timeout")), s)).1 = .error e → ∃ e', e = .sqlx e' := by
      intro e he
      unfold Store.statement at he
      split at he
      swap
      · exact ⟨_, (Except.error.inj he).symm⟩
      cases hvia : Transaction.Sessions.auto journal 0 (q.eval s.seq) s.pg with
      | none =>
        rw [hvia] at he
        exact ⟨_, (Except.error.inj he).symm⟩
      | some a =>
        rw [hvia] at he
        obtain ⟨r, pg⟩ := a
        cases r with
        | ok a => cases he
        | error msg => exact ⟨_, (Except.error.inj he).symm⟩
    intro e he
    cases ch with
    | fail msg => exact ⟨_, (Except.error.inj he).symm⟩
    | lost msg => exact ⟨_, (Except.error.inj he).symm⟩
    | _ => exact hstatement e he
  | now => cases ch <;> rfl
  | newV4 => cases ch <;> rfl
  | _ => trivial

variable (svc : QaServiceImpl)

/-- The service replies to the call, or it panics at a login whose token cannot be encrypted. -/
def Rpc.Answered (c : Rpc) (r : Except Err (App.Reply c.Reply)) : Prop :=
  (∃ reply, r = .ok reply) ∨ ∃ req text e, c = .userLogin req ∧
    svc.aesCrypto.encrypt svc.crates.ciphers text = .error e ∧
    r = .error (.panic s!"fail to encrypt token: {e.debug}")

variable {svc}

theorem answered_userLogin (req : Pb.UserLoginRequest) :
    (svc.userLogin req).Yields Call.Answers (Rpc.Answered svc (.userLogin req)) := by
  have hfetch : (User.fetchOne req.username).Yields Call.Answers fun r =>
      ∀ e, r = .error e → ∃ e', e = .sqlx e' := by
    refine yields_bind.mpr (yields_op.mpr fun r hr => ?_)
    cases r with
    | error e =>
      intro e' he
      exact hr e' (congrArg _ (Except.error.inj he))
    | ok row =>
      cases row with
      | none =>
        intro e he
        exact ⟨_, (Except.error.inj he).symm⟩
      | some row =>
        intro e he
        cases he
  refine yields_bind.mpr (yields_attempt.mpr (hfetch.mono fun r hr => ?_))
  cases r with
  | error e =>
    obtain ⟨e', rfl⟩ := hr e rfl
    cases e' with
    | rowNotFound => exact .inl ⟨_, rfl⟩
    | other msg => exact .inl ⟨_, rfl⟩
  | ok u =>
    dsimp only
    split
    · exact .inl ⟨_, rfl⟩
    · refine yields_handled fun r => ?_
      cases r with
      | ok user => exact .inl ⟨_, rfl⟩
      | error err =>
        refine yields_bind.mpr (yields_op.mpr fun loginId hid => ?_)
        cases loginId with
        | error e => cases hid
        | ok loginId =>
        refine yields_bind.mpr (yields_op.mpr fun loginTime htime => ?_)
        cases loginTime with
        | error e => cases htime
        | ok loginTime =>
        dsimp only
        split
        next e he => exact .inr ⟨req, _, e, rfl, he, rfl⟩
        next token _ =>
          refine yields_handled fun r => ?_
          cases r <;> exact .inl ⟨_, rfl⟩

theorem checkToken_yields {token : String} {f : Except String String → Svc A}
    {Q : Except Err A → Prop} (h : ∀ r, (f r).Yields Call.Answers Q) :
    (svc.checkToken token >>= f).Yields Call.Answers Q := by
  have hcheck : (svc.checkToken token).Yields Call.Answers fun r => ∃ a, r = .ok a := by
    unfold QaServiceImpl.checkToken
    split
    · exact ⟨_, rfl⟩
    split
    · exact ⟨_, rfl⟩
    split
    · split
      · exact ⟨_, rfl⟩
      split
      · exact ⟨_, rfl⟩
      · refine yields_bind.mpr (yields_op.mpr fun r hr => ?_)
        cases r with
        | error e => cases hr
        | ok currentTime =>
          dsimp only
          split <;> exact ⟨_, rfl⟩
    · exact ⟨_, rfl⟩
  refine yields_bind.mpr (hcheck.mono fun r ⟨a, ha⟩ => ?_)
  subst ha
  exact h a

theorem answered_agreeAnswer {req : Pb.AgreeAnswerRequest}
    {Q : Except Err (App.Reply Pb.AgreeAnswerResponse) → Prop} (h : ∀ reply, Q (.ok reply)) :
    (App.agreeAnswer req).Yields Call.Answers Q := by
  refine yields_handled fun r => ?_
  cases r with
  | error err => exact h _
  | ok answer =>
    refine yields_handled fun voted => ?_
    cases voted <;>
    · dsimp only
      split
      · exact h _
      · split
        · exact h _
        · exact yields_handled fun r => by cases r <;> exact h _

theorem rpc_yields (c : Rpc) : (c.serve svc).Yields Call.Answers (Rpc.Answered svc c) := by
  have reply {c : Rpc} {r : App.Reply c.Reply} : Rpc.Answered svc c (.ok r) := .inl ⟨r, rfl⟩
  cases c with
  | userLogin req => exact answered_userLogin req
  | userLogout req =>
    refine checkToken_yields fun r => ?_
    cases r with
    | error err => exact reply
    | ok openid => exact yields_handled fun r => by cases r <;> exact reply
  | userRegister req =>
    refine yields_handled fun r => ?_
    rcases r with err | _ | _
    · exact reply
    · exact yields_handled fun r => by cases r <;> exact reply
    · exact reply
  | verifyToken req =>
    refine checkToken_yields fun r => ?_
    cases r with
    | error err => exact reply
    | ok openid =>
      refine yields_handled fun r => ?_
      cases r with
      | error err => dsimp only; split <;> exact reply
      | ok user => exact reply
  | addAnswer req =>
    obtain ⟨answer⟩ := req
    cases answer with
    | none => exact reply
    | some answer => exact yields_handled fun r => by cases r <;> exact reply
  | agreeAnswer req => exact answered_agreeAnswer fun _ => reply
  | answerAgree req => exact answered_agreeAnswer fun _ => reply
  | questionDetail req =>
    refine yields_handled fun r => ?_
    cases r with
    | error err => exact reply
    | ok question => exact yields_handled fun r => by cases r <;> exact reply
  | latestQuestion req =>
    refine yields_handled fun r => ?_
    cases r with
    | error err => exact reply
    | ok result => dsimp only; split <;> exact reply
  | answerList req =>
    refine yields_handled fun r => ?_
    cases r with
    | error err => exact reply
    | ok res =>
      dsimp only
      split
      · exact reply
      · exact yields_handled fun r => reply
  | answerDetail req =>
    refine yields_handled fun r => ?_
    cases r with
    | error err => exact reply
    | ok answer => exact yields_handled fun r => reply
  | _ => exact yields_handled fun r => by cases r <;> exact reply

/-- The service replies to every call, whatever its stores hold and whichever of its calls fail, or
it panics at a login whose token cannot be encrypted. -/
theorem rpc_answered (svc : QaServiceImpl) (s : Store) (script : List Choice) (c : Rpc) :
    Rpc.Answered svc c ((c.serve svc).run World.exec ⟨s, script⟩).1 :=
  (rpc_yields c).run (h := World.exec) (I := fun _ => True)
    (fun c w _ => answers_serve _ c w.state) (fun _ _ _ => id) (within_true _) trivial

end QaSys
