import QaSys.Service.Light

/-! The calls that leave the users, their sessions and the clock alone. -/

namespace QaSys

def Write.Plain : Write → Prop
  | .insertUser _ => False
  | _ => True

def Stmt.Plain : Stmt → Prop
  | .insertUser .. => False
  | _ => True

def Call.Plain : Call → Prop
  | .sql q => q.Plain
  | .begin | .tx _ | .commit | .rollback | .setEx .. | .del _ => False
  | _ => True

structure Store.Kept (s s' : Store) : Prop where
  quiet : s'.pg.Quiet
  users : s'.db.users = s.db.users
  strings : s'.strings = s.strings
  clock : s'.clock = s.clock
  supply : s'.supply = s.supply
  drawn : s.drawn ≤ s'.drawn

theorem Store.Kept.refl {s : Store} (h : s.pg.Quiet) : s.Kept s :=
  ⟨h, rfl, rfl, rfl, rfl, le_rfl⟩

theorem Store.live_congr {s s' : Store} {key : String} (h : s'.strings key = s.strings key)
    (hclock : s'.clock = s.clock) : s'.live key = s.live key := by
  simp only [Store.live, h, hclock]

theorem Store.live_of_none {s : Store} {key : String} (h : s.strings key = none) :
    s.live key = none := by
  simp only [Store.live, h]

theorem Db.users_foldl {ws : List Write} (h : ∀ w ∈ ws, w.Plain) (db : Db) :
    (ws.foldl Db.apply db).users = db.users := by
  induction ws generalizing db with
  | nil => rfl
  | cons w ws ih =>
    have hw : (db.apply w).users = db.users := by
      have := h w List.mem_cons_self
      cases w with
      | insertUser row => exact this.elim
      | _ => rfl
    rw [List.foldl_cons, ih fun v hv => h v (List.mem_cons_of_mem _ hv), hw]

theorem plain_map {α : Type} {f : α → Write} (h : ∀ a, (f a).Plain) {l : List α} :
    ∀ w ∈ l.map f, w.Plain := by
  simpa using fun a _ => h a

theorem plain_nil : ∀ w ∈ ([] : List Write), w.Plain := fun _ h => absurd h List.not_mem_nil

theorem Stmt.Plain.writes {q : Stmt} (hq : q.Plain) {seq : Seq} {db : Db} {a : q.Reply}
    {ws : List Write} (h : q.eval seq db = .ok (a, ws)) : ∀ w ∈ ws, w.Plain := by
  cases q with
  | insertUser username password openid createdAt => exact hq.elim
  | insertQuestion title content createdBy createdAt =>
    obtain ⟨row, -, rfl, -⟩ := eval_insertQuestion h
    simp [Write.Plain]
  | insertAnswer questionId content createdBy createdAt =>
    obtain ⟨row, -, rfl, -⟩ := eval_insertAnswer h
    simp [Write.Plain]
  | insertVote targetId targetType createdBy createdAt =>
    obtain ⟨row, -, rfl, -⟩ := eval_insertVote h
    simp [Write.Plain]
  | updateQuestion title content updatedAt updatedBy id =>
    obtain ⟨title', -, h⟩ := except_bind_eq_ok h
    obtain ⟨by', -, h⟩ := except_bind_eq_ok h
    cases h
    exact plain_map fun _ => by trivial
  | updateAnswer content updatedBy updatedAt id =>
    obtain ⟨by', -, h⟩ := except_bind_eq_ok h
    cases h
    exact plain_map fun _ => by trivial
  | latestQuestions limit =>
    obtain ⟨rows, -, h⟩ := except_bind_eq_ok h
    cases h
    exact plain_nil
  | questionsBelow lastId limit =>
    obtain ⟨rows, -, h⟩ := except_bind_eq_ok h
    cases h
    exact plain_nil
  | pageAnswers questionId limit offset =>
    obtain ⟨rows, -, h⟩ := except_bind_eq_ok h
    cases h
    exact plain_nil
  | deleteQuestion id createdBy => cases h; exact plain_map fun _ => by trivial
  | addReadCount increment id => cases h; exact plain_map fun _ => by trivial
  | deleteAnswer id createdBy => cases h; exact plain_map fun _ => by trivial
  | addAgree n updatedAt id => cases h; exact plain_map fun _ => by trivial
  | subAgree n updatedAt id => cases h; exact plain_map fun _ => by trivial
  | deleteVote targetId targetType createdBy => cases h; exact plain_map fun _ => by trivial
  | userId username => cases h; exact plain_nil
  | user username => cases h; exact plain_nil
  | question id => cases h; exact plain_nil
  | countAnswers questionId => cases h; exact plain_nil
  | answer id => cases h; exact plain_nil
  | vote targetId createdBy targetType => cases h; exact plain_nil
  | votesIn targetIds targetType createdBy => cases h; exact plain_nil

theorem Store.Kept.serve {s s' : Store} (h : s.Kept s') {c : Call} (hc : c.Plain) (ch : Choice) :
    s.Kept (Store.serve ch c s').2 := by
  cases c with
  | sql q =>
    rcases Store.serve_sql h.quiet.alone q ch with ⟨-, msg, hs⟩ | ⟨-, hs⟩
    · rw [hs]
      exact h
    · rw [hs]
      cases heval : q.eval s'.seq s'.db with
      | error msg => exact ⟨h.quiet, h.users, h.strings, h.clock, h.supply, h.drawn⟩
      | ok res =>
        obtain ⟨a, ws⟩ := res
        exact ⟨h.quiet, (Db.users_foldl (hc.writes heval) _).trans h.users, h.strings, h.clock,
          h.supply, h.drawn⟩
  | get key => cases ch <;> exact h
  | hincr key field delta =>
    cases ch <;> exact ⟨h.quiet, h.users, h.strings, h.clock, h.supply, h.drawn⟩
  | hscan key cursor pattern count => cases ch <;> exact h
  | send msg => cases ch <;> exact ⟨h.quiet, h.users, h.strings, h.clock, h.supply, h.drawn⟩
  | ack messageId => cases ch <;> exact ⟨h.quiet, h.users, h.strings, h.clock, h.supply, h.drawn⟩
  | now => exact h
  | newV4 => exact ⟨h.quiet, h.users, h.strings, h.clock, h.supply, h.drawn.trans (Nat.le_succ _)⟩
  | begin => exact hc.elim
  | tx q => exact hc.elim
  | commit => exact hc.elim
  | rollback => exact hc.elim
  | setEx key value seconds => exact hc.elim
  | del key => exact hc.elim

theorem Store.Kept.run {s : Store} (h : s.pg.Quiet) {p : Svc A} (hp : p.Within Call.Plain)
    (script : List Choice) : s.Kept (p.run World.exec ⟨s, script⟩).2.state :=
  hp.run_preserves (I := fun w : World => s.Kept w.state) (fun _ _ hc hk => hk.serve hc _) (.refl h)

/-- The calls that log nobody in or out and register nobody. -/
def Rpc.Plain : Rpc → Prop
  | .userLogin _ | .userLogout _ | .userRegister _ => False
  | _ => True

theorem Call.Light.plain {c : Call} (h : c.Light) : c.Plain := by
  cases c with
  | sql q => cases q <;> trivial
  | _ => trivial

section

open Prog

theorem Rpc.Plain.within {self : QaServiceImpl} {c : Rpc} (h : c.Plain) :
    (c.serve self).Within Call.Plain := by
  have light (hc : c.Light) : (c.serve self).Within Call.Plain :=
    hc.within.mono fun _ => Call.Light.plain
  cases c with
  | userLogin req => exact h.elim
  | userLogout req => exact h.elim
  | userRegister req => exact h.elim
  | addQuestion req =>
    exact within_handled ((within_query (by trivial)).bind fun _ => within_pure _) fun r => by
      cases r <;> trivial
  | deleteQuestion req =>
    exact within_handled ((within_query (by trivial)).bind fun _ => within_pure _) fun r => by
      cases r <;> trivial
  | updateQuestion req =>
    exact within_handled ((within_query (by trivial)).bind fun _ => within_pure _) fun r => by
      cases r <;> trivial
  | addAnswer req =>
    change (App.addAnswer req).Within Call.Plain
    unfold App.addAnswer
    split
    · trivial
    · exact within_handled ((within_query (by trivial)).bind fun _ => within_pure _) fun r => by
        cases r <;> trivial
  | deleteAnswer req =>
    exact within_handled ((within_query (by trivial)).bind fun _ => within_pure _) fun r => by
      cases r <;> trivial
  | updateAnswer req =>
    exact within_handled ((within_await (by trivial)).bind fun _ =>
      (within_query (by trivial)).bind fun _ => within_pure _) fun r => by cases r <;> trivial
  | _ => exact light trivial

end

theorem Backend.record_plain {b : Backend} {store : Store} {c : Rpc} (h : c.Plain)
    (r : Except Err (App.Reply c.Reply)) : b.record store c r = { b with store } := by
  cases c with
  | userLogin req => exact h.elim
  | userLogout req => exact h.elim
  | userRegister req => exact h.elim
  | _ => rfl

end QaSys
