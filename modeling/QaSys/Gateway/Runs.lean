import QaSys.Gateway.Router
import QaSys.Program.Exchanges
import QaSys.Content.Runs
import QaSys.Auth.Revocation

/-! Runs of the gateway: requests arrive and go on one call at a time, while the service is called by
others, its consumer handles votes, and the clock goes on. -/

namespace QaSys

def Backend.next (svc : QaServiceImpl) (b : Backend) : Content.Event → Backend
  | .rpc c script => b.call svc script c
  | e => { b with store := Content.next svc b.store e }

section

open UserVote

variable {svc : QaServiceImpl} {s s' : Store} {script : List Choice}

theorem UserVote.Handled.users {t : Int} {u action : String} {r : Except Err Bool}
    (h : Handled s t u action s' r) : s'.db.users = s.db.users := by
  cases h with
  | refused hdb => rw [hdb]
  | again _ _ hdb => rw [hdb]
  | never _ _ hdb => rw [hdb]
  | up row a _ _ _ _ _ _ _ _ hdb => rw [hdb]; rfl
  | down row a _ _ _ hdb => rw [hdb]; rfl

theorem kept_handled (hq : s.pg.Quiet) (data : VoteMessage) (script : List Choice) :
    s.Kept (Ledger.handled s data script).2.state := by
  obtain ⟨hf, hr⟩ := exec_of_ensures (handlerAnswerAgree_ensures hq data.targetId.toUInt64
    data.createdBy data.action) script
  refine ⟨hf.quiet, hr.users, ?_, ?_, ?_, ?_⟩
  all_goals rw [Ledger.handled, hf.rest]

theorem kept_vote (hq : s.pg.Quiet) (msg : Delivery) (script : List Choice) :
    s.Kept (Content.next svc s (.vote msg script)) := by
  obtain ⟨id, payload⟩ := msg
  cases payload with
  | error e => exact .refl hq
  | ok data =>
    have hk := kept_handled hq data script
    change s.Kept ((onMessage "answer" ⟨id, .ok data⟩).run World.exec ⟨s, script⟩).2.state
    rw [onMessage_run id data ⟨s, script⟩, ← Ledger.handled]
    obtain ⟨r, w, hw⟩ : ∃ r w, Ledger.handled s data script = (r, w) := ⟨_, _, rfl⟩
    rw [hw] at hk ⊢
    cases r with
    | error e => exact hk
    | ok b =>
      obtain ⟨acked, -, hack⟩ := ack_run id w
      dsimp only
      rw [hack]
      exact ⟨hk.quiet, hk.users, hk.strings, hk.clock, hk.supply, hk.drawn⟩

theorem Backend.Sound.next (hx : svc.crates.Lawful) {b : Backend} (h : Sound svc b)
    (e : Content.Event) : Sound svc (b.next svc e) := by
  cases e with
  | rpc c script => exact h.call hx script c
  | tick seconds => exact h.tick seconds
  | vote msg script => exact h.kept (kept_vote h.quiet msg script)

theorem Backend.store_next (b : Backend) (e : Content.Event) :
    (b.next svc e).store = Content.next svc b.store e := by
  cases e with
  | rpc c script => exact call_store
  | tick seconds => rfl
  | vote msg script => rfl

end

namespace Gateway

/-- How a call of the gateway fares.  The service runs it and its reply comes back, or the reply is
lost, or the call does not get there; `late` is one given up, run by the service or not.  A service
that panics leaves the status `broken`. -/
inductive Fate
  | uuid (id : Uuid)
  | served (script : List Choice) (broken : Pb.Status)
  | lost (script : List Choice) (status : Pb.Status)
  | refused (status : Pb.Status)
  | late (script : Option (List Choice))

def Fate.run : Fate → Option (List Choice)
  | .served script _ | .lost script _ => some script
  | .late script => script
  | _ => none

abbrev Answer := Answered Call Call.Reply GatewayError

abbrev Made := Entry Call Call.Reply GatewayError Backend Fate

abbrev Exchanged := Exchange Call Call.Reply GatewayError Response Backend Fate Request

abbrev System := Server Call Call.Reply GatewayError Response Backend Fate Request

abbrev Event := Server.Event Fate Request Content.Event

def replied (broken : Pb.Status) : Except Err (App.Reply A) → Except Pb.Status A
  | .ok r => r
  | .error _ => .error broken

variable (svc : QaServiceImpl) (x : Formats)

def ran (fate : Fate) (c : Rpc) (b : Backend) : Backend :=
  match fate.run with
  | some script => b.call svc script c
  | none => b

def answer (fate : Fate) (c : Rpc) (b : Backend) : Option (Except Pb.Status c.Reply) :=
  match fate with
  | .served script broken => some (replied broken (b.reply svc script c))
  | .lost _ status | .refused status => some (.error status)
  | _ => none

def serve (fate : Fate) : (c : Call) → Backend → Option (Except GatewayError c.Reply × Backend)
  | .rpc c, b => (answer svc fate c b).map fun r => (.ok r, ran svc fate c b)
  | .timeout c, b => match fate with
    | .uuid _ => none
    | _ => some (.ok (answer svc fate c b), ran svc fate c b)
  | .newV4, b => match fate with
    | .uuid id => some (.ok id, b)
    | _ => none

def next (s : System) (e : Event) : System := s.step (app x) (serve svc) (Backend.next svc) e

def start (b : Backend) : System := ⟨b, []⟩

/-- The call an event has answered, and what the service meets when it runs it. -/
def executed (s : System) : Event → Option (Rpc × List Choice)
  | .call i fate => match s.exchanges[i]? with
    | some ⟨_, _, .call (.rpc c) _⟩ => (answer svc fate c s.state).bind fun _ =>
      fate.run.map fun script => (c, script)
    | some ⟨_, _, .call (.timeout c) _⟩ => fate.run.map fun script => (c, script)
    | _ => none
  | .other (.rpc c script) => some (c, script)
  | _ => none

/-- A call of the service that does not come from the gateway. -/
def Direct : Event → Prop
  | .other (.rpc ..) => True
  | _ => False

instance : DecidablePred Direct
  | .other (.rpc ..) => isTrue trivial
  | .arrive _ | .call .. | .other (.tick _) | .other (.vote ..) => isFalse id

def Fate.script (fate : Fate) : List Choice := fate.run.getD []

def Event.script : Event → List Choice
  | .call _ fate => fate.script
  | .other (.rpc _ script) | .other (.vote _ script) => script
  | _ => []

def usernameOf : Answer → Option String
  | ⟨.timeout (.verifyToken _), .ok (some (.ok verification))⟩ =>
    (Router.authenticatedUsername verification).toOption
  | _ => none

/-- The user the exchange passed `verify_token` as. -/
def principal (e : Exchanged) : Option String := e.answers.findSome? usernameOf

def who (s : System) : Event → Option String
  | .call i _ => s.exchanges[i]?.bind principal
  | _ => none

variable {svc x} {s : System}

/-- What an event does to the backend. -/
inductive Backed (svc : QaServiceImpl) (s : System) (e : Event) : Backend → Prop
  | same : executed svc s e = none → Backed svc s e s.state
  | called {c : Rpc} {script : List Choice} : executed svc s e = some (c, script) →
      Backed svc s e (s.state.call svc script c)
  | aside {ev : Content.Event} : e = .other ev → executed svc s e = none →
      Backed svc s e (s.state.next svc ev)

theorem next_backed (svc : QaServiceImpl) (x : Formats) (s : System) (e : Event) :
    Backed svc s e (next svc x s e).state := by
  cases e with
  | arrive request => exact .same rfl
  | other ev =>
    cases ev with
    | rpc c script => exact .called rfl
    | tick seconds => exact .aside rfl rfl
    | vote msg script => exact .aside rfl rfl
  | call i fate =>
    simp only [next, Server.step]
    split
    next request past c k hi =>
      cases c with
      | rpc c =>
        cases fate with
        | served script broken => exact .called (by simp only [executed, hi]; rfl)
        | lost script status => exact .called (by simp only [executed, hi]; rfl)
        | refused status => exact .same (by simp only [executed, hi]; rfl)
        | uuid id => exact .same (by simp only [executed, hi]; rfl)
        | late script => exact .same (by simp only [executed, hi]; rfl)
      | timeout c =>
        cases fate with
        | served script broken => exact .called (by simp only [executed, hi]; rfl)
        | lost script status => exact .called (by simp only [executed, hi]; rfl)
        | refused status => exact .same (by simp only [executed, hi]; rfl)
        | uuid id => exact .same (by simp only [executed, hi]; rfl)
        | late script =>
          cases script with
          | none => exact .same (by simp only [executed, hi]; rfl)
          | some script => exact .called (by simp only [executed, hi]; rfl)
      | newV4 =>
        cases fate <;> exact .same (by simp only [executed, hi])
    next hi =>
      refine .same ?_
      simp only [executed]
      split
      next hi' => exact absurd hi' (hi _ _ _ _)
      next hi' => exact absurd hi' (hi _ _ _ _)
      next => rfl

theorem sound_next (hx : svc.crates.Lawful) (h : s.state.Sound svc) (e : Event) :
    (next svc x s e).state.Sound svc := by
  have hb := next_backed svc x s e
  generalize (next svc x s e).state = b at hb
  cases hb with
  | same => exact h
  | called => exact h.call hx _ _
  | aside => exact h.next hx _

theorem tables_next (h : Content.Tables s.state.store) (e : Event) :
    Content.Tables (next svc x s e).state.store := by
  have hb := next_backed svc x s e
  generalize (next svc x s e).state = b at hb
  cases hb with
  | same => exact h
  | @called c script _ =>
    have hc : Content.Tables (Content.next svc s.state.store (.rpc c script)) := h.next _
    rwa [← Backend.store_next] at hc
  | aside =>
    rw [Backend.store_next]
    exact h.next _

end Gateway

end QaSys
