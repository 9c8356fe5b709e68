import QaSys.Content.Attribution
import QaSys.Gateway.Relay

/-! Whose requests the questions, the answers and the votes come from. -/

namespace QaSys.Gateway

open Prog Runs Content

/-- The gateway has called the service as the body of a request asks, in the name of the user who
was logged in with the token of the request. -/
def Requested (svc : QaServiceImpl) (x : Formats) (s : System) (c : Rpc) : Prop :=
  ∃ e ∈ s.exchanges, (∃ a ∈ e.answers, a.call = .rpc c) ∧
    (∃ ep payload, Posted x e.request ep payload ∧ c = ep.call payload) ∧
    ∃ u, c.actor = some u ∧ Identified svc e u

/-- The service is called by the gateway only, and its consumer gets messages of the topic only. -/
def Inside (s : System) : Event → Prop
  | .other (.rpc ..) => False
  | .other (.vote ⟨_, .ok data⟩ _) => data ∈ s.state.store.topic
  | _ => True

instance (s : System) : DecidablePred (Inside s)
  | .other (.rpc ..) => isFalse id
  | .other (.vote ⟨_, .ok data⟩ _) => inferInstanceAs (Decidable (data ∈ s.state.store.topic))
  | .other (.vote ⟨_, .error _⟩ _) | .other (.tick _) | .arrive _ | .call .. => isTrue trivial

variable {svc : QaServiceImpl} {x : Formats} {s : System} {c : Rpc} {u : String}
  {script : List Choice}

theorem Identified.mono {e e' : Exchanged} (h : Identified svc e u) (hreq : e'.request = e.request)
    (hpast : e.past <+: e'.past) : Identified svc e' u := by
  obtain ⟨entry, hentry, token, id, verification, hanswered, hname, htoken, hlogged⟩ := h
  exact ⟨entry, hpast.subset hentry, token, id, verification, hanswered, hname, hreq ▸ htoken,
    hlogged⟩

theorem Requested.next (h : Requested svc x s c) (ev : Event) :
    Requested svc x (next svc x s ev) c := by
  obtain ⟨e, he, ⟨a, ha, hcall⟩, hposted, u, hu, hid⟩ := h
  obtain ⟨e', he', hreq, hpast⟩ := Server.step_continues he ev
  exact ⟨e', he', ⟨a, (hpast.map _).subset ha, hcall⟩, hreq ▸ hposted, u, hu, hid.mono hreq hpast⟩

theorem Requested.name (h : Requested svc x s c) (hu : c.actor = some u) :
    u.length ≤ 50 ∧ u ≠ "" := by
  obtain ⟨e, -, -, -, u', hu', entry, -, token, id, verification, -, hname, -, i, -, -, -, -, -,
    row, -, hrow, -⟩ := h
  cases hu.symm.trans hu'
  obtain ⟨-, hne, heq⟩ := authenticatedUsername_eq_ok hname
  exact ⟨hrow ▸ row.username.fits, heq ▸ hne⟩

theorem requested_of_executed (h : Conducted svc x s) {i : Nat} {fate : Fate}
    (hex : executed svc s (.call i fate) = some (c, script)) (hu : c.actor = some u) :
    Requested svc x (Gateway.next svc x s (.call i fate)) c := by
  obtain ⟨d, call, k, r, b, hans, hcall⟩ := executed_answered hex
  have hd := h.traced d (List.mem_of_getElem? hans.exchange)
  have hcalling : d.prog.calling = some call := by rw [hans.prog]; rfl
  cases call with
  | rpc c' =>
    cases hcall
    obtain ⟨-, ep, payload, hposted, heq⟩ := (relayed hd).calling _ hcalling c rfl
    refine ⟨_, List.mem_of_getElem? hans.getElem?_step, ⟨⟨.rpc c, r⟩, ?_, rfl⟩,
      ⟨ep, payload, hposted, heq⟩, u, hu, ?_⟩
    · rw [Exchange.answers, List.map_append]
      exact List.mem_append_right _ (List.mem_singleton_self _)
    · exact ((authentic hd).acting _ c u hcalling rfl hu).mono rfl (List.prefix_append _ _)
  | timeout c' =>
    cases hcall
    have hpermitted := (app_heeds x d.request).reaches hd.reaches
    rw [hans.prog] at hpermitted
    obtain ⟨token, id, rfl⟩ := hpermitted.1
    cases hu
  | newV4 => cases hcall

theorem Requested.ne_answerAgree {req : Pb.AgreeAnswerRequest}
    (h : Requested svc x s (.answerAgree req)) : False := by
  obtain ⟨-, -, -, ⟨ep, payload, -, heq⟩, -⟩ := h
  cases ep <;> cases heq

structure Sourced (svc : QaServiceImpl) (x : Formats) (s : System) : Prop where
  conducted : Conducted svc x s
  tables : Tables s.state.store
  attributed : Attributed (Requested svc x s) s.state.store

theorem Sourced.next (hx : svc.crates.Lawful) (h : Sourced svc x s) {e : Event}
    (ha : Assumed svc s e) (hin : Inside s e) : Sourced svc x (next svc x s e) := by
  refine ⟨h.conducted.next hx ha, tables_next h.tables e, ?_⟩
  have hold : Attributed (Requested svc x (Gateway.next svc x s e)) s.state.store :=
    h.attributed.mono fun c hc => hc.next e
  have hname (c : Rpc) (u : String) (hc : Requested svc x (Gateway.next svc x s e) c)
      (hu : c.actor = some u) := hc.name hu
  have hback := next_backed svc x s e
  generalize (Gateway.next svc x s e).state = b at hback
  cases hback with
  | same => exact hold
  | @called c script hex =>
    rw [Backend.call_store]
    have hc (hu : c.actor.isSome = true) : Requested svc x (Gateway.next svc x s e) c := by
      obtain ⟨u, hu⟩ := Option.isSome_iff_exists.mp hu
      cases e with
      | arrive request => cases hex
      | call i fate => exact requested_of_executed h.conducted hex hu
      | other ev =>
        cases ev with
        | rpc c script => exact hin.elim
        | tick seconds => cases hex
        | vote msg script => cases hex
    refine hold.rpc hname h.tables hc ?_
    rintro req rfl
    exact (hc rfl).ne_answerAgree
  | @aside ev hev =>
    subst hev
    rw [Backend.store_next]
    cases ev with
    | rpc c script => exact hin.elim
    | tick seconds =>
      exact ⟨hold.questions, hold.answers, hold.votes, hold.messages, hold.keys, hold.drawn⟩
    | vote msg script =>
      refine hold.vote hname h.tables.quiet ?_
      obtain ⟨id, payload⟩ := msg
      rintro data rfl
      exact hin

/-- The event is the delivery of a message by which the user of the vote takes it back. -/
def Withdrawal (svc : QaServiceImpl) (x : Formats) (s : System) (e : Event) (v : VoteRow) : Prop :=
  ∃ id data script, e = .other (.vote ⟨id, .ok data⟩ script) ∧ Withdraws (Requested svc x s) data v

theorem Sourced.withdrawn (h : Sourced svc x s) {e : Event} (hin : Inside s e) :
    ∀ v ∈ s.state.store.db.usersVotes, v ∉ (Gateway.next svc x s e).state.store.db.usersVotes →
      Withdrawal svc x s e v := by
  intro v hv hgone
  have hback := next_backed svc x s e
  generalize (Gateway.next svc x s e).state = b at hback hgone
  cases hback with
  | same => exact absurd hv hgone
  | @called c script hex =>
    have hvotes : (s.state.ran svc script c).2.state.db.usersVotes =
        s.state.store.db.usersVotes := usersVotes_effect (rpc_effect h.tables c)
    rw [Backend.call_store, hvotes] at hgone
    exact absurd hv hgone
  | @aside ev hev =>
    subst hev
    rw [Backend.store_next] at hgone
    cases ev with
    | rpc c script => exact hin.elim
    | tick seconds => exact absurd hv hgone
    | vote msg script =>
      obtain ⟨id, payload⟩ := msg
      have hmsg : ∀ data, payload = .ok data → data ∈ s.state.store.topic := by
        rintro data rfl
        exact hin
      obtain ⟨data, rfl, hdata⟩ := h.attributed.withdrawn h.tables.quiet hmsg v hv hgone
      exact ⟨id, data, script, rfl, hdata⟩

theorem Sourced.start {size : Nat} {clock : Int} {supply : Nat → Uuid} :
    Sourced svc x (start (.empty (.empty size clock supply))) := by
  refine ⟨.start .empty, .empty, ?_⟩
  exact ⟨nofun, nofun, nofun, nofun, List.nodup_nil, nofun⟩

/-- In every run all the questions, the answers and the votes that are stored, with the texts they
have by now, and all the votes that are on their way were requested through the gateway by the users
they are stored for, who had logged in. -/
theorem content_provenance (hx : svc.crates.Lawful) {size : Nat} {clock : Int}
    {supply : Nat → Uuid} {evs : List Event} (h : Always (next svc x)
      (fun s e => Assumed svc s e ∧ Inside s e) (start (.empty (.empty size clock supply))) evs) :
    Attributed
      (Requested svc x (after (next svc x) (start (.empty (.empty size clock supply))) evs))
      (after (next svc x) (start (.empty (.empty size clock supply))) evs).state.store :=
  (h.invariant (I := Sourced svc x) (fun _ _ hs ha => hs.next hx ha.1 ha.2) .start).attributed

def ballots : List (String × AnswerAgreeRequest) := [
  ("\x7b\"id\":1,\"username\":\"alice\",\"action\":\"up\"\x7d", ⟨1, "alice", "up"⟩),
  ("\x7b\"id\":1,\"username\":\"alice\",\"action\":\"down\"\x7d", ⟨1, "alice", "down"⟩)]

def remark : String := "\x7b\"content\":\"words\",\"username\":\"alice\",\"question_id\":1\x7d"

def polling : Formats where
  json e req := match e with
    | .answerAdd => if req.body = bytes remark then some ⟨"words", "alice", 1⟩ else none
    | .answerAgree => (ballots.find? (bytes ·.1 = req.body)).map (·.2)
    | e => formats.json e req
  form := formats.form
  validEmail := formats.validEmail
  display := formats.display

def casting (i n : Nat) : List Event :=
  through i (postedAs (token 0) "/api/user_vote/add" (bytes ((ballots.map (·.1)).getD n ""))) ++
    [.other (.vote ⟨n, .ok ⟨1, "answer", "alice", if n = 0 then "up" else "down"⟩⟩ [])]

def polled : List Event :=
  asking ++ through 3 (postedAs (token 0) "/api/answer/add" (bytes remark)) ++ casting 4 0

theorem content_provenance_polled :
    (after (next Gateway.svc polling) (start origin) polled).state.store.db.usersVotes.map
      (·.createdBy.val) = ["alice"] ∧
    Attributed
      (Requested Gateway.svc polling (after (next Gateway.svc polling) (start origin) polled))
      (after (next Gateway.svc polling) (start origin) polled).state.store :=
  ⟨by decide +kernel, content_provenance crates_lawful (by decide +kernel)⟩

/-- In every run a vote goes by the handling of a message only by which its user, who had logged in,
took it back through the gateway. -/
theorem votes_withdrawn (hx : svc.crates.Lawful) {size : Nat} {clock : Int}
    {supply : Nat → Uuid} {evs : List Event} (h : Always (next svc x)
      (fun s e => Assumed svc s e ∧ Inside s e) (start (.empty (.empty size clock supply))) evs) :
    Always (next svc x) (fun s e => ∀ v ∈ s.state.store.db.usersVotes,
        v ∉ (next svc x s e).state.store.db.usersVotes → Withdrawal svc x s e v)
      (start (.empty (.empty size clock supply))) evs :=
  h.of_invariant (I := Sourced svc x) (fun _ _ hs ha => hs.next hx ha.1 ha.2)
    (fun _ _ hs ha => hs.withdrawn ha.2) .start

def recalled : List Event := polled ++ casting 5 1

theorem votes_withdrawn_recalled :
    (after (next Gateway.svc polling) (start origin) recalled).state.store.db.usersVotes = [] ∧
    Always (next Gateway.svc polling) (fun s e => ∀ v ∈ s.state.store.db.usersVotes,
        v ∉ (next Gateway.svc polling s e).state.store.db.usersVotes →
        Withdrawal Gateway.svc polling s e v) (start origin) recalled :=
  ⟨by decide +kernel, votes_withdrawn crates_lawful (by decide +kernel)⟩

end QaSys.Gateway
