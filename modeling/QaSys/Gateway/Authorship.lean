import QaSys.Content.Shown
import QaSys.Gateway.Provenance

/-! Who wrote what the gateway shows. -/

namespace QaSys.Gateway

open Prog Runs Content

def Body.questions : Body → List QuestionEntity
  | .json .questionDetail r => r.question.toList
  | .json .questionFindLatest r => r.questions
  | _ => []

def Body.answers : Body → List AnswerObject
  | .json .answerFindOne r => r.answer.toList
  | .json .answerFindList r => r.answers
  | _ => []

/-- When the service was called for the exchange, the question was stored like this, and users had
asked for it. -/
def WrittenQuestion (svc : QaServiceImpl) (x : Formats) (s : System) (e : Exchanged)
    (q : QuestionEntity) : Prop :=
  ∃ entry ∈ e.past, ∃ r ∈ entry.state.store.db.questions, r.id = q.id ∧ r.title.val = q.title ∧
    r.content = q.content ∧ r.createdBy.val = q.createdBy ∧ AskedBy (Requested svc x s) r

def WrittenAnswer (svc : QaServiceImpl) (x : Formats) (s : System) (e : Exchanged)
    (a : AnswerObject) : Prop :=
  ∃ entry ∈ e.past, ∃ r ∈ entry.state.store.db.answers, r.id = a.id ∧ r.questionId = a.questionId ∧
    r.content = a.content ∧ r.createdBy.val = a.createdBy ∧ AnsweredBy (Requested svc x s) r

variable {svc : QaServiceImpl} {x : Formats} {s : System} {e : Exchanged} {db : Db}

theorem Body.Own.shows_nothing {body : Body} (h : body.Own) :
    body.questions = [] ∧ body.answers = [] := by
  cases body with
  | json e reply => exact h.elim
  | _ => exact ⟨rfl, rfl⟩

theorem shown_of_reply {ep : Endpoint} {payload : ep.Payload} {reply : (ep.call payload).Reply}
    (h : (ep.call payload).Shows db reply) :
    (∀ q ∈ (Body.json ep (ep.reply payload reply)).questions,
      ∃ r ∈ db.questions, ∃ readCount, q = questionOf (r.toEntity.toPb readCount)) ∧
    ∀ a ∈ (Body.json ep (ep.reply payload reply)).answers,
      ∃ r ∈ db.answers, ∃ voted, a = answerOf (r.toEntity.toPb voted) := by
  cases ep with
  | questionDetail =>
    refine ⟨fun q hq => ?_, fun a ha => absurd ha List.not_mem_nil⟩
    obtain ⟨entity, hentity, rfl⟩ := Option.map_eq_some_iff.mp (Option.mem_toList.mp hq)
    obtain ⟨r, hr, n, rfl⟩ := h entity hentity
    exact ⟨r, hr, n, rfl⟩
  | questionFindLatest =>
    refine ⟨fun q hq => ?_, fun a ha => absurd ha List.not_mem_nil⟩
    obtain ⟨entity, hentity, rfl⟩ := List.mem_map.mp hq
    obtain ⟨r, hr, n, rfl⟩ := h entity hentity
    exact ⟨r, hr, n, rfl⟩
  | answerFindOne =>
    refine ⟨fun q hq => absurd hq List.not_mem_nil, fun a ha => ?_⟩
    obtain ⟨entity, hentity, rfl⟩ := Option.map_eq_some_iff.mp (Option.mem_toList.mp ha)
    obtain ⟨r, hr, voted, rfl⟩ := h entity hentity
    exact ⟨r, hr, voted, rfl⟩
  | answerFindList =>
    refine ⟨fun q hq => absurd hq List.not_mem_nil, fun a ha => ?_⟩
    obtain ⟨entity, hentity, rfl⟩ := List.mem_map.mp ha
    obtain ⟨r, hr, voted, rfl⟩ := h entity hentity
    exact ⟨r, hr, voted, rfl⟩
  | _ => exact ⟨fun q hq => absurd hq List.not_mem_nil, fun a ha => absurd ha List.not_mem_nil⟩

theorem reply_of_rpc {fate : Fate} {c : Rpc} {reply : c.Reply} {b b' : Backend}
    (h : serve svc fate (.rpc c) b = some (.ok (.ok reply), b')) :
    b.reply svc fate.script c = .ok (.ok reply) := by
  cases fate with
  | served script broken =>
    have hr : replied broken (b.reply svc script c) = .ok reply := by
      simpa [serve, answer] using congrArg (Option.map Prod.fst) h
    cases hreply : b.reply svc script c with
    | error e =>
      rw [hreply] at hr
      cases hr
    | ok r =>
      rw [hreply] at hr
      exact hreply.trans (congrArg Except.ok hr)
  | uuid id => cases h
  | lost script status => cases h
  | refused status => cases h
  | late script => cases h

structure Recorded (svc : QaServiceImpl) (x : Formats) (s : System) : Prop
    extends Sourced svc x s where
  recorded : ∀ e ∈ s.exchanges, ∀ entry ∈ e.past, Tables entry.state.store ∧
    Attributed (Requested svc x s) entry.state.store

theorem Recorded.start {size : Nat} {clock : Int} {supply : Nat → Uuid} :
    Recorded svc x (start (.empty (.empty size clock supply))) :=
  ⟨.start, fun _ h => absurd h List.not_mem_nil⟩

theorem Recorded.next (hx : svc.crates.Lawful) (h : Recorded svc x s) {ev : Event}
    (ha : Assumed svc s ev) (hin : Inside s ev) : Recorded svc x (next svc x s ev) := by
  refine ⟨h.toSourced.next hx ha hin, fun e he entry hentry => ?_⟩
  have hmono (c : Rpc) (hc : Requested svc x s c) : Requested svc x (Gateway.next svc x s ev) c :=
    hc.next ev
  rcases Server.step_past he hentry with ⟨e', he', hentry'⟩ | hstate
  · obtain ⟨htables, hattributed⟩ := h.recorded e' he' entry hentry'
    exact ⟨htables, hattributed.mono hmono⟩
  · rw [hstate]
    exact ⟨h.tables, h.attributed.mono hmono⟩

theorem Responds.shows {request : Request} {past : List Answer} {response : Response}
    (h : Responds x request past response) :
    (response.body.questions = [] ∧ response.body.answers = []) ∨
      ∃ ep payload reply, ⟨.rpc (ep.call payload), .ok (.ok reply)⟩ ∈ past ∧
        response.body = .json ep (ep.reply payload reply) := by
  cases h with
  | unverified => exact .inl (own_of_intoResponse _).1.shows_nothing
  | own _ hown => exact .inl hown.shows_nothing
  | lost => exact .inl (own_of_intoResponse _).1.shows_nothing
  | refused => exact .inl (own_of_intoResponse _).1.shows_nothing
  | @replied ep payload before reply _ hpast =>
    refine .inr ⟨ep, payload, reply, ?_, rfl⟩
    rw [hpast]
    exact List.mem_append_right _ (List.mem_singleton_self _)

theorem Recorded.written (h : Recorded svc x s) (he : e ∈ s.exchanges) {response : Response}
    (hret : e.prog = .ret response) :
    (∀ q ∈ response.body.questions, WrittenQuestion svc x s e q) ∧
      ∀ a ∈ response.body.answers, WrittenAnswer svc x s e a := by
  have ht := h.conducted.traced e he
  rcases ((relayed ht).responds response hret).shows with ⟨hquestions, hanswers⟩ |
    ⟨ep, payload, reply, hpast, hbody⟩
  · rw [hquestions, hanswers]
    exact ⟨fun _ hq => absurd hq List.not_mem_nil, fun _ ha => absurd ha List.not_mem_nil⟩
  obtain ⟨⟨state, fate, answered⟩, hentry, hanswered⟩ := List.mem_map.mp hpast
  dsimp only at hanswered
  subst hanswered
  obtain ⟨b, hserve⟩ := (ht.past _ hentry).answer
  obtain ⟨htables, hattributed⟩ := h.recorded e he _ hentry
  have hshows := rpc_honest htables.quiet fate.script _ reply (reply_of_rpc hserve)
  rw [hbody]
  obtain ⟨hquestions, hanswers⟩ := shown_of_reply hshows
  refine ⟨fun q hq => ?_, fun a ha => ?_⟩
  · obtain ⟨r, hr, n, rfl⟩ := hquestions q hq
    obtain ⟨h0, -, hmax⟩ := htables.questions.range r.id (List.mem_map_of_mem hr)
    exact ⟨_, hentry, r, hr, (Int.asI64_asU64 h0.le hmax).symm, rfl, rfl, rfl,
      hattributed.questions r hr⟩
  · obtain ⟨r, hr, voted, rfl⟩ := hanswers a ha
    obtain ⟨h0, -, hmax⟩ := htables.answers.range r.id (List.mem_map_of_mem hr)
    have hby := hattributed.answers r hr
    obtain ⟨entity, -, -, hquestion, -⟩ := hby.added
    refine ⟨_, hentry, r, hr, (Int.asI64_asU64 h0.le hmax).symm, ?_, rfl, rfl, hby⟩
    change r.questionId = r.questionId.asU64.asI64
    rw [← hquestion, Int.asU64_asI64]

/-- In every run the questions and the answers that the gateway shows were stored for the users it
names when it asked for them, and these users had posted them through the gateway, logged in, up to
the texts, which the users of the last updates had. -/
theorem shown_written (hx : svc.crates.Lawful) {size : Nat} {clock : Int} {supply : Nat → Uuid}
    {evs : List Event} (h : Always (next svc x) (fun s e => Assumed svc s e ∧ Inside s e)
      (start (.empty (.empty size clock supply))) evs)
    (hs : after (next svc x) (start (.empty (.empty size clock supply))) evs = s)
    (he : e ∈ s.exchanges) {response : Response} (hret : e.prog = .ret response) :
    (∀ q ∈ response.body.questions, WrittenQuestion svc x s e q) ∧
      ∀ a ∈ response.body.answers, WrittenAnswer svc x s e a := by
  subst hs
  exact (h.invariant (I := Recorded svc x) (fun _ _ hr ha => hr.next hx ha.1 ha.2)
    .start).written he hret

def newest : String := "\x7b\"last_id\":0,\"limit\":10\x7d"

def listing : Formats where
  json e req := match e with
    | .questionFindLatest => if req.body = bytes newest then some ⟨0, 10⟩ else none
    | e => formats.json e req
  form := formats.form
  validEmail := formats.validEmail
  display := formats.display

def listed : List Event :=
  asking ++ through 3 (postedAs (token 0) "/api/question/find_latest" (bytes newest))

def titles : Gate Response → Option (List String)
  | .ret response => some (response.body.questions.map (·.title))
  | _ => none

theorem shown_written_listed :
    ∃ e ∈ (after (next Gateway.svc listing) (start origin) listed).exchanges, ∃ response,
      e.prog = .ret response ∧ response.body.questions.map (·.title) = ["title"] ∧
      ∀ q ∈ response.body.questions, WrittenQuestion Gateway.svc listing
        (after (next Gateway.svc listing) (start origin) listed) e q := by
  have hshown : ((after (next Gateway.svc listing) (start origin) listed).exchanges[3]?).bind
      (titles ·.prog) = some ["title"] := by decide +kernel
  obtain ⟨e, he, htitles⟩ := Option.bind_eq_some_iff.mp hshown
  have hmem := List.mem_of_getElem? he
  cases hprog : e.prog with
  | ret response =>
    rw [hprog] at htitles
    exact ⟨e, hmem, response, hprog, Option.some.inj htitles,
      (shown_written crates_lawful (by decide +kernel) rfl hmem hprog).1⟩
  | fail error =>
    rw [hprog] at htitles
    cases htitles
  | call c k =>
    rw [hprog] at htitles
    cases htitles

end QaSys.Gateway
