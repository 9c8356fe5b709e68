import QaSys.Program.Yields
import QaSys.Service.Light

/-! The questions and the answers in the replies of the service are those of the tables. -/

namespace QaSys

open Prog

def Call.Selects (db : Db) : (c : Call) → Except Err c.Reply → Prop
  | .sql (.question _), .ok row => ∀ r ∈ row, r ∈ db.questions
  | .sql (.latestQuestions _), .ok rows | .sql (.questionsBelow ..), .ok rows =>
    ∀ r ∈ rows, r ∈ db.questions
  | .sql (.answer _), .ok row => ∀ a ∈ row, a ∈ db.answers
  | .sql (.pageAnswers ..), .ok rows => ∀ a ∈ rows, a ∈ db.answers
  | _, _ => True

def ShowsQuestion (db : Db) (q : Pb.QuestionEntity) : Prop :=
  ∃ r ∈ db.questions, ∃ readCount, q = r.toEntity.toPb readCount

def ShowsAnswer (db : Db) (a : Pb.AnswerEntity) : Prop :=
  ∃ r ∈ db.answers, ∃ voted, a = r.toEntity.toPb voted

/-- What a reply shows is stored. -/
def Rpc.Shows (db : Db) : (c : Rpc) → c.Reply → Prop
  | .questionDetail _, reply => ∀ q ∈ reply.question, ShowsQuestion db q
  | .latestQuestion _, reply => ∀ q ∈ reply.questions, ShowsQuestion db q
  | .answerDetail _, reply => ∀ a ∈ reply.answer, ShowsAnswer db a
  | .answerList _, reply => ∀ a ∈ reply.answers, ShowsAnswer db a
  | _, _ => True

variable {db : Db} {s : Store} {self : QaServiceImpl}

theorem mem_of_window {limit offset : Int} {rows page : List α}
    (h : window limit offset rows = .ok page) : ∀ r ∈ page, r ∈ rows := by
  unfold window at h
  split at h
  · cases h
  split at h
  · cases h
  · cases h
    exact fun r hr => List.mem_of_mem_drop (List.mem_of_mem_take hr)

theorem selects_eval {q : Stmt} {seq : Seq} {a : q.Reply} {ws : List Write}
    (h : q.eval seq db = .ok (a, ws)) : (Call.sql q).Selects db (.ok a) := by
  cases q with
  | question id =>
    cases h
    exact fun r hr => List.mem_of_find?_eq_some hr
  | answer id =>
    cases h
    exact fun a ha => List.mem_of_find?_eq_some ha
  | latestQuestions limit =>
    obtain ⟨rows, hrows, h⟩ := except_bind_eq_ok h
    cases h
    exact fun r hr => Keyset.mem_descending.mp (mem_of_window hrows r hr)
  | questionsBelow lastId limit =>
    obtain ⟨rows, hrows, h⟩ := except_bind_eq_ok h
    cases h
    exact fun r hr => List.mem_of_mem_filter (Keyset.mem_descending.mp (mem_of_window hrows r hr))
  | pageAnswers questionId limit offset =>
    obtain ⟨rows, hrows, h⟩ := except_bind_eq_ok h
    cases h
    exact fun r hr => List.mem_of_mem_filter (Keyset.mem_descending.mp (mem_of_window hrows r hr))
  | _ => trivial

theorem selects_serve (hq : s.pg.Quiet) (ch : Choice) (c : Call) :
    c.Selects s.db (Store.serve ch c s).1 := by
  cases c with
  | sql q =>
    have herror {e : Err} : (Call.sql q).Selects s.db (.error e) := by cases q <;> trivial
    rcases Store.serve_sql hq.alone q ch with ⟨-, msg, hs⟩ | ⟨-, hs⟩
    · rw [hs]
      exact herror
    · rw [hs]
      cases heval : q.eval s.seq s.db with
      | error msg => exact herror
      | ok res => exact selects_eval heval
  | _ => trivial

/-- A reply the service may give: what it shows is stored. -/
def Rpc.Honest (db : Db) (c : Rpc) (r : Except Err (App.Reply c.Reply)) : Prop :=
  ∀ reply, r = .ok (.ok reply) → c.Shows db reply

theorem honest_error {c : Rpc} {status : Pb.Status} : c.Honest db (.ok (.error status)) :=
  fun _ h => by cases h

theorem honest_ok {c : Rpc} {reply : c.Reply} (h : c.Shows db reply) :
    c.Honest db (.ok (.ok reply)) := by
  intro reply' heq
  cases heq
  exact h

theorem questionFindOne_selects {id : UInt64} : (Question.findOne id).Yields (Call.Selects db)
    fun r => ∀ q, r = .ok q → ∃ row ∈ db.questions, q = row.toEntity := by
  refine yields_bind.mpr (yields_op.mpr fun r hr => ?_)
  rcases r with e | _ | row
  · intro q hq
    cases hq
  · intro q hq
    cases hq
  · intro q hq
    cases hq
    exact ⟨row, hr row rfl, rfl⟩

theorem answerFindOne_selects {id : UInt64} : (Answer.findOne id).Yields (Call.Selects db)
    fun r => ∀ a, r = .ok a → ∃ row ∈ db.answers, a = row.toEntity := by
  refine yields_bind.mpr (yields_op.mpr fun r hr => ?_)
  rcases r with e | _ | row
  · intro a ha
    cases ha
  · intro a ha
    cases ha
  · intro a ha
    cases ha
    exact ⟨row, hr row rfl, rfl⟩

theorem yields_context {o : Option A} {msg : String} {f : A → Svc B}
    {T : (c : Call) → Except Err c.Reply → Prop} {Q : Except Err B → Prop}
    (hf : ∀ a, (f a).Yields T Q) (hno : ∀ e, Q (.error e)) :
    (context o msg >>= f).Yields T Q := by
  cases o with
  | none => exact hno _
  | some a => exact hf a

theorem questionFindLatest_selects {lastId limit : UInt64} :
    (Question.findLatest lastId limit).Yields (Call.Selects db) fun r =>
      ∀ res, r = .ok res → ∀ q ∈ res.questions, ∃ row ∈ db.questions, q = row.toEntity := by
  have hrows {rows : List QuestionRow} {lastId : Option Int} {isEnd : Bool}
      (h : ∀ r ∈ rows, r ∈ db.questions) (res : LatestQuestionResponse)
      (hres : Except.ok (ε := Err) ⟨rows.map (·.toEntity), lastId, isEnd⟩ = .ok res) :
      ∀ q ∈ res.questions, ∃ row ∈ db.questions, q = row.toEntity := by
    cases hres
    intro q hq
    obtain ⟨row, hrow, rfl⟩ := List.mem_map.mp hq
    exact ⟨row, h row hrow, rfl⟩
  refine yields_context (fun limit => ?_) fun e res hres => by cases hres
  dsimp only
  split
  · refine yields_bind.mpr (yields_op.mpr fun r hr => ?_)
    cases r with
    | error e => exact fun res hres => by cases hres
    | ok rows => exact hrows hr
  · refine yields_context (fun lastId => ?_) fun e res hres => by cases hres
    refine yields_bind.mpr (yields_op.mpr fun r hr => ?_)
    cases r with
    | error e => exact fun res hres => by cases hres
    | ok rows => exact hrows hr

theorem answers_tryNew {answers : List AnswerEntity} {total pageSize currentPage : Int}
    {res : LatestAnswerResponse}
    (h : LatestAnswerResponse.tryNew answers total pageSize currentPage = .ok res) :
    res.answers = answers := by
  unfold LatestAnswerResponse.tryNew at h
  split at h
  · cases h
  split at h
  · cases h
  split at h
  · cases h
  · cases h
    rfl

theorem answerFindLatest_selects {questionId limit page : UInt64} :
    (Answer.findLatest questionId limit page).Yields (Call.Selects db) fun r =>
      ∀ res, r = .ok res → ∀ a ∈ res.answers, ∃ row ∈ db.answers, a = row.toEntity := by
  have hno (e : Err) (res : LatestAnswerResponse) (hres : Except.error e = .ok res) :
      ∀ a ∈ res.answers, ∃ row ∈ db.answers, a = row.toEntity := by
    cases hres
  unfold Answer.findLatest ensure
  split
  · refine yields_context (fun questionId => ?_) hno
    refine yields_context (fun pageSize => ?_) hno
    refine yields_context (fun currentPage => ?_) hno
    refine yields_context (fun pageIndex => ?_) hno
    refine yields_context (fun offset => ?_) hno
    refine yields_bind.mpr (yields_op.mpr fun total _ => ?_)
    cases total with
    | error e => exact hno e
    | ok total =>
      refine yields_bind.mpr (yields_op.mpr fun r hr => ?_)
      cases r with
      | error e => exact hno e
      | ok rows =>
        dsimp only
        split
        next res htry =>
          intro res' hres a ha
          cases hres
          rw [answers_tryNew htry] at ha
          obtain ⟨row, hrow, rfl⟩ := List.mem_map.mp ha
          exact ⟨row, hr row hrow, rfl⟩
        next e _ => exact hno _
  · exact hno _

theorem questionDetail_honest (req : Pb.DetailRequest) :
    (App.questionDetail req).Yields (Call.Selects db) (Rpc.Honest db (.questionDetail req)) := by
  refine yields_bind.mpr (yields_attempt.mpr (questionFindOne_selects.mono fun r hr => ?_))
  cases r with
  | error err => exact honest_error
  | ok question =>
    obtain ⟨row, hrow, rfl⟩ := hr question rfl
    refine yields_handled fun r => ?_
    cases r with
    | error err => exact honest_error
    | ok viewCount =>
      refine honest_ok (c := .questionDetail req) fun q hq => ?_
      cases hq
      exact ⟨row, hrow, _, rfl⟩

theorem latestQuestion_honest (req : Pb.LatestQuestionRequest) :
    (App.latestQuestion req).Yields (Call.Selects db) (Rpc.Honest db (.latestQuestion req)) := by
  refine yields_bind.mpr (yields_attempt.mpr (questionFindLatest_selects.mono fun r hr => ?_))
  cases r with
  | error err => exact honest_error
  | ok result =>
    dsimp only
    split
    · exact honest_ok (c := .latestQuestion req) fun q hq => absurd hq List.not_mem_nil
    · refine honest_ok (c := .latestQuestion req) fun q hq => ?_
      obtain ⟨entity, hentity, rfl⟩ := List.mem_map.mp hq
      obtain ⟨row, hrow, rfl⟩ := hr result rfl entity hentity
      exact ⟨row, hrow, _, rfl⟩

theorem answerDetail_honest (req : Pb.DetailRequest) :
    (App.answerDetail req).Yields (Call.Selects db) (Rpc.Honest db (.answerDetail req)) := by
  refine yields_bind.mpr (yields_attempt.mpr (answerFindOne_selects.mono fun r hr => ?_))
  cases r with
  | error err => exact honest_error
  | ok answer =>
    obtain ⟨row, hrow, rfl⟩ := hr answer rfl
    refine yields_handled fun r => honest_ok (c := .answerDetail req) fun a ha => ?_
    cases ha
    exact ⟨row, hrow, _, rfl⟩

theorem answerList_honest (req : Pb.AnswerListRequest) :
    (App.answerList req).Yields (Call.Selects db) (Rpc.Honest db (.answerList req)) := by
  refine yields_bind.mpr (yields_attempt.mpr (answerFindLatest_selects.mono fun r hr => ?_))
  cases r with
  | error err => exact honest_error
  | ok res =>
    dsimp only
    split
    · exact honest_ok (c := .answerList req) fun a ha => absurd ha List.not_mem_nil
    · refine yields_handled fun voted => honest_ok (c := .answerList req) fun a ha => ?_
      obtain ⟨entity, hentity, rfl⟩ := List.mem_map.mp ha
      obtain ⟨row, hrow, rfl⟩ := hr res rfl entity hentity
      exact ⟨row, hrow, _, rfl⟩

theorem rpc_honest (hq : s.pg.Quiet) (script : List Choice) (c : Rpc) :
    c.Honest s.db ((c.serve self).run World.exec ⟨s, script⟩).1 := by
  have light {c : Rpc} (hc : c.Light) (h : (c.serve self).Yields (Call.Selects s.db)
      (c.Honest s.db)) : c.Honest s.db ((c.serve self).run World.exec ⟨s, script⟩).1 := by
    refine h.run (h := World.exec) (I := fun w : World => w.state.pg = s.pg)
      (fun call w hw => ?_) (fun call w hcall hw => ?_) hc.within rfl
    · have hdb : w.state.db = s.db := congrArg Transaction.Sessions.db hw
      rw [← hdb]
      exact selects_serve (hw ▸ hq) _ call
    · exact (hcall.serve (hw ▸ hq) _).1.trans hw
  cases c with
  | questionDetail req => exact light trivial (questionDetail_honest req)
  | latestQuestion req => exact light trivial (latestQuestion_honest req)
  | answerDetail req => exact light trivial (answerDetail_honest req)
  | answerList req => exact light trivial (answerList_honest req)
  | _ => exact fun _ _ => trivial

end QaSys
