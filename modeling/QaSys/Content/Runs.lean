import QaSys.Content.Effect
import QaSys.Vote.Ledger

/-! Runs of the service: its calls one after another, the votes its consumer handles, and the clock. -/

namespace QaSys.Content

open UserVote Runs

inductive Event
  | tick (seconds : Nat)
  | rpc (c : Rpc) (script : List Choice)
  | vote (msg : Delivery) (script : List Choice)

variable (svc : QaServiceImpl)

def served (s : Store) (c : Rpc) (script : List Choice) : Except Err (App.Reply c.Reply) × World :=
  (c.serve svc).run World.exec ⟨s, script⟩

def next (s : Store) : Event → Store
  | .tick seconds => { s with clock := s.clock + seconds }
  | .rpc c script => (served svc s c script).2.state
  | .vote msg script => ((onMessage "answer" msg).run World.exec ⟨s, script⟩).2.state

variable {svc} {s s' : Store} {script : List Choice}

structure Beside (s s' : Store) : Prop where
  quiet : s'.pg.Quiet
  questionsSeq : s'.seq.questions = s.seq.questions
  answersSeq : s'.seq.answers = s.seq.answers
  clock : s'.clock = s.clock

/-- What the handling of a delivered vote did to the answers and the votes. -/
inductive Ballot (s : Store) (script : List Choice) : Delivery → Store → Prop
  | kept {msg : Delivery} {s' : Store} : Kept s s' →
      (∀ data, msg.payload = .ok data → (Ledger.handled s data script).1 ≠ .ok true) →
      Ballot s script msg s'
  | up {id : Nat} {data : VoteMessage} {row : VoteRow} {a : AnswerRow} {s' : Store} :
      (Ledger.handled s data script).1 = .ok true → row.targetId = a.id →
      a ∈ s.db.answers → a.id = data.targetId.toInt → Beside s s' →
      s'.db = castVote s.db s.clock row a → Ballot s script ⟨id, .ok data⟩ s'
  | down {id : Nat} {data : VoteMessage} {row : VoteRow} {a : AnswerRow} {s' : Store} :
      (Ledger.handled s data script).1 = .ok true → a ∈ s.db.answers →
      a.id = data.targetId.toInt → Beside s s' → s'.db = cancelVote s.db s.clock row a →
      Ballot s script ⟨id, .ok data⟩ s'

theorem Beside.kept (h : Beside s s') (hdb : s'.db = s.db) : Kept s s' :=
  ⟨h.quiet, by rw [hdb], by rw [hdb], by rw [hdb], h.questionsSeq.ge, h.answersSeq.ge, h.clock⟩

theorem handled_effect (hq : s.pg.Quiet) (id : Nat) (data : VoteMessage)
    (hpg : s'.pg = (Ledger.handled s data script).2.state.pg)
    (hseq : s'.seq = (Ledger.handled s data script).2.state.seq)
    (hclock : s'.clock = (Ledger.handled s data script).2.state.clock) :
    Ballot s script ⟨id, .ok data⟩ s' := by
  obtain ⟨hf, hr⟩ := exec_of_ensures (handlerAnswerAgree_ensures hq data.targetId.toUInt64
    data.createdBy data.action) script
  rw [Int64.asI64_toUInt64] at hr
  change Framed s (Ledger.handled s data script).2.state at hf
  change Handled s data.targetId.toInt data.createdBy data.action
    (Ledger.handled s data script).2.state (Ledger.handled s data script).1 at hr
  have hbeside : Beside s s' := by
    refine ⟨hpg ▸ hf.quiet, hseq ▸ hf.questions, hseq ▸ hf.answers, hclock.trans ?_⟩
    rw [hf.rest]
  have hdb : s'.db = (Ledger.handled s data script).2.state.db :=
    congrArg Transaction.Sessions.db hpg
  generalize hout : (Ledger.handled s data script).1 = out at hr
  cases hr with
  | refused hsame =>
    refine .kept (hbeside.kept (hdb.trans hsame)) fun _ hdata => ?_
    cases hdata
    rw [hout]
    nofun
  | again _ _ hsame =>
    refine .kept (hbeside.kept (hdb.trans hsame)) fun _ hdata => ?_
    cases hdata
    rw [hout]
    nofun
  | never _ _ hsame =>
    refine .kept (hbeside.kept (hdb.trans hsame)) fun _ hdata => ?_
    cases hdata
    rw [hout]
    nofun
  | up row a _ _ htarget _ _ _ _ hone hpost =>
    obtain ⟨ha, hid⟩ := eq_of_filter hone
    exact .up hout (htarget.trans hid.symm) ha hid hbeside (hdb.trans hpost)
  | down row a _ _ hone hpost =>
    obtain ⟨ha, hid⟩ := eq_of_filter hone
    exact .down hout ha hid hbeside (hdb.trans hpost)

theorem vote_effect (hq : s.pg.Quiet) (msg : Delivery) :
    Ballot s script msg ((onMessage "answer" msg).run World.exec ⟨s, script⟩).2.state := by
  obtain ⟨id, payload⟩ := msg
  cases payload with
  | error e => exact .kept (.refl hq) nofun
  | ok data =>
    have hrun := onMessage_run id data ⟨s, script⟩
    rw [← Ledger.handled] at hrun
    rw [hrun]
    obtain ⟨r, w, hw⟩ : ∃ r w, Ledger.handled s data script = (r, w) := ⟨_, _, rfl⟩
    cases r with
    | error e =>
      rw [hw]
      exact handled_effect hq id data (by rw [hw]) (by rw [hw]) (by rw [hw])
    | ok b =>
      obtain ⟨acked, -, hack⟩ := ack_run id w
      rw [hw]
      dsimp only
      rw [hack]
      exact handled_effect hq id data (by rw [hw]) (by rw [hw]) (by rw [hw])

theorem questionId_replaceBy {rows : List AnswerRow} {a row : AnswerRow}
    (hnd : (rows.map AnswerRow.id).Nodup) (ha : a ∈ rows) (hid : row.id = a.id)
    (hq : row.questionId = a.questionId) :
    (replaceBy AnswerRow.id row rows).map AnswerRow.questionId =
      rows.map AnswerRow.questionId := by
  rw [replaceBy, List.map_map]
  refine List.map_congr_left fun r hr => ?_
  by_cases h : r.id = row.id
  · rw [List.inj_on_of_nodup_map hnd hr ha (h.trans hid)]
    simp [hid, hq]
  · simp [h]

theorem Tables.effect (h : Tables s) {c : Rpc} {r : Except Err (App.Reply c.Reply)}
    (he : Effect s script c r s') : Tables s' := by
  cases he with
  | kept hk => exact h.kept hk
  | addQuestion _ _ _ _ _ _ _ hid hadv => exact ⟨h.quiet, h.questions.snoc hid hadv, h.answers⟩
  | deleteQuestion => exact ⟨h.quiet, h.questions.sublist (List.filter_sublist.map _), h.answers⟩
  | updateQuestion =>
    refine ⟨h.quiet, ?_, h.answers⟩
    rw [withQuestions, Store.settled_db, ids_asked]
    exact h.questions
  | addAnswer _ _ _ _ _ _ _ hid hadv => exact ⟨h.quiet, h.questions, h.answers.snoc hid hadv⟩
  | deleteAnswer => exact ⟨h.quiet, h.questions, h.answers.sublist (List.filter_sublist.map _)⟩
  | updateAnswer =>
    refine ⟨h.quiet, h.questions, ?_⟩
    rw [withAnswers, Store.settled_db, ids_answered]
    exact h.answers

theorem Tables.ballot (h : Tables s) {msg : Delivery} (hb : Ballot s script msg s') :
    Tables s' := by
  have voted {rows : List VoteRow} {a : AnswerRow} (hbeside : Beside s s')
      (hdb : s'.db = { s.db with
        usersVotes := rows, answers := replaceBy AnswerRow.id a s.db.answers }) : Tables s' := by
    refine ⟨hbeside.quiet, ?_, ?_⟩
    all_goals rw [hdb]
    · exact hbeside.questionsSeq ▸ h.questions
    · rw [hbeside.answersSeq, map_key_replaceBy]
      exact h.answers
  cases hb with
  | kept hk => exact h.kept hk
  | up _ _ _ _ hbeside hdb => exact voted hbeside hdb
  | down _ _ _ hbeside hdb => exact voted hbeside hdb

theorem Tables.next (h : Tables s) (e : Event) : Tables (next svc s e) := by
  cases e with
  | tick seconds => exact ⟨h.quiet, h.questions, h.answers⟩
  | rpc c script => exact h.effect (rpc_effect h c)
  | vote msg script => exact h.ballot (vote_effect h.quiet msg)

end QaSys.Content
