import QaSys.Content.Runs
import QaSys.Vote.Publishing

/-! Which calls of the service the questions, the answers and the votes come from.  A user is known
to have asked for the calls with the property `R`. -/

namespace QaSys.Content

open UserVote Prog

/-- The author asked for the question, and for its text unless the user of the last update did. -/
structure AskedBy (R : Rpc → Prop) (r : QuestionRow) : Prop where
  added : ∃ req, R (.addQuestion req) ∧ req.createBy = r.createdBy.val ∧
    (r.updatedBy.val = "" → Varchar.assign 300 req.title = some r.title ∧ req.content = r.content)
  updated : r.updatedBy.val ≠ "" → ∃ req, R (.updateQuestion req) ∧ req.updateBy = r.updatedBy.val ∧
    req.id.asI64 = r.id ∧ Varchar.assign 300 req.title = some r.title ∧ req.content = r.content

structure AnsweredBy (R : Rpc → Prop) (a : AnswerRow) : Prop where
  added : ∃ entity, R (.addAnswer ⟨some entity⟩) ∧ entity.createBy = a.createdBy.val ∧
    entity.questionId.asI64 = a.questionId ∧ (a.updatedBy.val = "" → entity.content = a.content)
  updated : a.updatedBy.val ≠ "" → ∃ req, R (.updateAnswer req) ∧ req.username = a.updatedBy.val ∧
    req.id.asI64 = a.id ∧ req.content = a.content

/-- The user asked to do this to the vote. -/
def Polled (R : Rpc → Prop) (action : String) (v : VoteRow) : Prop :=
  ∃ req, R (.agreeAnswer req) ∧ req.createBy = v.createdBy.val ∧ req.id.asI64 = v.targetId ∧
    req.action = action

def Sent (R : Rpc → Prop) (msg : VoteMessage) : Prop :=
  ∃ req, R (.agreeAnswer req) ∧ msg = ⟨req.id.toInt64, "answer", req.createBy, req.action⟩

/-- The message, which the user of the vote asked for, takes it back. -/
structure Withdraws (R : Rpc → Prop) (msg : VoteMessage) (v : VoteRow) : Prop where
  sent : Sent R msg
  action : msg.action = "down"
  user : msg.createdBy = v.createdBy.val
  target : msg.targetId.toInt = v.targetId

/-- Users have asked for all there is, and the keys of the votes are in order. -/
structure Attributed (R : Rpc → Prop) (s : Store) : Prop where
  questions : ∀ r ∈ s.db.questions, AskedBy R r
  answers : ∀ a ∈ s.db.answers, AnsweredBy R a
  votes : ∀ v ∈ s.db.usersVotes, Polled R "up" v
  messages : ∀ msg ∈ s.topic, Sent R msg
  keys : (s.db.usersVotes.map VoteRow.id).Nodup
  drawn : ∀ v ∈ s.db.usersVotes, v.id ≤ s.seq.usersVotes

variable {svc : QaServiceImpl} {R R' : Rpc → Prop} {s s' : Store} {script : List Choice}

theorem AskedBy.mono {r : QuestionRow} (h : AskedBy R r) (hR : ∀ c, R c → R' c) : AskedBy R' r := by
  obtain ⟨⟨req, hreq, hadded⟩, hupdated⟩ := h
  refine ⟨⟨req, hR _ hreq, hadded⟩, fun hby => ?_⟩
  obtain ⟨req, hreq, hrest⟩ := hupdated hby
  exact ⟨req, hR _ hreq, hrest⟩

theorem AnsweredBy.mono {a : AnswerRow} (h : AnsweredBy R a) (hR : ∀ c, R c → R' c) :
    AnsweredBy R' a := by
  obtain ⟨⟨entity, hreq, hadded⟩, hupdated⟩ := h
  refine ⟨⟨entity, hR _ hreq, hadded⟩, fun hby => ?_⟩
  obtain ⟨req, hreq, hrest⟩ := hupdated hby
  exact ⟨req, hR _ hreq, hrest⟩

theorem Attributed.mono (h : Attributed R s) (hR : ∀ c, R c → R' c) : Attributed R' s := by
  refine ⟨fun r hr => (h.questions r hr).mono hR, fun a ha => (h.answers a ha).mono hR,
    fun v hv => ?_, fun msg hmsg => ?_, h.keys, h.drawn⟩
  · obtain ⟨req, hreq, hrest⟩ := h.votes v hv
    exact ⟨req, hR _ hreq, hrest⟩
  · obtain ⟨req, hreq, hrest⟩ := h.messages msg hmsg
    exact ⟨req, hR _ hreq, hrest⟩

theorem unrevised_addQuestion (hq : s.pg.Quiet) (req : Pb.AddQuestionRequest) :
    (App.addQuestion req).Ends World.exec ⟨s, script⟩ fun _ w =>
      ∀ r ∈ w.state.db.questions, r ∈ s.db.questions ∨ r.updatedBy.val = "" := by
  change (App.addQuestion req).Ends World.exec ⟨s, script.drop 0⟩ _
  refine ends_bind.mpr (ends_attempt.mpr (ends_bind.mpr (ends_query hq ?_ ?_)))
  · exact fun _ _ _ _ r => .inl
  · intro id ws _ heval r hr
    obtain ⟨id, -, heval⟩ := except_bind_eq_ok heval
    obtain ⟨title, -, heval⟩ := except_bind_eq_ok heval
    obtain ⟨createdBy, -, heval⟩ := except_bind_eq_ok heval
    cases heval
    rcases List.mem_append.mp hr with hr | hr
    · exact .inl hr
    · rw [List.mem_singleton.mp hr]
      exact .inr rfl

theorem unrevised_addAnswer (hq : s.pg.Quiet) (entity : Pb.AnswerEntity) :
    (App.addAnswer ⟨some entity⟩).Ends World.exec ⟨s, script⟩ fun _ w =>
      ∀ a ∈ w.state.db.answers, a ∈ s.db.answers ∨ a.updatedBy.val = "" := by
  change (App.addAnswer ⟨some entity⟩).Ends World.exec ⟨s, script.drop 0⟩ _
  refine ends_bind.mpr (ends_attempt.mpr (ends_bind.mpr (ends_query hq ?_ ?_)))
  · exact fun _ _ _ _ a => .inl
  · intro id ws _ heval a ha
    obtain ⟨id, -, heval⟩ := except_bind_eq_ok heval
    obtain ⟨createdBy, -, heval⟩ := except_bind_eq_ok heval
    cases heval
    rcases List.mem_append.mp ha with ha | ha
    · exact .inl ha
    · rw [List.mem_singleton.mp ha]
      exact .inr rfl

theorem usersVotes_effect {c : Rpc} {r : Except Err (App.Reply c.Reply)}
    (he : Effect s script c r s') : s'.db.usersVotes = s.db.usersVotes := by
  cases he with
  | kept hk => exact hk.usersVotes
  | _ => rfl

theorem Attributed.answers_replaceBy (h : Attributed R s) {a : AnswerRow} (ha : a ∈ s.db.answers)
    {n : Int} {at' : Option Int} : ∀ a' ∈ replaceBy AnswerRow.id
      { a with agreeCount := n, updatedAt := at' } s.db.answers, AnsweredBy R a' := by
  intro a' ha'
  rcases mem_replaceBy.mp ha' with ⟨_, _, _, rfl⟩ | ⟨ha', -⟩
  · exact ⟨(h.answers a ha).added, (h.answers a ha).updated⟩
  · exact h.answers a' ha'

/-- The handler runs once for a message, and what it does is only acknowledged after it. -/
theorem handled_of_vote (hq : s.pg.Quiet) (svc : QaServiceImpl) (id : Nat) (data : VoteMessage)
    (script : List Choice) : ∃ s' r acked, Framed s s' ∧
      Handled s data.targetId.toInt data.createdBy data.action s' r ∧
      next svc s (.vote ⟨id, .ok data⟩ script) = { s' with acked } := by
  have hr := exec_of_ensures (handlerAnswerAgree_ensures hq data.targetId.toUInt64 data.createdBy
    data.action) script
  change Framed s (Ledger.handled s data script).2.state ∧ Handled s data.targetId.toInt
    data.createdBy data.action (Ledger.handled s data script).2.state
    (Ledger.handled s data script).1 at hr
  have hrun : next svc s (.vote ⟨id, .ok data⟩ script) = _ :=
    congrArg Scripted.state (onMessage_run id data ⟨s, script⟩)
  rw [← Ledger.handled] at hrun
  generalize Ledger.handled s data script = out at hr hrun
  obtain ⟨r, w⟩ := out
  cases r with
  | error e => exact ⟨w.state, .error e, w.state.acked, hr.1, hr.2, hrun⟩
  | ok b =>
    obtain ⟨acked, -, hack⟩ := ack_run id w
    exact ⟨w.state, .ok b, acked, hr.1, hr.2, hrun.trans hack⟩

section

-- The names of the users who ask fit the columns.
variable (hname : ∀ c u, R c → c.actor = some u → u.length ≤ 50 ∧ u ≠ "")

include hname

theorem val_of_actor {c : Rpc} {u : String} {by' : Varchar 50} (hc : R c) (hu : c.actor = some u)
    (hby : Varchar.assign 50 u = some by') : by'.val = u ∧ by'.val ≠ "" := by
  obtain ⟨hle, hne⟩ := hname c u hc hu
  have hval := Varchar.val_of_assign hby (.inl hle)
  exact ⟨hval, hval ▸ hne⟩

namespace Attributed

theorem questions_effect (h : Attributed R s) {c : Rpc} (hc : c.actor.isSome = true → R c)
    {res : Except Err (App.Reply c.Reply)} (he : Effect s script c res s')
    (hfresh : ∀ req, c = .addQuestion req →
      ∀ r ∈ s'.db.questions, r ∈ s.db.questions ∨ r.updatedBy.val = "") :
    ∀ r ∈ s'.db.questions, AskedBy R r := by
  intro r hr
  cases he with
  | kept hk => exact h.questions r (hk.questions ▸ hr)
  | @addQuestion req row _ htitle hcontent hby =>
    rcases hfresh req rfl r hr with hold | hnew
    · exact h.questions r hold
    rcases List.mem_append.mp hr with hr | hr
    · exact h.questions r hr
    · rw [List.mem_singleton.mp hr] at hnew ⊢
      obtain ⟨hval, -⟩ := val_of_actor hname (hc rfl) rfl hby
      exact ⟨⟨req, hc rfl, hval.symm, fun _ => ⟨htitle, hcontent.symm⟩⟩, fun hno => absurd hnew hno⟩
  | deleteQuestion => exact h.questions r (List.mem_filter.mp hr).1
  | @updateQuestion req _ _ _ htitle hby =>
    obtain ⟨old, hold, rfl⟩ := List.mem_map.mp hr
    by_cases hid : old.id = req.id.asI64
    · rw [if_pos hid]
      obtain ⟨hval, hne⟩ := val_of_actor hname (hc rfl) rfl hby
      obtain ⟨req', hreq', hauthor, -⟩ := (h.questions old hold).added
      exact ⟨⟨req', hreq', hauthor, fun hno => absurd hno hne⟩,
        fun _ => ⟨req, hc rfl, hval.symm, hid.symm, htitle, rfl⟩⟩
    · rw [if_neg hid]
      exact h.questions old hold
  | addAnswer => exact h.questions r hr
  | deleteAnswer => exact h.questions r hr
  | updateAnswer => exact h.questions r hr

theorem answers_effect (h : Attributed R s) {c : Rpc} (hc : c.actor.isSome = true → R c)
    {res : Except Err (App.Reply c.Reply)} (he : Effect s script c res s')
    (hfresh : ∀ entity, c = .addAnswer ⟨some entity⟩ →
      ∀ a ∈ s'.db.answers, a ∈ s.db.answers ∨ a.updatedBy.val = "") :
    ∀ a ∈ s'.db.answers, AnsweredBy R a := by
  intro a ha
  cases he with
  | kept hk => exact h.answers a (hk.answers ▸ ha)
  | @addAnswer entity row _ hquestion hcontent hby =>
    rcases hfresh entity rfl a ha with hold | hnew
    · exact h.answers a hold
    rcases List.mem_append.mp ha with ha | ha
    · exact h.answers a ha
    · rw [List.mem_singleton.mp ha] at hnew ⊢
      obtain ⟨hval, -⟩ := val_of_actor hname (hc rfl) rfl hby
      exact ⟨⟨entity, hc rfl, hval.symm, hquestion.symm, fun _ => hcontent.symm⟩,
        fun hno => absurd hnew hno⟩
  | deleteAnswer => exact h.answers a (List.mem_filter.mp ha).1
  | @updateAnswer req _ _ hby =>
    obtain ⟨old, hold, rfl⟩ := List.mem_map.mp ha
    by_cases hid : old.id = req.id.asI64
    · rw [if_pos hid]
      obtain ⟨hval, hne⟩ := val_of_actor hname (hc rfl) rfl hby
      obtain ⟨entity, hreq', hauthor, hquestion, -⟩ := (h.answers old hold).added
      exact ⟨⟨entity, hreq', hauthor, hquestion, fun hno => absurd hno hne⟩,
        fun _ => ⟨req, hc rfl, hval.symm, hid.symm, rfl⟩⟩
    · rw [if_neg hid]
      exact h.answers old hold
  | addQuestion => exact h.answers a ha
  | deleteQuestion => exact h.answers a ha
  | updateQuestion => exact h.answers a ha

theorem rpc (h : Attributed R s) (ht : Tables s) {c : Rpc} (hc : c.actor.isSome = true → R c)
    (hvote : ∀ req, c ≠ .answerAgree req) : Attributed R (served svc s c script).2.state := by
  have he : Effect s script c _ (served svc s c script).2.state := rpc_effect ht c
  have hsent : s.Sent c.Publishes (served svc s c script).2.state := sent_rpc s script c
  have hvotes := usersVotes_effect he
  refine ⟨h.questions_effect hname hc he ?_, h.answers_effect hname hc he ?_, hvotes ▸ h.votes, ?_,
    hvotes ▸ h.keys, ?_⟩
  · rintro req rfl
    exact unrevised_addQuestion ht.quiet req
  · rintro entity rfl
    exact unrevised_addAnswer ht.quiet entity
  · intro msg hmsg
    rcases hsent.topic msg hmsg with hold | hnew
    · exact h.messages msg hold
    · cases c with
      | agreeAnswer req => exact ⟨req, hc rfl, hnew⟩
      | answerAgree req => exact absurd rfl (hvote req)
      | _ => exact hnew.elim
  · rw [hvotes, hsent.usersVotes]
    exact h.drawn

theorem handled (h : Attributed R s) {req : Pb.AgreeAnswerRequest} (hreq : R (.agreeAnswer req))
    {r : Except Err Bool} (hf : Framed s s')
    (hh : Handled s req.id.asI64 req.createBy req.action s' r) : Attributed R s' := by
  have hmessages : ∀ msg ∈ s'.topic, Sent R msg := by
    rw [hf.rest]
    exact h.messages
  have same (hdb : s'.db = s.db) : Attributed R s' := by
    refine ⟨hdb ▸ h.questions, hdb ▸ h.answers, hdb ▸ h.votes, hmessages, hdb ▸ h.keys, ?_⟩
    rw [hdb]
    exact fun v hv => (h.drawn v hv).trans hf.usersVotes
  cases hh with
  | refused hdb => exact same hdb
  | again _ _ hdb => exact same hdb
  | never _ _ hdb => exact same hdb
  | up row a hup _ htarget _ hby hnew hle hone hdb =>
    obtain ⟨hval, -⟩ := val_of_actor hname hreq rfl hby
    have hquestions : s'.db.questions = s.db.questions := by rw [hdb]; rfl
    have hkeys : s'.db.usersVotes.map VoteRow.id = s.db.usersVotes.map VoteRow.id ++ [row.id] := by
      rw [hdb]
      exact List.map_append
    refine ⟨hquestions ▸ h.questions, ?_, ?_, hmessages, ?_, ?_⟩
    · rw [hdb]
      exact h.answers_replaceBy (eq_of_filter hone).1
    · intro v hv
      rw [hdb] at hv
      rcases List.mem_append.mp hv with hv | hv
      · exact h.votes v hv
      · rw [List.mem_singleton.mp hv]
        exact ⟨req, hreq, hval.symm, htarget.symm, hup⟩
    · rw [hkeys]
      refine h.keys.append (List.nodup_singleton _) (List.disjoint_singleton.mpr fun hmem => ?_)
      obtain ⟨v, hv, hid⟩ := List.mem_map.mp hmem
      have := h.drawn v hv
      omega
    · intro v hv
      rw [hdb] at hv
      rcases List.mem_append.mp hv with hv | hv
      · exact (h.drawn v hv).trans hf.usersVotes
      · rw [List.mem_singleton.mp hv]
        exact hle
  | down row a hdown hrow hone hdb =>
    have hquestions : s'.db.questions = s.db.questions := by rw [hdb]; rfl
    have hsub : s'.db.usersVotes.Sublist s.db.usersVotes := by
      rw [hdb]
      exact List.filter_sublist
    refine ⟨hquestions ▸ h.questions, ?_, fun v hv => h.votes v (hsub.subset hv), hmessages,
      h.keys.sublist (hsub.map _), fun v hv => (h.drawn v (hsub.subset hv)).trans hf.usersVotes⟩
    rw [hdb]
    exact h.answers_replaceBy (eq_of_filter hone).1

theorem vote (h : Attributed R s) (hq : s.pg.Quiet) {msg : Delivery}
    (hmsg : ∀ data, msg.payload = .ok data → data ∈ s.topic) :
    Attributed R (next svc s (.vote msg script)) := by
  obtain ⟨id, payload⟩ := msg
  cases payload with
  | error e => exact h
  | ok data =>
    obtain ⟨s', r, acked, hf, hh, hnext⟩ := handled_of_vote hq svc id data script
    obtain ⟨req, hreq, rfl⟩ := h.messages data (hmsg data rfl)
    have hs' : Attributed R s' := h.handled hname hreq hf hh
    rw [hnext]
    exact ⟨hs'.questions, hs'.answers, hs'.votes, hs'.messages, hs'.keys, hs'.drawn⟩

end Attributed

end

theorem Attributed.withdrawn (h : Attributed R s) (hq : s.pg.Quiet) {msg : Delivery}
    (hmsg : ∀ data, msg.payload = .ok data → data ∈ s.topic) : ∀ v ∈ s.db.usersVotes,
      v ∉ (next svc s (.vote msg script)).db.usersVotes →
      ∃ data, msg.payload = .ok data ∧ Withdraws R data v := by
  intro v hv hgone
  obtain ⟨id, payload⟩ := msg
  cases payload with
  | error e => exact absurd hv hgone
  | ok data =>
    obtain ⟨s', r, acked, -, hh, hnext⟩ := handled_of_vote hq svc id data script
    have hsent := h.messages data (hmsg data rfl)
    rw [hnext] at hgone
    change v ∉ s'.db.usersVotes at hgone
    cases hh with
    | refused hdb => exact absurd (hdb ▸ hv) hgone
    | again _ _ hdb => exact absurd (hdb ▸ hv) hgone
    | never _ _ hdb => exact absurd (hdb ▸ hv) hgone
    | up row a _ _ _ _ _ _ _ _ hdb =>
      rw [hdb] at hgone
      exact absurd (List.mem_append_left _ hv) hgone
    | down row a hdown hrow hone hdb =>
      have hmem : row ∈ s.db.usersVotes.filter _ := hrow ▸ List.mem_singleton_self row
      obtain ⟨hrow, hmatch⟩ := List.mem_filter.mp hmem
      simp only [VoteRow.matches, Bool.and_eq_true, decide_eq_true_eq] at hmatch
      have hid : v.id = row.id := by
        by_contra hne
        rw [hdb] at hgone
        exact hgone (mem_removeBy.mpr ⟨hv, hne⟩)
      rw [List.inj_on_of_nodup_map h.keys hv hrow hid]
      exact ⟨data, rfl, hsent, hdown, hmatch.2.symm, hmatch.1.1.symm⟩

end QaSys.Content
