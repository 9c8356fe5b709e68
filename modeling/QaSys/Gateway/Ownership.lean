import QaSys.Gateway.Identity

/-! Who changes the questions and the answers: their authors, but for updates. -/

namespace QaSys.Gateway

open Prog Runs

/-- The rows that went, came or got another text belong to the user `who`. -/
structure Owned (who : Option String) (s s' : Store) : Prop where
  questions : ∀ r ∈ s.db.questions, (∀ r' ∈ s'.db.questions, r'.id = r.id → r'.title = r.title →
    r'.content ≠ r.content) → who = some r.createdBy.val
  newQuestions : ∀ r' ∈ s'.db.questions, r'.id ∉ s.db.questions.map QuestionRow.id →
    who = some r'.createdBy.val
  answers : ∀ r ∈ s.db.answers, (∀ r' ∈ s'.db.answers, r'.id = r.id → r'.content ≠ r.content) →
    who = some r.createdBy.val
  newAnswers : ∀ r' ∈ s'.db.answers, r'.id ∉ s.db.answers.map AnswerRow.id →
    who = some r'.createdBy.val

/-- An update that PostgreSQL takes leaves the texts of others as they are. -/
def OwnText (who : Option String) (s : Store) (c : Rpc) (script : List Choice) : Prop :=
  c.Accepted s script → match c with
    | .updateQuestion req => ∀ r ∈ s.db.questions, r.id = req.id.asI64 →
      who = some r.createdBy.val ∨ Varchar.assign 300 req.title = some r.title ∧
        req.content = r.content
    | .updateAnswer req => ∀ r ∈ s.db.answers, r.id = req.id.asI64 →
      who = some r.createdBy.val ∨ req.content = r.content
    | _ => True

variable (svc : QaServiceImpl)

def UpdatesOwn (s : System) (e : Event) : Prop :=
  match executed svc s e with
  | some (c, script) => OwnText (who s e) s.state.store c script
  | none => True

instance {who : Option String} {s : Store} :
    (c : Rpc) → {script : List Choice} → Decidable (OwnText who s c script)
  | .addQuestion _, _ | .deleteQuestion _, _ | .updateQuestion _, _ | .addAnswer _, _
  | .deleteAnswer _, _ | .updateAnswer _, _ | .agreeAnswer _, _ | .questionDetail _, _
  | .latestQuestion _, _ | .answerList _, _ | .answerDetail _, _ | .answerAgree _, _
  | .userLogin _, _ | .userLogout _, _ | .userRegister _, _ | .verifyToken _, _ =>
    instDecidableForall

theorem updatesOwn_iff {s : System} {e : Event} : UpdatesOwn svc s e ↔
    ∀ call ∈ executed svc s e, OwnText (who s e) s.state.store call.1 call.2 := by
  unfold UpdatesOwn
  cases executed svc s e <;> simp

instance (s : System) (e : Event) : Decidable (UpdatesOwn svc s e) :=
  decidable_of_iff _ (updatesOwn_iff svc).symm

/-- The events of the gateway, of votes and of the clock.  What is found in place of a stored session
is no session. -/
def Ordinary (e : Event) : Prop := ¬ Direct e ∧ ∀ ch ∈ e.script, ch.NoSession svc.crates

instance : DecidablePred (Ordinary svc) := fun _ => inferInstanceAs (Decidable (_ ∧ _))

theorem owned_iff {who : Option String} {s s' : Store} : Owned who s s' ↔
    (∀ r ∈ s.db.questions, (∀ r' ∈ s'.db.questions, r'.id = r.id → r'.title = r.title →
      r'.content ≠ r.content) → who = some r.createdBy.val) ∧
    (∀ r' ∈ s'.db.questions, r'.id ∉ s.db.questions.map QuestionRow.id →
      who = some r'.createdBy.val) ∧
    (∀ r ∈ s.db.answers, (∀ r' ∈ s'.db.answers, r'.id = r.id → r'.content ≠ r.content) →
      who = some r.createdBy.val) ∧
    ∀ r' ∈ s'.db.answers, r'.id ∉ s.db.answers.map AnswerRow.id → who = some r'.createdBy.val :=
  ⟨fun h => ⟨h.questions, h.newQuestions, h.answers, h.newAnswers⟩,
    fun h => ⟨h.1, h.2.1, h.2.2.1, h.2.2.2⟩⟩

instance {who : Option String} {s s' : Store} : Decidable (Owned who s s') :=
  decidable_of_iff _ owned_iff.symm

variable {svc} {x : Formats} {s s' : Store} {script : List Choice} {who : Option String}

namespace Owned

theorem of_answers (hq : s'.db.questions = s.db.questions)
    (ha : ∀ r ∈ s.db.answers, (∀ r' ∈ s'.db.answers, r'.id = r.id → r'.content ≠ r.content) →
      who = some r.createdBy.val)
    (hnew : ∀ r' ∈ s'.db.answers, r'.id ∉ s.db.answers.map AnswerRow.id →
      who = some r'.createdBy.val) : Owned who s s' :=
  ⟨fun r hr h => absurd rfl (h r (hq ▸ hr) rfl rfl),
    fun _ hr hno => absurd (List.mem_map_of_mem (hq ▸ hr)) hno, ha, hnew⟩

theorem of_questions (ha : s'.db.answers = s.db.answers)
    (hq : ∀ r ∈ s.db.questions, (∀ r' ∈ s'.db.questions, r'.id = r.id → r'.title = r.title →
      r'.content ≠ r.content) → who = some r.createdBy.val)
    (hnew : ∀ r' ∈ s'.db.questions, r'.id ∉ s.db.questions.map QuestionRow.id →
      who = some r'.createdBy.val) : Owned who s s' :=
  ⟨hq, hnew, fun r hr h => absurd rfl (h r (ha ▸ hr) rfl),
    fun _ hr hno => absurd (List.mem_map_of_mem (ha ▸ hr)) hno⟩

theorem refl (hq : s'.db.questions = s.db.questions) (ha : s'.db.answers = s.db.answers) :
    Owned who s s' :=
  of_answers hq (fun r hr h => absurd rfl (h r (ha ▸ hr) rfl))
    fun _ hr hno => absurd (List.mem_map_of_mem (ha ▸ hr)) hno

def SameText (r r' : QuestionRow) : Prop := r'.title = r.title ∧ r'.content = r.content

theorem questions_iff {rows rows' : List QuestionRow} {P : QuestionRow → Prop} :
    (∀ r ∈ rows, (∀ r' ∈ rows', r'.id = r.id → r'.title = r.title → r'.content ≠ r.content) →
      P r) ↔ ∀ r ∈ rows, (∀ r' ∈ rows', r'.id = r.id → ¬ SameText r r') → P r := by
  simp only [SameText, not_and, ne_eq]

theorem updateQuestion (h : Content.Tables s) {id : Int} {title : Varchar 300} {content : String}
    {by' : Varchar 50} {seq : Seq} : Owned who s (Content.withQuestions s (s.db.questions.map fun r =>
      if r.id = id then Content.asked r title content by' else r) seq) ↔
      ∀ r ∈ s.db.questions, r.id = id →
        who = some r.createdBy.val ∨ title = r.title ∧ content = r.content := by
  have hgone := forall_gone_update (R := SameText) (P := fun r => who = some r.createdBy.val)
    (f := (Content.asked · title content by')) (fun _ => ⟨rfl, rfl⟩) (fun _ => rfl) id
    h.questions.nodup
  refine Iff.trans ⟨fun ho => questions_iff.mp ho.questions, fun hq => ?_⟩ hgone
  refine of_questions rfl (questions_iff.mpr hq) fun r' hr' hno => ?_
  have hid : r'.id ∈ List.map QuestionRow.id _ := List.mem_map_of_mem hr'
  rw [Content.withQuestions, Store.settled_db, Content.ids_asked] at hid
  exact absurd hid hno

theorem updateAnswer (h : Content.Tables s) {id now : Int} {content : String}
    {by' : Varchar 50} {seq : Seq} : Owned who s (Content.withAnswers s (s.db.answers.map fun r =>
      if r.id = id then Content.answered r content by' now else r) seq) ↔
      ∀ r ∈ s.db.answers, r.id = id → who = some r.createdBy.val ∨ content = r.content := by
  have hgone := forall_gone_update (R := fun r r' : AnswerRow => r'.content = r.content)
    (P := fun r => who = some r.createdBy.val) (f := (Content.answered · content by' now))
    (fun _ => rfl) (fun _ => rfl) id h.answers.nodup
  refine Iff.trans ⟨fun ho => ho.answers, fun ha => ?_⟩ hgone
  refine of_answers rfl ha fun r' hr' hno => ?_
  have hid : r'.id ∈ List.map AnswerRow.id _ := List.mem_map_of_mem hr'
  rw [Content.withAnswers, Store.settled_db, Content.ids_answered] at hid
  exact absurd hid hno

theorem effect (h : Content.Tables s) {c : Rpc}
    (hwho : ∀ u, c.actor = some u → who = some u ∧ u.length ≤ 50)
    {r : Except Err (App.Reply c.Reply)} (he : Content.Effect s script c r s') :
    Owned who s s' ↔ OwnText who s c script := by
  have stored {u : String} {by' : Varchar 50} (hu : c.actor = some u)
      (hby : Varchar.assign 50 u = some by') : who = some by'.val := by
    rw [Varchar.val_of_assign hby (.inl (hwho u hu).2)]
    exact (hwho u hu).1
  have author {u : String} {id id' : Int} {by' : Varchar 50} (hu : c.actor = some u)
      (hhit : (id = id' && by'.val = u) = true) : who = some by'.val := by
    rw [Bool.and_eq_true, decide_eq_true_eq, decide_eq_true_eq] at hhit
    rw [hhit.2]
    exact (hwho u hu).1
  cases he with
  | kept hk hno => exact iff_of_true (.refl hk.questions hk.answers) fun hacc => absurd hacc hno
  | @addQuestion req row _ _ _ hby =>
    refine iff_of_true (of_questions rfl (fun r hr h => ?_) fun r' hr' hno => ?_) fun _ => trivial
    · exact absurd rfl (h r (List.mem_append_left _ hr) rfl rfl)
    · rcases List.mem_append.mp hr' with hr' | hr'
      · exact absurd (List.mem_map_of_mem hr') hno
      · rw [List.mem_singleton.mp hr']
        exact stored rfl hby
  | @deleteQuestion req =>
    refine iff_of_true (of_questions rfl (questions_iff.mpr ?_) fun r' hr' hno => ?_) fun _ => trivial
    · exact forall_gone_filter (fun _ => ⟨rfl, rfl⟩) fun r _ hhit => author rfl hhit
    · exact absurd (List.mem_map_of_mem (List.mem_of_mem_filter hr')) hno
  | updateQuestion hacc htitle =>
    rw [updateQuestion h]
    simp only [OwnText, htitle, Option.some.injEq]
    exact ⟨fun h _ => h, fun h => h hacc⟩
  | @addAnswer a row _ _ _ hby =>
    refine iff_of_true (of_answers rfl (fun r hr h => ?_) fun r' hr' hno => ?_) fun _ => trivial
    · exact absurd rfl (h r (List.mem_append_left _ hr) rfl)
    · rcases List.mem_append.mp hr' with hr' | hr'
      · exact absurd (List.mem_map_of_mem hr') hno
      · rw [List.mem_singleton.mp hr']
        exact stored rfl hby
  | @deleteAnswer req =>
    refine iff_of_true (of_answers rfl ?_ fun r' hr' hno => ?_) fun _ => trivial
    · exact forall_gone_filter (R := fun r r' : AnswerRow => r'.content = r.content) (fun _ => rfl)
        fun r _ hhit => author rfl hhit
    · exact absurd (List.mem_map_of_mem (List.mem_of_mem_filter hr')) hno
  | updateAnswer hacc =>
    rw [updateAnswer h]
    exact ⟨fun h _ => h, fun h => h hacc⟩

theorem ballot (h : Content.Tables s) {msg : UserVote.Delivery}
    (hb : Content.Ballot s script msg s') : Owned who s s' := by
  have voted {rows : List VoteRow} {a row : AnswerRow} (ha : a ∈ s.db.answers)
      (hid : row.id = a.id) (htext : row.content = a.content) (hdb : s'.db = { s.db with
        usersVotes := rows, answers := replaceBy AnswerRow.id row s.db.answers }) :
      Owned who s s' := by
    have hids : s'.db.answers.map AnswerRow.id = s.db.answers.map AnswerRow.id := by
      rw [hdb]
      exact map_key_replaceBy
    refine of_answers (by rw [hdb]) (fun r hr hgone => ?_) fun r' hr' hno => ?_
    · by_cases hr' : r.id = row.id
      · have hsame : r = a := List.inj_on_of_nodup_map h.answers.nodup hr ha (hr'.trans hid)
        refine absurd htext (hsame ▸ hgone row ?_ hr'.symm)
        rw [hdb]
        exact mem_replaceBy.mpr (.inl ⟨r, hr, hr', rfl⟩)
      · refine absurd rfl (hgone r ?_ rfl)
        rw [hdb]
        exact mem_replaceBy.mpr (.inr ⟨hr, hr'⟩)
    · exact absurd (hids ▸ List.mem_map_of_mem hr') hno
  cases hb with
  | kept hk => exact .refl hk.questions hk.answers
  | up _ _ ha _ _ hdb => exact voted ha (by rfl) (by rfl) hdb
  | down _ ha _ _ hdb => exact voted ha (by rfl) (by rfl) hdb

end Owned

structure Attended (svc : QaServiceImpl) (x : Formats) (s : System) : Prop where
  sound : s.state.Sound svc
  tables : Content.Tables s.state.store
  traced : ∀ e ∈ s.exchanges, Server.Traced (app x) (Answering svc) e

theorem Attended.next (hx : svc.crates.Lawful) {s : System} (h : Attended svc x s) {e : Event}
    (he : Ordinary svc e) : Attended svc x (next svc x s e) := by
  refine ⟨sound_next hx h.sound e, tables_next h.tables e, Server.traced_step h.traced e ?_⟩
  rintro i fate d c k r b rfl hans
  exact ⟨h.sound, he.2, b, hans.answer⟩

theorem Attended.actor {s : System} (h : Attended svc x s) {i : Nat} {fate : Fate} {c : Rpc}
    (hex : executed svc s (.call i fate) = some (c, script)) {u : String} (hu : c.actor = some u) :
    Gateway.who s (.call i fate) = some u ∧ u.length ≤ 50 := by
  obtain ⟨d, p, hi, hd, hv, rfl⟩ := executed_actor h.traced hex hu
  refine ⟨?_, ?_⟩
  · simp only [Gateway.who, hi, Option.bind_some]
    exact principal_of_verified hv
  · obtain ⟨entry, hentry, id, verification, -, hname, hreply⟩ :=
      verification_of_verified svc hv
    have ha := hd.past entry hentry
    obtain ⟨-, j, hj, -, -, hj', -⟩ := session_of_reply ha.sound ha.noSession (hreply ha) hname
    obtain ⟨row, -, hrow, -⟩ := ha.sound.user j hj
    rw [← hj', ← hrow]
    exact row.username.fits

theorem owned_next {s : System} (h : Attended svc x s) {e : Event} (he : Ordinary svc e) :
    Owned (Gateway.who s e) s.state.store (next svc x s e).state.store ↔ UpdatesOwn svc s e := by
  have hback := next_backed svc x s e
  generalize (next svc x s e).state = b at hback
  unfold UpdatesOwn
  cases hback with
  | same hno =>
    rw [hno]
    exact iff_of_true (.refl rfl rfl) trivial
  | @called c script hex =>
    rw [hex, Backend.call_store]
    refine Owned.effect h.tables (fun u hu => ?_) (Content.rpc_effect h.tables c)
    cases e with
    | arrive request => cases hex
    | call i fate => exact h.actor hex hu
    | other ev =>
      cases ev with
      | rpc c script => exact absurd trivial he.1
      | tick seconds => cases hex
      | vote msg script => cases hex
  | @aside ev hev hno =>
    subst hev
    rw [hno, Backend.store_next]
    cases ev with
    | tick seconds => exact iff_of_true (.refl rfl rfl) trivial
    | rpc c script => exact absurd trivial he.1
    | vote msg script =>
      exact iff_of_true (.ballot h.tables (Content.vote_effect h.tables.quiet msg)) trivial

/-- In every run the questions and the answers change through requests of their authors only exactly
when no update of another user that PostgreSQL takes changes the text of a stored one. -/
theorem ownership (hx : svc.crates.Lawful) {b : Backend} (hs : b.Sound svc)
    (ht : Content.Tables b.store) {evs : List Event} (he : ∀ e ∈ evs, Ordinary svc e) :
    Always (next svc x) (fun s e => Owned (Gateway.who s e) s.state.store
      (next svc x s e).state.store) (start b) evs ↔
      Always (next svc x) (UpdatesOwn svc) (start b) evs :=
  always_congr_of (I := Attended svc x) (Q := fun _ => True) (A := Ordinary svc)
    (fun _ _ h he => h.next hx he) (fun _ _ _ _ _ _ => trivial) (fun _ _ h he _ => owned_next h he)
    ⟨hs, ht, fun _ h => absurd h List.not_mem_nil⟩ trivial he

def revised : List Event := asking ++ through 3 (update (token 0) 1)

theorem ownership_revised : Always (next Gateway.svc formats) (fun s e => Owned (Gateway.who s e)
    s.state.store (next Gateway.svc formats s e).state.store) (start origin) revised :=
  (ownership crates_lawful .empty .empty (by decide +kernel)).mpr (by decide +kernel)

/-- Another user changes the question. -/
theorem edited_byAnother : ¬ Always (next Gateway.svc formats) (fun s e => Owned (Gateway.who s e)
    s.state.store (next Gateway.svc formats s e).state.store) (start origin) edited := by
  decide +kernel

end QaSys.Gateway
