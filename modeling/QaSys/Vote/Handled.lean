import QaSys.Store.CallLaws
import QaSys.Store.SqlLaws
import QaSys.Service.UserVote

/-! What one run of `handler_answer_agree` does when no other session has a transaction open,
whichever of its calls fail. -/

namespace QaSys.UserVote

variable {s s' : Store} {allow : Choice → Prop} {t : Int} {u : String}

def Voted (db : Db) (t : Int) (u : String) : Prop :=
  ∃ r ∈ db.usersVotes, r.matches t "answer" u = true

def castVote (db : Db) (now : Int) (row : VoteRow) (a : AnswerRow) : Db :=
  { db with
    usersVotes := db.usersVotes ++ [row]
    answers := replaceBy AnswerRow.id
      { a with agreeCount := a.agreeCount + 1, updatedAt := some now } db.answers }

def cancelVote (db : Db) (now : Int) (row : VoteRow) (a : AnswerRow) : Db :=
  { db with
    usersVotes := removeBy VoteRow.id row.id db.usersVotes
    answers := replaceBy AnswerRow.id
      { a with agreeCount := max (a.agreeCount - 1) 0, updatedAt := some now } db.answers }

/-- The parts of the store a handler run leaves alone. -/
structure Framed (s s' : Store) : Prop where
  quiet : s'.pg.Quiet
  questions : s'.seq.questions = s.seq.questions
  answers : s'.seq.answers = s.seq.answers
  usersVotes : s.seq.usersVotes ≤ s'.seq.usersVotes
  rest : s' = { s with pg := s'.pg, seq := s'.seq }

/-- What the run did to the database, when it ended in the given result. -/
inductive Handled (s : Store) (t : Int) (u action : String) (s' : Store) :
    Except Err Bool → Prop
  | refused : s'.db = s.db → Handled s t u action s' (.error e)
  | again : action = "up" → Voted s.db t u → s'.db = s.db → Handled s t u action s' (.ok false)
  | never : action = "down" → ¬ Voted s.db t u → s'.db = s.db → Handled s t u action s' (.ok false)
  | up (row : VoteRow) (a : AnswerRow) : action = "up" → ¬ Voted s.db t u →
      row.targetId = t → row.targetType.val = "answer" →
      Varchar.assign 50 u = some row.createdBy →
      s.seq.usersVotes < row.id → row.id ≤ s'.seq.usersVotes →
      s.db.answers.filter (·.id = t) = [a] → s'.db = castVote s.db s.clock row a →
      Handled s t u action s' (.ok true)
  | down (row : VoteRow) (a : AnswerRow) : action = "down" →
      s.db.usersVotes.filter (VoteRow.matches t "answer" u) = [row] →
      s.db.answers.filter (·.id = t) = [a] → s'.db = cancelVote s.db s.clock row a →
      Handled s t u action s' (.ok true)

theorem Voted.storable {db : Db} (h : Voted db t u) : Storable u := by
  obtain ⟨r, -, hr⟩ := h
  simp only [VoteRow.matches, Bool.and_eq_true, decide_eq_true_eq] at hr
  exact hr.2 ▸ r.createdBy.storable

theorem voted_iff_find {db : Db} :
    (db.usersVotes.find? (VoteRow.matches t "answer" u)).isSome = true ↔ Voted db t u := by
  rw [List.find?_isSome]
  rfl

theorem eq_of_filter {db : Db} {t : Int} {a : AnswerRow}
    (h : db.answers.filter (·.id = t) = [a]) : a ∈ db.answers ∧ a.id = t := by
  have ha : a ∈ db.answers.filter (·.id = t) := h ▸ List.mem_singleton_self a
  simpa using List.mem_filter.mp ha

theorem Framed.refl (h : s.pg.Quiet) : Framed s s := ⟨h, rfl, rfl, le_rfl, rfl⟩

theorem ensures_transaction {body : Svc A} {Q : Except Err A → Store → Prop}
    (hfail : ∀ ch, allow ch → ch.Faulty → ∀ e, Q (.error e) s)
    (hbody : body.Ensures Store.serve allow (s.opened [] s.seq) fun r s' => match r with
      | .ok a => Q (.ok a) s'
      | .error e => Q (.error e) s'.aborted) :
    (transaction body).Ensures Store.serve allow s Q := by
  refine Prog.ensures_bind.mpr (ensures_begin hfail ?_)
  refine Prog.ensures_tryCatch.mpr (hbody.mono fun r s' hr => ?_)
  cases r with
  | ok a => exact hr
  | error e => exact Prog.ensures_bind.mpr (ensures_rollback hr)

theorem eq_singleton_of_length {rows : List α} (h : decide (rows.length = 1) = true) :
    ∃ a, rows = [a] :=
  List.length_eq_one_iff.mp (of_decide_eq_true h)

theorem refused_settled (h : s.pg.Quiet) (seq : Seq)
    (hq : seq.questions = s.seq.questions) (ha : seq.answers = s.seq.answers)
    (hv : s.seq.usersVotes ≤ seq.usersVotes) (action : String) (e : Err) :
    Framed s (s.settled s.db seq) ∧ Handled s t u action (s.settled s.db seq) (.error e) :=
  ⟨⟨h, hq, ha, hv, rfl⟩, .refused rfl⟩

theorem voteAnswer_ensures (h : s.pg.Quiet) {id : UInt64} (hvoted : ¬ Voted s.db id.asI64 u) :
    (voteAnswer id u).Ensures Store.serve allow s fun r s' =>
      Framed s s' ∧ Handled s id.asI64 u "up" s' r := by
  have nothing := refused_settled (t := id.asI64) (u := u) h s.seq rfl rfl le_rfl "up"
  refine Prog.ensures_bind.mpr (ensures_context.mpr ⟨fun t ht => ?_, fun _ => nothing _⟩)
  obtain ⟨-, -, rfl⟩ := UInt64.tryI64_eq_some ht
  let seq := (Stmt.insertVote id.asI64 "answer" u s.clock).draw s.seq
  have drawn := refused_settled (t := id.asI64) (u := u) h seq rfl rfl (le_advance _) "up"
  refine Prog.ensures_bind.mpr (ensures_now (ensures_transaction (fun _ _ _ _ => nothing _) ?_))
  refine Prog.ensures_bind.mpr (ensures_tx h ?_ ?_ ?_)
  · intro _ _ _ e
    simp only [Store.opened_aborted h]
    exact nothing e
  · intro msg _
    simp only [Store.opened_aborted h]
    exact drawn _
  intro n ws hins
  obtain ⟨row, rfl, rfl, htarget, htype, hby, hid, hadv⟩ := eval_insertVote hins
  refine Prog.ensures_bind.mpr (ensures_ensure.mpr ⟨fun _ => ?_, fun hf => absurd hf (by simp)⟩)
  refine Prog.ensures_bind.mpr (ensures_tx h ?_ ?_ ?_)
  · intro _ _ _ e
    simp only [Store.opened_aborted h]
    exact drawn e
  · intro msg hupd
    cases hupd
  intro n ws hupd
  cases hupd
  refine Prog.ensures_bind.mpr (ensures_ensure.mpr ⟨fun hone => ?_, fun _ => ?_⟩)
  · obtain ⟨a, hone⟩ := eq_singleton_of_length hone
    refine Prog.ensures_bind.mpr (ensures_commit h ?_ ?_)
    · intro _ _ _ e
      simp only [Store.settled_aborted h]
      exact drawn e
    · have hdone : (s.db.answers.filter (·.id = id.asI64)) = [a] := hone
      refine ⟨⟨h, rfl, rfl, le_advance _, rfl⟩, .up row a rfl hvoted htarget ?_ hby ?_ ?_ hdone ?_⟩
      · exact (congrArg Varchar.val (Option.some.inj htype)).symm
      · omega
      · exact hadv.ge
      · simp only [Store.settled_db, List.foldl_append, List.foldl_map, List.nil_append,
          List.foldl_cons, List.foldl_nil, Db.apply, hdone, castVote]
  · simp only [Store.opened_aborted h]
    exact drawn _

theorem cancelVoteAnswer_ensures (h : s.pg.Quiet) {id : UInt64} :
    (cancelVoteAnswer id u).Ensures Store.serve allow s fun r s' =>
      Framed s s' ∧ Handled s id.asI64 u "down" s' r := by
  have nothing := refused_settled (t := id.asI64) (u := u) h s.seq rfl rfl le_rfl "down"
  refine Prog.ensures_bind.mpr (ensures_context.mpr ⟨fun t ht => ?_, fun _ => nothing _⟩)
  obtain ⟨-, -, rfl⟩ := UInt64.tryI64_eq_some ht
  refine Prog.ensures_bind.mpr (ensures_now (ensures_transaction (fun _ _ _ _ => nothing _) ?_))
  refine Prog.ensures_bind.mpr (ensures_tx h ?_ ?_ ?_)
  · intro _ _ _ e
    simp only [Store.opened_aborted h]
    exact nothing e
  · intro msg hdel
    cases hdel
  intro n ws hdel
  cases hdel
  refine Prog.ensures_bind.mpr (ensures_ensure.mpr ⟨fun hone => ?_, fun _ => ?_⟩)
  · obtain ⟨row, hrow⟩ := eq_singleton_of_length hone
    simp only [List.foldl_nil] at hrow
    refine Prog.ensures_bind.mpr (ensures_tx h ?_ ?_ ?_)
    · intro _ _ _ e
      simp only [Store.opened_aborted h]
      exact nothing e
    · intro msg hupd
      cases hupd
    intro n ws hupd
    simp only [List.foldl_nil, hrow] at hupd
    cases hupd
    refine Prog.ensures_bind.mpr (ensures_ensure.mpr ⟨fun hone => ?_, fun _ => ?_⟩)
    · obtain ⟨a, hone⟩ := eq_singleton_of_length hone
      have hans : s.db.answers.filter (·.id = id.asI64) = [a] := hone
      refine Prog.ensures_bind.mpr (ensures_commit h ?_ ?_)
      · intro _ _ _ e
        simp only [Store.settled_aborted h]
        exact nothing e
      · refine ⟨⟨h, rfl, rfl, le_rfl, rfl⟩, .down row a rfl hrow hans ?_⟩
        simp only [Store.settled_db, List.foldl_append, List.foldl_map, List.nil_append, hrow,
          List.foldl_cons, List.foldl_nil, Db.apply, hans, cancelVote]
    · simp only [Store.opened_aborted h]
      exact nothing _
  · simp only [Store.opened_aborted h]
    exact nothing _

theorem isVoted_ensures (h : s.pg.Quiet) (id : UInt64) (u : String) :
    (isVoted id u "answer").Ensures Store.serve allow s fun r s' =>
      s' = s ∧ ∀ b, r = .ok b → (b = true ↔ Voted s.db id.asI64 u) := by
  refine Prog.ensures_bind.mpr (ensures_query h ?_ ?_ ?_)
  · exact fun _ _ _ e => ⟨rfl, fun b hb => nomatch hb⟩
  · intro msg hq
    cases hq
  · intro found ws hq
    cases hq
    refine Prog.ensures_pure.mpr ⟨rfl, fun b hb => ?_⟩
    cases hb
    rw [Option.isSome_map, voted_iff_find]

theorem bindable_vote : (Stmt.vote t u "answer").Bindable ↔ Storable u :=
  ⟨fun h => h u (List.mem_cons_of_mem _ List.mem_cons_self), storable_pair (by decide)⟩

theorem handlerAnswerAgree_refused {id : UInt64} (hu : ¬ Storable u) (action : String) :
    (handlerAnswerAgree id u action).Ensures Store.serve allow s fun r s' =>
      s' = s ∧ ∃ e, r = .error e :=
  Prog.ensures_bind.mpr (Prog.ensures_bind.mpr
    (ensures_refused (bindable_vote.not.mpr hu) fun e => ⟨rfl, e, rfl⟩))

theorem handlerAnswerAgree_ensures (h : s.pg.Quiet) (id : UInt64) (u action : String) :
    (handlerAnswerAgree id u action).Ensures Store.serve allow s fun r s' =>
      Framed s s' ∧ Handled s id.asI64 u action s' r := by
  refine Prog.ensures_bind.mpr ((isVoted_ensures h id u).mono fun r s' hr => ?_)
  obtain ⟨rfl, hr⟩ := hr
  cases r with
  | error e => exact ⟨.refl h, .refused rfl⟩
  | ok hasVoted =>
    have hvoted := hr hasVoted rfl
    by_cases hup : action = "up"
    · subst hup
      cases hasVoted with
      | true => exact ⟨.refl h, .again rfl (hvoted.mp rfl) rfl⟩
      | false => exact voteAnswer_ensures h fun hv => nomatch hvoted.mpr hv
    by_cases hdown : action = "down"
    · subst hdown
      cases hasVoted with
      | true => exact cancelVoteAnswer_ensures h
      | false => exact ⟨.refl h, .never rfl (fun hv => nomatch hvoted.mpr hv) rfl⟩
    · simp only [if_neg hup, if_neg hdown]
      exact ⟨.refl h, .refused rfl⟩

theorem voted_castVote {db : Db} {now : Int} {row : VoteRow} {a : AnswerRow}
    (ht : row.targetId = t) (hty : row.targetType.val = "answer") (hu : row.createdBy.val = u) :
    Voted (castVote db now row a) t u := by
  refine ⟨row, List.mem_append_right _ (List.mem_singleton_self row), ?_⟩
  simp only [VoteRow.matches, ht, hty, hu, decide_true, Bool.and_self]

theorem not_voted_cancelVote {db : Db} {now : Int} {row : VoteRow} {a : AnswerRow}
    (hrow : db.usersVotes.filter (VoteRow.matches t "answer" u) = [row]) :
    ¬ Voted (cancelVote db now row a) t u := by
  rintro ⟨r, hr, hm⟩
  obtain ⟨hr, hne⟩ := mem_removeBy.mp hr
  have hmem : r ∈ db.usersVotes.filter (VoteRow.matches t "answer" u) :=
    List.mem_filter.mpr ⟨hr, hm⟩
  rw [hrow] at hmem
  exact hne (congrArg VoteRow.id (List.mem_singleton.mp hmem))

theorem voted_of_handled {action : String} (hu : Uncut 50 u) {done : Bool}
    (h : Handled s t u action s' (.ok done)) :
    action = "up" ∧ Voted s'.db t u ∨ action = "down" ∧ ¬ Voted s'.db t u := by
  cases h with
  | again haction hvoted hdb => exact .inl ⟨haction, hdb ▸ hvoted⟩
  | never haction hnot hdb => exact .inr ⟨haction, hdb ▸ hnot⟩
  | up row a haction _ htarget htype hby _ _ _ hdb =>
    rw [hdb]
    exact .inl ⟨haction, voted_castVote htarget htype (Varchar.val_of_assign hby hu)⟩
  | down row a haction hrow _ hdb =>
    rw [hdb]
    exact .inr ⟨haction, not_voted_cancelVote hrow⟩

theorem ack_run (id : Nat) (w : World) : ∃ acked,
    (acked = w.state.acked ∨ acked = w.state.acked ++ [id]) ∧
    ((await (.ack id)).run World.exec w).2.state = { w.state with acked := acked } := by
  rw [await, Prog.run_op]
  obtain ⟨s, script⟩ := w
  cases script with
  | nil => exact ⟨_, .inr rfl, rfl⟩
  | cons ch script => cases ch with
    | fail e => exact ⟨_, .inl rfl, rfl⟩
    | lost e => exact ⟨_, .inl rfl, rfl⟩
    | serve => exact ⟨_, .inr rfl, rfl⟩
    | page next fields => exact ⟨_, .inr rfl, rfl⟩
    | raw value => exact ⟨_, .inr rfl, rfl⟩

theorem onMessage_run (id : Nat) (msg : VoteMessage) (w : World) :
    ((onMessage "answer" ⟨id, .ok msg⟩).run World.exec w).2 =
      match (handlerAnswerAgree msg.targetId.toUInt64 msg.createdBy msg.action).run World.exec w with
      | (.ok _, w') => ((await (.ack id)).run World.exec w').2
      | (.error _, w') => w' := by
  simp only [onMessage, handle, if_true, Prog.run_bind, Prog.run_attempt]
  cases (handlerAnswerAgree msg.targetId.toUInt64 msg.createdBy msg.action).run World.exec w with
  | mk r w' => cases r <;> rfl

def oneAnswer (size : Nat) : Store :=
  { Store.empty size 0 fun _ => 0 with
    pg := ⟨{ Db.empty with
      answers := [⟨1, 1, "a", .ofString 50 "alice", .empty 50, 0, none, 0⟩] }, size, fun _ => none⟩
    seq := ⟨0, 1, 1, 0⟩ }

end QaSys.UserVote
