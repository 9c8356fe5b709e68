import QaSys.Service.App
import QaSys.Vote.Handling
import QaSys.Vote.Reply

/-! Which of the votes that `agree_answer` accepts the consumer can apply. -/

namespace QaSys.Acceptance

open UserVote Prog
open Ledger (handled)

/-- The answers count their vote rows, and nobody has two for one answer. -/
structure Consistent (s : Store) : Prop where
  quiet : s.pg.Quiet
  votes : (s.db.usersVotes.map VoteRow.id).Nodup
  answers : (s.db.answers.map AnswerRow.id).Nodup
  counted : ∀ a ∈ s.db.answers, a.agreeCount = (s.db.usersVotes.filter fun r =>
    r.targetId = a.id && r.targetType.val = "answer").length
  unique : ∀ t u, (s.db.usersVotes.filter (VoteRow.matches t "answer" u)).length ≤ 1

/-- The message of the request is the last one published, and handling it with no failure goes
through, has it acknowledged and leaves the answer with the count `c`. -/
def Applies (c : UInt64) (s s' : Store) : Prop :=
  ∃ msg, s'.topic = s.topic ++ [msg] ∧ s'.db = s.db ∧
    ∀ script, (∀ ch ∈ script, ¬ Choice.Faulty ch) → (handled s' msg script).1 = .ok true ∧
      (∃ a, (handled s' msg script).2.state.db.answers.filter (·.id = msg.targetId.toInt) = [a] ∧
        a.agreeCount.asU64 = c) ∧
      ∀ n, ((onMessage "answer" ⟨n, .ok msg⟩).run World.exec ⟨s', script⟩).2.state.acked =
        s'.acked ++ [n]

/-- The id is one of an answer's, and the action is to vote for the first time, under a name that can
be stored, or to take a vote back. -/
def Applicable (s : Store) (req : Pb.AgreeAnswerRequest) : Prop :=
  req.id.toNat ≤ i64Max ∧
    (req.action = "up" ∧ ¬ Voted s.db req.id.asI64 req.createBy ∧
        (Varchar.assign 50 req.createBy).isSome = true ∧ s.seq.usersVotes < i64Max ∨
      req.action = "down" ∧ Voted s.db req.id.asI64 req.createBy)

variable {s s' : Store} {script : List Choice} {allow : Choice → Prop} {id : UInt64}
  {t : Int} {u action : String} {a : AnswerRow}

theorem tryI64_isSome : id.tryI64.isSome = true ↔ id.toNat ≤ i64Max := by
  unfold UInt64.tryI64
  split <;> simp_all

theorem isOk_insertVote (t : Int) (u : String) (now : Int) (seq : Seq) (db : Db) :
    ((Stmt.insertVote t "answer" u now).eval seq db).isOk = true ↔
      (Varchar.assign 50 u).isSome = true ∧ seq.usersVotes < i64Max := by
  by_cases hseq : seq.usersVotes < i64Max
  · have hid : nextval seq.usersVotes = .ok (seq.usersVotes + 1) := if_pos hseq
    simp only [Stmt.eval, hid, assign]
    cases Varchar.assign 50 u with
    | none => exact iff_of_false Bool.false_ne_true fun h => Bool.false_ne_true h.1
    | some v => exact iff_of_true rfl ⟨rfl, hseq⟩
  · have hid : nextval seq.usersVotes = .error "nextval: reached maximum value of sequence" :=
      if_neg hseq
    simp only [Stmt.eval, hid]
    exact iff_of_false Bool.false_ne_true fun h => hseq h.2

theorem voteAnswer_served (hq : s.pg.Quiet) (hallow : ∀ ch, allow ch → ¬ ch.Faulty)
    (hu : Storable u) (hans : s.db.answers.filter (·.id = id.asI64) = [a]) :
    (voteAnswer id u).Ensures Store.serve allow s fun r _ => r = .ok true ↔
      id.toNat ≤ i64Max ∧ (Varchar.assign 50 u).isSome = true ∧ s.seq.usersVotes < i64Max := by
  have served : ∀ {A : Type} {P : A → Prop} ch, allow ch → ch.Faulty → ∀ x, P x :=
    fun ch hch hf => absurd hf (hallow ch hch)
  have accepted : ∀ {A : Type} {P : A → Prop} {q : Stmt}, q.Bindable →
      ∀ ch, allow ch → ch.Refuses q → ∀ x, P x :=
    fun hbind ch hch hr => absurd hr (Store.not_refuses (hallow ch hch) hbind)
  have htexts : ∀ s ∈ ["answer", u], Storable s := storable_pair (by decide) hu
  refine ensures_bind.mpr (ensures_context.mpr ⟨fun t ht => ?_, fun hnone => ?_⟩)
  · obtain ⟨-, hle, rfl⟩ := UInt64.tryI64_eq_some ht
    refine ensures_bind.mpr (ensures_now (ensures_transaction served ?_))
    refine ensures_bind.mpr (ensures_tx hq (accepted htexts) ?_ ?_)
    · intro msg herr
      refine iff_of_false nofun fun h => ?_
      have hok := (isOk_insertVote id.asI64 u s.clock s.seq s.db).mpr h.2
      change Stmt.eval s.seq _ s.db = _ at herr
      rw [herr] at hok
      cases hok
    · intro n ws hins
      have hok := (isOk_insertVote id.asI64 u s.clock s.seq s.db).mp (congrArg Except.isOk hins)
      obtain ⟨row, rfl, rfl, -⟩ := eval_insertVote hins
      refine ensures_bind.mpr (ensures_ensure.mpr ⟨fun _ => ?_, fun hf => absurd hf (by simp)⟩)
      refine ensures_bind.mpr (ensures_tx hq (accepted (Stmt.bindable_of_nil rfl)) ?_ ?_)
      · intro msg hupd
        cases hupd
      · intro n ws hupd
        cases hupd
        have hone : (s.db.answers.filter (·.id = id.asI64)).length = 1 := by rw [hans]; rfl
        refine ensures_bind.mpr (ensures_ensure.mpr ⟨fun _ => ?_, fun hf => ?_⟩)
        · refine ensures_bind.mpr (ensures_commit hq served ?_)
          exact iff_of_true rfl ⟨hle, hok⟩
        · exact absurd hone (of_decide_eq_false hf)
  · refine iff_of_false nofun fun h => ?_
    have hsome := tryI64_isSome.mpr h.1
    rw [hnone] at hsome
    cases hsome

theorem cancelVoteAnswer_served (hq : s.pg.Quiet) (hallow : ∀ ch, allow ch → ¬ ch.Faulty)
    (hu : Storable u) (hans : s.db.answers.filter (·.id = id.asI64) = [a]) {row : VoteRow}
    (hrow : s.db.usersVotes.filter (VoteRow.matches id.asI64 "answer" u) = [row]) :
    (cancelVoteAnswer id u).Ensures Store.serve allow s fun r _ =>
      r = .ok true ↔ id.toNat ≤ i64Max := by
  have served : ∀ {A : Type} {P : A → Prop} ch, allow ch → ch.Faulty → ∀ x, P x :=
    fun ch hch hf => absurd hf (hallow ch hch)
  have accepted : ∀ {A : Type} {P : A → Prop} {q : Stmt}, q.Bindable →
      ∀ ch, allow ch → ch.Refuses q → ∀ x, P x :=
    fun hbind ch hch hr => absurd hr (Store.not_refuses (hallow ch hch) hbind)
  have htexts : ∀ s ∈ ["answer", u], Storable s := storable_pair (by decide) hu
  refine ensures_bind.mpr (ensures_context.mpr ⟨fun t ht => ?_, fun hnone => ?_⟩)
  · obtain ⟨-, hle, rfl⟩ := UInt64.tryI64_eq_some ht
    refine ensures_bind.mpr (ensures_now (ensures_transaction served ?_))
    refine ensures_bind.mpr (ensures_tx hq (accepted htexts) ?_ ?_)
    · intro msg herr
      cases herr
    · intro n ws hdel
      cases hdel
      have hone : (s.db.usersVotes.filter (VoteRow.matches id.asI64 "answer" u)).length = 1 := by
        rw [hrow]
        rfl
      refine ensures_bind.mpr (ensures_ensure.mpr ⟨fun _ => ?_, fun hf => ?_⟩)
      · refine ensures_bind.mpr (ensures_tx hq (accepted (Stmt.bindable_of_nil rfl)) ?_ ?_)
        · intro msg hupd
          cases hupd
        · intro n ws hupd
          simp only [List.foldl_nil, hrow] at hupd
          cases hupd
          have hone : (s.db.answers.filter (·.id = id.asI64)).length = 1 := by rw [hans]; rfl
          refine ensures_bind.mpr (ensures_ensure.mpr ⟨fun _ => ?_, fun hf => ?_⟩)
          · refine ensures_bind.mpr (ensures_commit hq served ?_)
            exact iff_of_true rfl hle
          · exact absurd hone (of_decide_eq_false hf)
      · exact absurd hone (of_decide_eq_false hf)
  · refine iff_of_false nofun fun h => ?_
    have hsome := tryI64_isSome.mpr h
    rw [hnone] at hsome
    cases hsome

theorem isVoted_served (hq : s.pg.Quiet) (hallow : ∀ ch, allow ch → ¬ ch.Faulty)
    (hu : Storable u) :
    (isVoted id u "answer").Ensures Store.serve allow s fun r s' =>
      s' = s ∧ ∃ b, r = .ok b ∧ (b = true ↔ Voted s.db id.asI64 u) := by
  refine ensures_bind.mpr ((ensures_select hq hallow (bindable_vote.mpr hu) rfl rfl).mono fun r s' hr => ?_)
  obtain ⟨rfl, rfl⟩ := hr
  refine ensures_pure.mpr ⟨rfl, _, rfl, ?_⟩
  rw [Option.isSome_map]
  exact voted_iff_find

theorem Applicable.storable (h : Applicable s ⟨id, u, action⟩) : Storable u := by
  obtain ⟨-, ⟨-, -, hname, -⟩ | ⟨-, hvoted⟩⟩ := h
  · obtain ⟨name, hname⟩ := Option.isSome_iff_exists.mp hname
    exact Varchar.storable_of_assign hname
  · exact hvoted.storable

theorem handlerAnswerAgree_served (u action : String) (hs : Consistent s) (hallow : ∀ ch, allow ch → ¬ ch.Faulty)
    (ha : s.db.answers.filter (·.id = id.asI64) = [a]) :
    (handlerAnswerAgree id u action).Ensures Store.serve allow s fun r _ =>
      r = .ok true ↔ Applicable s ⟨id, u, action⟩ := by
  by_cases hu : Storable u
  swap
  · refine (handlerAnswerAgree_refused hu action).mono fun r s' hr => ?_
    obtain ⟨-, e, rfl⟩ := hr
    exact iff_of_false nofun fun h => hu h.storable
  refine ensures_bind.mpr ((isVoted_served hs.quiet hallow hu).mono fun r s' hr => ?_)
  obtain ⟨hsame, b, rfl, hb⟩ := hr
  dsimp only [Applicable]
  rw [hsame]
  by_cases hup : action = "up"
  · subst hup
    cases b with
    | true =>
      refine ensures_pure.mpr (iff_of_false nofun ?_)
      rintro ⟨-, ⟨-, hnot, -⟩ | ⟨hdown, -⟩⟩
      · exact hnot (hb.mp rfl)
      · exact absurd hdown (by decide)
    | false =>
      refine (voteAnswer_served hs.quiet hallow hu ha).mono fun r s' hr => hr.trans ?_
      have hnot : ¬ Voted s.db id.asI64 u := fun hv => nomatch hb.mpr hv
      simp only [hnot, not_false_eq_true, true_and, and_false, or_false]
  by_cases hdown : action = "down"
  · subst hdown
    cases b with
    | false =>
      refine ensures_pure.mpr (iff_of_false nofun ?_)
      rintro ⟨-, ⟨hup, -⟩ | ⟨-, hv⟩⟩
      · exact absurd hup (by decide)
      · exact nomatch hb.mpr hv
    | true =>
      have hv := hb.mp rfl
      obtain ⟨row, hrow⟩ : ∃ row,
          s.db.usersVotes.filter (VoteRow.matches id.asI64 "answer" u) = [row] := by
        obtain ⟨row, hmem, hmatch⟩ := hv
        have hpos := List.length_pos_of_mem (List.mem_filter.mpr ⟨hmem, hmatch⟩)
        have hle := hs.unique id.asI64 u
        exact List.length_eq_one_iff.mp (by omega)
      refine (cancelVoteAnswer_served hs.quiet hallow hu ha hrow).mono fun r s' hr => hr.trans ?_
      simp only [hv, and_true, not_true_eq_false, false_and, and_false, false_or]
  · simp only [if_neg hup, if_neg hdown]
    refine iff_of_false nofun ?_
    rintro ⟨-, ⟨h, -⟩ | ⟨h, -⟩⟩
    · exact hup h
    · exact hdown h

def Published (s : Store) (req : Pb.AgreeAnswerRequest) (a : AnswerRow)
    (r : Except Err (App.Reply Pb.AgreeAnswerResponse)) (w : World) : Prop :=
  ∀ c reason, r = .ok (.ok ⟨1, c, reason⟩) →
    w.state = { s with
      topic := s.topic ++ [⟨req.id.toInt64, "answer", req.createBy, req.action⟩] } ∧
    c = (if req.action = "up" then a.agreeCount + 1 else a.agreeCount - 1).asU64

theorem judged_ends {n : Nat} (req : Pb.AgreeAnswerRequest) (a : AnswerRow) (isVoted : Bool) :
    (Reply.judged req a.toEntity isVoted).Ends World.exec ⟨s, script.drop n⟩
      (Published s req a) := by
  have silent : ∀ {r : App.Reply Pb.AgreeAnswerResponse} {w : World},
      (∀ c reason, r ≠ .ok ⟨1, c, reason⟩) → Published s req a (.ok r) w :=
    fun hr c reason h => absurd (Except.ok.inj h) (hr c reason)
  unfold Reply.judged
  split
  next => exact silent nofun
  split
  next => exact silent nofun
  refine ends_bind.mpr (ends_attempt.mpr (ends_bind.mpr (ends_await.mpr ?_)))
  cases turn script n with
  | fail e => exact silent nofun
  | lost e => exact silent nofun
  | serve => exact fun c reason h => by cases h; exact ⟨rfl, rfl⟩
  | page next fields => exact fun c reason h => by cases h; exact ⟨rfl, rfl⟩
  | raw value => exact fun c reason h => by cases h; exact ⟨rfl, rfl⟩

theorem agreeAnswer_ends (hq : s.pg.Quiet) (req : Pb.AgreeAnswerRequest) (script : List Choice) :
    (App.agreeAnswer req).Ends World.exec ⟨s, script⟩ fun r w =>
      (∀ c reason, r ≠ .ok (.ok ⟨1, c, reason⟩)) ∨
      ∃ a, s.db.answers.find? (·.id = req.id.asI64) = some a ∧ Published s req a r w := by
  change (App.agreeAnswer req).Ends World.exec ⟨s, script.drop 0⟩ _
  refine ends_bind.mpr (ends_attempt.mpr (ends_bind.mpr (ends_select hq rfl rfl ?_ ?_)))
  · exact fun _ _ => .inl nofun
  intro _
  cases hfind : s.db.answers.find? (·.id = req.id.asI64) with
  | none => exact .inl nofun
  | some a =>
    have hjudged : ∀ voted, (Reply.judged req a.toEntity voted).Ends World.exec
        ⟨s, script.drop 2⟩ fun r w => (∀ c reason, r ≠ .ok (.ok ⟨1, c, reason⟩)) ∨
          ∃ a', some a = some a' ∧ Published s req a' r w :=
      fun voted => (judged_ends req a voted).mono fun r w h => .inr ⟨a, rfl, h⟩
    change (Reply.found req a.toEntity).Ends World.exec ⟨s, script.drop 1⟩ fun r w =>
      (∀ c reason, r ≠ .ok (.ok ⟨1, c, reason⟩)) ∨ ∃ a', some a = some a' ∧ Published s req a' r w
    refine ends_bind.mpr (ends_attempt.mpr (ends_bind.mpr (ends_select hq rfl rfl ?_ ?_)))
    · exact fun _ _ => hjudged false
    · exact fun _ => hjudged _

theorem Consistent.filter_answers (hs : Consistent s)
    (hfind : s.db.answers.find? (·.id = t) = some a) : s.db.answers.filter (·.id = t) = [a] := by
  have hmem : a ∈ s.db.answers.filter (·.id = t) :=
    List.mem_filter.mpr ⟨List.mem_of_find?_eq_some hfind, by simpa using List.find?_some hfind⟩
  rcases filter_key_of_nodup hs.answers t with hnil | ⟨r, -, -, hone⟩
  · rw [hnil] at hmem
    exact absurd hmem List.not_mem_nil
  · rw [hone] at hmem
    rw [hone, List.mem_singleton.mp hmem]

theorem count_of_handled (hs : Consistent s) (hans : s.db.answers.filter (·.id = t) = [a])
    (h : Handled s t u action s' (.ok true)) : ∃ a', s'.db.answers.filter (·.id = t) = [a'] ∧
      a'.agreeCount = if action = "up" then a.agreeCount + 1 else a.agreeCount - 1 := by
  cases h with
  | up row b haction _ _ _ _ _ _ hans' hdb =>
    cases List.singleton_inj.mp (hans.symm.trans hans')
    rw [hdb, if_pos haction]
    exact ⟨_, filter_replaceBy hans (eq_of_filter hans).2, rfl⟩
  | down row b haction hrow hans' hdb =>
    cases List.singleton_inj.mp (hans.symm.trans hans')
    obtain ⟨ha, rfl⟩ := eq_of_filter hans
    obtain ⟨hmem, hmatch⟩ := List.mem_filter.mp (hrow ▸ List.mem_singleton_self row)
    have hcount : 1 ≤ a.agreeCount := by
      have hcounted : row ∈ s.db.usersVotes.filter fun r =>
          r.targetId = a.id && r.targetType.val = "answer" :=
        List.mem_filter.mpr ⟨hmem, (Bool.and_eq_true_iff.mp hmatch).1⟩
      have hpos := List.length_pos_of_mem hcounted
      rw [hs.counted a ha]
      omega
    refine ⟨_, by rw [hdb]; exact filter_replaceBy hans rfl, ?_⟩
    rw [if_neg (by rw [haction]; decide)]
    exact max_eq_left (by omega)

theorem onMessage_served {data : VoteMessage} (hallow : ∀ ch, allow ch → ¬ ch.Faulty)
    (h : (handlerAnswerAgree data.targetId.toUInt64 data.createdBy data.action).Ensures Store.serve
      allow s fun r s' => r = .ok true ∧ s'.acked = s.acked) (n : Nat) :
    (onMessage "answer" ⟨n, .ok data⟩).Ensures Store.serve allow s fun _ s' =>
      s'.acked = s.acked ++ [n] := by
  refine ensures_bind.mpr (ensures_attempt.mpr (ensures_bind.mpr (h.mono fun r s' hr => ?_)))
  obtain ⟨rfl, hacked⟩ := hr
  refine ensures_op.mpr fun ch hch => ?_
  cases ch with
  | fail e => exact absurd trivial (hallow _ hch)
  | lost e => exact absurd trivial (hallow _ hch)
  | serve => exact congrArg (· ++ [n]) hacked
  | page next fields => exact congrArg (· ++ [n]) hacked
  | raw value => exact congrArg (· ++ [n]) hacked

/-- A vote that was accepted can be applied, to the count of the reply, exactly when its action is one
the consumer knows, its id one of an answer's, and a new vote can be stored. -/
theorem accepted_applies (hs : Consistent s) {req : Pb.AgreeAnswerRequest} {script : List Choice}
    {c : UInt64} {reason : String} {w : World}
    (hrun : (App.agreeAnswer req).run World.exec ⟨s, script⟩ = (.ok (.ok ⟨1, c, reason⟩), w)) :
    Applies c s w.state ↔ Applicable s req := by
  have hends := agreeAnswer_ends hs.quiet req script
  unfold Ends at hends
  rw [hrun] at hends
  obtain ⟨a, hfind, hpublished⟩ := hends.resolve_left fun h => h c reason rfl
  obtain ⟨hw, hc⟩ := hpublished c reason rfl
  have hans := hs.filter_answers hfind
  have hs' : Consistent w.state := by
    rw [hw]
    exact ⟨hs.quiet, hs.votes, hs.answers, hs.counted, hs.unique⟩
  have hans' : w.state.db.answers.filter (·.id = req.id.asI64) = [a] := by
    rw [hw]
    exact hans
  have hsame : Applicable w.state req ↔ Applicable s req := by
    rw [hw]
    rfl
  have hback : req.id.toInt64.toUInt64 = req.id := UInt64.toUInt64_toInt64 req.id
  constructor
  · rintro ⟨msg, htopic, -, hall⟩
    rw [hw] at htopic
    obtain rfl := List.singleton_inj.mp (List.append_cancel_left htopic)
    have hdone := (hall [] nofun).1
    rw [handled, hback] at hdone
    have hserved := served_of_ensures
      (handlerAnswerAgree_served req.createBy req.action hs' (fun _ h => h) hans')
    exact hsame.mp (hserved.mp hdone)
  · intro happ
    refine ⟨_, by rw [hw], by rw [hw]; rfl, fun script' hscript => ?_⟩
    have hserved := (handlerAnswerAgree_served req.createBy req.action hs' (fun _ h => h)
      hans').and (handlerAnswerAgree_ensures hs'.quiet req.id req.createBy req.action)
    have hran : (handled w.state ⟨req.id.toInt64, "answer", req.createBy, req.action⟩ script').1 =
        .ok true ∧ Handled w.state req.id.asI64 req.createBy req.action
          (handled w.state ⟨req.id.toInt64, "answer", req.createBy, req.action⟩ script').2.state
          (.ok true) := by
      have hran := hserved.run (d := .serve) id hscript
      rw [handled, hback]
      refine ⟨hran.1.mpr (hsame.mpr happ), ?_⟩
      have hhandled := hran.2.2
      rwa [hran.1.mpr (hsame.mpr happ)] at hhandled
    refine ⟨hran.1, ?_, fun n => ?_⟩
    · obtain ⟨a', hone, hcount⟩ := count_of_handled hs' hans' hran.2
      exact ⟨a', hone, by rw [hcount, ← hc]⟩
    · refine (onMessage_served (fun _ h => h) ?_ n).run (d := .serve) id hscript
      dsimp only
      rw [hback]
      refine hserved.mono fun r s' hr => ⟨hr.1.mpr (hsame.mpr happ), ?_⟩
      rw [hr.2.1.rest]

def votedByBob : Store := { Store.empty 1 0 fun _ => 0 with
  pg := ⟨{ Db.empty with
    answers := [⟨1, 1, "a", .ofString 50 "alice", .empty 50, 0, none, 1⟩]
    usersVotes := [⟨1, 1, .ofString 50 "answer", .ofString 50 "bob", 0⟩] }, 1, fun _ => none⟩ }

theorem votedByBob_consistent : Consistent votedByBob :=
  ⟨fun _ => rfl, by decide, by decide, by decide, fun t u => List.length_filter_le _ _⟩

def ask (action : String) : Except Err (App.Reply Pb.AgreeAnswerResponse) × World :=
  (App.agreeAnswer ⟨1, "bob", action⟩).run World.exec ⟨votedByBob, []⟩

theorem accepted_applies_down : Applies 0 votedByBob (ask "down").2.state := by
  have hrun : (App.agreeAnswer ⟨1, "bob", "down"⟩).run World.exec ⟨votedByBob, []⟩ =
      (.ok (.ok ⟨1, 0, ""⟩), (ask "down").2) := Prod.ext (by decide) rfl
  exact (accepted_applies votedByBob_consistent hrun).mpr
    ⟨by decide, .inr ⟨rfl, _, List.mem_singleton_self _, by decide⟩⟩

/-- Any other action is accepted like a "down", and cannot be handled. -/
theorem otherAction_accepted : Consistent votedByBob ∧
    (ask "cancel").1 = .ok (.ok ⟨1, 0, ""⟩) ∧ ¬ Applies 0 votedByBob (ask "cancel").2.state := by
  refine ⟨votedByBob_consistent, by decide, ?_⟩
  rintro ⟨msg, htopic, -, hall⟩
  have hsent : (ask "cancel").2.state.topic = [] ++ [⟨1, "answer", "bob", "cancel"⟩] := by decide
  obtain rfl := List.singleton_inj.mp (List.append_cancel_left (hsent.symm.trans htopic))
  exact absurd (hall [] nofun).1 (by decide)

end QaSys.Acceptance
