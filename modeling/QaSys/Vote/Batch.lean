import QaSys.Listing.AnswerWalk

/-! The look-up of many votes at once agrees with the look-up of each. -/

namespace QaSys.Batch

open AnswerWalk Select UserVote

variable {s : Store} {allow : Choice → Prop}

def Served (script : List Choice) : Prop := ∀ ch ∈ script, ¬ ch.Faulty

/-- The text of the query for some ids, and the values bound to its placeholders. -/
structure Asks (targetIds : List UInt64) (username targetType : String) : Prop where
  reads : parse (lex (isBatchVotedSql targetIds.length)) =
    some (isBatchVotedQuery targetIds.length)
  placeholders : (isBatchVotedQuery targetIds.length).params = List.range' 1 (targetIds.length + 2)
  ids : ∀ i id, targetIds[i]? = some id →
    bound (isBatchVotedArgs targetIds username targetType) (i + 1) = some (.bigint id.asI64)
  type : bound (isBatchVotedArgs targetIds username targetType) (targetIds.length + 1) =
    some (.text targetType)
  user : bound (isBatchVotedArgs targetIds username targetType) (targetIds.length + 2) =
    some (.text username)

/-- What the texts of the two queries select is what the model of the database replies. -/
structure Selects (db : Db) (seq : Seq) (targetIds : List UInt64) (username targetType : String) :
    Prop where
  batch : ∃ found, (Stmt.votesIn (targetIds.map (·.asI64)) targetType username).eval seq db =
      .ok (found, []) ∧
    run columns (isBatchVotedArgs targetIds username targetType) UserVoteEntity.tableName
      (isBatchVotedSql targetIds.length) db.usersVotes = some (found.map .bigint)
  single : ∀ id ∈ targetIds, ∃ found rows,
    (Stmt.vote id.asI64 username targetType).eval seq db = .ok (found, []) ∧
    run columns (isVotedArgs id username targetType) UserVoteEntity.tableName isVotedSql
      db.usersVotes = some rows ∧ rows.head? = found.map .bigint

theorem asks {targetIds : List UInt64} (hne : targetIds ≠ []) (username targetType : String) :
    Asks targetIds username targetType := by
  have hlens : targetIds.length ≠ 0 := fun h => hne (List.length_eq_zero_iff.mp h)
  refine ⟨parse_isBatchVotedSql hlens, params_isBatchVotedQuery _, fun i id hi => ?_, ?_, ?_⟩
  · obtain ⟨hlt, rfl⟩ := List.getElem?_eq_some_iff.mp hi
    rw [bound, if_neg (Nat.succ_ne_zero _), Nat.add_sub_cancel, isBatchVotedArgs,
      List.getElem?_append_left (by rw [List.length_map]; exact hlt), List.getElem?_map, hi]
    rfl
  · rw [bound, if_neg (Nat.succ_ne_zero _), Nat.add_sub_cancel, isBatchVotedArgs,
      List.getElem?_append_right (by rw [List.length_map]), List.length_map, Nat.sub_self]
    rfl
  · rw [bound, if_neg (Nat.succ_ne_zero _), isBatchVotedArgs,
      List.getElem?_append_right (by rw [List.length_map]; omega), List.length_map]
    have hsub : targetIds.length + 2 - 1 - targetIds.length = 1 := by omega
    rw [hsub]
    rfl

theorem selects {targetIds : List UInt64} (hne : targetIds ≠ []) (db : Db) (seq : Seq)
    (username targetType : String) : Selects db seq targetIds username targetType := by
  refine ⟨⟨_, rfl, ?_⟩, fun id _ => ⟨_, _, rfl, isVotedSql_selects, ?_⟩⟩
  · rw [isBatchVotedSql_selects hne, List.map_map]
    rfl
  · rw [List.head?_map, List.head?_filter, Option.map_map]
    rfl

theorem answerDetail_serves (h : AnswerTable s) (hallow : ∀ ch, allow ch → ¬ ch.Faulty)
    {a : AnswerRow} (ha : a ∈ s.db.answers) (username : String) :
    (App.answerDetail ⟨a.id.asU64, username⟩).Ensures Store.serve allow s fun r s' =>
      s' = s ∧ r = .ok (.ok ⟨some (a.toEntity.toPb
        (decide (HasVote s a.id.asU64 username "answer")))⟩) := by
  obtain ⟨hpos, hmax⟩ := h.range a.id (List.mem_map_of_mem ha)
  have hfind : s.db.answers.find? (·.id = a.id.asU64.asI64) = some a := by
    rw [Int.asI64_asU64 hpos.le hmax]
    exact (rowAt_eq_some h.keyed).mpr ⟨ha, rfl⟩
  have hfound : (Answer.findOne a.id.asU64).Ensures Store.serve allow s fun r s' =>
      s' = s ∧ r = .ok a.toEntity := by
    refine Prog.ensures_bind.mpr ((ensures_select h.quiet hallow
      (Stmt.bindable_of_nil rfl) rfl rfl).mono fun r s' hr => ?_)
    obtain ⟨rfl, rfl⟩ := hr
    change (fetchOne (s'.db.answers.find? _) >>= fun row => pure row.toEntity).Ensures _ _ _ _
    rw [hfind]
    exact ⟨rfl, rfl⟩
  refine Prog.ensures_bind.mpr (Prog.ensures_attempt.mpr (hfound.mono fun r s' hr => ?_))
  obtain ⟨rfl, rfl⟩ := hr
  refine Prog.ensures_bind.mpr (Prog.ensures_attempt.mpr ?_)
  by_cases hu : Storable username
  swap
  · refine (isVoted_refused fun h => hu h.2).mono fun r s'' hr => ?_
    obtain ⟨rfl, e, rfl⟩ := hr
    rw [decide_eq_false fun h : HasVote s'' a.id.asU64 username "answer" => hu h.storable.2]
    exact ⟨rfl, rfl⟩
  · refine (isVoted_serves h.quiet hallow (by decide) hu a.id.asU64).mono fun r s'' hr => ?_
    obtain ⟨rfl, rfl⟩ := hr
    exact ⟨rfl, rfl⟩

theorem answers_replyOf_voted {rows : List AnswerRow} {limit page : UInt64} {voted : List UInt64}
    {x : Pb.AnswerEntity} (hx : x ∈ (replyOf rows limit page voted).answers) :
    ∃ a ∈ slice rows limit.toNat page.toNat, x = a.toEntity.toPb (voted.contains a.id.asU64) := by
  rw [replyOf] at hx
  split at hx
  next => exact absurd hx List.not_mem_nil
  next =>
    obtain ⟨e, he, rfl⟩ := List.mem_map.mp hx
    obtain ⟨a, ha, rfl⟩ := List.mem_map.mp he
    exact ⟨a, ha, rfl⟩

theorem mem_of_mem_slice {questionId : UInt64} {limit page : Nat} {a : AnswerRow}
    (h : a ∈ slice (answersOf s questionId) limit page) : a ∈ s.db.answers :=
  List.mem_of_mem_filter (Keyset.mem_descending.mp (List.mem_of_mem_drop (List.mem_of_mem_take h)))

theorem run_of_ensures {p : Svc A} {Q : Except Err A → Store → Prop} {script : List Choice}
    (hscript : Served script) (hp : p.Ensures Store.serve (fun ch => ¬ ch.Faulty) s Q) :
    Q (p.run World.exec ⟨s, script⟩).1 (p.run World.exec ⟨s, script⟩).2.state :=
  Prog.Ensures.run (d := Choice.serve) id hscript hp

/-- The listed ids with a vote, as the single query tells it whenever it is served. -/
def Keys (s : Store) (targetIds : List UInt64) (username targetType : String)
    (keys : List UInt64) : Prop :=
  ∀ id, id ∈ keys ↔ id ∈ targetIds ∧ ∀ script, Served script →
    ((isVoted id username targetType).run World.exec ⟨s, script⟩).1 = .ok true

theorem keys_isBatchVoted (hq : s.pg.Quiet) (targetIds : List UInt64) {username targetType : String}
    (htexts : Storable targetType ∧ Storable username) {script : List Choice}
    (hscript : Served script) :
    ∃ keys, ((isBatchVoted targetIds username targetType).run World.exec ⟨s, script⟩).1 = .ok keys ∧
      Keys s targetIds username targetType keys := by
  obtain ⟨htype, hu⟩ := htexts
  obtain ⟨-, keys, hkeys, hmem⟩ := run_of_ensures hscript
    (isBatchVoted_serves hq (fun _ h => h) htype hu targetIds)
  refine ⟨keys, hkeys, fun id => (hmem id).trans (and_congr_right fun _ => ?_)⟩
  have hsingle {script' : List Choice} (hs : Served script') := (run_of_ensures hs
    (isVoted_serves hq (fun _ h => h) htype hu id)).2
  constructor
  · intro hvote script' hs
    rw [hsingle hs, decide_eq_true hvote]
  · intro hall
    have hnone : Served [] := nofun
    have hone := (hsingle hnone).symm.trans (hall [] hnone)
    exact of_decide_eq_true (Except.ok.inj hone)

theorem keys_nil {targetIds : List UInt64} {username targetType : String}
    (htexts : ¬ (Storable targetType ∧ Storable username)) :
    Keys s targetIds username targetType [] := by
  refine fun id => iff_of_false List.not_mem_nil fun ⟨_, hall⟩ => ?_
  have hnone : Served [] := nofun
  have hrefused : (isVoted id username targetType).Ensures Store.serve (fun ch => ¬ ch.Faulty) s
      fun r s' => s' = s ∧ ∃ e, r = .error e := isVoted_refused htexts
  obtain ⟨-, e, he⟩ := run_of_ensures hnone hrefused
  cases he.symm.trans (hall [] hnone)

theorem keys_iff (hq : s.pg.Quiet) (targetIds : List UInt64) (username targetType : String)
    {script : List Choice} (hscript : Served script) :
    (Storable targetType ∧ Storable username → ∃ keys,
      ((isBatchVoted targetIds username targetType).run World.exec ⟨s, script⟩).1 = .ok keys) ∧
    ∀ keys, ((isBatchVoted targetIds username targetType).run World.exec ⟨s, script⟩).1 =
      .ok keys → Keys s targetIds username targetType keys := by
  by_cases htexts : Storable targetType ∧ Storable username
  · obtain ⟨keys, hkeys, hmem⟩ := keys_isBatchVoted hq targetIds htexts hscript
    refine ⟨fun _ => ⟨keys, hkeys⟩, fun keys' hkeys' => ?_⟩
    cases hkeys.symm.trans hkeys'
    exact hmem
  · refine ⟨fun h => absurd h htexts, fun keys hkeys => ?_⟩
    have hnil := (run_of_ensures (s := s) hscript (isBatchVoted_refused htexts)).2 keys hkeys
    exact hnil ▸ keys_nil htexts

theorem detail_of_listed (h : AnswerTable s) {req : Pb.AnswerListRequest}
    {reply : Pb.AnswerListResponse} {script : List Choice} (hscript : Served script)
    (hreply : ((App.answerList req).run World.exec ⟨s, script⟩).1 = .ok (.ok reply))
    {x : Pb.AnswerEntity} (hx : x ∈ reply.answers) {script' : List Choice}
    (hscript' : Served script') :
    ((App.answerDetail ⟨x.id, req.username⟩).run World.exec ⟨s, script'⟩).1 =
      .ok (.ok ⟨some x⟩) := by
  obtain ⟨-, hrefused, haccepted⟩ := run_of_ensures hscript
    (answerList_ensures h.quiet (fun _ h => h) req.questionId req.limit req.page req.username)
  have hok : ¬ Refused req.questionId req.limit req.page := fun hr => by
    obtain ⟨status, hs⟩ := hrefused hr
    cases hreply.symm.trans hs
  obtain ⟨voted, hs, hvoted⟩ := haccepted hok
  cases hreply.symm.trans hs
  obtain ⟨a, ha, rfl⟩ := answers_replyOf_voted hx
  have hdetail := (run_of_ensures hscript'
    (answerDetail_serves h (fun _ h => h) (mem_of_mem_slice ha) req.username)).2
  have hagrees : voted.contains a.id.asU64 =
      decide (HasVote s a.id.asU64 req.username "answer") := by
    rw [Bool.eq_iff_iff, List.contains_iff_mem, decide_eq_true_iff]
    exact hvoted a ha
  rw [hagrees]
  exact hdetail

/-- The batch query binds each value to its own placeholder, PostgreSQL executes it when it takes the
type and the name of the user, and it finds the listed ids for which the single query finds a vote.
An answer is listed as voted when its detail says so. -/
theorem lookups_agree (h : AnswerTable s) :
    (∀ targetIds username targetType, targetIds ≠ [] → Asks targetIds username targetType ∧
      Selects s.db s.seq targetIds username targetType) ∧
    (∀ targetIds username targetType script, Served script →
      (Storable targetType ∧ Storable username → ∃ keys,
        ((isBatchVoted targetIds username targetType).run World.exec ⟨s, script⟩).1 = .ok keys) ∧
      ∀ keys, ((isBatchVoted targetIds username targetType).run World.exec ⟨s, script⟩).1 =
        .ok keys → ∀ id, id ∈ keys ↔ id ∈ targetIds ∧ ∀ script', Served script' →
          ((isVoted id username targetType).run World.exec ⟨s, script'⟩).1 = .ok true) ∧
    ∀ req script reply, Served script →
      ((App.answerList req).run World.exec ⟨s, script⟩).1 = .ok (.ok reply) →
      ∀ x ∈ reply.answers, ∀ script', Served script' →
        ((App.answerDetail ⟨x.id, req.username⟩).run World.exec ⟨s, script'⟩).1 =
          .ok (.ok ⟨some x⟩) :=
  ⟨fun _ username targetType hne => ⟨asks hne username targetType, selects hne _ _ _ _⟩,
    fun targetIds username targetType _ hs => keys_iff h.quiet targetIds username targetType hs,
    fun _ _ _ hs hreply _ hx _ hs' => detail_of_listed h hs hreply hx hs'⟩

def votedByBob : Store :=
  { someAnswers with pg := ⟨{ someAnswers.db with
      usersVotes := [⟨1, 4, .ofString 50 "answer", .ofString 50 "bob", 0⟩] }, 1, fun _ => none⟩ }

theorem lookups_agree_bob :
    ((isBatchVoted [3, 4, 3, 4] "bob" "answer").run World.exec ⟨votedByBob, []⟩).1 = .ok [4] ∧
    ∀ script, Served script →
      ((isVoted 4 "bob" "answer").run World.exec ⟨votedByBob, script⟩).1 = .ok true := by
  have htable : AnswerTable votedByBob := ⟨fun _ => rfl, by decide, by decide⟩
  obtain ⟨-, hkeys, -⟩ := lookups_agree htable
  have hrun : ((isBatchVoted [3, 4, 3, 4] "bob" "answer").run World.exec ⟨votedByBob, []⟩).1 =
      .ok [4] := by decide
  exact ⟨hrun, (((hkeys [3, 4, 3, 4] "bob" "answer" [] nofun).2 [4] hrun 4).mp (by decide)).2⟩

end QaSys.Batch
