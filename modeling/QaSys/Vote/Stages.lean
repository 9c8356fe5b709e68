import QaSys.Program.Threads
import QaSys.Vote.Handled

/-! The points one run of `handler_answer_agree` passes while other sessions are at work, what it
holds at each of them, and everything its next call can do. -/

namespace QaSys.Overlap

open UserVote Transaction.Sessions

/-- How far a handler has got, as far as the others are concerned. -/
inductive Role
  | fresh (action : String)
  | voting
  | placed (row : VoteRow)
  | counted (row : VoteRow) (a : AnswerRow)
  | cancelling
  | dropped (row : VoteRow)
  | discounted (row : VoteRow) (a : AnswerRow)
  | idle

namespace Role

def placing : Role → Option VoteRow
  | placed row | counted row _ => some row
  | _ => none

def dropping : Role → Option VoteRow
  | dropped row | discounted row _ => some row
  | _ => none

def holding : Role → Option AnswerRow
  | counted _ a | discounted _ a => some a
  | _ => none

end Role

def undo (e : Err) : Svc Bool := do
  await .rollback
  throw e

def settle : Svc Bool := do
  await .commit
  return true

def addOne (t now : Int) : Svc Bool := do
  let answerResult ← await (.tx (.addAgree 1 now t))
  ensure (answerResult = 1) "answer vote target does not exist"
  settle

def place (t : Int) (u : String) (now : Int) : Svc Bool := do
  let voteResult ← await (.tx (.insertVote t "answer" u now))
  ensure (voteResult = 1) "failed to insert answer vote"
  addOne t now

def subOne (t now : Int) : Svc Bool := do
  let answerResult ← await (.tx (.subAgree 1 now t))
  ensure (answerResult = 1) "answer vote target does not exist"
  settle

def drop (t : Int) (u : String) (now : Int) : Svc Bool := do
  let voteResult ← await (.tx (.deleteVote t "answer" u))
  ensure (voteResult = 1) "answer vote record does not exist"
  subOne t now

def upvoted (a : AnswerRow) (now : Int) : AnswerRow :=
  { a with agreeCount := a.agreeCount + 1, updatedAt := some now }

def downvoted (a : AnswerRow) (now : Int) : AnswerRow :=
  { a with agreeCount := max (a.agreeCount - 1) 0, updatedAt := some now }

/-- After `n` calls the rest of the program, the writes of its open transaction, and its role. -/
inductive At (id : UInt64) (t : Int) (u : String) :
    Nat → Svc Bool → Option (List Write) → Role → Prop
  | start (action) : At id t u 0 (handlerAnswerAgree id u action) none (.fresh action)
  | vote : At id t u 1 (voteAnswer id u) none .voting
  | voteNow (now) : At id t u 2 (transaction (place t u now)) none .voting
  | voteBegun (now) : At id t u 3 (tryCatch (place t u now) undo) (some []) .voting
  | placed (now row) :
      At id t u 4 (tryCatch (addOne t now) undo) (some [.insertVote row]) (.placed row)
  | counted (now row a) : a.id = t → At id t u 5 (tryCatch settle undo)
      (some [.insertVote row, .updateAnswer (upvoted a now)]) (.counted row a)
  | cancel : At id t u 1 (cancelVoteAnswer id u) none .cancelling
  | cancelNow (now) : At id t u 2 (transaction (drop t u now)) none .cancelling
  | cancelBegun (now) : At id t u 3 (tryCatch (drop t u now) undo) (some []) .cancelling
  | dropped (now row) :
      At id t u 4 (tryCatch (subOne t now) undo) (some [.deleteVote row.id]) (.dropped row)
  | discounted (now row a) : a.id = t → At id t u 5 (tryCatch settle undo)
      (some [.deleteVote row.id, .updateAnswer (downvoted a now)]) (.discounted row a)
  | undo (n e log) : At id t u n (undo e) log .idle
  | ended (n r) : At id t u n (Prog.ofExcept r) none .idle

def votes (db : Db) (t : Int) (u : String) : Nat :=
  db.usersVotes.countP (VoteRow.matches t "answer" u)

/-- Everything a call of a handler can do to the rows, while another one has the role `other`. -/
inductive Effect (t : Int) (u : String) (s : Store) (other : Role) : Role → Store → Role → Prop
  | stay : (∀ action, role ≠ .fresh action) → s'.db = s.db → s'.seq = s.seq →
      Effect t u s other role s' role
  | pass : (action = "up" → votes s.db t u ≠ 0) → s'.db = s.db → s'.seq = s.seq →
      Effect t u s other (.fresh action) s' .idle
  | vote : votes s.db t u = 0 → s'.db = s.db → s'.seq = s.seq →
      Effect t u s other (.fresh "up") s' .voting
  | cancel : s'.db = s.db → s'.seq = s.seq → Effect t u s other (.fresh "down") s' .cancelling
  | exhausted : i64Max ≤ s.seq.usersVotes → s'.db = s.db → s'.seq = s.seq →
      Effect t u s other .voting s' .idle
  | place (row : VoteRow) : row.matches t "answer" u = true → s.seq.usersVotes < i64Max →
      row.id = s.seq.usersVotes + 1 → s'.db = s.db → s'.seq.usersVotes = row.id →
      Effect t u s other .voting s' (.placed row)
  | count (row a) : s.db.answers.filter (·.id = t) = [a] → other.holding = none →
      s'.db = s.db → s'.seq = s.seq → Effect t u s other (.placed row) s' (.counted row a)
  | cast (row a now) : s'.db = castVote s.db now row a → s'.seq = s.seq →
      Effect t u s other (.counted row a) s' .idle
  | absent : s'.db = s.db → s'.seq = s.seq → Effect t u s other .cancelling s' .idle
  | drop (row) : s.db.usersVotes.filter (VoteRow.matches t "answer" u) = [row] →
      (∀ x, other.dropping = some x → x.id ≠ row.id) → s'.db = s.db → s'.seq = s.seq →
      Effect t u s other .cancelling s' (.dropped row)
  | discount (row a) : s.db.answers.filter (·.id = t) = [a] → other.holding = none →
      s'.db = s.db → s'.seq = s.seq → Effect t u s other (.dropped row) s' (.discounted row a)
  | withdraw (row a now) : s'.db = cancelVote s.db now row a → s'.seq = s.seq →
      Effect t u s other (.discounted row a) s' .idle
  | orphan (row) : (s.db.answers.filter (·.id = t)).length ≠ 1 → s'.db = s.db → s'.seq = s.seq →
      role = .placed row ∨ role = .dropped row → Effect t u s other role s' .idle

def Apart (i : Nat) (s s' : Store) : Prop :=
  s'.pg.size = s.pg.size ∧ ∀ j, j ≠ i → s'.pg.log j = s.pg.log j

structure Locks (t : Int) (s : Store) (i : Nat) (other : Role) : Prop where
  answer : other.holding ≠ none → s.pg.locked journal i (.answer t) = true
  vote : ∀ x, other.dropping = some x → s.pg.locked journal i (.vote x.id) = true

def Next (id : UInt64) (t : Int) (u : String) (s : Store) (other : Role) (i n : Nat) (role : Role)
    (p' : Svc Bool) (s' : Store) : Prop :=
  ∃ role', At id t u n p' (s'.pg.log i) role' ∧ Effect t u s other role s' role' ∧ Apart i s s'

variable {s s' : Store} {i n : Nat} {id : UInt64} {t : Int} {u : String} {p p' : Svc Bool}
  {role other : Role}

theorem Apart.refl : Apart i s s := ⟨rfl, fun _ _ => rfl⟩

theorem apart_update {log : Option (List Write)} {seq : Seq} {db : Db} : Apart i s
    { s with pg := ⟨db, s.pg.size, Function.update s.pg.log i log⟩, seq := seq } :=
  ⟨rfl, fun _ hj => Function.update_of_ne hj _ _⟩

theorem apart_logged {l ws : List Write} {seq : Seq} : Apart i s (s.logged i l ws seq) :=
  apart_update

theorem logged_log {l ws : List Write} {seq : Seq} :
    (s.logged i l ws seq).pg.log i = some (l ++ ws) := Function.update_self ..

theorem votes_eq_zero_iff {db : Db} :
    (db.usersVotes.find? (VoteRow.matches t "answer" u)).isSome = false ↔ votes db t u = 0 := by
  rw [votes, List.countP_eq_zero, Option.isSome_eq_false_iff, Option.isNone_iff_eq_none,
    List.find?_eq_none]

theorem next_start {action : String} (hid : id.tryI64 = some t) (hu : Storable u)
    (hlog : s.pg.log i = none)
    (hp : (handlerAnswerAgree id u action).advance (Store.exec i .serve) s = some (p', s')) :
    Next id t u s other i 1 (.fresh action) p' s' := by
  obtain ⟨-, -, rfl⟩ := UInt64.tryI64_eq_some hid
  let hasVoted := (s.db.usersVotes.find? (VoteRow.matches id.asI64 "answer" u)).isSome
  have hread : (handlerAnswerAgree id u action).advance (Store.exec i .serve) s =
      some (if action = "up" then if hasVoted then pure false else voteAnswer id u
        else if action = "down" then if !hasVoted then pure false else cancelVoteAnswer id u
        else throw (.anyhow "unsupported answer vote action"), s) := by
    have hexec : s.exec i .serve (.sql (.vote id.asI64 u "answer")) = some (.ok
        ((s.db.usersVotes.find? (VoteRow.matches id.asI64 "answer" u)).map (·.id)), s) :=
      if_pos (bindable_vote.mpr hu)
    change (s.exec i .serve (.sql (.vote id.asI64 u "answer"))).map _ = _
    simp only [hexec, hasVoted, ← Option.isSome_map (f := VoteRow.id)]
    rfl
  rw [hread] at hp
  cases hp
  by_cases hup : action = "up"
  · subst hup
    cases hv : hasVoted with
    | true =>
      refine ⟨.idle, hlog ▸ .ended 1 (.ok false), .pass (fun _ h0 => ?_) rfl rfl, .refl⟩
      exact Bool.noConfusion (hv.symm.trans (votes_eq_zero_iff.mpr h0))
    | false => exact ⟨.voting, hlog ▸ .vote, .vote (votes_eq_zero_iff.mp hv) rfl rfl, .refl⟩
  rw [if_neg hup]
  by_cases hdown : action = "down"
  · subst hdown
    cases hasVoted with
    | true => exact ⟨.cancelling, hlog ▸ .cancel, .cancel rfl rfl, .refl⟩
    | false => exact ⟨.idle, hlog ▸ .ended 1 (.ok false), .pass nofun rfl rfl, .refl⟩
  · rw [if_neg hdown]
    exact ⟨.idle, hlog ▸ .ended 1 (.error _), .pass (fun h => absurd h hup) rfl rfl, .refl⟩

theorem start_advances (action : String) :
    (handlerAnswerAgree id u action).advance (Store.exec i .serve) s ≠ none := by
  intro hnone
  have hexec : s.exec i .serve (.sql (.vote id.asI64 u "answer")) = none :=
    Option.map_eq_none_iff.mp hnone
  exact Option.some_ne_none _ (Store.statement_eq_none hexec)

theorem voteAnswer_eq (hid : id.tryI64 = some t) :
    voteAnswer id u = await .now >>= fun now => transaction (place t u now) := by
  rw [voteAnswer, hid]
  rfl

theorem cancelVoteAnswer_eq (hid : id.tryI64 = some t) :
    cancelVoteAnswer id u = await .now >>= fun now => transaction (drop t u now) := by
  rw [cancelVoteAnswer, hid]
  rfl

theorem undo_of_ensure {cond : Bool} (hcond : cond = false) {msg : String} {f : Unit → Svc Bool} :
    (tryCatch (ensure cond msg >>= f) undo : Svc Bool) = undo (.anyhow msg) := by
  subst hcond
  rfl

theorem next_now {f : Int → Svc Bool} (hlog : s.pg.log i = none)
    (hp : (await .now >>= f).advance (Store.exec i .serve) s = some (p', s'))
    (hat : ∀ now, At id t u n (f now) none role) (hrole : ∀ action, role ≠ .fresh action) :
    Next id t u s other i n role p' s' := by
  cases hp
  exact ⟨role, hlog ▸ hat s.clock, .stay hrole rfl rfl, .refl⟩

theorem next_begin {body : Svc Bool}
    (hp : (transaction body).advance (Store.exec i .serve) s = some (p', s'))
    (hat : At id t u n (tryCatch body undo) (some []) role)
    (hrole : ∀ action, role ≠ .fresh action) : Next id t u s other i n role p' s' := by
  cases hp
  refine ⟨role, ?_, .stay hrole rfl rfl, apart_update⟩
  change At id t u n _ (Function.update s.pg.log i (some []) i) role
  rw [Function.update_self]
  exact hat

theorem next_undo {e : Err} (hp : (undo e).advance (Store.exec i .serve) s = some (p', s')) :
    Next id t u s other i n .idle p' s' := by
  cases hp
  refine ⟨.idle, ?_, .stay nofun rfl rfl, apart_update⟩
  change At id t u n _ (Function.update s.pg.log i none i) .idle
  rw [Function.update_self]
  exact .ended n (.error e)

theorem next_single (q : Stmt) (f : q.Reply → Nat) {l : List Write} (hq : q.Bindable)
    (hlog : s.pg.log i = some l) {msg : String} {rest : Svc Bool}
    (hp : (tryCatch (do
      let n ← await (.tx q)
      ensure (f n = 1) msg
      rest) undo : Svc Bool).advance (Store.exec i .serve) s = some (p', s')) :
    (∃ e, q.eval s.seq (l.foldl Db.apply s.db) = .error e ∧ p' = undo (.sqlx (.other e)) ∧
      s' = { s with seq := q.draw s.seq }) ∨
    ∃ a ws, q.eval s.seq (l.foldl Db.apply s.db) = .ok (a, ws) ∧
      s.pg.blocked journal i ws = false ∧ s' = s.logged i l ws (q.draw s.seq) ∧
      p' = if f a = 1 then tryCatch rest undo else undo (.anyhow msg) := by
  rw [await, Prog.advance_tryCatch_op, Option.map_eq_some_iff] at hp
  obtain ⟨⟨r, s₁⟩, hexec, hp⟩ := hp
  cases hp
  rcases Store.exec_tx hlog hexec with ⟨hrefused, -⟩ | ⟨e, heval, rfl, rfl⟩ |
    ⟨a, ws, heval, hfree, rfl, rfl⟩
  · exact absurd hrefused (Store.not_refuses id hq)
  · exact .inl ⟨e, heval, rfl, rfl⟩
  · refine .inr ⟨a, ws, heval, hfree, rfl, ?_⟩
    change tryCatch (ensure (decide (f a = 1)) msg >>= fun _ => rest) undo = _
    by_cases hone : f a = 1
    · rw [if_pos hone, decide_eq_true hone]
      rfl
    · rw [if_neg hone]
      exact undo_of_ensure (decide_eq_false hone)

theorem next_place {now : Int} (hu : Varchar.Holds 50 u) (hlog : s.pg.log i = some [])
    (hp : (tryCatch (place t u now) undo).advance (Store.exec i .serve) s = some (p', s')) :
    Next id t u s other i 4 .voting p' s' := by
  have hassign := Varchar.assign_of_le hu.storable hu.fits
  rcases next_single (.insertVote t "answer" u now) (fun n => n) (storable_pair (by decide) hu.storable)
    hlog hp with ⟨msg, heval, rfl, rfl⟩ | ⟨n, ws, heval, -, rfl, rfl⟩
  · have hmax : ¬ s.seq.usersVotes < i64Max := fun hlt => by
      simp only [Stmt.eval, nextval, if_pos hlt, assign, hassign] at heval
      cases heval
    have hdraw : (Stmt.insertVote t "answer" u now).draw s.seq = s.seq := by
      simp only [Stmt.draw, advance, if_neg hmax]
    refine ⟨.idle, .undo 4 _ _, .exhausted (Int.not_lt.mp hmax) rfl hdraw, rfl, fun _ _ => rfl⟩
  · obtain ⟨row, rfl, rfl, rfl, htype, hby, hrow, hadv⟩ := eval_insertVote heval
    have hlt : s.seq.usersVotes < i64Max := by
      unfold advance at hadv
      split at hadv
      · assumption
      · omega
    have hmatches : row.matches row.targetId "answer" u = true := by
      rw [hassign] at hby
      simp only [VoteRow.matches, Bool.and_eq_true, decide_eq_true_eq]
      exact ⟨⟨trivial, (congrArg Varchar.val (Option.some.inj htype)).symm⟩,
        (congrArg Varchar.val (Option.some.inj hby)).symm⟩
    refine ⟨.placed row, ?_, .place row hmatches hlt hrow rfl hadv, apart_logged⟩
    rw [logged_log]
    exact .placed now row

theorem next_drop {now : Int} (hu : Varchar.Holds 50 u) (hlocks : Locks t s i other)
    (hlog : s.pg.log i = some [])
    (hp : (tryCatch (drop t u now) undo).advance (Store.exec i .serve) s = some (p', s')) :
    Next id t u s other i 4 .cancelling p' s' := by
  rcases next_single (.deleteVote t "answer" u) (fun n => n) (storable_pair (by decide) hu.storable)
    hlog hp with ⟨msg, heval, -⟩ | ⟨n, ws, heval, hfree, rfl, hp'⟩
  · cases heval
  cases heval
  by_cases hone : (s.db.usersVotes.filter (VoteRow.matches t "answer" u)).length = 1
  · obtain ⟨row, hrow⟩ := List.length_eq_one_iff.mp hone
    simp only [List.foldl_nil, hrow, List.map_singleton] at hfree ⊢
    refine ⟨.dropped row, ?_, .drop row hrow (fun x hx heq => ?_) rfl rfl, apart_logged⟩
    · rw [hp'.trans (if_pos hone), logged_log]
      exact .dropped now row
    · simp only [blocked, journal, Write.rows, List.any_cons, List.any_nil, Bool.or_false] at hfree
      have := hlocks.vote x hx
      rw [heq] at this
      exact Bool.noConfusion (hfree.symm.trans this)
  · refine ⟨.idle, ?_, .absent rfl rfl, apart_logged⟩
    rw [hp'.trans (if_neg hone)]
    exact .undo 4 _ _

theorem Locks.free (hlocks : Locks t s i other) {a : AnswerRow} (ha : a.id = t)
    (hfree : s.pg.blocked journal i [.updateAnswer a] = false) : other.holding = none := by
  by_contra hne
  have hlocked := hlocks.answer hne
  simp only [blocked, journal, Write.rows, List.any_cons, List.any_nil, Bool.or_false, ha] at hfree
  exact Bool.noConfusion (hfree.symm.trans hlocked)

theorem next_counter (q : Stmt) (f : q.Reply → Nat) (counted : AnswerRow → AnswerRow)
    (role' : AnswerRow → Role) {row : VoteRow} {w : Write} {n : q.Reply} {msg : String}
    (hlocks : Locks t s i other) (hlog : s.pg.log i = some [w]) (hbound : q.bound = [])
    (hdraw : q.draw s.seq = s.seq)
    (heval : q.eval s.seq (s.db.apply w) = .ok (n, (s.db.answers.filter (·.id = t)).map fun r =>
      .updateAnswer (counted r)))
    (hn : f n = (s.db.answers.filter (·.id = t)).length) (hid : ∀ a, (counted a).id = a.id)
    (hrole : role = .placed row ∨ role = .dropped row)
    (hat : ∀ a, a.id = t → At id t u 5 (tryCatch settle undo)
      (some [w, .updateAnswer (counted a)]) (role' a))
    (heffect : ∀ a (s' : Store), s.db.answers.filter (·.id = t) = [a] → other.holding = none →
      s'.db = s.db → s'.seq = s.seq → Effect t u s other role s' (role' a))
    (hp : (tryCatch (do
      let n ← await (.tx q)
      ensure (f n = 1) msg
      settle) undo : Svc Bool).advance (Store.exec i .serve) s = some (p', s')) :
    Next id t u s other i 5 role p' s' := by
  rcases next_single q f (Stmt.bindable_of_nil hbound) hlog hp with
    ⟨e, herr, -⟩ | ⟨n', ws, hok, hfree, rfl, rfl⟩
  · cases heval.symm.trans herr
  cases heval.symm.trans hok
  rw [hn, hdraw]
  by_cases hone : (s.db.answers.filter (·.id = t)).length = 1
  · obtain ⟨a, ha⟩ := List.length_eq_one_iff.mp hone
    have hat' : a.id = t := (eq_of_filter ha).2
    rw [if_pos hone]
    simp only [ha, List.map_singleton] at hfree ⊢
    refine ⟨role' a, ?_, heffect a _ ha (hlocks.free ((hid a).trans hat') hfree) rfl rfl,
      apart_logged⟩
    rw [logged_log]
    exact hat a hat'
  · refine ⟨.idle, ?_, .orphan row hone rfl rfl hrole, apart_logged⟩
    rw [if_neg hone]
    exact .undo 5 _ _

theorem next_settle {l : List Write} (hlog : s.pg.log i = some l)
    (hp : (tryCatch settle undo).advance (Store.exec i .serve) s = some (p', s'))
    (heffect : ∀ s' : Store, s'.db = l.foldl Db.apply s.db → s'.seq = s.seq →
      Effect t u s other role s' .idle) : Next id t u s other i n role p' s' := by
  cases hp
  have hview : s.pg.view journal i = l.foldl Db.apply s.db := view_of_some hlog
  refine ⟨.idle, ?_, heffect _ hview rfl, apart_update⟩
  change At id t u n _ (Function.update s.pg.log i none i) .idle
  rw [Function.update_self]
  exact .ended n (.ok true)

/-- Every call of a handler brings it to its next point, with one of the effects. -/
theorem At.next (hid : id.tryI64 = some t) (hu : Varchar.Holds 50 u) (hlocks : Locks t s i other)
    (h : At id t u n p (s.pg.log i) role) (hp : p.advance (Store.exec i .serve) s = some (p', s')) :
    Next id t u s other i (n + 1) role p' s' := by
  generalize hlog : s.pg.log i = log at h
  cases h with
  | start action => exact next_start hid hu.storable hlog hp
  | vote =>
    rw [voteAnswer_eq hid] at hp
    exact next_now hlog hp .voteNow nofun
  | voteNow now => exact next_begin hp (.voteBegun now) nofun
  | voteBegun now => exact next_place hu hlog hp
  | placed now row =>
    exact next_counter (.addAgree 1 now t) (fun n => n) (upvoted · now) (.counted row) hlocks
      hlog rfl rfl rfl rfl (fun _ => rfl) (.inl rfl)
      (fun a ha => .counted now row a ha) (fun a s' ha => .count row a ha) hp
  | counted now row a ha => exact next_settle hlog hp fun s' hdb hseq => .cast row a now hdb hseq
  | cancel =>
    rw [cancelVoteAnswer_eq hid] at hp
    exact next_now hlog hp .cancelNow nofun
  | cancelNow now => exact next_begin hp (.cancelBegun now) nofun
  | cancelBegun now => exact next_drop hu hlocks hlog hp
  | dropped now row =>
    exact next_counter (.subAgree 1 now t) (fun n => n) (downvoted · now) (.discounted row) hlocks
      hlog rfl rfl rfl rfl (fun _ => rfl) (.inr rfl)
      (fun a ha => .discounted now row a ha) (fun a s' ha => .discount row a ha) hp
  | discounted now row a ha =>
    exact next_settle hlog hp fun s' hdb hseq => .withdraw row a now hdb hseq
  | undo n e log => exact next_undo hp
  | ended n r => cases r <;> cases hp

end QaSys.Overlap
