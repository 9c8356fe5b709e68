import QaSys.Vote.Ledger
import QaSys.Vote.Stages
import Mathlib.Data.List.TakeWhile

/-! Two runs of `handler_answer_agree` for the same answer and user, interleaved call by call. -/

namespace QaSys.Overlap

open UserVote Transaction.Sessions Runs Ledger

abbrev Handlers := Pool Bool Call Call.Reply Err Bool Store

/-- The database sessions of the two handlers. -/
def session (i : Bool) : Nat := if i then 1 else 2

def turn (pool : Handlers) (i : Bool) : Handlers :=
  pool.step (fun j ch => Store.exec (session j) ch) (i, .serve)

def start (s : Store) (id : UInt64) (u : String) (action : Bool → String) : Handlers :=
  ⟨fun i => handlerAnswerAgree id u (action i), s⟩

def finish (s : Store) (id : UInt64) (u : String) (action : Bool → String) (picks : List Bool) :
    Store := (after turn (start s id u action) picks).state

/-- At most one vote row, an exact counter, and a next `down` that takes the vote back. -/
def Sane (id : UInt64) (t : Int) (u : String) (s : Store) : Prop :=
  votes s.db t u ≤ 1 ∧ (∀ a ∈ s.db.answers, a.id = t → a.agreeCount = tally s.db t) ∧
    let r := (handlerAnswerAgree id u "down").run World.exec ⟨s, []⟩
    r.1.isOk = true ∧ votes r.2.state.db t u = 0

/-- How many calls the handler that starts first makes before the other one starts. -/
def lead : List Bool → Nat
  | [] => 0
  | i :: picks => 1 + (picks.takeWhile (· = i)).length

/-- Both handlers look for a vote before the sixth call of the first one, its commit, has added
one. -/
def Doubles (s : Store) (t : Int) (u : String) (action : Bool → String) (picks : List Bool) : Prop :=
  (∀ i, action i = "up") ∧ votes s.db t u = 0 ∧ lead picks < 6 ∧ s.seq.usersVotes + 2 ≤ i64Max

/-- A store with the answer `t`, in which the user has at most one vote for it. -/
structure Ready (s : Store) (t : Int) (u : String) : Prop where
  quiet : s.pg.Quiet
  size : 3 ≤ s.pg.size
  ids : (s.db.usersVotes.map VoteRow.id).Nodup
  drawn : ∀ r ∈ s.db.usersVotes, r.id ≤ s.seq.usersVotes
  single : votes s.db t u ≤ 1
  counted : ∃ a, s.db.answers.filter (·.id = t) = [a] ∧ a.agreeCount = tally s.db t

/-- What a handler relies on for the calls to come. -/
structure Own (t : Int) (u : String) (s : Store) (role : Role) : Prop where
  placing : ∀ r, role.placing = some r → r.matches t "answer" u = true ∧
    r.id ∉ s.db.usersVotes.map VoteRow.id ∧ r.id ≤ s.seq.usersVotes
  dropping : ∀ r, role.dropping = some r → r ∈ s.db.usersVotes ∧ r.matches t "answer" u = true
  holding : ∀ a, role.holding = some a → s.db.answers.filter (·.id = t) = [a]

structure Inv (t : Int) (u : String) (s : Store) (a b : Role) : Prop where
  ids : (s.db.usersVotes.map VoteRow.id).Nodup
  drawn : ∀ r ∈ s.db.usersVotes, r.id ≤ s.seq.usersVotes
  counted : ∃ x, s.db.answers.filter (·.id = t) = [x] ∧ x.agreeCount = tally s.db t
  left : Own t u s a
  right : Own t u s b
  distinct : ∀ r x, a.placing = some r → b.placing = some x → r.id ≠ x.id
  dropOne : a.dropping = none ∨ b.dropping = none
  holdOne : a.holding = none ∨ b.holding = none

namespace Role

def asks : Role → Nat
  | voting => 1
  | _ => 0

def adds : Role → Nat
  | placed _ | counted .. => 1
  | _ => 0

def up : Role → Bool
  | fresh action => action = "up"
  | voting | placed _ | counted .. => true
  | _ => false

def down : Role → Bool
  | fresh action => action = "down"
  | cancelling | dropped _ | discounted .. => true
  | _ => false

def isFresh : Role → Bool
  | fresh _ => true
  | _ => false

end Role

def room (s : Store) : Nat := (i64Max - s.seq.usersVotes).toNat

/-- The votes there are, and those that are on their way. -/
def load (t : Int) (u : String) (s : Store) (a b : Role) : Nat :=
  votes s.db t u + (a.adds + b.adds) + min (a.asks + b.asks) (room s)

variable {s s' : Store} {id : UInt64} {t : Int} {u : String} {a a' b : Role} {pool : Handlers}
  {action : Bool → String} {picks : List Bool}

theorem Inv.symm (h : Inv t u s a b) : Inv t u s b a :=
  ⟨h.ids, h.drawn, h.counted, h.right, h.left, fun r x hr hx => (h.distinct x r hx hr).symm,
    h.dropOne.symm, h.holdOne.symm⟩

theorem load_symm : load t u s a b = load t u s b a := by
  rw [load, load, Nat.add_comm a.adds, Nat.add_comm a.asks]

theorem matches_target {r : VoteRow} (h : r.matches t "answer" u = true) : r.targetId = t := by
  simp only [VoteRow.matches, Bool.and_eq_true, decide_eq_true_eq] at h
  exact h.1.1

theorem votes_castVote (db : Db) (now : Int) (x : AnswerRow) {row : VoteRow}
    (h : row.matches t "answer" u = true) :
    votes (castVote db now row x) t u = votes db t u + 1 := by
  simp only [votes, castVote, List.countP_append, List.countP_singleton, h, if_true]

theorem votes_cancelVote {db : Db} (now : Int) (x : AnswerRow) {row : VoteRow}
    (hids : (db.usersVotes.map VoteRow.id).Nodup) (hrow : row ∈ db.usersVotes)
    (h : row.matches t "answer" u = true) :
    votes (cancelVote db now row x) t u + 1 = votes db t u := by
  have := countP_removeBy hids hrow (VoteRow.matches t "answer" u)
  rwa [if_pos h] at this

theorem Own.plain {role : Role} (hp : role.placing = none) (hd : role.dropping = none)
    (hh : role.holding = none) : Own t u s role := by
  refine ⟨fun r hr => ?_, fun r hr => ?_, fun x hx => ?_⟩
  · rw [hp] at hr
    cases hr
  · rw [hd] at hr
    cases hr
  · rw [hh] at hx
    cases hx

theorem Own.mono (h : Own t u s b) (hdb : s'.db = s.db)
    (hseq : s.seq.usersVotes ≤ s'.seq.usersVotes) : Own t u s' b := by
  refine ⟨fun r hr => ?_, fun r hr => ?_, fun x hx => ?_⟩
  all_goals rw [hdb]
  · obtain ⟨hm, hnew, hle⟩ := h.placing r hr
    exact ⟨hm, hnew, hle.trans hseq⟩
  · exact h.dropping r hr
  · exact h.holding x hx

theorem Inv.same (h : Inv t u s a b) (hdb : s'.db = s.db)
    (hseq : s.seq.usersVotes ≤ s'.seq.usersVotes) (hown : Own t u s' a')
    (hdistinct : ∀ r x, a'.placing = some r → b.placing = some x → r.id ≠ x.id)
    (hdrop : a'.dropping = none ∨ b.dropping = none)
    (hhold : a'.holding = none ∨ b.holding = none) : Inv t u s' a' b := by
  refine ⟨?_, ?_, ?_, hown, h.right.mono hdb hseq, hdistinct, hdrop, hhold⟩
  all_goals rw [hdb]
  · exact h.ids
  · exact fun r hr => (h.drawn r hr).trans hseq
  · exact h.counted

theorem Inv.retire (h : Inv t u s a b) (hdb : s'.db = s.db) (hseq : s'.seq = s.seq)
    (hp : a'.placing = none) (hd : a'.dropping = none) (hh : a'.holding = none) :
    Inv t u s' a' b := by
  refine h.same hdb (by rw [hseq]) (.plain hp hd hh) (fun r x hr => ?_) (.inl hd) (.inl hh)
  rw [hp] at hr
  cases hr

theorem Inv.place (h : Inv t u s .voting b) {row : VoteRow} (hm : row.matches t "answer" u = true)
    (hid : row.id = s.seq.usersVotes + 1) (hdb : s'.db = s.db) (hseq : s'.seq.usersVotes = row.id) :
    Inv t u s' (.placed row) b := by
  have hnew : row.id ∉ s.db.usersVotes.map VoteRow.id := fun hmem => by
    obtain ⟨r, hr, heq⟩ := List.mem_map.mp hmem
    have := h.drawn r hr
    omega
  refine h.same hdb (by omega) ⟨fun r hr => ?_, nofun, nofun⟩ (fun r x hr hx => ?_) (.inl rfl)
    (.inl rfl)
  · cases hr
    rw [hdb]
    exact ⟨hm, hnew, hseq.ge⟩
  · cases hr
    have := (h.right.placing x hx).2.2
    omega

theorem Inv.cast {row : VoteRow} {x : AnswerRow} {now : Int} (h : Inv t u s (.counted row x) b)
    (hdb : s'.db = castVote s.db now row x) (hseq : s'.seq = s.seq) : Inv t u s' .idle b := by
  obtain ⟨hm, hnew, hle⟩ := h.left.placing row rfl
  have hx : s.db.answers.filter (·.id = t) = [x] := h.left.holding x rfl
  obtain ⟨y, hy, hcount⟩ := h.counted
  cases hx.symm.trans hy
  have hhold : b.holding = none := h.holdOne.resolve_left (Option.some_ne_none x)
  have hcounted : ∃ y, s'.db.answers.filter (·.id = t) = [y] ∧ y.agreeCount = tally s'.db t := by
    refine ⟨upvoted x now, ?_, ?_⟩
    · rw [hdb]
      exact filter_replaceBy hx (eq_of_filter hx).2
    · rw [hdb]
      simp only [upvoted, tally, castVote, List.countP_append, List.countP_singleton,
        matches_target hm, decide_true, if_true, hcount]
      rfl
  refine ⟨?_, ?_, hcounted, .plain rfl rfl rfl,
    ⟨fun r hr => ?_, fun r hr => ?_, fun y hy => ?_⟩,
    fun _ _ hr => (Option.some_ne_none _ hr.symm).elim, .inl rfl, .inl rfl⟩
  · rw [hdb]
    simp only [castVote, List.map_append]
    exact h.ids.append (List.nodup_singleton _) (List.disjoint_singleton.mpr hnew)
  · rw [hdb, hseq]
    intro r hr
    rcases List.mem_append.mp hr with hr | hr
    · exact h.drawn r hr
    · rw [List.mem_singleton.mp hr]
      exact hle
  · obtain ⟨hrm, hrnew, hrle⟩ := h.right.placing r hr
    rw [hdb, hseq]
    refine ⟨hrm, ?_, hrle⟩
    simp only [castVote, List.map_append, List.mem_append, List.map_singleton, List.mem_singleton]
    exact fun hor => hor.elim hrnew fun heq => h.distinct row r rfl hr heq.symm
  · obtain ⟨hr, hrm⟩ := h.right.dropping r hr
    rw [hdb]
    exact ⟨List.mem_append_left _ hr, hrm⟩
  · rw [hhold] at hy
    cases hy

theorem Inv.withdraw {row : VoteRow} {x : AnswerRow} {now : Int}
    (h : Inv t u s (.discounted row x) b) (hdb : s'.db = cancelVote s.db now row x)
    (hseq : s'.seq = s.seq) : Inv t u s' .idle b := by
  obtain ⟨hrow, hm⟩ := h.left.dropping row rfl
  have hx : s.db.answers.filter (·.id = t) = [x] := h.left.holding x rfl
  obtain ⟨y, hy, hcount⟩ := h.counted
  cases hx.symm.trans hy
  have hhold : b.holding = none := h.holdOne.resolve_left (Option.some_ne_none x)
  have hdrop : b.dropping = none := h.dropOne.resolve_left (Option.some_ne_none row)
  have htally := countP_removeBy h.ids hrow fun r => decide (r.targetId = t)
  rw [if_pos (decide_eq_true (matches_target hm))] at htally
  have hsub : (removeBy VoteRow.id row.id s.db.usersVotes).Sublist s.db.usersVotes :=
    List.filter_sublist
  have hcounted : ∃ y, s'.db.answers.filter (·.id = t) = [y] ∧ y.agreeCount = tally s'.db t := by
    refine ⟨downvoted x now, ?_, ?_⟩
    · rw [hdb]
      exact filter_replaceBy hx (eq_of_filter hx).2
    · rw [hdb]
      simp only [downvoted, tally, cancelVote, hcount] at htally ⊢
      omega
  refine ⟨?_, ?_, hcounted, .plain rfl rfl rfl,
    ⟨fun r hr => ?_, fun r hr => ?_, fun y hy => ?_⟩,
    fun _ _ hr => (Option.some_ne_none _ hr.symm).elim, .inl rfl, .inl rfl⟩
  · rw [hdb]
    exact nodup_map_removeBy h.ids
  · rw [hdb, hseq]
    exact fun r hr => h.drawn r (hsub.subset hr)
  · obtain ⟨hrm, hrnew, hrle⟩ := h.right.placing r hr
    rw [hdb, hseq]
    exact ⟨hrm, fun hmem => hrnew ((hsub.map VoteRow.id).subset hmem), hrle⟩
  · rw [hdrop] at hr
    cases hr
  · rw [hhold] at hy
    cases hy

theorem Inv.step (h : Inv t u s a b) (he : Effect t u s b a s' a') : Inv t u s' a' b := by
  cases he with
  | stay _ hdb hseq =>
    exact h.same hdb (by rw [hseq]) (h.left.mono hdb (by rw [hseq])) h.distinct h.dropOne h.holdOne
  | pass _ hdb hseq => exact h.retire hdb hseq rfl rfl rfl
  | vote _ hdb hseq => exact h.retire hdb hseq rfl rfl rfl
  | cancel hdb hseq => exact h.retire hdb hseq rfl rfl rfl
  | exhausted _ hdb hseq => exact h.retire hdb hseq rfl rfl rfl
  | absent hdb hseq => exact h.retire hdb hseq rfl rfl rfl
  | orphan row _ hdb hseq _ => exact h.retire hdb hseq rfl rfl rfl
  | place row hm _ hid hdb hseq => exact h.place hm hid hdb hseq
  | count row x hone hfree hdb hseq =>
    have hle : s.seq.usersVotes ≤ s'.seq.usersVotes := by rw [hseq]
    have hown := h.left.mono hdb hle
    refine h.same hdb (by rw [hseq]) ⟨hown.placing, nofun, fun y hy => ?_⟩ h.distinct (.inl rfl)
      (.inr hfree)
    cases hy
    rw [hdb]
    exact hone
  | drop row hone hother hdb hseq =>
    have hrow : row ∈ s.db.usersVotes.filter (VoteRow.matches t "answer" u) :=
      hone ▸ List.mem_singleton_self row
    refine h.same hdb (by rw [hseq]) ⟨nofun, fun r hr => ?_, nofun⟩ nofun (.inr ?_) (.inl rfl)
    · cases hr
      rw [hdb]
      exact List.mem_filter.mp hrow
    · -- the row the other one removes is the only one, and locked
      cases hx : b.dropping with
      | none => rfl
      | some x =>
        have hmem : x ∈ s.db.usersVotes.filter (VoteRow.matches t "answer" u) :=
          List.mem_filter.mpr (h.right.dropping x hx)
        rw [hone] at hmem
        exact absurd (congrArg VoteRow.id (List.mem_singleton.mp hmem)) (hother x hx)
  | discount row x hone hfree hdb hseq =>
    have hle : s.seq.usersVotes ≤ s'.seq.usersVotes := by rw [hseq]
    have hown := h.left.mono hdb hle
    refine h.same hdb (by rw [hseq]) ⟨nofun, hown.dropping, fun y hy => ?_⟩ nofun h.dropOne
      (.inr hfree)
    cases hy
    rw [hdb]
    exact hone
  | cast row x now hdb hseq => exact h.cast hdb hseq
  | withdraw row x now hdb hseq => exact h.withdraw hdb hseq

/-- Only the look that finds no vote adds to the load, and only a withdrawal takes from it. -/
theorem load_step (h : Inv t u s a b) (he : Effect t u s b a s' a') :
    (a = .fresh "up" ∧ a' = .voting ∧ votes s.db t u = 0 ∧ s'.db = s.db ∧ s'.seq = s.seq) ∨
    (a.down = true ∧ load t u s' a' b ≤ load t u s a b) ∨ load t u s' a' b = load t u s a b := by
  cases he with
  | stay _ hdb hseq => exact .inr (.inr (by simp only [load, room, hdb, hseq]))
  | pass _ hdb hseq => exact .inr (.inr (by simp only [load, room, hdb, hseq]; rfl))
  | vote hzero hdb hseq => exact .inl ⟨rfl, rfl, hzero, hdb, hseq⟩
  | cancel hdb hseq => exact .inr (.inr (by simp only [load, room, hdb, hseq]; rfl))
  | exhausted hmax hdb hseq =>
    have hroom : room s = 0 := by
      rw [room]
      omega
    have hroom' : room s' = room s := by rw [room, room, hseq]
    exact .inr (.inr (by simp only [load, hdb, hroom', hroom, Nat.min_zero]; rfl))
  | place row _ hlt hid hdb hseq =>
    have hroom : room s = room s' + 1 := by
      rw [room, room, hseq, hid]
      omega
    refine .inr (.inr ?_)
    simp only [load, hdb, hroom, Role.adds, Role.asks]
    omega
  | count row x _ _ hdb hseq => exact .inr (.inr (by simp only [load, room, hdb, hseq]; rfl))
  | cast row x now hdb hseq =>
    have hvotes := votes_castVote s.db now x (h.left.placing row rfl).1
    refine .inr (.inr ?_)
    simp only [load, room, hdb, hseq, hvotes, Role.adds, Role.asks]
    omega
  | absent hdb hseq => exact .inr (.inr (by simp only [load, room, hdb, hseq]; rfl))
  | drop row _ _ hdb hseq => exact .inr (.inr (by simp only [load, room, hdb, hseq]; rfl))
  | discount row x _ _ hdb hseq => exact .inr (.inr (by simp only [load, room, hdb, hseq]; rfl))
  | withdraw row x now hdb hseq =>
    obtain ⟨hrow, hm⟩ := h.left.dropping row rfl
    have hvotes := votes_cancelVote now x h.ids hrow hm
    refine .inr (.inl ⟨rfl, ?_⟩)
    simp only [load, room, hdb, hseq, ← hvotes, Role.adds, Role.asks]
    omega
  | orphan row hone =>
    obtain ⟨x, hx, -⟩ := h.counted
    exact absurd (by rw [hx]; rfl) hone

theorem adds_step (he : Effect t u s b a s' a') : a'.adds + room s' ≤ a.adds + room s := by
  cases he
  case place row _ hlt hid hdb hseq =>
    simp only [room, hseq, hid, Role.adds]
    omega
  all_goals simp_all [room, Role.adds]

theorem up_step (he : Effect t u s b a s' a') (h : a'.up = true) : a.up = true := by
  cases he <;> simp_all [Role.up]

theorem down_step (he : Effect t u s b a s' a') (h : a.down = false) : a'.down = false := by
  cases he <;> simp_all [Role.down]

theorem isFresh_step (he : Effect t u s b a s' a') : a'.isFresh = false := by
  cases he
  case stay hrole _ _ =>
    cases a with
    | fresh action => exact absurd rfl (hrole action)
    | _ => rfl
  all_goals rfl

theorem votes_step (h : Inv t u s a b) (he : Effect t u s b a s' a') (hdown : a.down = false) :
    votes s.db t u ≤ votes s'.db t u := by
  cases he
  case cast row x now hdb hseq =>
    rw [hdb, votes_castVote _ _ _ (h.left.placing row rfl).1]
    exact Nat.le_succ _
  case withdraw => cases hdown
  all_goals simp_all

/-- The load stays at one: there are no ids for a second vote, or one of the handlers adds none, or
the vote that is there is not removed. -/
def Safe (t : Int) (u : String) (s : Store) (a b : Role) : Prop :=
  load t u s a b ≤ 1 ∧ (a.adds + b.adds + room s ≤ 1 ∨ (a.up && b.up) = false ∨
    (1 ≤ votes s.db t u ∧ a.down = false ∧ b.down = false))

theorem Safe.symm (h : Safe t u s a b) : Safe t u s b a := by
  rw [Safe, load_symm, Nat.add_comm b.adds, Bool.and_comm, and_comm (a := b.down = false)]
  exact h

theorem load_vote (hsafe : Safe t u s (.fresh "up") b) (hzero : votes s.db t u = 0)
    (hdb : s'.db = s.db) (hseq : s'.seq = s.seq) : load t u s' .voting b ≤ 1 := by
  have hroom : room s' = room s := by rw [room, room, hseq]
  have hadds : Role.voting.adds = 0 ∧ (Role.fresh "up").adds = 0 := ⟨rfl, rfl⟩
  have hasks : Role.voting.asks = 1 := rfl
  rw [load, hdb, hzero, hroom, hadds.1, hasks]
  rcases hsafe.2 with hfull | hone | ⟨hvoted, -⟩
  · rw [hadds.2] at hfull
    omega
  · have hother : b.up = false := by simpa [Role.up] using hone
    have : b.adds = 0 ∧ b.asks = 0 := by
      cases b <;> simp_all [Role.up, Role.adds, Role.asks]
    omega
  · omega

theorem Safe.step (h : Inv t u s a b) (he : Effect t u s b a s' a') (hs : Safe t u s a b) :
    Safe t u s' a' b := by
  refine ⟨?_, ?_⟩
  · have hload := hs.1
    rcases load_step h he with ⟨rfl, rfl, hzero, hdb, hseq⟩ | ⟨-, hle⟩ | heq
    · exact load_vote hs hzero hdb hseq
    · exact hle.trans hload
    · exact heq.trans_le hload
  · rcases hs.2 with hfull | hone | ⟨hvoted, hdown, hdown'⟩
    · have := adds_step he
      exact .inl (by omega)
    · refine .inr (.inl ?_)
      cases hup : a'.up with
      | false => rfl
      | true => rwa [up_step he hup] at hone
    · exact .inr (.inr ⟨hvoted.trans (votes_step h he hdown), down_step he hdown, hdown'⟩)

structure Twice (t : Int) (u : String) (s : Store) (a b : Role) : Prop where
  load : load t u s a b = 2
  looked : a.isFresh = false ∧ b.isFresh = false
  keeps : a.down = false ∧ b.down = false

theorem Twice.symm (h : Twice t u s a b) : Twice t u s b a :=
  ⟨load_symm.trans h.load, h.looked.symm, h.keeps.symm⟩

theorem Twice.step (h : Inv t u s a b) (he : Effect t u s b a s' a') (ht : Twice t u s a b) :
    Twice t u s' a' b := by
  refine ⟨?_, ⟨isFresh_step he, ht.looked.2⟩, down_step he ht.keeps.1, ht.keeps.2⟩
  rcases load_step h he with ⟨rfl, -⟩ | ⟨hdown, -⟩ | heq
  · cases ht.looked.1
  · rw [ht.keeps.1] at hdown
    cases hdown
  · exact heq.trans ht.load

structure Both (id : UInt64) (t : Int) (u : String) (pool : Handlers) (n : Bool → Nat)
    (role : Bool → Role) : Prop where
  points : ∀ i, At id t u (n i) (pool.prog i) (pool.state.pg.log (session i)) (role i)
  others : ∀ j, (∀ i, j ≠ session i) → pool.state.pg.log j = none
  size : 3 ≤ pool.state.pg.size
  inv : ∀ i, Inv t u pool.state (role i) (role !i)

variable {n : Bool → Nat} {role : Bool → Role} {i : Bool}

theorem session_ne : session (!i) ≠ session i := by cases i <;> decide

theorem session_lt : session i < 3 := by cases i <;> decide

theorem At.locks {k j j' : Nat} {p : Svc Bool} (h : At id t u k p (s.pg.log j) b)
    (hj : j < s.pg.size) (hne : j ≠ j') : Locks t s j' b := by
  generalize hlog : s.pg.log j = log at h
  have hlocked {key : RowKey} {l : List Write} (hl : log = some l)
      (hw : ∃ w ∈ l, key ∈ Write.rows w) : s.pg.locked journal j' key = true :=
    locked_iff.mpr ⟨j, hj, hne, l, hlog.trans hl, hw⟩
  cases h
  case counted now row x hx =>
    exact ⟨fun _ => hlocked rfl ⟨_, List.mem_cons_of_mem _ List.mem_cons_self,
      hx ▸ List.mem_singleton_self _⟩, nofun⟩
  case dropped now row =>
    refine ⟨fun hn => absurd rfl hn, fun x hx => ?_⟩
    cases hx
    exact hlocked rfl ⟨_, List.mem_cons_self, List.mem_singleton_self _⟩
  case discounted now row x hx =>
    refine ⟨fun _ => hlocked rfl ⟨_, List.mem_cons_of_mem _ List.mem_cons_self,
      hx ▸ List.mem_singleton_self _⟩, fun y hy => ?_⟩
    cases hy
    exact hlocked rfl ⟨_, List.mem_cons_self, List.mem_singleton_self _⟩
  all_goals exact ⟨fun hn => absurd rfl hn, nofun⟩

theorem Both.next (hid : id.tryI64 = some t) (hu : Varchar.Holds 50 u) (h : Both id t u pool n role)
    (i : Bool) :
    ((pool.prog i).advance (Store.exec (session i) .serve) pool.state = none ∧
      turn pool i = pool) ∨ ∃ r,
      Both id t u (turn pool i) (Function.update n i (n i + 1)) (Function.update role i r) ∧
      Effect t u pool.state (role !i) (role i) (turn pool i).state r := by
  cases hadv : (pool.prog i).advance (Store.exec (session i) .serve) pool.state with
  | none => exact .inl ⟨rfl, by rw [turn, Pool.step, hadv]⟩
  | some q =>
  obtain ⟨p', s'⟩ := q
  have hpool : turn pool i = ⟨Function.update pool.prog i p', s'⟩ := by rw [turn, Pool.step, hadv]
  have hlocks : Locks t pool.state (session i) (role !i) :=
    (h.points !i).locks (Nat.lt_of_lt_of_le session_lt h.size) session_ne
  obtain ⟨role', hat, he, hsize, hlog⟩ := (h.points i).next hid hu hlocks hadv
  have hinv := (h.inv i).step he
  refine .inr ⟨role', ?_, by rw [hpool]; exact he⟩
  rw [hpool]
  refine ⟨fun j => ?_, fun j hj => ?_, by rw [hsize]; exact h.size, fun j => ?_⟩
  · by_cases hji : j = i
    · subst hji
      simp only [Function.update_self]
      exact hat
    · obtain rfl : j = !i := Bool.eq_not.mpr hji
      simp only [Function.update_of_ne hji, hlog _ session_ne]
      exact h.points _
  · rw [hlog j (hj i)]
    exact h.others j hj
  · by_cases hji : j = i
    · subst hji
      have hne : (!j) ≠ j := Bool.not_ne_self j
      simp only [Function.update_self, Function.update_of_ne hne]
      exact hinv
    · obtain rfl : j = !i := Bool.eq_not.mpr hji
      simp only [Bool.not_not, Function.update_self, Function.update_of_ne hji]
      exact hinv.symm

theorem Both.run {P : Store → Role → Role → Prop} (hsymm : ∀ {s a b}, P s a b → P s b a)
    (hstep : ∀ {s s' a a' b}, Inv t u s a b → Effect t u s b a s' a' → P s a b → P s' a' b)
    (hid : id.tryI64 = some t) (hu : Varchar.Holds 50 u) (h : Both id t u pool n role)
    (hP : P pool.state (role true) (role false)) (picks : List Bool) : ∃ n' role',
      Both id t u (after turn pool picks) n' role' ∧
      P (after turn pool picks).state (role' true) (role' false) := by
  induction picks generalizing pool n role with
  | nil => exact ⟨n, role, h, hP⟩
  | cons i picks ih =>
    rcases h.next hid hu i with ⟨-, hw⟩ | ⟨r, hb, he⟩
    · rw [after_cons, hw]
      exact ih h hP
    · have hPi : P pool.state (role i) (role !i) := by
        cases i with
        | true => exact hP
        | false => exact hsymm hP
      have hnext := hstep (h.inv i) he hPi
      refine ih hb ?_
      cases i with
      | true => exact hnext
      | false => exact hsymm hnext

theorem At.idle (hid : id.tryI64 = some t) {k : Nat} {p : Svc Bool} {log : Option (List Write)}
    (h : At id t u k p log a) (hp : p.Finished) : a = .idle ∧ log = none := by
  cases h
  case ended => exact ⟨rfl, rfl⟩
  case vote =>
    rw [voteAnswer_eq hid] at hp
    exact hp.elim
  case cancel =>
    rw [cancelVoteAnswer_eq hid] at hp
    exact hp.elim
  all_goals exact hp.elim

theorem Both.done (hid : id.tryI64 = some t) (h : Both id t u pool n role) (hdone : pool.Done) :
    pool.state.pg.Quiet ∧ ∀ i, role i = .idle := by
  refine ⟨fun j => ?_, fun i => ((h.points i).idle hid (hdone i)).1⟩
  by_cases hj : ∃ i, j = session i
  · obtain ⟨i, rfl⟩ := hj
    exact ((h.points i).idle hid (hdone i)).2
  · exact h.others j fun i hi => hj ⟨i, hi⟩

theorem At.advances (hid : id.tryI64 = some t) {k j : Nat} {p : Svc Bool}
    (h : At id t u k p (s.pg.log j) a) (halone : s.pg.Alone j) (hup : a.up = true) :
    p.advance (Store.exec j .serve) s ≠ none := by
  generalize hlog : s.pg.log j = log at h
  have htx {q : Stmt} {l : List Write} (hl : s.pg.log j = some l) (f : q.Reply → Svc Bool) :
      (tryCatch (Prog.op (.tx q) >>= f) Overlap.undo).advance (Store.exec j .serve) s ≠ none := by
    rw [Prog.advance_tryCatch_op, ne_eq, Option.map_eq_none_iff]
    have hsome := Store.exec_tx_alone halone hl q
    intro hnone
    rw [hnone] at hsome
    cases hsome
  cases h
  case start action => exact start_advances action
  case vote =>
    rw [voteAnswer_eq hid]
    nofun
  case voteBegun now => exact htx hlog _
  case placed now row => exact htx hlog _
  all_goals first | exact absurd hup Bool.false_ne_true | exact Option.some_ne_none _

theorem At.counted_iff {k : Nat} {p : Svc Bool} {log : Option (List Write)}
    (h : At id t u k p log a) (hup : a.up = true) : k ≤ 5 ∧ (a.holding ≠ none ↔ k = 5) := by
  cases h
  case counted => exact ⟨le_rfl, by simp [Role.holding]⟩
  all_goals first
    | exact absurd hup Bool.false_ne_true
    | exact ⟨by decide, by simp [Role.holding]⟩

structure Solo (t : Int) (u : String) (s : Store) (a : Role) : Prop where
  up : a.up = true
  unvoted : votes s.db t u = 0
  ids : 2 ≤ room s + a.adds

theorem Solo.step (h : Inv t u s a b) (he : Effect t u s b a s' a') (hs : Solo t u s a) :
    Solo t u s' a' ∨ (a.holding ≠ none ∧ a' = .idle ∧ votes s'.db t u = 1) := by
  obtain ⟨hup, hnone, hids⟩ := hs
  cases he with
  | stay _ hdb hseq => exact .inl ⟨hup, by rwa [hdb], by rwa [room, hseq]⟩
  | pass hv => exact absurd hnone (hv (of_decide_eq_true hup))
  | vote _ hdb hseq => exact .inl ⟨rfl, by rwa [hdb], by rwa [room, hseq]⟩
  | cancel => cases hup
  | exhausted hmax =>
    simp only [room, Role.adds] at hids
    omega
  | place row _ hlt hid hdb hseq =>
    refine .inl ⟨rfl, by rwa [hdb], ?_⟩
    simp only [room, hseq, hid, Role.adds] at hids ⊢
    omega
  | count row x _ _ hdb hseq => exact .inl ⟨rfl, by rwa [hdb], by rwa [room, hseq]⟩
  | cast row x now hdb hseq =>
    refine .inr ⟨nofun, rfl, ?_⟩
    rw [hdb, votes_castVote _ _ _ (h.left.placing row rfl).1, hnone]
  | orphan row hone =>
    obtain ⟨x, hx, -⟩ := h.counted
    exact absurd (by rw [hx]; rfl) hone
  | absent => cases hup
  | drop => cases hup
  | discount => cases hup
  | withdraw => cases hup

def Leads (id : UInt64) (t : Int) (u : String) (pool : Handlers) (i : Bool) (k : Nat)
    (a : Role) : Prop :=
  Both id t u pool (Function.update (fun _ => 0) i k)
    (Function.update (fun _ => .fresh "up") i a)

theorem At.unlogged {k : Nat} {p : Svc Bool} {log : Option (List Write)} {action : String}
    (h : At id t u k p log (.fresh action)) : log = none ∧ k = 0 := by
  cases h
  exact ⟨rfl, rfl⟩

theorem Leads.alone {k : Nat} (h : Leads id t u pool i k a) : pool.state.pg.Alone (session i) := by
  intro j hj
  by_cases hother : j = session !i
  · have hpoint := h.points !i
    rw [Function.update_of_ne (Bool.not_ne_self i), Function.update_of_ne (Bool.not_ne_self i),
      ← hother] at hpoint
    exact hpoint.unlogged.1
  · exact h.others j fun i' hi' => by
      by_cases hii : i' = i
      · exact hj (hii ▸ hi')
      · exact hother (Bool.eq_not.mpr hii ▸ hi')

theorem Leads.next (hid : id.tryI64 = some t) (hu : Varchar.Holds 50 u) {k : Nat}
    (h : Leads id t u pool i k a) (hs : Solo t u pool.state a) :
    ∃ a', Leads id t u (turn pool i) i (k + 1) a' ∧
      ((k < 5 ∧ Solo t u (turn pool i).state a') ∨
        (k = 5 ∧ a' = .idle ∧ votes (turn pool i).state.db t u = 1)) := by
  have hpoint := h.points i
  simp only [Function.update_self] at hpoint
  obtain ⟨hk, hheld⟩ := hpoint.counted_iff hs.up
  rcases Both.next hid hu h i with ⟨hnone, -⟩ | ⟨a', hb, he⟩
  · exact absurd hnone (hpoint.advances hid h.alone hs.up)
  have hinv := h.inv i
  simp only [Function.update_self, Function.update_idem] at hb he hinv
  refine ⟨a', hb, ?_⟩
  rcases hs.step hinv he with hs' | ⟨hholds, hidle, hvotes⟩
  · have hpoint' := hb.points i
    simp only [Function.update_self] at hpoint'
    have := (hpoint'.counted_iff hs'.up).1
    exact .inl ⟨by omega, hs'⟩
  · exact .inr ⟨hheld.mp hholds, hidle, hvotes⟩

theorem Leads.run (hid : id.tryI64 = some t) (hu : Varchar.Holds 50 u)
    (h : Leads id t u pool i 0 (.fresh "up")) (hs : Solo t u pool.state (.fresh "up")) {k : Nat}
    (hk : k ≤ 5) : ∃ a, Leads id t u (after turn pool (List.replicate k i)) i k a ∧
      Solo t u (after turn pool (List.replicate k i)).state a := by
  induction k with
  | zero => exact ⟨_, h, hs⟩
  | succ k ih =>
    obtain ⟨a, hlead, hsolo⟩ := ih (by omega)
    obtain ⟨a', hlead', ⟨-, hsolo'⟩ | ⟨hfive, -⟩⟩ := hlead.next hid hu hsolo
    · rw [List.replicate_succ', after_append]
      exact ⟨a', hlead', hsolo'⟩
    · omega

theorem Leads.safe (hid : id.tryI64 = some t) (hu : Varchar.Holds 50 u)
    (h : Leads id t u pool i 0 (.fresh "up")) (hs : Solo t u pool.state (.fresh "up")) :
    ∃ n role, Both id t u (after turn pool (List.replicate 6 i)) n role ∧
      Safe t u (after turn pool (List.replicate 6 i)).state (role true) (role false) := by
  obtain ⟨a, hlead, hsolo⟩ := h.run hid hu hs (Nat.le_refl 5)
  obtain ⟨a', hlead', ⟨hlt, -⟩ | ⟨-, rfl, hvotes⟩⟩ := hlead.next hid hu hsolo
  · omega
  rw [List.replicate_succ', after_append]
  refine ⟨_, _, hlead', ?_⟩
  have hsafe : Safe t u (turn (after turn pool (List.replicate 5 i)) i).state .idle
      (.fresh "up") := by
    refine ⟨?_, .inr (.inr ⟨hvotes.ge, rfl, rfl⟩)⟩
    rw [load, hvotes]
    exact Nat.add_le_add_left (Nat.min_le_left _ _) _
  cases i with
  | true => exact hsafe
  | false => exact hsafe.symm

theorem look_step {action : String} (he : Effect t u s b (.fresh action) s' a')
    (hup : action = "up") (hzero : votes s.db t u = 0) :
    a' = .voting ∧ s'.db = s.db ∧ s'.seq = s.seq := by
  cases he with
  | stay hrole => exact absurd rfl (hrole action)
  | pass hv => exact absurd hzero (hv hup)
  | vote _ hdb hseq => exact ⟨rfl, hdb, hseq⟩
  | cancel => exact absurd hup (by decide)
  | orphan row _ _ _ hrole => exact hrole.elim nofun nofun

theorem Leads.twice (hid : id.tryI64 = some t) (hu : Varchar.Holds 50 u) {k : Nat} (hk : k ≠ 0)
    (h : Leads id t u pool i k a) (hs : Solo t u pool.state a) : ∃ n role,
      Both id t u (turn pool !i) n role ∧
      Twice t u (turn pool !i).state (role true) (role false) := by
  have hpoint := h.points !i
  have hinv := h.inv i
  have hne := Bool.not_ne_self i
  simp only [Function.update_self, Function.update_of_ne hne] at hpoint hinv
  rcases Both.next hid hu h !i with ⟨hnone, -⟩ | ⟨r, hb, he⟩
  · generalize hlog : pool.state.pg.log (session !i) = log at hpoint
    generalize hp : pool.prog (!i) = p at hpoint hnone
    cases hpoint
    exact absurd hnone (start_advances "up")
  refine ⟨_, _, hb, ?_⟩
  simp only [Bool.not_not, Function.update_self, Function.update_of_ne hne] at he
  have hfresh : a.isFresh = false := by
    cases a with
    | fresh action =>
      have hpi := h.points i
      simp only [Function.update_self] at hpi
      exact absurd hpi.unlogged.2 hk
    | _ => rfl
  have htwice : Twice t u (turn pool !i).state a r := by
    obtain ⟨hup, hnone, hids⟩ := hs
    have hdown : a.down = false := by cases a <;> simp_all [Role.up, Role.down, Role.isFresh]
    obtain ⟨rfl, hdb, hseq⟩ := look_step he rfl hnone
    refine ⟨?_, ⟨hfresh, rfl⟩, hdown, rfl⟩
    have hsum : a.adds + a.asks = 1 := by
      cases a <;> simp_all [Role.up, Role.isFresh, Role.adds, Role.asks]
    have hadds : Role.voting.adds = 0 := rfl
    have hasks : Role.voting.asks = 1 := rfl
    rw [load, hdb, hnone, room, hseq, ← room, hadds, hasks]
    omega
  cases i with
  | true =>
    simp only [Function.update_self, Function.update_of_ne (show true ≠ !true from nofun)]
    exact htwice
  | false =>
    simp only [Function.update_self, Function.update_of_ne (show false ≠ !false from nofun)]
    exact htwice.symm

theorem served {P : Prop} (ch : Choice) (hch : ¬ ch.Faulty) (hf : ch.Faulty) : P := absurd hf hch

theorem cancelVoteAnswer_ok (hid : id.tryI64 = some t) (hu : Storable u) (hq : s.pg.Quiet) {row : VoteRow}
    (hrow : s.db.usersVotes.filter (VoteRow.matches t "answer" u) = [row]) {x : AnswerRow}
    (hx : s.db.answers.filter (·.id = t) = [x]) :
    (cancelVoteAnswer id u).Ensures Store.serve (fun ch => ¬ ch.Faulty) s fun r _ =>
      r.isOk = true := by
  have accepted : ∀ {A : Type} {P : A → Prop} {q : Stmt}, q.Bindable →
      ∀ ch : Choice, ¬ ch.Faulty → ch.Refuses q → ∀ x, P x :=
    fun hbind ch hch hr => absurd hr (Store.not_refuses hch hbind)
  rw [cancelVoteAnswer_eq hid]
  refine Prog.ensures_bind.mpr (ensures_now (ensures_transaction (fun ch h hf => served ch h hf) ?_))
  refine Prog.ensures_bind.mpr (ensures_tx hq (accepted (storable_pair (by decide) hu)) ?_ ?_)
  · intro msg hdel
    cases hdel
  intro k ws hdel
  have hdel : (.ok ([row].length, [row].map fun r => .deleteVote r.id) :
      Except String (Nat × List Write)) = .ok (k, ws) := by
    rw [← hrow]
    exact hdel
  cases hdel
  refine Prog.ensures_bind.mpr (ensures_ensure.mpr ⟨fun _ => ?_, fun hf => absurd hf (by simp)⟩)
  refine Prog.ensures_bind.mpr (ensures_tx hq (accepted (Stmt.bindable_of_nil rfl)) ?_ ?_)
  · intro msg hupd
    cases hupd
  intro k ws hupd
  have hupd : (.ok ([x].length, [x].map fun r => .updateAnswer (downvoted r s.clock)) :
      Except String (Nat × List Write)) = .ok (k, ws) := by
    rw [← hx]
    exact hupd
  cases hupd
  refine Prog.ensures_bind.mpr (ensures_ensure.mpr ⟨fun _ => ?_, fun hf => absurd hf (by simp)⟩)
  exact Prog.ensures_bind.mpr (ensures_commit hq (fun ch h hf => served ch h hf) rfl)

theorem down_ok (hid : id.tryI64 = some t) (hu : Storable u) (hq : s.pg.Quiet) (hvotes : votes s.db t u ≤ 1)
    {x : AnswerRow} (hx : s.db.answers.filter (·.id = t) = [x]) :
    (handlerAnswerAgree id u "down").Ensures Store.serve (fun ch => ¬ ch.Faulty) s fun r _ =>
      r.isOk = true := by
  obtain ⟨-, -, hasI64⟩ := UInt64.tryI64_eq_some hid
  refine Prog.ensures_bind.mpr (Prog.ensures_bind.mpr
    ((ensures_select hq (fun _ h => h) (bindable_vote.mpr hu) rfl rfl).mono fun r s' hr => ?_))
  obtain ⟨rfl, rfl⟩ := hr
  simp only [Option.isSome_map, hasI64]
  cases hfound : (s'.db.usersVotes.find? (VoteRow.matches t "answer" u)).isSome with
  | false => rfl
  | true =>
    have hne : votes s'.db t u ≠ 0 := fun hz =>
      Bool.noConfusion (hfound.symm.trans (votes_eq_zero_iff.mpr hz))
    have hone : (s'.db.usersVotes.filter (VoteRow.matches t "answer" u)).length = 1 := by
      rw [← List.countP_eq_length_filter, ← votes]
      omega
    obtain ⟨row, hrow⟩ := List.length_eq_one_iff.mp hone
    exact cancelVoteAnswer_ok hid hu hq hrow hx

theorem down_removes (hid : id.tryI64 = some t) (hu : Storable u) (hq : s.pg.Quiet)
    (hids : (s.db.usersVotes.map VoteRow.id).Nodup) (hvotes : votes s.db t u ≤ 1)
    {x : AnswerRow} (hx : s.db.answers.filter (·.id = t) = [x]) :
    let r := (handlerAnswerAgree id u "down").run World.exec ⟨s, []⟩
    r.1.isOk = true ∧ votes r.2.state.db t u = 0 := by
  have hok := served_of_ensures (down_ok hid hu hq hvotes hx)
  obtain ⟨-, hhandled⟩ := served_of_ensures (handlerAnswerAgree_ensures hq id u "down")
  rw [(UInt64.tryI64_eq_some hid).2.2] at hhandled
  refine ⟨hok, ?_⟩
  generalize (handlerAnswerAgree id u "down").run World.exec ⟨s, []⟩ = r at hok hhandled
  obtain ⟨r, w⟩ := r
  cases hhandled with
  | refused => cases hok
  | again hup => exact absurd hup (by decide)
  | up row a hup => exact absurd hup (by decide)
  | never _ hnot hdb =>
    rw [hdb]
    exact votes_eq_zero_iff.mp (Bool.eq_false_iff.mpr fun h => hnot (voted_iff_find.mp h))
  | down row a _ hrow _ hdb =>
    have hmem : row ∈ s.db.usersVotes.filter (VoteRow.matches t "answer" u) := by
      rw [hrow]
      exact List.mem_singleton_self row
    obtain ⟨hrows, hm⟩ := List.mem_filter.mp hmem
    have hgone := votes_cancelVote s.clock a hids hrows hm
    rw [hdb]
    omega

theorem lead_split (picks : List Bool) : picks = [] ∨ ∃ i rest,
    picks = List.replicate (lead picks) i ++ rest ∧ lead picks ≠ 0 ∧
      (rest = [] ∨ ∃ rest', rest = (!i) :: rest') := by
  cases picks with
  | nil => exact .inl rfl
  | cons i picks =>
    refine .inr ⟨i, picks.dropWhile (· = i), ?_, by rw [lead]; omega, ?_⟩
    · have hsame : picks.takeWhile (· = i) =
          List.replicate (picks.takeWhile (· = i)).length i :=
        List.eq_replicate_of_mem fun j hj => of_decide_eq_true
          (List.mem_takeWhile_imp (p := fun j => decide (j = i)) hj)
      rw [lead, Nat.add_comm, List.replicate_succ, ← hsame, List.cons_append,
        List.takeWhile_append_dropWhile]
    · have hhead := List.head?_dropWhile_not (fun j => decide (j = i)) picks
      cases hrest : picks.dropWhile (· = i) with
      | nil => exact .inl rfl
      | cons j rest =>
        rw [hrest] at hhead
        have hj : j = !i := Bool.eq_not.mpr (of_decide_eq_false hhead)
        exact .inr ⟨rest, by rw [hj]⟩

theorem Ready.both (h : Ready s t u) (id : UInt64) (action : Bool → String) :
    Both id t u (start s id u action) (fun _ => 0) fun i => .fresh (action i) := by
  refine ⟨fun i => ?_, fun j _ => h.quiet j, h.size, fun i => ⟨h.ids, h.drawn, h.counted,
    .plain rfl rfl rfl, .plain rfl rfl rfl, nofun, .inl rfl, .inl rfl⟩⟩
  change At id t u 0 _ (s.pg.log (session i)) _
  rw [h.quiet]
  exact .start (action i)

theorem Ready.leads (h : Ready s t u) (id : UInt64) (hup : ∀ i, action i = "up") (i : Bool) :
    Leads id t u (start s id u action) i 0 (.fresh "up") := by
  have hboth := h.both id action
  simp only [hup] at hboth
  rwa [Leads, Function.update_eq_self_iff.mpr rfl, Function.update_eq_self_iff.mpr rfl]

theorem Both.sane (hid : id.tryI64 = some t) (hu : Storable u) (h : Both id t u pool n role) (hdone : pool.Done) :
    load t u pool.state (role true) (role false) = votes pool.state.db t u ∧
      (votes pool.state.db t u ≤ 1 → Sane id t u pool.state) := by
  obtain ⟨hq, hidle⟩ := h.done hid hdone
  obtain ⟨x, hx, hcount⟩ := (h.inv true).counted
  refine ⟨?_, fun hvotes => ⟨hvotes, fun a ha hat => ?_,
    down_removes hid hu hq (h.inv true).ids hvotes hx⟩⟩
  · rw [hidle true, hidle false]
    exact Nat.add_eq_left.mpr (Nat.zero_min _)
  · have hmem : a ∈ pool.state.db.answers.filter (·.id = t) :=
      List.mem_filter.mpr ⟨ha, decide_eq_true hat⟩
    rw [hx] at hmem
    rw [List.mem_singleton.mp hmem]
    exact hcount

theorem sane_of_safe (hid : id.tryI64 = some t) (hu : Varchar.Holds 50 u) (h : Both id t u pool n role)
    (hsafe : Safe t u pool.state (role true) (role false)) {picks : List Bool}
    (hdone : (after turn pool picks).Done) : Sane id t u (after turn pool picks).state := by
  obtain ⟨n', role', hboth, hsafe'⟩ := h.run (P := Safe t u) Safe.symm Safe.step hid hu hsafe picks
  obtain ⟨hload, hsane⟩ := hboth.sane hid hu.storable hdone
  exact hsane (hload ▸ hsafe'.1)

theorem not_done_replicate (hid : id.tryI64 = some t)
    (h : Leads id t u pool i 0 (.fresh "up")) (m : Nat) :
    ¬ (after turn pool (List.replicate m i)).Done := by
  have hprog (pool : Handlers) : (after turn pool (List.replicate m i)).prog (!i) =
      pool.prog (!i) := by
    induction m generalizing pool with
    | zero => rfl
    | succ m ih =>
      rw [List.replicate_succ, after_cons, ih]
      rcases Pool.step_cases (fun j ch => Store.exec (session j) ch) pool i .serve with hw | hstep
      · rw [turn, hw]
      · obtain ⟨c, k, r, s', -, -, hpool⟩ := hstep
        rw [turn, hpool]
        exact Function.update_of_ne (Bool.not_ne_self i) _ _
  intro hdone
  have hfin := hdone !i
  have hpoint := h.points !i
  rw [hprog] at hfin
  rw [Function.update_of_ne (Bool.not_ne_self i), Function.update_of_ne (Bool.not_ne_self i)]
    at hpoint
  cases (hpoint.idle hid hfin).1

/-- The interleavings after which a user, whose name its column holds, has one vote at most, the
counter is exact and the vote can be taken back are those in which the second handler does not look
before the first one has committed its vote, when both are to add one. -/
theorem overlap_sane (h : Ready s t u) (hid : id.tryI64 = some t) (hu : Varchar.Holds 50 u)
    (action : Bool → String) {picks : List Bool}
    (hdone : (after turn (start s id u action) picks).Done) :
    Sane id t u (finish s id u action picks) ↔ ¬ Doubles s t u action picks := by
  have hboth := h.both id action
  have hvotes : load t u s (.fresh (action true)) (.fresh (action false)) = votes s.db t u :=
    Nat.add_eq_left.mpr (Nat.zero_min _)
  have safe (hs : (Role.fresh (action true)).adds + (Role.fresh (action false)).adds + room s ≤ 1 ∨
      ((Role.fresh (action true)).up && (Role.fresh (action false)).up) = false ∨
      (1 ≤ votes s.db t u ∧ (Role.fresh (action true)).down = false ∧
        (Role.fresh (action false)).down = false)) :
      Sane id t u (finish s id u action picks) :=
    sane_of_safe hid hu hboth ⟨hvotes.trans_le h.single, hs⟩ hdone
  by_cases hup : ∀ i, action i = "up"
  swap
  · refine iff_of_true (safe (.inr (.inl ?_))) fun hd => hup hd.1
    obtain ⟨i, hi⟩ := not_forall.mp hup
    cases i <;> simp [Role.up, hi]
  by_cases hzero : votes s.db t u = 0
  swap
  · refine iff_of_true (safe (.inr (.inr ⟨by omega, ?_, ?_⟩))) fun hd => hzero hd.2.1
    all_goals simp [Role.down, hup]
  by_cases hroom : s.seq.usersVotes + 2 ≤ i64Max
  swap
  · refine iff_of_true (safe (.inl ?_)) fun hd => hroom hd.2.2.2
    simp only [Role.adds, room]
    omega
  rcases lead_split picks with rfl | ⟨i, rest, hsplit, hlead, hrest⟩
  · have hfin := hdone true
    cases ((hboth.points true).idle hid hfin).1
  have hleads := h.leads id hup i
  have hsolo : Solo t u s (.fresh "up") := ⟨rfl, hzero, by
    simp only [Role.adds, room]
    omega⟩
  by_cases hlt : lead picks < 6
  · refine iff_of_false ?_ fun hn => hn ⟨hup, hzero, hlt, hroom⟩
    rcases hrest with rfl | ⟨rest, rfl⟩
    · rw [hsplit, List.append_nil] at hdone
      exact absurd hdone (not_done_replicate hid hleads _)
    · obtain ⟨a, hla, hsa⟩ := hleads.run hid hu hsolo (show lead picks ≤ 5 by omega)
      obtain ⟨n, role, hb, htwice⟩ := hla.twice hid hu hlead hsa
      obtain ⟨n', role', hb', htwice'⟩ := hb.run (P := Twice t u) Twice.symm Twice.step hid hu
        htwice rest
      have hafter : after turn (turn (after turn (start s id u action)
          (List.replicate (lead picks) i)) !i) rest = after turn (start s id u action) picks := by
        conv_rhs => rw [hsplit]
        rw [after_append, after_cons]
      rw [hafter] at hb' htwice'
      have hload := (hb'.sane hid hu.storable hdone).1
      intro hsane
      have htwo := htwice'.load
      have hone := hsane.1
      rw [finish] at hone
      omega
  · refine iff_of_true ?_ fun hd => hlt hd.2.2.1
    obtain ⟨n, role, hb, hsafe⟩ := hleads.safe hid hu hsolo
    have hpicks : picks = List.replicate 6 i ++ (List.replicate (lead picks - 6) i ++ rest) := by
      rw [← List.append_assoc, List.replicate_append_replicate,
        Nat.add_sub_cancel' (Nat.le_of_not_lt hlt)]
      exact hsplit
    have hafter : after turn (after turn (start s id u action) (List.replicate 6 i))
        (List.replicate (lead picks - 6) i ++ rest) = after turn (start s id u action) picks := by
      rw [← after_append, ← hpicks]
    rw [finish, ← hafter]
    rw [← hafter] at hdone
    exact sane_of_safe hid hu hb hsafe hdone

theorem oneAnswer_ready : Ready (oneAnswer 3) 1 "bob" :=
  ⟨fun _ => rfl, le_rfl, List.nodup_nil, nofun, by decide, _, rfl, rfl⟩

theorem overlap_sane_oneAfterTheOther :
    Sane 1 1 "bob"
      (finish (oneAnswer 3) 1 "bob" (fun _ => "up") (List.replicate 6 true ++ [false])) :=
  (overlap_sane oneAnswer_ready (by decide) ⟨by decide, by decide⟩ _
    fun i => by cases i <;> decide).mpr fun h => absurd h.2.2.1 (by decide)

/-- A vote is handed out again while the first handler has not yet committed it. -/
theorem oneAnswer_doubles :
    let picks := [true, false] ++ List.replicate 5 true ++ List.replicate 5 false
    Ready (oneAnswer 3) 1 "bob" ∧ (after turn (start (oneAnswer 3) 1 "bob" fun _ => "up") picks).Done ∧
    ¬ Sane 1 1 "bob" (finish (oneAnswer 3) 1 "bob" (fun _ => "up") picks) :=
  ⟨oneAnswer_ready, fun i => by cases i <;> decide, fun h => absurd h.1 (by decide)⟩

end QaSys.Overlap
