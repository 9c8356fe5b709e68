import QaSys.Concurrent.Interleavings
import QaSys.Auth.Tabulated

/-! Sessions that wait for the rows of others never wait for one another. -/

namespace QaSys.Concurrent

open UserVote Overlap Transaction Sessions Prog Runs

variable {svc : QaServiceImpl} {s : Store} {n : Nat} {phase : Fin n → Phase} {i : Fin n} {c : Call}
  {m : Machine n}

/-- The session has to wait for one that is further. -/
def Behind (s : Store) (phase : Fin n → Phase) (i : Fin n) : Prop :=
  ∃ j : Fin n, s.pg.log j ≠ none ∧ (phase i).rank < (phase j).rank

theorem Safe.behind (h : Safe s phase) {ws : List Write} (hb : s.pg.blocked journal i ws = true)
    (hrank : (phase i).rank = 0 ∨ (phase i).rank = 1 ∧ ∀ w ∈ ws, ∃ a, w = .updateAnswer a) :
    Behind s phase i := by
  obtain ⟨w, hw, k, hk, j, hj, -, hlocks⟩ := blocked_iff.mp hb
  let j' : Fin n := ⟨j, h.size ▸ hj⟩
  obtain ⟨hone, htwo⟩ := (h.holds j').rank hlocks
  refine ⟨j', fun hnone => not_locks_of_none hnone hlocks, ?_⟩
  rcases hrank with hzero | ⟨hrank, hanswers⟩
  · omega
  · obtain ⟨a, rfl⟩ := hanswers w hw
    have := htwo a.id (List.mem_singleton.mp hk)
    omega

theorem blocked_of_auto {A : Type} {f : Db → Except String (A × List Write)}
    (h : s.pg.auto journal i f = none) : ∃ ws, s.pg.blocked journal i ws = true := by
  unfold auto at h
  split at h
  · cases h
  next a ws _ =>
    refine ⟨ws, ?_⟩
    split at h
    next hb => exact hb
    next => cases h

theorem blocked_of_stmt {A : Type} {f : Db → Except String (A × List Write)} {l : List Write}
    (hlog : s.pg.log i = some l) (h : s.pg.stmt journal i f = none) :
    ∃ a ws, f (l.foldl Db.apply s.pg.db) = .ok (a, ws) ∧ s.pg.blocked journal i ws = true := by
  have hview : s.pg.view journal i = l.foldl Db.apply s.pg.db := view_of_some hlog
  simp only [stmt, hlog, hview] at h
  split at h
  · cases h
  next a ws heval =>
    refine ⟨a, ws, heval, ?_⟩
    split at h
    next hb => exact hb
    next => cases h

theorem Safe.waits (h : Safe s phase) (hallows : (phase i).allows c) {ch : Choice}
    (hexec : exec i ch c s = none) : Behind s phase i := by
  have auto {q : Stmt} (hidle : phase i = .idle)
      (hq : s.statement q (auto journal i) = none) : Behind s phase i := by
    obtain ⟨ws, hb⟩ := blocked_of_auto (Store.statement_eq_none hq)
    exact h.behind hb (.inl (by rw [hidle]; rfl))
  have stmt {q : Stmt} (hnext : Next (phase i) q) (hq : s.statement q (stmt journal i) = none) :
      Behind s phase i := by
    have hh := h.holds i
    generalize hlog : s.pg.log i = log at hh
    generalize hφ : phase i = φ at hnext hh
    cases hnext with
    | place t now u =>
      cases hh
      obtain ⟨a, ws, -, hb⟩ := blocked_of_stmt hlog (Store.statement_eq_none hq)
      exact h.behind hb (.inl (by rw [hφ]; rfl))
    | drop t u =>
      cases hh
      obtain ⟨a, ws, -, hb⟩ := blocked_of_stmt hlog (Store.statement_eq_none hq)
      exact h.behind hb (.inl (by rw [hφ]; rfl))
    | count t now u =>
      cases hh
      obtain ⟨a, ws, heval, hb⟩ := blocked_of_stmt hlog (Store.statement_eq_none hq)
      cases heval
      refine h.behind hb (.inr ⟨by rw [hφ]; rfl, fun w hw => ?_⟩)
      obtain ⟨a, -, rfl⟩ := List.mem_map.mp hw
      exact ⟨_, rfl⟩
    | discount t now u =>
      cases hh
      obtain ⟨a, ws, heval, hb⟩ := blocked_of_stmt hlog (Store.statement_eq_none hq)
      cases heval
      refine h.behind hb (.inr ⟨by rw [hφ]; rfl, fun w hw => ?_⟩)
      obtain ⟨a, -, rfl⟩ := List.mem_map.mp hw
      exact ⟨_, rfl⟩
  cases c with
  | sql q =>
    obtain ⟨hidle, -⟩ := idle_of_allows hallows
    cases ch with
    | fail msg => cases hexec
    | lost msg => cases hexec
    | _ => exact auto hidle hexec
  | tx q =>
    cases ch with
    | fail msg => cases hexec
    | lost msg => cases hexec
    | _ => exact stmt (next_of_allows hallows) hexec
  | _ => cases ch <;> cases hexec

theorem Sound.ready (h : Sound m) (hdone : ¬ m.Done) : ∃ i, ¬ (m.prog i).Finished ∧
    ∀ ch, ¬ m.Waits (fun j => exec j ch) i := by
  obtain ⟨phase, hsafe, hkeeps⟩ := h
  have hrank (i : Fin n) (hwaits : ∃ ch, m.Waits (fun j => exec j ch) i) :
      ∃ j, ¬ (m.prog j).Finished ∧ (phase i).rank < (phase j).rank := by
    obtain ⟨ch, c, k, hprog, hexec⟩ := hwaits
    have hkept := hkeeps i
    rw [hprog] at hkept
    obtain ⟨j, hlog, hlt⟩ := hsafe.waits hkept.1 hexec
    refine ⟨j, fun hfin => hlog ?_, hlt⟩
    exact (hsafe.holds j).idle_iff.mp (idle_of_finished (hkeeps j) hfin)
  obtain ⟨i, hi, hgo⟩ := Pool.exists_ready (fun i => (phase i).rank) hrank hdone
  exact ⟨i, hi, not_exists.mp hgo⟩

theorem Sound.quiet (h : Sound m) (hdone : m.Done) : m.state.pg.Quiet := by
  obtain ⟨phase, hsafe, hkeeps⟩ := h
  intro j
  by_cases hj : j < n
  · exact (hsafe.holds ⟨j, hj⟩).idle_iff.mp (idle_of_finished (hkeeps _) (hdone _))
  · exact hsafe.others j (Nat.not_lt.mp hj)

/-- The first `k` calls of a schedule, after which no session has got a new job. -/
def scheduled (svc : QaServiceImpl) (m : Machine n) (picks : ℕ → Fin n × Choice) (k : ℕ) :
    Machine n :=
  after (next svc) m ((List.range k).map fun j => .call (picks j).1 (picks j).2)

theorem scheduled_eq (m : Machine n) (picks : ℕ → Fin n × Choice) (k : ℕ) :
    scheduled svc m picks k = after (Pool.step exec) m ((List.range k).map picks) := by
  simp only [scheduled, after, List.foldl_map]
  rfl

/-- From every state that can be reached, a schedule that picks every session again and again brings
all jobs to their end, whichever calls fail, and then no row is locked.  A transfer of read counts
ends by its bound on the turns of the scan loop, if the cursor does not come back as 0 before. -/
theorem jobs_complete (svc : QaServiceImpl) (n : Nat) (clock : Int) (supply : Nat → Uuid)
    (evs : List (Event n)) {picks : ℕ → Fin n × Choice} (hfair : Pool.Fair picks) :
    ∃ k, (scheduled svc (after (next svc) (start n clock supply) evs) picks k).Done ∧
      (scheduled svc (after (next svc) (start n clock supply) evs) picks k).state.pg.Quiet := by
  have hsound := sound_after svc n clock supply evs
  have hstep (m : Machine n) (pick : Fin n × Choice) (h : Sound m) : Sound (m.step exec pick) :=
    (h.next svc (.call pick.1 pick.2)).1
  obtain ⟨k, hdone⟩ := hfair.done hstep (fun _ h hdone => h.ready hdone) hsound
  have hlater : Sound (after (Pool.step exec)
      (after (next svc) (start n clock supply) evs) ((List.range k).map picks)) :=
    (always_of_forall (P := fun _ _ => True) (fun _ _ => trivial) _ _).invariant
      (fun m pick h _ => hstep m pick h) hsound
  refine ⟨k, ?_⟩
  rw [scheduled_eq]
  exact ⟨hdone, hlater.quiet hdone⟩

def one : Fin 2 := ⟨0, Nat.zero_lt_two⟩

def other : Fin 2 := ⟨1, Nat.one_lt_two⟩

def twoVotes : List (Event 2) :=
  [.assign one (.rpc (.addAnswer ⟨some { questionId := 1, content := "a", createBy := "al" }⟩)),
    .call one .serve, .assign one (.vote ⟨1, .ok ⟨1, "answer", "bob", "up"⟩⟩),
    .assign other (.vote ⟨1, .ok ⟨1, "answer", "bob", "up"⟩⟩)]

def turns (j : ℕ) : Fin 2 × Choice := (if j % 2 = 0 then one else other, .serve)

theorem turns_fair : Pool.Fair turns := by
  intro i k
  refine ⟨2 * k + i, by omega, ?_⟩
  match i with
  | 0 => exact if_pos (by simp)
  | 1 => exact if_neg (by simp)

theorem jobs_complete_twoVotes :
    let m := after (next default) (start 2 0 fun _ => 0) twoVotes
    ∃ k, (scheduled default m turns k).Done ∧
      (scheduled default m turns k).state.pg.Quiet :=
  jobs_complete default 2 0 (fun _ => 0) twoVotes turns_fair

end QaSys.Concurrent
