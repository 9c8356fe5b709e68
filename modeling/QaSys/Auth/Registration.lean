import QaSys.Program.Threads
import QaSys.Program.Runs
import QaSys.Store.CallLaws
import QaSys.Store.SqlLaws
import QaSys.Auth.Tabulated
import Mathlib.Data.Fin.VecNotation

/-! Registrations that run at the same time. -/

namespace QaSys.Registration

open QaServiceImpl Pb

abbrev Register := Svc (App.Reply StateResponse)

abbrev Threads (n : Nat) := Pool (Fin n) Call Call.Reply Err (App.Reply StateResponse) Store

def start (svc : QaServiceImpl) (req : Fin n → UserRegisterRequest) (s : Store) : Threads n :=
  ⟨fun i => svc.userRegister (req i), s⟩

def next (pool : Threads n) (pick : Fin n × Choice) : Threads n :=
  pool.step (fun i ch c s => s.exec i.val ch c) pick

def Won (p : Register) : Prop := p = .ret (.ok ⟨1⟩)

def Refused (p : Register) : Prop := ∃ status, p = .ret (.error status)

/-- PostgreSQL stores the name of the request as `name`. -/
def Asks (req : UserRegisterRequest) (name : Varchar 50) : Prop :=
  Varchar.assign 50 req.username = some name

def Inserts : Register → Prop
  | .call (.sql (.insertUser ..)) _ => True
  | _ => False

/-- The database does not fail at the next call of the picked registration.  It may still refuse
the name. -/
def Served (pool : Threads n) (pick : Fin n × Choice) : Prop :=
  ¬ pick.2.Faulty ∧ (Inserts (pool.prog pick.1) → pool.state.seq.users < i64Max)

def Changes (pool : Threads n) (pick : Fin n × Choice) : Prop :=
  (next pool pick).state.db = pool.state.db ∨ Won ((next pool pick).prog pick.1)

/-- What the registrations have come to.  Each new row is the one of a call that succeeded. -/
structure Settled (svc : QaServiceImpl) (req : Fin n → UserRegisterRequest) (s : Store)
    (pool : Threads n) : Prop where
  rows : ∃ rows, pool.state.db.users = s.db.users ++ rows ∧ ∀ row ∈ rows, ∃ i,
    Won (pool.prog i) ∧ Asks (req i) row.username ∧
      row.password.val = svc.crates.md5 (req i).password
  winner : ∀ name, (∀ row ∈ s.db.users, row.username ≠ name) → (∃ i, Asks (req i) name) →
    ∃ i, Asks (req i) name ∧ Won (pool.prog i) ∧
      (∃ row, pool.state.db.users.find? (·.username = name) = some row ∧
        row.password.val = svc.crates.md5 (req i).password) ∧
      ∀ j, Asks (req j) name → j ≠ i → Refused (pool.prog j)
  taken : ∀ row ∈ s.db.users, ∀ i, Asks (req i) row.username → Refused (pool.prog i)

instance : DecidablePred Won
  | .ret (.ok ⟨state⟩) =>
    decidable_of_iff (state = 1) ⟨fun h => by subst h; rfl, fun h => by cases h; rfl⟩
  | .ret (.error _) | .fail _ | .call .. => isFalse nofun

instance : DecidablePred Inserts
  | .call c _ => match c with
    | .sql q => by cases q <;> unfold Inserts <;> infer_instance
    | .begin | .tx _ | .commit | .rollback | .get _ | .setEx .. | .del _ | .hincr .. | .hscan ..
    | .send _ | .ack _ | .now | .newV4 => isFalse id
  | .ret _ | .fail _ => isFalse id

instance (pool : Threads n) (pick : Fin n × Choice) : Decidable (Served pool pick) :=
  inferInstanceAs (Decidable (_ ∧ (Inserts _ → _)))

instance (pool : Threads n) : Decidable pool.Done :=
  inferInstanceAs (Decidable (∀ i, (pool.prog i).Finished))

variable {svc : QaServiceImpl} {req : UserRegisterRequest} {p : Register} {users : List UserRow}

def Inserting (svc : QaServiceImpl) (req : UserRegisterRequest) (p : Register) : Prop :=
  ∃ (id : Uuid) (now : Int) (k : _), p = .call (.sql (.insertUser req.username
      (svc.crates.md5 req.password) id.simple now)) k ∧
    Won (k (.ok 1)) ∧ ∀ e, Refused (k (.error e))

def Timing (svc : QaServiceImpl) (req : UserRegisterRequest) (p : Register) : Prop :=
  ∃ k, p = .call .now k ∧ ∀ t, Inserting svc req (k (.ok t))

def Drawing (svc : QaServiceImpl) (req : UserRegisterRequest) (p : Register) : Prop :=
  ∃ k, p = .call .newV4 k ∧ ∀ id, Timing svc req (k (.ok id))

def Checking (svc : QaServiceImpl) (req : UserRegisterRequest) (p : Register) : Prop :=
  ∃ k, p = .call (.sql (.userId req.username)) k ∧ Drawing svc req (k (.ok none)) ∧
    (∀ id, Refused (k (.ok (some id)))) ∧ ∀ e, Refused (k (.error e))

theorem checking_start : Checking svc req (svc.userRegister req) := by
  refine ⟨_, rfl, ⟨_, rfl, fun id => ⟨_, rfl, fun t => ⟨id, t, _, rfl, rfl, fun e => ⟨_, rfl⟩⟩⟩⟩,
    fun id => ⟨_, rfl⟩, fun e => ⟨_, rfl⟩⟩

inductive Stage (svc : QaServiceImpl) (users : List UserRow) (req : UserRegisterRequest)
    (p : Register) : Prop
  | checking (h : Checking svc req p)
  | drawing (h : Drawing svc req p)
  | timing (h : Timing svc req p)
  | inserting (h : Inserting svc req p)
  | won (h : Won p)
  | refused (h : Refused p) (htaken : ∀ name, Asks req name → ∃ row ∈ users, row.username = name)

theorem Stage.mono {users' : List UserRow} (h : Stage svc users req p) (hsub : users ⊆ users') :
    Stage svc users' req p := by
  cases h with
  | checking h => exact .checking h
  | drawing h => exact .drawing h
  | timing h => exact .timing h
  | inserting h => exact .inserting h
  | won h => exact .won h
  | refused h htaken =>
    refine .refused h fun name hname => ?_
    obtain ⟨row, hrow, hrowName⟩ := htaken name hname
    exact ⟨row, hsub hrow, hrowName⟩

theorem Won.not_refused (h : Won p) : ¬ Refused p := by
  rintro ⟨status, hstatus⟩
  cases hstatus.symm.trans h

theorem not_won_call {c : Call} {k : Except Err c.Reply → Register} : ¬ Won (.call c k) := nofun

theorem Stage.taken (h : Stage svc users req p) (hp : p.Finished) : Won p ∨
    Refused p ∧ ∀ name, Asks req name → ∃ row ∈ users, row.username = name := by
  cases h with
  | checking h =>
    obtain ⟨k, rfl, -⟩ := h
    exact absurd hp (Prog.not_finished_call _ k)
  | drawing h =>
    obtain ⟨k, rfl, -⟩ := h
    exact absurd hp (Prog.not_finished_call _ k)
  | timing h =>
    obtain ⟨k, rfl, -⟩ := h
    exact absurd hp (Prog.not_finished_call _ k)
  | inserting h =>
    obtain ⟨id, now, k, rfl, -⟩ := h
    exact absurd hp (Prog.not_finished_call _ k)
  | won h => exact .inl h
  | refused h htaken => exact .inr ⟨h, htaken⟩

theorem Asks.unique {name name' : Varchar 50} (h : Asks req name) (h' : Asks req name') :
    name = name' := Option.some.inj (h.symm.trans h')

variable {n : Nat} {reqs : Fin n → UserRegisterRequest} {s s' : Store} {pool : Threads n}
  {rows : List UserRow} {i : Fin n}

theorem Asks.storable {name : Varchar 50} (h : Asks req name) : Storable req.username :=
  Varchar.storable_of_assign h

/-- The new rows have new names, each asked for by just one call that succeeded. -/
structure Sound (svc : QaServiceImpl) (reqs : Fin n → UserRegisterRequest) (s : Store)
    (rows : List UserRow) (pool : Threads n) : Prop where
  quiet : pool.state.pg.Quiet
  users : pool.state.db.users = s.db.users ++ rows
  stage : ∀ i, Stage svc (s.db.users ++ rows) (reqs i) (pool.prog i)
  fresh : ∀ row ∈ rows, ∀ row' ∈ s.db.users, row'.username ≠ row.username
  winner : ∀ row ∈ rows, ∃ i, Won (pool.prog i) ∧ Asks (reqs i) row.username ∧
    row.password.val = svc.crates.md5 (reqs i).password
  row : ∀ i, Won (pool.prog i) → ∃ row ∈ rows, Asks (reqs i) row.username
  unique : ∀ i j name, Won (pool.prog i) → Won (pool.prog j) → Asks (reqs i) name →
    Asks (reqs j) name → i = j

theorem Sound.start (hq : s.pg.Quiet) : Sound svc reqs s [] (start svc reqs s) := by
  have hidle (i : Fin n) : ¬ Won (svc.userRegister (reqs i)) := by
    obtain ⟨k, hprog, -⟩ : Checking svc (reqs i) (svc.userRegister (reqs i)) := checking_start
    rw [hprog]
    exact nofun
  exact ⟨hq, (List.append_nil _).symm, fun i => .checking checking_start, nofun, nofun,
    fun i hi => absurd hi (hidle i), fun i _ _ hi => absurd hi (hidle i)⟩

theorem Sound.goOn (h : Sound svc reqs s rows pool) (hrunning : ¬ Won (pool.prog i))
    (hq : s'.pg.Quiet) (husers : s'.db.users = pool.state.db.users)
    (hstage : Stage svc (s.db.users ++ rows) (reqs i) p) (hwon : ¬ Won p) :
    Sound svc reqs s rows ⟨Function.update pool.prog i p, s'⟩ := by
  have hsame {j : Fin n} (hj : Won (Function.update pool.prog i p j)) :
      Won (pool.prog j) := by
    by_cases hji : j = i
    · rw [hji, Function.update_self] at hj
      exact absurd hj hwon
    · rwa [Function.update_of_ne hji] at hj
  refine ⟨hq, husers.trans h.users, fun j => ?_, h.fresh, fun row hrow => ?_,
    fun j hj => h.row j (hsame hj), fun j k name hj hk => h.unique j k name (hsame hj) (hsame hk)⟩
  · by_cases hji : j = i
    · rw [hji]
      simpa only [Function.update_self] using hstage
    · simpa only [Function.update_of_ne hji] using h.stage j
  · obtain ⟨j, hj, hasks⟩ := h.winner row hrow
    have hji : j ≠ i := fun hji => hrunning (hji ▸ hj)
    refine ⟨j, ?_, hasks⟩
    simpa only [Function.update_of_ne hji] using hj

theorem Sound.win (h : Sound svc reqs s rows pool) (hrunning : ¬ Won (pool.prog i))
    {row : UserRow} (hq : s'.pg.Quiet) (husers : s'.db.users = pool.state.db.users ++ [row])
    (hasks : Asks (reqs i) row.username)
    (hpassword : row.password.val = svc.crates.md5 (reqs i).password)
    (hnew : ∀ row' ∈ pool.state.db.users, row'.username ≠ row.username) (hwon : Won p) :
    Sound svc reqs s (rows ++ [row]) ⟨Function.update pool.prog i p, s'⟩ := by
  rw [h.users] at husers hnew
  rw [List.append_assoc] at husers
  have hself : Function.update pool.prog i p i = p := Function.update_self ..
  have of_ne {j : Fin n} (hj : j ≠ i) : Function.update pool.prog i p j = pool.prog j :=
    Function.update_of_ne hj ..
  have halone {j : Fin n} (hj : Won (pool.prog j)) {name : Varchar 50} (hi : Asks (reqs i) name)
      (hname : Asks (reqs j) name) : False := by
    obtain ⟨row', hrow', hasks'⟩ := h.row j hj
    refine hnew row' (List.mem_append_right _ hrow') ?_
    rw [hasks'.unique hname, hi.unique hasks]
  refine ⟨hq, husers, fun j => ?_, fun row' hrow' => ?_, fun row' hrow' => ?_,
    fun j hj => ?_, fun j k name hj hk hname hname' => ?_⟩
  · by_cases hji : j = i
    · simp only [hji, hself]
      exact .won hwon
    · simp only [of_ne hji]
      exact (h.stage j).mono (List.append_assoc .. ▸ List.subset_append_left ..)
  · rcases List.mem_append.mp hrow' with hold | hone
    · exact h.fresh row' hold
    · rw [List.mem_singleton.mp hone]
      exact fun r hr => hnew r (List.mem_append_left _ hr)
  · rcases List.mem_append.mp hrow' with hold | hone
    · obtain ⟨j, hj, hrest⟩ := h.winner row' hold
      refine ⟨j, ?_, hrest⟩
      simpa only [of_ne fun hji => hrunning (hji ▸ hj)] using hj
    · rw [List.mem_singleton.mp hone]
      refine ⟨i, ?_, hasks, hpassword⟩
      simpa only [hself] using hwon
  · by_cases hji : j = i
    · exact ⟨row, List.mem_append_right _ List.mem_cons_self, hji ▸ hasks⟩
    · simp only [of_ne hji] at hj
      obtain ⟨row', hrow', hasks'⟩ := h.row j hj
      exact ⟨row', List.mem_append_left _ hrow', hasks'⟩
  · by_cases hji : j = i
    · by_cases hki : k = i
      · rw [hji, hki]
      · simp only [of_ne hki] at hk
        exact (halone hk (hji ▸ hname) hname').elim
    · simp only [of_ne hji] at hj
      by_cases hki : k = i
      · exact (halone hj (hki ▸ hname') hname).elim
      · simp only [of_ne hki] at hk
        exact h.unique j k name hj hk hname hname'

theorem Sound.step (h : Sound svc reqs s rows pool) (pick : Fin n × Choice)
    (hmd5 : ∀ i, Storable (svc.crates.md5 (reqs i).password) ∧
      (svc.crates.md5 (reqs i).password).length = 32) (hserved : Served pool pick) :
    (∃ rows', Sound svc reqs s rows' (next pool pick)) ∧ Changes pool pick := by
  obtain ⟨i, ch⟩ := pick
  obtain ⟨hch, hroom⟩ := hserved
  have going {c : Call} {k : Except Err c.Reply → Register} {r : Except Err c.Reply} {s' : Store}
      (hprog : pool.prog i = .call c k) (hexec : pool.state.exec i ch c = some (r, s'))
      (hq : s'.pg.Quiet) (hdb : s'.db = pool.state.db)
      (hstage : Stage svc (s.db.users ++ rows) (reqs i) (k r)) (hwon : ¬ Won (k r)) :
      (∃ rows', Sound svc reqs s rows' (next pool (i, ch))) ∧ Changes pool (i, ch) := by
    have hnext : next pool (i, ch) = ⟨Function.update pool.prog i (k r), s'⟩ :=
      Pool.step_call hprog hexec
    have hrunning : ¬ Won (pool.prog i) := hprog ▸ not_won_call
    refine ⟨⟨rows, ?_⟩, .inl ?_⟩
    · rw [hnext]
      exact h.goOn hrunning hq (congrArg Db.users hdb) hstage hwon
    · rw [hnext]
      exact hdb
  have staying (hp : (pool.prog i).Finished) :
      (∃ rows', Sound svc reqs s rows' (next pool (i, ch))) ∧ Changes pool (i, ch) := by
    have hnext : next pool (i, ch) = pool := Pool.step_finished hp
    rw [Changes, hnext]
    exact ⟨⟨rows, h⟩, .inl rfl⟩
  -- PostgreSQL does not take the name of the request
  have refusing {q : Stmt} {k : Except Err q.Reply → Register}
      (hprog : pool.prog i = .call (.sql q) k) (hname : ¬ Storable (reqs i).username)
      (hbound : (reqs i).username ∈ q.bound) (hrefused : ∀ e, Refused (k (.error e))) :
      (∃ rows', Sound svc reqs s rows' (next pool (i, ch))) ∧ Changes pool (i, ch) := by
    have hrefuses : ch.Refuses q := .inr fun hbind => hname (hbind _ hbound)
    obtain ⟨msg, hexec, -⟩ := @Store.exec_refused pool.state i ch q hrefuses
    exact going hprog hexec h.quiet rfl
      (.refused (hrefused _) fun name hasks => absurd hasks.storable hname)
      fun hwon => hwon.not_refused (hrefused _)
  cases h.stage i with
  | checking hstage =>
    obtain ⟨k, hprog, hdraw, htaken, hrefused⟩ := hstage
    by_cases hname : Storable (reqs i).username
    swap
    · exact refusing hprog hname List.mem_cons_self hrefused
    have hpass := Store.not_refuses hch (q := .userId (reqs i).username)
      (List.forall_mem_singleton.mpr hname)
    have heval : Stmt.eval pool.state.seq (.userId (reqs i).username) pool.state.db =
        .ok ((pool.state.db.users.find? (·.username.val = (reqs i).username)).map (·.id), []) := rfl
    cases hfind : pool.state.db.users.find? (·.username.val = (reqs i).username) with
    | none =>
      rw [hfind] at heval
      refine going hprog (Store.exec_select h.quiet i hpass heval rfl) h.quiet rfl (.drawing hdraw) ?_
      obtain ⟨k', hk', -⟩ := hdraw
      exact hk' ▸ not_won_call
    | some row =>
      rw [hfind] at heval
      refine going hprog (Store.exec_select h.quiet i hpass heval rfl) h.quiet rfl
        (.refused (htaken row.id) fun name hname => ⟨row, ?_, ?_⟩)
        fun hwon => hwon.not_refused (htaken row.id)
      · rw [← h.users]
        exact List.mem_of_find?_eq_some hfind
      · have hval : row.username.val = (reqs i).username := by simpa using List.find?_some hfind
        have hasks : Asks (reqs i) row.username := by
          rw [Asks, ← hval, Varchar.assign_val]
        exact hasks.unique hname
  | drawing hstage =>
    obtain ⟨k, hprog, htiming⟩ := hstage
    obtain ⟨k', hk', -⟩ := htiming (pool.state.supply pool.state.drawn)
    exact going hprog rfl h.quiet rfl (.timing (htiming _)) (hk' ▸ not_won_call)
  | timing hstage =>
    obtain ⟨k, hprog, hinserting⟩ := hstage
    obtain ⟨id, now, k', hk', -⟩ := hinserting pool.state.clock
    exact going hprog rfl h.quiet rfl (.inserting (hinserting _)) (hk' ▸ not_won_call)
  | inserting hstage =>
    obtain ⟨id, now, k, hprog, hwon, hrefused⟩ := hstage
    have hseq : pool.state.seq.users < i64Max := hroom (by rw [hprog]; trivial)
    by_cases hname : Storable (reqs i).username
    swap
    · exact refusing hprog hname List.mem_cons_self hrefused
    obtain ⟨hhash, hlength⟩ := hmd5 i
    have hbind : (Stmt.insertUser (reqs i).username (svc.crates.md5 (reqs i).password) id.simple
        now).Bindable := Stmt.bindable_insertUser hname hhash id.nul_not_mem
    have hpass := Store.not_refuses hch hbind
    have hexec := Store.exec_sql (h.quiet.alone (i := i)) hpass
    have hsecret := Varchar.assign_of_le hhash (n := 50) (hlength.le.trans (by decide))
    rcases eval_insertUser_cases (reqs i).username (svc.crates.md5 (reqs i).password) now
      pool.state.db hseq id.nul_not_mem (Uuid.length_simple id).le with
      ⟨msg, heval, htaken⟩ | ⟨name, secret, hasks, hassign, hnew, heval⟩
    · rw [heval] at hexec
      refine going hprog hexec h.quiet rfl (.refused (hrefused _) fun name hasks => ?_)
        fun hwon => hwon.not_refused (hrefused _)
      rw [← h.users]
      exact htaken name _ hasks hsecret
    · rw [heval] at hexec
      have hnext : next pool (i, ch) = _ := Pool.step_call hprog hexec
      rw [Changes, hnext]
      have hpassword : secret.val = svc.crates.md5 (reqs i).password := by
        rw [← Option.some.inj (hsecret.symm.trans hassign)]
      refine ⟨⟨rows ++ [_], h.win ?_ h.quiet rfl hasks hpassword hnew hwon⟩, .inr ?_⟩
      · exact hprog ▸ not_won_call
      · simpa only [Function.update_self] using hwon
  | won hwon => exact staying (hwon ▸ trivial)
  | refused hrefused =>
    obtain ⟨status, hstatus⟩ := hrefused
    exact staying (hstatus ▸ trivial)

theorem Sound.settled (h : Sound svc reqs s rows pool) (hdone : pool.Done) :
    Settled svc reqs s pool := by
  have refused {i : Fin n} (hi : ¬ Won (pool.prog i)) : Refused (pool.prog i) :=
    (((h.stage i).taken (hdone i)).resolve_left hi).1
  refine ⟨⟨rows, h.users, h.winner⟩, fun name hname ⟨i, hi⟩ => ?_, fun row hrow i hi => ?_⟩
  · have htaken : ∃ row ∈ s.db.users ++ rows, row.username = name := by
      rcases (h.stage i).taken (hdone i) with hwon | ⟨-, htaken⟩
      · obtain ⟨row, hrow, hasks⟩ := h.row i hwon
        exact ⟨row, List.mem_append_right _ hrow, hasks.unique hi⟩
      · exact htaken name hi
    cases hfind : (s.db.users ++ rows).find? (·.username = name) with
    | none =>
      obtain ⟨row, hrow, hrowName⟩ := htaken
      exact absurd (decide_eq_true hrowName) (List.find?_eq_none.mp hfind row hrow)
    | some row =>
      have hrowName : row.username = name := by simpa using List.find?_some hfind
      have hrow : row ∈ rows := (List.mem_append.mp (List.mem_of_find?_eq_some hfind)).resolve_left
        fun hold => hname row hold hrowName
      obtain ⟨j, hj, hasks, hpassword⟩ := h.winner row hrow
      rw [hrowName] at hasks
      refine ⟨j, hasks, hj, ⟨row, by rw [h.users, hfind], hpassword⟩, fun k hk hkj => ?_⟩
      exact refused fun hwon => hkj (h.unique k j name hwon hj hk hasks)
  · refine refused fun hwon => ?_
    obtain ⟨row', hrow', hasks⟩ := h.row i hwon
    exact h.fresh row' hrow' row hrow (hi.unique hasks)

/-- Of the registrations of a new name just one succeeds, and its password is stored. -/
theorem registration_race (hq : s.pg.Quiet)
    (hmd5 : ∀ i, Storable (svc.crates.md5 (reqs i).password) ∧
      (svc.crates.md5 (reqs i).password).length = 32) {picks : List (Fin n × Choice)}
    (hserved : Runs.Always next Served (start svc reqs s) picks) :
    Runs.Always next Changes (start svc reqs s) picks ∧
    ((Runs.after next (start svc reqs s) picks).Done →
      Settled svc reqs s (Runs.after next (start svc reqs s) picks)) := by
  have hstart : ∃ rows, Sound svc reqs s rows (start svc reqs s) := ⟨[], .start hq⟩
  refine ⟨hserved.of_invariant (I := fun pool => ∃ rows, Sound svc reqs s rows pool)
    (fun _ pick ⟨_, h⟩ hp => (h.step pick hmd5 hp).1)
    (fun _ pick ⟨_, h⟩ hp => (h.step pick hmd5 hp).2) hstart, fun hdone => ?_⟩
  obtain ⟨rows, h⟩ := hserved.invariant (I := fun pool => ∃ rows, Sound svc reqs s rows pool)
    (fun _ pick ⟨_, h⟩ hp => (h.step pick hmd5 hp).1) hstart
  exact h.settled hdone

/-! Two registrations, with the hashes of their passwords. -/

def sample : QaServiceImpl := .configured (.tabulated [] []
  (fun password => if password = "secret-password" then "2304d4770a72d09106045fea654c4188"
    else "af251b41ca6b400c453ec02dc07a90b4") fun _ => "")

def nobody : Store := Store.empty 2 1785000000 fun n => BitVec.ofNat 128 n

def twoAlices : Fin 2 → UserRegisterRequest :=
  ![⟨"alice", "secret-password", "", ""⟩, ⟨"alice", "another-password", "", ""⟩]

def served (i : Fin 2) (calls : Nat) : List (Fin 2 × Choice) := List.replicate calls (i, .serve)

/-- Both calls look for the name before either has stored it. -/
theorem registration_race_twoAlices :
    let racing := served 0 2 ++ served 1 4 ++ served 0 2
    let pool := Runs.after next (start sample twoAlices nobody) racing
    pool.Done ∧ Won (pool.prog 1) ∧ Settled sample twoAlices nobody pool := by
  intro racing pool
  have hdone : pool.Done := by decide +kernel
  have hserved : Runs.Always next Served (start sample twoAlices nobody) racing := by
    decide +kernel
  exact ⟨hdone, by decide +kernel, (registration_race (fun _ => rfl) (by decide) hserved).2 hdone⟩

def longName : String := String.ofList (List.replicate 50 'a')

def blankName : Fin 2 → UserRegisterRequest :=
  ![⟨longName, "secret-password", "", ""⟩, ⟨longName ++ " ", "secret-password", "", ""⟩]

/-- The name of 50 characters and a blank is stored without the blank, so that the only call for
the name without it comes too late. -/
theorem blankName_takes :
    let pool := Runs.after next (start sample blankName nobody) (served 1 4 ++ served 0 1)
    Runs.Always next Served (start sample blankName nobody) (served 1 4 ++ served 0 1) ∧
    pool.Done ∧ longName.length ≤ 50 ∧ (blankName 0).username = longName ∧
    (∀ row ∈ nobody.db.users, row.username.val ≠ longName) ∧
    ∀ i, (blankName i).username = longName → ¬ Won (pool.prog i) := by
  decide +kernel

end QaSys.Registration
