import QaSys.Reads.Conservation
import QaSys.Service.App
import Mathlib.Algebra.Order.BigOperators.Group.Finset
import Mathlib.Algebra.Order.Ring.Int

/-! The read count that `question_detail` shows while flushes move counts from Redis to the rows. -/

namespace QaSys.Display

open Question Reads

abbrev Shown := Option (App.Reply Pb.QuestionDetailResponse)

inductive Job
  | detail (req : Pb.DetailRequest)
  | flush (rounds : Nat)
  deriving DecidableEq

def Job.prog : Job → Svc Shown
  | .detail req => do return some (← App.questionDetail req)
  | .flush rounds => do
    handler rounds "question"
    return none

abbrev Threads (n : Nat) := Pool (Fin n) Call Call.Reply Err Shown Store

def start (job : Fin n → Job) (s : Store) : Threads n := ⟨fun i => (job i).prog, s⟩

def next (pool : Threads n) (pick : Fin n × Choice) : Threads n :=
  pool.step (fun i ch c s => s.exec i.val ch c) pick

def shown : Svc Shown → Option UInt64
  | .ret (some (.ok ⟨some question⟩)) => some question.readCount
  | _ => none

/-- What a flush takes from Redis for `q` next. -/
def load (q : Int) : Job → Svc Shown → Int
  | .flush _, p => owed "question" q p
  | .detail _, _ => 0

/-- What is in the row of `q` and still in Redis. -/
def inflight (job : Fin n → Job) (q : Int) (pool : Threads n) : Int :=
  ∑ i, load q (job i) (pool.prog i)

def credit (id : UInt64) : Job → Svc Shown → Int
  | .detail req, p => if req.id = id ∧ p.Finished then 1 else 0
  | .flush _, _ => 0

def executed (job : Fin n → Job) (id : UInt64) (pool : Threads n) : Int :=
  ∑ i, credit id (job i) (pool.prog i)

/-- What the flushes take from Redis for `q` while the schedule runs. -/
def repaid (job : Fin n → Job) (q : Int) : Threads n → List (Fin n × Choice) → Int
  | _, [] => 0
  | pool, pick :: picks =>
    load q (job pick.1) (pool.prog pick.1) + repaid job q (next pool pick) picks

/-- How a call of thread `a` is spread over the schedule. -/
structure Visit (n : Nat) where
  before : List (Fin n × Choice)
  read : Choice
  during : List (Fin n × Choice)
  incr : Choice

namespace Visit

def picks (a : Fin n) (v : Visit n) : List (Fin n × Choice) :=
  v.before ++ (a, v.read) :: (v.during ++ [(a, v.incr)])

structure Of (v : Visit n) (a : Fin n) : Prop where
  before : ∀ pick ∈ v.before, pick.1 ≠ a
  during : ∀ pick ∈ v.during, pick.1 ≠ a
  served : ∀ pick ∈ v.picks a, ¬ pick.2.Faulty

/-- What has gone to the row of `q` before the call reads it and leaves Redis after the call, less
what leaves Redis during the call and has gone to the row during it. -/
def gap (job : Fin n → Job) (q : Int) (pool : Threads n) (v : Visit n) (a : Fin n) : Int :=
  let pool := Runs.after next pool (v.before ++ [(a, v.read)])
  inflight job q pool - repaid job q pool v.during

end Visit

def counting (question : QuestionEntity) : Svc Shown := do
  let reply ← (do
    match ← (Question.incr question.id.asU64 "question").attempt with
    | .error err => return App.failed .unknown "failed to incr question" err
    | .ok viewCount =>
      return .ok ⟨some (question.toPb (question.readCount + viewCount.asI64))⟩)
  return some reply

def Runs : Job → Svc Shown → Prop
  | .flush _, p => ∃ debt, Pays "question" debt p
  | .detail req, p => p = (Job.detail req).prog ∨
    (∃ r : QuestionRow, r.id = req.id.asI64 ∧ p = counting r.toEntity) ∨ p.Finished

structure Kept (id : UInt64) (q : Int) (job : Job) (s s' : Store) (p p' : Svc Shown) : Prop where
  quiet : s'.pg.Quiet
  keyed : Keyed s'
  runs : Runs job p'
  rows : ∀ r, row s q = some r → ∃ r', row s' q = some r' ∧ r'.readCount = r.readCount + load q job p'
  pending : pending "question" s' q =
    pending "question" s q - load q job p + (credit id job p' - credit id job p)

variable {s s' : Store} {i : Nat} {ch : Choice} {id : UInt64} {q : Int}

theorem exec_question (h : s.pg.Quiet) (i : Nat) (hch : ¬ ch.Faulty) (id : Int) :
    s.exec i ch (.sql (.question id)) = some (.ok (row s id), s) :=
  Store.exec_select h i (mt (Store.refuses_of_nil rfl).mp hch) rfl rfl

theorem detail_prog (req : Pb.DetailRequest) : ∃ k,
    (Job.detail req).prog = .call (.sql (.question req.id.asI64)) k ∧
    (k (.ok none)).Finished ∧ ∀ r : QuestionRow, k (.ok (some r)) = counting r.toEntity :=
  ⟨_, rfl, trivial, fun _ => rfl⟩

theorem counting_prog (question : QuestionEntity) : ∃ k, counting question =
      .call (.hincr (getHashKey "question") (toString question.id.asU64) 1) k ∧
    (∀ r, (k r).Finished) ∧
    ∀ v, shown (k (.ok v)) = some (question.readCount + v.asU64.asI64).asU64 := by
  refine ⟨_, rfl, fun r => ?_, fun _ => rfl⟩
  cases r <;> trivial

theorem field_iff (hid : id.tryI64 = some q) (other : UInt64) :
    toString q = toString other ↔ other = id := by
  obtain ⟨rfl, -⟩ := UInt64.tryI64_eq_some hid
  rw [toString_uInt64]
  exact ⟨fun h => UInt64.toNat_inj.mp (Int.ofNat.inj (toString_injective h)).symm, fun h => h ▸ rfl⟩

variable {debt : Option (Int × Int)} {p : Svc Shown}

theorem flush_step (hq : s.pg.Quiet) (hk : Keyed s) (i : Nat) (hch : ¬ ch.Faulty) {rounds : Nat}
    {c : Call} {k : Except Err c.Reply → Svc Shown} (hp : Pays "question" debt (.call c k)) :
    ∃ r s', s.exec i ch c = some (r, s') ∧
      Kept id q (.flush rounds) s s' (.call c k) (k r) := by
  have hserved : ∃ r s', s.exec i ch c = some (r, s') := by
    cases hp with
    | scan h => cases ch <;> exact ⟨_, _, rfl⟩
    | update he hok => exact ⟨_, _, exec_addReadCount hq hk i hch⟩
    | repay h =>
      obtain ⟨v, hv⟩ := exec_hincr s "question" i hch _ _
      exact ⟨_, _, hv⟩
  obtain ⟨r, s', hexec⟩ := hserved
  have hpaid := hp.exec (q := q) hq hk hch hexec
  refine ⟨r, s', hexec, hpaid.quiet, hpaid.keyed, hpaid.pays, hpaid.rows, ?_⟩
  rw [hpaid.pending]
  simp only [load, credit, Int.sub_self, Int.add_zero]

theorem detail_step (hq : s.pg.Quiet) (hk : Keyed s) (i : Nat) (hch : ¬ ch.Faulty)
    (hid : id.tryI64 = some q) (hrow : (row s q).isSome = true) {req : Pb.DetailRequest}
    {c : Call} {k : Except Err c.Reply → Svc Shown} (hp : Runs (.detail req) (.call c k)) :
    ∃ r s', s.exec i ch c = some (r, s') ∧
      Kept id q (.detail req) s s' (.call c k) (k r) := by
  rcases hp with hstart | ⟨r, hr, hcount⟩ | hdone
  · obtain ⟨k', hprog, hnone, hsome⟩ := detail_prog req
    cases hstart.trans hprog
    refine ⟨_, s, exec_question hq i hch _, hq, hk, ?_, fun r hr => ⟨r, hr, (Int.add_zero _).symm⟩,
      ?_⟩
    · cases hfound : row s req.id.asI64 with
      | none => exact .inr (.inr hnone)
      | some r =>
        have hrid : r.id = req.id.asI64 := by simpa using List.find?_some hfound
        exact .inr (.inl ⟨r, hrid, hsome r⟩)
    · have hcredit : credit id (.detail req) (k' (.ok (row s req.id.asI64))) = 0 := by
        refine if_neg fun ⟨hreq, hdone⟩ => ?_
        have hrow : (row s req.id.asI64).isSome = true := by
          rwa [hreq, (UInt64.tryI64_eq_some hid).2.2]
        obtain ⟨r, hr⟩ := Option.isSome_iff_exists.mp hrow
        obtain ⟨k, hcall, -⟩ := counting_prog r.toEntity
        rw [hr, hsome, hcall] at hdone
        exact hdone
      have hstart : credit id (.detail req) (.call (.sql (.question req.id.asI64)) k') = 0 :=
        if_neg fun h => h.2
      rw [hcredit, hstart]
      simp only [load, Int.sub_self, Int.sub_zero, Int.add_zero]
  · obtain ⟨k', hprog, hdone, hshown⟩ := counting_prog r.toEntity
    cases hcount.trans hprog
    obtain ⟨v, hv⟩ := exec_hincr s "question" i hch (toString r.toEntity.id.asU64) 1
    refine ⟨_, _, hv, hq, hk, .inr (.inr (hdone _)), fun r hr => ⟨r, hr, (Int.add_zero _).symm⟩, ?_⟩
    have hfield : r.toEntity.id.asU64 = req.id := by
      rw [QuestionRow.toEntity, hr, Int.asU64_asI64]
    rw [pending_addPending, hfield]
    simp only [field_iff hid, load, credit, hdone, Prog.not_finished_call, and_true, and_false,
      if_false, Int.sub_zero]
  · exact absurd hdone (Prog.not_finished_call c k)

def rowCount (s : Store) (q : Int) : Int := ((row s q).map QuestionRow.readCount).getD 0

theorem rowCount_eq {r : QuestionRow} (hr : row s q = some r) : rowCount s q = r.readCount := by
  rw [rowCount, hr]
  rfl

variable {n : Nat} {job : Fin n → Job} {pool pool' : Threads n} {total : Int} {a : Fin n}
  {picks : List (Fin n × Choice)}

/-- The reads of a stored question are in its row, in Redis, or on the way. -/
structure Sound (id : UInt64) (q total : Int) (job : Fin n → Job) (pool : Threads n) : Prop where
  quiet : pool.state.pg.Quiet
  keyed : Keyed pool.state
  found : (row pool.state q).isSome = true
  runs : ∀ i, Runs (job i) (pool.prog i)
  balance : rowCount pool.state q + pending "question" pool.state q =
    total + inflight job q pool + executed job id pool

theorem load_finished {j : Job} (h : p.Finished) : load q j p = 0 := by
  cases j with
  | detail req => rfl
  | flush rounds => exact owed_finished h

theorem Sound.step (hid : id.tryI64 = some q) (h : Sound id q total job pool) (i : Fin n)
    {ch : Choice} (hch : ¬ ch.Faulty) :
    ∃ p s, next pool (i, ch) = ⟨Function.update pool.prog i p, s⟩ ∧
      Kept id q (job i) pool.state s (pool.prog i) p := by
  have idle (hdone : (pool.prog i).Finished) :
      ∃ p s, next pool (i, ch) = ⟨Function.update pool.prog i p, s⟩ ∧
        Kept id q (job i) pool.state s (pool.prog i) p := by
    have hnext : next pool (i, ch) = pool := Pool.step_finished hdone
    refine ⟨pool.prog i, pool.state, by rw [Function.update_eq_self, hnext], h.quiet, h.keyed,
      h.runs i, fun r hr => ⟨r, hr, ?_⟩, ?_⟩
    · rw [load_finished hdone, Int.add_zero]
    · rw [load_finished hdone, Int.sub_self, Int.sub_zero, Int.add_zero]
  cases hp : pool.prog i with
  | ret v =>
    rw [← hp]
    exact idle (by rw [hp]; trivial)
  | fail e =>
    rw [← hp]
    exact idle (by rw [hp]; trivial)
  | call c k =>
    have hserved : ∃ r s', pool.state.exec i ch c = some (r, s') ∧
        Kept id q (job i) pool.state s' (.call c k) (k r) := by
      have hruns := h.runs i
      rw [hp] at hruns
      cases hjob : job i with
      | flush rounds =>
        rw [hjob] at hruns
        obtain ⟨debt, hpays⟩ := hruns
        exact flush_step h.quiet h.keyed i hch hpays
      | detail req =>
        rw [hjob] at hruns
        exact detail_step h.quiet h.keyed i hch hid h.found hruns
    obtain ⟨r, s', hexec, hkept⟩ := hserved
    exact ⟨k r, s', Pool.step_call hp hexec, hkept⟩

theorem Sound.next (hid : id.tryI64 = some q) (h : Sound id q total job pool)
    (pick : Fin n × Choice) (hch : ¬ pick.2.Faulty) :
    Sound id q total job (next pool pick) := by
  obtain ⟨i, ch⟩ := pick
  obtain ⟨p, s, hnext, hkept⟩ := h.step hid i hch
  obtain ⟨r, hr⟩ := Option.isSome_iff_exists.mp h.found
  obtain ⟨r', hr', hcount⟩ := hkept.rows r hr
  have hbal := h.balance
  rw [hnext]
  refine ⟨hkept.quiet, hkept.keyed, hr' ▸ rfl, fun j => ?_, ?_⟩
  · by_cases hj : j = i
    · subst hj
      simpa only [Function.update_self] using hkept.runs
    · simpa only [Function.update_of_ne hj] using h.runs j
  · rw [inflight, executed, Pool.sum_update fun i => load q (job i),
      Pool.sum_update fun i => credit id (job i), rowCount_eq hr', hcount, hkept.pending]
    rw [rowCount_eq hr, inflight, executed] at hbal
    omega

theorem Sound.run (hid : id.tryI64 = some q) (h : Sound id q total job pool)
    (hpicks : ∀ pick ∈ picks, ¬ pick.2.Faulty) :
    Sound id q total job (Runs.after Display.next pool picks) :=
  (Runs.always_of_mem hpicks pool).invariant (I := Sound id q total job)
    (fun _ pick h hch => h.next hid pick hch) h

theorem prog_next {pick : Fin n × Choice} (hpick : pick.1 ≠ a) :
    (next pool pick).prog a = pool.prog a := by
  obtain ⟨i, ch⟩ := pick
  rcases Pool.step_cases (fun i ch c s => s.exec i.val ch c) pool i ch with hsame |
    ⟨c, k, r, s', -, -, hnext⟩
  · exact congrArg (Pool.prog · a) hsame
  · rw [next, hnext]
    exact Function.update_of_ne (Ne.symm hpick) ..

theorem prog_run (hpicks : ∀ pick ∈ picks, pick.1 ≠ a) :
    (Runs.after next pool picks).prog a = pool.prog a := by
  induction picks generalizing pool with
  | nil => rfl
  | cons pick picks ih =>
    rw [Runs.after_cons, ih fun x hx => hpicks x (List.mem_cons_of_mem _ hx)]
    exact prog_next (hpicks pick List.mem_cons_self)

theorem prog_finished (hdone : (pool.prog a).Finished) (picks : List (Fin n × Choice)) :
    (Runs.after next pool picks).prog a = pool.prog a := by
  induction picks generalizing pool with
  | nil => rfl
  | cons pick picks ih =>
    have hsame : (next pool pick).prog a = pool.prog a := by
      by_cases ha : pick.1 = a
      · subst ha
        exact congrArg (Pool.prog · pick.1) (Pool.step_finished hdone)
      · exact prog_next ha
    rw [Runs.after_cons, ih (hsame ▸ hdone), hsame]

theorem Sound.drift (hid : id.tryI64 = some q) (h : Sound id q total job pool)
    (hpicks : ∀ pick ∈ picks, ¬ pick.2.Faulty) :
    rowCount (Runs.after Display.next pool picks).state q -
        inflight job q (Runs.after Display.next pool picks) =
      rowCount pool.state q - inflight job q pool + repaid job q pool picks := by
  induction picks generalizing pool with
  | nil => exact (Int.add_zero _).symm
  | cons pick picks ih =>
    have hch := hpicks pick List.mem_cons_self
    rw [Runs.after_cons, ih (h.next hid pick hch) fun x hx => hpicks x (List.mem_cons_of_mem _ hx),
      repaid]
    obtain ⟨i, ch⟩ := pick
    obtain ⟨p, s, hnext, hkept⟩ := h.step hid i hch
    obtain ⟨r, hr⟩ := Option.isSome_iff_exists.mp h.found
    obtain ⟨r', hr', hcount⟩ := hkept.rows r hr
    rw [hnext, inflight, Pool.sum_update fun i => load q (job i), rowCount_eq hr', hcount,
      rowCount_eq hr, inflight]
    dsimp only
    omega

theorem Sound.detail_beside (hid : id.tryI64 = some q) (h : Sound id q total job pool)
    {req : Pb.DetailRequest} (hjob : job a = .detail req) (hch : ¬ ch.Faulty) :
    rowCount (Display.next pool (a, ch)).state q = rowCount pool.state q ∧
      inflight job q (Display.next pool (a, ch)) = inflight job q pool := by
  obtain ⟨p, s, hnext, hkept⟩ := h.step hid a hch
  obtain ⟨r, hr⟩ := Option.isSome_iff_exists.mp h.found
  obtain ⟨r', hr', hcount⟩ := hkept.rows r hr
  have hload (p : Svc Shown) : load q (job a) p = 0 := by rw [hjob]; rfl
  rw [hnext, inflight, Pool.sum_update fun i => load q (job i), rowCount_eq hr', hcount,
    rowCount_eq hr, hload, hload]
  exact ⟨Int.add_zero _, by rw [Int.sub_zero, Int.add_zero, inflight]⟩

theorem Sound.reads (hid : id.tryI64 = some q) (h : Sound id q total job pool)
    {req : Pb.DetailRequest} (hreq : req.id = id)
    (hstart : pool.prog a = (Job.detail req).prog) (hch : ¬ ch.Faulty) :
    ∃ r : QuestionRow, r.id = q ∧ r.readCount = rowCount pool.state q ∧
      (Display.next pool (a, ch)).prog a = counting r.toEntity := by
  have hkey : req.id.asI64 = q := by rw [hreq, (UInt64.tryI64_eq_some hid).2.2]
  obtain ⟨r, hr⟩ := Option.isSome_iff_exists.mp h.found
  obtain ⟨k, hprog, -, hsome⟩ := detail_prog req
  have hexec := exec_question h.quiet a hch req.id.asI64
  refine ⟨r, by simpa using List.find?_some hr, (rowCount_eq hr).symm, ?_⟩
  rw [← hkey] at hr
  have hnext : Display.next pool (a, ch) = _ := Pool.step_call (hstart.trans hprog) hexec
  rw [← hsome r, ← hr, hnext]
  exact Function.update_self ..

theorem counts (hid : id.tryI64 = some q) {r : QuestionRow} (hr : r.id = q)
    (hcount : pool.prog a = counting r.toEntity) (hch : ¬ ch.Faulty) :
    ((next pool (a, ch)).prog a).Finished ∧ shown ((next pool (a, ch)).prog a) =
      some (r.readCount + pending "question" (next pool (a, ch)).state q).asU64 := by
  obtain ⟨k, hprog, hdone, hshown⟩ := counting_prog r.toEntity
  have hfield : toString r.toEntity.id.asU64 = toString q := by
    obtain ⟨rfl, -, hkey⟩ := UInt64.tryI64_eq_some hid
    rw [QuestionRow.toEntity, hr, ← hkey, Int.asU64_asI64, toString_uInt64, hkey]
  have hexec := exec_hincr_eq pool.state "question" a hch (toString r.toEntity.id.asU64) 1
  have hnext : next pool (a, ch) = ⟨Function.update pool.prog a (k (.ok (Store.hget
      (pool.state.hashes (getHashKey "question")) (toString r.toEntity.id.asU64) + 1))),
      addPending "question" pool.state (toString r.toEntity.id.asU64) 1⟩ :=
    Pool.step_call (hcount.trans hprog) hexec
  have hlast : (next pool (a, ch)).prog a = k (.ok (Store.hget
      (pool.state.hashes (getHashKey "question")) (toString r.toEntity.id.asU64) + 1)) := by
    rw [hnext]
    exact Function.update_self ..
  rw [hlast, hnext]
  refine ⟨hdone _, ?_⟩
  rw [hshown, Int.asU64_add_asI64, pending_addPending, hfield, if_pos rfl]
  rfl

theorem Sound.shows (hid : id.tryI64 = some q) (h : Sound id q total job pool)
    {req : Pb.DetailRequest} (hreq : req.id = id) (hjob : job a = .detail req)
    (hstart : pool.prog a = (Job.detail req).prog) {v : Visit n} (hv : v.Of a) :
    let pool' := Runs.after Display.next pool (v.picks a)
    (pool'.prog a).Finished ∧ shown (pool'.prog a) =
      some (total + executed job id pool' + v.gap job q pool a).asU64 := by
  intro pool'
  have hserved (picks : List (Fin n × Choice)) (hsub : picks ⊆ v.picks a) :
      ∀ pick ∈ picks, ¬ pick.2.Faulty := fun pick hpick => hv.served pick (hsub hpick)
  have hbefore := hserved v.before (List.subset_append_left ..)
  have hread : ¬ v.read.Faulty := hv.served (a, v.read) (by simp [Visit.picks])
  have hduring := hserved v.during fun pick hpick => by simp [Visit.picks, hpick]
  have hincr : ¬ v.incr.Faulty := hv.served (a, v.incr) (by simp [Visit.picks])
  -- the pools before the read, after it, and before the increment
  let pool₀ := Runs.after Display.next pool v.before
  let pool₁ := Display.next pool₀ (a, v.read)
  let pool₂ := Runs.after Display.next pool₁ v.during
  have hpool₁ : Runs.after Display.next pool (v.before ++ [(a, v.read)]) = pool₁ :=
    Runs.after_append ..
  have hpool' : pool' = Display.next pool₂ (a, v.incr) := by
    change Runs.after Display.next pool (v.before ++ (a, v.read) :: (v.during ++ [(a, v.incr)])) = _
    rw [Runs.after_append, Runs.after_cons, Runs.after_append]
    rfl
  have h₀ : Sound id q total job pool₀ := h.run hid hbefore
  have h₁ : Sound id q total job pool₁ := h₀.next hid _ hread
  have h₂ : Sound id q total job pool₂ := h₁.run hid hduring
  have h' : Sound id q total job pool' := hpool' ▸ h₂.next hid _ hincr
  obtain ⟨r, hr, hrow, hcount⟩ := h₀.reads hid hreq ((prog_run hv.before).trans hstart) hread
  have hcount : pool₂.prog a = counting r.toEntity := (prog_run hv.during).trans hcount
  obtain ⟨hdone, hshown⟩ := counts hid hr hcount hincr
  rw [← hpool'] at hdone hshown
  refine ⟨hdone, hshown.trans ?_⟩
  obtain ⟨hrow₁, -⟩ := h₀.detail_beside hid hjob hread
  obtain ⟨hrow₂, hload₂⟩ := h₂.detail_beside hid hjob hincr
  have hdrift := h₁.drift hid hduring
  have hbal := h'.balance
  rw [hpool', hrow₂, hload₂, ← hpool'] at hbal
  rw [Visit.gap, hpool₁]
  congr 2
  change rowCount pool₁.state q = rowCount pool₀.state q at hrow₁
  change rowCount pool₂.state q - inflight job q pool₂ =
    rowCount pool₁.state q - inflight job q pool₁ + repaid job q pool₁ v.during at hdrift
  omega

theorem executed_lt (hdone : ∀ i, (pool.prog i).Finished → pool'.prog i = pool.prog i) {b : Fin n}
    {req : Pb.DetailRequest} (hjob : job b = .detail req) (hreq : req.id = id)
    (hstart : ¬ (pool.prog b).Finished) (hend : (pool'.prog b).Finished) :
    executed job id pool < executed job id pool' := by
  refine Finset.sum_lt_sum (fun i _ => ?_) ⟨b, Finset.mem_univ b, ?_⟩
  · cases hj : job i with
    | flush rounds => exact le_rfl
    | detail req' =>
      by_cases h : (pool.prog i).Finished
      · rw [hdone i h]
      · have hzero : credit id (.detail req') (pool.prog i) = 0 := if_neg fun hc => h hc.2
        rw [hzero, credit]
        split <;> decide
  · have hzero : credit id (.detail req) (pool.prog b) = 0 := if_neg fun hc => hstart hc.2
    have hone : credit id (.detail req) (pool'.prog b) = 1 := if_pos ⟨hreq, hend⟩
    rw [hjob, hzero, hone]
    exact Int.zero_lt_one

theorem Sound.start (hq : s.pg.Quiet) (hk : Keyed s) (hrow : (row s q).isSome = true) :
    Sound id q (rowCount s q + pending "question" s q) job (start job s) := by
  have hload (i : Fin n) : load q (job i) (job i).prog = 0 := by
    cases job i with
    | detail req => rfl
    | flush rounds =>
      have hpays : Pays "question" none (Job.flush rounds).prog :=
        (pays_handler rounds).bind fun _ => .ret _
      exact hpays.owed_eq
  have hcredit (i : Fin n) : credit id (job i) (job i).prog = 0 := by
    cases job i with
    | detail req => exact if_neg fun h => h.2
    | flush rounds => rfl
  refine ⟨hq, hk, hrow, fun i => ?_, ?_⟩
  · change Runs (job i) (job i).prog
    cases job i with
    | detail req => exact .inl rfl
    | flush rounds => exact ⟨_, (pays_handler rounds).bind fun _ => .ret _⟩
  · simp [Display.start, inflight, executed, hload, hcredit]

/-- What two calls of `question_detail` for one question show, of which the first has returned before
the second starts. -/
theorem displays_apart (hq : s.pg.Quiet) (hk : Keyed s) (hid : id.tryI64 = some q)
    (hrow : (row s q).isSome = true) (job : Fin n → Job) {a b : Fin n} {req req' : Pb.DetailRequest}
    (ha : job a = .detail req) (hb : job b = .detail req') (hreq : req.id = id)
    (hreq' : req'.id = id) {v w : Visit n} (hv : v.Of a) (hw : w.Of b)
    (hlater : ∀ pick ∈ v.picks a, pick.1 ≠ b) (post : List (Fin n × Choice)) :
    let pool₁ := Runs.after next (start job s) (v.picks a)
    let pool₂ := Runs.after next pool₁ (w.picks b)
    let pool₃ := Runs.after next pool₂ post
    let total := rowCount s q + pending "question" s q
    let first := total + executed job id pool₁ + v.gap job q (start job s) a
    let second := total + executed job id pool₂ + w.gap job q pool₁ b
    shown (pool₃.prog a) = some first.asU64 ∧ shown (pool₃.prog b) = some second.asU64 ∧
      executed job id pool₁ < executed job id pool₂ ∧
      (v.gap job q (start job s) a ≤ w.gap job q pool₁ b → first < second) := by
  intro pool₁ pool₂ pool₃ total first second
  have h₀ : Sound id q total job (start job s) := .start hq hk hrow
  have h₁ : Sound id q total job pool₁ := h₀.run hid hv.served
  have hstart : pool₁.prog b = (Job.detail req').prog :=
    (prog_run hlater).trans (congrArg Job.prog hb)
  obtain ⟨hdone, hshown⟩ := h₀.shows hid hreq ha (congrArg Job.prog ha) hv
  obtain ⟨hdone', hshown'⟩ := h₁.shows hid hreq' hb hstart hw
  have hlast : pool₃.prog a = pool₁.prog a :=
    (prog_finished ((prog_finished hdone _).symm ▸ hdone) post).trans (prog_finished hdone _)
  have hlast' : pool₃.prog b = pool₂.prog b := prog_finished hdone' post
  have hunfinished : ¬ (pool₁.prog b).Finished := by rw [hstart]; exact fun h => h
  have hmore : executed job id pool₁ < executed job id pool₂ :=
    executed_lt (fun i hi => prog_finished hi _) hb hreq' hunfinished hdone'
  exact ⟨by rw [hlast, hshown], by rw [hlast', hshown'], hmore, fun hgap => by omega⟩

def oneFlush : Fin 3 → Job :=
  ![.flush 1, .detail ⟨1, "carol"⟩, .detail ⟨1, "carol"⟩]

def early (flusher : Fin n) : Visit n := ⟨[(flusher, .page 0 [("1", 3)])], .serve, [], .serve⟩

def late (flusher : Fin n) : Visit n :=
  ⟨[(flusher, .serve), (flusher, .serve)], .serve, [], .serve⟩

theorem displays_apart_between :
    let pool := Runs.after next (start oneFlush sample) ((early 0).picks 1 ++ (late 0).picks 2)
    shown (pool.prog 1) = some 9 ∧ shown (pool.prog 2) = some 10 := by
  have hkeyed : Keyed sample := by unfold Keyed; decide
  have hearly : (early 0).Of (1 : Fin 3) := ⟨by decide, by decide, by decide⟩
  have hlate : (late 0).Of (2 : Fin 3) := ⟨by decide, by decide, by decide⟩
  obtain ⟨hfirst, hsecond, -⟩ := displays_apart (fun _ => rfl) hkeyed rfl rfl oneFlush rfl rfl rfl
    rfl hearly hlate (by decide) []
  rw [Runs.after_append]
  exact ⟨hfirst.trans (by decide), hsecond.trans (by decide)⟩

/-- The count is in the row while the first call runs, and out of Redis before the second. -/
theorem enclosed_decreases :
    let pool := Runs.after next (start oneFlush sample)
      (Visit.picks 1 ⟨[(0, .page 0 [("1", 3)]), (0, .serve)], .serve, [], .serve⟩ ++
        Visit.picks 2 ⟨[(0, .serve)], .serve, [], .serve⟩)
    shown (pool.prog 1) = some 12 ∧ shown (pool.prog 2) = some 10 := by
  decide

end QaSys.Display
