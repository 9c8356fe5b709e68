import QaSys.Program.Threads
import QaSys.Program.Runs
import QaSys.Reads.Counts
import Mathlib.Data.Fintype.Basic
import Mathlib.Data.Fin.VecNotation

/-! No read is lost or counted twice, however increments and flushes interleave. -/

namespace QaSys.Reads

open Question

/-- What a thread does: one increment, or one flush of at most `rounds` turns of its loop. -/
inductive Job
  | incr (targetId : UInt64)
  | flush (rounds : Nat)

def Job.prog (ty : String) : Job → Svc Unit
  | .incr targetId => do let _ ← Question.incr targetId ty
  | .flush rounds => handler rounds ty

abbrev Threads (n : Nat) := Pool (Fin n) Call Call.Reply Err Unit Store

def start (ty : String) (job : Fin n → Job) (s : Store) : Threads n :=
  ⟨fun i => (job i).prog ty, s⟩

def next (pool : Threads n) (pick : Fin n × Choice) : Threads n :=
  pool.step (fun i ch c s => s.exec i.val ch c) pick

/-- The amount for `q` a flush takes from Redis next, because its row has it already. -/
def owed (ty : String) (q : Int) : Svc A → Int
  | .call (.hincr key field delta) _ =>
    if key = getHashKey ty ∧ field = toString q then -delta else 0
  | _ => 0

def inflight (ty : String) (job : Fin n → Job) (q : Int) (pool : Threads n) : Int :=
  ∑ i, match job i with
    | .flush _ => owed ty q (pool.prog i)
    | .incr _ => 0

def executed (job : Fin n → Job) (q : Int) (pool : Threads n) : Int :=
  ∑ i, match job i with
    | .incr targetId => if targetId.toNat = q ∧ (pool.prog i).Finished then 1 else 0
    | .flush _ => 0

/-- A program of which each update that hits a row is followed at once by the decrement that pays
for it.  The first argument is the update that is still to be paid. -/
inductive Pays (ty : String) {A : Type} : Option (Int × Int) → Svc A → Prop
  | ret (a : A) : Pays ty none (.ret a)
  | fail (e : Err) : Pays ty none (.fail e)
  | scan {key cursor pattern count k} : (∀ r, Pays ty none (k r)) →
      Pays ty none (.call (.hscan key cursor pattern count) k)
  | update {n id k} : (∀ e, Pays ty none (k (.error e))) →
      (∀ hits : Nat, Pays ty (if hits = 0 then none else some (n, id)) (k (.ok hits))) →
      Pays ty none (.call (.sql (.addReadCount n id)) k)
  | repay {n id k} : (∀ r, Pays ty none (k r)) →
      Pays ty (some (n, id)) (.call (.hincr (getHashKey ty) (toString id) (-n)) k)

def due (q : Int) : Option (Int × Int) → Int
  | some (n, id) => if id = q then n else 0
  | none => 0

variable {ty : String} {debt : Option (Int × Int)} {q : Int}

theorem Pays.owed_eq {p : Svc A} (h : Pays ty debt p) : owed ty q p = due q debt := by
  cases h with
  | repay h =>
    simp only [owed, due, true_and, neg_neg]
    exact if_congr ⟨fun h => toString_injective h, fun h => h ▸ rfl⟩ rfl rfl
  | _ => rfl

theorem Pays.ofExcept (r : Except Err A) : Pays ty none (Prog.ofExcept r : Svc A) := by
  cases r with
  | ok a => exact .ret a
  | error e => exact .fail e

theorem Pays.bind {p : Svc A} {f : A → Svc B} (h : Pays ty debt p) (hf : ∀ a, Pays ty none (f a)) :
    Pays ty debt (p >>= f) := by
  change Pays ty debt (p.bind f)
  induction h with
  | ret a => exact hf a
  | fail e => exact .fail e
  | scan h ih => exact .scan ih
  | update he hok ihe ihok => exact .update ihe ihok
  | repay h ih => exact .repay ih

theorem Pays.attempt {p : Svc A} (h : Pays ty debt p) : Pays ty debt p.attempt := by
  induction h with
  | ret a => exact .ret _
  | fail e => exact .ret _
  | scan h ih => exact .scan ih
  | update he hok ihe ihok => exact .update ihe ihok
  | repay h ih => exact .repay ih

theorem Pays.forM {f : B → Svc PUnit} (h : ∀ b, Pays ty none (f b)) (bs : List B) :
    Pays ty none (bs.forM f) := by
  induction bs with
  | nil => exact .ret _
  | cons b bs ih => exact (h b).bind fun _ => ih

theorem pays_updateReadCount (id n : Int) : Pays ty none (updateReadCount ty id n) := by
  refine .update (fun e => .fail e) fun hits => ?_
  cases hits with
  | zero => exact .fail _
  | succ hits =>
    rw [if_neg (Nat.succ_ne_zero hits)]
    exact .repay fun r => .bind (.ofExcept r) fun _ => .ret _

theorem pays_flushField (reply : String × Int) : Pays ty none (flushField ty reply) := by
  unfold flushField
  split
  next => exact .fail _
  next id _ =>
    refine (pays_updateReadCount id reply.2).attempt.bind fun r => ?_
    cases r with
    | error e => exact .fail _
    | ok a => exact .ret _

theorem pays_reidsCmd (cursor : UInt64) (pattern : String) (count : UInt64) :
    Pays ty none (reidsCmd ty cursor pattern count) :=
  .scan fun r => .bind (.ofExcept r) fun page =>
    (Pays.forM pays_flushField page.2).bind fun _ => .ret _

theorem pays_handlerRedisTopg (rounds : Nat) (cursor : UInt64) :
    Pays ty none (handlerRedisTopg ty rounds cursor) := by
  induction rounds generalizing cursor with
  | zero => exact .fail _
  | succ rounds ih =>
    refine (pays_reidsCmd cursor "*" 500).bind fun cursor' => ?_
    split
    next => exact .ret _
    next => exact ih _

theorem pays_handler (rounds : Nat) : Pays ty none (handler rounds ty) :=
  (pays_handlerRedisTopg rounds 0).bind fun _ => .ret _

structure Paid (ty : String) (q : Int) (s s' : Store) (p p' : Svc A) : Prop where
  quiet : s'.pg.Quiet
  keyed : Keyed s'
  pays : ∃ debt, Pays ty debt p'
  rows : ∀ r, row s q = some r →
    ∃ r', row s' q = some r' ∧ r'.readCount = r.readCount + owed ty q p'
  pending : Reads.pending ty s' q = Reads.pending ty s q - owed ty q p

/-- What a thread adds to the balance of `q`, next to the row and the hash. -/
def weight (ty : String) (q : Int) : Job → Svc Unit → Int
  | .flush _, p => -owed ty q p
  | .incr targetId, p => if targetId.toNat = q ∧ p.Finished then -1 else 0

def Runs (ty : String) : Job → Svc Unit → Prop
  | .flush _, p => ∃ debt, Pays ty debt p
  | .incr targetId, p => p = (Job.incr targetId).prog ty ∨ p.Finished

structure Conserved (ty : String) (q total : Int) (job : Fin n → Job) (pool : Threads n) :
    Prop where
  quiet : pool.state.pg.Quiet
  keyed : Keyed pool.state
  runs : ∀ i, Runs ty (job i) (pool.prog i)
  balance : ∃ r, row pool.state q = some r ∧
    r.readCount + pending ty pool.state q + ∑ i, weight ty q (job i) (pool.prog i) = total

structure Kept (ty : String) (q : Int) (job : Job) (s s' : Store) (p p' : Svc Unit) : Prop where
  quiet : s'.pg.Quiet
  keyed : Keyed s'
  runs : Runs ty job p'
  balance : ∀ r, row s q = some r → ∃ r', row s' q = some r' ∧
    r'.readCount + pending ty s' q + weight ty q job p' =
      r.readCount + pending ty s q + weight ty q job p

variable {s s' : Store} {i : Nat} {ch : Choice} {c : Call}
  {k : Except Err c.Reply → Svc Unit} {r : Except Err c.Reply}

theorem exec_hscan {key pattern : String} {cursor count : UInt64} (hch : ¬ ch.Faulty)
    {r : Except Err (UInt64 × List (String × Int))}
    (h : s.exec i ch (.hscan key cursor pattern count) = some (r, s')) : s' = s := by
  cases ch with
  | fail msg => exact absurd trivial hch
  | lost msg => exact absurd trivial hch
  | serve => cases h; rfl
  | page next fields => cases h; rfl
  | raw value => cases h; rfl

theorem Pays.exec {k : Except Err c.Reply → Svc A} (hq : s.pg.Quiet) (hk : Keyed s)
    (hch : ¬ ch.Faulty) (hp : Pays ty debt (.call c k)) (h : s.exec i ch c = some (r, s')) :
    Paid ty q s s' (.call c k) (k r) := by
  have howed := hp.owed_eq (q := q)
  cases hp with
  | scan hk' =>
    have hs := exec_hscan hch h
    subst hs
    refine ⟨hq, hk, ⟨_, hk' r⟩, fun x hx => ⟨x, hx, ?_⟩, ?_⟩
    · rw [(hk' r).owed_eq, due, Int.add_zero]
    · rw [howed, due, Int.sub_zero]
  | @update m id _ he hok =>
    rw [exec_addReadCount hq hk i hch] at h
    cases h
    have hp' := hok (if (row s id).isSome then 1 else 0)
    refine ⟨quiet_bump hq, keyed_bump hk, ⟨_, hp'⟩,
      fun x hx => ⟨_, by rw [row_bump, hx]; rfl, ?_⟩, ?_⟩
    · rw [hp'.owed_eq]
      by_cases hid : q = id
      · subst hid
        simp [hx, due]
      · cases row s id <;> simp [hid, Ne.symm hid, due]
    · rw [howed, pending_bump, due, Int.sub_zero]
  | @repay m id _ hk' =>
    obtain ⟨v, hv⟩ := exec_hincr s ty i hch (toString id) (-m)
    rw [hv] at h
    cases h
    refine ⟨hq, hk, ⟨_, hk' _⟩, fun x hx => ⟨x, hx, ?_⟩, ?_⟩
    · rw [(hk' _).owed_eq, due, Int.add_zero]
    · rw [howed, pending_addPending, due]
      by_cases hid : id = q
      · subst hid
        rw [if_pos rfl, if_pos rfl, Int.sub_eq_add_neg]
      · rw [if_neg hid, if_neg fun he => hid (toString_injective he).symm, Int.add_zero,
          Int.sub_zero]

theorem kept_flush (hq : s.pg.Quiet) (hk : Keyed s) (hch : ¬ ch.Faulty) {rounds : Nat}
    (hp : Pays ty debt (.call c k)) (h : s.exec i ch c = some (r, s')) :
    Kept ty q (.flush rounds) s s' (.call c k) (k r) := by
  have hpaid := hp.exec (q := q) hq hk hch h
  refine ⟨hpaid.quiet, hpaid.keyed, hpaid.pays, fun x hx => ?_⟩
  obtain ⟨x', hx', hcount⟩ := hpaid.rows x hx
  refine ⟨x', hx', ?_⟩
  rw [hcount, hpaid.pending]
  simp only [weight]
  omega

theorem kept_incr (hq : s.pg.Quiet) (hk : Keyed s) (hch : ¬ ch.Faulty) {targetId : UInt64}
    (hp : (Job.incr targetId).prog ty = .call c k) (h : s.exec i ch c = some (r, s')) :
    Kept ty q (.incr targetId) s s' (.call c k) (k r) := by
  cases hp
  obtain ⟨v, hv⟩ := exec_hincr s ty i hch (toString targetId) 1
  rw [hv] at h
  cases h
  refine ⟨hq, hk, .inr trivial, fun x hx => ⟨x, hx, ?_⟩⟩
  have hfield : toString q = toString targetId ↔ (targetId.toNat : Int) = q := by
    rw [toString_uInt64]
    exact ⟨fun h => (toString_injective h).symm, fun h => h ▸ rfl⟩
  simp only [pending_addPending, hfield, weight]
  by_cases hid : (targetId.toNat : Int) = q
  · rw [if_pos hid, if_pos ⟨hid, trivial⟩, if_neg fun h => h.2]
    omega
  · rw [if_neg hid, if_neg fun h => hid h.1, if_neg fun h => hid h.1]
    omega

variable {n : Nat} {job : Fin n → Job} {pool : Threads n} {total : Int}

theorem Conserved.next (h : Conserved ty q total job pool) (pick : Fin n × Choice)
    (hch : ¬ pick.2.Faulty) : Conserved ty q total job (next pool pick) := by
  obtain ⟨i, ch⟩ := pick
  rcases Pool.step_cases (fun i ch c s => s.exec i.val ch c) pool i ch with hsame |
    ⟨c, k, r, s', hcall, hexec, hnext⟩
  · rw [Reads.next, hsame]
    exact h
  have hkept : Kept ty q (job i) pool.state s' (pool.prog i) (k r) := by
    have hruns := h.runs i
    rw [hcall] at hruns ⊢
    cases hjob : job i with
    | flush rounds =>
      rw [hjob] at hruns
      obtain ⟨debt, hpays⟩ := hruns
      exact kept_flush h.quiet h.keyed hch hpays hexec
    | incr targetId =>
      rw [hjob] at hruns
      rcases hruns with hstart | hdone
      · exact kept_incr h.quiet h.keyed hch hstart.symm hexec
      · exact absurd hdone (Prog.not_finished_call c k)
  obtain ⟨x, hx, hbal⟩ := h.balance
  obtain ⟨x', hx', hbal'⟩ := hkept.balance x hx
  have hnext : Reads.next pool (i, ch) = ⟨Function.update pool.prog i (k r), s'⟩ := hnext
  rw [hnext]
  refine ⟨hkept.quiet, hkept.keyed, fun j => ?_, x', hx', ?_⟩
  · by_cases hj : j = i
    · subst hj
      simpa only [Function.update_self] using hkept.runs
    · simpa only [Function.update_of_ne hj] using h.runs j
  · rw [Pool.sum_update fun i => weight ty q (job i)]
    change x'.readCount + pending ty s' q + _ = total
    omega

theorem owed_finished {p : Svc A} (h : p.Finished) : owed ty q p = 0 := by
  cases p with
  | ret a => rfl
  | fail e => rfl
  | call c k => exact absurd h (Prog.not_finished_call c k)

theorem sum_weight : ∑ i, weight ty q (job i) (pool.prog i) =
    -inflight ty job q pool - executed job q pool := by
  rw [inflight, executed, ← Finset.sum_neg_distrib, ← Finset.sum_sub_distrib]
  refine Finset.sum_congr rfl fun i _ => ?_
  cases job i with
  | flush rounds => simp [weight]
  | incr targetId => by_cases h : targetId.toNat = q ∧ (pool.prog i).Finished <;> simp [weight, h]

theorem weight_start (j : Job) : weight ty q j (j.prog ty) = 0 := by
  cases j with
  | incr targetId => exact if_neg fun h => h.2
  | flush rounds =>
    have howed : owed ty q (handler rounds ty) = 0 := (pays_handler rounds).owed_eq
    simp only [weight, Job.prog, howed, neg_zero]

theorem Conserved.start (hq : s.pg.Quiet) (hk : Keyed s) {x : QuestionRow}
    (hx : row s q = some x) :
    Conserved ty q (x.readCount + pending ty s q) job (start ty job s) := by
  refine ⟨hq, hk, fun i => ?_, x, hx, ?_⟩
  · simp only [Reads.start]
    cases job i with
    | incr targetId => exact .inl rfl
    | flush rounds => exact ⟨_, pays_handler rounds⟩
  · simp [Reads.start, weight_start]

/-- At every moment the reads of a stored question are in its row, in Redis, or on the way. -/
theorem reads_conserved (hq : s.pg.Quiet) (hk : Keyed s) {x : QuestionRow}
    (hx : row s q = some x) (job : Fin n → Job) {picks : List (Fin n × Choice)}
    (hpicks : ∀ pick ∈ picks, ¬ pick.2.Faulty) :
    let pool := Runs.after next (start ty job s) picks
    ∃ x', row pool.state q = some x' ∧
      x'.readCount + pending ty pool.state q - inflight ty job q pool =
        x.readCount + pending ty s q + executed job q pool ∧
      ((∀ i rounds, job i = .flush rounds →
          (pool.prog i).Finished ∨ pool.prog i = (job i).prog ty) →
        x'.readCount + pending ty pool.state q =
          x.readCount + pending ty s q + executed job q pool) := by
  intro pool
  have hpool : Conserved ty q (x.readCount + pending ty s q) job pool :=
    (Runs.always_of_mem hpicks (start ty job s)).invariant
      (I := Conserved ty q (x.readCount + pending ty s q) job)
      (fun _ pick h hch => h.next pick hch) (.start hq hk hx)
  obtain ⟨x', hx', hbal⟩ := hpool.balance
  rw [sum_weight] at hbal
  refine ⟨x', hx', by omega, fun hidle => ?_⟩
  have hnone : inflight ty job q pool = 0 := by
    refine Finset.sum_eq_zero fun i _ => ?_
    cases hjob : job i with
    | incr targetId => rfl
    | flush rounds =>
      rcases hidle i rounds hjob with hdone | hstart
      · exact owed_finished hdone
      · rw [hstart, hjob]
        exact (pays_handler rounds).owed_eq
  omega

def sampleRow : QuestionRow := ⟨1, .empty 300, "", .empty 50, .empty 50, 0, none, 5, 0⟩

def sample : Store :=
  { Store.empty 1 0 fun _ => 0 with
    pg := ⟨{ Db.empty with questions := [sampleRow] }, 1, fun _ => none⟩
    hashes := fun _ => [("1", 3), ("2", 4)] }

/-- Two flushes read the same page before either has taken its amount out of the hash. -/
def overlapping : List (Fin 3 × Choice) :=
  [(0, .page 0 [("1", 3)]), (1, .page 0 [("1", 3)]), (0, .serve), (1, .serve), (2, .serve),
    (1, .serve)]

theorem reads_conserved_overlapping :
    let job : Fin 3 → Job := ![.flush 1, .flush 1, .incr 1]
    let pool := Runs.after next (start "question" job sample) overlapping
    inflight "question" job 1 pool = 3 ∧ ∃ x', row pool.state 1 = some x' ∧
      x'.readCount + pending "question" pool.state 1 - inflight "question" job 1 pool =
        5 + pending "question" sample 1 + executed job 1 pool := by
  intro job pool
  have hkeyed : Keyed sample := by unfold Keyed; decide
  have hpicks : ∀ pick ∈ overlapping, ¬ pick.2.Faulty := by decide
  have hrow : row sample 1 = some sampleRow := rfl
  obtain ⟨x', hx', hbal, -⟩ := reads_conserved (fun _ => rfl) hkeyed hrow job hpicks
  exact ⟨by decide, x', hx', hbal⟩

end QaSys.Reads
