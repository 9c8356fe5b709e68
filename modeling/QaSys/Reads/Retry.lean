import QaSys.Reads.Isolation

/-! A flush of which one call to the stores fails, and the flush that comes after it. -/

namespace QaSys.Retry

open Isolation Question Reads

/-- The call after the first `before` ones fails.  An effective one has done its work, and only the
reply is lost. -/
structure Fault where
  before : Nat
  effective : Bool
  msg : String

structure Failing where
  scan : Scan
  calls : Nat

def Failing.exec (fault : Fault) (c : Call) (x : Failing) : Except Err c.Reply × Failing :=
  match x.calls with
  | calls + 1 => ((Scan.exec c x.scan).1, ⟨(Scan.exec c x.scan).2, calls⟩)
  | 0 => ((Store.serve (.fail fault.msg) c x.scan.store).1,
    if fault.effective then ⟨(Scan.exec c x.scan).2, 0⟩ else x)

def failedFlush (ty : String) (rounds : Nat) (p : Paging) (fault : Fault) (s : Store) :
    Except Err Unit × Failing :=
  (handler rounds ty).run (Failing.exec fault) ⟨⟨s, p.early, p.last⟩, fault.before⟩

inductive Step
  | scan
  | update (field : String)
  | repay (field : String)

def fieldSteps (fields : List String) : List Step := fields.flatMap fun f => [.update f, .repay f]

def pageSteps (fields : List String) : List Step := .scan :: fieldSteps fields

def flushSteps (p : Paging) : List Step :=
  p.early.flatMap (fun page => pageSteps page.2) ++ pageSteps p.last

/-- The field whose amount is in its row and still in Redis when this step fails. -/
def Step.split (effective : Bool) : Step → Option String
  | .scan => none
  | .update f => if effective then some f else none
  | .repay f => if effective then none else some f

def halfway (steps : List Step) (before : Nat) (effective : Bool) : Option String :=
  steps[before]?.bind (Step.split effective)

/-- The failing call does not come between the two updates of a field with pending reads. -/
def Harmless (ty : String) (s : Store) (p : Paging) (fault : Fault) : Prop :=
  ∀ f ∈ halfway (flushSteps p) fault.before fault.effective,
    Store.hget (s.hashes (getHashKey ty)) f = 0

def redisFields (ty : String) (s : Store) : List String :=
  (s.hashes (getHashKey ty)).map Prod.fst

structure Carried (ty : String) (s s' : Store) (done : List String) : Prop
    extends Moved ty s s' done where
  fields : redisFields ty s' = redisFields ty s

/-- `s'` is `s` after a flush that stopped, with one field moved by half if there is one. -/
inductive Stopped (ty : String) (s : Store) : Option String → Store → Prop
  | whole {s' : Store} {done : List String} : Carried ty s s' done → Stopped ty s none s'
  | half {s' : Store} {done : List String} {id : Int} : Carried ty s s' done →
      toString id ∉ done → Stored s (toString id) = true →
      Stopped ty s (some (toString id)) (bump s' (pending ty s id) id)

/-- What a part of a flush that makes the calls `steps` comes to when `k` calls are still served: the
fault stops it at one of them, or it returns something that satisfies `Q` and leaves calls over. -/
def Faces (ty : String) (s : Store) (fault : Fault) (steps : List Step) (p : Svc A) (x : Scan)
    (k : Nat) (Q : A → Scan → Prop) : Prop :=
  (k < steps.length ∧ ∃ e y, p.run (Failing.exec fault) ⟨x, k⟩ = (.error e, y) ∧
    Stopped ty s (halfway steps k fault.effective) y.scan.store) ∨
  ∃ a y j, k = steps.length + j ∧ p.run (Failing.exec fault) ⟨x, k⟩ = (.ok a, ⟨y, j⟩) ∧ Q a y

variable {s s' : Store} {ty : String} {x : Scan} {fault : Fault} {id q : Int}
  {done fields : List String} {steps rest : List Step} {effective : Bool} {k : Nat}

@[simp] theorem halfway_cons_zero {step : Step} :
    halfway (step :: steps) 0 effective = step.split effective := rfl

@[simp] theorem halfway_cons_succ {step : Step} :
    halfway (step :: steps) (k + 1) effective = halfway steps k effective := rfl

theorem halfway_append_left (h : k < steps.length) :
    halfway (steps ++ rest) k effective = halfway steps k effective := by
  rw [halfway, List.getElem?_append_left h, halfway]

theorem halfway_append_right :
    halfway (steps ++ rest) (steps.length + k) effective = halfway rest k effective := by
  rw [halfway, List.getElem?_append_right (Nat.le_add_right ..), Nat.add_sub_cancel_left, halfway]

theorem halfway_past : halfway steps (steps.length + k) effective = none := by
  rw [halfway, List.getElem?_eq_none (Nat.le_add_right ..), Option.bind_none]

theorem faces_pure {a : A} {Q : A → Scan → Prop} (h : Q a x) :
    Faces ty s fault [] (pure a) x k Q := .inr ⟨a, x, k, (Nat.zero_add k).symm, rfl, h⟩

theorem Faces.bind {p : Svc A} {f : A → Svc B} {Q : A → Scan → Prop} {Q' : B → Scan → Prop}
    (h : Faces ty s fault steps p x k Q)
    (hf : ∀ a y j, Q a y → Faces ty s fault rest (f a) y j Q') :
    Faces ty s fault (steps ++ rest) (p >>= f) x k Q' := by
  rcases h with ⟨hlt, e, y, hrun, hstop⟩ | ⟨a, y, j, rfl, hrun, hQ⟩
  · refine .inl ⟨?_, e, y, by rw [Prog.run_bind, hrun], ?_⟩
    · rw [List.length_append]
      exact Nat.lt_add_right _ hlt
    · rwa [halfway_append_left hlt]
  · rcases hf a y j hQ with ⟨hlt, e, z, hrun', hstop⟩ | ⟨b, z, i, rfl, hrun', hQ'⟩
    · refine .inl ⟨?_, e, z, by rw [Prog.run_bind, hrun]; exact hrun', ?_⟩
      · rw [List.length_append]
        exact Nat.add_lt_add_left hlt _
      · rwa [halfway_append_right]
    · refine .inr ⟨b, z, i, ?_, by rw [Prog.run_bind, hrun]; exact hrun', hQ'⟩
      rw [List.length_append, Nat.add_assoc]

theorem store_failed (c : Call) : (Failing.exec fault c ⟨x, 0⟩).2.scan.store =
    if fault.effective then (Scan.exec c x).2.store else x.store := by
  simp only [Failing.exec, apply_ite Failing.scan, apply_ite Scan.store]

section

variable (hq : x.store.pg.Quiet) (hk : Keyed x.store) (hs : (row x.store id).isSome = true) (n : Int)
include hq hk hs

theorem counted_moved : (updateReadCount ty id n).run (Failing.exec fault) ⟨x, k + 2⟩ = (.ok (),
    ⟨{ x with store := addPending ty (bump x.store n id) (toString id) (-n) }, k⟩) := by
  have hupdate : (query (.addReadCount n id)).run (Failing.exec fault) ⟨x, k + 2⟩ =
      (.ok 1, ⟨{ x with store := bump x.store n id }, k + 1⟩) := by
    rw [query, await, Prog.run_op]
    simp only [Failing.exec, scan_addReadCount hq hk, hs]
    rfl
  rw [updateReadCount, Prog.run_bind, hupdate]
  rfl

theorem repay_fails : ∃ e y, (updateReadCount ty id n).run (Failing.exec fault) ⟨x, 1⟩ =
    (.error e, y) ∧ y.scan.store = if fault.effective then
      addPending ty (bump x.store n id) (toString id) (-n) else bump x.store n id := by
  have hupdate : (query (.addReadCount n id)).run (Failing.exec fault) ⟨x, 1⟩ =
      (.ok 1, ⟨{ x with store := bump x.store n id }, 0⟩) := by
    rw [query, await, Prog.run_op]
    simp only [Failing.exec, scan_addReadCount hq hk, hs]
    rfl
  rw [updateReadCount, Prog.run_bind, hupdate]
  exact ⟨.redis fault.msg, _, rfl, store_failed _⟩

omit hs in
theorem update_fails (ty : String) : ∃ e y, (updateReadCount ty id n).run (Failing.exec fault) ⟨x, 0⟩ =
    (.error e, y) ∧ y.scan.store = if fault.effective then bump x.store n id else x.store := by
  have hstore : (Failing.exec fault (.sql (.addReadCount n id)) ⟨x, 0⟩).2.scan.store =
      if fault.effective then bump x.store n id else x.store := by
    rw [store_failed, scan_addReadCount hq hk]
  exact ⟨.sqlx (.other fault.msg), _, rfl, hstore⟩

end

theorem redisFields_addPending {f : String} {d : Int} : redisFields ty (addPending ty s f d) =
    (Store.hincr (s.hashes (getHashKey ty)) f d).map Prod.fst :=
  congrArg (List.map Prod.fst) (Function.update_self ..)

theorem Carried.snoc (h : Carried ty s s' done) (hfit : fitsI64 id = true)
    (hmem : toString id ∈ redisFields ty s) (hid : toString id ∉ done) :
    Carried ty s (addPending ty (bump s' (pending ty s id) id) (toString id) (-pending ty s id))
      (done ++ [toString id]) := by
  refine ⟨h.toMoved.snoc hfit hid, ?_⟩
  rw [redisFields_addPending, bump_hashes]
  rcases map_fst_hincr (s'.hashes (getHashKey ty)) (toString id) (-pending ty s id) with
    hsame | ⟨hnew, -⟩
  · rw [hsame]
    exact h.fields
  · exact absurd (h.fields.symm ▸ hmem : toString id ∈ redisFields ty s') hnew

theorem faces_flushField (hk : Keyed s) (h : Carried ty s x.store done) (hfit : fitsI64 id = true)
    (hmem : toString id ∈ redisFields ty s)
    (hs : Stored s (toString id) = true) (hid : toString id ∉ done) :
    Faces ty s fault [.update (toString id), .repay (toString id)]
      (flushField ty (toString id, pending ty s id)) x k fun _ y =>
        ∃ s', y = { x with store := s' } ∧ Carried ty s s' (done ++ [toString id]) := by
  have hrow : (row x.store id).isSome = true := by rwa [h.isSome, ← stored_toString]
  have hdone := h.snoc hfit hmem hid
  have stopped {y : Failing} {e : Err} (hrun : (updateReadCount ty id (pending ty s id)).run
      (Failing.exec fault) ⟨x, k⟩ = (.error e, y)) : ∃ e,
      (flushField ty (toString id, pending ty s id)).run (Failing.exec fault) ⟨x, k⟩ =
        (.error e, y) := by
    simp only [flushField, parseI64_toString hfit, Prog.run_bind, Prog.run_attempt, hrun]
    exact ⟨_, rfl⟩
  rcases k with _ | _ | k
  · obtain ⟨e, y, hrun, hy⟩ := update_fails h.quiet (h.keyed hk) (pending ty s id) ty
    obtain ⟨e, hfield⟩ := stopped hrun
    refine .inl ⟨Nat.two_pos, e, y, hfield, ?_⟩
    rw [hy, halfway_cons_zero, Step.split]
    split
    next => exact .half h hid hs
    next => exact .whole h
  · obtain ⟨e, y, hrun, hy⟩ := repay_fails h.quiet (h.keyed hk) hrow (pending ty s id)
    obtain ⟨e, hfield⟩ := stopped hrun
    refine .inl ⟨Nat.one_lt_two, e, y, hfield, ?_⟩
    rw [hy, halfway_cons_succ, halfway_cons_zero, Step.split]
    split
    next => exact .whole hdone
    next => exact .half h hid hs
  · refine .inr ⟨(), _, k, Nat.add_comm k 2, ?_, _, rfl, hdone⟩
    simp only [flushField, parseI64_toString hfit, Prog.run_bind, Prog.run_attempt,
      counted_moved h.quiet (h.keyed hk) hrow]
    rfl

theorem faces_forM (hk : Keyed s) (h : Carried ty s x.store done)
    (hc : Counted ty s) (hsub : fields ⊆ redisFields ty s)
    (hall : ∀ f ∈ fields, Stored s f = true) (hnd : (done ++ fields).Nodup) :
    Faces ty s fault (fieldSteps fields)
      ((counts s (getHashKey ty) fields).forM (flushField ty)) x k fun _ y =>
        ∃ s', y = { x with store := s' } ∧ Carried ty s s' (done ++ fields) := by
  induction fields generalizing x done k with
  | nil => exact faces_pure ⟨x.store, rfl, by rwa [List.append_nil]⟩
  | cons f fields ih =>
    obtain ⟨hmem, hrest⟩ := List.cons_subset.mp hsub
    obtain ⟨id, hfit, rfl⟩ := hc.ids f hmem
    have hid : toString id ∉ done := fun hm =>
      (List.nodup_append.mp hnd).2.2 _ hm _ List.mem_cons_self rfl
    refine (faces_flushField hk h hfit hmem (hall _ List.mem_cons_self) hid).bind ?_
    rintro - y j ⟨t, rfl, hmoved⟩
    rw [← List.singleton_append, ← List.append_assoc] at hnd ⊢
    exact ih hmoved hrest (fun f hf => hall f (List.mem_cons_of_mem _ hf)) hnd

theorem faces_reidsCmd {x' : Scan} (page : UInt64 × List String) (cursor count : UInt64)
    (pattern : String) (hk : Keyed s) (h : Carried ty s x.store done)
    (hscan : Scan.exec (.hscan (getHashKey ty) cursor pattern count) x =
      (.ok (page.1, counts x.store (getHashKey ty) page.2), x')) (hx' : x'.store = x.store)
    (hc : Counted ty s) (hsub : page.2 ⊆ redisFields ty s)
    (hall : ∀ f ∈ page.2, Stored s f = true) (hnd : (done ++ page.2).Nodup) :
    Faces ty s fault (pageSteps page.2) (reidsCmd ty cursor pattern count) x k fun next y =>
      next = page.1 ∧ ∃ s', y = { x' with store := s' } ∧ Carried ty s s' (done ++ page.2) := by
  have hnew : ∀ f ∈ page.2, f ∉ done := fun f hf hd =>
    (List.nodup_append.mp hnd).2.2 _ hd _ hf rfl
  rw [counts_eq h.toMoved (fun f hf => hc.ids f (hsub hf)) hnew] at hscan
  have hcall : Faces ty s fault [.scan] (await (.hscan (getHashKey ty) cursor pattern count)) x k
      fun r y => r = (page.1, counts s (getHashKey ty) page.2) ∧ y = x' := by
    cases k with
    | zero =>
      have hstore : (Failing.exec fault (.hscan (getHashKey ty) cursor pattern count)
          ⟨x, 0⟩).2.scan.store = x.store := by
        rw [store_failed, hscan, hx', ite_self]
      exact .inl ⟨Nat.one_pos, .redis fault.msg, _, rfl, hstore ▸ .whole h⟩
    | succ k =>
      refine .inr ⟨_, x', k, Nat.add_comm .., ?_, rfl, rfl⟩
      rw [await, Prog.run_op]
      simp only [Failing.exec, hscan]
  change Faces ty s fault ([.scan] ++ fieldSteps page.2) _ _ _ _
  refine hcall.bind ?_
  rintro - y j ⟨rfl, rfl⟩
  rw [← List.append_nil (fieldSteps page.2)]
  exact (faces_forM hk (hx' ▸ h) hc hsub hall hnd).bind fun _ z i hz => faces_pure ⟨rfl, hz⟩

theorem faces_handlerRedisTopg {early : List ({ cursor : UInt64 // cursor ≠ 0 } × List String)}
    {last : List String} {rounds : Nat} (hrounds : early.length < rounds) (cursor : UInt64)
    (hk : Keyed s) (h : Carried ty s s' done)
    (hc : Counted ty s) (hsub : early.flatMap (·.2) ++ last ⊆ redisFields ty s)
    (hall : ∀ f ∈ early.flatMap (·.2) ++ last, Stored s f = true)
    (hnd : (done ++ (early.flatMap (·.2) ++ last)).Nodup) :
    Faces ty s fault (early.flatMap (fun page => pageSteps page.2) ++ pageSteps last)
      (handlerRedisTopg ty rounds cursor) ⟨s', early, last⟩ k fun _ y =>
        Carried ty s y.store (done ++ (early.flatMap (·.2) ++ last)) := by
  induction early generalizing s' done rounds cursor k with
  | nil =>
    obtain ⟨rounds, rfl⟩ : ∃ m, rounds = m + 1 := ⟨rounds - 1, by simp at hrounds; omega⟩
    have hpage : Faces ty s fault (pageSteps last) (reidsCmd ty cursor "*" 500) ⟨s', [], last⟩ k _ :=
      faces_reidsCmd (0, last) cursor 500 "*" hk h rfl rfl hc hsub hall hnd
    rw [List.flatMap_nil, List.nil_append, ← List.append_nil (pageSteps last)]
    refine hpage.bind ?_
    rintro - y j ⟨rfl, t, rfl, hmoved⟩
    exact faces_pure hmoved
  | cons page early ih =>
    obtain ⟨rounds, rfl⟩ : ∃ m, rounds = m + 1 := ⟨rounds - 1, by simp at hrounds; omega⟩
    simp only [List.flatMap_cons, List.append_assoc] at hsub hall hnd ⊢
    rw [← List.append_assoc] at hnd
    have hpage : Faces ty s fault (pageSteps page.2) (reidsCmd ty cursor "*" 500)
        ⟨s', page :: early, last⟩ k _ :=
      faces_reidsCmd (page.1.val, page.2) cursor 500 "*" hk h rfl rfl hc (List.append_subset.mp hsub).1
        (fun f hf => hall f (List.mem_append_left _ hf)) (List.nodup_append.mp hnd).1
    refine hpage.bind ?_
    rintro - y j ⟨rfl, t, rfl, hmoved⟩
    simp only [if_neg page.1.property, ← List.append_assoc done]
    exact ih (by simpa using hrounds) _ hmoved (List.append_subset.mp hsub).2
      (fun f hf => hall f (List.mem_append_right _ hf)) hnd

def Named (ty : String) (s : Store) : Prop := ∀ f ∈ redisFields ty s, Stored s f = true

def Accounted (ty : String) (s s' : Store) : Prop := ∀ q r, row s q = some r →
  ∃ r', row s' q = some r' ∧ r'.readCount + pending ty s' q = r.readCount + pending ty s q

theorem failedFlush_stopped (h : Good ty s) (hn : Named ty s) {p : Paging} (hp : p.Covers ty s)
    {rounds : Nat} (hrounds : p.early.length < rounds) :
    Stopped ty s (halfway (flushSteps p) fault.before fault.effective)
      (failedFlush ty rounds p fault s).2.scan.store := by
  have hfaces : Faces ty s fault (flushSteps p) (handlerRedisTopg ty rounds 0) ⟨s, p.early, p.last⟩
      fault.before fun _ y => Carried ty s y.store ([] ++ p.fields) :=
    faces_handlerRedisTopg hrounds 0 h.table.keyed ⟨.refl h.table.quiet h.counted, rfl⟩ h.counted
      hp.subset (fun f hf => hn f (hp.subset hf)) (hp.nodup_iff.mpr h.counted.nodup)
  rw [failedFlush, handler, Prog.run_bind]
  rcases hfaces with ⟨-, e, y, hrun, hstop⟩ | ⟨a, y, j, hk, hrun, hmoved⟩
  · rw [hrun]
    exact hstop
  · rw [hrun, hk, halfway_past]
    exact .whole hmoved

theorem Carried.accounted (h : Carried ty s s' done) (q : Int) {r : QuestionRow}
    (hr : row s q = some r) : ∃ r', row s' q = some r' ∧
      r'.readCount + pending ty s' q = r.readCount + pending ty s q := by
  refine ⟨_, by rw [h.rows, hr]; rfl, ?_⟩
  rw [h.pending]
  by_cases hq : toString q ∈ done
  · simp only [if_pos hq, Int.add_zero]
  · simp only [if_neg hq, Int.add_zero]

theorem accounted_iff {half : Option String} (h : Stopped ty s half s') :
    Accounted ty s s' ↔ ∀ f ∈ half, Store.hget (s.hashes (getHashKey ty)) f = 0 := by
  cases h with
  | whole h => exact iff_of_true (fun q _ hr => h.accounted q hr) nofun
  | @half t _ id h _ hs =>
    have hgap (q : Int) {r : QuestionRow} (hr : row s q = some r) :
        ∃ r', row (bump t (pending ty s id) id) q = some r' ∧
          r'.readCount + pending ty (bump t (pending ty s id) id) q =
            r.readCount + pending ty s q + if q = id then pending ty s id else 0 := by
      obtain ⟨r', hr', hsum⟩ := h.accounted q hr
      refine ⟨_, by rw [row_bump, hr']; rfl, ?_⟩
      rw [pending_bump]
      split <;> simp only <;> omega
    constructor
    · intro hacc f hf
      cases hf
      obtain ⟨r, hr⟩ := Option.isSome_iff_exists.mp (stored_toString.symm.trans hs)
      obtain ⟨r₁, hr₁, hsum₁⟩ := hacc id r hr
      obtain ⟨r₂, hr₂, hsum₂⟩ := hgap id hr
      rw [if_pos rfl] at hsum₂
      cases hr₁.symm.trans hr₂
      change pending ty s id = 0
      omega
    · intro hzero q r hr
      have hzero : pending ty s id = 0 := hzero _ rfl
      obtain ⟨r', hr', hsum⟩ := hgap q hr
      rw [hzero, ite_self, Int.add_zero] at hsum
      exact ⟨r', hzero ▸ hr', hzero ▸ hsum⟩

/-- The rows have what they had, what was pending and the reads since then. -/
def Recovered (ty : String) (s : Store) (reads : List UInt64) (s' : Store) : Prop :=
  ∀ q r, row s q = some r → ∃ r', row s' q = some r' ∧
    r'.readCount = r.readCount + pending ty s q + reads.countP fun id => (id.toNat : Int) = q

structure Read (ty : String) (s : Store) (reads : List UInt64) (s' : Store) : Prop where
  good : Good ty s'
  named : Named ty s'
  rows : ∀ q, row s' q = row s q
  pending : ∀ q, Reads.pending ty s' q =
    Reads.pending ty s q + reads.countP fun id => (id.toNat : Int) = q

theorem Read.cons {id : UInt64} {reads : List UInt64} (h : Read ty (next ty s (.incr id)) reads s') :
    Read ty s (id :: reads) s' := by
  refine ⟨h.good, h.named, h.rows, fun q => ?_⟩
  have hone : Reads.pending ty (next ty s (.incr id)) q =
      Reads.pending ty s q + if toString q = toString id then 1 else 0 := pending_addPending
  have hfield : toString q = toString id ↔ (id.toNat : Int) = q := by
    rw [toString_uInt64]
    exact ⟨fun h => (toString_injective h).symm, fun h => h ▸ rfl⟩
  rw [h.pending, hone, List.countP_cons]
  simp only [hfield, decide_eq_true_eq]
  split <;> omega

theorem Named.incr (hn : Named ty s) {id : UInt64} (hs : Stored s (toString id) = true) :
    Named ty (next ty s (.incr id)) := by
  intro f hf
  have hf : f ∈ (Store.hincr (s.hashes (getHashKey ty)) (toString id) 1).map Prod.fst :=
    redisFields_addPending (s := s) ▸ hf
  rcases map_fst_hincr (s.hashes (getHashKey ty)) (toString id) 1 with hsame | ⟨-, hmore⟩
  · rw [hsame] at hf
    exact hn f hf
  · rw [hmore, List.mem_append, List.mem_singleton] at hf
    exact hf.elim (hn f) fun he => he ▸ hs

theorem read_incr (hg : Good ty s) (hn : Named ty s) {reads : List UInt64}
    (hreads : ∀ id ∈ reads, Stored s (toString id) = true) :
    Read ty s reads (Runs.after (next ty) s (reads.map .incr)) := by
  induction reads generalizing s with
  | nil => exact ⟨hg, hn, fun _ => rfl, fun _ => (Int.add_zero _).symm⟩
  | cons id reads ih =>
    have hs := hreads id List.mem_cons_self
    exact .cons (ih (hg.incr hs) (hn.incr hs)
      fun i hi => hreads i (List.mem_cons_of_mem _ hi))

theorem Stopped.isSome {half : Option String} (h : Stopped ty s half s') (q : Int) :
    (row s' q).isSome = (row s q).isSome := by
  cases h with
  | whole h => exact h.isSome q
  | half h => rw [row_bump, Option.isSome_map, h.isSome]

theorem Stopped.ready {half : Option String} (hg : Good ty s) (hn : Named ty s)
    (h : Stopped ty s half s') :
    s'.pg.Quiet ∧ Keyed s' ∧ Counted ty s' ∧ Named ty s' := by
  have hstored (f : String) (hf : f ∈ redisFields ty s) : Stored s' f = true := by
    obtain ⟨id, -, rfl⟩ := hg.counted.ids f hf
    rw [stored_toString, h.isSome, ← stored_toString]
    exact hn _ hf
  cases h with
  | whole h =>
    exact ⟨h.quiet, h.keyed hg.table.keyed, h.counted, fun f hf => hstored f (h.fields ▸ hf)⟩
  | half h =>
    refine ⟨quiet_bump h.quiet, keyed_bump (h.keyed hg.table.keyed),
      h.counted.of_hashes bump_hashes, fun f hf => hstored f ?_⟩
    rw [redisFields, bump_hashes] at hf
    exact h.fields ▸ hf

/-- After a flush that failed and one that did not, the rows have all reads exactly when the failing
call did not come between the two updates of a field with pending reads. -/
theorem retry_exact (hg : Good ty s) (hn : Named ty s) {reads : List UInt64}
    (hreads : ∀ id ∈ reads, Stored s (toString id) = true) (fault : Fault) {p p' : Paging}
    {rounds rounds' : Nat} (hrounds : p.early.length < rounds)
    (hrounds' : p'.early.length < rounds') :
    let t := Runs.after (next ty) s (reads.map .incr)
    let t' := (failedFlush ty rounds p fault t).2.scan.store
    p.Covers ty t → p'.Covers ty t' →
      (Recovered ty s reads (flush ty rounds' p' t').2.store ↔ Harmless ty t p fault) := by
  intro t t' hp hp'
  have hread : Read ty s reads t := read_incr hg hn hreads
  have hstop : Stopped ty t _ t' := failedFlush_stopped hread.good hread.named hp hrounds
  obtain ⟨hq, hk, hc, hn'⟩ := hstop.ready hread.good hread.named
  have hclear : Clear ty t' p'.fields := by
    intro f hf _
    rw [List.dropWhile_eq_nil_iff.mpr fun f hf => hn' f (hp'.subset hf)] at hf
    exact absurd hf List.not_mem_nil
  have htransferred : Transferred ty t' (flush ty rounds' p' t').2.store :=
    (transferred_iff hq hk hc hp' hrounds').mpr hclear
  rw [Harmless, ← accounted_iff hstop]
  constructor
  · intro h q r hr
    obtain ⟨r₂, hr₂, hcount⟩ := h q r (hread.rows q ▸ hr)
    obtain ⟨r₁, hr₁⟩ := Option.isSome_iff_exists.mp ((hstop.isSome q).trans (hr ▸ rfl))
    obtain ⟨r₃, hr₃, hmoved⟩ := htransferred q r₁ hr₁
    cases hr₂.symm.trans hr₃
    exact ⟨r₁, hr₁, by rw [hread.pending]; omega⟩
  · intro h q r hr
    obtain ⟨r₁, hr₁, hsum⟩ := h q r ((hread.rows q).trans hr)
    obtain ⟨r₂, hr₂, hmoved⟩ := htransferred q r₁ hr₁
    exact ⟨r₂, hr₂, by rw [hread.pending] at hsum; omega⟩

def unread : Store :=
  next "question" (.empty 1 0 fun _ => 0) (.add { title := "a", createdBy := "alice" })

theorem good_unread : Good "question" unread := good_empty.add _

theorem stored_unread : ∀ id ∈ ([1, 1] : List UInt64), Stored unread (toString id) = true :=
  List.forall_mem_cons.mpr ⟨by decide, List.forall_mem_singleton.mpr (by decide)⟩

/-- The count is taken from Redis, and only the reply gets lost. -/
theorem retry_exact_lostReply :
    let t := Runs.after (next "question") unread [.incr 1, .incr 1]
    let t' := (failedFlush "question" 1 ⟨[], ["1"]⟩ ⟨2, true, "broken pipe"⟩ t).2.scan.store
    Recovered "question" unread [1, 1] (flush "question" 1 ⟨[], ["1"]⟩ t').2.store :=
  (retry_exact good_unread nofun stored_unread ⟨2, true, "broken pipe"⟩ (by decide) (by decide)
    (by decide) (by decide)).mpr nofun

/-- The count is in the row, and Redis cannot be reached to take it out of the hash. -/
theorem failedRepay_doubles :
    let t := Runs.after (next "question") unread [.incr 1, .incr 1]
    let t' := (failedFlush "question" 1 ⟨[], ["1"]⟩ ⟨2, false, "broken pipe"⟩ t).2.scan.store
    let t'' := (flush "question" 1 ⟨[], ["1"]⟩ t').2.store
    (row t'' 1).map QuestionRow.readCount = some 4 ∧ ¬ Recovered "question" unread [1, 1] t'' := by
  intro t t' t''
  have hcount : (row t'' 1).map QuestionRow.readCount = some 4 := by decide
  refine ⟨hcount, fun h => ?_⟩
  obtain ⟨r, hr⟩ : ∃ r, row unread 1 = some r := ⟨_, rfl⟩
  obtain ⟨r', hr', hcount'⟩ := h 1 r hr
  rw [hr', Option.map_some, hcount', Option.some.injEq] at hcount
  cases hr
  exact absurd hcount (by decide)

end QaSys.Retry
