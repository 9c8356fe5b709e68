import QaSys.Program.Runs
import QaSys.Reads.Counts
import Mathlib.Data.List.TakeWhile

/-! What one flush moves from Redis to the rows, when nothing else runs and no store fails. -/

namespace QaSys.Isolation

open Question Reads

/-- The order in which the HSCANs of one flush return the fields of the hash, page by page.  Every
cursor but the last is not 0. -/
structure Paging where
  early : List ({ cursor : UInt64 // cursor ≠ 0 } × List String)
  last : List String

def Paging.fields (p : Paging) : List String := p.early.flatMap (·.2) ++ p.last

structure Scan where
  store : Store
  early : List ({ cursor : UInt64 // cursor ≠ 0 } × List String)
  last : List String

/-- A page holds the counts its fields have at the moment of the HSCAN. -/
def counts (s : Store) (key : String) (fields : List String) : List (String × Int) :=
  fields.map fun f => (f, Store.hget (s.hashes key) f)

def Scan.exec : (c : Call) → Scan → Except Err c.Reply × Scan
  | .hscan key cursor pattern count, x => match x.early with
    | page :: early =>
      let ch := .page page.1 (counts x.store key page.2)
      let r := Store.serve ch (.hscan key cursor pattern count) x.store
      (r.1, { x with store := r.2, early := early })
    | [] =>
      let ch := .page 0 (counts x.store key x.last)
      let r := Store.serve ch (.hscan key cursor pattern count) x.store
      (r.1, { x with store := r.2 })
  | c, x =>
    let r := Store.serve .serve c x.store
    (r.1, { x with store := r.2 })

def flush (ty : String) (rounds : Nat) (p : Paging) (s : Store) : Except Err Unit × Scan :=
  (handler rounds ty).run Scan.exec ⟨s, p.early, p.last⟩

def Stored (s : Store) (f : String) : Bool := s.db.questions.any fun r => toString r.id = f

/-- In the scan order no field of a stored question with pending reads comes after a field whose
question is deleted. -/
def Clear (ty : String) (s : Store) (fields : List String) : Prop :=
  ∀ f ∈ fields.dropWhile (Stored s), Stored s f → Store.hget (s.hashes (getHashKey ty)) f = 0

def Transferred (ty : String) (s s' : Store) : Prop :=
  ∀ q r, row s q = some r →
    ∃ r', row s' q = some r' ∧ r'.readCount = r.readCount + pending ty s q

/-- The hash is made of increments of questions that had ids of PostgreSQL. -/
structure Counted (ty : String) (s : Store) : Prop where
  nodup : ((s.hashes (getHashKey ty)).map Prod.fst).Nodup
  ids : ∀ f ∈ (s.hashes (getHashKey ty)).map Prod.fst, ∃ id, fitsI64 id = true ∧ f = toString id

/-- `s'` is `s` after the counts of the fields `done` have been moved. -/
structure Moved (ty : String) (s s' : Store) (done : List String) : Prop where
  quiet : s'.pg.Quiet
  ids : s'.db.questions.map QuestionRow.id = s.db.questions.map QuestionRow.id
  seq : s'.seq = s.seq
  counted : Counted ty s'
  rows : ∀ q, row s' q = (row s q).map fun r =>
    { r with readCount := r.readCount + if toString q ∈ done then pending ty s q else 0 }
  pending : ∀ q, Reads.pending ty s' q = if toString q ∈ done then 0 else Reads.pending ty s q

variable {s s' : Store} {ty : String} {x : Scan} {n id q : Int} {done : List String}

theorem stored_toString : Stored s (toString q) = (row s q).isSome := by
  rw [Bool.eq_iff_iff, row, rowAt_isSome]
  simp only [Stored, List.any_eq_true, decide_eq_true_eq]
  exact exists_congr fun r => and_congr_right fun _ => ⟨fun h => toString_injective h, congrArg _⟩

theorem Moved.refl (hq : s.pg.Quiet) (hc : Counted ty s) : Moved ty s s [] := by
  refine ⟨hq, rfl, rfl, hc, fun q => ?_, fun q => ?_⟩
  · cases row s q <;> simp
  · simp

theorem Moved.isSome (h : Moved ty s s' done) (q : Int) :
    (row s' q).isSome = (row s q).isSome := by
  rw [h.rows, Option.isSome_map]

theorem Moved.keyed (h : Moved ty s s' done) (hk : Keyed s) : Keyed s' := by
  rw [Keyed, h.ids]
  exact hk

theorem Counted.of_hashes (h : Counted ty s) (hs : s'.hashes = s.hashes) : Counted ty s' := by
  refine ⟨?_, ?_⟩ <;> rw [hs]
  · exact h.nodup
  · exact h.ids

theorem map_fst_hincr (fields : List (String × Int)) (f : String) (d : Int) :
    (Store.hincr fields f d).map Prod.fst = fields.map Prod.fst ∨
    f ∉ fields.map Prod.fst ∧ (Store.hincr fields f d).map Prod.fst = fields.map Prod.fst ++ [f] := by
  unfold Store.hincr
  split
  next =>
    refine .inl ?_
    rw [List.map_map]
    refine List.map_congr_left fun p _ => ?_
    by_cases h : p.1 = f <;> simp [h]
  next h =>
    refine .inr ⟨fun hm => h ?_, by rw [List.map_append]; rfl⟩
    obtain ⟨p, hp, hpf⟩ := List.mem_map.mp hm
    exact List.any_eq_true.mpr ⟨p, hp, decide_eq_true hpf⟩

theorem Counted.addPending (h : Counted ty s) {d : Int} (hfit : fitsI64 id = true) :
    Counted ty (addPending ty s (toString id) d) := by
  have hhash : (Reads.addPending ty s (toString id) d).hashes (getHashKey ty) =
      Store.hincr (s.hashes (getHashKey ty)) (toString id) d := Function.update_self ..
  rcases map_fst_hincr (s.hashes (getHashKey ty)) (toString id) d with hsame | ⟨hnew, hmore⟩
  · refine ⟨?_, ?_⟩ <;> rw [hhash, hsame]
    · exact h.nodup
    · exact h.ids
  · refine ⟨?_, ?_⟩ <;> rw [hhash, hmore]
    · exact h.nodup.append (List.nodup_singleton _) (List.disjoint_singleton.mpr hnew)
    · intro f hf
      rcases List.mem_append.mp hf with hf | hf
      · exact h.ids f hf
      · exact ⟨id, hfit, List.mem_singleton.mp hf⟩

theorem Moved.snoc (h : Moved ty s s' done) (hfit : fitsI64 id = true)
    (hid : toString id ∉ done) :
    Moved ty s (addPending ty (bump s' (Reads.pending ty s id) id) (toString id)
      (-Reads.pending ty s id)) (done ++ [toString id]) := by
  have hmem (q : Int) : toString q ∈ done ++ [toString id] ↔ toString q ∈ done ∨ q = id := by
    simp only [List.mem_append, List.mem_singleton]
    exact or_congr_right ⟨fun h => toString_injective h, fun h => h ▸ rfl⟩
  refine ⟨quiet_bump h.quiet, bump_ids.trans h.ids, bump_seq.trans h.seq, ?_, fun q => ?_,
    fun q => ?_⟩
  · exact (h.counted.of_hashes bump_hashes).addPending hfit
  · change row (bump s' (Reads.pending ty s id) id) q = _
    rw [row_bump, h.rows]
    cases row s q with
    | none => rfl
    | some r =>
      simp only [Option.map_some, hmem]
      by_cases hq : q = id
      · subst hq
        rw [if_pos rfl, if_neg hid, if_pos (.inr rfl), Int.add_zero]
      · simp only [hq, if_false, or_false]
  · rw [pending_addPending, pending_bump, h.pending]
    simp only [hmem]
    by_cases hq : q = id
    · subst hq
      rw [if_neg hid, if_pos rfl, if_pos (.inr rfl), Int.add_right_neg]
    · have hne : toString q ≠ toString id := fun h => hq (toString_injective h)
      simp only [hq, if_neg hne, or_false, Int.add_zero]

theorem scan_addReadCount (hq : x.store.pg.Quiet) (hk : Keyed x.store) :
    Scan.exec (.sql (.addReadCount n id)) x =
      (.ok (if (row x.store id).isSome then 1 else 0),
        { x with store := bump x.store n id }) := by
  simp only [Scan.exec, Store.serve, exec_addReadCount hq hk 0 (by decide : ¬ Choice.serve.Faulty),
    Option.getD_some]

theorem run_flushField_stored (ty : String) (n : Int) (hq : x.store.pg.Quiet) (hk : Keyed x.store)
    (hfit : fitsI64 id = true) (hs : (row x.store id).isSome = true) :
    (flushField ty (toString id, n)).run Scan.exec x = (.ok (), { x with
      store := addPending ty (bump x.store n id) (toString id) (-n) }) := by
  have hupdate : (query (.addReadCount n id)).run Scan.exec x =
      (.ok 1, { x with store := bump x.store n id }) := by
    rw [query, await, Prog.run_op, scan_addReadCount hq hk, hs]
    rfl
  have hcount : (updateReadCount ty id n).run Scan.exec x = (.ok (), { x with
      store := addPending ty (bump x.store n id) (toString id) (-n) }) := by
    rw [updateReadCount, Prog.run_bind, hupdate]
    rfl
  simp only [flushField, parseI64_toString hfit, Prog.run_bind, Prog.run_attempt, hcount]
  rfl

theorem run_flushField_gone (ty : String) (n : Int) (hq : x.store.pg.Quiet) (hk : Keyed x.store)
    (hfit : fitsI64 id = true) (hs : (row x.store id).isSome = false) :
    ∃ e, (flushField ty (toString id, n)).run Scan.exec x = (.error e, x) := by
  have hupdate : (query (.addReadCount n id)).run Scan.exec x = (.ok 0, x) := by
    have hnone : row x.store id = none := by simpa using hs
    rw [query, await, Prog.run_op, scan_addReadCount hq hk, hs, bump, hnone]
    rfl
  have hcount : ∃ e, (updateReadCount ty id n).run Scan.exec x = (.error e, x) := by
    rw [updateReadCount, Prog.run_bind, hupdate]
    exact ⟨_, rfl⟩
  obtain ⟨e, hcount⟩ := hcount
  simp only [flushField, parseI64_toString hfit, Prog.run_bind, Prog.run_attempt, hcount]
  exact ⟨_, rfl⟩

theorem run_forM_flushField (hk : Keyed s) (h : Moved ty s x.store done) {fields : List String}
    (hids : ∀ f ∈ fields, ∃ id, fitsI64 id = true ∧ f = toString id)
    (hnd : (done ++ fields).Nodup) :
    ∃ s' r, ((counts s (getHashKey ty) fields).forM (flushField ty)).run Scan.exec x =
        (r, { x with store := s' }) ∧
      Moved ty s s' (done ++ fields.takeWhile (Stored s)) ∧
      (r.isOk = true ↔ fields.all (Stored s) = true) := by
  induction fields generalizing x done with
  | nil => exact ⟨x.store, .ok (), rfl, by simpa using h, by simp [Except.isOk, Except.toBool]⟩
  | cons f fields ih =>
    obtain ⟨id, hfit, rfl⟩ := hids _ List.mem_cons_self
    have hid : toString id ∉ done := fun hm =>
      (List.nodup_append.mp hnd).2.2 _ hm _ List.mem_cons_self rfl
    have hsame : (row x.store id).isSome = Stored s (toString id) := by
      rw [h.isSome, stored_toString]
    have hcons : ((counts s (getHashKey ty) (toString id :: fields)).forM (flushField ty)).run
        Scan.exec x = (flushField ty (toString id, pending ty s id) >>= fun _ =>
          (counts s (getHashKey ty) fields).forM (flushField ty)).run Scan.exec x := rfl
    cases hs : Stored s (toString id) with
    | true =>
      have hrun := run_flushField_stored ty (pending ty s id) h.quiet (h.keyed hk) hfit
        (hsame.trans hs)
      have hnd' : ((done ++ [toString id]) ++ fields).Nodup := by
        rwa [List.append_assoc, List.singleton_append]
      obtain ⟨s', r, hrest, hmoved, hok⟩ := ih (x := { x with store := _ }) (h.snoc hfit hid)
        (fun f hf => hids f (List.mem_cons_of_mem _ hf)) hnd'
      refine ⟨s', r, ?_, ?_, ?_⟩
      · rw [hcons, Prog.run_bind, hrun]
        exact hrest
      · rwa [List.takeWhile_cons_of_pos hs, ← List.singleton_append, ← List.append_assoc]
      · rw [hok, List.all_cons, hs, Bool.true_and]
    | false =>
      obtain ⟨e, hrun⟩ := run_flushField_gone ty (pending ty s id) h.quiet (h.keyed hk) hfit
        (hsame.trans hs)
      refine ⟨x.store, .error e, ?_, ?_, ?_⟩
      · rw [hcons, Prog.run_bind, hrun]
      · rwa [List.takeWhile_cons_of_neg (by rw [hs]; exact Bool.false_ne_true), List.append_nil]
      · rw [List.all_cons, hs, Bool.false_and]
        exact ⟨nofun, nofun⟩

theorem counts_eq (h : Moved ty s x.store done) {fields : List String}
    (hids : ∀ f ∈ fields, ∃ id, fitsI64 id = true ∧ f = toString id)
    (hnew : ∀ f ∈ fields, f ∉ done) :
    counts x.store (getHashKey ty) fields = counts s (getHashKey ty) fields := by
  refine List.map_congr_left fun f hf => ?_
  obtain ⟨id, -, rfl⟩ := hids f hf
  have hpending : pending ty x.store id = pending ty s id := by
    rw [h.pending, if_neg (hnew _ hf)]
  exact congrArg (Prod.mk (toString id)) hpending

theorem run_page (x x' : Scan) (page : UInt64 × List String) (cursor count : UInt64)
    (pattern : String) (hk : Keyed s) (h : Moved ty s x.store done)
    (hscan : Scan.exec (.hscan (getHashKey ty) cursor pattern count) x =
      (.ok (page.1, counts x.store (getHashKey ty) page.2), x')) (hx' : x'.store = x.store)
    (hids : ∀ f ∈ page.2, ∃ id, fitsI64 id = true ∧ f = toString id)
    (hnd : (done ++ page.2).Nodup) :
    ∃ s' r, (reidsCmd ty cursor pattern count).run Scan.exec x = (r, { x' with store := s' }) ∧
      Moved ty s s' (done ++ page.2.takeWhile (Stored s)) ∧
      (if page.2.all (Stored s) then r = .ok page.1 else ∃ e, r = .error e) := by
  have hnew : ∀ f ∈ page.2, f ∉ done := fun f hf hd =>
    (List.nodup_append.mp hnd).2.2 _ hd _ hf rfl
  rw [counts_eq h hids hnew] at hscan
  rw [← hx'] at h
  obtain ⟨s', r, hrun, hmoved, hok⟩ := run_forM_flushField hk h hids hnd
  have hcmd : (reidsCmd ty cursor pattern count).run Scan.exec x =
      (r.map fun _ => page.1, { x' with store := s' }) := by
    rw [reidsCmd, Prog.run_bind, await, Prog.run_op, hscan]
    simp only [Prog.run_bind, hrun]
    cases r <;> rfl
  refine ⟨s', _, hcmd, hmoved, ?_⟩
  cases r with
  | error e =>
    rw [if_neg fun hall => nomatch hok.mpr hall]
    exact ⟨e, rfl⟩
  | ok a =>
    rw [if_pos (hok.mp rfl)]
    rfl

theorem takeWhile_append_of_not_all {p : α → Bool} {as : List α} (h : as.all p = false)
    (bs : List α) : (as ++ bs).takeWhile p = as.takeWhile p := by
  induction as with
  | nil => cases h
  | cons a as ih =>
    rw [List.cons_append, List.takeWhile_cons, List.takeWhile_cons]
    split
    next ha =>
      rw [List.all_cons, ha, Bool.true_and] at h
      rw [ih h]
    next => rfl

/-- A flush moves the counts of the fields that come before the first deleted question. -/
theorem run_handlerRedisTopg {early : List ({ cursor : UInt64 // cursor ≠ 0 } × List String)}
    {last : List String} {rounds : Nat} (hrounds : early.length < rounds) (cursor : UInt64)
    (hk : Keyed s) (h : Moved ty s s' done)
    (hids : ∀ f ∈ early.flatMap (·.2) ++ last, ∃ id, fitsI64 id = true ∧ f = toString id)
    (hnd : (done ++ (early.flatMap (·.2) ++ last)).Nodup) :
    Moved ty s ((handlerRedisTopg ty rounds cursor).run Scan.exec ⟨s', early, last⟩).2.store
      (done ++ (early.flatMap (·.2) ++ last).takeWhile (Stored s)) := by
  induction early generalizing s' done rounds cursor with
  | nil =>
    obtain ⟨rounds, rfl⟩ : ∃ m, rounds = m + 1 := ⟨rounds - 1, by simp at hrounds; omega⟩
    obtain ⟨t, r, hrun, hmoved, hr⟩ :=
      run_page ⟨s', [], last⟩ _ (0, last) cursor 500 "*" hk h rfl rfl hids hnd
    rw [handlerRedisTopg, Prog.run_bind, hrun]
    cases r with
    | error e => exact hmoved
    | ok next =>
      have hnext : next = 0 := by
        split at hr
        next => exact Except.ok.inj hr
        next => obtain ⟨e, he⟩ := hr; cases he
      subst hnext
      exact hmoved
  | cons page early ih =>
    obtain ⟨rounds, rfl⟩ : ∃ m, rounds = m + 1 := ⟨rounds - 1, by simp at hrounds; omega⟩
    simp only [List.flatMap_cons, List.append_assoc] at hids hnd ⊢
    obtain ⟨t, r, hrun, hmoved, hr⟩ := run_page ⟨s', page :: early, last⟩ _
      (page.1.val, page.2) cursor 500 "*" hk h rfl rfl
      (fun f hf => hids f (List.mem_append_left _ hf))
      ((List.nodup_append.mp (List.append_assoc .. ▸ hnd)).1)
    rw [handlerRedisTopg, Prog.run_bind, hrun]
    cases hall : page.2.all (Stored s) with
    | false =>
      rw [takeWhile_append_of_not_all hall]
      simp only [hall] at hr
      obtain ⟨e, rfl⟩ := hr
      exact hmoved
    | true =>
      simp only [hall] at hr
      subst hr
      have hall' := List.all_eq_true.mp hall
      rw [List.takeWhile_append_of_pos hall', ← List.append_assoc]
      simp only [if_neg page.1.property]
      refine ih ?_ _ ?_ ?_ ?_
      · simpa using hrounds
      · rwa [List.takeWhile_eq_self_iff.mpr hall'] at hmoved
      · exact fun f hf => hids f (List.mem_append_right _ hf)
      · rwa [List.append_assoc]

def Paging.Covers (p : Paging) (ty : String) (s : Store) : Prop :=
  p.fields.Perm ((s.hashes (getHashKey ty)).map Prod.fst)

section

variable {p : Paging} {rounds : Nat} (hq : s.pg.Quiet) (hk : Keyed s) (hc : Counted ty s)
  (hp : p.Covers ty s)
include hq hk hc hp

theorem flush_moved (hrounds : p.early.length < rounds) :
    Moved ty s (flush ty rounds p s).2.store (p.fields.takeWhile (Stored s)) := by
  have hmoved := run_handlerRedisTopg hrounds 0 hk (Moved.refl hq hc)
    (fun f hf => hc.ids f (hp.mem_iff.mp hf)) (hp.nodup_iff.mpr hc.nodup)
  rw [List.nil_append] at hmoved
  rw [flush, handler, Prog.run_bind]
  revert hmoved
  cases (handlerRedisTopg ty rounds 0).run Scan.exec ⟨s, p.early, p.last⟩ with
  | mk r y => cases r <;> exact id

theorem transferred_iff (hrounds : p.early.length < rounds) :
    Transferred ty s (flush ty rounds p s).2.store ↔ Clear ty s p.fields := by
  have hmoved := flush_moved hq hk hc hp hrounds
  have hsplit : p.fields.takeWhile (Stored s) ++ p.fields.dropWhile (Stored s) = p.fields :=
    List.takeWhile_append_dropWhile
  have hnd : p.fields.Nodup := hp.nodup_iff.mpr hc.nodup
  constructor
  · intro ht f hf hs
    have hfields : f ∈ p.fields := hsplit ▸ List.mem_append_right _ hf
    obtain ⟨id, -, rfl⟩ := hc.ids f (hp.mem_iff.mp hfields)
    have hlate : toString id ∉ p.fields.takeWhile (Stored s) := fun hearly => by
      rw [← hsplit] at hnd
      exact (List.nodup_append.mp hnd).2.2 _ hearly _ hf rfl
    rw [stored_toString] at hs
    obtain ⟨r, hr⟩ := Option.isSome_iff_exists.mp hs
    obtain ⟨r', hr', hcount⟩ := ht id r hr
    rw [hmoved.rows, hr, Option.map_some, if_neg hlate] at hr'
    cases hr'
    change pending ty s id = 0
    simp only at hcount
    omega
  · intro hclear q r hr
    refine ⟨_, by rw [hmoved.rows, hr]; rfl, ?_⟩
    by_cases hearly : toString q ∈ p.fields.takeWhile (Stored s)
    · simp only [if_pos hearly]
    · have hzero : pending ty s q = 0 := by
        by_cases hfield : toString q ∈ p.fields
        · rw [← hsplit, List.mem_append] at hfield
          refine hclear _ (hfield.resolve_left hearly) ?_
          rw [stored_toString, hr]
          rfl
        · have hnone : (s.hashes (getHashKey ty)).lookup (toString q) = none := by
            rw [List.lookup_eq_none_iff]
            intro x hx
            have hne : toString q ≠ x.1 := fun he =>
              hfield (hp.mem_iff.mpr (he ▸ List.mem_map_of_mem hx))
            simpa only [bne_iff_ne] using hne
          rw [pending, Store.hget, hnone]
          rfl
      simp only [if_neg hearly, hzero]

end

inductive Event
  | add (question : QuestionEntity)
  | delete (id : UInt64) (username : String)
  | incr (targetId : UInt64)
  | flush (rounds : Nat) (order : Paging)

def next (ty : String) (s : Store) : Event → Store
  | .add question => ((Question.add question).run World.exec ⟨s, []⟩).2.state
  | .delete id username => ((Question.delete id username).run World.exec ⟨s, []⟩).2.state
  | .incr targetId => ((Question.incr targetId ty).run World.exec ⟨s, []⟩).2.state
  | .flush rounds order => (flush ty rounds order s).2.store

/-- Reads are counted of questions that exist, and a flush scans each field of the hash once. -/
def Proper (ty : String) (s : Store) : Event → Prop
  | .incr targetId => Stored s (toString targetId)
  | .flush rounds order => order.early.length < rounds ∧ order.Covers ty s
  | _ => True

instance (p : Paging) (ty : String) (s : Store) : Decidable (p.Covers ty s) :=
  inferInstanceAs (Decidable (List.Perm _ _))

instance (ty : String) (s : Store) (e : Event) : Decidable (Proper ty s e) := by
  cases e <;> unfold Proper <;> infer_instance

structure Good (ty : String) (s : Store) : Prop where
  table : QuestionTable s
  counted : Counted ty s

def Exact (ty : String) (s : Store) : Event → Prop
  | .flush rounds order =>
    Transferred ty s (next ty s (.flush rounds order)) ↔ Clear ty s order.fields
  | _ => True

theorem fitsI64_of_range {i : Int} (h0 : 0 < i) (h : i ≤ i64Max) : fitsI64 i = true := by
  simp only [i64Max] at h
  simp only [fitsI64, Bool.and_eq_true, decide_eq_true_eq]
  omega

theorem Good.add (h : Good ty s) (question : QuestionEntity) :
    Good ty (next ty s (.add question)) := by
  obtain ⟨htable, hhashes⟩ := exec_of_ensures (h.table.add_ensures question) []
  exact ⟨htable, h.counted.of_hashes hhashes⟩

theorem Good.delete (h : Good ty s) (id : UInt64) (username : String) :
    Good ty (next ty s (.delete id username)) := by
  obtain ⟨htable, hhashes⟩ := exec_of_ensures (h.table.delete_ensures id username) []
  exact ⟨htable, h.counted.of_hashes hhashes⟩

theorem Good.incr (h : Good ty s) {targetId : UInt64} (hs : Stored s (toString targetId)) :
    Good ty (next ty s (.incr targetId)) := by
  obtain ⟨r, hr, hid⟩ := List.any_eq_true.mp hs
  have hid : toString r.id = toString targetId := of_decide_eq_true hid
  have hrange := h.table.range r.id (List.mem_map_of_mem hr)
  have hcounted := h.counted.addPending (d := 1) (fitsI64_of_range hrange.1 hrange.2.2)
  rw [hid] at hcounted
  exact ⟨⟨h.table.quiet, h.table.keyed, h.table.range, h.table.nonneg⟩, hcounted⟩

theorem Good.flush (h : Good ty s) {rounds : Nat} {p : Paging} (hrounds : p.early.length < rounds)
    (hp : p.Covers ty s) : Good ty (next ty s (.flush rounds p)) := by
  have hmoved := flush_moved h.table.quiet h.table.keyed h.counted hp hrounds
  refine ⟨⟨hmoved.quiet, hmoved.keyed h.table.keyed, ?_, ?_⟩, hmoved.counted⟩
  · change ∀ i ∈ (Isolation.flush ty rounds p s).2.store.db.questions.map QuestionRow.id, 0 < i ∧
      i ≤ (Isolation.flush ty rounds p s).2.store.seq.questions ∧ i ≤ i64Max
    rw [hmoved.ids, hmoved.seq]
    exact h.table.range
  · exact hmoved.seq ▸ h.table.nonneg

theorem Good.next (h : Good ty s) (e : Event) (he : Proper ty s e) : Good ty (next ty s e) := by
  cases e with
  | add question => exact h.add question
  | delete id username => exact h.delete id username
  | incr targetId => exact h.incr he
  | flush rounds order => exact h.flush he.1 he.2

/-- In every run, each flush moves the pending reads of all stored questions exactly when no field
of a deleted question is scanned before one of theirs. -/
theorem flushes_exact (hs : Good ty s) {evs : List Event}
    (hevs : Runs.Always (next ty) (Proper ty) s evs) :
    Runs.Always (next ty) (Exact ty) s evs := by
  refine hevs.of_invariant (fun s e h he => h.next e he) (fun s e h he => ?_) hs
  cases e with
  | flush rounds order => exact transferred_iff h.table.quiet h.table.keyed h.counted he.2 he.1
  | _ => trivial

theorem good_empty {clock : Int} {supply : Nat → Uuid} : Good ty (Store.empty 1 clock supply) :=
  ⟨.empty, List.nodup_nil, nofun⟩

def oneDeleted : List Event :=
  [.add { title := "a", createdBy := "alice" }, .add { title := "b", createdBy := "bob" },
    .incr 1, .incr 2, .delete 1 "alice"]

theorem flushes_exact_oneDeleted : Runs.Always (next "question") (Exact "question")
    (Store.empty 1 0 fun _ => 0) (oneDeleted ++ [.flush 1 ⟨[], ["2", "1"]⟩]) :=
  flushes_exact good_empty (by decide)

theorem Transferred.count (h : Transferred ty s s') (hs : (row s q).isSome = true) :
    (row s' q).map QuestionRow.readCount =
      (row s q).map fun r => r.readCount + pending ty s q := by
  obtain ⟨r, hr⟩ := Option.isSome_iff_exists.mp hs
  obtain ⟨r', hr', hcount⟩ := h q r hr
  rw [hr, hr', Option.map_some, Option.map_some, hcount]

/-- With the field of the deleted question scanned first, the reads of the other one stay where
they are. -/
theorem oneDeleted_blocks :
    let s := Runs.after (next "question") (Store.empty 1 0 fun _ => 0) oneDeleted
    Runs.Always (next "question") (Proper "question") (Store.empty 1 0 fun _ => 0)
      (oneDeleted ++ [.flush 1 ⟨[], ["1", "2"]⟩]) ∧
    ¬ Transferred "question" s (next "question" s (.flush 1 ⟨[], ["1", "2"]⟩)) :=
  ⟨by decide, fun h => absurd (h.count (q := 2) (by decide)) (by decide)⟩

end QaSys.Isolation
