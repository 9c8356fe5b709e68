import QaSys.Reads.Isolation

/-! One flush of a hash whose fields all name stored questions, with the integers of the stores. -/

namespace QaSys.Exactness

open Isolation Question Reads

/-- The stores as they are: what leaves the range of 64-bit integers is refused. -/
def exec : (c : Call) → Scan → Except Err c.Reply × Scan
  | .hscan key cursor pattern count, x => match Scan.exec (.hscan key cursor pattern count) x with
    | (.ok page, x') =>
      if page.2.all (fitsI64 ·.2) then (.ok page, x')
      else (.error (.redis "Response was of incompatible type"), x')
    | r => r
  | .sql (.addReadCount n id), x =>
    if (row x.store id).all (fun r => fitsI64 (r.readCount + n)) then
      Scan.exec (.sql (.addReadCount n id)) x
    else (.error (.sqlx (.other "bigint out of range")), x)
  | .hincr key field delta, x =>
    if fitsI64 delta && fitsI64 (Store.hget (x.store.hashes key) field + delta) then
      Scan.exec (.hincr key field delta) x
    else (.error (.redis "increment or decrement would overflow"), x)
  | c, x => Scan.exec c x

def flush (ty : String) (rounds : Nat) (p : Paging) (s : Store) : Except Err Unit × Scan :=
  (handler rounds ty).run exec ⟨s, p.early, p.last⟩

/-- The hash of the pending counts has the fields of stored questions. -/
structure Ready (ty : String) (s : Store) : Prop where
  quiet : s.pg.Quiet
  keyed : Keyed s
  ids : ∀ r ∈ s.db.questions, fitsI64 r.id = true
  nodup : ((s.hashes (getHashKey ty)).map Prod.fst).Nodup
  stored : ∀ f ∈ (s.hashes (getHashKey ty)).map Prod.fst, Stored s f = true

/-- The count of a question can be read and moved within 64 bits. -/
structure Room (ty : String) (s : Store) (r : QuestionRow) : Prop where
  read : fitsI64 (pending ty s r.id) = true
  added : fitsI64 (r.readCount + pending ty s r.id) = true
  taken : fitsI64 (-pending ty s r.id) = true

def Movable (ty : String) (s : Store) (fields : List String) : Prop :=
  ∀ r ∈ s.db.questions, toString r.id ∈ fields → Room ty s r

def credited (ty : String) (s : Store) (done : List String) (r : QuestionRow) : QuestionRow :=
  { r with readCount := r.readCount + if toString r.id ∈ done then pending ty s r.id else 0 }

def cleared (done : List String) (p : String × Int) : String × Int :=
  (p.1, if p.1 ∈ done then 0 else p.2)

def moved (ty : String) (s : Store) (done : List String) : Store :=
  { s.settled { s.db with questions := s.db.questions.map (credited ty s done) } s.seq with
    hashes := Function.update s.hashes (getHashKey ty)
      ((s.hashes (getHashKey ty)).map (cleared done)) }

/-- `s` with all its pending counts added to the rows and nothing else changed. -/
def flushed (ty : String) (s : Store) : Store :=
  { s.settled { s.db with questions := s.db.questions.map fun r =>
      { r with readCount := r.readCount + pending ty s r.id } } s.seq with
    hashes := Function.update s.hashes (getHashKey ty)
      ((s.hashes (getHashKey ty)).map fun e => (e.1, 0)) }

/-- No count and no sum of the flush leaves the range of 64-bit integers. -/
def Fits (ty : String) (s : Store) : Prop :=
  Movable ty s ((s.hashes (getHashKey ty)).map Prod.fst)

/-- What a part of a flush that moves the counts of `fields` comes to. -/
def Moves (ty : String) (s : Store) (fields : List String) (p : Svc A) (x : Scan)
    (Q : A → Scan → Prop) : Prop :=
  (Movable ty s fields ∧ ∃ a y, p.run exec x = (.ok a, y) ∧ Q a y) ∨
  ¬ Movable ty s fields ∧ ∃ e y, p.run exec x = (.error e, y)

variable {s : Store} {ty : String} {x : Scan} {n id q : Int} {done fields rest : List String}
  {r : QuestionRow}

theorem movable_append :
    Movable ty s (fields ++ rest) ↔ Movable ty s fields ∧ Movable ty s rest := by
  simp only [Movable, List.mem_append, or_imp, forall_and]

theorem movable_singleton (h : Keyed s) (hr : row s id = some r) :
    Movable ty s [toString id] ↔ Room ty s r := by
  obtain ⟨hmem, hid⟩ := (rowAt_eq_some h).mp hr
  constructor
  · intro hm
    exact hm r hmem (List.mem_singleton.mpr (congrArg _ hid))
  · intro hroom r' hmem' hfield
    have hid' : r'.id = id := toString_injective (List.mem_singleton.mp hfield)
    have hr' : row s id = some r' := (rowAt_eq_some h).mpr ⟨hmem', hid'⟩
    rw [hr] at hr'
    cases hr'
    exact hroom

theorem moves_pure {a : A} {Q : A → Scan → Prop} (h : Q a x) : Moves ty s [] (pure a) x Q :=
  .inl ⟨fun _ _ hf => absurd hf List.not_mem_nil, a, x, rfl, h⟩

theorem Moves.bind {p : Svc A} {f : A → Svc B} {Q : A → Scan → Prop} {Q' : B → Scan → Prop}
    (h : Moves ty s fields p x Q) (hf : ∀ a y, Q a y → Moves ty s rest (f a) y Q') :
    Moves ty s (fields ++ rest) (p >>= f) x Q' := by
  rcases h with ⟨hm, a, y, hrun, hQ⟩ | ⟨hm, e, y, hrun⟩
  · rcases hf a y hQ with ⟨hm', b, z, hrun', hQ'⟩ | ⟨hm', e, z, hrun'⟩
    · exact .inl ⟨movable_append.mpr ⟨hm, hm'⟩, b, z, by rw [Prog.run_bind, hrun]; exact hrun', hQ'⟩
    · exact .inr ⟨fun h => hm' (movable_append.mp h).2, e, z,
        by rw [Prog.run_bind, hrun]; exact hrun'⟩
  · exact .inr ⟨fun h => hm (movable_append.mp h).1, e, y, by rw [Prog.run_bind, hrun]⟩

theorem Moves.map {p : Svc A} {f : A → B} {Q : A → Scan → Prop} {Q' : B → Scan → Prop}
    (h : Moves ty s fields p x Q) (hf : ∀ a y, Q a y → Q' (f a) y) :
    Moves ty s fields (p >>= fun a => pure (f a)) x Q' := by
  have hbind : Moves ty s (fields ++ []) (p >>= fun a => pure (f a)) x Q' :=
    h.bind fun a y hQ => moves_pure (hf a y hQ)
  rwa [List.append_nil] at hbind

@[simp] theorem credited_id : (credited ty s done r).id = r.id := rfl

theorem credited_of_not_mem (h : toString r.id ∉ done) : credited ty s done r = r := by
  rw [credited, if_neg h, Int.add_zero]

theorem moved_nil : moved ty s [] = s := by
  have hrows : s.db.questions.map (credited ty s []) = s.db.questions := by
    refine (List.map_congr_left fun r _ => ?_).trans (List.map_id _)
    exact credited_of_not_mem List.not_mem_nil
  have hhash : (s.hashes (getHashKey ty)).map (cleared []) = s.hashes (getHashKey ty) := by
    refine (List.map_congr_left fun p _ => ?_).trans (List.map_id _)
    simp only [cleared, List.not_mem_nil, if_false, id]
  rw [moved, hrows, hhash, Function.update_eq_self]
  rfl

theorem hashes_moved : (moved ty s done).hashes (getHashKey ty) =
    (s.hashes (getHashKey ty)).map (cleared done) := Function.update_self ..

theorem hget_cleared (entries : List (String × Int)) (f : String) :
    Store.hget (entries.map (cleared done)) f = if f ∈ done then 0 else Store.hget entries f := by
  induction entries with
  | nil => simp [Store.hget]
  | cons p entries ih =>
    obtain ⟨k, v⟩ := p
    simp only [Store.hget, List.map_cons, cleared, List.lookup_cons] at ih ⊢
    by_cases hf : f = k
    · subst hf
      simp
    · have hf : (f == k) = false := by simpa using hf
      simp only [hf]
      exact ih

theorem pending_moved : pending ty (moved ty s done) q =
    if toString q ∈ done then 0 else pending ty s q := by
  rw [pending, hashes_moved, hget_cleared, pending]

theorem row_moved : row (moved ty s done) q = (row s q).map (credited ty s done) := List.find?_map ..

theorem keyed_moved (h : Keyed s) : Keyed (moved ty s done) := by
  have hids : (moved ty s done).db.questions.map QuestionRow.id =
      s.db.questions.map QuestionRow.id := List.map_map ..
  rw [Keyed, hids]
  exact h

theorem hget_of_mem {entries : List (String × Int)} (hnd : (entries.map Prod.fst).Nodup)
    {p : String × Int} (hp : p ∈ entries) : Store.hget entries p.1 = p.2 := by
  induction entries with
  | nil => cases hp
  | cons e entries ih =>
    rw [List.map_cons, List.nodup_cons] at hnd
    rcases List.mem_cons.mp hp with rfl | hp
    · rw [Store.hget, List.lookup_cons_self]
      rfl
    · have hne : (p.1 == e.1) = false :=
        beq_false_of_ne fun he => hnd.1 (he ▸ List.mem_map_of_mem hp)
      have hlookup : (e :: entries).lookup p.1 = entries.lookup p.1 := by
        rw [List.lookup_cons, hne]
      rw [Store.hget, hlookup]
      exact ih hnd.2 hp

theorem hincr_cleared {entries : List (String × Int)} (hnd : (entries.map Prod.fst).Nodup)
    {f : String} (hf : f ∈ entries.map Prod.fst) (hnew : f ∉ done) :
    Store.hincr (entries.map (cleared done)) f (-Store.hget entries f) =
      entries.map (cleared (done ++ [f])) := by
  have hany : (entries.map (cleared done)).any (·.1 = f) = true := by
    obtain ⟨p, hp, hpf⟩ := List.mem_map.mp hf
    exact List.any_eq_true.mpr ⟨_, List.mem_map_of_mem hp, decide_eq_true hpf⟩
  rw [Store.hincr, if_pos hany, List.map_map]
  refine List.map_congr_left fun p hp => ?_
  simp only [Function.comp_apply, cleared, List.mem_append, List.mem_singleton]
  by_cases hpf : p.1 = f
  · subst hpf
    have hzero : p.2 + -Store.hget entries p.1 = 0 := by
      rw [hget_of_mem hnd hp, Int.add_right_neg]
    simp only [hnew, if_true, if_false, or_true, hzero]
  · simp only [hpf, if_false, or_false]

theorem replaceBy_credited (h : Keyed s) (hr : row s id = some r) :
    replaceBy QuestionRow.id
      { r with readCount := r.readCount + pending ty s id }
      (s.db.questions.map (credited ty s done)) =
      s.db.questions.map (credited ty s (done ++ [toString id])) := by
  have hid : r.id = id := ((rowAt_eq_some h).mp hr).2
  rw [replaceBy, List.map_map]
  refine List.map_congr_left fun x hx => ?_
  rw [Function.comp_apply, credited_id]
  by_cases hxr : x.id = r.id
  · have hxid : x.id = id := hxr.trans hid
    have hx' : row s id = some x := (rowAt_eq_some h).mpr ⟨hx, hxid⟩
    rw [hr] at hx'
    cases hx'
    rw [if_pos rfl, credited, hxid, if_pos (List.mem_append_right _ List.mem_cons_self)]
  · have hne : toString x.id ≠ toString id := fun he => hxr ((toString_injective he).trans hid.symm)
    have hmem : toString x.id ∈ done ++ [toString id] ↔ toString x.id ∈ done := by
      rw [List.mem_append, List.mem_singleton, or_iff_left hne]
    rw [if_neg hxr, credited, credited, if_congr hmem rfl rfl]

theorem moved_snoc (h : Ready ty s) (hr : row s id = some r)
    (hf : toString id ∈ (s.hashes (getHashKey ty)).map Prod.fst) (hnew : toString id ∉ done) :
    addPending ty (bump (moved ty s done) (pending ty s id) id) (toString id)
      (-pending ty s id) = moved ty s (done ++ [toString id]) := by
  have hrow : row (moved ty s done) id = some r := by
    have hid : r.id = id := ((rowAt_eq_some h.keyed).mp hr).2
    rw [row_moved, hr, Option.map_some, credited_of_not_mem (hid ▸ hnew)]
  have hhash : Store.hincr ((moved ty s done).hashes (getHashKey ty)) (toString id)
      (-pending ty s id) = (s.hashes (getHashKey ty)).map (cleared (done ++ [toString id])) := by
    rw [hashes_moved]
    exact hincr_cleared h.nodup hf hnew
  have hrows : replaceBy QuestionRow.id { r with readCount := r.readCount + pending ty s id }
      (moved ty s done).db.questions =
      s.db.questions.map (credited ty s (done ++ [toString id])) :=
    replaceBy_credited h.keyed hr
  have hbump : bump (moved ty s done) (pending ty s id) id = (moved ty s done).settled
      { s.db with questions := s.db.questions.map (credited ty s (done ++ [toString id])) }
      s.seq := by
    rw [bump, hrow, ← hrows]
    rfl
  rw [addPending, bump_hashes, hhash, hbump]
  simp only [moved, Store.settled, Function.update_idem]

theorem exec_addReadCount (hq : x.store.pg.Quiet) (hk : Keyed x.store)
    (hr : row x.store id = some r) : exec (.sql (.addReadCount n id)) x =
      if fitsI64 (r.readCount + n) then (.ok 1, { x with store := bump x.store n id })
      else (.error (.sqlx (.other "bigint out of range")), x) := by
  simp only [exec, hr, Option.all_some, scan_addReadCount hq hk, Option.isSome_some, if_true]

theorem exec_hincr (h : pending ty x.store id = n) :
    exec (.hincr (getHashKey ty) (toString id) (-n)) x =
      if fitsI64 (-n) then (.ok 0, { x with store := addPending ty x.store (toString id) (-n) })
      else (.error (.redis "increment or decrement would overflow"), x) := by
  have hzero : Store.hget (x.store.hashes (getHashKey ty)) (toString id) + -n = 0 := by
    rw [← h, pending, Int.add_right_neg]
  have hleft : Store.hget (Store.hincr (x.store.hashes (getHashKey ty)) (toString id) (-n))
      (toString id) = 0 := by rw [Store.hget_hincr, if_pos rfl, hzero]
  have hserved : Scan.exec (.hincr (getHashKey ty) (toString id) (-n)) x =
      (.ok 0, { x with store := addPending ty x.store (toString id) (-n) }) := by
    rw [← hleft]
    rfl
  have hfits : fitsI64 0 = true := rfl
  rw [exec, hzero, hserved, hfits, Bool.and_true]

theorem run_updateReadCount (hq : x.store.pg.Quiet) (hk : Keyed x.store)
    (hr : row x.store id = some r) (hn : pending ty x.store id = n) :
    (updateReadCount ty id n).run exec x =
      if fitsI64 (r.readCount + n) then
        if fitsI64 (-n) then (.ok (), { x with
          store := addPending ty (bump x.store n id) (toString id) (-n) })
        else (.error (.redis "increment or decrement would overflow"),
          { x with store := bump x.store n id })
      else (.error (.sqlx (.other "bigint out of range")), x) := by
  have hn' : pending ty (bump x.store n id) id = n := by rw [pending_bump, hn]
  rw [updateReadCount, Prog.run_bind, query, await, Prog.run_op, exec_addReadCount hq hk hr]
  cases fitsI64 (r.readCount + n) with
  | false => rfl
  | true =>
    have hrepay := exec_hincr (x := { x with store := bump x.store n id }) hn'
    simp only [if_true, Nat.one_ne_zero, if_false, Prog.run_bind, await, Prog.run_op, hrepay]
    cases fitsI64 (-n) <;> rfl

theorem moves_flushField (h : Ready ty s) (hr : row s id = some r)
    (hf : toString id ∈ (s.hashes (getHashKey ty)).map Prod.fst) (hnew : toString id ∉ done)
    (hread : fitsI64 (pending ty s id) = true) (hx : x.store = moved ty s done) :
    Moves ty s [toString id] (flushField ty (toString id, pending ty s id)) x
      fun _ y => y = { x with store := moved ty s (done ++ [toString id]) } := by
  obtain ⟨hmem, hid⟩ := (rowAt_eq_some h.keyed).mp hr
  have hfit : fitsI64 id = true := hid ▸ h.ids r hmem
  have hrow : row x.store id = some r := by
    rw [hx, row_moved, hr, Option.map_some, credited_of_not_mem (hid ▸ hnew)]
  have hpending : pending ty x.store id = pending ty s id := by
    rw [hx, pending_moved, if_neg hnew]
  have hquiet : x.store.pg.Quiet := by
    rw [hx]
    exact h.quiet
  have hkeyed : Keyed x.store := by
    rw [hx]
    exact keyed_moved h.keyed
  have hrun := run_updateReadCount hquiet hkeyed hrow hpending
  have hmoved : addPending ty (bump x.store (pending ty s id) id) (toString id)
      (-pending ty s id) = moved ty s (done ++ [toString id]) := by
    rw [hx]
    exact moved_snoc h hr hf hnew
  have hcases : (flushField ty (toString id, pending ty s id)).run exec x =
      match (updateReadCount ty id (pending ty s id)).run exec x with
      | (.ok _, y) => (.ok (), y)
      | (.error _, y) => (.error (.anyhow
          s!"failed to update read count,target_type:{ty},target_id:{id}"), y) := by
    simp only [flushField, parseI64_toString hfit, Prog.run_bind, Prog.run_attempt]
    rcases (updateReadCount ty id (pending ty s id)).run exec x with ⟨e | a, y⟩ <;> rfl
  rw [Moves, movable_singleton h.keyed hr, hcases, hrun, hmoved]
  by_cases hadd : fitsI64 (r.readCount + pending ty s id) = true
  · by_cases htake : fitsI64 (-pending ty s id) = true
    · rw [if_pos hadd, if_pos htake]
      exact .inl ⟨⟨hid ▸ hread, hid ▸ hadd, hid ▸ htake⟩, (), _, rfl, rfl⟩
    · rw [if_pos hadd, if_neg htake]
      exact .inr ⟨fun hroom => htake (hid ▸ hroom.taken), _, _, rfl⟩
  · rw [if_neg hadd]
    exact .inr ⟨fun hroom => hadd (hid ▸ hroom.added), _, _, rfl⟩

theorem Ready.row (h : Ready ty s) {f : String}
    (hf : f ∈ (s.hashes (getHashKey ty)).map Prod.fst) :
    ∃ id r, f = toString id ∧ Reads.row s id = some r := by
  obtain ⟨r, hr, hid⟩ := List.any_eq_true.mp (h.stored f hf)
  exact ⟨r.id, r, (of_decide_eq_true hid).symm, (rowAt_eq_some h.keyed).mpr ⟨hr, rfl⟩⟩

theorem moves_forM (h : Ready ty s) (hsub : fields ⊆ (s.hashes (getHashKey ty)).map Prod.fst)
    (hread : ∀ f ∈ fields, fitsI64 (Store.hget (s.hashes (getHashKey ty)) f) = true)
    (hnd : (done ++ fields).Nodup) (hx : x.store = moved ty s done) :
    Moves ty s fields ((counts s (getHashKey ty) fields).forM (flushField ty)) x
      fun _ y => y = { x with store := moved ty s (done ++ fields) } := by
  induction fields generalizing x done with
  | nil =>
    rw [List.append_nil, ← hx]
    exact moves_pure rfl
  | cons f fields ih =>
    obtain ⟨id, r, rfl, hr⟩ := h.row (hsub List.mem_cons_self)
    have hnew : toString id ∉ done := fun hm =>
      (List.nodup_append.mp hnd).2.2 _ hm _ List.mem_cons_self rfl
    rw [← List.singleton_append, ← List.append_assoc] at hnd ⊢
    refine (moves_flushField h hr (hsub List.mem_cons_self) hnew
      (hread _ List.mem_cons_self) hx).bind fun _ y hy => ?_
    subst hy
    exact ih (fun f hf => hsub (List.mem_cons_of_mem _ hf))
      (fun f hf => hread f (List.mem_cons_of_mem _ hf)) hnd rfl

theorem Movable.read (hm : Movable ty s fields) (h : Ready ty s)
    (hsub : fields ⊆ (s.hashes (getHashKey ty)).map Prod.fst) {f : String} (hf : f ∈ fields) :
    fitsI64 (Store.hget (s.hashes (getHashKey ty)) f) = true := by
  obtain ⟨id, r, rfl, hr⟩ := h.row (hsub hf)
  obtain ⟨hmem, rfl⟩ := (rowAt_eq_some h.keyed).mp hr
  exact (hm r hmem hf).read

theorem counts_moved (hnew : ∀ f ∈ fields, f ∉ done) :
    counts (moved ty s done) (getHashKey ty) fields = counts s (getHashKey ty) fields := by
  refine List.map_congr_left fun f hf => ?_
  rw [hashes_moved, hget_cleared, if_neg (hnew f hf)]

theorem moves_page (h : Ready ty s) {x' : Scan} {cursor next count : UInt64} {pattern : String}
    (hscan : Scan.exec (.hscan (getHashKey ty) cursor pattern count) x =
      (.ok (next, counts x.store (getHashKey ty) fields), x'))
    (hx : x.store = moved ty s done) (hx' : x'.store = x.store)
    (hsub : fields ⊆ (s.hashes (getHashKey ty)).map Prod.fst) (hnd : (done ++ fields).Nodup) :
    Moves ty s fields (reidsCmd ty cursor pattern count) x
      fun c y => c = next ∧ y = { x' with store := moved ty s (done ++ fields) } := by
  have hnew : ∀ f ∈ fields, f ∉ done := fun f hf hd =>
    (List.nodup_append.mp hnd).2.2 _ hd _ hf rfl
  rw [hx, counts_moved hnew] at hscan
  by_cases hfit : (counts s (getHashKey ty) fields).all (fitsI64 ·.2) = true
  · have hexec : exec (.hscan (getHashKey ty) cursor pattern count) x =
        (.ok (next, counts s (getHashKey ty) fields), x') := by
      rw [exec, hscan]
      exact if_pos hfit
    have hget : Moves ty s [] (await (.hscan (getHashKey ty) cursor pattern count)) x
        fun page y => page = (next, counts s (getHashKey ty) fields) ∧ y = x' :=
      .inl ⟨fun _ _ hf => absurd hf List.not_mem_nil, _, x', (Prog.run_op ..).trans hexec, rfl, rfl⟩
    refine hget.bind fun page y hpage => ?_
    obtain ⟨rfl, rfl⟩ := hpage
    refine (moves_forM h hsub (fun f hf => ?_) hnd (hx'.trans hx)).map fun _ y hy => ⟨rfl, hy⟩
    exact List.all_eq_true.mp hfit _ (List.mem_map_of_mem hf)
  · have hexec : exec (.hscan (getHashKey ty) cursor pattern count) x =
        (.error (.redis "Response was of incompatible type"), x') := by
      rw [exec, hscan]
      exact if_neg hfit
    have hrun : (reidsCmd ty cursor pattern count).run exec x =
        (.error (.redis "Response was of incompatible type"), x') := by
      rw [reidsCmd, Prog.run_bind, await, Prog.run_op, hexec]
    refine .inr ⟨fun hm => hfit (List.all_eq_true.mpr fun e he => ?_), _, _, hrun⟩
    obtain ⟨f, hf, rfl⟩ := List.mem_map.mp he
    exact hm.read h hsub hf

theorem moves_handlerRedisTopg (h : Ready ty s)
    {early : List ({ cursor : UInt64 // cursor ≠ 0 } × List String)} {last : List String}
    {rounds : Nat} (hrounds : early.length < rounds) (cursor : UInt64)
    (hsub : early.flatMap (·.2) ++ last ⊆ (s.hashes (getHashKey ty)).map Prod.fst)
    (hnd : (done ++ (early.flatMap (·.2) ++ last)).Nodup) :
    Moves ty s (early.flatMap (·.2) ++ last) (handlerRedisTopg ty rounds cursor)
      ⟨moved ty s done, early, last⟩
      fun _ y => y.store = moved ty s (done ++ (early.flatMap (·.2) ++ last)) := by
  induction early generalizing done rounds cursor with
  | nil =>
    obtain ⟨rounds, rfl⟩ : ∃ m, rounds = m + 1 := ⟨rounds - 1, by simp at hrounds; omega⟩
    have hscan : Scan.exec (.hscan (getHashKey ty) cursor "*" 500) ⟨moved ty s done, [], last⟩ =
        (.ok (0, counts (moved ty s done) (getHashKey ty) last), ⟨moved ty s done, [], last⟩) := rfl
    have hpage := moves_page h hscan rfl rfl hsub hnd
    have hlast : Moves ty s (last ++ []) (handlerRedisTopg ty (rounds + 1) cursor)
        ⟨moved ty s done, [], last⟩ fun _ y => y.store = moved ty s (done ++ last) := by
      refine hpage.bind fun next y hy => ?_
      obtain ⟨rfl, rfl⟩ := hy
      exact moves_pure rfl
    rwa [List.append_nil] at hlast
  | cons page early ih =>
    obtain ⟨rounds, rfl⟩ : ∃ m, rounds = m + 1 := ⟨rounds - 1, by simp at hrounds; omega⟩
    simp only [List.flatMap_cons, List.append_assoc] at hsub hnd ⊢
    have hscan : Scan.exec (.hscan (getHashKey ty) cursor "*" 500)
        ⟨moved ty s done, page :: early, last⟩ =
        (.ok (page.1.val, counts (moved ty s done) (getHashKey ty) page.2),
          ⟨moved ty s done, early, last⟩) := rfl
    rw [← List.append_assoc] at hnd
    have hpage := moves_page h hscan rfl rfl (fun f hf => hsub (List.mem_append_left _ hf))
      (List.nodup_append.mp hnd).1
    refine hpage.bind fun next y hy => ?_
    obtain ⟨rfl, rfl⟩ := hy
    simp only [if_neg page.1.property]
    rw [← List.append_assoc]
    refine ih ?_ _ (fun f hf => hsub (List.mem_append_right _ hf)) hnd
    simpa using hrounds

theorem moves_handler (h : Ready ty s) {p : Paging} {rounds : Nat}
    (hrounds : p.early.length < rounds) (hp : p.Covers ty s) :
    Moves ty s p.fields (handler rounds ty) ⟨s, p.early, p.last⟩
      fun _ y => y.store = moved ty s p.fields := by
  have hnd : ([] ++ p.fields).Nodup := hp.nodup_iff.mpr h.nodup
  have hall := moves_handlerRedisTopg h hrounds 0 hp.subset hnd
  rw [moved_nil] at hall
  exact hall.map fun _ _ hy => hy

theorem pending_of_not_mem (h : toString q ∉ (s.hashes (getHashKey ty)).map Prod.fst) :
    pending ty s q = 0 := by
  have hnone : (s.hashes (getHashKey ty)).lookup (toString q) = none := by
    rw [List.lookup_eq_none_iff]
    intro e he
    have hne : toString q ≠ e.1 := fun hq => h (hq ▸ List.mem_map_of_mem he)
    simpa only [bne_iff_ne] using hne
  rw [pending, Store.hget, hnone]
  rfl

theorem moved_eq_flushed (h : ∀ f ∈ (s.hashes (getHashKey ty)).map Prod.fst, f ∈ done) :
    moved ty s done = flushed ty s := by
  have hrows : s.db.questions.map (credited ty s done) = s.db.questions.map fun r =>
      { r with readCount := r.readCount + pending ty s r.id } := by
    refine List.map_congr_left fun r _ => ?_
    rw [credited]
    split
    next => rfl
    next hr => rw [pending_of_not_mem fun hf => hr (h _ hf)]
  have hhash : (s.hashes (getHashKey ty)).map (cleared done) =
      (s.hashes (getHashKey ty)).map fun e => (e.1, 0) := by
    refine List.map_congr_left fun e he => ?_
    rw [cleared, if_pos (h _ (List.mem_map_of_mem he))]
  rw [moved, hrows, hhash, flushed]

theorem flush_ok_iff (h : Ready ty s) {p : Paging} {rounds : Nat}
    (hrounds : p.early.length < rounds) (hp : p.Covers ty s) :
    ((flush ty rounds p s).1 = .ok () ↔ Fits ty s) ∧
      (Fits ty s → (flush ty rounds p s).2.store = flushed ty s) := by
  have hfits : Fits ty s ↔ Movable ty s p.fields :=
    forall_congr' fun r => forall_congr' fun _ => imp_congr_left hp.mem_iff.symm
  have hall : moved ty s p.fields = flushed ty s := moved_eq_flushed fun f hf => hp.mem_iff.mpr hf
  rcases moves_handler h hrounds hp with ⟨hm, a, y, hrun, hy⟩ | ⟨hm, e, y, hrun⟩
  · rw [flush, hrun]
    exact ⟨⟨fun _ => hfits.mpr hm, fun _ => rfl⟩, fun _ => hy.trans hall⟩
  · rw [flush, hrun]
    exact ⟨⟨nofun, fun hf => absurd (hfits.mp hf) hm⟩, fun hf => absurd (hfits.mp hf) hm⟩

theorem pending_flushed : pending ty (flushed ty s) q = 0 := by
  rw [← moved_eq_flushed fun _ => id, pending_moved]
  split
  next => rfl
  next hq => exact pending_of_not_mem hq

theorem hashes_flushed : (flushed ty s).hashes (getHashKey ty) =
    (s.hashes (getHashKey ty)).map fun e => (e.1, 0) := Function.update_self ..

theorem fields_flushed : ((flushed ty s).hashes (getHashKey ty)).map Prod.fst =
    (s.hashes (getHashKey ty)).map Prod.fst := by
  rw [hashes_flushed, List.map_map]
  rfl

theorem mem_flushed : r ∈ (flushed ty s).db.questions ↔
    ∃ r' ∈ s.db.questions, { r' with readCount := r'.readCount + pending ty s r'.id } = r :=
  List.mem_map

theorem flushed_flushed : flushed ty (flushed ty s) = flushed ty s := by
  have hrows : (flushed ty s).db.questions.map (fun r =>
      { r with readCount := r.readCount + pending ty (flushed ty s) r.id }) =
      (flushed ty s).db.questions := by
    simp only [pending_flushed, Int.add_zero]
    exact List.map_id' _
  have hhash : ((flushed ty s).hashes (getHashKey ty)).map (fun e => (e.1, 0)) =
      (flushed ty s).hashes (getHashKey ty) := by
    rw [hashes_flushed, List.map_map]
    rfl
  rw [flushed, hrows, hhash, Function.update_eq_self]
  rfl

theorem Ready.flushed (h : Ready ty s) : Ready ty (flushed ty s) := by
  refine ⟨h.quiet, ?_, fun r hr => ?_, ?_, ?_⟩
  · have hids : (Exactness.flushed ty s).db.questions.map QuestionRow.id =
        s.db.questions.map QuestionRow.id := List.map_map ..
    rw [Keyed, hids]
    exact h.keyed
  · obtain ⟨r', hr', rfl⟩ := mem_flushed.mp hr
    exact h.ids r' hr'
  · rw [fields_flushed]
    exact h.nodup
  · rw [fields_flushed]
    intro f hf
    obtain ⟨r, hr, hid⟩ := List.any_eq_true.mp (h.stored f hf)
    exact List.any_eq_true.mpr ⟨_, mem_flushed.mpr ⟨r, hr, rfl⟩, hid⟩

theorem Fits.flushed (h : Fits ty s) : Fits ty (flushed ty s) := by
  intro r hr hf
  rw [fields_flushed] at hf
  obtain ⟨r', hr', rfl⟩ := mem_flushed.mp hr
  have hroom := h r' hr' hf
  refine ⟨?_, ?_, ?_⟩ <;> rw [pending_flushed]
  · rfl
  · rw [Int.add_zero]
    exact hroom.added
  · rfl

/-- A flush in which nothing fails adds every pending count to its row, and after it another
flush changes nothing. -/
theorem flush_exact (h : Ready ty s) {p : Paging} {rounds : Nat}
    (hrounds : p.early.length < rounds) (hp : p.Covers ty s) :
    let s' := (flush ty rounds p s).2.store
    ((flush ty rounds p s).1 = .ok () ↔ Fits ty s) ∧
    ((flush ty rounds p s).1 = .ok () → s' = flushed ty s ∧ (∀ q, pending ty s' q = 0) ∧
      ∀ (p' : Paging) (rounds' : Nat), p'.early.length < rounds' → p'.Covers ty s' →
        (flush ty rounds' p' s').1 = .ok () ∧ (flush ty rounds' p' s').2.store = s') := by
  intro s'
  have hflush := flush_ok_iff h hrounds hp
  refine ⟨hflush.1, fun hok => ?_⟩
  have hs' : s' = flushed ty s := hflush.2 (hflush.1.mp hok)
  refine ⟨hs', fun q => by rw [hs', pending_flushed], fun p' rounds' hrounds' hp' => ?_⟩
  have hfits : Fits ty s' := hs' ▸ (hflush.1.mp hok).flushed
  have hagain := flush_ok_iff (hs' ▸ h.flushed) hrounds' hp'
  refine ⟨hagain.1.mpr hfits, (hagain.2 hfits).trans ?_⟩
  rw [hs', flushed_flushed]

def pendingReads : Store :=
  let row : QuestionRow := ⟨1, .empty 300, "", .empty 50, .empty 50, 0, none, 5, 0⟩
  { Store.empty 1 0 fun _ => 0 with
    pg := ⟨{ Db.empty with questions := [row, { row with id := 2 }] }, 1, fun _ => none⟩
    hashes := fun _ => [("2", 0), ("1", 3)] }

theorem flush_exact_pendingReads :
    let p : Paging := ⟨[(⟨7, by decide⟩, ["1"])], ["2"]⟩
    (flush "question" 2 p pendingReads).1 = .ok () ∧
    ((flush "question" 2 p pendingReads).1 = .ok () →
      (flush "question" 2 p pendingReads).2.store = flushed "question" pendingReads) := by
  intro p
  have h : Ready "question" pendingReads :=
    ⟨fun _ => rfl, by unfold Keyed; decide, by decide, by decide, by decide⟩
  have hexact := flush_exact h (by decide : p.early.length < 2) (by decide)
  exact ⟨by decide, fun hok => (hexact.2 hok).1⟩

end QaSys.Exactness
