import QaSys.Program.Runs
import QaSys.Service.App
import QaSys.Store.QuestionTable

/-! A client that reads all questions page by page, while questions are added and deleted. -/

namespace QaSys.QuestionWalk

open Keyset

/-- A change of the question table between two requests, with what the environment chooses at its
calls. -/
inductive Change
  | add (question : QuestionEntity) (script : List Choice)
  | delete (id : UInt64) (username : String) (script : List Choice)

def change (s : Store) : Change → Store
  | .add question script => ((Question.add question).run World.exec ⟨s, script⟩).2.state
  | .delete id username script => ((Question.delete id username).run World.exec ⟨s, script⟩).2.state

structure Visit where
  stored : List QuestionRow
  reply : Pb.LatestQuestionResponse

/-- The client asks at most `requests` times.  Before its request number `i` the changes `changes i`
happen, and it stops when a reply says `isEnd`. -/
def walk (limit : UInt64) (changes : Nat → List Change) :
    (requests : Nat) → (i : Nat) → Store → (lastId : UInt64) → List Visit
  | 0, _, _, _ => []
  | requests + 1, i, s, lastId =>
    let s := Runs.after change s (changes i)
    let r := (App.latestQuestion ⟨lastId, limit⟩).run World.exec ⟨s, []⟩
    match r.1 with
    | .ok (.ok reply) =>
      ⟨s.db.questions, reply⟩ ::
        if reply.isEnd then [] else walk limit changes requests (i + 1) r.2.state reply.lastId
    | _ => []

def ids (visits : List Visit) : List UInt64 := visits.flatMap fun v => v.reply.questions.map (·.id)

def cursorOf (lastId : UInt64) : Option Int := if lastId = 0 then none else some lastId.toNat

def replyOf (limit : UInt64) (page : List QuestionRow) : Pb.LatestQuestionResponse :=
  ⟨page.map fun r => r.toEntity.toPb r.readCount,
    ((page.getLast?.map QuestionRow.id).getD 0).asU64, decide (page.length < limit.toNat)⟩

def fetched (limit : UInt64) (page : List QuestionRow) : LatestQuestionResponse :=
  ⟨page.map QuestionRow.toEntity, page.getLast?.map QuestionRow.id,
    decide (page.length < limit.toNat)⟩

variable {s : Store} {limit lastId : UInt64} {allow : Choice → Prop}

def rowsAt (limit lastId : UInt64) (s : Store) : List QuestionRow :=
  page QuestionRow.id limit.toNat (cursorOf lastId) s.db.questions

theorem window_zero {rows : List α} (n : Nat) : window (n : Int) 0 rows = .ok (rows.take n) := by
  simp [window]

theorem fetched_eq {page : List QuestionRow} :
    (⟨page.map (·.toEntity), (page.map (·.toEntity)).getLast?.map (·.id),
      decide (((page.map (·.toEntity)).length : Int) < limit.toNat)⟩ : LatestQuestionResponse) =
    fetched limit page := by
  simp only [fetched, List.getLast?_map, Option.map_map, List.length_map, Int.ofNat_lt]
  rfl

theorem findLatest_ensures (hq : s.pg.Quiet) (hallow : ∀ ch, allow ch → ¬ ch.Faulty)
    (hlimit : limit.toNat ≤ i64Max) (hlast : lastId.toNat ≤ i64Max) :
    (Question.findLatest lastId limit).Ensures Store.serve allow s fun r s' =>
      s' = s ∧ r = .ok (fetched limit (rowsAt limit lastId s)) := by
  have hlimit : limit.tryI64 = some (limit.toNat : Int) := if_pos hlimit
  have hlast : lastId.tryI64 = some (lastId.toNat : Int) := if_pos hlast
  simp only [Question.findLatest, hlimit, hlast, context, pure_bind, fetched_eq]
  split
  next h0 =>
    have hpage : rowsAt limit lastId s =
        (descending QuestionRow.id s.db.questions).take limit.toNat := by
      rw [rowsAt, cursorOf, if_pos h0, page, below]
    refine Prog.ensures_bind.mpr ((ensures_select hq hallow (Stmt.bindable_of_nil rfl)
      (a := rowsAt limit lastId s) ?_ rfl).mono fun r s' hr => ?_)
    · simp only [Stmt.eval, window_zero, hpage]
      rfl
    · obtain ⟨rfl, rfl⟩ := hr
      exact ⟨rfl, rfl⟩
  next h0 =>
    have hpage : rowsAt limit lastId s =
        (descending QuestionRow.id (s.db.questions.filter (·.id < lastId.toNat))).take
          limit.toNat := by
      rw [rowsAt, cursorOf, if_neg h0, page, below]
    refine Prog.ensures_bind.mpr ((ensures_select hq hallow (Stmt.bindable_of_nil rfl)
      (a := rowsAt limit lastId s) ?_ rfl).mono fun r s' hr => ?_)
    · simp only [Stmt.eval, window_zero, hpage]
      rfl
    · obtain ⟨rfl, rfl⟩ := hr
      exact ⟨rfl, rfl⟩

def replied (result : LatestQuestionResponse) : Svc (App.Reply Pb.LatestQuestionResponse) := do
  if result.questions.isEmpty then return .ok ⟨[], 0, true⟩
  return .ok ⟨result.questions.map fun q => q.toPb q.readCount, (result.lastId.getD 0).asU64,
    result.isEnd⟩

theorem replied_fetched (hpos : limit ≠ 0) {page : List QuestionRow} :
    replied (fetched limit page) = pure (.ok (replyOf limit page)) := by
  cases page with
  | nil =>
    have hshort : 0 < limit.toNat := by
      rcases Nat.eq_zero_or_pos limit.toNat with h0 | h0
      · exact absurd (UInt64.toNat_inj.mp h0) hpos
      · exact h0
    have hend : replyOf limit [] = ⟨[], 0, true⟩ := by
      simp only [replyOf, List.length_nil, decide_eq_true hshort]
      rfl
    rw [hend]
    rfl
  | cons r rows =>
    simp only [replied, replyOf, fetched, List.map_map]
    rfl

theorem latestQuestion_ensures (hq : s.pg.Quiet) (hallow : ∀ ch, allow ch → ¬ ch.Faulty)
    (hpos : limit ≠ 0) (hlimit : limit.toNat ≤ i64Max) (hlast : lastId.toNat ≤ i64Max) :
    (App.latestQuestion ⟨lastId, limit⟩).Ensures Store.serve allow s fun r s' =>
      s' = s ∧ r = .ok (.ok (replyOf limit (rowsAt limit lastId s))) := by
  refine Prog.ensures_bind.mpr (Prog.ensures_attempt.mpr
    ((findLatest_ensures hq hallow hlimit hlast).mono fun r s' hr => ?_))
  obtain ⟨rfl, rfl⟩ := hr
  change (replied (fetched limit (rowsAt limit lastId s'))).Ensures Store.serve allow s' _
  rw [replied_fetched hpos]
  exact ⟨rfl, rfl⟩

theorem table_change (h : QuestionTable s) (c : Change) : QuestionTable (change s c) := by
  cases c with
  | add question script => exact (exec_of_ensures (h.add_ensures question) script).1
  | delete id username script => exact (exec_of_ensures (h.delete_ensures id username) script).1

theorem table_after (h : QuestionTable s) (cs : List Change) :
    QuestionTable (Runs.after change s cs) := by
  induction cs generalizing s with
  | nil => exact h
  | cons c cs ih => exact ih (table_change h c)

def Proper (rows : List QuestionRow) : Prop :=
  (rows.map QuestionRow.id).Nodup ∧ ∀ i ∈ rows.map QuestionRow.id, 0 < i ∧ i ≤ i64Max

def toVisit (limit : UInt64) (v : List QuestionRow × List QuestionRow) : Visit :=
  ⟨v.1, replyOf limit v.2⟩

/-- The client's walk from the cursor `lastId` is a walk over pages. -/
def Walks (limit : UInt64) (changes : Nat → List Change) (i : Nat) (s : Store)
    (lastId : UInt64) : Prop :=
  ∃ n visits, walk limit changes n i s lastId = visits.map (toVisit limit) ∧
    Keyset.Walk QuestionRow.id limit.toNat (cursorOf lastId) visits ∧ ∀ v ∈ visits, Proper v.1

variable {changes : Nat → List Change} {i : Nat}

theorem walk_succ (h : QuestionTable s) (hpos : limit ≠ 0) (hlimit : limit.toNat ≤ i64Max)
    (hlast : lastId.toNat ≤ i64Max) (changes : Nat → List Change) (n i : Nat) :
    let s' := Runs.after change s (changes i)
    let reply := replyOf limit (rowsAt limit lastId s')
    walk limit changes (n + 1) i s lastId = ⟨s'.db.questions, reply⟩ ::
      if reply.isEnd then [] else walk limit changes n (i + 1) s' reply.lastId := by
  intro s' reply
  obtain ⟨hstate, hreply⟩ := served_of_ensures (latestQuestion_ensures
    (table_after h (changes i)).quiet (fun _ h => h) hpos hlimit hlast)
  simp only [walk, hstate, hreply]
  rfl

theorem cursorOf_asU64 {id : Int} (h0 : 0 < id) (h : id ≤ i64Max) :
    cursorOf id.asU64 = some id := by
  have hnat := Int.toNat_asU64 h0.le h
  have hne : id.asU64 ≠ 0 := fun he => by
    rw [he] at hnat
    simp at hnat
    omega
  rw [cursorOf, if_neg hne, hnat]
  congr 1
  omega

theorem walks_of_next (h : QuestionTable s) (hpos : limit ≠ 0) (hlimit : limit.toNat ≤ i64Max)
    (hlast : lastId.toNat ≤ i64Max)
    (hnext : ∀ s' (id : Int), QuestionTable s' → 0 < id → id ≤ i64Max → Under (cursorOf lastId) id →
      Walks limit changes (i + 1) s' id.asU64) : Walks limit changes i s lastId := by
  have htable := table_after h (changes i)
  generalize hs' : Runs.after change s (changes i) = s' at htable
  have hproper : Proper s'.db.questions :=
    ⟨htable.keyed, fun j hj => ⟨(htable.range j hj).1, (htable.range j hj).2.2⟩⟩
  have hstep (n : Nat) := walk_succ h hpos hlimit hlast changes n i
  simp only [hs'] at hstep
  rcases Nat.lt_or_ge (rowsAt limit lastId s').length limit.toNat with hshort | hfull
  · have hend : (replyOf limit (rowsAt limit lastId s')).isEnd = true := decide_eq_true hshort
    refine ⟨1, [(s'.db.questions, rowsAt limit lastId s')], ?_, .stop _ _ hshort, ?_⟩
    · rw [hstep, if_pos hend]
      rfl
    · exact fun v hv => List.mem_singleton.mp hv ▸ hproper
  · have hlen : (rowsAt limit lastId s').length = limit.toNat :=
      Nat.le_antisymm length_page_le hfull
    have hend : (replyOf limit (rowsAt limit lastId s')).isEnd = false :=
      decide_eq_false (Nat.not_lt_of_ge hfull)
    have hne : rowsAt limit lastId s' ≠ [] := fun hnil => hpos (UInt64.toNat_inj.mp (by
      rw [← hlen, hnil]
      rfl))
    obtain ⟨r, hr⟩ := Option.isSome_iff_exists.mp (List.getLast?_isSome.mpr hne)
    obtain ⟨hstored, hunder⟩ := of_mem_page (List.mem_of_getLast? hr)
    obtain ⟨h0, hmax⟩ := hproper.2 r.id (List.mem_map_of_mem hstored)
    obtain ⟨n, visits, hvisits, hwalk, hall⟩ := hnext s' r.id htable h0 hmax hunder
    rw [cursorOf_asU64 h0 hmax] at hwalk
    have hcursor : (replyOf limit (rowsAt limit lastId s')).lastId = r.id.asU64 := by
      rw [replyOf, hr]
      rfl
    refine ⟨n + 1, (s'.db.questions, rowsAt limit lastId s') :: visits, ?_,
      .more _ _ r _ hlen hr hwalk, ?_⟩
    · rw [hstep, hend, hcursor, hvisits]
      rfl
    · intro v hv
      rcases List.mem_cons.mp hv with rfl | hv
      · exact hproper
      · exact hall v hv

theorem walks_below (hpos : limit ≠ 0) (hlimit : limit.toNat ≤ i64Max) (m : Nat)
    {s : Store} (h : QuestionTable s) {id : Int} (h0 : 0 < id) (hmax : id ≤ i64Max)
    (hm : id.toNat ≤ m) (i : Nat) : Walks limit changes i s id.asU64 := by
  induction m generalizing s id i with
  | zero => omega
  | succ m ih =>
    refine walks_of_next h hpos hlimit (by rw [Int.toNat_asU64 h0.le hmax]; omega) ?_
    intro s' id' h' h0' hmax' hunder
    rw [cursorOf_asU64 h0 hmax, under_some] at hunder
    exact ih h' h0' hmax' (by omega) _

theorem walks_start (h : QuestionTable s) (hpos : limit ≠ 0) (hlimit : limit.toNat ≤ i64Max)
    (changes : Nat → List Change) :
    Walks limit changes 0 s 0 :=
  walks_of_next h hpos hlimit (by decide) fun _ _ h' h0 hmax _ =>
    walks_below hpos hlimit i64Max h' h0 hmax (by omega) _

theorem ids_map (visits : List (List QuestionRow × List QuestionRow)) :
    ids (visits.map (toVisit limit)) = (visits.flatMap (·.2)).map fun r => r.id.asU64 := by
  simp only [ids, List.flatMap_map, List.map_flatMap, toVisit, replyOf, List.map_map]
  rfl

theorem lastId_replyOf {page : List QuestionRow} {r : QuestionRow} (h : page.getLast? = some r) :
    (replyOf limit page).lastId = r.id.asU64 := by
  rw [replyOf, h]
  rfl

/-- The walk of a client comes to an end, returns each question that is stored all the while exactly
once, and returns none twice. -/
theorem cursor_walk (h : QuestionTable s) (hpos : limit ≠ 0) (hlimit : limit.toNat ≤ i64Max)
    (changes : Nat → List Change) : ∃ n init last,
    let visits := walk limit changes n 0 s 0
    visits = init ++ [last] ∧ last.reply.isEnd = true ∧ (∀ v ∈ init, v.reply.isEnd = false) ∧
    (init.Pairwise fun v w => w.reply.lastId < v.reply.lastId) ∧
    (∀ v ∈ visits, v.reply.questions.length ≤ limit.toNat) ∧
    (∀ v ∈ visits, v.reply.lastId = 0 → v.reply.isEnd = true) ∧
    (ids visits).Pairwise (fun a b => b < a) ∧
    ∀ id, (∀ v ∈ visits, id ∈ v.stored.map QuestionRow.id) → (ids visits).count id.asU64 = 1 := by
  obtain ⟨n, visits, hvisits, hwalk, hall⟩ := walks_start h hpos hlimit changes
  obtain ⟨init, last, hends, hshort, hinit⟩ := hwalk.ends
  obtain ⟨hpair, -⟩ := hwalk.pairwise fun v hv => (hall v hv).1
  have hrange : ∀ v ∈ visits, ∀ r ∈ v.2, 0 < r.id ∧ r.id ≤ i64Max := fun v hv r hr =>
    (hall v hv).2 r.id (List.mem_map_of_mem ((hwalk.mem_rows v hv).2 r hr))
  have hids : (ids (visits.map (toVisit limit))).Pairwise fun a b => b < a := by
    rw [ids_map, List.pairwise_map]
    refine hpair.imp_of_mem fun ha hb hlt => ?_
    obtain ⟨v, hv, ha⟩ := List.mem_flatMap.mp ha
    obtain ⟨w, hw, hb⟩ := List.mem_flatMap.mp hb
    exact Int.asU64_lt (hrange v hv _ ha) (hrange w hw _ hb) hlt
  have hcursors : init.Pairwise fun v w =>
      (replyOf limit w.2).lastId < (replyOf limit v.2).lastId := by
    have hsub : init.Sublist visits := hends ▸ List.sublist_append_left _ _
    refine ((List.pairwise_flatMap.mp hpair).2.sublist hsub).imp_of_mem fun {v w} hv hw hlt => ?_
    obtain ⟨r, hr⟩ := Option.isSome_iff_exists.mp (hinit v hv).2
    obtain ⟨t, ht⟩ := Option.isSome_iff_exists.mp (hinit w hw).2
    rw [lastId_replyOf hr, lastId_replyOf ht]
    have hr := List.mem_of_getLast? hr
    have ht := List.mem_of_getLast? ht
    exact Int.asU64_lt (hrange v (hsub.subset hv) r hr) (hrange w (hsub.subset hw) t ht)
      (hlt r hr t ht)
  have hopen : ∀ v ∈ init, (replyOf limit v.2).isEnd = false := fun v hv =>
    decide_eq_false (by have := (hinit v hv).1; omega)
  have hend : (replyOf limit last.2).isEnd = true := decide_eq_true hshort
  refine ⟨n, init.map (toVisit limit), toVisit limit last, ?_⟩
  simp only [hvisits]
  refine ⟨by rw [hends, List.map_append]; rfl, hend, ?_, List.pairwise_map.mpr hcursors, ?_, ?_,
    hids, fun id hid => ?_⟩
  · intro v hv
    obtain ⟨w, hw, rfl⟩ := List.mem_map.mp hv
    exact hopen w hw
  · intro v hv
    obtain ⟨w, hw, rfl⟩ := List.mem_map.mp hv
    change (w.2.map _).length ≤ limit.toNat
    rw [List.length_map]
    exact (hwalk.mem_rows w hw).1
  · intro v hv hzero
    obtain ⟨w, hw, rfl⟩ := List.mem_map.mp hv
    rw [hends, List.mem_append, List.mem_singleton] at hw
    rcases hw with hw | rfl
    · -- a full page has a last row, and no row has the id 0
      obtain ⟨r, hr⟩ := Option.isSome_iff_exists.mp (hinit w hw).2
      have hmem : w ∈ visits := hends ▸ List.mem_append_left _ hw
      obtain ⟨h0, hmax⟩ := hrange w hmem r (List.mem_of_getLast? hr)
      have hzero : r.id.asU64 = 0 := (lastId_replyOf hr).symm.trans hzero
      have hcursor := cursorOf_asU64 h0 hmax
      rw [hzero] at hcursor
      cases hcursor
    · exact hend
  · have hstored : ∀ v ∈ visits, id ∈ v.1.map QuestionRow.id := fun v hv =>
      hid (toVisit limit v) (List.mem_map_of_mem hv)
    have hmem := hwalk.complete (fun v hv => (hall v hv).1) under_none hstored
    have hnodup : (ids (visits.map (toVisit limit))).Nodup :=
      hids.imp fun h => (UInt64.ne_of_lt h).symm
    refine List.count_eq_one_of_mem hnodup ?_
    rw [ids_map]
    obtain ⟨r, hr, rfl⟩ := List.mem_map.mp hmem
    exact List.mem_map_of_mem (f := fun r : QuestionRow => r.id.asU64) hr

def someChanges : Nat → List Change
  | 0 => [.add { title := "a", createdBy := "alice" } [], .add { title := "b", createdBy := "bob" } [],
      .add { title := "c", createdBy := "bob" } []]
  | 1 => [.delete 3 "bob" [], .add { title := "d", createdBy := "alice" } []]
  | _ => []

theorem cursor_walk_someChanges :
    ids (walk 2 someChanges 2 0 (Store.empty 1 0 fun _ => 0) 0) = [3, 2, 1] ∧
    ∃ n, (ids (walk 2 someChanges n 0 (Store.empty 1 0 fun _ => 0) 0)).Pairwise
      fun a b => b < a := by
  have hstart : QuestionTable (Store.empty 1 0 fun _ => 0) := .empty
  have hpos : (2 : UInt64) ≠ 0 := by decide
  obtain ⟨n, init, last, -, -, -, -, -, -, hids, -⟩ :=
    cursor_walk hstart hpos (by decide) someChanges
  exact ⟨by decide, n, hids⟩

end QaSys.QuestionWalk
