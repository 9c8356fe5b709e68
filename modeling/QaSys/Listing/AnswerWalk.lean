import QaSys.Vote.Lookup
import Mathlib.Data.Int.Interval

/-! A client that reads the answers of a question page by page. -/

namespace QaSys.AnswerWalk

open Keyset

structure AnswerTable (s : Store) : Prop where
  quiet : s.pg.Quiet
  keyed : (s.db.answers.map AnswerRow.id).Nodup
  range : ∀ i ∈ s.db.answers.map AnswerRow.id, 0 < i ∧ i ≤ i64Max

/-- The client asks at most `requests` times, for one page after the other, and stops when a reply
says `isEnd`. -/
def walk (questionId limit : UInt64) (username : String) :
    (requests : Nat) → (page : UInt64) → Store → List Pb.AnswerListResponse
  | 0, _, _ => []
  | requests + 1, page, s =>
    let r := (App.answerList ⟨questionId, page, limit, username⟩).run World.exec ⟨s, []⟩
    match r.1 with
    | .ok (.ok reply) =>
      reply :: if reply.isEnd then [] else
        walk questionId limit username requests (page + 1) r.2.state
    | _ => []

def answersOf (s : Store) (questionId : UInt64) : List AnswerRow :=
  descending AnswerRow.id (s.db.answers.filter (·.questionId = questionId.toNat))

def totalPages (n limit : Nat) : Nat := n / limit + if n % limit ≠ 0 then 1 else 0

def slice (rows : List AnswerRow) (limit page : Nat) : List AnswerRow :=
  (rows.drop ((page - 1) * limit)).take limit

def pageOf (rows : List AnswerRow) (limit page : Nat) : LatestAnswerResponse :=
  ⟨(slice rows limit page).map AnswerRow.toEntity, rows.length, totalPages rows.length limit, limit,
    page, decide (totalPages rows.length limit ≤ page)⟩

/-- The arguments `find_latest` refuses. -/
def Refused (questionId limit page : UInt64) : Prop :=
  limit = 0 ∨ page = 0 ∨ i64Max < questionId.toNat ∨ i64Max < limit.toNat ∨ i64Max < page.toNat ∨
    i64Max < (page.toNat - 1) * limit.toNat

variable {s : Store} {questionId limit page : UInt64} {allow : Choice → Prop}

theorem totalPages_eq {n k : Nat} (hk : 0 < k) : totalPages n k = (n + k - 1) / k := by
  have hn := Nat.div_add_mod n k
  have hr := Nat.mod_lt n hk
  rw [totalPages]
  split
  next h =>
    have : n + k - 1 = k * (n / k + 1) + (n % k - 1) := by
      rw [Nat.mul_add]
      omega
    rw [this, Nat.mul_add_div hk, Nat.div_eq_of_lt (show n % k - 1 < k by omega)]
  next h =>
    have : n + k - 1 = k * (n / k) + (k - 1) := by omega
    rw [this, Nat.mul_add_div hk, Nat.div_eq_of_lt (show k - 1 < k by omega)]

theorem le_totalPages_mul {n k : Nat} (hk : 0 < k) : n ≤ totalPages n k * k := by
  have hn := Nat.div_add_mod n k
  have hr := Nat.mod_lt n hk
  rw [totalPages, Nat.add_mul, Nat.mul_comm]
  split <;> omega

theorem mul_lt_of_lt_totalPages {n k p : Nat} (hk : 0 < k) (hp : p < totalPages n k) :
    p * k < n := by
  have hn := Nat.div_add_mod n k
  rw [totalPages] at hp
  split at hp
  next h =>
    have : p * k ≤ k * (n / k) := by
      rw [Nat.mul_comm]
      exact Nat.mul_le_mul_left k (by omega)
    omega
  next h =>
    have : (p + 1) * k ≤ k * (n / k) := by
      rw [Nat.mul_comm]
      exact Nat.mul_le_mul_left k (by omega)
    rw [Nat.add_mul] at this
    omega

theorem tryNew_total {answers : List AnswerEntity} {n k p : Nat} (hk : 0 < k) (hp : 0 < p) :
    LatestAnswerResponse.tryNew answers n k p =
      .ok ⟨answers, n, totalPages n k, k, p, decide (totalPages n k ≤ p)⟩ := by
  have hdiv : (n : Int).tdiv k = (n / k : Nat) := (Int.ofNat_tdiv _ _).symm
  have hmod : (n : Int).tmod k = (n % k : Nat) := (Int.ofNat_tmod _ _).symm
  have htotal : ((n / k : Nat) : Int) + (if ((n % k : Nat) : Int) ≠ 0 then 1 else 0) =
      totalPages n k := by
    rw [totalPages]
    split <;> split <;> omega
  have hend : (decide ((totalPages n k : Int) = 0) || decide ((p : Int) ≥ totalPages n k)) =
      decide (totalPages n k ≤ p) := by
    rw [Bool.eq_iff_iff, Bool.or_eq_true, decide_eq_true_iff, decide_eq_true_iff,
      decide_eq_true_iff]
    omega
  rw [LatestAnswerResponse.tryNew, if_neg (by omega), if_neg (by omega), if_neg (by omega)]
  simp only [hdiv, hmod, htotal, hend]

theorem tryNew_eq {rows : List AnswerRow} {k p : Nat} (hk : 0 < k) (hp : 0 < p) :
    LatestAnswerResponse.tryNew ((slice rows k p).map AnswerRow.toEntity) rows.length k p =
      .ok (pageOf rows k p) := tryNew_total hk hp

theorem checkedI64_of_le {n : Nat} (h : n ≤ i64Max) : checkedI64 (n : Int) = some (n : Int) := by
  rw [i64Max] at h
  rw [checkedI64, if_pos (by omega)]

theorem checkedI64_neg {n : Nat} (h : n ≤ i64Max) : checkedI64 (-(n : Int)) = some (-(n : Int)) := by
  rw [i64Max] at h
  rw [checkedI64, if_pos (by omega)]

theorem checkedI64_pred {x : UInt64} (h0 : 0 < x.toNat) (h : ¬ i64Max < x.toNat) :
    checkedI64 ((x.toNat : Int) - 1) = some ((x.toNat - 1 : Nat) : Int) := by
  have hcast : (x.toNat : Int) - 1 = ((x.toNat - 1 : Nat) : Int) := by omega
  rw [hcast]
  exact checkedI64_of_le (by omega)

theorem checkedI64_of_lt {n : Nat} (h : i64Max < n) : checkedI64 (n : Int) = none := by
  rw [i64Max] at h
  rw [checkedI64, if_neg (by omega)]

theorem window_offset {rows : List α} (limit offset : Nat) :
    window (limit : Int) (offset : Int) rows = .ok ((rows.drop offset).take limit) := by
  rw [window, if_neg (by omega), if_neg (by omega)]
  rfl

theorem tryI64_of_le {x : UInt64} (h : ¬ i64Max < x.toNat) : x.tryI64 = some (x.toNat : Int) :=
  if_pos (Nat.le_of_not_lt h)

theorem tryI64_of_lt {x : UInt64} (h : i64Max < x.toNat) : x.tryI64 = none :=
  if_neg (Nat.not_le_of_lt h)

def pageAt (questionId limit page : Nat) (offset : Int) : Svc LatestAnswerResponse := do
  let total ← query (.countAnswers questionId)
  let res ← query (.pageAnswers questionId limit offset)
  match LatestAnswerResponse.tryNew (res.map (·.toEntity)) total limit page with
  | .ok r => return r
  | .error e => throw (.anyhow e.toString)

/-- Page 0 passes the checks, with an offset below zero. -/
theorem findLatest_cases (questionId limit page : UInt64) :
    (Refused questionId limit page ∧ ∃ e, Answer.findLatest questionId limit page = throw e) ∨
    (page = 0 ∧ 0 < limit.toNat ∧ Answer.findLatest questionId limit page =
      pageAt questionId.toNat limit.toNat page.toNat (-(limit.toNat : Int))) ∨
    (¬ Refused questionId limit page ∧ 0 < limit.toNat ∧ 0 < page.toNat ∧
      Answer.findLatest questionId limit page = pageAt questionId.toNat limit.toNat page.toNat
        (((page.toNat - 1) * limit.toNat : Nat) : Int)) := by
  by_cases hlimit : limit = 0
  · subst hlimit
    exact .inl ⟨.inl rfl, _, rfl⟩
  have hpos : 0 < limit.toNat := Nat.pos_of_ne_zero fun h => hlimit (UInt64.toNat_inj.mp h)
  have hensure : decide (limit > 0) = true := decide_eq_true (UInt64.lt_iff_toNat_lt.mpr hpos)
  rw [Answer.findLatest]
  simp only [ensure, hensure, if_true, pure_bind]
  by_cases hqid : i64Max < questionId.toNat
  · simp only [context, tryI64_of_lt hqid]
    exact .inl ⟨.inr (.inr (.inl hqid)), _, rfl⟩
  by_cases hlim : i64Max < limit.toNat
  · simp only [context, tryI64_of_le hqid, tryI64_of_lt hlim, pure_bind]
    exact .inl ⟨.inr (.inr (.inr (.inl hlim))), _, rfl⟩
  by_cases hpage : i64Max < page.toNat
  · simp only [context, tryI64_of_le hqid, tryI64_of_le hlim, tryI64_of_lt hpage, pure_bind]
    exact .inl ⟨.inr (.inr (.inr (.inr (.inl hpage)))), _, rfl⟩
  by_cases hzero : page = 0
  · subst hzero
    have hindex : checkedI64 (((0 : UInt64).toNat : Int) - 1) = some (-1) := rfl
    simp only [context, tryI64_of_le hqid, tryI64_of_le hlim, tryI64_of_le hpage, hindex,
      Int.neg_one_mul, checkedI64_neg (Nat.le_of_not_lt hlim), pure_bind]
    exact .inr (.inl ⟨trivial, hpos, rfl⟩)
  have hpage0 : 0 < page.toNat := Nat.pos_of_ne_zero fun h => hzero (UInt64.toNat_inj.mp h)
  have hmul : ((page.toNat - 1 : Nat) : Int) * (limit.toNat : Int) =
      (((page.toNat - 1) * limit.toNat : Nat) : Int) := (Int.natCast_mul _ _).symm
  by_cases hover : i64Max < (page.toNat - 1) * limit.toNat
  · simp only [context, tryI64_of_le hqid, tryI64_of_le hlim, tryI64_of_le hpage,
      checkedI64_pred hpage0 hpage, hmul, checkedI64_of_lt hover, pure_bind]
    exact .inl ⟨.inr (.inr (.inr (.inr (.inr hover)))), _, rfl⟩
  have hfit := Nat.le_of_not_lt hover
  simp only [context, tryI64_of_le hqid, tryI64_of_le hlim, tryI64_of_le hpage,
    checkedI64_pred hpage0 hpage, hmul, checkedI64_of_le hfit, pure_bind]
  refine .inr (.inr ⟨?_, hpos, hpage0, rfl⟩)
  rintro (h | h | h | h | h | h)
  · exact hlimit h
  · exact hzero h
  · exact hqid h
  · exact hlim h
  · exact hpage h
  · exact hover h

theorem countAnswers_ensures (hq : s.pg.Quiet) (hallow : ∀ ch, allow ch → ¬ ch.Faulty) :
    (query (.countAnswers (questionId.toNat : Int))).Ensures Store.serve allow s
      fun r s' => s' = s ∧ r = .ok ((answersOf s questionId).length : Int) := by
  refine ensures_select hq hallow (Stmt.bindable_of_nil rfl) ?_ rfl
  rw [answersOf, length_descending]
  rfl

theorem findLatest_ensures (hq : s.pg.Quiet) (hallow : ∀ ch, allow ch → ¬ ch.Faulty)
    (questionId limit page : UInt64) :
    (Answer.findLatest questionId limit page).Ensures Store.serve allow s fun r s' =>
      s' = s ∧ (Refused questionId limit page → ∃ e, r = .error e) ∧
      (¬ Refused questionId limit page →
        r = .ok (pageOf (answersOf s questionId) limit.toNat page.toNat)) := by
  rcases findLatest_cases questionId limit page with
    ⟨hrefused, e, heq⟩ | ⟨hzero, hpos, heq⟩ | ⟨hok, hpos, hpage, heq⟩
  · rw [heq]
    exact Prog.ensures_throw.mpr ⟨rfl, fun _ => ⟨e, rfl⟩, fun hn => absurd hrefused hn⟩
  · -- PostgreSQL refuses an offset below zero
    rw [heq, pageAt]
    refine Prog.ensures_bind.mpr ((countAnswers_ensures hq hallow).mono fun r s' hr => ?_)
    obtain ⟨rfl, rfl⟩ := hr
    refine Prog.ensures_bind.mpr (ensures_query hq (fun ch hch hr => absurd hr <|
      Store.not_refuses (hallow ch hch) (Stmt.bindable_of_nil rfl)) (fun msg _ => ?_) fun rows ws hrows => ?_)
    · exact ⟨rfl, fun _ => ⟨_, rfl⟩, fun hn => absurd (.inr (.inl hzero)) hn⟩
    · simp only [Stmt.eval, window, if_neg (show ¬ (limit.toNat : Int) < 0 by omega),
        if_pos (show -(limit.toNat : Int) < 0 by omega)] at hrows
      cases hrows
  · rw [heq, pageAt]
    refine Prog.ensures_bind.mpr ((countAnswers_ensures hq hallow).mono fun r s' hr => ?_)
    obtain ⟨rfl, rfl⟩ := hr
    refine Prog.ensures_bind.mpr ((ensures_select hq hallow (Stmt.bindable_of_nil rfl)
      (a := slice (answersOf s' questionId) limit.toNat page.toNat) ?_ rfl).mono fun r s'' hr => ?_)
    · simp only [Stmt.eval, window_offset, slice]
      rfl
    · obtain ⟨rfl, rfl⟩ := hr
      simp only [tryNew_eq hpos hpage]
      exact Prog.ensures_pure.mpr ⟨rfl, fun h => absurd h hok, fun _ => rfl⟩

/-- The reply to an accepted page, when `voted` are the answers shown as voted. -/
def replyOf (rows : List AnswerRow) (limit page : UInt64) (voted : List UInt64) :
    Pb.AnswerListResponse :=
  if rows.length = 0 then ⟨[], 0, 0, 0, 0, true⟩
  else
    let res := pageOf rows limit.toNat page.toNat
    ⟨res.answers.map fun a => a.toPb (voted.contains a.id.asU64), res.total.asU64,
      res.totalPage.asU64, res.pageSize.asU64, res.currentPage.asU64, res.isEnd⟩

variable {username : String}

theorem answerList_ensures (hq : s.pg.Quiet) (hallow : ∀ ch, allow ch → ¬ ch.Faulty)
    (questionId limit page : UInt64) (username : String) :
    (App.answerList ⟨questionId, page, limit, username⟩).Ensures Store.serve allow s fun r s' =>
      s' = s ∧ (Refused questionId limit page → ∃ status, r = .ok (.error status)) ∧
      (¬ Refused questionId limit page →
        ∃ voted, r = .ok (.ok (replyOf (answersOf s questionId) limit page voted)) ∧
          ∀ a ∈ slice (answersOf s questionId) limit.toNat page.toNat,
            (a.id.asU64 ∈ voted ↔ UserVote.HasVote s a.id.asU64 username "answer")) := by
  rw [App.answerList]
  refine Prog.ensures_bind.mpr (Prog.ensures_attempt.mpr
    ((findLatest_ensures hq hallow questionId limit page).mono fun r s' hr => ?_))
  obtain ⟨rfl, hrefused, haccepted⟩ := hr
  by_cases hr : Refused questionId limit page
  · obtain ⟨e, rfl⟩ := hrefused hr
    exact Prog.ensures_pure.mpr ⟨rfl, fun _ => ⟨_, rfl⟩, fun hn => absurd hr hn⟩
  · cases haccepted hr
    by_cases hzero : (answersOf s' questionId).length = 0
    · have htotal : (pageOf (answersOf s' questionId) limit.toNat page.toNat).total = 0 := by
        rw [pageOf, hzero]
        rfl
      simp only [htotal, if_true]
      refine Prog.ensures_pure.mpr ⟨rfl, fun h => absurd h hr, fun _ =>
        ⟨[], by rw [replyOf, if_pos hzero], fun a ha => ?_⟩⟩
      rw [List.length_eq_zero_iff.mp hzero, slice, List.drop_nil, List.take_nil] at ha
      exact absurd ha List.not_mem_nil
    · have htotal : ¬ (pageOf (answersOf s' questionId) limit.toNat page.toNat).total = 0 := fun h =>
        hzero (Int.natCast_eq_zero.mp h)
      simp only [if_neg htotal]
      by_cases hu : Storable username
      swap
      · -- the look-up is refused, and there are no votes under such a name
        refine Prog.ensures_bind.mpr (Prog.ensures_attempt.mpr
          ((UserVote.isBatchVoted_refused fun h => hu h.2).mono fun r s'' hvoted => ?_))
        obtain ⟨rfl, hnone⟩ := hvoted
        have hvotes (a : AnswerRow) : a.id.asU64 ∈ ([] : List UInt64) ↔
            UserVote.HasVote s'' a.id.asU64 username "answer" :=
          iff_of_false List.not_mem_nil fun h => hu h.storable.2
        cases r with
        | error e => exact ⟨rfl, fun h => absurd h hr, fun _ =>
            ⟨[], by rw [replyOf, if_neg hzero], fun a _ => hvotes a⟩⟩
        | ok voted =>
          rw [hnone voted rfl]
          exact ⟨rfl, fun h => absurd h hr, fun _ =>
            ⟨[], by rw [replyOf, if_neg hzero], fun a _ => hvotes a⟩⟩
      refine Prog.ensures_bind.mpr (Prog.ensures_attempt.mpr
        ((UserVote.isBatchVoted_serves hq hallow (by decide) hu _).mono fun r s'' hvoted => ?_))
      obtain ⟨rfl, voted, rfl, hkeys⟩ := hvoted
      refine Prog.ensures_pure.mpr ⟨rfl, fun h => absurd h hr, fun _ =>
        ⟨voted, by rw [replyOf, if_neg hzero], fun a ha => ?_⟩⟩
      refine (hkeys a.id.asU64).trans (and_iff_right ?_)
      rw [pageOf, List.map_map]
      exact List.mem_map_of_mem (f := fun r : AnswerRow => r.id.asU64) ha

theorem AnswerTable.length_le (h : AnswerTable s) : (answersOf s questionId).length ≤ i64Max := by
  have hsub : (s.db.answers.map AnswerRow.id).toFinset ⊆ Finset.Ioc 0 (i64Max : Int) := fun i hi =>
    Finset.mem_Ioc.mpr (h.range i (List.mem_toFinset.mp hi))
  have hcard := Finset.card_le_card hsub
  rw [List.toFinset_card_of_nodup h.keyed, List.length_map, Int.card_Ioc, Int.sub_zero,
    Int.toNat_natCast] at hcard
  rw [answersOf, length_descending]
  exact (List.length_filter_le _ _).trans hcard

theorem flatMap_slice (rows : List AnswerRow) (limit n : Nat) :
    (List.range' 1 n).flatMap (slice rows limit) = rows.take (n * limit) := by
  induction n with
  | zero => rw [Nat.zero_mul, List.take_zero]; rfl
  | succ n ih =>
    rw [List.range'_concat, List.flatMap_append, ih, List.flatMap_singleton, slice, Nat.one_mul,
      Nat.add_sub_cancel_left, Nat.add_mul, Nat.one_mul, List.take_add]

theorem not_refused {rows : List AnswerRow} (hlimit : 0 < limit.toNat)
    (hqid : questionId.toNat ≤ i64Max) (hmax : limit.toNat ≤ i64Max) (hrows : rows.length ≤ i64Max)
    (hpage : 0 < page.toNat) (hlast : page.toNat ≤ max 1 (totalPages rows.length limit.toNat)) :
    ¬ Refused questionId limit page := by
  have hfits : page.toNat ≤ i64Max ∧ (page.toNat - 1) * limit.toNat ≤ i64Max := by
    rcases Nat.eq_or_lt_of_le hpage with hone | hmore
    · rw [← hone]
      exact ⟨by decide, by rw [Nat.sub_self, Nat.zero_mul]; exact Nat.zero_le _⟩
    · have hoffset : (page.toNat - 1) * limit.toNat < rows.length :=
        mul_lt_of_lt_totalPages hlimit (by omega)
      have hpages : page.toNat - 1 ≤ (page.toNat - 1) * limit.toNat :=
        Nat.le_mul_of_pos_right _ hlimit
      omega
  rintro (rfl | rfl | h | h | h | h)
  · exact absurd hlimit (Nat.lt_irrefl 0)
  · exact absurd hpage (Nat.lt_irrefl 0)
  · exact absurd hqid (Nat.not_le_of_lt h)
  · exact absurd hmax (Nat.not_le_of_lt h)
  · exact absurd hfits.1 (Nat.not_le_of_lt h)
  · exact absurd hfits.2 (Nat.not_le_of_lt h)

theorem isEnd_replyOf {rows : List AnswerRow} {voted : List UInt64} (hlimit : 0 < limit.toNat)
    (hpage : 0 < page.toNat) : (replyOf rows limit page voted).isEnd =
      decide (max 1 (totalPages rows.length limit.toNat) ≤ page.toNat) := by
  have hrows := le_totalPages_mul (n := rows.length) hlimit
  rw [replyOf]
  split
  next h =>
    have : totalPages rows.length limit.toNat = 0 := by
      rw [h, totalPages, Nat.zero_div, Nat.zero_mod]
      rfl
    exact (decide_eq_true (by omega)).symm
  next h =>
    have : totalPages rows.length limit.toNat ≠ 0 := fun hz => by
      rw [hz, Nat.zero_mul] at hrows
      omega
    exact decide_eq_decide.mpr (by omega)

def unvoted (a : Pb.AnswerEntity) : Pb.AnswerEntity := { a with hasAggreed := false }

theorem answers_replyOf {rows : List AnswerRow} {voted : List UInt64} :
    (replyOf rows limit page voted).answers.map unvoted =
      (slice rows limit.toNat page.toNat).map fun a => a.toEntity.toPb false := by
  rw [replyOf]
  split
  next h => rw [List.length_eq_zero_iff.mp h, slice, List.drop_nil, List.take_nil]; rfl
  next => simp only [pageOf, List.map_map]; rfl

theorem answers_replyOf_past {rows : List AnswerRow} {voted : List UInt64}
    (hlimit : 0 < limit.toNat) (hpast : totalPages rows.length limit.toNat < page.toNat) :
    (replyOf rows limit page voted).answers = [] := by
  have hrows : rows.length ≤ (page.toNat - 1) * limit.toNat :=
    (le_totalPages_mul hlimit).trans (Nat.mul_le_mul_right _ (by omega))
  have hslice : slice rows limit.toNat page.toNat = [] := by
    rw [slice, List.drop_of_length_le hrows, List.take_nil]
  rw [replyOf]
  split
  next => rfl
  next => simp only [pageOf, hslice, List.map_nil]

variable {voted : UInt64 → List UInt64}

def replyAt (s : Store) (questionId limit : UInt64) (voted : UInt64 → List UInt64) (page : Nat) :
    Pb.AnswerListResponse :=
  replyOf (answersOf s questionId) limit (UInt64.ofNat page) (voted (UInt64.ofNat page))

theorem toNat_succ (hok : ¬ Refused questionId limit page) : (page + 1).toNat = page.toNat + 1 := by
  have hfits : page.toNat ≤ i64Max := Nat.le_of_not_lt fun hp =>
    hok (.inr (.inr (.inr (.inr (.inl hp)))))
  rw [i64Max] at hfits
  rw [UInt64.toNat_add, UInt64.toNat_one, Nat.mod_eq_of_lt (by omega)]

theorem walk_eq (h : AnswerTable s) (hlimit : 0 < limit.toNat) (hmax : limit.toNat ≤ i64Max)
    (hqid : questionId.toNat ≤ i64Max)
    (hreply : ∀ page, ¬ Refused questionId limit page →
      let r := (App.answerList ⟨questionId, page, limit, username⟩).run World.exec ⟨s, []⟩
      r.2.state = s ∧ r.1 = .ok (.ok (replyOf (answersOf s questionId) limit page (voted page))))
    {k requests : Nat} (hpage : 0 < page.toNat) (hrequests : k < requests)
    (hk : page.toNat + k = max 1 (totalPages (answersOf s questionId).length limit.toNat)) :
    walk questionId limit username requests page s =
      (List.range' page.toNat (k + 1)).map (replyAt s questionId limit voted) := by
  have hrows : (answersOf s questionId).length ≤ i64Max := h.length_le
  induction k generalizing requests page with
  | zero =>
    obtain ⟨m, rfl⟩ : ∃ m, requests = m + 1 := ⟨requests - 1, by omega⟩
    obtain ⟨-, hrun⟩ := hreply page (not_refused hlimit hqid hmax hrows hpage (by omega))
    rw [walk, hrun]
    have hend : (replyOf (answersOf s questionId) limit page (voted page)).isEnd = true := by
      rw [isEnd_replyOf hlimit hpage]
      exact decide_eq_true (by omega)
    simp only [hend, if_true]
    rw [Nat.zero_add, List.range'_one, List.map_singleton, replyAt, UInt64.ofNat_toNat]
  | succ k ih =>
    obtain ⟨m, rfl⟩ : ∃ m, requests = m + 1 := ⟨requests - 1, by omega⟩
    have hok := not_refused hlimit hqid hmax hrows hpage (by omega)
    obtain ⟨hstate, hrun⟩ := hreply page hok
    have hnext : (page + 1).toNat = page.toNat + 1 := toNat_succ hok
    rw [walk, hrun]
    have hend : (replyOf (answersOf s questionId) limit page (voted page)).isEnd = false := by
      rw [isEnd_replyOf hlimit hpage]
      exact decide_eq_false (by omega)
    have hrest := @ih (page + 1) m (by omega) (by omega) (by omega)
    have hfirst : replyAt s questionId limit voted page.toNat =
        replyOf (answersOf s questionId) limit page (voted page) := by
      rw [replyAt, UInt64.ofNat_toNat]
    rw [← hfirst] at hend ⊢
    simp only [hend, hstate, hrest, hnext]
    rfl

theorem totalPages_le {n k : Nat} (hk : 0 < k) : totalPages n k ≤ n := by
  by_contra hlt
  have := mul_lt_of_lt_totalPages hk (Nat.lt_of_not_le hlt)
  exact absurd (Nat.le_mul_of_pos_right n hk) (Nat.not_le_of_lt this)

theorem AnswerTable.toNat_page (h : AnswerTable s) (hlimit : 0 < limit.toNat) {i : Nat}
    (hi : i ≤ max 1 (totalPages (answersOf s questionId).length limit.toNat)) :
    (UInt64.ofNat i).toNat = i := by
  have hrows : (answersOf s questionId).length ≤ i64Max := h.length_le
  have hpages : totalPages (answersOf s questionId).length limit.toNat ≤ _ := totalPages_le hlimit
  rw [i64Max] at hrows
  exact UInt64.toNat_ofNat_of_lt' (by rw [UInt64.size]; omega)

theorem shown_eq (h : AnswerTable s) (hlimit : 0 < limit.toNat) (questionId : UInt64)
    (voted : UInt64 → List UInt64) :
    (((List.range' 1 (max 1 (totalPages (answersOf s questionId).length limit.toNat))).map
      (replyAt s questionId limit voted)).flatMap (·.answers)).map unvoted =
      (answersOf s questionId).map fun a => a.toEntity.toPb false := by
  have hpage : ∀ i ∈ List.range' 1 (max 1 (totalPages (answersOf s questionId).length limit.toNat)),
      (replyAt s questionId limit voted i).answers.map unvoted =
        (slice (answersOf s questionId) limit.toNat i).map fun a => a.toEntity.toPb false := by
    intro i hi
    have hi := List.mem_range'_1.mp hi
    have hle : i ≤ max 1 (totalPages (answersOf s questionId).length limit.toNat) := by omega
    rw [replyAt, answers_replyOf, h.toNat_page hlimit hle]
  have hall : (answersOf s questionId).length ≤
      max 1 (totalPages (answersOf s questionId).length limit.toNat) * limit.toNat :=
    (le_totalPages_mul hlimit).trans (Nat.mul_le_mul_right _ (le_max_right _ _))
  rw [List.flatMap_map, List.map_flatMap, List.flatMap_congr hpage, ← List.map_flatMap,
    flatMap_slice, List.take_of_length_le hall]

theorem shown_ids (h : AnswerTable s) (hlimit : 0 < limit.toNat) (questionId : UInt64)
    (voted : UInt64 → List UInt64) :
    (((List.range' 1 (max 1 (totalPages (answersOf s questionId).length limit.toNat))).map
      (replyAt s questionId limit voted)).flatMap (·.answers)).map (·.id) =
      (answersOf s questionId).map fun a => a.id.asU64 := by
  have hids := congrArg (List.map Pb.AnswerEntity.id) (shown_eq h hlimit questionId voted)
  rw [List.map_map, List.map_map] at hids
  exact hids

theorem walk_pages (h : AnswerTable s) (hlimit : 0 < limit.toNat) (hmax : limit.toNat ≤ i64Max)
    (hqid : questionId.toNat ≤ i64Max)
    (hreply : ∀ page, ¬ Refused questionId limit page →
      let r := (App.answerList ⟨questionId, page, limit, username⟩).run World.exec ⟨s, []⟩
      r.2.state = s ∧ r.1 = .ok (.ok (replyOf (answersOf s questionId) limit page (voted page))))
    {requests : Nat}
    (hrequests : max 1 (totalPages (answersOf s questionId).length limit.toNat) ≤ requests) :
    walk questionId limit username requests 1 s =
      (List.range' 1 (max 1 (totalPages (answersOf s questionId).length limit.toNat))).map
        (replyAt s questionId limit voted) := by
  obtain ⟨k, hk⟩ : ∃ k, max 1 (totalPages (answersOf s questionId).length limit.toNat) = k + 1 :=
    ⟨max 1 (totalPages (answersOf s questionId).length limit.toNat) - 1, by omega⟩
  have hone : (1 : UInt64).toNat + k = k + 1 := Nat.add_comm 1 k
  rw [hk] at hrequests ⊢
  exact walk_eq h hlimit hmax hqid hreply (by decide) hrequests (hone.trans hk.symm)

theorem walk_serves (h : AnswerTable s) (hlimit : 0 < limit.toNat) (hmax : limit.toNat ≤ i64Max)
    (hqid : questionId.toNat ≤ i64Max) (username : String) : ∃ voted, ∀ requests,
      max 1 (totalPages (answersOf s questionId).length limit.toNat) ≤ requests →
      walk questionId limit username requests 1 s =
        (List.range' 1 (max 1 (totalPages (answersOf s questionId).length limit.toNat))).map
          (replyAt s questionId limit voted) := by
  have hserved := fun page => served_of_ensures
    (answerList_ensures h.quiet (fun _ => id) questionId limit page username)
  choose! voted hvoted using fun page => (hserved page).2.2
  exact ⟨voted, fun _ => walk_pages h hlimit hmax hqid
    fun page hok => ⟨(hserved page).1, (hvoted page hok).1⟩⟩

theorem isEnd_replyAt (h : AnswerTable s) (hlimit : 0 < limit.toNat) {i : Nat} (h0 : 0 < i)
    (hi : i ≤ max 1 (totalPages (answersOf s questionId).length limit.toNat)) :
    (replyAt s questionId limit voted i).isEnd =
      decide (max 1 (totalPages (answersOf s questionId).length limit.toNat) ≤ i) := by
  have hpage := h.toNat_page hlimit hi
  rw [replyAt, isEnd_replyOf hlimit (by rw [hpage]; exact h0), hpage]

theorem replies_end (h : AnswerTable s) (hlimit : 0 < limit.toNat)
    (voted : UInt64 → List UInt64) : ∃ init last,
    (List.range' 1 (max 1 (totalPages (answersOf s questionId).length limit.toNat))).map
      (replyAt s questionId limit voted) = init ++ [last] ∧ last.isEnd = true ∧
      ∀ reply ∈ init, reply.isEnd = false := by
  obtain ⟨k, hk⟩ : ∃ k, max 1 (totalPages (answersOf s questionId).length limit.toNat) = k + 1 :=
    ⟨max 1 (totalPages (answersOf s questionId).length limit.toNat) - 1, by omega⟩
  refine ⟨(List.range' 1 k).map (replyAt s questionId limit voted),
    replyAt s questionId limit voted (1 + k), ?_, ?_, ?_⟩
  · rw [hk, List.range'_1_concat, List.map_append, List.map_singleton]
  · rw [isEnd_replyAt h hlimit (by omega) (by omega)]
    exact decide_eq_true (by omega)
  · intro reply hreply
    obtain ⟨i, hi, rfl⟩ := List.mem_map.mp hreply
    have hi := List.mem_range'_1.mp hi
    rw [isEnd_replyAt h hlimit (by omega) (by omega)]
    exact decide_eq_false (by omega)

theorem ids_pairwise (h : AnswerTable s) :
    ((answersOf s questionId).map fun a => a.id.asU64).Pairwise fun a b => b < a := by
  have hkeyed : ((s.db.answers.filter (·.questionId = (questionId.toNat : Int))).map
      AnswerRow.id).Nodup :=
    h.keyed.sublist (List.filter_sublist.map _)
  have hpair : (answersOf s questionId).Pairwise fun a b => b.id < a.id := pairwise_descending hkeyed
  refine List.pairwise_map.mpr (hpair.imp_of_mem fun {a b} ha hb hlt => ?_)
  have hrange : ∀ r ∈ answersOf s questionId, 0 < r.id ∧ r.id ≤ i64Max := fun r hr =>
    h.range r.id (List.mem_map_of_mem (List.mem_of_mem_filter (mem_descending.mp hr)))
  exact Int.asU64_lt (hrange a ha) (hrange b hb) hlt

theorem counts_replyOf (h : AnswerTable s) (hlimit : 0 < limit.toNat) {shownVoted : List UInt64}
    (hrows : 0 < (answersOf s questionId).length) :
    let reply := replyOf (answersOf s questionId) limit page shownVoted
    reply.total.toNat = (answersOf s questionId).length ∧
      reply.totalPage.toNat = totalPages (answersOf s questionId).length limit.toNat := by
  have hlen : (answersOf s questionId).length ≤ i64Max := h.length_le
  have hpages := totalPages_le (n := (answersOf s questionId).length) hlimit
  simp only [replyOf, if_neg (Nat.ne_of_gt hrows), pageOf]
  exact ⟨Int.toNat_asU64 (by omega) (by omega), Int.toNat_asU64 (by omega) (by omega)⟩

/-- The pages up to the last one hold each answer of the question once, newest first; every page
that is served counts them exactly, and none past the last one holds any.  Nothing is refused but
what `Refused` says. -/
theorem page_walk (h : AnswerTable s) (questionId limit : UInt64) (username : String) :
    let rows := answersOf s questionId
    let ceil := (rows.length + limit.toNat - 1) / limit.toNat
    (limit ≠ 0 → limit.toNat ≤ i64Max → questionId.toNat ≤ i64Max →
      ∀ requests, max 1 ceil ≤ requests →
        let replies := walk questionId limit username requests 1 s
        let shown := replies.flatMap (·.answers)
        replies.length = max 1 ceil ∧
        (∃ init last, replies = init ++ [last] ∧ last.isEnd = true ∧
          ∀ reply ∈ init, reply.isEnd = false) ∧
        shown.map unvoted = rows.map (fun a => a.toEntity.toPb false) ∧
        (shown.map (·.id)).Pairwise (fun a b => b < a) ∧
        ∀ a ∈ s.db.answers, a.questionId = questionId.toNat →
          (shown.map (·.id)).count a.id.asU64 = 1) ∧
    (∀ page reply,
      let r := (App.answerList ⟨questionId, page, limit, username⟩).run World.exec ⟨s, []⟩
      r.1 = .ok (.ok reply) →
        (0 < rows.length → reply.total.toNat = rows.length ∧ reply.totalPage.toNat = ceil) ∧
        (max 1 ceil < page.toNat → reply.answers = [] ∧ reply.isEnd = true)) ∧
    ∀ page,
      let r := (Answer.findLatest questionId limit page).run World.exec ⟨s, []⟩
      ((∃ e, r.1 = .error e) ↔ Refused questionId limit page) ∧
      (¬ Refused questionId limit page → r.1 = .ok (pageOf rows limit.toNat page.toNat)) := by
  have hserved := fun page => served_of_ensures
    (answerList_ensures h.quiet (fun _ => id) questionId limit page username)
  refine ⟨fun hpos hmax hqid requests hrequests => ?_, fun page reply hr => ?_, fun page => ?_⟩
  · have hlimit : 0 < limit.toNat := Nat.pos_of_ne_zero fun h => hpos (UInt64.toNat_inj.mp h)
    obtain ⟨voted, hwalk⟩ := walk_serves h hlimit hmax hqid username
    rw [← totalPages_eq hlimit] at hrequests ⊢
    have hshown := shown_eq h hlimit questionId voted
    have hids := shown_ids h hlimit questionId voted
    rw [hwalk requests hrequests]
    refine ⟨?_, replies_end h hlimit _, hshown, hids ▸ ids_pairwise h, fun a ha hq => ?_⟩
    · rw [List.length_map, List.length_range']
    · rw [hids]
      refine List.count_eq_one_of_mem ((ids_pairwise h).imp fun hlt => (UInt64.ne_of_lt hlt).symm) ?_
      exact List.mem_map_of_mem (f := fun r : AnswerRow => r.id.asU64)
        (mem_descending.mpr (List.mem_filter.mpr ⟨ha, decide_eq_true hq⟩))
  · obtain ⟨-, hrefused, haccepted⟩ := hserved page
    have hok : ¬ Refused questionId limit page := fun hn => by
      obtain ⟨status, hs⟩ := hrefused hn
      cases hr.symm.trans hs
    obtain ⟨voted, hs, -⟩ := haccepted hok
    cases hr.symm.trans hs
    have hlimit : 0 < limit.toNat := Nat.pos_of_ne_zero fun h =>
      hok (.inl (UInt64.toNat_inj.mp h))
    rw [← totalPages_eq hlimit]
    refine ⟨counts_replyOf h hlimit, fun hpast => ⟨answers_replyOf_past hlimit (by omega), ?_⟩⟩
    rw [isEnd_replyOf hlimit (by omega)]
    exact decide_eq_true hpast.le
  · obtain ⟨-, hrefused, haccepted⟩ := served_of_ensures
      (findLatest_ensures h.quiet (fun _ => id) questionId limit page)
    refine ⟨⟨fun ⟨e, he⟩ => ?_, hrefused⟩, haccepted⟩
    by_contra hok
    cases he.symm.trans (haccepted hok)

def someAnswers : Store :=
  let answer (id questionId : Int) : AnswerRow := ⟨id, questionId, "", .empty 50, .empty 50, 0, none, 0⟩
  { Store.empty 1 0 fun _ => 0 with
    pg := ⟨{ Db.empty with answers := [answer 1 7, answer 2 8, answer 4 7, answer 3 7] }, 1,
      fun _ => none⟩ }

theorem page_walk_someAnswers : (walk 7 2 "bob" 5 1 someAnswers).length = 2 ∧
    ((walk 7 2 "bob" 5 1 someAnswers).flatMap (·.answers)).map (·.id) = [4, 3, 1] := by
  have htable : AnswerTable someAnswers := ⟨fun _ => rfl, by decide, by decide⟩
  obtain ⟨hwalk, -, -⟩ := page_walk htable 7 2 "bob"
  obtain ⟨hlength, -⟩ := hwalk (by decide) (by decide) (by decide) 5 (by decide)
  exact ⟨hlength.trans (by decide), by decide⟩

end QaSys.AnswerWalk
