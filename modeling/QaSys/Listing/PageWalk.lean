import QaSys.Content.Runs
import QaSys.Data.Offset
import QaSys.Listing.AnswerWalk
import QaSys.Program.Interleaved
import QaSys.Auth.Tabulated

/-! A client that reads the answers of a question page by page, while other calls of the service come
between its requests and between the reads of a request. -/

namespace QaSys.PageWalk

open AnswerWalk Content Keyset Runs

abbrev Listing := Svc (App.Reply Pb.AnswerListResponse)

abbrev State := Interleaved Call Call.Reply Err (App.Reply Pb.AnswerListResponse) Store

variable (svc : QaServiceImpl)

abbrev step : State → Interleaved.Event Choice Content.Event → State :=
  Interleaved.step (Store.exec 0) (Content.next svc)

/-- The reads of one request, and what happens before each of them. -/
structure Visit where
  before : List Content.Event
  count : Choice
  between : List Content.Event
  select : Choice
  after : List Content.Event
  look : Choice

namespace Visit

def events (v : Visit) : List (Interleaved.Event Choice Content.Event) :=
  Interleaved.spread [(v.before, v.count), (v.between, v.select), (v.after, v.look)]

def counted (v : Visit) (s : Store) : Store := Runs.after (Content.next svc) s v.before

def selected (v : Visit) (s : Store) : Store :=
  Runs.after (Content.next svc) (v.counted svc s) v.between

def finish (v : Visit) (req : Pb.AnswerListRequest) (s : Store) : State :=
  Runs.after (step svc) ⟨App.answerList req, s⟩ v.events

end Visit

def replied : Listing → Option Pb.AnswerListResponse
  | .ret (.ok reply) => some reply
  | _ => none

/-- A request of a walk, in the store in which it begins. -/
structure Page where
  number : Nat
  start : Store
  visit : Visit
  reply : Pb.AnswerListResponse

namespace Page

def counted (p : Page) : Store := p.visit.counted svc p.start

def selected (p : Page) : Store := p.visit.selected svc p.start

def stores (p : Page) : List Store :=
  (p.visit.before ++ p.visit.between ++ p.visit.after).inits.map
    (Runs.after (Content.next svc) p.start)

end Page

/-- The requests for one page after the other, up to the first reply that says `isEnd`. -/
inductive Walk (questionId limit : UInt64) (username : String) :
    UInt64 → Store → List Page → Prop
  | last {page : UInt64} {s : Store} {v : Visit} {reply : Pb.AnswerListResponse} :
      replied (v.finish svc ⟨questionId, page, limit, username⟩ s).prog = some reply →
      reply.isEnd = true → Walk questionId limit username page s [⟨page.toNat, s, v, reply⟩]
  | more {page : UInt64} {s : Store} {v : Visit} {reply : Pb.AnswerListResponse}
      {rest : List Page} :
      replied (v.finish svc ⟨questionId, page, limit, username⟩ s).prog = some reply →
      reply.isEnd = false →
      Walk questionId limit username (page + 1)
        (v.finish svc ⟨questionId, page, limit, username⟩ s).state rest →
      Walk questionId limit username page s (⟨page.toNat, s, v, reply⟩ :: rest)

def answerRows (s : Store) (questionId : UInt64) : List AnswerRow :=
  s.db.answers.filter (·.questionId = questionId.toNat)

def Present (questionId : UInt64) (id : Int) (s : Store) : Prop :=
  id ∈ (answerRows s questionId).map AnswerRow.id

/-- How many answers of the question are listed before `id`. -/
def position (questionId : UInt64) (id : Int) (s : Store) : Nat :=
  rank AnswerRow.id (answerRows s questionId) id

/-- The answer exists during the whole walk. -/
def Lasts (questionId : UInt64) (id : Int) (pages : List Page) : Prop :=
  ∀ p ∈ pages, ∀ s ∈ p.stores svc, Present questionId id s

def Shown (id : Int) (pages : List Page) : Prop :=
  ∃ p ∈ pages, ∃ a ∈ p.reply.answers, a.id = id.asU64

/-- Enough of the answers listed before `id` are deleted between the reads of two pages to bring it
from behind the first of the pages to before the second one. -/
def Overtaken (questionId limit : UInt64) (id : Int) (pages : List Page) : Prop :=
  ∃ init p p' rest, pages = init ++ p :: p' :: rest ∧
    p.number * limit.toNat ≤ position questionId id (p.selected svc) ∧
    position questionId id (p'.selected svc) < p.number * limit.toNat

/-- Answers that are added between the count and the read of the last page bring `id` from the
counted pages to behind them. -/
def Displaced (questionId limit : UInt64) (id : Int) (pages : List Page) : Prop :=
  ∃ init p, pages = init ++ [p] ∧
    position questionId id (p.counted svc) < p.number * limit.toNat ∧
    p.number * limit.toNat ≤ position questionId id (p.selected svc)

def Silent (p : Listing) : Prop := p.Finished ∧ replied p = none

def listed (username : String) (res : LatestAnswerResponse) : Listing := do
  if res.total = 0 then return .ok ⟨[], 0, 0, 0, 0, true⟩
  let ids := res.answers.map (·.id.asU64)
  let voted := match ← (UserVote.isBatchVoted ids username "answer").attempt with
    | .ok voted => voted
    | .error _ => []
  return .ok ⟨res.answers.map fun a => a.toPb (voted.contains a.id.asU64), res.total.asU64,
    res.totalPage.asU64, res.pageSize.asU64, res.currentPage.asU64, res.isEnd⟩

def resOf (total limit page : Nat) (rows : List AnswerRow) : LatestAnswerResponse :=
  ⟨rows.map AnswerRow.toEntity, total, totalPages total limit, limit, page,
    decide (totalPages total limit ≤ page)⟩

variable {svc} {questionId limit page : UInt64} {username : String} {s : Store} {v : Visit}
  {id : Int} {pages : List Page}

instance : Decidable (Present questionId id s) := inferInstanceAs (Decidable (_ ∈ _))

instance : Decidable (Lasts svc questionId id pages) :=
  inferInstanceAs (Decidable (∀ p ∈ pages, ∀ s ∈ p.stores svc, Present questionId id s))

instance : Decidable (Shown id pages) :=
  inferInstanceAs (Decidable (∃ p ∈ pages, ∃ a ∈ p.reply.answers, a.id = id.asU64))

theorem answerList_prog (username : String) (hpage : 0 < page.toNat) :
    Silent (App.answerList ⟨questionId, page, limit, username⟩) ∨
    (¬ Refused questionId limit page ∧ 0 < limit.toNat ∧ ∃ k,
      App.answerList ⟨questionId, page, limit, username⟩ =
        .call (.sql (.countAnswers questionId.toNat)) k ∧ (∀ e, Silent (k (.error e))) ∧
      ∀ total : Nat, ∃ k', k (.ok total) = .call (.sql (.pageAnswers questionId.toNat limit.toNat
          (((page.toNat - 1) * limit.toNat : Nat) : Int))) k' ∧ (∀ e, Silent (k' (.error e))) ∧
        ∀ rows : List AnswerRow, k' (.ok rows) =
          listed username (resOf total limit.toNat page.toNat rows)) := by
  rcases findLatest_cases questionId limit page with
    ⟨-, e, heq⟩ | ⟨hzero, -⟩ | ⟨hok, hpos, -, heq⟩
  · refine .inl ?_
    rw [App.answerList, heq]
    exact ⟨trivial, rfl⟩
  · subst hzero
    exact absurd hpage (Nat.lt_irrefl 0)
  · refine .inr ⟨hok, hpos, ?_⟩
    rw [App.answerList, heq, pageAt]
    refine ⟨_, rfl, fun _ => ⟨trivial, rfl⟩, fun total => ⟨_, rfl, fun _ => ⟨trivial, rfl⟩,
      fun rows => ?_⟩⟩
    have htry : LatestAnswerResponse.tryNew (rows.map AnswerRow.toEntity) total limit.toNat
        page.toNat = .ok (resOf total limit.toNat page.toNat rows) := tryNew_total hpos hpage
    simp only [Prog.ofExcept, Prog.bind, htry]
    rfl

theorem tables_finish (h : Tables s) (req : Pb.AnswerListRequest) :
    Tables (v.finish svc req s).state := by
  have hlight : ((Rpc.answerList req).serve svc).Within Call.Light :=
    Rpc.Light.within (trivial : (Rpc.answerList req).Light)
  refine Interleaved.run_invariant (P := Call.Light) (I := Tables) ?_ (fun _ e h => h.next e)
    hlight h _
  intro ch c s r s' hc h hexec
  obtain ⟨hpg, hseq⟩ := hc.exec h.quiet hexec
  have hdb : s'.db = s.db := congrArg Transaction.Sessions.db hpg
  refine ⟨hpg ▸ h.quiet, ?_, ?_⟩
  · rw [hdb, hseq]
    exact h.questions
  · rw [hdb, hseq]
    exact h.answers

theorem tables_after (h : Tables s) (evs : List Content.Event) :
    Tables (Runs.after (Content.next svc) s evs) :=
  (always_of_forall (P := fun _ _ => True) (fun _ _ => trivial) s evs).invariant
    (I := Tables) (fun _ e h _ => h.next e) h

theorem replied_silent {p : Listing} (hp : Silent p)
    (evs : List (Interleaved.Event Choice Content.Event)) {reply : Pb.AnswerListResponse} :
    replied (Runs.after (step svc) ⟨p, s⟩ evs).prog ≠ some reply := by
  rw [Interleaved.run_finished hp.1, hp.2]
  nofun

def replyOf (res : LatestAnswerResponse) (voted : List UInt64) : Pb.AnswerListResponse :=
  ⟨res.answers.map fun a => a.toPb (voted.contains a.id.asU64), res.total.asU64,
    res.totalPage.asU64, res.pageSize.asU64, res.currentPage.asU64, res.isEnd⟩

theorem listed_prog (username : String) {res : LatestAnswerResponse} (htotal : res.total ≠ 0) :
    (∃ voted, listed username res = .ret (.ok (replyOf res voted))) ∨
    ∃ q k, listed username res = .call (.sql q) k ∧
      ∀ r, ∃ voted, k r = .ret (.ok (replyOf res voted)) := by
  rw [listed, if_neg htotal]
  cases hids : (res.answers.map (·.id.asU64)).isEmpty with
  | true =>
    simp only [UserVote.isBatchVoted, hids, if_true]
    exact .inl ⟨_, rfl⟩
  | false =>
    simp only [UserVote.isBatchVoted, hids, Bool.false_eq_true, if_false]
    refine .inr ⟨_, _, rfl, fun r => ?_⟩
    cases r with
    | ok rows => exact ⟨_, rfl⟩
    | error e => exact ⟨_, rfl⟩

theorem replied_listed {res : LatestAnswerResponse} (es : List Content.Event) (ch : Choice)
    {reply : Pb.AnswerListResponse} (hr : replied (Runs.after (step svc)
      ⟨listed username res, s⟩ (Interleaved.spread [(es, ch)])).prog = some reply) :
    (res.total = 0 ∧ reply = ⟨[], 0, 0, 0, 0, true⟩) ∨
      (res.total ≠ 0 ∧ ∃ voted, reply = replyOf res voted) := by
  by_cases htotal : res.total = 0
  · rw [listed, if_pos htotal, Interleaved.run_finished] at hr
    · exact .inl ⟨htotal, (Option.some.inj hr).symm⟩
    · trivial
  refine .inr ⟨htotal, ?_⟩
  rcases listed_prog username htotal with ⟨voted, hret⟩ | ⟨q, k, hcall, hk⟩
  · rw [hret, Interleaved.run_finished] at hr
    · exact ⟨voted, (Option.some.inj hr).symm⟩
    · trivial
  · rw [hcall, Interleaved.run_spread, Interleaved.spread, after_nil] at hr
    change replied (Interleaved.step _ _ ⟨_, Runs.after (Content.next svc) s es⟩ _).prog = _ at hr
    cases hexec : Store.exec 0 ch (.sql q) (Runs.after (Content.next svc) s es) with
    | none =>
      simp only [Interleaved.step, Prog.advance, hexec] at hr
      cases hr
    | some res =>
      obtain ⟨r, s'⟩ := res
      obtain ⟨voted, hvoted⟩ := hk r
      rw [Interleaved.step_call hexec, hvoted] at hr
      exact ⟨voted, (Option.some.inj hr).symm⟩

theorem replied_finish (h : Tables s) (hpage : 0 < page.toNat) {reply : Pb.AnswerListResponse}
    (hr : replied (v.finish svc ⟨questionId, page, limit, username⟩ s).prog = some reply) :
    ¬ Refused questionId limit page ∧ 0 < limit.toNat ∧ ∃ voted,
      let total := (answerRows (v.counted svc s) questionId).length
      let rows := (answersOf (v.selected svc s) questionId)
      reply = if total = 0 then ⟨[], 0, 0, 0, 0, true⟩
        else replyOf (resOf total limit.toNat page.toNat (slice rows limit.toNat page.toNat))
          voted := by
  have hcounted : Tables (v.counted svc s) := tables_after h v.before
  have hselected : Tables (v.selected svc s) := tables_after hcounted v.between
  rcases answerList_prog username hpage with hsilent | ⟨hok, hpos, k, hprog, herr, hnext⟩
  · exact absurd hr (replied_silent hsilent _)
  refine ⟨hok, hpos, ?_⟩
  rw [Visit.finish, hprog, Visit.events, Interleaved.run_spread] at hr
  change replied (Runs.after (step svc) (step svc ⟨_, v.counted svc s⟩ _) _).prog = _ at hr
  rcases Store.exec_read (q := .countAnswers questionId.toNat) hcounted.quiet 0 v.count rfl rfl with
    ⟨-, e, hread⟩ | ⟨-, hread⟩
  · rw [step, Interleaved.step_call hread] at hr
    exact absurd hr (replied_silent (herr e) _)
  obtain ⟨k', hprog', herr', hnext'⟩ := hnext (answerRows (v.counted svc s) questionId).length
  have heval : (Stmt.pageAnswers questionId.toNat limit.toNat
      (((page.toNat - 1) * limit.toNat : Nat) : Int)).eval (v.selected svc s).seq
        (v.selected svc s).db =
      .ok (slice (answersOf (v.selected svc s) questionId) limit.toNat page.toNat, []) := by
    simp only [Stmt.eval, window_offset, slice]
    rfl
  rw [step, Interleaved.step_call hread] at hr
  change replied (Runs.after (step svc) ⟨k (.ok ((answerRows (v.counted svc s) questionId).length :
    Int)), _⟩ _).prog = _ at hr
  rw [hprog', Interleaved.run_spread] at hr
  change replied (Runs.after (step svc) (step svc ⟨_, v.selected svc s⟩ _) _).prog = _ at hr
  rcases Store.exec_read hselected.quiet 0 v.select heval rfl with ⟨-, e, hread'⟩ | ⟨-, hread'⟩
  · rw [step, Interleaved.step_call hread'] at hr
    exact absurd hr (replied_silent (herr' e) _)
  rw [step, Interleaved.step_call hread', hnext'] at hr
  rcases replied_listed v.after v.look hr with ⟨hzero, rfl⟩ | ⟨hne, voted, rfl⟩
  · exact ⟨[], (if_pos (Int.natCast_eq_zero.mp hzero)).symm⟩
  · exact ⟨voted, (if_neg fun hz => hne (Int.natCast_eq_zero.mpr hz)).symm⟩

theorem Page.counted_mem (p : Page) : p.counted svc ∈ p.stores svc := by
  refine List.mem_map.mpr ⟨p.visit.before, (List.mem_inits _ _).mpr ?_, rfl⟩
  rw [List.append_assoc]
  exact List.prefix_append ..

theorem Page.selected_mem (p : Page) : p.selected svc ∈ p.stores svc :=
  List.mem_map.mpr ⟨p.visit.before ++ p.visit.between, (List.mem_inits _ _).mpr (List.prefix_append ..),
    after_append ..⟩

theorem position_lt (h : Present questionId id s) :
    position questionId id s < (answerRows s questionId).length := by
  obtain ⟨r, hr, rfl⟩ := List.mem_map.mp h
  exact rank_lt_length hr

theorem shown_or_behind (h : Tables s) (hpage : 0 < page.toNat) {reply : Pb.AnswerListResponse}
    (hr : replied (v.finish svc ⟨questionId, page, limit, username⟩ s).prog = some reply)
    (hcounted : Present questionId id (v.counted svc s))
    (hselected : Present questionId id (v.selected svc s))
    (hreached : (page.toNat - 1) * limit.toNat ≤ position questionId id (v.selected svc s)) :
    (∃ a ∈ reply.answers, a.id = id.asU64) ∨
    (page.toNat * limit.toNat ≤ position questionId id (v.selected svc s) ∧ (reply.isEnd = true →
      position questionId id (v.counted svc s) < page.toNat * limit.toNat)) := by
  obtain ⟨-, hpos, voted, heq⟩ := replied_finish h hpage hr
  have hlt := position_lt hcounted
  dsimp only at heq
  rw [if_neg (by omega)] at heq
  subst heq
  by_cases hbehind : page.toNat * limit.toNat ≤ position questionId id (v.selected svc s)
  · refine .inr ⟨hbehind, fun hend => ?_⟩
    have hpages : totalPages (answerRows (v.counted svc s) questionId).length limit.toNat ≤
        page.toNat := of_decide_eq_true hend
    have htotal := le_totalPages_mul (n := (answerRows (v.counted svc s) questionId).length) hpos
    have := Nat.mul_le_mul_right limit.toNat hpages
    omega
  · refine .inl ?_
    obtain ⟨r, hr, rfl⟩ := List.mem_map.mp hselected
    have htables : Tables (v.selected svc s) := tables_after (tables_after h v.before) v.between
    have hnodup : ((answerRows (v.selected svc s) questionId).map AnswerRow.id).Nodup :=
      htables.answers.nodup.sublist (List.filter_sublist.map _)
    have hnext : (page.toNat - 1) * limit.toNat + limit.toNat = page.toNat * limit.toNat := by
      rw [← Nat.succ_mul, Nat.succ_eq_add_one, Nat.sub_add_cancel hpage]
    have hmem := (mem_page_iff hnodup hr limit.toNat ((page.toNat - 1) * limit.toNat)).mpr
      ⟨hreached, by rw [hnext]; exact Nat.lt_of_not_le hbehind⟩
    exact ⟨_, List.mem_map_of_mem (List.mem_map_of_mem hmem), rfl⟩

theorem walk_reaches (h : Tables s) (hpage : 0 < page.toNat)
    (hw : Walk svc questionId limit username page s pages) (hlasts : Lasts svc questionId id pages)
    (hreached : ∀ p ∈ pages.head?, (page.toNat - 1) * limit.toNat ≤
      position questionId id (p.selected svc)) :
    Shown id pages ∨ Overtaken svc questionId limit id pages ∨
      Displaced svc questionId limit id pages := by
  induction hw with
  | @last page s v reply hr hend =>
    have hp := hlasts _ List.mem_cons_self
    rcases shown_or_behind h hpage hr (hp _ (Page.counted_mem _)) (hp _ (Page.selected_mem _))
      (hreached _ rfl) with ⟨a, ha, hid⟩ | ⟨hbehind, hcount⟩
    · exact .inl ⟨_, List.mem_cons_self, a, ha, hid⟩
    · exact .inr (.inr ⟨[], _, rfl, hcount hend, hbehind⟩)
  | @more page s v reply rest hr hend hrest ih =>
    have hp := hlasts _ List.mem_cons_self
    rcases shown_or_behind h hpage hr (hp _ (Page.counted_mem _)) (hp _ (Page.selected_mem _))
      (hreached _ rfl) with ⟨a, ha, hid⟩ | ⟨hbehind, -⟩
    · exact .inl ⟨_, List.mem_cons_self, a, ha, hid⟩
    obtain ⟨p', rest, rfl⟩ : ∃ p' rest', rest = p' :: rest' := by
      cases hrest with
      | last => exact ⟨_, _, rfl⟩
      | more => exact ⟨_, _, rfl⟩
    by_cases hovertaken : position questionId id (p'.selected svc) < page.toNat * limit.toNat
    · exact .inr (.inl ⟨[], _, p', rest, rfl, hbehind, hovertaken⟩)
    obtain ⟨hok, -⟩ := replied_finish h hpage hr
    have hnext : (page + 1).toNat = page.toNat + 1 := toNat_succ hok
    rcases ih (tables_finish h _) (by omega) (fun p hp => hlasts p (List.mem_cons_of_mem _ hp))
      (fun p hp => by
        rw [hnext, Nat.add_sub_cancel, ← Option.some.inj hp]
        exact Nat.le_of_not_lt hovertaken) with
      ⟨p, hp, hshown⟩ | ⟨init, p, p'', tail, hsplit, hover⟩ | ⟨init, p, hsplit, hdisplaced⟩
    · exact .inl ⟨p, List.mem_cons_of_mem _ hp, hshown⟩
    · exact .inr (.inl ⟨_ :: init, p, p'', tail, by rw [hsplit]; rfl, hover⟩)
    · exact .inr (.inr ⟨_ :: init, p, by rw [hsplit]; rfl, hdisplaced⟩)

/-- Every answer that exists during the whole walk is on one of the pages, unless deletions of newer
answers bring it from behind a page to before the next one, or newer answers that are added between
the count and the read of the last page bring it behind that page. -/
theorem lasting_shown (h : Tables s) (hw : Walk svc questionId limit username 1 s pages)
    (hlasts : Lasts svc questionId id pages) :
    Shown id pages ∨ Overtaken svc questionId limit id pages ∨
      Displaced svc questionId limit id pages :=
  walk_reaches h (by decide) hw hlasts fun p _ => by simp

def twoAnswers : Store :=
  Runs.after (Content.next default) (Store.empty 1 0 fun _ => 0)
    [.rpc (.addAnswer ⟨some { questionId := 1, content := "a", createBy := "alice" }⟩) [],
      .rpc (.addAnswer ⟨some { questionId := 1, content := "b", createBy := "bob" }⟩) []]

theorem twoAnswers_tables : Tables twoAnswers := tables_after .empty _

def alone : Visit := ⟨[], .serve, [], .serve, [], .serve⟩

theorem lasting_shown_alone : ∃ pages, Walk default 1 1 "carol" 1 twoAnswers pages ∧
    (Shown 1 pages ∨ Overtaken default 1 1 1 pages ∨ Displaced default 1 1 1 pages) :=
  have hw := .more (v := alone) rfl rfl (.last (v := alone) rfl rfl)
  ⟨_, hw, lasting_shown twoAnswers_tables hw (by decide)⟩

/-- The answer of the first page is deleted before the second one is counted. -/
def withdrawn : Visit :=
  { alone with before := [.rpc (.deleteAnswer ⟨2, "bob"⟩) []] }

/-- An answer is added after the count says that the first page is the last one. -/
def crowded : Visit :=
  { alone with
    between := [.rpc (.addAnswer ⟨some { questionId := 1, content := "c", createBy := "dave" }⟩) []] }

theorem walk_skips :
    (∃ pages, Walk default 1 1 "carol" 1 twoAnswers pages ∧
      Lasts default 1 1 pages ∧ ¬ Shown 1 pages) ∧
    ∃ pages, Walk default 1 2 "carol" 1 twoAnswers pages ∧
      Lasts default 1 1 pages ∧ ¬ Shown 1 pages :=
  ⟨⟨_, .more (v := alone) rfl rfl (.last (v := withdrawn) rfl rfl), by decide, by decide⟩,
    ⟨_, .last (v := crowded) rfl rfl, by decide, by decide⟩⟩

end QaSys.PageWalk
