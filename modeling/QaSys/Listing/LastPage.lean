import QaSys.Listing.QuestionWalk

/-! Whether a page of questions says that it is the last one. -/

namespace QaSys.LastPage

open Keyset QuestionWalk

variable {s : Store} {limit lastId : UInt64} {script : List Choice}

/-- The id down to which the client has seen the questions after a reply. -/
def reached (lastId : UInt64) (reply : Pb.LatestQuestionResponse) : Option Int :=
  match reply.questions.getLast? with
  | some q => some q.id.toNat
  | none => cursorOf lastId

/-- The reply says it is the last exactly when no older question is stored. -/
def Exact (s : Store) (lastId : UInt64) (reply : Pb.LatestQuestionResponse) : Prop :=
  reply.isEnd = true ↔ ∀ r ∈ s.db.questions, ¬ Under (reached lastId reply) r.id

def remaining (s : Store) (lastId : UInt64) : List QuestionRow :=
  below QuestionRow.id (cursorOf lastId) s.db.questions

section

open Prog

theorem findLatest_ends (hq : s.pg.Quiet) (hlast : lastId.toNat ≤ i64Max) :
    (Question.findLatest lastId limit).Ends World.exec ⟨s, script.drop 0⟩ fun r _ =>
      (limit.toNat ≤ i64Max ∧ ¬ (turn script 0).Faulty ∧
        r = .ok (fetched limit (rowsAt limit lastId s))) ∨
      ((limit.toNat ≤ i64Max → (turn script 0).Faulty) ∧ ∃ e, r = .error e) := by
  by_cases hlimit : limit.toNat ≤ i64Max
  · have hsome : limit.tryI64 = some (limit.toNat : Int) := if_pos hlimit
    have hcursor : lastId.tryI64 = some (lastId.toNat : Int) := if_pos hlast
    simp only [Question.findLatest, hsome, hcursor, context, pure_bind, fetched_eq]
    split
    next h0 =>
      refine ends_bind.mpr (ends_select hq (a := rowsAt limit lastId s) ?_ rfl ?_ ?_)
      · simp only [Stmt.eval, window_zero, rowsAt, cursorOf, if_pos h0, page, below]
        rfl
      · exact fun hf e => .inr ⟨fun _ => (Store.refuses_of_nil rfl).mp hf, e, rfl⟩
      · exact fun hf => .inl ⟨hlimit, mt (Store.refuses_of_nil rfl).mpr hf, rfl⟩
    next h0 =>
      refine ends_bind.mpr (ends_select hq (a := rowsAt limit lastId s) ?_ rfl ?_ ?_)
      · simp only [Stmt.eval, window_zero, rowsAt, cursorOf, if_neg h0, page, below]
        rfl
      · exact fun hf e => .inr ⟨fun _ => (Store.refuses_of_nil rfl).mp hf, e, rfl⟩
      · exact fun hf => .inl ⟨hlimit, mt (Store.refuses_of_nil rfl).mpr hf, rfl⟩
  · have hnone : limit.tryI64 = none := if_neg hlimit
    simp only [Question.findLatest, hnone, context]
    exact .inr ⟨fun hle => absurd hle hlimit, _, rfl⟩

theorem latestQuestion_ends (hq : s.pg.Quiet) (hpos : limit ≠ 0) (hlast : lastId.toNat ≤ i64Max)
    (script : List Choice) :
    (App.latestQuestion ⟨lastId, limit⟩).Ends World.exec ⟨s, script⟩ fun r _ =>
      (limit.toNat ≤ i64Max ∧ ¬ (turn script 0).Faulty ∧
        r = .ok (.ok (replyOf limit (rowsAt limit lastId s)))) ∨
      ((limit.toNat ≤ i64Max → (turn script 0).Faulty) ∧ ∃ status, r = .ok (.error status)) := by
  change (App.latestQuestion ⟨lastId, limit⟩).Ends World.exec ⟨s, script.drop 0⟩ _
  refine ends_bind.mpr (ends_attempt.mpr ((findLatest_ends hq hlast).mono ?_))
  rintro r w (⟨hlimit, hf, rfl⟩ | ⟨hf, e, rfl⟩)
  · change (replied (fetched limit (rowsAt limit lastId s))).Ends World.exec w _
    rw [replied_fetched hpos]
    exact .inl ⟨hlimit, hf, rfl⟩
  · exact .inr ⟨hf, _, rfl⟩

end

theorem reached_replyOf {page : List QuestionRow} :
    reached lastId (replyOf limit page) = match page.getLast? with
      | some r => some (r.id.asU64.toNat : Int)
      | none => cursorOf lastId := by
  rw [reached, replyOf, List.getLast?_map]
  cases page.getLast? <;> rfl

theorem exact_replyOf (h : QuestionTable s) (hpos : limit ≠ 0) (lastId : UInt64) :
    Exact s lastId (replyOf limit (rowsAt limit lastId s)) ↔
      (remaining s lastId).length ≠ limit.toNat := by
  have hlimit : 0 < limit.toNat := by
    rcases Nat.eq_zero_or_pos limit.toNat with h0 | h0
    · exact absurd (UInt64.toNat_inj.mp h0) hpos
    · exact h0
  have hlen : (rowsAt limit lastId s).length = min limit.toNat (remaining s lastId).length := by
    rw [rowsAt, page, List.length_take, length_descending, remaining]
  have hend : (replyOf limit (rowsAt limit lastId s)).isEnd = true ↔
      (remaining s lastId).length < limit.toNat := by
    rw [replyOf, decide_eq_true_iff, hlen]
    omega
  rw [Exact, hend, reached_replyOf]
  cases hlast : (rowsAt limit lastId s).getLast? with
  | none =>
    have hnil : remaining s lastId = [] :=
      (page_eq_nil hlimit).mp (List.getLast?_eq_none_iff.mp hlast)
    have hnone : ∀ r ∈ s.db.questions, ¬ Under (cursorOf lastId) r.id := fun r hr hu =>
      absurd (mem_below.mpr ⟨hr, hu⟩) (by rw [← remaining, hnil]; exact List.not_mem_nil)
    rw [hnil]
    exact iff_of_true (iff_of_true hlimit hnone) hlimit.ne
  | some last =>
    obtain ⟨h0, -, hmax⟩ := h.range last.id
      (List.mem_map_of_mem (of_mem_page (List.mem_of_getLast? hlast)).1)
    have hid : (last.id.asU64.toNat : Int) = last.id := by
      rw [Int.toNat_asU64 h0.le hmax]
      omega
    have holder : (∀ r ∈ s.db.questions, ¬ Under (some (last.id.asU64.toNat : Int)) r.id) ↔
        (remaining s lastId).length ≤ limit.toNat := by
      rw [← not_lt, remaining, ← exists_lt_last h.keyed hlast]
      simp only [hid, under_some, not_exists, not_and]
    simp only [holder]
    omega

/-- `is_end` is exact in the replies of a request exactly if the questions below the cursor do not
fill one page to the last row. -/
theorem isEnd_exact (h : QuestionTable s) (hpos : limit ≠ 0) (hlast : lastId.toNat ≤ i64Max)
    (script : List Choice) :
    (∀ reply, ((App.latestQuestion ⟨lastId, limit⟩).run World.exec ⟨s, script⟩).1 = .ok (.ok reply) →
      Exact s lastId reply) ↔
    (limit.toNat ≤ i64Max → ¬ (turn script 0).Faulty →
      (remaining s lastId).length ≠ limit.toNat) := by
  have hends := latestQuestion_ends h.quiet hpos hlast script
  generalize hr : ((App.latestQuestion ⟨lastId, limit⟩).run World.exec ⟨s, script⟩).1 = r
  rw [Prog.Ends, hr] at hends
  rcases hends with ⟨hlimit, hf, rfl⟩ | ⟨hf, status, rfl⟩
  · have hexact := exact_replyOf h hpos lastId
    constructor
    · exact fun hall _ _ => hexact.mp (hall _ rfl)
    · intro hne reply heq
      cases heq
      exact hexact.mpr (hne hlimit hf)
  · refine iff_of_true (fun reply heq => ?_) fun hlimit hserved => absurd (hf hlimit) hserved
    cases heq

def twoQuestions : Store := Runs.after change (Store.empty 1 0 fun _ => 0)
  [.add { title := "a", createdBy := "alice" } [], .add { title := "b", createdBy := "bob" } []]

theorem twoQuestions_table : QuestionTable twoQuestions := table_after .empty _

theorem isEnd_exact_three : Exact twoQuestions 0 (replyOf 3 (rowsAt 3 0 twoQuestions)) := by
  have hpos : (3 : UInt64) ≠ 0 := by decide
  have hlast : (0 : UInt64).toNat ≤ i64Max := by decide
  exact (isEnd_exact twoQuestions_table hpos hlast []).mpr (by decide) _ rfl

/-- Both questions are on the first page, which says that there are more. -/
theorem isEnd_missed : ¬ ∀ reply,
    ((App.latestQuestion ⟨0, 2⟩).run World.exec ⟨twoQuestions, []⟩).1 = .ok (.ok reply) →
      Exact twoQuestions 0 reply := by
  intro h
  have hexact := h (replyOf 2 (rowsAt 2 0 twoQuestions)) rfl
  exact absurd rfl ((exact_replyOf twoQuestions_table (by decide) 0).mp hexact)

end QaSys.LastPage
