import QaSys.Content.Runs
import QaSys.Data.Stamps
import QaSys.Auth.Tabulated

/-! When the questions and the answers say they were made and last changed. -/

namespace QaSys.Content

open UserVote Runs Stamps

/-- The store, with the times of the operations that were reported as done. -/
structure Timed where
  store : Store
  questions : Stamps
  answers : Stamps

variable (svc : QaServiceImpl)

namespace Timed

def noted (x : Timed) : (c : Rpc) → Except Err (App.Reply c.Reply) → Stamps × Stamps
  | .addQuestion _, .ok (.ok res) => (x.questions.add res.id.asI64 x.store.clock, x.answers)
  | .updateQuestion req, .ok (.ok _) => (x.questions.touch req.id.asI64 x.store.clock, x.answers)
  | .addAnswer _, .ok (.ok res) => (x.questions, x.answers.add res.id.asI64 x.store.clock)
  | .updateAnswer req, .ok (.ok _) => (x.questions, x.answers.touch req.id.asI64 x.store.clock)
  | _, _ => (x.questions, x.answers)

def record (x : Timed) : Event → Stamps × Stamps
  | .rpc c script => x.noted c (served svc x.store c script).1
  | .vote ⟨_, .ok data⟩ script =>
    if (Ledger.handled x.store data script).1 = .ok true then
      (x.questions, x.answers.touch data.targetId.toInt x.store.clock)
    else (x.questions, x.answers)
  | _ => (x.questions, x.answers)

def next (x : Timed) (e : Event) : Timed :=
  ⟨Content.next svc x.store e, (x.record svc e).1, (x.record svc e).2⟩

end Timed

def stampedQuestions (s : Store) : List (Int × Stamp) :=
  s.db.questions.map fun r => (r.id, ⟨r.createdAt, r.updatedAt⟩)

def stampedAnswers (s : Store) : List (Int × Stamp) :=
  s.db.answers.map fun r => (r.id, ⟨r.createdAt, r.updatedAt⟩)

/-- Every row says when it was made and when it was last changed, if it was. -/
structure Timely (x : Timed) : Prop where
  questions : Fits x.questions (stampedQuestions x.store)
  answers : Fits x.answers (stampedAnswers x.store)

/-- The rows are timely after the event, none was changed before it was made, and none lost its time
of change. -/
structure Punctual (x : Timed) (e : Event) : Prop where
  timely : Timely (x.next svc e)
  questions : Ordered (stampedQuestions (x.next svc e).store)
  answers : Ordered (stampedAnswers (x.next svc e).store)
  questionsAdvance : Advanced (stampedQuestions x.store) (stampedQuestions (x.next svc e).store)
  answersAdvance : Advanced (stampedAnswers x.store) (stampedAnswers (x.next svc e).store)

/-- Rows are made when the clock shows the epoch, and no stored question is edited. -/
def AtEpoch (x : Timed) : Event → Prop
  | .rpc c script => c.Accepted x.store script → match c with
    | .addQuestion _ | .addAnswer _ => x.store.clock = 0
    | .updateQuestion req => ∀ q ∈ x.store.db.questions, q.id ≠ req.id.asI64
    | _ => True
  | _ => True

instance (x : Timed) : (e : Event) → Decidable (AtEpoch x e)
  | .rpc c _ => match c with
    | .addQuestion _ | .deleteQuestion _ | .updateQuestion _ | .addAnswer _ | .deleteAnswer _
    | .updateAnswer _ | .agreeAnswer _ | .questionDetail _ | .latestQuestion _ | .answerList _
    | .answerDetail _ | .answerAgree _ | .userLogin _ | .userLogout _ | .userRegister _
    | .verifyToken _ => instDecidableForall
  | .tick _ | .vote .. => instDecidableTrue

structure Timed.Past (x : Timed) : Prop where
  questions : Stamps.Past x.questions x.store.clock
  answers : Stamps.Past x.answers x.store.clock

variable {svc} {x : Timed} {script : List Choice}

theorem clock_effect {s s' : Store} {c : Rpc} {r : Except Err (App.Reply c.Reply)}
    (he : Effect s script c r s') : s'.clock = s.clock := by
  cases he with
  | kept hk => exact hk.clock
  | _ => rfl

theorem clock_ballot {s s' : Store} {msg : Delivery} (hb : Ballot s script msg s') :
    s'.clock = s.clock := by
  cases hb with
  | kept hk => exact hk.clock
  | up _ _ _ _ hbeside => exact hbeside.clock
  | down _ _ _ hbeside => exact hbeside.clock

namespace Timed

theorem Past.noted (h : x.Past) {c : Rpc} (r : Except Err (App.Reply c.Reply)) :
    Stamps.Past (x.noted c r).1 x.store.clock ∧ Stamps.Past (x.noted c r).2 x.store.clock := by
  unfold Timed.noted
  split
  · exact ⟨h.questions.add _, h.answers⟩
  · exact ⟨h.questions.touch _, h.answers⟩
  · exact ⟨h.questions, h.answers.add _⟩
  · exact ⟨h.questions, h.answers.touch _⟩
  · exact ⟨h.questions, h.answers⟩

theorem noted_refused {c : Rpc} {r : Except Err (App.Reply c.Reply)}
    (h : c.Editing → ∀ res, r ≠ .ok (.ok res)) : x.noted c r = (x.questions, x.answers) := by
  unfold Timed.noted
  split
  · exact absurd rfl (h trivial _)
  · exact absurd rfl (h trivial _)
  · exact absurd rfl (h trivial _)
  · exact absurd rfl (h trivial _)
  · rfl

theorem Past.next (ht : Tables x.store) (h : x.Past) (e : Event) : (x.next svc e).Past := by
  cases e with
  | tick seconds =>
    have hle : x.store.clock ≤ x.store.clock + seconds := by omega
    exact ⟨h.questions.mono hle, h.answers.mono hle⟩
  | rpc c script =>
    have he : Effect x.store script c (served svc x.store c script).1
        (x.next svc (.rpc c script)).store := rpc_effect ht c
    have hclock : (x.next svc (.rpc c script)).store.clock = x.store.clock := clock_effect he
    obtain ⟨hq, ha⟩ := h.noted (served svc x.store c script).1
    exact ⟨hclock ▸ hq, hclock ▸ ha⟩
  | vote msg script =>
    have hclock : (x.next svc (.vote msg script)).store.clock = x.store.clock :=
      clock_ballot (vote_effect ht.quiet msg)
    have hpast : Stamps.Past (x.record svc (.vote msg script)).1 x.store.clock ∧
        Stamps.Past (x.record svc (.vote msg script)).2 x.store.clock := by
      obtain ⟨id, payload⟩ := msg
      cases payload with
      | error e => exact ⟨h.questions, h.answers⟩
      | ok data =>
        simp only [Timed.record]
        split
        · exact ⟨h.questions, h.answers.touch _⟩
        · exact ⟨h.questions, h.answers⟩
    exact ⟨hclock ▸ hpast.1, hclock ▸ hpast.2⟩

end Timed

theorem map_fst_stampedQuestions (s : Store) :
    (stampedQuestions s).map Prod.fst = s.db.questions.map QuestionRow.id := by
  rw [stampedQuestions, List.map_map]
  rfl

theorem map_fst_stampedAnswers (s : Store) :
    (stampedAnswers s).map Prod.fst = s.db.answers.map AnswerRow.id := by
  rw [stampedAnswers, List.map_map]
  rfl

theorem timely_kept {s' : Store} (hk : Kept x.store s') :
    Timely ⟨s', x.questions, x.answers⟩ ↔ Timely x := by
  have hq : stampedQuestions s' = stampedQuestions x.store := by
    rw [stampedQuestions, hk.questions, stampedQuestions]
  have ha : stampedAnswers s' = stampedAnswers x.store := by
    rw [stampedAnswers, hk.answers, stampedAnswers]
  exact ⟨fun h => ⟨hq ▸ h.questions, ha ▸ h.answers⟩, fun h => ⟨hq ▸ h.questions, ha ▸ h.answers⟩⟩

theorem stampedQuestions_snoc {s : Store} {row : QuestionRow} {seq : Seq} :
    stampedQuestions (withQuestions s (s.db.questions ++ [row]) seq) =
      stampedQuestions s ++ [(row.id, ⟨row.createdAt, row.updatedAt⟩)] := List.map_append

theorem stampedAnswers_snoc {s : Store} {row : AnswerRow} {seq : Seq} :
    stampedAnswers (withAnswers s (s.db.answers ++ [row]) seq) =
      stampedAnswers s ++ [(row.id, ⟨row.createdAt, row.updatedAt⟩)] := List.map_append

theorem epoch_iff {now : Int} : (⟨0, none⟩ : Stamp) = ⟨now, none⟩ ↔ now = 0 := by
  rw [Stamp.mk.injEq]
  exact ⟨fun h => h.1.symm, fun h => ⟨h.symm, rfl⟩⟩

theorem timely_effect (ht : Tables x.store) (h : Timely x) {c : Rpc}
    {r : Except Err (App.Reply c.Reply)} {s' : Store} (he : Effect x.store script c r s') :
    Timely ⟨s', (x.noted c r).1, (x.noted c r).2⟩ ↔ AtEpoch x (.rpc c script) := by
  cases he with
  | kept hk hno hr =>
    rw [Timed.noted_refused hr]
    exact iff_of_true ((timely_kept hk).mpr h) fun hacc => absurd hacc hno
  | @addQuestion req row hacc _ _ _ hcreated hupdated _ hid hadv =>
    have hnew : row.id ∉ (stampedQuestions x.store).map Prod.fst := by
      rw [map_fst_stampedQuestions]
      exact ht.questions.fresh (by omega)
    obtain ⟨hpos, hmax⟩ := ht.questions.snoc_range hid hadv
    have hfit : Fits (x.questions.add row.id.asU64.asI64 x.store.clock) (stampedQuestions
        (withQuestions x.store (x.store.db.questions ++ [row])
          { x.store.seq with questions := advance x.store.seq.questions })) ↔
        x.store.clock = 0 := by
      rw [stampedQuestions_snoc, Int.asI64_asU64 hpos.le hmax, hcreated, hupdated, ← epoch_iff]
      exact fits_add h.questions hnew
    exact ⟨fun hnext _ => hfit.mp hnext.questions,
      fun hclock => ⟨hfit.mpr (hclock hacc), h.answers⟩⟩
  | deleteQuestion =>
    exact iff_of_true ⟨h.questions.sublist (List.filter_sublist.map _), h.answers⟩ fun _ => trivial
  | @updateQuestion req title by' hacc =>
    -- the row loses its time of change, where the time of the update is recorded
    constructor
    · intro hnext _ q hq hid
      have hrow := hnext.questions (q.id, ⟨q.createdAt, none⟩) (List.mem_map.mpr
        ⟨asked q title req.content by', List.mem_map.mpr ⟨q, hq, if_pos hid⟩, rfl⟩)
      have hold : x.questions q.id = some ⟨q.createdAt, q.updatedAt⟩ :=
        h.questions _ (List.mem_map_of_mem hq)
      change x.questions.touch req.id.asI64 x.store.clock q.id = _ at hrow
      rw [Stamps.touch, ← hid, Function.update_self, hold] at hrow
      cases hrow
    · intro hmiss
      have hmiss := hmiss hacc
      refine ⟨fits_touch h.questions fun q hq => ?_, h.answers⟩
      rw [if_neg (hmiss q hq), if_neg (hmiss q hq)]
  | @addAnswer a row hacc _ _ _ _ hcreated hupdated hid hadv =>
    have hnew : row.id ∉ (stampedAnswers x.store).map Prod.fst := by
      rw [map_fst_stampedAnswers]
      exact ht.answers.fresh (by omega)
    obtain ⟨hpos, hmax⟩ := ht.answers.snoc_range hid hadv
    have hfit : Fits (x.answers.add row.id.asU64.asI64 x.store.clock) (stampedAnswers
        (withAnswers x.store (x.store.db.answers ++ [row])
          { x.store.seq with answers := advance x.store.seq.answers })) ↔ x.store.clock = 0 := by
      rw [stampedAnswers_snoc, Int.asI64_asU64 hpos.le hmax, hcreated, hupdated, ← epoch_iff]
      exact fits_add h.answers hnew
    exact ⟨fun hnext _ => hfit.mp hnext.answers,
      fun hclock => ⟨h.questions, hfit.mpr (hclock hacc)⟩⟩
  | deleteAnswer =>
    exact iff_of_true ⟨h.questions, h.answers.sublist (List.filter_sublist.map _)⟩ fun _ => trivial
  | updateAnswer =>
    refine iff_of_true ⟨h.questions, fits_touch h.answers fun a _ => ?_⟩ fun _ => trivial
    dsimp only
    split <;> rfl

theorem timely_ballot (ht : Tables x.store) (h : Timely x) {msg : Delivery} {s' : Store}
    (hb : Ballot x.store script msg s') :
    Timely ⟨s', (x.record svc (.vote msg script)).1, (x.record svc (.vote msg script)).2⟩ := by
  have voted {rows : List VoteRow} {a row : AnswerRow} {s' : Store}
      (hdb : s'.db = { x.store.db with
        usersVotes := rows, answers := replaceBy AnswerRow.id row x.store.db.answers })
      (ha : a ∈ x.store.db.answers) (hid : row.id = a.id) (hmade : row.createdAt = a.createdAt)
      (hnow : row.updatedAt = some x.store.clock) :
      Timely ⟨s', x.questions, x.answers.touch a.id x.store.clock⟩ := by
    refine ⟨?_, ?_⟩
    · rw [stampedQuestions, hdb]
      exact h.questions
    · rw [stampedAnswers, hdb]
      refine fits_touch h.answers fun b hb => ?_
      rw [hid]
      split
      next he =>
        rw [List.inj_on_of_nodup_map ht.answers.nodup hb ha he, hid, hmade, hnow]
        rfl
      next => rfl
  cases hb with
  | kept hk hno =>
    have hsame : x.record svc (.vote msg script) = (x.questions, x.answers) := by
      obtain ⟨id, payload⟩ := msg
      cases payload with
      | error e => rfl
      | ok data => exact if_neg (hno data rfl)
    rw [hsame]
    exact (timely_kept hk).mpr h
  | up hdone _ ha hid _ hdb =>
    simp only [Timed.record, if_pos hdone, ← hid]
    exact voted hdb ha rfl rfl rfl
  | down hdone ha hid _ hdb =>
    simp only [Timed.record, if_pos hdone, ← hid]
    exact voted hdb ha rfl rfl rfl

theorem grows_effect (ht : Tables x.store) (hp : x.Past) {c : Rpc}
    {r : Except Err (App.Reply c.Reply)} {s' : Store} (he : Effect x.store script c r s') :
    Grows x.questions (x.noted c r).1 (stampedQuestions x.store) ∧
      Grows x.answers (x.noted c r).2 (stampedAnswers x.store) := by
  cases he with
  | kept _ _ hr =>
    rw [Timed.noted_refused hr]
    exact ⟨.refl, .refl⟩
  | addQuestion _ _ _ _ _ _ _ hid hadv =>
    obtain ⟨hpos, hmax⟩ := ht.questions.snoc_range hid hadv
    refine ⟨grows_add ?_, .refl⟩
    rw [map_fst_stampedQuestions, Int.asI64_asU64 hpos.le hmax]
    exact ht.questions.fresh (by omega)
  | addAnswer _ _ _ _ _ _ _ hid hadv =>
    obtain ⟨hpos, hmax⟩ := ht.answers.snoc_range hid hadv
    refine ⟨.refl, grows_add ?_⟩
    rw [map_fst_stampedAnswers, Int.asI64_asU64 hpos.le hmax]
    exact ht.answers.fresh (by omega)
  | updateQuestion => exact ⟨grows_touch hp.questions, .refl⟩
  | updateAnswer => exact ⟨.refl, grows_touch hp.answers⟩
  | deleteQuestion => exact ⟨.refl, .refl⟩
  | deleteAnswer => exact ⟨.refl, .refl⟩

theorem grows_record (ht : Tables x.store) (hp : x.Past) (e : Event) :
    Grows x.questions (x.record svc e).1 (stampedQuestions x.store) ∧
      Grows x.answers (x.record svc e).2 (stampedAnswers x.store) := by
  cases e with
  | tick seconds => exact ⟨.refl, .refl⟩
  | rpc c script => exact grows_effect ht hp (rpc_effect ht c)
  | vote msg script =>
    obtain ⟨id, payload⟩ := msg
    cases payload with
    | error e => exact ⟨.refl, .refl⟩
    | ok data =>
      simp only [Timed.record]
      split
      · exact ⟨.refl, grows_touch hp.answers⟩
      · exact ⟨.refl, .refl⟩

theorem timely_step (ht : Tables x.store) (h : Timely x) (e : Event) :
    Timely (x.next svc e) ↔ AtEpoch x e := by
  cases e with
  | tick seconds => exact iff_of_true ⟨h.questions, h.answers⟩ trivial
  | rpc c script => exact timely_effect ht h (rpc_effect ht c)
  | vote msg script => exact iff_of_true (timely_ballot ht h (vote_effect ht.quiet msg)) trivial

theorem punctual_iff (ht : Tables x.store) (hp : x.Past) (h : Timely x) (e : Event) :
    Punctual svc x e ↔ AtEpoch x e := by
  have htimely : Timely (x.next svc e) ↔ AtEpoch x e := timely_step ht h e
  have hpast : (x.next svc e).Past := hp.next ht e
  have hgrows : Grows x.questions (x.record svc e).1 (stampedQuestions x.store) ∧
      Grows x.answers (x.record svc e).2 (stampedAnswers x.store) := grows_record ht hp e
  obtain ⟨hq, ha⟩ := hgrows
  rw [← htimely]
  exact ⟨fun hnext => hnext.timely, fun hnext => ⟨hnext, hnext.questions.ordered hpast.questions,
    hnext.answers.ordered hpast.answers, h.questions.advanced hnext.questions hq,
    h.answers.advanced hnext.answers ha⟩⟩

/-- The rows say when they were made and last changed exactly in the runs in which rows are made at
the epoch only and no stored question is edited. -/
theorem timestamps (hs : Tables x.store) (hp : x.Past) (hx : Timely x) (evs : List Event) :
    Always (Timed.next svc) (Punctual svc) x evs ↔ Always (Timed.next svc) AtEpoch x evs :=
  always_congr (I := fun x : Timed => Tables x.store ∧ x.Past) (Q := Timely)
    (fun _ e h => ⟨h.1.next e, h.2.next h.1 e⟩) (fun _ _ _ _ h => h.timely)
    (fun _ e h hx => punctual_iff h.1 h.2 hx e) ⟨hs, hp⟩ hx

def Timed.empty (clock : Int) : Timed :=
  ⟨.empty 1 clock fun _ => 0, fun _ => none, fun _ => none⟩

def atEpoch : List Event :=
  [.rpc (.addQuestion ⟨"title", "content", "alice"⟩) [],
    .rpc (.addAnswer ⟨some { questionId := 1, content := "answer", createBy := "bob" }⟩) [],
    .tick 60, .rpc (.updateAnswer ⟨1, "other answer", "bob"⟩) [],
    .rpc (.updateQuestion ⟨2, "title", "other content", "alice"⟩) [],
    .tick 60, .vote ⟨1, .ok ⟨1, "answer", "carol", "up"⟩⟩ []]

theorem Timed.past_empty (clock : Int) : (Timed.empty clock).Past :=
  ⟨fun _ _ h => (Option.some_ne_none _ h.symm).elim, fun _ _ h => (Option.some_ne_none _ h.symm).elim⟩

theorem timely_empty (clock : Int) : Timely (.empty clock) :=
  ⟨fun _ h => absurd h List.not_mem_nil, fun _ h => absurd h List.not_mem_nil⟩

theorem timestamps_atEpoch : Always (Timed.next default) (Punctual default)
    (.empty 0) atEpoch :=
  (timestamps .empty (Timed.past_empty 0) (timely_empty 0) _).mpr (by decide)

/-- A question asked on a day in 2026, and one edited at the moment it is asked. -/
theorem timestamps_lost :
    ¬ Always (Timed.next default) (Punctual default) (.empty 1785000000)
      [.rpc (.addQuestion ⟨"title", "content", "alice"⟩) []] ∧
    ¬ Always (Timed.next default) (Punctual default) (.empty 0)
      [.rpc (.addQuestion ⟨"title", "content", "alice"⟩) [],
        .rpc (.updateQuestion ⟨1, "title", "other content", "alice"⟩) []] := by
  refine ⟨fun h => ?_, fun h => ?_⟩
  · exact absurd (h.1.timely.questions (1, ⟨0, none⟩) (by decide)) (by decide)
  · exact absurd (h.2.1.timely.questions (1, ⟨0, none⟩) (by decide)) (by decide)

end QaSys.Content
