import QaSys.Program.Interleaved
import QaSys.Service.Light
import QaSys.Vote.Delivery
import QaSys.Vote.Ledger
import Mathlib.Order.Interval.Finset.Basic
import Mathlib.Data.Int.Interval

/-! The count in the reply of `agree_answer`, while the consumer handles votes before, between and
after the two reads of the call. -/

namespace QaSys.Reply

open UserVote Ledger Runs

abbrev Request := Pb.AgreeAnswerRequest

abbrev Agreeing := Svc (App.Reply Pb.AgreeAnswerResponse)

abbrev Turn := UserVote.Delivery × List Choice

def consume (s : Store) (turn : Turn) : Store :=
  ((onMessage "answer" turn.1).run World.exec ⟨s, turn.2⟩).2.state

abbrev Event := Interleaved.Event Choice Turn

abbrev State := Interleaved Call Call.Reply Err (App.Reply Pb.AgreeAnswerResponse) Store

abbrev step : State → Event → State := Interleaved.step (Store.exec 0) consume

def start (req : Request) (s : Store) : State := ⟨App.agreeAnswer req, s⟩

/-- The three calls `agree_answer` makes at most, with what is delivered in the meantime. -/
structure Schedule where
  before : List Turn
  find : Choice
  between : List Turn
  look : Choice
  after : List Turn
  send : Choice

namespace Schedule

def events (v : Schedule) : List Event :=
  Interleaved.spread [(v.before, v.find), (v.between, v.look), (v.after, v.send)]

def first (v : Schedule) (s : Store) : Store := Runs.after consume s v.before

def second (v : Schedule) (s : Store) : Store := Runs.after consume (v.first s) v.between

end Schedule

def replied : Agreeing → Option UInt64
  | .ret (.ok reply) => if reply.state = 1 then some reply.agreeCount else none
  | _ => none

/-- A count in the reply is at most one more than the votes the answer had at some moment. -/
def Bounded (v : Schedule) (req : Request) (s : Store) : Prop :=
  ∀ n, replied (Runs.after step (start req s) v.events).prog = some n →
    ∃ pre, pre <+: v.events ∧
      n.toNat ≤ tally (Runs.after step (start req s) pre).state.db req.id.asI64 + 1

/-- A vote that the first read does not count and the second one sees is to be taken back. -/
structure Wraps (v : Schedule) (req : Request) (s : Store) : Prop where
  down : req.action ≠ "up"
  stored : hasAnswer (v.first s).db req.id.asI64 = true
  uncounted : tally (v.first s).db req.id.asI64 = 0
  voted : Voted (v.second s).db req.id.asI64 req.createBy
  found : ¬ v.find.Faulty
  looked : ¬ v.look.Faulty
  sent : ¬ v.send.Faulty

/-- The counters are exact, and the ids of the vote rows come from their sequence. -/
structure Exact (s : Store) : Prop where
  quiet : s.pg.Quiet
  ids : (s.db.usersVotes.map VoteRow.id).Nodup
  drawn : ∀ r ∈ s.db.usersVotes, 0 < r.id ∧ r.id ≤ s.seq.usersVotes
  room : 0 ≤ s.seq.usersVotes ∧ s.seq.usersVotes ≤ i64Max
  counted : ∀ a ∈ s.db.answers, a.agreeCount = tally s.db a.id

variable {s s' : Store} {x : State} {req : Request} {v : Schedule} {t : Int} {u action : String}

theorem Exact.of_db (h : Exact s) (hq : s'.pg.Quiet) (hdb : s'.db = s.db)
    (hv : s.seq.usersVotes ≤ s'.seq.usersVotes) (hroom : s'.seq.usersVotes ≤ i64Max) :
    Exact s' := by
  have h0 := h.room.1
  refine ⟨hq, ?_, ?_, ⟨by omega, hroom⟩, ?_⟩
  all_goals rw [hdb]
  · exact h.ids
  · exact fun r hr => ⟨(h.drawn r hr).1, (h.drawn r hr).2.trans hv⟩
  · exact h.counted

theorem Exact.handled (h : Exact s) (hf : Framed s s') (hroom : s'.seq.usersVotes ≤ i64Max)
    {r : Except Err Bool} (hr : Handled s t u action s' r) : Exact s' := by
  have hv := hf.usersVotes
  have h0 := h.room.1
  cases hr with
  | refused hdb => exact h.of_db hf.quiet hdb hv hroom
  | again _ _ hdb => exact h.of_db hf.quiet hdb hv hroom
  | never _ _ hdb => exact h.of_db hf.quiet hdb hv hroom
  | up row a _ _ ht _ _ hid hid' hone hdb =>
    obtain ⟨hmem, hat⟩ := eq_of_filter hone
    refine ⟨hf.quiet, ?_, ?_, ⟨by omega, hroom⟩, ?_⟩
    all_goals rw [hdb]
    · simp only [castVote, List.map_append]
      refine h.ids.append (List.nodup_singleton _) ?_
      rw [List.map_singleton, List.disjoint_singleton]
      intro hm
      obtain ⟨r, hr, heq⟩ := List.mem_map.mp hm
      have := h.drawn r hr
      omega
    · intro r hr
      rcases List.mem_append.mp hr with hr | hr
      · have := h.drawn r hr
        omega
      · rw [List.mem_singleton.mp hr]
        omega
    · exact counted_castVote h.counted hmem (by rw [ht, hat])
  | down row a _ hrow hone hdb =>
    obtain ⟨hmem, hat⟩ := eq_of_filter hone
    obtain ⟨hrows, hm⟩ := List.mem_filter.mp
      (hrow ▸ List.mem_singleton_self row : row ∈ s.db.usersVotes.filter _)
    simp only [VoteRow.matches, Bool.and_eq_true, decide_eq_true_eq] at hm
    refine ⟨hf.quiet, ?_, ?_, ⟨by omega, hroom⟩, ?_⟩
    all_goals rw [hdb]
    · exact nodup_map_removeBy h.ids
    · intro r hr
      have := h.drawn r (mem_removeBy.mp hr).1
      omega
    · exact counted_cancelVote h.ids h.counted hmem hrows (by rw [hm.1.1, hat])

theorem room_serve (ch : Choice) (c : Call) (h : s.seq.usersVotes ≤ i64Max) :
    (Store.serve ch c s).2.seq.usersVotes ≤ i64Max := by
  have hdraw (q : Stmt) : (q.draw s.seq).usersVotes ≤ i64Max := by
    cases q with
    | insertVote =>
      simp only [Stmt.draw, advance]
      split <;> omega
    | _ => exact h
  have served (q : Stmt) (via) : ((s.statement q via).getD
      (.error (.sqlx (.other "lock timeout")), s)).2.seq.usersVotes ≤ i64Max := by
    rw [Store.statement]
    split
    · cases via (q.eval s.seq) s.pg with
      | none => exact h
      | some r => exact hdraw q
    · exact h
  cases c with
  | sql q => cases ch <;> first | exact h | exact served q _
  | tx q => cases ch <;> first | exact h | exact served q _
  | _ => cases ch <;> exact h

theorem Exact.consume (h : Exact s) (turn : Turn) : Exact (consume s turn) := by
  obtain ⟨⟨id, payload⟩, script⟩ := turn
  cases payload with
  | error msg => exact h
  | ok msg =>
    obtain ⟨hf, hr⟩ := exec_of_ensures (handlerAnswerAgree_ensures h.quiet msg.targetId.toUInt64
      msg.createdBy msg.action) script
    have hroom : ((handlerAnswerAgree msg.targetId.toUInt64 msg.createdBy msg.action).run World.exec
        ⟨s, script⟩).2.state.seq.usersVotes ≤ i64Max :=
      exec_of_ensures (Q := fun _ s => s.seq.usersVotes ≤ i64Max)
        ((Prog.within_true _).ensures (fun ch c s _ _ => room_serve ch c) h.room.2) script
    obtain ⟨hpg, hseq⟩ := deliver_state (x := ⟨s, ∅⟩) id msg script
    have hdone := h.handled hf hroom hr
    have hdb := congrArg Transaction.Sessions.db hpg
    exact Exact.of_db hdone (hpg ▸ hdone.quiet) hdb (congrArg Seq.usersVotes hseq).ge
      (hseq ▸ hroom)

theorem Exact.along (h : Exact s) (req : Request) (evs : List Event) :
    Exact (Runs.after step (start req s) evs).state := by
  refine Interleaved.run_invariant (P := Call.Light) (I := Exact) ?_ (fun _ turn h => h.consume turn)
    light_agreeAnswer h evs
  intro ch c s r s' hlight h hexec
  obtain ⟨hpg, hseq⟩ := hlight.exec h.quiet hexec
  have hroom := h.room.2
  exact h.of_db (hpg ▸ h.quiet) (congrArg Transaction.Sessions.db hpg) (hseq ▸ le_rfl)
    (hseq ▸ hroom)

theorem Exact.run (h : Exact s) (turns : List Turn) : Exact (Runs.after Reply.consume s turns) :=
  (always_of_forall (P := fun _ _ => True) (fun _ _ => trivial) s turns).invariant
    (I := Exact) (fun _ turn h _ => h.consume turn) h

def judged (req : Request) (answer : QaSys.AnswerEntity) (isVoted : Bool) : Agreeing := do
  if req.action = "up" ∧ isVoted then return .ok ⟨0, 0, "already voted it"⟩
  if req.action ≠ "up" ∧ !isVoted then return .ok ⟨0, 0, "not voted it"⟩
  let agreeCount := if req.action = "up" then answer.agreeCount + 1 else answer.agreeCount - 1
  let msg : VoteMessage := ⟨req.id.toInt64, "answer", req.createBy, req.action⟩
  match ← (UserVote.publish msg).attempt with
  | .error err => return App.failed .internal "failed to publish vote message" err
  | .ok _ => return .ok ⟨1, agreeCount.asU64, ""⟩

def found (req : Request) (answer : QaSys.AnswerEntity) : Agreeing := do
  let isVoted : Bool := match ← (UserVote.isVoted req.id req.createBy "answer").attempt with
    | .ok voted => voted
    | .error _ => false
  judged req answer isVoted

theorem agreeAnswer_prog (req : Request) : ∃ k,
    App.agreeAnswer req = .call (.sql (.answer req.id.asI64)) k ∧
    (∀ e, (k (.error e)).Finished ∧ replied (k (.error e)) = none) ∧
    ((k (.ok none)).Finished ∧ replied (k (.ok none)) = none) ∧
    ∀ r : AnswerRow, k (.ok (some r)) = found req r.toEntity :=
  ⟨_, rfl, fun _ => ⟨trivial, rfl⟩, ⟨trivial, rfl⟩, fun _ => rfl⟩

theorem found_prog (req : Request) (answer : QaSys.AnswerEntity) : ∃ k,
    found req answer = .call (.sql (.vote req.id.asI64 req.createBy "answer")) k ∧
    (∀ e, k (.error e) = judged req answer false) ∧
    ∀ row : Option Int, k (.ok row) = judged req answer row.isSome :=
  ⟨_, rfl, fun _ => rfl, fun _ => rfl⟩

def Asks (req : Request) (answer : QaSys.AnswerEntity) (isVoted : Bool) (n : UInt64) : Prop :=
  (req.action = "up" ∧ isVoted = false ∧ n = (answer.agreeCount + 1).asU64) ∨
    (req.action ≠ "up" ∧ isVoted = true ∧ n = (answer.agreeCount - 1).asU64)

theorem replied_judged {answer : QaSys.AnswerEntity} {isVoted : Bool} {ch : Choice} {n : UInt64} :
    replied (step ⟨judged req answer isVoted, s⟩ (.call ch)).prog = some n ↔
      ¬ ch.Faulty ∧ Asks req answer isVoted n := by
  have silent {p : Agreeing} (hfin : p.Finished) (hnone : replied p = none) :
      replied (step ⟨p, s⟩ (.call ch)).prog ≠ some n := by
    rw [(Interleaved.step_finished hfin _).1, hnone]
    nofun
  have sent (count : Int) (p : Agreeing) (hp : ∃ k, p = .call (.send ⟨req.id.toInt64, "answer",
      req.createBy, req.action⟩) k ∧ (∀ e, replied (k (.error e)) = none) ∧
      replied (k (.ok ())) = some count.asU64) :
      replied (step ⟨p, s⟩ (.call ch)).prog = some n ↔ ¬ ch.Faulty ∧ n = count.asU64 := by
    obtain ⟨k, rfl, herr, hok⟩ := hp
    have hfail (e : Err) : replied (k (.error e)) ≠ some n := by
      rw [herr]
      nofun
    have hsome : replied (k (.ok ())) = some n ↔ n = count.asU64 := by
      rw [hok, Option.some.injEq, eq_comm]
    cases ch with
    | fail msg => exact iff_of_false (hfail _) fun h => h.1 trivial
    | lost msg => exact iff_of_false (hfail _) fun h => h.1 trivial
    | _ => exact hsome.trans (iff_and_self.mpr fun _ => id)
  by_cases hup : req.action = "up"
  · cases isVoted with
    | true =>
      rw [judged, if_pos ⟨hup, rfl⟩]
      exact iff_of_false (silent trivial rfl) fun h =>
        h.2.elim (fun h => Bool.noConfusion h.2.1) fun h => h.1 hup
    | false =>
      refine (sent (answer.agreeCount + 1) _ ?_).trans ?_
      · rw [judged, if_neg fun h => Bool.noConfusion h.2, if_neg fun h => h.1 hup]
        simp only [if_pos hup]
        exact ⟨_, rfl, fun _ => rfl, rfl⟩
      · simp [Asks, hup]
  · cases isVoted with
    | false =>
      rw [judged, if_neg fun h => hup h.1, if_pos ⟨hup, rfl⟩]
      exact iff_of_false (silent trivial rfl) fun h =>
        h.2.elim (fun h => hup h.1) fun h => Bool.noConfusion h.2.1
    | true =>
      refine (sent (answer.agreeCount - 1) _ ?_).trans ?_
      · rw [judged, if_neg fun h => hup h.1, if_neg fun h => Bool.noConfusion h.2]
        simp only [if_neg hup]
        exact ⟨_, rfl, fun _ => rfl, rfl⟩
      · simp [Asks, hup]

theorem run_silent {p : Agreeing} (hfin : p.Finished) (hnone : replied p = none)
    (evs : List Event) {n : UInt64} :
    replied (Runs.after step ⟨p, s⟩ evs).prog ≠ some n := by
  rw [Interleaved.run_finished hfin, hnone]
  nofun

theorem replied_iff (h : Exact s) {n : UInt64} :
    replied (Runs.after step (start req s) v.events).prog = some n ↔
      ∃ a isVoted, (v.first s).db.answers.find? (·.id = req.id.asI64) = some a ∧
        ¬ v.find.Faulty ∧ ¬ v.send.Faulty ∧ Asks req a.toEntity isVoted n ∧
        (isVoted = true ↔ ¬ v.look.Faulty ∧ Voted (v.second s).db req.id.asI64 req.createBy) := by
  have hfirst : Exact (v.first s) := h.run v.before
  have hsecond : Exact (v.second s) := hfirst.run v.between
  obtain ⟨k, hprog, herr, hnone, hsome⟩ := agreeAnswer_prog req
  rw [Schedule.events, start, hprog, Interleaved.run_spread]
  change replied (Runs.after step (step ⟨_, v.first s⟩ _) _).prog = some n ↔ _
  rcases Store.exec_read (q := .answer req.id.asI64) hfirst.quiet 0 v.find rfl rfl with
    ⟨hf, e, hread⟩ | ⟨hf, hread⟩
  · rw [step, Interleaved.step_call hread]
    exact iff_of_false (run_silent (herr e).1 (herr e).2 _) fun ⟨a, isVoted, _, hserved, _⟩ =>
      hserved ((Store.refuses_of_nil rfl).mp hf)
  have hf := mt (Store.refuses_of_nil rfl).mpr hf
  rw [step, Interleaved.step_call hread]
  cases hfound : (v.first s).db.answers.find? (·.id = req.id.asI64) with
  | none =>
    refine iff_of_false (run_silent hnone.1 hnone.2 _) ?_
    rintro ⟨a, isVoted, ha, -⟩
    cases ha
  | some a =>
    obtain ⟨k', hprog', herr', hsome'⟩ := found_prog req a.toEntity
    rw [hsome, hprog', Interleaved.run_spread]
    change replied (Runs.after step (step ⟨_, v.second s⟩ _) _).prog = some n ↔ _
    have hlast (isVoted : Bool) (s' : Store) :
        replied (Runs.after step ⟨judged req a.toEntity isVoted, s'⟩
          (Interleaved.spread [(v.after, v.send)])).prog = some n ↔
          ¬ v.send.Faulty ∧ Asks req a.toEntity isVoted n := by
      rw [Interleaved.run_spread]
      exact replied_judged
    rcases Store.exec_read (q := .vote req.id.asI64 req.createBy "answer") hsecond.quiet 0 v.look
      rfl rfl with ⟨hl, e, hread'⟩ | ⟨hl, hread'⟩
    · have hno : ¬ (¬ v.look.Faulty ∧ Voted (v.second s).db req.id.asI64 req.createBy) :=
        fun ⟨hserved, hv⟩ => hserved ((Store.refuses_iff (bindable_vote.mpr hv.storable)).mp hl)
      rw [step, Interleaved.step_call hread', herr', hlast]
      constructor
      · exact fun ⟨hsend, hasks⟩ => ⟨a, false, rfl, hf, hsend, hasks, by simpa using hno⟩
      · rintro ⟨b, isVoted, hb, -, hsend, hasks, hvoted⟩
        cases hb
        cases isVoted with
        | false => exact ⟨hsend, hasks⟩
        | true => exact absurd (hvoted.mp rfl) hno
    · have hserved : ¬ v.look.Faulty := fun hlook => hl (.inl hlook)
      rw [step, Interleaved.step_call hread', hsome', hlast, Option.isSome_map]
      have hvoted : ((v.second s).db.usersVotes.find?
          (VoteRow.matches req.id.asI64 "answer" req.createBy)).isSome = true ↔
            Voted (v.second s).db req.id.asI64 req.createBy := voted_iff_find
      constructor
      · exact fun ⟨hsend, hasks⟩ => ⟨a, _, rfl, hf, hsend, hasks, hvoted.trans (by simp [hserved])⟩
      · rintro ⟨b, isVoted, hb, -, hsend, hasks, hiff⟩
        cases hb
        have hsame : isVoted = ((v.second s).db.usersVotes.find?
            (VoteRow.matches req.id.asI64 "answer" req.createBy)).isSome :=
          Bool.eq_iff_iff.mpr (hiff.trans ((and_iff_right hserved).trans hvoted.symm))
        exact ⟨hsend, hsame ▸ hasks⟩

theorem tally_le (h : Exact s) (t : Int) : tally s.db t ≤ i64Max := by
  have hsub : (s.db.usersVotes.map VoteRow.id).toFinset ⊆ Finset.Icc 1 (i64Max : Int) := by
    intro i hi
    obtain ⟨r, hr, rfl⟩ := List.mem_map.mp (List.mem_toFinset.mp hi)
    have hid := h.drawn r hr
    have hroom := h.room.2
    exact Finset.mem_Icc.mpr ⟨by omega, by omega⟩
  have hcard := Finset.card_le_card hsub
  rw [List.toFinset_card_of_nodup h.ids, List.length_map, Int.card_Icc] at hcard
  calc tally s.db t ≤ s.db.usersVotes.length := List.countP_le_length
    _ ≤ i64Max := by omega

theorem Exact.read (h : Exact s) {a : AnswerRow} (ha : s.db.answers.find? (·.id = t) = some a) :
    a.toEntity.agreeCount = tally s.db t := by
  have hat : a.id = t := by simpa using List.find?_some ha
  rw [← hat]
  exact h.counted a (List.mem_of_find?_eq_some ha)

/-- The count in the reply is at most one more than that of a moment of the call, except when the
first read sees no vote and the second one sees the vote that is to be taken back. -/
theorem reply_bounded (h : Exact s) : Bounded v req s ↔ ¬ Wraps v req s := by
  have hfirst : Exact (v.first s) := h.run v.before
  constructor
  · intro hbound hwraps
    obtain ⟨a, ha⟩ := Option.isSome_iff_exists.mp ((List.find?_isSome).trans
      List.any_eq_true.symm |>.mpr hwraps.stored)
    have hasks : Asks req a.toEntity true (-1 : Int).asU64 :=
      .inr ⟨hwraps.down, rfl, by rw [hfirst.read ha, hwraps.uncounted]; rfl⟩
    obtain ⟨pre, -, hle⟩ := hbound _ ((replied_iff h).mpr ⟨a, true, ha, hwraps.found, hwraps.sent,
      hasks, iff_of_true rfl ⟨hwraps.looked, hwraps.voted⟩⟩)
    have hmax := tally_le (h.along req pre) req.id.asI64
    have hwrapped : (-1 : Int).asU64.toNat = 2 ^ 64 - 1 := by decide
    rw [i64Max] at hmax
    omega
  · intro hwraps n hn
    obtain ⟨a, isVoted, ha, hfound, hsent, hasks, hvoted⟩ := (replied_iff h).mp hn
    refine ⟨v.before.map .other, List.prefix_append .., ?_⟩
    rw [Interleaved.run_other]
    change n.toNat ≤ tally (v.first s).db req.id.asI64 + 1
    have hcount := hfirst.read ha
    rcases hasks with ⟨-, -, rfl⟩ | ⟨hdown, rfl, rfl⟩
    · have := Int.toNat_asU64_le (x := a.toEntity.agreeCount + 1) (by omega)
      omega
    · obtain ⟨hlooked, hvoted⟩ := hvoted.mp rfl
      have hpos : tally (v.first s).db req.id.asI64 ≠ 0 := fun hzero => hwraps ⟨hdown,
        (List.find?_isSome.trans List.any_eq_true.symm).mp (ha ▸ rfl), hzero, hvoted, hfound,
        hlooked, hsent⟩
      have := Int.toNat_asU64_le (x := a.toEntity.agreeCount - 1) (by omega)
      omega

theorem oneAnswer_exact : Exact (oneAnswer 1) :=
  ⟨fun _ => rfl, List.nodup_nil, nofun, by decide, by decide⟩

def voteOfBob : Turn := (⟨0, .ok ⟨1, "answer", "bob", "up"⟩⟩, [])

/-- The vote is handled before the call reads. -/
theorem reply_bounded_voteBefore :
    Bounded ⟨[voteOfBob], .serve, [], .serve, [], .serve⟩ ⟨1, "bob", "down"⟩ (oneAnswer 1) :=
  (reply_bounded oneAnswer_exact).mpr fun h => absurd h.uncounted (by decide)

/-- The vote is handled between the two reads of the call. -/
theorem voteBetween_wraps :
    let v : Schedule := ⟨[], .serve, [voteOfBob], .serve, [], .serve⟩
    Exact (oneAnswer 1) ∧
    replied (Runs.after step (start ⟨1, "bob", "down"⟩ (oneAnswer 1)) v.events).prog =
      some 18446744073709551615 ∧
    ¬ Bounded v ⟨1, "bob", "down"⟩ (oneAnswer 1) := by
  refine ⟨oneAnswer_exact, by decide, fun hbound => ?_⟩
  obtain ⟨pre, -, hle⟩ := hbound 18446744073709551615 (by decide)
  have hmax := tally_le (oneAnswer_exact.along ⟨1, "bob", "down"⟩ pre) (1 : UInt64).asI64
  have hbig : (18446744073709551615 : UInt64).toNat = 2 ^ 64 - 1 := by decide
  rw [i64Max] at hmax
  dsimp only at hle
  omega

end QaSys.Reply
