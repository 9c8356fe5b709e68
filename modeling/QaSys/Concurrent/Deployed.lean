import QaSys.Concurrent.Interleavings
import QaSys.Auth.Tabulated

/-! What `main` starts: the server of the calls, but neither the consumer of the votes nor the
transfer of the read counts. -/

namespace QaSys.Concurrent

open Overlap Prog Runs

/-- No session handles a vote or transfers read counts. -/
def Event.Serving {n : Nat} : Event n → Prop
  | .assign _ (.vote _) | .assign _ (.transfer ..) => False
  | _ => True

instance {n : Nat} : DecidablePred (Event.Serving (n := n))
  | .assign _ (.rpc _) | .call .. | .lose _ | .tick _ => isTrue trivial
  | .assign _ (.vote _) | .assign _ (.transfer ..) => isFalse id

structure Uncounted (db : Db) : Prop where
  votes : db.usersVotes = []
  agreeCounts : ∀ a ∈ db.answers, a.agreeCount = 0
  readCounts : ∀ q ∈ db.questions, q.readCount = 0

variable {svc : QaServiceImpl} {n : Nat} {m : Machine n} {x x' : Seen} {q : Stmt} {db' : Db}

theorem Uncounted.edit (h : Uncounted x.db) (hq : Served (.sql q)) (he : Edit x.db x.seq q db')
    (hvotes : db'.usersVotes = x.db.usersVotes) : Uncounted db' := by
  refine ⟨hvotes.trans h.votes, fun a ha => ?_, fun r hr => ?_⟩
  · cases he with
    | aside _ hanswers => exact h.agreeCounts a (hanswers ▸ ha)
    | addQuestion => exact h.agreeCounts a ha
    | changeQuestion => exact h.agreeCounts a ha
    | dropQuestions => exact h.agreeCounts a ha
    | addAnswer row hzero _ _ =>
      rcases List.mem_append.mp ha with ha | ha
      · exact h.agreeCounts a ha
      · rw [List.mem_singleton.mp ha, hzero]
    | changeAnswer id by' _ =>
      obtain ⟨b, hb, rfl⟩ := List.mem_map.mp ha
      split
      · exact h.agreeCounts b hb
      · exact h.agreeCounts b hb
    | dropAnswers p => exact h.agreeCounts a (List.mem_filter.mp ha).1
  · cases he with
    | aside hquestions _ => exact h.readCounts r (hquestions ▸ hr)
    | addQuestion row hzero _ _ =>
      rcases List.mem_append.mp hr with hr | hr
      · exact h.readCounts r hr
      · rw [List.mem_singleton.mp hr, hzero]
    | changeQuestion id f _ _ hread =>
      obtain ⟨b, hb, rfl⟩ := List.mem_map.mp hr
      split
      · rcases hread b with hsame | ⟨k, rfl⟩
        · exact hsame.trans (h.readCounts b hb)
        · exact hq.elim
      · exact h.readCounts b hb
    | dropQuestions p => exact h.readCounts r (List.mem_filter.mp hr).1
    | addAnswer => exact h.readCounts r hr
    | changeAnswer => exact h.readCounts r hr
    | dropAnswers => exact h.readCounts r hr

theorem Uncounted.happens (h : Uncounted x.db) (hb : Books x.db x.seq) {c : Option Call}
    (hc : ∀ call, c = some call → Served call) (hx : Happens x c x') : Uncounted x'.db := by
  cases hx with
  | nothing => exact h
  | statement hq heval =>
    obtain ⟨he, hvotes⟩ := edit_of_eval hb hq heval
    exact h.edit (hc _ rfl) he hvotes
  | vote => exact (hc _ rfl).elim
  | withdrawal => exact (hc _ rfl).elim

structure Serving (m : Machine n) : Prop where
  sound : Sound m
  served : ∀ i, (m.prog i).Within Served
  uncounted : Uncounted m.state.db

theorem within_update {P : Call → Prop} (h : ∀ i, (m.prog i).Within P) {p : Svc Unit}
    (hp : p.Within P) (i j : Fin n) : (Function.update m.prog i p j).Within P := by
  by_cases hji : j = i
  · subst hji
    rw [Function.update_self]
    exact hp
  · rw [Function.update_of_ne hji]
    exact h j

theorem Serving.next (h : Serving m) {e : Event n} (he : e.Serving) : Serving (next svc m e) := by
  obtain ⟨hsound, hx⟩ := h.sound.next svc e
  refine ⟨hsound, ?_, h.uncounted.happens h.sound.books ?_ hx⟩
  · cases e with
    | assign i job =>
      cases job with
      | rpc c =>
        simp only [Concurrent.next]
        split
        · exact within_update h.served ((within_serve c).bind fun _ => within_pure _) i
        · exact h.served
      | vote msg => exact he.elim
      | transfer rounds targetType => exact he.elim
    | call i ch =>
      rcases Pool.step_cases exec m i ch with hsame | ⟨c, k, r, s, hprog, -, hstep⟩
      · rw [Concurrent.next, hsame]
        exact h.served
      · have hi := h.served i
        rw [hprog] at hi
        rw [Concurrent.next, hstep]
        exact within_update h.served (hi.2 r) i
    | lose i => exact within_update h.served (within_pure _) i
    | tick seconds => exact h.served
  · intro call hcall
    cases e with
    | call i ch =>
      obtain ⟨k, hprog⟩ := calling_eq_some hcall
      have hi := h.served i
      rw [hprog] at hi
      exact hi.1
    | assign i job => cases hcall
    | lose i => cases hcall
    | tick seconds => cases hcall

/-- In the processes `main` starts no vote is ever stored, and the counters of the database stay 0,
whatever is called, in whatever order. -/
theorem deployed_counts_nothing (svc : QaServiceImpl) {n : Nat} (clock : Int) (supply : Nat → Uuid)
    {evs : List (Event n)} (h : ∀ e ∈ evs, e.Serving) :
    Uncounted (after (next svc) (start n clock supply) evs).state.db :=
  ((always_of_mem h _).invariant (I := Serving) (fun _ _ hm he => hm.next he)
    ⟨.start, fun _ => within_pure _, rfl, nofun, nofun⟩).uncounted

def accepted : List (Event 1) :=
  [.assign 0 (.rpc (.addAnswer ⟨some { questionId := 1, content := "a", createBy := "al" }⟩)),
    .call 0 .serve, .assign 0 (.rpc (.agreeAnswer ⟨1, "bob", "up"⟩)),
    .call 0 .serve, .call 0 .serve, .call 0 .serve]

theorem deployed_counts_nothing_accepted :
    let m := after (next default) (start 1 0 fun _ => 0) accepted
    m.state.topic = [⟨1, "answer", "bob", "up"⟩] ∧ m.Done ∧ Uncounted m.state.db :=
  ⟨by decide, fun i => match i with | 0 => trivial,
    deployed_counts_nothing default 0 (fun _ => 0) (by decide)⟩

end QaSys.Concurrent
