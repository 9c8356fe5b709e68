import QaSys.Program.Runs
import QaSys.Service.App
import QaSys.Vote.Handled

/-! The requests of one user to vote for one answer, and the deliveries of the messages they
publish. -/

namespace QaSys.Delivery

open UserVote Runs

def action (up : Bool) : String := if up then "up" else "down"

def message (id : UInt64) (u : String) (up : Bool) : VoteMessage :=
  ⟨id.toInt64, "answer", u, action up⟩

/-- A request of the user, or the message with the given position in the topic handed to the
consumer, with what the environment chooses at the calls. -/
inductive Event
  | request (up : Bool) (script : List Choice)
  | deliver (i : Nat) (script : List Choice)

structure State where
  store : Store
  /-- What the last request answered with `state=1` asked for. -/
  accepted : Option Bool
  /-- How many messages have been delivered at least once. -/
  delivered : Nat

def answered : Except Err (App.Reply Pb.AgreeAnswerResponse) → Bool
  | .ok (.ok reply) => reply.state = 1
  | _ => false

/-- Messages are first delivered in the order of publication; one that is not acknowledged may come
again at any time. -/
def step (id : UInt64) (u : String) (x : State) : Event → State
  | .request up script =>
    let r := (App.answerAgree ⟨id, u, action up⟩).run World.exec ⟨x.store, script⟩
    ⟨r.2.state, if answered r.1 then some up else x.accepted, x.delivered⟩
  | .deliver i script =>
    match x.store.topic[i]? with
    | none => x
    | some msg =>
      if i ≤ x.delivered ∧ i ∉ x.store.acked then
        ⟨((onMessage "answer" ⟨i, .ok msg⟩).run World.exec ⟨x.store, script⟩).2.state, x.accepted,
          max x.delivered (i + 1)⟩
      else x

def isLost : Choice → Bool
  | .lost _ => true
  | _ => false

/-- The broker's receipt of a message that it has stored does not get lost. -/
def Receipted : Event → Prop
  | .request _ script => ∀ ch ∈ script, isLost ch = false
  | .deliver .. => True

instance : DecidablePred Receipted := fun e => by
  unfold Receipted; split <;> infer_instance

inductive Answered (allow : Choice → Prop) (s : Store) (msg : VoteMessage) :
    Except Err (App.Reply Pb.AgreeAnswerResponse) → Store → Prop
  | kept : answered r = false → Answered allow s msg r s
  | sent : answered r = true → Answered allow s msg r { s with topic := s.topic ++ [msg] }
  | unsure (ch) : allow ch → isLost ch = true → answered r = false →
      Answered allow s msg r { s with topic := s.topic ++ [msg] }

variable {s s' : Store} {x : State} {id : UInt64} {u : String} {up : Bool} {allow : Choice → Prop}

theorem findOne_ensures (hq : s.pg.Quiet) :
    (Answer.findOne id).Ensures Store.serve allow s fun _ s' => s' = s := by
  refine Prog.ensures_bind.mpr (ensures_query hq (fun _ _ _ _ => rfl) ?_ ?_)
  · intro msg hq
    cases hq
  · intro row ws hq
    cases hq
    cases s.db.answers.find? (·.id = id.asI64) <;> rfl

theorem publish_ensures {msg : VoteMessage} :
    (publish msg).Ensures Store.serve allow s fun r s' =>
      (r.isOk = true ∧ s' = { s with topic := s.topic ++ [msg] }) ∨ (r.isOk = false ∧ (s' = s ∨
        ((∃ ch, allow ch ∧ isLost ch = true) ∧ s' = { s with topic := s.topic ++ [msg] }))) := by
  refine Prog.ensures_bind.mpr (Prog.ensures_op.mpr fun ch hch => ?_)
  cases ch with
  | fail e => exact .inr ⟨rfl, .inl rfl⟩
  | lost e => exact .inr ⟨rfl, .inr ⟨⟨_, hch, rfl⟩, rfl⟩⟩
  | serve => exact .inl ⟨rfl, rfl⟩
  | page next fields => exact .inl ⟨rfl, rfl⟩
  | raw value => exact .inl ⟨rfl, rfl⟩

theorem answerAgree_ensures (hq : s.pg.Quiet) :
    (App.answerAgree ⟨id, u, action up⟩).Ensures Store.serve allow s fun r s' =>
      Answered allow s (message id u up) r s' := by
  rw [App.answerAgree, App.agreeAnswer]
  refine Prog.ensures_bind.mpr (Prog.ensures_attempt.mpr ((findOne_ensures hq).mono fun r s' hr => ?_))
  subst hr
  cases r with
  | error e => exact .kept rfl
  | ok answer =>
    refine Prog.ensures_bind.mpr (Prog.ensures_attempt.mpr
      ((isVoted_ensures hq id u).mono fun r s'' hr => ?_))
    obtain ⟨rfl, -⟩ := hr
    cases r <;> dsimp only
    all_goals
      split
      next => exact .kept rfl
      split
      next => exact .kept rfl
      refine Prog.ensures_bind.mpr (Prog.ensures_attempt.mpr (publish_ensures.mono fun r s' hr => ?_))
      cases r with
      | error e =>
        rcases hr with ⟨hok, -⟩ | ⟨-, rfl | ⟨⟨ch, hch, hlost⟩, rfl⟩⟩
        · cases hok
        · exact .kept rfl
        · exact .unsure ch hch hlost rfl
      | ok b =>
        rcases hr with ⟨-, rfl⟩ | ⟨hfail, -⟩
        · exact .sent rfl
        · cases hfail

inductive Delivered (id : UInt64) (u : String) (up : Bool) (i : Nat) (s s' : Store) : Prop
  | skipped : s'.db = s.db → s'.acked = s.acked → Delivered id u up i s s'
  | handled : (Voted s'.db id.asI64 u ↔ up = true) → s'.acked = s.acked → Delivered id u up i s s'
  | acked : (Voted s'.db id.asI64 u ↔ up = true) → s'.acked = s.acked ++ [i] →
      Delivered id u up i s s'

theorem voted_iff_of_handled {t : Int} {b : Bool} (hu : Uncut 50 u)
    (h : Handled s t u (action up) s' (.ok b)) : Voted s'.db t u ↔ up = true := by
  cases up with
  | true =>
    rcases voted_of_handled hu h with ⟨-, hvoted⟩ | ⟨hdown, -⟩
    · exact iff_of_true hvoted rfl
    · exact absurd hdown (by decide)
  | false =>
    rcases voted_of_handled hu h with ⟨hup, -⟩ | ⟨-, hnot⟩
    · exact absurd hup (by decide)
    · exact iff_of_false hnot Bool.false_ne_true

theorem deliver_ensures (hq : s.pg.Quiet) (hu : Uncut 50 u) (up : Bool) (i : Nat)
    (script : List Choice) :
    let s' := ((onMessage "answer" ⟨i, .ok (message id u up)⟩).run World.exec ⟨s, script⟩).2.state
    s'.pg.Quiet ∧ s'.topic = s.topic ∧ Delivered id u up i s s' := by
  obtain ⟨hframed, hhandled⟩ := exec_of_ensures (handlerAnswerAgree_ensures hq id u (action up)) script
  have hrun := onMessage_run i (message id u up) ⟨s, script⟩
  have hid : (message id u up).targetId.toUInt64 = id := UInt64.toUInt64_toInt64 id
  have hby : (message id u up).createdBy = u := rfl
  have haction : (message id u up).action = action up := rfl
  obtain ⟨r, w, hw⟩ : ∃ r w, (handlerAnswerAgree id u (action up)).run World.exec ⟨s, script⟩ =
    (r, w) := ⟨_, _, rfl⟩
  rw [hid, hby, haction, hw] at hrun
  rw [hw] at hframed hhandled
  have htopic : w.state.topic = s.topic := by
    rw [hframed.rest]
  have hacked : w.state.acked = s.acked := by
    rw [hframed.rest]
  cases r with
  | error e =>
    simp only [hrun]
    cases hhandled with
    | refused hdb => exact ⟨hframed.quiet, htopic, .skipped hdb hacked⟩
  | ok b =>
    obtain ⟨acked, hor, hack⟩ := ack_run i w
    have hvoted := voted_iff_of_handled hu hhandled
    simp only [hrun, hack]
    refine ⟨hframed.quiet, htopic, ?_⟩
    rw [hacked] at hor
    rcases hor with rfl | rfl
    · exact .handled hvoted rfl
    · exact .acked hvoted rfl

/-- `last` is the position of the message that was handled last. -/
structure Tracked (id : UInt64) (u : String) (s : Store) (last : Option Nat) : Prop where
  quiet : s.pg.Quiet
  topic : ∀ msg ∈ s.topic, ∃ up, msg = message id u up
  handled : ∀ i, last = some i → ∃ up, s.topic[i]? = some (message id u up) ∧
    (Voted s.db id.asI64 u ↔ up = true) ∧ (i ∈ s.acked → s.acked.getLast? = some i)
  unhandled : last = none → s.acked = []

theorem Tracked.publish {last : Option Nat} (h : Tracked id u s last) (up : Bool) :
    Tracked id u { s with topic := s.topic ++ [message id u up] } last := by
  refine ⟨h.quiet, fun msg hmsg => ?_, fun i hi => ?_, h.unhandled⟩
  · rcases List.mem_append.mp hmsg with hmsg | hmsg
    · exact h.topic msg hmsg
    · exact ⟨up, List.mem_singleton.mp hmsg⟩
  · obtain ⟨up', htopic, hvoted⟩ := h.handled i hi
    obtain ⟨hlt, -⟩ := List.getElem?_eq_some_iff.mp htopic
    exact ⟨up', (List.getElem?_append_left hlt).trans htopic, hvoted⟩

theorem Tracked.request {last : Option Nat} (h : Tracked id u s last)
    {r : Except Err (App.Reply Pb.AgreeAnswerResponse)}
    (ha : Answered allow s (message id u up) r s') : Tracked id u s' last := by
  cases ha with
  | kept => exact h
  | sent => exact h.publish up
  | unsure => exact h.publish up

theorem Tracked.deliver {last : Option Nat} (h : Tracked id u s last) {i : Nat}
    (htopic : s.topic[i]? = some (message id u up)) (hi : i ∉ s.acked) (hq : s'.pg.Quiet)
    (hsame : s'.topic = s.topic) (hd : Delivered id u up i s s') : ∃ last', Tracked id u s' last' := by
  cases hd with
  | skipped hdb hacked =>
    refine ⟨last, hq, by rw [hsame]; exact h.topic, fun j hj => ?_, by rw [hacked]; exact h.unhandled⟩
    rw [hsame, hdb, hacked]
    exact h.handled j hj
  | handled hvoted hacked =>
    refine ⟨some i, hq, by rw [hsame]; exact h.topic, fun j hj => ?_, nofun⟩
    cases hj
    rw [hsame, hacked]
    exact ⟨up, htopic, hvoted, fun hm => absurd hm hi⟩
  | acked hvoted hacked =>
    refine ⟨some i, hq, by rw [hsame]; exact h.topic, fun j hj => ?_, nofun⟩
    cases hj
    rw [hsame, hacked]
    exact ⟨up, htopic, hvoted, fun _ => List.getLast?_concat⟩

theorem Tracked.step (hu : Uncut 50 u) (e : Event) (h : ∃ last, Tracked id u x.store last) :
    ∃ last, Tracked id u (step id u x e).store last := by
  obtain ⟨last, h⟩ := h
  cases e with
  | request up script => exact ⟨last, h.request (exec_of_ensures (answerAgree_ensures h.quiet) script)⟩
  | deliver i script =>
    rw [Delivery.step]
    split
    next => exact ⟨last, h⟩
    next msg htopic =>
    split
    next hi =>
      obtain ⟨up, rfl⟩ := h.topic msg (List.mem_of_getElem? htopic)
      obtain ⟨hq, hsame, hd⟩ := deliver_ensures h.quiet hu up i script
      exact h.deliver htopic hi.2 hq hsame hd
    next => exact ⟨last, h⟩

/-- The newest message is that of the last request answered with `state=1`. -/
def Current (id : UInt64) (u : String) (x : State) : Prop :=
  ∀ msg, x.store.topic.getLast? = some msg → ∃ up, msg = message id u up ∧ x.accepted = some up

theorem Current.step (hu : Uncut 50 u) (ht : ∃ last, Tracked id u x.store last)
    (h : Current id u x) {e : Event} (he : Receipted e) : Current id u (step id u x e) := by
  obtain ⟨last, ht⟩ := ht
  cases e with
  | request up script =>
    let run := (App.answerAgree ⟨id, u, action up⟩).run World.exec ⟨x.store, script⟩
    have hscript : ∀ ch ∈ script, isLost ch = false := he
    have hrun : Answered (fun ch => isLost ch = false) x.store (message id u up) run.1
        run.2.state := Prog.Ensures.run (d := .serve) (by rfl) hscript (answerAgree_ensures ht.quiet)
    change Current id u ⟨run.2.state, if answered run.1 then some up else x.accepted, x.delivered⟩
    generalize run = r at hrun
    obtain ⟨r, w⟩ := r
    intro msg hmsg
    generalize hstate : w.state = s' at hrun
    simp only [hstate] at hmsg
    cases hrun with
    | kept hno =>
      simp only [hno]
      exact h msg hmsg
    | sent hyes =>
      rw [List.getLast?_concat] at hmsg
      exact ⟨up, (Option.some.inj hmsg).symm, if_pos hyes⟩
    | unsure ch hch hlost => exact Bool.noConfusion (hch.symm.trans hlost)
  | deliver i script =>
    rw [Delivery.step]
    split
    next => exact h
    next msg htopic =>
    split
    next hi =>
      obtain ⟨up, rfl⟩ := ht.topic msg (List.mem_of_getElem? htopic)
      obtain ⟨-, hsame, -⟩ := deliver_ensures ht.quiet hu up i script
      intro msg hmsg
      rw [hsame] at hmsg
      exact h msg hmsg
    next => exact h

end QaSys.Delivery
