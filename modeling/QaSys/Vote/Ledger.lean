import QaSys.Program.Runs
import QaSys.Service.Answer
import QaSys.Vote.Handled
import Mathlib.Data.Finset.Insert
import Mathlib.Data.Finset.Erase

/-! The vote rows and the counters of the answers, over runs that mix new answers, deletions and
deliveries of votes. -/

namespace QaSys.Ledger

open UserVote Runs

inductive Event
  | addAnswer (answer : AnswerEntity)
  | deleteAnswer (id : UInt64) (username : String)
  | deliver (messageId : Nat) (msg : VoteMessage)

def Event.prog : Event → Svc Unit
  | .addAnswer answer => do let _ ← Answer.add answer
  | .deleteAnswer id username => Answer.delete id username
  | .deliver messageId msg => onMessage "answer" ⟨messageId, .ok msg⟩

abbrev Turn := Event × List Choice

def handled (s : Store) (msg : VoteMessage) (script : List Choice) :
    Except Err Bool × World :=
  (handlerAnswerAgree msg.targetId.toUInt64 msg.createdBy msg.action).run World.exec ⟨s, script⟩

def ballot (r : VoteRow) : Int × String := (r.targetId, r.createdBy.val)

def tally (db : Db) (t : Int) : Nat := db.usersVotes.countP (·.targetId = t)

/-- The set of votes after one more that was handled with success. -/
def fold (roll : Finset (Int × String)) (action : String) (p : Int × String) :
    Finset (Int × String) :=
  if action = "up" then insert p roll else if action = "down" then roll.erase p else roll

@[simp] theorem fold_up {roll : Finset (Int × String)} {p : Int × String} :
    fold roll "up" p = insert p roll := rfl

@[simp] theorem fold_down {roll : Finset (Int × String)} {p : Int × String} :
    fold roll "down" p = roll.erase p := rfl

structure State where
  store : Store
  roll : Finset (Int × String)

def hasAnswer (db : Db) (t : Int) : Bool := db.answers.any (·.id = t)

def count (x : State) : Turn → Finset (Int × String)
  | (.deliver _ msg, script) =>
    if (handled x.store msg script).1.isOk && hasAnswer x.store.db msg.targetId.toInt
    then fold x.roll msg.action (msg.targetId.toInt, msg.createdBy) else x.roll
  | _ => x.roll

def step (x : State) (e : Turn) : State :=
  ⟨(e.1.prog.run World.exec ⟨x.store, e.2⟩).2.state, count x e⟩

structure Fresh (s : Store) : Prop where
  quiet : s.pg.Quiet
  noVotes : s.db.usersVotes = []
  uncounted : ∀ a ∈ s.db.answers, a.agreeCount = 0
  keyed : (s.db.answers.map AnswerRow.id).Nodup
  drawn : ∀ a ∈ s.db.answers, a.id ≤ s.seq.answers

/-- The user name of a delivered vote is not cut when it is stored. -/
def Uncropped : Turn → Prop
  | (.deliver _ msg, _) => Uncut 50 msg.createdBy
  | _ => True

instance : DecidablePred Uncropped := fun e => by
  unfold Uncropped; split <;> infer_instance

structure Sound (pg : Transaction.Sessions Db Write) (seq : Seq) (roll : Finset (Int × String)) :
    Prop where
  quiet : pg.Quiet
  typed : ∀ r ∈ pg.db.usersVotes, r.targetType.val = "answer"
  ids : (pg.db.usersVotes.map VoteRow.id).Nodup
  drawn : ∀ r ∈ pg.db.usersVotes, r.id ≤ seq.usersVotes
  ballots : (pg.db.usersVotes.map ballot).Nodup
  known : ∀ r ∈ pg.db.usersVotes, r.targetId ≤ seq.answers
  answers : ∀ a ∈ pg.db.answers, a.id ≤ seq.answers
  counted : ∀ a ∈ pg.db.answers, a.agreeCount = tally pg.db a.id
  folded : ∀ p, p ∈ roll ↔ p ∈ pg.db.usersVotes.map ballot

def State.Sound (x : State) : Prop := Ledger.Sound x.store.pg x.store.seq x.roll

variable {s s' : Store} {x : State} {roll : Finset (Int × String)} {allow : Choice → Prop}

theorem Fresh.sound (h : Fresh s) : State.Sound ⟨s, ∅⟩ := by
  have hnone : s.pg.db.usersVotes = [] := h.noVotes
  refine ⟨h.quiet, ?_, ?_, ?_, ?_, ?_, h.drawn, ?_, ?_⟩
  all_goals simp only [hnone, List.not_mem_nil, false_implies, implies_true, List.map_nil,
    List.nodup_nil]
  · intro a ha
    simp [h.uncounted a ha, tally, hnone]
  · simp

theorem voted_iff (h : Sound s.pg s.seq roll) {t : Int} {u : String} :
    Voted s.db t u ↔ (t, u) ∈ s.db.usersVotes.map ballot := by
  simp only [Voted, VoteRow.matches, ballot, List.mem_map, Prod.mk.injEq, Bool.and_eq_true,
    decide_eq_true_eq]
  constructor
  · rintro ⟨r, hr, ⟨ht, -⟩, hu⟩
    exact ⟨r, hr, ht, hu⟩
  · rintro ⟨r, hr, ht, hu⟩
    exact ⟨r, hr, ⟨ht, h.typed r hr⟩, hu⟩

theorem Sound.of_db (h : Sound s.pg s.seq roll) (hq : s'.pg.Quiet) (hdb : s'.db = s.db)
    (ha : s.seq.answers ≤ s'.seq.answers) (hv : s.seq.usersVotes ≤ s'.seq.usersVotes) :
    Sound s'.pg s'.seq roll := by
  have hdb : s'.pg.db = s.pg.db := hdb
  refine ⟨hq, ?_, ?_, ?_, ?_, ?_, ?_, ?_, ?_⟩
  all_goals rw [hdb]
  · exact h.typed
  · exact h.ids
  · exact fun r hr => (h.drawn r hr).trans hv
  · exact h.ballots
  · exact fun r hr => (h.known r hr).trans ha
  · exact fun a hm => (h.answers a hm).trans ha
  · exact h.counted
  · exact h.folded

theorem counted_replaceBy {db : Db} {a : AnswerRow} {n : Int} {f : Int → Nat}
    (hother : ∀ b ∈ db.answers, b.id ≠ a.id → b.agreeCount = f b.id) (hn : n = f a.id)
    {now : Option Int} : ∀ b ∈ replaceBy AnswerRow.id { a with agreeCount := n, updatedAt := now }
      db.answers, b.agreeCount = f b.id := by
  intro b hb
  rcases mem_replaceBy.mp hb with ⟨_, _, _, rfl⟩ | ⟨hb, hne⟩
  · exact hn
  · exact hother b hb hne

theorem tally_castVote {db : Db} (now : Int) (row : VoteRow) (a : AnswerRow) (i : Int) :
    tally (UserVote.castVote db now row a) i =
      tally db i + if row.targetId = i then 1 else 0 := by
  simp only [tally, UserVote.castVote, List.countP_append, List.countP_singleton,
    decide_eq_true_eq]

theorem tally_cancelVote {db : Db} (hids : (db.usersVotes.map VoteRow.id).Nodup) {row : VoteRow}
    (hrow : row ∈ db.usersVotes) (now : Int) (a : AnswerRow) (i : Int) :
    tally (UserVote.cancelVote db now row a) i + (if row.targetId = i then 1 else 0) =
      tally db i := by
  have := countP_removeBy hids hrow (·.targetId = i)
  simp only [decide_eq_true_eq] at this
  exact this

theorem counted_castVote {db : Db} {now : Int} {row : VoteRow} {a : AnswerRow}
    (h : ∀ b ∈ db.answers, b.agreeCount = tally db b.id) (ha : a ∈ db.answers)
    (hrow : row.targetId = a.id) : ∀ b ∈ (UserVote.castVote db now row a).answers,
      b.agreeCount = tally (UserVote.castVote db now row a) b.id := by
  refine counted_replaceBy (f := tally (UserVote.castVote db now row a)) (fun b hb hne => ?_) ?_
  · rw [tally_castVote, if_neg (by rw [hrow]; exact fun he => hne he.symm), h b hb]
    rfl
  · rw [tally_castVote, if_pos hrow, h a ha]
    rfl

theorem counted_cancelVote {db : Db} {now : Int} {row : VoteRow} {a : AnswerRow}
    (hids : (db.usersVotes.map VoteRow.id).Nodup)
    (h : ∀ b ∈ db.answers, b.agreeCount = tally db b.id) (ha : a ∈ db.answers)
    (hmem : row ∈ db.usersVotes) (hrow : row.targetId = a.id) :
    ∀ b ∈ (UserVote.cancelVote db now row a).answers,
      b.agreeCount = tally (UserVote.cancelVote db now row a) b.id := by
  refine counted_replaceBy (f := tally (UserVote.cancelVote db now row a)) (fun b hb hne => ?_) ?_
  · have := tally_cancelVote hids hmem now a b.id
    rw [if_neg (by rw [hrow]; exact fun he => hne he.symm)] at this
    rw [h b hb, ← this]
    rfl
  · have := tally_cancelVote hids hmem now a a.id
    rw [if_pos hrow] at this
    rw [h a ha, ← this]
    omega

theorem ids_replaceBy {db : Db} {row : AnswerRow} {last : Int}
    (h : ∀ a ∈ db.answers, a.id ≤ last) : ∀ a ∈ replaceBy AnswerRow.id row db.answers,
      a.id ≤ last := by
  intro a ha
  rcases mem_replaceBy.mp ha with ⟨x, hx, hid, rfl⟩ | ⟨ha, -⟩
  · exact hid ▸ h x hx
  · exact h a ha

theorem Sound.castVote (h : Sound s.pg s.seq roll) (hq : s'.pg.Quiet) {t : Int} {u : String}
    {row : VoteRow} {a : AnswerRow} {now : Int} (hnew : ¬ Voted s.db t u) (ht : row.targetId = t)
    (hty : row.targetType.val = "answer") (hu : row.createdBy.val = u)
    (hid : s.seq.usersVotes < row.id) (hid' : row.id ≤ s'.seq.usersVotes)
    (ha : s'.seq.answers = s.seq.answers) (hone : s.db.answers.filter (·.id = t) = [a])
    (hdb : s'.db = UserVote.castVote s.db now row a) :
    Sound s'.pg s'.seq (insert (t, u) roll) := by
  have hdb : s'.pg.db = UserVote.castVote s.pg.db now row a := hdb
  have hballot : ballot row = (t, u) := by rw [ballot, ht, hu]
  have hnew : ballot row ∉ s.pg.db.usersVotes.map ballot := by
    rw [hballot]; exact fun hm => hnew ((voted_iff h).mpr hm)
  obtain ⟨hmem, hat⟩ := eq_of_filter hone
  have hmap : (s.pg.db.usersVotes ++ [row]).map ballot = s.pg.db.usersVotes.map ballot ++
      [ballot row] := by rw [List.map_append]; rfl
  refine ⟨hq, ?_, ?_, ?_, ?_, ?_, ?_, ?_, ?_⟩
  all_goals rw [hdb]
  · intro r hr
    rcases List.mem_append.mp hr with hr | hr
    · exact h.typed r hr
    · rw [List.mem_singleton.mp hr, hty]
  · simp only [UserVote.castVote, List.map_append]
    refine h.ids.append (List.nodup_singleton _) ?_
    rw [List.map_singleton, List.disjoint_singleton]
    intro hm
    obtain ⟨r, hr, heq⟩ := List.mem_map.mp hm
    have := h.drawn r hr
    omega
  · intro r hr
    rcases List.mem_append.mp hr with hr | hr
    · have := h.drawn r hr
      omega
    · rw [List.mem_singleton.mp hr]; exact hid'
  · simp only [UserVote.castVote, hmap]
    exact h.ballots.append (List.nodup_singleton _) (List.disjoint_singleton.mpr hnew)
  · intro r hr
    rw [ha]
    rcases List.mem_append.mp hr with hr | hr
    · exact h.known r hr
    · rw [List.mem_singleton.mp hr, ht, ← hat]
      exact h.answers a hmem
  · rw [ha]
    exact ids_replaceBy h.answers
  · exact counted_castVote h.counted hmem (by rw [ht, hat])
  · intro p
    simp only [UserVote.castVote, hmap, Finset.mem_insert, h.folded, List.mem_append,
      List.mem_singleton, hballot]
    exact or_comm

theorem Sound.cancelVote (h : Sound s.pg s.seq roll) (hq : s'.pg.Quiet) {t : Int} {u : String}
    {row : VoteRow} {a : AnswerRow} {now : Int} (hrow : row ∈ s.db.usersVotes)
    (ht : row.targetId = t) (hu : row.createdBy.val = u)
    (hv : s.seq.usersVotes ≤ s'.seq.usersVotes) (ha : s'.seq.answers = s.seq.answers)
    (hone : s.db.answers.filter (·.id = t) = [a])
    (hdb : s'.db = UserVote.cancelVote s.db now row a) :
    Sound s'.pg s'.seq (roll.erase (t, u)) := by
  have hdb : s'.pg.db = UserVote.cancelVote s.pg.db now row a := hdb
  have hballot : ballot row = (t, u) := by rw [ballot, ht, hu]
  obtain ⟨hmem, hat⟩ := eq_of_filter hone
  have hsub : ∀ r ∈ (UserVote.cancelVote s.pg.db now row a).usersVotes,
      r ∈ s.pg.db.usersVotes := fun r hr => (mem_removeBy.mp hr).1
  refine ⟨hq, ?_, ?_, ?_, ?_, ?_, ?_, ?_, ?_⟩
  all_goals rw [hdb]
  · exact fun r hr => h.typed r (hsub r hr)
  · exact nodup_map_removeBy h.ids
  · exact fun r hr => (h.drawn r (hsub r hr)).trans hv
  · exact nodup_map_removeBy h.ballots
  · exact fun r hr => ha ▸ h.known r (hsub r hr)
  · rw [ha]
    exact ids_replaceBy h.answers
  · exact counted_cancelVote h.ids h.counted hmem hrow (by rw [ht, hat])
  · intro p
    rw [Finset.mem_erase, h.folded, and_comm, ← hballot]
    exact (mem_map_removeBy h.ids hrow h.ballots).symm

theorem Sound.handled (h : Sound s.pg s.seq roll) (hf : Framed s s') {t : Int} {u action : String}
    {r : Except Err Bool} (hr : Handled s t u action s' r) (hu : Uncut 50 u) :
    Sound s'.pg s'.seq (if r.isOk && hasAnswer s.db t then fold roll action (t, u) else roll) := by
  have idle (hdb : s'.db = s.db) : Sound s'.pg s'.seq roll :=
    h.of_db hf.quiet hdb hf.answers.ge hf.usersVotes
  cases hr with
  | refused hdb => exact idle hdb
  | again hup hvoted hdb =>
    have hin : (t, u) ∈ roll := (h.folded _).mpr ((voted_iff h).mp hvoted)
    subst hup
    rw [fold_up, Finset.insert_eq_of_mem hin, ite_self]
    exact idle hdb
  | never hdown hvoted hdb =>
    have hout : (t, u) ∉ roll := fun hin => hvoted ((voted_iff h).mpr ((h.folded _).mp hin))
    subst hdown
    rw [fold_down, Finset.erase_eq_of_notMem hout, ite_self]
    exact idle hdb
  | up row a hup hnew ht hty hassign hid hid' hone hdb =>
    have hat := eq_of_filter hone
    have hex : hasAnswer s.db t = true :=
      List.any_eq_true.mpr ⟨a, hat.1, decide_eq_true hat.2⟩
    have hby : row.createdBy.val = u := Varchar.val_of_assign hassign hu
    subst hup
    rw [hex, fold_up]
    exact h.castVote hf.quiet hnew ht hty hby hid hid' hf.answers hone hdb
  | down row a hdown hrow hone hdb =>
    have hat := eq_of_filter hone
    have hex : hasAnswer s.db t = true :=
      List.any_eq_true.mpr ⟨a, hat.1, decide_eq_true hat.2⟩
    have hmem : row ∈ s.db.usersVotes.filter (VoteRow.matches t "answer" u) :=
      hrow ▸ List.mem_singleton_self row
    simp only [List.mem_filter, VoteRow.matches, Bool.and_eq_true, decide_eq_true_eq] at hmem
    obtain ⟨hmem, ⟨ht, -⟩, hby⟩ := hmem
    subst hdown
    rw [hex, fold_down]
    exact h.cancelVote hf.quiet hmem ht hby hf.usersVotes hf.answers hone hdb

theorem Sound.deleteAnswer (h : Sound s.pg s.seq roll) (ids : List Int) :
    Sound { s.pg with db := (ids.map Write.deleteAnswer).foldl Db.apply s.pg.db } s.seq roll := by
  induction ids generalizing s with
  | nil => exact h
  | cons i ids ih =>
    refine ih (s := s.settled (s.db.apply (.deleteAnswer i)) s.seq) ?_
    refine ⟨h.quiet, h.typed, h.ids, h.drawn, h.ballots, h.known, ?_, ?_, h.folded⟩
    · exact fun a ha => h.answers a (mem_removeBy.mp ha).1
    · exact fun a ha => h.counted a (mem_removeBy.mp ha).1

theorem Sound.insertAnswer (h : Sound s.pg s.seq roll) {row : AnswerRow} {seq : Seq}
    (hid : row.id = s.seq.answers + 1) (hseq : seq.answers = row.id)
    (hv : seq.usersVotes = s.seq.usersVotes) (hzero : row.agreeCount = 0) :
    Sound { s.pg with db := s.pg.db.apply (.insertAnswer row) } seq roll := by
  refine ⟨h.quiet, h.typed, h.ids, ?_, h.ballots, ?_, ?_, ?_, h.folded⟩
  · exact fun r hr => hv ▸ h.drawn r hr
  · intro r hr
    have := h.known r hr
    omega
  · intro a ha
    rcases List.mem_append.mp ha with ha | ha
    · have := h.answers a ha
      omega
    · rw [List.mem_singleton.mp ha, hseq]
  · intro a ha
    rcases List.mem_append.mp ha with ha | ha
    · exact h.counted a ha
    · -- no vote row, also none of a deleted answer, has the id drawn for the new one
      have hnone : tally s.pg.db row.id = 0 := by
        refine List.countP_eq_zero.mpr fun r hr => ?_
        have := h.known r hr
        simp only [decide_eq_true_eq]
        omega
      rw [List.mem_singleton.mp ha, hzero]
      change (0 : Int) = tally s.pg.db row.id
      rw [hnone]
      rfl

theorem add_ensures (h : Sound s.pg s.seq roll) (answer : AnswerEntity) :
    (Answer.add answer).Ensures Store.serve allow s fun _ s' => Sound s'.pg s'.seq roll := by
  refine Prog.ensures_bind.mpr (ensures_query h.quiet (fun _ _ _ _ => h) ?_ ?_)
  · exact fun msg _ => h.of_db h.quiet rfl (le_advance _) le_rfl
  · intro id ws hins
    obtain ⟨row, rfl, rfl, -, -, -, hzero, -, -, hid, hadv⟩ := eval_insertAnswer hins
    exact h.insertAnswer hid hadv rfl hzero

theorem delete_ensures (h : Sound s.pg s.seq roll) (id : UInt64) (username : String) :
    (Answer.delete id username).Ensures Store.serve allow s fun _ s' =>
      Sound s'.pg s'.seq roll := by
  refine Prog.ensures_bind.mpr (ensures_query h.quiet (fun _ _ _ _ => h) ?_ ?_)
  · intro msg hdel
    cases hdel
  · intro n ws hdel
    cases hdel
    have := h.deleteAnswer ((s.db.answers.filter fun r =>
      r.id = id.asI64 && r.createdBy.val = username).map AnswerRow.id)
    rw [List.map_map] at this
    exact this

theorem handled_sound (h : Sound s.pg s.seq roll) (msg : VoteMessage) (script : List Choice) :
    Framed s (handled s msg script).2.state ∧ Handled s msg.targetId.toInt msg.createdBy msg.action
      (handled s msg script).2.state (handled s msg script).1 := by
  have := exec_of_ensures (handlerAnswerAgree_ensures h.quiet msg.targetId.toUInt64 msg.createdBy
    msg.action) script
  rwa [Int64.asI64_toUInt64] at this

theorem deliver_state (id : Nat) (msg : VoteMessage) (script : List Choice) :
    (step x (.deliver id msg, script)).store.pg = (handled x.store msg script).2.state.pg ∧
      (step x (.deliver id msg, script)).store.seq = (handled x.store msg script).2.state.seq := by
  have hrun := onMessage_run id msg ⟨x.store, script⟩
  obtain ⟨r, w, hw⟩ : ∃ r w, handled x.store msg script = (r, w) := ⟨_, _, rfl⟩
  rw [← handled, hw] at hrun
  change ((onMessage "answer" ⟨id, .ok msg⟩).run World.exec ⟨x.store, script⟩).2.state.pg = _ ∧
    ((onMessage "answer" ⟨id, .ok msg⟩).run World.exec ⟨x.store, script⟩).2.state.seq = _
  rw [hrun, hw]
  cases r with
  | error e => exact ⟨rfl, rfl⟩
  | ok b =>
    obtain ⟨acked, -, hack⟩ := ack_run id w
    simp only [hack, and_self]

theorem State.Sound.step (h : x.Sound) (e : Turn) (hu : Uncropped e) : (step x e).Sound := by
  obtain ⟨event, script⟩ := e
  cases event with
  | addAnswer answer =>
    have hadd : (Event.prog (.addAnswer answer)).Ensures Store.serve (fun _ => True) x.store
        fun _ s' => Ledger.Sound s'.pg s'.seq x.roll :=
      Prog.ensures_bind.mpr ((add_ensures h answer).mono fun r _ hs => by cases r <;> exact hs)
    exact exec_of_ensures hadd script
  | deleteAnswer id username => exact exec_of_ensures (delete_ensures h id username) script
  | deliver id msg =>
    obtain ⟨hf, hr⟩ := handled_sound h msg script
    obtain ⟨hpg, hseq⟩ := deliver_state (x := x) id msg script
    have := Sound.handled h hf hr hu
    rw [← hpg, ← hseq] at this
    exact this

/-- A name whose 51st character is a blank.  It is stored without the blank, so the check before the
second vote does not find the row of the first. -/
def blankName : String := String.ofList (List.replicate 50 'a') ++ " "

end QaSys.Ledger
