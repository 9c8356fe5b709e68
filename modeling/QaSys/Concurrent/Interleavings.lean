import QaSys.Concurrent.Machine

/-! What holds however the sessions of the service are interleaved, whichever of their calls fail
and wherever a connection is lost. -/

namespace QaSys.Concurrent

open UserVote Overlap Transaction Sessions Prog Runs Ledger

variable {svc : QaServiceImpl} {s s' : Store} {n : Nat} {phase : Fin n → Phase} {i : Fin n}
  {c : Call} {φ' : Phase} {m : Machine n}

theorem Turn.happens (ht : Turn s i c (phase i) s' φ') :
    Happens ⟨s.db, s.seq⟩ (some c) ⟨s'.db, s'.seq⟩ := by
  have same {c : Option Call} (hdb : s'.pg.db = s.pg.db) (hseq : Drawn s.seq s'.seq) :
      Happens ⟨s.db, s.seq⟩ c ⟨s'.db, s'.seq⟩ := by
    rw [Store.db, Store.db, hdb]
    exact .nothing hseq
  generalize phase i = φ at ht
  cases ht with
  | aside hpg hseq => exact same (by rw [hpg]) hseq
  | wrote hq heval _ hpg hseq =>
    rw [Store.db, Store.db, hpg, hseq]
    exact .statement hq heval
  | begun hpg hseq => exact same (by rw [hpg]; rfl) (hseq ▸ .refl)
  | logged _ _ hpg hseq _ => exact same (by rw [hpg]) hseq
  | cast hp hone _ hdb hseq =>
    rw [Store.db, Store.db, hdb, hseq]
    exact .vote hp.vote (not_mem_of_filter_key hp.absent) hp.drawn hone
  | withdrew hd hone _ hdb hseq =>
    rw [Store.db, Store.db, hdb, hseq]
    exact .withdrawal (mem_of_filter_key hd.present) hd.vote hone
  | ended hpg hseq => exact same (by rw [hpg]; rfl) (hseq ▸ .refl)

theorem Keeps.update {φ : Phase} (h : ∀ j, Keeps (phase j) (m.prog j)) {p : Svc Unit}
    (hp : Keeps φ p) (j : Fin n) :
    Keeps (Function.update phase i φ j) (Function.update m.prog i p j) := by
  by_cases hji : j = i
  · subst hji
    rw [Function.update_self, Function.update_self]
    exact hp
  · rw [Function.update_of_ne hji, Function.update_of_ne hji]
    exact h j

theorem idle_of_finished {φ : Phase} {p : Svc Unit} (h : Keeps φ p) (hp : p.Finished) :
    φ = .idle := by
  cases p with
  | ret a => exact h
  | fail e => exact h
  | call c k => exact hp.elim

theorem Sound.start {clock : Int} {supply : Nat → Uuid} : Sound (start n clock supply) :=
  ⟨fun _ => .idle, .start, fun _ => rfl⟩

theorem Sound.next (svc : QaServiceImpl) (h : Sound m) (e : Event n) :
    Sound (next svc m e) ∧ Happens (seen m) (calling m e) (seen (next svc m e)) := by
  obtain ⟨phase, hsafe, hkeeps⟩ := h
  cases e with
  | assign i job =>
    simp only [Concurrent.next]
    split
    next hfin =>
      have hidle := idle_of_finished (hkeeps i) hfin
      refine ⟨⟨phase, hsafe, fun j => ?_⟩, .nothing .refl⟩
      have := Keeps.update (i := i) hkeeps (keeps_job svc job) j
      rwa [← hidle, Function.update_eq_self] at this
    next => exact ⟨⟨phase, hsafe, hkeeps⟩, .nothing .refl⟩
  | call i ch =>
    rcases Pool.step_cases exec m i ch with hsame | ⟨c, k, r, s, hprog, hexec, hstep⟩
    · rw [Concurrent.next, hsame]
      exact ⟨⟨phase, hsafe, hkeeps⟩, .nothing .refl⟩
    · have hkept := hkeeps i
      rw [hprog] at hkept
      have hturn : Turn m.state i c (phase i) s ((phase i).next c r) :=
        turn_of_exec hsafe.books (hsafe.holds i) hkept.1 hexec
      rw [Concurrent.next, hstep, calling, hprog]
      exact ⟨⟨_, hsafe.turn hturn, Keeps.update hkeeps (hkept.2 r)⟩, hturn.happens⟩
  | lose i =>
    have hturn : Turn m.state i .rollback (phase i)
      { m.state with pg := m.state.pg.rollback i } .idle := .ended rfl rfl
    exact ⟨⟨_, hsafe.turn hturn, Keeps.update hkeeps rfl⟩, .nothing .refl⟩
  | tick seconds =>
    exact ⟨⟨phase, ⟨hsafe.size, hsafe.exclusive, hsafe.books, hsafe.holds, hsafe.others⟩, hkeeps⟩,
      .nothing .refl⟩

theorem Sound.books (h : Sound m) : Books (seen m).db (seen m).seq := by
  obtain ⟨phase, hsafe, -⟩ := h
  exact hsafe.books

/-- The questions and the answers of `m'` whose keys had been drawn in `m` were there. -/
structure Kept (m m' : Machine n) : Prop where
  drawn : Drawn m.state.seq m'.state.seq
  answers : ∀ a' ∈ m'.state.db.answers, a'.id ≤ m.state.seq.answers → ∃ a ∈ m.state.db.answers,
    a.id = a'.id ∧ a.questionId = a'.questionId ∧ a.createdBy = a'.createdBy ∧
    a.createdAt = a'.createdAt
  questions : ∀ r' ∈ m'.state.db.questions, r'.id ≤ m.state.seq.questions →
    ∃ r ∈ m.state.db.questions, r.id = r'.id ∧ r.createdBy = r'.createdBy ∧
    r.createdAt = r'.createdAt

theorem Kept.refl : Kept m m :=
  ⟨.refl, fun a ha _ => ⟨a, ha, rfl, rfl, rfl, rfl⟩, fun r hr _ => ⟨r, hr, rfl, rfl, rfl⟩⟩

theorem Kept.next {m' : Machine n} (hs : Sound m') (h : Kept m m') (e : Event n) :
    Sound (next svc m' e) ∧ Kept m (next svc m' e) := by
  obtain ⟨hsound, hx⟩ := hs.next svc e
  refine ⟨hsound, h.drawn.trans hx.drawn, fun a' ha' hle => ?_, fun r' hr' hle => ?_⟩
  · rcases answers_from hs.books hx a' ha' with hnew | ⟨a, ha, hid, hq, hby, hat, -⟩
    · exact absurd (h.drawn.answers.trans_lt hnew) (not_lt.mpr hle)
    · obtain ⟨a₀, ha₀, h1, h2, h3, h4⟩ := h.answers a ha (hid ▸ hle)
      exact ⟨a₀, ha₀, h1.trans hid, h2.trans hq, h3.trans hby, h4.trans hat⟩
  · rcases questions_from hs.books hx r' hr' with hnew | ⟨r, hr, hid, hby, hat, -⟩
    · exact absurd (h.drawn.questions.trans_lt hnew) (not_lt.mpr hle)
    · obtain ⟨r₀, hr₀, h1, h2, h3⟩ := h.questions r hr (hid ▸ hle)
      exact ⟨r₀, hr₀, h1.trans hid, h2.trans hby, h3.trans hat⟩

def Tallied (db : Db) : Prop := ∀ a ∈ db.answers, a.agreeCount = tally db a.id

section

variable (svc) (n) (clock : Int) (supply : Nat → Uuid) (evs : List (Event n))

theorem sound_after : Sound (after (next svc) (start n clock supply) evs) :=
  (always_of_forall (P := fun _ _ => True) (fun _ _ => trivial) _ evs).invariant
    (fun _ e h _ => (h.next svc e).1) .start

/-- The interleavings of the sessions do nothing that statements and votes, each at once, could not
do. -/
theorem interleavings_atomic :
    Always (next svc) (fun m e => Happens (seen m) (calling m e) (seen (next svc m e)))
      (start n clock supply) evs :=
  (always_of_forall (P := fun _ _ => True) (fun _ _ => trivial) _ evs).of_invariant
    (fun _ e h _ => (Sound.next svc h e).1) (fun _ e h _ => (Sound.next svc h e).2) .start

/-- At every point of every interleaving the counter of each answer is the number of its votes. -/
theorem interleaved_counters :
    Tallied (after (next svc) (start n clock supply) evs).state.db :=
  (sound_after svc n clock supply evs).books.counted

/-- No interleaving brings a text into a question or an answer other than by a statement with that
text, and none gives a stored row another author or question. -/
theorem interleaved_texts :
    Always (next svc) (fun m e =>
        (∀ a ∈ (next svc m e).state.db.answers, AnswerFrom (seen m) (calling m e) a) ∧
        ∀ r ∈ (next svc m e).state.db.questions, QuestionFrom (seen m) (calling m e) r)
      (start n clock supply) evs := by
  refine (always_of_forall (P := fun _ _ => True) (fun _ _ => trivial) _ evs).of_invariant
    (I := Sound) (fun _ e h _ => (h.next svc e).1) (fun _ e h _ => ?_) .start
  have hx := (h.next svc e).2
  exact ⟨answers_from h.books hx, questions_from h.books hx⟩

/-- A key is never given to another question or answer, also not after a deletion, and the author
and the question of a row stay what they are. -/
theorem interleaved_keys (later : List (Event n)) :
    Kept (after (next svc) (start n clock supply) evs)
      (after (next svc) (after (next svc) (start n clock supply) evs) later) :=
  ((always_of_forall (P := fun _ _ => True) (fun _ _ => trivial) _ later).invariant
    (fun _ e h _ => Kept.next h.1 h.2 e)
    (I := fun m' => Sound m' ∧ Kept (after (next svc) (start n clock supply) evs) m')
    ⟨sound_after svc n clock supply evs, .refl⟩).2

end

end QaSys.Concurrent
