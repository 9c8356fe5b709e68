import QaSys.Program.Runs
import QaSys.Program.Threads

/-! Programs with the answers they have got so far, and many of them over one state, each started by
a request of its own. -/

universe u v w x

namespace QaSys

structure Answered (C : Type u) (R : C → Type v) (E : Type w) where
  call : C
  answer : Except E (R call)

namespace Prog

variable {C : Type u} {R : C → Type v} {E : Type w} {A B : Type x}
  {P : List (Answered C R E) → C → Prop} {Q : List (Answered C R E) → Except E A → Prop}
  {past : List (Answered C R E)}

/-- Each call satisfies `P` after the answers before it, and the result `Q` after all of them. -/
def Heeds (P : List (Answered C R E) → C → Prop) (Q : List (Answered C R E) → Except E A → Prop) :
    List (Answered C R E) → Prog C R E A → Prop
  | past, .ret a => Q past (.ok a)
  | past, .fail e => Q past (.error e)
  | past, .call c k => P past c ∧ ∀ r, Heeds P Q (past ++ [⟨c, r⟩]) (k r)

@[simp] theorem heeds_pure {a : A} :
    (pure a : Prog C R E A).Heeds P Q past ↔ Q past (.ok a) := Iff.rfl

@[simp] theorem heeds_throw {e : E} :
    (throw e : Prog C R E A).Heeds P Q past ↔ Q past (.error e) := Iff.rfl

@[simp] theorem heeds_ofExcept {r : Except E A} :
    (ofExcept r : Prog C R E A).Heeds P Q past ↔ Q past r := by
  cases r <;> rfl

theorem heeds_op {c : C} {Q : List (Answered C R E) → Except E (R c) → Prop} :
    (op c : Prog C R E (R c)).Heeds P Q past ↔ P past c ∧ ∀ r, Q (past ++ [⟨c, r⟩]) r := by
  simp only [op, Heeds, heeds_ofExcept]

theorem heeds_bind {p : Prog C R E A} {f : A → Prog C R E B}
    {Q : List (Answered C R E) → Except E B → Prop} : (p >>= f).Heeds P Q past ↔
      p.Heeds P (fun past r => match r with
        | .ok a => (f a).Heeds P Q past
        | .error e => Q past (.error e)) past := by
  change (p.bind f).Heeds P Q past ↔ _
  induction p generalizing past with
  | ret a => rfl
  | fail e => rfl
  | call c k ih => exact and_congr_right fun _ => forall_congr' fun r => ih r

theorem heeds_attempt {p : Prog C R E A} {Q : List (Answered C R E) → Except E (Except E A) → Prop} :
    p.attempt.Heeds P Q past ↔ p.Heeds P (fun past r => Q past (.ok r)) past := by
  induction p generalizing past with
  | ret a => rfl
  | fail e => rfl
  | call c k ih => exact and_congr_right fun _ => forall_congr' fun r => ih r

theorem Heeds.mono {P' : List (Answered C R E) → C → Prop}
    {Q' : List (Answered C R E) → Except E A → Prop} {p : Prog C R E A} (h : p.Heeds P Q past)
    (hP : ∀ past c, P past c → P' past c) (hQ : ∀ past r, Q past r → Q' past r) :
    p.Heeds P' Q' past := by
  induction p generalizing past with
  | ret a => exact hQ _ _ h
  | fail e => exact hQ _ _ h
  | call c k ih => exact ⟨hP _ _ h.1, fun r => ih r (h.2 r)⟩

theorem Within.heeds {start : List (Answered C R E)} {P' : C → Prop} {p : Prog C R E A}
    (hp : p.Within P') (hP : ∀ past c, start <+: past → P' c → P past c) (hpast : start <+: past) :
    p.Heeds P (fun past' _ => start <+: past') past := by
  induction p generalizing past with
  | ret a => exact hpast
  | fail e => exact hpast
  | call c k ih =>
    exact ⟨hP _ c hpast hp.1, fun r => ih r (hp.2 r) (hpast.trans (List.prefix_append _ _))⟩

def calling : Prog C R E A → Option C
  | .call c _ => some c
  | _ => none

theorem calling_eq_some {p : Prog C R E A} {c : C} (h : p.calling = some c) :
    ∃ k, p = .call c k := by
  cases p with
  | ret a => cases h
  | fail e => cases h
  | call c' k =>
    cases h
    exact ⟨k, rfl⟩

/-- After these answers the rest of the program is `q`. -/
inductive Reaches (p : Prog C R E A) : List (Answered C R E) → Prog C R E A → Prop
  | start : Reaches p [] p
  | answered {past : List (Answered C R E)} {c : C} {k : Except E (R c) → Prog C R E A}
      {r : Except E (R c)} : Reaches p past (.call c k) → Reaches p (past ++ [⟨c, r⟩]) (k r)

theorem Heeds.reaches {p q : Prog C R E A} (h : p.Heeds P Q []) (hr : p.Reaches past q) :
    q.Heeds P Q past := by
  induction hr with
  | start => exact h
  | answered _ ih => exact ih.2 _

theorem Heeds.called {p q : Prog C R E A} (h : p.Heeds P Q []) (hr : p.Reaches past q)
    {before rest : List (Answered C R E)} {a : Answered C R E}
    (hpast : past = before ++ a :: rest) : P before a.call := by
  induction hr generalizing rest with
  | start => cases before <;> cases hpast
  | answered hr ih =>
    rcases rest.eq_nil_or_concat with rfl | ⟨rest, last, rfl⟩
    · obtain ⟨rfl, rfl⟩ := List.append_inj' hpast rfl |>.imp_right List.singleton_inj.mp
      exact (h.reaches hr).1
    · rw [List.concat_eq_append, ← List.cons_append, ← List.append_assoc] at hpast
      exact ih (List.append_inj' hpast rfl).1

theorem Within.reaches {P' : C → Prop} {p q : Prog C R E A} (h : p.Within P')
    (hr : p.Reaches past q) : (∀ a ∈ past, P' a.call) ∧ q.Within P' := by
  induction hr with
  | start => exact ⟨nofun, h⟩
  | answered _ ih =>
    refine ⟨fun a ha => ?_, ih.2.2 _⟩
    rcases List.mem_append.mp ha with ha | ha
    · exact ih.1 a ha
    · rw [List.mem_singleton.mp ha]
      exact ih.2.1

end Prog

/-- A call that was made: the state it met, how the environment chose to answer, and the answer. -/
structure Entry (C : Type u) (R : C → Type v) (E : Type w) (S Ch : Type*) where
  state : S
  choice : Ch
  answered : Answered C R E

structure Exchange (C : Type u) (R : C → Type v) (E : Type w) (A : Type x) (S Ch Rq : Type*) where
  request : Rq
  past : List (Entry C R E S Ch)
  prog : Prog C R E A

structure Server (C : Type u) (R : C → Type v) (E : Type w) (A : Type x) (S Ch Rq : Type*) where
  state : S
  exchanges : List (Exchange C R E A S Ch Rq)

variable {C : Type u} {R : C → Type v} {E : Type w} {A : Type x} {S Ch Rq Ev : Type*}

def Exchange.answers (e : Exchange C R E A S Ch Rq) : List (Answered C R E) :=
  e.past.map (·.answered)

namespace Server

inductive Event (Ch Rq Ev : Type*)
  | arrive (request : Rq)
  | call (i : Nat) (ch : Ch)
  | other (e : Ev)

def step (app : Rq → Prog C R E A) (h : Ch → (c : C) → S → Option (Except E (R c) × S))
    (env : S → Ev → S) (x : Server C R E A S Ch Rq) : Event Ch Rq Ev → Server C R E A S Ch Rq
  | .arrive request => { x with exchanges := x.exchanges ++ [⟨request, [], app request⟩] }
  | .call i ch => match x.exchanges[i]? with
    | some ⟨request, past, .call c k⟩ => match h ch c x.state with
      | some (r, s) => ⟨s, x.exchanges.set i ⟨request, past ++ [⟨x.state, ch, c, r⟩], k r⟩⟩
      | none => x
    | _ => x
  | .other e => { x with state := env x.state e }

variable {app : Rq → Prog C R E A} {h : Ch → (c : C) → S → Option (Except E (R c) × S)}
  {env : S → Ev → S} {x : Server C R E A S Ch Rq}

/-- The exchange whose turn it is has the call `c` answered by `r`, which leaves `s`. -/
structure Answers (h : Ch → (c : C) → S → Option (Except E (R c) × S)) (x : Server C R E A S Ch Rq)
    (i : Nat) (ch : Ch) (e : Exchange C R E A S Ch Rq) (c : C) (k : Except E (R c) → Prog C R E A)
    (r : Except E (R c)) (s : S) : Prop where
  exchange : x.exchanges[i]? = some e
  prog : e.prog = .call c k
  answer : h ch c x.state = some (r, s)

theorem Answers.getElem?_step {i : Nat} {ch : Ch} {e : Exchange C R E A S Ch Rq} {c : C}
    {k : Except E (R c) → Prog C R E A} {r : Except E (R c)} {s : S}
    (ha : Answers h x i ch e c k r s) : (step app h env x (.call i ch)).exchanges[i]? =
      some ⟨e.request, e.past ++ [⟨x.state, ch, c, r⟩], k r⟩ := by
  obtain ⟨he, hprog, hanswer⟩ := ha
  obtain ⟨request, past, prog⟩ := e
  dsimp only at hprog
  subst hprog
  simp only [step, he, hanswer]
  exact List.getElem?_set_self (List.getElem?_eq_some_iff.mp he).1

/-- Everything the turn of an exchange can do. -/
theorem step_call (app : Rq → Prog C R E A) (env : S → Ev → S) (x : Server C R E A S Ch Rq)
    (i : Nat) (ch : Ch) : step app h env x (.call i ch) = x ∨ ∃ e c k r s, Answers h x i ch e c k r s ∧
      step app h env x (.call i ch) =
        ⟨s, x.exchanges.set i ⟨e.request, e.past ++ [⟨x.state, ch, c, r⟩], k r⟩⟩ := by
  simp only [step]
  split
  next request past c k hi =>
    cases hr : h ch c x.state with
    | none => exact .inl rfl
    | some q => exact .inr ⟨_, c, k, q.1, q.2, ⟨hi, rfl, hr⟩, rfl⟩
  next => exact .inl rfl

theorem step_others {n : Nat} {e : Exchange C R E A S Ch Rq} (he : x.exchanges[n]? = some e)
    {ev : Event Ch Rq Ev} (hev : ∀ ch, ev ≠ .call n ch) :
    (step app h env x ev).exchanges[n]? = some e := by
  cases ev with
  | arrive request =>
    change (x.exchanges ++ _)[n]? = some e
    rw [List.getElem?_append_left (List.getElem?_eq_some_iff.mp he).1]
    exact he
  | other ev => exact he
  | call i ch =>
    have hne : i ≠ n := fun heq => hev ch (heq ▸ rfl)
    rcases step_call (h := h) app env x i ch with hsame | ⟨d, c, k, r, s, -, hstep⟩
    · rw [hsame]
      exact he
    · rw [hstep, List.getElem?_set_ne hne]
      exact he

theorem step_continues {e : Exchange C R E A S Ch Rq} (he : e ∈ x.exchanges) (ev : Event Ch Rq Ev) :
    ∃ e' ∈ (step app h env x ev).exchanges, e'.request = e.request ∧ e.past <+: e'.past := by
  obtain ⟨n, hn⟩ := List.mem_iff_getElem?.mp he
  by_cases hev : ∀ ch, ev ≠ .call n ch
  · exact ⟨e, List.mem_of_getElem? (step_others hn hev), rfl, List.prefix_refl _⟩
  · obtain ⟨ch, hch⟩ := not_forall_not.mp hev
    subst hch
    rcases step_call (h := h) app env x n ch with hsame | ⟨d, c, k, r, s, hans, -⟩
    · rw [hsame]
      exact ⟨e, he, rfl, List.prefix_refl _⟩
    · cases hn.symm.trans hans.exchange
      exact ⟨_, List.mem_of_getElem? hans.getElem?_step, rfl, List.prefix_append _ _⟩

theorem step_extends {e : Exchange C R E A S Ch Rq} (he : e ∈ x.exchanges) (ev : Event Ch Rq Ev) :
    ∃ e' ∈ (step app h env x ev).exchanges, e.past <+: e'.past := by
  obtain ⟨e', he', -, hpast⟩ := step_continues he ev
  exact ⟨e', he', hpast⟩

theorem step_past {ev : Event Ch Rq Ev} {e' : Exchange C R E A S Ch Rq}
    (he' : e' ∈ (step app h env x ev).exchanges) {entry : Entry C R E S Ch}
    (hentry : entry ∈ e'.past) : (∃ e ∈ x.exchanges, entry ∈ e.past) ∨ entry.state = x.state := by
  cases ev with
  | arrive request =>
    rcases List.mem_append.mp he' with he' | he'
    · exact .inl ⟨e', he', hentry⟩
    · rw [List.mem_singleton.mp he'] at hentry
      exact absurd hentry List.not_mem_nil
  | other ev => exact .inl ⟨e', he', hentry⟩
  | call i ch =>
    rcases step_call (h := h) app env x i ch with hsame | ⟨d, c, k, r, s, hans, hstep⟩
    · exact .inl ⟨e', hsame ▸ he', hentry⟩
    · rw [hstep] at he'
      rcases List.mem_or_eq_of_mem_set he' with he' | rfl
      · exact .inl ⟨e', he', hentry⟩
      · rcases List.mem_append.mp hentry with hentry | hentry
        · exact .inl ⟨d, List.mem_of_getElem? hans.exchange, hentry⟩
        · rw [List.mem_singleton.mp hentry]
          exact .inr rfl

/-- The program of the exchange is what its answers leave of the one its request started, and what
holds of every call made holds of its past. -/
structure Traced (app : Rq → Prog C R E A) (J : Entry C R E S Ch → Prop)
    (e : Exchange C R E A S Ch Rq) : Prop where
  reaches : (app e.request).Reaches e.answers e.prog
  past : ∀ entry ∈ e.past, J entry

variable {J : Entry C R E S Ch → Prop}

theorem traced_step (hx : ∀ e ∈ x.exchanges, Traced app J e) (ev : Event Ch Rq Ev)
    (hJ : ∀ i ch e c k r s, ev = .call i ch → Answers h x i ch e c k r s →
      J ⟨x.state, ch, c, r⟩) : ∀ e ∈ (step app h env x ev).exchanges, Traced app J e := by
  intro e he
  cases ev with
  | arrive request =>
    rcases List.mem_append.mp he with he | he
    · exact hx e he
    · rw [List.mem_singleton.mp he]
      exact ⟨.start, nofun⟩
  | other ev => exact hx e he
  | call i ch =>
    rcases step_call (h := h) app env x i ch with hsame | ⟨d, c, k, r, s, hans, hstep⟩
    · exact hx e (hsame ▸ he)
    · rw [hstep] at he
      rcases List.mem_or_eq_of_mem_set he with he | rfl
      · exact hx e he
      · have hd := hx d (List.mem_of_getElem? hans.exchange)
        refine ⟨?_, fun entry hentry => ?_⟩
        · have hreach := hd.reaches
          rw [hans.prog] at hreach
          rw [Exchange.answers, List.map_append]
          exact hreach.answered
        · rcases List.mem_append.mp hentry with hentry | hentry
          · exact hd.past entry hentry
          · rw [List.mem_singleton.mp hentry]
            exact hJ i ch d c k r s rfl hans

end Server

end QaSys
