import QaSys.Program.Runs
import QaSys.Program.Threads

/-! One program that makes its calls one at a time, while others change the state in between. -/

universe u v w x

namespace QaSys

structure Interleaved (C : Type u) (R : C → Type v) (E : Type w) (A : Type x) (S : Type*) where
  prog : Prog C R E A
  state : S

namespace Interleaved

inductive Event (Ch Ev : Type*)
  | call (ch : Ch)
  | other (e : Ev)

variable {C : Type u} {R : C → Type v} {E : Type w} {A : Type x} {S Ch Ev : Type*}

def step (h : Ch → (c : C) → S → Option (Except E (R c) × S)) (env : S → Ev → S)
    (x : Interleaved C R E A S) : Event Ch Ev → Interleaved C R E A S
  | .call ch => match x.prog.advance (h ch) x.state with
    | some (p, s) => ⟨p, s⟩
    | none => x
  | .other e => { x with state := env x.state e }

/-- The next calls, each with what the others do before it. -/
def spread : List (List Ev × Ch) → List (Event Ch Ev)
  | [] => []
  | (es, ch) :: rest => es.map .other ++ .call ch :: spread rest

variable {h : Ch → (c : C) → S → Option (Except E (R c) × S)} {env : S → Ev → S}
  {x : Interleaved C R E A S} {s : S}

theorem step_call {c : C} {k : Except E (R c) → Prog C R E A} {ch : Ch} {r : Except E (R c)} {s' : S}
    (hc : h ch c s = some (r, s')) : step h env ⟨.call c k, s⟩ (.call ch) = ⟨k r, s'⟩ := by
  simp only [step, Prog.advance, hc, Option.map_some]

theorem step_finished (hx : x.prog.Finished) (e : Event Ch Ev) :
    (step h env x e).prog = x.prog ∧ ∀ ch, e = .call ch → step h env x e = x := by
  obtain ⟨p, s⟩ := x
  cases e with
  | other e => exact ⟨rfl, nofun⟩
  | call ch =>
    cases p with
    | ret r => exact ⟨rfl, fun _ _ => rfl⟩
    | fail e => exact ⟨rfl, fun _ _ => rfl⟩
    | call c k => exact absurd hx (Prog.not_finished_call c k)

theorem run_finished (hx : x.prog.Finished) (evs : List (Event Ch Ev)) :
    (Runs.after (step h env) x evs).prog = x.prog := by
  induction evs generalizing x with
  | nil => rfl
  | cons e evs ih =>
    have he : (step h env x e).prog = x.prog := (step_finished hx e).1
    rw [Runs.after_cons, ih (he ▸ hx), he]

theorem run_other (es : List Ev) : Runs.after (step h env) x (es.map .other) =
    { x with state := Runs.after env x.state es } := by
  induction es generalizing x with
  | nil => rfl
  | cons e es ih =>
    rw [List.map_cons, Runs.after_cons, ih]
    rfl

theorem run_invariant {P : C → Prop} {I : S → Prop}
    (hcall : ∀ ch c s r s', P c → I s → h ch c s = some (r, s') → I s')
    (henv : ∀ s e, I s → I (env s e)) (hp : x.prog.Within P) (hs : I x.state)
    (evs : List (Event Ch Ev)) : I (Runs.after (step h env) x evs).state := by
  induction evs generalizing x with
  | nil => exact hs
  | cons e evs ih =>
    rw [Runs.after_cons]
    cases e with
    | other e => exact ih hp (henv _ e hs)
    | call ch =>
      obtain ⟨p, s⟩ := x
      simp only [step]
      split
      next p' s' hadv =>
        obtain ⟨c, k, r, rfl, hr, rfl⟩ := Prog.advance_eq_some hadv
        exact ih (hp.2 r) (hcall ch c s r s' hp.1 hs hr)
      next => exact ih hp hs

theorem run_spread (es : List Ev) (ch : Ch) (rest : List (List Ev × Ch)) :
    Runs.after (step h env) x (spread ((es, ch) :: rest)) = Runs.after (step h env)
      (step h env { x with state := Runs.after env x.state es } (.call ch)) (spread rest) := by
  rw [spread, Runs.after_append, run_other, Runs.after_cons]

end Interleaved

end QaSys
