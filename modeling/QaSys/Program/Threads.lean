import QaSys.Program.Interactive
import Mathlib.Algebra.BigOperators.Group.Finset.Piecewise
import Mathlib.Tactic.Abel

/-! Several programs over one state.  A schedule picks a thread at a time, and the picked thread
makes its next call; a call the state cannot answer yet leaves the thread waiting. -/

universe u v w x

namespace QaSys

variable {C : Type u} {R : C → Type v} {E : Type w} {A : Type x}

namespace Prog

def advance (h : (c : C) → S → Option (Except E (R c) × S)) :
    Prog C R E A → S → Option (Prog C R E A × S)
  | .ret _, _ => none
  | .fail _, _ => none
  | .call c k, s => (h c s).map fun r => (k r.1, r.2)

def Finished : Prog C R E A → Prop
  | .call _ _ => False
  | _ => True

@[simp] theorem finished_ret (a : A) : (.ret a : Prog C R E A).Finished := trivial

@[simp] theorem finished_fail (e : E) : (.fail e : Prog C R E A).Finished := trivial

@[simp] theorem not_finished_call (c : C) (k : Except E (R c) → Prog C R E A) :
    ¬ (Prog.call c k).Finished := id

instance (p : Prog C R E A) : Decidable p.Finished :=
  match p with
  | .ret _ => isTrue trivial
  | .fail _ => isTrue trivial
  | .call _ _ => isFalse id

theorem advance_eq_some {h : (c : C) → S → Option (Except E (R c) × S)} {p p' : Prog C R E A}
    {s s' : S} (hp : p.advance h s = some (p', s')) :
    ∃ c k r, p = .call c k ∧ h c s = some (r, s') ∧ p' = k r := by
  cases p with
  | ret a => cases hp
  | fail e => cases hp
  | call c k =>
    simp only [advance, Option.map_eq_some_iff, Prod.mk.injEq] at hp
    obtain ⟨⟨r, t⟩, hr, rfl, rfl⟩ := hp
    exact ⟨c, k, r, rfl, hr, rfl⟩

section

variable {R : C → Type x} {B : Type x} (h : (c : C) → S → Option (Except E (R c) × S)) (c : C)
  (f : R c → Prog C R E B) (s : S)

theorem advance_tryCatch_op (g : E → Prog C R E B) : (tryCatch (op c >>= f) g).advance h s =
    (h c s).map fun r => (tryCatch (ofExcept r.1 >>= f) g, r.2) := rfl

end

end Prog

structure Pool (ι : Type*) (C : Type u) (R : C → Type v) (E : Type w) (A : Type x) (S : Type*) where
  prog : ι → Prog C R E A
  state : S

namespace Pool

variable {ι S Ch : Type*} [DecidableEq ι]

/-- The picked thread makes its next call, answered as the environment chooses.  A thread that is
finished or has to wait leaves everything as it is. -/
def step (h : ι → Ch → (c : C) → S → Option (Except E (R c) × S)) (pool : Pool ι C R E A S)
    (pick : ι × Ch) : Pool ι C R E A S :=
  match (pool.prog pick.1).advance (h pick.1 pick.2) pool.state with
  | some (p, s) => ⟨Function.update pool.prog pick.1 p, s⟩
  | none => pool

def spawn (pool : Pool ι C R E A S) (i : ι) (p : Prog C R E A) : Pool ι C R E A S :=
  { pool with prog := Function.update pool.prog i p }

def Done (pool : Pool ι C R E A S) : Prop := ∀ i, (pool.prog i).Finished

theorem step_cases (h : ι → Ch → (c : C) → S → Option (Except E (R c) × S))
    (pool : Pool ι C R E A S) (i : ι) (ch : Ch) :
    pool.step h (i, ch) = pool ∨
    ∃ c k r s, pool.prog i = .call c k ∧ h i ch c pool.state = some (r, s) ∧
      pool.step h (i, ch) = ⟨Function.update pool.prog i (k r), s⟩ := by
  cases hp : (pool.prog i).advance (h i ch) pool.state with
  | none => exact .inl (by simp only [step, hp])
  | some q =>
    obtain ⟨c, k, r, hc, hr, hk⟩ := Prog.advance_eq_some hp
    exact .inr ⟨c, k, r, q.2, hc, hr, by simp only [step, hp, hk]⟩

theorem step_call {h : ι → Ch → (c : C) → S → Option (Except E (R c) × S)}
    {pool : Pool ι C R E A S} {i : ι} {ch : Ch} {c : C} {k : Except E (R c) → Prog C R E A}
    {r : Except E (R c)} {s : S} (hprog : pool.prog i = .call c k)
    (hanswer : h i ch c pool.state = some (r, s)) :
    pool.step h (i, ch) = ⟨Function.update pool.prog i (k r), s⟩ := by
  simp only [step, hprog, Prog.advance, hanswer, Option.map_some]

theorem step_finished {h : ι → Ch → (c : C) → S → Option (Except E (R c) × S)}
    {pool : Pool ι C R E A S} {i : ι} {ch : Ch} (hp : (pool.prog i).Finished) :
    pool.step h (i, ch) = pool := by
  cases hprog : pool.prog i with
  | ret a => simp only [step, hprog, Prog.advance]
  | fail e => simp only [step, hprog, Prog.advance]
  | call c k => exact absurd (hprog ▸ hp) (Prog.not_finished_call c k)

theorem sum_update [Fintype ι] {M : Type*} [AddCommGroup M] (w : ι → Prog C R E A → M)
    (prog : ι → Prog C R E A) (i : ι) (p : Prog C R E A) :
    ∑ j, w j (Function.update prog i p j) = ∑ j, w j (prog j) - w i (prog i) + w i p := by
  have hupd : (fun j => w j (Function.update prog i p j)) =
      Function.update (fun j => w j (prog j)) i (w i p) := by
    funext j
    by_cases hj : j = i
    · subst hj
      simp only [Function.update_self]
    · simp only [Function.update_of_ne hj]
  rw [hupd, Finset.sum_update_of_mem (Finset.mem_univ i), Finset.sdiff_singleton_eq_erase,
    ← Finset.add_sum_erase Finset.univ (fun j => w j (prog j)) (Finset.mem_univ i)]
  abel

end Pool

end QaSys
