import QaSys.Program.Threads
import QaSys.Program.Runs
import Mathlib.Data.DFinsupp.WellFounded
import Mathlib.Data.Set.Finite.Lemmas

/-! Threads that wait for one another.  Where a thread only ever waits for one of higher rank, some
thread can go on, and all of them can be brought to their end. -/

universe u v w x

namespace QaSys

variable {C : Type u} {R : C → Type v} {E : Type w} {A : Type x}

def Prog.Rest (p q : Prog C R E A) : Prop := ∃ c k r, q = .call c k ∧ p = k r

theorem Prog.rest_wellFounded : WellFounded (Prog.Rest (C := C) (R := R) (E := E) (A := A)) := by
  refine ⟨fun p => ?_⟩
  induction p with
  | ret a => exact ⟨_, fun q ⟨c, k, r, h, _⟩ => by cases h⟩
  | fail e => exact ⟨_, fun q ⟨c, k, r, h, _⟩ => by cases h⟩
  | call c k ih =>
    refine ⟨_, fun q hq => ?_⟩
    obtain ⟨c', k', r, h, rfl⟩ := hq
    cases h
    exact ih r

namespace Pool

variable {ι S Ch : Type*}

/-- The thread has a call to make, and the state cannot answer it yet. -/
def Waits (h : ι → (c : C) → S → Option (Except E (R c) × S)) (pool : Pool ι C R E A S) (i : ι) :
    Prop := ∃ c k, pool.prog i = .call c k ∧ h i c pool.state = none

variable {pool : Pool ι C R E A S}

/-- If the threads that wait, wait for unfinished ones of higher rank, not all of them do. -/
theorem exists_ready [Finite ι] {wait : ι → Prop} (rank : ι → Nat)
    (hrank : ∀ i, wait i → ∃ j, ¬ (pool.prog j).Finished ∧ rank i < rank j)
    (hdone : ¬ pool.Done) : ∃ i, ¬ (pool.prog i).Finished ∧ ¬ wait i := by
  have hfin : {i | ¬ (pool.prog i).Finished}.Finite := Set.toFinite _
  obtain ⟨i₀, hi₀⟩ := not_forall.mp hdone
  obtain ⟨i, hi, hmax⟩ := Set.exists_max_image _ rank hfin ⟨i₀, hi₀⟩
  refine ⟨i, hi, fun hwaits => ?_⟩
  obtain ⟨j, hj, hlt⟩ := hrank i hwaits
  exact absurd (hmax j hj) (Nat.not_le.mpr hlt)

variable [DecidableEq ι]

theorem step_ready {h : ι → Ch → (c : C) → S → Option (Except E (R c) × S)} {i : ι} {ch : Ch}
    (hi : ¬ (pool.prog i).Finished) (hready : ¬ pool.Waits (fun j => h j ch) i) :
    ∃ p s, Prog.Rest p (pool.prog i) ∧
      pool.step h (i, ch) = ⟨Function.update pool.prog i p, s⟩ := by
  cases hprog : pool.prog i with
  | ret a => exact absurd (hprog ▸ Prog.finished_ret a) hi
  | fail e => exact absurd (hprog ▸ Prog.finished_fail e) hi
  | call c k =>
    cases hanswer : h i ch c pool.state with
    | none => exact absurd ⟨c, k, hprog, hanswer⟩ hready
    | some r => exact ⟨k r.1, r.2, ⟨c, k, r.1, rfl, rfl⟩, step_call hprog hanswer⟩

theorem step_waits {h : ι → Ch → (c : C) → S → Option (Except E (R c) × S)} {i : ι} {ch : Ch}
    (hwaits : pool.Waits (fun j => h j ch) i) : pool.step h (i, ch) = pool := by
  obtain ⟨c, k, hprog, hanswer⟩ := hwaits
  simp only [step, hprog, Prog.advance, hanswer, Option.map_none]

def Fair (picks : ℕ → ι × Ch) : Prop := ∀ i k, ∃ k' ≥ k, (picks k').1 = i

/-- Where some thread can always go on, a fair schedule brings all of them to their end, whatever
the environment answers. -/
theorem Fair.done [Finite ι] {h : ι → Ch → (c : C) → S → Option (Except E (R c) × S)}
    {I : Pool ι C R E A S → Prop} (hstep : ∀ pool pick, I pool → I (pool.step h pick))
    (hready : ∀ pool, I pool → ¬ pool.Done →
      ∃ i, ¬ (pool.prog i).Finished ∧ ∀ ch, ¬ pool.Waits (fun j => h j ch) i)
    {picks : ℕ → ι × Ch} (hfair : Fair picks) (hpool : I pool) :
    ∃ k, (Runs.after (step h) pool ((List.range k).map picks)).Done := by
  classical
  have hwf : WellFounded (Pi.Lex (WellOrderingRel (α := ι))
      fun {_} => Prog.Rest (C := C) (R := R) (E := E) (A := A)) :=
    Pi.Lex.wellFounded _ fun _ => Prog.rest_wellFounded
  -- induction on what is left of the programs, thread by thread
  obtain ⟨prog, state⟩ := pool
  induction prog using hwf.induction generalizing state picks with
  | _ prog ih =>
    by_cases hdone : Done ⟨prog, state⟩
    · exact ⟨0, hdone⟩
    obtain ⟨i, hi, hfree⟩ := hready _ hpool hdone
    have hex : ∃ k, ¬ (prog (picks k).1).Finished ∧
        ¬ Waits (fun j => h j (picks k).2) ⟨prog, state⟩ (picks k).1 := by
      obtain ⟨k, -, rfl⟩ := hfair i 0
      exact ⟨k, hi, hfree _⟩
    -- nothing happens before the first pick of a thread that can go on
    have hstay (k : ℕ) (hk : k ≤ Nat.find hex) :
        Runs.after (step h) ⟨prog, state⟩ ((List.range k).map picks) = ⟨prog, state⟩ := by
      induction k with
      | zero => rfl
      | succ k ihk =>
        rw [List.range_succ, List.map_append, Runs.after_append, ihk (Nat.le_of_succ_le hk)]
        by_cases hf : (prog (picks k).1).Finished
        · exact step_finished hf
        · exact step_waits (not_not.mp fun hw => Nat.find_min hex hk ⟨hf, hw⟩)
    obtain ⟨hunfinished, hgo⟩ := Nat.find_spec hex
    obtain ⟨p, s, hrest, heq⟩ := step_ready hunfinished hgo
    generalize Nat.find hex = n at hstay hrest heq
    have hlex : Pi.Lex WellOrderingRel (fun {_} => Prog.Rest)
        (Function.update prog (picks n).1 p) prog := by
      refine ⟨(picks n).1, fun j hj => Function.update_of_ne ?_ .., by rwa [Function.update_self]⟩
      rintro rfl
      exact irrefl (picks n).1 hj
    have hlater : Fair fun k => picks (n + 1 + k) := fun i k => by
      obtain ⟨k', hk', hi⟩ := hfair i (n + 1 + k)
      refine ⟨k' - (n + 1), by omega, ?_⟩
      dsimp only
      rwa [Nat.add_sub_cancel' (by omega)]
    obtain ⟨k, hk⟩ := ih _ hlex hlater s (heq ▸ hstep _ (picks n) hpool)
    refine ⟨n + 1 + k, ?_⟩
    rw [List.range_add, List.map_append, Runs.after_append, List.range_succ, List.map_append,
      Runs.after_append, hstay n le_rfl, List.map_map]
    change (Runs.after (step h) (step h ⟨prog, state⟩ (picks n)) _).Done
    rw [show picks n = ((picks n).1, (picks n).2) from rfl, heq]
    exact hk

end Pool

end QaSys
