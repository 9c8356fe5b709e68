import QaSys.Program.Interactive

/-! What programs end with in an environment that keeps to certain answers. -/

universe u v w x

namespace QaSys.Prog

variable {C : Type u} {R : C → Type v} {E : Type w} {A B : Type x}
  {T : (c : C) → Except E (R c) → Prop}

/-- When all the answers are of `T`, the result satisfies `Q`. -/
def Yields (T : (c : C) → Except E (R c) → Prop) (Q : Except E A → Prop) : Prog C R E A → Prop
  | .ret a => Q (.ok a)
  | .fail e => Q (.error e)
  | .call c k => ∀ r, T c r → (k r).Yields T Q

@[simp] theorem yields_pure {a : A} {Q : Except E A → Prop} :
    (pure a : Prog C R E A).Yields T Q ↔ Q (.ok a) := Iff.rfl

@[simp] theorem yields_throw {e : E} {Q : Except E A → Prop} :
    (throw e : Prog C R E A).Yields T Q ↔ Q (.error e) := Iff.rfl

theorem yields_op {c : C} {Q : Except E (R c) → Prop} :
    (op c : Prog C R E (R c)).Yields T Q ↔ ∀ r, T c r → Q r := by
  refine forall_congr' fun r => imp_congr_right fun _ => ?_
  cases r <;> rfl

theorem yields_bind {p : Prog C R E A} {f : A → Prog C R E B} {Q : Except E B → Prop} :
    (p >>= f).Yields T Q ↔ p.Yields T fun r => match r with
      | .ok a => (f a).Yields T Q
      | .error e => Q (.error e) := by
  change (p.bind f).Yields T Q ↔ _
  induction p with
  | ret a => rfl
  | fail e => rfl
  | call c k ih => exact forall_congr' fun r => imp_congr_right fun _ => ih r

theorem yields_attempt {p : Prog C R E A} {Q : Except E (Except E A) → Prop} :
    p.attempt.Yields T Q ↔ p.Yields T fun r => Q (.ok r) := by
  induction p with
  | ret a => rfl
  | fail e => rfl
  | call c k ih => exact forall_congr' fun r => imp_congr_right fun _ => ih r

theorem Yields.mono {p : Prog C R E A} {Q Q' : Except E A → Prop} (hp : p.Yields T Q)
    (h : ∀ r, Q r → Q' r) : p.Yields T Q' := by
  induction p with
  | ret a => exact h _ hp
  | fail e => exact h _ hp
  | call c k ih => exact fun r hr => ih r (hp r hr)

theorem yields_of_forall {p : Prog C R E A} {Q : Except E A → Prop} (h : ∀ r, Q r) :
    p.Yields T Q := by
  induction p with
  | ret a => exact h _
  | fail e => exact h _
  | call c k ih => exact fun r _ => ih r

theorem yields_handled {B : Type max w x} {p : Prog C R E A} {f : Except E A → Prog C R E B}
    {Q : Except E B → Prop} (h : ∀ r, (f r).Yields T Q) : (p.attempt >>= f).Yields T Q :=
  yields_bind.mpr (yields_attempt.mpr (yields_of_forall h))

/-- A run in states with the invariant `I`, which the calls of the program keep and which makes the
answers those of `T`. -/
theorem Yields.run {h : (c : C) → S → Except E (R c) × S} {I : S → Prop} {P : C → Prop}
    (hT : ∀ c s, I s → T c (h c s).1) (hI : ∀ c s, P c → I s → I (h c s).2) {p : Prog C R E A}
    {Q : Except E A → Prop} (hp : p.Yields T Q) (hw : p.Within P) {s : S} (hs : I s) :
    Q (run h p s).1 := by
  induction p generalizing s with
  | ret a => exact hp
  | fail e => exact hp
  | call c k ih => exact ih _ (hp _ (hT c s hs)) (hw.2 _) (hI c s hw.1 hs)

end QaSys.Prog
