import Mathlib.Tactic.Common

/-! Programs that talk to an environment, as finite trees of calls.  The environment answers a
call `c` with a reply of type `R c` or with an error, and the program goes on from the answer. -/

universe u v w x y

namespace QaSys

inductive Prog (C : Type u) (R : C → Type v) (E : Type w) (A : Type x) : Type (max u v w x)
  | ret : A → Prog C R E A
  | fail : E → Prog C R E A
  | call : (c : C) → (Except E (R c) → Prog C R E A) → Prog C R E A

namespace Prog

variable {C : Type u} {R : C → Type v} {E : Type w} {A : Type x} {B : Type y}

def bind : Prog C R E A → (A → Prog C R E B) → Prog C R E B
  | .ret a, f => f a
  | .fail e, _ => .fail e
  | .call c k, f => .call c fun r => (k r).bind f

instance : Monad (Prog C R E) where
  pure := .ret
  bind := Prog.bind

theorem bind_ret (p : Prog C R E A) : (p.bind fun a => .ret a) = p := by
  induction p with
  | ret a => rfl
  | fail e => rfl
  | call c k ih => exact congrArg (Prog.call c) (funext ih)

theorem bind_bind {D : Type*} (p : Prog C R E A) (f : A → Prog C R E B) (g : B → Prog C R E D) :
    (p.bind f).bind g = p.bind fun a => (f a).bind g := by
  induction p with
  | ret a => rfl
  | fail e => rfl
  | call c k ih => exact congrArg (Prog.call c) (funext ih)

instance : LawfulMonad (Prog C R E) :=
  LawfulMonad.mk' _ (fun p => bind_ret p) (fun _ _ => rfl) fun p f g => bind_bind p f g

/-- The outcome of a program as a value, so that its caller can look at the error. -/
def attempt : Prog C R E A → Prog C R E (Except E A)
  | .ret a => .ret (.ok a)
  | .fail e => .ret (.error e)
  | .call c k => .call c fun r => (k r).attempt

def catchWith : Prog C R E A → (E → Prog C R E A) → Prog C R E A
  | .ret a, _ => .ret a
  | .fail e, f => f e
  | .call c k, f => .call c fun r => (k r).catchWith f

instance : MonadExcept E (Prog C R E) where
  throw := .fail
  tryCatch := Prog.catchWith

def ofExcept : Except E A → Prog C R E A
  | .ok a => .ret a
  | .error e => .fail e

/-- One call whose error, if there is one, ends the program. -/
def op (c : C) : Prog C R E (R c) := .call c ofExcept

@[simp] theorem throw_bind {A B : Type x} (e : E) (f : A → Prog C R E B) :
    ((throw e : Prog C R E A) >>= f) = throw e := rfl

def run (h : (c : C) → S → Except E (R c) × S) : Prog C R E A → S → Except E A × S
  | .ret a, s => (.ok a, s)
  | .fail e, s => (.error e, s)
  | .call c k, s => run h (k (h c s).1) (h c s).2

variable (h : (c : C) → S → Except E (R c) × S)

@[simp] theorem run_ret (a : A) (s : S) : run h (.ret a) s = (.ok a, s) := rfl

@[simp] theorem run_pure {A : Type x} (a : A) (s : S) :
    run h (pure a : Prog C R E A) s = (.ok a, s) := rfl

@[simp] theorem run_fail (e : E) (s : S) : run h (.fail e : Prog C R E A) s = (.error e, s) := rfl

@[simp] theorem run_throw {A : Type x} (e : E) (s : S) :
    run h (throw e : Prog C R E A) s = (.error e, s) := rfl

@[simp] theorem run_ofExcept (r : Except E A) (s : S) : run h (ofExcept r) s = (r, s) := by
  cases r <;> rfl

@[simp] theorem run_op (c : C) (s : S) : run h (op c) s = h c s := by
  simp only [op, run, run_ofExcept]

@[simp] theorem run_bind {A B : Type x} (p : Prog C R E A) (f : A → Prog C R E B) (s : S) :
    run h (p >>= f) s = match run h p s with
      | (.ok a, s') => run h (f a) s'
      | (.error e, s') => (.error e, s') := by
  change run h (p.bind f) s = _
  induction p generalizing s with
  | ret a => rfl
  | fail e => rfl
  | call c k ih => exact ih _ _

@[simp] theorem run_attempt (p : Prog C R E A) (s : S) :
    run h p.attempt s = (.ok (run h p s).1, (run h p s).2) := by
  induction p generalizing s with
  | ret a => rfl
  | fail e => rfl
  | call c k ih => exact ih _ _

@[simp] theorem run_tryCatch {A : Type x} (p : Prog C R E A) (f : E → Prog C R E A) (s : S) :
    run h (tryCatch p f) s = match run h p s with
      | (.ok a, s') => (.ok a, s')
      | (.error e, s') => run h (f e) s' := by
  change run h (p.catchWith f) s = _
  induction p generalizing s with
  | ret a => rfl
  | fail e => rfl
  | call c k ih => exact ih _ _

/-- The program, started in `s`, ends with a result and in a state that satisfy `Q`. -/
def Ends (p : Prog C R E A) (s : S) (Q : Except E A → S → Prop) : Prop :=
  Q (run h p s).1 (run h p s).2

variable {h}

theorem ends_op {c : C} {s : S} {Q : Except E (R c) → S → Prop} :
    (op c : Prog C R E (R c)).Ends h s Q ↔ Q (h c s).1 (h c s).2 := by
  rw [Ends, run_op]

theorem ends_bind {A B : Type x} {p : Prog C R E A} {f : A → Prog C R E B} {s : S}
    {Q : Except E B → S → Prop} : (p >>= f).Ends h s Q ↔ p.Ends h s fun r s' => match r with
      | .ok a => (f a).Ends h s' Q
      | .error e => Q (.error e) s' := by
  simp only [Ends, run_bind]
  rcases run h p s with ⟨r, s'⟩
  cases r <;> rfl

theorem ends_attempt {p : Prog C R E A} {s : S} {Q : Except E (Except E A) → S → Prop} :
    p.attempt.Ends h s Q ↔ p.Ends h s fun r s' => Q (.ok r) s' := by
  rw [Ends, run_attempt]
  rfl

theorem Ends.mono {p : Prog C R E A} {s : S} {Q Q' : Except E A → S → Prop} (hp : p.Ends h s Q)
    (hQ : ∀ r s', Q r s' → Q' r s') : p.Ends h s Q' := hQ _ _ hp

/-- Every call the program can make, whatever the answers are, satisfies `P`. -/
def Within (P : C → Prop) : Prog C R E A → Prop
  | .ret _ => True
  | .fail _ => True
  | .call c k => P c ∧ ∀ r, (k r).Within P

variable {P : C → Prop}

@[simp] theorem within_pure {A : Type x} (a : A) : (pure a : Prog C R E A).Within P := trivial

@[simp] theorem within_throw {A : Type x} (e : E) : (throw e : Prog C R E A).Within P := trivial

@[simp] theorem within_ofExcept (r : Except E A) : (ofExcept r : Prog C R E A).Within P := by
  cases r <;> trivial

@[simp] theorem within_op (c : C) : (op c : Prog C R E (R c)).Within P ↔ P c := by
  simp [op, Within]

theorem within_true (p : Prog C R E A) : p.Within fun _ => True := by
  induction p with
  | ret a => trivial
  | fail e => trivial
  | call c k ih => exact ⟨trivial, ih⟩

theorem Within.mono {P' : C → Prop} {p : Prog C R E A} (hp : p.Within P) (h : ∀ c, P c → P' c) :
    p.Within P' := by
  induction p with
  | ret a => trivial
  | fail e => trivial
  | call c k ih => exact ⟨h c hp.1, fun r => ih r (hp.2 r)⟩

theorem Within.bind {A B : Type x} {p : Prog C R E A} {f : A → Prog C R E B} (hp : p.Within P)
    (hf : ∀ a, (f a).Within P) : (p >>= f).Within P := by
  change (p.bind f).Within P
  induction p with
  | ret a => exact hf a
  | fail e => trivial
  | call c k ih => exact ⟨hp.1, fun r => ih r (hp.2 r)⟩

theorem Within.attempt {p : Prog C R E A} (hp : p.Within P) : p.attempt.Within P := by
  induction p with
  | ret a => trivial
  | fail e => trivial
  | call c k ih => exact ⟨hp.1, fun r => ih r (hp.2 r)⟩

theorem Within.tryCatch {A : Type x} {p : Prog C R E A} {f : E → Prog C R E A} (hp : p.Within P)
    (hf : ∀ e, (f e).Within P) : (tryCatch p f).Within P := by
  change (p.catchWith f).Within P
  induction p with
  | ret a => trivial
  | fail e => exact hf e
  | call c k ih => exact ⟨hp.1, fun r => ih r (hp.2 r)⟩

theorem Within.run_preserves {I : S → Prop}
    {p : Prog C R E A} (hp : p.Within P) (hI : ∀ c s, P c → I s → I (h c s).2) {s : S} (hs : I s) :
    I (run h p s).2 := by
  induction p generalizing s with
  | ret a => exact hs
  | fail e => exact hs
  | call c k ih => exact ih _ (hp.2 _) (hI c s hp.1 hs)

end Prog

end QaSys
