import QaSys.Program.Interactive

/-! Programs that keep to a protocol.  The phase a program is in says which calls it may make, and
the answer to a call which phase comes next. -/

universe u v w x

namespace QaSys

structure Protocol (C : Type u) (R : C → Type v) (E : Type w) (Ph : Type*) where
  allows : Ph → C → Prop
  next : Ph → (c : C) → Except E (R c) → Ph

namespace Prog

variable {C : Type u} {R : C → Type v} {E : Type w} {A B : Type x} {Ph : Type*}

/-- Started in a phase the program keeps to the protocol and ends with a phase and a result that
satisfy `Q`. -/
def Keeps (π : Protocol C R E Ph) (Q : Ph → Except E A → Prop) : Ph → Prog C R E A → Prop
  | φ, .ret a => Q φ (.ok a)
  | φ, .fail e => Q φ (.error e)
  | φ, .call c k => π.allows φ c ∧ ∀ r, (k r).Keeps π Q (π.next φ c r)

variable {π : Protocol C R E Ph} {φ : Ph}

@[simp] theorem keeps_pure {a : A} {Q : Ph → Except E A → Prop} :
    (pure a : Prog C R E A).Keeps π Q φ ↔ Q φ (.ok a) := Iff.rfl

@[simp] theorem keeps_throw {e : E} {Q : Ph → Except E A → Prop} :
    (throw e : Prog C R E A).Keeps π Q φ ↔ Q φ (.error e) := Iff.rfl

theorem keeps_ofExcept {r : Except E A} {Q : Ph → Except E A → Prop} :
    (ofExcept r : Prog C R E A).Keeps π Q φ ↔ Q φ r := by
  cases r <;> exact Iff.rfl

theorem keeps_op {c : C} {Q : Ph → Except E (R c) → Prop} :
    (op c).Keeps π Q φ ↔ π.allows φ c ∧ ∀ r, Q (π.next φ c r) r :=
  and_congr_right fun _ => forall_congr' fun _ => keeps_ofExcept

theorem Keeps.mono {p : Prog C R E A} {Q Q' : Ph → Except E A → Prop} (hp : p.Keeps π Q φ)
    (h : ∀ φ r, Q φ r → Q' φ r) : p.Keeps π Q' φ := by
  induction p generalizing φ with
  | ret a => exact h _ _ hp
  | fail e => exact h _ _ hp
  | call c k ih => exact ⟨hp.1, fun r => ih r (hp.2 r)⟩

theorem keeps_bind {p : Prog C R E A} {f : A → Prog C R E B} {Q : Ph → Except E B → Prop} :
    (p >>= f).Keeps π Q φ ↔ p.Keeps π (fun φ r => match r with
      | .ok a => (f a).Keeps π Q φ
      | .error e => Q φ (.error e)) φ := by
  induction p generalizing φ with
  | ret a => exact Iff.rfl
  | fail e => exact Iff.rfl
  | call c k ih => exact and_congr_right fun _ => forall_congr' fun r => ih r

theorem keeps_attempt {p : Prog C R E A} {Q : Ph → Except E (Except E A) → Prop} :
    p.attempt.Keeps π Q φ ↔ p.Keeps π (fun φ r => Q φ (.ok r)) φ := by
  induction p generalizing φ with
  | ret a => exact Iff.rfl
  | fail e => exact Iff.rfl
  | call c k ih => exact and_congr_right fun _ => forall_congr' fun r => ih r

theorem keeps_tryCatch {p : Prog C R E A} {f : E → Prog C R E A} {Q : Ph → Except E A → Prop} :
    (tryCatch p f).Keeps π Q φ ↔ p.Keeps π (fun φ r => match r with
      | .ok a => Q φ (.ok a)
      | .error e => (f e).Keeps π Q φ) φ := by
  induction p generalizing φ with
  | ret a => exact Iff.rfl
  | fail e => exact Iff.rfl
  | call c k ih => exact and_congr_right fun _ => forall_congr' fun r => ih r

theorem Within.keeps {P : C → Prop} (hallows : ∀ c, P c → π.allows φ c)
    (hnext : ∀ c, P c → ∀ r, π.next φ c r = φ) {p : Prog C R E A} (hp : p.Within P) :
    p.Keeps π (fun φ' _ => φ' = φ) φ := by
  induction p with
  | ret a => rfl
  | fail e => rfl
  | call c k ih =>
    refine ⟨hallows c hp.1, fun r => ?_⟩
    rw [hnext c hp.1 r]
    exact ih r (hp.2 r)

end Prog

end QaSys
