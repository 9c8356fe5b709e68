import QaSys.Program.Interactive

/-! Programs in an environment that chooses how each call is answered, and what they ensure
whatever it chooses. -/

universe u v w x

namespace QaSys

/-- A state with the choices the environment makes at the next calls. -/
structure Scripted (S : Type*) (Ch : Type*) where
  state : S
  script : List Ch

namespace Prog

variable {C : Type u} {R : C → Type v} {E : Type w} {A B : Type x} {S Ch : Type*}

/-- Past the end of the script the environment chooses `d`. -/
def scripted (h : Ch → (c : C) → S → Except E (R c) × S) (d : Ch) (c : C) (w : Scripted S Ch) :
    Except E (R c) × Scripted S Ch :=
  let r := h (w.script.headD d) c w.state
  (r.1, ⟨r.2, w.script.tail⟩)

def Ensures (h : Ch → (c : C) → S → Except E (R c) × S) (allow : Ch → Prop) :
    Prog C R E A → S → (Except E A → S → Prop) → Prop
  | .ret a, s, Q => Q (.ok a) s
  | .fail e, s, Q => Q (.error e) s
  | .call c k, s, Q => ∀ ch, allow ch → (k (h ch c s).1).Ensures h allow (h ch c s).2 Q

variable {h : Ch → (c : C) → S → Except E (R c) × S} {allow : Ch → Prop} {s : S}

@[simp] theorem ensures_pure {a : A} {Q : Except E A → S → Prop} :
    (pure a : Prog C R E A).Ensures h allow s Q ↔ Q (.ok a) s := Iff.rfl

@[simp] theorem ensures_throw {e : E} {Q : Except E A → S → Prop} :
    (throw e : Prog C R E A).Ensures h allow s Q ↔ Q (.error e) s := Iff.rfl

@[simp] theorem ensures_ofExcept {r : Except E A} {Q : Except E A → S → Prop} :
    (ofExcept r : Prog C R E A).Ensures h allow s Q ↔ Q r s := by
  cases r <;> rfl

theorem ensures_op {c : C} {Q : Except E (R c) → S → Prop} :
    (op c : Prog C R E (R c)).Ensures h allow s Q ↔
      ∀ ch, allow ch → Q (h ch c s).1 (h ch c s).2 := by
  simp only [op, Ensures, ensures_ofExcept]

theorem Ensures.mono {p : Prog C R E A} {Q Q' : Except E A → S → Prop}
    (hp : p.Ensures h allow s Q) (hQ : ∀ r s, Q r s → Q' r s) : p.Ensures h allow s Q' := by
  induction p generalizing s with
  | ret a => exact hQ _ _ hp
  | fail e => exact hQ _ _ hp
  | call c k ih => exact fun ch hch => ih _ (hp ch hch)

theorem Ensures.and {p : Prog C R E A} {Q Q' : Except E A → S → Prop}
    (hp : p.Ensures h allow s Q) (hp' : p.Ensures h allow s Q') :
    p.Ensures h allow s fun r s => Q r s ∧ Q' r s := by
  induction p generalizing s with
  | ret a => exact ⟨hp, hp'⟩
  | fail e => exact ⟨hp, hp'⟩
  | call c k ih => exact fun ch hch => ih _ (hp ch hch) (hp' ch hch)

@[simp] theorem ensures_bind {p : Prog C R E A} {f : A → Prog C R E B}
    {Q : Except E B → S → Prop} : (p >>= f).Ensures h allow s Q ↔
      p.Ensures h allow s fun r s' => match r with
        | .ok a => (f a).Ensures h allow s' Q
        | .error e => Q (.error e) s' := by
  change (p.bind f).Ensures h allow s Q ↔ _
  induction p generalizing s with
  | ret a => rfl
  | fail e => rfl
  | call c k ih => exact forall₂_congr fun ch _ => ih _

@[simp] theorem ensures_attempt {p : Prog C R E A} {Q : Except E (Except E A) → S → Prop} :
    p.attempt.Ensures h allow s Q ↔ p.Ensures h allow s fun r s' => Q (.ok r) s' := by
  induction p generalizing s with
  | ret a => rfl
  | fail e => rfl
  | call c k ih => exact forall₂_congr fun ch _ => ih _

@[simp] theorem ensures_tryCatch {p : Prog C R E A} {f : E → Prog C R E A}
    {Q : Except E A → S → Prop} : (tryCatch p f).Ensures h allow s Q ↔
      p.Ensures h allow s fun r s' => match r with
        | .ok a => Q (.ok a) s'
        | .error e => (f e).Ensures h allow s' Q := by
  change (p.catchWith f).Ensures h allow s Q ↔ _
  induction p generalizing s with
  | ret a => rfl
  | fail e => rfl
  | call c k ih => exact forall₂_congr fun ch _ => ih _

/-- What a program ensures holds of its run under every script of allowed choices. -/
theorem Ensures.run {p : Prog C R E A} {Q : Except E A → S → Prop} {d : Ch} (hd : allow d)
    {script : List Ch} (hs : ∀ ch ∈ script, allow ch) (hp : p.Ensures h allow s Q) :
    Q (p.run (scripted h d) ⟨s, script⟩).1 (p.run (scripted h d) ⟨s, script⟩).2.state := by
  induction p generalizing s script with
  | ret a => exact hp
  | fail e => exact hp
  | call c k ih =>
    have hch : allow (script.headD d) := by
      cases script with
      | nil => exact hd
      | cons ch script => exact hs ch List.mem_cons_self
    exact ih _ (fun ch hmem => hs ch (List.mem_of_mem_tail hmem)) (hp _ hch)

theorem Within.ensures {P : C → Prop} {I : S → Prop} {p : Prog C R E A} (hp : p.Within P)
    (hI : ∀ ch c s, allow ch → P c → I s → I (h ch c s).2) (hs : I s) :
    p.Ensures h allow s fun _ s' => I s' := by
  induction p generalizing s with
  | ret a => exact hs
  | fail e => exact hs
  | call c k ih => exact fun ch hch => ih _ (hp.2 _) (hI ch c s hch hp.1 hs)

end Prog

end QaSys
