import Mathlib.Tactic.Common

/-! Runs of a machine that takes one event after another. -/

universe u v

namespace QaSys.Runs

variable {S : Type u} {Ev : Type v}

def after (next : S → Ev → S) (s : S) (evs : List Ev) : S := evs.foldl next s

/-- `P` holds of every event of the run, in the state in which the event happens. -/
def Always (next : S → Ev → S) (P : S → Ev → Prop) : S → List Ev → Prop
  | _, [] => True
  | s, e :: es => P s e ∧ Always next P (next s e) es

variable {next : S → Ev → S} {G P : S → Ev → Prop} {I : S → Prop}

@[simp] theorem after_nil (s : S) : after next s [] = s := rfl

@[simp] theorem after_cons (s : S) (e : Ev) (es : List Ev) :
    after next s (e :: es) = after next (next s e) es := rfl

theorem after_append (s : S) (es fs : List Ev) :
    after next s (es ++ fs) = after next (after next s es) fs := List.foldl_append

theorem Always.and {s : S} {es : List Ev} (hG : Always next G s es) (hP : Always next P s es) :
    Always next (fun s e => G s e ∧ P s e) s es := by
  induction es generalizing s with
  | nil => trivial
  | cons e es ih => exact ⟨⟨hG.1, hP.1⟩, ih hG.2 hP.2⟩

theorem always_of_forall (h : ∀ s e, P s e) (s : S) (es : List Ev) : Always next P s es := by
  induction es generalizing s with
  | nil => trivial
  | cons e es ih => exact ⟨h s e, ih _⟩

instance decidableAlways [h : ∀ s e, Decidable (P s e)] (s : S) (es : List Ev) :
    Decidable (Always next P s es) :=
  match es with
  | [] => isTrue trivial
  | e :: es => @instDecidableAnd _ _ (h s e) (decidableAlways (next s e) es)

theorem always_of_mem {P : Ev → Prop} {es : List Ev} (h : ∀ e ∈ es, P e) (s : S) :
    Always next (fun _ e => P e) s es := by
  induction es generalizing s with
  | nil => trivial
  | cons e es ih =>
    exact ⟨h e List.mem_cons_self, ih (fun a ha => h a (List.mem_cons_of_mem _ ha)) _⟩

/-- An invariant that every allowed event keeps holds after every allowed run. -/
theorem Always.invariant (step : ∀ s e, I s → G s e → I (next s e)) {s : S} {es : List Ev}
    (hs : I s) (h : Always next G s es) : I (after next s es) := by
  induction es generalizing s with
  | nil => exact hs
  | cons e es ih => exact ih (step s e hs h.1) h.2

/-- What an allowed event does in a state with the invariant, it does all along the run. -/
theorem Always.of_invariant (step : ∀ s e, I s → G s e → I (next s e))
    (hP : ∀ s e, I s → G s e → P s e) {s : S} {es : List Ev} (hs : I s)
    (h : Always next G s es) : Always next P s es := by
  induction es generalizing s with
  | nil => trivial
  | cons e es ih => exact ⟨hP s e hs h.1, ih (step s e hs h.1) h.2⟩

/-- What a single step does in states with `Q` exactly under a condition, and what leads to such a
state again, a run of events with `A` does exactly when all its events meet the condition. -/
theorem always_congr_of {Q : S → Prop} {A : Ev → Prop} (step : ∀ s e, I s → A e → I (next s e))
    (hkeep : ∀ s e, I s → A e → Q s → P s e → Q (next s e))
    (hP : ∀ s e, I s → A e → Q s → (P s e ↔ G s e)) {s : S} (hs : I s) (hq : Q s) {es : List Ev}
    (hA : ∀ e ∈ es, A e) : Always next P s es ↔ Always next G s es := by
  induction es generalizing s with
  | nil => rfl
  | cons e es ih =>
    have ha := hA e List.mem_cons_self
    have he := hP s e hs ha hq
    have hrest := fun hp => ih (step s e hs ha) (hkeep s e hs ha hq hp)
      fun e' he' => hA e' (List.mem_cons_of_mem _ he')
    exact ⟨fun h => ⟨he.mp h.1, (hrest h.1).mp h.2⟩,
      fun h => ⟨he.mpr h.1, (hrest (he.mpr h.1)).mpr h.2⟩⟩

theorem always_congr {Q : S → Prop} (step : ∀ s e, I s → I (next s e))
    (hkeep : ∀ s e, I s → Q s → P s e → Q (next s e))
    (hP : ∀ s e, I s → Q s → (P s e ↔ G s e)) {s : S} (hs : I s) (hq : Q s) {es : List Ev} :
    Always next P s es ↔ Always next G s es :=
  always_congr_of (A := fun _ => True) (fun s e hs _ => step s e hs) (fun s e hs _ => hkeep s e hs)
    (fun s e hs _ => hP s e hs) hs hq fun _ _ => trivial

/-- A property holds of every state of the run exactly when every event meets the condition under
which a single step keeps it. -/
theorem always_next_iff {Q : S → Prop} (step : ∀ s e, I s → I (next s e))
    (hQ : ∀ s e, I s → Q s → (Q (next s e) ↔ G s e)) {s : S} (hs : I s) (hq : Q s)
    {es : List Ev} : Always next (fun s e => Q (next s e)) s es ↔ Always next G s es :=
  always_congr step (fun _ _ _ _ h => h) hQ hs hq

theorem always_iff {s : S} {es : List Ev} :
    Always next P s es ↔ ∀ pre e post, es = pre ++ e :: post → P (after next s pre) e := by
  induction es generalizing s with
  | nil => simp [Always]
  | cons a es ih =>
    simp only [Always, ih]
    constructor
    · rintro ⟨ha, h⟩ pre e post heq
      cases pre with
      | nil => cases heq; exact ha
      | cons b pre => cases heq; exact h pre e post rfl
    · intro h
      exact ⟨h [] a es rfl, fun pre e post heq => h (a :: pre) e post (by rw [heq]; rfl)⟩

end QaSys.Runs
