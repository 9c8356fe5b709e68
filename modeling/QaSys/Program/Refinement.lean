import QaSys.Program.Runs

/-! What an abstract machine answers, and machines that answer the same. -/

universe u v w x y

namespace QaSys.Runs

variable {T : Type u} {Rq : Type v} {An : Type w}

/-- The abstract machine goes from one state to another as it answers some requests. -/
inductive Trace (step : T → Rq → An → T → Prop) (t : T) : List (Rq × An) → T → Prop
  | nil : Trace step t [] t
  | snoc {past : List (Rq × An)} {t' t'' : T} {rq : Rq} {an : An} : Trace step t past t' →
      step t' rq an t'' → Trace step t (past ++ [(rq, an)]) t''

variable {step : T → Rq → An → T → Prop} {t t' t'' : T} {past : List (Rq × An)}

theorem Trace.cons {rq : Rq} {an : An} (h : step t rq an t') (ht : Trace step t' past t'') :
    Trace step t ((rq, an) :: past) t'' := by
  induction ht with
  | nil =>
    have hone : Trace step t ([] ++ [(rq, an)]) t' := .snoc .nil h
    exact hone
  | @snoc past _ t'' rq' an' _ hstep ih =>
    have hlast : Trace step t (((rq, an) :: past) ++ [(rq', an')]) t'' := .snoc ih hstep
    exact hlast

/-- What every answer keeps true of the past and the state holds after every trace. -/
theorem Trace.history {J : List (Rq × An) → T → Prop} (hnil : J [] t)
    (hsnoc : ∀ past t' rq an t'', J past t' → step t' rq an t'' → J (past ++ [(rq, an)]) t'')
    (h : Trace step t past t') : J past t' := by
  induction h with
  | nil => exact hnil
  | snoc _ hstep ih => exact hsnoc _ _ _ _ _ ih hstep

variable {S : Type x} {Ev : Type y} {next : S → Ev → S} {G : S → Ev → Prop} {I : S → Prop}

/-- What is seen of the events of a run, each in the state in which it happens. -/
def log {L : Type*} (next : S → Ev → S) (label : S → Ev → L) : S → List Ev → List L
  | _, [] => []
  | s, e :: es => label s e :: log next label (next s e) es

/-- A machine whose events are steps of the abstract one runs through a trace of it. -/
theorem Always.trace (label : S → Ev → Rq × An) (abs : S → T)
    (hI : ∀ s e, I s → G s e → I (next s e))
    (hstep : ∀ s e, I s → G s e → step (abs s) (label s e).1 (label s e).2 (abs (next s e))) {s : S}
    (hs : I s) {es : List Ev} (h : Always next G s es) :
    Trace step (abs s) (log next label s es) (abs (after next s es)) := by
  induction es generalizing s with
  | nil => exact .nil
  | cons e es ih => exact (ih (hI s e hs h.1) h.2).cons (hstep s e hs h.1)

end QaSys.Runs
