import Mathlib.Logic.Function.Basic
import Mathlib.Data.List.Basic

/-! A database under READ COMMITTED.  A session that has a transaction open keeps the writes it has
made so far; nobody else sees them before the commit, and the rows they change stay locked.  A
statement works on the committed rows and its own session's writes at the moment it gets its locks. -/

universe u v w x

namespace QaSys.Transaction

/-- What a write does to a database, and the rows it locks. -/
structure Journal (D : Type u) (W : Type v) (K : Type w) where
  apply : D → W → D
  rows : W → List K

structure Sessions (D : Type u) (W : Type v) where
  db : D
  size : Nat
  log : Nat → Option (List W)

namespace Sessions

variable {D : Type u} {W : Type v} {K : Type w}

section

variable (J : Journal D W K)

def view (s : Sessions D W) (i : Nat) : D := ((s.log i).getD []).foldl J.apply s.db

def locked [DecidableEq K] (s : Sessions D W) (i : Nat) (k : K) : Bool :=
  (List.range s.size).any fun j => j != i && ((s.log j).getD []).any fun w => (J.rows w).contains k

def blocked [DecidableEq K] (s : Sessions D W) (i : Nat) (ws : List W) : Bool :=
  ws.any fun w => (J.rows w).any (s.locked J i)

/-- A statement of its own, committed at once. -/
def auto [DecidableEq K] (i : Nat) (q : D → Except E (A × List W)) (s : Sessions D W) :
    Option (Except E A × Sessions D W) :=
  match q s.db with
  | .error e => some (.error e, s)
  | .ok (a, ws) =>
    if s.blocked J i ws then none else some (.ok a, { s with db := ws.foldl J.apply s.db })

def stmt [DecidableEq K] (i : Nat) (q : D → Except E (A × List W)) (s : Sessions D W) :
    Option (Except E A × Sessions D W) :=
  match s.log i with
  | none => none
  | some l => match q (s.view J i) with
    | .error e => some (.error e, s)
    | .ok (a, ws) =>
      if s.blocked J i ws then none
      else some (.ok a, { s with log := Function.update s.log i (some (l ++ ws)) })

def start (s : Sessions D W) (i : Nat) : Sessions D W :=
  { s with log := Function.update s.log i (some []) }

def commit (s : Sessions D W) (i : Nat) : Sessions D W :=
  { s with db := s.view J i, log := Function.update s.log i none }

end

def rollback (s : Sessions D W) (i : Nat) : Sessions D W :=
  { s with log := Function.update s.log i none }

def Alone (s : Sessions D W) (i : Nat) : Prop := ∀ j, j ≠ i → s.log j = none

def Quiet (s : Sessions D W) : Prop := ∀ j, s.log j = none

variable {J : Journal D W K} {s : Sessions D W} {i : Nat}

theorem Quiet.alone (h : s.Quiet) : s.Alone i := fun j _ => h j

theorem view_of_some {l : List W} (h : s.log i = some l) :
    s.view J i = l.foldl J.apply s.db := by
  simp only [view, h, Option.getD_some]

section

variable [DecidableEq K]

theorem locked_eq_false (h : s.Alone i) (k : K) : s.locked J i k = false := by
  simp only [locked, List.any_eq_false]
  intro j _
  by_cases hj : j = i
  · simp [hj]
  · simp [h j hj]

theorem blocked_eq_false (h : s.Alone i) (ws : List W) : s.blocked J i ws = false := by
  simp only [blocked, List.any_eq_false]
  intro w _
  simp [locked_eq_false h]

theorem locked_iff {k : K} : s.locked J i k = true ↔
    ∃ j, j < s.size ∧ j ≠ i ∧ ∃ l, s.log j = some l ∧ ∃ w ∈ l, k ∈ J.rows w := by
  simp only [locked, List.any_eq_true, List.mem_range, Bool.and_eq_true, bne_iff_ne, ne_eq,
    List.contains_iff_mem]
  constructor
  · rintro ⟨j, hj, hne, w, hw, hk⟩
    cases hl : s.log j with
    | none => simp [hl] at hw
    | some l => exact ⟨j, hj, hne, l, hl, w, by simpa [hl] using hw, hk⟩
  · rintro ⟨j, hj, hne, l, hl, w, hw, hk⟩
    exact ⟨j, hj, hne, w, by simpa [hl] using hw, hk⟩

theorem auto_alone (h : s.Alone i) (q : D → Except E (A × List W)) :
    s.auto J i q = match q s.db with
      | .error e => some (.error e, s)
      | .ok (a, ws) => some (.ok a, { s with db := ws.foldl J.apply s.db }) := by
  simp only [auto, blocked_eq_false h]
  rfl

theorem stmt_alone (h : s.Alone i) {l : List W} (hl : s.log i = some l)
    (q : D → Except E (A × List W)) :
    s.stmt J i q = match q (l.foldl J.apply s.db) with
      | .error e => some (.error e, s)
      | .ok (a, ws) =>
        some (.ok a, { s with log := Function.update s.log i (some (l ++ ws)) }) := by
  simp only [stmt, hl, view_of_some hl, blocked_eq_false h]
  rfl

end

@[simp] theorem start_db : (s.start i).db = s.db := rfl
@[simp] theorem start_log_self : (s.start i).log i = some [] := Function.update_self ..
@[simp] theorem rollback_db : (s.rollback i).db = s.db := rfl
@[simp] theorem rollback_log_self : (s.rollback i).log i = none := Function.update_self ..
@[simp] theorem commit_log_self : (s.commit J i).log i = none := Function.update_self ..

theorem Alone.start (h : s.Alone i) : (s.start i).Alone i := fun j hj => by
  simp only [Sessions.start, Function.update_of_ne hj, h j hj]

end Sessions

end QaSys.Transaction
