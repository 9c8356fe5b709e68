import QaSys.Data.Transaction

/-! What the row locks keep apart: the rows a session has written, nobody else writes before it
commits or gives up. -/

universe u v w x

namespace QaSys.Transaction

variable {D : Type u} {W : Type v} {K : Type w} {X : Type x}

/-- Only writes that lock the row `k` change what `look` shows. -/
def Journal.Shows (J : Journal D W K) (k : K) (look : D → X) : Prop :=
  ∀ d w, k ∉ J.rows w → look (J.apply d w) = look d

theorem Journal.Shows.foldl {J : Journal D W K} {k : K} {look : D → X} (h : J.Shows k look)
    {ws : List W} (hws : ∀ w ∈ ws, k ∉ J.rows w) (d : D) :
    look (ws.foldl J.apply d) = look d := by
  induction ws generalizing d with
  | nil => rfl
  | cons w ws ih =>
    rw [List.foldl_cons, ih fun w' hw' => hws w' (List.mem_cons_of_mem _ hw')]
    exact h d w (hws w List.mem_cons_self)

namespace Sessions

variable (J : Journal D W K)

def Locks (s : Sessions D W) (i : Nat) (k : K) : Prop :=
  ∃ l, s.log i = some l ∧ ∃ w ∈ l, k ∈ J.rows w

def Exclusive (s : Sessions D W) : Prop :=
  ∀ i < s.size, ∀ j < s.size, i ≠ j → ∀ k, s.Locks J i k → ¬ s.Locks J j k

variable {J} {s s' : Sessions D W} {i j : Nat} {k : K}

theorem not_locks_of_none (h : s.log i = none) : ¬ s.Locks J i k := by
  rintro ⟨l, hl, -⟩
  rw [h] at hl
  cases hl

theorem locks_congr (h : s'.log i = s.log i) : s'.Locks J i k ↔ s.Locks J i k := by
  simp only [Locks, h]

theorem Exclusive.shrink (h : s.Exclusive J) (hsize : s'.size = s.size)
    (hown : ∀ k, s'.Locks J i k → s.Locks J i k) (hothers : ∀ j, j ≠ i → s'.log j = s.log j) :
    s'.Exclusive J := by
  have back (j : Nat) {k : K} (hk : s'.Locks J j k) : s.Locks J j k := by
    by_cases hj : j = i
    · subst hj
      exact hown k hk
    · exact (locks_congr (hothers j hj)).mp hk
  intro a ha b hb hab k hka hkb
  rw [hsize] at ha hb
  exact h a ha b hb hab k (back a hka) (back b hkb)

section

variable [DecidableEq K]

theorem locked_iff_locks : s.locked J i k = true ↔ ∃ j < s.size, j ≠ i ∧ s.Locks J j k := by
  rw [locked_iff]
  rfl

theorem blocked_iff {ws : List W} : s.blocked J i ws = true ↔
    ∃ w ∈ ws, ∃ k ∈ J.rows w, ∃ j < s.size, j ≠ i ∧ s.Locks J j k := by
  simp only [blocked, List.any_eq_true, locked_iff_locks]

theorem not_locks_of_free {ws : List W} (h : s.blocked J i ws = false) (hj : j < s.size)
    (hji : j ≠ i) {w : W} (hw : w ∈ ws) (hk : s.Locks J j k) : k ∉ J.rows w := by
  intro hrow
  have hblocked : s.blocked J i ws = true := blocked_iff.mpr ⟨w, hw, k, hrow, j, hj, hji, hk⟩
  rw [h] at hblocked
  cases hblocked

theorem Exclusive.append (h : s.Exclusive J) {l ws : List W} (hl : s.log i = some l)
    (hfree : s.blocked J i ws = false) :
    Exclusive J { s with log := Function.update s.log i (some (l ++ ws)) } := by
  have own {k : K} (hk : Locks J { s with log := Function.update s.log i (some (l ++ ws)) } i k) :
      s.Locks J i k ∨ ∃ w ∈ ws, k ∈ J.rows w := by
    obtain ⟨l', hl', w, hw, hrow⟩ := hk
    cases (Function.update_self (f := s.log) ..).symm.trans hl'
    rcases List.mem_append.mp hw with hw | hw
    · exact .inl ⟨l, hl, w, hw, hrow⟩
    · exact .inr ⟨w, hw, hrow⟩
  have other {j : Nat} (hj : j ≠ i) {k : K} :
      Locks J { s with log := Function.update s.log i (some (l ++ ws)) } j k ↔ s.Locks J j k :=
    locks_congr (Function.update_of_ne hj ..)
  intro a ha b hb hab k hka hkb
  by_cases hai : a = i
  · subst hai
    rw [other hab.symm] at hkb
    rcases own hka with hka | ⟨w, hw, hrow⟩
    · exact h a ha b hb hab k hka hkb
    · exact not_locks_of_free hfree hb hab.symm hw hkb hrow
  · rw [other hai] at hka
    by_cases hbi : b = i
    · subst hbi
      rcases own hkb with hkb | ⟨w, hw, hrow⟩
      · exact h a ha b hb hab k hka hkb
      · exact not_locks_of_free hfree ha hai hw hka hrow
    · rw [other hbi] at hkb
      exact h a ha b hb hab k hka hkb

end

theorem Exclusive.commit_shows (h : s.Exclusive J) (hi : i < s.size) (hj : j < s.size)
    (hji : j ≠ i) (hk : s.Locks J j k) {look : D → X} (hlook : J.Shows k look) :
    look (s.commit J i).db = look s.db := by
  refine hlook.foldl (fun w hw hrow => ?_) _
  cases hl : s.log i with
  | none =>
    rw [hl] at hw
    exact absurd hw List.not_mem_nil
  | some l =>
    rw [hl, Option.getD_some] at hw
    exact h i hi j hj hji.symm k ⟨l, hl, w, hw, hrow⟩ hk

theorem Exclusive.ended (h : s.Exclusive J) (hsize : s'.size = s.size)
    (hlog : s'.log = Function.update s.log i none) : s'.Exclusive J := by
  refine h.shrink (i := i) hsize (fun k hk => ?_) fun j hj => ?_
  · exact absurd hk (not_locks_of_none (by rw [hlog, Function.update_self]))
  · rw [hlog, Function.update_of_ne hj]

theorem Exclusive.begun (h : s.Exclusive J) : (s.start i).Exclusive J := by
  refine h.shrink (i := i) rfl (fun k hk => ?_) fun j hj => Function.update_of_ne hj ..
  obtain ⟨l, hl, w, hw, -⟩ := hk
  rw [start_log_self, Option.some.injEq] at hl
  subst hl
  exact absurd hw List.not_mem_nil

end Sessions

end QaSys.Transaction
