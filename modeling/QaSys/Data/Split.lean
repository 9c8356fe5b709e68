import QaSys.Data.Text
import Mathlib.Data.List.TakeWhile

/-! A text split at the first or the last of its separators. -/

namespace QaSys.Text

variable {sep : Char} {s a b : String}

theorem splitOnce_eq_some :
    splitOnce sep s = some (a, b) ↔ sep ∉ a.toList ∧ s.toList = a.toList ++ sep :: b.toList := by
  constructor
  · intro h
    unfold splitOnce at h
    split at h
    next => cases h
    next c after hdrop =>
      cases h
      have hc : c = sep := by
        have hhead := List.head?_dropWhile_not (fun c => decide (c ≠ sep)) s.toList
        rw [hdrop] at hhead
        simpa using hhead
      rw [hc] at hdrop
      rw [String.toList_ofList, String.toList_ofList, ← hdrop, List.takeWhile_append_dropWhile]
      exact ⟨fun hmem => by simpa using List.mem_takeWhile_imp hmem, rfl⟩
  · rintro ⟨hno, hs⟩
    have hfree : ∀ c ∈ a.toList, decide (c ≠ sep) = true := fun c hc =>
      decide_eq_true fun heq => hno (heq ▸ hc)
    unfold splitOnce
    rw [hs, List.dropWhile_append_of_pos hfree, List.takeWhile_append_of_pos hfree,
      List.dropWhile_cons_of_neg (by simp), List.takeWhile_cons_of_neg (by simp), List.append_nil,
      String.ofList_toList]
    exact congrArg (fun b => some (a, b)) (String.ofList_toList)

theorem splitOnce_eq_none : splitOnce sep s = none ↔ sep ∉ s.toList := by
  unfold splitOnce
  split
  next hdrop =>
    have hall := List.dropWhile_eq_nil_iff.mp hdrop
    exact iff_of_true rfl fun hmem => by simpa using hall sep hmem
  next c after hdrop =>
    refine iff_of_false nofun fun hno => ?_
    have hfree : ∀ d ∈ s.toList, decide (d ≠ sep) = true := fun d hd =>
      decide_eq_true fun heq => hno (heq ▸ hd)
    rw [List.dropWhile_eq_nil_iff.mpr hfree] at hdrop
    cases hdrop

theorem rsplitOnce_eq_some :
    rsplitOnce sep s = some (a, b) ↔ sep ∉ b.toList ∧ s.toList = a.toList ++ sep :: b.toList := by
  unfold rsplitOnce
  rw [Option.map_eq_some_iff]
  constructor
  · rintro ⟨⟨b', a'⟩, hsplit, hpair⟩
    obtain ⟨hno, hs⟩ := splitOnce_eq_some.mp hsplit
    rw [String.toList_ofList, List.reverse_eq_iff] at hs
    cases hpair
    rw [String.toList_ofList, String.toList_ofList, hs]
    exact ⟨fun hmem => hno (List.mem_reverse.mp hmem), by simp⟩
  · rintro ⟨hno, hs⟩
    refine ⟨(String.ofList b.toList.reverse, String.ofList a.toList.reverse),
      splitOnce_eq_some.mpr ⟨?_, ?_⟩, ?_⟩
    · rw [String.toList_ofList]
      exact fun hmem => hno (List.mem_reverse.mp hmem)
    · rw [hs]
      simp
    · simp

end QaSys.Text
