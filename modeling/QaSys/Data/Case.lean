import QaSys.Data.Split

/-! Texts compared without regard to the case of ASCII letters, and without the blanks around
them. -/

namespace QaSys.Text

def Caseless (c : Char) : Prop := ¬ (65 ≤ c.toNat ∧ c.toNat ≤ 90 ∨ 97 ≤ c.toNat ∧ c.toNat ≤ 122)

instance : DecidablePred Caseless := fun _ => instDecidableNot

variable {c d : Char} {s t pre post : String}

theorem toNat_toLower : c.toLower.toNat =
    if 65 ≤ c.toNat ∧ c.toNat ≤ 90 then c.toNat + 32 else c.toNat := by
  unfold Char.toLower
  have hle : (c.val ≥ 'A'.val ∧ c.val ≤ 'Z'.val) ↔ 65 ≤ c.toNat ∧ c.toNat ≤ 90 := by
    simp only [ge_iff_le, UInt32.le_iff_toNat_le]
    exact Iff.rfl
  by_cases h : 65 ≤ c.toNat ∧ c.toNat ≤ 90
  · rw [dif_pos (hle.mpr h), if_pos h]
    change (c.val + 32).toNat = c.val.toNat + 32
    rw [UInt32.toNat_add]
    have : c.val.toNat ≤ 90 := h.2
    exact Nat.mod_eq_of_lt (by change c.val.toNat + 32 < 2 ^ 32; omega)
  · rw [dif_neg (mt hle.mp h), if_neg h]

theorem toLower_eq_iff (hd : Caseless d) : c.toLower = d ↔ c = d := by
  unfold Caseless at hd
  rw [← Char.toNat_inj, ← Char.toNat_inj, toNat_toLower]
  split <;> omega

theorem isWhitespace_eq_false (h : 33 ≤ c.toNat ∧ c.toNat ≤ 126) : isWhitespace c = false := by
  simp only [isWhitespace, Bool.or_eq_false_iff, decide_eq_false_iff_not, List.contains_cons,
    List.contains_nil, Bool.or_false, beq_eq_false_iff_ne]
  omega

theorem isWhitespace_toLower (c : Char) : isWhitespace c.toLower = isWhitespace c := by
  have hlower := toNat_toLower (c := c)
  by_cases h : 65 ≤ c.toNat ∧ c.toNat ≤ 90
  · rw [if_pos h] at hlower
    rw [isWhitespace_eq_false (by omega), isWhitespace_eq_false (by omega)]
  · rw [if_neg h] at hlower
    rw [Char.toNat_inj.mp hlower]

theorem takeWhile_map_toLower {p : Char → Bool} (hp : ∀ c, p c.toLower = p c) (cs : List Char) :
    (cs.map Char.toLower).takeWhile p = (cs.takeWhile p).map Char.toLower := by
  rw [List.takeWhile_map]
  congr 2
  exact funext hp

theorem dropWhile_map_toLower {p : Char → Bool} (hp : ∀ c, p c.toLower = p c) (cs : List Char) :
    (cs.map Char.toLower).dropWhile p = (cs.dropWhile p).map Char.toLower := by
  rw [List.dropWhile_map]
  congr 2
  exact funext hp

theorem toList_toLower : s.toLower.toList = s.toList.map Char.toLower := String.toList_map

theorem toLower_trim : (trim s).toLower = trim s.toLower := by
  rw [← String.toList_inj]
  simp only [toList_toLower, trim, String.toList_ofList,
    dropWhile_map_toLower isWhitespace_toLower, ← List.map_reverse]

theorem eqIgnoreAsciiCase_iff : eqIgnoreAsciiCase s t = true ↔ s.toLower = t.toLower := by
  rw [eqIgnoreAsciiCase, decide_eq_true_eq, ← String.toList_inj, toList_toLower, toList_toLower]

theorem toLower_eq_self (h : s.toList.map Char.toLower = s.toList) : s.toLower = s := by
  rw [← String.toList_inj, toList_toLower, h]

theorem trim_append_right (h : ∀ c ∈ post.toList, isWhitespace c) : trim (s ++ post) = trim s := by
  have hpost : post.toList.dropWhile isWhitespace = [] := List.dropWhile_eq_nil_iff.mpr h
  unfold trim
  rw [String.toList_append, List.dropWhile_append, hpost]
  split
  next hs => rw [List.isEmpty_iff.mp hs]
  next =>
    rw [List.reverse_append, List.dropWhile_append_of_pos fun c hc => h c (List.mem_reverse.mp hc)]

theorem trim_append_left (h : ∀ c ∈ pre.toList, isWhitespace c) : trim (pre ++ s) = trim s := by
  unfold trim
  rw [String.toList_append, List.dropWhile_append_of_pos h]

section

variable {sep : Char} (hsep : Caseless sep)
include hsep

theorem mem_toLower : sep ∈ s.toLower.toList ↔ sep ∈ s.toList := by
  rw [toList_toLower, List.mem_map]
  constructor
  · rintro ⟨c, hc, hlower⟩
    exact (toLower_eq_iff hsep).mp hlower ▸ hc
  · exact fun h => ⟨sep, h, (toLower_eq_iff hsep).mpr rfl⟩

theorem toLower_eq_append {a b : List Char} : s.toLower.toList = a ++ sep :: b ↔
    ∃ a' b' : String, s.toList = a'.toList ++ sep :: b'.toList ∧ a'.toLower.toList = a ∧
      b'.toLower.toList = b := by
  rw [toList_toLower]
  constructor
  · intro h
    obtain ⟨a', rest, hs, ha, hrest⟩ := List.map_eq_append_iff.mp h
    obtain ⟨c, b', rfl, hc, hb⟩ := List.map_eq_cons_iff.mp hrest
    rw [toLower_eq_iff hsep] at hc
    refine ⟨String.ofList a', String.ofList b', ?_, ?_, ?_⟩
    · rw [String.toList_ofList, String.toList_ofList, hs, hc]
    · rw [toList_toLower, String.toList_ofList, ha]
    · rw [toList_toLower, String.toList_ofList, hb]
  · rintro ⟨a', b', hs, rfl, rfl⟩
    rw [hs, List.map_append, List.map_cons, (toLower_eq_iff hsep).mpr rfl, toList_toLower,
      toList_toLower]

theorem splitOnce_toLower {a b : List Char} (ha : sep ∉ a) : s.toLower.toList = a ++ sep :: b ↔
    ∃ a' b', splitOnce sep s = some (a', b') ∧ a'.toLower.toList = a ∧ b'.toLower.toList = b := by
  rw [toLower_eq_append hsep]
  refine exists₂_congr fun a' b' => ⟨fun h => ?_, fun h => ?_⟩
  · obtain ⟨hs, rfl, hb⟩ := h
    exact ⟨splitOnce_eq_some.mpr ⟨mt (mem_toLower hsep).mpr ha, hs⟩, rfl, hb⟩
  · exact ⟨(splitOnce_eq_some.mp h.1).2, h.2⟩

theorem rsplitOnce_toLower {a b : List Char} (hb : sep ∉ b) : s.toLower.toList = a ++ sep :: b ↔
    ∃ a' b', rsplitOnce sep s = some (a', b') ∧ a'.toLower.toList = a ∧ b'.toLower.toList = b := by
  rw [toLower_eq_append hsep]
  refine exists₂_congr fun a' b' => ⟨fun h => ?_, fun h => ?_⟩
  · obtain ⟨hs, ha, rfl⟩ := h
    exact ⟨rsplitOnce_eq_some.mpr ⟨mt (mem_toLower hsep).mpr hb, hs⟩, ha, rfl⟩
  · exact ⟨(rsplitOnce_eq_some.mp h.1).2, h.2⟩

end

end QaSys.Text
