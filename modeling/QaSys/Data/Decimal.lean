import QaSys.Data.Int64

/-! `str::parse::<i64>` and its agreement with the decimal rendering of integers. -/

namespace QaSys

def fitsI64 (x : Int) : Bool := decide (-2 ^ 63 ≤ x) && decide (x < 2 ^ 63)

def invalidDigit : String := "invalid digit found in string"

/-- The digits are taken in one at a time, so the first digit that is none or overflows decides. -/
def parseDigits (negative : Bool) : List Char → Int → Except String Int
  | [], acc => .ok acc
  | c :: cs, acc =>
    if c.isDigit then
      let d : Int := c.toNat - '0'.toNat
      let acc' := if negative then 10 * acc - d else 10 * acc + d
      if fitsI64 acc' then parseDigits negative cs acc'
      else .error (if negative then "number too small to fit in target type"
        else "number too large to fit in target type")
    else .error invalidDigit

def parseSigned (negative : Bool) (cs : List Char) : Except String Int :=
  if cs = [] then .error invalidDigit else parseDigits negative cs 0

def parseI64 (s : String) : Except String Int :=
  match s.toList with
  | [] => .error "cannot parse integer from empty string"
  | c :: cs =>
    if c = '-' then parseSigned true cs
    else if c = '+' then parseSigned false cs
    else parseDigits false (c :: cs) 0

theorem le_ofDigitChars (cs : List Char) (n : Nat) : n ≤ Nat.ofDigitChars 10 cs n := by
  induction cs generalizing n with
  | nil => simp
  | cons c cs ih =>
    rw [Nat.ofDigitChars_cons]
    exact Nat.le_trans (by omega) (ih _)

theorem zero_le_of_isDigit {c : Char} (h : c.isDigit) : '0'.toNat ≤ c.toNat :=
  (Char.isDigit_iff_toNat.mp h).1

theorem parseDigits_nonneg {cs : List Char} (hd : ∀ c ∈ cs, c.isDigit) {n : Nat}
    (h : Nat.ofDigitChars 10 cs n < 2 ^ 63) :
    parseDigits false cs n = .ok (Nat.ofDigitChars 10 cs n : Int) := by
  induction cs generalizing n with
  | nil => simp [parseDigits]
  | cons c cs ih =>
    have hc := hd c List.mem_cons_self
    have hz := zero_le_of_isDigit hc
    rw [Nat.ofDigitChars_cons] at h ⊢
    have hle := le_ofDigitChars cs (10 * n + (c.toNat - '0'.toNat))
    have hval : 10 * (n : Int) + ((c.toNat : Int) - '0'.toNat) =
        ((10 * n + (c.toNat - '0'.toNat) : Nat) : Int) := by omega
    have hfit : fitsI64 ((10 * n + (c.toNat - '0'.toNat) : Nat) : Int) = true := by
      simp only [fitsI64, Bool.and_eq_true, decide_eq_true_eq]
      omega
    simp only [parseDigits, if_pos hc, Bool.false_eq_true, if_false, hval, hfit, if_true]
    exact ih (fun a ha => hd a (List.mem_cons_of_mem _ ha)) h

theorem parseDigits_neg {cs : List Char} (hd : ∀ c ∈ cs, c.isDigit) {n : Nat}
    (h : Nat.ofDigitChars 10 cs n ≤ 2 ^ 63) :
    parseDigits true cs (-n) = .ok (-(Nat.ofDigitChars 10 cs n : Int)) := by
  induction cs generalizing n with
  | nil => simp [parseDigits]
  | cons c cs ih =>
    have hc := hd c List.mem_cons_self
    have hz := zero_le_of_isDigit hc
    rw [Nat.ofDigitChars_cons] at h ⊢
    have hle := le_ofDigitChars cs (10 * n + (c.toNat - '0'.toNat))
    have hval : 10 * -(n : Int) - ((c.toNat : Int) - '0'.toNat) =
        -((10 * n + (c.toNat - '0'.toNat) : Nat) : Int) := by omega
    have hfit : fitsI64 (-((10 * n + (c.toNat - '0'.toNat) : Nat) : Int)) = true := by
      simp only [fitsI64, Bool.and_eq_true, decide_eq_true_eq]
      omega
    simp only [parseDigits, if_pos hc, if_true, hval, hfit]
    exact ih (fun a ha => hd a (List.mem_cons_of_mem _ ha)) h

theorem isDigit_toDigits {n : Nat} : ∀ c ∈ Nat.toDigits 10 n, c.isDigit :=
  fun _ hc => Nat.isDigit_of_mem_toDigits (by decide) (by decide) hc

theorem parseI64_nat {n : Nat} (h : n < 2 ^ 63) : parseI64 n.repr = .ok (n : Int) := by
  have hval : Nat.ofDigitChars 10 (Nat.toDigits 10 n) 0 = n := Nat.ofDigitChars_ten_toDigits
  have hparse := parseDigits_nonneg (n := 0) (isDigit_toDigits (n := n)) (by omega)
  rw [hval] at hparse
  unfold parseI64
  rw [Nat.toList_repr]
  cases hcs : Nat.toDigits 10 n with
  | nil => exact absurd hcs Nat.toDigits_ne_nil
  | cons c cs =>
    have hc : c.isDigit := isDigit_toDigits (n := n) c (by rw [hcs]; exact List.mem_cons_self)
    have hminus : c ≠ '-' := by rintro rfl; exact absurd hc (by decide)
    have hplus : c ≠ '+' := by rintro rfl; exact absurd hc (by decide)
    rw [hcs] at hparse
    simp only [if_neg hminus, if_neg hplus]
    exact hparse

theorem parseI64_toString {x : Int} (h : fitsI64 x = true) : parseI64 (toString x) = .ok x := by
  simp only [fitsI64, Bool.and_eq_true, decide_eq_true_eq] at h
  rw [Int.toString_eq_repr, Int.repr_eq_if]
  split
  next hx =>
    rw [parseI64_nat (by omega)]
    congr 1
    omega
  next hx =>
    have hval : Nat.ofDigitChars 10 (Nat.toDigits 10 (-x).toNat) 0 = (-x).toNat :=
      Nat.ofDigitChars_ten_toDigits
    have hparse := parseDigits_neg (n := 0) (isDigit_toDigits (n := (-x).toNat)) (by omega)
    rw [hval] at hparse
    have hlist : ("-" ++ (-x).toNat.repr).toList = '-' :: Nat.toDigits 10 (-x).toNat := by
      rw [String.toList_append, Nat.toList_repr]
      rfl
    unfold parseI64
    rw [hlist]
    simp only [if_true, parseSigned, if_neg Nat.toDigits_ne_nil]
    have hback : -(((-x).toNat : Nat) : Int) = x := by omega
    rw [hback] at hparse
    exact hparse

theorem eq_of_parseDigits (negative : Bool) {cs : List Char} (hd : ∀ c ∈ cs, c.isDigit) {n : Nat}
    {x : Int} (h : parseDigits negative cs (if negative then -n else n) = .ok x) :
    x = if negative then -(Nat.ofDigitChars 10 cs n : Int) else Nat.ofDigitChars 10 cs n := by
  induction cs generalizing n with
  | nil =>
    simp only [parseDigits] at h
    cases h
    rw [Nat.ofDigitChars_nil]
  | cons c cs ih =>
    have hc := hd c List.mem_cons_self
    have hz := zero_le_of_isDigit hc
    have hval : (if negative = true then
        10 * (if negative = true then -(n : Int) else n) - ((c.toNat : Int) - '0'.toNat)
        else 10 * (if negative = true then -(n : Int) else n) + ((c.toNat : Int) - '0'.toNat)) =
        if negative = true then -((10 * n + (c.toNat - '0'.toNat) : Nat) : Int)
        else ((10 * n + (c.toNat - '0'.toNat) : Nat) : Int) := by
      split <;> omega
    simp only [parseDigits, if_pos hc, hval] at h
    rw [Nat.ofDigitChars_cons]
    generalize hacc : (if negative = true then -((10 * n + (c.toNat - '0'.toNat) : Nat) : Int)
        else ((10 * n + (c.toNat - '0'.toNat) : Nat) : Int)) = acc at h
    by_cases hfit : fitsI64 acc = true
    · rw [if_pos hfit, ← hacc] at h
      exact ih (fun a ha => hd a (List.mem_cons_of_mem _ ha)) h
    · rw [if_neg hfit] at h
      nomatch h

theorem eq_of_parseI64_toString {x y : Int} (h : parseI64 (toString x) = .ok y) : y = x := by
  rw [Int.toString_eq_repr, Int.repr_eq_if] at h
  split at h
  next hx =>
    have hval : Nat.ofDigitChars 10 (Nat.toDigits 10 x.toNat) 0 = x.toNat :=
      Nat.ofDigitChars_ten_toDigits
    have hd := isDigit_toDigits (n := x.toNat)
    unfold parseI64 at h
    rw [Nat.toList_repr] at h
    cases hcs : Nat.toDigits 10 x.toNat with
    | nil => exact absurd hcs Nat.toDigits_ne_nil
    | cons c cs =>
      have hc : c.isDigit := hd c (by rw [hcs]; exact List.mem_cons_self)
      have hminus : c ≠ '-' := by rintro rfl; exact absurd hc (by decide)
      have hplus : c ≠ '+' := by rintro rfl; exact absurd hc (by decide)
      rw [hcs] at h hd hval
      simp only [if_neg hminus, if_neg hplus] at h
      have := eq_of_parseDigits false (n := 0) hd h
      rw [hval] at this
      simp only [Bool.false_eq_true, if_false] at this
      omega
  next hx =>
    have hval : Nat.ofDigitChars 10 (Nat.toDigits 10 (-x).toNat) 0 = (-x).toNat :=
      Nat.ofDigitChars_ten_toDigits
    have hlist : ("-" ++ (-x).toNat.repr).toList = '-' :: Nat.toDigits 10 (-x).toNat := by
      rw [String.toList_append, Nat.toList_repr]
      rfl
    unfold parseI64 at h
    rw [hlist] at h
    simp only [if_true, parseSigned, if_neg Nat.toDigits_ne_nil] at h
    have := eq_of_parseDigits true (n := 0) isDigit_toDigits h
    rw [hval] at this
    simp only [if_true] at this
    omega

theorem repr_injective {m n : Nat} (h : m.repr = n.repr) : m = n := by
  have hd : Nat.toDigits 10 m = Nat.toDigits 10 n := by
    rw [← Nat.toList_repr, ← Nat.toList_repr, h]
  rw [← Nat.ofDigitChars_ten_toDigits (n := m), hd, Nat.ofDigitChars_ten_toDigits]

theorem minus_ne_repr {m n : Nat} : "-" ++ m.repr ≠ n.repr := by
  intro h
  have hl := congrArg String.toList h
  rw [String.toList_append, Nat.toList_repr, Nat.toList_repr] at hl
  have hmem : '-' ∈ Nat.toDigits 10 n := by
    rw [← hl]
    exact List.mem_append_left _ (by decide)
  exact absurd (isDigit_toDigits _ hmem) (by decide)

theorem mem_toString {x : Int} {c : Char} (h : c ∈ (toString x).toList) : c = '-' ∨ c.isDigit := by
  rw [Int.toString_eq_repr, Int.repr_eq_if] at h
  split at h
  · rw [Nat.toList_repr] at h
    exact .inr (isDigit_toDigits c h)
  · rw [String.toList_append, Nat.toList_repr] at h
    rcases List.mem_append.mp h with h | h
    · exact .inl (by simpa using h)
    · exact .inr (isDigit_toDigits c h)

theorem toString_injective {x y : Int} (h : toString x = toString y) : x = y := by
  rw [Int.toString_eq_repr, Int.toString_eq_repr, Int.repr_eq_if, Int.repr_eq_if] at h
  split at h <;> split at h
  · have := repr_injective h
    omega
  · exact absurd h.symm minus_ne_repr
  · exact absurd h minus_ne_repr
  · have hl := congrArg String.toList h
    rw [String.toList_append, String.toList_append, List.append_cancel_left_eq] at hl
    have := repr_injective (String.toList_inj.mp hl)
    omega

theorem toString_uInt64 (x : UInt64) : toString x = toString (x.toNat : Int) := rfl

end QaSys
