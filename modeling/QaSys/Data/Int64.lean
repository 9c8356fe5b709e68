import Mathlib.Algebra.Ring.Int.Defs
import Mathlib.Algebra.Ring.Nat
import Mathlib.Tactic.Common

/-! Conversions between the 64-bit integers of a program and the integers of a database. -/

namespace QaSys

def i64Max : Nat := 2 ^ 63 - 1

end QaSys

namespace UInt64

/-- `x as i64`. -/
def asI64 (x : UInt64) : Int := x.toInt64.toInt

/-- `i64::try_from(x).ok()`. -/
def tryI64 (x : UInt64) : Option Int := if x.toNat ≤ QaSys.i64Max then some x.toNat else none

theorem asI64_eq (x : UInt64) :
    x.asI64 = if x.toNat ≤ QaSys.i64Max then (x.toNat : Int) else x.toNat - 2 ^ 64 := by
  have hx := x.toNat_lt
  have h : x.asI64 = x.toBitVec.toInt := rfl
  rw [h, BitVec.toInt_eq_toNat_cond, QaSys.i64Max, UInt64.toNat_toBitVec]
  split <;> split <;> omega

theorem tryI64_eq_some {x : UInt64} {i : Int} (h : x.tryI64 = some i) :
    i = x.toNat ∧ x.toNat ≤ QaSys.i64Max ∧ x.asI64 = i := by
  unfold tryI64 at h
  split at h
  next hx =>
    cases h
    exact ⟨rfl, hx, by rw [asI64_eq, if_pos hx]⟩
  next => cases h

end UInt64

namespace Int64

@[simp] theorem asI64_toUInt64 (x : Int64) : x.toUInt64.asI64 = x.toInt := rfl

end Int64

namespace Int

/-- `x as u64`. -/
def asU64 (x : Int) : UInt64 := UInt64.ofNat (x % 2 ^ 64).toNat

theorem toNat_asU64 {x : Int} (h0 : 0 ≤ x) (h : x ≤ QaSys.i64Max) : x.asU64.toNat = x.toNat := by
  simp only [QaSys.i64Max] at h
  simp only [asU64, UInt64.toNat_ofNat']
  omega

theorem toNat_asU64_le {x : Int} (h : 0 ≤ x) : x.asU64.toNat ≤ x.toNat := by
  simp only [asU64, UInt64.toNat_ofNat']
  omega

theorem tryI64_asU64 {x : Int} (h0 : 0 ≤ x) (h : x ≤ QaSys.i64Max) : x.asU64.tryI64 = some x := by
  have hn := toNat_asU64 h0 h
  rw [UInt64.tryI64, hn, if_pos (by omega)]
  congr 1
  omega

theorem asI64_asU64 {x : Int} (h0 : 0 ≤ x) (h : x ≤ QaSys.i64Max) : x.asU64.asI64 = x :=
  (UInt64.tryI64_eq_some (tryI64_asU64 h0 h)).2.2

theorem asU64_asI64 (x : UInt64) : x.asI64.asU64 = x := by
  have hx := x.toNat_lt
  refine UInt64.toNat_inj.mp ?_
  rw [UInt64.asI64_eq]
  simp only [asU64, UInt64.toNat_ofNat']
  split <;> omega

theorem asU64_eq_iff {x : Int} (h0 : 0 ≤ x) (h : x ≤ QaSys.i64Max) {y : UInt64} :
    x.asU64 = y ↔ x = y.asI64 := by
  constructor
  · rintro rfl
    exact (asI64_asU64 h0 h).symm
  · rintro rfl
    exact asU64_asI64 y

theorem asU64_add_asI64 (a v : Int) : (a + v.asU64.asI64).asU64 = (a + v).asU64 := by
  refine UInt64.toNat_inj.mp ?_
  rw [UInt64.asI64_eq]
  simp only [asU64, UInt64.toNat_ofNat', QaSys.i64Max]
  split <;> omega

theorem asU64_lt {a b : Int} (ha : 0 < a ∧ a ≤ QaSys.i64Max) (hb : 0 < b ∧ b ≤ QaSys.i64Max)
    (h : b < a) : b.asU64 < a.asU64 := by
  rw [UInt64.lt_iff_toNat_lt, toNat_asU64 (Int.le_of_lt ha.1) ha.2, toNat_asU64 (Int.le_of_lt hb.1) hb.2]
  omega

end Int
