import Mathlib.Tactic.Common

/-! UUIDs and the text the program makes of them. -/

namespace QaSys

abbrev Uuid := BitVec 128

namespace Uuid

def nibble (u : Uuid) (k : Nat) : BitVec 4 := (u >>> (4 * k)).setWidth 4

def hexDigit (n : BitVec 4) : Char := Nat.digitChar n.toNat

/-- The 32 hexadecimal digits, the most significant first. -/
def digits (u : Uuid) : List Char := (List.range 32).reverse.map fun k => hexDigit (u.nibble k)

def toString (u : Uuid) : String :=
  let ds := u.digits
  String.ofList (['-'].intercalate
    [ds.take 8, (ds.drop 8).take 4, (ds.drop 12).take 4, (ds.drop 16).take 4, ds.drop 20])

/-- `to_string().replace("-", "")` -/
def simple (u : Uuid) : String := String.ofList (u.toString.toList.filter (· ≠ '-'))

theorem hexDigit_ne {n : BitVec 4} :
    hexDigit n ≠ '-' ∧ hexDigit n ≠ ':' ∧ hexDigit n ≠ Char.ofNat 0 := by
  revert n
  decide

theorem hexDigit_injective : Function.Injective hexDigit := by
  unfold Function.Injective
  decide

theorem mem_digits {u : Uuid} {c : Char} (h : c ∈ u.digits) :
    c ≠ '-' ∧ c ≠ ':' ∧ c ≠ Char.ofNat 0 := by
  obtain ⟨k, _, rfl⟩ := List.mem_map.mp h
  exact hexDigit_ne

theorem toList_simple (u : Uuid) : u.simple.toList = u.digits := by
  have keep : ∀ {l : List Char}, (∀ c ∈ l, c ∈ u.digits) → l.filter (· ≠ '-') = l := fun hl =>
    List.filter_eq_self.mpr fun c hc => decide_eq_true (mem_digits (hl c hc)).1
  have hdash : decide ('-' ≠ '-') = false := by decide
  have hrest : ∀ {n m : Nat} {l : List Char}, (l.drop n).take m ++ l.drop (n + m) = l.drop n := by
    intro n m l
    rw [← List.drop_drop, List.take_append_drop]
  simp only [simple, toString, String.toList_ofList, List.intercalate, List.intersperse,
    List.flatten_cons, List.flatten_nil, List.filter_append, List.filter_cons, hdash,
    Bool.false_eq_true, if_false, List.filter_nil, List.nil_append, List.append_nil]
  rw [keep fun _ => List.mem_of_mem_take, keep fun _ h => List.mem_of_mem_drop (List.mem_of_mem_take h),
    keep fun _ h => List.mem_of_mem_drop (List.mem_of_mem_take h),
    keep fun _ h => List.mem_of_mem_drop (List.mem_of_mem_take h), keep fun _ => List.mem_of_mem_drop,
    hrest, hrest, hrest, List.take_append_drop]

theorem length_simple (u : Uuid) : u.simple.toList.length = 32 := by
  simp [toList_simple, digits]

theorem colon_not_mem (u : Uuid) : ':' ∉ u.simple.toList := by
  rw [toList_simple]
  exact fun h => (mem_digits h).2.1 rfl

theorem nul_not_mem (u : Uuid) : Char.ofNat 0 ∉ u.simple.toList := by
  rw [toList_simple]
  exact fun h => (mem_digits h).2.2 rfl

theorem simple_injective : Function.Injective simple := by
  intro u v h
  have hd : u.digits = v.digits := by rw [← toList_simple, ← toList_simple, h]
  have hn : ∀ k < 32, u.nibble k = v.nibble k := by
    intro k hk
    have := List.map_inj_left.mp hd k (by simpa using hk)
    exact hexDigit_injective this
  refine BitVec.eq_of_getLsbD_eq fun i hi => ?_
  have := congrArg (fun n : BitVec 4 => n.getLsbD (i % 4)) (hn (i / 4) (by omega))
  simp only [nibble, BitVec.getLsbD_setWidth, BitVec.getLsbD_ushiftRight] at this
  rw [Nat.div_add_mod] at this
  simpa [Nat.mod_lt] using this

end Uuid

end QaSys
