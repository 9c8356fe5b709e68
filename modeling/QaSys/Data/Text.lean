import Mathlib.Tactic.Common
import Mathlib.Data.List.Infix

/-! The operations of Rust's `str` the program uses. -/

namespace QaSys.Text

def contains (s pat : String) : Bool := decide (pat.toList <:+: s.toList)

def split (sep : Char) (s : String) : List String := (s.toList.splitOn sep).map String.ofList

def splitOnce (sep : Char) (s : String) : Option (String × String) :=
  match s.toList.dropWhile (· ≠ sep) with
  | [] => none
  | _ :: after => some (String.ofList (s.toList.takeWhile (· ≠ sep)), String.ofList after)

def rsplitOnce (sep : Char) (s : String) : Option (String × String) :=
  (splitOnce sep (String.ofList s.toList.reverse)).map fun p =>
    (String.ofList p.2.toList.reverse, String.ofList p.1.toList.reverse)

def eqIgnoreAsciiCase (s t : String) : Bool := s.toList.map Char.toLower = t.toList.map Char.toLower

def isAsciiWhitespace (c : Char) : Bool := [0x20, 0x09, 0x0A, 0x0C, 0x0D].contains c.toNat

def isWhitespace (c : Char) : Bool :=
  decide (0x09 ≤ c.toNat ∧ c.toNat ≤ 0x0D) || decide (0x2000 ≤ c.toNat ∧ c.toNat ≤ 0x200A) ||
    [0x20, 0x85, 0xA0, 0x1680, 0x2028, 0x2029, 0x202F, 0x205F, 0x3000].contains c.toNat

def trim (s : String) : String :=
  String.ofList ((s.toList.dropWhile isWhitespace).reverse.dropWhile isWhitespace).reverse

theorem split_intercalate {sep : Char} {parts : List String} (hne : parts ≠ [])
    (h : ∀ p ∈ parts, sep ∉ p.toList) :
    split sep (String.ofList ([sep].intercalate (parts.map String.toList))) = parts := by
  have hfree : ∀ l ∈ parts.map String.toList, sep ∉ l := by
    intro l hl
    obtain ⟨p, hp, rfl⟩ := List.mem_map.mp hl
    exact h p hp
  rw [split, String.toList_ofList,
    List.splitOn_intercalate sep hfree (by simpa using hne), List.map_map]
  simp [Function.comp_def]

end QaSys.Text
