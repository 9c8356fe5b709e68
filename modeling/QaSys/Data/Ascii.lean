import QaSys.Data.Text
import QaSys.Data.Uuid
import QaSys.Data.Decimal

/-! Texts of ASCII characters and the bytes they are made of. -/

namespace QaSys

namespace Text

def IsAscii (s : String) : Prop := ∀ c ∈ s.toList, c.toNat < 128

def hexDigits : List Char := "0123456789abcdefABCDEF".toList

/-- `char::is_ascii_hexdigit` -/
def isAsciiHexdigit (c : Char) : Bool := hexDigits.contains c

variable {s t : String} {c : Char}

theorem IsAscii.append (hs : IsAscii s) (ht : IsAscii t) : IsAscii (s ++ t) := by
  intro c hc
  rw [String.toList_append] at hc
  rcases List.mem_append.mp hc with hc | hc
  · exact hs c hc
  · exact ht c hc

theorem flatMap_utf8EncodeChar {cs : List Char} (h : ∀ c ∈ cs, c.toNat < 128) :
    cs.flatMap String.utf8EncodeChar = cs.map fun c => UInt8.ofNat c.toNat := by
  induction cs with
  | nil => rfl
  | cons c cs ih =>
    have hc : String.utf8EncodeChar c = [UInt8.ofNat c.toNat] :=
      if_pos (Nat.le_of_lt_succ (h c List.mem_cons_self))
    rw [List.flatMap_cons, ih fun d hd => h d (List.mem_cons_of_mem _ hd), hc]
    rfl

theorem IsAscii.toUTF8 (h : IsAscii s) :
    s.toUTF8.data.toList = s.toList.map fun c => UInt8.ofNat c.toNat := by
  rw [String.toUTF8_eq_toByteArray, ← String.utf8Encode_toList, List.utf8Encode,
    List.toList_data_toByteArray, flatMap_utf8EncodeChar h]

theorem IsAscii.utf8ByteSize (h : IsAscii s) : s.utf8ByteSize = s.length := by
  have hlen := congrArg List.length h.toUTF8
  rwa [List.length_map, String.length_toList] at hlen

theorem mem_hexDigits (h : isAsciiHexdigit c) : c ∈ hexDigits := List.contains_iff_mem.mp h

theorem isAscii_of_hexDigits (h : ∀ c ∈ s.toList, isAsciiHexdigit c) : IsAscii s := by
  have hall : (hexDigits.all fun c => decide (c.toNat < 128)) = true := by decide +kernel
  exact fun c hc => of_decide_eq_true (List.all_eq_true.mp hall c (mem_hexDigits (h c hc)))

theorem colon_not_mem_of_hexDigits (h : ∀ c ∈ s.toList, isAsciiHexdigit c) : ':' ∉ s.toList := by
  have hno : ':' ∉ hexDigits := by decide
  exact fun hc => hno (mem_hexDigits (h _ hc))

end Text

open Text

theorem Uuid.isAsciiHexdigit_simple (u : Uuid) : ∀ c ∈ u.simple.toList, isAsciiHexdigit c := by
  have hall : ∀ n : BitVec 4, isAsciiHexdigit (hexDigit n) := by decide
  intro c hc
  rw [toList_simple] at hc
  obtain ⟨k, -, rfl⟩ := List.mem_map.mp hc
  exact hall _

theorem isAscii_toString (x : Int) : IsAscii (toString x) := by
  intro c hc
  rcases mem_toString hc with rfl | hdigit
  · decide
  · exact (Char.isDigit_iff_toNat.mp hdigit).2.trans_lt (by decide)

theorem length_toString_le {x : Int} (h : fitsI64 x = true) : (toString x).length ≤ 20 := by
  simp only [fitsI64, Bool.and_eq_true, decide_eq_true_eq] at h
  have hrepr : ∀ {n : Nat}, n ≤ 2 ^ 63 → n.repr.length ≤ 19 := fun hn =>
    (Nat.length_repr_le_iff (by decide)).mpr (hn.trans_lt (by decide))
  rw [Int.toString_eq_repr, Int.repr_eq_if]
  split
  · exact (hrepr (by omega)).trans (by decide)
  · rw [String.length_append]
    exact Nat.add_le_add (by decide : "-".length ≤ 1) (hrepr (by omega))

end QaSys
