import QaSys.Service.Auth

/-! Crates that know the texts of some tables only, which is enough for runs on these texts. -/

namespace QaSys

theorem find?_of_injective {l : List A} {f : A → B} [DecidableEq B]
    (h : ∀ t ∈ l, ∀ t' ∈ l, f t = f t' → t = t') {t : A} (ht : t ∈ l) :
    l.find? (f · = f t) = some t := by
  cases hfind : l.find? (f · = f t) with
  | none => simpa using List.find?_eq_none.mp hfind t ht
  | some t' =>
    have hf : f t' = f t := by simpa using List.find?_some hfind
    rw [h t' (List.mem_of_find?_eq_some hfind) t ht hf]

namespace Ciphers

/-- A row of the table is a text, its encryption and the Base64 of that.  Other data is encoded
character by character behind a `'='`. -/
def tabulated (tokens : List (String × ByteArray × String)) : Ciphers where
  encryptPadded _ _ _ data := match tokens.find? (·.1.toUTF8.data = data.data) with
    | some t => .ok t.2.1
    | none => .error "no such text"
  decryptPadded _ _ _ enc := match tokens.find? (·.2.1.data = enc.data) with
    | some t => .ok t.1.toUTF8
    | none => .error "unpad error"
  encode data := match tokens.find? (·.2.1.data = data.data) with
    | some t => t.2.2
    | none => String.ofList ('=' :: data.data.toList.map fun byte => Char.ofNat byte.toNat)
  decode s := match tokens.find? (·.2.2 = s) with
    | some t => .ok t.2.1
    | none => match s.toList with
      | '=' :: cs => .ok ⟨(cs.map fun c => UInt8.ofNat c.toNat).toArray⟩
      | _ => .error "InvalidByte"

theorem lawful_tabulated {tokens : List (String × ByteArray × String)}
    (hdata : ∀ t ∈ tokens, ∀ t' ∈ tokens, t.2.1.data = t'.2.1.data → t = t')
    (htoken : ∀ t ∈ tokens, ∀ t' ∈ tokens, t.2.2 = t'.2.2 → t = t')
    (hhead : ∀ t ∈ tokens, t.2.2.toList.head? ≠ some '=') : (tabulated tokens).Lawful where
  decrypt_encrypt := by
    intro size key iv data enc h
    simp only [tabulated] at h ⊢
    split at h
    next t ht =>
      cases h
      have htext : t.1.toUTF8 = data := ByteArray.ext (by simpa using List.find?_some ht)
      rw [find?_of_injective hdata (List.mem_of_find?_eq_some ht), ← htext]
    next => cases h
  decode_encode := by
    intro data
    cases hfind : tokens.find? (·.2.1.data = data.data) with
    | some t =>
      have henc : t.2.1 = data := ByteArray.ext (by simpa using List.find?_some hfind)
      simp only [tabulated, hfind]
      rw [find?_of_injective htoken (List.mem_of_find?_eq_some hfind), ← henc]
    | none =>
      have hother : ∀ cs, tokens.find? (·.2.2 = String.ofList ('=' :: cs)) = none := by
        refine fun cs => List.find?_eq_none.mpr fun t ht heq => hhead t ht ?_
        rw [of_decide_eq_true heq, String.toList_ofList, List.head?_cons]
      have hbyte : ∀ byte : UInt8, UInt8.ofNat (Char.ofNat byte.toNat).toNat = byte := by
        intro byte
        have hchar : ∀ n < 256, (Char.ofNat n).toNat = n := by decide +kernel
        rw [hchar _ byte.toNat_lt, UInt8.ofNat_toNat]
      simp only [tabulated, hfind, hother, String.toList_ofList, List.map_map, Function.comp_def,
        hbyte, List.map_id_fun', id, Array.toArray_toList]

end Ciphers

namespace Crates

def tabulated (tokens : List (String × ByteArray × String))
    (sessions : List (UserSessionEntity × String)) (md5 : String → String)
    (format : Int → String) : Crates where
  ciphers := .tabulated tokens
  md5 := md5
  toJson user := match sessions.find? (·.1 = user) with
    | some s => .ok s.2
    | none => .error "no such session"
  fromJson value := match sessions.find? (·.2 = value) with
    | some s => .ok s.1
    | none => .error "expected value"
  format := format

theorem lawful_tabulated {tokens : List (String × ByteArray × String)}
    {sessions : List (UserSessionEntity × String)} {md5 : String → String} {format : Int → String}
    (htokens : (Ciphers.tabulated tokens).Lawful)
    (hjson : ∀ s ∈ sessions, ∀ s' ∈ sessions, s.2 = s'.2 → s = s') :
    (tabulated tokens sessions md5 format).Lawful where
  ciphers := htokens
  fromJson_toJson := by
    intro user value h
    simp only [tabulated] at h ⊢
    split at h
    next s hs =>
      cases h
      have huser : s.1 = user := by simpa using List.find?_some hs
      rw [find?_of_injective hjson (List.mem_of_find?_eq_some hs), ← huser]
    next => cases h

end Crates

/-- The service with the key of `app.yaml`. -/
def QaServiceImpl.configured (crates : Crates) : QaServiceImpl :=
  ⟨crates, ⟨"YiBX0z9WnJjsS5aNXmi0AeT1yTPZZJYa".toUTF8, "3ZQEpwP9DbK4h1Z0".toUTF8, .size256⟩⟩

/-- For runs in which nobody registers and no token is read. -/
instance : Inhabited QaServiceImpl := ⟨.configured (.tabulated [] [] id fun _ => "")⟩

end QaSys
