import QaSys.Core.Cipher
import QaSys.Data.Split
import QaSys.Gateway.Identity

/-! The tokens of the service as the gateway and the service take them back. -/

namespace QaSys

namespace QaServiceImpl

open Prog

variable {svc : QaServiceImpl} {p token openid : String} {w : World}

theorem token_ne_empty (hc : svc.crates.ciphers.Standard)
    (h : svc.aesCrypto.encrypt svc.crates.ciphers p = .ok token) : token.isEmpty = false := by
  refine Bool.eq_false_of_not_eq_true fun hempty => ?_
  have hlen := hc.length_token h
  rw [String.isEmpty_iff.mp hempty, String.length_empty] at hlen
  omega

/-- The text of a token has three fields, the second the openid and the third a time to come. -/
def Current (clock : Int) (p openid : String) : Prop :=
  ∃ loginId expireTime expire, Text.split ':' p = [loginId, openid, expireTime] ∧
    openid.utf8ByteSize = 32 ∧ parseI64 expireTime = .ok expire ∧ clock < expire

theorem checkToken_run (hc : svc.crates.ciphers.Standard)
    (h : svc.aesCrypto.encrypt svc.crates.ciphers p = .ok token) (w : World) :
    (svc.checkToken token).Ends World.exec w fun r w' =>
      (∃ openid, r = .ok (.ok openid) ∧ w' = ⟨w.state, w.script.tail⟩ ∧
        Current w.state.clock p openid) ∨
      (∃ err, r = .ok (.error err)) ∧ ∀ openid, ¬ Current w.state.clock p openid := by
  unfold checkToken
  rw [if_neg (Bool.eq_false_iff.mp (token_ne_empty hc h)),
    AesCBCCrypto.decrypt_of_encrypt hc.toLawful h]
  dsimp only
  split
  next loginId openid expireTime hsplit =>
    have fields : ∀ {o}, Current w.state.clock p o → openid = o ∧ o.utf8ByteSize = 32 ∧
        ∃ expire, parseI64 expireTime = .ok expire ∧ w.state.clock < expire := by
      rintro o ⟨loginId', expireTime', expire, hsplit', hsize, hparse, hlt⟩
      rw [hsplit] at hsplit'
      cases hsplit'
      exact ⟨rfl, hsize, expire, hparse, hlt⟩
    split
    next hsize =>
      refine .inr ⟨⟨_, rfl⟩, fun o ho => ?_⟩
      obtain ⟨rfl, hsize', -⟩ := fields ho
      exact hsize hsize'
    next hsize =>
      cases hparse : parseI64 expireTime with
      | error e =>
        refine .inr ⟨⟨_, rfl⟩, fun o ho => ?_⟩
        obtain ⟨-, -, expire, hparse', -⟩ := fields ho
        rw [hparse] at hparse'
        cases hparse'
      | ok expire =>
        refine ends_bind.mpr (ends_op.mpr ?_)
        dsimp only [World.exec, scripted, Store.serve, Store.exec, Option.getD]
        split
        next hle =>
          refine .inr ⟨⟨_, rfl⟩, fun o ho => ?_⟩
          obtain ⟨-, -, expire', hparse', hlt⟩ := fields ho
          rw [hparse] at hparse'
          cases hparse'
          exact absurd hlt (not_lt.mpr hle)
        next hlt =>
          exact .inl ⟨openid, rfl, rfl, loginId, expireTime, expire, hsplit, not_not.mp hsize, hparse,
            not_le.mp hlt⟩
  next hno =>
    refine .inr ⟨⟨_, rfl⟩, fun o ho => ?_⟩
    obtain ⟨loginId, expireTime, expire, hsplit, -⟩ := ho
    exact hno _ _ _ hsplit

theorem checkToken_iff (hc : svc.crates.ciphers.Standard)
    (h : svc.aesCrypto.encrypt svc.crates.ciphers p = .ok token) :
    ((svc.checkToken token).run World.exec w).1 = .ok (.ok openid) ↔
      Current w.state.clock p openid := by
  rcases checkToken_run hc h w with ⟨o, hr, -, ho⟩ | ⟨⟨err, hr⟩, hno⟩
  · rw [hr]
    constructor
    · intro heq
      cases heq
      exact ho
    · intro ho'
      obtain ⟨_, _, _, hsplit, -⟩ := ho
      obtain ⟨_, _, _, hsplit', -⟩ := ho'
      rw [hsplit] at hsplit'
      cases hsplit'
      rfl
  · rw [hr]
    exact iff_of_false nofun (hno openid)

theorem checkToken_error (hc : svc.crates.ciphers.Standard)
    (h : svc.aesCrypto.encrypt svc.crates.ciphers p = .ok token)
    (hno : ∀ openid, ¬ Current w.state.clock p openid) :
    ∃ err, ((svc.checkToken token).run World.exec w).1 = .ok (.error err) := by
  rcases checkToken_run hc h w with ⟨o, -, -, ho⟩ | ⟨herr, -⟩
  · exact absurd ho (hno o)
  · exact herr

theorem current_payload {loginId : String} {clock expired : Int} {o : String}
    (hl : ':' ∉ loginId.toList) (ho : ':' ∉ openid.toList) (hsize : openid.utf8ByteSize = 32)
    (hfits : fitsI64 expired = true) :
    Current clock (payload loginId openid expired) o ↔ o = openid ∧ clock < expired := by
  constructor
  · rintro ⟨loginId', expireTime, expire, hsplit, -, hparse, hlt⟩
    rw [split_payload hl ho] at hsplit
    cases hsplit
    rw [parseI64_toString hfits] at hparse
    cases hparse
    exact ⟨rfl, hlt⟩
  · rintro ⟨rfl, hlt⟩
    exact ⟨loginId, _, expired, split_payload hl ho expired, hsize, parseI64_toString hfits, hlt⟩

end QaServiceImpl

namespace Gateway

open Prog QaServiceImpl

/-- `HeaderValue::from_str` -/
def HeaderValue.ofStr (s : String) : HeaderValue := s.toUTF8.data.toList

def Visible (c : Char) : Prop := 32 ≤ c.toNat ∧ c.toNat < 127

instance : DecidablePred Visible := fun _ => inferInstanceAs (Decidable (_ ∧ _))

variable {s token openid : String} {c : Char}

theorem HeaderValue.toStr_ofStr (h : ∀ c ∈ s.toList, Visible c) :
    (HeaderValue.ofStr s).toStr = some s := by
  have hascii : Text.IsAscii s := fun c hc => (h c hc).2.trans (by decide)
  have hbyte : ∀ c ∈ s.toList, (UInt8.ofNat c.toNat).toNat = c.toNat := fun c hc => by
    rw [UInt8.toNat_ofNat']
    exact Nat.mod_eq_of_lt ((h c hc).2.trans (by decide))
  have hall : ((HeaderValue.ofStr s).all fun b => (32 ≤ b && b < 127) || b = 9) = true := by
    rw [HeaderValue.ofStr, hascii.toUTF8, List.all_map, List.all_eq_true]
    intro c hc
    obtain ⟨hlow, hhigh⟩ := h c hc
    simp only [Function.comp_apply, Bool.or_eq_true, Bool.and_eq_true, decide_eq_true_eq,
      UInt8.le_iff_toNat_le, UInt8.lt_iff_toNat_lt, hbyte c hc]
    exact .inl ⟨hlow, hhigh⟩
  rw [HeaderValue.toStr, if_pos hall, HeaderValue.ofStr, hascii.toUTF8, List.map_map]
  have hmap : s.toList.map ((fun b => Char.ofNat b.toNat) ∘ fun c => UInt8.ofNat c.toNat) =
      s.toList := by
    refine (List.map_congr_left fun c hc => ?_).trans (List.map_id _)
    rw [Function.comp_apply, hbyte c hc, Char.ofNat_toNat]
    rfl
  rw [hmap, String.ofList_toList]

/-- What the gateway asks of a token. -/
structure Bearable (token : String) : Prop where
  nonempty : token ≠ ""
  size : token.utf8ByteSize ≤ maxTokenLength
  noWhitespace : ∀ c ∈ token.toList, Text.isAsciiWhitespace c = false

theorem authorizationToken_bearer (hb : Bearable token) (hv : ∀ c ∈ token.toList, Visible c)
    {headers : HeaderMap}
    (hh : headers.get "authorization" = some (HeaderValue.ofStr ("Bearer " ++ token))) :
    authorizationToken headers = .ok token := by
  have hscheme : ∀ c ∈ "Bearer ".toList, Visible c := by
    simpa using (by decide +kernel : ("Bearer ".toList.all fun c => Visible c) = true)
  have hvisible : ∀ c ∈ ("Bearer " ++ token).toList, Visible c := by
    intro c hc
    rw [String.toList_append] at hc
    rcases List.mem_append.mp hc with hc | hc
    · exact hscheme c hc
    · exact hv c hc
  have hsplit : Text.splitOnce ' ' ("Bearer " ++ token) = some ("Bearer", token) :=
    Text.splitOnce_eq_some.mpr ⟨by decide, by rw [String.toList_append]; rfl⟩
  have hclean : ¬ (!Text.eqIgnoreAsciiCase "Bearer" "Bearer" ∨ token.isEmpty ∨
      token.utf8ByteSize > maxTokenLength ∨ token.toList.any Text.isAsciiWhitespace) := by
    rintro (hother | hempty | hsize | hspace)
    · exact absurd hother (by decide)
    · exact hb.nonempty (String.isEmpty_iff.mp hempty)
    · exact absurd hb.size (not_le.mpr hsize)
    · obtain ⟨c, hc, hspace⟩ := List.any_eq_true.mp hspace
      rw [hb.noWhitespace c hc] at hspace
      cases hspace
  simp only [authorizationToken, hh, Option.bind_some, HeaderValue.toStr_ofStr hvisible, hsplit]
  exact if_neg hclean

theorem visible_of_mem (h : c ∈ base64Alphabet) :
    Visible c ∧ Text.isAsciiWhitespace c = false ∧ c.toNat < 128 := by
  have hall : (base64Alphabet.all fun c =>
      Visible c ∧ Text.isAsciiWhitespace c = false ∧ c.toNat < 128) = true := by decide +kernel
  exact of_decide_eq_true (List.all_eq_true.mp hall c h)

theorem utf8ByteSize_payload (loginId : Uuid) {expired : Int}
    (ho : ∀ c ∈ openid.toList, Text.isAsciiHexdigit c) (hlen : openid.length = 32)
    (hfits : fitsI64 expired = true) :
    (payload loginId.simple openid expired).utf8ByteSize ≤ 86 := by
  have hsize : ∀ {s : String}, Text.IsAscii s → s.utf8ByteSize = s.length :=
    fun h => h.utf8ByteSize
  have hlogin : loginId.simple.length = 32 := by rw [← String.length_toList, Uuid.length_simple]
  have hexpired := length_toString_le hfits
  rw [← hsize (isAscii_toString expired)] at hexpired
  rw [← hsize (Text.isAscii_of_hexDigits loginId.isAsciiHexdigit_simple)] at hlogin
  rw [← hsize (Text.isAscii_of_hexDigits ho)] at hlen
  change (loginId.simple ++ ":" ++ openid ++ ":" ++ toString expired).utf8ByteSize ≤ 86
  simp only [String.utf8ByteSize_append]
  have hcolon : ":".utf8ByteSize = 1 := by decide
  omega

/-- What becomes of a token, whoever takes it back and when. -/
structure RoundTrip (svc : QaServiceImpl) (token openid : String) (expired : Int) : Prop where
  bearable : Bearable token
  bearer : ∀ headers : HeaderMap,
    headers.get "authorization" = some (HeaderValue.ofStr ("Bearer " ++ token)) →
      authorizationToken headers = .ok token
  current : ∀ w : World, w.state.clock < expired →
    ((svc.checkToken token).run World.exec w).1 = .ok (.ok openid)
  expired : ∀ w : World, expired ≤ w.state.clock →
    ∃ err, ((svc.checkToken token).run World.exec w).1 = .ok (.error err)

variable {svc : QaServiceImpl}

theorem roundTrip_payload (hc : svc.crates.ciphers.Standard) {loginId : Uuid} {expired : Int}
    (ho : ∀ c ∈ openid.toList, Text.isAsciiHexdigit c) (hlen : openid.length = 32)
    (hfits : fitsI64 expired = true)
    (h : svc.aesCrypto.encrypt svc.crates.ciphers (payload loginId.simple openid expired) =
      .ok token) : RoundTrip svc token openid expired := by
  have hmem := hc.mem_token h
  have hascii : Text.IsAscii token := fun c hc => (visible_of_mem (hmem c hc)).2.2
  have hbearable : Bearable token := by
    refine ⟨fun hempty => ?_, ?_, fun c hc => (visible_of_mem (hmem c hc)).2.1⟩
    · exact absurd (String.isEmpty_iff.mpr hempty) (by rw [token_ne_empty hc h]; decide)
    · have hsize := utf8ByteSize_payload loginId ho hlen hfits
      rw [hascii.utf8ByteSize, hc.length_token h, maxTokenLength]
      omega
  have hcurrent : ∀ {clock o}, Current clock (payload loginId.simple openid expired) o ↔
      o = openid ∧ clock < expired := by
    refine current_payload (Uuid.colon_not_mem _) (Text.colon_not_mem_of_hexDigits ho) ?_ hfits
    rw [(Text.isAscii_of_hexDigits ho).utf8ByteSize, hlen]
  refine ⟨hbearable, fun headers => authorizationToken_bearer hbearable fun c hc =>
    (visible_of_mem (hmem c hc)).1, fun w hlt => ?_, fun w hle => ?_⟩
  · exact (checkToken_iff hc h).mpr (hcurrent.mpr ⟨rfl, hlt⟩)
  · exact checkToken_error hc h fun o ho => absurd (hcurrent.mp ho).2 (not_lt.mpr hle)

/-- The token a login hands out comes back through the gateway as it is and tells the openid of its
user until it expires; of all the texts, just those of three fields, the second of 32 bytes and the
third a time to come, are taken for one. -/
theorem token_round_trip (hc : svc.crates.ciphers.Standard) :
    (∀ (s : Store) (script : List Choice) (req : Pb.UserLoginRequest) (row : UserRow)
      (token : String) (w : World), s.pg.Quiet →
      s.db.users.find? (·.username.val = req.username) = some row →
      (∀ c ∈ row.openid.val.toList, Text.isAsciiHexdigit c) → row.openid.val.length = 32 →
      fitsI64 (s.clock + 86400) = true →
      (svc.userLogin req).run World.exec ⟨s, script⟩ = (.ok (.ok ⟨token⟩), w) →
      RoundTrip svc token row.openid.val (s.clock + 86400)) ∧
    ∀ p token : String, svc.aesCrypto.encrypt svc.crates.ciphers p = .ok token →
      ∀ (w : World) (openid : String),
        ((svc.checkToken token).run World.exec w).1 = .ok (.ok openid) ↔
          ∃ loginId expireTime expire, Text.split ':' p = [loginId, openid, expireTime] ∧
            openid.utf8ByteSize = 32 ∧ parseI64 expireTime = .ok expire ∧
            w.state.clock < expire := by
  refine ⟨fun s script req row token w hq hrow ho hlen hfits hrun => ?_,
    fun p token h w openid => checkToken_iff hc h⟩
  have hends := userLogin_ends svc script hq req
  unfold Ends at hends
  rw [hrun] at hends
  rcases hends with ⟨-, hnot⟩ | ⟨row', token', hadmits, hreply, hopened⟩
  · exact absurd rfl (hnot _)
  · cases hreply
    cases hrow.symm.trans hadmits.fetched
    exact roundTrip_payload hc ho hlen hfits hopened.token

theorem mem_of_encryptPadded {size : AesKeySize} {key iv data enc : ByteArray}
    (h : Gateway.svc.crates.ciphers.encryptPadded size key iv data = .ok enc) :
    ∃ t ∈ tokens, t.1.toUTF8 = data ∧ t.2.1 = enc ∧
      Gateway.svc.crates.ciphers.encode enc = t.2.2 := by
  have hdata : ∀ t ∈ tokens, ∀ t' ∈ tokens, t.2.1.data = t'.2.1.data → t = t' := by
    decide +kernel
  simp only [Gateway.svc, QaServiceImpl.configured, crates, Crates.tabulated,
    Ciphers.tabulated] at h ⊢
  split at h
  next t ht =>
    cases h
    have hmem := List.mem_of_find?_eq_some ht
    refine ⟨t, hmem, ByteArray.ext (by simpa using List.find?_some ht), rfl, ?_⟩
    rw [find?_of_injective hdata hmem]
  next => cases h

theorem ciphers_standard : Gateway.svc.crates.ciphers.Standard := by
  have hall : (tokens.all fun t => t.2.1.size = 16 * (t.1.toUTF8.size / 16 + 1) ∧
      t.2.2.length = 4 * ((t.2.1.size + 2) / 3) ∧ t.2.2.toList.all base64Alphabet.contains) =
      true := by decide +kernel
  have hall := fun t ht => of_decide_eq_true (List.all_eq_true.mp hall t ht)
  refine ⟨crates_lawful.ciphers, fun h => ?_, fun h => ?_, fun h c hc => ?_⟩
  · obtain ⟨t, ht, rfl, rfl, -⟩ := mem_of_encryptPadded h
    exact (hall t ht).1
  · obtain ⟨t, ht, -, rfl, henc⟩ := mem_of_encryptPadded h
    rw [henc]
    exact (hall t ht).2.1
  · obtain ⟨t, ht, -, rfl, henc⟩ := mem_of_encryptPadded h
    rw [henc] at hc
    exact List.contains_iff_mem.mp (List.all_eq_true.mp (hall t ht).2.2 c hc)

def registered : Backend := origin.call Gateway.svc []
  (.userRegister ⟨"alice", "secret-password", "alice@example.com", "12345678"⟩)

theorem token_round_trip_login : RoundTrip Gateway.svc (Gateway.token 0) Revocation.openid
    1785086400 ∧ ((Gateway.svc.checkToken (Gateway.token 0)).run World.exec
      ⟨registered.store, []⟩).1 = .ok (.ok Revocation.openid) := by
  have hsound : Backend.Sound Gateway.svc registered := Backend.Sound.empty.call crates_lawful _ _
  have hfound : (registered.store.db.users.find? (·.username.val = "alice")).map (·.openid.val) =
      some Revocation.openid := by decide +kernel
  obtain ⟨row, hrow, hopenid⟩ := Option.map_eq_some_iff.mp hfound
  have hdigits : Revocation.openid.toList.all Text.isAsciiHexdigit = true := by decide +kernel
  have hclock : registered.store.clock + 86400 = 1785086400 := by decide +kernel
  have hround := (token_round_trip ciphers_standard).1 registered.store []
    ⟨"alice", "secret-password"⟩ row (Gateway.token 0) _ hsound.quiet hrow
    (hopenid ▸ List.all_eq_true.mp hdigits) (hopenid ▸ by decide +kernel) (by decide +kernel)
    (Prod.ext (by decide +kernel) rfl)
  rw [hopenid, hclock] at hround
  refine ⟨hround, ((token_round_trip ciphers_standard).2
    "5f0c1d2e3a4b4c5d8e6f708192a3b401:5f0c1d2e3a4b4c5d8e6f708192a3b400:1785086400" _
    (by decide +kernel) _ _).mpr ⟨"5f0c1d2e3a4b4c5d8e6f708192a3b401", "1785086400", 1785086400,
      by decide +kernel, by decide +kernel, by decide +kernel, by decide +kernel⟩⟩

end Gateway

end QaSys
