import QaSys.Auth.Effect

/-! The users, their tokens and their sessions as the calls of the service follow one another. -/

namespace QaSys

/-- The identifiers generated so far are distinct. -/
def Store.Distinct (s : Store) : Prop :=
  ∀ i < s.drawn, ∀ j < s.drawn, s.supply i = s.supply j → i = j

instance {s : Store} : Decidable s.Distinct := by
  unfold Store.Distinct
  infer_instance

namespace QaServiceImpl

theorem split_payload {loginId openid : String} (hl : ':' ∉ loginId.toList)
    (ho : ':' ∉ openid.toList) (expired : Int) :
    Text.split ':' (payload loginId openid expired) = [loginId, openid, toString expired] := by
  have hjoin : payload loginId openid expired = String.ofList
      ([':'].intercalate ([loginId, openid, toString expired].map String.toList)) := by
    rw [← String.toList_inj, String.toList_ofList]
    simp only [payload, List.map_cons, List.map_nil, List.intercalate, List.intersperse,
      List.flatten_cons, List.flatten_nil, String.toList_append, List.append_assoc,
      List.append_nil]
    rfl
  rw [hjoin]
  refine Text.split_intercalate (List.cons_ne_nil _ _) fun p hp => ?_
  rcases List.mem_cons.mp hp with rfl | hp
  · exact hl
  rcases List.mem_cons.mp hp with rfl | hp
  · exact ho
  rw [List.mem_singleton.mp hp]
  intro hc
  rcases mem_toString hc with hc | hc <;> exact absurd hc (by decide)

theorem sessionKey_injective : Function.Injective sessionKey := by
  intro a b h
  have hl := congrArg String.toList h
  simp only [sessionKey, String.toList_append] at hl
  exact String.toList_inj.mp (List.append_cancel_left hl)

end QaServiceImpl

namespace Backend

open QaServiceImpl

variable {self : QaServiceImpl} {script : List Choice} {b b' : Backend} {c : Rpc}

/-- The login that stored the session now under the key. -/
def creator (b : Backend) (key : String) : Option Issue := b.issued.reverse.find? (·.key = key)

def revoke (b : Backend) (token : String) : List String :=
  if b.issued.any (·.token = token) then b.revoked ++ [token] else b.revoked

inductive Effect (self : QaServiceImpl) (script : List Choice) (b : Backend) : Rpc → Backend → Prop
  | kept {c : Rpc} {store : Store} : b.store.Kept store → Effect self script b c { b with store }
  | registered {req : Pb.UserRegisterRequest} {row : UserRow} {store : Store} :
      b.store.Registered row store → Effect self script b (.userRegister req) { b with store }
  | opened {req : Pb.UserLoginRequest} {row : UserRow} {token : String} {store : Store} :
      self.Admits b.store script req row → self.Opened b.store row token store →
      Effect self script b (.userLogin req)
        { b with store, issued := b.issued ++ [row.issue req token b.store.clock] }
  | closed {req : Pb.UserLogoutRequest} {openid : String} :
      self.Valid b.store.clock req.token openid → Effect self script b (.userLogout req) { b with
        store := b.store.forget (sessionKey openid)
        revoked := b.revoke req.token }

theorem record_refused {store : Store} {r : Except Err (App.Reply c.Reply)}
    (h : ∀ res, r ≠ .ok (.ok res)) : b.record store c r = { b with store } := by
  unfold record
  split
  · exact absurd rfl (h _)
  · exact absurd rfl (h _)
  · rfl

theorem call_effect (self : QaServiceImpl) (script : List Choice) (hq : b.store.pg.Quiet)
    (c : Rpc) :
    Effect self script b c (b.call self script c) := by
  by_cases hplain : c.Plain
  · rw [call, record_plain hplain]
    exact .kept (Store.Kept.run hq hplain.within script)
  cases c with
  | userLogin req =>
    rcases userLogin_ends self script hq req with
      ⟨hkept, hnot⟩ | ⟨row, token, hadmits, hreply, hopened⟩
    · rw [call, record_refused hnot]
      exact .kept hkept
    · have hcall : b.call self script (.userLogin req) = b.record
          (b.ran self script (.userLogin req)).2.state (.userLogin req) (.ok (.ok ⟨token⟩)) :=
        congrArg _ hreply
      have huser : b.user req.username = some row := hadmits.fetched
      rw [hcall]
      simp only [record, huser]
      exact .opened hadmits hopened
  | userLogout req =>
    rcases userLogout_ends self script hq req with
      ⟨hkept, hnot⟩ | ⟨res, openid, hreply, hvalid, hstate⟩
    · rw [call, record_refused hnot]
      exact .kept hkept
    · have hcall : b.call self script (.userLogout req) = b.record
          (b.ran self script (.userLogout req)).2.state (.userLogout req) (.ok (.ok res)) :=
        congrArg _ hreply
      have hran : (b.ran self script (.userLogout req)).2.state =
          b.store.forget (sessionKey openid) := hstate
      have hrev : b.record (b.ran self script (.userLogout req)).2.state (.userLogout req)
          (.ok (.ok res)) = { b with
            store := (b.ran self script (.userLogout req)).2.state
            revoked := b.revoke req.token } := by
        simp only [record, revoke]
        split <;> rfl
      rw [hcall, hrev, hran]
      exact .closed hvalid
  | userRegister req =>
    rcases userRegister_ends self script hq req with hkept | ⟨row, hrow, -⟩
    · exact .kept hkept
    · exact .registered hrow
  | _ => exact absurd trivial hplain

theorem call_store : (b.call self script c).store = (b.ran self script c).2.state := by
  unfold call record
  split
  · split <;> rfl
  · split <;> rfl
  · rfl

/-- What the users, the tokens handed out and the stored sessions have to do with each other. -/
structure Sound (svc : QaServiceImpl) (b : Backend) : Prop where
  quiet : b.store.pg.Quiet
  openids : ∃ ks : List Nat, ks.Nodup ∧ (∀ k ∈ ks, k < b.store.drawn) ∧
    b.store.db.users.map (·.openid.val) = ks.map fun k => (b.store.supply k).simple
  user : ∀ i ∈ b.issued, ∃ row ∈ b.store.db.users, row.username.val = i.username ∧
    row.openid.val = i.openid ∧ row.password.val = svc.crates.md5 i.password
  token : ∀ i ∈ b.issued, ∃ k < b.store.drawn,
    svc.aesCrypto.decrypt svc.crates.ciphers i.token =
      .ok (payload (b.store.supply k).simple i.openid i.expiry)
  session : ∀ key value expiry, b.store.strings key = some (value, expiry) →
    ∃ i, b.creator key = some i ∧ expiry = i.expiry ∧
      ∃ user, svc.crates.fromJson value = .ok user ∧ user.username = i.username

namespace Sound

theorem empty {size : Nat} {clock : Int} {supply : Nat → Uuid} :
    Sound self (Backend.empty (Store.empty size clock supply)) :=
  ⟨fun _ => rfl, ⟨[], List.nodup_nil, nofun, rfl⟩, nofun, nofun, nofun⟩

theorem mem_of_creator {key : String} {i : Issue} (h : b.creator key = some i) :
    i ∈ b.issued ∧ i.key = key := by
  refine ⟨List.mem_reverse.mp (List.mem_of_find?_eq_some h), ?_⟩
  simpa using List.find?_some h

theorem colon_not_mem (h : Sound self b) {row : UserRow} (hrow : row ∈ b.store.db.users) :
    ':' ∉ row.openid.val.toList := by
  obtain ⟨ks, -, -, hks⟩ := h.openids
  have hmem : row.openid.val ∈ b.store.db.users.map (·.openid.val) := List.mem_map_of_mem hrow
  rw [hks] at hmem
  obtain ⟨k, -, hk⟩ := List.mem_map.mp hmem
  rw [← hk]
  exact Uuid.colon_not_mem _

theorem valid_token (h : Sound self b) {i : Issue} (hi : i ∈ b.issued) {openid : String}
    {clock : Int} (hv : self.Valid clock i.token openid) : openid = i.openid ∧ clock < i.expiry := by
  obtain ⟨k, -, htoken⟩ := h.token i hi
  obtain ⟨row, hrow, -, hopenid, -⟩ := h.user i hi
  obtain ⟨text, loginId, expireTime, expire, hdec, hsplit, hparse, hlt⟩ := hv
  rw [htoken, Except.ok.injEq] at hdec
  rw [← hdec, split_payload (Uuid.colon_not_mem _) (hopenid ▸ h.colon_not_mem hrow)] at hsplit
  simp only [List.cons.injEq, and_true] at hsplit
  rw [← hsplit.2.2] at hparse
  exact ⟨hsplit.2.1.symm, eq_of_parseI64_toString hparse ▸ hlt⟩

theorem live_session (h : Sound self b) {key value : String}
    (hlive : b.store.live key = some value) : ∃ i ∈ b.issued, b.creator key = some i ∧
      i.key = key ∧ b.store.clock < i.expiry ∧
      ∃ user, self.crates.fromJson value = .ok user ∧ user.username = i.username := by
  unfold Store.live at hlive
  split at hlive
  next value' expiry hs =>
    split at hlive
    next hlt =>
      cases hlive
      obtain ⟨i, hc, hexp, huser⟩ := h.session _ _ _ hs
      obtain ⟨hi, hkey⟩ := mem_of_creator hc
      exact ⟨i, hi, hc, hkey, hexp ▸ hlt, huser⟩
    next => cases hlive
  next => cases hlive

theorem kept (h : Sound self b) {store : Store} (hk : b.store.Kept store) :
    Sound self { b with store } := by
  obtain ⟨ks, hnodup, hlt, hks⟩ := h.openids
  refine ⟨hk.quiet, ⟨ks, hnodup, fun k hm => (hlt k hm).trans_le hk.drawn, ?_⟩, ?_, ?_, ?_⟩
  · rw [hk.users, hk.supply]
    exact hks
  · rw [hk.users]
    exact h.user
  · intro i hi
    obtain ⟨k, hklt, htoken⟩ := h.token i hi
    rw [hk.supply]
    exact ⟨k, hklt.trans_le hk.drawn, htoken⟩
  · rw [hk.strings]
    exact h.session

theorem registered (h : Sound self b) {store : Store} {row : UserRow}
    (hr : b.store.Registered row store) : Sound self { b with store } := by
  obtain ⟨ks, hnodup, hlt, hks⟩ := h.openids
  refine ⟨hr.quiet, ⟨ks ++ [b.store.drawn], ?_, ?_, ?_⟩, ?_, ?_, ?_⟩
  · refine hnodup.append (List.nodup_singleton _) (List.disjoint_singleton.mpr fun hm => ?_)
    exact absurd (hlt _ hm) (lt_irrefl _)
  · intro k hm
    rw [hr.drawn]
    rcases List.mem_append.mp hm with hm | hm
    · exact Nat.lt_succ_of_lt (hlt k hm)
    · rw [List.mem_singleton.mp hm]
      exact Nat.lt_succ_self _
  · rw [hr.users, hr.supply, List.map_append, List.map_append, hks]
    simp only [List.map_cons, List.map_nil, hr.openid]
  · intro i hi
    obtain ⟨row', hrow', hrest⟩ := h.user i hi
    rw [hr.users]
    exact ⟨row', List.mem_append_left _ hrow', hrest⟩
  · intro i hi
    obtain ⟨k, hklt, htoken⟩ := h.token i hi
    rw [hr.supply, hr.drawn]
    exact ⟨k, Nat.lt_succ_of_lt hklt, htoken⟩
  · rw [hr.strings]
    exact h.session

theorem creator_append {b : Backend} {issue : Issue} {store : Store} {key : String} :
    creator { b with store, issued := b.issued ++ [issue] } key =
      if issue.key = key then some issue else b.creator key := by
  unfold creator
  rw [List.reverse_append, List.reverse_singleton, List.singleton_append, List.find?_cons]
  split <;> simp_all

theorem opened (hx : self.crates.Lawful) (h : Sound self b) {req : Pb.UserLoginRequest}
    {row : UserRow} {token : String} {store : Store}
    (ha : self.Admits b.store script req row) (ho : self.Opened b.store row token store) :
    Sound self { b with store, issued := b.issued ++ [row.issue req token b.store.clock] } := by
  obtain ⟨ks, hnodup, hlt, hks⟩ := h.openids
  obtain ⟨user, value, hjson, hname, -, rfl⟩ := ho.store
  have hrow : row ∈ b.store.db.users := List.mem_of_find?_eq_some ha.fetched
  have husername : row.username.val = req.username := by simpa using List.find?_some ha.fetched
  refine ⟨h.quiet, ⟨ks, hnodup, fun k hm => Nat.lt_succ_of_lt (hlt k hm), hks⟩, ?_, ?_, ?_⟩
  · intro i hi
    rcases List.mem_append.mp hi with hi | hi
    · exact h.user i hi
    · rw [List.mem_singleton.mp hi]
      exact ⟨row, hrow, husername, rfl, ha.password⟩
  · intro i hi
    rcases List.mem_append.mp hi with hi | hi
    · obtain ⟨k, hklt, htoken⟩ := h.token i hi
      exact ⟨k, Nat.lt_succ_of_lt hklt, htoken⟩
    · rw [List.mem_singleton.mp hi]
      exact ⟨b.store.drawn, Nat.lt_succ_self _, AesCBCCrypto.decrypt_of_encrypt hx.ciphers ho.token⟩
  · intro key v expiry hs
    rw [creator_append]
    change (b.store.drew.keep (row.issue req token b.store.clock).key value).strings key = _ at hs
    by_cases hkey : (row.issue req token b.store.clock).key = key
    · rw [if_pos hkey]
      rw [hkey, Store.keep_strings_self, Option.some.injEq, Prod.mk.injEq] at hs
      obtain ⟨rfl, rfl⟩ := hs
      exact ⟨_, rfl, rfl, user, hx.fromJson_toJson hjson, hname.trans husername⟩
    · rw [if_neg hkey]
      rw [Store.keep_strings_of_ne (Ne.symm hkey)] at hs
      exact h.session key v expiry hs

theorem closed (h : Sound self b) (openid token : String) : Sound self { b with
    store := b.store.forget (sessionKey openid)
    revoked := b.revoke token } := by
  refine ⟨h.quiet, h.openids, h.user, h.token, fun key value expiry hs => ?_⟩
  change Function.update b.store.strings (sessionKey openid) none key = _ at hs
  by_cases hkey : key = sessionKey openid
  · rw [hkey, Function.update_self] at hs
    cases hs
  · rw [Function.update_of_ne hkey] at hs
    exact h.session key value expiry hs

theorem effect (hx : self.crates.Lawful) (h : Sound self b) (he : Effect self script b c b') :
    Sound self b' := by
  cases he with
  | kept hk => exact h.kept hk
  | registered hr => exact h.registered hr
  | opened ha ho => exact h.opened hx ha ho
  | closed hv => exact h.closed _ _

theorem call (hx : self.crates.Lawful) (h : Sound self b) (script : List Choice) (c : Rpc) :
    Sound self (b.call self script c) := h.effect hx (call_effect _ _ h.quiet c)

end Sound

end Backend

end QaSys
