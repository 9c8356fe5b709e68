import QaSys.Gateway.Identity
import QaSys.Gateway.Token

/-! Whom `verify_token` lets in: the users with a live session whose names are short enough. -/

namespace QaSys

/-- Every token on record is the encryption of its text. -/
def Backend.Sealed (svc : QaServiceImpl) (b : Backend) : Prop :=
  ∀ i ∈ b.issued, (∀ c ∈ i.openid.toList, Text.isAsciiHexdigit c) ∧ i.openid.length = 32 ∧
    ∃ loginId : Uuid, svc.aesCrypto.encrypt svc.crates.ciphers
      (QaServiceImpl.payload loginId.simple i.openid i.expiry) = .ok i.token

namespace Backend

variable {svc : QaServiceImpl} {b b' : Backend} {script : List Choice} {c : Rpc}

theorem Sound.hexDigits (h : Sound svc b) {row : UserRow} (hrow : row ∈ b.store.db.users) :
    (∀ c ∈ row.openid.val.toList, Text.isAsciiHexdigit c) ∧ row.openid.val.length = 32 := by
  obtain ⟨ks, -, -, hks⟩ := h.openids
  have hmem : row.openid.val ∈ b.store.db.users.map (·.openid.val) := List.mem_map_of_mem hrow
  rw [hks] at hmem
  obtain ⟨k, -, hk⟩ := List.mem_map.mp hmem
  rw [← hk, ← String.length_toList]
  exact ⟨Uuid.isAsciiHexdigit_simple _, Uuid.length_simple _⟩

theorem Sealed.effect (h : Sealed svc b) (hs : Sound svc b) (he : Effect svc script b c b') :
    Sealed svc b' := by
  cases he with
  | kept => exact h
  | registered => exact h
  | closed => exact h
  | @opened req row token store hadmits hopened =>
    intro i hi
    rcases List.mem_append.mp hi with hi | hi
    · exact h i hi
    · rw [List.mem_singleton.mp hi]
      obtain ⟨hdigits, hlen⟩ := hs.hexDigits (List.mem_of_find?_eq_some hadmits.fetched)
      exact ⟨hdigits, hlen, _, hopened.token⟩

theorem Sealed.call (h : Sealed svc b) (hs : Sound svc b) (script : List Choice) (c : Rpc) :
    Sealed svc (b.call svc script c) := h.effect hs (call_effect _ _ hs.quiet c)

theorem Sealed.next (h : Sealed svc b) (hs : Sound svc b) (e : Content.Event) :
    Sealed svc (b.next svc e) := by
  cases e with
  | rpc c script => exact h.call hs script c
  | tick seconds => exact h
  | vote msg script => exact h

end Backend

namespace QaServiceImpl

open Prog

variable {svc : QaServiceImpl} {s : Store} {script : List Choice}

theorem verifyToken_run (hc : svc.crates.ciphers.Standard) {p token openid value : String}
    {user : UserSessionEntity} (h : svc.aesCrypto.encrypt svc.crates.ciphers p = .ok token)
    (hcurrent : Current s.clock p openid) (hlive : s.live (sessionKey openid) = some value)
    (hjson : svc.crates.fromJson value = .ok user) (hread : ¬ (turn script 1).Unread)
    {id : String} : (svc.verifyToken ⟨token, id⟩).Ends World.exec ⟨s, script⟩ fun r _ =>
      r = .ok (.ok ⟨1, "", user.username⟩) := by
  refine ends_bind.mpr ((checkToken_run hc h _).mono fun r w hr => ?_)
  rcases hr with ⟨o, rfl, rfl, ho⟩ | ⟨-, hno⟩
  · have hsame : o = openid := by
      obtain ⟨_, _, _, hsplit, -⟩ := ho
      obtain ⟨_, _, _, hsplit', -⟩ := hcurrent
      rw [hsplit] at hsplit'
      cases hsplit'
      rfl
    subst hsame
    dsimp only
    rw [← List.drop_one]
    refine ends_bind.mpr (ends_attempt.mpr (get_ends ?_ ?_))
    · intro value' user' hjson' hvalue
      have hv : value' = value := by
        rcases hvalue with hvalue | hraw
        · exact Option.some.inj (hvalue.symm.trans hlive)
        · rw [hraw] at hread
          exact absurd trivial hread
      rw [hv, hjson] at hjson'
      cases hjson'
      rfl
    · exact fun hun => absurd (hun value user hlive hjson) hread
  · exact absurd hcurrent (hno openid)

end QaServiceImpl

namespace Gateway

open Prog Runs Backend

variable {svc : QaServiceImpl} {x : Formats} {s : System} {request : Request} {token : String}

/-- The request of a user that carries the token of a login, the session of which is live. -/
structure Bearing (svc : QaServiceImpl) (x : Formats) (b : Backend) (payload : RegisterRequest)
    (i : Issue) (request : Request) : Prop where
  validated : payload.validate x.validEmail = []
  username : i.username = payload.username
  issued : i ∈ b.issued
  creator : b.creator i.key = some i
  live : ∃ value, b.store.live i.key = some value
  fits : fitsI64 i.expiry = true
  path : isPublicPath request.path = false
  bearer : request.headers.get "authorization" =
    some (HeaderValue.ofStr ("Bearer " ++ i.token))

/-- The `n`-th request of the run arrives and comes to its verification, amid other events. -/
def arrival (n : Nat) (request : Request) (id : Uuid) (evs evs' : List Event) : List Event :=
  .arrive request :: (evs ++ .call n (.uuid id) :: evs')

theorem reply_of_bearing (hc : svc.crates.ciphers.Standard) {b : Backend} (hs : b.Sound svc)
    (hsealed : b.Sealed svc) {payload : RegisterRequest} {i : Issue}
    (hb : Bearing svc x b payload i request) {script : List Choice}
    (hread : ¬ (turn script 1).Unread) (id : String) :
    b.reply svc script (.verifyToken ⟨i.token, id⟩) = .ok (.ok ⟨1, "", i.username⟩) := by
  obtain ⟨value, hlive⟩ := hb.live
  obtain ⟨j, -, hcreator, -, hlt, user, hjson, hname⟩ := hs.live_session hlive
  cases hb.creator.symm.trans hcreator
  obtain ⟨hdigits, hlen, loginId, henc⟩ := hsealed i hb.issued
  have hcurrent : QaServiceImpl.Current b.store.clock
      (QaServiceImpl.payload loginId.simple i.openid i.expiry) i.openid := by
    refine (QaServiceImpl.current_payload (Uuid.colon_not_mem _)
      (Text.colon_not_mem_of_hexDigits hdigits) ?_ hb.fits).mpr ⟨rfl, hlt⟩
    rw [(Text.isAscii_of_hexDigits hdigits).utf8ByteSize, hlen]
  rw [← hname]
  exact QaServiceImpl.verifyToken_run hc henc hcurrent hlive hjson hread

theorem app_calls (hpath : isPublicPath request.path = false)
    (htoken : authorizationToken request.headers = .ok token) :
    ∃ k, app x request = .call .newV4 k ∧ ∀ id, ∃ k',
      k (.ok id) = .call (.timeout (.verifyToken ⟨token, Uuid.simple id⟩)) k' := by
  unfold app verifyToken
  rw [if_neg (Bool.eq_false_iff.mp hpath), htoken]
  exact ⟨_, rfl, fun id => ⟨_, rfl⟩⟩

theorem verifyToken_calls (hpath : isPublicPath request.path = false)
    (htoken : authorizationToken request.headers = .ok token) :
    ∃ k, verifyToken request pure = .call .newV4 k ∧ ∀ id, ∃ k',
      k (.ok id) = .call (.timeout (.verifyToken ⟨token, Uuid.simple id⟩)) k' ∧
      ∀ verification u, Router.authenticatedUsername verification = .ok u →
        k' (.ok (some (.ok verification))) = .ret (some ⟨u, token⟩) := by
  unfold verifyToken
  rw [if_neg (Bool.eq_false_iff.mp hpath), htoken]
  refine ⟨_, rfl, fun id => ⟨_, rfl, fun verification u hu => ?_⟩⟩
  change (Prog.ofExcept (Router.authenticatedUsername verification) >>= _) = _
  rw [hu]
  rfl

theorem verifyToken_reaches (hpath : isPublicPath request.path = false)
    (htoken : authorizationToken request.headers = .ok token) (id : Uuid)
    {verification : Pb.VerifyTokenResponse} {u : String}
    (hu : Router.authenticatedUsername verification = .ok u) :
    (verifyToken request pure).Reaches [⟨.newV4, .ok id⟩,
      ⟨.timeout (.verifyToken ⟨token, id.simple⟩), .ok (some (.ok verification))⟩]
      (.ret (some ⟨u, token⟩)) := by
  obtain ⟨k, hstart, hk⟩ := verifyToken_calls hpath htoken
  obtain ⟨k', hid, hk'⟩ := hk id
  have hreach : (verifyToken request pure).Reaches [] (.call .newV4 k) := hstart ▸ .start
  have hdrawn := hreach.answered (c := Gateway.Call.newV4) (k := k) (r := .ok id)
  rw [hid] at hdrawn
  have hverified := hdrawn.answered (c := Gateway.Call.timeout (.verifyToken ⟨token, id.simple⟩)) (k := k')
    (r := .ok (some (.ok verification)))
  rw [hk' verification u hu] at hverified
  exact hverified

theorem size_of_admitted {e : Exchanged} {p : AuthenticatedPrincipal} (h : Admitted e (some p)) :
    p.username.utf8ByteSize ≤ maxUsernameLength := by
  obtain ⟨before, -, hreaches⟩ := h
  obtain ⟨id, verification, -, -, hname⟩ := (verifyToken_passes e.request).reaches hreaches _ rfl
  unfold Router.authenticatedUsername at hname
  split at hname
  next => cases hname
  next hno =>
    rw [← Except.ok.inj hname]
    simp only [not_or, not_lt, gt_iff_lt] at hno
    exact hno.2.2

theorem authenticatedUsername_eq {u : String} (hne : u ≠ "")
    (hsize : u.utf8ByteSize ≤ maxUsernameLength) :
    Router.authenticatedUsername ⟨1, "", u⟩ = .ok u := by
  refine if_neg ?_
  simp only [not_or, not_lt, gt_iff_lt, String.isEmpty_iff]
  exact ⟨not_not.mpr rfl, hne, hsize⟩

theorem sealed_next (hx : svc.crates.Lawful)
    (h : s.state.Sound svc ∧ s.state.Sealed svc) (e : Event) :
    (next svc x s e).state.Sound svc ∧ (next svc x s e).state.Sealed svc := by
  refine ⟨sound_next hx h.1 e, ?_⟩
  have hb := next_backed svc x s e
  generalize (next svc x s e).state = b at hb
  cases hb with
  | same => exact h.2
  | called => exact h.2.call h.1 _ _
  | aside => exact h.2.next h.1 _

theorem sealed_after (hx : svc.crates.Lawful) (evs : List Event)
    (h : s.state.Sound svc ∧ s.state.Sealed svc) :
    (after (next svc x) s evs).state.Sound svc ∧ (after (next svc x) s evs).state.Sealed svc :=
  (always_of_forall (P := fun _ _ => True) (fun _ _ => trivial) s evs).invariant
    (I := fun s : System => s.state.Sound svc ∧ s.state.Sealed svc)
    (fun _ e h _ => sealed_next hx h e) h

theorem others_after {n : Nat} {e : Exchanged} (he : s.exchanges[n]? = some e) {evs : List Event}
    (hevs : ∀ ev ∈ evs, ∀ fate, ev ≠ .call n fate) :
    (after (next svc x) s evs).exchanges[n]? = some e :=
  (always_of_mem hevs s).invariant (I := fun s : System => s.exchanges[n]? = some e)
    (fun _ _ h hev => Server.step_others h hev) he

theorem exchange_of_arrival (svc : QaServiceImpl) (x : Formats) (s : System) (id : Uuid)
    {evs evs' : List Event}
    (hevs : ∀ ev ∈ evs ++ evs', ∀ fate, ev ≠ .call s.exchanges.length fate)
    (hpath : isPublicPath request.path = false)
    (htoken : authorizationToken request.headers = .ok token) :
    ∃ entry k, (after (next svc x) s
        (arrival s.exchanges.length request id evs evs')).exchanges[s.exchanges.length]? =
      some ⟨request, [entry], .call (.timeout (.verifyToken ⟨token, id.simple⟩)) k⟩ ∧
      entry.answered = ⟨.newV4, .ok id⟩ := by
  obtain ⟨k, happ, hk⟩ := app_calls (x := x) hpath htoken
  obtain ⟨k', hid⟩ := hk id
  have harrived : (next svc x s (.arrive request)).exchanges[s.exchanges.length]? =
      some ⟨request, [], .call .newV4 k⟩ := by
    rw [← happ]
    exact List.getElem?_concat_length
  have hdrawing : (after (next svc x) (next svc x s (.arrive request)) evs).exchanges[
      s.exchanges.length]? = some ⟨request, [], .call .newV4 k⟩ :=
    others_after harrived fun ev hev => hevs ev (List.mem_append_left _ hev)
  generalize hs' : after (next svc x) (next svc x s (.arrive request)) evs = s' at hdrawing
  have hanswers : Server.Answers (serve svc) s' s.exchanges.length (.uuid id)
      ⟨request, [], .call .newV4 k⟩ .newV4 k (.ok id) s'.state := ⟨hdrawing, rfl, rfl⟩
  have hverifying : (next svc x s' (.call s.exchanges.length (.uuid id))).exchanges[
      s.exchanges.length]? = some ⟨request, [⟨s'.state, .uuid id, .newV4, .ok id⟩], k (.ok id)⟩ :=
    hanswers.getElem?_step
  rw [hid] at hverifying
  refine ⟨⟨s'.state, .uuid id, .newV4, .ok id⟩, k', ?_, rfl⟩
  rw [arrival, after_cons, after_append, after_cons, hs']
  exact others_after hverifying fun ev hev => hevs ev (List.mem_append_right _ hev)

theorem admitted_iff {e : Exchanged} (id : Uuid) {u : String} (hne : u ≠ "")
    (hpath : isPublicPath e.request.path = false)
    (htoken : authorizationToken e.request.headers = .ok token)
    (hanswers : e.answers = [⟨.newV4, .ok id⟩, ⟨.timeout (.verifyToken ⟨token, id.simple⟩),
      .ok (some (.ok ⟨1, "", u⟩))⟩]) :
    Admitted e (some ⟨u, token⟩) ↔ u.utf8ByteSize ≤ maxUsernameLength := by
  refine ⟨size_of_admitted, fun hsize => ⟨e.answers, List.prefix_refl _, ?_⟩⟩
  rw [hanswers]
  exact verifyToken_reaches hpath htoken id (authenticatedUsername_eq hne hsize)

/-- In every run the request of a user who was registered through the gateway and has a live session
is let in for them exactly when their name has at most 64 bytes. -/
theorem registered_admitted (hx : svc.crates.Lawful) (hc : svc.crates.ciphers.Standard) {size : Nat}
    {clock : Int} {supply : Nat → Uuid} {before evs evs' : List Event} {n : Nat} {s' : System}
    (hn : (after (next svc x) (start (.empty (.empty size clock supply))) before).exchanges.length =
      n) {id : Uuid}
    (hs' : after (next svc x) (start (.empty (.empty size clock supply)))
      (before ++ arrival n request id evs evs') = s')
    (hevs : ∀ ev ∈ evs ++ evs', ∀ fate, ev ≠ .call n fate) {payload : RegisterRequest} {i : Issue}
    (hb : Bearing svc x s'.state payload i request) {script : List Choice}
    (hread : ¬ (turn script 1).Unread) (broken : Pb.Status) :
    ∃ e, (next svc x s' (.call n (.served script broken))).exchanges[n]? = some e ∧
      (Admitted e (some ⟨payload.username, i.token⟩) ↔
        payload.username.utf8ByteSize ≤ maxUsernameLength) := by
  obtain ⟨hsound, hsealed⟩ := sealed_after (x := x) hx (before ++ arrival n request id evs evs')
    (s := start (.empty (.empty size clock supply))) ⟨.empty, fun _ h => absurd h List.not_mem_nil⟩
  rw [hs'] at hsound hsealed
  obtain ⟨hdigits, hlen, loginId, henc⟩ := hsealed i hb.issued
  have htoken : authorizationToken request.headers = .ok i.token :=
    (roundTrip_payload hc hdigits hlen hb.fits henc).bearer _ hb.bearer
  obtain ⟨entry, k, hwaiting, hentry⟩ := exchange_of_arrival svc x
    (after (next svc x) (start (.empty (.empty size clock supply))) before) id (hn ▸ hevs) hb.path
    htoken
  rw [hn, ← after_append, hs'] at hwaiting
  have hreply := reply_of_bearing hc hsound hsealed hb hread id.simple
  have hanswers : Server.Answers (serve svc) s' n (.served script broken)
      ⟨request, [entry], .call (.timeout (.verifyToken ⟨i.token, id.simple⟩)) k⟩
      (.timeout (.verifyToken ⟨i.token, id.simple⟩)) k (.ok (some (.ok ⟨1, "", i.username⟩)))
      (s'.state.call svc script (.verifyToken ⟨i.token, id.simple⟩)) := by
    refine ⟨hwaiting, rfl, ?_⟩
    simp only [serve, answer, hreply]
    rfl
  refine ⟨_, hanswers.getElem?_step, ?_⟩
  rw [← hb.username]
  refine admitted_iff id ?_ hb.path htoken ?_
  · rw [hb.username]
    exact (RegisterRequest.username_length hb.validated).1
  · simp only [Exchange.answers, List.map_append, List.map_cons, List.map_nil, hentry]
    rfl

def registrant (n : Nat) : RegisterRequest :=
  (registrations.map (·.2)).getD n ⟨"", "", "", ""⟩

def entering (n : Nat) : List Event :=
  openly 0 (registration n) ++ openly 1 (login n) ++ arrival 2 (addition (Gateway.token 0) 0) 0 [] []

def issue (n : Nat) : Issue :=
  ⟨(registrant n).username, "secret-password", Revocation.openid, Gateway.token 0, 1785000000⟩

theorem bearing_entering (n : Nat) {b : Backend}
    (hb : (after (next Gateway.svc formats) (start origin) (entering n)).state = b)
    (hvalid : (registrant n).validate formats.validEmail = [])
    (hlive : issue n ∈ b.issued ∧ b.creator (issue n).key = some (issue n) ∧
      (b.store.live (issue n).key).isSome = true) :
    Bearing Gateway.svc formats (after (next Gateway.svc formats) (start origin) (entering n)).state
      (registrant n) (issue n) (addition (Gateway.token 0) 0) := by
  have hbearer : (addition (Gateway.token 0) 0).headers.get "authorization" =
      some (HeaderValue.ofStr ("Bearer " ++ Gateway.token 0)) := by decide +kernel
  rw [hb]
  exact ⟨hvalid, rfl, hlive.1, hlive.2.1, Option.isSome_iff_exists.mp hlive.2.2, by rfl,
    by decide +kernel, hbearer⟩

theorem registered_admitted_alice :
    ∃ e, (next Gateway.svc formats (after (next Gateway.svc formats) (start origin) (entering 0))
      (.call 2 ok)).exchanges[2]? = some e ∧ Admitted e (some ⟨"alice", Gateway.token 0⟩) := by
  obtain ⟨e, he, hadmitted⟩ := registered_admitted crates_lawful ciphers_standard
    (by decide +kernel) rfl (by simp)
    (bearing_entering 0 rfl (by decide +kernel) (by decide +kernel))
    (by decide : ¬ (turn ([] : List Choice) 1).Unread) ⟨.unknown, ""⟩
  exact ⟨e, he, hadmitted.mpr (by decide +kernel)⟩

/-- A name of 22 characters and 66 bytes is registered and logs in, and is not let in. -/
theorem longName_refused : ¬ ∀ payload i request, Bearing Gateway.svc formats
    (after (next Gateway.svc formats) (start origin) (entering 2)).state payload i request →
    request = addition (Gateway.token 0) 0 →
    ∃ e, (next Gateway.svc formats (after (next Gateway.svc formats) (start origin) (entering 2))
      (.call 2 ok)).exchanges[2]? = some e ∧ Admitted e (some ⟨payload.username, i.token⟩) := by
  intro h
  obtain ⟨e, -, hadmitted⟩ := h (registrant 2) (issue 2) _
    (bearing_entering 2 rfl (by decide +kernel) (by decide +kernel)) rfl
  exact absurd (size_of_admitted hadmitted) (by decide +kernel)

end Gateway

end QaSys
