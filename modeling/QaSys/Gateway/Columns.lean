import QaSys.Gateway.Membership
import QaSys.Store.Limits

/-! What the checks of the bodies have to do with the limits of the columns. -/

namespace QaSys

open Prog

variable {svc : QaServiceImpl}

theorem fits_addQuestion {req : Pb.AddQuestionRequest} : (App.addQuestion req).Within Call.Fits ↔
    req.title.length ≤ 300 ∧ req.createBy.length ≤ 50 := by
  have htexts : (Call.sql (.insertQuestion req.title req.content req.createBy 0)).Fits ↔
      req.title.length ≤ 300 ∧ req.createBy.length ≤ 50 := by
    rw [Call.fits_sql]
    simp [Stmt.texts]
  rw [← htexts]
  refine ⟨fun h => h.1, fun h => within_handled ((within_query h).bind fun _ => within_pure _) ?_⟩
  intro r
  cases r <;> trivial

theorem fits_addAnswer {a : Pb.AnswerEntity} :
    (App.addAnswer ⟨some a⟩).Within Call.Fits ↔ a.createBy.length ≤ 50 := by
  have htexts : (Call.sql (.insertAnswer a.questionId.asI64 a.content a.createBy 0)).Fits ↔
      a.createBy.length ≤ 50 := by
    rw [Call.fits_sql]
    simp [Stmt.texts]
  rw [← htexts]
  refine ⟨fun h => h.1, fun h => within_handled ((within_query h).bind fun _ => within_pure _) ?_⟩
  intro r
  cases r <;> trivial

theorem fits_userRegister {req : Pb.UserRegisterRequest} (hname : req.username.length ≤ 50)
    (hpassword : (svc.crates.md5 req.password).length ≤ 50) :
    (svc.userRegister req).Within Call.Fits := by
  have hopenid (id : Uuid) : id.simple.length ≤ 32 := by
    rw [← String.length_toList, Uuid.length_simple]
  have hinsert (id : Uuid) (now : Int) : (Call.sql (.insertUser req.username
      (svc.crates.md5 req.password) id.simple now)).Fits := by
    rw [Call.fits_sql]
    simp [Stmt.texts, hname, hpassword, hopenid id]
  have hid : Call.newV4.Fits := trivial
  have hnow : Call.now.Fits := trivial
  have huser : (Call.sql (.userId req.username)).Fits := Call.Light.fits (by trivial)
  refine within_handled ((within_query huser).bind fun _ => within_pure _) fun r => ?_
  cases r with
  | error err => trivial
  | ok found =>
    cases found with
    | true => trivial
    | false =>
      refine within_handled ((within_await hid).bind fun id => (within_await hnow).bind fun now =>
        (within_query (hinsert id now)).bind fun _ => within_pure _) fun r => ?_
      cases r <;> trivial

namespace Gateway

open Runs

variable {x : Formats} {s : System} {request : Request} {d : Exchanged} {c : Rpc}

/-- Of the requests of users who registered through the gateway, whatever the service writes for a
user, a question or an answer fits its columns exactly when it is no question with a title of more
than 300 characters. -/
theorem validated_fits (hmd5 : ∀ password, (svc.crates.md5 password).length = 32) {b : Backend}
    {evs : List Event} (hs : after (next svc x) (start b) evs = s) (hd : d ∈ s.exchanges)
    (hc : d.prog.calling = some (.rpc c)) (hadd : c.Adding)
    (hreg : ∀ u, principal d = some u → Registered s u) : (c.serve svc).Within QaSys.Call.Fits ↔
      ∀ payload, Posted x d.request .questionAdd payload → payload.title.length ≤ 300 := by
  have ht : ∀ e ∈ s.exchanges, Server.Traced (app x) (fun _ => True) e :=
    hs ▸ traced_after svc x b evs
  have hactor {u : String} (hu : c.actor = some u) : u.length ≤ 50 :=
    (length_of_registered ht (hreg u (principal_of_calling (ht d hd) hc hu))).trans (by decide)
  obtain ⟨k, hprog⟩ := calling_eq_some hc
  have hsends := ((app_sends x d.request).reaches (ht d hd).reaches).2
  rw [hprog] at hsends
  cases hsends.1 c rfl with
  | userRegister hposted =>
    have hname := (RegisterRequest.username_length (validate_of_jsonOrForm hposted.2)).2
    have hpassword (password : String) : (svc.crates.md5 password).length ≤ 50 :=
      (hmd5 password).trans_le (by decide)
    refine iff_of_true (fits_userRegister (hname.trans (by decide)) (hpassword _)) ?_
    intro payload hquestion
    cases hposted.1.symm.trans hquestion.1
  | @questionAdd payload hposted =>
    refine fits_addQuestion.trans
      ⟨fun h payload' hposted' => ?_, fun h => ⟨h _ hposted, hactor rfl⟩⟩
    cases hposted.2.symm.trans hposted'.2
    exact h.1
  | answerAdd hposted =>
    refine iff_of_true (fits_addAnswer.mpr (hactor rfl)) fun payload hquestion => ?_
    cases hposted.1.symm.trans hquestion.1
  | other hno => exact absurd hadd hno

/-- The digests in hexadecimal have 32 digits. -/
def hashing : QaServiceImpl where
  crates := { crates with md5 := fun password =>
    if password = "secret-password" then "2304d4770a72d09106045fea654c4188"
    else "d41d8cd98f00b204e9800998ecf8427e" }
  aesCrypto := Gateway.svc.aesCrypto

theorem hashing_lawful : hashing.crates.Lawful where
  ciphers := crates_lawful.ciphers
  fromJson_toJson := by
    intro user value h
    simp only [hashing] at h ⊢
    exact crates_lawful.fromJson_toJson h

theorem length_md5_hashing (password : String) : (hashing.crates.md5 password).length = 32 := by
  change (if password = "secret-password" then _ else _ : String).length = 32
  split <;> decide +kernel

def entitling (title : String) : List UInt8 := bytes
  ("\x7b\"title\":\"" ++ title ++ "\",\"content\":\"content\",\"username\":\"alice\"\x7d")

def entitled (title : String) : Formats where
  json e req := match e with
    | .questionAdd =>
      if req.body = entitling title then some ⟨title, "content", "alice"⟩ else none
    | e => formats.json e req
  form := formats.form
  validEmail := formats.validEmail
  display := formats.display

def posing (title : String) : List Event := openly 0 (registration 0) ++ openly 1 (login 0) ++
  verified 2 (postedAs (token 0) "/api/question/add" (entitling title))

def posed (title : String) : System :=
  after (next hashing (entitled title)) (start origin) (posing title)

theorem title_of_posted {title : String} {payload : AddQuestRequest}
    (h : Posted (entitled title) request .questionAdd payload) : payload.title = title := by
  have htaken {body : Option AddQuestRequest} (hbody : ∀ p, body = some p → p.title = title)
      (hok : validated (entitled title) .questionAdd body = .ok payload) : payload.title = title := by
    unfold validated at hok
    split at hok
    · cases hok
    next p =>
      split at hok
      · cases hok
        exact hbody _ rfl
      · cases hok
  obtain ⟨-, hbody⟩ := h
  unfold jsonOrForm at hbody
  split at hbody
  · split at hbody
    · refine htaken (fun p hp => ?_) hbody
      simp only [entitled] at hp
      split at hp <;> cases hp
      rfl
    · split at hbody
      · exact htaken (fun p hp => by cases hp) hbody
      · cases hbody
  · cases hbody

theorem exists_posed (title : String) (h : (posed title).exchanges.map (·.prog.calling) =
    [none, none, some (.rpc (.addQuestion ⟨title, "content", "alice"⟩))]) :
    ∃ d ∈ (posed title).exchanges,
      d.prog.calling = some (.rpc (.addQuestion ⟨title, "content", "alice"⟩)) ∧
      ∀ u, principal d = some u → Registered (posed title) u := by
  have hlast : ((posed title).exchanges.map (·.prog.calling))[2]? =
      some (some (.rpc (.addQuestion ⟨title, "content", "alice"⟩))) := by rw [h]; rfl
  rw [List.getElem?_map] at hlast
  obtain ⟨d, hd, hcalling⟩ := Option.map_eq_some_iff.mp hlast
  have hd := List.mem_of_getElem? hd
  have hordinary : ∀ e ∈ posing title, Ordinary hashing e := by
    simp only [posing, openly, verified, List.cons_append, List.nil_append, List.forall_mem_cons]
    exact ⟨by decide, by decide, by decide, by decide, ⟨id, nofun⟩, by decide, by decide, nofun⟩
  exact ⟨d, hd, hcalling, fun u => registered_of_principal hashing_lawful hordinary rfl hd⟩

theorem validated_fits_posed :
    ((Rpc.addQuestion ⟨"title", "content", "alice"⟩).serve hashing).Within QaSys.Call.Fits := by
  obtain ⟨d, hd, hc, hreg⟩ := exists_posed "title" (by decide +kernel)
  refine (validated_fits length_md5_hashing rfl hd hc trivial hreg).mpr fun payload hposted => ?_
  rw [title_of_posted hposted]
  decide +kernel

def titleOf (n : Nat) : String := String.ofList (List.replicate n 't')

theorem length_titleOf (n : Nat) : (titleOf n).length = n := by
  rw [titleOf, String.length_ofList, List.length_replicate]

/-- The service is asked to write a title of 301 characters, which the checks let pass. -/
theorem longTitle_written : ¬ ∀ d ∈ (posed (titleOf 301)).exchanges, ∀ c,
    d.prog.calling = some (.rpc c) → c.Adding →
    (∀ u, principal d = some u → Registered (posed (titleOf 301)) u) →
    (c.serve hashing).Within QaSys.Call.Fits := by
  intro h
  obtain ⟨d, hd, hc, hreg⟩ := exists_posed (titleOf 301) (by decide +kernel)
  have hfits := (fits_addQuestion.mp (h d hd _ hc trivial hreg)).1
  exact absurd ((length_titleOf 301).symm.trans_le hfits) (by decide)

end Gateway

end QaSys
