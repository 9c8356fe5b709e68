import QaSys.Program.Refinement
import Mathlib.Logic.Function.Basic
import Mathlib.Tactic.Common

/-! Who may act for whom: accounts that are opened once, and sessions that are opened with a
password and shown with a ticket.  Names, passwords and handles are of any kind. -/

namespace QaSys.Authority

open Runs

/-- What is kept of a name and of a password, if it can be kept, and how long a session lasts. -/
structure Rules (N P S : Type*) where
  name : N → Option N
  secret : P → S
  keep : S → Option S
  lifetime : Nat

structure Account (S H : Type*) where
  secret : S
  handle : H

/-- A session has the name of its account and ends at some time. -/
@[ext] structure State (N S H : Type*) where
  accounts : N → Option (Account S H)
  sessions : H → Option (N × Int)
  clock : Int

/-- What is readable of a ticket are a handle and the time until which it is good. -/
inductive Request (N P H : Type*)
  | register (name : N) (password : P)
  | login (name : N) (password : P)
  | logout (ticket : Option (H × Int))
  | verify (ticket : Option (H × Int))
  | tick (seconds : Nat)
  | other
  deriving DecidableEq

inductive Answer (N H : Type*)
  | registered | taken | unfit
  | unregistered | wrong | busy | opened (ticket : H × Int)
  | refused | closed
  | absent | holder (name : N)
  | silent
  deriving DecidableEq

variable {N P S H : Type*}

namespace State

def empty (clock : Int) : State N S H := ⟨fun _ => none, fun _ => none, clock⟩

def live (d : State N S H) (h : H) : Option N :=
  (d.sessions h).bind fun session => if d.clock < session.2 then some session.1 else none

def present (d : State N S H) (ticket : Option (H × Int)) : Option H :=
  ticket.bind fun ticket => if d.clock < ticket.2 then some ticket.1 else none

def withAccount [DecidableEq N] (d : State N S H) (n : N) (a : Account S H) : State N S H :=
  { d with accounts := Function.update d.accounts n (some a) }

def withSession [DecidableEq H] (d : State N S H) (h : H) (session : Option (N × Int)) :
    State N S H :=
  { d with sessions := Function.update d.sessions h session }

@[simp] theorem withAccount_self [DecidableEq N] (d : State N S H) (n : N) (a : Account S H) :
    (d.withAccount n a).accounts n = some a := Function.update_self ..

@[simp] theorem withAccount_of_ne [DecidableEq N] (d : State N S H) {n n' : N} (h : n' ≠ n)
    (a : Account S H) : (d.withAccount n a).accounts n' = d.accounts n' :=
  Function.update_of_ne h ..

@[simp] theorem withSession_self [DecidableEq H] (d : State N S H) (h : H)
    (session : Option (N × Int)) : (d.withSession h session).sessions h = session :=
  Function.update_self ..

@[simp] theorem withSession_of_ne [DecidableEq H] (d : State N S H) {h h' : H} (hh : h' ≠ h)
    (session : Option (N × Int)) : (d.withSession h session).sessions h' = d.sessions h' :=
  Function.update_of_ne hh ..

def Unused (d : State N S H) (h : H) : Prop := ∀ n a, d.accounts n = some a → a.handle ≠ h

variable (rules : Rules N P S) (d : State N S H)

def register [DecidableEq N] (fresh : H) (name : N) (password : P) : Answer N H × State N S H :=
  match d.accounts name, rules.name name, rules.keep (rules.secret password) with
  | some _, _, _ => (.taken, d)
  | none, some stored, some secret => match d.accounts stored with
    | some _ => (.unfit, d)
    | none => (.registered, d.withAccount stored ⟨secret, fresh⟩)
  | none, _, _ => (.unfit, d)

def login [DecidableEq S] [DecidableEq H] (name : N) (password : P) : Answer N H × State N S H :=
  match d.accounts name with
  | none => (.unregistered, d)
  | some account =>
    if account.secret ≠ rules.secret password then (.wrong, d)
    else match d.live account.handle with
      | some _ => (.busy, d)
      | none =>
        let expiry := d.clock + rules.lifetime
        (.opened (account.handle, expiry), d.withSession account.handle (some (name, expiry)))

def logout [DecidableEq H] (ticket : Option (H × Int)) : Answer N H × State N S H :=
  match d.present ticket with
  | none => (.refused, d)
  | some h => (.closed, d.withSession h none)

def verify (ticket : Option (H × Int)) : Answer N H :=
  match d.present ticket with
  | none => .refused
  | some h => match d.live h with
    | none => .absent
    | some name => .holder name

end State

variable {rules : Rules N P S} {d d' : State N S H} {fresh h : H} {n name : N} {password : P}
  {ticket : Option (H × Int)} {e : Int}

namespace State

theorem register_cases [DecidableEq N] (rules : Rules N P S) (d : State N S H) (fresh : H)
    (name : N) (password : P) :
    (∃ stored secret, d.accounts name = none ∧ rules.name name = some stored ∧
      rules.keep (rules.secret password) = some secret ∧ d.accounts stored = none ∧
      d.register rules fresh name password =
        (.registered, d.withAccount stored ⟨secret, fresh⟩)) ∨
    ∃ an, (an = .taken ∨ an = .unfit) ∧ d.register rules fresh name password = (an, d) := by
  unfold register
  split
  · exact .inr ⟨_, .inl rfl, rfl⟩
  next stored secret haccount hstored hsecret =>
    split
    · exact .inr ⟨_, .inr rfl, rfl⟩
    next hnone => exact .inl ⟨stored, secret, haccount, hstored, hsecret, hnone, rfl⟩
  · exact .inr ⟨_, .inr rfl, rfl⟩

theorem register_unfit [DecidableEq N] (hfree : d.accounts name = none)
    (hno : ∀ stored secret, rules.name name = some stored →
      rules.keep (rules.secret password) = some secret → d.accounts stored ≠ none) :
    d.register rules fresh name password = (.unfit, d) := by
  unfold register
  split
  next hsome =>
    rw [hfree] at hsome
    cases hsome
  next stored secret _ hstored hsecret =>
    split
    · rfl
    next hnone => exact absurd hnone (hno stored secret hstored hsecret)
  · rfl

theorem login_cases [DecidableEq S] [DecidableEq H] (rules : Rules N P S) (d : State N S H)
    (name : N) (password : P) :
    (∃ h, d.accounts name = some ⟨rules.secret password, h⟩ ∧ d.live h = none ∧
      d.login rules name password = (.opened (h, d.clock + rules.lifetime),
        d.withSession h (some (name, d.clock + rules.lifetime)))) ∨
    ∃ an, (an = .unregistered ∨ an = .wrong ∨ an = .busy) ∧
      d.login rules name password = (an, d) := by
  unfold login
  split
  · exact .inr ⟨_, .inl rfl, rfl⟩
  next account haccount =>
    obtain ⟨secret, h⟩ := account
    split
    · exact .inr ⟨_, .inr (.inl rfl), rfl⟩
    next hsecret =>
      cases not_not.mp hsecret
      split
      · exact .inr ⟨_, .inr (.inr rfl), rfl⟩
      next hlive => exact .inl ⟨h, haccount, hlive, rfl⟩

theorem logout_cases [DecidableEq H] (d : State N S H) (ticket : Option (H × Int)) :
    (∃ t, ticket = some t ∧ d.clock < t.2 ∧ d.logout ticket = (.closed, d.withSession t.1 none)) ∨
    d.logout ticket = (.refused, d) := by
  cases ticket with
  | none => exact .inr rfl
  | some t =>
    by_cases hlt : d.clock < t.2
    · have hpresent : d.present (some t) = some t.1 := if_pos hlt
      exact .inl ⟨t, rfl, hlt, by simp only [logout, hpresent]⟩
    · have hpresent : d.present (some t) = none := if_neg hlt
      exact .inr (by simp only [logout, hpresent])

end State

variable {past : List (Request N P H × Answer N H)} {entry : Request N P H × Answer N H} {s : S}

/-- The name was registered, with a password of which `s` was kept. -/
def Known (rules : Rules N P S) (past : List (Request N P H × Answer N H)) (n : N) (s : S) : Prop :=
  ∃ name password, (Request.register name password, Answer.registered) ∈ past ∧
    rules.name name = some n ∧ rules.keep (rules.secret password) = some s

def Touches (h : H) : Request N P H × Answer N H → Prop
  | (.login .., .opened ticket) => ticket.1 = h
  | (.logout (some ticket), .closed) => ticket.1 = h
  | _ => False

/-- The last that happened to the session of the handle was a login under the name. -/
def Opened (past : List (Request N P H × Answer N H)) (n : N) (h : H) (expiry : Int) : Prop :=
  ∃ before password after, past = before ++ (.login n password, .opened (h, expiry)) :: after ∧
    ∀ entry ∈ after, ¬ Touches h entry

theorem known_snoc : Known rules (past ++ [entry]) n s ↔ Known rules past n s ∨
    ∃ name password, entry = (.register name password, .registered) ∧
      rules.name name = some n ∧ rules.keep (rules.secret password) = some s := by
  constructor
  · rintro ⟨name, password, hmem, hname, hkeep⟩
    rcases List.mem_append.mp hmem with hmem | hmem
    · exact .inl ⟨name, password, hmem, hname, hkeep⟩
    · exact .inr ⟨name, password, (List.mem_singleton.mp hmem).symm, hname, hkeep⟩
  · rintro (⟨name, password, hmem, hname, hkeep⟩ | ⟨name, password, rfl, hname, hkeep⟩)
    · exact ⟨name, password, List.mem_append_left _ hmem, hname, hkeep⟩
    · exact ⟨name, password, List.mem_append_right _ (List.mem_singleton_self _), hname, hkeep⟩

theorem opened_snoc : Opened (past ++ [entry]) n h e ↔
    (∃ password, entry = (.login n password, .opened (h, e))) ∨
      ¬ Touches h entry ∧ Opened past n h e := by
  constructor
  · rintro ⟨before, password, after, heq, hno⟩
    rcases after.eq_nil_or_concat with rfl | ⟨after, last, rfl⟩
    · exact .inl ⟨password, List.singleton_inj.mp (List.append_inj' heq rfl).2⟩
    · rw [List.concat_eq_append, ← List.cons_append, ← List.append_assoc] at heq
      obtain ⟨hpast, hentry⟩ := List.append_inj' heq rfl
      obtain rfl := List.singleton_inj.mp hentry
      rw [List.concat_eq_append] at hno
      exact .inr ⟨hno _ (List.mem_append_right _ (List.mem_singleton_self _)), before, password,
        after, hpast, fun x hx => hno x (List.mem_append_left _ hx)⟩
  · rintro (⟨password, rfl⟩ | ⟨hentry, before, password, after, rfl, hno⟩)
    · exact ⟨past, password, [], rfl, fun x hx => absurd hx List.not_mem_nil⟩
    · refine ⟨before, password, after ++ [entry], by rw [List.append_assoc]; rfl, fun x hx => ?_⟩
      rcases List.mem_append.mp hx with hx | hx
      · exact hno x hx
      · rwa [List.mem_singleton.mp hx]

/-- The accounts and the sessions are what the past makes them. -/
structure Recorded (rules : Rules N P S) (past : List (Request N P H × Answer N H))
    (d : State N S H) : Prop where
  known : ∀ n s, (∃ h, d.accounts n = some ⟨s, h⟩) ↔ Known rules past n s
  opened : ∀ n h e, d.sessions h = some (n, e) ↔ Opened past n h e
  holder : ∀ n h e, d.sessions h = some (n, e) → ∃ s, d.accounts n = some ⟨s, h⟩
  handles : ∀ n n' a a', d.accounts n = some a → d.accounts n' = some a' →
    a.handle = a'.handle → n = n'

namespace Recorded

theorem empty {clock : Int} : Recorded rules [] (State.empty clock : State N S H) where
  known n s := by
    constructor
    · rintro ⟨h, hnone⟩
      cases hnone
    · rintro ⟨name, password, hmem, -⟩
      exact absurd hmem List.not_mem_nil
  opened n h e := by
    constructor
    · intro hnone
      cases hnone
    · rintro ⟨before, password, after, heq, -⟩
      cases before <;> cases heq
  holder n h e hnone := by cases hnone
  handles n n' a a' hnone := by cases hnone

theorem aside (hr : Recorded rules past d)
    (hreg : ∀ name password, entry ≠ (.register name password, .registered))
    (hno : ∀ h, ¬ Touches h entry) (haccounts : d'.accounts = d.accounts)
    (hsessions : d'.sessions = d.sessions) : Recorded rules (past ++ [entry]) d' where
  known n s := by
    rw [haccounts, hr.known, known_snoc]
    refine (or_iff_left ?_).symm
    rintro ⟨name, password, hentry, -⟩
    exact hreg name password hentry
  opened n h e := by
    rw [hsessions, hr.opened, opened_snoc]
    constructor
    · exact fun hopen => .inr ⟨hno h, hopen⟩
    · rintro (⟨password, rfl⟩ | ⟨-, hopen⟩)
      · exact absurd rfl (hno h)
      · exact hopen
  holder n h e := by rw [hsessions, haccounts]; exact hr.holder n h e
  handles := by rw [haccounts]; exact hr.handles

theorem registered [DecidableEq N] (hr : Recorded rules past d) {stored : N} {secret : S}
    (hfree : d.accounts stored = none) (hname : rules.name name = some stored)
    (hkeep : rules.keep (rules.secret password) = some secret) (hfresh : d.Unused fresh) :
    Recorded rules (past ++ [(.register name password, .registered)])
      (d.withAccount stored ⟨secret, fresh⟩) where
  known n s := by
    rw [known_snoc]
    by_cases hn : n = stored
    · subst hn
      rw [State.withAccount_self]
      constructor
      · rintro ⟨h, hs⟩
        cases hs
        exact .inr ⟨name, password, rfl, hname, hkeep⟩
      · rintro (hknown | ⟨name', password', hentry, -, hkeep'⟩)
        · obtain ⟨h, hsome⟩ := (hr.known n s).mpr hknown
          rw [hfree] at hsome
          cases hsome
        · cases hentry
          cases hkeep.symm.trans hkeep'
          exact ⟨fresh, rfl⟩
    · rw [State.withAccount_of_ne d hn, hr.known]
      refine (or_iff_left ?_).symm
      rintro ⟨name', password', hentry, hname', -⟩
      cases hentry
      exact hn (Option.some.inj (hname'.symm.trans hname))
  opened n h e := by
    rw [opened_snoc]
    constructor
    · exact fun hopen => .inr ⟨id, (hr.opened n h e).mp hopen⟩
    · rintro (⟨password', hentry⟩ | ⟨-, hopen⟩)
      · cases hentry
      · exact (hr.opened n h e).mpr hopen
  holder n h e hopen := by
    obtain ⟨s, hs⟩ := hr.holder n h e hopen
    have hn : n ≠ stored := by
      rintro rfl
      rw [hfree] at hs
      cases hs
    exact ⟨s, (State.withAccount_of_ne d hn _).trans hs⟩
  handles n n' a a' ha ha' hsame := by
    by_cases hn : n = stored <;> by_cases hn' : n' = stored
    · exact hn.trans hn'.symm
    · subst hn
      rw [State.withAccount_self] at ha
      rw [State.withAccount_of_ne d hn'] at ha'
      cases ha
      exact absurd hsame.symm (hfresh n' a' ha')
    · subst hn'
      rw [State.withAccount_self] at ha'
      rw [State.withAccount_of_ne d hn] at ha
      cases ha'
      exact absurd hsame (hfresh n a ha)
    · rw [State.withAccount_of_ne d hn] at ha
      rw [State.withAccount_of_ne d hn'] at ha'
      exact hr.handles n n' a a' ha ha' hsame

theorem loggedIn [DecidableEq H] (hr : Recorded rules past d) {secret : S}
    (haccount : d.accounts name = some ⟨secret, h⟩) :
    Recorded rules (past ++ [(.login name password, .opened (h, e))])
      (d.withSession h (some (name, e))) where
  known n s := by
    rw [known_snoc]
    refine (hr.known n s).trans (or_iff_left ?_).symm
    rintro ⟨name', password', hentry, -⟩
    cases hentry
  opened n h' e' := by
    rw [opened_snoc]
    by_cases hh : h' = h
    · subst hh
      rw [State.withSession_self]
      constructor
      · intro heq
        cases heq
        exact .inl ⟨password, rfl⟩
      · rintro (⟨password', hentry⟩ | ⟨hno, -⟩)
        · cases hentry
          rfl
        · exact absurd rfl hno
    · rw [State.withSession_of_ne d hh, hr.opened]
      constructor
      · exact fun hopen => .inr ⟨fun heq => hh heq.symm, hopen⟩
      · rintro (⟨password', hentry⟩ | ⟨-, hopen⟩)
        · cases hentry
          exact absurd rfl hh
        · exact hopen
  holder n h' e' hopen := by
    by_cases hh : h' = h
    · subst hh
      rw [State.withSession_self] at hopen
      cases hopen
      exact ⟨secret, haccount⟩
    · rw [State.withSession_of_ne d hh] at hopen
      exact hr.holder n h' e' hopen
  handles := hr.handles

theorem loggedOut [DecidableEq H] (hr : Recorded rules past d) (t : H × Int) :
    Recorded rules (past ++ [(.logout (some t), .closed)]) (d.withSession t.1 none) where
  known n s := by
    rw [known_snoc]
    refine (hr.known n s).trans (or_iff_left ?_).symm
    rintro ⟨name', password', hentry, -⟩
    cases hentry
  opened n h e := by
    rw [opened_snoc]
    by_cases hh : h = t.1
    · subst hh
      rw [State.withSession_self]
      constructor
      · intro hnone
        cases hnone
      · rintro (⟨password', hentry⟩ | ⟨hno, -⟩)
        · cases hentry
        · exact absurd rfl hno
    · rw [State.withSession_of_ne d hh, hr.opened]
      constructor
      · exact fun hopen => .inr ⟨fun heq => hh heq.symm, hopen⟩
      · rintro (⟨password', hentry⟩ | ⟨-, hopen⟩)
        · cases hentry
        · exact hopen
  holder n h e hopen := by
    by_cases hh : h = t.1
    · subst hh
      rw [State.withSession_self] at hopen
      cases hopen
    · rw [State.withSession_of_ne d hh] at hopen
      exact hr.holder n h e hopen
  handles := hr.handles

end Recorded

/-- A new account gets a handle that no other account has. -/
inductive Step [DecidableEq N] [DecidableEq S] [DecidableEq H] (rules : Rules N P S)
    (d : State N S H) : Request N P H → Answer N H → State N S H → Prop
  | register (name : N) (password : P) (fresh : H) :
      ((d.register rules fresh name password).1 = .registered → d.Unused fresh) →
      Step rules d (.register name password) (d.register rules fresh name password).1
        (d.register rules fresh name password).2
  | login (name : N) (password : P) :
      Step rules d (.login name password) (d.login rules name password).1
        (d.login rules name password).2
  | logout (ticket : Option (H × Int)) :
      Step rules d (.logout ticket) (d.logout ticket).1 (d.logout ticket).2
  | verify (ticket : Option (H × Int)) : Step rules d (.verify ticket) (d.verify ticket) d
  | tick (seconds : Nat) :
      Step rules d (.tick seconds) .silent { d with clock := d.clock + seconds }
  | other : Step rules d .other .silent d

namespace Step

variable [DecidableEq N] [DecidableEq S] [DecidableEq H] {an : Answer N H}

theorem of_register (h : Step rules d (.register name password) an d') :
    ∃ fresh, an = (d.register rules fresh name password).1 := by
  cases h with
  | register name password fresh hfresh => exact ⟨fresh, rfl⟩

theorem of_login (h : Step rules d (.login name password) an d') :
    an = (d.login rules name password).1 := by
  cases h with
  | login name password => rfl

theorem of_verify (h : Step rules d (.verify ticket) an d') : an = d.verify ticket := by
  cases h with
  | verify ticket => rfl

end Step

namespace Recorded

theorem step [DecidableEq N] [DecidableEq S] [DecidableEq H] (hr : Recorded rules past d)
    {rq : Request N P H} {an : Answer N H} (hs : Step rules d rq an d') :
    Recorded rules (past ++ [(rq, an)]) d' := by
  cases hs with
  | register name password fresh hfresh =>
    rcases State.register_cases rules d fresh name password with
      ⟨stored, secret, -, hname, hkeep, hfree, heq⟩ | ⟨an, han, heq⟩
    · rw [heq] at hfresh ⊢
      exact hr.registered hfree hname hkeep (hfresh rfl)
    · rw [heq]
      refine hr.aside (fun name password hentry => ?_) (fun h => id) rfl rfl
      rcases han with rfl | rfl <;> cases hentry
  | login name password =>
    rcases State.login_cases rules d name password with ⟨h, haccount, -, heq⟩ | ⟨an, han, heq⟩
    · rw [heq]
      exact hr.loggedIn haccount
    · rw [heq]
      refine hr.aside (fun name password hentry => ?_) (fun h htouch => ?_) rfl rfl
      · cases hentry
      · rcases han with rfl | rfl | rfl <;> exact htouch
  | logout ticket =>
    rcases State.logout_cases d ticket with ⟨t, rfl, -, heq⟩ | heq
    · rw [heq]
      exact hr.loggedOut t
    · rw [heq]
      refine hr.aside (fun name password hentry => ?_) (fun h htouch => ?_) rfl rfl
      · cases hentry
      · cases ticket <;> exact htouch
  | verify ticket =>
    exact hr.aside (fun name password hentry => by cases hentry) (fun h => id) rfl rfl
  | tick seconds =>
    exact hr.aside (fun name password hentry => by cases hentry) (fun h => id) rfl rfl
  | other => exact hr.aside (fun name password hentry => by cases hentry) (fun h => id) rfl rfl

theorem trace [DecidableEq N] [DecidableEq S] [DecidableEq H] {clock : Int}
    (h : Trace (Step rules) (.empty clock) past d) :
    Recorded rules past d :=
  h.history .empty fun _ _ _ _ _ hr hs => hr.step hs

theorem account_eq_none_iff (hr : Recorded rules past d) :
    d.accounts n = none ↔ ∀ s, ¬ Known rules past n s := by
  constructor
  · intro hnone s hs
    obtain ⟨h, hsome⟩ := (hr.known n s).mpr hs
    rw [hnone] at hsome
    cases hsome
  · intro hno
    refine Option.eq_none_iff_forall_ne_some.mpr fun a ha => hno a.secret ?_
    exact (hr.known n a.secret).mp ⟨a.handle, ha⟩

theorem register_iff [DecidableEq N] (hr : Recorded rules past d) (fresh : H) :
    (d.register rules fresh name password).1 = .registered ↔ (∀ s, ¬ Known rules past name s) ∧
      ∃ stored secret, rules.name name = some stored ∧
        rules.keep (rules.secret password) = some secret ∧ ∀ s, ¬ Known rules past stored s := by
  rw [← hr.account_eq_none_iff]
  constructor
  · intro hreg
    rcases State.register_cases rules d fresh name password with
      ⟨stored, secret, hfree, hname, hkeep, hstored, -⟩ | ⟨an, han, heq⟩
    · exact ⟨hfree, stored, secret, hname, hkeep, hr.account_eq_none_iff.mp hstored⟩
    · rw [heq] at hreg
      rcases han with rfl | rfl <;> cases hreg
  · rintro ⟨hfree, stored, secret, hname, hkeep, hstored⟩
    have hnone := hr.account_eq_none_iff.mpr hstored
    simp only [State.register, hfree, hname, hkeep, hnone]

theorem login_iff [DecidableEq S] [DecidableEq H] (hr : Recorded rules past d) :
    (∃ ticket, (d.login rules name password).1 = .opened ticket) ↔
      Known rules past name (rules.secret password) ∧
      ∀ h e, Opened past name h e → e ≤ d.clock := by
  constructor
  · rintro ⟨ticket, hlogin⟩
    rcases State.login_cases rules d name password with ⟨h, haccount, hlive, -⟩ | ⟨an, han, heq⟩
    · refine ⟨(hr.known name _).mp ⟨h, haccount⟩, fun h' e hopen => Int.not_lt.mp fun hlt => ?_⟩
      have hsession := (hr.opened name h' e).mpr hopen
      obtain ⟨s, hs⟩ := hr.holder name h' e hsession
      cases haccount.symm.trans hs
      rw [State.live, hsession] at hlive
      cases (if_pos hlt).symm.trans hlive
    · rw [heq] at hlogin
      rcases han with rfl | rfl | rfl <;> cases hlogin
  · rintro ⟨hknown, hopen⟩
    obtain ⟨h, haccount⟩ := (hr.known name _).mpr hknown
    have hlive : d.live h = none := by
      cases hsession : d.sessions h with
      | none => rw [State.live, hsession]; rfl
      | some session =>
        obtain ⟨n, e⟩ := session
        obtain ⟨s, hs⟩ := hr.holder n h e hsession
        cases hr.handles _ _ _ _ hs haccount rfl
        rw [State.live, hsession]
        exact if_neg (Int.not_lt.mpr (hopen h e ((hr.opened _ h e).mp hsession)))
    refine ⟨(h, d.clock + rules.lifetime), ?_⟩
    simp only [State.login, haccount, ne_eq, not_true_eq_false, if_false, hlive]

theorem verify_iff (hr : Recorded rules past d) :
    d.verify (some (h, e)) = .holder n ↔
      d.clock < e ∧ ∃ e', Opened past n h e' ∧ d.clock < e' := by
  constructor
  · intro hverify
    by_cases hlt : d.clock < e
    · have hpresent : d.present (some (h, e)) = some h := if_pos hlt
      simp only [State.verify, hpresent] at hverify
      refine ⟨hlt, ?_⟩
      cases hsession : d.sessions h with
      | none =>
        rw [State.live, hsession] at hverify
        cases hverify
      | some session =>
        obtain ⟨n', e'⟩ := session
        rw [State.live, hsession, Option.bind_some] at hverify
        by_cases hlt' : d.clock < e'
        · simp only [if_pos hlt'] at hverify
          cases hverify
          exact ⟨e', (hr.opened _ h e').mp hsession, hlt'⟩
        · simp only [if_neg hlt'] at hverify
          cases hverify
    · have hpresent : d.present (some (h, e)) = none := if_neg hlt
      simp only [State.verify, hpresent] at hverify
      cases hverify
  · rintro ⟨hlt, e', hopen, hlt'⟩
    have hpresent : d.present (some (h, e)) = some h := if_pos hlt
    have hlive : d.live h = some n := by
      rw [State.live, (hr.opened n h e').mpr hopen]
      exact if_pos hlt'
    simp only [State.verify, hpresent, hlive]

end Recorded

end QaSys.Authority
