import QaSys.Concurrent.Held

/-! Everything a call of one session can do to the rows while the others are at work. -/

namespace QaSys.Concurrent

open UserVote Overlap Transaction Sessions

/-- What the call `c` of session `i` does in a phase, and the phase it leads to. -/
inductive Turn (s : Store) (i : Nat) : Call → Phase → Store → Phase → Prop
  | aside {c : Call} {φ : Phase} {s' : Store} : s'.pg = s.pg → Drawn s.seq s'.seq →
      Turn s i c φ s' φ
  | wrote {q : Stmt} {s' : Store} {a : q.Reply} {ws : List Write} : Civil q →
      q.eval s.seq s.pg.db = .ok (a, ws) → s.pg.blocked journal i ws = false →
      s'.pg = { s.pg with db := ws.foldl Db.apply s.pg.db } → s'.seq = q.draw s.seq →
      Turn s i (.sql q) .idle s' .idle
  | begun {s' : Store} : s'.pg = s.pg.start i → s'.seq = s.seq → Turn s i .begin .idle s' .begun
  | logged {q : Stmt} {φ φ' : Phase} {s' : Store} {l ws : List Write} : s.pg.log i = some l →
      s.pg.blocked journal i ws = false →
      s'.pg = { s.pg with log := Function.update s.pg.log i (some (l ++ ws)) } →
      Drawn s.seq s'.seq → Holds s.pg.db s'.seq φ' (some (l ++ ws)) → Turn s i (.tx q) φ s' φ'
  | cast {t now : Int} {u : String} {row : VoteRow} {a : AnswerRow} {s' : Store} :
      Placed s.pg.db s.seq t u row → s.pg.db.answers.filter (·.id = t) = [a] →
      s'.pg = s.pg.commit journal i → s'.pg.db = castVote s.pg.db now row a → s'.seq = s.seq →
      Turn s i .commit (.counted t u) s' .idle
  | withdrew {t now : Int} {u : String} {row : VoteRow} {a : AnswerRow} {s' : Store} :
      Dropped s.pg.db t u row → s.pg.db.answers.filter (·.id = t) = [a] →
      s'.pg = s.pg.commit journal i → s'.pg.db = cancelVote s.pg.db now row a → s'.seq = s.seq →
      Turn s i .commit (.discounted t u) s' .idle
  | ended {c : Call} {φ : Phase} {s' : Store} : s'.pg = s.pg.rollback i → s'.seq = s.seq →
      Turn s i c φ s' .idle

variable {s s' : Store} {i : Nat} {ch : Choice} {φ φ' : Phase} {c : Call} {q : Stmt}

theorem exec_auto {r : Except Err q.Reply} (h : s.exec i ch (.sql q) = some (r, s')) :
    (s'.pg = s.pg ∧ Drawn s.seq s'.seq) ∨ ∃ a ws, q.eval s.seq s.pg.db = .ok (a, ws) ∧
      s.pg.blocked journal i ws = false ∧
      s'.pg = { s.pg with db := ws.foldl Db.apply s.pg.db } ∧ s'.seq = q.draw s.seq := by
  have served (h : s.statement q (auto journal i) = some (r, s')) :
      (s'.pg = s.pg ∧ Drawn s.seq s'.seq) ∨ ∃ a ws, q.eval s.seq s.pg.db = .ok (a, ws) ∧
        s.pg.blocked journal i ws = false ∧
        s'.pg = { s.pg with db := ws.foldl Db.apply s.pg.db } ∧ s'.seq = q.draw s.seq := by
    by_cases hq : q.Bindable
    swap
    · rw [Store.statement, if_neg hq] at h
      cases h
      exact .inl ⟨rfl, .refl⟩
    simp only [Store.statement, if_pos hq, auto] at h
    cases heval : q.eval s.seq s.pg.db with
    | error msg =>
      rw [heval] at h
      cases h
      exact .inl ⟨rfl, .draw q s.seq⟩
    | ok res =>
      obtain ⟨a, ws⟩ := res
      simp only [heval] at h
      cases hb : s.pg.blocked journal i ws with
      | true =>
        rw [hb] at h
        cases h
      | false =>
        rw [hb] at h
        cases h
        exact .inr ⟨a, ws, rfl, hb, rfl, rfl⟩
  cases ch with
  | fail msg =>
    cases h
    exact .inl ⟨rfl, .refl⟩
  | lost msg =>
    cases h
    exact .inl ⟨rfl, .refl⟩
  | _ => exact served h

theorem exec_stmt {l : List Write} (hlog : s.pg.log i = some l) {r : Except Err q.Reply}
    (h : s.exec i ch (.tx q) = some (r, s')) :
    (s'.pg = s.pg ∧ Drawn s.seq s'.seq ∧ ∃ e, r = .error e) ∨
    ∃ a ws, q.eval s.seq (l.foldl Db.apply s.pg.db) = .ok (a, ws) ∧ r = .ok a ∧
      s.pg.blocked journal i ws = false ∧
      s'.pg = { s.pg with log := Function.update s.pg.log i (some (l ++ ws)) } ∧
      s'.seq = q.draw s.seq := by
  rcases Store.exec_tx hlog h with ⟨-, rfl, he⟩ | ⟨msg, -, rfl, rfl⟩ |
    ⟨a, ws, heval, hfree, rfl, rfl⟩
  · exact .inl ⟨rfl, .refl, he⟩
  · exact .inl ⟨rfl, .draw q s.seq, _, rfl⟩
  · exact .inr ⟨a, ws, heval, rfl, hfree, rfl, rfl⟩

/-- The statements a transaction of the service can make. -/
inductive Next : Phase → Stmt → Prop
  | place (t now : Int) (u : String) : Next .begun (.insertVote t "answer" u now)
  | drop (t : Int) (u : String) : Next .begun (.deleteVote t "answer" u)
  | count (t now : Int) (u : String) : Next (.placed t u) (.addAgree 1 now t)
  | discount (t now : Int) (u : String) : Next (.dropped t u) (.subAgree 1 now t)

theorem next_of_allows (h : φ.allows (.tx q)) : Next φ q := by
  cases φ with
  | begun =>
    cases q with
    | insertVote t ty u now =>
      cases h
      exact .place t now u
    | deleteVote t ty u =>
      cases h
      exact .drop t u
    | _ => exact h.elim
  | placed t u =>
    cases q with
    | addAgree n now id =>
      obtain ⟨rfl, rfl⟩ := h
      exact .count id now u
    | _ => exact h.elim
  | dropped t u =>
    cases q with
    | subAgree n now id =>
      obtain ⟨rfl, rfl⟩ := h
      exact .discount id now u
    | _ => exact h.elim
  | _ => exact h.elim

theorem next_error {e : Err} (h : Next φ q) : φ.next (.tx q) (.error e) = φ := by
  cases h <;> rfl

theorem idle_of_allows (h : φ.allows (.sql q)) : φ = .idle ∧ Civil q := by
  cases φ with
  | idle => exact ⟨rfl, h⟩
  | _ => exact h.elim

theorem turn_counter {l ws : List Write} {t : Int} {f : AnswerRow → AnswerRow} {s' : Store}
    (hlog : s.pg.log i = some l) (hfree : s.pg.blocked journal i ws = false)
    (hpg : s'.pg = { s.pg with log := Function.update s.pg.log i (some (l ++ ws)) })
    (hseq : Drawn s.seq s'.seq)
    (hws : ws = (s.pg.db.answers.filter (·.id = t)).map fun r => .updateAnswer (f r))
    (hone : ∀ a, s.pg.db.answers.filter (·.id = t) = [a] →
      Holds s.pg.db s'.seq φ' (some (l ++ [.updateAnswer (f a)]))) : Turn s i (.tx q) φ s'
        (if (s.pg.db.answers.filter (·.id = t)).length = 1 then φ' else .broken) := by
  refine .logged hlog hfree hpg hseq ?_
  split
  next hlength =>
    obtain ⟨a, ha⟩ := List.length_eq_one_iff.mp hlength
    rw [hws, ha]
    exact hone a ha
  next => exact .broken _

theorem turn_tx (hb : Books s.pg.db s.seq) (hh : Holds s.pg.db s.seq φ (s.pg.log i))
    (hnext : Next φ q) {r : Except Err q.Reply} (hexec : s.exec i ch (.tx q) = some (r, s')) :
    Turn s i (.tx q) φ s' (φ.next (.tx q) r) := by
  generalize hlog : s.pg.log i = log at hh
  have refused (hpg : s'.pg = s.pg) (hseq : Drawn s.seq s'.seq) {e : Err} (hr : r = .error e) :
      Turn s i (.tx q) φ s' (φ.next (.tx q) r) := by
    rw [hr, next_error hnext]
    exact .aside hpg hseq
  cases hnext with
  | place t now u =>
    cases hh
    rcases exec_stmt hlog hexec with ⟨hpg, hseq, e, hr⟩ | ⟨n, ws, heval, rfl, hfree, hpg, hseq⟩
    · exact refused hpg hseq hr
    obtain ⟨row, rfl, rfl, htarget, htype, hby, hid, hadv⟩ := eval_insertVote heval
    have hdrawn : Drawn s.seq s'.seq := hseq ▸ .draw _ _
    refine .logged hlog hfree hpg hdrawn (.placed row ⟨⟨htarget, ?_, hby⟩, ?_, ?_⟩)
    · exact (congrArg Varchar.val (Option.some.inj htype)).symm
    · rw [hseq]
      exact hadv.ge
    · refine List.filter_eq_nil_iff.mpr fun x hx => ?_
      have := hb.drawn x hx
      simp only [decide_eq_true_eq]
      omega
  | drop t u =>
    cases hh
    rcases exec_stmt hlog hexec with ⟨hpg, hseq, e, hr⟩ | ⟨n, ws, heval, rfl, hfree, hpg, hseq⟩
    · exact refused hpg hseq hr
    cases heval
    refine .logged hlog hfree hpg (hseq ▸ .refl) ?_
    change Holds s.pg.db s'.seq
      (if (s.pg.db.usersVotes.filter (VoteRow.matches t "answer" u)).length = 1
        then .dropped t u else .broken) _
    split
    next hlength =>
      obtain ⟨row, hrow⟩ := List.length_eq_one_iff.mp hlength
      have hmem : row ∈ s.pg.db.usersVotes.filter (VoteRow.matches t "answer" u) :=
        hrow ▸ List.mem_singleton_self row
      obtain ⟨hmem, hmatches⟩ := List.mem_filter.mp hmem
      simp only [List.foldl_nil, hrow]
      exact .dropped row ⟨hmatches, filter_key_of_mem hb.ids hmem⟩
    next => exact .broken _
  | count t now u =>
    cases hh with | placed row hp =>
    rcases exec_stmt hlog hexec with ⟨hpg, hseq, e, hr⟩ | ⟨n, ws, heval, rfl, hfree, hpg, hseq⟩
    · exact refused hpg hseq hr
    cases heval
    exact turn_counter (f := (upvoted · now)) hlog hfree hpg (hseq ▸ .refl) rfl fun a ha =>
      .counted row a now (hseq ▸ hp) ha
  | discount t now u =>
    cases hh with | dropped row hd =>
    rcases exec_stmt hlog hexec with ⟨hpg, hseq, e, hr⟩ | ⟨n, ws, heval, rfl, hfree, hpg, hseq⟩
    · exact refused hpg hseq hr
    cases heval
    exact turn_counter (f := (downvoted · now)) hlog hfree hpg (hseq ▸ .refl) rfl fun a ha =>
      .discounted row a now hd ha

theorem turn_commit (hh : Holds s.pg.db s.seq φ (s.pg.log i)) (hallows : φ.allows .commit)
    {r : Except Err Unit} (hexec : s.exec i ch .commit = some (r, s')) :
    Turn s i .commit φ s' .idle := by
  have served (hpg : s'.pg = s.pg.commit journal i) (hseq : s'.seq = s.seq) :
      Turn s i .commit φ s' .idle := by
    generalize hlog : s.pg.log i = log at hh
    have hdb {l : List Write} (hl : s.pg.log i = some l) :
        s'.pg.db = l.foldl Db.apply s.pg.db := by
      rw [hpg]
      exact view_of_some hl
    cases hh with
    | counted row a now hp ha =>
      have hcast : s'.pg.db = castVote s.pg.db now row a := hdb hlog
      exact .cast hp ha hpg hcast hseq
    | discounted row a now hd ha =>
      have hcancel : s'.pg.db = cancelVote s.pg.db now row a := hdb hlog
      exact .withdrew hd ha hpg hcancel hseq
    | _ => exact hallows.elim
  cases ch with
  | fail msg =>
    cases hexec
    exact .ended rfl rfl
  | lost msg =>
    cases hexec
    exact .ended rfl rfl
  | serve => cases hexec; exact served rfl rfl
  | page next fields => cases hexec; exact served rfl rfl
  | raw value => cases hexec; exact served rfl rfl

theorem turn_of_exec (hb : Books s.pg.db s.seq) (hh : Holds s.pg.db s.seq φ (s.pg.log i))
    (hallows : φ.allows c) {r : Except Err c.Reply} (hexec : s.exec i ch c = some (r, s')) :
    Turn s i c φ s' (φ.next c r) := by
  have aside (hpg : s'.pg = s.pg) (hseq : s'.seq = s.seq) (hφ : φ.next c r = φ) :
      Turn s i c φ s' (φ.next c r) := by
    rw [hφ]
    exact .aside hpg (hseq ▸ .refl)
  cases c with
  | sql q =>
    obtain ⟨rfl, hq⟩ := idle_of_allows hallows
    rcases exec_auto hexec with ⟨hpg, hseq⟩ | ⟨a, ws, heval, hfree, hpg, hseq⟩
    · exact .aside hpg hseq
    · exact .wrote hq heval hfree hpg hseq
  | tx q => exact turn_tx hb hh (next_of_allows hallows) hexec
  | begin =>
    cases φ with
    | idle =>
      cases ch with
      | fail msg => cases hexec; exact aside rfl rfl rfl
      | lost msg => cases hexec; exact aside rfl rfl rfl
      | _ => cases hexec; exact .begun rfl rfl
    | _ => exact hallows.elim
  | commit =>
    have hnext : φ.next .commit r = .idle := by cases φ <;> rfl
    rw [hnext]
    exact turn_commit hh hallows hexec
  | rollback =>
    cases hexec
    have hnext : φ.next .rollback (.ok ()) = .idle := by cases φ <;> rfl
    rw [hnext]
    exact .ended rfl rfl
  | get key => cases ch <;> cases hexec <;> exact aside rfl rfl (by cases φ <;> rfl)
  | setEx key value seconds => cases ch <;> cases hexec <;> exact aside rfl rfl (by cases φ <;> rfl)
  | del key => cases ch <;> cases hexec <;> exact aside rfl rfl (by cases φ <;> rfl)
  | hincr key field delta => cases ch <;> cases hexec <;> exact aside rfl rfl (by cases φ <;> rfl)
  | hscan key cursor pattern count =>
    cases ch <;> cases hexec <;> exact aside rfl rfl (by cases φ <;> rfl)
  | send msg => cases ch <;> cases hexec <;> exact aside rfl rfl (by cases φ <;> rfl)
  | ack id => cases ch <;> cases hexec <;> exact aside rfl rfl (by cases φ <;> rfl)
  | now => cases hexec; exact aside rfl rfl (by cases φ <;> rfl)
  | newV4 => cases hexec; exact aside rfl rfl (by cases φ <;> rfl)

end QaSys.Concurrent
