import QaSys.Gateway.Identity

/-! The lengths of the stored titles and contents, which the gateway checks. -/

namespace QaSys.Gateway

open Prog Runs

structure Bounded (s : Store) : Prop where
  questions : ∀ r ∈ s.db.questions, (1 ≤ r.title.val.length ∧ r.title.val.length ≤ 512) ∧
    1 ≤ r.content.length ∧ r.content.length ≤ 4096
  answers : ∀ r ∈ s.db.answers, 1 ≤ r.content.length ∧ r.content.length ≤ 1024

/-- A stored question that PostgreSQL is told to change gets a title, and a content of the length
asked of a new one. -/
def Fitting (s : Store) (c : Rpc) (script : List Choice) : Prop :=
  c.Accepted s script → match c with
    | .updateQuestion req => (∃ r ∈ s.db.questions, r.id = req.id.asI64) →
      1 ≤ req.title.length ∧ 1 ≤ req.content.length ∧ req.content.length ≤ 4096
    | _ => True

variable (svc : QaServiceImpl)

def UpdatesFit (s : System) (e : Event) : Prop :=
  match executed svc s e with
  | some (c, script) => Fitting s.state.store c script
  | none => True

instance {s : Store} : (c : Rpc) → {script : List Choice} → Decidable (Fitting s c script)
  | .addQuestion _, _ | .deleteQuestion _, _ | .updateQuestion _, _ | .addAnswer _, _
  | .deleteAnswer _, _ | .updateAnswer _, _ | .agreeAnswer _, _ | .questionDetail _, _
  | .latestQuestion _, _ | .answerList _, _ | .answerDetail _, _ | .answerAgree _, _
  | .userLogin _, _ | .userLogout _, _ | .userRegister _, _ | .verifyToken _, _ =>
    instDecidableForall

instance (s : System) (e : Event) : Decidable (UpdatesFit svc s e) := by
  unfold UpdatesFit
  split <;> infer_instance

theorem bounded_iff {s : Store} : Bounded s ↔
    (∀ r ∈ s.db.questions, (1 ≤ r.title.val.length ∧ r.title.val.length ≤ 512) ∧
      1 ≤ r.content.length ∧ r.content.length ≤ 4096) ∧
    ∀ r ∈ s.db.answers, 1 ≤ r.content.length ∧ r.content.length ≤ 1024 :=
  ⟨fun h => ⟨h.questions, h.answers⟩, fun h => ⟨h.1, h.2⟩⟩

instance : DecidablePred Bounded := fun _ => decidable_of_iff _ bounded_iff.symm

variable {svc} {x : Formats} {s s' : Store} {script : List Choice}

theorem one_le_assign {n : Nat} {text : String} {v : Varchar n} (h : Varchar.assign n text = some v)
    (hn : 1 ≤ n) : 1 ≤ v.val.length ↔ 1 ≤ text.length := by
  have hs := Varchar.storable_of_assign h
  rw [Varchar.assign, dif_pos hs] at h
  split at h
  next => cases h; rfl
  next hlong =>
    split at h
    next =>
      cases h
      have hlen : (text.toList.take n).length = n := by
        rw [List.length_take, String.length_toList]
        omega
      rw [String.length_ofList, hlen]
      omega
    next => cases h

namespace Bounded

theorem empty {size : Nat} {clock : Int} {supply : Nat → Uuid} :
    Bounded (Store.empty size clock supply) := ⟨nofun, nofun⟩

theorem of_texts (h : Bounded s)
    (hq : ∀ r' ∈ s'.db.questions, ∃ r ∈ s.db.questions, r'.title = r.title ∧ r'.content = r.content)
    (ha : ∀ r' ∈ s'.db.answers, ∃ r ∈ s.db.answers, r'.content = r.content) : Bounded s' := by
  refine ⟨fun r' hr' => ?_, fun r' hr' => ?_⟩
  · obtain ⟨r, hr, htitle, hcontent⟩ := hq r' hr'
    rw [htitle, hcontent]
    exact h.questions r hr
  · obtain ⟨r, hr, hcontent⟩ := ha r' hr'
    rw [hcontent]
    exact h.answers r hr

theorem of_subset (h : Bounded s) (hq : s'.db.questions ⊆ s.db.questions)
    (ha : s'.db.answers ⊆ s.db.answers) : Bounded s' :=
  ⟨fun r hr => h.questions r (hq hr), fun r hr => h.answers r (ha hr)⟩

theorem effect (h : Bounded s) {c : Rpc} (hc : Checked c) {r : Except Err (App.Reply c.Reply)}
    (he : Content.Effect s script c r s') : Bounded s' ↔ Fitting s c script := by
  cases he with
  | kept hk hno =>
    refine iff_of_true (h.of_subset ?_ ?_) fun hacc => absurd hacc hno
    · rw [hk.questions]
      exact List.Subset.refl _
    · rw [hk.answers]
      exact List.Subset.refl _
  | @addQuestion req row _ htitle hcontent =>
    refine iff_of_true ⟨fun r hr => ?_, h.answers⟩ fun _ => trivial
    rcases List.mem_append.mp hr with hr | hr
    · exact h.questions r hr
    · rw [List.mem_singleton.mp hr, hcontent]
      exact ⟨⟨(one_le_assign htitle (by decide)).mpr hc.1.1, row.title.fits.trans (by decide)⟩, hc.2⟩
  | deleteQuestion =>
    exact iff_of_true (h.of_subset List.filter_sublist.subset (List.Subset.refl _)) fun _ => trivial
  | @updateQuestion req title by' hacc htitle =>
    constructor
    · rintro hb - ⟨r, hr, hid⟩
      have hb := hb.questions (Content.asked r title req.content by')
        (List.mem_map.mpr ⟨r, hr, if_pos hid⟩)
      exact ⟨(one_le_assign htitle (by decide)).mp hb.1.1, hb.2⟩
    · refine fun hfit => ⟨fun r hr => ?_, h.answers⟩
      obtain ⟨r', hr', rfl⟩ := List.mem_map.mp hr
      by_cases hid : r'.id = req.id.asI64
      · obtain ⟨htext, hcontent⟩ := hfit hacc ⟨r', hr', hid⟩
        rw [if_pos hid]
        exact ⟨⟨(one_le_assign htitle (by decide)).mpr htext, title.fits.trans (by decide)⟩, hcontent⟩
      · rw [if_neg hid]
        exact h.questions r' hr'
  | @addAnswer a row _ _ hcontent =>
    refine iff_of_true ⟨h.questions, fun r hr => ?_⟩ fun _ => trivial
    rcases List.mem_append.mp hr with hr | hr
    · exact h.answers r hr
    · rw [List.mem_singleton.mp hr, hcontent]
      exact hc a rfl
  | deleteAnswer =>
    exact iff_of_true (h.of_subset (List.Subset.refl _) List.filter_sublist.subset) fun _ => trivial
  | @updateAnswer req by' =>
    refine iff_of_true ⟨h.questions, fun r hr => ?_⟩ fun _ => trivial
    obtain ⟨r', hr', rfl⟩ := List.mem_map.mp hr
    by_cases hid : r'.id = req.id.asI64
    · rw [if_pos hid]
      exact hc
    · rw [if_neg hid]
      exact h.answers r' hr'

theorem ballot (h : Bounded s) {msg : UserVote.Delivery} (hb : Content.Ballot s script msg s') :
    Bounded s' := by
  have voted {rows : List VoteRow} {a row : AnswerRow} (ha : a ∈ s.db.answers)
      (htext : row.content = a.content) (hdb : s'.db = { s.db with
        usersVotes := rows, answers := replaceBy AnswerRow.id row s.db.answers }) : Bounded s' := by
    refine h.of_texts (fun r hr => ⟨r, by rwa [hdb] at hr, rfl, rfl⟩) fun r hr => ?_
    rw [hdb] at hr
    rcases mem_replaceBy.mp hr with ⟨-, -, -, rfl⟩ | ⟨hr, -⟩
    · exact ⟨a, ha, htext⟩
    · exact ⟨r, hr, rfl⟩
  cases hb with
  | kept hk =>
    refine h.of_subset ?_ ?_
    · rw [hk.questions]
      exact List.Subset.refl _
    · rw [hk.answers]
      exact List.Subset.refl _
  | up _ _ ha _ _ hdb => exact voted ha (by rfl) hdb
  | down _ ha _ _ hdb => exact voted ha (by rfl) hdb

end Bounded

structure Stored (x : Formats) (s : System) : Prop where
  tables : Content.Tables s.state.store
  traced : ∀ e ∈ s.exchanges, Server.Traced (app x) (fun _ => True) e

theorem Stored.next {s : System} (h : Stored x s) (e : Event) : Stored x (next svc x s e) :=
  ⟨tables_next h.tables e, Server.traced_step h.traced e fun _ _ _ _ _ _ _ _ _ => trivial⟩

theorem bounded_next {s : System} (h : Stored x s) (hb : Bounded s.state.store) {e : Event}
    (hd : ¬ Direct e) : Bounded (next svc x s e).state.store ↔ UpdatesFit svc s e := by
  have hback := next_backed svc x s e
  generalize (next svc x s e).state = b at hback
  unfold UpdatesFit
  cases hback with
  | same hno =>
    rw [hno]
    exact iff_of_true hb trivial
  | @called c script hex =>
    rw [hex, Backend.call_store]
    refine hb.effect ?_ (Content.rpc_effect h.tables c)
    cases e with
    | arrive request => cases hex
    | call i fate => exact executed_checked h.traced hex
    | other ev =>
      cases ev with
      | rpc c script => exact absurd trivial hd
      | tick seconds => cases hex
      | vote msg script => cases hex
  | @aside ev he hno =>
    subst he
    rw [hno, Backend.store_next]
    cases ev with
    | tick seconds => exact iff_of_true ⟨hb.questions, hb.answers⟩ trivial
    | rpc c script => exact absurd trivial hd
    | vote msg script => exact iff_of_true (hb.ballot (Content.vote_effect h.tables.quiet msg)) trivial

/-- Every stored title and content keeps to the lengths asked of new ones exactly in the runs in
which no stored question is given an empty title, or a content that is empty or too long. -/
theorem content_bounds {b : Backend} (ht : Content.Tables b.store) (hb : Bounded b.store)
    {evs : List Event} (hd : ∀ e ∈ evs, ¬ Direct e) :
    Always (next svc x) (fun s e => Bounded (next svc x s e).state.store) (start b) evs ↔
      Always (next svc x) (UpdatesFit svc) (start b) evs :=
  always_congr_of (I := Stored x) (Q := fun s => Bounded s.state.store) (A := fun e => ¬ Direct e)
    (fun _ e h _ => h.next e) (fun _ _ _ _ _ hb => hb) (fun _ _ h ha hb => bounded_next h hb ha)
    ⟨ht, fun _ h => absurd h List.not_mem_nil⟩ hb hd

theorem content_bounds_edited : Always (next Gateway.svc formats)
    (fun s e => Bounded (next Gateway.svc formats s e).state.store) (start origin) edited :=
  (content_bounds .empty .empty (by decide)).mpr (by decide +kernel)

/-- The author of a question takes away its title and its content. -/
theorem update_unchecked : ¬ Always (next Gateway.svc formats)
    (fun s e => Bounded (next Gateway.svc formats s e).state.store) (start origin)
    (asking ++ through 3 (update (token 0) 1)) := by
  decide +kernel

end QaSys.Gateway
