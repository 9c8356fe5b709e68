import QaSys.Content.Effect

/-! What a reply to an update or a deletion says about the row it is for. -/

namespace QaSys

/-- The calls that change or delete a stored row and reply with a state. -/
inductive Edit
  | deleteQuestion (req : Pb.DeleteRequest)
  | updateQuestion (req : Pb.UpdateQuestionRequest)
  | deleteAnswer (req : Pb.DeleteRequest)
  | updateAnswer (req : Pb.UpdateAnswerRequest)

namespace Edit

def serve : Edit → Svc (App.Reply Pb.StateResponse)
  | .deleteQuestion req => App.deleteQuestion req
  | .updateQuestion req => App.updateQuestion req
  | .deleteAnswer req => App.deleteAnswer req
  | .updateAnswer req => App.updateAnswer req

def rpc : Edit → Rpc
  | .deleteQuestion req => .deleteQuestion req
  | .updateQuestion req => .updateQuestion req
  | .deleteAnswer req => .deleteAnswer req
  | .updateAnswer req => .updateAnswer req

/-- The row the call is for is stored, with the id clients know it by. -/
def Matches (s : Store) : Edit → Prop
  | .deleteQuestion req =>
    ∃ r ∈ s.db.questions, r.id.asU64 = req.id ∧ r.createdBy.val = req.username
  | .updateQuestion req => ∃ r ∈ s.db.questions, r.id.asU64 = req.id
  | .deleteAnswer req => ∃ r ∈ s.db.answers, r.id.asU64 = req.id ∧ r.createdBy.val = req.username
  | .updateAnswer req => ∃ r ∈ s.db.answers, r.id.asU64 = req.id

def Done (s : Store) : Edit → Prop
  | .deleteQuestion req => ∀ r ∈ s.db.questions, r.id.asU64 ≠ req.id
  | .updateQuestion req =>
    ∃ r ∈ s.db.questions, r.id.asU64 = req.id ∧ r.content = req.content ∧
      r.updatedBy.val = req.updateBy
  | .deleteAnswer req => ∀ r ∈ s.db.answers, r.id.asU64 ≠ req.id
  | .updateAnswer req =>
    ∃ r ∈ s.db.answers, r.id.asU64 = req.id ∧ r.content = req.content ∧
      r.updatedBy.val = req.username

/-- The name of the user who updates reaches its column unchanged or not at all. -/
def Signed : Edit → Prop
  | .updateQuestion req => Uncut 50 req.updateBy
  | .updateAnswer req => Uncut 50 req.username
  | _ => True

instance {s : Store} : DecidablePred (Matches s)
  | .deleteQuestion _ | .updateQuestion _ => inferInstanceAs (Decidable (∃ r ∈ s.db.questions, _))
  | .deleteAnswer _ | .updateAnswer _ => inferInstanceAs (Decidable (∃ r ∈ s.db.answers, _))

instance : DecidablePred Signed
  | .updateQuestion req => inferInstanceAs (Decidable (Uncut 50 req.updateBy))
  | .updateAnswer req => inferInstanceAs (Decidable (Uncut 50 req.username))
  | .deleteQuestion _ | .deleteAnswer _ => instDecidableTrue

/-- A call that says it succeeded did what it was for, and one for a missing row says it failed. -/
structure Honest (s : Store) (e : Edit) (r : Except Err (App.Reply Pb.StateResponse))
    (s' : Store) : Prop where
  done : r = .ok (.ok ⟨1⟩) → e.Matches s ∧ e.Done s'
  refused : ¬ e.Matches s → ∃ status, r = .ok (.error status)

variable {s s' : Store} {script : List Choice} {e : Edit}
  {r : Except Err (App.Reply Pb.StateResponse)}

section

open Prog

theorem ends_handled {p : Svc A} {f : Except Err A → Svc B} {w : World}
    (hf : ∀ r, ∃ b, f r = pure b) :
    (p.attempt >>= f).Ends World.exec w fun r _ => ∃ b, r = .ok b := by
  refine ends_bind.mpr (ends_attempt.mpr (Ends.mono (Q := fun _ _ => True) trivial fun r w _ => ?_))
  obtain ⟨b, hb⟩ := hf r
  change (f r).Ends World.exec w _
  rw [hb]
  exact ⟨b, rfl⟩

theorem serve_replies (e : Edit) (w : World) :
    (e.serve).Ends World.exec w fun r _ => ∃ reply, r = .ok reply := by
  cases e with
  | deleteQuestion req => exact ends_handled fun r => by cases r <;> exact ⟨_, rfl⟩
  | updateQuestion req => exact ends_handled fun r => by cases r <;> exact ⟨_, rfl⟩
  | deleteAnswer req => exact ends_handled fun r => by cases r <;> exact ⟨_, rfl⟩
  | updateAnswer req => exact ends_handled fun r => by cases r <;> exact ⟨_, rfl⟩

end

theorem honest_of_kept (hno : ¬ e.rpc.Accepted s script) (hres : ∀ res, r ≠ .ok (.ok res))
    (hreply : ∃ reply, r = .ok reply) :
    e.Honest s r s' ↔ (e.rpc.Accepted s script → e.Matches s ∧ e.Signed) := by
  obtain ⟨reply, rfl⟩ := hreply
  refine iff_of_true ⟨fun h => absurd h (hres _), fun _ => ?_⟩ fun hacc => absurd hacc hno
  cases reply with
  | error status => exact ⟨status, rfl⟩
  | ok res => exact absurd rfl (hres res)

theorem honest_of_accepted (hacc : e.rpc.Accepted s script)
    (hdone : e.Matches s → (e.Done s' ↔ e.Signed)) :
    e.Honest s (.ok (.ok ⟨1⟩)) s' ↔ (e.rpc.Accepted s script → e.Matches s ∧ e.Signed) := by
  constructor
  · intro h _
    obtain ⟨hmatch, hdid⟩ := h.done rfl
    exact ⟨hmatch, (hdone hmatch).mp hdid⟩
  · intro h
    obtain ⟨hmatch, hsigned⟩ := h hacc
    exact ⟨fun _ => ⟨hmatch, (hdone hmatch).mpr hsigned⟩, fun hno => absurd hmatch hno⟩

theorem honest_of_effect (e : Edit) {P : Except Err (App.Reply Pb.StateResponse) → Store → Prop}
    (he : (e.serve).Ends World.exec ⟨s, script⟩ fun r w => P r w.state)
    (hP : ∀ r s', P r s' → (∃ reply, r = .ok reply) →
      (e.Honest s r s' ↔ (e.rpc.Accepted s script → e.Matches s ∧ e.Signed))) :
    e.Honest s ((e.serve).run World.exec ⟨s, script⟩).1
        ((e.serve).run World.exec ⟨s, script⟩).2.state ↔
      (e.rpc.Accepted s script → e.Matches s ∧ e.Signed) :=
  hP _ _ he (serve_replies e _)

theorem asU64_eq_iff {ids : List Int} {last : Int} (h : Serial ids last) {i : Int} (hi : i ∈ ids)
    {id : UInt64} : i.asU64 = id ↔ i = id.asI64 := by
  obtain ⟨hpos, -, hmax⟩ := h.range i hi
  exact Int.asU64_eq_iff hpos.le hmax

section

variable {α : Type} {key : α → Int} {rows : List α} {last : Int} (h : Serial (rows.map key) last)
include h

theorem deleted {id : UInt64} {p : α → Bool} (hrow : ∃ r ∈ rows, (key r).asU64 = id ∧ p r = true) :
    ∀ r ∈ rows.filter fun r => !(key r = id.asI64 && p r), (key r).asU64 ≠ id := by
  obtain ⟨r₀, hr₀, hid₀, hp⟩ := hrow
  intro r hr hid
  obtain ⟨hr, hkeep⟩ := List.mem_filter.mp hr
  rw [asU64_eq_iff h (List.mem_map_of_mem hr)] at hid
  rw [asU64_eq_iff h (List.mem_map_of_mem hr₀)] at hid₀
  rw [List.inj_on_of_nodup_map h.nodup hr hr₀ (hid.trans hid₀.symm)] at hkeep
  simp [hid₀, hp] at hkeep

theorem updated {id : UInt64} {f : α → α} (hf : ∀ r, key (f r) = key r) {Q : α → Prop} {P : Prop}
    (hQ : ∀ r, Q (f r) ↔ P) (hrow : ∃ r ∈ rows, (key r).asU64 = id) :
    (∃ r ∈ rows.map fun r => if key r = id.asI64 then f r else r, (key r).asU64 = id ∧ Q r) ↔
      P := by
  constructor
  · rintro ⟨r, hr, hid, hq⟩
    obtain ⟨x, hx, rfl⟩ := List.mem_map.mp hr
    by_cases hkey : key x = id.asI64
    · rw [if_pos hkey] at hq
      exact (hQ x).mp hq
    · rw [if_neg hkey, asU64_eq_iff h (List.mem_map_of_mem hx)] at hid
      exact absurd hid hkey
  · intro hp
    obtain ⟨r, hr, hid⟩ := hrow
    have hkey := (asU64_eq_iff h (List.mem_map_of_mem hr)).mp hid
    exact ⟨f r, List.mem_map.mpr ⟨r, hr, if_pos hkey⟩, by rw [hf, hid], (hQ r).mpr hp⟩

end

theorem val_eq_iff {n : Nat} {u : String} {v : Varchar n} (h : Varchar.assign n u = some v) :
    v.val = u ↔ Uncut n u :=
  ⟨fun hv => .inl (hv ▸ v.fits), Varchar.val_of_assign h⟩

/-- Success replies mean success exactly where the statements PostgreSQL takes find the row they are
for and the name of who updates it is not cut. -/
theorem success_means_success (h : Content.Tables s) (e : Edit) (script : List Choice) :
    e.Honest s ((e.serve).run World.exec ⟨s, script⟩).1
        ((e.serve).run World.exec ⟨s, script⟩).2.state ↔
      (e.rpc.Accepted s script → e.Matches s ∧ e.Signed) := by
  cases e with
  | deleteQuestion req =>
    refine honest_of_effect (.deleteQuestion req) (Content.deleteQuestion_effect h req) fun r s' he hreply => ?_
    cases he with
    | kept _ hno hres => exact honest_of_kept hno (hres trivial) hreply
    | deleteQuestion hacc =>
      refine honest_of_accepted hacc fun ⟨r, hr, hid, hby⟩ => iff_of_true ?_ trivial
      exact deleted h.questions ⟨r, hr, hid, decide_eq_true hby⟩
  | updateQuestion req =>
    refine honest_of_effect (.updateQuestion req) (Content.updateQuestion_effect h req) fun r s' he hreply => ?_
    cases he with
    | kept _ hno hres => exact honest_of_kept hno (hres trivial) hreply
    | @updateQuestion _ title by' hacc _ hby =>
      refine honest_of_accepted hacc fun hrow => ?_
      exact updated h.questions (f := (Content.asked · title req.content by')) (fun _ => rfl)
        (fun _ => (and_iff_right rfl).trans (val_eq_iff hby)) hrow
  | deleteAnswer req =>
    refine honest_of_effect (.deleteAnswer req) (Content.deleteAnswer_effect h req) fun r s' he hreply => ?_
    cases he with
    | kept _ hno hres => exact honest_of_kept hno (hres trivial) hreply
    | deleteAnswer hacc =>
      refine honest_of_accepted hacc fun ⟨r, hr, hid, hby⟩ => iff_of_true ?_ trivial
      exact deleted h.answers ⟨r, hr, hid, decide_eq_true hby⟩
  | updateAnswer req =>
    refine honest_of_effect (.updateAnswer req) (Content.updateAnswer_effect h req) fun r s' he hreply => ?_
    cases he with
    | kept _ hno hres => exact honest_of_kept hno (hres trivial) hreply
    | @updateAnswer _ by' hacc hby =>
      refine honest_of_accepted hacc fun hrow => ?_
      exact updated h.answers (f := (Content.answered · req.content by' s.clock)) (fun _ => rfl)
        (fun _ => (and_iff_right rfl).trans (val_eq_iff hby)) hrow

def oneEach : Store :=
  { Store.empty 1 0 (fun _ => 0) with
    pg := ⟨{ Db.empty with
      questions := [⟨1, .ofString 300 "title", "content", .ofString 50 "alice", .empty 50, 0, none,
        0, 0⟩]
      answers := [⟨1, 1, "answer", .ofString 50 "bob", .empty 50, 0, none, 0⟩] }, 1, fun _ => none⟩
    seq := ⟨0, 1, 1, 0⟩ }

theorem oneEach_tables : Content.Tables oneEach :=
  ⟨fun _ => rfl, ⟨by decide, by decide, by decide⟩, ⟨by decide, by decide, by decide⟩⟩

/-- Carol, who wrote neither, updates the question; the row says so. -/
theorem success_means_success_update : Honest oneEach (.updateQuestion ⟨1, "title", "new", "carol"⟩)
    ((serve (.updateQuestion ⟨1, "title", "new", "carol"⟩)).run World.exec ⟨oneEach, []⟩).1
    ((serve (.updateQuestion ⟨1, "title", "new", "carol"⟩)).run World.exec ⟨oneEach, []⟩).2.state :=
  (success_means_success oneEach_tables _ []).mpr fun _ => by decide

/-- Carol is told that she deleted the question of alice. -/
theorem delete_of_other_succeeds : ¬ Honest oneEach (.deleteQuestion ⟨1, "carol"⟩)
    ((serve (.deleteQuestion ⟨1, "carol"⟩)).run World.exec ⟨oneEach, []⟩).1
    ((serve (.deleteQuestion ⟨1, "carol"⟩)).run World.exec ⟨oneEach, []⟩).2.state :=
  fun h => absurd (h.done (by decide +kernel)).1 (by decide)

end Edit

end QaSys
