import QaSys.Concurrent.Interleavings
import QaSys.Auth.Plain

/-! The table of users under all interleavings: rows are added with new names, and stay. -/

namespace QaSys.Concurrent

open UserVote Transaction Sessions Prog Runs

variable {svc : QaServiceImpl} {x x' : Seen} {c : Option Call} {n : Nat} {m m' : Machine n}

structure Enrolled (users : List UserRow) (c : Option Call) (row : UserRow) : Prop where
  statement : ∃ username password openid, c = some (.sql (.insertUser username password openid
      row.createdAt)) ∧ Varchar.assign 50 username = some row.username ∧
    Varchar.assign 50 password = some row.password ∧ Varchar.assign 32 openid = some row.openid
  fresh : ∀ r ∈ users, r.username ≠ row.username

theorem Happens.users (hx : Happens x c x') : x'.db.users = x.db.users ∨
    ∃ row, Enrolled x.db.users c row ∧ x'.db.users = x.db.users ++ [row] := by
  cases hx with
  | nothing hseq => exact .inl rfl
  | @statement q a ws hq heval =>
    by_cases hplain : q.Plain
    · exact .inl (Db.users_foldl (hplain.writes heval) _)
    · cases q with
      | insertUser username password openid createdAt =>
        obtain ⟨id, -, heval⟩ := except_bind_eq_ok heval
        obtain ⟨name, hname, heval⟩ := except_bind_eq_ok heval
        obtain ⟨secret, hsecret, heval⟩ := except_bind_eq_ok heval
        obtain ⟨handle, hhandle, heval⟩ := except_bind_eq_ok heval
        split at heval
        · cases heval
        next hany =>
          cases heval
          refine .inr ⟨_, ⟨⟨username, password, openid, rfl, assign_eq_ok hname,
            assign_eq_ok hsecret, assign_eq_ok hhandle⟩, fun r hr hsame => hany ?_⟩, rfl⟩
          exact List.any_eq_true.mpr ⟨r, hr, decide_eq_true hsame⟩
      | _ => exact absurd trivial hplain
  | vote hv hnew hdrawn hone => exact .inl rfl
  | withdrawal hrow hm hone => exact .inl rfl

/-- The users of `m` are still there, and no name is there twice. -/
structure Enlisted (m m' : Machine n) : Prop where
  kept : m.state.db.users <+: m'.state.db.users
  distinct : (m'.state.db.users.map UserRow.username).Nodup

theorem Enlisted.happens (h : Enlisted m m') {m'' : Machine n}
    (hx : Happens (seen m') c (seen m'')) : Enlisted m m'' := by
  rcases hx.users with hsame | ⟨row, hrow, hadded⟩
  · have husers : m''.state.db.users = m'.state.db.users := hsame
    exact ⟨husers ▸ h.kept, husers ▸ h.distinct⟩
  · have husers : m''.state.db.users = m'.state.db.users ++ [row] := hadded
    refine ⟨husers ▸ h.kept.trans (List.prefix_append _ _), ?_⟩
    rw [husers, List.map_append, List.map_singleton]
    refine h.distinct.append (List.nodup_singleton _) (List.disjoint_singleton.mpr fun hmem => ?_)
    obtain ⟨r, hr, hname⟩ := List.mem_map.mp hmem
    exact hrow.fresh r hr hname

/-- However the sessions are interleaved, a user once registered stays with name, password and
handle, and no name is registered twice. -/
theorem interleaved_users (svc : QaServiceImpl) (n : Nat) (clock : Int) (supply : Nat → Uuid)
    (evs later : List (Event n)) :
    let m := after (next svc) (start n clock supply) evs
    Enlisted m (after (next svc) m later) := by
  intro m
  have run (m : Machine n) (hm : Sound m)
      (hdistinct : (m.state.db.users.map UserRow.username).Nodup)
      (es : List (Event n)) : Enlisted m (after (next svc) m es) :=
    ((always_of_forall (P := fun _ _ => True) (fun _ _ => trivial) _ es).invariant
      (I := fun m' => Sound m' ∧ Enlisted m m')
      (fun _ e h _ => ⟨(h.1.next svc e).1, h.2.happens (h.1.next svc e).2⟩)
      ⟨hm, List.prefix_refl _, hdistinct⟩).2
  exact run m (sound_after svc n clock supply evs)
    (run _ .start List.nodup_nil evs).distinct later

end QaSys.Concurrent
