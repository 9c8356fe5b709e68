import QaSys.Service.Light

/-! The texts that the statements write, and the limits of the columns they go to. -/

namespace QaSys

def Stmt.texts : Stmt → List (Nat × String)
  | .insertUser username password openid _ => [(50, username), (50, password), (32, openid)]
  | .insertQuestion title _ createdBy _ => [(300, title), (50, createdBy)]
  | .updateQuestion title _ _ updatedBy _ => [(300, title), (50, updatedBy)]
  | .insertAnswer _ _ createdBy _ => [(50, createdBy)]
  | .updateAnswer _ updatedBy _ _ => [(50, updatedBy)]
  | .insertVote _ targetType createdBy _ => [(50, targetType), (50, createdBy)]
  | _ => []

def tooLong (n : Nat) : String := s!"value too long for type character varying({n})"

/-- There are tables on which PostgreSQL refuses the statement because of the limit of a column. -/
def Stmt.Overlong (q : Stmt) : Prop := ∃ seq db n, q.eval seq db = .error (tooLong n)

/-- A statement writes no text that is longer than its column takes, and is not refused for one. -/
def Call.Fits : Call → Prop
  | .sql q | .tx q => (∀ t ∈ q.texts, t.2.length ≤ t.1) ∧ ¬ q.Overlong
  | _ => True

variable {seq : Seq} {db : Db} {q : Stmt} {n m : Nat} {s msg : String}

theorem head_tooLong (n : Nat) : (tooLong n).toList.head? = some 'v' := by
  have hhead : "value too long for type character varying(".toList.head? = some 'v' := by simp
  have htext : tooLong n = "value too long for type character varying(" ++ n.repr ++ ")" := rfl
  rw [htext, String.toList_append, String.toList_append, List.head?_append, List.head?_append,
    hhead]
  rfl

theorem tooLong_ne (h : msg.toList.head? ≠ some 'v') : tooLong n ≠ msg := by
  rintro rfl
  exact h (head_tooLong n)

theorem assign_bind {f : Varchar n → Except String α}
    (h : (assign n s >>= f) = .error (tooLong m)) :
    n < s.length ∨ ∃ v, f v = .error (tooLong m) := by
  unfold assign at h
  split at h
  next v hv => exact .inr ⟨v, h⟩
  next hv =>
    refine .inl (not_le.mp fun hle => ?_)
    by_cases hs : Storable s
    · rw [Varchar.assign_of_le hs hle] at hv
      cases hv
    · have hmsg : invalidText = tooLong m := by
        rw [if_neg hs] at h
        exact Except.error.inj h
      exact tooLong_ne (by simp [invalidText]) hmsg.symm

theorem nextval_bind {last : Int} {f : Int → Except String α}
    (h : (nextval last >>= f) = .error (tooLong n)) : ∃ id, f id = .error (tooLong n) := by
  unfold nextval at h
  split at h
  · exact ⟨_, h⟩
  · exact absurd (Except.error.inj h).symm (tooLong_ne (by simp))

theorem window_bind {limit offset : Int} {rows : List α} {f : List α → Except String β}
    (h : (window limit offset rows >>= f) = .error (tooLong n)) : ∃ r, f r = .error (tooLong n) := by
  unfold window at h
  split at h
  · exact absurd (Except.error.inj h).symm (tooLong_ne (by simp))
  split at h
  · exact absurd (Except.error.inj h).symm (tooLong_ne (by simp))
  · exact ⟨_, h⟩

theorem texts_of_tooLong (h : q.eval seq db = .error (tooLong n)) :
    ∃ t ∈ q.texts, t.1 < t.2.length := by
  cases q with
  | insertUser username password openid createdAt =>
    obtain ⟨id, h⟩ := nextval_bind h
    rcases assign_bind h with hlong | ⟨username', h⟩
    · exact ⟨(50, username), by simp [Stmt.texts], hlong⟩
    rcases assign_bind h with hlong | ⟨password', h⟩
    · exact ⟨(50, password), by simp [Stmt.texts], hlong⟩
    rcases assign_bind h with hlong | ⟨openid', h⟩
    · exact ⟨(32, openid), by simp [Stmt.texts], hlong⟩
    split at h
    · exact absurd (Except.error.inj h).symm (tooLong_ne (by simp))
    · cases h
  | insertQuestion title content createdBy createdAt =>
    obtain ⟨id, h⟩ := nextval_bind h
    rcases assign_bind h with hlong | ⟨title', h⟩
    · exact ⟨(300, title), by simp [Stmt.texts], hlong⟩
    rcases assign_bind h with hlong | ⟨createdBy', h⟩
    · exact ⟨(50, createdBy), by simp [Stmt.texts], hlong⟩
    · cases h
  | updateQuestion title content updatedAt updatedBy id =>
    rcases assign_bind h with hlong | ⟨title', h⟩
    · exact ⟨(300, title), by simp [Stmt.texts], hlong⟩
    rcases assign_bind h with hlong | ⟨updatedBy', h⟩
    · exact ⟨(50, updatedBy), by simp [Stmt.texts], hlong⟩
    · cases h
  | insertAnswer questionId content createdBy createdAt =>
    obtain ⟨id, h⟩ := nextval_bind h
    rcases assign_bind h with hlong | ⟨createdBy', h⟩
    · exact ⟨(50, createdBy), by simp [Stmt.texts], hlong⟩
    · cases h
  | updateAnswer content updatedBy updatedAt id =>
    rcases assign_bind h with hlong | ⟨updatedBy', h⟩
    · exact ⟨(50, updatedBy), by simp [Stmt.texts], hlong⟩
    · cases h
  | insertVote targetId targetType createdBy createdAt =>
    obtain ⟨id, h⟩ := nextval_bind h
    rcases assign_bind h with hlong | ⟨targetType', h⟩
    · exact ⟨(50, targetType), by simp [Stmt.texts], hlong⟩
    rcases assign_bind h with hlong | ⟨createdBy', h⟩
    · exact ⟨(50, createdBy), by simp [Stmt.texts], hlong⟩
    · cases h
  | latestQuestions limit =>
    obtain ⟨rows, h⟩ := window_bind h
    cases h
  | questionsBelow lastId limit =>
    obtain ⟨rows, h⟩ := window_bind h
    cases h
  | pageAnswers questionId limit offset =>
    obtain ⟨rows, h⟩ := window_bind h
    cases h
  | _ => cases h

theorem not_overlong (h : ∀ t ∈ q.texts, t.2.length ≤ t.1) : ¬ q.Overlong := by
  rintro ⟨seq, db, n, herr⟩
  obtain ⟨t, ht, hlong⟩ := texts_of_tooLong herr
  exact absurd (h t ht) (not_le.mpr hlong)

theorem Call.fits_sql : (Call.sql q).Fits ↔ ∀ t ∈ q.texts, t.2.length ≤ t.1 :=
  ⟨fun h => h.1, fun h => ⟨h, not_overlong h⟩⟩

theorem Call.Light.fits {c : Call} (h : c.Light) : c.Fits := by
  cases c with
  | sql q =>
    refine fits_sql.mpr fun t ht => ?_
    cases q with
    | insertUser username password openid createdAt => exact h.elim
    | insertQuestion title content createdBy createdAt => exact h.elim
    | updateQuestion title content updatedAt updatedBy id => exact h.elim
    | insertAnswer questionId content createdBy createdAt => exact h.elim
    | updateAnswer content updatedBy updatedAt id => exact h.elim
    | insertVote targetId targetType createdBy createdAt => exact h.elim
    | _ => cases ht
  | tx q => exact h.elim
  | _ => trivial

end QaSys
