import QaSys.Data.Select
import QaSys.Service.App
import QaSys.Store.CallLaws
import Mathlib.Data.List.Dedup

/-! The two ways to look up votes: the text of their queries, and what they find. -/

namespace QaSys

def UserVoteEntity.tableName : String := "users_votes"

namespace UserVote

open Select

def genInPlaceholder (len : Nat) : String :=
  ",".intercalate ((List.range' 1 len).map fun i => s!"${i}")

def isVotedSql : String :=
  s!"select id from {UserVoteEntity.tableName} where target_id=$1 and created_by=$2" ++
    " and target_type=$3"

def isBatchVotedSql (lens : Nat) : String :=
  let hold := genInPlaceholder lens
  s!"select target_id from {UserVoteEntity.tableName} where target_id in ({hold})" ++
    s!" and target_type= ${lens + 1} and created_by=${lens + 2}"

/-- The values in the order in which they are bound. -/
def isVotedArgs (targetId : UInt64) (username targetType : String) : List Arg :=
  [.bigint targetId.asI64, .text username, .text targetType]

def isBatchVotedArgs (targetIds : List UInt64) (username targetType : String) : List Arg :=
  (targetIds.map fun i => .bigint i.asI64) ++ [.text targetType, .text username]

def idColumn : Column VoteRow := .bigint "id" (·.id)

def targetIdColumn : Column VoteRow := .bigint "target_id" (·.targetId)

def targetTypeColumn : Column VoteRow := .text "target_type" (·.targetType.val)

def createdByColumn : Column VoteRow := .text "created_by" (·.createdBy.val)

def columns : List (Column VoteRow) :=
  [idColumn, targetIdColumn, targetTypeColumn, createdByColumn]

theorem find_targetId : columns.find? (·.name = "target_id") = some targetIdColumn := rfl

theorem find_targetType : columns.find? (·.name = "target_type") = some targetTypeColumn := rfl

theorem find_createdBy : columns.find? (·.name = "created_by") = some createdByColumn := rfl

theorem toList_genInPlaceholder (len : Nat) : (genInPlaceholder len).toList =
    [','].intercalate ((List.range' 1 len).map placeholder) := by
  rw [genInPlaceholder, String.toList_intercalate, List.map_map]
  congr 1
  refine List.map_congr_left fun i _ => ?_
  change ("$" ++ i.repr).toList = _
  rw [String.toList_append, Nat.toList_repr]
  rfl

theorem toList_isBatchVotedSql (lens : Nat) : (isBatchVotedSql lens).toList =
    "select target_id from users_votes where target_id in ".toList ++ '(' ::
      ([','].intercalate ((List.range' 1 lens).map placeholder) ++ ')' ::
        (" and target_type=".toList ++ ' ' :: (placeholder (lens + 1) ++ ' ' ::
          ("and created_by".toList ++ '=' :: placeholder (lens + 2))))) := by
  change (("select target_id from " ++ "users_votes" ++ " where target_id in (" ++
    genInPlaceholder lens ++ ")") ++ (" and target_type= $" ++ (lens + 1).repr ++
    " and created_by=$" ++ (lens + 2).repr)).toList = _
  simp only [String.toList_append, toList_genInPlaceholder, Nat.toList_repr, List.append_assoc]
  rfl

theorem lex_isBatchVotedSql (lens : Nat) : lex (isBatchVotedSql lens) =
    [.word "select", .word "target_id", .word "from", .word "users_votes", .word "where",
      .word "target_id", .word "in", .lparen] ++ listed (List.range' 1 lens) ++ [.rparen,
      .word "and", .word "target_type", .eq, .param (lens + 1),
      .word "and", .word "created_by", .eq, .param (lens + 2)] := by
  have hselect : lexFrom [] "select target_id from users_votes where target_id in ".toList =
      [.word "select", .word "target_id", .word "from", .word "users_votes", .word "where",
        .word "target_id", .word "in"] := by decide +kernel
  have htype : lexFrom [] " and target_type=".toList = [.word "and", .word "target_type", .eq] := by
    decide +kernel
  have hby : lexFrom [] "and created_by".toList = [.word "and", .word "created_by"] := by
    decide +kernel
  rw [lex, toList_isBatchVotedSql, lexFrom_append (d := '(') rfl, lexFrom_append (d := ')') rfl,
    lex_placeholders, lexFrom_append (d := ' ') rfl, lexFrom_append (d := ' ') rfl,
    lex_placeholder, lexFrom_append (d := '=') rfl, lex_placeholder, hselect, htype, hby]
  simp only [List.append_assoc]
  rfl

def isVotedQuery : Query :=
  ⟨"id", UserVoteEntity.tableName, [.eq "target_id" 1, .eq "created_by" 2, .eq "target_type" 3]⟩

def isBatchVotedQuery (lens : Nat) : Query :=
  ⟨"target_id", UserVoteEntity.tableName, [.isIn "target_id" (List.range' 1 lens),
    .eq "target_type" (lens + 1), .eq "created_by" (lens + 2)]⟩

theorem parse_isVotedSql : parse (lex isVotedSql) = some isVotedQuery := by decide +kernel

theorem parse_isBatchVotedSql {lens : Nat} (hlens : lens ≠ 0) :
    parse (lex (isBatchVotedSql lens)) = some (isBatchVotedQuery lens) := by
  have hne : List.range' 1 lens ≠ [] := fun h => hlens (List.range'_eq_nil_iff.mp h)
  have hfree : ∀ l ∈ [
      Token.word "target_id" :: .word "in" :: .lparen ::
        (listed (List.range' 1 lens) ++ [.rparen]),
      [.word "target_type", .eq, .param (lens + 1)], [.word "created_by", .eq, .param (lens + 2)]],
      .word "and" ∉ l := by simp [not_mem_listed]
  have hsplit := List.splitOn_intercalate (Token.word "and") hfree (List.cons_ne_nil _ _)
  rw [lex_isBatchVotedSql]
  simp only [List.intercalate_cons_cons, List.intercalate_singleton, List.append_assoc,
    List.cons_append, List.nil_append] at hsplit
  simp only [List.cons_append, List.nil_append]
  change ((List.splitOn (.word "and") (_ :: _ :: _ :: (listed _ ++ _))).mapM parseCond).map _ = _
  rw [hsplit]
  simp only [List.mapM_cons, List.mapM_nil, parseCond, parseList_listed hne]
  rfl

section

variable {rows : List VoteRow} {targetId : UInt64} {targetIds : List UInt64}
  {username targetType : String}

theorem isVotedSql_selects : run columns (isVotedArgs targetId username targetType)
    UserVoteEntity.tableName isVotedSql rows =
      some ((rows.filter (VoteRow.matches targetId.asI64 targetType username)).map
        fun r => .bigint r.id) := by
  refine (run_of_parse (c := idColumn) parse_isVotedSql rfl rfl rfl rfl).trans ?_
  congr 2
  refine List.filter_congr fun r _ => ?_
  simp [VoteRow.matches, targetIdColumn, createdByColumn, targetTypeColumn, Column.value,
    Bool.and_assoc, Bool.and_comm (decide (r.createdBy.val = username))]

theorem operands_isBatchVoted (targetIds : List UInt64) (username targetType : String) :
    (List.range' 1 targetIds.length).mapM
        (operand (isBatchVotedArgs targetIds username targetType) targetIdColumn) =
      some (targetIds.map fun i => .bigint i.asI64) ∧
    operand (isBatchVotedArgs targetIds username targetType) targetTypeColumn
      (targetIds.length + 1) = some (.text targetType) ∧
    operand (isBatchVotedArgs targetIds username targetType) createdByColumn
      (targetIds.length + 2) = some (.text username) := by
  rw [isBatchVotedArgs]
  generalize hids : targetIds.map (fun i => Arg.bigint i.asI64) = as
  have hlen : as.length = targetIds.length := by rw [← hids, List.length_map]
  refine ⟨?_, ?_, ?_⟩
  · rw [← hlen]
    refine operands_range' [] _ fun a ha => ?_
    rw [← hids] at ha
    obtain ⟨i, -, rfl⟩ := List.mem_map.mp ha
    rfl
  · rw [← hlen]
    exact operand_append rfl
  · have hsplit : as ++ [.text targetType, .text username] =
        (as ++ [.text targetType]) ++ [.text username] := by simp
    have hlast : targetIds.length + 2 = (as ++ [Arg.text targetType]).length + 1 := by
      rw [List.length_append, hlen]
      rfl
    rw [hsplit, hlast]
    exact operand_append rfl

theorem params_isBatchVotedQuery (lens : Nat) :
    (isBatchVotedQuery lens).params = List.range' 1 (lens + 2) := by
  rw [List.range'_concat, List.range'_concat]
  simp [isBatchVotedQuery, Query.params, Cond.params]
  omega

theorem isBatchVotedSql_selects (hne : targetIds ≠ []) :
    run columns (isBatchVotedArgs targetIds username targetType) UserVoteEntity.tableName
      (isBatchVotedSql targetIds.length) rows =
      some ((rows.filter fun r => (targetIds.map (·.asI64)).contains r.targetId &&
        r.targetType.val = targetType && r.createdBy.val = username).map
          fun r => .bigint r.targetId) := by
  have hlens : targetIds.length ≠ 0 := fun h => hne (List.length_eq_zero_iff.mp h)
  have hargs : (isBatchVotedArgs targetIds username targetType).length =
      (isBatchVotedQuery targetIds.length).params.foldl max 0 := by
    rw [params_isBatchVotedQuery, foldl_max_range', isBatchVotedArgs, List.length_append,
      List.length_map]
    rfl
  obtain ⟨hids, htype, hby⟩ := operands_isBatchVoted targetIds username targetType
  have htests : (isBatchVotedQuery targetIds.length).conds.mapM
      (Cond.test columns (isBatchVotedArgs targetIds username targetType)) =
      some [fun r => (targetIds.map fun i => .bigint i.asI64).contains (targetIdColumn.value r),
        fun r => decide (targetTypeColumn.value r = .text targetType),
        fun r => decide (createdByColumn.value r = .text username)] := by
    simp only [isBatchVotedQuery, List.mapM_cons, List.mapM_nil, test_isIn find_targetId hids,
      test_eq find_targetType htype, test_eq find_createdBy hby]
    rfl
  refine (run_of_parse (parse_isBatchVotedSql hlens) rfl find_targetId hargs htests).trans ?_
  congr 2
  refine List.filter_congr fun r _ => ?_
  simp [targetIdColumn, targetTypeColumn, createdByColumn, Column.value, Bool.and_assoc]

end

def HasVote (s : Store) (targetId : UInt64) (username targetType : String) : Prop :=
  ∃ r ∈ s.db.usersVotes, VoteRow.matches targetId.asI64 targetType username r = true

instance {s : Store} {targetId : UInt64} {username targetType : String} :
    Decidable (HasVote s targetId username targetType) :=
  inferInstanceAs (Decidable (∃ r ∈ s.db.usersVotes, _))

variable {s : Store} {allow : Choice → Prop} {targetId : UInt64} {username targetType : String}

theorem HasVote.storable (h : HasVote s targetId username targetType) :
    Storable targetType ∧ Storable username := by
  obtain ⟨r, -, hr⟩ := h
  simp only [VoteRow.matches, Bool.and_eq_true, decide_eq_true_eq] at hr
  obtain ⟨⟨-, rfl⟩, rfl⟩ := hr
  exact ⟨r.targetType.storable, r.createdBy.storable⟩

section

variable (htexts : ¬ (Storable targetType ∧ Storable username))

include htexts

theorem isVoted_refused : (isVoted targetId username targetType).Ensures Store.serve allow s
    fun r s' => s' = s ∧ ∃ e, r = .error e := by
  have hno : ¬ (Stmt.vote targetId.asI64 username targetType).Bindable := fun h =>
    htexts (storable_pair_iff.mp h)
  exact Prog.ensures_bind.mpr (ensures_refused hno fun e => ⟨rfl, e, rfl⟩)

theorem isBatchVoted_refused {targetIds : List UInt64} :
    (isBatchVoted targetIds username targetType).Ensures Store.serve allow s fun r s' =>
      s' = s ∧ ∀ voted, r = .ok voted → voted = [] := by
  rw [isBatchVoted]
  split
  next => exact ⟨rfl, fun voted h => (Except.ok.inj h).symm⟩
  next =>
    have hno : ¬ (Stmt.votesIn (targetIds.map UInt64.asI64) targetType username).Bindable :=
      fun h => htexts (storable_pair_iff.mp h)
    exact Prog.ensures_bind.mpr (ensures_refused hno fun e => ⟨rfl, nofun⟩)

end

variable (hq : s.pg.Quiet) (hallow : ∀ ch, allow ch → ¬ ch.Faulty) (htype : Storable targetType)
  (hu : Storable username)

include hq hallow htype hu

theorem isVoted_serves (targetId : UInt64) :
    (isVoted targetId username targetType).Ensures Store.serve allow s fun r s' =>
      s' = s ∧ r = .ok (decide (HasVote s targetId username targetType)) := by
  have hbind : (Stmt.vote targetId.asI64 username targetType).Bindable := storable_pair htype hu
  refine Prog.ensures_bind.mpr ((ensures_select hq hallow hbind rfl rfl).mono fun r s' hr => ?_)
  obtain ⟨rfl, rfl⟩ := hr
  refine ⟨rfl, congrArg _ ?_⟩
  rw [Option.isSome_map, Bool.eq_iff_iff, decide_eq_true_iff, List.find?_isSome]
  rfl

theorem isBatchVoted_serves (targetIds : List UInt64) :
    (isBatchVoted targetIds username targetType).Ensures Store.serve allow s fun r s' =>
      s' = s ∧ ∃ voted, r = .ok voted ∧
        ∀ id, id ∈ voted ↔ id ∈ targetIds ∧ HasVote s id username targetType := by
  rw [isBatchVoted]
  split
  next hnil =>
    rw [List.isEmpty_iff.mp hnil]
    exact ⟨rfl, [], rfl, fun id => iff_of_false List.not_mem_nil fun h =>
      absurd h.1 List.not_mem_nil⟩
  next =>
    have hbind : (Stmt.votesIn (targetIds.map (·.asI64)) targetType username).Bindable :=
      storable_pair htype hu
    refine Prog.ensures_bind.mpr ((ensures_select hq hallow hbind rfl rfl).mono fun r s' hr => ?_)
    obtain ⟨rfl, rfl⟩ := hr
    refine ⟨rfl, _, rfl, fun id => ?_⟩
    rw [List.mem_dedup, List.map_map, List.mem_map]
    constructor
    · rintro ⟨r, hr, rfl⟩
      obtain ⟨hr, hmatch⟩ := List.mem_filter.mp hr
      simp only [Bool.and_eq_true, decide_eq_true_eq, List.contains_iff_mem, List.mem_map] at hmatch
      obtain ⟨⟨⟨i, hi, htarget⟩, htype⟩, hby⟩ := hmatch
      have hid : r.targetId.asU64 = i := by rw [← htarget, Int.asU64_asI64]
      change r.targetId.asU64 ∈ targetIds ∧ HasVote s' r.targetId.asU64 username targetType
      rw [hid]
      exact ⟨hi, r, hr, by simp [VoteRow.matches, htarget, htype, hby]⟩
    · rintro ⟨hi, r, hr, hmatch⟩
      simp only [VoteRow.matches, Bool.and_eq_true, decide_eq_true_eq] at hmatch
      obtain ⟨⟨htarget, htype⟩, hby⟩ := hmatch
      have hmem : r.targetId ∈ targetIds.map (·.asI64) := htarget ▸ List.mem_map_of_mem hi
      refine ⟨r, List.mem_filter.mpr ⟨hr, by simp [hmem, htype, hby]⟩, ?_⟩
      change r.targetId.asU64 = id
      rw [htarget, Int.asU64_asI64]

end UserVote

end QaSys
