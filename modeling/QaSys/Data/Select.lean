import QaSys.Data.Decimal

/-! `select` statements with numbered parameters: how their text is read, and the rows they select
under the values bound to the parameters. -/

namespace QaSys.Select

inductive Token
  | word (w : String) | param (k : Nat) | comma | lparen | rparen | eq
  deriving DecidableEq

/-- `$` with digits is a parameter. -/
def ofWord : List Char → List Token
  | [] => []
  | c :: cs =>
    if c = '$' ∧ cs ≠ [] ∧ cs.all Char.isDigit then [.param (Nat.ofDigitChars 10 cs 0)]
    else [.word (String.ofList (c :: cs))]

def delimiter (c : Char) : Option (List Token) :=
  if c = ' ' then some []
  else if c = ',' then some [.comma]
  else if c = '(' then some [.lparen]
  else if c = ')' then some [.rparen]
  else if c = '=' then some [.eq]
  else none

def lexFrom : (w : List Char) → List Char → List Token
  | w, [] => ofWord w
  | w, c :: cs => match delimiter c with
    | some ts => ofWord w ++ ts ++ lexFrom [] cs
    | none => lexFrom (w ++ [c]) cs

def lex (text : String) : List Token := lexFrom [] text.toList

inductive Cond
  | eq (column : String) (k : Nat)
  | isIn (column : String) (ks : List Nat)
  deriving DecidableEq

structure Query where
  column : String
  table : String
  conds : List Cond
  deriving DecidableEq

def parseList : List Token → Option (List Nat)
  | [.param k, .rparen] => some [k]
  | .param k :: .comma :: ts => (parseList ts).map (k :: ·)
  | _ => none

def parseCond : List Token → Option Cond
  | [.word column, .eq, .param k] => some (.eq column k)
  | .word column :: .word "in" :: .lparen :: ts => (parseList ts).map (.isIn column)
  | _ => none

def parse : List Token → Option Query
  | .word "select" :: .word column :: .word "from" :: .word table :: .word "where" :: ts =>
    ((ts.splitOn (.word "and")).mapM parseCond).map (⟨column, table, ·⟩)
  | _ => none

def Cond.params : Cond → List Nat
  | .eq _ k => [k]
  | .isIn _ ks => ks

def Query.params (q : Query) : List Nat := q.conds.flatMap Cond.params

inductive Arg
  | bigint (i : Int) | text (s : String)
  deriving DecidableEq

inductive Column (α : Type)
  | bigint (name : String) (value : α → Int)
  | text (name : String) (value : α → String)

namespace Column

variable {α : Type}

def name : Column α → String
  | .bigint name _ | .text name _ => name

def value : Column α → α → Arg
  | .bigint _ value, r => .bigint (value r)
  | .text _ value, r => .text (value r)

/-- A value of another type cannot be compared with the column. -/
def Takes : Column α → Arg → Bool
  | .bigint .., .bigint _ | .text .., .text _ => true
  | _, _ => false

end Column

section

variable {α : Type} (columns : List (Column α)) (args : List Arg)

def bound (k : Nat) : Option Arg := if k = 0 then none else args[k - 1]?

def operand (c : Column α) (k : Nat) : Option Arg := (bound args k).filter c.Takes

def Cond.test : Cond → Option (α → Bool)
  | .eq column k => do
    let c ← columns.find? (·.name = column)
    let a ← operand args c k
    return fun r => c.value r = a
  | .isIn column ks => do
    let c ← columns.find? (·.name = column)
    let as ← ks.mapM (operand args c)
    return fun r => as.contains (c.value r)

/-- What a statement on the table `table` selects; `none` where PostgreSQL refuses it, also when it
has not as many parameters as values are bound. -/
def run (table : String) (text : String) (rows : List α) : Option (List Arg) := do
  let q ← parse (lex text)
  let c ← columns.find? (·.name = q.column)
  guard (q.table = table)
  guard (args.length = q.params.foldl max 0)
  let tests ← q.conds.mapM (Cond.test columns args)
  return (rows.filter fun r => tests.all (· r)).map c.value

end

/-! What stands in a text in place of the parameters. -/

def placeholder (k : Nat) : List Char := '$' :: Nat.toDigits 10 k

theorem lexFrom_append {d : Char} {ts : List Token} (hd : delimiter d = some ts)
    (w cs rest : List Char) :
    lexFrom w (cs ++ d :: rest) = lexFrom w cs ++ ts ++ lexFrom [] rest := by
  induction cs generalizing w with
  | nil => simp only [List.nil_append, lexFrom, hd]
  | cons c cs ih =>
    rw [List.cons_append, lexFrom, lexFrom]
    cases delimiter c with
    | some ts' => simp only [ih, List.append_assoc]
    | none => exact ih _

theorem lexFrom_word {cs : List Char} (h : ∀ c ∈ cs, delimiter c = none) (w : List Char) :
    lexFrom w cs = ofWord (w ++ cs) := by
  induction cs generalizing w with
  | nil => rw [lexFrom, List.append_nil]
  | cons c cs ih =>
    rw [lexFrom, h c List.mem_cons_self]
    dsimp only
    rw [ih (fun d hd => h d (List.mem_cons_of_mem _ hd)), List.append_assoc, List.singleton_append]

theorem delimiter_of_isDigit {c : Char} (h : c.isDigit) : delimiter c = none := by
  have hne {d : Char} (hd : d.isDigit = false) : c ≠ d := fun heq => by
    rw [heq, hd] at h
    cases h
  rw [delimiter, if_neg (hne rfl), if_neg (hne rfl), if_neg (hne rfl), if_neg (hne rfl),
    if_neg (hne rfl)]

theorem ofWord_placeholder (k : Nat) : ofWord (placeholder k) = [.param k] := by
  rw [placeholder, ofWord, if_pos ⟨rfl, Nat.toDigits_ne_nil, List.all_eq_true.mpr isDigit_toDigits⟩,
    Nat.ofDigitChars_ten_toDigits]

theorem lex_placeholder (k : Nat) : lexFrom [] (placeholder k) = [.param k] := by
  rw [lexFrom_word, List.nil_append, ofWord_placeholder]
  intro c hc
  rcases List.mem_cons.mp hc with rfl | hc
  · rfl
  · exact delimiter_of_isDigit (isDigit_toDigits c hc)

def listed (ks : List Nat) : List Token := (ks.map Token.param).intersperse .comma

theorem lex_placeholders (ks : List Nat) :
    lexFrom [] ([','].intercalate (ks.map placeholder)) = listed ks := by
  induction ks with
  | nil => rfl
  | cons k ks ih =>
    cases ks with
    | nil =>
      rw [List.map_singleton, List.intercalate_singleton, lex_placeholder]
      rfl
    | cons l ks =>
      rw [List.map_cons, List.map_cons, List.intercalate_cons_cons, List.append_assoc,
        List.singleton_append, lexFrom_append (d := ',') rfl, lex_placeholder, ← List.map_cons, ih]
      rfl

theorem parseList_listed {ks : List Nat} (hne : ks ≠ []) :
    parseList (listed ks ++ [.rparen]) = some ks := by
  induction ks with
  | nil => exact absurd rfl hne
  | cons k ks ih =>
    cases ks with
    | nil => rfl
    | cons l ks =>
      change (parseList (listed (l :: ks) ++ [.rparen])).map (k :: ·) = _
      rw [ih (List.cons_ne_nil _ _)]
      rfl

theorem not_mem_listed {ks : List Nat} {w : String} : .word w ∉ listed ks := by
  induction ks with
  | nil => exact List.not_mem_nil
  | cons k ks ih =>
    cases ks with
    | nil => simp [listed]
    | cons l ks =>
      change .word w ∉ .param k :: .comma :: listed (l :: ks)
      simp [ih]

section

variable {α : Type} {columns : List (Column α)} {args : List Arg} {c : Column α}

theorem test_eq {column : String} {k : Nat} {a : Arg}
    (hc : columns.find? (·.name = column) = some c) (ha : operand args c k = some a) :
    (Cond.eq column k).test columns args = some fun r => decide (c.value r = a) := by
  rw [Cond.test, hc]
  simp only [Option.bind_eq_bind, Option.bind_some, ha]
  rfl

theorem test_isIn {column : String} {ks : List Nat} {as : List Arg}
    (hc : columns.find? (·.name = column) = some c) (has : ks.mapM (operand args c) = some as) :
    (Cond.isIn column ks).test columns args = some fun r => as.contains (c.value r) := by
  rw [Cond.test, hc]
  simp only [Option.bind_eq_bind, Option.bind_some, has]
  rfl

theorem run_of_parse {table text : String} {q : Query} {tests : List (α → Bool)} {rows : List α}
    (hq : parse (lex text) = some q) (htable : q.table = table)
    (hc : columns.find? (·.name = q.column) = some c) (hlen : args.length = q.params.foldl max 0)
    (htests : q.conds.mapM (Cond.test columns args) = some tests) :
    run columns args table text rows =
      some ((rows.filter fun r => tests.all (· r)).map c.value) := by
  have hguard {P : Prop} [Decidable P] (h : P) : (guard P : Option Unit) = some () := if_pos h
  rw [run, hq, Option.bind_eq_bind, Option.bind_some, hc, Option.bind_eq_bind, Option.bind_some,
    hguard htable, hguard hlen, htests]
  rfl

theorem operand_append {before after : List Arg} {a : Arg} (ha : c.Takes a = true) :
    operand (before ++ a :: after) c (before.length + 1) = some a := by
  rw [operand, bound, if_neg (Nat.succ_ne_zero _), Nat.add_sub_cancel,
    List.getElem?_append_right le_rfl, Nat.sub_self]
  exact Option.filter_some_pos ha

theorem operands_range' (before : List Arg) {as : List Arg} (after : List Arg)
    (has : ∀ a ∈ as, c.Takes a = true) :
    (List.range' (before.length + 1) as.length).mapM (operand (before ++ (as ++ after)) c) =
      some as := by
  induction as generalizing before with
  | nil => rfl
  | cons a as ih =>
    have hfirst : operand (before ++ a :: (as ++ after)) c (before.length + 1) = some a :=
      operand_append (has a List.mem_cons_self)
    have hrest := ih (before ++ [a]) fun b hb => has b (List.mem_cons_of_mem _ hb)
    rw [List.length_append, List.length_singleton, List.append_assoc, List.singleton_append] at hrest
    rw [List.length_cons, List.range'_succ, List.mapM_cons, List.cons_append, hfirst]
    simp only [Option.bind_eq_bind, Option.bind_some, hrest]
    rfl

end

theorem foldl_max_range' (n : Nat) : (List.range' 1 n).foldl max 0 = n := by
  induction n with
  | zero => rfl
  | succ n ih =>
    rw [List.range'_concat, List.foldl_append, ih]
    simp only [List.foldl_cons, List.foldl_nil]
    omega

end QaSys.Select
