import LightningServer.Foundation.SqlText

/-!
# The grammar of SQL statements

The statements with one table: a SELECT with at most one condition and one
column to sort by, an INSERT of one row, an UPDATE of one column.  `Sql` is
what such a statement says, `Sql.tokens` writes it down, and `statement` reads
it; what has been written is read as it was meant (`statement_tokens`).
-/

namespace LightningServer.Foundation.SqlText

open Lexer

/-! ## What a statement says -/

inductive Literal where
  | number (value : Int)
  | quoted (content : Text)
deriving DecidableEq

inductive Fields where
  /-- `COUNT(*)` -/
  | count
  | columns (first : Text) (others : List Text)
deriving DecidableEq

/-- `column = value` -/
structure Condition where
  column : Text
  value : Int
deriving DecidableEq

/-- `LIMIT count OFFSET offset` -/
structure Limit where
  count : Nat
  offset : Option Nat
deriving DecidableEq

structure Select where
  fields : Fields
  table : Text
  condition : Option Condition
  /-- the column of `ORDER BY … DESC` -/
  order : Option Text
  limit : Option Limit
deriving DecidableEq

inductive Expression where
  | constant (value : Int)
  | sum (column : Text) (value : Int)
deriving DecidableEq

inductive Sql where
  | select (query : Select)
  | insert (table : Text) (first : Text × Literal)
      (others : List (Text × Literal))
  | update (table column : Text) (value : Expression)
      (condition : Condition)
deriving DecidableEq

/-! ## Writing -/

def word (literal : String) : Token :=
  .word (text literal)

def Literal.tokens : Literal → List Token
  | .number value => numberTokens value
  | .quoted content => [.quoted content]

/-- Each of the others after a comma. -/
def othersTokens {Item : Type} (tokens : Item → List Token)
    (others : List Item) : List Token :=
  others.flatMap fun item => .sign ',' :: tokens item

def namesTokens (first : Text) (others : List Text) : List Token :=
  .word first :: othersTokens (fun name => [.word name]) others

def Fields.tokens : Fields → List Token
  | .count => [word "COUNT", .sign '(', .sign '*', .sign ')']
  | .columns first others => namesTokens first others

def Condition.tokens (condition : Condition) : List Token :=
  .word condition.column :: .sign '=' :: numberTokens condition.value

/-- A clause that may be left out. -/
def clauseTokens {Value : Type} (opening : String)
    (tokens : Value → List Token) : Option Value → List Token
  | none => []
  | some value => word opening :: tokens value

def orderTokens (column : Text) : List Token :=
  [word "BY", .word column, word "DESC"]

def Limit.tokens (limit : Limit) : List Token :=
  .number limit.count ::
    clauseTokens "OFFSET" (fun offset => [.number offset]) limit.offset

/-- A SELECT, up to its LIMIT. -/
def Select.body (query : Select) : List Token :=
  word "SELECT" :: (query.fields.tokens ++
    word "FROM" :: .word query.table ::
      (clauseTokens "WHERE" Condition.tokens query.condition ++
        clauseTokens "ORDER" orderTokens query.order))

def Select.tokens (query : Select) : List Token :=
  query.body ++ clauseTokens "LIMIT" Limit.tokens query.limit

def Expression.tokens : Expression → List Token
  | .constant value => numberTokens value
  | .sum column value => .word column :: .sign '+' :: numberTokens value

def Sql.tokens : Sql → List Token
  | .select query => query.tokens
  | .insert table first others =>
      word "INSERT" :: word "INTO" :: .word table :: .sign '(' ::
        (namesTokens first.1 (others.map Prod.fst) ++
          .sign ')' :: word "VALUES" :: .sign '(' ::
            (first.2.tokens ++
              (othersTokens Literal.tokens (others.map Prod.snd) ++
                [.sign ')'])))
  | .update table column value condition =>
      word "UPDATE" :: .word table :: word "SET" :: .word column ::
        .sign '=' ::
          (value.tokens ++ word "WHERE" :: condition.tokens)

/-! ## Reading -/

namespace Grammar

/-- What is read from the front of the tokens, and the tokens after it. -/
abbrev Reading (Value : Type) :=
  List Token → Option (Value × List Token)

def expect (expected : Token) : List Token → Option (List Token)
  | [] => none
  | first :: rest => if first = expected then some rest else none

def name : Reading Text
  | .word name :: rest => some (name, rest)
  | _ => none

def natural : Reading Nat
  | .number value :: rest => some (value, rest)
  | _ => none

def integer : Reading Int
  | .number value :: rest => some (value, rest)
  | .sign symbol :: .number value :: rest =>
      if symbol = '-' then some (-value, rest) else none
  | _ => none

def literal : Reading Literal
  | .quoted content :: rest => some (.quoted content, rest)
  | tokens =>
      (integer tokens).map fun (value, rest) => (.number value, rest)

def clause {Value : Type} (opening : String)
    (read : Reading Value) :
    Reading (Option Value)
  | [] => some (none, [])
  | first :: rest =>
      if first = word opening then
        (read rest).map fun (value, rest) => (some value, rest)
      else some (none, first :: rest)

def otherNames : Reading (List Text)
  | .sign symbol :: .word name :: rest =>
      if symbol = ',' then
        (otherNames rest).map fun (names, rest) => (name :: names, rest)
      else some ([], .sign symbol :: .word name :: rest)
  | tokens => some ([], tokens)

def names : Reading (Text × List Text) := fun tokens => do
  let (first, tokens) ← name tokens
  let (others, tokens) ← otherNames tokens
  return ((first, others), tokens)

def count (tokens : List Token) : Option (List Token) := do
  let tokens ← expect (word "COUNT") tokens
  let tokens ← expect (.sign '(') tokens
  let tokens ← expect (.sign '*') tokens
  expect (.sign ')') tokens

def fields : Reading Fields := fun tokens =>
  match count tokens with
  | some rest => some (.count, rest)
  | none =>
      (names tokens).map fun ((first, others), rest) =>
        (.columns first others, rest)

def condition : Reading Condition := fun tokens => do
  let (column, tokens) ← name tokens
  let tokens ← expect (.sign '=') tokens
  let (value, tokens) ← integer tokens
  return ({ column := column, value := value }, tokens)

def order : Reading Text := fun tokens => do
  let tokens ← expect (word "BY") tokens
  let (column, tokens) ← name tokens
  let tokens ← expect (word "DESC") tokens
  return (column, tokens)

def limit : Reading Limit := fun tokens => do
  let (count, tokens) ← natural tokens
  let (offset, tokens) ← clause "OFFSET" natural tokens
  return ({ count := count, offset := offset }, tokens)

def select : Reading Sql := fun tokens => do
  let tokens ← expect (word "SELECT") tokens
  let (fields, tokens) ← fields tokens
  let tokens ← expect (word "FROM") tokens
  let (table, tokens) ← name tokens
  let (condition, tokens) ← clause "WHERE" condition tokens
  let (order, tokens) ← clause "ORDER" order tokens
  let (limit, tokens) ← clause "LIMIT" limit tokens
  return (.select
    { fields := fields, table := table, condition := condition
      order := order, limit := limit }, tokens)

/-- A value for each of the columns. -/
def otherValues :
    List Text → Reading (List (Text × Literal))
  | [], tokens => some ([], tokens)
  | column :: columns, tokens => do
      let tokens ← expect (.sign ',') tokens
      let (value, tokens) ← literal tokens
      let (values, tokens) ← otherValues columns tokens
      return ((column, value) :: values, tokens)

def insert : Reading Sql := fun tokens => do
  let tokens ← expect (word "INSERT") tokens
  let tokens ← expect (word "INTO") tokens
  let (table, tokens) ← name tokens
  let tokens ← expect (.sign '(') tokens
  let ((first, others), tokens) ← names tokens
  let tokens ← expect (.sign ')') tokens
  let tokens ← expect (word "VALUES") tokens
  let tokens ← expect (.sign '(') tokens
  let (value, tokens) ← literal tokens
  let (values, tokens) ← otherValues others tokens
  let tokens ← expect (.sign ')') tokens
  return (.insert table (first, value) values, tokens)

def expression : Reading Expression
  | .word column :: tokens => do
      let tokens ← expect (.sign '+') tokens
      let (value, tokens) ← integer tokens
      return (.sum column value, tokens)
  | tokens =>
      (integer tokens).map fun (value, rest) => (.constant value, rest)

def update : Reading Sql := fun tokens => do
  let tokens ← expect (word "UPDATE") tokens
  let (table, tokens) ← name tokens
  let tokens ← expect (word "SET") tokens
  let (column, tokens) ← name tokens
  let tokens ← expect (.sign '=') tokens
  let (value, tokens) ← expression tokens
  let tokens ← expect (word "WHERE") tokens
  let (condition, tokens) ← condition tokens
  return (.update table column value condition, tokens)

/-- Nothing may follow a statement. -/
def whole : Option (Sql × List Token) → Option Sql
  | some (sql, []) => some sql
  | _ => none

def statement (tokens : List Token) : Option Sql :=
  whole (select tokens) <|> whole (insert tokens) <|>
    whole (update tokens)

/-! ## What has been written is read -/

@[simp]
theorem text_inj {left right : String} :
    text left = text right ↔ left = right :=
  String.toList_inj

@[simp]
theorem word_inj {left right : String} :
    word left = word right ↔ left = right := by
  simp [word]

@[simp]
theorem expect_cons (expected : Token) (rest : List Token) :
    expect expected (expected :: rest) = some rest :=
  if_pos rfl

@[simp]
theorem integer_numberTokens (value : Int) (rest : List Token) :
    integer (numberTokens value ++ rest) = some (value, rest) := by
  unfold numberTokens minusOf
  split
  · next negative =>
      have magnitude : -(value.natAbs : Int) = value := by omega
      show
        (if '-' = '-' then some (-(value.natAbs : Int), rest) else none) =
          some (value, rest)
      rw [if_pos rfl, magnitude]
  · next nonnegative =>
      have magnitude : (value.natAbs : Int) = value := by omega
      show some ((value.natAbs : Int), rest) = some (value, rest)
      rw [magnitude]

/-- A number begins with a sign or with its digits. -/
theorem numberTokens_ne
    {first : Token} (noSign : first ≠ .sign '-')
    (noNumber : ∀ magnitude, first ≠ .number magnitude)
    (value : Int) (rest more : List Token) :
    numberTokens value ++ rest ≠ first :: more := by
  unfold numberTokens minusOf
  split
  · intro same
    exact noSign (List.cons.inj same).1.symm
  · intro same
    exact noNumber _ (List.cons.inj same).1.symm

theorem literal_of_integer
    {tokens rest : List Token} {value : Int}
    (number : ∀ content more, tokens ≠ .quoted content :: more)
    (read : integer tokens = some (value, rest)) :
    literal tokens = some (.number value, rest) := by
  unfold literal
  split
  · next content more => exact absurd rfl (number content more)
  · rw [read]
    rfl

@[simp]
theorem literal_tokens (value : Literal) (rest : List Token) :
    literal (value.tokens ++ rest) = some (value, rest) := by
  cases value with
  | quoted content => rfl
  | number value =>
      refine literal_of_integer ?_ (integer_numberTokens value rest)
      exact fun content more =>
        numberTokens_ne (by simp) (by simp) value rest more

@[simp]
theorem expression_tokens (value : Expression) (rest : List Token) :
    expression (value.tokens ++ rest) = some (value, rest) := by
  cases value with
  | sum column value =>
      simp [Expression.tokens, expression]
  | constant value =>
      rw [Expression.tokens]
      unfold expression
      split
      · next column more shape =>
          exact absurd shape
            (numberTokens_ne (by simp) (by simp) value rest more)
      · rw [integer_numberTokens]
        rfl

/-- The clause is there, and read by its own reading. -/
theorem clause_some
    {Value : Type} {opening : String}
    {read : Reading Value}
    {tokens rest : List Token} {value : Value}
    (clear : read tokens = some (value, rest)) :
    clause opening read (word opening :: tokens) =
      some (some value, rest) := by
  rw [clause, if_pos rfl, clear]
  rfl

/-- The next token, if there is one, does not open the clause. -/
theorem clause_none
    {Value : Type} {opening : String}
    {read : Reading Value} {tokens : List Token}
    (closed : tokens.head? ≠ some (word opening)) :
    clause opening read tokens = some (none, tokens) := by
  cases tokens with
  | nil => rfl
  | cons first rest =>
      have different : first ≠ word opening := by
        rintro rfl
        exact closed rfl
      exact if_neg different

/-- A clause that may be left out, before what does not open it. -/
theorem clause_tokens
    {Value : Type} {opening : String}
    {read : Reading Value} {tokens : Value → List Token}
    {rest : List Token}
    (clear : ∀ value, read (tokens value ++ rest) = some (value, rest))
    (closed : rest.head? ≠ some (word opening)) (value : Option Value) :
    clause opening read (clauseTokens opening tokens value ++ rest) =
      some (value, rest) := by
  cases value with
  | none => exact clause_none closed
  | some value => exact clause_some (clear value)

theorem otherNames_tokens
    {rest : List Token} (closed : rest.head? ≠ some (.sign ','))
    (others : List Text) :
    otherNames
        (othersTokens (fun name => [.word name]) others ++ rest) =
      some (others, rest) := by
  induction others with
  | nil =>
      unfold othersTokens
      rw [List.flatMap_nil, List.nil_append]
      unfold otherNames
      split
      · next symbol name later =>
          have different : symbol ≠ ',' := by
            rintro rfl
            exact closed rfl
          rw [if_neg different]
      · rfl
  | cons name others induction =>
      rw [othersTokens] at induction
      rw [othersTokens, List.flatMap_cons, List.append_assoc,
        List.cons_append, List.cons_append, List.nil_append, otherNames,
        if_pos rfl, induction]
      rfl

theorem names_tokens
    {rest : List Token} (closed : rest.head? ≠ some (.sign ','))
    (first : Text) (others : List Text) :
    names (namesTokens first others ++ rest) =
      some ((first, others), rest) := by
  rw [namesTokens, List.cons_append, names]
  simp only [name, Option.bind_eq_bind, Option.bind_some,
    otherNames_tokens closed]
  rfl

theorem otherValues_tokens
    (others : List (Text × Literal)) (rest : List Token) :
    otherValues (others.map Prod.fst)
        (othersTokens Literal.tokens (others.map Prod.snd) ++ rest) =
      some (others, rest) := by
  induction others with
  | nil => rfl
  | cons other others induction =>
      rw [othersTokens] at induction
      simp only [othersTokens, List.map_cons, List.flatMap_cons,
        List.append_assoc, List.cons_append, otherValues, expect_cons,
        literal_tokens, induction, Option.bind_eq_bind,
        Option.bind_some]
      rfl

/-- The fields, before what is no comma and no bracket. -/
theorem fields_tokens (fields : Fields) (rest : List Token) :
    Grammar.fields (fields.tokens ++ word "FROM" :: rest) =
      some (fields, word "FROM" :: rest) := by
  cases fields with
  | count => simp [Grammar.fields, Fields.tokens, count]
  | columns first others =>
      have noComma :
          (word "FROM" :: rest).head? ≠ some (.sign ',') := by
        simp [word]
      have noCount :
          count (namesTokens first others ++ word "FROM" :: rest) =
            none := by
        by_cases named : Token.word first = word "COUNT"
        · cases others with
          | nil =>
              simp [count, namesTokens, named, othersTokens, expect, word]
          | cons other others =>
              simp [count, namesTokens, named, othersTokens, expect]
        · simp [count, namesTokens, expect, named]
      rw [Grammar.fields, Fields.tokens, noCount,
        names_tokens noComma first others]
      rfl

@[simp]
theorem condition_tokens (value : Condition) (rest : List Token) :
    condition (value.tokens ++ rest) = some (value, rest) := by
  simp [Condition.tokens, condition, name]

theorem order_tokens (column : Text) (rest : List Token) :
    order (orderTokens column ++ rest) = some (column, rest) := by
  simp [orderTokens, order, name]

theorem limit_tokens (value : Limit) (rest : List Token)
    (closed : rest.head? ≠ some (word "OFFSET")) :
    limit (value.tokens ++ rest) = some (value, rest) := by
  have read :
      clause "OFFSET" natural
          (clauseTokens "OFFSET" (fun offset => [.number offset])
              value.offset ++ rest) =
        some (value.offset, rest) :=
    clause_tokens (fun _ => rfl) closed value.offset
  simp [Limit.tokens, limit, natural, read]

/-- A written clause opens with its keyword. -/
theorem head_clauseTokens
    {Value : Type} {opening other : String}
    {tokens : Value → List Token} {rest : List Token}
    (different : opening ≠ other)
    (closed : rest.head? ≠ some (word other)) (value : Option Value) :
    (clauseTokens opening tokens value ++ rest).head? ≠
      some (word other) := by
  cases value with
  | none => exact closed
  | some value => simp [clauseTokens, different]

/-- A SELECT is read up to its LIMIT, whatever follows that. -/
theorem select_body
    (query : Select) {tail : List Token}
    (noWhere : tail.head? ≠ some (word "WHERE"))
    (noOrder : tail.head? ≠ some (word "ORDER")) :
    select (query.body ++ tail) =
      (clause "LIMIT" limit tail).map fun (limit, rest) =>
        (.select { query with limit := limit }, rest) := by
  have ordered :
      clause "ORDER" order
          (clauseTokens "ORDER" orderTokens query.order ++ tail) =
        some (query.order, tail) :=
    clause_tokens (fun column => order_tokens column tail) noOrder
      query.order
  have closed :
      (clauseTokens "ORDER" orderTokens query.order ++ tail).head? ≠
        some (word "WHERE") :=
    head_clauseTokens (by decide) noWhere query.order
  have filtered :=
    clause_tokens (fun value => condition_tokens value _) closed
      query.condition
  simp only [Select.body, select, List.cons_append, List.append_assoc,
    expect_cons, fields_tokens, name, filtered, ordered,
    Option.bind_eq_bind, Option.bind_some]
  cases clause "LIMIT" limit tail with
  | none => rfl
  | some read => rfl

theorem select_tokens (query : Select) :
    select query.tokens = some (.select query, []) := by
  have limited :
      clause "LIMIT" limit
          (clauseTokens "LIMIT" Limit.tokens query.limit ++ []) =
        some (query.limit, []) :=
    clause_tokens (fun value => limit_tokens value [] (by simp)) (by simp)
      query.limit
  have opens {other : String} (different : "LIMIT" ≠ other) :
      (clauseTokens "LIMIT" Limit.tokens query.limit ++ []).head? ≠
        some (word other) :=
    head_clauseTokens different (by simp) query.limit
  simp only [List.append_nil] at limited opens
  rw [Select.tokens, select_body query (opens (by decide))
    (opens (by decide)), limited]
  rfl

/-- A statement is a SELECT if it begins as one. -/
theorem statement_select
    {tokens : List Token} (begins : tokens.head? = some (word "SELECT")) :
    statement tokens = whole (select tokens) := by
  rcases List.head?_eq_some_iff.mp begins with ⟨rest, rfl⟩
  have noInsert : insert (word "SELECT" :: rest) = none := by
    simp [insert, expect]
  have noUpdate : update (word "SELECT" :: rest) = none := by
    simp [update, expect]
  rw [statement, noInsert, noUpdate]
  cases whole (select (word "SELECT" :: rest)) with
  | none => rfl
  | some sql => rfl

/-- The reading of a SELECT depends on what its LIMIT says. -/
theorem statement_limit (query : Select) (more : List Token) :
    statement (query.body ++ word "LIMIT" :: more) =
      whole ((limit more).map fun (limit, rest) =>
        (.select { query with limit := some limit }, rest)) := by
  have closed {other : String} (different : "LIMIT" ≠ other) :
      (word "LIMIT" :: more).head? ≠ some (word other) := by
    simp [different]
  have read :=
    select_body query (closed (by decide)) (closed (by decide))
  have opened :
      clause "LIMIT" limit (word "LIMIT" :: more) =
        (limit more).map fun (value, rest) => (some value, rest) := by
    rw [clause, if_pos rfl]
  rw [statement_select rfl, read, opened, Option.map_map]
  rfl

theorem natural_numberTokens (value : Int) (rest : List Token) :
    natural (numberTokens value ++ rest) =
      if value < 0 then none else some (value.toNat, rest) := by
  by_cases negative : value < 0
  · simp [numberTokens, minusOf, negative, natural]
  · have magnitude : value.natAbs = value.toNat := by omega
    simp [numberTokens, minusOf, negative, natural, magnitude]

/-- A number that is written where a LIMIT stands. -/
theorem limit_numberTokens (count : Int) :
    limit (numberTokens count) =
      if count < 0 then none
      else some ({ count := count.toNat, offset := none }, []) := by
  have read := natural_numberTokens count []
  rw [List.append_nil] at read
  rw [limit, read]
  by_cases negative : count < 0
  · simp [negative]
  · simp [negative, clause]

theorem limit_offset (count offset : Int) :
    limit (numberTokens count ++ word "OFFSET" :: numberTokens offset) =
      if offset < 0 ∨ count < 0 then none
      else
        some
          ({ count := count.toNat, offset := some offset.toNat }, []) := by
  have read := natural_numberTokens offset []
  rw [List.append_nil] at read
  have opened :
      clause "OFFSET" natural (word "OFFSET" :: numberTokens offset) =
        (natural (numberTokens offset)).map fun (value, rest) =>
          (some value, rest) := by
    rw [clause, if_pos rfl]
  rw [limit, natural_numberTokens]
  by_cases negative : count < 0
  · simp [negative]
  · by_cases below : offset < 0
    · simp [negative, below, opened, read]
    · simp [negative, below, opened, read]

theorem insert_tokens
    (table : Text) (first : Text × Literal)
    (others : List (Text × Literal)) :
    insert (Sql.insert table first others).tokens =
      some (.insert table first others, []) := by
  have named (rest : List Token) :
      names
          (namesTokens first.1 (others.map Prod.fst) ++
            .sign ')' :: rest) =
        some ((first.1, others.map Prod.fst), .sign ')' :: rest) :=
    names_tokens (by simp) first.1 (others.map Prod.fst)
  simp [Sql.tokens, insert, name, named, otherValues_tokens]

theorem update_tokens
    (table column : Text) (value : Expression) (filter : Condition) :
    update (Sql.update table column value filter).tokens =
      some (.update table column value filter, []) := by
  have filtered := condition_tokens filter []
  rw [List.append_nil] at filtered
  simp [Sql.tokens, update, name, filtered]

/-- Every statement that can be written is read as it was meant. -/
theorem statement_tokens (sql : Sql) :
    statement sql.tokens = some sql := by
  cases sql with
  | select query =>
      rw [statement_select rfl, Sql.tokens, select_tokens]
      rfl
  | insert table first others =>
      have noSelect :
          select (Sql.insert table first others).tokens = none := by
        simp [Sql.tokens, select, expect]
      rw [statement, noSelect, insert_tokens]
      rfl
  | update table column value filter =>
      have noSelect :
          select (Sql.update table column value filter).tokens = none := by
        simp [Sql.tokens, select, expect]
      have noInsert :
          insert (Sql.update table column value filter).tokens = none := by
        simp [Sql.tokens, insert, expect]
      rw [statement, noSelect, noInsert, update_tokens]
      rfl

end Grammar

/-- What a text says, if it is one statement. -/
def Sql.read (quoting : Quoting) (content : Text) : Option Sql :=
  (lex quoting content).bind Grammar.statement

end LightningServer.Foundation.SqlText
