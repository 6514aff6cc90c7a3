import LightningServer.Foundation.Json
import LightningServer.Foundation.Numerals

/-!
# The text of SQL statements

A server reads the text of a statement in two passes.  The lexer goes through
the symbols one by one: `Lexer.step` is what one symbol does, and a text that
is put together from pieces is read piece by piece (`Lexer.run_append`).  The
grammar then reads the tokens; it has the statements with one table, one
condition and one column to sort by.  What is outside of these is refused.

`Quoting` says how content stands between two quotes, so that it ends where it
was meant to end: `Lexer.run_escape`.
-/

namespace LightningServer.Foundation.SqlText

open LightningServer.Foundation.Numerals

/-! ## Quoted content -/

/-- The symbols that stand between quotes as a mark and a letter. -/
structure Quoting where
  quote : Char
  mark : Char
  letter : Char → Option Char
  /-- what a mark and a letter are read as -/
  decode : Char → Text
  quote_isCoded : letter quote ≠ none
  mark_isCoded : letter mark ≠ none
  decode_letter :
    ∀ symbol code, letter symbol = some code → decode code = [symbol]

namespace Quoting

variable (quoting : Quoting)

def escapeSymbol (symbol : Char) : Text :=
  match quoting.letter symbol with
  | some code => [quoting.mark, code]
  | none => [symbol]

def escape (raw : Text) : Text :=
  raw.flatMap quoting.escapeSymbol

/-- A coded symbol occurs only if it is a mark or a letter. -/
theorem notMem_escape
    {symbol : Char} (coded : quoting.letter symbol ≠ none)
    (notMark : symbol ≠ quoting.mark)
    (notLetter : ∀ other, quoting.letter other ≠ some symbol)
    (raw : Text) :
    symbol ∉ quoting.escape raw := by
  intro member
  rcases List.mem_flatMap.mp member with ⟨other, -, inCode⟩
  unfold escapeSymbol at inCode
  split at inCode
  · next code found =>
      rcases List.mem_cons.mp inCode with isMark | isLetter
      · exact notMark isMark
      · exact notLetter other (List.mem_singleton.mp isLetter ▸ found)
  · next uncoded =>
      rw [List.mem_singleton.mp inCode] at coded
      exact coded uncoded

end Quoting

/-! ## Tokens -/

inductive Token where
  | word (name : Text)
  | number (value : Nat)
  | quoted (content : Text)
  | sign (symbol : Char)
deriving DecidableEq

/-- The symbols of a name or a number. -/
def isNameSymbol (symbol : Char) : Bool :=
  symbol.isAlphanum || symbol = '_'

def signs : List Char :=
  ['(', ')', ',', '=', '+', '*']

/-- A run of such symbols, which is a number if it has digits only. -/
def nameToken (letters : Text) : Token :=
  if letters.all Char.isDigit then
    .number (Nat.ofDigitChars 10 letters 0)
  else .word letters

/-- Where the lexer is. -/
inductive Mode where
  | between
  | inName (letters : Text)
  /-- a second minus sign would start a comment -/
  | afterMinus
  | inQuotes (content : Text)
  | afterMark (content : Text)
  /-- a second quote would be part of the content -/
  | afterQuote (content : Text)
deriving DecidableEq

/-- The token that a text may end in, if it may end there. -/
def Mode.last : Mode → Option (List Token)
  | .between => some []
  | .inName letters => some [nameToken letters]
  | .afterMinus => some [.sign '-']
  | .inQuotes _ => none
  | .afterMark _ => none
  | .afterQuote content => some [.quoted content]

structure Lexer where
  tokens : List Token
  mode : Mode
deriving DecidableEq

namespace Lexer

section

variable (quoting : Quoting)

/-- The first symbol after the end of a token. -/
def begin? (tokens : List Token) (symbol : Char) : Option Lexer :=
  if isSpace symbol then some { tokens := tokens, mode := .between }
  else if isNameSymbol symbol then
    some { tokens := tokens, mode := .inName [symbol] }
  else if symbol = quoting.quote then
    some { tokens := tokens, mode := .inQuotes [] }
  else if symbol = '-' then
    some { tokens := tokens, mode := .afterMinus }
  else if symbol ∈ signs then
    some { tokens := tokens ++ [.sign symbol], mode := .between }
  else none

def step (lexer : Lexer) (symbol : Char) : Option Lexer :=
  match lexer.mode with
  | .between => begin? quoting lexer.tokens symbol
  | .inName letters =>
      if isNameSymbol symbol then
        some { lexer with mode := .inName (letters ++ [symbol]) }
      else begin? quoting (lexer.tokens ++ [nameToken letters]) symbol
  | .afterMinus =>
      if symbol = '-' then none
      else begin? quoting (lexer.tokens ++ [.sign '-']) symbol
  | .inQuotes content =>
      if symbol = quoting.quote then
        some { lexer with mode := .afterQuote content }
      else if symbol = quoting.mark then
        some { lexer with mode := .afterMark content }
      else some { lexer with mode := .inQuotes (content ++ [symbol]) }
  | .afterMark content =>
      some { lexer with
        mode := .inQuotes (content ++ quoting.decode symbol) }
  | .afterQuote content =>
      if symbol = quoting.quote then
        some { lexer with mode := .inQuotes (content ++ [symbol]) }
      else begin? quoting (lexer.tokens ++ [.quoted content]) symbol

def run (lexer : Lexer) (piece : Text) : Option Lexer :=
  piece.foldlM (step quoting) lexer

def finish (lexer : Lexer) : Option (List Token) :=
  lexer.mode.last.map fun last => lexer.tokens ++ last

/-- The tokens of a text that ends here. -/
def lexFrom (lexer : Lexer) (rest : Text) : Option (List Token) :=
  (run quoting lexer rest).bind finish

def lex (content : Text) : Option (List Token) :=
  lexFrom quoting { tokens := [], mode := .between } content

end

/-! ## Reading a text that is put together -/

section

variable {quoting : Quoting}

theorem run_append (lexer : Lexer) (first second : Text) :
    run quoting lexer (first ++ second) =
      (run quoting lexer first).bind fun later =>
        run quoting later second := by
  rw [run, List.foldlM_append]
  rfl

/-- A piece that is read, and what follows it. -/
theorem run_append_of_run
    {lexer later : Lexer} {first : Text}
    (read : run quoting lexer first = some later) (second : Text) :
    run quoting lexer (first ++ second) = run quoting later second := by
  rw [run_append, read]
  rfl

theorem run_cons_of_step
    {lexer later : Lexer} {symbol : Char}
    (read : step quoting lexer symbol = some later) (rest : Text) :
    run quoting lexer (symbol :: rest) = run quoting later rest := by
  rw [run, List.foldlM_cons, read]
  rfl

/-- With other tokens before it. -/
def after (lexer : Lexer) (tokens : List Token) : Lexer :=
  { lexer with tokens := tokens ++ lexer.tokens }

theorem after_mk
    (earlier tokens : List Token) (mode : Mode) :
    (Lexer.mk tokens mode).after earlier =
      { tokens := earlier ++ tokens, mode := mode } :=
  rfl

theorem begin?_append
    (earlier tokens : List Token) (symbol : Char) :
    begin? quoting (earlier ++ tokens) symbol =
      (begin? quoting tokens symbol).map fun lexer =>
        lexer.after earlier := by
  unfold begin?
  split
  · rfl
  split
  · rfl
  split
  · rfl
  split
  · rfl
  split
  · rw [List.append_assoc]
    rfl
  · rfl

/-- No step looks at the tokens that are already complete. -/
theorem step_after
    (lexer : Lexer) (earlier : List Token) (symbol : Char) :
    step quoting (lexer.after earlier) symbol =
      (step quoting lexer symbol).map fun later =>
        later.after earlier := by
  rcases lexer with ⟨tokens, mode⟩
  cases mode with
  | between => exact begin?_append earlier tokens symbol
  | inName letters =>
      simp only [step, after, List.append_assoc, begin?_append]
      split
      · rfl
      · rfl
  | afterMinus =>
      simp only [step, after, List.append_assoc, begin?_append]
      split
      · rfl
      · rfl
  | inQuotes content =>
      simp only [step, after]
      split
      · rfl
      split
      · rfl
      · rfl
  | afterMark content => rfl
  | afterQuote content =>
      simp only [step, after, List.append_assoc, begin?_append]
      split
      · rfl
      · rfl

theorem run_after
    (lexer : Lexer) (earlier : List Token) (piece : Text) :
    run quoting (lexer.after earlier) piece =
      (run quoting lexer piece).map fun later => later.after earlier := by
  induction piece generalizing lexer with
  | nil => rfl
  | cons symbol rest induction =>
      rw [run, List.foldlM_cons, step_after, run, List.foldlM_cons]
      cases step quoting lexer symbol with
      | none => rfl
      | some later => exact induction later

/-- A piece that is read on its own is read after any tokens. -/
theorem run_of_run
    {mode : Mode} {piece : Text} {later : Lexer}
    (read :
      run quoting { tokens := [], mode := mode } piece = some later)
    (tokens : List Token) :
    run quoting { tokens := tokens, mode := mode } piece =
      some (later.after tokens) := by
  have shifted :
      (Lexer.mk tokens mode) = (Lexer.mk [] mode).after tokens := by
    rw [after, List.append_nil]
  rw [shifted, run_after, read]
  rfl

/-! ### Names and numbers -/

theorem isNameSymbol_of_isDigit
    {symbol : Char} (digit : symbol.isDigit = true) :
    isNameSymbol symbol = true := by
  simp [isNameSymbol, Char.isAlphanum, digit]

theorem run_inName
    {more : Text} (named : ∀ symbol ∈ more, isNameSymbol symbol = true)
    (tokens : List Token) (letters : Text) :
    run quoting { tokens := tokens, mode := .inName letters } more =
      some { tokens := tokens, mode := .inName (letters ++ more) } := by
  induction more generalizing letters with
  | nil =>
      rw [List.append_nil]
      rfl
  | cons symbol rest induction =>
      rw [List.forall_mem_cons] at named
      have read :
          step quoting { tokens := tokens, mode := .inName letters }
              symbol =
            some
              { tokens := tokens, mode := .inName (letters ++ [symbol]) } :=
        if_pos named.1
      rw [run_cons_of_step read, induction named.2, List.append_assoc]
      rfl

/-- A digit begins a number. -/
theorem begin?_digit
    {symbol : Char} (digit : symbol.isDigit = true)
    (tokens : List Token) :
    begin? quoting tokens symbol =
      some { tokens := tokens, mode := .inName [symbol] } := by
  have notBlank := isSpace_of_isDigit digit
  rw [begin?, notBlank, isNameSymbol_of_isDigit digit]
  rfl

theorem nameToken_decimalNat (value : Nat) :
    nameToken (decimalNat value) = .number value := by
  have digits : (decimalNat value).all Char.isDigit = true :=
    List.all_eq_true.mpr (decimalNat_isDigit value)
  rw [nameToken, if_pos digits, ofDigitChars_decimalNat]

/-- The digits of a number, where one may begin. -/
theorem run_decimalNat
    {lexer : Lexer} {tokens : List Token}
    (begins :
      ∀ symbol, symbol.isDigit = true →
        step quoting lexer symbol = begin? quoting tokens symbol)
    (value : Nat) :
    run quoting lexer (decimalNat value) =
      some { tokens := tokens, mode := .inName (decimalNat value) } := by
  have digits := decimalNat_isDigit value
  cases shape : decimalNat value with
  | nil => exact absurd shape (decimalNat_nonempty value)
  | cons symbol rest =>
      rw [shape, List.forall_mem_cons] at digits
      have read :
          step quoting lexer symbol =
            some { tokens := tokens, mode := .inName [symbol] } :=
        (begins symbol digits.1).trans (begin?_digit digits.1 tokens)
      rw [run_cons_of_step read,
        run_inName fun other member =>
          isNameSymbol_of_isDigit (digits.2 other member)]
      rfl

/-- The sign of a number. -/
def minusOf (value : Int) : List Token :=
  if value < 0 then [.sign '-'] else []

/-- A number, with its sign. -/
def numberTokens (value : Int) : List Token :=
  minusOf value ++ [.number value.natAbs]

theorem step_minus
    (marked : quoting.quote ≠ '-') (tokens : List Token) :
    step quoting { tokens := tokens, mode := .between } '-' =
      some { tokens := tokens, mode := .afterMinus } := by
  have notBlank : isSpace '-' = false := by decide
  have notName : isNameSymbol '-' = false := by decide
  show begin? quoting tokens '-' = _
  rw [begin?, notBlank, notName, if_neg marked.symm]
  rfl

theorem run_decimal
    (marked : quoting.quote ≠ '-') (tokens : List Token) (value : Int) :
    run quoting { tokens := tokens, mode := .between } (decimal value) =
      some
        { tokens := tokens ++ minusOf value
          mode := .inName (decimalNat value.natAbs) } := by
  by_cases negative : value < 0
  · rw [decimal, if_pos negative, minusOf, if_pos negative,
      run_cons_of_step (step_minus marked tokens)]
    refine run_decimalNat ?_ value.natAbs
    intro symbol digit
    have notMinus : symbol ≠ '-' := by
      rintro rfl
      exact absurd digit (by decide)
    exact if_neg notMinus
  · rw [decimal, if_neg negative, minusOf, if_neg negative,
      List.append_nil]
    exact run_decimalNat (fun _ _ => rfl) value.natAbs

/-- What follows a name ends it. -/
theorem run_endName
    {symbol : Char} (ends : isNameSymbol symbol = false)
    (tokens : List Token) (letters rest : Text) :
    run quoting { tokens := tokens, mode := .inName letters }
        (symbol :: rest) =
      run quoting
        { tokens := tokens ++ [nameToken letters], mode := .between }
        (symbol :: rest) := by
  have same :
      step quoting { tokens := tokens, mode := .inName letters } symbol =
        step quoting
          { tokens := tokens ++ [nameToken letters], mode := .between }
          symbol := by
    simp only [step, ends]
    rfl
  rw [run, List.foldlM_cons, same, run, List.foldlM_cons]

/-! ### Quoted content -/

/-- Escaped content is read as what it was, and is not left. -/
theorem run_escape
    (apart : quoting.mark ≠ quoting.quote)
    (tokens : List Token) (content raw : Text) :
    run quoting { tokens := tokens, mode := .inQuotes content }
        (quoting.escape raw) =
      some { tokens := tokens, mode := .inQuotes (content ++ raw) } := by
  induction raw generalizing content with
  | nil =>
      rw [List.append_nil]
      rfl
  | cons symbol rest induction =>
      have first :
          run quoting { tokens := tokens, mode := .inQuotes content }
              (quoting.escapeSymbol symbol) =
            some
              { tokens := tokens
                mode := .inQuotes (content ++ [symbol]) } := by
        unfold Quoting.escapeSymbol
        split
        · next code found =>
            have marked :
                step quoting
                    { tokens := tokens, mode := .inQuotes content }
                    quoting.mark =
                  some
                    { tokens := tokens, mode := .afterMark content } := by
              simp only [step, if_neg apart, if_true]
            rw [run_cons_of_step marked,
              ← quoting.decode_letter symbol code found]
            rfl
        · next uncoded =>
            have notQuote : symbol ≠ quoting.quote := by
              rintro rfl
              exact quoting.quote_isCoded uncoded
            have notMark : symbol ≠ quoting.mark := by
              rintro rfl
              exact quoting.mark_isCoded uncoded
            have plain :
                step quoting
                    { tokens := tokens, mode := .inQuotes content }
                    symbol =
                  some
                    { tokens := tokens
                      mode := .inQuotes (content ++ [symbol]) } := by
              simp only [step, if_neg notQuote, if_neg notMark]
            rw [run_cons_of_step plain]
            rfl
      rw [Quoting.escape, List.flatMap_cons, run_append_of_run first,
        ← Quoting.escape, induction, List.append_assoc]
      rfl

/-! ### The pieces of a text -/

variable {tokens : List Token}

/-- A fixed piece, which is read on its own. -/
theorem lexFrom_piece
    {mode : Mode} {piece : Text} {later : Lexer}
    (read :
      run quoting { tokens := [], mode := mode } piece = some later)
    (rest : Text) :
    lexFrom quoting { tokens := tokens, mode := mode } (piece ++ rest) =
      lexFrom quoting (later.after tokens) rest := by
  rw [lexFrom, run_append_of_run (run_of_run read tokens), lexFrom]

theorem lexFrom_nil :
    lexFrom quoting { tokens := tokens, mode := .between } [] =
      some tokens :=
  congrArg some (List.append_nil tokens)

/-- A number that ends the text. -/
theorem lexFrom_decimal
    (marked : quoting.quote ≠ '-') (value : Int) :
    lexFrom quoting { tokens := tokens, mode := .between }
        (decimal value) =
      some (tokens ++ numberTokens value) := by
  rw [lexFrom, run_decimal marked, Option.bind_some, finish, Mode.last,
    nameToken_decimalNat, Option.map_some, List.append_assoc,
    numberTokens]

/-- A number before a fixed piece. -/
theorem lexFrom_decimal_append
    {piece : Text} {later : Lexer} (marked : quoting.quote ≠ '-')
    (ends : piece.head?.map isNameSymbol = some false)
    (read :
      run quoting { tokens := [], mode := .between } piece = some later)
    (value : Int) (rest : Text) :
    lexFrom quoting { tokens := tokens, mode := .between }
        (decimal value ++ (piece ++ rest)) =
      lexFrom quoting (later.after (tokens ++ numberTokens value))
        rest := by
  cases piece with
  | nil => cases ends
  | cons symbol more =>
      have ended : isNameSymbol symbol = false := Option.some.inj ends
      rw [← lexFrom_piece read rest, lexFrom,
        run_append_of_run (run_decimal marked tokens value),
        List.cons_append, run_endName ended, nameToken_decimalNat,
        List.append_assoc, lexFrom, numberTokens]

/-- Escaped content, and the quote after it, before a fixed piece. -/
theorem lexFrom_escape_append
    {piece : Text} {later : Lexer}
    (apart : quoting.mark ≠ quoting.quote)
    (ends : piece.head?.map (decide <| · = quoting.quote) = some false)
    (read :
      run quoting { tokens := [], mode := .between } piece = some later)
    (raw rest : Text) :
    lexFrom quoting { tokens := tokens, mode := .inQuotes [] }
        (quoting.escape raw ++ (quoting.quote :: piece ++ rest)) =
      lexFrom quoting (later.after (tokens ++ [.quoted raw])) rest := by
  cases piece with
  | nil => cases ends
  | cons symbol more =>
      have ended : symbol ≠ quoting.quote :=
        of_decide_eq_false (Option.some.inj ends)
      have closed :
          step quoting { tokens := tokens, mode := .inQuotes raw }
              quoting.quote =
            some { tokens := tokens, mode := .afterQuote raw } :=
        if_pos rfl
      have next :
          step quoting { tokens := tokens, mode := .afterQuote raw }
              symbol =
            step quoting
              { tokens := tokens ++ [.quoted raw], mode := .between }
              symbol :=
        if_neg ended
      rw [← lexFrom_piece read rest, lexFrom,
        run_append_of_run (run_escape apart tokens [] raw),
        List.nil_append, List.cons_append, run_cons_of_step closed,
        List.cons_append, run, List.foldlM_cons, next, lexFrom, run,
        List.foldlM_cons]

end

end Lexer

end LightningServer.Foundation.SqlText
