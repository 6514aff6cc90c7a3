import Mathlib.Data.List.DropRight
import Mathlib.Data.Nat.Find

/-!
# Cutting sequences into frames, lines and words

Facts about the sequence functions that text protocols are parsed with: the
first occurrence of a terminator, the lines read by a line loop, the words
read by a formatted extraction, and trimming.  They are stated over an
arbitrary alphabet.
-/

namespace LightningServer.Foundation.Framing

variable {Symbol : Type*}

/-! ## First occurrence of a terminator -/

section Terminator

variable [BEq Symbol] [LawfulBEq Symbol]

/-- `List.dropInfix?` finds the first occurrence. -/
theorem dropInfix?_iff
    {data terminator before after : List Symbol} :
    data.dropInfix? terminator = some (before, after) ↔
      data = before ++ terminator ++ after ∧
        ∀ before' after',
          data = before' ++ terminator ++ after' →
            before.length ≤ before'.length := by
  rw [List.dropInfix?_eq_some_iff]
  constructor
  · rintro ⟨⟨found, equal, matched⟩, first⟩
    obtain rfl := eq_of_beq matched
    exact ⟨equal, fun before' after' other =>
      first before' found after' other (BEq.refl found)⟩
  · rintro ⟨equal, first⟩
    refine ⟨⟨terminator, equal, BEq.refl terminator⟩, ?_⟩
    intro before' found after' other matched
    obtain rfl := eq_of_beq matched
    exact first before' after' other

theorem eq_of_dropInfix?
    {data terminator before after : List Symbol}
    (found : data.dropInfix? terminator = some (before, after)) :
    data = before ++ terminator ++ after :=
  (dropInfix?_iff.mp found).1

/-- Where a terminator occurs, it is found. -/
theorem dropInfix?_ne_none
    {data terminator before after : List Symbol}
    (equal : data = before ++ terminator ++ after) :
    data.dropInfix? terminator ≠ none := by
  classical
  have occurs :
      ∃ position before after,
        data = before ++ terminator ++ after ∧ before.length = position :=
    ⟨before.length, before, after, equal, rfl⟩
  rcases Nat.find_spec occurs with ⟨first, behind, isFirst, length⟩
  have found : data.dropInfix? terminator = some (first, behind) := by
    refine dropInfix?_iff.mpr ⟨isFirst, ?_⟩
    intro before' after' other
    rw [length]
    exact Nat.find_min' occurs ⟨before', after', other, rfl⟩
  rw [found]
  exact Option.some_ne_none _

/-- Later bytes do not move the first occurrence. -/
theorem dropInfix?_append
    {data terminator before after : List Symbol}
    (found : data.dropInfix? terminator = some (before, after))
    (more : List Symbol) :
    (data ++ more).dropInfix? terminator =
      some (before, after ++ more) := by
  obtain ⟨equal, first⟩ := dropInfix?_iff.mp found
  refine dropInfix?_iff.mpr ⟨by simp [equal], ?_⟩
  intro before' after' other
  by_contra shorter
  have fits :
      (before' ++ terminator).length ≤ data.length := by
    have := congrArg List.length equal
    simp only [List.length_append] at this ⊢
    omega
  have isPrefix : before' ++ terminator <+: data :=
    List.prefix_of_prefix_length_le
      ⟨after', other.symm⟩ (List.prefix_append data more) fits
  obtain ⟨rest, inside⟩ := isPrefix
  exact shorter (first before' rest inside.symm)

/-- No proper prefix of a frame contains its terminator. -/
theorem dropInfix?_prefix
    {data terminator before after : List Symbol}
    (found : data.dropInfix? terminator = some (before, after))
    {start : List Symbol}
    (isPrefix : start <+: data)
    (short : start.length < before.length + terminator.length) :
    start.dropInfix? terminator = none := by
  cases inside : start.dropInfix? terminator with
  | none => rfl
  | some split =>
      obtain ⟨before', after'⟩ := split
      obtain ⟨more, rfl⟩ := isPrefix
      have extended := dropInfix?_append inside more
      rw [found] at extended
      obtain ⟨rfl, -⟩ := Prod.mk.inj (Option.some.inj extended)
      have length := congrArg List.length (eq_of_dropInfix? inside)
      simp only [List.length_append] at length
      omega

/-- A symbol that is not in the terminator keeps what is before it apart. -/
theorem dropInfix?_fence
    {symbol : Symbol} {data rest terminator before after : List Symbol}
    (foreign : symbol ∉ terminator)
    (nowhere : data.dropInfix? terminator = none)
    (found : rest.dropInfix? terminator = some (before, after)) :
    (data ++ symbol :: rest).dropInfix? terminator =
      some (data ++ symbol :: before, after) := by
  rcases dropInfix?_iff.mp found with ⟨rfl, first⟩
  refine dropInfix?_iff.mpr ⟨by simp, ?_⟩
  intro before' after' other
  rw [List.append_assoc before' terminator after'] at other
  rcases List.append_eq_append_iff.mp other with
    ⟨ahead, rfl, behind⟩ | ⟨inside, equal, behind⟩
  · -- the other occurrence starts behind the data
    cases ahead with
    | nil =>
        rw [List.nil_append] at behind
        cases terminator with
        | nil =>
            rw [List.dropInfix?_nil] at nowhere
            cases nowhere
        | cons symbol' others =>
            rw [List.cons_append, List.cons.injEq] at behind
            exact absurd (by simp [behind.1]) foreign
    | cons symbol' ahead =>
        rw [List.cons_append, List.cons.injEq] at behind
        have later := first ahead after' (by simpa using behind.2)
        simp only [List.length_append, List.length_cons]
        omega
  · -- it starts in the data, and reaches the symbol or ends before it
    rcases List.append_eq_append_iff.mp behind with
      ⟨ahead, rfl, -⟩ | ⟨more, rfl, ending⟩
    · rw [← List.append_assoc] at equal
      exact absurd nowhere (dropInfix?_ne_none equal)
    · cases more with
      | nil =>
          rw [List.append_nil] at nowhere foreign
          have equal' : data = before' ++ inside ++ [] := by
            rw [equal, List.append_nil]
          exact absurd nowhere (dropInfix?_ne_none equal')
      | cons symbol' more =>
          rw [List.cons_append, List.cons.injEq] at ending
          exact absurd (by simp [ending.1]) foreign

/-- The last symbol of the terminator is the last one to arrive. -/
theorem dropInfix?_completed
    {symbol : Symbol} {data terminator before : List Symbol}
    (nowhere : data.dropInfix? terminator = none)
    (equal : data ++ [symbol] = before ++ terminator) :
    (data ++ [symbol]).dropInfix? terminator = some (before, []) := by
  refine dropInfix?_iff.mpr ⟨by simp [equal], ?_⟩
  intro before' after' other
  cases after' using List.reverseRecOn with
  | nil =>
      have lengths := congrArg List.length (equal.symm.trans other)
      simp only [List.length_append, List.length_nil] at lengths
      omega
  | append_singleton after' symbol' =>
      rw [← List.append_assoc] at other
      have inside := (List.append_inj' other rfl).1
      exact absurd nowhere (dropInfix?_ne_none inside)

theorem dropInfix?_concat_none
    {symbol : Symbol} {data terminator : List Symbol}
    (nowhere : data.dropInfix? terminator = none)
    (differs : terminator.getLast? ≠ some symbol) :
    (data ++ [symbol]).dropInfix? terminator = none := by
  cases found : (data ++ [symbol]).dropInfix? terminator with
  | none => rfl
  | some split =>
      rcases split with ⟨before, after⟩
      have equal := eq_of_dropInfix? found
      cases after using List.reverseRecOn with
      | nil =>
          cases terminator using List.reverseRecOn with
          | nil =>
              rw [List.dropInfix?_nil] at nowhere
              cases nowhere
          | append_singleton terminator last =>
              rw [List.append_nil, ← List.append_assoc] at equal
              have same := (List.append_inj' equal rfl).2
              rw [List.cons.injEq] at same
              exact absurd (by simp [same.1]) differs
      | append_singleton after symbol' =>
          rw [← List.append_assoc] at equal
          have inside := (List.append_inj' equal rfl).1
          exact absurd nowhere (dropInfix?_ne_none inside)

/-- The search moves on where the terminator does not start. -/
theorem dropInfix?_cons
    {symbol : Symbol} {data terminator before after : List Symbol}
    (elsewhere : ¬ terminator <+: symbol :: data)
    (found : data.dropInfix? terminator = some (before, after)) :
    (symbol :: data).dropInfix? terminator =
      some (symbol :: before, after) := by
  obtain ⟨equal, first⟩ := dropInfix?_iff.mp found
  refine dropInfix?_iff.mpr ⟨by simp [equal], ?_⟩
  intro before' after' other
  cases before' with
  | nil =>
      exact absurd ⟨after', by simpa using other.symm⟩ elsewhere
  | cons symbol' before' =>
      simp only [List.cons_append, List.cons.injEq] at other
      exact Nat.succ_le_succ (first before' after' other.2)

/-- The terminator does not start in a run without its first symbol. -/
theorem dropInfix?_skip
    {first : Symbol} {others line data before after : List Symbol}
    (clean : first ∉ line)
    (found : data.dropInfix? (first :: others) = some (before, after)) :
    (line ++ data).dropInfix? (first :: others) =
      some (line ++ before, after) := by
  induction line with
  | nil => exact found
  | cons symbol line induction =>
      rw [List.mem_cons, not_or] at clean
      refine dropInfix?_cons ?_ (induction clean.2)
      rintro ⟨rest, equal⟩
      exact clean.1 (List.cons.inj equal).1

theorem dropInfix?_symbol
    {symbol : Symbol} {before : List Symbol}
    (clean : symbol ∉ before) (after : List Symbol) :
    (before ++ symbol :: after).dropInfix? [symbol] =
      some (before, after) := by
  refine dropInfix?_iff.mpr ⟨by simp, ?_⟩
  intro before' after' other
  by_contra shorter
  have inside : symbol ∈ before := by
    have isPrefix : before' ++ [symbol] <+: before :=
      List.prefix_of_prefix_length_le
        ⟨after', other.symm⟩ (List.prefix_append before (symbol :: after))
        (by simp only [List.length_append, List.length_singleton]; omega)
    exact isPrefix.subset (by simp)
  exact clean inside

theorem dropInfix?_symbol_none
    {symbol : Symbol} {data : List Symbol}
    (clean : symbol ∉ data) :
    data.dropInfix? [symbol] = none := by
  cases found : data.dropInfix? [symbol] with
  | none => rfl
  | some split =>
      rcases split with ⟨before, after⟩
      exact absurd (by simp [eq_of_dropInfix? found]) clean

/-- A terminator of one symbol is found where the symbol stands first. -/
theorem dropInfix?_symbol_iff
    {symbol : Symbol} {data before after : List Symbol} :
    data.dropInfix? [symbol] = some (before, after) ↔
      data = before ++ symbol :: after ∧ symbol ∉ before := by
  constructor
  · intro found
    have equal := eq_of_dropInfix? found
    refine ⟨by simpa using equal, ?_⟩
    intro member
    rcases List.append_of_mem member with ⟨early, late, rfl⟩
    have shorter :=
      (dropInfix?_iff.mp found).2 early (late ++ [symbol] ++ after)
        (by simp [equal])
    simp only [List.length_append, List.length_cons] at shorter
    omega
  · rintro ⟨rfl, clean⟩
    exact dropInfix?_symbol clean after

theorem dropInfix?_symbol_eq_none_iff
    {symbol : Symbol} {data : List Symbol} :
    data.dropInfix? [symbol] = none ↔ symbol ∉ data := by
  constructor
  · intro nowhere member
    rcases List.append_of_mem member with ⟨before, after, equal⟩
    have split : data = before ++ [symbol] ++ after := by
      simpa using equal
    exact dropInfix?_ne_none split nowhere
  · exact dropInfix?_symbol_none

end Terminator

/-! ## Up to a symbol -/

section UpTo

variable [DecidableEq Symbol] {symbol : Symbol} {before : List Symbol}

theorem forall_ne_of_notMem (clean : symbol ∉ before) :
    ∀ other ∈ before, decide (other ≠ symbol) = true := by
  intro other member
  rw [decide_eq_true_eq]
  rintro rfl
  exact clean member

theorem takeWhile_ne (clean : symbol ∉ before) (after : List Symbol) :
    ((before ++ symbol :: after).takeWhile fun other => other ≠ symbol) =
      before := by
  rw [List.takeWhile_append_of_pos (forall_ne_of_notMem clean)]
  simp

theorem dropWhile_ne (clean : symbol ∉ before) (after : List Symbol) :
    ((before ++ symbol :: after).dropWhile fun other => other ≠ symbol) =
      symbol :: after := by
  rw [List.dropWhile_append_of_pos (forall_ne_of_notMem clean)]
  simp

theorem takeWhile_ne_of_notMem (clean : symbol ∉ before) :
    (before.takeWhile fun other => other ≠ symbol) = before :=
  List.takeWhile_eq_self_iff.mpr (forall_ne_of_notMem clean)

theorem dropWhile_ne_of_notMem (clean : symbol ∉ before) :
    (before.dropWhile fun other => other ≠ symbol) = [] :=
  List.dropWhile_eq_nil_iff.mpr (forall_ne_of_notMem clean)

end UpTo

/-! ## Lines -/

section Lines

variable [DecidableEq Symbol]

/-- The lines read from `data` when `pending` is already read (reversed). -/
def linesFrom (delimiter : Symbol) (pending : List Symbol) :
    List Symbol → List (List Symbol)
  | [] => if pending = [] then [] else [pending.reverse]
  | symbol :: rest =>
      if symbol = delimiter then
        pending.reverse :: linesFrom delimiter [] rest
      else
        linesFrom delimiter (symbol :: pending) rest

/--
The successive values of the line in `while (getline(stream, line, d))`: the
delimiter ends a line and is dropped, and input that ends right after a
delimiter yields no further empty line.
-/
def getlines (delimiter : Symbol) (data : List Symbol) :
    List (List Symbol) :=
  linesFrom delimiter [] data

theorem linesFrom_line
    {delimiter : Symbol} {line : List Symbol}
    (clean : delimiter ∉ line)
    (pending rest : List Symbol) :
    linesFrom delimiter pending (line ++ delimiter :: rest) =
      (pending.reverse ++ line) :: linesFrom delimiter [] rest := by
  induction line generalizing pending with
  | nil => simp [linesFrom]
  | cons symbol line induction =>
      simp only [List.mem_cons, not_or] at clean
      simp [linesFrom, Ne.symm clean.1, induction clean.2]

theorem linesFrom_last
    {delimiter : Symbol} {line : List Symbol}
    (clean : delimiter ∉ line)
    (pending : List Symbol) :
    linesFrom delimiter pending line =
      if pending.reverse ++ line = [] then []
      else [pending.reverse ++ line] := by
  induction line generalizing pending with
  | nil => simp [linesFrom]
  | cons symbol line induction =>
      simp only [List.mem_cons, not_or] at clean
      simp [linesFrom, Ne.symm clean.1, induction clean.2]

@[simp]
theorem getlines_nil (delimiter : Symbol) :
    getlines delimiter [] = [] :=
  rfl

theorem getlines_cons
    {delimiter : Symbol} {line : List Symbol}
    (clean : delimiter ∉ line) (rest : List Symbol) :
    getlines delimiter (line ++ delimiter :: rest) =
      line :: getlines delimiter rest := by
  simpa [getlines] using linesFrom_line clean [] rest

/-- The lines of data that is cut behind a delimiter. -/
theorem linesFrom_append
    (delimiter : Symbol) (pending front rest : List Symbol) :
    linesFrom delimiter pending (front ++ delimiter :: rest) =
      linesFrom delimiter pending (front ++ [delimiter]) ++
        getlines delimiter rest := by
  induction front generalizing pending with
  | nil => simp [linesFrom, getlines]
  | cons symbol front induction =>
      rw [List.cons_append, List.cons_append, linesFrom, linesFrom]
      split
      · rw [induction, List.cons_append]
      · exact induction _

theorem getlines_append
    (delimiter : Symbol) (front rest : List Symbol) :
    getlines delimiter (front ++ delimiter :: rest) =
      getlines delimiter (front ++ [delimiter]) ++
        getlines delimiter rest :=
  linesFrom_append delimiter [] front rest

theorem getlines_last
    {delimiter : Symbol} {line : List Symbol}
    (clean : delimiter ∉ line) (nonempty : line ≠ []) :
    getlines delimiter line = [line] := by
  simpa [getlines, nonempty] using linesFrom_last clean []

/-- The lines are the pieces between delimiters, but for a last empty one. -/
theorem filterMap_linesFrom
    {Value : Type*} {read : List Symbol → Option Value}
    (skips : read [] = none) (delimiter : Symbol)
    (pending data : List Symbol) :
    (linesFrom delimiter pending data).filterMap read =
      (data.splitOnPPrepend (· == delimiter) pending).filterMap read := by
  induction data generalizing pending with
  | nil =>
      rw [List.splitOnPPrepend_nil, linesFrom]
      split
      · next none =>
          rw [none, List.reverse_nil, List.filterMap_cons_none skips]
      · rfl
  | cons symbol rest induction =>
      rw [List.splitOnPPrepend_cons_eq_if, linesFrom]
      simp only [beq_iff_eq]
      split
      · rw [List.filterMap_cons, List.filterMap_cons, induction]
        rfl
      · exact induction _

theorem filterMap_getlines
    {Value : Type*} {read : List Symbol → Option Value}
    (skips : read [] = none) (delimiter : Symbol) (data : List Symbol) :
    (getlines delimiter data).filterMap read =
      (data.splitOn delimiter).filterMap read :=
  filterMap_linesFrom skips delimiter [] data

end Lines

/-! ## The last one that counts -/

section Last

variable {Value : Type*}

/-- The last value read from a list, and where it stands. -/
theorem getLast?_filterMap_eq_some_iff
    {read : Symbol → Option Value} {data : List Symbol} {value : Value} :
    (data.filterMap read).getLast? = some value ↔
      ∃ before symbol after, data = before ++ symbol :: after ∧
        read symbol = some value ∧
          ∀ later ∈ after, read later = none := by
  rw [List.getLast?_filterMap, List.findSome?_eq_some_iff]
  constructor
  · rintro ⟨after, symbol, before, reversed, reads, none⟩
    refine ⟨before.reverse, symbol, after.reverse, ?_, reads, ?_⟩
    · rw [← List.reverse_reverse data, reversed]
      simp
    · simpa using none
  · rintro ⟨before, symbol, after, rfl, reads, none⟩
    exact ⟨after.reverse, symbol, before.reverse, by simp, reads,
      by simpa using none⟩

/-- Where each step keeps what it reads, a fold keeps the last of it. -/
theorem lookup_foldl
    {State : Type*} (lookup : State → Option Value)
    {step : State → Symbol → State} {read : Symbol → Option Value}
    (keeps : ∀ state symbol,
      lookup (step state symbol) = (read symbol).or (lookup state))
    (data : List Symbol) (state : State) :
    lookup (data.foldl step state) =
      (data.filterMap read).getLast?.or (lookup state) := by
  induction data using List.reverseRecOn with
  | nil => rfl
  | append_singleton data symbol induction =>
      rw [List.foldl_append, List.foldl_cons, List.foldl_nil, keeps,
        induction, List.filterMap_append]
      cases reads : read symbol with
      | none => simp [reads]
      | some value => simp [reads]

end Last

/-! ## Streams of frames -/

section Frames

variable {Value : Type*}

/-- Read frame after frame until nothing is left, as long as there is fuel. -/
def readFrames
    (readFrame : List Symbol → Option (Value × List Symbol)) :
    Nat → List Symbol → Option (List Value)
  | _, [] => some []
  | 0, _ :: _ => none
  | fuel + 1, symbol :: data =>
      match readFrame (symbol :: data) with
      | none => none
      | some (value, rest) =>
          (readFrames readFrame fuel rest).map fun values => value :: values

/-- A frame read in front of anything is read in a stream of frames. -/
theorem readFrames_flatMap
    {readFrame : List Symbol → Option (Value × List Symbol)}
    {write : Value → List Symbol} {values : List Value}
    (nonempty : ∀ value ∈ values, write value ≠ [])
    (reads :
      ∀ value ∈ values, ∀ rest,
        readFrame (write value ++ rest) = some (value, rest))
    {fuel : Nat} (enough : values.length ≤ fuel) :
    readFrames readFrame fuel (values.flatMap write) = some values := by
  induction values generalizing fuel with
  | nil => cases fuel <;> rfl
  | cons value values induction =>
      rw [List.forall_mem_cons] at nonempty reads
      rw [List.length_cons] at enough
      obtain ⟨fuel, rfl⟩ : ∃ less, fuel = less + 1 :=
        ⟨fuel - 1, by omega⟩
      have later :=
        @induction nonempty.2 reads.2 fuel (Nat.le_of_succ_le_succ enough)
      have here := reads.1 (values.flatMap write)
      rw [List.flatMap_cons]
      obtain ⟨symbol, data, equal⟩ :
          ∃ symbol data,
            write value ++ values.flatMap write = symbol :: data :=
        List.exists_cons_of_ne_nil
          (List.append_ne_nil_of_left_ne_nil nonempty.1 _)
      rw [equal] at here ⊢
      simp only [readFrames, here, later, Option.map_some]

theorem length_le_length_flatMap
    {write : Value → List Symbol} {values : List Value}
    (nonempty : ∀ value ∈ values, write value ≠ []) :
    values.length ≤ (values.flatMap write).length := by
  induction values with
  | nil => exact Nat.le_refl 0
  | cons value values induction =>
      rw [List.forall_mem_cons] at nonempty
      have here := List.length_pos_iff.mpr nonempty.1
      have later := induction nonempty.2
      rw [List.flatMap_cons, List.length_append, List.length_cons]
      omega

end Frames

/-! ## Words -/

/--
One formatted extraction of a string: skip leading blanks, then take
everything up to the next blank.  It fails, and stores nothing, when only
blanks are left.
-/
def extractWord (blank : Symbol → Bool) (data : List Symbol) :
    Option (List Symbol × List Symbol) :=
  match data.dropWhile blank with
  | [] => none
  | symbol :: rest =>
      some ((symbol :: rest).takeWhile (fun s => !blank s),
        (symbol :: rest).dropWhile (fun s => !blank s))

theorem extractWord_word
    {blank : Symbol → Bool} {word rest : List Symbol}
    (nonempty : word ≠ [])
    (clean : ∀ symbol ∈ word, blank symbol = false)
    (stops : ∀ symbol ∈ rest.head?, blank symbol = true) :
    extractWord blank (word ++ rest) = some (word, rest) := by
  obtain ⟨first, others, rfl⟩ := List.exists_cons_of_ne_nil nonempty
  have firstClean : blank first = false := clean first (by simp)
  have othersClean : ∀ symbol ∈ others, (!blank symbol) = true := by
    intro symbol member
    simp [clean symbol (List.mem_cons_of_mem first member)]
  have restTaken : rest.takeWhile (fun s => !blank s) = [] := by
    cases rest with
    | nil => rfl
    | cons symbol rest => simp [stops symbol (by simp)]
  have restDropped : rest.dropWhile (fun s => !blank s) = rest := by
    cases rest with
    | nil => rfl
    | cons symbol rest => simp [stops symbol (by simp)]
  simp [extractWord, firstClean,
    List.takeWhile_append_of_pos othersClean,
    List.dropWhile_append_of_pos othersClean, restTaken, restDropped]

theorem extractWord_skip
    {blank : Symbol → Bool} {symbol : Symbol}
    (isBlank : blank symbol = true) (rest : List Symbol) :
    extractWord blank (symbol :: rest) = extractWord blank rest := by
  simp [extractWord, isBlank]

/-- The words of `data` when `pending` is already read (reversed). -/
def wordsFrom (blank : Symbol → Bool) (pending : List Symbol) :
    List Symbol → List (List Symbol)
  | [] => if pending.isEmpty then [] else [pending.reverse]
  | symbol :: rest =>
      if blank symbol then
        if pending.isEmpty then wordsFrom blank [] rest
        else pending.reverse :: wordsFrom blank [] rest
      else wordsFrom blank (symbol :: pending) rest

/-- The maximal runs of symbols that are no blanks. -/
def words (blank : Symbol → Bool) (data : List Symbol) :
    List (List Symbol) :=
  wordsFrom blank [] data

/-- A word that has begun goes on to the next blank. -/
theorem wordsFrom_pending
    (blank : Symbol → Bool) {pending : List Symbol}
    (begun : pending ≠ []) (data : List Symbol) :
    wordsFrom blank pending data =
      (pending.reverse ++ data.takeWhile (fun s => !blank s)) ::
        words blank (data.dropWhile (fun s => !blank s)) := by
  have inWord : pending.isEmpty = false := by
    simpa using begun
  induction data generalizing pending with
  | nil => simp [wordsFrom, inWord, words]
  | cons symbol rest induction =>
      by_cases isBlank : blank symbol = true
      · simp [wordsFrom, words, isBlank, inWord]
      · rw [wordsFrom, if_neg isBlank,
          induction (List.cons_ne_nil symbol pending) rfl]
        simp [isBlank]

/-- The words are what repeated extraction yields. -/
theorem words_eq_extractWord
    (blank : Symbol → Bool) (data : List Symbol) :
    words blank data =
      match extractWord blank data with
      | none => []
      | some (word, rest) => word :: words blank rest := by
  induction data with
  | nil => rfl
  | cons symbol rest induction =>
      by_cases isBlank : blank symbol = true
      · rw [extractWord_skip isBlank, ← induction]
        simp [words, wordsFrom, isBlank]
      · rw [words, wordsFrom, if_neg isBlank,
          wordsFrom_pending blank (List.cons_ne_nil symbol [])]
        simp [extractWord, isBlank]

/-- The first word is the next one that is extracted. -/
theorem extractWord_of_words
    {blank : Symbol → Bool} {data word : List Symbol}
    {others : List (List Symbol)}
    (isFirst : words blank data = word :: others) :
    ∃ rest, extractWord blank data = some (word, rest) ∧
      words blank rest = others ∧ word ≠ [] := by
  rw [words_eq_extractWord] at isFirst
  cases found : extractWord blank data with
  | none =>
      rw [found] at isFirst
      cases isFirst
  | some split =>
      rcases split with ⟨next, rest⟩
      rw [found] at isFirst
      cases isFirst
      refine ⟨rest, rfl, rfl, ?_⟩
      simp only [extractWord] at found
      split at found
      · cases found
      · next symbol later begins =>
          have nonempty : data.dropWhile blank ≠ [] := by
            rw [begins]
            exact List.cons_ne_nil symbol later
          have notBlank : blank symbol = false := by
            simpa only [begins, List.head_cons] using
              List.head_dropWhile_not blank nonempty
          cases found
          simp [notBlank]

theorem extractWord_of_words_nil
    {blank : Symbol → Bool} {data : List Symbol}
    (none : words blank data = []) :
    extractWord blank data = Option.none := by
  rw [words_eq_extractWord] at none
  cases found : extractWord blank data with
  | none => rfl
  | some split =>
      rw [found] at none
      cases none

theorem clean_of_mem_wordsFrom
    {blank : Symbol → Bool} {pending data word : List Symbol}
    (clean : ∀ symbol ∈ pending, blank symbol = false)
    (member : word ∈ wordsFrom blank pending data) :
    word ≠ [] ∧ ∀ symbol ∈ word, blank symbol = false := by
  induction data generalizing pending with
  | nil =>
      rw [wordsFrom] at member
      split at member
      · cases member
      · next begun =>
          rw [List.mem_singleton] at member
          subst member
          rw [List.isEmpty_iff] at begun
          exact ⟨by simpa using begun, by simpa using clean⟩
  | cons first rest induction =>
      have nothing : ∀ symbol ∈ ([] : List Symbol), blank symbol = false := by
        simp
      rw [wordsFrom] at member
      split at member
      · split at member
        · exact induction nothing member
        · next begun =>
            rcases List.mem_cons.mp member with rfl | later
            · rw [List.isEmpty_iff] at begun
              exact ⟨by simpa using begun, by simpa using clean⟩
            · exact induction nothing later
      · next notBlank =>
          have more : ∀ symbol ∈ first :: pending, blank symbol = false := by
            rw [List.forall_mem_cons]
            exact ⟨by simpa using notBlank, clean⟩
          exact induction more member

/-- A word has a symbol, and no blank. -/
theorem clean_of_mem_words
    {blank : Symbol → Bool} {data word : List Symbol}
    (member : word ∈ words blank data) :
    word ≠ [] ∧ ∀ symbol ∈ word, blank symbol = false :=
  clean_of_mem_wordsFrom (by simp) member

/-- A blank ends a word. -/
theorem words_append
    {blank : Symbol → Bool} {symbol : Symbol}
    (isBlank : blank symbol = true) (left right : List Symbol) :
    words blank (left ++ symbol :: right) =
      words blank left ++ words blank right := by
  have step (pending : List Symbol) :
      wordsFrom blank pending (left ++ symbol :: right) =
        wordsFrom blank pending left ++ words blank right := by
    induction left generalizing pending with
    | nil =>
        simp only [List.nil_append, wordsFrom, isBlank, if_true]
        split
        · rfl
        · rfl
    | cons first rest induction =>
        rw [List.cons_append, wordsFrom, wordsFrom, induction, induction]
        split
        · split
          · rfl
          · rfl
        · rfl
  exact step []

/-- A blank behind the last word adds no word. -/
theorem words_append_blank
    {blank : Symbol → Bool} {symbol : Symbol}
    (isBlank : blank symbol = true) (data : List Symbol) :
    words blank (data ++ [symbol]) = words blank data := by
  rw [words_append isBlank]
  exact List.append_nil _

/-! ## Trimming -/

/-- Drop the symbols of a class at both ends. -/
def trimBy (outer : Symbol → Bool) (data : List Symbol) : List Symbol :=
  (data.dropWhile outer).rdropWhile outer

/-- No symbol of a class stands at either end. -/
def Trimmed (outer : Symbol → Bool) (data : List Symbol) : Prop :=
  (∀ symbol ∈ data.head?, outer symbol = false) ∧
    (∀ symbol ∈ data.getLast?, outer symbol = false)

instance (outer : Symbol → Bool) (data : List Symbol) :
    Decidable (Trimmed outer data) :=
  inferInstanceAs (Decidable (_ ∧ _))

theorem trimBy_of_trimmed
    {outer : Symbol → Bool} {data : List Symbol}
    (trimmed : Trimmed outer data) :
    trimBy outer data = data := by
  have front : data.dropWhile outer = data := by
    cases data with
    | nil => rfl
    | cons symbol rest => simp [trimmed.1 symbol (by simp)]
  rw [trimBy, front, List.rdropWhile_eq_self_iff]
  intro nonempty
  simp [trimmed.2 _ (List.getLast?_eq_some_getLast nonempty)]

theorem trimBy_cons
    {outer : Symbol → Bool} {symbol : Symbol}
    (isOuter : outer symbol = true) (data : List Symbol) :
    trimBy outer (symbol :: data) = trimBy outer data := by
  simp [trimBy, isOuter]

end LightningServer.Foundation.Framing
