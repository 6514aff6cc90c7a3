import LightningServer.Foundation.Json

/-!
# Reading compact JSON text

A recursive-descent parser for the texts that `Json.dump` writes: no blanks,
integers only.  The fuel bounds the depth and the number of values; the length
of the text is always enough.  `compactLibrary` is the resulting library.
-/

namespace LightningServer.Foundation.Json

open LightningServer.Foundation.Numerals

/-! ## Scanning -/

/-- The inverse of `shortEscape`. -/
def shortUnescape (short : Char) : Option Char :=
  (shortEscapes.find? fun pair => pair.2 = short).map Prod.fst

def hexValue (symbol : Char) : Nat :=
  if symbol.isDigit then symbol.toNat - 48 else symbol.toNat - 87

/-- The character after a backslash, and the text behind it. -/
def unescape : Text → Option (Char × Text)
  | [] => none
  | symbol :: rest =>
      match shortUnescape symbol with
      | some original => some (original, rest)
      | none =>
          match rest with
          | _ :: _ :: high :: low :: rest =>
              some (Char.ofNat (16 * hexValue high + hexValue low), rest)
          | _ => none

/-- The rest of a string, after its opening quote. -/
def scanString : Nat → Text → Option (Text × Text)
  | 0, _ => none
  | _ + 1, [] => none
  | fuel + 1, symbol :: rest =>
      if symbol = quote then some ([], rest)
      else if symbol = backslash then
        (unescape rest).bind fun (original, rest) =>
          (scanString fuel rest).map fun (value, rest) =>
            (original :: value, rest)
      else
        (scanString fuel rest).map fun (value, rest) =>
          (symbol :: value, rest)

def scanNumber (input : Text) : Option (Json × Text) :=
  let (negative, input) :=
    match input with
    | '-' :: rest => (true, rest)
    | other => (false, other)
  let digits := input.takeWhile Char.isDigit
  let magnitude : Int := Nat.ofDigitChars 10 digits 0
  if digits = [] then none
  else
    some (.number (if negative then -magnitude else magnitude),
      input.dropWhile Char.isDigit)

/-- A field's name, with its quotes and the colon. -/
def scanName : Text → Option (Text × Text)
  | [] => none
  | _ :: rest =>
      (scanString (rest.length + 1) rest).bind fun (name, rest) =>
        match rest with
        | ':' :: rest => some (name, rest)
        | _ => none

mutual

def scanValue : Nat → Text → Option (Json × Text)
  | 0, _ => none
  | _ + 1, [] => none
  | fuel + 1, symbol :: rest =>
      if symbol = 'n' then some (.null, rest.drop 3)
      else if symbol = 't' then some (.bool true, rest.drop 3)
      else if symbol = 'f' then some (.bool false, rest.drop 4)
      else if symbol = quote then
        (scanString (rest.length + 1) rest).map fun (value, rest) =>
          (.string value, rest)
      else if symbol = '[' then
        if rest.head? = some ']' then some (.array [], rest.drop 1)
        else
          (scanValue fuel rest).bind fun (item, rest) =>
            (scanItems fuel rest).map fun (items, rest) =>
              (.array (item :: items), rest)
      else if symbol = Char.ofNat 123 then
        if rest.head? = some (Char.ofNat 125) then
          some (.object [], rest.drop 1)
        else
          (scanName rest).bind fun (name, rest) =>
            (scanValue fuel rest).bind fun (value, rest) =>
              (scanFields fuel rest).map fun (fields, rest) =>
                (.object ((name, value) :: fields), rest)
      else scanNumber (symbol :: rest)

def scanItems : Nat → Text → Option (List Json × Text)
  | 0, _ => none
  | _ + 1, [] => none
  | fuel + 1, symbol :: rest =>
      if symbol = ',' then
        (scanValue fuel rest).bind fun (item, rest) =>
          (scanItems fuel rest).map fun (items, rest) =>
            (item :: items, rest)
      else some ([], rest)

def scanFields : Nat → Text → Option (List (Text × Json) × Text)
  | 0, _ => none
  | _ + 1, [] => none
  | fuel + 1, symbol :: rest =>
      if symbol = ',' then
        (scanName rest).bind fun (name, rest) =>
          (scanValue fuel rest).bind fun (value, rest) =>
            (scanFields fuel rest).map fun (fields, rest) =>
              ((name, value) :: fields, rest)
      else some ([], rest)

end

def parse (input : Text) : Option Json :=
  match scanValue (input.length + 1) input with
  | some (json, []) => some json
  | _ => none

/-! ## Strings -/

theorem shortUnescape_shortEscape
    {symbol short : Char} (escaped : shortEscape symbol = some short) :
    shortUnescape short = some symbol := by
  have inverse :
      ∀ pair ∈ shortEscapes, shortUnescape pair.2 = some pair.1 := by
    decide
  rcases Option.map_eq_some_iff.mp escaped with ⟨pair, found, rfl⟩
  have same := List.find?_some found
  simp only [decide_eq_true_eq] at same
  rw [← same]
  exact inverse pair (List.mem_of_find?_eq_some found)

theorem hexValue_digitChar :
    ∀ digit < 16, hexValue (Nat.digitChar digit) = digit := by
  decide

theorem unescape_control {symbol : Char} (control : symbol.toNat < 32)
    (rest : Text) :
    unescape ('u' :: '0' :: '0' :: Nat.digitChar (symbol.toNat / 16) ::
        Nat.digitChar (symbol.toNat % 16) :: rest) =
      some (symbol, rest) := by
  have notShort : shortUnescape 'u' = none := by decide
  have high := hexValue_digitChar (symbol.toNat / 16) (by omega)
  have low := hexValue_digitChar (symbol.toNat % 16) (by omega)
  simp only [unescape, notShort, high, low]
  rw [Nat.div_add_mod symbol.toNat 16, Char.ofNat_toNat]

theorem scanString_escapeSymbol
    (fuel : Nat) (symbol : Char) (rest : Text) :
    scanString (fuel + 1) (escapeSymbol symbol ++ rest) =
      (scanString fuel rest).map fun (value, rest) =>
        (symbol :: value, rest) := by
  have different : backslash ≠ quote := by decide
  unfold escapeSymbol
  cases escaped : shortEscape symbol with
  | some short =>
      have back : unescape (short :: rest) = some (symbol, rest) := by
        simp only [unescape, shortUnescape_shortEscape escaped]
      simp [scanString, different, back]
  | none =>
      simp only
      by_cases control : symbol.toNat < 32
      · rw [if_pos control]
        simp [scanString, different, unescape_control control]
      · rw [if_neg control]
        have notQuote : symbol ≠ quote := by
          rintro rfl
          exact absurd escaped (by decide)
        have notBackslash : symbol ≠ backslash := by
          rintro rfl
          exact absurd escaped (by decide)
        simp [scanString, notQuote, notBackslash]

theorem scanString_escaped
    {fuel : Nat} (value : Text) (enough : value.length < fuel)
    (rest : Text) :
    scanString fuel (value.flatMap escapeSymbol ++ quote :: rest) =
      some (value, rest) := by
  induction value generalizing fuel with
  | nil =>
      cases fuel with
      | zero => exact absurd enough (Nat.not_lt_zero _)
      | succ fuel => simp [scanString]
  | cons symbol value induction =>
      cases fuel with
      | zero => exact absurd enough (Nat.not_lt_zero _)
      | succ fuel =>
          rw [List.flatMap_cons, List.append_assoc,
            scanString_escapeSymbol,
            induction (Nat.lt_of_succ_lt_succ enough)]
          rfl

theorem escapeSymbol_nonempty (symbol : Char) :
    1 ≤ (escapeSymbol symbol).length := by
  unfold escapeSymbol
  cases shortEscape symbol with
  | some short => simp
  | none =>
      simp only
      split
      · simp
      · simp

theorem length_le_escaped (value : Text) :
    value.length ≤ (value.flatMap escapeSymbol).length := by
  induction value with
  | nil => simp
  | cons symbol value induction =>
      have here := escapeSymbol_nonempty symbol
      rw [List.flatMap_cons, List.length_append, List.length_cons]
      omega

/-- A dumped string is scanned back, and the scan stops right behind it. -/
theorem scanString_dumpString (value rest : Text) :
    scanString
        ((value.flatMap escapeSymbol ++ [quote] ++ rest).length + 1)
        (value.flatMap escapeSymbol ++ [quote] ++ rest) =
      some (value, rest) := by
  have bound := length_le_escaped value
  rw [List.append_assoc]
  apply scanString_escaped
  simp only [List.length_append]
  omega

theorem scanName_dumpString (name rest : Text) :
    scanName (dumpString name ++ ':' :: rest) = some (name, rest) := by
  have scanned := scanString_dumpString name (':' :: rest)
  simp only [dumpString, List.cons_append, scanName]
  rw [scanned]
  rfl

/-! ## Numbers -/

/-- Text behind a value: a number must not go on there. -/
def Boundary (rest : Text) : Prop :=
  ∀ symbol ∈ rest.head?, symbol.isDigit = false

theorem takeWhile_decimalNat
    (number : Nat) {rest : Text} (boundary : Boundary rest) :
    (decimalNat number ++ rest).takeWhile Char.isDigit =
        decimalNat number ∧
      (decimalNat number ++ rest).dropWhile Char.isDigit = rest := by
  have digits := decimalNat_isDigit number
  rw [List.takeWhile_append_of_pos digits,
    List.dropWhile_append_of_pos digits]
  cases rest with
  | nil => simp
  | cons symbol rest =>
      have stops := boundary symbol rfl
      simp [stops]

theorem scanNumber_decimal
    (value : Int) {rest : Text} (boundary : Boundary rest) :
    scanNumber (decimal value ++ rest) = some (.number value, rest) := by
  have scanned := takeWhile_decimalNat value.natAbs boundary
  unfold decimal
  by_cases negative : value < 0
  · have magnitude : -(value.natAbs : Int) = value := by omega
    rw [if_pos negative]
    simp only [List.cons_append, scanNumber, scanned,
      decimalNat_nonempty, ofDigitChars_decimalNat, if_true, if_false,
      magnitude]
  · have magnitude : (value.natAbs : Int) = value := by omega
    rw [if_neg negative]
    have unsigned (tail : Text) :
        decimalNat value.natAbs ++ rest ≠ '-' :: tail := by
      intro equal
      cases shape : decimalNat value.natAbs with
      | nil => exact decimalNat_nonempty _ shape
      | cons symbol digits =>
          rw [shape, List.cons_append, List.cons.injEq] at equal
          rw [equal.1] at shape
          exact decimalNat_ne_minus _ _ shape
    unfold scanNumber
    split
    next negative' input split =>
      split at split
      · next tail equal => exact absurd equal (unsigned tail)
      · cases split
        simp only [scanned, decimalNat_nonempty,
          ofDigitChars_decimalNat, if_false, magnitude,
          Bool.false_eq_true]

/-! ## Values -/

mutual

/-- The fuel that a value needs. -/
def weight : Json → Nat
  | .array (item :: rest) => 1 + item.weight + weightItems rest
  | .object ((_, value) :: rest) => 1 + value.weight + weightFields rest
  | _ => 1

def weightItems : List Json → Nat
  | [] => 1
  | item :: rest => 1 + item.weight + weightItems rest

def weightFields : List (Text × Json) → Nat
  | [] => 1
  | (_, value) :: rest => 1 + value.weight + weightFields rest

end

theorem decimal_nonempty (value : Int) : 1 ≤ (decimal value).length := by
  unfold decimal
  split
  · simp
  · exact List.length_pos_iff.mpr (decimalNat_nonempty _)

mutual

theorem weight_le_length : ∀ json : Json, json.weight ≤ json.dump.length
  | .null => by decide
  | .bool true => by decide
  | .bool false => by decide
  | .number value => decimal_nonempty value
  | .string value => by simp [weight, dump, dumpString]
  | .array [] => by decide
  | .array (item :: rest) => by
      have first := weight_le_length item
      have later := weightItems_le_length rest
      simp only [weight, dump, List.length_cons, List.length_append]
      omega
  | .object [] => by decide
  | .object ((name, value) :: rest) => by
      have first := weight_le_length value
      have later := weightFields_le_length rest
      simp only [weight, dump, List.length_cons, List.length_append]
      omega

theorem weightItems_le_length :
    ∀ items : List Json, weightItems items ≤ (dumpItems items).length
  | [] => by decide
  | item :: rest => by
      have first := weight_le_length item
      have later := weightItems_le_length rest
      simp only [weightItems, dumpItems, List.length_cons,
        List.length_append]
      omega

theorem weightFields_le_length :
    ∀ fields : List (Text × Json),
      weightFields fields ≤ (dumpFields fields).length
  | [] => by decide
  | (name, value) :: rest => by
      have first := weight_le_length value
      have later := weightFields_le_length rest
      simp only [weightFields, dumpFields, List.length_cons,
        List.length_append]
      omega

end

/-- The first symbol of a dumped value closes no bracket. -/
theorem head_dump (json : Json) :
    ∃ symbol rest, json.dump = symbol :: rest ∧ symbol ≠ ']' := by
  cases json with
  | null => exact ⟨_, _, rfl, by decide⟩
  | bool value =>
      cases value with
      | true => exact ⟨_, _, rfl, by decide⟩
      | false => exact ⟨_, _, rfl, by decide⟩
  | number value =>
      rw [dump, decimal]
      by_cases negative : value < 0
      · rw [if_pos negative]
        exact ⟨_, _, rfl, by decide⟩
      · rw [if_neg negative]
        cases shape : decimalNat value.natAbs with
        | nil => exact absurd shape (decimalNat_nonempty _)
        | cons symbol digits =>
            have digit := decimalNat_isDigit value.natAbs symbol
              (by simp [shape])
            refine ⟨symbol, digits, rfl, ?_⟩
            rintro rfl
            exact absurd digit (by decide)
  | string value => exact ⟨_, _, rfl, by decide⟩
  | array items =>
      cases items with
      | nil => exact ⟨_, _, rfl, by decide⟩
      | cons item rest => exact ⟨_, _, rfl, by decide⟩
  | object fields =>
      cases fields with
      | nil => exact ⟨_, _, rfl, by decide⟩
      | cons field rest => exact ⟨_, _, rfl, by decide⟩

theorem weight_pos (json : Json) : 1 ≤ json.weight := by
  cases json with
  | array items => cases items <;> simp [weight]; omega
  | object fields => cases fields <;> simp [weight]; omega
  | _ => exact Nat.le_refl 1

theorem boundary_dumpItems (items : List Json) (rest : Text) :
    Boundary (dumpItems items ++ rest) := by
  intro symbol found
  cases items with
  | nil =>
      cases found
      rfl
  | cons item items =>
      cases found
      rfl

theorem boundary_dumpFields
    (fields : List (Text × Json)) (rest : Text) :
    Boundary (dumpFields fields ++ rest) := by
  intro symbol found
  cases fields with
  | nil =>
      cases found
      rfl
  | cons field fields =>
      cases found
      rfl

theorem scanValue_number
    (fuel : Nat) (value : Int) {rest : Text} (boundary : Boundary rest) :
    scanValue (fuel + 1) (decimal value ++ rest) =
      some (.number value, rest) := by
  have scanned := scanNumber_decimal value boundary
  have first :
      ∃ symbol digits,
        decimal value = symbol :: digits ∧
          (symbol = '-' ∨ symbol.isDigit = true) := by
    rw [decimal]
    by_cases negative : value < 0
    · rw [if_pos negative]
      exact ⟨_, _, rfl, Or.inl rfl⟩
    · rw [if_neg negative]
      cases shape : decimalNat value.natAbs with
      | nil => exact absurd shape (decimalNat_nonempty _)
      | cons symbol digits =>
          exact ⟨symbol, digits, rfl,
            Or.inr (decimalNat_isDigit value.natAbs symbol
              (by simp [shape]))⟩
  rcases first with ⟨symbol, digits, shape, kind⟩
  rw [shape, List.cons_append] at scanned ⊢
  have other :
      ∀ special : Char, special ≠ '-' → special.isDigit = false →
        symbol ≠ special := by
    rintro special notMinus notDigit rfl
    rcases kind with minus | digit
    · exact notMinus minus
    · rw [notDigit] at digit
      cases digit
  simp only [scanValue, other 'n' (by decide) (by decide),
    other 't' (by decide) (by decide), other 'f' (by decide) (by decide),
    other quote (by decide) (by decide), other '[' (by decide) (by decide),
    other (Char.ofNat 123) (by decide) (by decide), if_false, scanned]

mutual

/-- A dumped value is scanned back, and the scan stops right behind it. -/
theorem scanValue_dump :
    ∀ (json : Json) (fuel : Nat) (rest : Text),
      Boundary rest → json.weight ≤ fuel + 1 →
        scanValue (fuel + 1) (json.dump ++ rest) = some (json, rest)
  | .null, _, _, _, _ => rfl
  | .bool true, _, _, _, _ => rfl
  | .bool false, _, _, _, _ => rfl
  | .number value, fuel, _, boundary, _ =>
      scanValue_number fuel value boundary
  | .string value, _, rest, _, _ => by
      have scanned := scanString_dumpString value rest
      simp only [dump, dumpString, List.cons_append, scanValue]
      rw [scanned]
      rfl
  | .array [], _, _, _, _ => rfl
  | .array (item :: items), fuel, rest, _, enough => by
      simp only [weight] at enough
      have positive := weight_pos item
      cases fuel with
      | zero => omega
      | succ fuel =>
          have first :=
            scanValue_dump item fuel (dumpItems items ++ rest)
              (boundary_dumpItems items rest) (by omega)
          have later := scanItems_dump items fuel rest (by omega)
          rcases head_dump item with ⟨symbol, tail, shape, opens⟩
          have more :
              (item.dump ++ (dumpItems items ++ rest)).head? ≠
                some ']' := by
            simp [shape, opens]
          have notQuote : '[' ≠ quote := by decide
          simp only [dump, List.cons_append, List.append_assoc, scanValue]
          rw [if_neg more, first]
          simp [later, notQuote]
  | .object [], _, _, _, _ => rfl
  | .object ((name, value) :: fields), fuel, rest, _, enough => by
      simp only [weight] at enough
      have positive := weight_pos value
      cases fuel with
      | zero => omega
      | succ fuel =>
          have named :=
            scanName_dumpString name
              (value.dump ++ (dumpFields fields ++ rest))
          have first :=
            scanValue_dump value fuel (dumpFields fields ++ rest)
              (boundary_dumpFields fields rest) (by omega)
          have later := scanFields_dump fields fuel rest (by omega)
          have more :
              (dumpString name ++
                  ':' :: (value.dump ++ (dumpFields fields ++ rest))).head? ≠
                some (Char.ofNat 125) := by
            simp only [dumpString, List.cons_append, List.head?_cons]
            decide
          have notQuote : Char.ofNat 123 ≠ quote := by decide
          simp only [dump, List.cons_append, List.append_assoc, scanValue]
          rw [if_neg more, named]
          simp [first, later, notQuote]

theorem scanItems_dump :
    ∀ (items : List Json) (fuel : Nat) (rest : Text),
      weightItems items ≤ fuel + 1 →
        scanItems (fuel + 1) (dumpItems items ++ rest) =
          some (items, rest)
  | [], _, _, _ => rfl
  | item :: items, fuel, rest, enough => by
      simp only [weightItems] at enough
      have positive := weight_pos item
      cases fuel with
      | zero => omega
      | succ fuel =>
          have first :=
            scanValue_dump item fuel (dumpItems items ++ rest)
              (boundary_dumpItems items rest) (by omega)
          have later := scanItems_dump items fuel rest (by omega)
          simp only [dumpItems, List.cons_append, List.append_assoc,
            scanItems, if_true, first, Option.bind_some, later,
            Option.map_some]

theorem scanFields_dump :
    ∀ (fields : List (Text × Json)) (fuel : Nat) (rest : Text),
      weightFields fields ≤ fuel + 1 →
        scanFields (fuel + 1) (dumpFields fields ++ rest) =
          some (fields, rest)
  | [], _, _, _ => rfl
  | (name, value) :: fields, fuel, rest, enough => by
      simp only [weightFields] at enough
      have positive := weight_pos value
      cases fuel with
      | zero => omega
      | succ fuel =>
          have named :=
            scanName_dumpString name
              (value.dump ++ (dumpFields fields ++ rest))
          have first :=
            scanValue_dump value fuel (dumpFields fields ++ rest)
              (boundary_dumpFields fields rest) (by omega)
          have later := scanFields_dump fields fuel rest (by omega)
          simp only [dumpFields, List.cons_append, List.append_assoc,
            scanFields, if_true, named, Option.bind_some, first, later,
            Option.map_some]

end

theorem parse_dump (json : Json) : parse json.dump = some json := by
  have scanned :=
    scanValue_dump json json.dump.length [] (by simp [Boundary])
      (Nat.le_succ_of_le (weight_le_length json))
  rw [List.append_nil] at scanned
  rw [parse, scanned]

/-- The library of the compact texts. -/
def compactLibrary : JsonLibrary where
  dump := dump
  parse := parse
  parse_dump := fun json _ => parse_dump json

theorem rejectsMore_compactLibrary : compactLibrary.RejectsMore := by
  intro first second rest _ _
  have opens :
      ∃ tail, (Json.object second).dump ++ rest = Char.ofNat 123 :: tail := by
    rcases second with - | ⟨⟨name, value⟩, fields⟩
    · exact ⟨_, rfl⟩
    · exact ⟨_, rfl⟩
  rcases opens with ⟨tail, shape⟩
  have boundary : Boundary (Char.ofNat 123 :: tail) := by
    intro symbol found
    cases found
    rfl
  have scanned :=
    scanValue_dump (.object first)
      ((Json.object first).dump ++ Char.ofNat 123 :: tail).length
      (Char.ofNat 123 :: tail) boundary (by
        have weight := weight_le_length (.object first)
        rw [List.length_append]
        omega)
  show parse ((Json.object first).dump ++ (Json.object second).dump ++ rest)
    = none
  rw [List.append_assoc, shape, parse, scanned]

end LightningServer.Foundation.Json
