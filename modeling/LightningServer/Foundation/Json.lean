import LightningServer.Foundation.Numerals

/-!
# JSON values and their text

Values as a C++ JSON library keeps them: an object is a map, so its fields
are sorted by name and no name occurs twice.  `dump` writes the compact text,
with the characters outside ASCII as they are.

A development takes the library itself as a parameter, `JsonLibrary`: the two
functions, and the promise that parsing undoes dumping.  One such library is
in `LightningServer.Foundation.JsonParser`.
-/

namespace LightningServer.Foundation

open LightningServer.Foundation.Numerals

/-- Text as a sequence of Unicode characters. -/
abbrev Text := List Char

/-- The characters of a literal. -/
def text (literal : String) : Text :=
  literal.toList

inductive Json where
  | null
  | bool (value : Bool)
  | number (value : Int)
  | string (value : Text)
  | array (items : List Json)
  | object (fields : List (Text × Json))

namespace Json

/-! ## Objects -/

/-- `emplace` into a sorted map: a name that is there keeps its value. -/
def insertField (name : Text) (value : Json) :
    List (Text × Json) → List (Text × Json)
  | [] => [(name, value)]
  | (other, old) :: rest =>
      if name < other then (name, value) :: (other, old) :: rest
      else if name = other then (other, old) :: rest
      else (other, old) :: insertField name value rest

/-- An object from an initializer list. -/
def ofFields (fields : List (Text × Json)) : Json :=
  .object (fields.foldl
    (fun sorted field => insertField field.1 field.2 sorted) [])

/-- The value of a field of an object. -/
def field? (json : Json) (name : Text) : Option Json :=
  match json with
  | .object fields =>
      (fields.find? fun field => field.1 = name).map Prod.snd
  | _ => none

/-- `erase` of a field of an object. -/
def eraseField (json : Json) (name : Text) : Json :=
  match json with
  | .object fields => .object (fields.filter fun field => field.1 ≠ name)
  | other => other

def number? : Json → Option Int
  | .number value => some value
  | _ => none

def string? : Json → Option Text
  | .string value => some value
  | _ => none

def items : Json → List Json
  | .array items => items
  | _ => []

/-! ## Values that the library can hold -/

mutual

/-- Integers fit in 64 bits, and objects are sorted maps. -/
def Canonical : Json → Prop
  | .null => True
  | .bool _ => True
  | .number value => -2 ^ 63 ≤ value ∧ value < 2 ^ 64
  | .string _ => True
  | .array items => CanonicalItems items
  | .object fields =>
      (fields.map Prod.fst).Pairwise (fun left right => left < right) ∧
        CanonicalFields fields

def CanonicalItems : List Json → Prop
  | [] => True
  | item :: rest => item.Canonical ∧ CanonicalItems rest

def CanonicalFields : List (Text × Json) → Prop
  | [] => True
  | (_, value) :: rest => value.Canonical ∧ CanonicalFields rest

end

/-! ## Compact text -/

def quote : Char :=
  Char.ofNat 34

def backslash : Char :=
  Char.ofNat 92

/-- The characters written as a backslash and one symbol. -/
def shortEscapes : List (Char × Char) :=
  [(quote, quote), (backslash, backslash), (Char.ofNat 8, 'b'),
    (Char.ofNat 12, 'f'), (Char.ofNat 10, 'n'), (Char.ofNat 13, 'r'),
    (Char.ofNat 9, 't')]

def shortEscape (symbol : Char) : Option Char :=
  (shortEscapes.find? fun pair => pair.1 = symbol).map Prod.snd

def escapeSymbol (symbol : Char) : Text :=
  match shortEscape symbol with
  | some short => [backslash, short]
  | none =>
      if symbol.toNat < 32 then
        [backslash, 'u', '0', '0', Nat.digitChar (symbol.toNat / 16),
          Nat.digitChar (symbol.toNat % 16)]
      else [symbol]

def dumpString (value : Text) : Text :=
  quote :: (value.flatMap escapeSymbol ++ [quote])

mutual

def dump : Json → Text
  | .null => text "null"
  | .bool true => text "true"
  | .bool false => text "false"
  | .number value => decimal value
  | .string value => dumpString value
  | .array [] => text "[]"
  | .array (item :: rest) => '[' :: (item.dump ++ dumpItems rest)
  | .object [] => text "\x7b\x7d"
  | .object ((name, value) :: rest) =>
      Char.ofNat 123 ::
        (dumpString name ++ ':' :: (value.dump ++ dumpFields rest))

/-- The items after the first one, and the closing bracket. -/
def dumpItems : List Json → Text
  | [] => [']']
  | item :: rest => ',' :: (item.dump ++ dumpItems rest)

/-- The fields after the first one, and the closing brace. -/
def dumpFields : List (Text × Json) → Text
  | [] => [Char.ofNat 125]
  | (name, value) :: rest =>
      ',' :: (dumpString name ++ ':' :: (value.dump ++ dumpFields rest))

end

end Json

/-! ## The library as a parameter -/

/-- A JSON library whose `parse` undoes its `dump`. -/
structure JsonLibrary where
  dump : Json → Text
  /-- none when the text is rejected -/
  parse : Text → Option Json
  parse_dump : ∀ json : Json, json.Canonical → parse (dump json) = some json

attribute [simp] JsonLibrary.parse_dump

/-- `parse` reads one value: an object with another behind it is rejected. -/
def JsonLibrary.RejectsMore (library : JsonLibrary) : Prop :=
  ∀ (first second : List (Text × Json)) (rest : Text),
    (Json.object first).Canonical → (Json.object second).Canonical →
      library.parse
          (library.dump (.object first) ++ library.dump (.object second) ++
            rest) = none

theorem JsonLibrary.dump_injective
    (library : JsonLibrary) {left right : Json}
    (leftCanonical : left.Canonical) (rightCanonical : right.Canonical)
    (equal : library.dump left = library.dump right) :
    left = right := by
  have parsed := congrArg library.parse equal
  rw [library.parse_dump left leftCanonical,
    library.parse_dump right rightCanonical] at parsed
  exact Option.some.inj parsed

end LightningServer.Foundation
