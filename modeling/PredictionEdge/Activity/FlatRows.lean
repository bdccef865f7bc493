import PredictionEdge.Activity.Parse

/-!
# A reader of flat rows

The JSON reader of the parser is a library. This one reads what the samples need: rows that
are one flat object, whose texts have no escapes, commas or colons in them. It reads those
as JSON is read, and refuses everything else.
-/

namespace PredictionEdge.FlatRows

open Lib

/-- A character that stands for itself in a text. -/
def isPlain (c : Char) : Bool := c ≠ '"' ∧ c ≠ '\\' ∧ 32 ≤ c.toNat ∧ c.toNat < 128

/-- The text between two quotes. -/
def quoted : List Char → Option (List Char)
  | '"' :: rest =>
    if rest.getLast? = some '"' ∧ rest.dropLast.all isPlain then some rest.dropLast else none
  | _ => none

/-- The size of a JSON number: `digits * 10 ^ power`. -/
structure Magnitude where
  digits : Nat
  power : Int

def exponent : List Char → Option Int
  | '-' :: digits => (parseDigits digits).map fun n => -(n : Int)
  | '+' :: digits => (parseDigits digits).map Int.ofNat
  | digits => (parseDigits digits).map Int.ofNat

def unsigned (lexeme : List Char) : Option Magnitude := do
  let (mantissa, power) := lexeme.span fun c => c ≠ 'e' ∧ c ≠ 'E'
  let (whole, fraction) := mantissa.span (· ≠ '.')
  -- no zero in front, and digits on both sides of a point
  if (whole.head? = some '0' ∧ whole.length ≠ 1) ∨ fraction = ['.'] then none
  else
    let _ ← parseDigits whole
    let digits ← parseDigits (whole ++ fraction.tail)
    let power ← if power = [] then some 0 else exponent power.tail
    return ⟨digits, power - fraction.tail.length⟩

def magnitude : List Char → Option Magnitude
  | '-' :: lexeme => unsigned lexeme
  | lexeme => unsigned lexeme

/-- The number is nearer to a float than to infinity. -/
def Magnitude.finite (m : Magnitude) : Bool :=
  m.digits * 10 ^ m.power.toNat < (2 ^ 1024 - 2 ^ 970) * 10 ^ (-m.power).toNat

def isLexeme (lexeme : List Char) : Bool :=
  (quoted lexeme).isSome || (magnitude lexeme).isSome || String.ofList lexeme ∈ ["true", "false", "null"]

/-- The characters of a plain text, byte by byte. -/
def chars (text : String) : List Char := text.toByteArray.data.toList.map fun b => Char.ofNat b.toNat

/-- The keys of a flat object, each with the text of its value. -/
def lexemes (text : String) : Option (List (String × List Char)) :=
  match chars text with
  | '\x7b' :: rest => do
    if rest.getLast? ≠ some '\x7d' then none
    else
      let row ← (rest.dropLast.splitOn ',').mapM fun piece => do
        let key ← quoted (piece.takeWhile (· ≠ ':'))
        return (String.ofList key, (piece.dropWhile (· ≠ ':')).tail)
      if row.all (fun field => isLexeme field.2) ∧ (row.map Prod.fst).Nodup then return row else none
  | _ => none

/-- The value of a field that is there and not null. -/
def get (row : List (String × List Char)) (key : String) : Option (List Char) :=
  (row.lookup key).filter fun lexeme => String.ofList lexeme ≠ "null"

def text (row : List (String × List Char)) (key : String) : Except String (Option String) :=
  (get row key).mapM fun lexeme => okOr ((quoted lexeme).map String.ofList) "not a text"

def time (lexeme : List Char) : Except String FlexibleI64 :=
  match quoted lexeme with
  | some value => .ok (.text (String.ofList value))
  | none => okOr ((parseI64 (String.ofList lexeme)).map .number) "not a time"

def flag (lexeme : List Char) : Except String Bool :=
  match String.ofList lexeme with
  | "true" => .ok true
  | "false" => .ok false
  | _ => .error "not a flag"

def fields (rawRow : String) : Except String (RawActivity String String) := do
  let row ← okOr (lexemes rawRow) "not a row"
  return {
    proxyWallet := ← text row "proxyWallet"
    timestamp := ← (get row "timestamp").mapM time
    activityType := ← text row "type"
    transactionHash := ← text row "transactionHash"
    conditionId := ← text row "conditionId"
    asset := ← text row "asset"
    outcomeIndex := (get row "outcomeIndex").map String.ofList
    outcome := ← text row "outcome"
    side := ← text row "side"
    price := (get row "price").map String.ofList
    size := (get row "size").map String.ofList
    usdcSize := (get row "usdcSize").map String.ofList
    isCombo := ← (get row "isCombo").mapM flag }

def index (raw : String) : Except String FlexibleU16 :=
  match quoted raw.toList with
  | some value => .ok (.text (String.ofList value))
  | none => okOr ((parseU16 raw).map .number) "not an index"

/-- Every number of the row is one that a float can hold. -/
def value (rawRow : String) : Except String Unit := do
  let row ← okOr (lexemes rawRow) "not a row"
  refuseIf (row.any fun field => (magnitude field.2).any fun m => !m.finite) "number out of range"

/-- A decimal without sign and exponent. -/
def decimal (text : String) : Option Decimal := do
  let m ← magnitude text.toList
  if h : m.digits < 2 ^ 96 ∧ (-m.power).toNat < 29 then
    if text.toList.all fun c => c.isDigit ∨ c = '.' then
      return ⟨m.digits / 10 ^ (-m.power).toNat, Decimal.representable_div h.1 h.2⟩
    else none
  else none

/-- The reader for one row; no page is read, and nothing is hashed. -/
def libraries : ActivityLibraries where
  rows _ := .error "not a page"
  fields := fields
  flexibleU16 := index
  rejection _ := "not a row"
  value := value
  canonical raw := .ok raw
  fromStrExact := decimal
  decimalText _ := "0"
  arith := .rounded
  blake3 _ := ""

end PredictionEdge.FlatRows
