/-
  ErrorContract.Mismatch
  ──────────────────────
  **WELL-FORMED DATA OF THE WRONG SHAPE.**

  Request bodies and configuration documents are read into typed values, and
  both name what does not fit in the same words: what was found, what was
  expected, and which names would have been accepted.
-/
import ErrorContract.Text.Quoted
import ErrorContract.Number.Shortest

namespace ErrorContract

/-! ## §1. What was found. -/

/-- A piece of data, as a message names it. -/
inductive Found where
  /-- No value. -/
  | null
  | bool (b : Bool)
  | int (i : Int)
  | float (x : Float)
  | text (s : String)
  /-- A list of values. -/
  | sequence
  /-- A table of named values. -/
  | map
  /-- The bare name of a variant. -/
  | bareVariant
  deriving Repr

/-- The name of what was found; `style` lays floating point numbers out. -/
def Found.describe (style : Number.FloatStyle) : Found → String
  | .null => "null"
  | .bool b => "boolean `" ++ (if b then "true" else "false") ++ "`"
  | .int i => "integer `" ++ Decimal.signedText i ++ "`"
  | .float x => "floating point `" ++ style.text x ++ "`"
  | .text s => "string " ++ Quoted.text s
  | .sequence => "sequence"
  | .map => "map"
  | .bareVariant => "unit variant"

/-! ## §2. What does not fit. -/

/-- Why a piece of data does not fit the expected type. -/
inductive Mismatch where
  /-- Data of another kind. -/
  | wrongKind (found : Found) (expected : String)
  /-- Data of the right kind with a value outside its range. -/
  | wrongValue (found : Found) (expected : String)
  /-- Too few or too many elements. -/
  | wrongLength (length : Nat) (expected : String)
  | unknownVariant (name : String) (allowed : List String)
  | unknownField (name : String) (allowed : List String)
  | missingField (name : String)
  | duplicateField (name : String)
  /-- A fault with words of its own. -/
  | other (message : String)
  deriving Repr

/-- The names that would have been accepted. -/
def oneOf : List String → String
  | [name] => "`" ++ name ++ "`"
  | [a, b] => "`" ++ a ++ "` or `" ++ b ++ "`"
  | names => "one of " ++ String.intercalate ", " (names.map fun n => "`" ++ n ++ "`")

/-- **A mismatch in words.** -/
def Mismatch.message (style : Number.FloatStyle) : Mismatch → String
  | .wrongKind found expected => "invalid type: " ++ found.describe style ++ ", expected " ++ expected
  | .wrongValue found expected =>
    "invalid value: " ++ found.describe style ++ ", expected " ++ expected
  | .wrongLength length expected =>
    "invalid length " ++ Decimal.text length ++ ", expected " ++ expected
  | .unknownVariant name allowed => "unknown variant `" ++ name ++ "`, expected " ++ oneOf allowed
  | .unknownField name allowed => "unknown field `" ++ name ++ "`, expected " ++ oneOf allowed
  | .missingField name => "missing field `" ++ name ++ "`"
  | .duplicateField name => "duplicate field `" ++ name ++ "`"
  | .other message => message

/-- `n` elements, in words. -/
def elements (n : Nat) : String := Decimal.text n ++ (if n = 1 then " element" else " elements")

/-! ## §3. Whole numbers of a bounded kind. -/

/-- A kind of bounded whole number. -/
structure IntegerKind where
  /-- Its name in messages. -/
  name : String
  /-- The least number of the kind. -/
  least : Int
  /-- The greatest number of the kind. -/
  greatest : Int
  deriving Repr, DecidableEq

/-- Is the number one of the kind? -/
def IntegerKind.holds (k : IntegerKind) (i : Int) : Bool := k.least ≤ i && i ≤ k.greatest

/-- Signed numbers of `bits` bits. -/
def IntegerKind.signed (bits : Nat) : IntegerKind :=
  let bound : Int := Nat.pow 2 (bits - 1)
  ⟨"i" ++ Decimal.text bits, -bound, bound - 1⟩

/-- Unsigned numbers of `bits` bits. -/
def IntegerKind.unsigned (bits : Nat) : IntegerKind :=
  let bound : Int := Nat.pow 2 bits
  ⟨"u" ++ Decimal.text bits, 0, bound - 1⟩

/-- **Check a number against a kind.** -/
def IntegerKind.check (k : IntegerKind) (i : Int) : Except Mismatch Int :=
  if k.holds i then .ok i else .error (.wrongValue (.int i) k.name)

end ErrorContract
