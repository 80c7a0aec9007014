/-
  ErrorContract.Json.Reader
  ─────────────────────────
  **READING A VALUE OF A GIVEN LAYOUT.**

  `readAt schema context depth layout` reads one value with at most `depth`
  open brackets.  It goes through the body once: what is met first is what
  is reported, a wrong shape as well as a fault of form.  When reading
  inside brackets fails, their end is still looked for, and that is the
  place of a mismatch that has none of its own.
-/
import ErrorContract.Json.Kept
import ErrorContract.Json.Skip

namespace ErrorContract.Json

open ErrorContract

/-! ## §1. Keeping track. -/

/-- What a reader is told besides the layout. -/
structure Context where
  /-- At least the number of bytes of the body: no loop goes round more often. -/
  bound : Nat
  /-- Whether errors say on the way to which value they were met. -/
  tracked : Bool

/-- Put a step in front of the trail of an error. -/
def Context.step (ctx : Context) (s : Option PathSegment) (read : Read α) : Read α := fun c =>
  match read c with
  | .ok a c' => .ok a c'
  | .error e c' => .error (if ctx.tracked then { e with trail := s :: e.trail } else e) c'

/-- Read the element at a position. -/
def Context.atIndex (ctx : Context) (position : Nat) (read : Read α) : Read α :=
  ctx.step (some (.index position)) read

/-- Read the member with a name. -/
def Context.atField (ctx : Context) (name : String) (read : Read α) : Read α :=
  ctx.step (some (.field name)) read

/-! ## §2. Brackets and separators. -/

/-- The end of a list, after its last element. -/
def closeList : Read Unit := do
  match ← look with
  | some 0x5d => advance
  | some 0x2c =>
    advance
    match ← look with
    | some 0x5d => failNext .trailingComma
    | _ => failNext .trailingCharacters
  | some _ => failNext .trailingCharacters
  | none => failNext .endInList

/-- The end of an object, after its last member. -/
def closeObject : Read Unit := do
  match ← look with
  | some 0x7d => advance
  | some 0x2c => failNext .trailingComma
  | some _ => failNext .trailingCharacters
  | none => failNext .endInObject

/-- Read what stands between brackets. The end is looked for even when the inside failed, but
the first failure is the one that counts. -/
def bracketed (close : Read Unit) (inside : Read α) : Read α := fixing fun c =>
  match inside c.advance with
  | .ok a c' =>
    match close c' with
    | .ok _ c'' => .ok a c''
    | .error e c'' => .error e c''
  | .error e c' =>
    match close c' with
    | .ok _ c'' | .error _ c'' => .error e c''

/-- Does another element follow in this list? -/
def hasItem (first : Bool) : Read Bool := do
  match ← look with
  | none => failNext .endInList
  | some 0x5d => return false
  | some b =>
    if first then return true
    else if b = 0x2c then
      advance
      match ← look with
      | none => failNext .endInValue
      | some 0x5d => failNext .trailingComma
      | some _ => return true
    else failNext .expectedListCommaOrEnd

/-- Does another member follow in this object? Then its name does. -/
def hasMember (first : Bool) : Read Bool := do
  match ← look with
  | none => failNext .endInObject
  | some 0x7d => return false
  | some b =>
    if first then
      if b = 0x22 then return true else failNext .keyMustBeString
    else if b = 0x2c then
      advance
      match ← look with
      | none => failNext .endInValue
      | some 0x22 => return true
      | some 0x7d => failNext .trailingComma
      | some _ => failNext .keyMustBeString
    else failNext .expectedObjectCommaOrEnd

/-- The name of the next member, if there is one. -/
def memberName (ctx : Context) (first : Bool) : Read (Option String) :=
  ctx.step none do
    if ← hasMember first then
      advance
      return some (← string)
    else return none

/-- Read elements up to the end of the list. -/
def items (ctx : Context) (read : Read Value) : Nat → Nat → List Value → Read (List Value)
  | 0, _, _ => failNext .endInList
  | rounds + 1, position, before => do
    if ← hasItem (position == 0) then
      let v ← ctx.atIndex position read
      items ctx read rounds (position + 1) (v :: before)
    else return before.reverse

/-! ## §3. Values without brackets. -/

/-- Read a value without brackets, whose first byte is `b`. -/
def leaf (b : UInt8) : Read Value := do
  match b with
  | 0x6e => advance; literal nullTail; return .null
  | 0x74 => advance; literal trueTail; return .bool true
  | 0x66 => advance; literal falseTail; return .bool false
  | 0x22 => advance; return .text (← string)
  | 0x2d => advance; number false
  | b => if isDigit b then number true else failNext .expectedValue

/-- A value that begins with `b` is not what was expected. -/
def wrongKind (expected : String) (b : UInt8) : Read α := fixing do
  match b with
  | 0x5b => mismatch (.wrongKind .sequence expected)
  | 0x7b => mismatch (.wrongKind .map expected)
  | b => mismatch (.wrongKind (← leaf b).found expected)

/-- The first byte of a value that has to follow. -/
def firstByte : Read UInt8 := do
  match ← look with
  | none => failNext .endInValue
  | some b => return b

/-- Read a string, or say what was expected. -/
def readText (expected : String) : Read String := do
  match ← firstByte with
  | 0x22 => advance; string
  | b => wrongKind expected b

/-- Read `null`. -/
def readUnit : Read Value := do
  match ← firstByte with
  | 0x6e => advance; literal nullTail; return .null
  | b => wrongKind "unit" b

/-- Read a truth value. -/
def readTruth : Read Value := do
  match ← firstByte with
  | 0x74 => advance; literal trueTail; return .bool true
  | 0x66 => advance; literal falseTail; return .bool false
  | b => wrongKind "a boolean" b

/-- Fit a number to its kind. -/
def fitInteger (kind : IntegerKind) (v : Value) : Read Int :=
  match v with
  | .int i =>
    match kind.check i with
    | .ok i => return i
    | .error m => mismatch m
  | v => mismatch (.wrongKind v.found kind.name)

/-- Read a whole number of a kind. -/
def readInteger (kind : IntegerKind) : Read Int := do
  let b ← firstByte
  if b = 0x2d then fixing do advance; fitInteger kind (← number false)
  else if isDigit b then fixing do fitInteger kind (← number true)
  else wrongKind kind.name b

/-! ## §4. Values with brackets. -/

/-- The reader of the values inside brackets; absent when no more brackets may be opened. -/
abbrev Inner (τ : Type) := Option (Layout τ → Read Value)

/-- Open brackets, if that is still allowed. -/
def opening (inner : Inner τ) (read : (Layout τ → Read Value) → Read α) : Read α :=
  match inner with
  | none => failNext .recursionLimit
  | some inside => read inside

/-- Read the value of a field. -/
def readField (schema : Schema τ) (read : Layout τ → Read Value) (field : Field τ) :
    Read Value := do
  match field.presence with
  | .nullable | .optional =>
    match ← look with
    | some 0x6e => advance; literal nullTail; return .null
    | _ => read (schema field.type)
  | _ => read (schema field.type)

/-- Read a record that is written as the list of its values. -/
def positional (schema : Schema τ) (ctx : Context) (read : Layout τ → Read Value)
    (title : String) : Nat → List (Field τ) → Read (List (String × Value))
  | _, [] => return []
  | position, field :: fields => do
    let v ← if ← hasItem (position == 0) then
        ctx.atIndex position (readField schema read field)
      else match field.presence with
        | .optional => pure .null
        | .defaulted v => pure v
        | _ => mismatch (.wrongLength position title)
    return (field.name, v) :: (← positional schema ctx read title (position + 1) fields)

/-- Read the members of a record; `before` holds the fields read so far. -/
def namedFields (schema : Schema τ) (ctx : Context) (read : Layout τ → Read Value)
    (fields : List (Field τ)) (closed : Bool) :
    Nat → Bool → List (String × Value) → Read (List (String × Value))
  | 0, _, _ => failNext .endInObject
  | rounds + 1, first, before => do
    match ← memberName ctx first with
    | none => return before
    | some name =>
      match fields.find? (·.name == name) with
      | some field =>
        if (before.lookup name).isSome then mismatch (.duplicateField name)
        colon
        let v ← ctx.atField name (readField schema read field)
        namedFields schema ctx read fields closed rounds false ((name, v) :: before)
      | none =>
        if closed then
          ctx.atField name (mismatch (.unknownField name (fieldNames fields)))
        colon
        ctx.atField name (skipValue ctx.bound)
        namedFields schema ctx read fields closed rounds false before

/-- The fields of a record in their order, with what stands for the missing ones. -/
def complete (read : List (String × Value)) : List (Field τ) → Read (List (String × Value))
  | [] => return []
  | field :: fields => do
    let v ← match read.lookup field.name, field.presence with
      | some v, _ => pure v
      | none, .required => mismatch (.missingField field.name)
      | none, .nullable | none, .optional => pure .null
      | none, .defaulted v => pure v
    return (field.name, v) :: (← complete read fields)

/-- Read a record. -/
def readRecord (schema : Schema τ) (ctx : Context) (inner : Inner τ) (title : String)
    (fields : List (Field τ)) (closed : Bool) : Read Value := do
  match ← firstByte with
  | 0x5b => opening inner fun read => bracketed closeList do
    return .object (← positional schema ctx read (titleWith title fields.length) 0 fields)
  | 0x7b => opening inner fun read => bracketed closeObject do
    let members ← namedFields schema ctx read fields closed (ctx.bound + 1) true []
    return .object (← complete members fields)
  | b => wrongKind title b

/-- Read a list of so many values. -/
def fixedItems (schema : Schema τ) (ctx : Context) (read : Layout τ → Read Value)
    (title : String) : Nat → List τ → Read (List Value)
  | _, [] => return []
  | position, type :: types => do
    if ← hasItem (position == 0) then
      let v ← ctx.atIndex position (read (schema type))
      return v :: (← fixedItems schema ctx read title (position + 1) types)
    else mismatch (.wrongLength position title)

/-- Read a tuple. -/
def readTuple (schema : Schema τ) (ctx : Context) (inner : Inner τ) (title whole : String)
    (types : List τ) : Read Value := do
  match ← firstByte with
  | 0x5b => opening inner fun read => bracketed closeList do
    return .list (← fixedItems schema ctx read whole 0 types)
  | b => wrongKind title b

/-- Read a list of any length. -/
def readList (ctx : Context) (inner : Inner τ) (element : Layout τ) : Read Value := do
  match ← firstByte with
  | 0x5b => opening inner fun read => bracketed closeList do
    return .list (← items ctx (read element) (ctx.bound + 1) 0 [])
  | b => wrongKind "a sequence" b

/-- Read members with free names up to the end of the object. -/
def freeMembers (ctx : Context) (read : Read Value) :
    Nat → Bool → List (String × Value) → Read (List (String × Value))
  | 0, _, _ => failNext .endInObject
  | rounds + 1, first, before => do
    match ← memberName ctx first with
    | none => return before.reverse
    | some name =>
      colon
      let v ← ctx.atField name read
      freeMembers ctx read rounds false ((name, v) :: before)

/-- Read any value; `finished` is what becomes of the members of an object. -/
def readFree (ctx : Context) (inner : Inner τ) (layout : Layout τ)
    (finished : List (String × Value) → List (String × Value)) : Read Value := do
  match ← firstByte with
  | 0x5b => opening inner fun read => bracketed closeList do
    return .list (← items ctx (read layout) (ctx.bound + 1) 0 [])
  | 0x7b => opening inner fun read => bracketed closeObject do
    return .object (finished (← freeMembers ctx (read layout) (ctx.bound + 1) true []))
  | b => leaf b

/-! ## §5. Tables. -/

/-- Read a name that is a number, from its opening quote on. -/
def numericName (ctx : Context) (kind : IntegerKind) : Read Int := do
  let v ← ctx.step none do
    advance
    match ← peek with
    | some 0x2d => advance; number false
    | some b => if isDigit b then number true else fail .expectedNumericKey
    | none => fail .expectedNumericKey
  match v with
  | .int i =>
    ctx.atField (Decimal.signedText i) do
      let i ← fixing (fitInteger kind v)
      match ← peek with
      | some 0x22 => advance; return i
      | _ => failNext .expectedQuote
  | v => ctx.step none (fixing (fitInteger kind v))

/-- Put an entry in its place among entries sorted by number. -/
def insertEntry (i : Int) (v : Value) : List (Int × Value) → List (Int × Value)
  | [] => [(i, v)]
  | (j, w) :: rest =>
    if i < j then (i, v) :: (j, w) :: rest
    else if i == j then (i, v) :: rest
    else (j, w) :: insertEntry i v rest

/-- Read members whose names are numbers up to the end of the object. -/
def numberedMembers (ctx : Context) (kind : IntegerKind) (read : Read Value) :
    Nat → Bool → List (Int × Value) → Read (List (Int × Value))
  | 0, _, _ => failNext .endInObject
  | rounds + 1, first, before => do
    if ← ctx.step none (hasMember first) then
      let i ← numericName ctx kind
      colon
      let v ← ctx.atField (Decimal.signedText i) read
      numberedMembers ctx kind read rounds false (insertEntry i v before)
    else return before

/-- Read an object with free names. -/
def readTable (ctx : Context) (inner : Inner τ) (key : Key) (element : Layout τ) :
    Read Value := do
  match ← firstByte with
  | 0x7b => opening inner fun read => bracketed closeObject do
    match key with
    | .text => return .object (sortMembers (← freeMembers ctx (read element) (ctx.bound + 1) true []))
    | .number kind =>
      let entries ← numberedMembers ctx kind (read element) (ctx.bound + 1) true []
      return .object (entries.map fun (i, v) => (Decimal.signedText i, v))
  | b => wrongKind "a map" b

/-! ## §6. Choices. -/

/-- Read the name of one of the variants. -/
def variantName (names : List String) : Read String := do
  match ← firstByte with
  | 0x22 => fixing do
    advance
    let name ← string
    if names.contains name then return name
    else mismatch (.unknownVariant name names)
  | b => wrongKind "variant identifier" b

/-- A variant that was given by its bare name. -/
def bareVariant (ctx : Context) (variant : Variant τ) : Read Value :=
  match variant.payload with
  | .bare => return .text variant.name
  | .single _ => missing "newtype variant"
  | .several _ _ => missing "tuple variant"
  | .fields _ _ => missing "struct variant"
where
  missing (expected : String) : Read Value :=
    ctx.atField variant.name (mismatch (.wrongKind .bareVariant expected))

/-- Read one of several variants. -/
def readChoice (schema : Schema τ) (ctx : Context) (inner : Inner τ)
    (variants : List (Variant τ)) : Read Value := do
  match ← firstByte with
  | 0x7b => opening inner fun read => do
    advance
    let variant ← named
    colon
    let v ← ctx.atField variant.name (read (variant.payload.layout schema))
    match ← look with
    | some 0x7d => advance
    | some _ => fail .expectedValue
    | none => fail .endInObject
    match variant.payload with
    | .bare => return .text variant.name
    | _ => return .object [(variant.name, v)]
  | 0x22 => bareVariant ctx (← named)
  | _ => failNext .expectedValue
where
  named : Read (Variant τ) := do
    let name ← variantName (variants.map Variant.name)
    match variants.find? (·.name == name) with
    | some variant => return variant
    | none => mismatch (.unknownVariant name (variants.map Variant.name))

/-- Read the members of a tagged choice: the name of the variant, and the members besides. -/
def taggedMembers (ctx : Context) (read : Read Value) (tag : String) (names : List String) :
    Nat → Bool → Option String → List (String × Value) →
      Read (String × List (String × Value))
  | 0, _, _, _ => failNext .endInObject
  | rounds + 1, first, variant, before => do
    match ← memberName ctx first with
    | none =>
      match variant with
      | some name => return (name, before.reverse)
      | none => mismatch (.missingField tag)
    | some name =>
      if name == tag then
        if variant.isSome then mismatch (.duplicateField tag)
        colon
        let variant ← ctx.atField name (variantName names)
        taggedMembers ctx read tag names rounds false (some variant) before
      else
        colon
        let v ← ctx.atField name read
        taggedMembers ctx read tag names rounds false variant ((name, v) :: before)

/-- Read a tagged choice. -/
def readTagged (ctx : Context) (inner : Inner τ) (title tag : String)
    (variants : List (String × Kept)) : Read Value := do
  let names := variants.map (·.1)
  let (name, content) ← match ← firstByte with
    | 0x5b => opening inner fun read => bracketed closeList do
      if ← hasItem true then
        let name ← ctx.atIndex 0 (variantName names)
        return (name, .list (← items ctx (read .raw) (ctx.bound + 1) 1 []))
      else mismatch (.missingField tag)
    | 0x7b => opening inner fun read => bracketed closeObject do
      let (name, members) ←
        taggedMembers ctx (read .raw) tag names (ctx.bound + 1) true none []
      return (name, .object members)
    | b => wrongKind title b
  match variants.lookup name with
  | none => mismatch (.unknownVariant name names)
  | some kept =>
    match fit content kept with
    | .error m => mismatch m
    | .ok (.object members) => return .object ((tag, .text name) :: members)
    | .ok v => return v

/-! ## §7. Every layout. -/

/-- Read a value of a layout; `inner` reads the values inside its brackets. -/
def readLayout (schema : Schema τ) (ctx : Context) (inner : Inner τ) : Layout τ → Read Value
  | .any => readFree ctx inner .any sortMembers
  | .raw => readFree ctx inner .raw id
  | .text => return .text (← readText "a string")
  | .truth => readTruth
  | .unit => readUnit
  | .integer kind => return .int (← readInteger kind)
  | .list element => readList ctx inner (schema element)
  | .tuple title whole elements => readTuple schema ctx inner title whole elements
  | .record title fields closed => readRecord schema ctx inner title fields closed
  | .table key element => readTable ctx inner key (schema element)
  | .choice variants => readChoice schema ctx inner variants
  | .tagged title tag variants => readTagged ctx inner title tag variants

/-- **Read a value with at most `depth` open brackets.** -/
def readAt (schema : Schema τ) (ctx : Context) : Nat → Layout τ → Read Value
  | 0, layout => readLayout schema ctx none layout
  | depth + 1, layout => readLayout schema ctx (some (readAt schema ctx depth)) layout

/-- How many brackets may be open at once. -/
def depthLimit : Nat := 127

end ErrorContract.Json
