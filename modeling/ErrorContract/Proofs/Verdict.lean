/-
  ErrorContract.Proofs.Verdict
  ────────────────────────────
  **WHAT A LAYOUT MAKES OF A SYNTAX TREE.**

  `judge schema layout tree` says what becomes of a well-formed value when it
  is read as a layout: it has a value, it is of the wrong shape somewhere, or
  it is taken for a text that is not well-formed, because a number or a
  string in it stands for nothing or because its shape is met where the
  reader looks for a byte.  No bytes, cursors and budgets occur here.

  The way of a misfit is put together as the verdicts of the values inside
  are, one step for every pair of brackets; that it leads to a value which is
  a misfit itself is a matter of these verdicts alone.
-/
import ErrorContract.Json.Reader
import ErrorContract.Proofs.Grammar

namespace ErrorContract.Json

open ErrorContract

/-! ## §1. Verdicts. -/

/-- What can be wrong with a well-formed value. -/
inductive Flaw where
  /-- What is found on the way does not fit. -/
  | misfit (m : Mismatch) (way : Path)
  /-- A number is too large, or a string is no text. -/
  | meaningless
  /-- What is found is of the wrong shape, but is taken for a fault of form. -/
  | mistaken

/-- What becomes of a well-formed value. -/
abbrev Verdict (α : Type) := Except Flaw α

/-- A flaw, seen from one step further outside. -/
def Flaw.under (s : PathSegment) : Flaw → Flaw
  | .misfit m way => .misfit m (s :: way)
  | .meaningless => .meaningless
  | .mistaken => .mistaken

/-- A verdict, seen from one step further outside. -/
def Verdict.under (s : PathSegment) (v : Verdict α) : Verdict α := v.mapError (Flaw.under s)

/-- A value that does not fit. -/
def misfit (m : Mismatch) : Verdict α := .error (.misfit m [])

/-! ## §2. What numbers and strings stand for. -/

/-- A floating point number, unless it is too large. -/
def floating? (positive : Bool) (significand : Nat) (power : Int) : Option Value :=
  (combine significand power).map (signed positive)

/-- Does the exponent have a minus? -/
def Exponent.negative (e : Exponent) : Bool := e.sign == some 0x2d

/-- The number that an exponent makes of a significand. -/
def Exponent.value? (e : Exponent) (positive : Bool) (significand : Nat) (power : Int) :
    Option Value :=
  let (n, excess) := gather exponentLimit (digitValue e.first) e.more
  -- Digits beyond the limit make the exponent endless: the number is too large, or it is zero.
  if excess.isEmpty then
    floating? positive significand (saturate (if e.negative then power - n else power + n))
  else if significand != 0 && !e.negative then none
  else some (signed positive 0)

/-- What a fraction makes of the significand before it; an exponent may follow. -/
def fractionValue? (positive : Bool) (significand : Nat) (power : Int) (digits : List UInt8)
    (exponent : Option Exponent) : Option Value :=
  let (n, excess) := gather wordLimit significand digits
  let power := power - (digits.length - excess.length : Nat)
  match exponent with
  | some e => e.value? positive n power
  | none => floating? positive n power

/-- **What a number stands for**, unless it is too large. -/
def NumberToken.value? (n : NumberToken) : Option Value :=
  let positive := !n.negative
  let (significand, excess) := gather wordLimit (digitValue n.first) n.more
  if n.fraction = [] then
    match n.exponent with
    | some e => e.value? positive significand excess.length
    | none =>
      if excess.isEmpty then some (whole positive significand)
      else floating? positive significand excess.length
  else fractionValue? positive significand excess.length n.fraction n.exponent

/-- **What a string stands for**, unless it is no text: what is read of it alone. -/
def StringToken.text? (s : StringToken) : Option String :=
  match scan 0 0 [] [] .plain (StringToken.bytes s) with
  | .closed pieces _ _ =>
    match decodePieces pieces with
    | .ok cs => some (String.ofList cs)
    | .error _ => none
  | _ => none

/-- A number, from its sign on. -/
def signedNumber : Read Value := do
  match ← peek with
  | some 0x2d => advance; number false
  | some b => if isDigit b then number true else fail .expectedNumericKey
  | none => fail .expectedNumericKey

/-- **The number that a string begins with**, and what is written of the string behind it: what is
read of it alone. -/
def StringToken.number? (s : StringToken) : Option (Value × List UInt8) :=
  match signedNumber ⟨StringToken.bytes s, 0, .complete⟩ with
  | .ok v c => some (v, c.rest)
  | .error _ _ => none

/-- What stands for nothing is a flaw. -/
def meaning (a : Option α) : Verdict α :=
  match a with
  | some a => .ok a
  | none => .error .meaningless

/-! ## §3. Judging. -/

/-- What a value without brackets stands for. -/
def Tree.leafValue : Tree → Verdict Value
  | .null => .ok .null
  | .truth b => .ok (.bool b)
  | .number n => meaning n.value?
  | .string s => do return .text (← meaning (StringToken.text? s))
  | .list _ | .object _ => .error .meaningless

/-- A value of another kind than what was expected. -/
def refuse (expected : String) : Tree → Verdict α
  | .list _ => misfit (.wrongKind .sequence expected)
  | .object _ => misfit (.wrongKind .map expected)
  | t => do misfit (.wrongKind (← t.leafValue).found expected)

theorem refuse_bind (expected : String) (t : Tree) (f : α → Verdict β) :
    (refuse expected t : Verdict α) >>= f = refuse expected t := by
  have hleaf : ∀ v : Verdict Value,
      (v >>= fun a => (misfit (.wrongKind a.found expected) : Verdict α)) >>= f
        = v >>= fun a => misfit (.wrongKind a.found expected) := by
    intro v
    cases v <;> rfl
  cases t with
  | list items => rfl
  | object members => rfl
  | _ => exact hleaf _

/-- A value that has to be a text. -/
def judgeText (expected : String) : Tree → Verdict String
  | .string s => meaning (StringToken.text? s)
  | t => refuse expected t

/-- A number that has to be a whole one of a kind. -/
def judgeNumber (kind : IntegerKind) (v : Value) : Verdict Int :=
  match v with
  | .int i =>
    match kind.check i with
    | .ok i => .ok i
    | .error m => misfit m
  | v => misfit (.wrongKind v.found kind.name)

/-- A value that has to be a whole number of a kind. -/
def judgeInteger (kind : IntegerKind) : Tree → Verdict Int
  | .number n => do judgeNumber kind (← meaning n.value?)
  | t => refuse kind.name t

/-- A value that has to be `null`. -/
def judgeUnit : Tree → Verdict Value
  | .null => .ok .null
  | t => refuse "unit" t

/-- A value that has to be a truth value. -/
def judgeTruth : Tree → Verdict Value
  | .truth b => .ok (.bool b)
  | t => refuse "a boolean" t

/-- A name that has to be a number of a kind. -/
def judgeKey (kind : IntegerKind) (token : StringToken) : Verdict Int :=
  match StringToken.number? token with
  | none => .error .mistaken
  | some (.int i, behind) => Verdict.under (.field (Decimal.signedText i)) do
    let i ← judgeNumber kind (.int i)
    if behind = [0x22] then .ok i else .error .mistaken
  | some (v, _) => judgeNumber kind v

/-- A value that has to be one of these names. -/
def judgeName (names : List String) : Tree → Verdict String
  | .string token => do
    let name ← meaning (StringToken.text? token)
    if names.contains name then .ok name else misfit (.unknownVariant name names)
  | t => refuse "variant identifier" t

/-- A string that has to be the name of a variant. -/
def judgeVariant (variants : List (Variant τ)) (token : StringToken) : Verdict (Variant τ) := do
  let name ← judgeName (variants.map Variant.name) (.string token)
  match variants.find? (·.name == name) with
  | some variant => .ok variant
  | none => misfit (.unknownVariant name (variants.map Variant.name))

/-- A variant that was given by its bare name. -/
def judgeBare (variant : Variant τ) : Verdict Value :=
  match variant.payload with
  | .bare => .ok (.text variant.name)
  | .single _ => missing "newtype variant"
  | .several _ _ => missing "tuple variant"
  | .fields _ _ => missing "struct variant"
where
  missing (expected : String) : Verdict Value :=
    (misfit (.wrongKind .bareVariant expected)).under (.field variant.name)

/-- A variant with the value that it was given with. -/
def Variant.withValue (variant : Variant τ) (v : Value) : Value :=
  match variant.payload with
  | .bare => .text variant.name
  | _ => .object [(variant.name, v)]

/-- What was kept aside for the variant of a name. -/
def judgeKept (tag : String) (variants : List (String × Kept)) (name : String) (content : Value) :
    Verdict Value :=
  match variants.lookup name with
  | none => misfit (.unknownVariant name (variants.map (·.1)))
  | some kept =>
    match fit content kept with
    | .error m => misfit m
    | .ok (.object members) => .ok (.object ((tag, .text name) :: members))
    | .ok v => .ok v

/-- A field takes `null` as it stands, if it may be null. -/
def Field.orNull (field : Field τ) (t : Tree) (v : Verdict Value) : Verdict Value :=
  match field.presence, t with
  | .nullable, .null | .optional, .null => .ok .null
  | _, _ => v

/-- The fields that a list of values is too short for; `position` is the length of the list. -/
def judgeShort (title : String) (position : Nat) : List (Field τ) → Verdict (List (String × Value))
  | [] => .ok []
  | field :: fields => do
    let v ← match field.presence with
      | .optional => .ok .null
      | .defaulted v => .ok v
      | _ => misfit (.wrongLength position title)
    return (field.name, v) :: (← judgeShort title (position + 1) fields)

/-- The fields of a record, from the members that were read. -/
def judgeComplete (read : List (String × Value)) :
    List (Field τ) → Verdict (List (String × Value))
  | [] => .ok []
  | field :: fields => do
    let v ← match read.lookup field.name, field.presence with
      | some v, _ => .ok v
      | none, .required => misfit (.missingField field.name)
      | none, .nullable | none, .optional => .ok .null
      | none, .defaulted v => .ok v
    return (field.name, v) :: (← judgeComplete read fields)

mutual

/-- **What a layout makes of a value.** -/
def judge (schema : Schema τ) : Layout τ → Tree → Verdict Value
  | .any, .list items => do return .list (← judgeItems schema .any 0 [] items)
  | .any, .object members => do
    return .object (sortMembers (← judgeFree schema .any [] members))
  | .any, t => t.leafValue
  | .raw, .list items => do return .list (← judgeItems schema .raw 0 [] items)
  | .raw, .object members => do return .object (← judgeFree schema .raw [] members)
  | .raw, t => t.leafValue
  | .text, t => do return .text (← judgeText "a string" t)
  | .truth, t => judgeTruth t
  | .unit, t => judgeUnit t
  | .integer kind, t => do return .int (← judgeInteger kind t)
  | .list element, .list items => do return .list (← judgeItems schema (schema element) 0 [] items)
  | .list _, t => refuse "a sequence" t
  | .tuple _ whole types, .list items => do
    let vs ← judgeFixed schema whole 0 types items
    -- A value too many is met where the list should end.
    if types.length < items.values.length then .error .mistaken else return .list vs
  | .tuple title _ _, t => refuse title t
  | .record title fields _, .list items => do
    let read ← judgePositional schema (titleWith title fields.length) 0 fields items
    if fields.length < items.values.length then .error .mistaken else return .object read
  | .record _ fields closed, .object members => do
    return .object (← judgeComplete (← judgeNamed schema fields closed [] members) fields)
  | .record title _ _, t => refuse title t
  | .table .text element, .object members => do
    return .object (sortMembers (← judgeFree schema (schema element) [] members))
  | .table (.number kind) element, .object members => do
    let entries ← judgeNumbered schema kind (schema element) [] members
    return .object (entries.map fun (i, v) => (Decimal.signedText i, v))
  | .table _ _, t => refuse "a map" t
  | .choice variants, .object members => judgeSole schema variants members
  | .choice variants, .string token => do judgeBare (← judgeVariant variants token)
  -- Where a variant should begin, anything else is no value at all.
  | .choice _, _ => .error .mistaken
  | .tagged _ tag variants, .list items => do
    let (name, content) ← judgeTaggedItems schema tag (variants.map (·.1)) items
    judgeKept tag variants name content
  | .tagged _ tag variants, .object members => do
    let (name, kept) ← judgeTagged schema tag (variants.map (·.1)) none [] members
    judgeKept tag variants name (.object kept)
  | .tagged title _ _, t => refuse title t

/-- What a layout makes of the elements of a list, from a position on. -/
def judgeItems (schema : Schema τ) (layout : Layout τ) (position : Nat) (before : List Value) :
    Items → Verdict (List Value)
  | .nil _ => .ok before.reverse
  | .cons _ _ value rest => do
    let v ← (judge schema layout value).under (.index position)
    judgeItems schema layout (position + 1) (v :: before) rest

/-- What types make of the elements of a list in their order; what is left over is ignored. -/
def judgeFixed (schema : Schema τ) (title : String) (position : Nat) (types : List τ) :
    Items → Verdict (List Value)
  | .nil _ => if types = [] then .ok [] else misfit (.wrongLength position title)
  | .cons _ _ value rest =>
    match types with
    | [] => .ok []
    | type :: types => do
      let v ← (judge schema (schema type) value).under (.index position)
      return v :: (← judgeFixed schema title (position + 1) types rest)

/-- What fields make of the elements of a list in their order; what is left over is ignored. -/
def judgePositional (schema : Schema τ) (title : String) (position : Nat)
    (fields : List (Field τ)) : Items → Verdict (List (String × Value))
  | .nil _ => judgeShort title position fields
  | .cons _ _ value rest =>
    match fields with
    | [] => .ok []
    | field :: fields => do
      let v ← (field.orNull value (judge schema (schema field.type) value)).under (.index position)
      return (field.name, v) :: (← judgePositional schema title (position + 1) fields rest)

/-- What fields make of the members of an object; `before` holds those read so far. -/
def judgeNamed (schema : Schema τ) (fields : List (Field τ)) (closed : Bool)
    (before : List (String × Value)) : Members → Verdict (List (String × Value))
  | .nil _ => .ok before
  | .cons _ _ token _ _ value rest => do
    let name ← meaning (StringToken.text? token)
    match fields.find? (·.name == name) with
    | some field =>
      if (before.lookup name).isSome then misfit (.duplicateField name)
      else
        let v ← (field.orNull value (judge schema (schema field.type) value)).under (.field name)
        judgeNamed schema fields closed ((name, v) :: before) rest
    | none =>
      if closed then (misfit (.unknownField name (fieldNames fields))).under (.field name)
      else judgeNamed schema fields closed before rest

/-- What a layout makes of members with free names. -/
def judgeFree (schema : Schema τ) (layout : Layout τ) (before : List (String × Value)) :
    Members → Verdict (List (String × Value))
  | .nil _ => .ok before.reverse
  | .cons _ _ token _ _ value rest => do
    let name ← meaning (StringToken.text? token)
    let v ← (judge schema layout value).under (.field name)
    judgeFree schema layout ((name, v) :: before) rest

/-- What a layout makes of members whose names are numbers. -/
def judgeNumbered (schema : Schema τ) (kind : IntegerKind) (layout : Layout τ)
    (before : List (Int × Value)) : Members → Verdict (List (Int × Value))
  | .nil _ => .ok before
  | .cons _ _ token _ _ value rest => do
    let i ← judgeKey kind token
    let v ← (judge schema layout value).under (.field (Decimal.signedText i))
    judgeNumbered schema kind layout (insertEntry i v before) rest

/-- What variants make of the members of an object, of which there must be one. -/
def judgeSole (schema : Schema τ) (variants : List (Variant τ)) : Members → Verdict Value
  | .nil _ => .error .mistaken
  | .cons _ _ token _ _ value rest => do
    let variant ← judgeVariant variants token
    let v ← (judge schema (variant.payload.layout schema) value).under (.field variant.name)
    if rest.entries = [] then return variant.withValue v else .error .mistaken

/-- What a tagged choice makes of the elements of a list, the first of which names the variant. -/
def judgeTaggedItems (schema : Schema τ) (tag : String) (names : List String) :
    Items → Verdict (String × Value)
  | .nil _ => misfit (.missingField tag)
  | .cons _ _ value rest => do
    let name ← (judgeName names value).under (.index 0)
    return (name, .list (← judgeItems schema .raw 1 [] rest))

/-- What a tagged choice makes of the members of an object, one of which names the variant. -/
def judgeTagged (schema : Schema τ) (tag : String) (names : List String) (variant : Option String)
    (before : List (String × Value)) : Members → Verdict (String × List (String × Value))
  | .nil _ =>
    match variant with
    | some name => .ok (name, before.reverse)
    | none => misfit (.missingField tag)
  | .cons _ _ token _ _ value rest => do
    let name ← meaning (StringToken.text? token)
    if name == tag then
      if variant.isSome then misfit (.duplicateField tag)
      else
        let variant ← (judgeName names value).under (.field name)
        judgeTagged schema tag names (some variant) before rest
    else
      let v ← (judge schema .raw value).under (.field name)
      judgeTagged schema tag names variant ((name, v) :: before) rest

end

/-- What a field makes of a value. -/
def judgeField (schema : Schema τ) (field : Field τ) (t : Tree) : Verdict Value :=
  field.orNull t (judge schema (schema field.type) t)

/-- What becomes of a value that may be any; `finished` is what becomes of the members of an
object. -/
def judgeAny (schema : Schema τ) (layout : Layout τ)
    (finished : List (String × Value) → List (String × Value)) : Tree → Verdict Value
  | .list items => do return .list (← judgeItems schema layout 0 [] items)
  | .object members => do return .object (finished (← judgeFree schema layout [] members))
  | t => t.leafValue

/-! ## §4. Layout by layout. -/

theorem judge_any (schema : Schema τ) (t : Tree) :
    judge schema .any t = judgeAny schema .any sortMembers t := by
  cases t <;> rfl

theorem judge_raw (schema : Schema τ) (t : Tree) :
    judge schema .raw t = judgeAny schema .raw id t := by
  cases t <;> rfl

section Equations

variable (schema : Schema τ)

theorem judge_text (t : Tree) :
    judge schema .text t = do return .text (← judgeText "a string" t) := by
  cases t <;> rfl

theorem judge_truth (t : Tree) : judge schema .truth t = judgeTruth t := by
  cases t <;> rfl

theorem judge_unit (t : Tree) : judge schema .unit t = judgeUnit t := by
  cases t <;> rfl

theorem judge_integer (kind : IntegerKind) (t : Tree) :
    judge schema (.integer kind) t = do return .int (← judgeInteger kind t) := by
  cases t <;> rfl

theorem judge_list (element : τ) (its : Items) : judge schema (.list element) (.list its)
    = do return .list (← judgeItems schema (schema element) 0 [] its) := rfl

theorem judge_tuple (title whole : String) (types : List τ) (its : Items) :
    judge schema (.tuple title whole types) (.list its) = do
      let vs ← judgeFixed schema whole 0 types its
      if types.length < its.values.length then .error .mistaken else return .list vs := rfl

theorem judge_record_list (title : String) (fields : List (Field τ)) (closed : Bool)
    (its : Items) : judge schema (.record title fields closed) (.list its) = do
      let read ← judgePositional schema (titleWith title fields.length) 0 fields its
      if fields.length < its.values.length then .error .mistaken else return .object read := rfl

theorem judge_record_object (title : String) (fields : List (Field τ)) (closed : Bool)
    (members : Members) : judge schema (.record title fields closed) (.object members) = do
      return .object (← judgeComplete (← judgeNamed schema fields closed [] members) fields) := rfl

theorem judge_table_text (element : τ) (members : Members) :
    judge schema (.table .text element) (.object members) = do
      return .object (sortMembers (← judgeFree schema (schema element) [] members)) := rfl

theorem judge_table_number (kind : IntegerKind) (element : τ) (members : Members) :
    judge schema (.table (.number kind) element) (.object members) = do
      let entries ← judgeNumbered schema kind (schema element) [] members
      return .object (entries.map fun (i, v) => (Decimal.signedText i, v)) := rfl

theorem judge_choice_object (variants : List (Variant τ)) (members : Members) :
    judge schema (.choice variants) (.object members) = judgeSole schema variants members := rfl

theorem judge_choice_string (variants : List (Variant τ)) (token : StringToken) :
    judge schema (.choice variants) (.string token)
      = (do judgeBare (← judgeVariant variants token)) := rfl

theorem judge_tagged_list (title tag : String) (variants : List (String × Kept)) (its : Items) :
    judge schema (.tagged title tag variants) (.list its) = (do
      let (name, content) ← judgeTaggedItems schema tag (variants.map (·.1)) its
      judgeKept tag variants name content) := rfl

theorem judge_tagged_object (title tag : String) (variants : List (String × Kept))
    (members : Members) : judge schema (.tagged title tag variants) (.object members) = (do
      let (name, kept) ← judgeTagged schema tag (variants.map (·.1)) none [] members
      judgeKept tag variants name (.object kept)) := rfl

end Equations

section NoBrackets

variable {schema : Schema τ} {t : Tree} (hlist : ¬ ∃ items, t = .list items)
  (hobject : ¬ ∃ members, t = .object members)

include hlist hobject

theorem judge_record_of_ne {title : String} {fields : List (Field τ)} {closed : Bool} :
    judge schema (.record title fields closed) t = refuse title t := by
  cases t with
  | list items => exact absurd ⟨items, rfl⟩ hlist
  | object members => exact absurd ⟨members, rfl⟩ hobject
  | _ => rfl

theorem judge_tagged_of_ne {title tag : String} {variants : List (String × Kept)} :
    judge schema (.tagged title tag variants) t = refuse title t := by
  cases t with
  | list items => exact absurd ⟨items, rfl⟩ hlist
  | object members => exact absurd ⟨members, rfl⟩ hobject
  | _ => rfl

end NoBrackets

section NoBracket

variable {schema : Schema τ} {t : Tree}

theorem judge_list_of_ne {element : τ} (h : ¬ ∃ items, t = .list items) :
    judge schema (.list element) t = refuse "a sequence" t := by
  cases t with
  | list items => exact absurd ⟨items, rfl⟩ h
  | _ => rfl

theorem judge_tuple_of_ne {title whole : String} {types : List τ} (h : ¬ ∃ items, t = .list items) :
    judge schema (.tuple title whole types) t = refuse title t := by
  cases t with
  | list items => exact absurd ⟨items, rfl⟩ h
  | _ => rfl

theorem judge_table_of_ne {key : Key} {element : τ} (h : ¬ ∃ members, t = .object members) :
    judge schema (.table key element) t = refuse "a map" t := by
  cases t with
  | object members => exact absurd ⟨members, rfl⟩ h
  | _ => cases key <;> rfl

theorem judge_choice_of_ne {variants : List (Variant τ)} (hstring : ¬ ∃ token, t = .string token)
    (hobject : ¬ ∃ members, t = .object members) :
    judge schema (.choice variants) t = .error .mistaken := by
  cases t with
  | string token => exact absurd ⟨token, rfl⟩ hstring
  | object members => exact absurd ⟨members, rfl⟩ hobject
  | _ => rfl

end NoBracket

/-! ## §5. The members of a record, one at a time. -/

section Named

variable {schema : Schema τ} {fields : List (Field τ)} {closed : Bool}
  {before : List (String × Value)} {token : StringToken} {name : String} {field : Field τ}
  {leading blanks beforeColon behindColon : Blanks} {value : Tree} {rest : Members}

/-- A field has the name of a member, or none has. -/
theorem find?_cases (fields : List (Field τ)) (name : String) :
    (fields.find? (·.name == name) = none ∧ ∀ f ∈ fields, name ≠ f.name)
      ∨ ∃ f ∈ fields, fields.find? (·.name == name) = some f ∧ f.name = name := by
  cases hfind : fields.find? (·.name == name) with
  | none =>
      refine .inl ⟨rfl, fun f hf => ?_⟩
      have hne := List.find?_eq_none.mp hfind f hf
      exact fun h => hne (by simp [h])
  | some f =>
      have hname := List.find?_some hfind
      exact .inr ⟨f, List.mem_of_find?_eq_some hfind, rfl, eq_of_beq hname⟩

/-- A member that no field has the name of is passed over, or refused. -/
theorem judgeNamed_unknown (htext : StringToken.text? token = some name)
    (hfield : fields.find? (·.name == name) = none) :
    judgeNamed schema fields closed before
        (.cons leading blanks token beforeColon behindColon value rest)
      = if closed then (misfit (.unknownField name (fieldNames fields))).under (.field name)
        else judgeNamed schema fields closed before rest := by
  rw [judgeNamed, htext]
  show Except.bind (.ok name) _ = _
  simp only [Except.bind, hfield]

/-- A member that has been there before does not fit. -/
theorem judgeNamed_duplicate (htext : StringToken.text? token = some name)
    (hfield : fields.find? (·.name == name) = some field)
    (hduplicate : (before.lookup name).isSome = true) :
    judgeNamed schema fields closed before
        (.cons leading blanks token beforeColon behindColon value rest)
      = misfit (.duplicateField name) := by
  rw [judgeNamed, htext]
  show Except.bind (.ok name) _ = _
  simp only [Except.bind, hfield, if_pos hduplicate]

/-- A member of the name of a field is judged for that field. -/
theorem judgeNamed_field (htext : StringToken.text? token = some name)
    (hfield : fields.find? (·.name == name) = some field)
    (hduplicate : ¬ (before.lookup name).isSome = true) :
    judgeNamed schema fields closed before
        (.cons leading blanks token beforeColon behindColon value rest)
      = (judgeField schema field value).under (.field name)
        >>= fun v => judgeNamed schema fields closed ((name, v) :: before) rest := by
  rw [judgeNamed, htext]
  show Except.bind (.ok name) _ = _
  simp only [Except.bind, hfield, if_neg hduplicate]
  rfl

end Named

end ErrorContract.Json
