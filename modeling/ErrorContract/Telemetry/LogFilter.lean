/-
  ErrorContract.Telemetry.LogFilter
  ─────────────────────────────────
  **WHICH EVENTS ARE LOGGED.**

  A filter is a list of directives, separated by commas:

      LEVEL                  everything, up to the level
      TARGET                 everything from the target
      TARGET=LEVEL           from the target, up to the level
      TARGET[SPAN]=LEVEL     only inside a span

  A directive is for all targets that begin like its own.  The directive
  with the longest target decides, of two with the same target the later.
  What nothing is said about is not logged.
-/
import ErrorContract.Telemetry.Level
import ErrorContract.Text.Blank
import ErrorContract.Text.Pieces

namespace ErrorContract.Telemetry

open ErrorContract

/-! ## §1. Directives. -/

/-- A directive. -/
structure Directive where
  /-- How the targets begin that it is for; absent if it is for all. -/
  target : Option String
  verbosity : Verbosity
  /-- Is it only for what happens inside a span? -/
  inSpan : Bool := false
  deriving Repr, DecidableEq

/-- Where the reading of a directive stands: what it will do with the characters to come. -/
inductive DirectiveStage where
  | start
  /-- In a level or a target. -/
  | name
  /-- In the name of a span. -/
  | span
  /-- In a field of a span, of which something was read or not. -/
  | field (empty : Bool)
  /-- Behind the fields of a span. -/
  | fields
  /-- Behind a span. -/
  | behind
  /-- In a level. -/
  | level
  deriving Repr, DecidableEq

/-- May the character stand first in a target? -/
def mayStart (c : Char) : Bool :=
  c == '-' || c == ':' || c == '_' || c.isAlphanum || 0x80 ≤ c.toNat

/-- The stage after a character, if it may stand there. -/
def DirectiveStage.next (c : Char) : DirectiveStage → Option DirectiveStage
  | .start => if c = '[' then some .span else if mayStart c then some .name else none
  | .name => if c = '=' then some .level else if c = '[' then some .span else some .name
  | .span => if c = ']' then some .behind else if c = '\x7b' then some (.field true) else some .span
  | .field empty =>
    if c = '\x7d' then if empty then none else some .fields
    else if c = ',' then if empty then none else some (.field true)
    else some (.field false)
  | .fields => if c = ']' then some .behind else none
  | .behind => if c = '=' then some .level else none
  | .level => some .level

/-- What a directive consists of: how much of it is its target, where its level begins, and whether
it names a span. -/
structure DirectiveShape where
  stage : DirectiveStage := .start
  /-- Where the target ends, if something follows it. -/
  targetEnd : Option Nat := none
  levelStart : Nat := 0
  inSpan : Bool := false

/-- The shape after the character at a position. -/
def DirectiveShape.next (position : Nat) (c : Char) (s : DirectiveShape) :
    Option DirectiveShape :=
  (s.stage.next c).map fun stage =>
    { stage := stage
      targetEnd := if s.stage = .name && stage != .name then some position else s.targetEnd
      levelStart := if s.stage != .level && stage = .level then position + 1 else s.levelStart
      inSpan := s.inSpan || stage = .span }

/-- The shape of the characters from a position on. -/
def DirectiveShape.read (position : Nat) (s : DirectiveShape) : List Char → Option DirectiveShape
  | [] => some s
  | c :: cs => (s.next position c).bind fun s => s.read (position + 1) cs

/-- A text without blanks around it. -/
def trimBlanks (cs : List Char) : List Char :=
  (Blank.skip (Blank.skip cs).reverse).reverse

/-- A level or a target on its own. -/
def nameDirective (name : String) : Directive :=
  match readVerbosity name with
  | some v => ⟨none, v, false⟩
  | none => ⟨some name, some .trace, false⟩

/-- The verbosity behind an equals sign, everything if there is none. -/
def levelPart (cs : List Char) : Option Verbosity :=
  if cs.isEmpty then some (some .trace) else readVerbosity (String.ofList cs)

/-- **Read a directive.** Its shape is that of the text without blanks around it, but its parts
are cut out of the text as it stands. -/
def Directive.parse (cs : List Char) : Option Directive := do
  let s ← DirectiveShape.read 0 {} (trimBlanks cs)
  let target := s.targetEnd.map fun n => String.ofList (cs.take n)
  match s.stage with
  | .start => none
  | .name => return nameDirective (String.ofList cs)
  | .behind => return ⟨target, some .trace, s.inSpan⟩
  | .level => return ⟨target, ← levelPart (cs.drop s.levelStart), s.inSpan⟩
  | _ => none

/-! ## §2. Filters. -/

/-- A filter: its directives in their order. -/
abbrev LogFilter := List Directive

namespace LogFilter

/-- What is logged if no directive is given. -/
def unsaid : LogFilter := [⟨none, some .error, false⟩]

/-- Read a filter, all directives of which must be readable. -/
def parse (text : String) : Option LogFilter := do
  let directives ← ((Pieces.cut (· == ',') text.toList).filter (!·.isEmpty)).mapM Directive.parse
  return if directives.isEmpty then unsaid else directives

/-- What is logged if a filter cannot be read. -/
def fallback : LogFilter := [⟨none, some .info, false⟩]

/-- **The filter that a text stands for.** -/
def ofText (text : String) : LogFilter := (parse text).getD fallback

/-- Is a directive for a target, outside of spans? -/
def applies (target : String) (d : Directive) : Bool :=
  !d.inSpan &&
    match d.target with
    | some front => front.toList.isPrefixOf target.toList
    | none => true

/-- How specific a directive is. -/
def specificity (d : Directive) : Nat :=
  match d.target with
  | some front => front.length + 1
  | none => 0

/-- The more specific of two directives, the later if they are equal. -/
def stronger (best : Option Directive) (d : Directive) : Option Directive :=
  match best with
  | some b => if specificity b ≤ specificity d then some d else some b
  | none => some d

/-- **Up to which level events of a target are logged.** -/
def verbosity (filter : LogFilter) (target : String) : Verbosity :=
  ((filter.filter (applies target)).foldl stronger none).bind Directive.verbosity

/-- Is an event logged? -/
def lets (filter : LogFilter) (target : String) (l : Level) : Bool :=
  Verbosity.lets (verbosity filter target) l

end LogFilter

end ErrorContract.Telemetry
