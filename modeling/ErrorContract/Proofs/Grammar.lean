/-
  ErrorContract.Proofs.Grammar
  ────────────────────────────
  **WELL-FORMED JSON TEXTS.**

  A `Tree` is the syntax tree of one JSON value, with every blank, every
  escape and every digit as it is written; `Tree.bytes` writes it down.  A
  tree carries what makes it well-formed, so there is no other kind.  The
  bytes of a string need not be text, and escapes may stand for lone
  surrogates: the grammar leaves both open.

  A well-formed document is a tree between blanks.
-/
import ErrorContract.Json.Number
import ErrorContract.Json.Text

namespace ErrorContract.Json

open ErrorContract

/-! ## §1. Blanks. -/

/-- Blanks, as many as there are. -/
structure Blanks where
  bytes : List UInt8
  isBlank_of_mem : ∀ b ∈ bytes, isBlank b = true

/-- No blanks. -/
def Blanks.empty : Blanks := ⟨[], by simp⟩

/-- Blanks behind blanks. -/
def Blanks.append (v w : Blanks) : Blanks where
  bytes := v.bytes ++ w.bytes
  isBlank_of_mem b hb := by
    rcases List.mem_append.mp hb with hv | hw
    · exact v.isBlank_of_mem b hv
    · exact w.isBlank_of_mem b hw

/-! ## §2. Numbers. -/

/-- The exponent of a number. -/
structure Exponent where
  letter : UInt8
  sign : Option UInt8
  /-- The first digit. -/
  first : UInt8
  more : List UInt8
  letter_eq : letter = 0x65 ∨ letter = 0x45
  sign_eq : ∀ s ∈ sign, s = 0x2b ∨ s = 0x2d
  isDigit_first : isDigit first = true
  isDigit_more : ∀ d ∈ more, isDigit d = true

/-- An exponent as it is written. -/
def Exponent.bytes (e : Exponent) : List UInt8 := e.letter :: (e.sign.toList ++ e.first :: e.more)

/-- A number. -/
structure NumberToken where
  negative : Bool
  /-- The first digit; behind a zero no other may follow. -/
  first : UInt8
  more : List UInt8
  /-- The digits of the fraction; none if there is no point. -/
  fraction : List UInt8
  exponent : Option Exponent
  isDigit_first : isDigit first = true
  isDigit_more : ∀ d ∈ more, isDigit d = true
  more_eq_nil : first = 0x30 → more = []
  isDigit_fraction : ∀ d ∈ fraction, isDigit d = true

namespace NumberToken

/-- The fraction as it is written, with its point. -/
def fractionBytes (n : NumberToken) : List UInt8 :=
  if n.fraction = [] then [] else 0x2e :: n.fraction

/-- The exponent as it is written. -/
def exponentBytes (n : NumberToken) : List UInt8 := (n.exponent.map Exponent.bytes).getD []

/-- What is written behind the first digit. -/
def behindFirst (n : NumberToken) : List UInt8 := n.more ++ (n.fractionBytes ++ n.exponentBytes)

/-- A number as it is written. -/
def bytes (n : NumberToken) : List UInt8 :=
  (if n.negative then [0x2d] else []) ++ n.first :: n.behindFirst

theorem bytes_of_negative {n : NumberToken} (h : n.negative = true) :
    n.bytes = 0x2d :: n.first :: n.behindFirst := by
  rw [bytes, h]
  rfl

theorem bytes_of_not_negative {n : NumberToken} (h : n.negative = false) :
    n.bytes = n.first :: n.behindFirst := by
  rw [bytes, h]
  rfl

end NumberToken

/-! ## §3. Strings. -/

/-- A piece of a string. -/
inductive StringItem where
  /-- A byte that stands for itself, or is part of a character that does. -/
  | byte (b : UInt8) (notQuote : b ≠ 0x22) (notBackslash : b ≠ 0x5c) (notControl : ¬ b < 0x20)
  /-- A backslash and a letter. -/
  | short (letter : UInt8) (known : (shortEscape letter).isSome = true)
  /-- A backslash, a `u` and four hexadecimal digits. -/
  | code (a b c d : UInt8) (isHex : ∀ x ∈ [a, b, c, d], (hexValue x).isSome = true)

/-- A piece of a string as it is written. -/
def StringItem.bytes : StringItem → List UInt8
  | .byte b _ _ _ => [b]
  | .short letter _ => [0x5c, letter]
  | .code a b c d _ => [0x5c, 0x75, a, b, c, d]

/-- A string. -/
abbrev StringToken := List StringItem

/-- What is written of a string behind its opening quote. -/
def StringToken.bytes (s : StringToken) : List UInt8 := s.flatMap StringItem.bytes ++ [0x22]

theorem StringToken.bytes_cons (item : StringItem) (s : StringToken) :
    StringToken.bytes (item :: s) = item.bytes ++ StringToken.bytes s := by
  simp [StringToken.bytes]

/-! ## §4. Trees. -/

mutual

/-- **The syntax tree of a JSON value.** -/
inductive Tree where
  | null
  | truth (b : Bool)
  | number (n : NumberToken)
  | string (s : StringToken)
  | list (items : Items)
  | object (members : Members)

/-- The elements of a list. -/
inductive Items where
  /-- The blanks before the end of the list. -/
  | nil (before : Blanks)
  /-- An element: the blanks before its comma, if it is not the first, and before itself. -/
  | cons (leading before : Blanks) (value : Tree) (rest : Items)

/-- The members of an object. -/
inductive Members where
  /-- The blanks before the end of the object. -/
  | nil (before : Blanks)
  /-- A member: the blanks before its comma, if it is not the first, before its name, its colon
  and its value. -/
  | cons (leading before : Blanks) (name : StringToken) (beforeColon behindColon : Blanks)
      (value : Tree) (rest : Members)

end

/-- What separates an element or a member from the one before it. -/
def separator (first : Bool) : List UInt8 := if first then [] else [0x2c]

mutual

/-- **A value as it is written.** -/
def Tree.bytes : Tree → List UInt8
  | .null => 0x6e :: nullTail
  | .truth true => 0x74 :: trueTail
  | .truth false => 0x66 :: falseTail
  | .number n => n.bytes
  | .string s => 0x22 :: StringToken.bytes s
  | .list items => 0x5b :: (items.bytes true ++ [0x5d])
  | .object members => 0x7b :: (members.bytes true ++ [0x7d])

/-- The elements of a list as they are written, from the first or a later one on. -/
def Items.bytes (first : Bool) : Items → List UInt8
  | .nil before => before.bytes
  | .cons leading before value rest =>
    leading.bytes ++ (separator first ++ (before.bytes ++ (value.bytes ++ rest.bytes false)))

/-- The members of an object as they are written, from the first or a later one on. -/
def Members.bytes (first : Bool) : Members → List UInt8
  | .nil before => before.bytes
  | .cons leading before name beforeColon behindColon value rest =>
    leading.bytes ++ (separator first ++ (before.bytes ++ 0x22 :: (StringToken.bytes name ++
      (beforeColon.bytes ++ 0x3a :: (behindColon.bytes ++ (value.bytes ++ rest.bytes false))))))

end

mutual

/-- How many brackets are open at once. -/
def Tree.depth : Tree → Nat
  | .list items => items.depth + 1
  | .object members => members.depth + 1
  | _ => 0

/-- How many brackets are open at once inside the elements. -/
def Items.depth : Items → Nat
  | .nil _ => 0
  | .cons _ _ value rest => max value.depth rest.depth

/-- How many brackets are open at once inside the members. -/
def Members.depth : Members → Nat
  | .nil _ => 0
  | .cons _ _ _ _ _ value rest => max value.depth rest.depth

end

/-- The elements without their blanks. -/
def Items.values : Items → List Tree
  | .nil _ => []
  | .cons _ _ value rest => value :: rest.values

/-- The members without their blanks. -/
def Members.entries : Members → List (StringToken × Tree)
  | .nil _ => []
  | .cons _ _ name _ _ value rest => (name, value) :: rest.entries

/-- The values inside the brackets of a value. -/
def Tree.inside : Tree → List Tree
  | .list items => items.values
  | .object members => members.entries.map Prod.snd
  | _ => []

theorem Tree.bytes_list (items : Items) (bytes : List UInt8) :
    (Tree.list items).bytes ++ bytes = 0x5b :: (items.bytes true ++ 0x5d :: bytes) := by
  simp [Tree.bytes]

theorem Tree.bytes_object (members : Members) (bytes : List UInt8) :
    (Tree.object members).bytes ++ bytes = 0x7b :: (members.bytes true ++ 0x7d :: bytes) := by
  simp [Tree.bytes]

/-- How the first element of a list, or a later one, is written. -/
theorem Items.bytes_cons_first (leading before : Blanks) (value : Tree) (rest : Items)
    (bytes : List UInt8) :
    (Items.cons leading before value rest).bytes true ++ bytes
      = (leading.append before).bytes ++ (value.bytes ++ (rest.bytes false ++ bytes)) := by
  simp [Items.bytes, separator, Blanks.append]

theorem Items.bytes_cons_later (leading before : Blanks) (value : Tree) (rest : Items)
    (bytes : List UInt8) :
    (Items.cons leading before value rest).bytes false ++ bytes
      = leading.bytes
        ++ 0x2c :: (before.bytes ++ (value.bytes ++ (rest.bytes false ++ bytes))) := by
  simp [Items.bytes, separator]

/-- How the first member of an object, or a later one, is written. -/
theorem Members.bytes_cons_first (leading before : Blanks) (name : StringToken)
    (beforeColon behindColon : Blanks) (value : Tree) (rest : Members) (bytes : List UInt8) :
    (Members.cons leading before name beforeColon behindColon value rest).bytes true ++ bytes
      = (leading.append before).bytes ++ 0x22 :: (StringToken.bytes name ++ (beforeColon.bytes ++
          0x3a :: (behindColon.bytes ++ (value.bytes ++ (rest.bytes false ++ bytes))))) := by
  simp [Members.bytes, separator, Blanks.append]

theorem Members.bytes_cons_later (leading before : Blanks) (name : StringToken)
    (beforeColon behindColon : Blanks) (value : Tree) (rest : Members) (bytes : List UInt8) :
    (Members.cons leading before name beforeColon behindColon value rest).bytes false ++ bytes
      = leading.bytes ++ 0x2c :: (before.bytes ++ 0x22 :: (StringToken.bytes name ++
          (beforeColon.bytes ++ 0x3a :: (behindColon.bytes ++ (value.bytes ++
            (rest.bytes false ++ bytes)))))) := by
  simp [Members.bytes, separator]

/-- **A well-formed document**: a value between blanks. -/
structure Document where
  before : Blanks
  tree : Tree
  behind : Blanks

/-- A document as it is written. -/
def Document.bytes (d : Document) : List UInt8 :=
  d.before.bytes ++ (d.tree.bytes ++ d.behind.bytes)

/-- A value on its own is a document. -/
def Tree.alone (t : Tree) : Document := ⟨.empty, t, .empty⟩

/-! ## §5. How a value begins. -/

/-- The first byte of a value. -/
def Tree.head : Tree → UInt8
  | .null => 0x6e
  | .truth true => 0x74
  | .truth false => 0x66
  | .number n => if n.negative then 0x2d else n.first
  | .string _ => 0x22
  | .list _ => 0x5b
  | .object _ => 0x7b

/-- What is written of a value behind its first byte. -/
def Tree.behindHead (t : Tree) : List UInt8 := t.bytes.tail

theorem Tree.bytes_eq (t : Tree) : t.bytes = t.head :: t.behindHead := by
  cases t with
  | truth b => cases b <;> simp [bytes, head, behindHead]
  | number n =>
      cases h : n.negative <;> simp [bytes, NumberToken.bytes, head, behindHead, h]
  | _ => simp [bytes, head, behindHead]

theorem ne_of_isDigit {b c : UInt8} (hb : isDigit b = true) (hc : isDigit c = false) : b ≠ c := by
  rintro rfl
  rw [hb] at hc
  cases hc

theorem Tree.head_of_negative {n : NumberToken} (h : n.negative = true) :
    (Tree.number n).head = 0x2d := by
  rw [head, h]
  rfl

theorem Tree.head_of_not_negative {n : NumberToken} (h : n.negative = false) :
    (Tree.number n).head = n.first := by
  rw [head, h]
  rfl

/-- A number begins with a minus or a digit. -/
theorem Tree.head_number_ne (n : NumberToken) {b : UInt8} (hminus : b ≠ 0x2d)
    (hdigit : isDigit b = false) : (Tree.number n).head ≠ b := by
  cases h : n.negative with
  | true =>
      rw [head_of_negative h]
      exact hminus.symm
  | false =>
      rw [head_of_not_negative h]
      exact ne_of_isDigit n.isDigit_first hdigit

/-- A value begins with no blank, comma, colon or closing bracket. -/
theorem Tree.head_ne (t : Tree) :
    isBlank t.head = false ∧ t.head ≠ 0x2c ∧ t.head ≠ 0x5d ∧ t.head ≠ 0x7d := by
  cases t with
  | truth b => cases b <;> decide
  | number n =>
      have hne : ∀ b : UInt8, b ≠ 0x2d → isDigit b = false → (Tree.number n).head ≠ b :=
        fun b => head_number_ne n
      refine ⟨?_, hne _ (by decide) rfl, hne _ (by decide) rfl, hne _ (by decide) rfl⟩
      simp [isBlank, hne 0x20 (by decide) rfl, hne 0x0a (by decide) rfl,
        hne 0x0d (by decide) rfl, hne 0x09 (by decide) rfl]
  | _ => simp [head, isBlank]

/-! ## §6. Values inside brackets are smaller. -/

theorem Tree.bytes_pos (t : Tree) : 0 < t.bytes.length := by simp [bytes_eq]

theorem Items.length_values_le (first : Bool) :
    ∀ items : Items, items.values.length ≤ (items.bytes first).length
  | .nil before => Nat.zero_le _
  | .cons leading before value rest => by
      have := rest.length_values_le false
      have := value.bytes_pos
      simp only [values, bytes, List.length_cons, List.length_append]
      omega

theorem Members.length_entries_le (first : Bool) :
    ∀ members : Members, members.entries.length ≤ (members.bytes first).length
  | .nil before => Nat.zero_le _
  | .cons leading before name beforeColon behindColon value rest => by
      have := rest.length_entries_le false
      have := value.bytes_pos
      simp only [entries, bytes, List.length_cons, List.length_append]
      omega

/-- A list has fewer elements than bytes. -/
theorem Items.length_values_lt (items : Items) :
    items.values.length < (Tree.list items).bytes.length := by
  have := items.length_values_le true
  simp only [Tree.bytes, List.length_cons, List.length_append]
  omega

/-- An object has fewer members than bytes. -/
theorem Members.length_entries_lt (members : Members) :
    members.entries.length < (Tree.object members).bytes.length := by
  have := members.length_entries_le true
  simp only [Tree.bytes, List.length_cons, List.length_append]
  omega

theorem Items.le_of_mem (first : Bool) {t : Tree} :
    ∀ items : Items, t ∈ items.values →
      t.depth ≤ items.depth ∧ t.bytes.length ≤ (items.bytes first).length
  | .nil before, h => by cases h
  | .cons leading before value rest, h => by
      simp only [depth, bytes, List.length_append]
      rcases List.mem_cons.mp h with rfl | h
      · omega
      · have := rest.le_of_mem false h
        omega

theorem Members.le_of_mem (first : Bool) {t : Tree} :
    ∀ members : Members, t ∈ members.entries.map Prod.snd →
      t.depth ≤ members.depth ∧ t.bytes.length ≤ (members.bytes first).length
  | .nil before, h => by cases h
  | .cons leading before name beforeColon behindColon value rest, h => by
      simp only [depth, bytes, List.length_append, List.length_cons]
      rcases List.mem_cons.mp h with rfl | h
      · omega
      · have := rest.le_of_mem false h
        omega

/-- **A value inside brackets opens fewer brackets and has fewer bytes.** -/
theorem Tree.lt_of_mem_inside {s t : Tree} (h : s ∈ t.inside) :
    s.depth < t.depth ∧ s.bytes.length < t.bytes.length := by
  cases t with
  | list items =>
      have := items.le_of_mem true h
      simp only [depth, bytes, List.length_cons, List.length_append]
      omega
  | object members =>
      have := members.le_of_mem true h
      simp only [depth, bytes, List.length_cons, List.length_append]
      omega
  | _ => cases h

end ErrorContract.Json
