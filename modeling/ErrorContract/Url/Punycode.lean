/-
  ErrorContract.Url.Punycode
  ──────────────────────────
  **PUNYCODE: LABELS OF ANY SCRIPT IN ASCII.**

  The ASCII characters of a label come first, then a hyphen if there are
  any, then the others in ascending order, each as a number: how many steps
  the reader goes on until it inserts the character.  A step goes to the
  next place in the label so far, and from its end to its start with the
  next code.  The numbers are written in 36 digits, the lowest first; where
  a number ends depends on the numbers before it.
-/

namespace ErrorContract.Punycode

/-! ## §1. Digits. -/

/-- The digit with a value below 36. -/
def digit (d : Nat) : Char := if d < 26 then Char.ofNat (97 + d) else Char.ofNat (22 + d)

/-- The value of a digit. -/
def value? (c : Char) : Option Nat :=
  if 'a' ≤ c && c ≤ 'z' then some (c.toNat - 97)
  else if 'A' ≤ c && c ≤ 'Z' then some (c.toNat - 65)
  else if '0' ≤ c && c ≤ '9' then some (c.toNat - 22)
  else none

/-- The least value of a digit that is not the last of its number. -/
def threshold (place bias : Nat) : Nat :=
  if place ≤ bias then 1 else if bias + 26 ≤ place then 26 else place - bias

/-- A threshold is positive and at most 26. -/
theorem threshold_bounds (place bias : Nat) :
    0 < threshold place bias ∧ threshold place bias ≤ 26 := by
  unfold threshold
  split
  · omega
  · split <;> omega

/-- Divide by 35 until at most 455 is left; say for each division 36 more. -/
def settle (delta places : Nat) : Nat × Nat :=
  if 455 < delta then settle (delta / 35) (places + 36) else (delta, places)
termination_by delta
decreasing_by exact Nat.div_lt_self (by omega) (by omega)

/-- The bias after a number, for a label that has grown to a length. -/
def adapt (delta length : Nat) (first : Bool) : Nat :=
  let delta := if first then delta / 700 else delta / 2
  let (delta, places) := settle (delta + delta / length) 0
  places + 36 * delta / (delta + 38)

/-! ## §2. Writing. -/

/-- A number in digits. -/
def digits (bias place n : Nat) : List Char :=
  let t := threshold place bias
  if n < t then [digit n]
  else digit (t + (n - t) % (36 - t)) :: digits bias (place + 36) ((n - t) / (36 - t))
termination_by n
decreasing_by
  have bounds := threshold_bounds place bias
  calc (n - threshold place bias) / (36 - threshold place bias)
      ≤ n - threshold place bias := Nat.div_le_self _ _
    _ < n := by omega

/-- Is the character one of ASCII? -/
def isBasic (c : Char) : Bool := c.toNat < 0x80

/-- What has been written of a label: where the reader stands then, and with how many characters. -/
structure Written where
  code : Nat := 0x80
  index : Nat := 0
  length : Nat
  bias : Nat := 72
  first : Bool := true

/-- Write the insertions of characters, each with its index in the label so far. -/
def writeInsertions (w : Written) : List (Nat × Nat) → List Char
  | [] => []
  | (code, index) :: more =>
    let delta := (code - w.code) * (w.length + 1) + index - w.index
    digits w.bias 36 delta ++ writeInsertions
      ⟨code, index + 1, w.length + 1, adapt delta (w.length + 1) w.first, false⟩ more

/-- The characters beyond ASCII in ascending order, each with its index among those before it. -/
def insertions (label : List Char) : List (Nat × Nat) :=
  let all := label.zipIdx.filterMap fun (c, i) =>
    if isBasic c then none
    else some (c.toNat, ((label.take i).filter (· ≤ c)).length)
  all.mergeSort fun a b => a.1 ≤ b.1

/-- **A label in ASCII.** -/
def encode (label : List Char) : List Char :=
  let basic := label.filter isBasic
  let front := if basic.isEmpty then [] else basic ++ ['-']
  front ++ writeInsertions { length := basic.length } (insertions label)

/-! ## §3. Reading. -/

/-- What has been read of a label: the characters so far, and the digits of a number so far. -/
structure Read where
  code : Nat := 0x80
  index : Nat := 0
  label : List Char
  bias : Nat := 72
  first : Bool := true
  place : Nat := 36
  weight : Nat := 1
  delta : Nat := 0

/-- Insert the character that is a number of steps away. -/
def Read.insert (r : Read) (delta : Nat) : Option Read :=
  let length := r.label.length + 1
  let code := r.code + (r.index + delta) / length
  let index := (r.index + delta) % length
  if h : code.isValidChar then
    some { code, index := index + 1, bias := adapt delta length r.first, first := false,
           label := r.label.take index ++ Char.ofNatAux code h :: r.label.drop index }
  else none

/-- Read digits to the end. -/
def Read.finish (r : Read) : List Char → Option (List Char)
  | [] => if r.place = 36 then some r.label else none
  | c :: rest => do
    let d ← value? c
    let t := threshold r.place r.bias
    let delta := r.delta + d * r.weight
    if d < t then (← r.insert delta).finish rest
    else Read.finish { r with place := r.place + 36, weight := r.weight * (36 - t), delta } rest

/-- **The label that a text in ASCII stands for.** -/
def decode (text : List Char) : Option (List Char) :=
  let (numbers, front) := text.reverse.span (· != '-')
  Read.finish { label := (front.drop 1).reverse } numbers.reverse

end ErrorContract.Punycode
