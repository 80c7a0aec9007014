/-
  ErrorContract.Proofs.Regex
  ──────────────────────────
  **REGULAR EXPRESSIONS THAT CAPTURE.**

  An expression has a language: `r.Matches raw groups` says that `raw` is in
  it, and what the groups of the expression have captured of it.  An engine
  that goes back when it is stuck tries the ways to match in a fixed order:
  a run of characters as long as it can be first, an optional part present
  first.  `r.ways cs` are all of them at the front of a text, in that order,
  and the engine answers with the first.

  Main statements: `mem_ways_iff`, the ways are exactly the texts of the
  language that the given one begins with; and `first_eq_some_iff`, where all
  ways agree the order in which they are tried does not matter.
-/

namespace ErrorContract

/-- What groups have captured: the number of each, and its text. -/
abbrev Groups := List (Nat × List Char)

/-- **An expression**: the part of the usual ones in which only classes of characters repeat. -/
inductive Regex where
  | empty
  /-- One character of a class. -/
  | one (p : Char → Bool)
  /-- Characters of a class, as many as can be had. -/
  | many (p : Char → Bool)
  | seq (r s : Regex)
  /-- An expression, or nothing where it cannot be had. -/
  | optional (r : Regex)
  /-- An expression whose text is captured. -/
  | group (n : Nat) (r : Regex)

namespace Regex

/-- An expression for exactly these characters. -/
def literal : List Char → Regex
  | [] => .empty
  | c :: cs => .seq (.one (· == c)) (literal cs)

/-- Characters of a class, at least one. -/
def oneOrMore (p : Char → Bool) : Regex := .seq (.one p) (.many p)

/-! ## §1. The language. -/

/-- **The texts of an expression**, with what its groups capture of them. -/
inductive Matches : Regex → List Char → Groups → Prop where
  | empty : Matches .empty [] []
  | one {p : Char → Bool} {c : Char} (h : p c = true) : Matches (.one p) [c] []
  | many {p : Char → Bool} {raw : List Char} (h : ∀ c ∈ raw, p c = true) :
      Matches (.many p) raw []
  | seq {r s : Regex} {raw raw' : List Char} {groups groups' : Groups}
      (hr : Matches r raw groups) (hs : Matches s raw' groups') :
      Matches (.seq r s) (raw ++ raw') (groups ++ groups')
  | absent {r : Regex} : Matches (.optional r) [] []
  | present {r : Regex} {raw : List Char} {groups : Groups} (h : Matches r raw groups) :
      Matches (.optional r) raw groups
  | group {n : Nat} {r : Regex} {raw : List Char} {groups : Groups} (h : Matches r raw groups) :
      Matches (.group n r) raw (groups ++ [(n, raw)])

section Language

variable {r s : Regex} {p : Char → Bool} {n : Nat} {raw : List Char} {groups : Groups}

@[simp] theorem matches_empty_iff : empty.Matches raw groups ↔ raw = [] ∧ groups = [] := by
  constructor
  · rintro ⟨⟩
    exact ⟨rfl, rfl⟩
  · rintro ⟨rfl, rfl⟩
    exact .empty

@[simp] theorem matches_one_iff :
    (one p).Matches raw groups ↔ ∃ c, p c = true ∧ raw = [c] ∧ groups = [] := by
  constructor
  · rintro ⟨⟩
    exact ⟨_, ‹_›, rfl, rfl⟩
  · rintro ⟨c, h, rfl, rfl⟩
    exact .one h

@[simp] theorem matches_many_iff :
    (many p).Matches raw groups ↔ (∀ c ∈ raw, p c = true) ∧ groups = [] := by
  constructor
  · rintro ⟨⟩
    exact ⟨‹_›, rfl⟩
  · rintro ⟨h, rfl⟩
    exact .many h

@[simp] theorem matches_seq_iff :
    (seq r s).Matches raw groups ↔ ∃ front back groups₁ groups₂, r.Matches front groups₁
      ∧ s.Matches back groups₂ ∧ raw = front ++ back ∧ groups = groups₁ ++ groups₂ := by
  constructor
  · rintro ⟨⟩
    exact ⟨_, _, _, _, ‹_›, ‹_›, rfl, rfl⟩
  · rintro ⟨front, back, groups₁, groups₂, hr, hs, rfl, rfl⟩
    exact .seq hr hs

@[simp] theorem matches_optional_iff :
    (optional r).Matches raw groups ↔ raw = [] ∧ groups = [] ∨ r.Matches raw groups := by
  constructor
  · intro h
    cases h with
    | absent => exact .inl ⟨rfl, rfl⟩
    | present h => exact .inr h
  · rintro (⟨rfl, rfl⟩ | h)
    · exact .absent
    · exact .present h

@[simp] theorem matches_group_iff :
    (group n r).Matches raw groups
      ↔ ∃ inner, r.Matches raw inner ∧ groups = inner ++ [(n, raw)] := by
  constructor
  · rintro ⟨⟩
    exact ⟨_, ‹_›, rfl⟩
  · rintro ⟨inner, h, rfl⟩
    exact .group h

/-- The only text of given characters is these characters. -/
@[simp] theorem matches_literal_iff {cs : List Char} :
    (literal cs).Matches raw groups ↔ raw = cs ∧ groups = [] := by
  induction cs generalizing raw groups with
  | nil => exact matches_empty_iff
  | cons c cs ih =>
      simp only [literal, matches_seq_iff, matches_one_iff, ih, beq_iff_eq]
      constructor
      · rintro ⟨_, _, _, _, ⟨_, rfl, rfl, rfl⟩, ⟨rfl, rfl⟩, rfl, rfl⟩
        exact ⟨rfl, rfl⟩
      · rintro ⟨rfl, rfl⟩
        exact ⟨[c], cs, [], [], ⟨c, rfl, rfl, rfl⟩, ⟨rfl, rfl⟩, rfl, rfl⟩

theorem matches_literal (cs : List Char) : (literal cs).Matches cs [] :=
  matches_literal_iff.mpr ⟨rfl, rfl⟩

/-- A run of at least one character is a run that is not empty. -/
@[simp] theorem matches_oneOrMore_iff :
    (oneOrMore p).Matches raw groups ↔ raw ≠ [] ∧ (∀ c ∈ raw, p c = true) ∧ groups = [] := by
  simp only [oneOrMore, matches_seq_iff, matches_one_iff, matches_many_iff]
  constructor
  · rintro ⟨_, back, _, _, ⟨c, hc, rfl, rfl⟩, ⟨hback, rfl⟩, rfl, rfl⟩
    exact ⟨by simp, List.forall_mem_cons.mpr ⟨hc, hback⟩, rfl⟩
  · rintro ⟨hne, hall, rfl⟩
    obtain ⟨c, back, rfl⟩ := List.exists_cons_of_ne_nil hne
    obtain ⟨hc, hback⟩ := List.forall_mem_cons.mp hall
    exact ⟨[c], back, [], [], ⟨c, hc, rfl, rfl⟩, ⟨hback, rfl⟩, rfl, rfl⟩

/-- Given characters, and then an expression. -/
theorem matches_literal_seq_iff {cs : List Char} :
    (seq (literal cs) r).Matches raw groups ↔ ∃ back, r.Matches back groups ∧ raw = cs ++ back := by
  rw [matches_seq_iff]
  constructor
  · rintro ⟨_, back, _, _, hliteral, h, rfl, rfl⟩
    obtain ⟨rfl, rfl⟩ := matches_literal_iff.mp hliteral
    exact ⟨back, h, rfl⟩
  · rintro ⟨back, h, rfl⟩
    exact ⟨cs, back, [], groups, matches_literal cs, h, rfl, rfl⟩

/-- A run of characters, and then an expression. -/
theorem matches_many_seq_iff :
    (seq (many p) r).Matches raw groups
      ↔ ∃ front back, (∀ c ∈ front, p c = true) ∧ r.Matches back groups ∧ raw = front ++ back := by
  rw [matches_seq_iff]
  constructor
  · rintro ⟨front, back, _, _, hmany, h, rfl, rfl⟩
    obtain ⟨hall, rfl⟩ := matches_many_iff.mp hmany
    exact ⟨front, back, hall, h, rfl⟩
  · rintro ⟨front, back, hall, h, rfl⟩
    exact ⟨front, back, [], groups, .many hall, h, rfl, rfl⟩

end Language

/-! ## §2. The ways to match. -/

/-- A way to match at the front of a text: what it takes, what it captures, what it leaves. -/
structure Way where
  taken : List Char
  groups : Groups
  rest : List Char
  deriving DecidableEq

/-- Take nothing. -/
def Way.nothing (cs : List Char) : Way := ⟨[], [], cs⟩

/-- One way, and then another from where it has stopped. -/
def Way.followed (w w' : Way) : Way := ⟨w.taken ++ w'.taken, w.groups ++ w'.groups, w'.rest⟩

/-- Capture what has been taken. -/
def Way.capture (n : Nat) (w : Way) : Way := { w with groups := w.groups ++ [(n, w.taken)] }

/-- The ways to take characters of a class: all that there are, then one less, and so on. -/
def runs (p : Char → Bool) : List Char → List Way
  | [] => [.nothing []]
  | c :: cs =>
    if p c then (runs p cs).map (Way.followed ⟨[c], [], cs⟩) ++ [.nothing (c :: cs)]
    else [.nothing (c :: cs)]

/-- **The ways to match at the front of a text**, in the order in which they are tried. -/
def ways : Regex → List Char → List Way
  | .empty, cs => [.nothing cs]
  | .one _, [] => []
  | .one p, c :: cs => if p c then [⟨[c], [], cs⟩] else []
  | .many p, cs => runs p cs
  | .seq r s, cs => (ways r cs).flatMap fun w => (ways s w.rest).map w.followed
  | .optional r, cs => ways r cs ++ [.nothing cs]
  | .group n r, cs => (ways r cs).map (Way.capture n)

/-- **What an engine finds** at the front of a text: the way that it tries first. -/
def first (r : Regex) (cs : List Char) : Option Way := (r.ways cs).head?

/-! ## §3. The ways are the texts of the language. -/

/-- A run is one of the ways, however much of it is left. -/
theorem mem_runs {p : Char → Bool} {raw : List Char} (h : ∀ c ∈ raw, p c = true)
    (rest : List Char) : ⟨raw, [], rest⟩ ∈ runs p (raw ++ rest) := by
  induction raw with
  | nil =>
      -- To take nothing is the last way, whether there is a run or not.
      cases rest with
      | nil => exact List.mem_singleton.mpr rfl
      | cons c rest =>
          rw [List.nil_append, runs]
          split
          · exact List.mem_append_right _ (List.mem_singleton.mpr rfl)
          · exact List.mem_singleton.mpr rfl
  | cons c raw ih =>
      obtain ⟨hc, hraw⟩ := List.forall_mem_cons.mp h
      rw [List.cons_append, runs, if_pos hc]
      exact List.mem_append_left _ (List.mem_map.mpr ⟨_, ih hraw, rfl⟩)

theorem of_mem_runs {p : Char → Bool} {cs : List Char} {w : Way} (h : w ∈ runs p cs) :
    (many p).Matches w.taken w.groups ∧ cs = w.taken ++ w.rest := by
  have hnothing : (many p).Matches [] [] := .many (by simp)
  induction cs generalizing w with
  | nil =>
      rw [List.mem_singleton.mp h]
      exact ⟨hnothing, rfl⟩
  | cons c cs ih =>
      rw [runs] at h
      split at h
      · next hc =>
          rcases List.mem_append.mp h with h | h
          · obtain ⟨w, hw, rfl⟩ := List.mem_map.mp h
            obtain ⟨hmatches, hcs⟩ := ih hw
            obtain ⟨hall, hgroups⟩ := matches_many_iff.mp hmatches
            refine ⟨matches_many_iff.mpr ⟨List.forall_mem_cons.mpr ⟨hc, hall⟩, hgroups⟩, ?_⟩
            exact congrArg (c :: ·) hcs
          · rw [List.mem_singleton.mp h]
            exact ⟨hnothing, rfl⟩
      · rw [List.mem_singleton.mp h]
        exact ⟨hnothing, rfl⟩

/-- A text of the language is one of the ways, whatever follows it. -/
theorem Matches.mem_ways {r : Regex} {raw : List Char} {groups : Groups}
    (h : r.Matches raw groups) (rest : List Char) :
    ⟨raw, groups, rest⟩ ∈ r.ways (raw ++ rest) := by
  induction h generalizing rest with
  | empty => exact List.mem_singleton.mpr rfl
  | one h => simp [ways, h]
  | many h => exact mem_runs h rest
  | @seq r s raw raw' groups groups' hr hs ihr ihs =>
      rw [List.append_assoc]
      exact List.mem_flatMap.mpr ⟨_, ihr (raw' ++ rest), List.mem_map.mpr ⟨_, ihs rest, rfl⟩⟩
  | absent => exact List.mem_append_right _ (List.mem_singleton.mpr rfl)
  | present h ih => exact List.mem_append_left _ (ih rest)
  | group h ih => exact List.mem_map.mpr ⟨_, ih rest, rfl⟩

/-- A way takes a text of the language, and leaves what follows it. -/
theorem of_mem_ways {r : Regex} {cs : List Char} {w : Way} (h : w ∈ r.ways cs) :
    r.Matches w.taken w.groups ∧ cs = w.taken ++ w.rest := by
  induction r generalizing cs w with
  | empty =>
      rw [List.mem_singleton.mp h]
      exact ⟨.empty, rfl⟩
  | one p =>
      cases cs with
      | nil => cases h
      | cons c cs =>
          rw [ways] at h
          split at h
          · next hc =>
              rw [List.mem_singleton.mp h]
              exact ⟨.one hc, rfl⟩
          · cases h
  | many p => exact of_mem_runs h
  | seq r s ihr ihs =>
      obtain ⟨w, hw, hmem⟩ := List.mem_flatMap.mp h
      obtain ⟨w', hw', rfl⟩ := List.mem_map.mp hmem
      obtain ⟨hr, hcs⟩ := ihr hw
      obtain ⟨hs, hrest⟩ := ihs hw'
      refine ⟨.seq hr hs, ?_⟩
      rw [hcs, hrest]
      exact (List.append_assoc ..).symm
  | optional r ih =>
      rcases List.mem_append.mp h with h | h
      · obtain ⟨hr, hcs⟩ := ih h
        exact ⟨.present hr, hcs⟩
      · rw [List.mem_singleton.mp h]
        exact ⟨.absent, rfl⟩
  | group n r ih =>
      obtain ⟨w, hw, rfl⟩ := List.mem_map.mp h
      obtain ⟨hr, hcs⟩ := ih hw
      exact ⟨.group hr, hcs⟩

/-- **The ways to match are the texts of the language that a text begins with.** -/
theorem mem_ways_iff {r : Regex} {cs : List Char} {w : Way} :
    w ∈ r.ways cs ↔ r.Matches w.taken w.groups ∧ cs = w.taken ++ w.rest := by
  constructor
  · exact of_mem_ways
  · rintro ⟨h, rfl⟩
    exact h.mem_ways w.rest

/-- The longest run is tried first. -/
example :
    (many (· == ' ')).ways [' ', ' ', '|']
      = [⟨[' ', ' '], [], ['|']⟩, ⟨[' '], [], [' ', '|']⟩, ⟨[], [], [' ', ' ', '|']⟩] := by
  decide

/-! ## §4. Searching a text. -/

section Search

variable {r : Regex}

/-- All ways to match at the front of a text are the same. -/
def OneWay (r : Regex) : Prop := ∀ cs, ∀ w ∈ r.ways cs, ∀ w' ∈ r.ways cs, w = w'

/-- **Where all ways agree, it does not matter which is tried first.** -/
theorem OneWay.first_eq_some_iff (h : r.OneWay) {cs : List Char} {w : Way} :
    r.first cs = some w ↔ w ∈ r.ways cs := by
  constructor
  · exact List.mem_of_head?
  · intro hw
    obtain ⟨w', others, hways⟩ := List.exists_cons_of_ne_nil (List.ne_nil_of_mem hw)
    have hsame : w = w' := h cs w hw w' (hways ▸ List.mem_cons_self)
    rw [first, hways, List.head?_cons, hsame]

/-- A part of a text that has been searched. -/
inductive Cut where
  | char (c : Char)
  /-- A match, and what its groups have captured. -/
  | found (groups : Groups)

/-- **A search of a text from left to right.** A match is looked for at each place; the search
goes on behind it, or at the next character where there is none. No match is empty. -/
inductive Searched (r : Regex) : List Char → List Cut → Prop where
  | nil (hnone : r.first [] = none) : Searched r [] []
  | char {c : Char} {rest : List Char} {cuts : List Cut} (hnone : r.first (c :: rest) = none)
      (hrest : Searched r rest cuts) : Searched r (c :: rest) (.char c :: cuts)
  | found {cs : List Char} {w : Way} {cuts : List Cut} (hfirst : r.first cs = some w)
      (hnonempty : w.taken ≠ []) (hrest : Searched r w.rest cuts) :
      Searched r cs (.found w.groups :: cuts)

end Search

end Regex

end ErrorContract
