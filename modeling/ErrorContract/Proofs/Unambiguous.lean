/-
  ErrorContract.Proofs.Unambiguous
  ────────────────────────────────
  **A PLACEHOLDER CAN BE READ IN ONE WAY.**

  `placeholderPattern` gives the placeholders of a configuration as a regular
  expression.  It leaves much open: where a default is missing two runs of
  blanks stand side by side, so an engine can cut the blanks behind a key
  anywhere, and a default may hold bars, braces and whole placeholders.  All
  ways to match at one place nevertheless take the same text and capture the
  same: no character can both continue a key, blanks or a default and begin
  what stands behind.

  Main statement `placeholder_read_in_one_way`: at each place of a line at
  most one text of the language begins, the matcher finds a placeholder
  exactly where one does, and its key and its default are the only ones that
  this text can be read with.  So the matcher, which never goes back, cuts a
  line as a search for the expression does.
-/
import Mathlib.Data.Set.Subsingleton
import ErrorContract.Proofs.Expansion
import ErrorContract.Proofs.Regex

namespace ErrorContract.Template

open ErrorContract

/-! ## §1. The expression for placeholders. -/

/-- A bar, the word, and a text in quotes. -/
def defaultPattern : Regex :=
  .seq (.literal ['|']) <| .seq (.many Blank.member) <| .seq (.literal defaultOpening) <|
    .seq (.group 2 (.many (· != '"'))) (.literal defaultClosing)

/-- **The expression for placeholders**: two braces, a key, a default or none, two braces, and
blanks between them. -/
def placeholderPattern : Regex :=
  .seq (.literal opening) <| .seq (.many Blank.member) <|
    .seq (.group 1 (.oneOrMore isKeyChar)) <| .seq (.many Blank.member) <|
    .seq (.optional defaultPattern) <| .seq (.many Blank.member) (.literal closing)

/-- What the groups capture of a placeholder: its key, and its default if it has one. -/
def Placeholder.groups (p : Placeholder) : Groups :=
  (1, p.key) :: (p.default.map fun text => (2, text)).toList

/-- What a piece is to a search. -/
def Piece.cut : Piece → Regex.Cut
  | .char c => .char c
  | .placeholder p => .found p.groups

/-- A run of characters of a kind, as long as it can be where it stands. -/
structure IsRun (p : Char → Bool) (left run right : List Char) : Prop where
  nonempty : run ≠ []
  all : ∀ c ∈ run, p c = true
  starts : Stops p left.reverse
  ends : Stops p right

/-- **The form of a placeholder**: its key is a run as long as it can be, its default the text
between the quotes, and missing where there is no default part. -/
inductive Placeholder.Form : Placeholder → List Char → Prop where
  | mk {key before between part behind : List Char} {default : Option (List Char)}
      (hbefore : IsBlank before) (hbetween : IsBlank between) (hpart : DefaultWritten default part)
      (hbehind : IsBlank behind)
      (hkey : IsRun isKeyChar (opening ++ before) key
        (between ++ (part ++ (behind ++ closing)))) :
      Form ⟨key, default⟩
        (opening ++ (before ++ (key ++ (between ++ (part ++ (behind ++ closing))))))

/-! ## §2. The language of the expression. -/

/-- A key begins behind blanks or the braces, so nothing in front of it continues it. -/
theorem stops_before_key {before : List Char} (hbefore : IsBlank before) :
    Stops isKeyChar (opening ++ before).reverse := by
  rw [List.reverse_append]
  cases hreverse : before.reverse with
  | nil => exact stops_cons rfl
  | cons b others =>
      have hb : b ∈ before := List.mem_reverse.mp (hreverse ▸ List.mem_cons_self)
      exact stops_cons (isKeyChar_of_blank (hbefore b hb))

/-- Wherever a key is written it is as long as it can be. -/
theorem form_iff_written {p : Placeholder} {raw : List Char} : p.Form raw ↔ p.Written raw := by
  constructor
  · rintro ⟨hbefore, hbetween, hpart, hbehind, hkey⟩
    exact .mk hbefore hkey.nonempty hkey.all hbetween hpart hbehind
  · rintro ⟨hbefore, hkey, hchars, hbetween, hpart, hbehind⟩
    refine .mk hbefore hbetween hpart hbehind ⟨hkey, hchars, stops_before_key hbefore, ?_⟩
    simpa using stops_key hbetween hpart hbehind []

theorem matches_defaultPattern_iff {part : List Char} {groups : Groups} :
    defaultPattern.Matches part groups
      ↔ ∃ text, DefaultWritten (some text) part ∧ groups = [(2, text)] := by
  constructor
  · intro h
    obtain ⟨_, hafterBar, rfl⟩ := Regex.matches_literal_seq_iff.mp h
    obtain ⟨blanks, _, hblanks, hafterBlanks, rfl⟩ := Regex.matches_many_seq_iff.mp hafterBar
    obtain ⟨_, hafterWord, rfl⟩ := Regex.matches_literal_seq_iff.mp hafterBlanks
    obtain ⟨text, _, _, _, htext, hclosing, rfl, rfl⟩ := Regex.matches_seq_iff.mp hafterWord
    obtain ⟨rfl, rfl⟩ := Regex.matches_literal_iff.mp hclosing
    obtain ⟨_, hmany, rfl⟩ := Regex.matches_group_iff.mp htext
    obtain ⟨hclear, rfl⟩ := Regex.matches_many_iff.mp hmany
    exact ⟨text, .given hblanks (quote_not_mem_iff.mpr hclear), rfl⟩
  · rintro ⟨text, hwritten, rfl⟩
    cases hwritten with
    | @given blanks text hblanks htext =>
        have hrun : (Regex.many (· != '"')).Matches text [] :=
          .many (quote_not_mem_iff.mp htext)
        refine Regex.matches_literal_seq_iff.mpr ⟨_, ?_, rfl⟩
        refine Regex.matches_many_seq_iff.mpr ⟨blanks, _, hblanks, ?_, rfl⟩
        refine Regex.matches_literal_seq_iff.mpr ⟨_, ?_, rfl⟩
        exact .seq (.group hrun) (Regex.matches_literal defaultClosing)

/-- The part that may be missing is the default part, written or not. -/
theorem matches_optional_defaultPattern_iff {part : List Char} {groups : Groups} :
    (Regex.optional defaultPattern).Matches part groups
      ↔ ∃ default, DefaultWritten default part
        ∧ groups = (default.map fun text => (2, text)).toList := by
  rw [Regex.matches_optional_iff, matches_defaultPattern_iff]
  constructor
  · rintro (⟨rfl, rfl⟩ | ⟨text, hwritten, rfl⟩)
    · exact ⟨none, .absent, rfl⟩
    · exact ⟨some text, hwritten, rfl⟩
  · rintro ⟨default, hwritten, rfl⟩
    cases hwritten with
    | absent => exact .inl ⟨rfl, rfl⟩
    | given hblanks htext => exact .inr ⟨_, .given hblanks htext, rfl⟩

/-- **The texts of the expression are the written forms of placeholders**, and what its groups
capture are the key and the default. -/
theorem matches_placeholderPattern_iff {raw : List Char} {groups : Groups} :
    placeholderPattern.Matches raw groups ↔ ∃ p : Placeholder, p.Written raw ∧ groups = p.groups := by
  constructor
  · intro h
    -- The expression is taken apart from its front, each part leaving the one behind it.
    obtain ⟨_, hafterOpening, rfl⟩ := Regex.matches_literal_seq_iff.mp h
    obtain ⟨before, _, hbefore, hfromKey, rfl⟩ := Regex.matches_many_seq_iff.mp hafterOpening
    obtain ⟨key, _, _, _, hgroup, hafterKey, rfl, rfl⟩ := Regex.matches_seq_iff.mp hfromKey
    obtain ⟨_, hrun, rfl⟩ := Regex.matches_group_iff.mp hgroup
    obtain ⟨hkey, hchars, rfl⟩ := Regex.matches_oneOrMore_iff.mp hrun
    obtain ⟨between, _, hbetween, hfromPart, rfl⟩ := Regex.matches_many_seq_iff.mp hafterKey
    obtain ⟨part, _, _, _, hpart, hafterPart, rfl, rfl⟩ := Regex.matches_seq_iff.mp hfromPart
    obtain ⟨default, hwritten, rfl⟩ := matches_optional_defaultPattern_iff.mp hpart
    obtain ⟨behind, _, hbehind, hclosing, rfl⟩ := Regex.matches_many_seq_iff.mp hafterPart
    obtain ⟨rfl, rfl⟩ := Regex.matches_literal_iff.mp hclosing
    refine ⟨⟨key, default⟩, .mk hbefore hkey hchars hbetween hwritten hbehind, ?_⟩
    simp [Placeholder.groups]
  · rintro ⟨p, hp, rfl⟩
    cases hp with
    | @mk key before between part behind default hbefore hkey hchars hbetween hpart hbehind =>
        -- And it is put together from its end.
        have hend := Regex.matches_many_seq_iff.mpr
          ⟨behind, closing, hbehind, Regex.matches_literal closing, rfl⟩
        have hdefault := matches_optional_defaultPattern_iff.mpr ⟨default, hpart, rfl⟩
        have hbehindKey := Regex.matches_many_seq_iff.mpr
          ⟨between, _, hbetween, .seq hdefault hend, rfl⟩
        have hrun : (Regex.oneOrMore isKeyChar).Matches key [] :=
          Regex.matches_oneOrMore_iff.mpr ⟨hkey, hchars, rfl⟩
        have hgroups : (⟨key, default⟩ : Placeholder).groups
            = ([] ++ [(1, key)]) ++ ((default.map fun text => (2, text)).toList ++ []) := by
          simp [Placeholder.groups]
        rw [hgroups]
        refine Regex.matches_literal_seq_iff.mpr ⟨_, ?_, rfl⟩
        exact Regex.matches_many_seq_iff.mpr
          ⟨before, _, hbefore, .seq (.group hrun) hbehindKey, rfl⟩

/-! ## §3. One reading. -/

/-- **A text begins with one written form at most**, and that is of one placeholder. -/
theorem Placeholder.Written.unique {p q : Placeholder} {raw raw' rest rest' : List Char}
    (h : p.Written raw) (h' : q.Written raw') (hcs : raw ++ rest = raw' ++ rest') :
    p = q ∧ raw = raw' ∧ rest = rest' := by
  -- The matcher finds each of them, and it finds one thing only.
  have hfound := placeholder?_append h rest
  rw [hcs, placeholder?_append h' rest'] at hfound
  obtain ⟨rfl, rfl⟩ := Prod.mk.inj (Option.some.inj hfound)
  exact ⟨rfl, List.append_cancel_right hcs, rfl⟩

theorem Placeholder.Written.eq {p q : Placeholder} {raw : List Char} (h : p.Written raw)
    (h' : q.Written raw) : p = q :=
  have hcs : raw ++ [] = raw ++ [] := rfl
  (h.unique h' hcs).1

/-- What is written is the form of one placeholder. -/
theorem form_iff_of_written {p q : Placeholder} {raw : List Char} (h : p.Written raw) :
    q.Form raw ↔ q = p := by
  rw [form_iff_written]
  constructor
  · intro hq
    exact hq.eq h
  · rintro rfl
    exact h

/-- The groups of the expression have one thing to capture of what is written. -/
theorem matches_iff_of_written {p : Placeholder} {raw : List Char} {groups : Groups}
    (h : p.Written raw) : placeholderPattern.Matches raw groups ↔ groups = p.groups := by
  rw [matches_placeholderPattern_iff]
  constructor
  · rintro ⟨q, hq, rfl⟩
    rw [hq.eq h]
  · rintro rfl
    exact ⟨p, h, rfl⟩

/-- **An engine that goes back finds one thing only**, wherever it cuts the blanks. -/
theorem oneWay_placeholderPattern : placeholderPattern.OneWay := by
  rintro cs ⟨raw, groups, rest⟩ hw ⟨raw', groups', rest'⟩ hw'
  -- Each way takes a written form from the front of the same text.
  obtain ⟨hmatches, hcs⟩ := Regex.mem_ways_iff.mp hw
  obtain ⟨hmatches', hcs'⟩ := Regex.mem_ways_iff.mp hw'
  obtain ⟨p, hp, rfl⟩ := matches_placeholderPattern_iff.mp hmatches
  obtain ⟨q, hq, rfl⟩ := matches_placeholderPattern_iff.mp hmatches'
  obtain ⟨rfl, rfl, rfl⟩ := hp.unique hq (hcs.symm.trans hcs')
  rfl

/-- The blanks behind a key can be cut in three places, which makes no difference. -/
example :
    let way : Regex.Way := ⟨"\x7b\x7ba  \x7d\x7d".toList, [(1, ['a'])], ['!']⟩
    placeholderPattern.ways "\x7b\x7ba  \x7d\x7d!".toList = [way, way, way] := by
  decide

/-! ## §4. A search for the expression. -/

/-- What an engine tries first is a written form, with what it captures and what follows it. -/
theorem first_eq_some_iff {cs : List Char} {w : Regex.Way} :
    placeholderPattern.first cs = some w
      ↔ ∃ p : Placeholder, p.Written w.taken ∧ w.groups = p.groups ∧ cs = w.taken ++ w.rest := by
  rw [oneWay_placeholderPattern.first_eq_some_iff, Regex.mem_ways_iff,
    matches_placeholderPattern_iff]
  simp only [← and_assoc, exists_and_right]

theorem first_append {p : Placeholder} {raw : List Char} (h : p.Written raw) (rest : List Char) :
    placeholderPattern.first (raw ++ rest) = some ⟨raw, p.groups, rest⟩ :=
  first_eq_some_iff.mpr ⟨p, h, rfl, rfl⟩

theorem first_eq_none_iff {cs : List Char} :
    placeholderPattern.first cs = none ↔ ¬ Begins cs := by
  constructor
  · rintro hnone ⟨p, raw, rest, hp, rfl⟩
    rw [first_append hp] at hnone
    cases hnone
  · intro hclear
    refine Option.eq_none_iff_forall_ne_some.mpr fun w hfirst => hclear ?_
    obtain ⟨p, hp, -, hcs⟩ := first_eq_some_iff.mp hfirst
    exact ⟨p, w.taken, w.rest, hp, hcs⟩

/-- **A search cuts a line where the matcher does**, by induction on the search. -/
theorem eq_map_cut_of_searched {line : List Char} {cuts : List Regex.Cut}
    (h : placeholderPattern.Searched line cuts) : cuts = (pieces line).map Piece.cut := by
  induction h with
  | nil hnone =>
      rw [pieces]
      rfl
  -- No written form begins at this character, or one does and the search goes on behind it.
  | char hnone hrest ih =>
      rw [pieces_cons (first_eq_none_iff.mp hnone), List.map_cons, ← ih]
      rfl
  | found hfirst hnonempty hrest ih =>
      obtain ⟨p, hp, hgroups, hcs⟩ := first_eq_some_iff.mp hfirst
      rw [hcs, pieces_append hp, List.map_cons, ← ih, hgroups]
      rfl

/-- Every line can be searched, and the pieces of the matcher are what the search finds. -/
theorem searched_map_cut (line : List Char) :
    placeholderPattern.Searched line ((pieces line).map Piece.cut) := by
  induction line using pieces.induct with
  | case1 =>
      rw [pieces]
      refine .nil (first_eq_none_iff.mpr ?_)
      rw [begins_iff]
      decide
  | case2 c rest p rest' hfound ih =>
      obtain ⟨raw, hp, hcs⟩ := placeholder?_eq_some_iff.mp hfound
      rw [hcs, pieces_append hp, List.map_cons]
      exact .found (first_append hp rest') hp.ne_nil ih
  | case3 c rest hnone ih =>
      have hclear : ¬ Begins (c :: rest) := by
        rw [begins_iff, hnone]
        decide
      rw [pieces_cons hclear, List.map_cons]
      exact .char (first_eq_none_iff.mpr hclear) ih

/-- **The pattern for placeholders is unambiguous.** At every place of a line at most one text of
the expression begins, the matcher finds a placeholder exactly where one does, and the key and the
default that it finds are the only ones that this text has the form of, and all that the groups of
the expression can capture of it. So the matcher, which never goes back, cuts every line as a
search for the expression does. -/
theorem placeholder_read_in_one_way (line : List Char) :
    (∀ n,
      {raw | raw <+: line.drop n ∧ ∃ groups, placeholderPattern.Matches raw groups}.Subsingleton
      ∧ ((∃ p rest, placeholder? (line.drop n) = some (p, rest))
          ↔ ∃ raw groups, raw <+: line.drop n ∧ placeholderPattern.Matches raw groups)
      ∧ ∀ p rest, placeholder? (line.drop n) = some (p, rest)
          ↔ ∃ raw, line.drop n = raw ++ rest ∧ (∀ q : Placeholder, q.Form raw ↔ q = p)
            ∧ ∀ groups, placeholderPattern.Matches raw groups ↔ groups = p.groups)
    ∧ ∀ cuts, placeholderPattern.Searched line cuts ↔ cuts = (pieces line).map Piece.cut := by
  refine ⟨fun n => ⟨?_, ?_, fun p rest => ?_⟩, fun cuts => ⟨eq_map_cut_of_searched, ?_⟩⟩
  · rintro raw ⟨⟨rest, hcs⟩, groups, hmatches⟩ raw' ⟨⟨rest', hcs'⟩, groups', hmatches'⟩
    obtain ⟨p, hp, -⟩ := matches_placeholderPattern_iff.mp hmatches
    obtain ⟨q, hq, -⟩ := matches_placeholderPattern_iff.mp hmatches'
    exact (hp.unique hq (hcs.trans hcs'.symm)).2.1
  · constructor
    · rintro ⟨p, rest, hfound⟩
      obtain ⟨raw, hp, hcs⟩ := placeholder?_eq_some_iff.mp hfound
      exact ⟨raw, p.groups, ⟨rest, hcs.symm⟩, (matches_iff_of_written hp).mpr rfl⟩
    · rintro ⟨raw, groups, ⟨rest, hcs⟩, hmatches⟩
      obtain ⟨p, hp, -⟩ := matches_placeholderPattern_iff.mp hmatches
      exact ⟨p, rest, placeholder?_eq_some_iff.mpr ⟨raw, hp, hcs.symm⟩⟩
  · rw [placeholder?_eq_some_iff]
    constructor
    · rintro ⟨raw, hp, hcs⟩
      exact ⟨raw, hcs, fun q => form_iff_of_written hp, fun groups => matches_iff_of_written hp⟩
    · rintro ⟨raw, hcs, hform, -⟩
      exact ⟨raw, form_iff_written.mp ((hform p).mpr rfl), hcs⟩
  · rintro rfl
    exact searched_map_cut line

end ErrorContract.Template
