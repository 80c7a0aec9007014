/-
  ErrorContract.Proofs.Expansion
  ──────────────────────────────
  **EXPANSION IS ONE PASS FROM LEFT TO RIGHT.**

  A page is a text cut into lines, and its lines into segments: literal
  texts and placeholders.  What makes a page that of a text is said without
  the matcher and without an environment: lines are what line feeds
  separate, a comment is one literal, and elsewhere no placeholder begins
  inside a literal.  Every text has exactly one page.

  Main statement `expand_eq_ok_iff_filled`: the expansion of a text is its
  page with every placeholder filled in.  What is filled in is never looked
  at, so nothing in the environment can begin or end a placeholder.
-/
import Mathlib.Data.List.Forall2
import ErrorContract.Proofs.Encoding
import ErrorContract.Proofs.Placeholders

namespace ErrorContract.Template

open ErrorContract

/-! ## §1. Pages. -/

/-- A segment of a line. -/
inductive Segment where
  | literal (text : List Char)
  | placeholder (p : Placeholder)

/-- A placeholder begins the text. -/
def Begins (cs : List Char) : Prop :=
  ∃ (p : Placeholder) (raw rest : List Char), p.Written raw ∧ cs = raw ++ rest

/-- The segments do not begin with a literal. -/
def NoLiteral (segments : List Segment) : Prop := ∀ text, segments.head? ≠ some (.literal text)

/-- **The segments of a line that is no comment.** A literal is as long as it can be, and no
placeholder begins inside it. -/
inductive Segmented : List Char → List Segment → Prop where
  | nil : Segmented [] []
  | placeholder {p : Placeholder} {raw rest : List Char} {segments : List Segment}
      (hraw : p.Written raw) (hrest : Segmented rest segments) :
      Segmented (raw ++ rest) (.placeholder p :: segments)
  | literal {text rest : List Char} {segments : List Segment} (hnonempty : text ≠ [])
      (hclear : ∀ more, more <:+ text → more ≠ [] → ¬ Begins (more ++ rest))
      (hlongest : NoLiteral segments) (hrest : Segmented rest segments) :
      Segmented (text ++ rest) (.literal text :: segments)

/-- The first character of the line that is not blank is a `#`. -/
def IsCommentLine (line : List Char) : Prop :=
  ∃ blanks more, IsBlank blanks ∧ line = blanks ++ '#' :: more

/-- The segments of a line. -/
inductive LineSegmented (line : List Char) : List Segment → Prop where
  | comment (h : IsCommentLine line) : LineSegmented line [.literal line]
  | line {segments : List Segment} (h : ¬ IsCommentLine line) (hline : Segmented line segments) :
      LineSegmented line segments

/-- The lines of a text: what its line feeds separate. -/
def IsLines (text : List Char) (lines : List (List Char)) : Prop :=
  lines ≠ [] ∧ (∀ line ∈ lines, '\n' ∉ line) ∧ text = ['\n'].intercalate lines

/-- **The page of a text.** -/
def IsPage (text : String) (page : List (List Segment)) : Prop :=
  ∃ lines, IsLines text.toList lines ∧ List.Forall₂ LineSegmented lines page

/-! ## §2. What is filled in. -/

/-- **What a segment is replaced by.** A variable that is set to a text is replaced by it, whatever
it holds; one that is not set, or not to a text, by the default. -/
inductive Filled (env : Environment) : Segment → List Char → Prop where
  | literal (text : List Char) : Filled env (.literal text) text
  | value {name : List Char} {default : Option (List Char)} {v : String} (hname : '.' ∉ name)
      (hvalue : env.bytes? (String.ofList name) = some (Utf8.encode v)) :
      Filled env (.placeholder ⟨['e', 'n', 'v', '.'] ++ name, default⟩) v.toList
  | default {name text : List Char} (hname : '.' ∉ name)
      (hunset : ∀ v, env.bytes? (String.ofList name) ≠ some (Utf8.encode v)) :
      Filled env (.placeholder ⟨['e', 'n', 'v', '.'] ++ name, some text⟩) text

/-- A line with every segment replaced, in the order of the segments. -/
def LineFilled (env : Environment) (segments : List Segment) (out : List Char) : Prop :=
  ∃ parts, List.Forall₂ (Filled env) segments parts ∧ out = parts.flatten

/-- **A page with every segment replaced**, its lines joined by line feeds. -/
def PageFilled (env : Environment) (page : List (List Segment)) (out : List Char) : Prop :=
  ∃ lines, List.Forall₂ (LineFilled env) page lines ∧ out = ['\n'].intercalate lines

/-! ## §3. Every text has one page. -/

/-- Put a character in front of segments. -/
def glue (c : Char) : List Segment → List Segment
  | .literal text :: segments => .literal (c :: text) :: segments
  | segments => .literal [c] :: segments

/-- Pieces, with neighbouring characters put together. -/
def merge : List Piece → List Segment
  | [] => []
  | .char c :: pieces => glue c (merge pieces)
  | .placeholder p :: pieces => .placeholder p :: merge pieces

theorem glue_of_noLiteral (c : Char) {segments : List Segment} (h : NoLiteral segments) :
    glue c segments = .literal [c] :: segments := by
  unfold glue
  split
  · next text _ => exact absurd rfl (h text)
  · rfl

theorem begins_iff (cs : List Char) : Begins cs ↔ (placeholder? cs).isSome = true := by
  constructor
  · rintro ⟨p, raw, rest, hraw, rfl⟩
    rw [placeholder?_append hraw]
    rfl
  · intro h
    obtain ⟨⟨p, rest⟩, hfound⟩ := Option.isSome_iff_exists.mp h
    obtain ⟨raw, hraw, hcs⟩ := placeholder?_eq_some_iff.mp hfound
    exact ⟨p, raw, rest, hraw, hcs⟩

theorem Placeholder.Written.ne_nil {p : Placeholder} {raw : List Char} (h : p.Written raw) :
    raw ≠ [] := by
  cases h
  simp [opening]

theorem pieces_append {p : Placeholder} {raw : List Char} (h : p.Written raw) (rest : List Char) :
    pieces (raw ++ rest) = .placeholder p :: pieces rest := by
  have hfound := placeholder?_append h rest
  cases hcs : raw ++ rest with
  | nil => exact absurd (List.append_eq_nil_iff.mp hcs).1 h.ne_nil
  | cons c cs =>
      rw [hcs] at hfound
      rw [pieces]
      split
      · next hsome =>
          rw [hfound] at hsome
          cases hsome
          rfl
      · next hnone =>
          rw [hfound] at hnone
          cases hnone

theorem pieces_cons {c : Char} {rest : List Char} (h : ¬ Begins (c :: rest)) :
    pieces (c :: rest) = .char c :: pieces rest := by
  rw [begins_iff, Option.not_isSome_iff_eq_none] at h
  rw [pieces]
  split
  · next hsome =>
      rw [h] at hsome
      cases hsome
  · rfl

/-- A literal of the segments is made of characters of the pieces. -/
theorem merge_pieces_append {text rest : List Char} (hnonempty : text ≠ [])
    (hclear : ∀ more, more <:+ text → more ≠ [] → ¬ Begins (more ++ rest))
    (hlongest : NoLiteral (merge (pieces rest))) :
    merge (pieces (text ++ rest)) = .literal text :: merge (pieces rest) := by
  induction text with
  | nil => exact absurd rfl hnonempty
  | cons c text ih =>
      have hfirst : ¬ Begins (c :: (text ++ rest)) := hclear _ (List.suffix_refl _) (by simp)
      rw [List.cons_append, pieces_cons hfirst, merge]
      cases text with
      | nil => exact glue_of_noLiteral c hlongest
      | cons d text =>
          rw [ih (by simp) fun more hmore => hclear more (hmore.trans (List.suffix_cons c _))]
          rfl

/-- **Segments are the pieces put together.** -/
theorem Segmented.eq_merge {line : List Char} {segments : List Segment}
    (h : Segmented line segments) : segments = merge (pieces line) := by
  induction h with
  | nil => rw [pieces, merge]
  | placeholder hraw hrest ih => rw [pieces_append hraw, merge, ih]
  | literal hnonempty hclear hlongest hrest ih =>
      rw [ih] at hlongest
      rw [merge_pieces_append hnonempty hclear hlongest, ih]

/-- A character at which no placeholder begins goes in front of segments. -/
theorem Segmented.glue {c : Char} {rest : List Char} {segments : List Segment}
    (hclear : ¬ Begins (c :: rest)) (h : Segmented rest segments) :
    Segmented (c :: rest) (glue c segments) := by
  have halone : ∀ more, more <:+ [c] → more ≠ [] → ¬ Begins (more ++ rest) := by
    intro more hmore hne
    rcases List.suffix_cons_iff.mp hmore with rfl | hnil
    · exact hclear
    · exact absurd (List.suffix_nil.mp hnil) hne
  cases h with
  | nil =>
      show Segmented ([c] ++ []) [.literal [c]]
      exact .literal (by simp) halone (by simp [NoLiteral]) .nil
  | @placeholder p raw rest segments hraw hrest =>
      show Segmented ([c] ++ (raw ++ rest)) (.literal [c] :: .placeholder p :: segments)
      exact .literal (by simp) halone (by simp [NoLiteral]) (.placeholder hraw hrest)
  | @literal text rest segments hnonempty hwithin hlongest hrest =>
      -- The literal grows by one character.
      show Segmented ((c :: text) ++ rest) (.literal (c :: text) :: segments)
      refine .literal (by simp) ?_ hlongest hrest
      intro more hmore hne
      rcases List.suffix_cons_iff.mp hmore with rfl | hmore
      · exact hclear
      · exact hwithin more hmore hne

theorem segmented_merge (line : List Char) : Segmented line (merge (pieces line)) := by
  induction line using pieces.induct with
  | case1 =>
      rw [pieces]
      exact .nil
  | case2 c rest p rest' hfound ih =>
      obtain ⟨raw, hraw, hcs⟩ := placeholder?_eq_some_iff.mp hfound
      rw [hcs, pieces_append hraw]
      exact .placeholder hraw ih
  | case3 c rest hnone ih =>
      have hclear : ¬ Begins (c :: rest) := by
        rw [begins_iff, hnone]
        decide
      rw [pieces_cons hclear]
      exact ih.glue hclear

/-- **A line has one list of segments.** -/
theorem segmented_iff {line : List Char} {segments : List Segment} :
    Segmented line segments ↔ segments = merge (pieces line) :=
  ⟨Segmented.eq_merge, fun h => h ▸ segmented_merge line⟩

theorem isComment_iff (line : List Char) : isComment line = true ↔ IsCommentLine line := by
  unfold isComment
  rw [beq_iff_eq]
  constructor
  · intro h
    obtain ⟨blanks, hblanks, hline⟩ := exists_blanks_append_skip line
    obtain ⟨more, hmore⟩ := List.head?_eq_some_iff.mp h
    exact ⟨blanks, more, hblanks, hmore ▸ hline⟩
  · rintro ⟨blanks, more, hblanks, rfl⟩
    rw [skip_append hblanks, skip_of_stops (stops_cons rfl)]
    rfl

theorem merge_map_char {text : List Char} (h : text ≠ []) :
    merge (text.map .char) = [.literal text] := by
  induction text with
  | nil => exact absurd rfl h
  | cons c text ih =>
      rw [List.map_cons, merge]
      cases text with
      | nil => rfl
      | cons d text =>
          rw [ih (by simp)]
          rfl

theorem lineSegmented_iff {line : List Char} {segments : List Segment} :
    LineSegmented line segments ↔ segments = merge (linePieces line) := by
  unfold linePieces
  by_cases h : IsCommentLine line
  · have hnonempty : line ≠ [] := by
      obtain ⟨blanks, more, -, rfl⟩ := h
      simp
    rw [if_pos ((isComment_iff line).mpr h), merge_map_char hnonempty]
    constructor
    · intro hline
      cases hline with
      | comment _ => rfl
      | line hno _ => exact absurd h hno
    · rintro rfl
      exact .comment h
  · rw [if_neg (by rwa [isComment_iff]), ← segmented_iff]
    constructor
    · intro hline
      cases hline with
      | comment hyes => exact absurd hyes h
      | line _ hline => exact hline
    · exact .line h

/-! ### Lines. -/

theorem lines_ne_nil (text : List Char) : lines text ≠ [] := by
  cases text with
  | nil => simp [lines]
  | cons c rest =>
      rw [lines]
      split
      · simp
      · split <;> simp

/-- A line feed begins another line. -/
theorem lines_append_cons {line : List Char} (h : '\n' ∉ line) (rest : List Char) :
    lines (line ++ '\n' :: rest) = line :: lines rest := by
  induction line with
  | nil =>
      rw [List.nil_append, lines]
      split
      · next hnil => exact absurd hnil (lines_ne_nil rest)
      · next hlines => rw [if_pos rfl, hlines]
  | cons c line ih =>
      obtain ⟨hc, hline⟩ : '\n' ≠ c ∧ '\n' ∉ line := by simpa using h
      rw [List.cons_append, lines, ih hline]
      exact if_neg (Ne.symm hc)

theorem lines_of_not_mem {line : List Char} (h : '\n' ∉ line) : lines line = [line] := by
  induction line with
  | nil => rfl
  | cons c line ih =>
      obtain ⟨hc, hline⟩ : '\n' ≠ c ∧ '\n' ∉ line := by simpa using h
      rw [lines, ih hline]
      exact if_neg (Ne.symm hc)

theorem unlines_eq_intercalate (ls : List (List Char)) : unlines ls = ['\n'].intercalate ls := by
  induction ls with
  | nil => rfl
  | cons line more ih =>
      cases more with
      | nil => simp [unlines]
      | cons next more =>
          rw [unlines, ih, List.intercalate_cons_cons]
          · simp
          · simp

theorem isLines_lines (text : List Char) : IsLines text (lines text) := by
  induction text with
  | nil => exact ⟨by simp [lines], by simp [lines], rfl⟩
  | cons c rest ih =>
      obtain ⟨hne, hfree, hrest⟩ := ih
      obtain ⟨line, more, hlines⟩ := List.exists_cons_of_ne_nil hne
      rw [hlines] at hfree hrest
      rw [lines, hlines]
      by_cases hc : c = '\n'
      · -- A line feed leaves the rest as it is, behind a line that is empty.
        subst hc
        refine ⟨by simp, ?_, ?_⟩
        · simpa using hfree
        · simp only [if_true]
          rw [List.intercalate_cons_cons, ← hrest]
          rfl
      · simp only [if_neg hc]
        obtain ⟨hline, hmore⟩ := List.forall_mem_cons.mp hfree
        refine ⟨by simp, ?_, ?_⟩
        · refine List.forall_mem_cons.mpr ⟨?_, hmore⟩
          simpa using ⟨Ne.symm hc, hline⟩
        · rw [hrest]
          cases more with
          | nil => simp
          | cons next more => simp [List.intercalate_cons_cons]

/-- **A text has one list of lines.** -/
theorem isLines_iff {text : List Char} {ls : List (List Char)} :
    IsLines text ls ↔ ls = lines text := by
  constructor
  · rintro ⟨hne, hfree, rfl⟩
    induction ls with
    | nil => exact absurd rfl hne
    | cons line more ih =>
        have hline := hfree line List.mem_cons_self
        cases more with
        | nil => rw [List.intercalate_singleton, lines_of_not_mem hline]
        | cons next more =>
            rw [List.intercalate_cons_cons, List.append_assoc, List.singleton_append,
              lines_append_cons hline,
              ← ih (by simp) fun l hl => hfree l (List.mem_cons_of_mem line hl)]
  · rintro rfl
    exact isLines_lines text

theorem forall₂_lineSegmented_iff {ls : List (List Char)} {page : List (List Segment)} :
    List.Forall₂ LineSegmented ls page ↔ page = ls.map fun line => merge (linePieces line) := by
  induction ls generalizing page with
  | nil => simp
  | cons line ls ih =>
      cases page with
      | nil => simp
      | cons segments page => simp [ih, lineSegmented_iff]

/-- **A text has one page.** -/
theorem isPage_iff {text : String} {page : List (List Segment)} :
    IsPage text page ↔ page = (lines text.toList).map fun line => merge (linePieces line) := by
  unfold IsPage
  simp only [isLines_iff, forall₂_lineSegmented_iff, exists_eq_left]

/-! ## §4. Expansion fills the page in. -/

section Filling

variable {env : Environment}

/-- What a segment is cut into. -/
def Segment.pieces : Segment → List Piece
  | .literal text => text.map .char
  | .placeholder p => [.placeholder p]

theorem flatMap_glue (c : Char) (segments : List Segment) :
    (glue c segments).flatMap Segment.pieces = .char c :: segments.flatMap Segment.pieces := by
  unfold glue
  split <;> rfl

theorem flatMap_merge (ps : List Piece) : (merge ps).flatMap Segment.pieces = ps := by
  induction ps with
  | nil => rfl
  | cons piece ps ih =>
      cases piece with
      | char c => rw [merge, flatMap_glue, ih]
      | placeholder p =>
          rw [merge, List.flatMap_cons, ih]
          rfl

theorem variableName?_eq_some_iff {key name : List Char} :
    variableName? key = some name ↔ key = ['e', 'n', 'v', '.'] ++ name ∧ '.' ∉ name := by
  unfold variableName?
  rw [Option.filter_eq_some_iff, after?_eq_some_iff]
  simp

/-- **A placeholder is resolved to what it is to be replaced by**, and to nothing else. -/
theorem resolve_eq_ok_iff {p : Placeholder} {out : List Char} :
    p.resolve env = .ok out ↔ Filled env (.placeholder p) out := by
  obtain ⟨key, default⟩ := p
  unfold Placeholder.resolve
  constructor
  · intro h
    cases hname : variableName? key with
    | none =>
        simp only [hname] at h
        cases h
    | some name =>
        obtain ⟨rfl, hdot⟩ := variableName?_eq_some_iff.mp hname
        simp only [hname] at h
        cases htext : env.text? (String.ofList name) with
        | some v =>
            simp only [htext] at h
            cases h
            exact .value hdot (Environment.text?_eq_some_iff.mp htext)
        | none =>
            cases default with
            | none =>
                simp only [htext] at h
                cases h
            | some text =>
                simp only [htext] at h
                cases h
                refine .default hdot fun v hv => ?_
                rw [Environment.text?_eq_some_iff.mpr hv] at htext
                cases htext
  · intro h
    cases h with
    | value hdot hvalue =>
        simp only [variableName?_eq_some_iff.mpr ⟨rfl, hdot⟩,
          Environment.text?_eq_some_iff.mpr hvalue]
    | @default name text hdot hunset =>
        have hnone : env.text? (String.ofList name) = none := by
          refine Option.eq_none_iff_forall_ne_some.mpr fun v hv => ?_
          exact hunset v (Environment.text?_eq_some_iff.mp hv)
        simp only [variableName?_eq_some_iff.mpr ⟨rfl, hdot⟩, hnone]

theorem bind_eq_ok_iff {ε α β : Type} {x : Except ε α} {f : α → Except ε β} {b : β} :
    (x >>= f) = .ok b ↔ ∃ a, x = .ok a ∧ f a = .ok b := by
  cases x with
  | error e =>
      constructor
      · intro h
        cases h
      · rintro ⟨a, h, -⟩
        cases h
  | ok a => simp [bind, Except.bind]

theorem expandPieces_append_iff {ps qs : List Piece} {out : List Char} :
    expandPieces env (ps ++ qs) = .ok out
      ↔ ∃ front back, expandPieces env ps = .ok front ∧ expandPieces env qs = .ok back
        ∧ out = front ++ back := by
  induction ps generalizing out with
  | nil =>
      simp only [List.nil_append, expandPieces, Except.ok.injEq]
      constructor
      · intro h
        exact ⟨[], out, rfl, h, rfl⟩
      · rintro ⟨_, back, rfl, h, rfl⟩
        exact h
  | cons piece ps ih =>
      simp only [List.cons_append, expandPieces, bind_eq_ok_iff, ih, pure, Except.pure,
        Except.ok.injEq]
      constructor
      · rintro ⟨cs, hpiece, _, ⟨front, back, hfront, hback, rfl⟩, rfl⟩
        exact ⟨cs ++ front, back, ⟨cs, hpiece, front, hfront, rfl⟩, hback, by simp⟩
      · rintro ⟨_, back, ⟨cs, hpiece, front, hfront, rfl⟩, hback, rfl⟩
        exact ⟨cs, hpiece, front ++ back, ⟨front, back, hfront, hback, rfl⟩, by simp⟩

theorem expandPieces_chars (text : List Char) : expandPieces env (text.map .char) = .ok text := by
  induction text with
  | nil => rfl
  | cons c text ih =>
      rw [List.map_cons, expandPieces, ih]
      rfl

/-- The pieces of a segment become what the segment is to be replaced by. -/
theorem expandPieces_segment_iff {segment : Segment} {out : List Char} :
    expandPieces env segment.pieces = .ok out ↔ Filled env segment out := by
  cases segment with
  | literal text =>
      show expandPieces env (text.map .char) = .ok out ↔ _
      rw [expandPieces_chars]
      constructor
      · intro h
        rw [← Except.ok.inj h]
        exact .literal text
      · intro h
        cases h
        rfl
  | placeholder p =>
      rw [← resolve_eq_ok_iff]
      show expandPieces env [.placeholder p] = .ok out ↔ _
      simp only [expandPieces, bind_eq_ok_iff, Piece.resolve, pure, Except.pure, Except.ok.injEq]
      simp

/-- **A line is filled in from left to right.** -/
theorem expandPieces_eq_ok_iff {segments : List Segment} {out : List Char} :
    expandPieces env (segments.flatMap Segment.pieces) = .ok out
      ↔ LineFilled env segments out := by
  unfold LineFilled
  induction segments generalizing out with
  | nil => simp [expandPieces, eq_comm]
  | cons segment segments ih =>
      simp only [List.flatMap_cons, expandPieces_append_iff, expandPieces_segment_iff, ih,
        List.forall₂_cons_left_iff]
      constructor
      · rintro ⟨part, _, hpart, ⟨parts, hparts, rfl⟩, rfl⟩
        exact ⟨part :: parts, ⟨part, parts, hpart, hparts, rfl⟩, rfl⟩
      · rintro ⟨_, ⟨part, parts, hpart, hparts, rfl⟩, rfl⟩
        exact ⟨part, parts.flatten, hpart, ⟨parts, hparts, rfl⟩, rfl⟩

theorem expandLines_eq_ok_iff {ls outs : List (List Char)} :
    expandLines env ls = .ok outs
      ↔ List.Forall₂ (LineFilled env) (ls.map fun line => merge (linePieces line)) outs := by
  induction ls generalizing outs with
  | nil => simp [expandLines, eq_comm]
  | cons line ls ih =>
      simp only [expandLines, bind_eq_ok_iff, ih, List.map_cons, List.forall₂_cons_left_iff, pure,
        Except.pure, Except.ok.injEq, ← expandPieces_eq_ok_iff, flatMap_merge]
      constructor
      · rintro ⟨out, hout, outs, houts, rfl⟩
        exact ⟨out, outs, hout, houts, rfl⟩
      · rintro ⟨out, outs, hout, houts, rfl⟩
        exact ⟨out, hout, outs, houts, rfl⟩

end Filling

/-- **Expansion is one pass whose structure the environment cannot influence.** A text has one
page, and in every environment what the text expands to is that page with every segment replaced:
literals by themselves, placeholders by what their variables hold or by their defaults. -/
theorem expand_eq_ok_iff_filled (text : String) :
    ∃ page, (∀ page', IsPage text page' ↔ page' = page)
      ∧ ∀ env out, expand env text = .ok out ↔ PageFilled env page out.toList := by
  refine ⟨_, fun page' => isPage_iff, fun env out => ?_⟩
  unfold expand PageFilled
  simp only [bind_eq_ok_iff, expandLines_eq_ok_iff, unlines_eq_intercalate, pure, Except.pure,
    Except.ok.injEq]
  constructor
  · rintro ⟨outs, houts, rfl⟩
    exact ⟨outs, houts, String.toList_ofList⟩
  · rintro ⟨outs, houts, hout⟩
    exact ⟨outs, houts, by rw [← hout, String.ofList_toList]⟩

end ErrorContract.Template
