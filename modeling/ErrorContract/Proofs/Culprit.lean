/-
  ErrorContract.Proofs.Culprit
  ────────────────────────────
  **EXPANSION FAILS AT THE FIRST PLACEHOLDER THAT CANNOT BE REPLACED.**

  `Unresolvable env p fault` says why a placeholder has nothing to be
  replaced by: its key is not one of the environment, whatever default
  stands beside it, or its variable is not set to a text and there is no
  default.  The culprit of a page is the first such placeholder in the order
  in which the text is read, line by line and from left to right.

  Main statement `expand_eq_error_iff_culprit`: an expansion fails exactly
  when some line that is no comment holds such a placeholder, and what it
  reports is the culprit's own fault.
-/
import ErrorContract.Proofs.Expansion

namespace ErrorContract.Template

open ErrorContract

/-! ## §1. Culprits. -/

/-- **Why a placeholder has nothing to be replaced by.** -/
inductive Unresolvable (env : Environment) : Placeholder → Fault → Prop where
  /-- The key is not `env.` and a name without a point, whatever the default and the variables. -/
  | foreign {key : List Char} {default : Option (List Char)}
      (hkey : ∀ name, key = ['e', 'n', 'v', '.'] ++ name → '.' ∈ name) :
      Unresolvable env ⟨key, default⟩ (.foreignKey (String.ofList key))
  /-- The variable is not set, or not to a text, and there is no default. -/
  | unset {name : List Char} (hname : '.' ∉ name)
      (hunset : ∀ v, env.bytes? (String.ofList name) ≠ some (Utf8.encode v)) :
      Unresolvable env ⟨['e', 'n', 'v', '.'] ++ name, none⟩ (.unset (String.ofList name))

/-- A placeholder on one of the lines of a text that are no comments. -/
def Holds (text : String) (p : Placeholder) : Prop :=
  ∃ lines line segments, IsLines text.toList lines ∧ line ∈ lines ∧ ¬ IsCommentLine line
    ∧ Segmented line segments ∧ .placeholder p ∈ segments

/-- **The first placeholder of a page that has nothing to be replaced by**, and why. -/
def IsCulprit (env : Environment) (page : List (List Segment)) (p : Placeholder) (fault : Fault) :
    Prop :=
  Unresolvable env p fault ∧ ∃ before after, page.flatten = before ++ .placeholder p :: after
    ∧ ∀ q, .placeholder q ∈ before → ∀ fault', ¬ Unresolvable env q fault'

/-! ## §2. One placeholder. -/

section Faults

variable {env : Environment}

/-- **A placeholder fails for the reason it has nothing to be replaced by**, and for no other. -/
theorem resolve_eq_error_iff {p : Placeholder} {fault : Fault} :
    p.resolve env = .error fault ↔ Unresolvable env p fault := by
  obtain ⟨key, default⟩ := p
  unfold Placeholder.resolve
  constructor
  · intro h
    cases hname : variableName? key with
    | none =>
        simp only [hname] at h
        cases h
        refine .foreign fun name hkey => ?_
        by_contra hdot
        rw [variableName?_eq_some_iff.mpr ⟨hkey, hdot⟩] at hname
        cases hname
    | some name =>
        obtain ⟨rfl, hdot⟩ := variableName?_eq_some_iff.mp hname
        simp only [hname] at h
        cases htext : env.text? (String.ofList name) with
        | some v =>
            simp only [htext] at h
            cases h
        | none =>
            cases default with
            | some text =>
                simp only [htext] at h
                cases h
            | none =>
                simp only [htext] at h
                cases h
                refine .unset hdot fun v hv => ?_
                rw [Environment.text?_eq_some_iff.mpr hv] at htext
                cases htext
  · intro h
    cases h with
    | foreign hkey =>
        have hnone : variableName? key = none := by
          refine Option.eq_none_iff_forall_ne_some.mpr fun name hname => ?_
          obtain ⟨hbegins, hdot⟩ := variableName?_eq_some_iff.mp hname
          exact hdot (hkey name hbegins)
        simp only [hnone]
    | @unset name hdot hunset =>
        have hnone : env.text? (String.ofList name) = none := by
          refine Option.eq_none_iff_forall_ne_some.mpr fun v hv => ?_
          exact hunset v (Environment.text?_eq_some_iff.mp hv)
        simp only [variableName?_eq_some_iff.mpr ⟨rfl, hdot⟩, hnone]

/-- The fault of a piece that cannot be replaced. -/
def Piece.fault? (env : Environment) (piece : Piece) : Option Fault :=
  match piece.resolve env with
  | .ok _ => none
  | .error fault => some fault

/-- The fault of a segment that cannot be replaced. -/
def Segment.fault? (env : Environment) : Segment → Option Fault
  | .literal _ => none
  | .placeholder p => (Piece.placeholder p).fault? env

theorem fault?_eq_some_iff {p : Placeholder} {fault : Fault} :
    Segment.fault? env (.placeholder p) = some fault ↔ Unresolvable env p fault := by
  rw [← resolve_eq_error_iff, Segment.fault?, Piece.fault?]
  show (match p.resolve env with
    | .ok _ => none
    | .error fault => some fault) = some fault ↔ _
  cases p.resolve env <;> simp

/-! ## §3. The first fault of a text. -/

/-- Pieces fail with the fault of the first of them that has one. -/
theorem expandPieces_eq_error_iff {ps : List Piece} {fault : Fault} :
    expandPieces env ps = .error fault ↔ ps.findSome? (Piece.fault? env) = some fault := by
  induction ps with
  | nil => simp [expandPieces]
  | cons piece ps ih =>
      rw [List.findSome?_cons, Piece.fault?, expandPieces]
      cases hpiece : piece.resolve env with
      | error fault' => simp [bind, Except.bind]
      | ok cs =>
          -- This piece has no fault, so it is that of the others, if they have one.
          rw [← ih]
          cases hrest : expandPieces env ps <;> simp [bind, Except.bind, pure, Except.pure]

/-- Lines fail with the fault of the first piece that has one, on whichever line. -/
theorem expandLines_eq_error_iff {ls : List (List Char)} {fault : Fault} :
    expandLines env ls = .error fault
      ↔ (ls.flatMap linePieces).findSome? (Piece.fault? env) = some fault := by
  induction ls with
  | nil => simp [expandLines]
  | cons line ls ih =>
      have hline : ∀ fault, expandPieces env (linePieces line) = .error fault
          ↔ (linePieces line).findSome? (Piece.fault? env) = some fault :=
        fun _ => expandPieces_eq_error_iff
      rw [List.flatMap_cons, List.findSome?_append, expandLines]
      cases hpieces : expandPieces env (linePieces line) with
      | error fault' =>
          rw [(hline fault').mp hpieces]
          simp [bind, Except.bind]
      | ok out =>
          have hnone : (linePieces line).findSome? (Piece.fault? env) = none := by
            refine Option.eq_none_iff_forall_ne_some.mpr fun fault' h => ?_
            rw [(hline fault').mpr h] at hpieces
            cases hpieces
          rw [hnone, Option.none_or, ← ih]
          cases hrest : expandLines env ls <;> simp [bind, Except.bind, pure, Except.pure]

/-- Characters that stand for themselves have no fault, so segments have those of their pieces. -/
theorem findSome?_pieces (segments : List Segment) :
    (segments.flatMap Segment.pieces).findSome? (Piece.fault? env)
      = segments.findSome? (Segment.fault? env) := by
  induction segments with
  | nil => rfl
  | cons segment segments ih =>
      rw [List.flatMap_cons, List.findSome?_append, List.findSome?_cons, ih]
      cases segment with
      | literal text =>
          have hnone : (text.map Piece.char).findSome? (Piece.fault? env) = none := by
            simp [List.findSome?_eq_none_iff, Piece.fault?, Piece.resolve]
          rw [Segment.pieces, hnone, Option.none_or, Segment.fault?]
      | placeholder p =>
          rw [Segment.pieces, List.findSome?_singleton, Segment.fault?]
          cases Piece.fault? env (.placeholder p) <;> rfl

/-- The segments of all lines, one after the other, are made of their pieces. -/
theorem flatMap_pieces_flatten (ls : List (List Char)) :
    (ls.map fun line => merge (linePieces line)).flatten.flatMap Segment.pieces
      = ls.flatMap linePieces := by
  induction ls with
  | nil => rfl
  | cons line ls ih =>
      rw [List.map_cons, List.flatten_cons, List.flatMap_append, flatMap_merge, ih,
        List.flatMap_cons]

/-- An expansion fails with the fault of the first segment of the page that has one. -/
theorem expand_eq_error_iff {text : String} {fault : Fault} :
    expand env text = .error fault
      ↔ ((lines text.toList).map fun line => merge (linePieces line)).flatten.findSome?
          (Segment.fault? env) = some fault := by
  rw [← findSome?_pieces, flatMap_pieces_flatten, ← expandLines_eq_error_iff]
  unfold expand
  cases expandLines env (lines text.toList) <;> simp [bind, Except.bind, pure, Except.pure]

/-- **The first segment that has a fault is the culprit.** -/
theorem findSome?_fault?_iff {page : List (List Segment)} {fault : Fault} :
    page.flatten.findSome? (Segment.fault? env) = some fault ↔ ∃ p, IsCulprit env page p fault := by
  rw [List.findSome?_eq_some_iff]
  constructor
  · rintro ⟨before, segment, after, hsplit, hfault, hbefore⟩
    cases segment with
    | literal text => cases hfault
    | placeholder p =>
        refine ⟨p, fault?_eq_some_iff.mp hfault, before, after, hsplit, fun q hq fault' hq' => ?_⟩
        have hnone := hbefore _ hq
        rw [fault?_eq_some_iff.mpr hq'] at hnone
        cases hnone
  · rintro ⟨p, hp, before, after, hsplit, hbefore⟩
    refine ⟨before, .placeholder p, after, hsplit, fault?_eq_some_iff.mpr hp, fun s hs => ?_⟩
    cases s with
    | literal text => rfl
    | placeholder q =>
        refine Option.eq_none_iff_forall_ne_some.mpr fun fault' hq => ?_
        exact hbefore q hs fault' (fault?_eq_some_iff.mp hq)

end Faults

/-! ## §4. Comments hold no placeholders. -/

/-- **The placeholders of a page are those of the lines that are no comments.** -/
theorem mem_flatten_page_iff {text : String} {p : Placeholder} :
    .placeholder p ∈ ((lines text.toList).map fun line => merge (linePieces line)).flatten
      ↔ Holds text p := by
  rw [List.mem_flatten]
  constructor
  · rintro ⟨segments, hsegments, hp⟩
    obtain ⟨line, hline, hmerge⟩ := List.mem_map.mp hsegments
    cases lineSegmented_iff.mpr hmerge.symm with
    -- A comment is a literal and nothing else.
    | comment h => simp at hp
    | line hno hsegmented =>
        exact ⟨_, line, segments, isLines_lines text.toList, hline, hno, hsegmented, hp⟩
  · rintro ⟨ls, line, segments, hlines, hline, hno, hsegmented, hp⟩
    rw [isLines_iff.mp hlines] at hline
    refine ⟨segments, ?_, hp⟩
    rw [lineSegmented_iff.mp (.line hno hsegmented)]
    exact List.mem_map_of_mem hline

/-- **Expansion fails exactly when it must, and reports the first culprit.** A text has one page;
in every environment its expansion fails if and only if a line that is no comment holds a
placeholder with nothing to be replaced by, and the fault is that of the first such placeholder,
over the lines and within a line. -/
theorem expand_eq_error_iff_culprit (text : String) :
    ∃ page, (∀ page', IsPage text page' ↔ page' = page)
      ∧ ∀ env,
        ((∃ fault, expand env text = .error fault)
          ↔ ∃ p, Holds text p ∧ ∃ fault, Unresolvable env p fault)
        ∧ ∀ fault, expand env text = .error fault ↔ ∃ p, IsCulprit env page p fault := by
  refine ⟨_, fun page' => isPage_iff, fun env => ⟨?_, fun fault => ?_⟩⟩
  · simp only [expand_eq_error_iff, ← mem_flatten_page_iff, ← fault?_eq_some_iff]
    rw [← Option.isSome_iff_exists, List.findSome?_isSome_iff]
    constructor
    · rintro ⟨segment, hmem, hfault⟩
      cases segment with
      | literal text => cases hfault
      | placeholder p => exact ⟨p, hmem, Option.isSome_iff_exists.mp hfault⟩
    · rintro ⟨p, hmem, hfault⟩
      exact ⟨.placeholder p, hmem, Option.isSome_iff_exists.mpr hfault⟩
  · rw [expand_eq_error_iff, findSome?_fault?_iff]

end ErrorContract.Template
