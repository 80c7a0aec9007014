/-
  ErrorContract.Proofs.Locality
  ─────────────────────────────
  **NO READER LOOKS FURTHER THAN THE BYTE THAT IT LEAVES.**

  A run that succeeds and leaves a byte ends alike when the body goes on
  behind that byte: at the same place, with the same result.  This is a
  comparison of the run with the one over the longer body (`longer`), and so
  it goes through every reader.
-/
import ErrorContract.Proofs.Accepted
import ErrorContract.Proofs.Comparison

namespace ErrorContract.Json

open ErrorContract

/-! ## §1. Places in a longer body. -/

section Places

variable {c c' c'' : Cursor} {s : List UInt8}

/-- The same place in a body that goes on with these bytes. -/
def Cursor.goOn (c : Cursor) (s : List UInt8) : Cursor := { c with rest := c.rest ++ s }

/-- The second place is the first one, or behind it. -/
def Cursor.Reaches (c c' : Cursor) : Prop :=
  ∃ taken, c.rest = taken ++ c'.rest ∧ c'.offset = c.offset + taken.length ∧ c'.ending = c.ending

theorem Cursor.Reaches.refl (c : Cursor) : c.Reaches c := ⟨[], rfl, rfl, rfl⟩

theorem Cursor.Reaches.trans (h : c.Reaches c') (h' : c'.Reaches c'') : c.Reaches c'' := by
  obtain ⟨taken, hrest, hoffset, hending⟩ := h
  obtain ⟨taken', hrest', hoffset', hending'⟩ := h'
  refine ⟨taken ++ taken', ?_, ?_, hending'.trans hending⟩
  · rw [hrest, hrest', List.append_assoc]
  · rw [hoffset', hoffset, List.length_append, Nat.add_assoc]

theorem Cursor.Reaches.cons {b : UInt8} {bytes : List UInt8} {offset : Nat} {ending : Ending}
    (h : Cursor.Reaches ⟨bytes, offset + 1, ending⟩ c) :
    Cursor.Reaches ⟨b :: bytes, offset, ending⟩ c := by
  obtain ⟨taken, hrest, hoffset, hending⟩ := h
  refine ⟨b :: taken, congrArg (b :: ·) hrest, ?_, hending⟩
  simp only [hoffset, List.length_cons, Nat.add_assoc, Nat.add_comm 1]

/-- What is left is left from the beginning. -/
theorem Cursor.Reaches.rest_ne_nil (h : c.Reaches c') (hc' : c'.rest ≠ []) : c.rest ≠ [] := by
  obtain ⟨taken, hrest, -⟩ := h
  rw [hrest]
  exact List.append_ne_nil_of_right_ne_nil taken hc'

theorem reaches_advance (c : Cursor) : c.Reaches c.advance := by
  obtain ⟨rest, offset, ending⟩ := c
  cases rest with
  | nil => exact .refl _
  | cons b rest => exact ⟨[b], rfl, rfl, rfl⟩

theorem advance_goOn (h : c.rest ≠ []) (s : List UInt8) :
    (c.goOn s).advance = c.advance.goOn s := by
  obtain ⟨rest, offset, ending⟩ := c
  cases rest with
  | nil => exact absurd rfl h
  | cons b rest => rfl

theorem reaches_skipBlanks_go (c : Cursor) (bytes : List UInt8) (offset : Nat) :
    Cursor.Reaches ⟨bytes, offset, c.ending⟩ (Cursor.skipBlanks.go c bytes offset) := by
  induction bytes generalizing offset with
  | nil => exact .refl _
  | cons b bytes ih =>
      unfold Cursor.skipBlanks.go
      split
      · exact (ih _).cons
      · exact .refl _

theorem skipBlanks_go_goOn (bytes : List UInt8) (offset : Nat)
    (h : (Cursor.skipBlanks.go c bytes offset).rest ≠ []) :
    Cursor.skipBlanks.go (c.goOn s) (bytes ++ s) offset
      = (Cursor.skipBlanks.go c bytes offset).goOn s := by
  induction bytes generalizing offset with
  | nil => exact absurd rfl h
  | cons b bytes ih =>
      rw [List.cons_append]
      unfold Cursor.skipBlanks.go at h ⊢
      by_cases hb : isBlank b = true
      · rw [if_pos hb] at h ⊢
        rw [if_pos hb]
        exact ih _ h
      · rw [if_neg hb, if_neg hb]
        rfl

end Places

/-! ## §2. Runs that leave a byte. -/

section Carries

variable {α β : Type} {s : List UInt8} {c c' : Cursor}

/-- **A second reader ends where a first one does, when the body goes on** behind a byte that the
first one leaves. -/
def Carries (s : List UInt8) (read read' : Read α) : Prop :=
  ∀ c a c', read c = .ok a c' →
    c.Reaches c' ∧ (c'.rest ≠ [] → read' (c.goOn s) = .ok a (c'.goOn s))

theorem bind_eq_of_ok {read : Read α} {next : α → Read β} {a : α}
    {r : EStateM.Result Error Cursor β} (h : read c = .ok a c') (hnext : next a c' = r) :
    (read >>= next) c = r := by
  show EStateM.bind read next c = r
  rw [EStateM.bind, h]
  exact hnext

theorem fixing_eq_of_ok {read : Read α} {a : α} (h : read c = .ok a c') :
    fixing read c = .ok a c' := by
  unfold fixing
  rw [h]

theorem bracketed_eq_of_ok {close : Read Unit} {inside : Read α} {a : α} {c₁ : Cursor}
    (hinside : inside c.advance = .ok a c₁) (hclose : close c₁ = .ok () c') :
    bracketed close inside c = .ok a c' := by
  refine fixing_eq_of_ok ?_
  rw [hinside]
  simp only [hclose]

theorem Carries.bind {read read' : Read α} {next next' : α → Read β} (h : Carries s read read')
    (hnext : ∀ a, Carries s (next a) (next' a)) : Carries s (read >>= next) (read' >>= next') := by
  intro c b c' hrun
  obtain ⟨a, c₁, hread, hrest⟩ := exists_of_bind_ok hrun
  obtain ⟨hreach, hlong⟩ := h _ _ _ hread
  obtain ⟨hreach', hlong'⟩ := hnext a _ _ _ hrest
  exact ⟨hreach.trans hreach', fun hc' =>
    bind_eq_of_ok (hlong (hreach'.rest_ne_nil hc')) (hlong' hc')⟩

theorem Carries.fixing {read read' : Read α} (h : Carries s read read') :
    Carries s (fixing read) (fixing read') := by
  intro c a c' hrun
  obtain ⟨hreach, hlong⟩ := h _ _ _ (ok_of_fixing_ok hrun)
  exact ⟨hreach, fun hc' => fixing_eq_of_ok (hlong hc')⟩

theorem Carries.step {read read' : Read α} (h : Carries s read read') (ctx ctx' : Context)
    (segment : Option PathSegment) :
    Carries s (ctx.step segment read) (ctx'.step segment read') := by
  intro c a c' hrun
  obtain ⟨hreach, hlong⟩ := h _ _ _ (step_ok hrun)
  refine ⟨hreach, fun hc' => ?_⟩
  unfold Context.step
  rw [hlong hc']

theorem Carries.bracketed {close close' : Read Unit} {inside inside' : Read α}
    (hclose : Carries s close close') (h : Carries s inside inside') :
    Carries s (bracketed close inside) (bracketed close' inside') := by
  intro c a c' hrun
  obtain ⟨c₁, hinside, hend⟩ := bracketed_ok hrun
  obtain ⟨hreach, hlong⟩ := h _ _ _ hinside
  obtain ⟨hreach', hlong'⟩ := hclose _ _ _ hend
  have hreached : c.Reaches c₁ := (reaches_advance c).trans hreach
  refine ⟨hreached.trans hreach', fun hc' => ?_⟩
  have hc₁ : c₁.rest ≠ [] := hreach'.rest_ne_nil hc'
  refine bracketed_eq_of_ok ?_ (hlong' hc')
  rw [advance_goOn (hreached.rest_ne_nil hc₁)]
  exact hlong hc₁

theorem carries_of_ne_ok {read read' : Read α} (h : ∀ c a c', read c ≠ .ok a c') :
    Carries s read read' := fun c a c' hrun => absurd hrun (h c a c')

/-- A byte that was seen is still there. -/
theorem peek_goOn {b : UInt8} (h : peek c = .ok (some b) c') :
    c' = c ∧ peek (c.goOn s) = .ok (some b) (c'.goOn s) := by
  obtain ⟨rfl, hhead⟩ := peek_ok h
  obtain ⟨rest, hrest⟩ := rest_of_head? hhead.symm
  refine ⟨rfl, ?_⟩
  unfold peek Cursor.goOn
  rw [hrest]
  rfl

theorem carries_peek : Carries s peek peek := by
  intro c o c' h
  obtain ⟨rfl, ho⟩ := peek_ok h
  refine ⟨.refl _, fun hc' => ?_⟩
  obtain ⟨b, rest, hrest⟩ := List.exists_cons_of_ne_nil hc'
  rw [hrest] at ho
  subst ho
  exact (peek_goOn h).2

theorem carries_advance : Carries s advance advance := by
  intro c u c' h
  cases h
  refine ⟨reaches_advance c, fun hc' => ?_⟩
  show EStateM.Result.ok () (c.goOn s).advance = _
  rw [advance_goOn ((reaches_advance c).rest_ne_nil hc')]

theorem look_goOn (hc : c.skipBlanks.rest ≠ []) :
    look (c.goOn s) = peek (c.skipBlanks.goOn s) := by
  have hskip : (c.goOn s).skipBlanks = c.skipBlanks.goOn s :=
    skipBlanks_go_goOn c.rest c.offset hc
  show peek (c.goOn s).skipBlanks = _
  rw [hskip]

theorem carries_look : Carries s look look := by
  intro c o c' h
  change peek c.skipBlanks = _ at h
  obtain ⟨hreach, hlong⟩ := carries_peek (s := s) _ _ _ h
  have hskip : c.Reaches c.skipBlanks := reaches_skipBlanks_go c c.rest c.offset
  refine ⟨hskip.trans hreach, fun hc' => ?_⟩
  rw [look_goOn (hreach.rest_ne_nil hc')]
  exact hlong hc'

/-- Digits that end within a body end there. -/
theorem span_isDigit_append {bytes : List UInt8} (h : bytes.dropWhile isDigit ≠ [])
    (s : List UInt8) :
    (bytes ++ s).span isDigit = (bytes.takeWhile isDigit, bytes.dropWhile isDigit ++ s) := by
  have hshorter : (bytes.takeWhile isDigit).length ≠ bytes.length := by
    intro hall
    have hboth := congrArg List.length
      (List.takeWhile_append_dropWhile (p := isDigit) (l := bytes))
    rw [List.length_append, hall] at hboth
    exact h (List.eq_nil_of_length_eq_zero (Nat.add_eq_left.mp hboth))
  have hempty : ¬ (bytes.dropWhile isDigit).isEmpty = true := by
    rw [List.isEmpty_iff]
    exact h
  rw [List.span_eq_takeWhile_dropWhile, List.takeWhile_append, if_neg hshorter,
    List.dropWhile_append, if_neg hempty]

theorem carries_digitRun : Carries s digitRun digitRun := by
  intro c ds c' h
  unfold digitRun at h
  rw [List.span_eq_takeWhile_dropWhile] at h
  obtain ⟨rfl, rfl⟩ := EStateM.Result.ok.inj h
  refine ⟨⟨_, List.takeWhile_append_dropWhile.symm, rfl, rfl⟩, fun hc' => ?_⟩
  have hspan : (c.goOn s).rest.span isDigit
      = (c.rest.takeWhile isDigit, c.rest.dropWhile isDigit ++ s) := span_isDigit_append hc' s
  unfold digitRun
  rw [hspan]
  rfl

section Scans

variable {offset start place : Nat} {run bytes rest : List UInt8} {pieces ps : List Piece}
  {ending : Ending}

theorem reaches_scan {mode : Mode}
    (h : scan offset start run pieces mode bytes = .closed ps rest place) :
    Cursor.Reaches ⟨bytes, offset, ending⟩ ⟨rest, place, ending⟩ := by
  fun_induction scan offset start run pieces mode bytes with
  | _ => grind [Cursor.Reaches.cons, Cursor.Reaches.refl]

/-- A string is scanned up to its closing quote, whatever follows that. -/
theorem scan_append {mode : Mode}
    (h : scan offset start run pieces mode bytes = .closed ps rest place) :
    scan offset start run pieces mode (bytes ++ s) = .closed ps (rest ++ s) place := by
  fun_induction scan offset start run pieces mode bytes with
  | _ => grind [scan]

theorem reaches_skipScan {mode : SkipMode}
    (h : skipScan offset mode bytes = .closed ps rest place) :
    Cursor.Reaches ⟨bytes, offset, ending⟩ ⟨rest, place, ending⟩ := by
  fun_induction skipScan offset mode bytes with
  | _ => grind [Cursor.Reaches.cons, Cursor.Reaches.refl]

theorem skipScan_append {mode : SkipMode}
    (h : skipScan offset mode bytes = .closed ps rest place) :
    skipScan offset mode (bytes ++ s) = .closed ps (rest ++ s) place := by
  fun_induction skipScan offset mode bytes with
  | _ => grind [skipScan]

end Scans

/-- A string ends by itself. -/
theorem string_goOn {a : String} (h : string c = .ok a c') :
    c.Reaches c' ∧ string (c.goOn s) = .ok a (c'.goOn s) := by
  obtain ⟨bytes, offset, ending⟩ := c
  unfold string at h
  dsimp only at h
  cases hscan : scan offset offset [] [] .plain bytes with
  | closed pieces rest place =>
      rw [hscan] at h
      cases hdecode : decodePieces pieces with
      | error e =>
          simp only [hdecode] at h
          cases h
      | ok cs =>
          simp only [hdecode] at h
          cases h
          refine ⟨reaches_scan hscan, ?_⟩
          unfold string Cursor.goOn
          simp only [scan_append hscan, hdecode]
  | fault f place =>
      rw [hscan] at h
      cases h
  | ended place =>
      rw [hscan] at h
      cases ending <;> cases h

theorem carries_skipString : Carries s skipString skipString := by
  intro c u c' h
  obtain ⟨bytes, offset, ending⟩ := c
  unfold skipString at h
  dsimp only at h
  cases hscan : skipScan offset .plain bytes with
  | closed pieces rest place =>
      rw [hscan] at h
      cases h
      refine ⟨reaches_skipScan hscan, fun _ => ?_⟩
      unfold skipString Cursor.goOn
      simp only [skipScan_append hscan]
  | fault f place =>
      rw [hscan] at h
      cases h
  | ended place =>
      rw [hscan] at h
      cases ending <;> cases h

/-- **The comparison with a run over a longer body**, whose loops may go round more often. -/
def longer (s : List UInt8) {bound bound' : Nat} (h : bound ≤ bound') : Comparison where
  first := ⟨bound, true⟩
  second := ⟨bound', true⟩
  Holds := Carries s
  pure a := fun c b c' hrun => by
    obtain ⟨rfl, rfl⟩ := eq_of_pure_ok hrun
    exact ⟨.refl c, fun _ => rfl⟩
  bind := Carries.bind
  fixing := Carries.fixing
  step segment hread := hread.step _ _ segment
  bracketed := Carries.bracketed
  failing place hfault := carries_of_ne_ok fun c a c' hrun => by cases hrun
  peek := carries_peek
  advance := carries_advance
  look := carries_look
  digitRun := carries_digitRun
  string := fun _ _ _ hrun => ⟨(string_goOn (s := s) hrun).1, fun _ => (string_goOn hrun).2⟩
  skipString := carries_skipString
  rounds := .inr ⟨h, fun fault read => carries_of_ne_ok fun c a c' hrun => by cases hrun⟩

end Carries

end ErrorContract.Json
