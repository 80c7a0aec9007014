/-
  ErrorContract.Proofs.Skipped
  ────────────────────────────
  **WHAT WAS SKIPPED IS A VALUE.**

  Values without brackets come first, whether they are read or skipped.  The
  machine that skips keeps the open brackets on a list: what it takes from
  any of its stages on ends all of them, and that is an induction on its
  steps.
-/
import ErrorContract.Json.Reader
import ErrorContract.Proofs.Skipping
import ErrorContract.Proofs.AcceptedTokens

namespace ErrorContract.Json

open ErrorContract

/-! ## §1. Values without brackets. -/

/-- Blanks and a value have been taken. -/
def TakesTree (c c' : Cursor) : Prop :=
  ∃ (w : Blanks) (t : Tree), c.rest = w.bytes ++ (t.bytes ++ c'.rest)

/-- Whenever the reader succeeds, it has taken a value. -/
def TakesValue (read : Read α) : Prop := ∀ c a c', read c = .ok a c' → TakesTree c c'

section Leaves

variable {α : Type} {c c₁ c' : Cursor} {b : UInt8} {w : Blanks}

namespace TakesTree

theorem of_blanks (hc : c.rest = w.bytes ++ c₁.rest) (h : TakesTree c₁ c') : TakesTree c c' := by
  obtain ⟨v, t, ht⟩ := h
  exact ⟨w.append v, t, by rw [hc, ht]; simp [Blanks.append]⟩

theorem null {u : Unit} (hc : c.rest = w.bytes ++ 0x6e :: c₁.rest)
    (h : literal nullTail c₁ = .ok u c') : TakesTree c c' :=
  ⟨w, .null, by rw [hc, literal_ok h]; rfl⟩

theorem yes {u : Unit} (hc : c.rest = w.bytes ++ 0x74 :: c₁.rest)
    (h : literal trueTail c₁ = .ok u c') : TakesTree c c' :=
  ⟨w, .truth true, by rw [hc, literal_ok h]; rfl⟩

theorem no {u : Unit} (hc : c.rest = w.bytes ++ 0x66 :: c₁.rest)
    (h : literal falseTail c₁ = .ok u c') : TakesTree c c' :=
  ⟨w, .truth false, by rw [hc, literal_ok h]; rfl⟩

theorem string (hc : c.rest = w.bytes ++ 0x22 :: c₁.rest) (h : TakesString c₁ c') :
    TakesTree c c' := by
  obtain ⟨s, hs⟩ := h
  exact ⟨w, .string s, by rw [hc, hs]; rfl⟩

theorem minus (hc : c.rest = w.bytes ++ 0x2d :: c₁.rest) (h : TakesNumber true c₁ c') :
    TakesTree c c' := by
  obtain ⟨n, hnegative, hn⟩ := h
  refine ⟨w, .number n, ?_⟩
  rw [hc, hn, Tree.bytes, NumberToken.bytes_of_negative hnegative]
  rfl

theorem number (hc : c.rest = w.bytes ++ c₁.rest) (h : TakesNumber false c₁ c') :
    TakesTree c c' := by
  obtain ⟨n, hnegative, hn⟩ := h
  refine ⟨w, .number n, ?_⟩
  rw [hc, hn, Tree.bytes, NumberToken.bytes_of_not_negative hnegative]
  rfl

end TakesTree

theorem firstByte_ok (h : firstByte c = .ok b c') :
    ∃ (w : Blanks) (rest : List UInt8), c.rest = w.bytes ++ c'.rest ∧ c'.rest = b :: rest := by
  obtain ⟨o, c₁, hlook, h₁⟩ := exists_of_bind_ok h
  cases o with
  | none => cases h₁
  | some d =>
      obtain ⟨rfl, rfl⟩ := eq_of_pure_ok h₁
      obtain ⟨w, rest, hw, hrest⟩ := look_some hlook
      exact ⟨w, rest, hrest ▸ hw, hrest⟩

/-- The first byte of a value is taken when it is stepped over. -/
theorem firstByte_advance_ok {u : Unit} (hfirst : firstByte c = .ok b c₁)
    (hadvance : advance c₁ = .ok u c') : ∃ w : Blanks, c.rest = w.bytes ++ b :: c'.rest := by
  obtain ⟨w, rest, hw, hrest⟩ := firstByte_ok hfirst
  exact ⟨w, by rw [hw, hrest, advance_ok hadvance hrest]⟩

theorem step_ok {ctx : Context} {s : Option PathSegment} {read : Read α} {a : α}
    (h : ctx.step s read c = .ok a c') : read c = .ok a c' := by
  unfold Context.step at h
  cases hread : read c with
  | ok a c' =>
      rw [hread] at h
      exact h
  | error e c' =>
      rw [hread] at h
      cases h

/-- A value without brackets has been taken. -/
theorem leaf_ok {v : Value} (hfirst : firstByte c = .ok b c₁) (h : leaf b c₁ = .ok v c') :
    TakesTree c c' := by
  unfold leaf at h
  split at h
  · obtain ⟨u, c₂, a, hadvance, hword, -⟩ := advance_read_ok h
    obtain ⟨w, hw⟩ := firstByte_advance_ok hfirst hadvance
    exact .null hw hword
  · obtain ⟨u, c₂, a, hadvance, hword, -⟩ := advance_read_ok h
    obtain ⟨w, hw⟩ := firstByte_advance_ok hfirst hadvance
    exact .yes hw hword
  · obtain ⟨u, c₂, a, hadvance, hword, -⟩ := advance_read_ok h
    obtain ⟨w, hw⟩ := firstByte_advance_ok hfirst hadvance
    exact .no hw hword
  · obtain ⟨u, c₂, a, hadvance, hstring, -⟩ := advance_read_ok h
    obtain ⟨w, hw⟩ := firstByte_advance_ok hfirst hadvance
    exact .string hw (string_ok hstring)
  · obtain ⟨u, c₂, hadvance, h₁⟩ := exists_of_bind_ok h
    obtain ⟨w, hw⟩ := firstByte_advance_ok hfirst hadvance
    exact .minus hw (number_ok h₁)
  · split at h
    · obtain ⟨w, rest, hw, -⟩ := firstByte_ok hfirst
      exact .number hw (number_ok h)
    · cases h

/-- What is not what was expected is not read. -/
theorem wrongKind_ne_ok {expected : String} {a : α} : wrongKind expected b c ≠ .ok a c' := by
  intro h
  have h := ok_of_fixing_ok h
  split at h
  · cases h
  · cases h
  · obtain ⟨v, c₁, -, h₁⟩ := exists_of_bind_ok h
    cases h₁

theorem fitInteger_ok {kind : IntegerKind} {v : Value} {i : Int}
    (h : fitInteger kind v c = .ok i c') : c' = c := by
  cases v with
  | int j =>
      unfold fitInteger at h
      cases hcheck : kind.check j with
      | ok k =>
          simp only [hcheck] at h
          exact (eq_of_pure_ok h).2.symm
      | error m =>
          simp only [hcheck] at h
          cases h
  | _ => cases h

/-! ### The typed ones. -/

theorem takesValue_readText (expected : String) : TakesValue (readText expected) := by
  intro c s c' h
  obtain ⟨b, c₁, hfirst, h₁⟩ := exists_of_bind_ok h
  split at h₁
  · obtain ⟨u, c₂, hadvance, h₂⟩ := exists_of_bind_ok h₁
    obtain ⟨w, hw⟩ := firstByte_advance_ok hfirst hadvance
    exact .string hw (string_ok h₂)
  · exact absurd h₁ wrongKind_ne_ok

theorem takesValue_readUnit : TakesValue readUnit := by
  intro c v c' h
  obtain ⟨b, c₁, hfirst, h₁⟩ := exists_of_bind_ok h
  split at h₁
  · exact leaf_ok hfirst h₁
  · exact absurd h₁ wrongKind_ne_ok

theorem takesValue_readTruth : TakesValue readTruth := by
  intro c v c' h
  obtain ⟨b, c₁, hfirst, h₁⟩ := exists_of_bind_ok h
  split at h₁
  · exact leaf_ok hfirst h₁
  · exact leaf_ok hfirst h₁
  · exact absurd h₁ wrongKind_ne_ok

theorem takesValue_readInteger (kind : IntegerKind) : TakesValue (readInteger kind) := by
  intro c i c' h
  obtain ⟨b, c₁, hfirst, h₁⟩ := exists_of_bind_ok h
  by_cases hminus : b = 0x2d
  · rw [if_pos hminus] at h₁
    obtain ⟨u, c₂, hadvance, h₂⟩ := exists_of_bind_ok (ok_of_fixing_ok h₁)
    obtain ⟨v, c₃, hnumber, h₃⟩ := exists_of_bind_ok h₂
    obtain ⟨w, hw⟩ := firstByte_advance_ok hfirst hadvance
    rw [fitInteger_ok h₃]
    exact .minus (hminus ▸ hw) (number_ok hnumber)
  rw [if_neg hminus] at h₁
  by_cases hdigit : isDigit b = true
  · rw [if_pos hdigit] at h₁
    obtain ⟨v, c₂, hnumber, h₂⟩ := exists_of_bind_ok (ok_of_fixing_ok h₁)
    obtain ⟨w, rest, hw, -⟩ := firstByte_ok hfirst
    rw [fitInteger_ok h₂]
    exact .number hw (number_ok hnumber)
  · rw [if_neg hdigit] at h₁
    exact absurd h₁ wrongKind_ne_ok

end Leaves

/-! ## §2. Values that are skipped. -/

/-- The byte that opens a bracket. -/
def Bracket.opening : Bracket → UInt8
  | .list => 0x5b
  | .object => 0x7b

/-- The bytes are what these brackets hold from here on, with their end, before `rest`; `begun`
once they have held a value. -/
def Bracket.Ends (begun : Bool) (bytes rest : List UInt8) : Bracket → Prop
  | .list => ∃ items : Items, bytes = items.bytes (!begun) ++ 0x5d :: rest
  | .object => ∃ members : Members, bytes = members.bytes (!begun) ++ 0x7d :: rest

/-- The bytes end all open brackets, the innermost first, before `rest`. -/
def EndsAll : List Bracket → List UInt8 → List UInt8 → Prop
  | [], bytes, rest => bytes = rest
  | bracket :: outer, bytes, rest => ∃ mid, bracket.Ends true bytes mid ∧ EndsAll outer mid rest

/-- What is left to skip, before `rest`. -/
def SkipStage.Ends (outer : List Bracket) (bytes rest : List UInt8) : SkipStage → Prop
  | .value => ∃ (w : Blanks) (t : Tree) (mid : List UInt8),
      bytes = w.bytes ++ (t.bytes ++ mid) ∧ EndsAll outer mid rest
  | .inside bracket begun => ∃ mid, bracket.Ends begun bytes mid ∧ EndsAll outer mid rest

section Skipping

variable {c c₁ c₂ c' : Cursor} {u : Unit} {bytes mid rest : List UInt8} {bracket : Bracket}

/-- Brackets with what they hold are a value. -/
theorem Bracket.Ends.tree (h : bracket.Ends false bytes mid) :
    ∃ t : Tree, bracket.opening :: bytes = t.bytes ++ mid := by
  cases bracket with
  | list =>
      obtain ⟨items, rfl⟩ := h
      exact ⟨.list items, (Tree.bytes_list items mid).symm⟩
  | object =>
      obtain ⟨members, rfl⟩ := h
      exact ⟨.object members, (Tree.bytes_object members mid).symm⟩

/-- Blanks and a closing bracket end what the brackets hold. -/
theorem Bracket.Ends.close (begun : Bool) (w : Blanks) :
    bracket.Ends begun (w.bytes ++ bracket.closing :: rest) rest := by
  cases bracket with
  | list => exact ⟨.nil w, rfl⟩
  | object => exact ⟨.nil w, rfl⟩

/-- What stands before a value inside the brackets. -/
def Bracket.TakesName (c c' : Cursor) : Bracket → Prop
  | .list => c.rest = c'.rest
  | .object => ∃ (before : Blanks) (name : StringToken) (beforeColon : Blanks),
      c.rest = before.bytes ++ 0x22 :: (StringToken.bytes name
        ++ (beforeColon.bytes ++ 0x3a :: c'.rest))

theorem skipName_ok (h : bracket.skipName c = .ok u c') : bracket.TakesName c c' := by
  cases bracket with
  | list =>
      obtain ⟨-, rfl⟩ := eq_of_pure_ok h
      rfl
  | object =>
      obtain ⟨o, c₁, hlook, h₁⟩ := exists_of_bind_ok h
      split at h₁
      · obtain ⟨u₂, c₂, hadvance, h₂⟩ := exists_of_bind_ok h₁
        obtain ⟨u₃, c₃, hstring, hcolon⟩ := exists_of_bind_ok h₂
        obtain ⟨w, hw⟩ := look_advance_ok hlook hadvance
        obtain ⟨name, hname⟩ := skipString_ok hstring
        obtain ⟨beforeColon, hbefore⟩ := colon_ok hcolon
        exact ⟨w, name, beforeColon, by rw [hw, hname, hbefore]⟩
      · cases h₁
      · cases h₁

/-- **One more value inside the brackets**, the first or a later one. -/
theorem Bracket.Ends.cons (begun : Bool) {leading : Blanks}
    (hc : c.rest = leading.bytes ++ (separator (!begun) ++ c₁.rest))
    (hname : bracket.TakesName c₁ c₂) {w : Blanks} {t : Tree}
    (hvalue : c₂.rest = w.bytes ++ (t.bytes ++ bytes)) (hrest : bracket.Ends true bytes mid) :
    bracket.Ends begun c.rest mid := by
  cases bracket with
  | list =>
      obtain ⟨items, rfl⟩ := hrest
      refine ⟨.cons leading w t items, ?_⟩
      rw [hc, hname, hvalue]
      simp [Items.bytes]
  | object =>
      obtain ⟨members, rfl⟩ := hrest
      obtain ⟨before, name, beforeColon, hname⟩ := hname
      refine ⟨.cons leading before name beforeColon w t members, ?_⟩
      rw [hc, hname, hvalue]
      simp [Members.bytes]

/-- **A leaf that was skipped is a value**, and of anything else the bracket has been taken. -/
theorem skipLeaf_ok {found : Option Bracket} (h : skipLeaf c = .ok found c') :
    match found with
    | none => TakesTree c c'
    | some bracket => ∃ w : Blanks, c.rest = w.bytes ++ bracket.opening :: c'.rest := by
  obtain ⟨o, c₁, hlook, h₁⟩ := exists_of_bind_ok h
  split at h₁
  · cases h₁
  · obtain ⟨u₂, c₂, u₃, hadvance, hword, rfl⟩ := advance_read_ok h₁
    obtain ⟨w, hw⟩ := look_advance_ok hlook hadvance
    exact TakesTree.null hw hword
  · obtain ⟨u₂, c₂, u₃, hadvance, hword, rfl⟩ := advance_read_ok h₁
    obtain ⟨w, hw⟩ := look_advance_ok hlook hadvance
    exact TakesTree.yes hw hword
  · obtain ⟨u₂, c₂, u₃, hadvance, hword, rfl⟩ := advance_read_ok h₁
    obtain ⟨w, hw⟩ := look_advance_ok hlook hadvance
    exact TakesTree.no hw hword
  · obtain ⟨u₂, c₂, u₃, hadvance, hnumber, rfl⟩ := advance_read_ok h₁
    obtain ⟨w, hw⟩ := look_advance_ok hlook hadvance
    exact TakesTree.minus hw (skipNumber_ok true hnumber)
  · obtain ⟨u₂, c₂, u₃, hadvance, hstring, rfl⟩ := advance_read_ok h₁
    obtain ⟨w, hw⟩ := look_advance_ok hlook hadvance
    exact TakesTree.string hw (skipString_ok hstring)
  · obtain ⟨u₂, c₂, hadvance, h₂⟩ := exists_of_bind_ok h₁
    obtain ⟨rfl, rfl⟩ := eq_of_pure_ok h₂
    exact look_advance_ok hlook hadvance
  · obtain ⟨u₂, c₂, hadvance, h₂⟩ := exists_of_bind_ok h₁
    obtain ⟨rfl, rfl⟩ := eq_of_pure_ok h₂
    exact look_advance_ok hlook hadvance
  · split at h₁
    · obtain ⟨u₂, c₂, hnumber, h₂⟩ := exists_of_bind_ok h₁
      obtain ⟨rfl, rfl⟩ := eq_of_pure_ok h₂
      obtain ⟨w, rest, hw, hrest⟩ := look_some hlook
      exact TakesTree.number (hrest ▸ hw) (skipNumber_ok false hnumber)
    · cases h₁

/-- **What the machine skips ends everything that is open.** -/
theorem skipSteps_ok {steps : Nat} {stage : SkipStage} {outer : List Bracket}
    (h : skipSteps steps stage outer c = .ok u c') : stage.Ends outer c.rest c'.rest := by
  -- The induction is on the steps; the brackets on the list grow and shrink on the way.
  induction steps generalizing stage outer c with
  | zero => cases h
  | succ steps ih =>
      have hresume : ∀ {c : Cursor} {outer : List Bracket}, resume steps outer c = .ok u c' →
          EndsAll outer c.rest c'.rest := by
        intro c outer h
        cases outer with
        | nil =>
            obtain ⟨-, rfl⟩ := eq_of_pure_ok h
            rfl
        | cons bracket outer => exact ih h
      cases stage with
      | value =>
          rw [skipSteps_value] at h
          obtain ⟨found, c₁, hleaf, h₁⟩ := exists_of_bind_ok h
          have htaken := skipLeaf_ok hleaf
          cases found with
          | none =>
              obtain ⟨w, t, ht⟩ := htaken
              exact ⟨w, t, _, ht, hresume h₁⟩
          | some bracket =>
              obtain ⟨w, hw⟩ := htaken
              obtain ⟨mid, hends, hall⟩ := ih h₁
              obtain ⟨t, ht⟩ := hends.tree
              exact ⟨w, t, mid, by rw [hw, ht], hall⟩
      | inside bracket begun =>
          rw [skipSteps_inside] at h
          obtain ⟨o, c₁, hlook, h₁⟩ := exists_of_bind_ok h
          -- Behind a name, if there is one, the machine goes on with a value.
          have hnext : ∀ {c₂ : Cursor} {leading : Blanks},
              (bracket.skipName >>= fun _ => skipSteps steps .value (bracket :: outer)) c₂
                = .ok u c' →
              c.rest = leading.bytes ++ (separator (!begun) ++ c₂.rest) →
              SkipStage.Ends outer c.rest c'.rest (.inside bracket begun) := by
            intro c₂ leading h hc
            obtain ⟨u₃, c₃, hname, h₃⟩ := exists_of_bind_ok h
            obtain ⟨w, t, bytes, hvalue, mid, hends, hall⟩ := ih h₃
            exact ⟨mid, .cons begun hc (skipName_ok hname) hvalue hends, hall⟩
          cases o with
          | none => cases h₁
          | some b =>
              dsimp only at h₁
              by_cases hclosing : b = bracket.closing
              · rw [if_pos hclosing] at h₁
                obtain ⟨u₂, c₂, hadvance, h₂⟩ := exists_of_bind_ok h₁
                obtain ⟨w, hw⟩ := look_advance_ok hlook hadvance
                rw [hw, hclosing]
                exact ⟨_, .close begun w, hresume h₂⟩
              rw [if_neg hclosing] at h₁
              cases begun with
              | false =>
                  simp only [Bool.false_eq_true, if_false] at h₁
                  obtain ⟨w, rest, hw, hrest⟩ := look_some hlook
                  exact hnext h₁ (hrest ▸ hw)
              | true =>
                  simp only [if_true] at h₁
                  by_cases hcomma : b = 0x2c
                  · rw [if_pos hcomma] at h₁
                    obtain ⟨u₂, c₂, hadvance, h₂⟩ := exists_of_bind_ok h₁
                    obtain ⟨w, hw⟩ := look_advance_ok hlook hadvance
                    rw [hcomma] at hw
                    exact hnext h₂ hw
                  · rw [if_neg hcomma] at h₁
                    cases h₁

/-- **A value that was skipped is a value.** -/
theorem takesValue_skipValue (bound : Nat) : TakesValue (skipValue bound) := by
  intro c u c' h
  obtain ⟨w, t, mid, ht, rfl⟩ := skipSteps_ok h
  exact ⟨w, t, ht⟩

end Skipping

end ErrorContract.Json
