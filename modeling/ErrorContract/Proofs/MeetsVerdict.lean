/-
  ErrorContract.Proofs.MeetsVerdict
  ─────────────────────────────────
  **READERS THAT DO WHAT A VERDICT SAYS.**

  `Meets tail verdict result` says that a run of a reader over a complete
  body ends as a verdict demands: with its value and the cursor before
  `tail`, with its mismatch found on its way, or with a fault of form;
  `MeetsThen` leaves it open where the cursor comes to rest.  Where in the
  body a fault was met does not matter.  Verdicts are composed as readers
  are, so each reader needs one lemma, and a reader that calls another uses
  that lemma instead of the definition.
-/
import ErrorContract.Proofs.Verdict

namespace ErrorContract.Json

open ErrorContract

/-! ## §1. The relation. -/

/-- A cursor of a complete body, with these bytes to come. -/
def Cursor.At (bytes : List UInt8) (c : Cursor) : Prop := c.rest = bytes ∧ c.ending = .complete

/-- An error that a flaw is reported with. -/
def Flaw.Causes : Flaw → Error → Prop
  | .misfit m way, e => e.fault = .mismatch m ∧ e.path = way
  | .meaningless, e | .mistaken, e => e.fault.kind = .malformed

/-- **A run ends as a verdict says**, with a cursor of which `post` holds if it succeeds. -/
def MeetsThen (post : Cursor → Prop) : Verdict α → EStateM.Result Error Cursor α → Prop
  | .ok a, r => ∃ c, r = .ok a c ∧ post c
  | .error flaw, r => ∃ e c, r = .error e c ∧ flaw.Causes e

/-- A run ends as a verdict says, with the cursor before `tail` if it succeeds. -/
abbrev Meets (tail : List UInt8) : Verdict α → EStateM.Result Error Cursor α → Prop :=
  MeetsThen (Cursor.At tail)

section Meets

variable {α β : Type} {tail mid bytes : List UInt8} {post : Cursor → Prop} {c : Cursor}
  {m : Mismatch}

/-- Where an error was met does not matter to its cause. -/
theorem Flaw.Causes.congr {flaw : Flaw} {e e' : Error} (h : flaw.Causes e)
    (hfault : e'.fault = e.fault) (hpath : e'.path = e.path) : flaw.Causes e' := by
  cases flaw with
  | misfit m way => exact ⟨hfault.trans h.1, hpath.trans h.2⟩
  | meaningless | mistaken =>
      show e'.fault.kind = .malformed
      rw [hfault]
      exact h

/-- A step in front of the path is one in front of the way. -/
theorem Flaw.Causes.under {flaw : Flaw} {e e' : Error} (h : flaw.Causes e) (s : PathSegment)
    (hfault : e'.fault = e.fault) (hpath : e'.path = s :: e.path) : (flaw.under s).Causes e' := by
  cases flaw with
  | misfit m way =>
      refine ⟨hfault.trans h.1, ?_⟩
      rw [hpath, h.2]
  | meaningless | mistaken =>
      show e'.fault.kind = .malformed
      rw [hfault]
      exact h

theorem Cursor.At.eq (h : c.At bytes) : c = ⟨bytes, c.offset, .complete⟩ := by
  obtain ⟨rest, offset, ending⟩ := c
  obtain ⟨rfl, rfl⟩ := h
  rfl

theorem Meets.ok {a : α} (h : c.At tail) : Meets tail (.ok a) (.ok a c) := ⟨c, rfl, h⟩

theorem Meets.pure {a : α} (h : c.At tail) : Meets tail (.ok a) ((Pure.pure a : Read α) c) :=
  ⟨c, rfl, h⟩

/-- **Readers one after the other meet verdicts one after the other.** -/
theorem MeetsThen.bind {mid : Cursor → Prop} {v : Verdict α} {w : α → Verdict β} {read : Read α}
    {next : α → Read β} (h : MeetsThen mid v (read c))
    (hnext : ∀ a c', v = .ok a → mid c' → MeetsThen post (w a) (next a c')) :
    MeetsThen post (v >>= w) ((read >>= next) c) := by
  cases v with
  | ok a =>
      obtain ⟨c', hread, hc'⟩ := h
      show MeetsThen post (w a) (EStateM.bind read next c)
      rw [EStateM.bind, hread]
      exact hnext a c' rfl hc'
  | error flaw =>
      obtain ⟨e, c', hread, hcauses⟩ := h
      show MeetsThen post (.error flaw) (EStateM.bind read next c)
      rw [EStateM.bind, hread]
      exact ⟨e, c', rfl, hcauses⟩

/-- A reader that succeeds is followed by the next one. -/
theorem MeetsThen.bind_ok {mid : Cursor → Prop} {a : α} {w : Verdict β} {read : Read α}
    {next : α → Read β} (h : MeetsThen mid (.ok a) (read c))
    (hnext : ∀ c', mid c' → MeetsThen post w (next a c')) :
    MeetsThen post w ((read >>= next) c) := by
  have hbind : MeetsThen post ((Except.ok a : Verdict α) >>= fun _ => w) ((read >>= next) c) := by
    refine h.bind fun b c' hb hc' => ?_
    cases hb
    exact hnext c' hc'
  exact hbind

/-- A reader that fails is followed by nothing. -/
theorem MeetsThen.bind_error {mid : Cursor → Prop} {flaw : Flaw} {read : Read α}
    {next : α → Read β} (h : MeetsThen mid (.error flaw : Verdict α) (read c)) :
    MeetsThen post (.error flaw : Verdict β) ((read >>= next) c) := by
  have hbind : MeetsThen post
      ((Except.error flaw : Verdict α) >>= fun _ => (.error flaw : Verdict β))
      ((read >>= next) c) := h.bind fun a c' ha => by cases ha
  exact hbind

theorem MeetsThen.map {v : Verdict α} {f : α → β} {read : Read α}
    (h : MeetsThen post v (read c)) :
    MeetsThen post (v >>= fun a => .ok (f a)) ((read >>= fun a => Pure.pure (f a)) c) :=
  h.bind fun _ c' _ hc' => ⟨c', rfl, hc'⟩

theorem MeetsThen.mono {post' : Cursor → Prop} {v : Verdict α} {r : EStateM.Result Error Cursor α}
    (h : MeetsThen post v r) (hpost : ∀ c, post c → post' c) : MeetsThen post' v r := by
  cases v with
  | ok a =>
      obtain ⟨c', hr, hc'⟩ := h
      exact ⟨c', hr, hpost c' hc'⟩
  | error flaw => exact h

/-- A fault of form. -/
theorem Meets.meaningless {e : Error} (h : e.fault.kind = .malformed) :
    Meets tail (.error .meaningless : Verdict α) (.error e c) := ⟨e, c, rfl, h⟩

theorem meets_mismatch (m : Mismatch) (c : Cursor) :
    MeetsThen post (misfit m : Verdict α) (mismatch m c) := ⟨_, _, rfl, rfl, rfl⟩

/-- Behind a mismatch nothing is read. -/
theorem meets_mismatch_bind (m : Mismatch) {next : α → Read β} (c : Cursor) :
    MeetsThen post (misfit m : Verdict β) ((mismatch m >>= next) c) := by
  have hfirst : MeetsThen post (misfit m : Verdict α) (mismatch m c) := meets_mismatch m c
  exact hfirst.bind_error

/-- Fixing the place of a fault changes nothing else. -/
theorem Meets.fixing {v : Verdict α} {read : Read α} (h : Meets tail v (read c)) :
    Meets tail v (fixing read c) := by
  unfold Json.fixing
  cases v with
  | ok a =>
      obtain ⟨c', hread, hc'⟩ := h
      rw [hread]
      exact ⟨c', rfl, hc'⟩
  | error flaw =>
      obtain ⟨e, c', hread, hcauses⟩ := h
      rw [hread]
      exact ⟨_, c', rfl, hcauses.congr rfl rfl⟩

/-- **A step in front of a trail is a step in front of the way.** -/
theorem Meets.step {v : Verdict α} {read : Read α} {ctx : Context} (htracked : ctx.tracked = true)
    (s : PathSegment) (h : Meets tail v (read c)) :
    Meets tail (v.under s) (ctx.step (some s) read c) := by
  unfold Context.step
  cases v with
  | ok a =>
      obtain ⟨c', hread, hc'⟩ := h
      rw [hread]
      exact ⟨c', rfl, hc'⟩
  | error flaw =>
      obtain ⟨e, c', hread, hcauses⟩ := h
      rw [hread]
      refine ⟨_, c', rfl, ?_⟩
      rw [if_pos htracked]
      exact hcauses.under s rfl rfl

/-- A step without a name is no step of the way. -/
theorem Meets.step_none {v : Verdict α} {read : Read α} (ctx : Context)
    (h : Meets tail v (read c)) : Meets tail v (ctx.step none read c) := by
  unfold Context.step
  cases v with
  | ok a =>
      obtain ⟨c', hread, hc'⟩ := h
      rw [hread]
      exact ⟨c', rfl, hc'⟩
  | error flaw =>
      obtain ⟨e, c', hread, hcauses⟩ := h
      rw [hread]
      refine ⟨_, c', rfl, ?_⟩
      split
      · exact hcauses.congr rfl rfl
      · exact hcauses

end Meets

/-! ## §2. Single bytes. -/

section Bytes

variable {α : Type} {tail bytes : List UInt8} {c : Cursor} {b : UInt8}

theorem meets_advance (h : c.At (b :: bytes)) : Meets bytes (.ok ()) (advance c) := by
  rw [h.eq]
  exact ⟨_, rfl, rfl, rfl⟩

theorem meets_peek (h : c.At (b :: bytes)) : Meets (b :: bytes) (.ok (some b)) (peek c) := by
  rw [h.eq]
  exact ⟨_, rfl, rfl, rfl⟩

theorem meets_peek_end (h : c.At []) : Meets [] (.ok none) (peek c) := by
  rw [h.eq]
  exact ⟨_, rfl, rfl, rfl⟩

theorem meets_next (h : c.At (b :: bytes)) : Meets bytes (.ok (some b)) (next c) :=
  (meets_peek h).bind_ok fun _ hc => (meets_advance hc).bind_ok fun _ hc => Meets.pure hc

theorem skipBlanks_go (c : Cursor) (w : Blanks) (offset : Nat) :
    Cursor.skipBlanks.go c (w.bytes ++ bytes) offset
      = Cursor.skipBlanks.go c bytes (offset + w.bytes.length) := by
  obtain ⟨w, hw⟩ := w
  induction w generalizing offset with
  | nil => rfl
  | cons b w ih =>
      -- The first blank is passed over, and the others from one byte further on.
      have hb : isBlank b = true := hw b List.mem_cons_self
      rw [List.cons_append, Cursor.skipBlanks.go, if_pos hb,
        ih _ fun d hd => hw d (List.mem_cons_of_mem b hd), List.length_cons, Nat.add_assoc,
        Nat.add_comm 1]

/-- **Blanks are passed over** in front of a byte that is none. -/
theorem meets_look {w : Blanks} (hb : isBlank b = false) (h : c.At (w.bytes ++ b :: bytes)) :
    Meets (b :: bytes) (.ok (some b)) (look c) := by
  -- Only the bytes matter; where they stand is counted along.
  have hskip : Cursor.skipBlanks c = ⟨b :: bytes, c.offset + w.bytes.length, .complete⟩ := by
    rw [Cursor.skipBlanks, h.1, skipBlanks_go, Cursor.skipBlanks.go, hb, h.2]
    rfl
  show Meets _ _ (peek c.skipBlanks)
  rw [hskip]
  exact ⟨_, rfl, rfl, rfl⟩

/-- Blanks are passed over at the end of a body. -/
theorem meets_look_end {w : Blanks} (h : c.At w.bytes) : Meets [] (.ok none) (look c) := by
  have hskip : Cursor.skipBlanks c = ⟨[], c.offset + w.bytes.length, .complete⟩ := by
    have hgo : Cursor.skipBlanks.go c (w.bytes ++ []) c.offset
        = Cursor.skipBlanks.go c [] (c.offset + w.bytes.length) := skipBlanks_go c w c.offset
    rw [List.append_nil, Cursor.skipBlanks.go, h.2] at hgo
    rw [Cursor.skipBlanks, h.1, hgo]
  show Meets _ _ (peek c.skipBlanks)
  rw [hskip]
  exact ⟨_, rfl, rfl, rfl⟩

theorem meets_failNext {f : Fault} (h : f.kind = .malformed) (c : Cursor) :
    Meets tail (.error .meaningless : Verdict α) (failNext f c) := ⟨_, _, rfl, h⟩

/-- What is not there to be read is taken for a fault of form. -/
theorem meets_mistaken {f : Fault} (h : f.kind = .malformed) (c : Cursor) :
    Meets tail (.error .mistaken : Verdict α) (failNext f c) := ⟨_, _, rfl, h⟩

theorem meets_literal (word : List UInt8) (h : c.At (word ++ tail)) :
    Meets tail (.ok ()) (literal word c) := by
  induction word generalizing c with
  | nil => exact Meets.pure h
  | cons b word ih =>
      refine (meets_next h).bind_ok fun c' hc' => ?_
      show Meets tail (.ok ()) ((if b = b then literal word else fail .expectedIdent) c')
      rw [if_pos rfl]
      exact ih hc'

theorem meets_colon {w : Blanks} (h : c.At (w.bytes ++ 0x3a :: bytes)) :
    Meets bytes (.ok ()) (colon c) :=
  (meets_look rfl h).bind_ok fun _ hc => meets_advance hc

theorem meets_finish {w : Blanks} (h : c.At w.bytes) : Meets [] (.ok ()) (finish c) :=
  (meets_look_end h).bind_ok fun _ hc => Meets.pure hc

end Bytes

end ErrorContract.Json
