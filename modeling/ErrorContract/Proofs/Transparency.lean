/-
  ErrorContract.Proofs.Transparency
  ─────────────────────────────────
  **LAYERS THAT NOBODY KNOWS ARE TRANSPARENT.**

  On its way up an error gathers context and may be wrapped into errors of
  kinds that the classifier has never heard of.  `Padded e e'` says that
  `e'` is `e` after some more of that: context of no known kind at any
  places among the context, and errors of no known kind around the root.
  What the classifier looks for is the same in both, as it stands in the
  same order.

  Main statement `padding_is_transparent`: if a rule finds a failure in `e`,
  then `e'` stands for that failure too; if none does, both stand for the
  fallback failure, each with the text on top of it.
-/
import ErrorContract.Proofs.Classification

namespace ErrorContract

namespace Raised

/-! ## §1. Roots and context. -/

/-- The error to which all the context was attached. -/
def root : Raised → Raised
  | .within inner _ => inner.root
  | e => e

/-- All the context of an error, innermost first. -/
def contexts : Raised → List Raised
  | .within inner context => inner.contexts ++ context
  | _ => []

/-- An error wrapped into errors of kinds that nobody knows, with these texts, outermost first. -/
def wrapped (texts : List String) (e : Raised) : Raised := texts.foldr .caused e

/-- What is seen of an error is its context and then its root with what that was caused by. -/
theorem layers_eq_contexts_append_root :
    ∀ e : Raised, e.layers = (e.contexts.map asLayer).reverse ++ e.root.asSource
  | .bare layer => rfl
  | .caused message source => rfl
  | .concealed inside => rfl
  | .within inner context => by
      rw [layers, contexts, root, layers_eq_contexts_append_root inner, List.map_append,
        List.reverse_append, List.append_assoc]

/-! ## §2. More layers of no known kind. -/

/-- The value is of no kind that the classifier knows: plain text, for one. -/
def IsUnknown (c : Raised) : Prop := ∃ text, c.asLayer = .other text

/-- **Context with more of no known kind put in**, at any places. -/
inductive Inserted : List Raised → List Raised → Prop where
  | nil : Inserted [] []
  | keep (c : Raised) {cs ds : List Raised} (h : Inserted cs ds) : Inserted (c :: cs) (c :: ds)
  | insert {c : Raised} (hc : c.IsUnknown) {cs ds : List Raised} (h : Inserted cs ds) :
      Inserted cs (c :: ds)

/-- **An error with more layers of no known kind**: among its context, and around its root. -/
structure Padded (e e' : Raised) : Prop where
  contexts : Inserted e.contexts e'.contexts
  root : ∃ texts, e'.root = e.root.wrapped texts

end Raised

/-- Is the layer of a kind that the classifier knows? -/
def Layer.isKnown (l : Layer) : Bool := decide (l.kind ≠ .other)

/-- **What an error becomes that is returned as it is**, and not raised under context. -/
inductive Layer.Becomes : Layer → Failure → Prop where
  | body (b : UnreadableBody) : Layer.Becomes (.body b) (.unreadableBody b)
  | statement (error : StatementError) : Layer.Becomes (.statement error) (.statement error)
  | client (error : ClientError) : Layer.Becomes (.client error) (.client error)
  | sql (error : SqlError) : Layer.Becomes (.sql error) (.sql error)
  | failure (f : Failure) : Layer.Becomes (.failure f) f

/-! ## §3. The known layers stay. -/

section Known

open Raised

variable {e e' : Raised}

theorem isKnown_of_isUnknown {c : Raised} (h : c.IsUnknown) : c.asLayer.isKnown = false := by
  obtain ⟨text, htext⟩ := h
  rw [htext]
  rfl

/-- What is put in among the context is of no known kind. -/
theorem Raised.Inserted.filter_map {cs ds : List Raised} (h : Inserted cs ds) :
    (ds.map asLayer).filter Layer.isKnown = (cs.map asLayer).filter Layer.isKnown := by
  induction h with
  | nil => rfl
  | keep c h ih => rw [List.map_cons, List.map_cons, List.filter_cons, List.filter_cons, ih]
  | insert hc h ih =>
      rw [List.map_cons, List.filter_cons_of_neg (by simp [isKnown_of_isUnknown hc]), ih]

/-- What an error is wrapped into is of no known kind. -/
theorem filter_asSource_wrapped (texts : List String) (e : Raised) :
    (e.wrapped texts).asSource.filter Layer.isKnown = e.asSource.filter Layer.isKnown := by
  induction texts with
  | nil => rfl
  | cons text texts ih =>
      have hother : (Layer.other text).isKnown = false := rfl
      show (Raised.caused text (e.wrapped texts)).asSource.filter Layer.isKnown = _
      rw [asSource, List.filter_cons_of_neg (by simp [hother]), ih]

/-- **The layers of known kinds are the same ones in the same order.** -/
theorem Raised.Padded.filter_layers (h : Padded e e') :
    e'.layers.filter Layer.isKnown = e.layers.filter Layer.isKnown := by
  obtain ⟨texts, hroot⟩ := h.root
  rw [layers_eq_contexts_append_root, layers_eq_contexts_append_root, List.filter_append,
    List.filter_append, List.filter_reverse, List.filter_reverse, h.contexts.filter_map, hroot,
    filter_asSource_wrapped]

/-- No criterion of the table is about layers of no known kind. -/
theorem kind_ne_other {c : Criterion} (hc : c ∈ criteria) : c.kind ≠ .other := by
  have hall : ∀ c ∈ criteria, c.kind ≠ .other := by simp [criteria, Criterion.on]
  exact hall c hc

/-- A criterion passes over the layers of no known kind. -/
theorem Criterion.find_filter_isKnown {c : Criterion} (hc : c ∈ criteria) (layers : List Layer) :
    c.find (layers.filter Layer.isKnown) = c.find layers := by
  unfold Criterion.find
  rw [List.find?_filter]
  congr 2
  funext l
  by_cases hl : l.kind = c.kind
  · have hknown : l.isKnown = true := by
      simpa [Layer.isKnown, hl] using kind_ne_other hc
    simp [hl, hknown]
  · simp [hl]

/-- **The rules find the same in both.** -/
theorem Raised.Padded.findSome?_rules (h : Padded e e') :
    (Failure.rules.findSome? fun rule => rule e')
      = Failure.rules.findSome? fun rule => rule e := by
  have hfind : ∀ cs : List Criterion, (∀ c ∈ cs, c.find e'.layers = c.find e.layers) →
      cs.findSome? (·.find e'.layers) = cs.findSome? (·.find e.layers) := by
    intro cs hcs
    induction cs with
    | nil => rfl
    | cons c cs ih =>
        rw [List.findSome?_cons, List.findSome?_cons, hcs c List.mem_cons_self,
          ih fun c hc => hcs c (List.mem_cons_of_mem _ hc)]
  rw [Failure.findSome?_rules, Failure.findSome?_rules]
  refine hfind criteria fun c hc => ?_
  rw [← Criterion.find_filter_isKnown hc, h.filter_layers, Criterion.find_filter_isKnown hc]

/-- An error that is returned as it is, is found by a rule. -/
theorem Layer.Becomes.findSome?_rules {l : Layer} {f : Failure} (h : l.Becomes f) :
    (Failure.rules.findSome? fun rule => rule (.bare l)) = some f := by
  cases h with
  | failure f => cases f <;> rfl
  | _ => rfl

end Known

/-! ## §4. THE TRANSPARENCY THEOREM. -/

namespace Failure

open Raised

/-- Where no rule finds anything, the text on top is all that is left. -/
theorem classify_of_no_rule {e : Raised} (h : (rules.findSome? fun rule => rule e) = none) :
    ∃ top rest, e.layers = top :: rest
      ∧ classify e = .unclassified (if top.message = "" then none else some top.message) := by
  obtain ⟨top, rest, hlayers, htop⟩ := e.exists_layers_eq_cons
  refine ⟨top, rest, hlayers, ?_⟩
  rw [classify, h, htop]
  simp [ofText, String.isEmpty_iff]

/-- **Layers that nobody knows are transparent.** More of them leave the failure that a rule finds
as it is.  Where no rule finds any, the failure stays the fallback, and says what stands on top,
so that it changes only with that.  What is raised under such layers alone becomes what it
becomes without them. -/
theorem padding_is_transparent {e e' : Raised} (h : Padded e e') :
    ((∃ rule ∈ rules, ∃ f, rule e = some f) → classify e' = classify e)
    ∧ ((∀ rule ∈ rules, rule e = none) → ∃ top rest top' rest',
        e.layers = top :: rest ∧ e'.layers = top' :: rest'
        ∧ classify e = .unclassified (if top.message = "" then none else some top.message)
        ∧ classify e' = .unclassified (if top'.message = "" then none else some top'.message))
    ∧ ∀ l f, e = .bare l → l.Becomes f → classify e' = f := by
  have hrules := h.findSome?_rules
  refine ⟨?_, fun hnone => ?_, fun l f hl hf => ?_⟩
  · rintro ⟨rule, hrule, f, hf⟩
    have hsome : (rules.findSome? fun rule => rule e).isSome = true :=
      List.findSome?_isSome_iff.mpr ⟨rule, hrule, by rw [hf]; rfl⟩
    obtain ⟨g, hg⟩ := Option.isSome_iff_exists.mp hsome
    rw [classify, classify, hrules, hg]
    rfl
  · have hfind : (rules.findSome? fun rule => rule e) = none :=
      List.findSome?_eq_none_iff.mpr hnone
    obtain ⟨top, rest, hlayers, hclassify⟩ := classify_of_no_rule hfind
    obtain ⟨top', rest', hlayers', hclassify'⟩ := classify_of_no_rule (hrules.trans hfind)
    exact ⟨top, rest, top', rest', hlayers, hlayers', hclassify, hclassify'⟩
  · subst hl
    rw [classify, hrules, hf.findSome?_rules]
    rfl

/-- An expired token that caused another error, under an application's failure. -/
def expiredToken : Raised :=
  .within (.caused "pool" (.bare (.client ⟨10005, "token expired"⟩)))
    [.bare (.failure (.notFound "no such table"))]

/-- The same error under layers that nobody knows. -/
def expiredTokenPadded : Raised :=
  .within (.within (.caused "retry" (.caused "" (.caused "pool"
      (.bare (.client ⟨10005, "token expired"⟩)))))
    [.bare (.other "first"), .bare (.failure (.notFound "no such table"))])
    [.bare (.other ""), .bare (.other "loading")]

theorem padding_is_transparent_expired_token :
    Padded expiredToken expiredTokenPadded ∧ (∃ rule ∈ rules, ∃ f, rule expiredToken = some f)
      ∧ classify expiredTokenPadded = classify expiredToken := by
  have hpadded : Padded expiredToken expiredTokenPadded :=
    { contexts := .insert ⟨"first", rfl⟩
        (.keep _ (.insert ⟨"", rfl⟩ (.insert ⟨"loading", rfl⟩ .nil)))
      root := ⟨["retry", ""], rfl⟩ }
  have hrule : ∃ rule ∈ rules, ∃ f, rule expiredToken = some f :=
    ⟨databaseRule, by simp [rules], .client ⟨10005, "token expired"⟩, by decide⟩
  exact ⟨hpadded, hrule, (padding_is_transparent hpadded).1 hrule⟩

end Failure

end ErrorContract
