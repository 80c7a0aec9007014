/-
  ErrorContract.Proofs.VisibleLayers
  ──────────────────────────────────
  **WHAT CAN BE SEEN OF A RAISED ERROR IS ONE LIST OF LAYERS.**

  `Raised.layers` lists what is visible of an error, outermost first: its
  context, the error that the context was attached to, and whatever that was
  caused by.  Looking for the outermost layer of a kind goes through an error
  twice, first over the values that were raised and then along the causes.
  Main statement: that finds what one scan of the visible layers finds,

      e.outermost pick = e.layers.findSome? pick

  for every `pick` that passes over plain text.
-/
import ErrorContract.Failure.Classify

namespace ErrorContract

namespace Raised

/-! ## §1. The visible layers. -/

mutual

/-- The layers of an error that is the cause of another: its own context is lost. -/
def asSource : Raised → List Layer
  | .bare layer => [layer]
  | .caused message source => .other message :: source.asSource
  | .concealed inside => .common .inputOutput inside.message :: inside.beneath
  | .within root _ => root.asSource

/-- The layers underneath the outermost one of an error that is the cause of another. -/
def beneath : Raised → List Layer
  | .bare _ => []
  | .caused _ source => source.asSource
  | .concealed inside => inside.beneath
  | .within root [] => root.beneath
  | .within root (_ :: _) => root.asSource

end

/-- **The visible layers of an error**, outermost first. -/
def layers : Raised → List Layer
  | .within root context => (context.map asLayer).reverse ++ root.layers
  | e => e.asSource

/-! ## §2. The outermost layer shows its text. -/

theorem message_go (text : String) (context : List Raised) :
    message.go text context = (context.getLast?.map message).getD text := by
  induction context generalizing text with
  | nil => rfl
  | cons c rest ih =>
      rw [message.go, ih]
      cases rest with
      | nil => rfl
      | cons d rest => simp [List.getLast?_cons]

@[simp] theorem message_asLayer (e : Raised) : e.asLayer.message = e.message := by
  cases e <;> simp [asLayer, Layer.message, message]

/-- **The text of an error is that of its outermost visible layer.** -/
theorem exists_layers_eq_cons :
    ∀ e : Raised, ∃ top rest, e.layers = top :: rest ∧ top.message = e.message
  | .bare layer => ⟨layer, [], by simp [layers, asSource], by rw [message]⟩
  | .caused message source =>
      ⟨.other message, source.asSource, by simp [layers, asSource], by rw [Raised.message]; rfl⟩
  | .concealed inside =>
      ⟨.common .inputOutput inside.message, inside.beneath, by simp [layers, asSource], by
        rw [message]; rfl⟩
  | .within root context => by
      obtain ⟨top, rest, hroot, htop⟩ := exists_layers_eq_cons root
      rw [layers, message, message_go]
      cases h : context.getLast? with
      | none =>
          have hnil : context = [] := List.getLast?_eq_none_iff.mp h
          subst hnil
          exact ⟨top, rest, hroot, htop⟩
      | some c =>
          obtain ⟨front, rfl⟩ := List.getLast?_eq_some_iff.mp h
          exact ⟨c.asLayer, (front.map asLayer).reverse ++ root.layers, by simp, by simp⟩

/-! ## §3. Two searches are one scan. -/

section Search

variable {α : Type} {pick : Layer → Option α}

/-- Context that is seen along the causes is plain text, which `pick` passes over. -/
theorem findSome?_texts (hpick : ∀ message, pick (.other message) = none)
    (context : List Raised) :
    (context.map fun c => Layer.other c.message).reverse.findSome? pick = none := by
  simp [List.findSome?_eq_none_iff, hpick]

/-- **The chain of causes, and what is beneath its first link, show what is visible of an error
that caused another.** -/
theorem findSome?_causes (hpick : ∀ message, pick (.other message) = none) :
    ∀ e : Raised, e.causes.findSome? pick = e.asSource.findSome? pick
      ∧ e.causes.tail.findSome? pick = e.beneath.findSome? pick
  | .bare layer => by simp [causes, asSource, beneath]
  | .caused message source => by
      have ih := (findSome?_causes hpick source).1
      simp [causes, asSource, beneath, hpick, ih]
  | .concealed inside => by
      have ih := (findSome?_causes hpick inside).2
      simp [causes, asSource, beneath, List.findSome?_cons, ih]
  | .within root [] => by
      have ih := findSome?_causes hpick root
      simpa [causes, asSource, beneath] using ih
  | .within root (c :: context) => by
      have ih := (findSome?_causes hpick root).1
      constructor
      · rw [causes, List.findSome?_append, findSome?_texts hpick, Option.none_or, asSource, ih]
      · -- the first link is the outermost context; the others are still texts
        obtain ⟨first, texts, hcons⟩ :
            ∃ first texts, ((c :: context).map fun d => Layer.other d.message).reverse
              = first :: texts := List.exists_cons_of_ne_nil (by simp)
        have htexts := findSome?_texts hpick (c :: context)
        rw [hcons, List.findSome?_eq_none_iff] at htexts
        rw [causes, hcons, List.cons_append, List.tail_cons, List.findSome?_append, beneath, ih,
          List.findSome?_eq_none_iff.mpr fun a ha => htexts a (List.mem_cons_of_mem first ha),
          Option.none_or]

/-- An error without context is looked at twice in vain: it is the first of its causes. -/
theorem outermost_eq_of_causes_eq_cons {e : Raised} {own : Layer} {rest : List Layer}
    (hattached : e.attached = [own]) (hcauses : e.causes = own :: rest) :
    e.outermost pick = e.causes.findSome? pick := by
  rw [outermost, hattached, hcauses]
  cases h : pick own <;> simp [h]

/-- **Looking for the outermost layer is one scan of the visible layers.** -/
theorem outermost_eq_findSome?_layers (hpick : ∀ message, pick (.other message) = none) :
    ∀ e : Raised, e.outermost pick = e.layers.findSome? pick
  | .bare layer => by
      rw [outermost_eq_of_causes_eq_cons rfl (causes.eq_1 layer), (findSome?_causes hpick _).1]
      rfl
  | .caused message source => by
      rw [outermost_eq_of_causes_eq_cons rfl (causes.eq_2 message source),
        (findSome?_causes hpick _).1]
      rfl
  | .concealed inside => by
      rw [outermost_eq_of_causes_eq_cons rfl (causes.eq_3 inside), (findSome?_causes hpick _).1]
      rfl
  | .within root context => by
      have ih := outermost_eq_findSome?_layers hpick root
      rw [outermost] at ih
      rw [outermost, attached, causes, layers, List.findSome?_append, List.findSome?_append,
        List.findSome?_append, findSome?_texts hpick, Option.none_or, Option.or_assoc, ih]

end Search

end Raised

end ErrorContract
