/-
  ErrorContract.Proofs.Lookup
  ───────────────────────────
  **WHERE NO NAME STANDS TWICE, LOOKING UP IS FINDING.**

  Attributes, members of objects and settings are all kept as pairs of a name
  and what stands for it.  If the names are distinct, the pair that is found
  under a name is the only one of that name, and the order does not matter.
-/
import Mathlib.Data.List.Perm.Basic
import Mathlib.Data.List.Nodup

namespace ErrorContract

variable {α : Type} {entries order : List (String × α)} {name : String} {value : α}

/-- The first pair is the one that is found under its name. -/
theorem lookup_cons_eq (n : String) (v : α) : ((n, v) :: entries).lookup name
    = if name = n then some v else entries.lookup name := by
  rw [List.lookup_cons]
  by_cases h : name = n
  · rw [if_pos h, h, beq_self_eq_true]
  · rw [if_neg h, beq_false_of_ne h]

/-- **Where no two pairs have one name, looking one up is finding it among them.** -/
theorem lookup_eq_some_iff_mem (h : (entries.map Prod.fst).Nodup) :
    entries.lookup name = some value ↔ (name, value) ∈ entries := by
  induction entries with
  | nil => simp
  | cons entry rest ih =>
      obtain ⟨n, v⟩ := entry
      obtain ⟨hnew, hrest⟩ := List.nodup_cons.mp h
      rw [lookup_cons_eq, List.mem_cons, Prod.mk.injEq]
      by_cases hname : name = n
      · subst hname
        -- A pair of this name further back would be a second one.
        have habsent : (name, value) ∉ rest := by
          intro hmem
          have hname : name ∈ rest.map Prod.fst := List.mem_map_of_mem hmem
          exact hnew hname
        simp [habsent, eq_comm]
      · simp only [hname, if_false, ih hrest, false_and, false_or]

/-- The order of pairs of different names does not matter to what is found. -/
theorem lookup_eq_of_perm (h : (entries.map Prod.fst).Nodup) (horder : order.Perm entries)
    (name : String) : order.lookup name = entries.lookup name := by
  have hdistinct : (order.map Prod.fst).Nodup := (horder.map Prod.fst).nodup_iff.mpr h
  apply Option.ext
  intro value
  rw [lookup_eq_some_iff_mem hdistinct, lookup_eq_some_iff_mem h, horder.mem_iff]

/-- Pairs of different names that say the same of every name are the same ones. -/
theorem perm_of_lookup_eq (hdistinct : (order.map Prod.fst).Nodup)
    (h : (entries.map Prod.fst).Nodup)
    (hlookup : ∀ name, order.lookup name = entries.lookup name) : order.Perm entries := by
  apply (List.perm_ext_iff_of_nodup (List.Nodup.of_map _ hdistinct) (List.Nodup.of_map _ h)).mpr
  intro entry
  obtain ⟨name, value⟩ := entry
  rw [← lookup_eq_some_iff_mem hdistinct, ← lookup_eq_some_iff_mem h, hlookup]

end ErrorContract
