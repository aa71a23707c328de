import Mathlib.Data.List.Sort
import MpesaMcp.Library.Keyed

/-!
# Collections up to order and up to a projection

Two stores may hold the same records in different orders, and each may stamp its records with fields
the other does not share. They are then compared by the images of their records under a projection
`f` that drops those fields, as permutations of each other: `(xs.map f).Perm (ys.map f)`.

The lemmas say what a client reads from two such lists: the same first match where only one record
can match (`map_find?_of_perm`), permutations of each other after a filter (`map_filter_of_perm`),
and the same list after a sort that tells the records apart (`map_mergeSort_of_perm`). Storing
records with the same image keeps the two lists so related (`Keyed.map_put_of_perm`).
-/

set_option autoImplicit false

namespace Library

variable {α β κ : Type}

/-! ## Reading -/

/-- Where at most one element matches, the order in which a scan meets the elements is open. -/
theorem find?_of_perm {us vs : List β} {q : β → Bool} (h : us.Perm vs)
    (unique : ∀ u ∈ us, ∀ v ∈ us, q u → q v → u = v) : us.find? q = vs.find? q := by
  cases hu : us.find? q with
  | none =>
    refine (List.find?_eq_none.mpr fun v hv => ?_).symm
    exact List.find?_eq_none.mp hu v (h.mem_iff.mpr hv)
  | some u =>
    have hmem : u ∈ us := List.mem_of_find?_eq_some hu
    have hmatch : q u := List.find?_some hu
    cases hv : vs.find? q with
    | none => exact absurd hmatch (List.find?_eq_none.mp hv u (h.mem_iff.mp hmem))
    | some v =>
      have hmem' : v ∈ us := h.mem_iff.mpr (List.mem_of_find?_eq_some hv)
      rw [unique u hmem v hmem' hmatch (List.find?_some hv)]

section Projection

variable {xs ys : List α} {f : α → β}

/-- The first match of a test that the projection decides, where it is the only one. -/
theorem map_find?_of_perm {q : β → Bool} (h : (xs.map f).Perm (ys.map f))
    (unique : ∀ x ∈ ys, ∀ y ∈ ys, q (f x) → q (f y) → f x = f y) :
    (xs.find? (q ∘ f)).map f = (ys.find? (q ∘ f)).map f := by
  rw [← List.find?_map, ← List.find?_map]
  refine (find?_of_perm h.symm fun u hu v hv => ?_).symm
  obtain ⟨x, hx, rfl⟩ := List.mem_map.mp hu
  obtain ⟨y, hy, rfl⟩ := List.mem_map.mp hv
  exact unique x hx y hy

/-- The records that satisfy a test the projection decides. -/
theorem map_filter_of_perm (q : β → Bool) (h : (xs.map f).Perm (ys.map f)) :
    ((xs.filter (q ∘ f)).map f).Perm ((ys.filter (q ∘ f)).map f) := by
  rw [← List.filter_map, ← List.filter_map]
  exact h.filter q

/-- Sorting leaves one order open only between elements that are below each other. -/
theorem mergeSort_of_perm {r : β → β → Bool} {us vs : List β}
    (trans : ∀ a b c, r a b → r b c → r a c) (total : ∀ a b, r a b || r b a)
    (antisymm : ∀ u ∈ us, ∀ v ∈ us, r u v → r v u → u = v) (h : us.Perm vs) :
    us.mergeSort r = vs.mergeSort r := by
  refine List.Perm.eq_of_pairwise ?_ (List.pairwise_mergeSort trans total us)
    (List.pairwise_mergeSort trans total vs) ?_
  · intro u v hu hv
    refine antisymm u (List.mem_mergeSort.mp hu) v (h.mem_iff.mpr (List.mem_mergeSort.mp hv))
  · exact (List.mergeSort_perm us r).trans (h.trans (List.mergeSort_perm vs r).symm)

/-- Two lists sorted by what the projection keeps. -/
theorem map_mergeSort_of_perm {r : β → β → Bool}
    (trans : ∀ a b c, r a b → r b c → r a c) (total : ∀ a b, r a b || r b a)
    (antisymm : ∀ x ∈ ys, ∀ y ∈ ys, r (f x) (f y) → r (f y) (f x) → f x = f y)
    (h : (xs.map f).Perm (ys.map f)) :
    (xs.mergeSort fun x y => r (f x) (f y)).map f =
      (ys.mergeSort fun x y => r (f x) (f y)).map f := by
  have image : ∀ zs : List α,
      (zs.mergeSort fun x y => r (f x) (f y)).map f = (zs.map f).mergeSort r := fun zs =>
    List.map_mergeSort fun _ _ _ _ => rfl
  rw [image, image]
  refine (mergeSort_of_perm trans total (fun u hu v hv => ?_) h.symm).symm
  obtain ⟨x, hx, rfl⟩ := List.mem_map.mp hu
  obtain ⟨y, hy, rfl⟩ := List.mem_map.mp hv
  exact antisymm x hx y hy

end Projection

/-! ## Storing -/

namespace Keyed

variable {key : α → κ} {f : α → β} {k : β → κ}

/-- The records in another order. -/
def arrange (d : Keyed key) (values : List α) (h : values.Perm d.values) : Keyed key where
  values := values
  nodup := (h.map key).nodup_iff.mpr d.nodup

/-- Records have different images, where the projection keeps the key. -/
theorem nodup_map (hk : ∀ a, k (f a) = key a) (d : Keyed key) : (d.values.map f).Nodup := by
  refine List.Nodup.of_map k ?_
  rw [List.map_map, show k ∘ f = key from funext hk]
  exact d.nodup

variable [DecidableEq κ]

/-- The images of the records after a `put`, where the projection keeps the key. -/
theorem mem_map_put (hk : ∀ a, k (f a) = key a) {d : Keyed key} {a : α} {b : β} :
    b ∈ (d.put a).values.map f ↔ b = f a ∨ (b ∈ d.values.map f ∧ k b ≠ k (f a)) := by
  constructor
  · intro h
    obtain ⟨c, hc, rfl⟩ := List.mem_map.mp h
    rcases mem_values_put.mp hc with rfl | ⟨hc, hne⟩
    · exact Or.inl rfl
    · refine Or.inr ⟨List.mem_map_of_mem hc, ?_⟩
      rw [hk, hk]
      exact hne
  · rintro (rfl | ⟨h, hne⟩)
    · exact List.mem_map_of_mem (mem_values_put.mpr (Or.inl rfl))
    · obtain ⟨c, hc, rfl⟩ := List.mem_map.mp h
      rw [hk, hk] at hne
      exact List.mem_map_of_mem (mem_values_put.mpr (Or.inr ⟨hc, hne⟩))

/-- Storing two records with one image keeps two collections equal up to order and projection. -/
theorem map_put_of_perm (hk : ∀ a, k (f a) = key a) {d d' : Keyed key} {a b : α}
    (image : f a = f b) (h : (d.values.map f).Perm (d'.values.map f)) :
    ((d.put a).values.map f).Perm ((d'.put b).values.map f) := by
  refine (List.perm_ext_iff_of_nodup (nodup_map hk _) (nodup_map hk _)).mpr fun c => ?_
  rw [mem_map_put hk, mem_map_put hk, image, h.mem_iff]

end Keyed

end Library
