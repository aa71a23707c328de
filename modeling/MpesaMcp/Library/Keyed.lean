import Mathlib.Data.List.Nodup

/-!
# Keyed collections in insertion order

A `Keyed key` is a list of records with pairwise distinct keys, in the order in which the keys were
first stored. It is the content of an insertion-ordered dictionary whose values carry their own key:
storing a record under a key already present replaces it where it stands, storing a new key appends.

The order matters to a client that scans the values and takes the first match, so every law of `put`
speaks of the list of values and not only of lookups: `put_values_of_none` and `put_values_of_some`
say where the new record stands, and `find?_put_of_agree` what a scan then finds.
-/

set_option autoImplicit false

namespace Library

variable {α κ : Type} {key : α → κ}

/-- Records in insertion order, no two with the same key. -/
structure Keyed (key : α → κ) where
  values : List α
  nodup : (values.map key).Nodup

namespace Keyed

/-- A store is the list of its records. -/
theorem ext {d d' : Keyed key} (h : d.values = d'.values) : d = d' := by
  cases d
  cases d'
  cases h
  rfl

/-- No records. -/
def empty : Keyed key := ⟨[], List.nodup_nil⟩

/-- Keep the records that satisfy a test. -/
def filter (d : Keyed key) (p : α → Bool) : Keyed key where
  values := d.values.filter p
  nodup := d.nodup.sublist (List.filter_sublist.map key)

@[simp] theorem values_empty : (empty : Keyed key).values = [] := rfl

@[simp] theorem values_filter (d : Keyed key) (p : α → Bool) :
    (d.filter p).values = d.values.filter p := rfl

/-- Two records of one collection with the same key are the same record. -/
theorem eq_of_key_eq (d : Keyed key) {a b : α} (ha : a ∈ d.values) (hb : b ∈ d.values)
    (h : key a = key b) : a = b :=
  List.inj_on_of_nodup_map d.nodup ha hb h

end Keyed

variable [DecidableEq κ]

/-- Replace the record with the same key where it stands, or append the record. -/
def putList (key : α → κ) (a : α) : List α → List α
  | [] => [a]
  | b :: rest => if key b = key a then a :: rest else b :: putList key a rest

/-- A new key goes to the end. -/
theorem putList_of_not_mem {a : α} {xs : List α} (h : key a ∉ xs.map key) :
    putList key a xs = xs ++ [a] := by
  induction xs with
  | nil => rfl
  | cons b rest ih =>
    simp only [List.map_cons, List.mem_cons, not_or] at h
    simp only [putList, if_neg (Ne.symm h.1), ih h.2, List.cons_append]

/-- Where the key is present, the list splits at its record and only that record changes. -/
theorem putList_of_mem {a : α} {xs : List α} (h : key a ∈ xs.map key) :
    ∃ pre b post, xs = pre ++ b :: post ∧ key b = key a ∧ putList key a xs = pre ++ a :: post := by
  induction xs with
  | nil => cases h
  | cons c rest ih =>
    by_cases hc : key c = key a
    · exact ⟨[], c, rest, rfl, hc, by simp only [putList, if_pos hc, List.nil_append]⟩
    · have hrest : key a ∈ rest.map key := by
        rcases List.mem_cons.mp h with h | h
        · exact absurd h.symm hc
        · exact h
      obtain ⟨pre, b, post, rfl, hb, hput⟩ := ih hrest
      exact ⟨c :: pre, b, post, rfl, hb, by simp only [putList, if_neg hc, hput, List.cons_append]⟩

/-- The keys after a `put`: unchanged where the key is present, one more at the end otherwise. -/
theorem map_key_putList (a : α) (xs : List α) :
    (putList key a xs).map key =
      if key a ∈ xs.map key then xs.map key else xs.map key ++ [key a] := by
  by_cases h : key a ∈ xs.map key
  · obtain ⟨pre, b, post, rfl, hb, hput⟩ := putList_of_mem h
    rw [if_pos h, hput]
    simp only [List.map_append, List.map_cons, hb]
  · simp only [if_neg h, putList_of_not_mem h, List.map_append, List.map_cons, List.map_nil]

namespace Keyed

/-- The record stored under a key. -/
def get (d : Keyed key) (k : κ) : Option α := d.values.find? (fun a => decide (key a = k))

/-- Store a record under its own key. -/
def put (d : Keyed key) (a : α) : Keyed key where
  values := putList key a d.values
  nodup := by
    rw [map_key_putList]
    split
    next => exact d.nodup
    next h => exact List.Nodup.append d.nodup (List.nodup_singleton _) (by simpa using h)

@[simp] theorem get_empty (k : κ) : (empty : Keyed key).get k = none := rfl

/-- What is found under a key carries it. -/
theorem key_of_get {d : Keyed key} {k : κ} {a : α} (h : d.get k = some a) : key a = k := by
  simpa using List.find?_some h

theorem mem_of_get {d : Keyed key} {k : κ} {a : α} (h : d.get k = some a) : a ∈ d.values :=
  List.mem_of_find?_eq_some h

/-- A lookup finds exactly the stored record with that key. -/
theorem get_eq_some_iff {d : Keyed key} {k : κ} {a : α} :
    d.get k = some a ↔ a ∈ d.values ∧ key a = k := by
  refine ⟨fun h => ⟨mem_of_get h, key_of_get h⟩, fun ⟨hmem, hk⟩ => ?_⟩
  cases hf : d.get k with
  | none =>
    have := List.find?_eq_none.mp hf a hmem
    simp [hk] at this
  | some b =>
    have hb := d.eq_of_key_eq (mem_of_get hf) hmem ((key_of_get hf).trans hk.symm)
    rw [hb]

/-- Nothing is found under a key exactly where no record carries it. -/
theorem get_eq_none_iff {d : Keyed key} {k : κ} : d.get k = none ↔ ∀ a ∈ d.values, key a ≠ k := by
  simp [get, List.find?_eq_none]

/-- A record is stored exactly where it is found under its own key, since no two records share one. -/
theorem mem_values_iff {d : Keyed key} {a : α} : a ∈ d.values ↔ d.get (key a) = some a := by
  simp [get_eq_some_iff]

/-- Storing a new key appends the record. -/
theorem put_values_of_none {d : Keyed key} {a : α} (h : d.get (key a) = none) :
    (d.put a).values = d.values ++ [a] := by
  refine putList_of_not_mem fun hmem => ?_
  obtain ⟨b, hb, hk⟩ := List.mem_map.mp hmem
  exact get_eq_none_iff.mp h b hb hk

/-- Storing a present key replaces the record where it stands. -/
theorem put_values_of_some {d : Keyed key} {a b : α} (h : d.get (key a) = some b) :
    ∃ pre post, d.values = pre ++ b :: post ∧ (d.put a).values = pre ++ a :: post := by
  have hmem : key a ∈ d.values.map key :=
    List.mem_map.mpr ⟨b, mem_of_get h, key_of_get h⟩
  obtain ⟨pre, c, post, hsplit, hc, hput⟩ := putList_of_mem hmem
  have hcb : c = b := d.eq_of_key_eq (hsplit ▸ by simp) (mem_of_get h) (hc.trans (key_of_get h).symm)
  exact ⟨pre, post, hcb ▸ hsplit, hput⟩

/-- What was put is found under its key. -/
@[simp] theorem get_put_self (d : Keyed key) (a : α) : (d.put a).get (key a) = some a := by
  refine get_eq_some_iff.mpr ⟨?_, rfl⟩
  cases h : d.get (key a) with
  | none => simp [put_values_of_none h]
  | some b =>
    obtain ⟨pre, post, -, hput⟩ := put_values_of_some h
    simp [hput]

theorem get_put_of_eq (d : Keyed key) {a : α} {k : κ} (h : key a = k) :
    (d.put a).get k = some a := h ▸ get_put_self d a

/-- Every other key keeps what it had, whether the record put was new or replaced one. -/
theorem get_put_of_ne (d : Keyed key) {a : α} {k : κ} (h : k ≠ key a) :
    (d.put a).get k = d.get k := by
  have hd : decide (key a = k) = false := by simpa using Ne.symm h
  cases ha : d.get (key a) with
  | none => simp [get, put_values_of_none ha, List.find?_append, hd]
  | some b =>
    obtain ⟨pre, post, hsplit, hput⟩ := put_values_of_some ha
    have hb : decide (key b = k) = false := by simpa [key_of_get ha] using Ne.symm h
    simp [get, hput, hsplit, List.find?_append, hd, hb]

/-- Every lookup after a `put`. -/
theorem get_put (d : Keyed key) (a : α) (k : κ) :
    (d.put a).get k = if k = key a then some a else d.get k := by
  split
  next h => exact get_put_of_eq d h.symm
  next h => exact get_put_of_ne d h

/-- The records after a `put` are the new one and the old ones with another key. -/
theorem mem_values_put {d : Keyed key} {a b : α} :
    b ∈ (d.put a).values ↔ b = a ∨ (b ∈ d.values ∧ key b ≠ key a) := by
  rw [mem_values_iff, get_put]
  constructor
  · intro h
    split at h
    next => exact Or.inl (Option.some.inj h).symm
    next hne => exact Or.inr ⟨mem_of_get h, hne⟩
  · rintro (rfl | ⟨hmem, hne⟩)
    · rw [if_pos rfl]
    · rw [if_neg hne]
      exact mem_values_iff.mp hmem

/-- A scan after storing a new key: the old answer, or the new record where nothing matched. -/
theorem find?_put_of_none {d : Keyed key} {a : α} (h : d.get (key a) = none) (p : α → Bool) :
    (d.put a).values.find? p = (d.values.find? p).or (if p a then some a else none) := by
  rw [put_values_of_none h, List.find?_append]
  congr 1
  cases hp : p a <;> simp [hp]

/-- A scan after replacing a record by one the test does not tell apart from it: the same place of
the order answers, with the new record where it is the replaced one. -/
theorem find?_put_of_agree {d : Keyed key} {a b : α} (h : d.get (key a) = some b) {p : α → Bool}
    (agree : p a = p b) :
    (d.put a).values.find? p =
      (d.values.find? p).map (fun x => if key x = key a then a else x) := by
  obtain ⟨pre, post, hsplit, hput⟩ := put_values_of_some h
  have hnd : ((pre ++ b :: post).map key).Nodup := hsplit ▸ d.nodup
  have hkey := key_of_get h
  simp only [List.map_append, List.map_cons, List.nodup_append, List.nodup_cons, List.mem_cons,
    List.mem_map, forall_exists_index, and_imp] at hnd
  -- the other records keep their keys apart from the replaced one
  have hpre : ∀ x ∈ pre, key x ≠ key a := fun x hx he =>
    hnd.2.2 _ x hx rfl _ (Or.inl rfl) (he.trans hkey.symm)
  have hpost : ∀ x ∈ post, key x ≠ key a := fun x hx he =>
    hnd.2.1.1 ⟨x, hx, he.trans hkey.symm⟩
  have same : ∀ xs : List α, (∀ x ∈ xs, key x ≠ key a) →
      (xs.find? p).map (fun x => if key x = key a then a else x) = xs.find? p := by
    intro xs hxs
    cases hf : xs.find? p with
    | none => rfl
    | some x => simp [hxs x (List.mem_of_find?_eq_some hf)]
  rw [hput, hsplit, List.find?_append, List.find?_append, List.find?_cons, List.find?_cons, agree]
  have hpre' := same pre hpre
  cases hf : pre.find? p with
  | some x => simpa [hf] using hpre'.symm
  | none =>
    cases hb : p b with
    | true => simp [hkey]
    | false => simpa using (same post hpost).symm

/-- A filter keeps what satisfies it under its key. -/
theorem get_filter {d : Keyed key} {p : α → Bool} {k : κ} {a : α} :
    (d.filter p).get k = some a ↔ d.get k = some a ∧ p a = true := by
  simp only [get_eq_some_iff, values_filter, List.mem_filter]
  tauto

end Keyed

end Library
