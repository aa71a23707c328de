import Mathlib.Data.List.Basic

/-!
# Four fields joined by a separator

A record of a free text, a coded value and two more free texts is written with a separator between its
fields. The separator is not escaped, so a free text that holds it can be read in more than one way.

`joined_eq_only` says of which records the joined text names no other record: the last two texts hold
no separator, and no part of the first text behind a separator is the code of a value.
-/

set_option autoImplicit false

namespace Library

variable {α ι : Type} {sep : α}

/-! ## Parts -/

theorem intercalate_append {xs ys : List (List α)} (hxs : xs ≠ []) (hys : ys ≠ []) :
    [sep].intercalate (xs ++ ys) = [sep].intercalate xs ++ sep :: [sep].intercalate ys := by
  induction xs with
  | nil => exact absurd rfl hxs
  | cons x xs ih =>
    rw [List.cons_append, List.intercalate_cons_of_ne_nil (List.append_ne_nil_of_right_ne_nil xs hys)]
    by_cases hnil : xs = []
    · subst hnil
      simp
    · rw [ih hnil, List.intercalate_cons_of_ne_nil hnil]
      simp

/-- A text is the join of its parts, so it is determined by them. -/
theorem splitOn_injective [DecidableEq α] {xs ys : List α} (h : xs.splitOn sep = ys.splitOn sep) :
    xs = ys := by
  have hxs : [sep].intercalate (xs.splitOn sep) = xs := List.intercalate_splitOn sep
  have hys : [sep].intercalate (ys.splitOn sep) = ys := List.intercalate_splitOn sep
  rw [← hxs, h, hys]

/-- Texts with the separator behind each of them are read back, and nothing is left at the end. -/
theorem splitOn_flatMap_append [DecidableEq α] {ι : Type} {text : ι → List α}
    (free : ∀ i, sep ∉ text i) (is : List ι) :
    (is.flatMap fun i => text i ++ [sep]).splitOn sep = is.map text ++ [[]] := by
  induction is with
  | nil => rfl
  | cons i is ih =>
    rw [List.flatMap_cons, List.append_assoc, List.singleton_append,
      List.splitOn_append_cons_self_of_not_mem (free i), ih, List.map_cons, List.cons_append]

/-! ## Records -/

/-- A record: a text, a value and two texts. -/
structure Delimited (α ι : Type) where
  first : List α
  value : ι
  third : List α
  fourth : List α

namespace Delimited

variable {code : ι → List α} {x y : Delimited α ι}

/-- The text of a record. -/
def joined (sep : α) (code : ι → List α) (x : Delimited α ι) : List α :=
  x.first ++ sep :: (code x.value ++ sep :: (x.third ++ sep :: x.fourth))

/-- The record can be read back from its text. -/
structure Legible [DecidableEq α] (sep : α) (code : ι → List α) (x : Delimited α ι) : Prop where
  first : ∀ part ∈ (x.first.splitOn sep).tail, ∀ i, part ≠ code i
  third : sep ∉ x.third
  fourth : sep ∉ x.fourth

/-- Two lists of parts, the second with three at its end: they divide alike, or the first divides
earlier. -/
theorem parts_divide {xs ys rest : List (List α)} {a b c d : List α} (many : 2 ≤ rest.length)
    (h : xs ++ a :: rest = ys ++ [b, c, d]) :
    (xs = ys ∧ a = b ∧ rest = [c, d]) ∨ ∃ more, ys = xs ++ a :: more := by
  rcases List.append_eq_append_iff.mp h with ⟨mid, rfl, hmid⟩ | ⟨mid, rfl, hmid⟩
  · cases mid with
    | nil =>
      simp only [List.nil_append, List.cons.injEq] at hmid
      exact Or.inl ⟨by simp, hmid.1, hmid.2⟩
    | cons x more =>
      simp only [List.cons_append, List.cons.injEq] at hmid
      exact Or.inr ⟨more, by rw [hmid.1]⟩
  · have hlength := congrArg List.length hmid
    simp only [List.length_append, List.length_cons, List.length_nil] at hlength
    have hnil : mid = [] := List.length_eq_zero_iff.mp (by omega)
    subst hnil
    simp only [List.nil_append, List.cons.injEq] at hmid
    exact Or.inl ⟨by simp, hmid.1.symm, hmid.2.symm⟩

variable [DecidableEq α]

/-- The parts of the text of a record: its value is one part. -/
theorem splitOn_joined (rigid : ∀ i, sep ∉ code i) (x : Delimited α ι) :
    (x.joined sep code).splitOn sep = x.first.splitOn sep ++ code x.value ::
      (x.third.splitOn sep ++ x.fourth.splitOn sep) := by
  rw [joined, List.splitOn_append_cons_self, List.splitOn_append_cons_self_of_not_mem (rigid x.value),
    List.splitOn_append_cons_self]

/-- A legible record is the only one with its text. -/
theorem Legible.eq_of_joined (rigid : ∀ i, sep ∉ code i) (injective : Function.Injective code)
    (h : x.Legible sep code) (hjoined : y.joined sep code = x.joined sep code) : y = x := by
  have hparts := congrArg (List.splitOn sep) hjoined
  rw [splitOn_joined rigid, splitOn_joined rigid, List.splitOn_eq_singleton h.third,
    List.splitOn_eq_singleton h.fourth] at hparts
  have hthird := List.length_pos_of_ne_nil (List.splitOn_ne_nil sep y.third)
  have hfourth := List.length_pos_of_ne_nil (List.splitOn_ne_nil sep y.fourth)
  rcases parts_divide (by rw [List.length_append]; omega) hparts with
    ⟨hfirst, hvalue, hrest⟩ | ⟨more, hmore⟩
  · obtain ⟨part, parts, hpart⟩ := List.exists_cons_of_ne_nil (List.splitOn_ne_nil sep y.third)
    rw [hpart, List.cons_append, List.cons.injEq] at hrest
    obtain ⟨hthird', hfourth'⟩ := hrest
    have hnil : parts = [] := by
      have hlength := congrArg List.length hfourth'
      rw [List.length_append, List.length_singleton] at hlength
      exact List.length_eq_zero_iff.mp (by omega)
    subst hnil
    rw [List.nil_append, ← List.splitOn_eq_singleton h.fourth] at hfourth'
    rw [hthird', ← List.splitOn_eq_singleton h.third] at hpart
    obtain ⟨y₁, y₂, y₃, y₄⟩ := y
    obtain ⟨x₁, x₂, x₃, x₄⟩ := x
    simp only [Delimited.mk.injEq]
    exact ⟨splitOn_injective hfirst, injective hvalue, splitOn_injective hpart,
      splitOn_injective hfourth'⟩
  · -- the value of the other record would be a part of the first text
    refine absurd rfl (h.first (code y.value) ?_ y.value)
    rw [hmore]
    cases hsplit : y.first.splitOn sep with
    | nil => exact absurd hsplit (List.splitOn_ne_nil sep y.first)
    | cons part parts => simp

/-- A record that is the only one with its text is legible. -/
theorem legible_of_unique (unique : ∀ y : Delimited α ι, y.joined sep code = x.joined sep code → y = x) :
    x.Legible sep code where
  first part hpart i := by
    rintro rfl
    obtain ⟨head, parts, hsplit⟩ := List.exists_cons_of_ne_nil (List.splitOn_ne_nil sep x.first)
    rw [hsplit, List.tail_cons] at hpart
    obtain ⟨before, after, rfl⟩ := List.append_of_mem hpart
    have hfirst : x.first = [sep].intercalate ((head :: before) ++ (code i :: after)) := by
      have hback : [sep].intercalate (x.first.splitOn sep) = x.first := List.intercalate_splitOn sep
      rw [← hback, hsplit]
      rfl
    rw [intercalate_append (List.cons_ne_nil _ _) (List.cons_ne_nil _ _)] at hfirst
    -- the record whose value is that part
    have hshorter : ∀ y : Delimited α ι, y.first = [sep].intercalate (head :: before) →
        y.joined sep code ≠ x.joined sep code := by
      intro y hy hjoined
      have hlength := congrArg (fun z : Delimited α ι => z.first.length) (unique y hjoined)
      simp only [hy, hfirst, List.length_append, List.length_cons] at hlength
      omega
    by_cases hafter : after = []
    · refine hshorter ⟨[sep].intercalate (head :: before), i, code x.value,
        x.third ++ sep :: x.fourth⟩ rfl ?_
      simp [joined, hfirst, hafter]
    · refine hshorter ⟨[sep].intercalate (head :: before), i, [sep].intercalate after,
        code x.value ++ sep :: (x.third ++ sep :: x.fourth)⟩ rfl ?_
      simp [joined, hfirst, List.intercalate_cons_of_ne_nil hafter]
  third hmem := by
    obtain ⟨before, after, hthird⟩ := List.append_of_mem hmem
    have hother := unique ⟨x.first, x.value, before, after ++ sep :: x.fourth⟩ (by
      simp [joined, hthird])
    have hlength := congrArg (fun z : Delimited α ι => z.third.length) hother
    simp only [hthird, List.length_append, List.length_cons] at hlength
    omega
  fourth hmem := by
    obtain ⟨before, after, hfourth⟩ := List.append_of_mem hmem
    have hother := unique ⟨x.first, x.value, x.third ++ sep :: before, after⟩ (by
      simp [joined, hfourth])
    have hlength := congrArg (fun z : Delimited α ι => z.third.length) hother
    simp only [List.length_append, List.length_cons] at hlength
    omega

/-- **Which records their text determines.** -/
theorem joined_eq_only (rigid : ∀ i, sep ∉ code i) (injective : Function.Injective code) :
    (∀ y : Delimited α ι, y.joined sep code = x.joined sep code → y = x) ↔ x.Legible sep code :=
  ⟨legible_of_unique, fun h _ => h.eq_of_joined rigid injective⟩

end Delimited

end Library
