import Mathlib.Data.List.Forall2
import MpesaMcp.Library.Keyed

/-!
# Collections compared record by record

`Paired R d d'` compares two keyed collections place by place. `Extends R d d'` says that `d'` came
from `d`: the records of `d` stand where they stood, each changed at most as `R` allows, and new ones
follow. Where `R` keeps the outcome of a test, a scan finds related records in both
(`Extends.find?`), so first matches last. `Grown R P d d'` says which records may be new.
-/

set_option autoImplicit false

namespace Library

variable {α κ : Type} {key : α → κ} {R : α → α → Prop}

/-- Related lists answer a scan alike, where related records pass the test alike. -/
theorem find?_rel {p : α → Bool} (agree : ∀ a b, R a b → p a = p b) {xs ys : List α}
    (h : List.Forall₂ R xs ys) : Option.Rel R (xs.find? p) (ys.find? p) := by
  induction h with
  | nil => exact .none
  | @cons a b xs ys hab _ ih =>
    rw [List.find?_cons, List.find?_cons, agree a b hab]
    cases p b with
    | true => exact .some hab
    | false => exact ih

/-- A pairing of an append splits. -/
theorem forall₂_append_left {xs ys zs : List α} (h : List.Forall₂ R (xs ++ ys) zs) :
    ∃ us vs, zs = us ++ vs ∧ List.Forall₂ R xs us ∧ List.Forall₂ R ys vs := by
  induction xs generalizing zs with
  | nil => exact ⟨[], zs, rfl, .nil, h⟩
  | cons x xs ih =>
    cases h with
    | cons hab hrest =>
      obtain ⟨us, vs, rfl, hus, hvs⟩ := ih hrest
      exact ⟨_ :: us, vs, rfl, .cons hab hus, hvs⟩

/-- Lists that correspond one to one compose where the relation does. -/
theorem forall₂_trans (trans : ∀ a b c, R a b → R b c → R a c) {xs ys zs : List α}
    (h : List.Forall₂ R xs ys) (h' : List.Forall₂ R ys zs) : List.Forall₂ R xs zs := by
  induction h generalizing zs with
  | nil => exact h'
  | cons hab _ ih =>
    cases h' with
    | cons hbc hrest => exact .cons (trans _ _ _ hab hbc) (ih hrest)

/-- What two lists that match a third one position by position have to do with each other. -/
theorem forall₂_over {β γ : Type} {S : α → γ → Prop} {T : β → γ → Prop} {R : α → β → Prop}
    (h : ∀ a b c, R a b → S a c → T b c) {xs : List α} {ys : List β} {zs : List γ}
    (hxy : List.Forall₂ R xs ys) (hxz : List.Forall₂ S xs zs) : List.Forall₂ T ys zs := by
  induction hxy generalizing zs with
  | nil =>
    cases hxz
    exact .nil
  | cons hab _ ih =>
    cases hxz with
    | cons hac hxz => exact .cons (h _ _ _ hab hac) (ih hxz)

/-- Each element of either list has its partner in the other. -/
theorem forall₂_mem {xs ys : List α} (h : List.Forall₂ R xs ys) :
    (∀ a ∈ xs, ∃ b ∈ ys, R a b) ∧ ∀ b ∈ ys, ∃ a ∈ xs, R a b := by
  induction h with
  | nil => exact ⟨nofun, nofun⟩
  | @cons a b xs ys hab _ ih =>
    constructor
    · intro x hx
      rcases List.mem_cons.mp hx with rfl | hx
      · exact ⟨b, List.mem_cons_self, hab⟩
      · obtain ⟨y, hy, hxy⟩ := ih.1 x hx
        exact ⟨y, List.mem_cons_of_mem _ hy, hxy⟩
    · intro y hy
      rcases List.mem_cons.mp hy with rfl | hy
      · exact ⟨a, List.mem_cons_self, hab⟩
      · obtain ⟨x, hx, hxy⟩ := ih.2 y hy
        exact ⟨x, List.mem_cons_of_mem _ hx, hxy⟩

/-- Replacing one element by a related one relates the lists. -/
theorem forall₂_replace (refl : ∀ a, R a a) {a b : α} (hab : R a b) (pre post : List α) :
    List.Forall₂ R (pre ++ a :: post) (pre ++ b :: post) := by
  induction pre with
  | nil => exact .cons hab (List.forall₂_same.mpr fun x _ => refl x)
  | cons x pre ih => exact .cons (refl x) ih

namespace Keyed

/-- The same number of records, related place by place. -/
def Paired (R : α → α → Prop) (d d' : Keyed key) : Prop := List.Forall₂ R d.values d'.values

/-- A store corresponds to itself. -/
theorem Paired.refl (refl : ∀ a, R a a) (d : Keyed key) : d.Paired R d :=
  List.forall₂_same.mpr fun a _ => refl a

/-- Scans of paired collections find related records. -/
theorem Paired.find? {p : α → Bool} (agree : ∀ a b, R a b → p a = p b) {d d' : Keyed key}
    (h : d.Paired R d') : Option.Rel R (d.values.find? p) (d'.values.find? p) :=
  find?_rel agree h

/-- The records of `d` in their places, changed as `R` allows, and new ones behind them. -/
def Extends (R : α → α → Prop) (d d' : Keyed key) : Prop :=
  ∃ changed new, d'.values = changed ++ new ∧ List.Forall₂ R d.values changed

/-- A store extends itself. -/
theorem Extends.refl (refl : ∀ a, R a a) (d : Keyed key) : d.Extends R d :=
  ⟨d.values, [], (List.append_nil _).symm, List.forall₂_same.mpr fun a _ => refl a⟩

/-- Growth composes: the records of the first are changed twice, and what the second added is changed
once and stays behind them. -/
theorem Extends.trans (trans : ∀ a b c, R a b → R b c → R a c) {d d' d'' : Keyed key}
    (h : d.Extends R d') (h' : d'.Extends R d'') : d.Extends R d'' := by
  obtain ⟨changed, new, hd', hchanged⟩ := h
  obtain ⟨changed', new', hd'', hchanged'⟩ := h'
  rw [hd'] at hchanged'
  obtain ⟨us, vs, rfl, hus, -⟩ := forall₂_append_left hchanged'
  exact ⟨us, vs ++ new', by rw [hd'', List.append_assoc], forall₂_trans trans hchanged hus⟩

/-- Changing records in their places is growth that adds none. -/
theorem Paired.extends {d d' : Keyed key} (h : d.Paired R d') : d.Extends R d' :=
  ⟨d'.values, [], (List.append_nil _).symm, h⟩

/-- Every record lasts in some form. -/
theorem Extends.mem {d d' : Keyed key} (h : d.Extends R d') {a : α} (ha : a ∈ d.values) :
    ∃ b ∈ d'.values, R a b := by
  obtain ⟨changed, new, hd', hchanged⟩ := h
  obtain ⟨b, hb, hab⟩ := (forall₂_mem hchanged).1 a ha
  exact ⟨b, by rw [hd']; exact List.mem_append_left _ hb, hab⟩

/-- A scan finds in the extension what became of its first match. -/
theorem Extends.find? {p : α → Bool} (agree : ∀ a b, R a b → p a = p b) {d d' : Keyed key}
    (h : d.Extends R d') {a : α} (found : d.values.find? p = some a) :
    ∃ b, d'.values.find? p = some b ∧ R a b := by
  obtain ⟨changed, new, hd', hchanged⟩ := h
  have hrel := find?_rel agree hchanged
  rw [found] at hrel
  cases hfound : changed.find? p with
  | none => rw [hfound] at hrel; cases hrel
  | some b =>
    rw [hfound] at hrel
    cases hrel with
    | some hab => exact ⟨b, by rw [hd', List.find?_append, hfound]; rfl, hab⟩

/-- Every record of `d'` is one of `d`, changed at most as `R` allows, or one that `P` allows. -/
def Grown (R : α → α → Prop) (P : α → Prop) (d d' : Keyed key) : Prop :=
  ∀ b ∈ d'.values, (∃ a ∈ d.values, R a b) ∨ P b

section Grown

variable {P Q : α → Prop} {d d' d'' : Keyed key}

theorem Grown.refl (refl : ∀ a, R a a) (d : Keyed key) : d.Grown R P d :=
  fun b hb => Or.inl ⟨b, hb, refl b⟩

/-- Growth with allowed additions composes where changes keep what is allowed. -/
theorem Grown.trans (trans : ∀ a b c, R a b → R b c → R a c) (stable : ∀ a b, R a b → P a → P b)
    (h : d.Grown R P d') (h' : d'.Grown R P d'') : d.Grown R P d'' := by
  intro c hc
  rcases h' c hc with ⟨b, hb, hbc⟩ | hc
  · rcases h b hb with ⟨a, ha, hab⟩ | hb
    · exact Or.inl ⟨a, ha, trans a b c hab hbc⟩
    · exact Or.inr (stable b c hbc hb)
  · exact Or.inr hc

/-- More may be allowed of what is added. -/
theorem Grown.mono (h : d.Grown R P d') (allow : ∀ a, P a → Q a) : d.Grown R Q d' :=
  fun b hb => (h b hb).imp_right (allow b)

theorem Paired.grown (h : d.Paired R d') : d.Grown R P d' :=
  fun b hb => Or.inl ((forall₂_mem h).2 b hb)

end Grown

variable [DecidableEq κ]

/-- Putting a record is growth: it replaces one in its place, or comes behind all of them. -/
theorem grown_put {P : α → Prop} (refl : ∀ a, R a a) (d : Keyed key) {a : α} (allowed : P a) :
    d.Grown R P (d.put a) := by
  intro b hb
  rcases mem_values_put.mp hb with rfl | ⟨hb, -⟩
  · exact Or.inr allowed
  · exact Or.inl ⟨b, hb, refl b⟩

/-- Every record lasts under its key. -/
theorem Extends.get (sameKey : ∀ a b, R a b → key a = key b) {d d' : Keyed key}
    (h : d.Extends R d') {k : κ} {a : α} (stored : d.get k = some a) :
    ∃ b, d'.get k = some b ∧ R a b :=
  h.find? (fun a b hab => by rw [sameKey a b hab]) stored

/-- Related records stored in paired collections leave them paired: they replace records in the same
place, or go behind all of them. -/
theorem Paired.put (sameKey : ∀ a b, R a b → key a = key b) {d d' : Keyed key}
    (h : d.Paired R d') {a b : α} (hab : R a b) : (d.put a).Paired R (d'.put b) := by
  have list : ∀ {xs ys : List α}, List.Forall₂ R xs ys →
      List.Forall₂ R (putList key a xs) (putList key b ys) := by
    intro xs ys h
    induction h with
    | nil => exact .cons hab .nil
    | @cons x y xs ys hxy hrest ih =>
      simp only [putList]
      by_cases hkey : key x = key a
      · rw [if_pos hkey, if_pos ((sameKey x y hxy).symm.trans (hkey.trans (sameKey a b hab)))]
        exact .cons hab hrest
      · rw [if_neg hkey, if_neg fun he =>
          hkey ((sameKey x y hxy).trans (he.trans (sameKey a b hab).symm))]
        exact .cons hxy ih
  exact list h

/-- Storing a new key extends a collection. -/
theorem extends_put_of_none (refl : ∀ a, R a a) {d : Keyed key} {a : α}
    (h : d.get (key a) = none) : d.Extends R (d.put a) :=
  ⟨d.values, [a], put_values_of_none h, List.forall₂_same.mpr fun a _ => refl a⟩

/-- Replacing a record as `R` allows leaves the others in their places. -/
theorem paired_put_of_some (refl : ∀ a, R a a) {d : Keyed key} {a b : α}
    (h : d.get (key b) = some a) (hab : R a b) : d.Paired R (d.put b) := by
  obtain ⟨pre, post, hsplit, hput⟩ := put_values_of_some h
  unfold Paired
  rw [hsplit, hput]
  exact forall₂_replace refl hab pre post

end Keyed

end Library
