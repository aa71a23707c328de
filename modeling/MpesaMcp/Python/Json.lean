import MpesaMcp.Python.Text

/-!
# `json.dumps` of strings

`dumps` writes a flat dictionary of strings with the separators `,` and `:`, in the order of its
items, with every character outside printable ASCII escaped, as `json.dumps` does by default. Two
dictionaries with the same keys are written alike only where their values are equal
(`dumps_values_injective`): an escaped string never holds a bare quote, so the end of each string
can be found, and each character is escaped in its own way.
-/

set_option autoImplicit false

namespace Python

/-- A `\u` escape of one UTF-16 unit. -/
def unicodeEscape (unit : Nat) : List Char := '\\' :: 'u' :: hex 4 unit

/-- The characters with an escape of one letter. -/
def shortEscapes : List (Char × Char) :=
  [('"', '"'), ('\\', '\\'), ('\n', 'n'), ('\r', 'r'), ('\t', 't'), ('\x0c', 'f'), ('\x08', 'b')]

/-- How one character is written inside a JSON string. -/
def escapeChar (c : Char) : List Char :=
  match shortEscapes.find? fun e => decide (e.1 = c) with
  | some e => ['\\', e.2]
  | none =>
    if 0x20 ≤ c.toNat ∧ c.toNat ≤ 0x7E then [c]
    else if c.toNat < 0x10000 then unicodeEscape c.toNat
    else
      -- a surrogate pair
      unicodeEscape (0xD800 + (c.toNat - 0x10000) / 0x400) ++
        unicodeEscape (0xDC00 + (c.toNat - 0x10000) % 0x400)

/-- A JSON string literal. -/
def quoteJson (cs : List Char) : List Char := '"' :: cs.flatMap escapeChar ++ ['"']

/-- The items of an object, each `key:value`, separated by commas. -/
def dumpItems : List (String × String) → List Char
  | [] => []
  | [(k, v)] => quoteJson k.toList ++ ':' :: quoteJson v.toList
  | (k, v) :: rest => quoteJson k.toList ++ ':' :: quoteJson v.toList ++ ',' :: dumpItems rest

/-- `json.dumps(items, separators=(",", ":"))`. -/
def dumps (items : List (String × String)) : String :=
  String.ofList ('\x7b' :: dumpItems items ++ ['\x7d'])

/-! ## Injectivity -/

theorem unicodeEscape_inj {m n : Nat} {xs ys : List Char} (hm : m < 0x10000) (hn : n < 0x10000)
    (h : unicodeEscape m ++ xs = unicodeEscape n ++ ys) : m = n ∧ xs = ys := by
  simp only [unicodeEscape, List.cons_append, List.cons.injEq, true_and] at h
  obtain ⟨hhex, hrest⟩ := List.append_inj h (by rw [length_hex, length_hex])
  have hm4 : m < 16 ^ 4 := hm
  exact ⟨hex_inj hm4 hn hhex, hrest⟩

/-- The four ways a character is written: a short escape, itself, one unit, or a surrogate pair. -/
inductive Escaped (c : Char) : List Char → Prop
  | short (l : Char) (hl : (c, l) ∈ shortEscapes) : Escaped c ['\\', l]
  | plain (hc : c ≠ '\\') (hq : c ≠ '"') : Escaped c [c]
  | unit (hc : c.toNat < 0x10000) : Escaped c (unicodeEscape c.toNat)
  | pair (hc : 0x10000 ≤ c.toNat) :
      Escaped c (unicodeEscape (0xD800 + (c.toNat - 0x10000) / 0x400) ++
        unicodeEscape (0xDC00 + (c.toNat - 0x10000) % 0x400))

theorem escaped_escapeChar (c : Char) : Escaped c (escapeChar c) := by
  unfold escapeChar
  cases hf : shortEscapes.find? fun e => decide (e.1 = c) with
  | some e =>
    have he : e.1 = c := by simpa using List.find?_some hf
    exact .short e.2 (he ▸ List.mem_of_find?_eq_some hf)
  | none =>
    have hne : ∀ e ∈ shortEscapes, e.1 ≠ c := by simpa using List.find?_eq_none.mp hf
    dsimp only
    split
    next => exact .plain (Ne.symm (hne ('\\', '\\') (by decide))) (Ne.symm (hne ('"', '"') (by decide)))
    next =>
      split
      next h => exact .unit h
      next h => exact .pair (Nat.le_of_not_lt h)

/-- The letters of the short escapes tell them apart, and none of them is the `u` of a unit. -/
theorem shortEscapes_spec : ∀ e ∈ shortEscapes, e.2 ≠ 'u' ∧
    ∀ e' ∈ shortEscapes, e.2 = e'.2 → e.1 = e'.1 := by
  decide

/-- No escaped character begins with a bare quote. -/
theorem escapeChar_ne_quote (c : Char) (xs ys : List Char) : escapeChar c ++ xs ≠ '"' :: ys := by
  have h := escaped_escapeChar c
  generalize escapeChar c = w at h
  cases h with
  | short l hl => simp
  | plain hc hq => simp [hq]
  | unit hc => simp [unicodeEscape]
  | pair hc => simp [unicodeEscape]

/-- A character is no half of a surrogate pair. -/
theorem toNat_valid (c : Char) : c.toNat < 0xD800 ∨ 0xDFFF < c.toNat ∧ c.toNat < 0x110000 :=
  c.valid

theorem toNat_inj {c c' : Char} (h : c.toNat = c'.toNat) : c = c' :=
  Char.ext (UInt32.toNat_inj.mp h)

/-- Escaped characters can be read back one at a time. -/
theorem escapeChar_inj {c c' : Char} {xs ys : List Char}
    (h : escapeChar c ++ xs = escapeChar c' ++ ys) : c = c' ∧ xs = ys := by
  have hc := escaped_escapeChar c
  have hc' := escaped_escapeChar c'
  generalize escapeChar c = w at h hc
  generalize escapeChar c' = w' at h hc'
  have hv := toNat_valid c
  have hv' := toNat_valid c'
  cases hc with
  | short l hl =>
    obtain ⟨hu, hinj⟩ := shortEscapes_spec _ hl
    cases hc' with
    | short l' hl' =>
      simp only [List.cons_append, List.nil_append, List.cons.injEq, true_and] at h
      exact ⟨hinj _ hl' h.1, h.2⟩
    | plain hb hq => simp [Ne.symm hb] at h
    | unit hu' => simp [unicodeEscape, hu] at h
    | pair hp => simp [unicodeEscape, hu] at h
  | plain hb hq =>
    cases hc' with
    | short l' hl' => simp [hb] at h
    | plain hb' hq' => simpa using h
    | unit hu => simp [unicodeEscape, hb] at h
    | pair hp => simp [unicodeEscape, hb] at h
  | unit hu =>
    cases hc' with
    | short l' hl' => simp [unicodeEscape, Ne.symm (shortEscapes_spec _ hl').1] at h
    | plain hb hq => simp [unicodeEscape, Ne.symm hb] at h
    | unit hu' =>
      obtain ⟨hn, hxs⟩ := unicodeEscape_inj hu hu' h
      exact ⟨toNat_inj hn, hxs⟩
    | pair hp =>
      rw [List.append_assoc] at h
      have hn := (unicodeEscape_inj hu (by omega) h).1
      omega
  | pair hp =>
    cases hc' with
    | short l' hl' => simp [unicodeEscape, Ne.symm (shortEscapes_spec _ hl').1] at h
    | plain hb hq => simp [unicodeEscape, Ne.symm hb] at h
    | unit hu =>
      rw [List.append_assoc] at h
      have hn := (unicodeEscape_inj (by omega) hu h).1
      omega
    | pair hp' =>
      rw [List.append_assoc, List.append_assoc] at h
      obtain ⟨hhi, h⟩ := unicodeEscape_inj (by omega) (by omega) h
      obtain ⟨hlo, hxs⟩ := unicodeEscape_inj (by omega) (by omega) h
      exact ⟨toNat_inj (by omega), hxs⟩

/-- The end of a quoted string can be found, and its content read back. -/
theorem quoteJson_inj {cs cs' xs ys : List Char}
    (h : quoteJson cs ++ xs = quoteJson cs' ++ ys) : cs = cs' ∧ xs = ys := by
  simp only [quoteJson, List.cons_append, List.append_assoc, List.nil_append, List.cons.injEq,
    true_and] at h
  -- the strings are read back a character at a time, up to the closing quote
  induction cs generalizing cs' with
  | nil =>
    cases cs' with
    | nil => simpa using h
    | cons c' cs' =>
      rw [List.flatMap_cons, List.append_assoc] at h
      exact absurd h.symm (escapeChar_ne_quote _ _ _)
  | cons c cs ih =>
    cases cs' with
    | nil =>
      rw [List.flatMap_cons, List.append_assoc] at h
      exact absurd h (escapeChar_ne_quote _ _ _)
    | cons c' cs' =>
      rw [List.flatMap_cons, List.flatMap_cons, List.append_assoc, List.append_assoc] at h
      obtain ⟨hc, hrest⟩ := escapeChar_inj h
      obtain ⟨hcs, hxs⟩ := ih hrest
      exact ⟨by rw [hc, hcs], hxs⟩

theorem dumpItems_inj {items items' : List (String × String)} {xs ys : List Char}
    (keys : items.map Prod.fst = items'.map Prod.fst)
    (h : dumpItems items ++ xs = dumpItems items' ++ ys) : items = items' ∧ xs = ys := by
  induction items generalizing items' with
  | nil =>
    cases items' with
    | nil => exact ⟨rfl, h⟩
    | cons => cases keys
  | cons item rest ih =>
    cases items' with
    | nil => cases keys
    | cons item' rest' =>
      obtain ⟨k, v⟩ := item
      obtain ⟨k', v'⟩ := item'
      obtain ⟨hk, tail⟩ := List.cons.inj keys
      cases hk
      -- the two dictionaries have the same number of items
      cases rest with
      | nil =>
        cases rest' with
        | nil =>
          simp only [dumpItems, List.append_assoc, List.cons_append, List.append_cancel_left_eq,
            List.cons.injEq, true_and] at h
          obtain ⟨hv, rfl⟩ := quoteJson_inj h
          exact ⟨by rw [String.toList_inj.mp hv], rfl⟩
        | cons => cases tail
      | cons item rest =>
        cases rest' with
        | nil => cases tail
        | cons item' rest' =>
          simp only [dumpItems, List.append_assoc, List.cons_append, List.append_cancel_left_eq,
            List.cons.injEq, true_and] at h
          obtain ⟨hv, h⟩ := quoteJson_inj h
          obtain ⟨hrest, rfl⟩ := ih tail (List.cons.inj h).2
          exact ⟨by rw [String.toList_inj.mp hv, hrest], rfl⟩

/-- **Dictionaries with the same keys are written apart where their values differ.** -/
theorem dumps_values_injective {items items' : List (String × String)}
    (keys : items.map Prod.fst = items'.map Prod.fst) (h : dumps items = dumps items') :
    items = items' := by
  have hl := String.ofList_inj.mp h
  simp only [List.cons_append, List.cons.injEq, true_and] at hl
  exact (dumpItems_inj keys hl).1

end Python
