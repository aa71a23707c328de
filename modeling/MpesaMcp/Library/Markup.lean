import Mathlib.Tactic.SplitIfs

/-!
# Markup and escaped text

An `Escapes` writes some characters as codes that begin with a mark, itself one of them, so that what is
written can be read back (`decode_escape`). A document is a list of tokens: text, and tags with quoted
attributes. `write` writes them with their texts escaped, and `scan` reads characters one at a time, in
the states of a tokenizer.

`scan_write` is the round trip: what is read is what was written, up to adjacent texts, which are one
text for a reader (`merge`). So no text that is written ever becomes a tag, or ends an attribute.
-/

set_option autoImplicit false

namespace Library

/-! ## Escaped text -/

/-- Codes for some characters. -/
structure Escapes where
  /-- What begins every code. -/
  mark : Char
  codes : List (Char × List Char)
  marked : ∀ e ∈ codes, ∃ code, e.2 = mark :: code
  /-- The mark is written as a code itself. -/
  escaped : ∃ e ∈ codes, e.1 = mark
  prefixFree : ∀ e ∈ codes, ∀ e' ∈ codes, e.2 <+: e'.2 → e = e'

namespace Escapes

variable (esc : Escapes)

/-- How one character is written. -/
def writeChar (c : Char) : List Char :=
  match esc.codes.find? fun e => decide (e.1 = c) with
  | some e => e.2
  | none => [c]

/-- How a text is written. -/
def escape (cs : List Char) : List Char := cs.flatMap esc.writeChar

/-- Read a text, past so many characters of a code that was read already. -/
def decodeFrom : Nat → List Char → List Char
  | _, [] => []
  | n + 1, _ :: cs => decodeFrom n cs
  | 0, c :: cs =>
    match esc.codes.find? fun e => e.2.isPrefixOf (c :: cs) with
    | some e => e.1 :: decodeFrom (e.2.length - 1) cs
    | none => c :: decodeFrom 0 cs

/-- Read a text. -/
def decode (cs : List Char) : List Char := esc.decodeFrom 0 cs

/-- Skipping past a written character leaves what follows it. -/
theorem decodeFrom_append (skipped cs : List Char) :
    esc.decodeFrom skipped.length (skipped ++ cs) = esc.decodeFrom 0 cs := by
  induction skipped with
  | nil => rfl
  | cons c skipped ih => exact ih

/-- A character is itself, or a code that no other code begins. This is what makes decoding from left
to right possible. -/
theorem writeChar_cases (c : Char) :
    (c ≠ esc.mark ∧ esc.writeChar c = [c] ∧ ∀ e ∈ esc.codes, e.1 ≠ c) ∨
      ∃ code, (c, esc.mark :: code) ∈ esc.codes ∧ esc.writeChar c = esc.mark :: code := by
  unfold writeChar
  cases hfind : esc.codes.find? fun e => decide (e.1 = c) with
  | none =>
    have hnone : ∀ e ∈ esc.codes, e.1 ≠ c := by simpa using List.find?_eq_none.mp hfind
    refine Or.inl ⟨?_, rfl, hnone⟩
    rintro rfl
    obtain ⟨e, he, hmark⟩ := esc.escaped
    exact hnone e he hmark
  | some e =>
    have he : e ∈ esc.codes := List.mem_of_find?_eq_some hfind
    have hc : e.1 = c := by simpa using List.find?_some hfind
    obtain ⟨code, hcode⟩ := esc.marked e he
    refine Or.inr ⟨code, ?_, hcode⟩
    rw [← hcode, ← hc]
    exact he

/-- A written character is decoded as itself: an escape is recognised before anything else is tried. -/
theorem decode_writeChar (c : Char) (cs : List Char) :
    esc.decode (esc.writeChar c ++ cs) = c :: esc.decode cs := by
  rcases esc.writeChar_cases c with ⟨hmark, hwrite, -⟩ | ⟨code, hcode, hwrite⟩
  · have hnone : (esc.codes.find? fun e => e.2.isPrefixOf (c :: cs)) = none := by
      apply List.find?_eq_none.mpr
      intro e he
      obtain ⟨code, hcode⟩ := esc.marked e he
      simp [hcode, Ne.symm hmark]
    simp only [hwrite, List.cons_append, List.nil_append, decode, decodeFrom, hnone]
  · have hsome : (esc.codes.find? fun e => e.2.isPrefixOf (esc.mark :: (code ++ cs))) =
        some (c, esc.mark :: code) := by
      cases hfind : esc.codes.find? fun e => e.2.isPrefixOf (esc.mark :: (code ++ cs)) with
      | none =>
        have hnone := List.find?_eq_none.mp hfind _ hcode
        simp at hnone
      | some e =>
        have he : e ∈ esc.codes := List.mem_of_find?_eq_some hfind
        have hprefix : e.2 <+: esc.mark :: (code ++ cs) := by simpa using List.find?_some hfind
        have hown : esc.mark :: code <+: esc.mark :: (code ++ cs) := ⟨cs, by simp⟩
        rcases List.prefix_or_prefix_of_prefix hprefix hown with hle | hle
        · rw [esc.prefixFree e he _ hcode hle]
        · rw [esc.prefixFree _ hcode e he hle]
    simp only [hwrite, List.cons_append, decode, decodeFrom, hsome, List.length_cons,
      Nat.add_sub_cancel]
    rw [esc.decodeFrom_append]

/-- **What is escaped is read back.** -/
@[simp] theorem decode_escape (cs : List Char) : esc.decode (esc.escape cs) = cs := by
  induction cs with
  | nil => rfl
  | cons c cs ih =>
    show esc.decode (esc.writeChar c ++ esc.escape cs) = c :: cs
    rw [decode_writeChar, ih]

@[simp] theorem escape_nil : esc.escape [] = [] := rfl

/-- Texts are escaped character by character. -/
theorem escape_append (xs ys : List Char) : esc.escape (xs ++ ys) = esc.escape xs ++ esc.escape ys :=
  List.flatMap_append

/-- Escaping writes something for every character. -/
@[simp] theorem escape_eq_nil {cs : List Char} : esc.escape cs = [] ↔ cs = [] := by
  constructor
  · intro h
    rw [← esc.decode_escape cs, h]
    rfl
  · rintro rfl
    rfl

/-- A character with a code is in no escaped text, where no code holds it. -/
theorem not_mem_escape {c : Char} (coded : ∃ e ∈ esc.codes, e.1 = c) (absent : ∀ e ∈ esc.codes, c ∉ e.2)
    (cs : List Char) : c ∉ esc.escape cs := by
  intro hmem
  obtain ⟨d, -, hd⟩ := List.mem_flatMap.mp hmem
  rcases esc.writeChar_cases d with ⟨-, hwrite, hnone⟩ | ⟨code, hcode, hwrite⟩
  · rw [hwrite, List.mem_singleton] at hd
    obtain ⟨e, he, hc⟩ := coded
    exact hnone e he (hc.trans hd)
  · rw [hwrite] at hd
    exact absent _ hcode hd

end Escapes

/-! ## Tokens -/

/-- What a document is made of. -/
inductive Token
  | text (content : List Char)
  | opening (name : List Char) (attributes : List (List Char × List Char))
  | closing (name : List Char)
deriving DecidableEq, Repr

/-- A character of a name. -/
def IsNameChar (c : Char) : Bool := c.isAlphanum || c == '-'

/-- A name of a tag or an attribute. -/
structure PlainName (name : List Char) : Prop where
  first : ∃ c rest, name = c :: rest ∧ c.isAlpha = true
  chars : ∀ c ∈ name, IsNameChar c = true

/-- A plain name starts with a letter and goes on with characters of names; so it can be decided. -/
theorem plainName_iff {name : List Char} :
    PlainName name ↔ name.head?.any Char.isAlpha = true ∧ name.all IsNameChar = true := by
  rw [List.all_eq_true]
  constructor
  · rintro ⟨⟨c, rest, rfl, hfirst⟩, hchars⟩
    exact ⟨hfirst, hchars⟩
  · rintro ⟨hfirst, hchars⟩
    cases name with
    | nil => cases hfirst
    | cons c rest => exact ⟨⟨c, rest, rfl, hfirst⟩, hchars⟩

instance (name : List Char) : Decidable (PlainName name) := decidable_of_iff _ plainName_iff.symm

namespace Token

/-- The names of the token are plain. -/
def Plain : Token → Prop
  | text _ => True
  | opening name attributes => PlainName name ∧ ∀ a ∈ attributes, PlainName a.1
  | closing name => PlainName name

instance (token : Token) : Decidable token.Plain :=
  match token with
  | text _ => isTrue trivial
  | opening name attributes =>
    decidable_of_iff (PlainName name ∧ (attributes.all fun a => decide (PlainName a.1)) = true)
      (and_congr_right fun _ => by simp)
  | closing name => inferInstanceAs (Decidable (PlainName name))

/-- The tokens of a list are plain where all of them test so. -/
theorem plain_of_all {tokens : List Token}
    (h : (tokens.all fun token => decide token.Plain) = true) : ∀ token ∈ tokens, token.Plain := by
  simpa using h

variable (esc : Escapes)

/-- An attribute, after the blank in front of it. -/
def writeAttribute (a : List Char × List Char) : List Char :=
  ' ' :: a.1 ++ '=' :: '"' :: esc.escape a.2 ++ ['"']

/-- How a token is written. -/
def write : Token → List Char
  | text content => esc.escape content
  | opening name attributes => '<' :: name ++ attributes.flatMap (writeAttribute esc) ++ ['>']
  | closing name => '<' :: '/' :: name ++ ['>']

end Token

/-- How a document is written. -/
def writeTokens (esc : Escapes) (tokens : List Token) : List Char := tokens.flatMap (Token.write esc)

/-- A text in front of tokens, one with the text they may begin with. -/
def joinText (content : List Char) : List Token → List Token
  | .text later :: tokens => .text (content ++ later) :: tokens
  | tokens => if content = [] then tokens else .text content :: tokens

/-- The tokens with adjacent texts joined, and without empty ones. -/
def merge : List Token → List Token
  | [] => []
  | .text content :: tokens => joinText content (merge tokens)
  | token :: tokens => token :: merge tokens

theorem joinText_nil (tokens : List Token) : joinText [] tokens = tokens := by
  unfold joinText
  split <;> simp

/-- Texts in a row are one text. -/
theorem joinText_joinText (xs ys : List Char) (tokens : List Token) :
    joinText xs (joinText ys tokens) = joinText (xs ++ ys) tokens := by
  by_cases hys : ys = []
  · rw [hys, joinText_nil, List.append_nil]
  · cases tokens with
    | nil => simp [joinText, hys]
    | cons token tokens => cases token <;> simp [joinText, hys]

/-! ## What a reader sees -/

/-- The token is a tag. -/
def Token.isTag : Token → Bool
  | text _ => false
  | _ => true

/-- The text in front of the first tag. -/
def leadingText : List Token → List Char
  | .text content :: tokens => content ++ leadingText tokens
  | _ => []

/-- The texts right after the tags of this name. -/
def contents (name : List Char) : List Token → List (List Char)
  | [] => []
  | .opening other _ :: tokens =>
    if other = name then leadingText tokens :: contents name tokens else contents name tokens
  | _ :: tokens => contents name tokens

/-- The values of the attributes of this name. -/
def values (key : List Char) (tokens : List Token) : List (List Char) :=
  tokens.flatMap fun
    | .opening _ attributes => (attributes.filter fun a => decide (a.1 = key)).map Prod.snd
    | _ => []

/-- Joining texts changes no tag. -/
theorem filter_joinText (content : List Char) (tokens : List Token) :
    (joinText content tokens).filter Token.isTag = tokens.filter Token.isTag := by
  unfold joinText
  split
  next => rfl
  next => split_ifs <;> rfl

/-- Joining texts touches no tag. -/
theorem filter_merge (tokens : List Token) :
    (merge tokens).filter Token.isTag = tokens.filter Token.isTag := by
  induction tokens with
  | nil => rfl
  | cons token tokens ih =>
    cases token with
    | text content => exact (filter_joinText content (merge tokens)).trans ih
    | opening name attributes => exact congrArg (Token.opening name attributes :: ·) ih
    | closing name => exact congrArg (Token.closing name :: ·) ih

/-- The leading text grows by what is joined in front. -/
theorem leadingText_joinText (content : List Char) (tokens : List Token) :
    leadingText (joinText content tokens) = content ++ leadingText tokens := by
  cases tokens with
  | nil =>
    unfold joinText
    split_ifs with h
    · rw [h]
      rfl
    · rfl
  | cons token tokens =>
    cases token with
    | text later => exact List.append_assoc ..
    | opening name attributes =>
      unfold joinText
      split_ifs with h
      · rw [h]
        rfl
      · rfl
    | closing name =>
      unfold joinText
      split_ifs with h
      · rw [h]
        rfl
      · rfl

/-- Merging the texts of a page keeps the one it starts with. -/
theorem leadingText_merge (tokens : List Token) : leadingText (merge tokens) = leadingText tokens := by
  induction tokens with
  | nil => rfl
  | cons token tokens ih =>
    cases token with
    | text content =>
      rw [merge, leadingText_joinText, ih]
      rfl
    | opening name attributes => rfl
    | closing name => rfl

/-- What elements hold is not changed by text in front of them. -/
theorem contents_joinText (name content : List Char) (tokens : List Token) :
    contents name (joinText content tokens) = contents name tokens := by
  unfold joinText
  split
  next => rfl
  next => split_ifs <;> rfl

/-- Joining texts changes the text after no tag. -/
theorem contents_merge (name : List Char) (tokens : List Token) :
    contents name (merge tokens) = contents name tokens := by
  induction tokens with
  | nil => rfl
  | cons token tokens ih =>
    cases token with
    | text content => exact (contents_joinText name content (merge tokens)).trans ih
    | opening other attributes => simp only [merge, contents, ih, leadingText_merge]
    | closing other => exact ih

/-- Attributes are in tags. -/
theorem values_filter (key : List Char) (tokens : List Token) :
    values key (tokens.filter Token.isTag) = values key tokens := by
  induction tokens with
  | nil => rfl
  | cons token tokens ih =>
    cases token with
    | text content => exact ih
    | opening name attributes => exact congrArg (_ ++ ·) ih
    | closing name => exact ih

/-- Merging texts changes no attribute. -/
theorem values_merge (key : List Char) (tokens : List Token) :
    values key (merge tokens) = values key tokens := by
  rw [← values_filter key (merge tokens), filter_merge, values_filter]

/-! ## Reading -/

/-- Where a reader stands. -/
inductive Scanner
  /-- In a text, this much of which was read. -/
  | content (raw : List Char)
  /-- After `<`. -/
  | bracket
  | opening (name : List Char)
  | closing (name : List Char)
  /-- In a tag, after a blank. -/
  | inside (name : List Char) (attributes : List (List Char × List Char))
  | attribute (name : List Char) (attributes : List (List Char × List Char)) (key : List Char)
  /-- After `=`. -/
  | equals (name : List Char) (attributes : List (List Char × List Char)) (key : List Char)
  | quoted (name : List Char) (attributes : List (List Char × List Char)) (key raw : List Char)
  /-- After the quote that ends a value. -/
  | valued (name : List Char) (attributes : List (List Char × List Char))

variable (esc : Escapes)

/-- A text that was read, where there is one. -/
def textOf (raw : List Char) (tokens : List Token) : List Token :=
  if raw = [] then tokens else .text (esc.decode raw) :: tokens

/-- Read a document; a tag of another form is not read. -/
def scan : Scanner → List Char → Option (List Token)
  | .content raw, [] => some (textOf esc raw [])
  | _, [] => none
  | .content raw, c :: cs =>
    if c = '<' then (textOf esc raw) <$> scan .bracket cs else scan (.content (raw ++ [c])) cs
  | .bracket, c :: cs =>
    if c = '/' then scan (.closing []) cs
    else if c.isAlpha then scan (.opening [c]) cs else none
  | .opening name, c :: cs =>
    if c = '>' then (Token.opening name [] :: ·) <$> scan (.content []) cs
    else if c = ' ' then scan (.inside name []) cs
    else if IsNameChar c then scan (.opening (name ++ [c])) cs else none
  | .closing name, c :: cs =>
    if c = '>' then (Token.closing name :: ·) <$> scan (.content []) cs
    else if IsNameChar c then scan (.closing (name ++ [c])) cs else none
  | .inside name attributes, c :: cs =>
    if IsNameChar c then scan (.attribute name attributes [c]) cs else none
  | .attribute name attributes key, c :: cs =>
    if c = '=' then scan (.equals name attributes key) cs
    else if IsNameChar c then scan (.attribute name attributes (key ++ [c])) cs else none
  | .equals name attributes key, c :: cs =>
    if c = '"' then scan (.quoted name attributes key []) cs else none
  | .quoted name attributes key raw, c :: cs =>
    if c = '"' then scan (.valued name (attributes ++ [(key, esc.decode raw)])) cs
    else scan (.quoted name attributes key (raw ++ [c])) cs
  | .valued name attributes, c :: cs =>
    if c = '>' then (Token.opening name attributes :: ·) <$> scan (.content []) cs
    else if c = ' ' then scan (.inside name attributes) cs else none

-- the lemmas below all read the equations of the reader
attribute [local simp] scan

/-! ## The round trip -/

section RoundTrip

variable {esc}

/-- The scanner collects text until a tag opens. -/
theorem scan_content {raw later : List Char} (hlt : '<' ∉ later) (cs : List Char) :
    scan esc (.content raw) (later ++ cs) = scan esc (.content (raw ++ later)) cs := by
  induction later generalizing raw with
  | nil => simp
  | cons c later ih =>
    have hc : c ≠ '<' := fun h => hlt (h ▸ List.mem_cons_self)
    have hlater : '<' ∉ later := fun h => hlt (List.mem_cons_of_mem _ h)
    rw [List.cons_append, scan, if_neg hc, ih hlater, List.append_assoc]
    rfl

theorem isNameChar_ne {c d : Char} (h : IsNameChar c = true) (hd : IsNameChar d = false) : c ≠ d := by
  rintro rfl
  rw [h] at hd
  cases hd

/-- The scanner collects the name of an opening tag, character by character. -/
theorem scan_opening {name rest : List Char} (chars : ∀ c ∈ rest, IsNameChar c = true)
    (cs : List Char) :
    scan esc (.opening name) (rest ++ cs) = scan esc (.opening (name ++ rest)) cs := by
  induction rest generalizing name with
  | nil => simp
  | cons c rest ih =>
    have hc : IsNameChar c = true := chars c List.mem_cons_self
    rw [List.cons_append, scan, if_neg (isNameChar_ne hc (by decide)),
      if_neg (isNameChar_ne hc (by decide)), if_pos hc,
      ih fun d hd => chars d (List.mem_cons_of_mem _ hd), List.append_assoc]
    rfl

/-- The scanner collects the name of a closing tag, character by character. -/
theorem scan_closing {name rest : List Char} (chars : ∀ c ∈ rest, IsNameChar c = true)
    (cs : List Char) :
    scan esc (.closing name) (rest ++ cs) = scan esc (.closing (name ++ rest)) cs := by
  induction rest generalizing name with
  | nil => simp
  | cons c rest ih =>
    have hc : IsNameChar c = true := chars c List.mem_cons_self
    rw [List.cons_append, scan, if_neg (isNameChar_ne hc (by decide)), if_pos hc,
      ih fun d hd => chars d (List.mem_cons_of_mem _ hd), List.append_assoc]
    rfl

/-- The scanner collects the key of an attribute, character by character. -/
theorem scan_attribute {name key rest : List Char} {attributes : List (List Char × List Char)}
    (chars : ∀ c ∈ rest, IsNameChar c = true) (cs : List Char) :
    scan esc (.attribute name attributes key) (rest ++ cs) =
      scan esc (.attribute name attributes (key ++ rest)) cs := by
  induction rest generalizing key with
  | nil => simp
  | cons c rest ih =>
    have hc : IsNameChar c = true := chars c List.mem_cons_self
    rw [List.cons_append, scan, if_neg (isNameChar_ne hc (by decide)), if_pos hc,
      ih fun d hd => chars d (List.mem_cons_of_mem _ hd), List.append_assoc]
    rfl

/-- A value is collected until its quote, and escaped text has none. -/
theorem scan_quoted {name key raw later : List Char} {attributes : List (List Char × List Char)}
    (hquote : '"' ∉ later) (cs : List Char) :
    scan esc (.quoted name attributes key raw) (later ++ cs) =
      scan esc (.quoted name attributes key (raw ++ later)) cs := by
  induction later generalizing raw with
  | nil => simp
  | cons c later ih =>
    have hc : c ≠ '"' := fun h => hquote (h ▸ List.mem_cons_self)
    have hlater : '"' ∉ later := fun h => hquote (List.mem_cons_of_mem _ h)
    rw [List.cons_append, scan, if_neg hc, ih hlater, List.append_assoc]
    rfl

-- no escaped text begins a tag, and none ends a value
variable (lt : ∀ cs, '<' ∉ esc.escape cs) (quote : ∀ cs, '"' ∉ esc.escape cs)

include quote in
/-- A written attribute is read back: its key is plain, and its escaped value ends at the quote that
closes it. -/
theorem scan_writeAttribute {name : List Char} {attributes : List (List Char × List Char)}
    {a : List Char × List Char} (plain : PlainName a.1) (cs : List Char) :
    scan esc (.valued name attributes) (Token.writeAttribute esc a ++ cs) =
      scan esc (.valued name (attributes ++ [a])) cs := by
  obtain ⟨key, value⟩ := a
  obtain ⟨⟨c, rest, rfl, hfirst⟩, hchars⟩ := plain
  have hc : IsNameChar c = true := hchars c List.mem_cons_self
  have hrest : ∀ d ∈ rest, IsNameChar d = true := fun d hd => hchars d (List.mem_cons_of_mem _ hd)
  have hwrite : Token.writeAttribute esc (c :: rest, value) ++ cs =
      ' ' :: c :: (rest ++ '=' :: '"' :: (esc.escape value ++ '"' :: cs)) := by
    simp [Token.writeAttribute]
  rw [hwrite, scan, if_neg (by decide), if_pos rfl, scan, if_pos hc, scan_attribute hrest, scan,
    if_pos rfl, scan, if_pos rfl, scan_quoted (quote value), scan, if_pos rfl, List.nil_append,
    esc.decode_escape]
  rfl

include quote in
/-- All attributes of a written tag are read back in their order, up to its end, by induction on those
that are left. -/
theorem scan_writeAttributes {name : List Char} {read attributes : List (List Char × List Char)}
    (plain : ∀ a ∈ attributes, PlainName a.1) (cs : List Char) :
    scan esc (.valued name read) (attributes.flatMap (Token.writeAttribute esc) ++ '>' :: cs) =
      (Token.opening name (read ++ attributes) :: ·) <$> scan esc (.content []) cs := by
  induction attributes generalizing read with
  | nil => simp [scan]
  | cons a attributes ih =>
    rw [List.flatMap_cons, List.append_assoc,
      scan_writeAttribute quote (plain a List.mem_cons_self),
      ih fun b hb => plain b (List.mem_cons_of_mem _ hb), List.append_assoc]
    rfl

/-- The end of a name, where attributes begin. -/
theorem scan_named {name : List Char} (attributes : List (List Char × List Char)) (cs : List Char) :
    scan esc (.opening name) (attributes.flatMap (Token.writeAttribute esc) ++ '>' :: cs) =
      scan esc (.valued name []) (attributes.flatMap (Token.writeAttribute esc) ++ '>' :: cs) := by
  cases attributes with
  | nil =>
    show scan esc _ ('>' :: cs) = scan esc _ ('>' :: cs)
    simp only [scan, if_true]
  | cons a attributes =>
    simp only [List.flatMap_cons, Token.writeAttribute, List.cons_append, scan]
    simp

include quote in
/-- A tag that is written is read. -/
theorem scan_writeOpening {raw name : List Char} {attributes : List (List Char × List Char)}
    (plain : (Token.opening name attributes).Plain) (cs : List Char) :
    scan esc (.content raw) (Token.write esc (.opening name attributes) ++ cs) =
      (fun tokens => textOf esc raw (.opening name attributes :: tokens)) <$>
        scan esc (.content []) cs := by
  obtain ⟨⟨⟨c, rest, rfl, hfirst⟩, hchars⟩, hkeys⟩ := plain
  have hrest : ∀ d ∈ rest, IsNameChar d = true := fun d hd => hchars d (List.mem_cons_of_mem _ hd)
  have hslash : c ≠ '/' := isNameChar_ne (hchars c List.mem_cons_self) (by decide)
  have hwrite : Token.write esc (.opening (c :: rest) attributes) ++ cs =
      '<' :: c :: (rest ++ (attributes.flatMap (Token.writeAttribute esc) ++ '>' :: cs)) := by
    simp [Token.write]
  rw [hwrite, scan, if_pos rfl, scan, if_neg hslash, if_pos hfirst, scan_opening hrest,
    scan_named, scan_writeAttributes quote hkeys]
  cases scan esc (.content []) cs <;> rfl

/-- A closing tag ends the text before it, which is kept where it is not empty. -/
theorem scan_writeClosing {raw name : List Char} (plain : PlainName name) (cs : List Char) :
    scan esc (.content raw) (Token.write esc (.closing name) ++ cs) =
      (fun tokens => textOf esc raw (.closing name :: tokens)) <$> scan esc (.content []) cs := by
  have hwrite : Token.write esc (.closing name) ++ cs = '<' :: '/' :: (name ++ '>' :: cs) := by
    simp [Token.write]
  rw [hwrite, scan, if_pos rfl, scan, if_pos rfl, scan_closing plain.chars, scan, if_pos rfl,
    List.nil_append]
  cases scan esc (.content []) cs <;> rfl

/-- A text that was written is the first of the tokens. -/
theorem textOf_escape (content : List Char) {token : Token} (tokens : List Token)
    (tag : ∀ later, token ≠ .text later) :
    textOf esc (esc.escape content) (token :: tokens) = joinText content (token :: tokens) := by
  simp only [textOf, esc.escape_eq_nil, esc.decode_escape]
  cases token with
  | text later => exact absurd rfl (tag later)
  | opening name attributes => rfl
  | closing name => rfl

include lt quote in
/-- Reading back what was written, by induction on the tokens; the scanner holds the text that it has
read since the last tag, which is joined to the tokens that follow. -/
theorem scan_written {tokens : List Token} (plain : ∀ token ∈ tokens, token.Plain)
    (content : List Char) :
    scan esc (.content (esc.escape content)) (writeTokens esc tokens) =
      some (joinText content (merge tokens)) := by
  induction tokens generalizing content with
  | nil =>
    show some (textOf esc (esc.escape content) []) = _
    simp only [textOf, esc.escape_eq_nil, esc.decode_escape]
    rfl
  | cons token tokens ih =>
    have hrest : ∀ token ∈ tokens, token.Plain := fun t ht => plain t (List.mem_cons_of_mem _ ht)
    have htoken : token.Plain := plain token List.mem_cons_self
    show scan esc _ (Token.write esc token ++ writeTokens esc tokens) = _
    cases token with
    | text later =>
      show scan esc _ (esc.escape later ++ writeTokens esc tokens) = _
      rw [scan_content (lt later), ← esc.escape_append, ih hrest]
      exact congrArg some (joinText_joinText content later (merge tokens)).symm
    | opening name attributes =>
      have hnext : scan esc (.content []) (writeTokens esc tokens) = some (merge tokens) := by
        have hempty := ih hrest []
        rwa [joinText_nil] at hempty
      rw [scan_writeOpening quote htoken, hnext]
      exact congrArg some (textOf_escape content _ (by intro later h; cases h))
    | closing name =>
      have hnext : scan esc (.content []) (writeTokens esc tokens) = some (merge tokens) := by
        have hempty := ih hrest []
        rwa [joinText_nil] at hempty
      rw [scan_writeClosing htoken, hnext]
      exact congrArg some (textOf_escape content _ (by intro later h; cases h))

include lt quote in
/-- **The round trip**: a document is read as it was written, up to adjacent texts. -/
theorem scan_write {tokens : List Token} (plain : ∀ token ∈ tokens, token.Plain) :
    scan esc (.content []) (writeTokens esc tokens) = some (merge tokens) := by
  have hscan := scan_written lt quote plain []
  rwa [joinText_nil] at hscan

end RoundTrip

end Library
