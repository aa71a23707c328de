import Mathlib
import MpesaMcp.Library.Delimited
import MpesaMcp.Logging.Config

/-!
# Log lines

A stream of log records is written as a line for each of them, whatever their texts hold. What a stream
tells of its records is exactly the texts and safe extras that `Alike` compares: two sequences of
records are written alike where they are alike record by record, and only there (`log_stream_iff`).
-/

set_option autoImplicit false

namespace MpesaMcp

open Library Python

/-! ## Printable text -/

/-- A character of a number. -/
theorem mem_toString_int {c : Char} {i : Int} (h : c ∈ (toString i).toList) :
    c.isDigit = true ∨ c = '-' := by
  have hdigits : ∀ n : Nat, c ∈ n.repr.toList → c.isDigit = true := by
    intro n hmem
    rw [Nat.toList_repr] at hmem
    exact Nat.isDigit_of_mem_toDigits (by decide) (by decide) hmem
  rw [Int.toString_eq_repr, Int.repr_eq_if] at h
  split at h
  next => exact Or.inl (hdigits _ h)
  next =>
    rw [String.toList_append, List.mem_append] at h
    rcases h with hsign | hdigit
    · exact Or.inr (List.mem_singleton.mp hsign)
    · exact Or.inl (hdigits _ hdigit)

/-- A number is written with a digit at least, so that its end can be told. -/
theorem toString_int_ne_nil (i : Int) : (toString i).toList ≠ [] := by
  rw [Int.toString_eq_repr, Int.repr_eq_if]
  split
  next =>
    rw [Nat.toList_repr]
    exact Nat.toDigits_ne_nil
  next =>
    rw [String.toList_append]
    exact List.append_ne_nil_of_left_ne_nil (by decide) _

/-- Escapes are written in digits and letters. -/
theorem newline_not_mem_hex (width n : Nat) : '\n' ∉ hex width n := by
  have hdigit : ∀ m < 16, '\n' ≠ Nat.digitChar m := by decide
  induction width generalizing n with
  | zero => exact List.not_mem_nil
  | succ width ih =>
    intro h
    rcases List.mem_append.mp h with hhead | hlast
    · exact ih _ hhead
    · exact hdigit _ (Nat.mod_lt n (by decide)) (List.mem_singleton.mp hlast)

/-- No character is written with a line break. -/
theorem newline_not_mem_escapeChar (c : Char) : '\n' ∉ escapeChar c := by
  have hunit : ∀ unit, '\n' ∉ unicodeEscape unit := by
    intro unit h
    rcases List.mem_cons.mp h with heq | h
    · cases heq
    · rcases List.mem_cons.mp h with heq | h
      · cases heq
      · exact newline_not_mem_hex 4 unit h
  have hshort : ∀ e ∈ shortEscapes, '\n' ∉ ['\\', e.2] := by decide
  unfold escapeChar
  cases hf : shortEscapes.find? fun e => decide (e.1 = c) with
  | some e => exact hshort e (List.mem_of_find?_eq_some hf)
  | none =>
    dsimp only
    split_ifs with hplain hsmall
    · intro h
      rw [← List.mem_singleton.mp h] at hplain
      exact absurd hplain (by decide)
    · exact hunit _
    · intro h
      rcases List.mem_append.mp h with h | h
      · exact hunit _ h
      · exact hunit _ h

/-- A newline in a text is written as an escape, so no text breaks its line. -/
theorem newline_not_mem_quoteJson (cs : List Char) : '\n' ∉ quoteJson cs := by
  intro h
  rcases List.mem_append.mp h with h | h
  · rcases List.mem_cons.mp h with heq | h
    · cases heq
    · obtain ⟨c, -, hc⟩ := List.mem_flatMap.mp h
      exact newline_not_mem_escapeChar c hc
  · cases List.mem_singleton.mp h

namespace JsonLogFormatter

/-- Neither a key nor a value breaks the line. -/
theorem newline_not_mem_dumpMember (item : String × LogValue) : '\n' ∉ dumpMember item := by
  obtain ⟨key, value⟩ := item
  intro h
  rcases List.mem_append.mp h with h | h
  · exact newline_not_mem_quoteJson _ h
  · rcases List.mem_cons.mp h with heq | h
    · cases heq
    · cases value with
      | str s => exact newline_not_mem_quoteJson _ h
      | int i =>
        rcases mem_toString_int h with hdigit | hsign
        · cases hdigit
        · cases hsign

/-- A payload is written on one line. -/
theorem newline_not_mem_dumpPayload (items : List (String × LogValue)) : '\n' ∉ dumpPayload items := by
  cases items with
  | nil => decide
  | cons item items =>
    intro h
    rcases List.mem_append.mp h with h | h
    · rcases List.mem_append.mp h with h | h
      · rcases List.mem_cons.mp h with heq | h
        · cases heq
        · exact newline_not_mem_dumpMember item h
      · obtain ⟨item', -, hitem⟩ := List.mem_flatMap.mp h
        rcases List.mem_cons.mp hitem with heq | hmem
        · cases heq
        · exact newline_not_mem_dumpMember item' hmem
    · cases List.mem_singleton.mp h

/-! ## Reading a payload back -/

/-- What may follow a value. -/
def Ends (cs : List Char) : Prop := ∃ c rest, cs = c :: rest ∧ (c = ',' ∨ c = '\x7d')

/-- A number ends where what follows it begins. -/
theorem takeWhile_number {i : Int} {cs : List Char} (ends : Ends cs) :
    ((toString i).toList ++ cs).takeWhile (fun c => c.isDigit || c == '-') = (toString i).toList := by
  obtain ⟨c, rest, rfl, hc⟩ := ends
  rw [List.takeWhile_append_of_pos, List.takeWhile_cons_of_neg, List.append_nil]
  · rcases hc with rfl | rfl <;> decide
  · intro d hd
    rcases mem_toString_int hd with hdigit | rfl
    · simp [hdigit]
    · rfl

/-- A quoted text is no number. -/
theorem quoteJson_ne_number {s : List Char} {i : Int} {xs ys : List Char} :
    quoteJson s ++ xs ≠ (toString i).toList ++ ys := by
  intro h
  cases hnumber : (toString i).toList with
  | nil => exact toString_int_ne_nil i hnumber
  | cons c cs =>
    rw [hnumber] at h
    have hc : '"' = c := (List.cons.inj h).1
    have hmem : c ∈ (toString i).toList := by
      rw [hnumber]
      exact List.mem_cons_self
    rcases mem_toString_int hmem with hdigit | hsign
    · rw [← hc] at hdigit
      cases hdigit
    · rw [← hc] at hsign
      cases hsign

/-- A written value can be told from what follows it, as long as that starts with a separator: numbers
end where no digit follows, texts at the quote that is not escaped. -/
theorem dumpValue_inj {v w : LogValue} {xs ys : List Char} (hxs : Ends xs) (hys : Ends ys)
    (h : dumpValue v ++ xs = dumpValue w ++ ys) : v = w ∧ xs = ys := by
  cases v with
  | str s =>
    cases w with
    | str t =>
      obtain ⟨htext, hrest⟩ := quoteJson_inj h
      exact ⟨congrArg LogValue.str (String.toList_inj.mp htext), hrest⟩
    | int j => exact absurd h quoteJson_ne_number
  | int i =>
    cases w with
    | str t => exact absurd h.symm quoteJson_ne_number
    | int j =>
      have hnumber : (toString i).toList = (toString j).toList :=
        (takeWhile_number hxs).symm.trans ((congrArg _ h).trans (takeWhile_number hys))
      have hsame : i = j := by
        have htext : toString i = toString j := String.toList_inj.mp hnumber
        rw [Int.toString_eq_repr, Int.toString_eq_repr] at htext
        exact Int.repr_injective htext
      refine ⟨congrArg LogValue.int hsame, ?_⟩
      have htail : (toString i).toList ++ xs = (toString j).toList ++ ys := h
      rw [hnumber] at htail
      exact List.append_cancel_left htail

/-- A member can be told from what follows it, since it is two values and a separator. -/
theorem dumpMember_inj {item item' : String × LogValue} {xs ys : List Char} (hxs : Ends xs)
    (hys : Ends ys) (h : dumpMember item ++ xs = dumpMember item' ++ ys) : item = item' ∧ xs = ys := by
  simp only [dumpMember, List.append_assoc, List.cons_append] at h
  obtain ⟨hkey, hvalue⟩ := quoteJson_inj h
  obtain ⟨hv, hrest⟩ := dumpValue_inj hxs hys (List.cons.inj hvalue).2
  exact ⟨Prod.ext (String.toList_inj.mp hkey) hv, hrest⟩

/-- The members after the first, up to the closing brace. -/
theorem ends_members (items : List (String × LogValue)) :
    Ends ((items.flatMap fun item => ',' :: dumpMember item) ++ ['\x7d']) := by
  cases items with
  | nil => exact ⟨_, _, rfl, Or.inr rfl⟩
  | cons item items => exact ⟨_, _, rfl, Or.inl rfl⟩

/-- The members can be told apart, by induction: each begins with a comma, and the last is followed by
the closing brace. -/
theorem members_inj {items items' : List (String × LogValue)}
    (h : (items.flatMap fun item => ',' :: dumpMember item) ++ ['\x7d'] =
      (items'.flatMap fun item => ',' :: dumpMember item) ++ ['\x7d']) : items = items' := by
  induction items generalizing items' with
  | nil =>
    cases items' with
    | nil => rfl
    | cons item' items' => cases (List.cons.inj h).1
  | cons item items ih =>
    cases items' with
    | nil => cases (List.cons.inj h).1
    | cons item' items' =>
      rw [List.flatMap_cons, List.flatMap_cons, List.append_assoc, List.append_assoc] at h
      obtain ⟨hitem, hrest⟩ :=
        dumpMember_inj (ends_members items) (ends_members items') (List.cons.inj h).2
      rw [hitem, ih hrest]

/-- A payload is determined by the line it is written on. -/
theorem dumpPayload_injective : Function.Injective dumpPayload := by
  intro items items' h
  cases items with
  | nil =>
    cases items' with
    | nil => rfl
    | cons item' items' => cases (List.cons.inj (List.cons.inj h).2).1
  | cons item items =>
    cases items' with
    | nil => cases (List.cons.inj (List.cons.inj h).2).1
    | cons item' items' =>
      simp only [dumpPayload, List.cons_append, List.cons.injEq, true_and, List.append_assoc] at h
      obtain ⟨hitem, hrest⟩ := dumpMember_inj (ends_members items) (ends_members items') h
      rw [hitem, members_inj hrest]

end JsonLogFormatter

/-! ## The items of a payload -/

/-- The value of the first item with this key. -/
def valueAt (items : List (String × LogValue)) (key : String) : Option LogValue :=
  (items.find? fun item => decide (item.1 = key)).map Prod.snd

theorem valueAt_cons (item : String × LogValue) (items : List (String × LogValue)) (key : String) :
    valueAt (item :: items) key = if item.1 = key then some item.2 else valueAt items key := by
  unfold valueAt
  by_cases hkey : item.1 = key <;> simp [hkey]

/-- The first member with a key decides, and the members of the second list come later. -/
theorem valueAt_append (items items' : List (String × LogValue)) (key : String) :
    valueAt (items ++ items') key = (valueAt items key).or (valueAt items' key) := by
  induction items with
  | nil => rfl
  | cons item items ih =>
    rw [List.cons_append, valueAt_cons, valueAt_cons, ih]
    split_ifs <;> rfl

theorem valueAt_toList {α : Type} (value : Option α) (key' : String) (f : α → LogValue)
    (key : String) : valueAt (value.map fun a => (key', f a)).toList key =
      if key' = key then value.map f else none := by
  cases value with
  | none => exact (ite_self none).symm
  | some a => exact valueAt_cons _ _ _

/-- A key is found among the selected ones exactly where it is selected and has a value. -/
theorem valueAt_filterMap (get : String → Option LogValue) (keys : List String) (key : String) :
    valueAt (keys.filterMap fun key => (get key).map fun value => (key, value)) key =
      if key ∈ keys then get key else none := by
  induction keys with
  | nil => rfl
  | cons key' keys ih =>
    rw [List.filterMap_cons]
    cases hget : get key' with
    | none =>
      dsimp only [Option.map_none]
      rw [ih]
      by_cases hkey : key = key'
      · subst hkey
        simp [hget]
      · simp [hkey]
    | some value =>
      dsimp only [Option.map_some]
      rw [valueAt_cons, ih]
      by_cases hkey : key = key'
      · subst hkey
        simp [hget]
      · simp [hkey, Ne.symm hkey]

namespace LoggedRecord

/-- The correlation id that is written, where there is one. -/
def correlationId (logged : LoggedRecord) : Option String :=
  JsonLogFormatter.correlationId logged.active logged.filtered

/-- What the lines of two records have in common where they are the same line. -/
structure Alike (l l' : LoggedRecord) : Prop where
  timestamp : Datetime.isoformat l.record.created = Datetime.isoformat l'.record.created
  level : l.record.levelname = l'.record.levelname
  logger : l.record.name = l'.record.name
  message : l.record.message = l'.record.message
  correlationId : l.correlationId = l'.correlationId
  extras : ∀ key ∈ safeExtraKeys, key ≠ "correlation_id" →
    l.record.getattr key = l'.record.getattr key
  exception : l.record.exception = l'.record.exception

variable {keys : List String} (reads : ReadsSafeKeys keys)

/-- The filter sets the correlation id alone. -/
theorem filtered_eq (logged : LoggedRecord) :
    logged.filtered = { logged.record with correlationId := logged.filtered.correlationId } := by
  unfold filtered CorrelationIdFilter.filter
  split <;> rfl

theorem payload_eq (logged : LoggedRecord) : logged.payload keys =
    [("timestamp", .str (Datetime.isoformat logged.record.created)),
      ("level", .str logged.record.levelname), ("logger", .str logged.record.name),
      ("message", .str logged.record.message)] ++
      (logged.correlationId.map fun id => ("correlation_id", LogValue.str id)).toList ++
      (keys.filterMap fun key => (logged.record.getattr key).map fun value => (key, value)) ++
      (logged.record.exception.map fun text => ("exception", LogValue.str text)).toList := by
  have hfiltered := logged.filtered_eq
  unfold payload JsonLogFormatter.payload correlationId
  rw [hfiltered]
  rfl

include reads in
/-- A key that is read is a safe one. -/
theorem mem_keys_iff (key : String) : key ∈ keys ↔ key ∈ safeExtraKeys ∧ key ≠ "correlation_id" := by
  rw [reads.mem_iff, List.mem_filter, decide_eq_true_eq]

/-- The value under a key, as a reader of the line finds it. -/
theorem valueAt_payload (logged : LoggedRecord) (key : String) : valueAt (logged.payload keys) key =
    if "timestamp" = key then some (.str (Datetime.isoformat logged.record.created))
    else if "level" = key then some (.str logged.record.levelname)
    else if "logger" = key then some (.str logged.record.name)
    else if "message" = key then some (.str logged.record.message)
    else ((if "correlation_id" = key then logged.correlationId.map LogValue.str else none).or
      (if key ∈ keys then logged.record.getattr key else none)).or
      (if "exception" = key then logged.record.exception.map LogValue.str else none) := by
  rw [payload_eq, valueAt_append, valueAt_append, valueAt_append, valueAt_toList, valueAt_toList,
    valueAt_filterMap]
  simp only [valueAt_cons]
  split_ifs <;> rfl

include reads in
/-- Two records with the same items are alike. -/
theorem alike_of_payload {l l' : LoggedRecord} (h : l.payload keys = l'.payload keys) : l.Alike l' := by
  have hvalue : ∀ key, valueAt (l.payload keys) key = valueAt (l'.payload keys) key :=
    fun key => congrArg (valueAt · key) h
  simp only [valueAt_payload] at hvalue
  have hnot : ∀ key, ¬ (key ∈ safeExtraKeys ∧ key ≠ "correlation_id") → key ∉ keys :=
    fun key hkey hmem => hkey ((mem_keys_iff reads key).mp hmem)
  have htexts : Function.Injective (Option.map LogValue.str) :=
    Option.map_injective fun _ _ => LogValue.str.inj
  refine ⟨?_, ?_, ?_, ?_, ?_, ?_, ?_⟩
  · simpa using hvalue "timestamp"
  · simpa using hvalue "level"
  · simpa using hvalue "logger"
  · simpa using hvalue "message"
  · have hcorrelation := hvalue "correlation_id"
    simp only [if_neg (hnot "correlation_id" (by decide))] at hcorrelation
    exact htexts (by simpa using hcorrelation)
  · intro key hkey hne
    have hother : ∀ key ∈ safeExtraKeys, "timestamp" ≠ key ∧ "level" ≠ key ∧ "logger" ≠ key ∧
        "message" ≠ key ∧ "exception" ≠ key := by
      decide
    obtain ⟨htimestamp, hlevel, hlogger, hmessage, hexception⟩ := hother key hkey
    have hmem := (mem_keys_iff reads key).mpr ⟨hkey, hne⟩
    simpa [htimestamp, hlevel, hlogger, hmessage, hexception, Ne.symm hne, hmem] using hvalue key
  · have hexception := hvalue "exception"
    simp only [if_neg (hnot "exception" (by decide))] at hexception
    exact htexts (by simpa using hexception)

include reads in
/-- Records that agree in what the formatter reads are written alike. -/
theorem payload_of_alike {l l' : LoggedRecord} (h : l.Alike l') : l.payload keys = l'.payload keys := by
  have hextras : (keys.filterMap fun key => (l.record.getattr key).map fun value => (key, value)) =
      keys.filterMap fun key => (l'.record.getattr key).map fun value => (key, value) := by
    apply List.filterMap_congr
    intro key hkey
    obtain ⟨hsafe, hne⟩ := (mem_keys_iff reads key).mp hkey
    rw [h.extras key hsafe hne]
  rw [payload_eq, payload_eq, hextras, h.timestamp, h.level, h.logger, h.message, h.correlationId,
    h.exception]

end LoggedRecord

/-- **A log stream is read back as it was written**: whatever messages, ids, extras and exception texts
hold, each record is one line of the stream; and two sequences of records are written alike exactly where
they are alike record by record, in what the formatter lets through. -/
theorem log_stream_iff {keys : List String} (reads : ReadsSafeKeys keys)
    (logs logs' : List LoggedRecord) :
    (logs.flatMap (LoggedRecord.emit keys)).splitOn '\n' =
        logs.map (fun logged => JsonLogFormatter.dumpPayload (logged.payload keys)) ++ [[]] ∧
      (logs.flatMap (LoggedRecord.emit keys) = logs'.flatMap (LoggedRecord.emit keys) ↔
        List.Forall₂ LoggedRecord.Alike logs logs') := by
  have hlines : ∀ logs : List LoggedRecord, (logs.flatMap (LoggedRecord.emit keys)).splitOn '\n' =
      logs.map (fun logged => JsonLogFormatter.dumpPayload (logged.payload keys)) ++ [[]] := by
    intro logs
    have hfree : ∀ logged : LoggedRecord, '\n' ∉ JsonLogFormatter.dumpPayload (logged.payload keys) :=
      fun logged => JsonLogFormatter.newline_not_mem_dumpPayload _
    exact splitOn_flatMap_append hfree logs
  refine ⟨hlines logs, ?_⟩
  have halike : ∀ l l' : LoggedRecord, JsonLogFormatter.dumpPayload (l.payload keys) =
      JsonLogFormatter.dumpPayload (l'.payload keys) ↔ l.Alike l' := by
    intro l l'
    rw [JsonLogFormatter.dumpPayload_injective.eq_iff]
    exact ⟨LoggedRecord.alike_of_payload reads, LoggedRecord.payload_of_alike reads⟩
  constructor
  · intro h
    have hmap := (hlines logs).symm.trans ((congrArg (List.splitOn '\n') h).trans (hlines logs'))
    have hsame := List.append_cancel_right hmap
    rw [← List.forall₂_eq_eq_eq, List.forall₂_map_left_iff, List.forall₂_map_right_iff] at hsame
    exact hsame.imp fun l l' => (halike l l').mp
  · intro h
    induction h with
    | nil => rfl
    | cons hhead _ ih =>
      rw [List.flatMap_cons, List.flatMap_cons, ih]
      exact congrArg (· ++ ['\n'] ++ _) ((halike _ _).mpr hhead)

/-- A message with a line break in it, and the two lines that it does not become. -/
theorem log_stream_iff_forged :
    let keys := safeExtraKeys.filter fun key => decide (key ≠ "correlation_id")
    let record : LogRecord :=
      { created := ⟨0, by decide⟩, levelname := "INFO", name := "app.callbacks.routes", message := "a" }
    let forged : List LoggedRecord := [⟨{ record with message := "a\nb" }, none⟩]
    let plain : List LoggedRecord := [⟨record, none⟩, ⟨{ record with message := "b" }, none⟩]
    ((forged.flatMap (LoggedRecord.emit keys)).splitOn '\n').length = 2 ∧
      (forged.flatMap (LoggedRecord.emit keys) = plain.flatMap (LoggedRecord.emit keys) ↔
        List.Forall₂ LoggedRecord.Alike forged plain) := by
  intro keys record forged plain
  have hforged := log_stream_iff (List.Perm.refl _ : ReadsSafeKeys keys) forged plain
  refine ⟨?_, hforged.2⟩
  rw [hforged.1]
  rfl

end MpesaMcp
