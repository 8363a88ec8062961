import Billiard.Proofs.Numeral
import Billiard.Proofs.Quotation

/-!
The spacing of documents. A style puts blanks in front of items and one comma between two of them
(`Spaced`); both styles do. So a reader that stands in front of a row of items sees the next item or
the bracket behind them (`hasItem_cons`, `hasItem_nil`, `hasKey_cons`, `hasKey_nil`).
-/

namespace Billiard.Json

variable {α β : Type} {text rest blanks : List Char} {c : Char}

namespace Reader

/-- A reader goes on where the one before has stopped. -/
theorem bind_of_map {γ : Type} {reader : Reader α} {next : α → Reader β} {found : Except Fault γ}
    {part : γ → α} (reads : reader text = found.map fun value => (part value, rest)) :
    (reader >>= next) text = found >>= fun value => next (part value) rest := by
  change (reader text >>= _) = _
  rw [reads]
  cases found <;> rfl

theorem map_of_map {γ : Type} {reader : Reader α} (turn : α → β) {found : Except Fault γ}
    {part : γ → α} (reads : reader text = found.map fun value => (part value, rest)) :
    (turn <$> reader) text = found.map fun value => (turn (part value), rest) := by
  change (reader text >>= _) = _
  rw [reads]
  cases found <;> rfl

theorem bind_of_ok {reader : Reader α} {next : α → Reader β} {value : α}
    (reads : reader text = .ok (value, rest)) : (reader >>= next) text = next value rest := by
  change (reader text >>= _) = _
  rw [reads]
  rfl

theorem bind_of_error {reader : Reader α} {next : α → Reader β} {fault : Fault}
    (fails : reader text = .error fault) : (reader >>= next) text = .error fault := by
  change (reader text >>= _) = _
  rw [fails]
  rfl

/-- Two values that are read one after the other. -/
theorem read_both {γ : Type} {middle : List Char} {first : Reader α}
    {second : Reader β} (f : α → β → γ) {found : Except Fault α} {others : Except Fault β}
    (reads : first text = found.map fun value => (value, middle))
    (more : second middle = others.map fun value => (value, rest)) :
    (do return f (← first) (← second) : Reader γ) text =
      (do return f (← found) (← others) : Except Fault γ).map fun value => (value, rest) := by
  rw [bind_of_map reads]
  cases found with
  | error fault => rfl
  | ok value =>
    let next (other : β) : Reader γ := pure (f value other)
    change (second >>= next) middle = _
    rw [bind_of_map more]
    cases others <;> rfl

theorem get_bind {next : List Char → Reader β} : (get >>= next) text = next text text := rfl

theorem drop_cons : drop (c :: rest) = .ok ((), rest) := rfl

end Reader

/-- Nothing but blanks. -/
def Blank (text : List Char) : Prop := ∀ c ∈ text, isBlank c

/-- The first character of a value. -/
def Begins (text : List Char) : Prop :=
  ∃ c more, text = c :: more ∧ isBlank c = false ∧ c ∉ [',', ']', '\x7d']

theorem peek_blanks (blank : Blank blanks) (visible : isBlank c = false) :
    Reader.peek (blanks ++ c :: rest) = .ok (some c, c :: rest) := by
  have skips : skipBlanks (blanks ++ c :: rest) = c :: rest := by
    rw [skipBlanks, List.dropWhile_append_of_pos blank]
    simp [visible]
  rw [Reader.peek, skips]
  rfl

theorem peek_cons (visible : isBlank c = false) :
    Reader.peek (c :: rest) = .ok (some c, c :: rest) := by
  have none : Blank [] := by simp [Blank]
  exact peek_blanks none visible

namespace Reader

/-- A text is read as it was written. -/
theorem text_quotedText (wanted content : String) :
    Reader.text wanted ((Document.quotedText content).toList ++ rest) = .ok (content, rest) := by
  have reads := Quotation.read_quotedText content rest
  rw [Quotation.toList_quotedText, List.cons_append] at reads ⊢
  rw [Reader.text, Reader.bind_of_ok (peek_cons rfl)]
  simp only
  rw [Reader.bind_of_ok Reader.drop_cons]
  exact reads

theorem oneOf_of_lookup {known : List (String × α)} {name : String} {value : α}
    (knows : known.lookup name = some value) :
    oneOf known name rest = .ok (value, rest) := by
  unfold oneOf
  rw [knows]
  rfl

end Reader

namespace Document.Style

/-- In a style, items stand behind blanks, with a comma between two of them. -/
structure Spaced (style : Style) : Prop where
  first : ∀ depth, Blank (style.first depth).toList
  next : ∀ depth, ∃ blanks, (style.next depth).toList = ',' :: blanks ∧ Blank blanks
  last : ∀ depth, Blank (style.last depth).toList
  colon : ∃ blanks, style.colon.toList = ':' :: blanks ∧ Blank blanks

theorem spaced_pretty : pretty.Spaced := by
  have line (depth : Nat) : Blank (newLine depth).toList := by
    simp only [Blank, newLine, String.toList_append, String.toList_ofList, List.mem_append,
      List.mem_replicate]
    rintro c (member | ⟨_, rfl⟩)
    · simp at member
      rw [member]
      rfl
    · rfl
  refine ⟨fun depth => line _, fun depth => ⟨_, ?_, line (depth + 1)⟩, line, [' '], rfl, ?_⟩
  · simp [pretty]
  · simp [Blank, isBlank]

/-- What stands in front of an item. -/
def lead (style : Style) (depth : Nat) (first : Bool) : String :=
  if first then style.first depth else style.next depth

/-- The text of some items up to the bracket behind them. -/
def row (style : Style) (depth : Nat) : (first : Bool) → List (List Char) → List Char
  | true, [] => []
  | false, [] => (style.last depth).toList
  | first, item :: more => (style.lead depth first).toList ++ (item ++ style.row depth false more)

theorem toList_enclose (style : Style) (depth : Nat) (opening closing : String)
    (items : List String) : (style.enclose depth opening closing items).toList =
      opening.toList ++ (style.row depth true (items.map String.toList) ++ closing.toList) := by
  have behind (item : String) (more : List String) :
      ((style.next depth).intercalate (item :: more)).toList ++ (style.last depth).toList =
        item.toList ++ style.row depth false (more.map String.toList) := by
    induction more generalizing item with
    | nil => simp [row]
    | cons next more ih =>
      rw [String.intercalate_cons_of_ne_nil (List.cons_ne_nil _ _), String.toList_append,
        String.toList_append, List.append_assoc, ih]
      simp [row, lead]
  cases items with
  | nil => simp [enclose, row]
  | cons item more =>
    have text := behind item more
    simp only [enclose, List.isEmpty_cons, Bool.false_eq_true, if_false, String.toList_append,
      List.append_assoc, List.map_cons, row, lead, if_true]
    rw [← List.append_assoc _ (style.last depth).toList, text, List.append_assoc]

variable {style : Style} {depth : Nat}

/-- What stands behind an item ends it. -/
theorem Spaced.ends_row (spaced : style.Spaced) (depth : Nat) (more : List (List Char))
    {bracket : Char} (closes : bracket ∈ [']', '\x7d']) (rest : List Char) :
    Ends (style.row depth false more ++ bracket :: rest) := by
  cases more with
  | nil =>
    rw [row]
    cases last : (style.last depth).toList with
    | nil => exact Ends.cons_iff.2 (.inr (List.mem_cons_of_mem _ closes))
    | cons c _ => exact Ends.cons_iff.2 (.inl (spaced.last depth c (last ▸ List.mem_cons_self)))
  | cons item more =>
    obtain ⟨blanks, next, _⟩ := spaced.next depth
    rw [row, lead, if_neg Bool.false_ne_true, next]
    exact Ends.cons_iff.2 (.inr List.mem_cons_self)

/-- Every item takes at least one character. -/
theorem length_le_row (style : Style) (depth : Nat) (first : Bool) {items : List (List Char)}
    (begin : ∀ item ∈ items, Begins item) :
    items.length ≤ (style.row depth first items).length := by
  induction items generalizing first with
  | nil => exact Nat.zero_le _
  | cons item more ih =>
    obtain ⟨c, text, rfl, _⟩ := begin item List.mem_cons_self
    have least := ih false fun item member => begin item (List.mem_cons_of_mem _ member)
    simp only [row, List.length_append, List.length_cons]
    omega

/-- An item in a list is seen. -/
theorem Spaced.hasItem_cons (spaced : style.Spaced) (first : Bool) {item : List Char}
    (begins : Begins item) (more : List (List Char)) :
    Reader.hasItem first (style.row depth first (item :: more) ++ rest) =
      .ok (true, item ++ (style.row depth false more ++ rest)) := by
  obtain ⟨c, text, rfl, visible, other⟩ := begins
  simp only [List.mem_cons, List.not_mem_nil, or_false, not_or] at other
  cases first with
  | true =>
    simp only [row, lead, if_true, List.cons_append, List.append_assoc]
    rw [Reader.hasItem, Reader.bind_of_ok (peek_blanks (spaced.first depth) visible)]
    simp only [other, imp_self]
    rfl
  | false =>
    obtain ⟨blanks, next, blank⟩ := spaced.next depth
    have comma : isBlank ',' = false := rfl
    simp only [row, lead, Bool.false_eq_true, if_false, next, List.cons_append, List.append_assoc]
    rw [Reader.hasItem, Reader.bind_of_ok (peek_cons comma)]
    simp only [Char.reduceEq, imp_self, Bool.false_eq_true, if_false, if_true]
    rw [Reader.bind_of_ok Reader.drop_cons, Reader.bind_of_ok (peek_blanks blank visible)]
    simp only [other, imp_self]
    rfl

/-- Behind the last item stands the bracket, perhaps after blanks. -/
theorem Spaced.blank_row_nil (spaced : style.Spaced) (first : Bool) :
    Blank (style.row depth first []) := by
  cases first with
  | true => simp [row, Blank]
  | false =>
    rw [row]
    exact spaced.last depth

theorem Spaced.hasItem_nil (spaced : style.Spaced) (first : Bool) :
    Reader.hasItem first (style.row depth first [] ++ ']' :: rest) = .ok (false, ']' :: rest) := by
  rw [Reader.hasItem, Reader.bind_of_ok (peek_blanks (spaced.blank_row_nil first) rfl)]
  rfl

theorem Spaced.endList (spaced : style.Spaced) (first : Bool) :
    Reader.endList (style.row depth first [] ++ ']' :: rest) = .ok ((), rest) := by
  rw [Reader.endList, Reader.bind_of_ok (peek_blanks (spaced.blank_row_nil first) rfl)]
  rfl

/-- A key in an object is seen. -/
theorem Spaced.hasKey_cons (spaced : style.Spaced) (first : Bool) (text : List Char)
    (more : List (List Char)) :
    Field.hasKey first (style.row depth first (('"' :: text) :: more) ++ rest) =
      .ok (true, '"' :: text ++ (style.row depth false more ++ rest)) := by
  cases first with
  | true =>
    simp only [row, lead, if_true, List.cons_append, List.append_assoc]
    rw [Field.hasKey, Reader.bind_of_ok (peek_blanks (spaced.first depth) rfl)]
    rfl
  | false =>
    obtain ⟨blanks, next, blank⟩ := spaced.next depth
    have comma : isBlank ',' = false := rfl
    simp only [row, lead, Bool.false_eq_true, if_false, next, List.cons_append, List.append_assoc]
    rw [Field.hasKey, Reader.bind_of_ok (peek_cons comma)]
    simp only [Char.reduceEq, imp_self, Bool.false_eq_true, if_false, if_true]
    rw [Reader.bind_of_ok Reader.drop_cons, Reader.bind_of_ok (peek_blanks blank rfl)]
    rfl

theorem Spaced.hasKey_nil (spaced : style.Spaced) (first : Bool) :
    Field.hasKey first (style.row depth first [] ++ '\x7d' :: rest) =
      .ok (false, '\x7d' :: rest) := by
  rw [Field.hasKey, Reader.bind_of_ok (peek_blanks (spaced.blank_row_nil first) rfl)]
  rfl

/-- Between a key and its value stands a colon. -/
theorem Spaced.colon_append (spaced : style.Spaced) :
    ∃ blanks, Blank blanks ∧
      ∀ rest, Reader.colon (style.colon.toList ++ rest) = .ok ((), blanks ++ rest) := by
  obtain ⟨blanks, text, blank⟩ := spaced.colon
  refine ⟨blanks, blank, fun rest => ?_⟩
  rw [text]
  rfl

end Document.Style

namespace Document

/-- Neither a sign nor a digit is blank or ends something. -/
theorem visible_of_sign {c : Char} (sign : c = '-' ∨ c.isDigit) :
    isBlank c = false ∧ c ∉ [',', ']', '\x7d'] := by
  constructor
  · rw [Bool.eq_false_iff]
    simp only [isBlank, ne_eq, Bool.or_eq_true, beq_iff_eq]
    rintro (((rfl | rfl) | rfl) | rfl) <;> rcases sign with sign | sign <;> cases sign
  · simp only [List.mem_cons, List.not_mem_nil, or_false]
    rintro (rfl | rfl | rfl) <;> rcases sign with sign | sign <;> cases sign

/-- No value begins with a blank or ends something else. -/
theorem begins_render (style : Style) (depth : Nat) (document : Document) :
    Begins (document.render style depth).toList := by
  have quoted (text : String) : Begins (quotedText text).toList := by
    rw [Quotation.toList_quotedText]
    exact ⟨'"', _, rfl, rfl, by simp⟩
  have enclosed {opening closing : String} {first : Char} {items : List String}
      (opens : opening.toList = [first]) (visible : isBlank first = false)
      (other : first ∉ [',', ']', '\x7d']) :
      Begins (style.enclose depth opening closing items).toList := by
    unfold Style.enclose
    split <;> simp only [String.toList_append, opens, List.append_assoc] <;>
      exact ⟨first, _, rfl, visible, other⟩
  cases document with
  | null => exact ⟨'n', _, by rw [render]; rfl, rfl, by simp⟩
  | float value =>
    rw [render]
    by_cases finite : value.isFinite
    · obtain ⟨c, more, text, sign⟩ := (floatText_isNumeral finite).exists_cons
      exact ⟨c, more, text, visible_of_sign sign⟩
    · rw [floatText, if_neg finite]
      exact ⟨'n', _, rfl, rfl, by simp⟩
  | natural value =>
    rw [render, Nat.toList_repr]
    obtain ⟨c, more, text⟩ :=
      List.exists_cons_of_ne_nil (Nat.toDigits_ne_nil : Nat.toDigits 10 value ≠ [])
    have isDigit := Decimal.isDigit_of_mem_toDigits (text ▸ List.mem_cons_self)
    exact ⟨c, more, text, visible_of_sign (.inr isDigit)⟩
  | text value => rw [render]; exact quoted value
  | list items => rw [render]; exact enclosed (by simp; rfl) rfl (by simp)
  | object members => rw [render]; exact enclosed (by simp; rfl) rfl (by simp)

end Document

end Billiard.Json
