import Billiard.Json.Document
import Billiard.Json.Quotation

/-!
Texts between quotation marks. Every character has an escaped form that reads as the character
(`upToQuote_escaped`), so every text is read as it was written (`read_quotedText`).
-/

namespace Billiard.Json.Quotation

/-- An escape reads as the character that it stands for. -/
private theorem upToQuote_of_escape {c : Char} {escaped text : List Char} (count : Nat)
    (means : escape (escaped ++ text) = .ok (c, text)) :
    upToQuote escape (count + 1) ('\\' :: (escaped ++ text)) =
      (upToQuote escape count text).map fun (more, rest) => (c :: more, rest) := by
  have quote : '\\' ≠ '"' := by decide
  rw [upToQuote, if_neg quote, if_pos rfl, means]
  change (upToQuote escape count text >>= _) = _
  cases upToQuote escape count text <;> rfl

/-- The escape of a control character has two zeros and two more digits. -/
private theorem unit_of_control : ∀ unit < 32,
    (Decimal.zeros (4 - (Nat.toDigits 16 unit).length)).toList ++ Nat.toDigits 16 unit =
        ['0', '0', (unit / 16).digitChar, (unit % 16).digitChar] ∧
      hexValue? (unit / 16).digitChar = some (unit / 16) ∧
      hexValue? (unit % 16).digitChar = some (unit % 16) := by
  decide

private theorem escape_of_control {c : Char} (control : c < ' ') (text : List Char) :
    escape ('u' :: ((Decimal.zeros (4 - (Nat.toDigits 16 c.toNat).length)).toList ++
      Nat.toDigits 16 c.toNat) ++ text) = .ok (c, text) := by
  have small : c.toNat < 32 := control
  obtain ⟨digits, high, low⟩ := unit_of_control c.toNat small
  have zero : hexValue? '0' = some 0 := rfl
  have whole : ((0 * 16 + 0) * 16 + c.toNat / 16) * 16 + c.toNat % 16 = c.toNat := by omega
  have read : unit ('0' :: '0' :: (c.toNat / 16).digitChar :: (c.toNat % 16).digitChar :: text) =
      .ok (c.toNat, text) := by
    rw [unit, zero, high, low]
    simp only [whole]
  rw [List.cons_append, digits]
  change unitEscape _ = _
  simp only [unitEscape, List.cons_append, List.nil_append, read]
  have first : isTrailing c.toNat = false := by simp [isTrailing]; omega
  have second : isLeading c.toNat = false := by simp [isLeading]; omega
  change (if isTrailing c.toNat then _ else if isLeading c.toNat then _ else _) = _
  rw [first, second]
  exact congrArg (fun c => Except.ok (c, text)) (Char.ofNat_toNat c)

/-- The escaped form of a character reads as the character. -/
theorem upToQuote_escaped (c : Char) (count : Nat) (text : List Char) :
    upToQuote escape (count + 1) ((Document.escaped c).toList ++ text) =
      (upToQuote escape count text).map fun (more, rest) => (c :: more, rest) := by
  unfold Document.escaped
  split
  · exact upToQuote_of_escape count rfl
  · exact upToQuote_of_escape count rfl
  · exact upToQuote_of_escape count rfl
  · exact upToQuote_of_escape count rfl
  · exact upToQuote_of_escape count rfl
  · exact upToQuote_of_escape count rfl
  · exact upToQuote_of_escape count rfl
  · next quote backslash _ _ _ _ _ =>
    split
    · next control =>
      have wrote (digits : List Char) (zeros : String) :
          ("\\u" ++ zeros ++ String.ofList digits).toList =
            '\\' :: 'u' :: (zeros.toList ++ digits) := by simp
      rw [wrote]
      exact upToQuote_of_escape count (escape_of_control control text)
    · next visible =>
      have plain : c.toString.toList = [c] := by simp
      rw [plain, List.singleton_append, upToQuote, if_neg quote, if_neg backslash]
      rw [if_neg (by simpa [isControl] using visible)]
      change (upToQuote escape count text >>= _) = _
      cases upToQuote escape count text <;> rfl

/-- A text between quotation marks is read as the text. -/
theorem upToQuote_quoted (content text : List Char) {count : Nat}
    (enough : content.length < count) :
    upToQuote escape count ((content.map Document.escaped).flatMap String.toList ++ '"' :: text) =
      .ok (content, text) := by
  induction content generalizing count with
  | nil =>
    obtain ⟨count, rfl⟩ := Nat.exists_eq_add_one.2 enough
    rfl
  | cons c content ih =>
    obtain ⟨count, rfl⟩ : ∃ fewer, count = fewer + 1 := ⟨count - 1, by simp at enough; omega⟩
    rw [List.map_cons, List.flatMap_cons, List.append_assoc, upToQuote_escaped,
      ih (by simpa using enough)]
    rfl

theorem escaped_ne_nil (c : Char) : (Document.escaped c).toList ≠ [] := by
  unfold Document.escaped
  split
  all_goals try simp
  split <;> simp

/-- No escape is shorter than its character. -/
theorem length_le_escaped (content : List Char) :
    content.length ≤ ((content.map Document.escaped).flatMap String.toList).length := by
  induction content with
  | nil => exact Nat.le_refl _
  | cons c content ih =>
    have one := List.length_pos_iff.2 (escaped_ne_nil c)
    simp only [List.map_cons, List.flatMap_cons, List.length_append, List.length_cons]
    omega

theorem toList_quotedText (text : String) : (Document.quotedText text).toList =
    '"' :: ((text.toList.map Document.escaped).flatMap String.toList ++ ['"']) := by
  simp [Document.quotedText, String.toList_join]

/-- Reading a text takes it from its opening quotation mark on. -/
theorem read_quotedText (content : String) (text : List Char) :
    read ((Document.quotedText content).toList ++ text).tail = .ok (content, text) := by
  have enough : content.toList.length <
      ((content.toList.map Document.escaped).flatMap String.toList ++ '"' :: text).length := by
    have least := length_le_escaped content.toList
    simp only [List.length_append, List.length_cons]
    omega
  rw [toList_quotedText]
  simp only [List.cons_append, List.tail_cons, List.append_assoc, List.nil_append]
  rw [read, upToQuote_quoted _ _ enough]
  exact congrArg (fun content => Except.ok (content, text)) String.ofList_toList

end Billiard.Json.Quotation
