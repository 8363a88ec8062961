import Billiard.Json.Codec
import Billiard.Proofs.Shortest

/-!
Numbers as text. Every finite machine number is written as a JSON number (`floatText_isNumeral`):
no zero leads, and there are digits on both sides of the point. Reading a number takes all of it,
whatever follows (`IsNumeral.consumes`), so a number in a document reads as it would alone.
-/

namespace Billiard.Json

/-- What stands behind a value of a document: a blank, a comma or a closing bracket, or nothing. -/
def Ends (rest : List Char) : Prop := ∀ c ∈ rest.head?, isBlank c ∨ c ∈ [',', ']', '\x7d']

/-- A reader takes all of a text, whatever follows. -/
def Reader.Consumes {α : Type} (reader : Reader α) (text : List Char) : Prop :=
  ∀ rest, Ends rest → reader (text ++ rest) = (reader text).map fun (value, _) => (value, rest)

namespace Ends

variable {rest : List Char} {c : Char}

theorem nil : Ends [] := by simp [Ends]

theorem cons_iff : Ends (c :: rest) ↔ isBlank c ∨ c ∈ [',', ']', '\x7d'] := by simp [Ends]

/-- No part of a number stands behind a value. -/
theorem cases (ends : Ends rest) :
    rest = [] ∨ ∃ c more, rest = c :: more ∧ c.isDigit = false ∧ c ≠ '.' ∧ c ≠ 'e' ∧ c ≠ 'E' := by
  cases rest with
  | nil => exact .inl rfl
  | cons c more =>
    refine .inr ⟨c, more, rfl, ?_⟩
    rw [cons_iff] at ends
    simp only [isBlank, Bool.or_eq_true, beq_iff_eq, List.mem_cons, List.not_mem_nil, or_false]
      at ends
    rcases ends with ((((rfl | rfl) | rfl) | rfl)) | rfl | rfl | rfl <;> decide

end Ends

namespace Number

variable {text front exponent : List Char} {negative : Bool} {scaled : Scaled}

/-- An exponent, or nothing. -/
inductive IsPower : List Char → Prop where
  | none : IsPower []
  | some (below : Bool) {exponent : List Char} (nonempty : exponent ≠ [])
      (decimal : ∀ c ∈ exponent, c.isDigit) : IsPower ('e' :: cond below '-' '+' :: exponent)

/-- What follows the digits before the point. -/
inductive IsTail : List Char → Prop where
  | whole {text : List Char} (power : IsPower text) : IsTail text
  | pointed {fraction text : List Char} (nonempty : fraction ≠ [])
      (decimal : ∀ c ∈ fraction, c.isDigit) (power : IsPower text) :
      IsTail ('.' :: (fraction ++ text))

/-- A number without its sign. A zero in front stands alone. -/
inductive IsMagnitude : List Char → Prop where
  | intro {front text : List Char} (nonempty : front ≠ []) (decimal : ∀ c ∈ front, c.isDigit)
      (lone : front.head? = some '0' → front = ['0']) (tail : IsTail text) :
      IsMagnitude (front ++ text)

/-- The digits of `value`, with so many places behind the point. -/
inductive IsPointed (value places : Nat) : List Char → Prop where
  | intro {front fraction : List Char} (nonempty : front ≠ []) (decimal : ∀ c ∈ front, c.isDigit)
      (lone : front.head? = some '0' → front = ['0']) (some : fraction ≠ [])
      (decimals : ∀ c ∈ fraction, c.isDigit)
      (same : Nat.ofDigitChars 10 (front ++ fraction) 0 = value)
      (count : fraction.length = places) : IsPointed value places (front ++ '.' :: fraction)

theorem IsPointed.isMagnitude {value places : Nat} (pointed : IsPointed value places text) :
    IsMagnitude text := by
  cases pointed with
  | intro nonempty decimal lone some decimals _ _ =>
    have tail := IsTail.pointed some decimals .none
    rw [List.append_nil] at tail
    exact .intro nonempty decimal lone tail

/-- The digits of the text make the value. -/
theorem IsPointed.ofDigitChars_filter {value places : Nat} (negative : Bool)
    (pointed : IsPointed value places text) :
    Nat.ofDigitChars 10 (((Decimal.sign negative).toList ++ text).filter Char.isDigit) 0 =
      value := by
  cases pointed with
  | @intro front fraction nonempty decimal lone some decimals same count =>
    have sign : (Decimal.sign negative).toList.filter Char.isDigit = [] := by cases negative <;> rfl
    have point : Char.isDigit '.' = false := rfl
    rw [List.filter_append, List.filter_append, sign, List.filter_eq_self.2 decimal,
      List.filter_cons_of_neg (by simp [point]), List.filter_eq_self.2 decimals, List.nil_append,
      same]

theorem digits_append {rest : List Char} (decimal : ∀ c ∈ front, c.isDigit)
    (stops : ∀ c ∈ rest.head?, c.isDigit = false) : digits (front ++ rest) = (front, rest) := by
  have none : rest.takeWhile Char.isDigit = [] ∧ rest.dropWhile Char.isDigit = rest := by
    cases rest with
    | nil => exact ⟨rfl, rfl⟩
    | cons c more =>
      have stop : c.isDigit = false := stops c rfl
      simp [stop]
  rw [digits, List.takeWhile_append_of_pos decimal, List.dropWhile_append_of_pos decimal, none.1,
    none.2, List.append_nil]

/-- Nothing that ends a number is a digit. -/
theorem digits_append_ends {rest : List Char} (decimal : ∀ c ∈ front, c.isDigit)
    (ends : Ends rest) : digits (front ++ rest) = (front, rest) := by
  refine digits_append decimal ?_
  rcases ends.cases with rfl | ⟨c, more, rfl, stop, _⟩ <;> simp [*]

theorem scaledBy_consumes (below : Bool) (nonempty : exponent ≠ [])
    (decimal : ∀ c ∈ exponent, c.isDigit) :
    (scaledBy negative scaled).Consumes (cond below '-' '+' :: exponent) := by
  intro rest ends
  have sign (text : List Char) :
      exponentSign (cond below '-' '+' :: text) = (below, text) := by cases below <;> rfl
  have whole := digits_append_ends decimal ends
  have alone := digits_append_ends decimal .nil
  rw [List.append_nil] at alone
  simp only [scaledBy, List.cons_append, sign, whole, alone, List.isEmpty_iff, nonempty, if_false]
  cases exponentValue? 0 exponent with
  | none =>
    simp only
    split <;> rfl
  | some value =>
    simp only
    cases Scaled.magnitude { scaled with
      exponent := scaled.exponent + if below = true then -(value : Int) else value } <;> rfl

theorem orExponent_consumes (power : IsPower text) :
    (orExponent negative scaled).Consumes text := by
  cases power with
  | some below nonempty decimal => exact scaledBy_consumes below nonempty decimal
  | none =>
    intro rest ends
    have plain {rest : List Char} (ends : Ends rest) : orExponent negative scaled rest =
        scaled.magnitude.map fun magnitude => (.float (signed negative magnitude), rest) := by
      rcases ends.cases with rfl | ⟨c, more, rfl, _, _, small, big⟩
      · unfold orExponent
        cases scaled.magnitude <;> rfl
      · unfold orExponent
        split
        · next same => cases same; exact absurd rfl small
        · next same => cases same; exact absurd rfl big
        · cases scaled.magnitude <;> rfl
    rw [List.nil_append, plain ends, plain .nil]
    cases scaled.magnitude <;> rfl

theorem IsPower.stops {rest : List Char} (power : IsPower text) (ends : Ends rest) :
    ∀ c ∈ (text ++ rest).head?, c.isDigit = false := by
  cases power with
  | none => rcases ends.cases with rfl | ⟨c, more, rfl, stop, _⟩ <;> simp [*]
  | some below _ _ =>
    rintro c same
    cases same
    rfl

theorem IsTail.stops {rest : List Char} (tail : IsTail text) (ends : Ends rest) :
    ∀ c ∈ (text ++ rest).head?, c.isDigit = false := by
  cases tail with
  | whole power => exact power.stops ends
  | pointed _ _ _ =>
    rintro c same
    cases same
    rfl

theorem pointed_consumes (nonempty : front ≠ []) (decimal : ∀ c ∈ front, c.isDigit)
    (power : IsPower text) : (pointed negative scaled).Consumes (front ++ text) := by
  intro rest ends
  have whole := digits_append decimal (power.stops ends)
  have alone := digits_append decimal (power.stops .nil)
  rw [List.append_nil] at alone
  rw [List.append_assoc]
  simp only [pointed, whole, alone, List.isEmpty_iff, nonempty, if_false]
  exact orExponent_consumes power rest ends

/-- Without a point, a number is whole if it fits and has no exponent. -/
theorem tail_of_head? (fits : Bool) (noPoint : text.head? ≠ some '.') :
    tail negative scaled fits text =
      if fits ∧ text.head? ≠ some 'e' ∧ text.head? ≠ some 'E' then
        .ok (ofWhole negative scaled.significand, text)
      else orExponent negative scaled text := by
  unfold tail
  split
  · exact absurd rfl noPoint
  · rfl

theorem tail_of_ends {rest : List Char} (ends : Ends rest) :
    tail negative scaled true rest = .ok (ofWhole negative scaled.significand, rest) := by
  rcases ends.cases with rfl | ⟨c, more, rfl, _, point, small, big⟩
  · rfl
  · rw [tail_of_head? true (by simpa using point)]
    simp [small, big]

theorem tail_consumes (fits : Bool) (isTail : IsTail text) :
    (tail negative scaled fits).Consumes text := by
  cases isTail with
  | pointed nonempty decimal power => exact pointed_consumes nonempty decimal power
  | whole power =>
    intro rest ends
    cases power with
    | some below nonempty decimal =>
      rw [tail_of_head? fits (by simp), tail_of_head? fits (by simp), if_neg (by simp),
        if_neg (by simp)]
      exact orExponent_consumes (.some below nonempty decimal) rest ends
    | none =>
      cases fits with
      | true => rw [List.nil_append, tail_of_ends ends, tail_of_ends .nil]; rfl
      | false =>
        have noPoint : rest.head? ≠ some '.' := by
          rcases ends.cases with rfl | ⟨c, _, rfl, _, point, _⟩
          · simp
          · simpa using point
        have consumes : (orExponent negative scaled).Consumes [] := orExponent_consumes .none
        rw [List.nil_append, tail_of_head? false noPoint, tail_of_head? false (by simp)]
        exact consumes rest ends

theorem unsigned_consumes (magnitude : IsMagnitude text) : (unsigned negative).Consumes text := by
  obtain ⟨nonempty, decimal, lone, isTail⟩ := magnitude
  rename_i front text
  intro rest ends
  have whole := digits_append decimal (isTail.stops ends)
  have alone := digits_append decimal (isTail.stops .nil)
  rw [List.append_nil] at alone
  rw [List.append_assoc]
  simp only [unsigned, whole, alone]
  split
  · exact absurd rfl nonempty
  · simp at lone
  · exact tail_consumes _ isTail rest ends

/-- A number that is written with a minus sign if it is below zero. -/
inductive IsNumeral : List Char → Prop where
  | intro (negative : Bool) {text : List Char} (magnitude : IsMagnitude text) :
      IsNumeral ((Decimal.sign negative).toList ++ text)

theorem IsMagnitude.exists_cons (magnitude : IsMagnitude text) :
    ∃ c more, text = c :: more ∧ c.isDigit := by
  cases magnitude with
  | @intro front _ nonempty decimal _ _ =>
    cases front with
    | nil => exact absurd rfl nonempty
    | cons c more => exact ⟨c, _, rfl, decimal c List.mem_cons_self⟩

/-- A number begins with its sign or a digit. -/
theorem IsNumeral.exists_cons (numeral : IsNumeral text) :
    ∃ c more, text = c :: more ∧ (c = '-' ∨ c.isDigit) := by
  cases numeral with
  | intro negative magnitude =>
    obtain ⟨c, more, rfl, digit⟩ := magnitude.exists_cons
    cases negative with
    | true => exact ⟨'-', _, rfl, .inl rfl⟩
    | false => exact ⟨c, more, rfl, .inr digit⟩

/-- Without a sign, reading begins with the digits. -/
theorem read_of_isDigit {c : Char} (digit : c.isDigit) :
    read (c :: text) = unsigned false (c :: text) := by
  unfold read
  split
  · next same =>
    cases same
    cases digit
  · rfl

/-- Reading a number takes all of it. -/
theorem IsNumeral.consumes (numeral : IsNumeral text) : read.Consumes text := by
  cases numeral with
  | @intro negative text magnitude =>
    intro rest ends
    cases negative with
    | true => exact unsigned_consumes magnitude rest ends
    | false =>
      obtain ⟨c, more, rfl, digit⟩ := magnitude.exists_cons
      have consumes : Reader.Consumes (Number.unsigned false) (c :: more) :=
        unsigned_consumes magnitude
      have taken := consumes rest ends
      rw [List.cons_append, ← read_of_isDigit digit, ← read_of_isDigit digit] at taken
      exact taken

end Number

end Billiard.Json

namespace Billiard.Decimal

open Json.Number (IsPower IsTail IsMagnitude IsPointed IsNumeral)

theorem isDigit_of_mem_toDigits {n : Nat} {c : Char} (member : c ∈ Nat.toDigits 10 n) :
    c.isDigit := Nat.isDigit_of_mem_toDigits (by decide) (by decide) member

/-- Only zero begins with a zero. -/
theorem eq_zero_of_head? {n : Nat} (zero : (Nat.toDigits 10 n).head? = some '0') : n = 0 := by
  induction n using Nat.strongRecOn with
  | ind n ih =>
    rw [Nat.toDigits_eq_if (by decide)] at zero
    split at zero
    · next small =>
      have lead : ∀ digit < 10, digit.digitChar = '0' → digit = 0 := by decide
      exact lead n small (by simpa using zero)
    · next large =>
      cases more : Nat.toDigits 10 (n / 10) with
      | nil => exact absurd more Nat.toDigits_ne_nil
      | cons c _ =>
        rw [more] at zero
        have less := ih (n / 10) (by omega) (more ▸ zero)
        omega

namespace Digits

variable {number : Digits}

theorem toList_text : number.text.toList = Nat.toDigits 10 number.digits := Nat.toList_repr

theorem toList_zeros (count : Nat) : (zeros count).toList = List.replicate count '0' := by
  simp [zeros]

theorem text_ne_nil : number.text.toList ≠ [] := toList_text ▸ Nat.toDigits_ne_nil

theorem isDigit_of_mem_text {c : Char} (member : c ∈ number.text.toList) : c.isDigit :=
  isDigit_of_mem_toDigits (toList_text ▸ member)

/-- Only zero begins with a zero, and it has no further digits. -/
theorem text_of_head? (zero : number.text.toList.head? = some '0') :
    number.digits = 0 ∧ number.text.toList = ['0'] := by
  have nothing := eq_zero_of_head? (toList_text ▸ zero)
  rw [toList_text, nothing]
  exact ⟨rfl, Nat.toDigits_zero 10⟩

/-- The digits as they are written without an exponent, with a zero behind the point of a whole
number. -/
def written (number : Digits) : Nat :=
  match number.exponent with
  | .ofNat up => number.digits * 10 ^ (up + 1)
  | .negSucc _ => number.digits

/-- How many of them stand behind the point. -/
def places (number : Digits) : Nat :=
  match number.exponent with
  | .ofNat _ => 1
  | .negSucc down => down + 1

/-- A whole number that is not zero, or that is without ending zeros. -/
private theorem isPointed_of_whole {up : Nat} (proper : number.digits = 0 → up = 0) :
    IsPointed (number.digits * 10 ^ (up + 1)) 1
      (number.text.toList ++ (zeros up).toList ++ ['.', '0']) := by
  have fraction : ∀ c ∈ ['0'], c.isDigit := by simp
  have zero : ['0'] = List.replicate 1 '0' := rfl
  refine .intro (List.append_ne_nil_of_left_ne_nil text_ne_nil _) ?_ ?_ (by simp) fraction ?_ rfl
  · simp only [List.mem_append, toList_zeros, List.mem_replicate]
    rintro c (member | ⟨_, rfl⟩)
    · exact isDigit_of_mem_text member
    · rfl
  · intro zero
    have first : number.text.toList.head? = some '0' := by
      rwa [List.head?_append, List.head?_eq_some_head text_ne_nil, Option.some_or,
        ← List.head?_eq_some_head] at zero
    obtain ⟨nothing, text⟩ := text_of_head? first
    simp [text, proper nothing, zeros]
  · rw [zero, toList_zeros, toList_text, List.append_assoc, List.replicate_append_replicate,
      Nat.ofDigitChars_append, Nat.ofDigitChars_ten_toDigits, Nat.ofDigitChars_replicate_zero,
      Nat.mul_comm]

/-- With some places after the point, zeros in front are no more than the one before the point. -/
private theorem isPointed_of_places {digits : String} {down : Nat}
    (same : digits = zeros (down + 2 - number.text.length) ++ number.text) :
    IsPointed number.digits (down + 1) (digits.toList.take (digits.length - (down + 1)) ++
      '.' :: digits.toList.drop (digits.length - (down + 1))) := by
  have list : digits.toList =
      List.replicate (down + 2 - number.text.length) '0' ++ number.text.toList := by
    rw [same, String.toList_append, toList_zeros]
  have length : digits.length = down + 2 - number.text.length + number.text.length := by
    rw [← String.length_toList, list, List.length_append, List.length_replicate,
      String.length_toList]
  have decimal : ∀ c ∈ digits.toList, c.isDigit := by
    rw [list]
    simp only [List.mem_append, List.mem_replicate]
    rintro c (⟨_, rfl⟩ | member)
    · rfl
    · exact isDigit_of_mem_text member
  have count : (digits.toList.drop (digits.length - (down + 1))).length = down + 1 := by
    rw [List.length_drop, String.length_toList]
    omega
  refine .intro ?_ (fun c member => decimal c (List.mem_of_mem_take member)) ?_
    (List.ne_nil_of_length_eq_add_one count)
    (fun c member => decimal c (List.mem_of_mem_drop member)) ?_ count
  · rw [ne_eq, List.take_eq_nil_iff, list]
    rintro (none | none)
    · omega
    · exact text_ne_nil (List.append_eq_nil_iff.1 none).2
  · intro zero
    by_cases short : number.text.length < down + 2
    · have one : digits.length - (down + 1) = 1 := by omega
      obtain ⟨more, some⟩ : ∃ more, down + 2 - number.text.length = more + 1 :=
        ⟨down + 1 - number.text.length, by omega⟩
      rw [one, list, some]
      rfl
    · have all : digits.toList = number.text.toList := by
        rw [list, Nat.sub_eq_zero_of_le (Nat.not_lt.1 short)]
        rfl
      have first : number.text.toList.head? = some '0' := by
        rw [all, List.head?_take, if_neg (by omega)] at zero
        exact zero
      have one := congrArg List.length (text_of_head? first).2
      rw [String.length_toList, List.length_singleton] at one
      omega
  · rw [List.take_append_drop, list, Nat.ofDigitChars_append, Nat.ofDigitChars_replicate_zero,
      Nat.mul_zero, toList_text, Nat.ofDigitChars_ten_toDigits]

/-- All places of a number make one without exponent, if none of its zeros leads. -/
theorem positional_isPointed (proper : number.digits = 0 → number.exponent ≤ 0) :
    IsPointed number.written number.places (number.positional true).toList := by
  unfold positional written places
  cases exponent : number.exponent with
  | ofNat up =>
    have whole : IsPointed (number.digits * 10 ^ (up + 1)) 1
        (number.text.toList ++ (zeros up).toList ++ ['.', '0']) := by
      apply isPointed_of_whole
      intro nothing
      have none := proper nothing
      rw [exponent] at none
      exact Nat.le_zero.1 (Int.ofNat_le.1 none)
    simpa using whole
  | negSucc down =>
    have places := isPointed_of_places (rfl : _ = zeros (down + 2 - number.text.length) ++ _)
    simpa using places

/-- With an exponent, one digit stands in front. -/
private theorem isMagnitude_of_power {ending : String} (power : IsPower ('e' :: ending.toList)) :
    IsMagnitude ((number.text.take 1).copy ++
      (if (number.text.drop 1).copy.isEmpty then "" else "." ++ (number.text.drop 1).copy) ++
      "e" ++ ending).toList := by
  obtain ⟨c, more, text⟩ := List.exists_cons_of_ne_nil (text_ne_nil : number.text.toList ≠ [])
  have decimal : ∀ d ∈ c :: more, d.isDigit := text ▸ fun d => isDigit_of_mem_text
  have first : (number.text.take 1).copy.toList = [c] := by simp [text]
  have rest : (number.text.drop 1).copy.toList = more := by simp [text]
  have front : ∀ d ∈ [c], d.isDigit := by simpa using decimal c List.mem_cons_self
  have lone : [c].head? = some '0' → [c] = ['0'] := by simp
  simp only [String.toList_append, first]
  split
  · simpa using IsMagnitude.intro (by simp) front lone (.whole power)
  · next some =>
    have nonempty : more ≠ [] := by
      rintro rfl
      rw [String.toList_eq_nil_iff.1 rest] at some
      exact some rfl
    have tail := IsTail.pointed nonempty (fun d member => decimal d (.tail _ member)) power
    simpa [rest] using IsMagnitude.intro (by simp) front lone tail

theorem scientific_isMagnitude : IsMagnitude number.scientific.toList := by
  have power (below : Bool) (n : Nat) :
      IsPower ('e' :: cond below '-' '+' :: Nat.toDigits 10 n) :=
    .some below Nat.toDigits_ne_nil fun c => isDigit_of_mem_toDigits
  unfold scientific
  cases number.leading with
  | ofNat up => exact isMagnitude_of_power (by simpa [Nat.toList_repr] using power false up)
  | negSucc down =>
    exact isMagnitude_of_power (by simpa [Nat.toList_repr] using power true (down + 1))

theorem e_mem_scientific : 'e' ∈ number.scientific.toList := by
  unfold scientific
  simp

end Digits

/-- If the shortest decimal is zero, it is without ending zeros. -/
theorem exponent_shortest_of_zero {tie : Tie} {value : Binary} (proper : value.Proper)
    (nothing : (shortest tie value).digits = 0) : (shortest tie value).exponent ≤ 0 := by
  by_cases zero : value.significand = 0
  · simp [shortest, Binary.isZero, zero]
  · exact absurd nothing (digits_shortest_ne_zero tie zero proper)

/-- Every finite number is written as one. -/
theorem Layout.finite_isNumeral (layout : Layout) (pointed : layout.pointed = true)
    {value : Binary} (proper : value.Proper) : IsNumeral (layout.finite value).toList := by
  rw [Layout.finite, String.toList_append]
  refine .intro value.negative ?_
  split
  · rw [pointed]
    exact (Digits.positional_isPointed (exponent_shortest_of_zero proper)).isMagnitude
  · exact Digits.scientific_isMagnitude

end Billiard.Decimal

namespace Billiard.Json.Document

/-- Every finite number is written as one. -/
theorem floatText_isNumeral {value : Float} (finite : value.isFinite) :
    Number.IsNumeral (floatText value).toList := by
  obtain ⟨exact, same, proper⟩ := Decimal.Exact.exists_finite finite
  rw [floatText, if_pos finite, Decimal.Layout.render, same]
  exact Decimal.Layout.finite_isNumeral number rfl proper

end Billiard.Json.Document

namespace Billiard.Json.Number

theorem extend?_of_lt {significand : Nat} {digit : Char}
    (fits : significand * 10 + digitValue digit < UInt64.size) :
    extend? significand digit = some (significand * 10 + digitValue digit) := by
  unfold extend?
  exact if_pos fits

theorem ofDigitChars_cons (digit : Char) (more : List Char) (significand : Nat) :
    Nat.ofDigitChars 10 (digit :: more) significand =
      Nat.ofDigitChars 10 more (significand * 10 + digitValue digit) := by
  rw [Nat.ofDigitChars_cons, Nat.mul_comm, digitValue]

theorem le_ofDigitChars (digits : List Char) (significand : Nat) :
    significand ≤ Nat.ofDigitChars 10 digits significand := by
  have scale : 0 < 10 ^ digits.length := Nat.pow_pos (by decide)
  rw [Nat.ofDigitChars_eq_ofDigitChars_zero]
  exact Nat.le_trans (Nat.le_mul_of_pos_left significand scale) (Nat.le_add_right _ _)

-- Left to itself, the unfolding would count up to the bound in `extend?`.
seal extend? in
theorem wholeDigits_cons (significand : Nat) (digit : Char) (more : List Char) :
    wholeDigits significand (digit :: more) =
      match extend? significand digit with
      | some extended => wholeDigits extended more
      | none => (⟨significand, more.length + 1⟩, false) := rfl

/-- Digits that fit are all read. -/
theorem wholeDigits_eq {digits : List Char} {significand : Nat}
    (fits : Nat.ofDigitChars 10 digits significand < UInt64.size) :
    wholeDigits significand digits = (⟨Nat.ofDigitChars 10 digits significand, 0⟩, true) := by
  induction digits generalizing significand with
  | nil => rfl
  | cons digit more ih =>
    rw [ofDigitChars_cons] at fits ⊢
    rw [wholeDigits_cons, extend?_of_lt (Nat.lt_of_le_of_lt (le_ofDigitChars more _) fits)]
    exact ih fits

seal extend? in
theorem fractionDigits_cons (scaled : Scaled) (digit : Char) (more : List Char) :
    fractionDigits scaled (digit :: more) =
      match extend? scaled.significand digit with
      | some extended => fractionDigits ⟨extended, scaled.exponent - 1⟩ more
      | none => scaled := rfl

/-- Digits behind the point that fit are all read, and counted. -/
theorem fractionDigits_eq {digits : List Char} {significand : Nat} {exponent : Int}
    (fits : Nat.ofDigitChars 10 digits significand < UInt64.size) :
    fractionDigits ⟨significand, exponent⟩ digits =
      ⟨Nat.ofDigitChars 10 digits significand, exponent - digits.length⟩ := by
  induction digits generalizing significand exponent with
  | nil => exact congrArg (Scaled.mk significand) (Int.sub_zero exponent).symm
  | cons digit more ih =>
    have one : exponent - 1 - more.length = exponent - (digit :: more).length := by
      rw [List.length_cons]
      omega
    rw [ofDigitChars_cons] at fits ⊢
    rw [fractionDigits_cons, extend?_of_lt (Nat.lt_of_le_of_lt (le_ofDigitChars more _) fits)]
    simp only
    rw [ih fits, one]

/-- Digits with a point are divided by a power of ten. -/
theorem IsPointed.unsigned_eq {value places : Nat} {text : List Char} (negative : Bool)
    (pointed : IsPointed value places text) (fits : value < UInt64.size) :
    unsigned negative text =
      .ok (.float (signed negative (divide (UInt64.ofNat value).toFloat places)), []) := by
  cases pointed with
  | @intro front fraction nonempty decimal lone some decimals same count =>
    have all : digits (front ++ '.' :: fraction) = (front, '.' :: fraction) :=
      digits_append decimal (by simp)
    have behind : digits fraction = (fraction, []) := by
      simpa using digits_append_ends decimals .nil
    rw [Nat.ofDigitChars_append] at same
    have first : Nat.ofDigitChars 10 front 0 < UInt64.size :=
      Nat.lt_of_le_of_lt (le_ofDigitChars fraction _) (same.symm ▸ fits)
    have scaled : fractionDigits ⟨Nat.ofDigitChars 10 front 0, 0⟩ fraction = ⟨value, -places⟩ := by
      rw [fractionDigits_eq (same.symm ▸ fits), same, count, Int.zero_sub]
    obtain ⟨down, down_eq⟩ : ∃ down, places = down + 1 :=
      Nat.exists_eq_add_one.2 (count ▸ List.length_pos_iff.2 some)
    simp only [unsigned, all]
    split
    · exact absurd rfl nonempty
    · simp at lone
    · simp only [wholeDigits_eq first]
      change Number.pointed negative ⟨Nat.ofDigitChars 10 front 0, 0⟩ fraction = _
      simp only [Number.pointed, behind, List.isEmpty_iff, some, if_false, scaled]
      rw [down_eq]
      rfl

/-- So they are behind a sign. -/
theorem IsPointed.read_eq {value places : Nat} {text : List Char} (negative : Bool)
    (pointed : IsPointed value places text) (fits : value < UInt64.size) :
    read ((Decimal.sign negative).toList ++ text) =
      .ok (.float (signed negative (divide (UInt64.ofNat value).toFloat places)), []) := by
  have unsigned := pointed.unsigned_eq negative fits
  cases negative with
  | true => exact unsigned
  | false =>
    obtain ⟨c, more, rfl, digit⟩ := pointed.isMagnitude.exists_cons
    exact (read_of_isDigit digit).trans unsigned

/-- The digits of a whole number are a number. -/
theorem isMagnitude_toDigits (n : Nat) : IsMagnitude (Nat.toDigits 10 n) := by
  have text : Nat.toDigits 10 n ++ [] = Nat.toDigits 10 n := List.append_nil _
  rw [← text]
  refine .intro Nat.toDigits_ne_nil (fun c => Decimal.isDigit_of_mem_toDigits) ?_ (.whole .none)
  intro zero
  rw [Decimal.eq_zero_of_head? zero]
  exact Nat.toDigits_zero 10

/-- A number of 64 bits reads as a whole one. -/
theorem read_toDigits {n : Nat} (small : n < UInt64.size) :
    read (Nat.toDigits 10 n) = .ok (.whole (.ofNat n), []) := by
  have value : Nat.ofDigitChars 10 (Nat.toDigits 10 n) 0 = n := Nat.ofDigitChars_ten_toDigits
  have scaled : wholeDigits 0 (Nat.toDigits 10 n) = (⟨n, 0⟩, true) := by
    rw [wholeDigits_eq (by rwa [value]), value]
  have all : digits (Nat.toDigits 10 n) = (Nat.toDigits 10 n, []) := by
    simpa using digits_append_ends (fun c => Decimal.isDigit_of_mem_toDigits) .nil
  have unsigned : unsigned false (Nat.toDigits 10 n) = .ok (.whole (.ofNat n), []) := by
    rw [Number.unsigned, all]
    simp only
    split
    · next none => exact absurd none Nat.toDigits_ne_nil
    · next lead =>
      have zero : n = 0 := Decimal.eq_zero_of_head? (by rw [lead]; rfl)
      rw [zero, Nat.toDigits_zero] at lead
      cases lead
    · rw [scaled]
      exact tail_of_ends .nil
  obtain ⟨c, more, begins, digit⟩ := (isMagnitude_toDigits n).exists_cons
  rw [begins] at unsigned ⊢
  rw [read_of_isDigit digit]
  exact unsigned

end Billiard.Json.Number
