import Billiard.Proofs.Spacing

/-!
Writing and reading again. What a codec reads where a value was written depends on nothing around it
(`Finds`): neither on the style nor on what stands behind. Whole numbers and names are found as they
are; a machine number is what its own text reads as; lists and records are found part by part.
-/

namespace Billiard.Json

variable {α : Type} {rest blanks : List Char} {style : Document.Style}

namespace Codec

/-- A value after it was saved by itself and loaded again. -/
def reread (codec : Codec α) (value : α) : Except Fault α :=
  codec.decode (codec.encode Document.pretty value)

/-- Wherever a value stands in a document, reading it takes it and finds what `found` says. -/
def Finds (codec : Codec α) (found : α → Except Fault α) : Prop :=
  ∀ (value : α) {style : Document.Style} (depth : Nat) {blanks rest : List Char},
    style.Spaced → Blank blanks → Ends rest →
      codec.read (blanks ++ (((codec.write value).render style depth).toList ++ rest)) =
        (found value).map fun found => (found, rest)

/-- The same without blanks in front. -/
theorem Finds.here {codec : Codec α} {found : α → Except Fault α} (finds : codec.Finds found)
    (value : α) {style : Document.Style} (depth : Nat) (spaced : style.Spaced) (ends : Ends rest) :
    codec.read (((codec.write value).render style depth).toList ++ rest) =
      (found value).map fun found => (found, rest) := by
  have none : Blank [] := by simp [Blank]
  exact finds value depth spaced none ends

/-- Wherever a value stands in a document, it reads as it does by itself. -/
def Local (codec : Codec α) : Prop := codec.Finds codec.reread

/-- What is found in a document is found in a value by itself. -/
theorem Finds.reread_eq {codec : Codec α} {found : α → Except Fault α} (finds : codec.Finds found) :
    codec.reread = found := by
  funext value
  have alone : codec.read (codec.encode Document.pretty value).toList =
      (found value).map fun found => (found, []) := by
    simpa [encode] using finds.here value 0 Document.Style.spaced_pretty .nil
  rw [reread, decode, Reader.document, alone]
  cases found value <;> rfl

theorem Finds.isLocal {codec : Codec α} {found : α → Except Fault α} (finds : codec.Finds found) :
    codec.Local := by
  rw [Local, finds.reread_eq]
  exact finds

end Codec

/-- A machine number after it was written and read: only a finite one is found again. -/
def Number.again (value : Float) : Except Fault Float :=
  if value.isFinite then
    (Number.read (Document.floatText value).toList).map fun (number, _) => number.toFloat
  else .error (.wrongType .null "f64")

namespace Codec

/-- The character that a value begins with is what a reader sees. -/
theorem peek_render {β : Type} {style : Document.Style} {depth : Nat} (document : Document)
    (next : Option Char → Reader β) (blank : Blank blanks) :
    ∃ c more, (document.render style depth).toList = c :: more ∧ isBlank c = false ∧
      c ∉ [',', ']', '\x7d'] ∧ (Reader.peek >>= next)
        (blanks ++ ((document.render style depth).toList ++ rest)) =
          next (some c) ((document.render style depth).toList ++ rest) := by
  obtain ⟨c, more, text, visible, other⟩ := document.begins_render style depth
  refine ⟨c, more, text, visible, other, ?_⟩
  rw [text]
  exact Reader.bind_of_ok (peek_blanks blank visible)

theorem number_takes {text rest : List Char} (numeral : Number.IsNumeral text) (wanted : String)
    (blank : Blank blanks) (ends : Ends rest) :
    Reader.number wanted (blanks ++ (text ++ rest)) =
      (Number.read text).map fun (number, _) => (number, rest) := by
  rw [← numeral.consumes rest ends]
  obtain ⟨c, more, rfl, sign⟩ := numeral.exists_cons
  rw [Reader.number, List.cons_append,
    Reader.bind_of_ok (peek_blanks blank (Document.visible_of_sign sign).1)]
  exact congrFun (if_pos sign) _

theorem finds_float : float.Finds Number.again := by
  intro value style depth blanks rest _ blank ends
  change Reader.float (blanks ++ ((Document.render style depth (.float value)).toList ++ rest)) = _
  rw [Document.render]
  unfold Number.again
  split
  · next finite =>
    have number := number_takes (Document.floatText_isNumeral finite) "f64" blank ends
    change (Reader.number "f64" >>= _) _ = _
    generalize Number.read _ = read at number
    cases read with
    | error fault => exact Reader.bind_of_error number
    | ok outcome =>
      exact Reader.bind_of_ok number
  · next infinite =>
    have refused : Reader.refuse "f64" ('n' :: 'u' :: 'l' :: 'l' :: rest) =
        (.error (.wrongType .null "f64") : Except Fault (Number × List Char)) := rfl
    have number : Reader.number "f64" (blanks ++ 'n' :: 'u' :: 'l' :: 'l' :: rest) =
        .error (.wrongType .null "f64") := by
      rw [Reader.number, Reader.bind_of_ok (peek_blanks blank rfl), ← refused]
      rfl
    rw [Document.floatText, if_neg infinite]
    change (Reader.number "f64" >>= _) (blanks ++ 'n' :: 'u' :: 'l' :: 'l' :: rest) = _
    exact Reader.bind_of_error number

/-- A whole number is found as it is. -/
theorem finds_whole : whole.Finds .ok := by
  intro value style depth blanks rest _ blank ends
  have numeral : Number.IsNumeral (Nat.toDigits 10 value.toNat) :=
    .intro false (Number.isMagnitude_toDigits value.toNat)
  have number := number_takes numeral "u64" blank ends
  rw [Number.read_toDigits value.toNat_lt] at number
  change (Reader.number "u64" >>= _)
    (blanks ++ ((Document.render style depth (.natural value.toNat)).toList ++ rest)) = _
  rw [Document.render, Nat.toList_repr, Reader.bind_of_ok number]
  exact congrArg (fun value => Except.ok (value, rest)) (UInt64.ofNat_toNat)

/-- What may be absent is found as it is, if nothing that is present looks like `null`. -/
theorem finds_optional {codec : Codec α} {found : α → Except Fault α} (finds : codec.Finds found)
    (present : ∀ value (style : Document.Style) depth,
      ((codec.write value).render style depth).toList.head? ≠ some 'n') :
    (optional codec).Finds fun
      | none => .ok none
      | some value => (found value).map some := by
  intro value style depth blanks rest spaced blank ends
  cases value with
  | none =>
    change Reader.optional codec.read
      (blanks ++ ((Document.render style depth .null).toList ++ rest)) = _
    rw [Document.render]
    change (Reader.peek >>= _) (blanks ++ 'n' :: ("ull".toList ++ rest)) = _
    rw [Reader.bind_of_ok (peek_blanks blank rfl)]
    rfl
  | some value =>
    have reads := finds.here value depth spaced ends
    have other := present value style depth
    change (Reader.peek >>= _)
      (blanks ++ (((codec.write value).render style depth).toList ++ rest)) = _
    obtain ⟨c, more, text, _, _, seen⟩ := peek_render (codec.write value) _ blank
    rw [text, List.head?_cons, ne_eq, Option.some.injEq] at other
    rw [seen]
    simp only [Option.some.injEq, other, imp_self]
    rw [Reader.bind_of_map reads]
    cases found value <;> rfl

/-- The texts of some values. -/
def texts (codec : Codec α) (style : Document.Style) (depth : Nat) (values : List α) :
    List (List Char) := values.map fun value => ((codec.write value).render style depth).toList

theorem texts_cons (codec : Codec α) (style : Document.Style) (depth : Nat) (value : α)
    (values : List α) : codec.texts style depth (value :: values) =
      ((codec.write value).render style depth).toList :: codec.texts style depth values := rfl

theorem texts_begin (codec : Codec α) (style : Document.Style) (depth : Nat) (values : List α) :
    ∀ text ∈ codec.texts style depth values, Begins text := by
  intro text member
  obtain ⟨value, _, rfl⟩ := List.mem_map.1 member
  exact (codec.write value).begins_render style depth

theorem renderItems_map (codec : Codec α) (style : Document.Style) (depth : Nat)
    (values : List α) :
    (Document.renderItems style depth (values.map codec.write)).map String.toList =
      codec.texts style depth values := by
  induction values with
  | nil => simp [Document.renderItems, texts]
  | cons value values ih =>
    rw [List.map_cons, Document.renderItems, List.map_cons, ih]
    rfl

/-- The items of a list are found one after the other. -/
theorem items_row {codec : Codec α} (isLocal : codec.Local) {style : Document.Style}
    (spaced : style.Spaced) (outer inner : Nat) (values : List α) (rest : List Char)
    (first : Bool) {count : Nat} (enough : values.length < count) :
    Reader.items codec.read count first
        (style.row outer first (codec.texts style inner values) ++ ']' :: rest) =
      (values.mapM codec.reread).map fun found => (found, ']' :: rest) := by
  induction values generalizing first count with
  | nil =>
    obtain ⟨count, rfl⟩ := Nat.exists_eq_add_one.2 enough
    rw [Reader.items, texts, List.map_nil, Reader.bind_of_ok (spaced.hasItem_nil first)]
    rfl
  | cons value values ih =>
    obtain ⟨count, rfl⟩ := Nat.exists_eq_add_one.2 (Nat.zero_lt_of_lt enough)
    have begins := (codec.write value).begins_render style inner
    have ends := spaced.ends_row outer (codec.texts style inner values)
      (by simp : ']' ∈ [']', '\x7d']) rest
    have reads := isLocal.here value inner spaced ends
    have more := ih false (Nat.lt_of_succ_lt_succ enough)
    rw [texts_cons, List.mapM_cons]
    refine (Reader.bind_of_ok (spaced.hasItem_cons first begins _)).trans ?_
    exact Reader.read_both List.cons reads more

/-- A list is found item by item. -/
theorem finds_list {codec : Codec α} (isLocal : codec.Local) :
    (list codec).Finds (List.mapM codec.reread) := by
  intro values style depth blanks rest spaced blank ends
  change Reader.list codec.read (blanks ++
    ((Document.render style depth (.list (values.map codec.write))).toList ++ rest)) = _
  rw [Document.render, Document.Style.toList_enclose, renderItems_map]
  let inside := style.row depth true (codec.texts style (depth + 1) values) ++ ']' :: rest
  have enough : values.length < inside.length + 1 := by
    have least := style.length_le_row depth true (codec.texts_begin style (depth + 1) values)
    simp only [inside, List.length_append, texts, List.length_map] at least ⊢
    omega
  have items := items_row isLocal spaced depth (depth + 1) values rest true enough
  have text : blanks ++ ("[".toList ++
      (style.row depth true (codec.texts style (depth + 1) values) ++ "]".toList) ++ rest) =
        blanks ++ '[' :: inside := by simp [inside]
  rw [text, Reader.list, Reader.bind_of_ok (peek_blanks blank rfl)]
  simp only
  rw [Reader.bind_of_ok Reader.drop_cons, Reader.get_bind, Reader.bind_of_map items]
  cases List.mapM codec.reread values <;> rfl

/-- One of several names is found as it is, if no two values have the same name. -/
theorem finds_choice [BEq α] {known : List (String × α)}
    (named : ∀ value,
      known.lookup (((known.find? (·.2 == value)).map (·.1)).getD "") = some value) :
    (choice known).Finds .ok := by
  intro value style depth blanks rest _ blank _
  let name := ((known.find? (·.2 == value)).map (·.1)).getD ""
  have reads : Reader.text "" ((Document.quotedText name).toList ++ rest) = .ok (name, rest) :=
    Reader.text_quotedText "" name
  change Reader.choice known
    (blanks ++ ((Document.render style depth (.text name)).toList ++ rest)) = _
  rw [Quotation.toList_quotedText, List.cons_append] at reads
  rw [Document.render, Quotation.toList_quotedText, List.cons_append, Reader.choice,
    Reader.bind_of_ok (peek_blanks blank rfl)]
  simp only
  rw [Reader.bind_of_ok reads]
  exact Reader.oneOf_of_lookup (named value)

end Codec

namespace Field

/-- The values of fields after each was saved by itself and loaded again. -/
def rereadAll : (fields : List Field) → Values fields → Except Fault (Values fields)
  | [], () => .ok ()
  | field :: rest, (value, values) => do
    return (← field.codec.reread value, ← rereadAll rest values)

/-- The values of a record are found again if the first one is and the others are. -/
theorem rereadAll_cons_iff {field : Field} {fields : List Field} {value found : field.type}
    {values others : Values fields} :
    rereadAll (field :: fields) (value, values) = .ok (found, others) ↔
      field.codec.reread value = .ok found ∧ rereadAll fields values = .ok others := by
  rw [rereadAll]
  cases field.codec.reread value with
  | error fault => exact ⟨nofun, nofun⟩
  | ok head =>
    cases rereadAll fields values with
    | error fault => exact ⟨nofun, nofun⟩
    | ok tail =>
      constructor
      · rintro ⟨⟩
        exact ⟨rfl, rfl⟩
      · rintro ⟨⟨⟩, ⟨⟩⟩
        rfl

theorem rereadAll_one_iff {field : Field} {value found : field.type} :
    rereadAll [field] (value, ()) = .ok (found, ()) ↔ field.codec.reread value = .ok found :=
  rereadAll_cons_iff.trans (and_iff_left rfl)

/-- One more slot in front. -/
def slotted {field : Field} {fields : List Field} (slot : Option field.type)
    (slots : Slots fields) : Slots (field :: fields) := (slot, slots)

/-- All slots filled. -/
def filled : (fields : List Field) → Values fields → Slots fields
  | [], () => ()
  | _ :: rest, (value, values) => slotted (some value) (filled rest values)

theorem complete_filled (fields : List Field) (values : Values fields) :
    complete fields (filled fields values) = .ok values := by
  induction fields with
  | nil => rfl
  | cons field fields ih =>
    obtain ⟨value, values⟩ := values
    change (complete fields (filled fields values)).bind _ = _
    rw [ih values]
    rfl

/-- The texts of values, each behind what `label` makes of the name of its field. -/
def texts (label : String → List Char) (style : Document.Style) (depth : Nat) :
    (fields : List Field) → Values fields → List (List Char)
  | [], () => []
  | field :: rest, (value, values) =>
    (label field.name ++ ((field.codec.write value).render style depth).toList)
      :: texts label style depth rest values

/-- What stands in front of a value in an object. -/
def key (style : Document.Style) (name : String) : List Char :=
  (Document.quotedText name).toList ++ style.colon.toList

theorem renderMembers_writeAll (depth : Nat) (fields : List Field) (values : Values fields) :
    (Document.renderMembers style depth (writeAll fields values)).map String.toList =
      texts (key style) style depth fields values := by
  induction fields with
  | nil =>
    change (Document.renderMembers style depth []).map _ = []
    rw [Document.renderMembers, List.map_nil]
  | cons field fields ih =>
    obtain ⟨value, values⟩ := values
    rw [writeAll, Document.renderMembers, texts, List.map_cons, ih values, key,
      String.toList_append, String.toList_append]

theorem renderItems_writeAll (depth : Nat) (fields : List Field) (values : Values fields) :
    (Document.renderItems style depth ((writeAll fields values).map (·.2))).map String.toList =
      texts (fun _ => []) style depth fields values := by
  induction fields with
  | nil =>
    change (Document.renderItems style depth []).map _ = []
    rw [Document.renderItems, List.map_nil]
  | cons field fields ih =>
    obtain ⟨value, values⟩ := values
    rw [writeAll, List.map_cons, Document.renderItems, texts, List.map_cons, ih values]
    rfl

theorem length_texts (label : String → List Char) (depth : Nat) (fields : List Field)
    (values : Values fields) : (texts label style depth fields values).length = fields.length := by
  induction fields with
  | nil => rfl
  | cons field fields ih => exact congrArg (· + 1) (ih values.2)

theorem texts_key_begin (style : Document.Style) (depth : Nat) (fields : List Field)
    (values : Values fields) :
    ∀ text ∈ texts (key style) style depth fields values, Begins text := by
  induction fields with
  | nil => exact fun _ member => nomatch member
  | cons field fields ih =>
    obtain ⟨value, values⟩ := values
    rw [texts, key, Quotation.toList_quotedText]
    refine List.forall_mem_cons.2 ⟨⟨'"', _, rfl, rfl, by simp⟩, ih values⟩

/-- Values in a list are found one after the other. -/
theorem inOrder_row (spaced : style.Spaced) (wanted : String) (outer inner : Nat)
    (rest : List Char) {fields : List Field} (values : Values fields)
    (isLocal : ∀ field ∈ fields, field.codec.Local) (place : Nat) :
    inOrder wanted place fields (style.row outer (place == 0)
        (texts (fun _ => []) style inner fields values) ++ ']' :: rest) =
      (rereadAll fields values).map fun found =>
        (found, style.row outer (place + fields.length == 0) [] ++ ']' :: rest) := by
  induction fields generalizing place with
  | nil => rfl
  | cons field fields ih =>
    obtain ⟨value, values⟩ := values
    have begins := (field.codec.write value).begins_render style inner
    have ends := spaced.ends_row outer (texts (fun _ => []) style inner fields values)
      (by simp : ']' ∈ [']', '\x7d']) rest
    have reads := (isLocal field List.mem_cons_self).here value inner spaced ends
    have more := ih values (fun field member => isLocal field (List.mem_cons_of_mem _ member))
      (place + 1)
    have behind : place + (field :: fields).length = place + 1 + fields.length := by
      rw [List.length_cons]
      omega
    rw [behind, texts, List.nil_append]
    refine (Reader.bind_of_ok (spaced.hasItem_cons (place == 0) begins _)).trans ?_
    exact Reader.read_both Prod.mk reads more

/-- The value of a field is read into its slot. -/
theorem readInto_cons (spaced : style.Spaced) {field : Field} (isLocal : field.codec.Local)
    (value : field.type) (depth : Nat) {fields : List Field} (slots : Slots fields)
    (ends : Ends rest) :
    readInto field.name (field :: fields) (slotted none slots)
        (style.colon.toList ++ (((field.codec.write value).render style depth).toList ++ rest)) =
      (field.codec.reread value).map fun found => (slotted (some found) slots, rest) := by
  obtain ⟨blanks, blank, colon⟩ := spaced.colon_append
  have reads := isLocal value depth spaced blank ends
  refine (congrFun (if_pos rfl) _).trans ?_
  refine (Reader.bind_of_ok (colon _)).trans ?_
  refine (Reader.bind_of_map reads).trans ?_
  cases field.codec.reread value <;> rfl

theorem readInto_of_ne {field : Field} {name : String} (other : field.name ≠ name)
    {fields : List Field} (slot : Option field.type) (slots : Slots fields) :
    readInto name (field :: fields) (slotted slot slots) =
      slotted slot <$> readInto name fields slots := if_neg other

/-- A key and its value are taken from the front of a row. -/
theorem member_row {fields : List Field} (spaced : style.Spaced) (outer inner : Nat)
    (rest : List Char) {field : Field} {todo : List Field} (value : field.type)
    (values : Values todo) (isLocal : field.codec.Local)
    {put : Slots (field :: todo) → Slots fields}
    (into : ∀ slots,
      readInto field.name fields (put slots) = put <$> readInto field.name (field :: todo) slots)
    (first : Bool) (count : Nat) :
    members fields (count + 1) first (put (slotted none (noSlots todo)))
        (style.row outer first (texts (key style) style inner (field :: todo) (value, values)) ++
          '\x7d' :: rest) =
      field.codec.reread value >>= fun found =>
        members fields count false (put (slotted (some found) (noSlots todo)))
          (style.row outer false (texts (key style) style inner todo values) ++
            '\x7d' :: rest) := by
  let written := ((field.codec.write value).render style inner).toList
  let more := style.row outer false (texts (key style) style inner todo values)
  let behind := style.colon.toList ++ (written ++ (more ++ '\x7d' :: rest))
  have seen : hasKey first (style.row outer first
      (texts (key style) style inner (field :: todo) (value, values)) ++ '\x7d' :: rest) =
        .ok (true, (Document.quotedText field.name).toList ++ behind) := by
    rw [texts, key, Quotation.toList_quotedText, List.cons_append, List.cons_append,
      spaced.hasKey_cons]
    simp only [List.cons_append, List.append_assoc, written, more, behind]
  have named := @Reader.text_quotedText behind "" field.name
  have ends : Ends (more ++ '\x7d' :: rest) :=
    spaced.ends_row outer (texts (key style) style inner todo values) (by simp) rest
  have reads : readInto field.name fields (put (slotted none (noSlots todo))) behind =
      (field.codec.reread value).map fun found =>
        (put (slotted (some found) (noSlots todo)), more ++ '\x7d' :: rest) := by
    rw [into]
    exact Reader.map_of_map put
      (readInto_cons spaced isLocal value inner (noSlots todo) ends)
  refine (Reader.bind_of_ok seen).trans ?_
  refine (Reader.bind_of_ok named).trans ?_
  exact Reader.bind_of_map reads

/-- What is read into a record, if the keys in the text are the names of its fields in some part of
it that `put` fills; the slots that were filled before are held by `put`. -/
theorem members_row {fields : List Field} (spaced : style.Spaced) (outer inner : Nat)
    (rest : List Char) {todo : List Field} (values : Values todo)
    (isLocal : ∀ field ∈ todo, field.codec.Local) (distinct : (todo.map Field.name).Nodup)
    {put : Slots todo → Slots fields}
    (into : ∀ field ∈ todo, ∀ slots,
      readInto field.name fields (put slots) = put <$> readInto field.name todo slots)
    (first : Bool) {count : Nat} (enough : todo.length < count) :
    members fields count first (put (noSlots todo))
        (style.row outer first (texts (key style) style inner todo values) ++ '\x7d' :: rest) =
      (rereadAll todo values).map fun found => (put (filled todo found), '\x7d' :: rest) := by
  induction todo generalizing first count with
  | nil =>
    obtain ⟨count, rfl⟩ := Nat.exists_eq_add_one.2 enough
    exact Reader.bind_of_ok (spaced.hasKey_nil first)
  | cons field todo ih =>
    obtain ⟨count, rfl⟩ := Nat.exists_eq_add_one.2 (Nat.zero_lt_of_lt enough)
    obtain ⟨value, values⟩ := values
    rw [List.map_cons, List.nodup_cons] at distinct
    have others (found : field.type) : ∀ other ∈ todo, ∀ slots,
        readInto other.name fields (put (slotted (some found) slots)) =
          (put ∘ slotted (some found)) <$> readInto other.name todo slots := by
      intro other member slots
      have different : field.name ≠ other.name :=
        fun same => distinct.1 (List.mem_map.2 ⟨other, member, same.symm⟩)
      rw [into other (List.mem_cons_of_mem _ member), readInto_of_ne different, comp_map]
    refine (member_row spaced outer inner rest value values (isLocal field List.mem_cons_self)
      (into field List.mem_cons_self) first count).trans ?_
    rw [rereadAll]
    cases field.codec.reread value with
    | error fault => rfl
    | ok found =>
      have more := ih values (fun other member => isLocal other (List.mem_cons_of_mem _ member))
        distinct.2 (others found) false (Nat.lt_of_succ_lt_succ enough)
      refine Eq.trans more ?_
      cases rereadAll todo values <;> rfl

end Field

namespace Codec

variable {fields : List Field}

/-- A list of values is found value by value. -/
theorem finds_tuple {wanted : String} {split : α → List Document} {join : Values fields → α}
    (parts : α → Values fields)
    (same : ∀ value, split value = (Field.writeAll fields (parts value)).map (·.2))
    (isLocal : ∀ field ∈ fields, field.codec.Local) :
    (tuple wanted fields split join).Finds fun value =>
      (Field.rereadAll fields (parts value)).map join := by
  intro value style depth blanks rest spaced blank ends
  let items := Field.texts (fun _ => []) style (depth + 1) fields (parts value)
  have text : ((((tuple wanted fields split join).write value).render style depth).toList ++ rest) =
      '[' :: (style.row depth true items ++ ']' :: rest) := by
    change (Document.render style depth (.list (split value))).toList ++ rest = _
    rw [Document.render, Document.Style.toList_enclose, same, Field.renderItems_writeAll]
    simp [items]
  have inside := Field.inOrder_row spaced wanted depth (depth + 1) rest (parts value) isLocal 0
  rw [text]
  change _ = ((Field.rereadAll fields (parts value)).map join).map fun found => (found, rest)
  refine (Reader.bind_of_ok (peek_blanks blank rfl)).trans ?_
  refine (Reader.bind_of_ok Reader.drop_cons).trans ?_
  refine (Reader.bind_of_map inside).trans ?_
  cases Field.rereadAll fields (parts value) with
  | error fault => rfl
  | ok found =>
    let join (_ : Unit) : Reader α := return join found
    change (Reader.endList >>= join)
      (style.row depth (0 + fields.length == 0) [] ++ ']' :: rest) = _
    exact Reader.bind_of_ok (spaced.endList _)

/-- A record is found field by field. -/
theorem finds_record {title : String} {split : α → Values fields} {join : Values fields → α}
    (isLocal : ∀ field ∈ fields, field.codec.Local) (distinct : (fields.map Field.name).Nodup) :
    (record title fields split join).Finds fun value =>
      (Field.rereadAll fields (split value)).map join := by
  intro value style depth blanks rest spaced blank ends
  let members := Field.texts (Field.key style) style (depth + 1) fields (split value)
  let inside := style.row depth true members ++ '\x7d' :: rest
  have text : ((((record title fields split join).write value).render style depth).toList ++ rest) =
      '\x7b' :: inside := by
    change (Document.render style depth (.object (Field.writeAll fields (split value)))).toList ++
      rest = _
    rw [Document.render, Document.Style.toList_enclose, Field.renderMembers_writeAll]
    simp [inside, members]
  have enough : fields.length < inside.length + 1 := by
    have least := style.length_le_row depth true
      (Field.texts_key_begin style (depth + 1) fields (split value))
    rw [Field.length_texts] at least
    simp only [inside, members, List.length_append]
    omega
  have into : ∀ field ∈ fields, ∀ slots,
      Field.readInto field.name fields (id slots) = id <$> Field.readInto field.name fields slots :=
    fun field _ slots => (id_map _).symm
  have read := Field.members_row spaced depth (depth + 1) rest (split value) isLocal distinct into
    true enough
  rw [text]
  change _ = ((Field.rereadAll fields (split value)).map join).map fun found => (found, rest)
  refine (Reader.bind_of_ok (peek_blanks blank rfl)).trans ?_
  refine (Reader.bind_of_ok Reader.drop_cons).trans ?_
  refine Reader.get_bind.trans ?_
  cases outcome : Field.rereadAll fields (split value) with
  | error fault =>
    rw [outcome] at read
    exact Reader.bind_of_error read
  | ok found =>
    rw [outcome] at read
    have all : Field.complete fields (id (Field.filled fields found)) = .ok found :=
      Field.complete_filled fields found
    refine (Reader.bind_of_ok read).trans ?_
    rw [all]
    rfl

/-- Wherever a value stands in a document, it reads as it does by itself, and `same` says what it
reads as. -/
structure Reads (codec : Codec α) (same : α → α → Prop) : Prop where
  isLocal : codec.Local
  reread_iff : ∀ {value back}, codec.reread value = .ok back ↔ same value back

theorem Finds.reads {codec : Codec α} {found : α → Except Fault α} (finds : codec.Finds found)
    {same : α → α → Prop} (finding : ∀ {value back}, found value = .ok back ↔ same value back) :
    codec.Reads same where
  isLocal := finds.isLocal
  reread_iff := by
    rw [finds.reread_eq]
    exact finding

/-- What is found part by part is found if every part is. -/
theorem Finds.reads_parts {codec : Codec α} {parts : α → Values fields} {join : Values fields → α}
    (finds : codec.Finds fun value => (Field.rereadAll fields (parts value)).map join)
    (joined : ∀ value, join (parts value) = value) (parted : ∀ values, parts (join values) = values)
    {same : α → α → Prop}
    (finding : ∀ {value back},
      Field.rereadAll fields (parts value) = .ok (parts back) ↔ same value back) :
    codec.Reads same := by
  refine finds.reads fun {value back} => Iff.trans ?_ finding
  cases Field.rereadAll fields (parts value) with
  | error fault => exact ⟨nofun, nofun⟩
  | ok found =>
    constructor
    · rintro ⟨⟩
      rw [parted]
    · rintro ⟨⟩
      exact congrArg Except.ok (joined back)

end Codec

end Billiard.Json
