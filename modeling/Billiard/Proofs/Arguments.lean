import Mathlib.Data.List.Induction
import Mathlib.Data.Nat.Digits.Defs
import Mathlib.Tactic.Ring
import Billiard.Cli.Options

/-!
What a command line says. A line is understood if it is written out from a sequence of items: the
options with their numbers, the switch for the real time, and one file with a scene at most. The
last item of a kind is the one that counts. A line that is not understood has a longest beginning
that is, and the fault is the one of the item behind it (`ofArguments_reads`).

An option takes the argument behind it whatever that looks like, so what an argument means is
known only from everything before it. Still a line is written out from one sequence of items only:
its first argument says how long the first item is.
-/

namespace Billiard.Options

/-! ## Items -/

/-- The options that take a number. -/
inductive Flag where
  | seed
  | balls
  | millis
deriving DecidableEq

/-- An option as it is typed. -/
def Flag.name : Flag → String
  | .seed => "--seed"
  | .balls => "--balls"
  | .millis => "--millis"

/-- The number that is asked for with an option. -/
def number (options : Options) : Flag → Option UInt64
  | .seed => options.seed
  | .balls => options.balls
  | .millis => options.millis

/-- Whether a text is a number: decimal digits, perhaps behind a plus sign. -/
def Spells (text : String) (value : UInt64) : Prop :=
  ∃ digits : List Char, (text.toList = digits ∨ text.toList = '+' :: digits) ∧ digits ≠ [] ∧
    (∀ digit ∈ digits, digit.isDigit) ∧
    value.toNat = Nat.ofDigits 10 (digits.reverse.map fun digit => digit.toNat - '0'.toNat)

/-- Whether an argument begins as options do. -/
def Dashed (argument : String) : Prop := ['-', '-'] <+: argument.toList

/-- One item of a command line. -/
inductive Item where
  | number (flag : Flag) (text : String) (value : UInt64)
  | realtime
  | scene (path : String)
deriving DecidableEq

namespace Item

/-- The arguments of an item. -/
def arguments : Item → List String
  | .number flag text _ => [flag.name, text]
  | .realtime => ["--realtime"]
  | .scene path => [path]

/-- Whether an item can stand on a command line. -/
def Allowed : Item → Prop
  | .number _ text value => Spells text value
  | .realtime => True
  | .scene path => ¬Dashed path

/-- The number an item gives for an option. -/
def value? (flag : Flag) : Item → Option UInt64
  | .number given _ value => if given = flag then some value else none
  | _ => none

/-- Whether an item names a scene. -/
def isScene : Item → Bool
  | .scene _ => true
  | _ => false

end Item

/-- The command line with these items. -/
def written (items : List Item) : List String := items.flatMap Item.arguments

/-- Whether items make up a command line: each can stand there, and there is one scene at most. -/
structure Sensible (items : List Item) : Prop where
  allowed : ∀ item ∈ items, item.Allowed
  single : items.countP Item.isScene ≤ 1

/-- What items ask for: of the numbers for an option the last, the real time if it is switched on
anywhere, and the scene that is named. -/
structure Asks (items : List Item) (options : Options) : Prop where
  number : ∀ flag, options.number flag = (items.filterMap (Item.value? flag)).getLast?
  realtime : options.realtime ↔ Item.realtime ∈ items
  scene : ∀ path, options.scene = some path ↔ Item.scene path ∈ items

/-- What is wrong with the arguments behind some items: an option lacks its number or has none
behind it, there is no such option, or there is a scene already. -/
inductive Derails (items : List Item) : List String → Fault → Prop
  | missing (flag : Flag) : Derails items [flag.name] (.noNumber flag.name)
  | misspelt (flag : Flag) {text : String} (rest : List String)
      (spelled : ∀ value, ¬Spells text value) :
      Derails items (flag.name :: text :: rest) (.noNumber flag.name)
  | unknown {argument : String} (rest : List String) (dashed : Dashed argument)
      (switch : argument ≠ "--realtime") (named : ∀ flag : Flag, argument ≠ flag.name) :
      Derails items (argument :: rest) (.unknownOption argument)
  | surplus {path argument : String} (rest : List String) (placed : Item.scene path ∈ items)
      (plain : ¬Dashed argument) : Derails items (argument :: rest) (.surplus argument)

/-- Whether some items are as far as a command line can be understood. -/
structure Onset (items : List Item) (rest arguments : List String) : Prop where
  sensible : Sensible items
  split : arguments = written items ++ rest
  longest : ∀ others, Sensible others → written others <+: arguments → others <+: items

/-! ## Numbers -/

theorem decimal_eq (digits : List Char) :
    decimal digits =
      Nat.ofDigits 10 (digits.reverse.map fun digit => digit.toNat - '0'.toNat) := by
  induction digits using List.reverseRecOn with
  | nil => rfl
  | append_singleton digits digit ih =>
    rw [decimal] at ih ⊢
    rw [List.foldl_append, List.foldl_cons, List.foldl_nil, ih, List.reverse_concat,
      List.map_cons, Nat.ofDigits_cons]
    push_cast
    ring

/-- A text without the sign in front. -/
def unsigned (text : String) : List Char :=
  match text.toList with
  | '+' :: digits => digits
  | digits => digits

theorem number?_eq (text : String) :
    number? text =
      if (unsigned text).isEmpty ∨ !(unsigned text).all Char.isDigit then none
      else if decimal (unsigned text) < UInt64.size then some (.ofNat (decimal (unsigned text)))
      else none :=
  rfl

theorem toList_eq_unsigned (text : String) :
    text.toList = unsigned text ∨ text.toList = '+' :: unsigned text := by
  unfold unsigned
  split
  · rename_i digits typed
    exact .inr typed
  · exact .inl rfl

theorem unsigned_eq {text : String} {digits : List Char}
    (numeric : ∀ digit ∈ digits, digit.isDigit)
    (typed : text.toList = digits ∨ text.toList = '+' :: digits) : unsigned text = digits := by
  rcases toList_eq_unsigned text with plain | signed
  · rcases typed with typed | typed
    · rw [← plain, typed]
    · simp [unsigned, typed]
  · rcases typed with typed | typed
    · have first : '+' ∈ digits := by simp [← typed, signed]
      exact absurd (numeric '+' first) (by decide)
    · exact (List.cons.inj (signed.symm.trans typed)).2

theorem number?_eq_some_iff {text : String} {value : UInt64} :
    number? text = some value ↔ Spells text value := by
  constructor
  · intro read
    rw [number?_eq] at read
    split at read
    · contradiction
    split at read
    · rename_i numbered small
      obtain ⟨filled, numeric⟩ : unsigned text ≠ [] ∧ ∀ digit ∈ unsigned text, digit.isDigit := by
        simpa [not_or] using numbered
      refine ⟨unsigned text, toList_eq_unsigned text, filled, numeric, ?_⟩
      rw [← Option.some.inj read, ← decimal_eq, UInt64.toNat_ofNat_of_lt' small]
    · contradiction
  · rintro ⟨digits, typed, filled, numeric, worth⟩
    have numbered : ¬(digits.isEmpty ∨ !digits.all Char.isDigit) := by simpa [filled] using numeric
    have small : decimal digits < UInt64.size := by
      rw [decimal_eq, ← worth]
      exact value.toNat_lt_size
    rw [number?_eq, unsigned_eq numeric typed, if_neg numbered, if_pos small, decimal_eq,
      ← worth, UInt64.ofNat_toNat]

theorem number?_eq_none_iff {text : String} :
    number? text = none ↔ ∀ value, ¬Spells text value := by
  simp [Option.eq_none_iff_forall_ne_some, number?_eq_some_iff]

/-! ## One item -/

/-- What is asked for once an item has been read. -/
def having (options : Options) : Item → Options
  | .number .seed _ value => { options with seed := some value }
  | .number .balls _ value => { options with balls := some value }
  | .number .millis _ value => { options with millis := some value }
  | .realtime => { options with realtime := true }
  | .scene path => { options with scene := some path }

theorem number_having (options : Options) (item : Item) (flag : Flag) :
    (options.having item).number flag = (item.value? flag).or (options.number flag) := by
  cases item with
  | number given text value => cases given <;> cases flag <;> rfl
  | realtime => cases flag <;> rfl
  | scene path => cases flag <;> rfl

theorem realtime_having (options : Options) (item : Item) :
    (options.having item).realtime ↔ options.realtime ∨ Item.realtime = item := by
  cases item with
  | number given text value => cases given <;> simp [having]
  | realtime => simp [having]
  | scene path => simp [having]

theorem scene_having_of_isScene {item : Item} (options : Options) {path : String}
    (named : item.isScene) : (options.having item).scene = some path ↔ Item.scene path = item := by
  cases item with
  | scene given => simp [having, eq_comm]
  | number given text value => cases named
  | realtime => cases named

theorem scene_having_of_not_isScene {item : Item} (options : Options) (other : ¬item.isScene) :
    (options.having item).scene = options.scene := by
  cases item with
  | scene given => exact absurd rfl other
  | number given text value => cases given <;> rfl
  | realtime => rfl

theorem isFlag_iff {argument : String} : isFlag argument ↔ Dashed argument := by
  unfold isFlag Dashed
  rw [String.startsWith_string_iff]
  rfl

theorem dashed_name (flag : Flag) : Dashed flag.name := by
  cases flag <;> simp [Dashed, Flag.name]

theorem ne_name_of_plain {argument : String} (plain : ¬Dashed argument) (flag : Flag) :
    argument ≠ flag.name := by
  rintro rfl
  exact plain (dashed_name flag)

theorem ne_switch_of_plain {argument : String} (plain : ¬Dashed argument) :
    argument ≠ "--realtime" := by
  rintro rfl
  exact plain ⟨_, rfl⟩

theorem switch_ne_name (flag : Flag) : "--realtime" ≠ flag.name := by
  cases flag <;> decide

theorem Flag.eq_of_name {first second : Flag} (same : first.name = second.name) :
    first = second := by
  cases first <;> cases second <;> first | rfl | exact absurd same (by decide)

theorem accept_number (options : Options) (flag : Flag) (text : String) (rest : List String) :
    accept options (flag.name :: text :: rest) =
      match number? text with
      | some value => accept (options.having (.number flag text value)) rest
      | none => .error (.noNumber flag.name) := by
  cases flag <;> rw [Flag.name, accept] <;> rfl

theorem accept_missing (options : Options) (flag : Flag) :
    accept options [flag.name] = .error (.noNumber flag.name) := by
  cases flag <;> simp [Flag.name, accept]

/-- An argument that takes no number is an item of its own. -/
theorem accept_single (options : Options) {argument : String} (rest : List String)
    (named : ∀ flag : Flag, argument ≠ flag.name) :
    accept options (argument :: rest) =
      if argument = "--realtime" then accept (options.having .realtime) rest
      else if isFlag argument then .error (.unknownOption argument)
      else if options.scene.isNone then accept (options.having (.scene argument)) rest
      else .error (.surplus argument) := by
  have := named .seed
  have := named .balls
  have := named .millis
  rw [accept] <;> simp_all [Flag.name, having]

theorem Spells.unique {text : String} {value other : UInt64} (spelled : Spells text value)
    (again : Spells text other) : value = other :=
  Option.some.inj ((number?_eq_some_iff.mpr spelled).symm.trans (number?_eq_some_iff.mpr again))

/-- The first argument of an item says where the item ends. -/
theorem Item.eq_of_arguments_append {first second : Item} (allowed : first.Allowed)
    (other : second.Allowed) {rest tail : List String}
    (same : first.arguments ++ rest = second.arguments ++ tail) : first = second ∧ rest = tail := by
  cases first with
  | number flag text value =>
    cases second with
    | number flag' text' value' =>
      simp only [arguments, List.cons_append, List.nil_append, List.cons.injEq] at same
      obtain ⟨named, rfl, rfl⟩ := same
      obtain rfl := Flag.eq_of_name named
      obtain rfl := Spells.unique allowed other
      exact ⟨rfl, rfl⟩
    | realtime => exact absurd (List.cons.inj same).1.symm (switch_ne_name flag)
    | scene path => exact absurd (List.cons.inj same).1.symm (ne_name_of_plain other flag)
  | realtime =>
    cases second with
    | number flag text value => exact absurd (List.cons.inj same).1 (switch_ne_name flag)
    | realtime => exact ⟨rfl, (List.cons.inj same).2⟩
    | scene path => exact absurd (List.cons.inj same).1.symm (ne_switch_of_plain other)
  | scene path =>
    cases second with
    | number flag text value => exact absurd (List.cons.inj same).1 (ne_name_of_plain allowed flag)
    | realtime => exact absurd (List.cons.inj same).1 (ne_switch_of_plain allowed)
    | scene path' =>
      obtain ⟨rfl, rfl⟩ := List.cons.inj same
      exact ⟨rfl, rfl⟩

/-! ## From left to right -/

/-- What is asked for once some items have been read. -/
def gathered (items : List Item) : Options := items.foldl having unset

theorem gathered_concat (items : List Item) (item : Item) :
    gathered (items ++ [item]) = (gathered items).having item := by
  simp [gathered]

theorem written_concat (items : List Item) (item : Item) :
    written (items ++ [item]) = written items ++ item.arguments := by
  simp [written]

theorem sensible_nil : Sensible [] := ⟨by simp, by simp⟩

theorem sensible_concat {items : List Item} {item : Item} :
    Sensible (items ++ [item]) ↔
      Sensible items ∧ item.Allowed ∧ (item.isScene → ∀ path, Item.scene path ∉ items) := by
  have unplaced : items.countP Item.isScene = 0 ↔ ∀ path, Item.scene path ∉ items := by
    rw [List.countP_eq_zero]
    constructor
    · intro none path placed
      exact none _ placed rfl
    · rintro none (_ | _ | path) placed
      · exact Bool.false_ne_true
      · exact Bool.false_ne_true
      · exact absurd placed (none path)
  constructor
  · rintro ⟨allowed, single⟩
    rw [List.countP_append, List.countP_singleton] at single
    refine ⟨⟨fun other placed => allowed other (by simp [placed]), by omega⟩,
      allowed item (by simp), fun named => ?_⟩
    rw [if_pos named] at single
    exact unplaced.mp (by omega)
  · rintro ⟨⟨every, single⟩, allowed, alone⟩
    refine ⟨?_, ?_⟩
    · intro other placed
      rcases List.mem_append.mp placed with placed | placed
      · exact every other placed
      · exact List.mem_singleton.mp placed ▸ allowed
    · rw [List.countP_append, List.countP_singleton]
      split
      · rename_i named
        rw [unplaced.mpr (alone named)]
      · exact single

/-- What the items ask for has been gathered when the last of them has been read. -/
theorem asks_gathered {items : List Item} (sensible : Sensible items) :
    Asks items (gathered items) := by
  induction items using List.reverseRecOn with
  | nil =>
    refine ⟨fun flag => ?_, ?_, fun path => ?_⟩
    · cases flag <;> rfl
    · simp [gathered, unset]
    · simp [gathered, unset]
  | append_singleton items item ih =>
    obtain ⟨earlier, -, alone⟩ := sensible_concat.mp sensible
    have asks := ih earlier
    rw [gathered_concat]
    refine ⟨fun flag => ?_, ?_, fun path => ?_⟩
    · rw [number_having, asks.number flag, List.filterMap_append, List.getLast?_append]
      cases given : item.value? flag <;> simp [given]
    · rw [realtime_having, asks.realtime, List.mem_append, List.mem_singleton]
    · rw [List.mem_append, List.mem_singleton]
      by_cases named : item.isScene
      · rw [scene_having_of_isScene _ named, or_iff_right (alone named path)]
      · have other : Item.scene path ≠ item := by
          rintro rfl
          exact named rfl
        rw [scene_having_of_not_isScene _ named, asks.scene path, or_iff_left other]

theorem scene_gathered_eq_none {items : List Item} (sensible : Sensible items)
    (alone : ∀ path, Item.scene path ∉ items) : (gathered items).scene = none :=
  Option.eq_none_iff_forall_ne_some.mpr fun path placed =>
    alone path (((asks_gathered sensible).scene path).mp placed)

/-- The items at the beginning of a line are read one after another. -/
theorem accept_written {items : List Item} (sensible : Sensible items) (rest : List String) :
    accept unset (written items ++ rest) = accept (gathered items) rest := by
  induction items using List.reverseRecOn generalizing rest with
  | nil => rfl
  | append_singleton items item ih =>
    obtain ⟨earlier, allowed, alone⟩ := sensible_concat.mp sensible
    rw [written_concat, List.append_assoc, ih earlier, gathered_concat]
    cases item with
    | number flag text value =>
      have read : number? text = some value := number?_eq_some_iff.mpr allowed
      rw [Item.arguments, List.cons_append, List.singleton_append, accept_number, read]
    | realtime =>
      rw [Item.arguments, List.singleton_append, accept_single _ _ switch_ne_name, if_pos rfl]
    | scene path =>
      have plain : ¬isFlag path := fun flagged => allowed (isFlag_iff.mp flagged)
      have free : (gathered items).scene.isNone := by
        rw [scene_gathered_eq_none earlier (alone rfl)]
        rfl
      rw [Item.arguments, List.singleton_append, accept_single _ _ (ne_name_of_plain allowed),
        if_neg (ne_switch_of_plain allowed), if_neg plain, if_pos free]

/-- A line that derails behind some items is refused. -/
theorem accept_of_derails {items : List Item} {rest : List String} {fault : Fault}
    (sensible : Sensible items) (derails : Derails items rest fault) :
    accept (gathered items) rest = .error fault := by
  cases derails with
  | missing flag => exact accept_missing _ flag
  | misspelt flag rest spelled =>
    rw [accept_number, number?_eq_none_iff.mpr spelled]
  | unknown rest dashed switch named =>
    rw [accept_single _ _ named, if_neg switch, if_pos (isFlag_iff.mpr dashed)]
  | @surplus path argument rest placed plain =>
    have unflagged : ¬isFlag argument := fun flagged => plain (isFlag_iff.mp flagged)
    have taken : ¬(gathered items).scene.isNone := by
      rw [((asks_gathered sensible).scene path).mpr placed]
      exact Bool.false_ne_true
    rw [accept_single _ _ (ne_name_of_plain plain), if_neg (ne_switch_of_plain plain),
      if_neg unflagged, if_neg taken]

/-- Behind some items there is one more item, or the line derails. -/
theorem exists_next {items : List Item} (sensible : Sensible items) (argument : String)
    (tail : List String) :
    (∃ item rest, argument :: tail = item.arguments ++ rest ∧ Sensible (items ++ [item])) ∨
      ∃ fault, Derails items (argument :: tail) fault := by
  by_cases named : ∃ flag : Flag, argument = flag.name
  · obtain ⟨flag, rfl⟩ := named
    cases tail with
    | nil => exact .inr ⟨_, .missing flag⟩
    | cons text rest =>
      by_cases spelled : ∃ value, Spells text value
      · obtain ⟨value, spelled⟩ := spelled
        exact .inl ⟨.number flag text value, rest, rfl,
          sensible_concat.mpr ⟨sensible, spelled, nofun⟩⟩
      · exact .inr ⟨_, .misspelt flag rest (not_exists.mp spelled)⟩
  · have named := not_exists.mp named
    by_cases switch : argument = "--realtime"
    · subst switch
      exact .inl ⟨.realtime, tail, rfl, sensible_concat.mpr ⟨sensible, trivial, nofun⟩⟩
    by_cases dashed : Dashed argument
    · exact .inr ⟨_, .unknown tail dashed switch named⟩
    by_cases placed : ∃ path, Item.scene path ∈ items
    · obtain ⟨path, placed⟩ := placed
      exact .inr ⟨_, .surplus tail placed dashed⟩
    · exact .inl ⟨.scene argument, tail, rfl,
        sensible_concat.mpr ⟨sensible, dashed, fun _ => not_exists.mp placed⟩⟩

/-- A line is understood to its end, or it derails behind some items. -/
theorem exists_reading (rest : List String) {items : List Item} (sensible : Sensible items) :
    (∃ more, Sensible (items ++ more) ∧ rest = written more) ∨
      ∃ more tail fault, Sensible (items ++ more) ∧ rest = written more ++ tail ∧
        Derails (items ++ more) tail fault := by
  induction h : rest.length using Nat.strong_induction_on generalizing rest items with
  | _ length ih =>
    cases rest with
    | nil => exact .inl ⟨[], by simpa using sensible, rfl⟩
    | cons argument tail =>
      rcases exists_next sensible argument tail with ⟨item, rest, split, longer⟩ | ⟨fault, derails⟩
      · have shorter : rest.length < length := by
          rw [← h, split, List.length_append]
          cases item <;> simp [Item.arguments]
        rcases ih rest.length shorter rest longer rfl with
          ⟨more, understood, reads⟩ | ⟨more, tail', fault, understood, reads, derails⟩
        · refine .inl ⟨item :: more, by simpa using understood, ?_⟩
          rw [split, reads]
          simp [written]
        · refine .inr ⟨item :: more, tail', fault, by simpa using understood, ?_, by
            simpa using derails⟩
          rw [split, reads]
          simp [written]
      · exact .inr ⟨[], argument :: tail, fault, by simpa using sensible, rfl, by
          simpa using derails⟩

theorem written_or_derails (arguments : List String) :
    (∃ items, Sensible items ∧ arguments = written items) ∨
      ∃ items rest fault, Sensible items ∧ arguments = written items ++ rest ∧
        Derails items rest fault := by
  simpa only [List.nil_append] using exists_reading arguments sensible_nil

/-! ## As far as a line is understood -/

theorem Sensible.of_append {items : List Item} (more : List Item)
    (sensible : Sensible (items ++ more)) : Sensible items := by
  refine ⟨fun item placed => sensible.allowed item (by simp [placed]), ?_⟩
  have single := sensible.single
  rw [List.countP_append] at single
  omega

/-- No item follows where a line derails. -/
theorem Derails.ne_arguments {items : List Item} {rest : List String} {fault : Fault}
    (derails : Derails items rest fault) {item : Item} (longer : Sensible (items ++ [item]))
    (tail : List String) : rest ≠ item.arguments ++ tail := by
  obtain ⟨-, allowed, alone⟩ := sensible_concat.mp longer
  intro split
  cases item with
  | number flag text value =>
    cases derails with
    | missing given => cases (List.cons.inj split).2
    | misspelt given rest spelled =>
      obtain ⟨-, behind⟩ := List.cons.inj split
      obtain rfl := (List.cons.inj behind).1
      exact spelled value allowed
    | unknown rest dashed switch named => exact named flag (List.cons.inj split).1
    | surplus rest placed plain => exact ne_name_of_plain plain flag (List.cons.inj split).1
  | realtime =>
    cases derails with
    | missing given => exact switch_ne_name given (List.cons.inj split).1.symm
    | misspelt given rest spelled => exact switch_ne_name given (List.cons.inj split).1.symm
    | unknown rest dashed switch named => exact switch (List.cons.inj split).1
    | surplus rest placed plain => exact ne_switch_of_plain plain (List.cons.inj split).1
  | scene path =>
    cases derails with
    | missing given => exact ne_name_of_plain allowed given (List.cons.inj split).1.symm
    | misspelt given rest spelled =>
      exact ne_name_of_plain allowed given (List.cons.inj split).1.symm
    | unknown rest dashed switch named => exact allowed ((List.cons.inj split).1 ▸ dashed)
    | surplus rest placed plain => exact alone rfl _ placed

/-- The items in front of the place where a line derails are the longest beginning. -/
theorem Derails.longest (before : List Item) {items others : List Item} {rest : List String}
    {fault : Fault} (derails : Derails (before ++ items) rest fault)
    (sensible : Sensible (before ++ items)) (other : Sensible (before ++ others))
    (begins : written others <+: written items ++ rest) : others <+: items := by
  induction items generalizing before others with
  | nil =>
    cases others with
    | nil => exact List.nil_prefix
    | cons item others =>
      obtain ⟨tail, split⟩ := begins
      have longer : Sensible (before ++ [item]) :=
        Sensible.of_append others (by simpa using other)
      rw [List.append_nil] at derails
      refine absurd ?_ (derails.ne_arguments longer (written others ++ tail))
      simpa [written] using split.symm
  | cons item items ih =>
    cases others with
    | nil => exact List.nil_prefix
    | cons other' others =>
      obtain ⟨tail, split⟩ := begins
      have split : other'.arguments ++ (written others ++ tail) =
          item.arguments ++ (written items ++ rest) := by
        simpa [written] using split
      obtain ⟨rfl, behind⟩ := Item.eq_of_arguments_append (other.allowed other' (by simp))
        (sensible.allowed item (by simp)) split
      refine (List.prefix_cons_inj other').mpr (ih (before ++ [other']) ?_ ?_ ?_ ?_)
      · simpa using derails
      · simpa using sensible
      · simpa using other
      · exact ⟨tail, behind⟩

theorem Derails.onset {items : List Item} {rest : List String} {fault : Fault}
    (derails : Derails items rest fault) (sensible : Sensible items) :
    Onset items rest (written items ++ rest) :=
  ⟨sensible, rfl, fun _ other begins => derails.longest [] sensible other begins⟩

theorem ofArguments_written {items : List Item} (sensible : Sensible items) :
    ofArguments (written items) = .ok (gathered items) := by
  rw [ofArguments, ← List.append_nil (written items), accept_written sensible, accept]

theorem ofArguments_of_derails {items : List Item} {rest : List String} {fault : Fault}
    (sensible : Sensible items) (derails : Derails items rest fault) :
    ofArguments (written items ++ rest) = .error fault := by
  rw [ofArguments, accept_written sensible, accept_of_derails sensible derails]

/-- A command line is accepted exactly if it is written out from items, each of them allowed and one
of them a scene at most, and then asks for what these items ask for. Any other line is refused, with
the fault of the arguments behind its longest beginning of that kind. -/
theorem ofArguments_reads (arguments : List String) :
    ((∃ options, ofArguments arguments = .ok options) ↔
        ∃ items, Sensible items ∧ arguments = written items) ∧
      (∀ items, Sensible items → arguments = written items →
        ∃ options, ofArguments arguments = .ok options ∧ Asks items options) ∧
      ∀ fault, ofArguments arguments = .error fault ↔
        ∃ items rest, Onset items rest arguments ∧ Derails items rest fault := by
  refine ⟨⟨?_, ?_⟩, ?_, fun fault => ⟨?_, ?_⟩⟩
  · rintro ⟨options, accepted⟩
    rcases written_or_derails arguments with
      ⟨items, sensible, split⟩ | ⟨items, rest, fault, sensible, rfl, derails⟩
    · exact ⟨items, sensible, split⟩
    · rw [ofArguments_of_derails sensible derails] at accepted
      contradiction
  · rintro ⟨items, sensible, rfl⟩
    exact ⟨_, ofArguments_written sensible⟩
  · rintro items sensible rfl
    exact ⟨_, ofArguments_written sensible, asks_gathered sensible⟩
  · intro refused
    rcases written_or_derails arguments with
      ⟨items, sensible, rfl⟩ | ⟨items, rest, other, sensible, rfl, derails⟩
    · rw [ofArguments_written sensible] at refused
      contradiction
    · rw [ofArguments_of_derails sensible derails] at refused
      obtain rfl := Except.error.inj refused
      exact ⟨items, rest, derails.onset sensible, derails⟩
  · rintro ⟨items, rest, ⟨sensible, rfl, -⟩, derails⟩
    exact ofArguments_of_derails sensible derails

/-- A value is what stands behind an option, even if it is an option itself. -/
example : ofArguments ["table.json", "--seed", "--balls"] = .error (.noNumber "--seed") := by
  decide +kernel

end Billiard.Options
