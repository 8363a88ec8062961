/-!
The command line's options. Arguments are read from left to right, and an option takes the argument
behind it as its value, whatever that looks like.
-/

namespace Billiard

/-- What the command line asks for. -/
structure Options where
  /-- The file with the scene. -/
  scene : Option String
  /-- The seed of a random scene. -/
  seed : Option UInt64
  /-- How many balls a random scene has. -/
  balls : Option UInt64
  /-- Follow the real time instead of going through the events at once. -/
  realtime : Bool
  /-- How many milliseconds to run. -/
  millis : Option UInt64
deriving DecidableEq, Repr

namespace Options

/-- What makes a command line unusable. -/
inductive Fault where
  | noNumber (flag : String)
  | unknownOption (option : String)
  | surplus (argument : String)
deriving DecidableEq, Repr

/-- The text of a fault. -/
def Fault.message : Fault → String
  | .noNumber flag => flag ++ " expects a number"
  | .unknownOption option => "unknown option " ++ option
  | .surplus argument => "unexpected argument " ++ argument

/-- Nothing is asked for. -/
def unset : Options := ⟨none, none, none, false, none⟩

/-- The value of decimal digits. -/
def decimal (digits : List Char) : Nat :=
  digits.foldl (fun value digit => value * 10 + (digit.toNat - '0'.toNat)) 0

/-- A number as it is typed: digits, perhaps behind a plus sign, of a value below `2 ^ 64`. -/
def number? (text : String) : Option UInt64 :=
  let digits :=
    match text.toList with
    | '+' :: digits => digits
    | digits => digits
  if digits.isEmpty ∨ !digits.all Char.isDigit then none
  else if decimal digits < UInt64.size then some (.ofNat (decimal digits))
  else none

/-- Whether an argument looks like an option. -/
def isFlag (argument : String) : Bool := argument.startsWith "--"

/-- Takes the arguments one after another. -/
def accept : Options → List String → Except Fault Options
  | options, [] => .ok options
  | options, "--seed" :: value :: rest =>
    match number? value with
    | some seed => accept { options with seed := some seed } rest
    | none => .error (.noNumber "--seed")
  | options, "--balls" :: value :: rest =>
    match number? value with
    | some balls => accept { options with balls := some balls } rest
    | none => .error (.noNumber "--balls")
  | options, "--millis" :: value :: rest =>
    match number? value with
    | some millis => accept { options with millis := some millis } rest
    | none => .error (.noNumber "--millis")
  | options, argument :: rest =>
    if ["--seed", "--balls", "--millis"].contains argument then .error (.noNumber argument)
    else if argument = "--realtime" then accept { options with realtime := true } rest
    else if isFlag argument then .error (.unknownOption argument)
    else if options.scene.isNone then accept { options with scene := some argument } rest
    else .error (.surplus argument)

/-- What a command line asks for. -/
def ofArguments (arguments : List String) : Except Fault Options := accept unset arguments

end Options

end Billiard
