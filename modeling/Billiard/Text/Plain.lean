/-!
Text for a log that no screen shows: sequences that would steer a terminal are left out, and so are
control characters, line ends and other blanks apart.
-/

namespace Billiard.Text

/-- What the next character belongs to. -/
inductive Steering where
  /-- The text itself. -/
  | none
  /-- A sequence of which only the escape character was seen. -/
  | escape
  /-- An escape sequence with intermediate characters. -/
  | intermediate
  /-- A control sequence, up to its final character. -/
  | control
  /-- An operating system command, up to the bell. -/
  | command
  /-- A string for a device, of which nothing but the start was seen. -/
  | device
  /-- A string for a device, among its parameters. -/
  | deviceParameter
  /-- A string for a device, among its intermediate characters. -/
  | deviceIntermediate
  /-- A string up to its terminator. -/
  | string
deriving DecidableEq, Repr

namespace Steering

/-- Control characters that only move on in the text. -/
def isMove (c : Char) : Bool := c == '\t' || c == '\n' || c == '\x0c' || c == '\r'

/-- Characters that are shown outside of sequences. -/
def isText (c : Char) : Bool := isMove c || (' ' ≤ c && c != '\x7f')

/-- Whether the string terminator of eight bits is among the bytes of a character. -/
def holdsTerminator (c : Char) : Bool := (String.utf8EncodeChar c).contains 0x9c

/-- What a character that is not shown makes of the sequence it belongs to. -/
def after (steering : Steering) (c : Char) : Steering :=
  if c = '\x1b' then .escape
  else if c = '\x18' ∨ c = '\x1a' then .none
  else
    match steering with
    | .none => .none
    | .command => if c = '\x07' then .none else .command
    | .string => if holdsTerminator c then .none else .string
    | steering =>
      if c < ' ' ∨ '~' < c then steering
      else
        match steering with
        | .escape =>
          if c < '0' then .intermediate
          else
            match c with
            | '[' => .control
            | ']' => .command
            | 'P' => .device
            | 'X' | '^' | '_' => .string
            | _ => .none
        | .intermediate => if c < '0' then .intermediate else .none
        | .control => if c < '@' then .control else .none
        | .device =>
          if c < '0' then .deviceIntermediate
          else if c < '@' then .deviceParameter else .string
        | .deviceParameter =>
          if c < '0' then .deviceIntermediate
          else if c < '<' then .deviceParameter else .string
        | .deviceIntermediate => if c < '0' then .deviceIntermediate else .string
        | steering => steering

/-- Whether a character is shown. A sequence is interrupted by a blank that moves on: what stands
behind the blank is shown like text. -/
def shows (steering : Steering) (interrupted : Bool) (c : Char) : Bool :=
  match steering with
  | .none => isText c
  | .escape | .intermediate | .control => if interrupted then isText c else isMove c
  | _ => false

/-- The characters that are shown. An interrupted sequence goes on at the next character that is not
shown, unless a character outside of ASCII has put an end to it. -/
def keep (steering : Steering) (interrupted : Bool) : List Char → List Char
  | [] => []
  | c :: rest =>
    if steering.shows interrupted c then
      c :: keep (if c ≤ '\x7f' then steering else .none) true rest
    else keep (steering.after c) false rest

end Steering

/-- The text without what would steer a terminal. -/
def plain (text : String) : String := String.ofList (Steering.none.keep false text.toList)

/-- Rows of text, those behind the first set in by `count` blanks. -/
def indented (count : Nat) (text : String) : String :=
  ("\n" ++ String.ofList (List.replicate count ' ')).intercalate (text.splitOn "\n")

end Billiard.Text
