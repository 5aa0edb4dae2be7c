/-!
# Control sequences

A terminal takes some characters as commands: the control characters, and the sequences that an
escape character begins. `ControlSequence.strip` reads a text as a terminal would and keeps what
is left to show, so that a text of unknown origin can be quoted without acting on the terminal.
`ControlSequence.stripOutput` does so for a stream of output; the two differ only in what becomes
of a command that is interrupted.
-/

namespace BootImage

namespace ControlSequence

/-- Where a terminal stands in what it reads. -/
inductive State
  /-- Between commands. -/
  | text
  /-- Behind an escape character, which says that a command follows. -/
  | escape
  /-- Behind an escape character and what selects a kind of command. -/
  | escapeSelector
  /-- In a sequence that ends at its first final character, as those for colours do. -/
  | sequence
  /-- At the beginning of a command for a device. -/
  | device
  /-- Among the parameters of a command for a device. -/
  | deviceParameters
  /-- Behind what selects a kind of command for a device. -/
  | deviceSelector
  /-- In a string that is sent to a device or a program. -/
  | string
  /-- In a string that is sent to the system, as window titles are. -/
  | title
deriving DecidableEq, Repr

/-- The control characters that move on in a line or to the next. -/
def isBlank (c : Char) : Bool :=
  c = '\t' || c = '\n' || c = '\x0c' || c = '\r'

/-- Whether a character is shown. Blanks count even in the middle of a command, unless it is one
with a string, and they interrupt it. -/
def State.shows : State → Char → Bool
  | .text, c => isBlank c || (' ' ≤ c && c ≠ '\x7f')
  | .escape, c | .escapeSelector, c | .sequence, c => isBlank c
  | _, _ => false

/-- Whether a character ends a string: the terminator is the byte `9c`, and it is found inside a
longer character as well. -/
def endsString (c : Char) : Bool :=
  (String.utf8EncodeChar c).contains 0x9c

/-- The character that selects a kind of command, behind which its final one comes. -/
def selects (c : Char) : Bool :=
  ' ' ≤ c && c ≤ '/'

/-- Whether a character can be the last of a command. -/
def isFinal (c : Char) : Bool :=
  '@' ≤ c && c ≤ '~'

/-- Where a terminal stands behind a character that is not shown. Two control characters cancel
whatever has begun. -/
def State.next (state : State) (c : Char) : State :=
  if c = '\x18' || c = '\x1a' then .text
  else if c = '\x1b' then .escape
  else
    match state with
    | .text => .text
    | .escape =>
      if selects c then .escapeSelector
      else if c = '[' then .sequence
      else if c = ']' then .title
      else if c = 'P' then .device
      else if c = 'X' || c = '^' || c = '_' then .string
      else if '0' ≤ c && c ≤ '~' then .text
      else .escape
    | .escapeSelector => if '0' ≤ c && c ≤ '~' then .text else .escapeSelector
    | .sequence => if isFinal c then .text else .sequence
    | .device =>
      if selects c then .deviceSelector
      else if '0' ≤ c && c ≤ '?' then .deviceParameters
      else if isFinal c then .string
      else .device
    | .deviceParameters =>
      if selects c then .deviceSelector
      else if '<' ≤ c && c ≤ '~' then .string
      else .deviceParameters
    | .deviceSelector => if '0' ≤ c && c ≤ '~' then .string else .deviceSelector
    | .string => if endsString c then .text else .string
    | .title => if c = '\x07' then .text else .title

/-- What becomes of a command that is interrupted. -/
inductive Interruption
  /-- It is over, and text follows. -/
  | ends
  /-- It goes on at the next control character, unless a character outside ASCII was shown. -/
  | pauses
deriving DecidableEq, Repr

/-- The command to go on with when a character has been shown. -/
def Interruption.pending (interruption : Interruption) (state : State) (c : Char) : State :=
  match interruption with
  | .ends => .text
  | .pauses => if c ≤ '\x7f' then state else .text

/-- What is shown of some characters. While text is `showing`, `state` is the command that goes on
behind it. -/
def shown (interruption : Interruption) : (state : State) → (showing : Bool) → List Char → List Char
  | _, _, [] => []
  | state, showing, c :: rest =>
    if (if showing then State.text else state).shows c then
      c :: shown interruption (interruption.pending state c) true rest
    else
      shown interruption (state.next c) false rest

/-- What a terminal shows of a text. -/
def strip (text : String) : String :=
  String.ofList (shown .ends .text false text.toList)

/-- What is left to show of a stream of output. -/
def stripOutput (output : String) : String :=
  String.ofList (shown .pauses .text false output.toList)

end ControlSequence

end BootImage
