import WasmWorkshop.Blank
import WasmWorkshop.Handoff.Disk

/-!
# Shell scripts

A small shell: lines of simple commands that are joined by `;`, `&&` and `||`, with quoting, the
positional parameters, redirections of the two outputs, and a handful of commands. That is what it
takes to write a stand-in for a compiler as a script: one that prints, writes its output file and
exits.

A line is read as a whole and run before the next one is read (`runLines`), so what stands after an
`exit` on a later line is never looked at. Standard input is empty, and standard output goes
nowhere; standard error is collected.
-/

set_option autoImplicit false

namespace WasmWorkshop.Handoff

/-! ## Words and commands -/

/-- A parameter of a script. -/
inductive Parameter where
  /-- The script itself for zero, else an argument. -/
  | position (index : Nat)
  /-- The number of arguments. -/
  | count
  /-- The status of the last command. -/
  | status
  deriving DecidableEq

/-- A part of a word. -/
inductive Piece where
  | literal (text : List Char)
  /-- The value of a parameter, which is split at blanks unless it is quoted. -/
  | value (parameter : Parameter) (isQuoted : Bool)
  deriving DecidableEq

/-- How commands are joined. -/
inductive Connector where
  | always
  | onSuccess
  | onFailure
  deriving DecidableEq

/-- How an output is redirected. -/
inductive Redirection where
  | create
  | append
  | duplicate
  deriving DecidableEq

/-- What a line is made of. -/
inductive Token where
  | word (pieces : List Piece)
  | connect (connector : Connector)
  /-- A redirection of an output, whose target is the next word. -/
  | redirect (output : Nat) (redirection : Redirection)
  deriving DecidableEq

/-- The parameter that a character after a dollar sign names. -/
def parameterOfChar? (character : Char) : Option Parameter :=
  if character.isDigit then some (.position (character.toNat - '0'.toNat))
  else if character = '#' then some .count
  else if character = '?' then some .status
  else none

/-- How the next character is read. -/
inductive QuoteMode where
  | plain
  | single
  | double
  | comment
  deriving DecidableEq

/-- A line that is being read: the word so far, if one has begun, and the tokens before it, the last
one first. -/
structure LineState where
  word : Option (List Piece) := none
  tokens : List Token := []

namespace LineState

/-- The line with one more piece at the end of its word. -/
def add (state : LineState) (piece : Piece) : LineState :=
  { state with word := some (state.word.getD [] ++ [piece]) }

/-- The line with one more character at the end of its word. -/
def addChar (state : LineState) (character : Char) : LineState :=
  state.add (.literal [character])

/-- The line with a word begun, though it may stay empty. -/
def beginWord (state : LineState) : LineState := state.add (.literal [])

/-- The line with its word ended. -/
def endWord (state : LineState) : LineState :=
  match state.word with
  | none => state
  | some pieces => { word := none, tokens := .word pieces :: state.tokens }

/-- The line with one more token. -/
def token (state : LineState) (token : Token) : LineState :=
  let state := state.endWord
  { state with tokens := token :: state.tokens }

/-- The line with a redirection. A digit right before it is the output that it is about. -/
def redirect (state : LineState) (redirection : Redirection) : LineState :=
  match state.word with
  | some [.literal [digit]] =>
    if digit.isDigit then
      { word := none
        tokens := .redirect (digit.toNat - '0'.toNat) redirection :: state.tokens }
    else state.token (.redirect 1 redirection)
  | _ => state.token (.redirect 1 redirection)

end LineState

/-- Reads a line, and returns its tokens and what follows it. There is none if the line uses what
this shell does not have, or a quote stays open. -/
def readLine? : QuoteMode → LineState → List Char → Option (List Token × List Char)
  | .plain, state, [] | .comment, state, [] => some (state.endWord.tokens.reverse, [])
  | .single, _, [] | .double, _, [] => none
  | .comment, state, '\n' :: rest => some (state.endWord.tokens.reverse, rest)
  | .comment, state, _ :: rest => readLine? .comment state rest
  | .single, state, '\'' :: rest => readLine? .plain state rest
  | .single, state, character :: rest => readLine? .single (state.addChar character) rest
  | .double, state, '"' :: rest => readLine? .plain state rest
  | .double, state, '\\' :: character :: rest =>
    if character ∈ ['$', '"', '\\', '\x60'] then
      readLine? .double (state.addChar character) rest
    else readLine? .double ((state.addChar '\\').addChar character) rest
  | .double, state, '$' :: character :: rest =>
    match parameterOfChar? character with
    | some parameter => readLine? .double (state.add (.value parameter true)) rest
    | none => none
  | .double, state, character :: rest => readLine? .double (state.addChar character) rest
  | .plain, state, '\n' :: rest => some (state.endWord.tokens.reverse, rest)
  | .plain, state, '\\' :: character :: rest =>
    if character = '\n' then readLine? .plain state rest
    else readLine? .plain (state.addChar character) rest
  | .plain, state, '$' :: character :: rest =>
    match parameterOfChar? character with
    | some parameter => readLine? .plain (state.add (.value parameter false)) rest
    | none => none
  | .plain, state, '>' :: '>' :: rest => readLine? .plain (state.redirect .append) rest
  | .plain, state, '>' :: '&' :: rest => readLine? .plain (state.redirect .duplicate) rest
  | .plain, state, '>' :: rest => readLine? .plain (state.redirect .create) rest
  | .plain, state, '&' :: '&' :: rest =>
    readLine? .plain (state.token (.connect .onSuccess)) rest
  | .plain, state, '|' :: '|' :: rest =>
    readLine? .plain (state.token (.connect .onFailure)) rest
  | .plain, state, ';' :: rest => readLine? .plain (state.token (.connect .always)) rest
  | .plain, state, '\'' :: rest => readLine? .single state.beginWord rest
  | .plain, state, '"' :: rest => readLine? .double state.beginWord rest
  | .plain, state, ' ' :: rest | .plain, state, '\t' :: rest =>
    readLine? .plain state.endWord rest
  | .plain, state, character :: rest =>
    if character = '#' ∧ state.word = none then readLine? .comment state rest
    else if character ∈ ['&', '|', '<', '(', ')', '\x60', '$'] then none
    else readLine? .plain (state.addChar character) rest

/-- A command: its words, and the redirections of its outputs with their targets. -/
structure SimpleCommand where
  words : List (List Piece) := []
  redirections : List (Nat × Redirection × List Piece) := []

/-- The commands of a line, each with what joins it to the one before. -/
def commandsOf? : Connector → SimpleCommand → List Token →
    Option (List (Connector × SimpleCommand))
  | joined, command, [] => some [(joined, command)]
  | joined, command, .word pieces :: rest =>
    commandsOf? joined { command with words := command.words ++ [pieces] } rest
  | joined, command, .redirect output redirection :: .word target :: rest =>
    commandsOf? joined
      { command with
        redirections := command.redirections ++ [(output, redirection, target)] } rest
  | _, _, .redirect _ _ :: _ => none
  | joined, command, .connect connector :: rest =>
    (commandsOf? connector {} rest).map ((joined, command) :: ·)

/-! ## Running -/

/-- A running script. -/
structure ShellState where
  disk : Disk
  /-- The script and its arguments. -/
  arguments : List String
  /-- What was written to standard error. -/
  errors : List UInt8 := []
  status : Nat := 0
  hasExited : Bool := false

/-- The value of a parameter. -/
def ShellState.value (state : ShellState) : Parameter → String
  | .position index => state.arguments.getD index ""
  | .count => toString (state.arguments.length - 1)
  | .status => toString state.status

/-- The fields that a value makes at blanks: those that are ended, and the one that is still open.
A word that has begun before the value goes on in its first field. -/
def splitValue : List String → Option (List Char) → List Char → List String × Option (List Char)
  | done, current, [] => (done, current)
  | done, current, character :: rest =>
    if character ∈ [' ', '\t', '\n'] then
      match current with
      | some text => splitValue (done ++ [String.ofList text]) none rest
      | none => splitValue done none rest
    else splitValue done (some (current.getD [] ++ [character])) rest

/-- The fields of a word. -/
def ShellState.fields (state : ShellState) (pieces : List Piece) : List String :=
  let step : List String × Option (List Char) → Piece → List String × Option (List Char)
    | (done, current), .literal text => (done, some (current.getD [] ++ text))
    | (done, current), .value parameter true =>
      (done, some (current.getD [] ++ (state.value parameter).toList))
    | (done, current), .value parameter false =>
      splitValue done current (state.value parameter).toList
  let (done, current) := pieces.foldl step ([], none)
  done ++ (current.map String.ofList).toList

/-- Where an output goes. -/
inductive Sink where
  | nowhere
  | errors
  | file (path : String)
  deriving DecidableEq

/-- Where the two outputs of a command go. -/
structure Outputs where
  standard : Sink := .nowhere
  diagnostic : Sink := .errors

/-- The outputs with one of them changed. -/
def Outputs.set (outputs : Outputs) (output : Nat) (sink : Sink) : Outputs :=
  if output = 1 then { outputs with standard := sink }
  else if output = 2 then { outputs with diagnostic := sink }
  else outputs

/-- Writes bytes to where an output goes. -/
def ShellState.emit (state : ShellState) (sink : Sink) (bytes : List UInt8) : ShellState :=
  match sink with
  | .nowhere => state
  | .errors => { state with errors := state.errors ++ bytes }
  | .file path =>
    let before := (state.disk.read path).toOption.getD []
    match state.disk.write path (before ++ bytes) with
    | .ok disk => { state with disk }
    | .error _ => state

/-- A complaint of the shell itself. -/
def ShellState.complain (state : ShellState) (text : String) (status : Nat) : ShellState :=
  let line := state.arguments.getD 0 "" ++ ": " ++ text ++ "\n"
  { state.emit .errors (utf8Bytes line) with status }

/-- The file that takes everything and keeps nothing. -/
def nullDevice : String := "/dev/null"

/-- Applies the redirections of a command. There are no outputs if one of them fails. -/
def ShellState.redirectAll (state : ShellState) (outputs : Outputs) :
    List (Nat × Redirection × List Piece) → ShellState × Option Outputs
  | [] => (state, some outputs)
  | (output, redirection, target) :: rest =>
    let name := " ".intercalate (state.fields target)
    match redirection with
    | .duplicate =>
      let sink := if name = "2" then outputs.diagnostic else outputs.standard
      state.redirectAll (outputs.set output sink) rest
    | .create | .append =>
      let kept :=
        if redirection = .append then (state.disk.read name).toOption.getD [] else []
      if name = nullDevice then state.redirectAll (outputs.set output .nowhere) rest
      else
        match state.disk.write name kept with
        | .ok disk => { state with disk }.redirectAll (outputs.set output (.file name)) rest
        | .error _ => (state.complain ("cannot create " ++ name) 2, none)

/-! ## Formatted printing -/

/-- The bytes of a character. -/
def charBytes (character : Char) : List UInt8 := utf8Bytes (String.singleton character)

/-- The value of an octal digit. -/
def octalDigit? (character : Char) : Option Nat :=
  if '0' ≤ character ∧ character ≤ '7' then some (character.toNat - '0'.toNat) else none

/-- The value of at most `count` octal digits after those already read, and how many there are. -/
def octalValue : Nat → Nat → List Char → Nat × Nat
  | 0, value, _ => (value, 0)
  | _ + 1, value, [] => (value, 0)
  | count + 1, value, character :: rest =>
    match octalDigit? character with
    | none => (value, 0)
    | some digit =>
      let more := octalValue count (8 * value + digit) rest
      (more.1, more.2 + 1)

/-- What a backslash and the character after it stand for. -/
def escapeBytes? (character : Char) : Option (List UInt8) :=
  match character with
  | 'a' => some [7]
  | 'b' => some [8]
  | 't' => some [9]
  | 'n' => some [10]
  | 'v' => some [11]
  | 'f' => some [12]
  | 'r' => some [13]
  | '\\' => some [0x5C]
  | '"' => some [0x22]
  | '\'' => some [0x27]
  | _ => none

/-- One pass over a format: the bytes, and the arguments that are left. -/
def formatOnce (format : List Char) (arguments : List String) : List UInt8 × List String :=
  match format with
  | [] => ([], arguments)
  | '\\' :: character :: rest =>
    let octal := octalValue 3 0 (character :: rest)
    if 0 < octal.2 then
      let more := formatOnce (rest.drop (octal.2 - 1)) arguments
      (UInt8.ofNat octal.1 :: more.1, more.2)
    else
      let more := formatOnce rest arguments
      (((escapeBytes? character).getD (0x5C :: charBytes character)) ++ more.1, more.2)
  | '%' :: 's' :: rest =>
    let more := formatOnce rest (arguments.drop 1)
    (utf8Bytes (arguments.headD "") ++ more.1, more.2)
  | '%' :: 'd' :: rest =>
    let more := formatOnce rest (arguments.drop 1)
    (utf8Bytes (toString (((arguments.headD "").toInt?).getD 0)) ++ more.1, more.2)
  | '%' :: '%' :: rest =>
    let more := formatOnce rest arguments
    (0x25 :: more.1, more.2)
  | character :: rest =>
    let more := formatOnce rest arguments
    (charBytes character ++ more.1, more.2)
  termination_by format.length
  decreasing_by all_goals simp only [List.length_drop, List.length_cons]; omega

/-- The format again and again until the arguments are used up. -/
def formatAll (format : List Char) : Nat → List String → List UInt8
  | 0, _ => []
  | fuel + 1, arguments =>
    let (bytes, rest) := formatOnce format arguments
    if rest.isEmpty || rest.length = arguments.length then bytes
    else bytes ++ formatAll format fuel rest

/-! ## Commands -/

/-- The contents of files one after another, and complaints about those that cannot be read. -/
def ShellState.concatenate (state : ShellState) (outputs : Outputs) :
    List String → ShellState
  | [] => state
  | name :: rest =>
    match state.disk.read name with
    | .ok bytes => (state.emit outputs.standard bytes).concatenate outputs rest
    | .error fault =>
      let reason := (fault.message.splitOn " (os").headD ""
      let complaint := utf8Bytes ("cat: " ++ name ++ ": " ++ reason ++ "\n")
      let failed := state.emit outputs.diagnostic complaint
      { failed with status := 1 }.concatenate outputs rest

/-- Removes files. One that is not there is passed over if `force` is set, else complained
about. -/
def ShellState.removeAll (state : ShellState) (outputs : Outputs) (force : Bool) :
    List String → ShellState
  | [] => state
  | name :: rest =>
    match state.disk.remove name with
    | .ok disk => { state with disk }.removeAll outputs force rest
    | .error fault =>
      if force && fault = .notFound then state.removeAll outputs force rest
      else
        let complaint := utf8Bytes ("rm: cannot remove " ++ name ++ "\n")
        { state.emit outputs.diagnostic complaint with status := 1 }.removeAll outputs force rest

/-- Runs one command. -/
def ShellState.command (state : ShellState) (outputs : Outputs) (words : List String) :
    ShellState :=
  match words with
  | [] => { state with status := 0 }
  | "exit" :: arguments =>
    let status :=
      match arguments with
      | [] => some state.status
      | number :: _ => number.toNat?
    match status with
    | some status => { state with status := status % 256, hasExited := true }
    | none =>
      { state.complain ("exit: Illegal number: " ++ arguments.headD "") 2 with hasExited := true }
  | "echo" :: "-n" :: arguments =>
    { state.emit outputs.standard (utf8Bytes (" ".intercalate arguments)) with status := 0 }
  | "echo" :: arguments =>
    { state.emit outputs.standard (utf8Bytes (" ".intercalate arguments ++ "\n")) with
      status := 0 }
  | "printf" :: format :: arguments =>
    let bytes := formatAll format.toList (arguments.length + 1) arguments
    { state.emit outputs.standard bytes with status := 0 }
  | "cat" :: names => { state with status := 0 }.concatenate outputs names
  | "cp" :: source :: target :: _ =>
    match (state.disk.read source).bind (state.disk.write target) with
    | .ok disk => { state with disk, status := 0 }
    | .error _ =>
      { state.emit outputs.diagnostic (utf8Bytes "cp: cannot copy\n") with status := 1 }
  | "rm" :: "-f" :: names => { state with status := 0 }.removeAll outputs true names
  | "rm" :: names => { state with status := 0 }.removeAll outputs false names
  | ":" :: _ => { state with status := 0 }
  | "true" :: _ => { state with status := 0 }
  | "false" :: _ => { state with status := 1 }
  | name :: _ => state.complain (name ++ ": not found") 127

/-- Runs the commands of a line, until one of them exits. -/
def ShellState.runCommands (state : ShellState) :
    List (Connector × SimpleCommand) → ShellState
  | [] => state
  | (connector, command) :: rest =>
    let applies :=
      match connector with
      | .always => true
      | .onSuccess => state.status = 0
      | .onFailure => state.status ≠ 0
    if state.hasExited then state
    else if !applies then state.runCommands rest
    else if command.words.isEmpty && command.redirections.isEmpty then state.runCommands rest
    else
      match state.redirectAll {} command.redirections with
      | (state, none) => state.runCommands rest
      | (state, some outputs) =>
        (state.command outputs (command.words.flatMap state.fields)).runCommands rest

/-- Runs a script line by line, until it exits or ends. -/
def ShellState.runLines (state : ShellState) : Nat → List Char → ShellState
  | 0, _ => state
  | _ + 1, [] => state
  | fuel + 1, text =>
    if state.hasExited then state
    else
      match readLine? .plain {} text with
      | none => state.complain "Syntax error" 2
      | some (tokens, rest) =>
        match commandsOf? .always {} tokens with
        | none => state.complain "Syntax error" 2
        | some commands => (state.runCommands commands).runLines fuel rest

/-- Runs a script with the given name and arguments. -/
def runScript (disk : Disk) (text : String) (arguments : List String) : ShellState :=
  ({ disk, arguments } : ShellState).runLines (text.length + 1) text.toList

end WasmWorkshop.Handoff
