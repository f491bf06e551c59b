import LicenseDepot.Text.Digit
import LicenseDepot.Text.Quoted

/-!
# Arguments of the command line

A command line is made of options, a command, and what the command takes. Options may be cut short
as long as that leaves one meaning, values may follow an option or be joined to it, and short
options may be run together. After two hyphens nothing is an option. A line that is not understood
is refused with the first thing that is wrong with it; a line that asks for help is not looked at
any further.
-/

namespace LicenseDepot.CommandLine

/-- An option. -/
inductive Flag
  | help
  | store
  | single
  | verbose
  deriving DecidableEq, Repr

/-- Whether a value goes with an option. -/
def Flag.takesValue : Flag → Bool
  | .store => true
  | _ => false

/-- What an option is called in reports. -/
def Flag.label : Flag → String
  | .help => "-h/--help"
  | .store => "--store/-s"
  | .single => "--single"
  | .verbose => "--verbose/-v"

/-- The spellings of options, in a fixed order. -/
abbrev Spellings := List (String × Flag)

/-- The options before a command. -/
def generalOptions : Spellings :=
  [("-h", .help), ("--help", .help), ("--store", .store), ("-s", .store), ("--single", .single),
    ("--verbose", .verbose), ("-v", .verbose)]

/-- The options after a command. -/
def commandOptions : Spellings :=
  [("-h", .help), ("--help", .help)]

/-- The commands. -/
inductive Command
  | list
  | show (id : Option String)
  | importFile (file : String)
  | delete (id : String)
  | purge
  deriving DecidableEq, Repr

/-- What a command takes. -/
inductive Slot
  | nothing
  | optional
  | required (name : String)
  deriving DecidableEq, Repr

/-- The words for the commands and what each takes. -/
def commandSlots : List (String × Slot) :=
  [("list", .nothing), ("show", .optional), ("import", .required "file"),
    ("delete", .required "license_id"), ("purge", .nothing)]

/-- Why a command line is refused. -/
inductive UsageFault
  | ambiguous (word : String) (spellings : List String)
  | valueMissing (flag : Flag)
  | valueIgnored (flag : Flag) (value : String)
  | unknownCommand (word : String)
  | missing (names : List String)
  | unrecognized (words : List String)
  deriving DecidableEq, Repr

/-- The report of a command line that is refused. -/
def UsageFault.message : UsageFault → String
  | .ambiguous word spellings =>
    s!"ambiguous option: {word} could match " ++ ", ".intercalate spellings
  | .valueMissing flag => s!"argument {flag.label}: expected one argument"
  | .valueIgnored flag value =>
    s!"argument {flag.label}: ignored explicit argument {Text.quoted value}"
  | .unknownCommand word =>
    let choices := ", ".intercalate (commandSlots.map fun c => Text.quoted c.1)
    s!"argument command: invalid choice: {Text.quoted word} (choose from {choices})"
  | .missing names => "the following arguments are required: " ++ ", ".intercalate names
  | .unrecognized words => "unrecognized arguments: " ++ " ".intercalate words

/-- Why there are no arguments to work with. -/
inductive Stop
  | help
  | usage (fault : UsageFault)
  deriving DecidableEq, Repr

/-- A value that is joined to an option, after an equals sign or directly. -/
structure Joined where
  equals : Bool
  value : List Char
  deriving DecidableEq, Repr

/-- What a word of the command line is. -/
inductive Word
  /-- No option. -/
  | plain
  /-- The two hyphens after which nothing is an option. -/
  | separator
  /-- An option, in a spelling of one hyphen or of two. -/
  | option (flag : Flag) (short : Bool) (joined : Option Joined)
  /-- A word that looks like an option and is none. -/
  | unknown
  deriving DecidableEq, Repr

/-- Whether a spelling has one hyphen. -/
def isShort (spelling : List Char) : Bool :=
  (spelling.drop 1).head? != some '-'

/-- The text before the first equals sign and the one after it, if there is one. -/
def splitEquals (s : List Char) : List Char × Option (List Char) :=
  match s.dropWhile (· != '=') with
  | [] => (s, none)
  | _ :: value => (s.takeWhile (· != '='), some value)

/-- Whether a character is a decimal digit of any script. -/
def isDecimal (c : Char) : Bool :=
  (Text.decimalValue? c).isSome

/-- Whether a text is a negative number: digits after a hyphen, or a point and digits after some
digits or none. A line may end after it. -/
def isNegativeNumber (s : List Char) : Bool :=
  match if s.getLast? = some '\n' then s.dropLast else s with
  | '-' :: digits =>
    match digits.dropWhile isDecimal with
    | [] => !digits.isEmpty
    | '.' :: fraction => !fraction.isEmpty && fraction.all isDecimal
    | _ => false
  | _ => false

/-- The options that a word may be short for, with their spellings. -/
def candidates (options : Spellings) (s : List Char) : List (String × Word) :=
  if isShort s then
    options.filterMap fun (spelling, flag) =>
      if spelling.toList = s.take 2 then
        some (spelling, .option flag true (some ⟨false, s.drop 2⟩))
      else if s.isPrefixOf spelling.toList then
        some (spelling, .option flag (isShort spelling.toList) none)
      else none
  else
    let (front, value) := splitEquals s
    options.filterMap fun (spelling, flag) =>
      if front.isPrefixOf spelling.toList then
        some (spelling, .option flag false (value.map (⟨true, ·⟩)))
      else none

/-- What a word is, if it comes before two hyphens. -/
def classify (options : Spellings) (word : String) : Except UsageFault Word :=
  let s := word.toList
  if s.head? ≠ some '-' ∨ s.length = 1 then .ok .plain
  else
    match options.lookup word with
    | some flag => .ok (.option flag (isShort s) none)
    | none =>
      let (front, value) := splitEquals s
      match value, options.lookup (String.ofList front) with
      | some value, some flag => .ok (.option flag (isShort front) (some ⟨true, value⟩))
      | _, _ =>
        match candidates options s with
        | [] => .ok (if isNegativeNumber s || s.contains ' ' then .plain else .unknown)
        | [(_, w)] => .ok w
        | several => .error (.ambiguous word (several.map Prod.fst))

/-- What each word of a line is. -/
def classifyAll (options : Spellings) : List String → Except UsageFault (List (String × Word))
  | [] => .ok []
  | word :: rest =>
    if word = "--" then .ok ((word, .separator) :: rest.map (·, .plain))
    else do
      let w ← classify options word
      return (word, w) :: (← classifyAll options rest)

/-- What has been understood of a line. -/
structure Settings where
  store : Option String := none
  single : Bool := false
  verbose : Bool := false
  /-- The words that were not understood. -/
  extras : List String := []
  deriving DecidableEq, Repr

/-- The settings after an option. -/
def Settings.apply (st : Settings) (flag : Flag) (value : String) : Except Stop Settings :=
  match flag with
  | .help => .error .help
  | .store => .ok { st with store := some value }
  | .single => .ok { st with single := true }
  | .verbose => .ok { st with verbose := true }

/-- The options that one word gives. -/
structure Run where
  /-- Options with their values. -/
  flags : List (Flag × String)
  /-- An option whose value is the next word. -/
  waiting : Option Flag := none
  /-- What is left of the word. -/
  leftover : Option String := none

/-- The options that are run together in a word, given the first one and what is joined to it. -/
def runOf (options : Spellings) (done : List (Flag × String)) (flag : Flag) (short equals : Bool)
    (joined : List Char) : Except UsageFault Run :=
  if flag.takesValue then .ok { flags := done ++ [(flag, String.ofList joined)] }
  else
    match joined with
    | [] => .error (.valueIgnored flag "")
    | c :: rest =>
      if short = false ∨ equals ∨ c = '-' then .error (.valueIgnored flag (String.ofList joined))
      else
        let done := done ++ [(flag, "")]
        match options.lookup (String.ofList ['-', c]) with
        | none => .ok { flags := done, leftover := some (String.ofList ('-' :: c :: rest)) }
        | some next =>
          match rest with
          | [] =>
            if next.takesValue then .ok { flags := done, waiting := some next }
            else .ok { flags := done ++ [(next, "")] }
          | '=' :: rest => runOf options done next true true rest
          | d :: rest => runOf options done next true false (d :: rest)
termination_by joined.length

/-- The options that a word gives. -/
def runOfWord (options : Spellings) (flag : Flag) (short : Bool) (joined : Option Joined) :
    Except UsageFault Run :=
  match joined with
  | some j => runOf options [] flag short j.equals j.value
  | none =>
    if flag.takesValue then .ok { flags := [], waiting := some flag }
    else .ok { flags := [(flag, "")] }

/-- The settings after the options of a word, and the words that follow. -/
def Settings.take (st : Settings) (run : Run) (rest : List (String × Word)) :
    Except Stop (Settings × List (String × Word)) := do
  let (flags, rest) ←
    match run.waiting, rest with
    | none, _ => pure (run.flags, rest)
    | some flag, (value, .plain) :: rest => pure (run.flags ++ [(flag, value)], rest)
    | some flag, _ => throw (.usage (.valueMissing flag))
  let st ← flags.foldlM (fun st (flag, value) => st.apply flag value) st
  return ({ st with extras := st.extras ++ run.leftover.toList }, rest)

/-- Reads the options before the command. What is left begins with the command, if there is
one. `fuel` bounds the number of words. -/
def readOptions (fuel : Nat) (st : Settings) (words : List (String × Word)) :
    Except Stop (Settings × List String) :=
  match fuel, words with
  | 0, _ | _, [] => .ok (st, [])
  | fuel + 1, (word, w) :: rest =>
    match w with
    | .unknown => readOptions fuel { st with extras := st.extras ++ [word] } rest
    | .option flag short joined => do
      let run ← (runOfWord generalOptions flag short joined).mapError .usage
      let (st, rest) ← st.take run rest
      readOptions fuel st rest
    | .separator =>
      if rest.isEmpty then .ok ({ st with extras := st.extras ++ [word] }, [])
      else .ok (st, word :: rest.map Prod.fst)
    | .plain => .ok (st, word :: rest.map Prod.fst)

/-- What has been understood of the words after a command: its argument, if it has been found, and
the words that were not understood. -/
structure Found where
  argument : Option String := none
  extras : List String := []

/-- Reads the words after a command; `free` says that its argument may still come. The two hyphens
belong to the argument that they stand next to. -/
def readRest (slot : Slot) (free : Bool) (found : Found) :
    List (String × Word) → Except Stop Found
  | [] => .ok found
  | (word, w) :: rest =>
    match w with
    | .unknown => readRest slot free { found with extras := found.extras ++ [word] } rest
    | .option flag short joined =>
      match runOfWord commandOptions flag short joined with
      | .error fault => .error (.usage fault)
      | .ok run =>
        if run.flags.any fun f => f.1 == .help then .error .help
        else readRest slot free { found with extras := found.extras ++ run.leftover.toList } rest
    | .plain =>
      if free then
        match rest with
        | (_, .separator) :: rest =>
          readRest slot false { found with argument := some word } rest
        | rest => readRest slot false { found with argument := some word } rest
      else readRest slot free { found with extras := found.extras ++ [word] } rest
    | .separator =>
      if free then
        match rest with
        | (value, _) :: rest => readRest slot false { found with argument := some value } rest
        | [] =>
          if slot = .optional then .ok found
          else .ok { found with extras := found.extras ++ [word] }
      else readRest slot free { found with extras := found.extras ++ [word] } rest

/-- The command of a word with its argument. -/
def commandOf (word : String) (argument : Option String) : Command :=
  if word = "list" then .list
  else if word = "show" then .show argument
  else if word = "import" then .importFile (argument.getD "")
  else if word = "delete" then .delete (argument.getD "")
  else .purge

/-- Reads a command and the words after it. -/
def readCommand (word : String) (rest : List String) : Except Stop (Command × List String) :=
  match commandSlots.lookup word with
  | none => .error (.usage (.unknownCommand word))
  | some slot => do
    let words ← (classifyAll commandOptions rest).mapError .usage
    let found ← readRest slot (slot != .nothing) {} words
    match slot, found.argument with
    | .required name, none => throw (.usage (.missing [name]))
    | _, argument => return (commandOf word argument, found.extras)

/-- What a command line asks for. -/
structure Arguments where
  store : String
  single : Bool
  verbose : Bool
  command : Command
  deriving DecidableEq, Repr

/-- Reads a command line. -/
def Arguments.read (line : List String) : Except Stop Arguments := do
  let words ← (classifyAll generalOptions line).mapError .usage
  let (st, rest) ← readOptions words.length {} words
  let (command, extras) ←
    match rest with
    | [] => pure (none, [])
    | word :: rest =>
      let (c, extras) ← readCommand word rest
      pure (some c, extras)
  match st.store, command with
  | some store, some command =>
    if st.extras ++ extras = [] then
      return ⟨store, st.single, st.verbose, command⟩
    else throw (.usage (.unrecognized (st.extras ++ extras)))
  | store, command =>
    throw (.usage (.missing ((if store.isNone then ["--store/-s"] else [])
      ++ (if command.isNone then ["command"] else []))))

end LicenseDepot.CommandLine
