namespace SchemaDiagram

inductive OptionName where
  | verbose
  | quiet
  | config
  | help
  | version
  | pretty
  | output
  deriving DecidableEq, Repr, Inhabited

inductive CommandName where
  | parse
  | check
  | sql
  | layout
  deriving DecidableEq, Repr, Inhabited

namespace CommandName

def ofString? (s : String) : Option CommandName :=
  if s = "parse" then some .parse
  else if s = "check" then some .check
  else if s = "sql" then some .sql
  else if s = "layout" then some .layout
  else none

end CommandName

namespace OptionName

def takesValue : OptionName → Bool
  | .config | .output => true
  | _ => false

def mayRepeat : OptionName → Bool
  | .verbose => true
  | _ => false

/-- Whether the option may be given at a level: before the command, or after one of the commands. -/
def isAllowed (level : Option CommandName) : OptionName → Bool
  | .verbose | .quiet | .config | .help => true
  | .version => level.isNone
  | .pretty => level == some .parse
  | .output => level == some .sql

def ofLong? (level : Option CommandName) (name : String) : Option OptionName :=
  let option? :=
    if name = "verbose" then some .verbose
    else if name = "quiet" then some .quiet
    else if name = "config" then some .config
    else if name = "help" then some .help
    else if name = "version" then some .version
    else if name = "pretty" then some .pretty
    else if name = "output" then some .output
    else none
  option?.filter (isAllowed level)

def ofShort? (level : Option CommandName) (letter : Char) : Option OptionName :=
  let option? :=
    if letter = 'v' then some .verbose
    else if letter = 'q' then some .quiet
    else if letter = 'h' then some .help
    else if letter = 'V' then some .version
    else if letter = 'o' then some .output
    else none
  option?.filter (isAllowed level)

end OptionName

inductive Refusal where
  | helpAsked (level : Option CommandName)
  | versionAsked
  | usage
  deriving DecidableEq, Repr, Inhabited

/-- What was given at one level: the options with their values, and the plain words. -/
structure GivenWords where
  options : List (OptionName × String) := []
  operands : List String := []
  deriving DecidableEq, Repr, Inhabited

namespace GivenWords

def has (given : GivenWords) (option : OptionName) : Bool :=
  given.options.any (·.1 == option)

def value? (given : GivenWords) (option : OptionName) : Option String :=
  (given.options.find? (·.1 == option)).map Prod.snd

/-- Adds an option. Asking for help or the version ends the reading at once. Options other than repeatable
ones are given once, and no value is empty. -/
def addOption (level : Option CommandName) (given : GivenWords) (option : OptionName)
    (value : String) : Except Refusal GivenWords :=
  if option = .help then .error (.helpAsked level)
  else if option = .version then .error .versionAsked
  else if given.has option && !option.mayRepeat then .error .usage
  else if option.takesValue && value.isEmpty then .error .usage
  else .ok { given with options := (option, value) :: given.options }

def addOperand (given : GivenWords) (word : String) : Except Refusal GivenWords :=
  if given.operands.isEmpty then .ok { given with operands := [word] } else .error .usage

end GivenWords

/-- Whether a word is an option, or a run of options. A lone hyphen is a plain word. -/
def isOptionWord (word : String) : Bool :=
  word.startsWith "-" && word != "-"

def endsOptions (word : String) : Bool := word == "--"

/-- The part of a text before its first equals sign, and the part after it if there is one. -/
def splitAtEquals : List Char → List Char × Option (List Char)
  | [] => ([], none)
  | c :: rest =>
    if c = '=' then ([], some rest)
    else
      let (before, after) := splitAtEquals rest
      (c :: before, after)

/-- What is left to do after a word: nothing, or to take the next word as the value of an option. -/
abbrev Awaiting := Option OptionName

def readLong (level : Option CommandName) (given : GivenWords) (word : List Char) :
    Except Refusal (GivenWords × Awaiting) :=
  let (name, value?) := splitAtEquals word
  match OptionName.ofLong? level (String.ofList name), value? with
  | none, _ => .error .usage
  | some option, none =>
    if option.takesValue then .ok (given, some option)
    else (given.addOption level option "").map fun given => (given, none)
  | some option, some value =>
    if option.takesValue then
      (given.addOption level option (String.ofList value)).map fun given => (given, none)
    else .error .usage

def dropEquals : List Char → List Char
  | '=' :: rest => rest
  | text => text

/-- Reads a run of options with letters. What follows the letter of an option with a value is that
value. -/
def readShort (level : Option CommandName) (given : GivenWords) :
    List Char → Except Refusal (GivenWords × Awaiting)
  | [] => .ok (given, none)
  | letter :: rest =>
    match OptionName.ofShort? level letter with
    | none => .error .usage
    | some option =>
      if option.takesValue then
        if rest.isEmpty then .ok (given, some option)
        else
          (given.addOption level option (String.ofList (dropEquals rest))).map
            fun given => (given, none)
      else
        match given.addOption level option "" with
        | .error refusal => .error refusal
        | .ok given => readShort level given rest

def readOptionWord (level : Option CommandName) (given : GivenWords) (word : String) :
    Except Refusal (GivenWords × Awaiting) :=
  match word.toList with
  | '-' :: '-' :: rest => readLong level given rest
  | _ :: rest => readShort level given rest
  | [] => .error .usage

/-- Reads the words of a level up to its first plain word, or to the end. An option that awaits a value
takes the next word unless that is an option. Gives what was read, and the words from the plain word
on. -/
def readOptions (level : Option CommandName) (given : GivenWords) (awaiting : Awaiting) :
    List String → Except Refusal (GivenWords × List String)
  | [] => if awaiting.isSome then .error .usage else .ok (given, [])
  | word :: rest =>
    match awaiting with
    | some option =>
      if isOptionWord word then .error .usage
      else
        match given.addOption level option word with
        | .error refusal => .error refusal
        | .ok given => readOptions level given none rest
    | none =>
      if isOptionWord word && !endsOptions word then
        match readOptionWord level given word with
        | .error refusal => .error refusal
        | .ok (given, awaiting) => readOptions level given awaiting rest
      else .ok (given, word :: rest)

theorem length_readOptions_le (level : Option CommandName) (given : GivenWords)
    (awaiting : Awaiting) (words : List String) {result : GivenWords} {rest : List String}
    (h : readOptions level given awaiting words = .ok (result, rest)) :
    rest.length ≤ words.length := by
  induction words generalizing given awaiting with
  | nil =>
    unfold readOptions at h
    split at h
    · simp at h
    · cases h
      simp
  | cons word words ih =>
    unfold readOptions at h
    split at h
    · split at h
      · simp at h
      · split at h
        · simp at h
        · exact Nat.le_succ_of_le (ih _ _ h)
    · split at h
      · split at h
        · simp at h
        · exact Nat.le_succ_of_le (ih _ _ h)
      · cases h
        simp

def readOperands (given : GivenWords) : List String → Except Refusal GivenWords
  | [] => .ok given
  | word :: rest =>
    match given.addOperand word with
    | .error refusal => .error refusal
    | .ok given => readOperands given rest

def readCommandWords (command : CommandName) (given : GivenWords) (words : List String) :
    Except Refusal GivenWords :=
  match _h : readOptions (some command) given none words with
  | .error refusal => .error refusal
  | .ok (given, []) => .ok given
  | .ok (given, word :: rest) =>
    if endsOptions word then readOperands given rest
    else
      match given.addOperand word with
      | .error refusal => .error refusal
      | .ok given => readCommandWords command given rest
termination_by words.length
decreasing_by
  have := length_readOptions_le _ _ _ _ _h
  simp only [List.length_cons] at this
  omega

/-- What the command line asks for. Options that are given at both levels count as given after the
command. -/
structure Invocation where
  command : CommandName
  /-- The path of the text to read; a lone hyphen stands for the standard input. -/
  input : String
  configPath : Option String
  outputPath : Option String
  isPretty : Bool
  deriving DecidableEq, Repr, Inhabited

def standardInput : String := "-"

def Invocation.ofGiven (command : CommandName) (before after : GivenWords) : Invocation where
  command := command
  input := after.operands.headD standardInput
  configPath := (after.value? .config).or (before.value? .config)
  outputPath := after.value? .output
  isPretty := after.has .pretty

def readHelpTopic : List String → Refusal
  | [] => .helpAsked none
  | [name] =>
    match CommandName.ofString? name with
    | some command => .helpAsked (some command)
    | none => if name = "help" then .helpAsked none else .usage
  | _ => .usage

/-- Reads the words of a command line. -/
def Invocation.ofWords (words : List String) : Except Refusal Invocation :=
  match readOptions none {} none words with
  | .error refusal => .error refusal
  | .ok (_, []) => .error .usage
  | .ok (before, name :: rest) =>
    if name = "help" then .error (readHelpTopic rest)
    else
      match CommandName.ofString? name with
      | none => .error .usage
      | some command =>
        (readCommandWords command {} rest).map fun after => .ofGiven command before after

end SchemaDiagram
