/-
**Arguments of a command.**

The arguments of a program are options and other words.  An option is written `--name value`,
`--name=value` or, if it has a letter, `-n value`, `-nvalue` or `-n=value`; a flag has no value.  A
value that is a word of its own must not look like an option, no option may be given twice, and
after `--` everything is a plain word.  Arguments are checked in their order, so that a request for
help counts only if everything before it is right.

Main definitions:

* `CoachLedger.CommandLine.Opt` — options;
* `CoachLedger.CommandLine.Form` — what a command takes;
* `CoachLedger.CommandLine.Given` — the options and words that are given;
* `CoachLedger.CommandLine.scan` — reads the arguments of a command;
* `CoachLedger.CommandLine.scanFront` — reads the arguments before the name of a command.
-/

set_option autoImplicit false

namespace CoachLedger.CommandLine

/-- An option. -/
structure Opt where
  name : String
  letter : Option Char
  /-- The values that it accepts; a flag has none. -/
  values : Option (String → Bool)

/-- The option has a value. -/
def Opt.hasValue (o : Opt) : Bool := o.values.isSome

/-- The option accepts a value; what a flag is given does not matter. -/
def Opt.accepts (o : Opt) (value : String) : Bool := o.values.all fun accepts => accepts value

/-- What a command takes. -/
structure Form where
  options : List Opt
  /-- The words that each place accepts. -/
  places : List (String → Bool)
  /-- Any words may follow those of the places. -/
  takesMore : Bool

/-- The command accepts a word after a number of others. -/
def Form.acceptsWord (f : Form) (before : Nat) (w : String) : Bool :=
  match f.places[before]? with
  | some accepts => accepts w
  | none => f.takesMore

/-- Why the arguments are not read to their end. -/
inductive Stop
  /-- They do not fit the usage. -/
  | usage
  /-- The version is asked for. -/
  | version
  /-- The usage is asked for. -/
  | help
deriving DecidableEq, Repr

/-- The options and words that are given. -/
structure Given where
  options : List (String × String)
  /-- The words, last one first. -/
  reversedWords : List String
deriving DecidableEq, Repr

namespace Given

/-- Nothing is given. -/
def empty : Given := ⟨[], []⟩

/-- The words in their order. -/
def words (g : Given) : List String := g.reversedWords.reverse

/-- The value of an option; that of a flag is empty. -/
def value? (g : Given) (name : String) : Option String := g.options.lookup name

/-- One more word, if the command accepts it. -/
def addWord (g : Given) (f : Form) (w : String) : Except Stop Given :=
  if f.acceptsWord g.reversedWords.length w then
    .ok { g with reversedWords := w :: g.reversedWords }
  else .error .usage

/-- One more option, unless it was given before or does not accept the value. -/
def add (g : Given) (o : Opt) (value : String) : Except Stop Given :=
  if (g.value? o.name).isSome || !o.accepts value then .error .usage
  else .ok { g with options := (o.name, value) :: g.options }

end Given

/-! ### Words and options -/

/-- How an argument starts. -/
inductive Shape
  /-- A plain word. -/
  | word
  /-- The mark after which everything is a plain word. -/
  | divider
  /-- An option by its name, perhaps with a value. -/
  | long (name : String) (value : Option String)
  /-- An option by its letter, with what follows the letter. -/
  | short (letter : Char) (rest : List Char)

/-- The text before and after the first equals sign. -/
def splitEquals (cs : List Char) : List Char × Option (List Char) :=
  (cs.takeWhile (· != '='), (cs.dropWhile (· != '=')).tail?)

/-- The shape of an argument. -/
def shape (arg : String) : Shape :=
  match arg.toList with
  | ['-', '-'] => .divider
  | '-' :: '-' :: cs =>
      let (name, value) := splitEquals cs
      .long (String.ofList name) (value.map String.ofList)
  | '-' :: c :: rest => .short c rest
  | _ => .word

/-- The argument may be the value of the option before it. -/
def isPlain (arg : String) : Bool :=
  match shape arg with
  | .word => true
  | _ => false

/-- What to do with an argument that is an option. -/
inductive Move
  /-- The option is complete. -/
  | take (o : Opt) (value : String)
  /-- The next argument is its value. -/
  | await (o : Opt)
  /-- A flag by its letter, and more letters. -/
  | letters (o : Opt) (rest : List Char)
  | stop (s : Stop)

/-- What to do with an option by its name. -/
def longMove (opts : List Opt) (hasVersion : Bool) (name : String) (value : Option String) :
    Move :=
  if name = "help" ∧ value.isNone then .stop .help
  else if name = "version" ∧ value.isNone ∧ hasVersion then .stop .version
  else
    match opts.find? fun o => o.name == name, value with
    | some o, some v => if o.hasValue then .take o v else .stop .usage
    | some o, none => if o.hasValue then .await o else .take o ""
    | none, _ => .stop .usage

/-- What to do with an option by its letter. -/
def shortMove (opts : List Opt) (hasVersion : Bool) (letter : Char) (rest : List Char) : Move :=
  if letter = 'h' then .stop .help
  else if letter = 'V' ∧ hasVersion then .stop .version
  else
    match opts.find? fun o => o.letter == some letter with
    | none => .stop .usage
    | some o =>
        if o.hasValue then
          match rest with
          | [] => .await o
          | '=' :: v => .take o (String.ofList v)
          | v => .take o (String.ofList v)
        else if rest.isEmpty then .take o ""
        else .letters o rest

/-- What to do with flags by their letters. -/
def lettersMove (opts : List Opt) (hasVersion : Bool) (g : Given) :
    List Char → Except Stop (Given × Option Opt)
  | [] => .ok (g, none)
  | c :: rest =>
      match shortMove opts hasVersion c rest with
      | .take o value => (g.add o value).map fun g => (g, none)
      | .await o => .ok (g, some o)
      | .letters o _ =>
          match g.add o "" with
          | .ok g => lettersMove opts hasVersion g rest
          | .error s => .error s
      | .stop s => .error s

/-- What to do with an argument: the options after it, and the option that waits for a value. -/
def react (opts : List Opt) (hasVersion : Bool) (g : Given) (s : Shape) :
    Except Stop (Given × Option Opt) :=
  match s with
  | .short c rest => lettersMove opts hasVersion g (c :: rest)
  | .long name value =>
      match longMove opts hasVersion name value with
      | .take o value => (g.add o value).map fun g => (g, none)
      | .await o => .ok (g, some o)
      | .letters .. => .error .usage
      | .stop s => .error s
  | _ => .error .usage

/-- Reads the arguments of a command; all words belong to it. -/
def scan (f : Form) (g : Given) : List String → Except Stop Given
  | [] => .ok g
  | arg :: rest =>
      match shape arg with
      | .word =>
          match g.addWord f arg with
          | .ok g => scan f g rest
          | .error e => .error e
      | .divider => rest.foldlM (fun g w => g.addWord f w) g
      | s =>
          match react f.options false g s with
          | .error e => .error e
          | .ok (g, none) => scan f g rest
          | .ok (g, some o) =>
              match rest with
              | [] => .error .usage
              | value :: rest =>
                  if isPlain value then
                    match g.add o value with
                    | .ok g => scan f g rest
                    | .error e => .error e
                  else .error .usage

/-! ### Before the name of a command -/

/-- An option with a value that was read but not looked at yet. -/
abbrev Held := Option (Opt × String)

/-- The options with the one that was held back. -/
def Given.settle (g : Given) (held : Held) : Except Stop Given :=
  match held with
  | none => .ok g
  | some (o, value) => g.add o value

/-- What is read before the arguments of a command. -/
structure Front where
  given : Given
  /-- The last option, which is only looked at after the arguments of the command. -/
  held : Held
  command : String
  rest : List String

/-- The options in front of the command. -/
def Front.settle (f : Front) : Except Stop Given := f.given.settle f.held

/-- Reads the arguments up to the first word, which is the name of a command. -/
def scanFront (opts : List Opt) (g : Given) (held : Held) : List String → Except Stop Front
  | [] => .error .usage
  | arg :: rest =>
      match shape arg with
      | .word => .ok ⟨g, held, arg, rest⟩
      | .divider => .error .usage
      | s =>
          match (g.settle held).bind fun g => react opts true g s with
          | .error e => .error e
          | .ok (g, none) => scanFront opts g none rest
          | .ok (g, some o) =>
              match rest with
              | [] => .error .usage
              | value :: rest =>
                  if isPlain value then scanFront opts g (some (o, value)) rest
                  else .error .usage

end CoachLedger.CommandLine
