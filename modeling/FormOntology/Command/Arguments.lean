import FormOntology.Text.Blank

/-!
# Command line arguments

Arguments are words.  Those that begin with a hyphen are options: `--name`, or `-n` for those with
a short name.  The value of an option is the next word, or it is attached: `--name=value`,
`-nvalue`, `-n=value`.  Several short names may share a hyphen.  After `--` no word is an option,
and a lone hyphen never is one.

## Main definitions

* `OptionSpec` — what is known of an option.
* `Arguments`, `Arguments.read?` — the options and the other words of a list of arguments.
-/

namespace FormOntology

/-- What is known of an option. -/
structure OptionSpec where
  /-- The name behind two hyphens. -/
  long : String
  /-- The name behind one hyphen. -/
  short : Option Char := none
  /-- Whether it has a value. -/
  hasValue : Bool := true
  /-- Whether it may be given more than once. -/
  many : Bool := false
  deriving DecidableEq, Repr, Inhabited

/-- The options and the other words that were given. -/
structure Arguments where
  /-- The options with their values, in order; one without a value has an empty one. -/
  options : List (String × String)
  /-- The other words, in order. -/
  words : List String
  deriving DecidableEq, Repr, Inhabited

namespace Arguments

/-- Arguments with more options in front. -/
def withOptions (options : List (String × String)) (a : Arguments) : Arguments :=
  { a with options := options ++ a.options }

/-- Arguments with one more word in front. -/
def withWord (word : String) (a : Arguments) : Arguments := { a with words := word :: a.words }

/-- The values of an option, in order. -/
def values (a : Arguments) (name : String) : List String :=
  (a.options.filter (·.1 = name)).map (·.2)

/-- The value of an option that is given at most once. -/
def value? (a : Arguments) (name : String) : Option String := (a.values name).head?

/-- Whether an option is given. -/
def has (a : Arguments) (name : String) : Bool := !(a.values name).isEmpty

/-! ### Reading -/

/-- Whether a word is an option or ends the options. -/
def isOption (word : String) : Bool := word.startsWith "-" && word ≠ "-"

/-- The options of one word, and the name of the last of them if its value is still missing. -/
abbrev Reading := List (String × String) × Option String

/-- The option of a word behind its two hyphens. -/
def readLong? (specs : List OptionSpec) (word : List Char) : Option Reading := do
  let name := String.ofList (word.takeWhile (· ≠ '='))
  let spec ← specs.find? (·.long = name)
  match spec.hasValue, word.dropWhile (· ≠ '=') with
  | true, [] => some ([], some name)
  | true, _ :: value => some ([(name, String.ofList value)], none)
  | false, [] => some ([(name, "")], none)
  | false, _ :: _ => none

/-- The options of a word behind its single hyphen. -/
def readShort? (specs : List OptionSpec) : List Char → Option Reading
  | [] => some ([], none)
  | c :: r =>
    match specs.find? (·.short = some c) with
    | none => none
    | some spec =>
      if !spec.hasValue then
        (readShort? specs r).map fun (options, missing) => ((spec.long, "") :: options, missing)
      else
        match r with
        | [] => some ([], some spec.long)
        | d :: value =>
          some ([(spec.long, String.ofList (if d = '=' then value else r))], none)

/-- The options of a word that is an option. -/
def readOption? (specs : List OptionSpec) (word : String) : Option Reading :=
  match word.toList with
  | '-' :: '-' :: r => readLong? specs r
  | '-' :: r => readShort? specs r
  | _ => none

/-- The options and words of a list of arguments.  With `leading` the options end in front of the
first other word. -/
def scan? (specs : List OptionSpec) (leading : Bool) : List String → Option Arguments
  | [] => some ⟨[], []⟩
  | word :: rest =>
    if word = "--" then if leading then none else some ⟨[], rest⟩
    else if isOption word then
      match readOption? specs word with
      | none => none
      | some (options, none) => (scan? specs leading rest).map (·.withOptions options)
      | some (options, some name) =>
        match rest with
        | [] => none
        | value :: rest =>
          if isOption value then none
          else (scan? specs leading rest).map (·.withOptions (options ++ [(name, value)]))
    else if leading then some ⟨[], word :: rest⟩
    else (scan? specs leading rest).map (·.withWord word)

/-- Whether no option is given more often than it may. -/
def withinLimits (specs : List OptionSpec) (a : Arguments) : Bool :=
  specs.all fun spec => spec.many || (a.values spec.long).length ≤ 1

/-- The options and words of a list of arguments, none if they are no such list. -/
def read? (specs : List OptionSpec) (leading : Bool) (arguments : List String) :
    Option Arguments :=
  (scan? specs leading arguments).filter (withinLimits specs)

end Arguments

end FormOntology
