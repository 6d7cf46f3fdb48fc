import Narrative.Number.Decimal

/-!
The command line: a subcommand, the file it works on, and options. Options may stand before and
after the file, each at most once, and their values after them or attached to them. Words are read
from left to right, and the first that is wrong or asks for the version decides.
-/

set_option autoImplicit false

namespace Narrative

structure RenderOptions where
  /-- The number of visits. -/
  visits : Nat
  seed : UInt64
  /-- The variables, as a JSON text. -/
  bindings : Option String
  /-- The file that keeps progress between runs. -/
  state : Option String
deriving DecidableEq

/-- What the command line asks for. -/
inductive Action where
  /-- Checks every directive of a file and lists them. -/
  | check (file : String)
  /-- Shows the outline of a file. -/
  | tree (file : String)
  /-- Resolves a file, visit by visit. -/
  | render (file : String) (options : RenderOptions)
deriving DecidableEq

inductive Subcommand where
  | check
  | tree
  | render
deriving DecidableEq

namespace Subcommand

def name : Subcommand → String
  | check => "check"
  | tree => "tree"
  | render => "render"

def all : List Subcommand := [check, tree, render]

def ofName? (name : String) : Option Subcommand :=
  all.find? (fun subcommand => subcommand.name == name)

end Subcommand

inductive Request where
  | perform (action : Action)
  /-- Shows the version of the program, or of a subcommand. -/
  | version (subcommand : Option Subcommand)
deriving DecidableEq

namespace Arguments

inductive Flag where
  | verbose
  | version
  | visits
  | seed
  | bindings
  | state
deriving DecidableEq

namespace Flag

/-- Whether an option stands alone, before every subcommand and after it. -/
def isSwitch : Flag → Bool
  | verbose | version => true
  | _ => false

/-- Whether a text can be the value of an option. Numbers have 64 bits, and the name of a file
cannot be empty. -/
def accepts : Flag → String → Bool
  | visits, value | seed, value => (Decimal.nat64? value.toList).isSome
  | state, value => !value.isEmpty
  | _, _ => true

/-- Whether a subcommand takes an option. None stands for the words before the subcommand. -/
def belongsTo (flag : Flag) (subcommand : Option Subcommand) : Bool :=
  flag.isSwitch || subcommand == some .render

def ofLong? (subcommand : Option Subcommand) (name : String) : Option Flag :=
  let flag := match name with
    | "verbose" => some verbose
    | "version" => some version
    | "times" => some visits
    | "seed" => some seed
    | "vars" => some bindings
    | "state" => some state
    | _ => none
  flag.filter (belongsTo · subcommand)

def ofShort? (subcommand : Option Subcommand) (name : Char) : Option Flag :=
  let flag := match name with
    | 'v' => some verbose
    | 'V' => some version
    | 'n' => some visits
    | 's' => some seed
    | _ => none
  flag.filter (belongsTo · subcommand)

end Flag

/-- Why no more words are read. -/
inductive Stop where
  /-- The words so far mean nothing. -/
  | misuse
  /-- The version is asked for. -/
  | version
deriving DecidableEq

/-- The words of a command line so far, sorted. -/
structure Sorted where
  /-- The word that belongs to no option. -/
  file : Option String
  /-- The options and their values. -/
  options : List (Flag × String)

namespace Sorted

def empty : Sorted := ⟨none, []⟩

def value? (sorted : Sorted) (flag : Flag) : Option String :=
  (sorted.options.find? (fun other => other.1 == flag)).map Prod.snd

/-- Adds a word that belongs to no option. There is one such word, and it is not empty. -/
def operand (sorted : Sorted) (word : String) : Except Stop Sorted :=
  if sorted.file.isSome || word.isEmpty then .error .misuse
  else .ok { sorted with file := some word }

def operands (sorted : Sorted) : List String → Except Stop Sorted
  | [] => .ok sorted
  | word :: rest =>
    match sorted.operand word with
    | .ok sorted => operands sorted rest
    | .error stop => .error stop

/-- Adds an option. None may be given twice. -/
def option (sorted : Sorted) (flag : Flag) (value : String) : Except Stop Sorted :=
  if (sorted.value? flag).isSome || !flag.accepts value then .error .misuse
  else .ok { sorted with options := sorted.options ++ [(flag, value)] }

/-- Adds an option without a value. Nothing is read after the one that asks for the version. -/
def switch (sorted : Sorted) (flag : Flag) : Except Stop Sorted :=
  if flag = .version then .error .version else sorted.option flag ""

end Sorted

/-- The words so far, and an option whose value is the next word. -/
abbrev Pending := Sorted × Option Flag

/-- Adds short options, the last of which may have its value attached to it. -/
def readShort (subcommand : Option Subcommand) (sorted : Sorted) : List Char → Except Stop Pending
  | [] => .ok (sorted, none)
  | name :: rest =>
    match Flag.ofShort? subcommand name with
    | none => .error .misuse
    | some flag =>
      if flag.isSwitch then
        match sorted.switch flag with
        | .ok sorted => readShort subcommand sorted rest
        | .error stop => .error stop
      else
        match rest with
        | [] => .ok (sorted, some flag)
        | '=' :: value => (sorted.option flag (String.ofList value)).map (·, none)
        | value => (sorted.option flag (String.ofList value)).map (·, none)

/-- Adds a long option, which may have its value attached to it. -/
def readLong (subcommand : Option Subcommand) (sorted : Sorted) (chars : List Char) :
    Except Stop Pending :=
  let name := String.ofList (chars.takeWhile (· != '='))
  match Flag.ofLong? subcommand name, chars.dropWhile (· != '=') with
  | none, _ => .error .misuse
  | some flag, [] =>
    if flag.isSwitch then (sorted.switch flag).map (·, none) else .ok (sorted, some flag)
  | some flag, _ :: value =>
    if flag.isSwitch then .error .misuse
    else (sorted.option flag (String.ofList value)).map (·, none)

/-- Adds the options in a word, if it is one of options. -/
def readOptions? (subcommand : Option Subcommand) (sorted : Sorted) (word : String) :
    Option (Except Stop Pending) :=
  match word.toList with
  | '-' :: '-' :: chars => some (readLong subcommand sorted chars)
  | '-' :: c :: chars => some (readShort subcommand sorted (c :: chars))
  | _ => none

/-- Whether a word can be the value of the option before it. -/
def isValue (word : String) : Bool := word == "-" || word.toList.head? != some '-'

/-- Sorts the words after a subcommand. Two dashes end the options. -/
def sort (subcommand : Subcommand) (sorted : Sorted) : List String → Except Stop Sorted
  | [] => .ok sorted
  | word :: rest =>
    if word = "--" then sorted.operands rest
    else
      match readOptions? (some subcommand) sorted word with
      | none =>
        match sorted.operand word with
        | .ok sorted => sort subcommand sorted rest
        | .error stop => .error stop
      | some (.error stop) => .error stop
      | some (.ok (sorted, none)) => sort subcommand sorted rest
      | some (.ok (sorted, some flag)) =>
        match rest with
        | [] => .error .misuse
        | value :: rest =>
          if isValue value then
            match sorted.option flag value with
            | .ok sorted => sort subcommand sorted rest
            | .error stop => .error stop
          else .error .misuse

/-- The number that is the value of an option, or its preset. -/
def number (sorted : Sorted) (flag : Flag) (preset : Nat) : Nat :=
  ((sorted.value? flag).bind (fun text => Decimal.nat64? text.toList)).getD preset

def renderOptions (sorted : Sorted) : RenderOptions where
  visits := number sorted .visits 1
  seed := UInt64.ofNat (number sorted .seed 42)
  bindings := sorted.value? .bindings
  state := sorted.value? .state

def action (subcommand : Subcommand) (file : String) (sorted : Sorted) : Action :=
  match subcommand with
  | .check => .check file
  | .tree => .tree file
  | .render => .render file (renderOptions sorted)

/-- Reads the words after a subcommand. There must be a file. -/
def afterSubcommand? (subcommand : Subcommand) (words : List String) : Option Request :=
  match sort subcommand .empty words with
  | .error .version => some (.version subcommand)
  | .error .misuse => none
  | .ok sorted => sorted.file.map (fun file => .perform (action subcommand file sorted))

/-- Reads the words of a command line after those that were sorted, up to the subcommand and on. -/
def beforeSubcommand? (sorted : Sorted) : List String → Option Request
  | [] => none
  | word :: rest =>
    match readOptions? none sorted word with
    | none => (Subcommand.ofName? word).bind (afterSubcommand? · rest)
    | some (.error .version) => some (.version none)
    | some (.error .misuse) => none
    | some (.ok (sorted, _)) => beforeSubcommand? sorted rest

end Arguments

/-- Reads a command line. Nothing stands for one that is not understood. -/
def Request.ofWords? (words : List String) : Option Request :=
  Arguments.beforeSubcommand? .empty words

example : Request.ofWords? ["-v", "render", "-s7", "scene.txt", "--times=2"] =
    some (.perform (.render "scene.txt" ⟨2, 7, none, none⟩)) := by decide +kernel

example : Request.ofWords? ["tree", "--version", "--unknown"] = some (.version (some .tree)) ∧
    Request.ofWords? ["tree", "--unknown", "--version"] = none := by decide +kernel

end Narrative
