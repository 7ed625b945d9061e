import ReceiptNotes.Text.Numeral

/-! # The arguments of the command line

What the arguments of the program ask for. They are read from left to right, so a
request for help counts if nothing before it is wrong. Options have a value, either
behind an equals sign or as the next argument; a value in an argument of its own must
not look like an option. Nothing may be given twice, and behind a bare pair of dashes
everything is positional.
-/

namespace ReceiptNotes.CommandLine

inductive Topic where
  | program
  | notes
  | preview
  | help
  deriving DecidableEq, Repr

/-- Settings of the printer that both commands know. -/
structure Layout where
  /-- Characters on a line, instead of what the profile says. -/
  columns : Option UInt64
  profile : Option Text
  deriving DecidableEq, Repr

/-- Where the jobs go. -/
inductive Destination where
  | memory
  | network (target : Text)
  | device (path : Text)
  deriving DecidableEq, Repr

inductive Invocation where
  | help (topic : Topic)
  | version
  | misuse
  | notes (destination : Destination) (layout : Layout)
  /-- A file shown as a note; with a dump of its job if `hex`. -/
  | preview (file : Text) (hex : Bool) (layout : Layout)
  deriving DecidableEq, Repr

structure Grammar where
  flags : List Text
  /-- Options with a value, and which values they take. -/
  options : List (Text × (Text → Bool))
  /-- Which positional arguments there are, and what they may be. -/
  positionals : List (Text → Bool)

structure Sorted where
  flags : List Text
  options : List (Text × Text)
  positionals : List Text
  deriving DecidableEq, Repr

inductive Reading where
  | sorted (arguments : Sorted)
  | help
  | misuse
  deriving DecidableEq, Repr

namespace Sorted

def empty : Sorted := ⟨[], [], []⟩

/-- With one more positional argument, if the command has a place for it. -/
def addPositional? (sorted : Sorted) (grammar : Grammar) (argument : Text) :
    Option Sorted :=
  match grammar.positionals[sorted.positionals.length]? with
  | some accepts =>
      if accepts argument then
        some { sorted with positionals := sorted.positionals ++ [argument] }
      else none
  | none => none

/-- With one more flag, if the command knows it and it has not been given. -/
def addFlag? (sorted : Sorted) (grammar : Grammar) (name : Text) : Option Sorted :=
  if name ∈ grammar.flags ∧ name ∉ sorted.flags then
    some { sorted with flags := name :: sorted.flags }
  else none

/-- With a value for an option, if the option takes it and has not been given. -/
def addOption? (sorted : Sorted) (grammar : Grammar) (name value : Text) :
    Option Sorted :=
  match grammar.options.lookup name with
  | some accepts =>
      if accepts value ∧ (sorted.options.lookup name).isNone then
        some { sorted with options := (name, value) :: sorted.options }
      else none
  | none => none

def option? (sorted : Sorted) (name : String) : Option Text :=
  sorted.options.lookup name.toList

def hasFlag (sorted : Sorted) (name : String) : Bool :=
  sorted.flags.contains name.toList

end Sorted

def sortPositionals (grammar : Grammar) : List Text → Sorted → Reading
  | [], sorted => .sorted sorted
  | argument :: arguments, sorted =>
      match sorted.addPositional? grammar argument with
      | some sorted => sortPositionals grammar arguments sorted
      | none => .misuse

/-- A text before and behind its first equals sign. Without one there is nothing
behind it. -/
def splitValue (text : Text) : Text × Option Text :=
  let name := text.takeWhile (· ≠ '=')
  match text.dropWhile (· ≠ '=') with
  | [] => (name, none)
  | _ :: value => (name, some value)

def sort (grammar : Grammar) : List Text → Sorted → Reading
  | [], sorted => .sorted sorted
  | argument :: arguments, sorted =>
      match argument with
      | ['-', '-'] => sortPositionals grammar arguments sorted
      | '-' :: '-' :: long =>
          match splitValue long with
          | (name, some value) =>
              match sorted.addOption? grammar name value with
              | some sorted => sort grammar arguments sorted
              | none => .misuse
          | (name, none) =>
              if name = "help".toList then .help
              else
                match grammar.options.lookup name, arguments with
                | some _, [] => .misuse
                | some _, value :: arguments =>
                    if value ≠ ['-'] ∧ value.head? = some '-' then .misuse
                    else
                      match sorted.addOption? grammar name value with
                      | some sorted => sort grammar arguments sorted
                      | none => .misuse
                | none, arguments =>
                    match sorted.addFlag? grammar name with
                    | some sorted => sort grammar arguments sorted
                    | none => .misuse
      | '-' :: c :: _ => if c = 'h' then .help else .misuse
      | positional =>
          match sorted.addPositional? grammar positional with
          | some sorted => sort grammar arguments sorted
          | none => .misuse

def columns? (value : Text) : Option Nat :=
  Text.unsigned? UInt64.size value

/-- A file must have a name. -/
def isFileName (value : Text) : Bool :=
  !value.isEmpty

def layoutOptions : List (Text × (Text → Bool)) :=
  [("columns".toList, fun value => (columns? value).isSome), ("profile".toList, isFileName)]

def Sorted.layout (sorted : Sorted) : Layout where
  columns := ((sorted.option? "columns").bind columns?).map UInt64.ofNat
  profile := sorted.option? "profile"

/-- The serial device that is used if nothing else is asked for. -/
def defaultDevice : Text := "/dev/rfcomm0".toList

def notesGrammar : Grammar where
  flags := ["dry-run".toList]
  options :=
    [("device".toList, fun _ => true), ("tcp".toList, fun _ => true)] ++ layoutOptions
  positionals := []

def previewGrammar : Grammar where
  flags := ["hex".toList]
  options := layoutOptions
  positionals := [isFileName]

/-- The invocation of `notes`. A printer on the network cannot be combined with a dry
run. -/
def notesInvocation (arguments : List Text) : Invocation :=
  match sort notesGrammar arguments .empty with
  | .misuse => .misuse
  | .help => .help .notes
  | .sorted sorted =>
      match sorted.hasFlag "dry-run", sorted.option? "tcp" with
      | true, some _ => .misuse
      | true, none => .notes .memory sorted.layout
      | false, some target => .notes (.network target) sorted.layout
      | false, none =>
          .notes (.device ((sorted.option? "device").getD defaultDevice)) sorted.layout

/-- The invocation of `preview`. The file is required. -/
def previewInvocation (arguments : List Text) : Invocation :=
  match sort previewGrammar arguments .empty with
  | .misuse => .misuse
  | .help => .help .preview
  | .sorted sorted =>
      match sorted.positionals with
      | [file] => .preview file (sorted.hasFlag "hex") sorted.layout
      | _ => .misuse

def topic? (name : Text) : Option Topic :=
  if name = "notes".toList then some .notes
  else if name = "preview".toList then some .preview
  else if name = "help".toList then some .help
  else none

def helpInvocation : List Text → Invocation
  | [] => .help .program
  | [name] =>
      match topic? name with
      | some topic => .help topic
      | none => .misuse
  | _ => .misuse

def invocation (arguments : List Text) : Invocation :=
  match arguments with
  | [] => .misuse
  | first :: arguments =>
      if first = "--help".toList then .help .program
      else if first = "--version".toList then .version
      else
        match first with
        | '-' :: 'h' :: _ => .help .program
        | '-' :: 'V' :: _ => .version
        | name =>
            match topic? name with
            | some .notes => notesInvocation arguments
            | some .preview => previewInvocation arguments
            | some .help => helpInvocation arguments
            | _ => .misuse

def Invocation.files : Invocation → List Text
  | .notes _ layout => layout.profile.toList
  | .preview file _ layout => layout.profile.toList ++ [file]
  | .help _ | .version | .misuse => []

end ReceiptNotes.CommandLine
