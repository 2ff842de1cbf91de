import ImportAtlas.Export.Format
import ImportAtlas.ModuleFilter

/-!
The options of the command line.

Arguments are read from left to right. An option that takes a value and has none attached waits for
the next argument; its value is checked when the next option is met or a further argument stands
for the package. What was given twice, what excludes each other and what is missing is told in this
order.
-/

namespace ImportAtlas.CommandLine

inductive Item where
  | root
  | output
  | keep
  | drop
  | format
  | render
  | verbose
  | quiet
  | help
  | version
  deriving DecidableEq, Repr

namespace Item

/-- The item as it is shown in messages. -/
def text : Item → String
  | root => "<ROOT>"
  | output => "--output <OUTPUT>"
  | keep => "--include <INCLUDE>"
  | drop => "--exclude <EXCLUDE>"
  | format => "--format <FORMAT>"
  | render => "--render"
  | verbose => "--verbose"
  | quiet => "--quiet"
  | help => "--help"
  | version => "--version"

def takesValue : Item → Bool
  | root | output | keep | drop | format => true
  | _ => false

def ofName? : String → Option Item
  | "output" => some output
  | "include" => some keep
  | "exclude" => some drop
  | "format" => some format
  | "render" => some render
  | "verbose" => some verbose
  | "quiet" => some quiet
  | "help" => some help
  | "version" => some version
  | _ => none

def ofLetter? : Char → Option Item
  | 'o' => some output
  | 'I' => some keep
  | 'X' => some drop
  | 'f' => some format
  | 'v' => some verbose
  | 'q' => some quiet
  | 'h' => some help
  | 'V' => some version
  | _ => none

end Item

structure Options where
  root : String := ""
  output : Option String := none
  filter : ModuleFilter := .all
  format : Format := .html
  render : Bool := false
  verbose : Bool := false
  quiet : Bool := false
  deriving DecidableEq, Inhabited

inductive UsageError where
  | help
  | version
  | unknown (argument : String)
  | noValue (item : Item)
  | badFormat (name : String)
  | unneededValue (value : String) (item : Item)
  | repeated (item : Item)
  | excluded (first second : Item)
  | noRoot
  deriving DecidableEq, Repr

/-- What is wrong with the arguments, in a line; the package that is missing is on a second one. -/
def UsageError.message : UsageError → String
  | help | version => ""
  | unknown argument => s!"unexpected argument '{argument}' found"
  | noValue item => s!"a value is required for '{item.text}' but none was supplied"
  | badFormat name =>
    s!"invalid value '{name}' for '{Item.format.text}': {Format.unknownMessage name}"
  | unneededValue value item =>
    s!"unexpected value '{value}' for '{item.text}' found; no more were expected"
  | repeated item => s!"the argument '{item.text}' cannot be used multiple times"
  | excluded first second => s!"the argument '{first.text}' cannot be used with '{second.text}'"
  | noRoot => s!"the following required arguments were not provided:\n  {Item.root.text}"

/-- What was read of the arguments. -/
structure Reading where
  options : Options := {}
  /-- the items that were met, the last one first -/
  given : List Item := []
  /-- an item whose value, if there is one, is not checked yet -/
  pending : Option (Item × Option String) := none
  /-- two dashes were met: whatever follows is no option -/
  isEscaped : Bool := false
  deriving DecidableEq, Inhabited

namespace Reading

/-- The reading with an item and its value. -/
def accept (r : Reading) (item : Item) (value : Option String) : Except UsageError Reading := do
  if item.takesValue && value.isNone then throw (.noValue item)
  -- these act at once, whatever was given before and whatever comes later
  if item = .help then throw .help
  if item = .version then throw .version
  if r.given.contains item then throw (.repeated item)
  let value := value.getD ""
  let o := r.options
  let options ← match item with
    | .root => if value = "" then throw (.noValue item) else pure { o with root := value }
    | .output => if value = "" then throw (.noValue item) else pure { o with output := some value }
    | .keep => pure { o with filter := { o.filter with kept := some (readNameList value) } }
    | .drop => pure { o with filter := { o.filter with dropped := some (readNameList value) } }
    | .format =>
      match Format.ofName? value with
      | some format => pure { o with format }
      | none => throw (.badFormat value)
    | .render => pure { o with render := true }
    | .verbose => pure { o with verbose := true }
    | .quiet => pure { o with quiet := true }
    | .help | .version => pure o
  return { r with options, given := item :: r.given }

def settle (r : Reading) : Except UsageError Reading :=
  match r.pending with
  | none => .ok r
  | some (item, value) => { r with pending := none }.accept item value

/-- The option is met, with the value that is attached to it. -/
def meet (r : Reading) (item : Item) (attached : Option String) : Except UsageError Reading := do
  let r ← r.settle
  if item.takesValue && attached.isNone then return { r with pending := some (item, none) }
  r.accept item attached

/-- The letters behind a dash: options without values, of which the last may have one. -/
def meetLetters (r : Reading) : List Char → Except UsageError Reading
  | [] => .ok r
  | c :: cs =>
    match Item.ofLetter? c with
    | none => .error (.unknown (.ofList ['-', c]))
    | some item =>
      if item.takesValue then
        -- the letters that are left are its value
        r.meet item (if cs = [] then none else some (.ofList (if cs.head? = some '=' then cs.drop 1
          else cs)))
      else do
        let r ← r.meet item none
        r.meetLetters cs

/-- The name behind two dashes, with what is attached to it behind an equals sign. -/
def meetName (r : Reading) (text : List Char) : Except UsageError Reading :=
  let name : String := .ofList (text.takeWhile (· ≠ '='))
  let attached := (text.dropWhile (· ≠ '=')).tail?.map String.ofList
  match Item.ofName? name with
  | none => .error (.unknown ("--" ++ name))
  | some item =>
    match item.takesValue, attached with
    | false, some value => .error (.unneededValue value item)
    | _, _ => r.meet item attached

/-- An argument that is no option: the value that is waited for, or the package. -/
def meetValue (r : Reading) (value : String) : Except UsageError Reading :=
  match r.pending, r.isEscaped with
  | some (item, none), false => .ok { r with pending := some (item, some value) }
  | pending, _ =>
    if r.given.contains .root || pending.any (·.1 = .root) then .error (.unknown value)
    else do
      let r ← r.settle
      return { r with pending := some (.root, some value) }

def next (r : Reading) (argument : String) : Except UsageError Reading :=
  match r.isEscaped, argument.toList with
  | false, ['-', '-'] => .ok { r with isEscaped := true }
  | false, '-' :: '-' :: cs => r.meetName cs
  | false, '-' :: c :: cs => r.meetLetters (c :: cs)
  | _, _ => r.meetValue argument

def finish (r : Reading) : Except UsageError Options := do
  let r ← r.settle
  if r.options.verbose && r.options.quiet then
    -- the one that was given first is named first
    let order := r.given.reverse.filter fun item => item = .verbose || item = .quiet
    throw (if order.head? = some .quiet then .excluded .quiet .verbose
      else .excluded .verbose .quiet)
  unless r.given.contains .root do throw .noRoot
  return r.options

end Reading

/-- The options that arguments spell. -/
def Options.ofArguments (arguments : List String) : Except UsageError Options := do
  let r ← arguments.foldlM Reading.next {}
  r.finish

end ImportAtlas.CommandLine
