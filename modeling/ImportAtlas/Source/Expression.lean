import ImportAtlas.Source.Literal

/-!
Expressions.

A word is a keyword only where the grammar has a use for it; anywhere else an operand may begin,
it is a name. Precedence does not decide which texts are expressions, so a chain of operators is
read as one phrase. The readers here take expressions from a `Nested`, which `expression` ties
into a recursion bounded by the length of the text.
-/

namespace ImportAtlas.Source

open Reader

/-- Where `a if b else c` may be read without brackets. -/
inductive Choice where
  | always
  /-- not in the condition of a comprehension, but in the body of a lambda there -/
  | inLambda
  /-- not in what a comprehension runs through -/
  | never
  deriving DecidableEq, Repr

/-- What may follow an expression, and how it is read. -/
structure Context where
  /-- the line may end behind it -/
  newline : Bool := false
  /-- a bracket may close behind it -/
  close : Bool := false
  choice : Choice := .always
  deriving DecidableEq, Repr

namespace Context

/-- What may stand behind a complete operand. -/
def after (c : Context) : Expect := { newline := c.newline, close := c.close }

def body (c : Context) : Context :=
  match c.choice with
  | .inLambda => { c with choice := .always }
  | _ => c

def bracketed : Context := { close := true }

def statement : Context := { newline := true }

end Context

def operandStart : Expect := { quote := true }

/-- Nested expressions, and a bound on the rounds of every loop in them. -/
structure Nested where
  rounds : Nat
  expression : Context → Reader Tree

/-- Puts a phrase of several trees into a node; a single tree stands for itself. -/
def phrase (kind : NodeKind) : List Tree → Tree
  | [t] => t
  | [] => .node kind .start []
  | t :: ts => .node kind t.position (t :: ts)

def constants : List String := ["True", "False", "None"]

/-- Words that go on with an expression, so that no operand begins with them. -/
def connectives : List String := ["and", "or", "not", "in", "is", "if", "else", "as", "for"]

/-- An operand may begin at the cursor. -/
def atOperand : Reader Bool := do
  if (← word?).isSome || (← atString) || (numberAt (← rest)).isSome then return true
  match ← symbol? with
  | some s => return ["(", "[", "\x7b", "-", "+", "~", "*", "..."].contains s
  | none => return false

namespace Expression

variable (nested : Nested)

def listStep (ctx : Context) (stops : List String) (done : List Tree) :
    Reader (Option (List Tree)) := do
  match ← next ctx.after with
  | .mark _ => return none
  | .lexeme =>
    unless ← atSymbol "," do return none
    let comma ← symbol ","
    match ← next { ctx.after with quote := true } with
    | .mark _ => return some (comma :: done)
    | .lexeme =>
      if ← atSymbol "," then stop
      -- what ends the list may come behind a last comma
      let stopped := ((← word?).map stops.contains).getD false
      if stopped || !(← atOperand) then return some (comma :: done)
      let e ← nested.expression ctx
      return some (e :: comma :: done)

def many (ctx : Context) (stops : List String := []) : Reader (List Tree) := do
  let first ← nested.expression ctx
  return (← iterate (listStep nested ctx stops) nested.rounds [first]).reverse

def yield (ctx : Context) : Reader Tree := do
  let word ← keyword "yield"
  match ← next { ctx.after with quote := true } with
  | .mark _ => return .node .yieldExpression word.position [word]
  | .lexeme =>
    if ← atWord "from" then
      let source ← keyword "from"
      lexeme operandStart
      let e ← nested.expression ctx
      return .node .yieldExpression word.position [word, source, e]
    if ← atOperand then
      let es ← many nested ctx
      return .node .yieldExpression word.position (word :: es)
    return .node .yieldExpression word.position [word]

/-! ### Strings with interpolations -/

/-- The conversion of an interpolated value: an exclamation mark and a letter. -/
def conversion : Reader (List Tree) := do
  match ← rest with
  | '!' :: c :: _ => if 'a' ≤ c && c ≤ 'z' then return [← take .symbol 2] else return []
  | _ => return []

/-- The text of a format up to a brace. -/
def formatText : List Char → Nat := fun cs =>
  (cs.takeWhile fun c => c ≠ '\x7b' && c ≠ '\x7d' && c ≠ '\n').length

/-- A format: text and interpolations up to the closing brace. -/
def formatStep (interpolation : Reader Tree) (done : List Tree) : Reader (Option (List Tree)) := do
  skipSpace
  match ← rest with
  | '\x7d' :: _ => return none
  | '\x7b' :: _ => return some ((← interpolation) :: done)
  | cs =>
    match formatText cs with
    | 0 => stop
    | n => return some ((← take .text n) :: done)

/-- An interpolated value in braces, with its conversion and its format. -/
def interpolation : Nat → Reader Tree
  | 0 => stop
  | n + 1 => do
    let opening ← symbol "\x7b"
    lexeme operandStart
    let value ← if ← atWord "yield" then pure [← yield nested .bracketed]
      else many nested .bracketed
    lexeme Context.bracketed.after
    let equals ← if ← atSymbol "=" then pure [← symbol "="] else pure []
    lexeme Context.bracketed.after
    let convert ← conversion
    lexeme Context.bracketed.after
    let format ←
      if (← rest).head? == some ':' then do
        let colon ← take .symbol 1
        let pieces ← iterate (formatStep (interpolation n)) nested.rounds [colon]
        pure [phrase .formatSpec pieces.reverse]
      else pure []
    let closing ← nextSymbol "\x7d" Context.bracketed.after
    return .node .interpolation opening.position
      (opening :: value ++ equals ++ convert ++ format ++ [closing])

def oneString : Reader Tree := string nested.rounds (interpolation nested nested.rounds)

def strings (ctx : Context) : Reader Tree := do
  let first ← oneString nested
  let step (done : List Tree) : Reader (Option (List Tree)) := do
    match ← next { ctx.after with quote := true } with
    | .mark _ => return none
    | .lexeme => if ← atString then return some ((← oneString nested) :: done) else return none
  return phrase .strings (← iterate step nested.rounds [first]).reverse

/-! ### Parameters -/

def defaultValue (ctx : Context) : Reader (List Tree) := do
  if ← atSymbol "=" then
    let equals ← symbol "="
    lexeme operandStart
    return [equals, ← nested.expression ctx]
  return []

/-! ### Atoms and what is attached to them -/

def wordOperand : Reader Tree := do
  match ← word? with
  | none => stop
  | some w => if constants.contains w then take .constant w.length else name

def starred (ctx : Context) : Reader Tree := do
  let star ← symbol "*"
  lexeme operandStart
  let e ← nested.expression ctx
  -- a star before any other expression cannot be the body of a comprehension
  let simple := e.isName || e.hasKind .subscript || e.hasKind .attribute
  return .node (if simple then .splat else .unpacking) star.position [star, e]

def element (ctx : Context) : Reader Tree := do
  if ← atWord "yield" then yield nested ctx
  else if ← atSymbol "*" then
    let plain := do
      let e ← nested.expression ctx
      lexeme ctx.after
      if (← atSymbol ",") || (← atSymbol ")") || (← atSymbol "]") || (← atSymbol "\x7d")
          || (← atSymbol ":") || (← atWord "for") || (← atWord "async") then return e
      stop
    orElse plain (starred nested ctx)
  else nested.expression ctx

def elementStep (closing : String) (done : List Tree) : Reader (Option (List Tree)) := do
  lexeme Context.bracketed.after
  unless ← atSymbol "," do return none
  let comma ← symbol ","
  lexeme { Context.bracketed.after with quote := true }
  if ← atSymbol closing then return some (comma :: done)
  return some ((← element nested .bracketed) :: comma :: done)

def atClause : Reader Bool := do
  if (← atWord "for") || (← atWord "if") then return true
  if ← atWord "async" then
    peek do
      let _ ← keyword "async"
      lexeme Context.bracketed.after
      atWord "for"
  else return false

def target (operand : Context → Reader Tree) : Reader Tree := do
  let t ← operand {}
  if t.isTarget then return t else stop

def targetStep (operand : Context → Reader Tree) (done : List Tree) :
    Reader (Option (List Tree)) := do
  lexeme
  unless ← atSymbol "," do return none
  let comma ← symbol ","
  lexeme operandStart
  if ← atWord "in" then return some (comma :: done)
  return some ((← target operand) :: comma :: done)

def targets (operand : Context → Reader Tree) : Reader (List Tree) := do
  lexeme operandStart
  let first ← target operand
  return (← iterate (targetStep operand) nested.rounds [first]).reverse

/-- What a clause of a comprehension runs through. -/
def iterableStep (done : List Tree) : Reader (Option (List Tree)) := do
  lexeme Context.bracketed.after
  unless ← atSymbol "," do return none
  let comma ← symbol ","
  lexeme { Context.bracketed.after with quote := true }
  if ← atSymbol "," then stop
  if (← atClause) || !(← atOperand) then return some (comma :: done)
  return some ((← nested.expression { close := true, choice := .never }) :: comma :: done)

def clause (operand : Context → Reader Tree) : Reader Tree := do
  let p ← position
  if ← atWord "if" then
    let word ← keyword "if"
    lexeme operandStart
    let e ← nested.expression { close := true, choice := .inLambda }
    return .node .ifClause p [word, e]
  let async ← if ← atWord "async" then pure [← keyword "async"] else pure []
  let word ← nextKeyword "for" Context.bracketed.after
  let left ← targets nested operand
  let inWord ← nextKeyword "in"
  lexeme operandStart
  let first ← nested.expression { close := true, choice := .never }
  let right ← iterate (iterableStep nested) nested.rounds [first]
  return .node .forClause p (async ++ word :: left ++ inWord :: right.reverse)

def clauses (operand : Context → Reader Tree) : Reader (List Tree) := do
  let step (done : List Tree) : Reader (Option (List Tree)) := do
    lexeme Context.bracketed.after
    if ← atClause then return some ((← clause nested operand) :: done) else return none
  let first ← clause nested operand
  return (← iterate step nested.rounds [first]).reverse

/-- A comprehension may begin behind an element. -/
def atComprehension : Reader Bool := do
  if ← atWord "if" then return false else atClause

/-- An element may be the body of a comprehension: anything but a `yield` or a starred value of
any expression. -/
def isBody (t : Tree) : Bool := !t.hasKind .yieldExpression && !t.hasKind .unpacking

/-- Round or square brackets: elements, or a comprehension. -/
def bracket (opening closing : String) (empty single several : NodeKind)
    (operand : Context → Reader Tree) : Reader Tree := do
  let openToken ← symbol opening
  lexeme { Context.bracketed.after with quote := true }
  if ← atSymbol closing then
    let closeToken ← symbol closing
    return .node empty openToken.position [openToken, closeToken]
  let first ← element nested .bracketed
  lexeme Context.bracketed.after
  if ← atComprehension then
    unless isBody first do stop
    let cs ← clauses nested operand
    let closeToken ← nextSymbol closing Context.bracketed.after
    return .node .comprehension openToken.position (openToken :: first :: cs ++ [closeToken])
  let es ← iterate (elementStep nested closing) nested.rounds [first]
  let closeToken ← nextSymbol closing Context.bracketed.after
  let kind := if es.length = 1 then single else several
  return .node kind openToken.position (openToken :: es.reverse ++ [closeToken])

/-- A pair of a dictionary whose key has been read. -/
def pairFrom (key : Tree) : Reader Tree := do
  let colon ← symbol ":"
  lexeme operandStart
  let value ← nested.expression .bracketed
  return .node .pair key.position [key, colon, value]

/-- An entry of a dictionary: a pair, or another dictionary that is unpacked. -/
def entry : Reader Tree := do
  if ← atSymbol "**" then
    let stars ← symbol "**"
    lexeme operandStart
    let e ← nested.expression .bracketed
    return .node .unpacking stars.position [stars, e]
  let key ← nested.expression {}
  lexeme
  pairFrom nested key

def entryStep (done : List Tree) : Reader (Option (List Tree)) := do
  lexeme Context.bracketed.after
  unless ← atSymbol "," do return none
  let comma ← symbol ","
  lexeme { Context.bracketed.after with quote := true }
  if ← atSymbol "\x7d" then return some (comma :: done)
  return some ((← entry nested) :: comma :: done)

/-- The rest of a dictionary behind its first entry. -/
def dictionaryFrom (openToken first : Tree) : Reader Tree := do
  let es ← iterate (entryStep nested) nested.rounds [first]
  let closeToken ← nextSymbol "\x7d" Context.bracketed.after
  return .node .dictionary openToken.position (openToken :: es.reverse ++ [closeToken])

/-- Braces: a dictionary, a set, or a comprehension of either. -/
def brace (operand : Context → Reader Tree) : Reader Tree := do
  let openToken ← symbol "\x7b"
  lexeme { Context.bracketed.after with quote := true }
  if ← atSymbol "\x7d" then
    return .node .dictionary openToken.position [openToken, ← symbol "\x7d"]
  if ← atSymbol "," then
    let comma ← symbol ","
    let closeToken ← nextSymbol "\x7d" Context.bracketed.after
    return .node .dictionary openToken.position [openToken, comma, closeToken]
  if ← atSymbol "**" then
    let first ← entry nested
    dictionaryFrom nested openToken first
  else
    let first ← element nested .bracketed
    lexeme Context.bracketed.after
    if ← atSymbol ":" then
      unless isBody first do stop
      let pair ← pairFrom nested first
      lexeme Context.bracketed.after
      if ← atComprehension then
        let cs ← clauses nested operand
        let closeToken ← nextSymbol "\x7d" Context.bracketed.after
        return .node .comprehension openToken.position (openToken :: pair :: cs ++ [closeToken])
      dictionaryFrom nested openToken pair
    else if ← atComprehension then
      unless isBody first do stop
      let cs ← clauses nested operand
      let closeToken ← nextSymbol "\x7d" Context.bracketed.after
      return .node .comprehension openToken.position (openToken :: first :: cs ++ [closeToken])
    else
      let es ← iterate (elementStep nested "\x7d") nested.rounds [first]
      let closeToken ← nextSymbol "\x7d" Context.bracketed.after
      return .node .set openToken.position (openToken :: es.reverse ++ [closeToken])

def argument : Reader Tree := do
  if ← atSymbol "**" then
    let stars ← symbol "**"
    lexeme operandStart
    let e ← nested.expression .bracketed
    return .node .unpacking stars.position [stars, e]
  if ← atSymbol "*" then element nested .bracketed
  else
    let e ← nested.expression .bracketed
    lexeme Context.bracketed.after
    if e.isName && (← atSymbol "=") then
      let equals ← symbol "="
      lexeme operandStart
      let value ← nested.expression .bracketed
      return .node .keywordArgument e.position [e, equals, value]
    return e

def argumentStep (done : List Tree) : Reader (Option (List Tree)) := do
  lexeme Context.bracketed.after
  unless ← atSymbol "," do return none
  let comma ← symbol ","
  lexeme { Context.bracketed.after with quote := true }
  if ← atSymbol ")" then return some (comma :: done)
  return some ((← argument nested) :: comma :: done)

/-- The arguments of a call in their brackets; a comprehension may be the only one. -/
def arguments (operand : Context → Reader Tree) : Reader (List Tree) := do
  let openToken ← symbol "("
  lexeme { Context.bracketed.after with quote := true }
  if ← atSymbol ")" then return [openToken, ← symbol ")"]
  if ← atSymbol "," then
    let comma ← symbol ","
    return [openToken, comma, ← nextSymbol ")" Context.bracketed.after]
  let first ← argument nested
  lexeme Context.bracketed.after
  if ← atComprehension then
    unless isBody first && !first.hasKind .keywordArgument do stop
    let cs ← clauses nested operand
    let closeToken ← nextSymbol ")" Context.bracketed.after
    return openToken :: first :: cs ++ [closeToken]
  let es ← iterate (argumentStep nested) nested.rounds [first]
  let closeToken ← nextSymbol ")" Context.bracketed.after
  return openToken :: es.reverse ++ [closeToken]

/-- A part of a slice, which may be missing. -/
def slicePart (done : List Tree) : Reader (List Tree) := do
  lexeme { Context.bracketed.after with quote := true }
  if (← atSymbol ":") || (← atSymbol "]") || (← atSymbol ",") then return done
  return (← nested.expression .bracketed) :: done

def index : Reader Tree := do
  let p ← position
  let first ← slicePart nested []
  lexeme Context.bracketed.after
  unless ← atSymbol ":" do
    match first with
    | [e] => return e
    | _ => stop
  let colon ← symbol ":"
  let second ← slicePart nested (colon :: first)
  lexeme Context.bracketed.after
  if ← atSymbol ":" then
    let colon ← symbol ":"
    let third ← slicePart nested (colon :: second)
    return .node .slice p third.reverse
  return .node .slice p second.reverse

def indexStep (done : List Tree) : Reader (Option (List Tree)) := do
  lexeme Context.bracketed.after
  unless ← atSymbol "," do return none
  let comma ← symbol ","
  lexeme { Context.bracketed.after with quote := true }
  if ← atSymbol "]" then return some (comma :: done)
  return some ((← index nested) :: comma :: done)

/-- An attribute, a subscript or a call attached to an operand. -/
def trailerStep (ctx : Context) (operand : Context → Reader Tree) (object : Tree) :
    Reader (Option Tree) := do
  match ← next ctx.after with
  | .mark _ => return none
  | .lexeme =>
    match ← symbol? with
    | some "." =>
      let dot ← symbol "."
      let field ← nextName
      return some (.node .attribute object.position [object, dot, field])
    | some "[" =>
      let openToken ← symbol "["
      lexeme operandStart
      let first ← index nested
      let is ← iterate (indexStep nested) nested.rounds [first]
      let closeToken ← nextSymbol "]" Context.bracketed.after
      return some (.node .subscript object.position
        (object :: openToken :: is.reverse ++ [closeToken]))
    | some "(" =>
      let args ← arguments nested operand
      return some (.node .call object.position (object :: args))
    | _ => return none

/-- An operand without operators and attachments. -/
def atom (ctx : Context) (operand : Context → Reader Tree) : Reader Tree := do
  if ← atString then strings nested ctx
  else if (numberAt (← rest)).isSome then number
  else if (← word?).isSome then wordOperand
  else
    match ← symbol? with
    | some "..." => take .symbol 3
    | some "(" => bracket nested "(" ")" .tuple .parenthesized .tuple operand
    | some "[" => bracket nested "[" "]" .list .list .list operand
    | some "\x7b" => brace nested operand
    | _ => stop

def attached (ctx : Context) (operand : Context → Reader Tree) : Reader Tree := do
  let a ← atom nested ctx operand
  iterate (trailerStep nested ctx operand) nested.rounds a

/-- A star may stand in front of the operand: it is a name, has a subscript or an attribute, or
is a call of such an operand. -/
def isStarrable : Tree → Bool
  | .token t => t.kind == .name
  | .node .subscript _ _ | .node .attribute _ _ => true
  | .node .call _ (object :: _) => isStarrable object
  | .node .. => false

def splat (ctx : Context) (operand : Context → Reader Tree) : Reader Tree := do
  let star ← symbol "*"
  lexeme operandStart
  let e ← attached nested ctx operand
  unless isStarrable e do stop
  return .node (if e.hasKind .call then .call else .splat) star.position [star, e]

def signStep (ctx : Context) (signs : List Tree × Option Tree) :
    Reader (Option (List Tree × Option Tree)) := do
  let (done, found) := signs
  if found.isSome then return none
  match ← symbol? with
  | some "-" | some "+" | some "~" =>
    let sign ← take .symbol 1
    lexeme operandStart
    return some (sign :: done, none)
  | _ =>
    unless ← atWord "await" do return none
    let s ← get
    let word ← keyword "await"
    let waits ← do
      match ← next { ctx.after with quote := true } with
      | .mark _ => pure false
      | .lexeme =>
        let goesOn := ((← word?).map connectives.contains).getD false
        pure (!goesOn && (← atOperand))
    if waits then return some (word :: done, none)
    set s
    return none

/-- An operand with the signs in front of it. -/
def signedWith (operand : Context → Reader Tree) (ctx : Context) : Reader Tree := do
  let (signs, _) ← iterate (signStep ctx) nested.rounds ([], none)
  let e ← if ← atSymbol "*" then splat nested ctx operand else attached nested ctx operand
  return phrase .unaryOperation (signs.reverse ++ [e])

/-- Operands nested in the targets of comprehensions. -/
def signed : Nat → Context → Reader Tree
  | 0, _ => stop
  | n + 1, ctx => signedWith nested (signed n) ctx

def operand (ctx : Context) : Reader Tree := signed nested nested.rounds ctx

/-! ### Operators -/

def binaryOperators : List String :=
  ["+", "-", "*", "@", "/", "%", "//", "**", "|", "&", "^", "<<", ">>",
    "<", "<=", "==", "!=", ">=", ">", "<>"]

def operationStep (ctx : Context) (done : List Tree) : Reader (Option (List Tree)) := do
  match ← next ctx.after with
  | .mark _ => return none
  | .lexeme =>
    let operator : List Tree ← do
      match ← symbol?, ← word? with
      | some s, _ => if binaryOperators.contains s then pure [← symbol s] else pure []
      | _, some "in" => pure [← keyword "in"]
      | _, some "not" =>
        let word ← keyword "not"
        pure [← nextKeyword "in", word]
      | _, some "is" =>
        let word ← keyword "is"
        lexeme operandStart
        if ← atWord "not" then pure [← keyword "not", word] else pure [word]
      | _, _ => pure []
    if operator.isEmpty then return none
    lexeme operandStart
    return some ((← operand nested ctx) :: operator ++ done)

/-- Operands with arithmetical operators and comparisons between them. -/
def operation (ctx : Context) : Reader Tree := do
  let first ← operand nested ctx
  return phrase .operation (← iterate (operationStep nested ctx) nested.rounds [first]).reverse

/-! ### Parameters of a lambda -/

/-- A parameter without its default value and its type. -/
def bareParameter (close : Bool) : Reader (Tree × Bool) := do
  let p ← position
  match ← symbol? with
  | some "*" =>
    let star ← symbol "*"
    lexeme { close, quote := true }
    if (← atSymbol ",") || (← atSymbol ")") || (← atSymbol ":") then
      return (.node .parameter p [star], false)
    let e ← attached nested { close } (operand nested)
    unless e.isName || e.hasKind .subscript || e.hasKind .attribute do stop
    return (.node .parameter p [star, e], false)
  | some "**" =>
    let stars ← symbol "**"
    lexeme operandStart
    let e ← attached nested { close } (operand nested)
    unless e.isName || e.hasKind .subscript || e.hasKind .attribute do stop
    return (.node .parameter p [stars, e], false)
  | some "/" => return (.node .parameter p [← symbol "/"], false)
  | some "(" =>
    let e ← atom nested { close } (operand nested)
    unless e.isTarget do stop
    return (e, true)
  | _ => return (← name, true)

def lambdaParameter : Reader Tree := do
  let (p, hasDefault) ← bareParameter nested false
  lexeme
  let value ← if hasDefault then defaultValue nested {} else pure []
  return phrase .parameter (p :: value)

def lambdaStep (done : List Tree) : Reader (Option (List Tree)) := do
  lexeme
  unless ← atSymbol "," do return none
  let comma ← symbol ","
  lexeme
  if ← atSymbol ":" then return some (comma :: done)
  return some ((← lambdaParameter nested) :: comma :: done)

def lambda (ctx : Context) : Reader Tree := do
  let word ← keyword "lambda"
  lexeme
  let params ←
    if ← atSymbol ":" then pure []
    else do
      let first ← lambdaParameter nested
      iterate (lambdaStep nested) nested.rounds [first]
  let colon ← nextSymbol ":"
  lexeme operandStart
  let body ← nested.expression ctx.body
  return .node .lambda word.position (word :: params.reverse ++ [colon, body])

/-! ### Whole expressions -/

/-- An expression without `and`, `or`, `as` and conditions. -/
def term (ctx : Context) : Reader Tree := do
  match ← word? with
  | some "not" =>
    let word ← keyword "not"
    lexeme operandStart
    let e ← nested.expression ctx
    return .node .notOperation word.position [word, e]
  | some "lambda" => lambda nested ctx
  | _ =>
    let e ← operation nested ctx
    unless e.isName do return e
    match ← next ctx.after with
    | .mark _ => return e
    | .lexeme =>
      unless ← atSymbol ":=" do return e
      let walrus ← symbol ":="
      lexeme operandStart
      let value ← nested.expression ctx
      return .node .namedExpression e.position [e, walrus, value]

def termStep (ctx : Context) (done : List Tree) : Reader (Option (List Tree)) := do
  match ← next ctx.after with
  | .mark _ => return none
  | .lexeme =>
    match ← word? with
    | some "and" | some "or" | some "as" =>
      let word ← take .keyword ((← word?).getD "").length
      lexeme operandStart
      return some ((← term nested ctx) :: word :: done)
    | some "if" =>
      unless ctx.choice = .always do return none
      let ifWord ← keyword "if"
      lexeme operandStart
      let condition ← nested.expression {}
      let elseWord ← nextKeyword "else"
      lexeme operandStart
      return some ((← term nested ctx) :: elseWord :: condition :: ifWord :: done)
    | _ => return none

def whole (ctx : Context) : Reader Tree := do
  let first ← term nested ctx
  return phrase .booleanOperation (← iterate (termStep nested ctx) nested.rounds [first]).reverse

end Expression

/-- An expression whose brackets nest at most as deep as the bound. -/
def expression : Nat → Context → Reader Tree
  | 0, _ => stop
  | n + 1, ctx => Expression.whole ⟨n, expression n⟩ ctx

end ImportAtlas.Source
