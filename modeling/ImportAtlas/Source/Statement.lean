import ImportAtlas.Source.CasePattern

/-!
Statements, suites and whole files.

A simple statement ends at a line end or a semicolon. A word such as `print` may be a name or
begin a statement of its own; the reading as an expression comes first, and the other one is
taken where that does not reach the end of the statement.
-/

namespace ImportAtlas.Source

open Reader

namespace Statement

/-- What may follow the last lexeme of a simple statement. -/
def ending : Expect := { newline := true }

def atEnd : Reader Bool := do
  match ← next ending with
  | .mark _ => return true
  | .lexeme => atSymbol ";"

variable (nested : Nested)

/-! ### Imports -/

def dottedName (e : Expect) : Reader Tree := do
  let first ← name
  let path ← iterate (CasePattern.dottedStep e) nested.rounds [first]
  return .node .dottedName first.position path.reverse

def importedName (e : Expect) : Reader Tree := do
  let target ← dottedName nested e
  match ← next e with
  | .mark _ => return target
  | .lexeme =>
    unless ← atWord "as" do return target
    let word ← keyword "as"
    return .node .aliasedName target.position [target, word, ← nextName]

def importedStep (e : Expect) (done : List Tree) : Reader (Option (List Tree)) := do
  match ← next e with
  | .mark _ => return none
  | .lexeme =>
    unless ← atSymbol "," do return none
    let comma ← symbol ","
    match ← next e with
    | .mark _ => return some (comma :: done)
    | .lexeme =>
      -- a comma may stand behind the last name, but no two of them
      if ← atSymbol "," then stop
      if (← word?).isNone then return some (comma :: done)
      return some ((← importedName nested e) :: comma :: done)

def importedNames (e : Expect) : Reader (List Tree) := do
  lexeme
  let first ← importedName nested e
  return (← iterate (importedStep nested e) nested.rounds [first]).reverse

def importStatement : Reader Tree := do
  let word ← keyword "import"
  let names ← importedNames nested ending
  return .node .importStatement word.position (word :: names)

def importedList : Reader (List Tree) := do
  lexeme
  if ← atSymbol "(" then
    let openToken ← symbol "("
    let names ← importedNames nested { close := true }
    let closeToken ← nextSymbol ")" { close := true }
    return openToken :: names ++ [closeToken]
  importedNames nested ending

/-- The cursor behind the last dot of a prefix. -/
def dotsStep (_ : Cursor) : Reader (Option Cursor) := do
  lexeme
  match ← rest with
  | '.' :: _ =>
    let _ ← take .symbol 1
    return some (← get).cursor
  | _ => return none

/-- The dots of a relative import, as one token with everything between them. -/
def dots : Reader Tree := do
  let first := (← get).cursor
  let last ← iterate dotsStep nested.rounds first
  return .token ⟨.dots, first.position, first.upTo last⟩

/-- The module of a relative import: dots, and the name of a module if there is one. -/
def relativeModule : Reader Tree := do
  let d ← dots nested
  lexeme
  if (← word?).isNone || (← atWord "import") then
    return .node .relativeModule d.position [d]
  return .node .relativeModule d.position [d, ← dottedName nested {}]

def fromImport : Reader Tree := do
  let word ← keyword "from"
  lexeme
  if ← atWord "__future__" then
    let future ← keyword "__future__"
    let importWord ← nextKeyword "import"
    let names ← importedList nested
    return .node .futureImport word.position (word :: future :: importWord :: names)
  let module ←
    if (← rest).head? == some '.' then relativeModule nested else dottedName nested {}
  let importWord ← nextKeyword "import"
  lexeme
  if ← atSymbol "*" then
    let star ← symbol "*"
    return .node .fromImport word.position
      [word, module, importWord, .node .wildcard star.position [star]]
  let names ← importedList nested
  return .node .fromImport word.position (word :: module :: importWord :: names)

/-! ### Types -/

def typeStep (type : Context → Reader Tree) (done : List Tree) : Reader (Option (List Tree)) := do
  lexeme { close := true }
  unless ← atSymbol "," do return none
  let comma ← symbol ","
  lexeme { close := true, quote := true }
  if ← atSymbol "]" then return some (comma :: done)
  return some ((← type .bracketed) :: comma :: done)

def typeList (type : Context → Reader Tree) : Reader Tree := do
  let openToken ← symbol "["
  lexeme operandStart
  let first ← type .bracketed
  let types ← iterate (typeStep type) nested.rounds [first]
  let closeToken ← nextSymbol "]" { close := true }
  return .node .typeParameters openToken.position (openToken :: types.reverse ++ [closeToken])

/-- A type without alternatives and bounds: an expression, a starred name, or a name with types. -/
def typeBase (type : Context → Reader Tree) (ctx : Context) : Reader Tree := do
  if ← atSymbol "**" then
    let stars ← symbol "**"
    return .node .splat stars.position [stars, ← nextName]
  let generic := do
    let n ← name
    lexeme ctx.after
    return .node .typeExpression n.position [n, ← typeList nested type]
  orElse (nested.expression ctx) generic

/-- Alternatives, members and bounds of a type; bounds only where the type may be followed by
no colon of another kind. -/
def typeTail (type : Context → Reader Tree) (bounds : Bool) (ctx : Context) (done : List Tree) :
    Reader (Option (List Tree)) := do
  match ← next ctx.after with
  | .mark _ => return none
  | .lexeme =>
    if ← atSymbol "." then
      let dot ← symbol "."
      return some ((← nextName) :: dot :: done)
    if (← atSymbol "|") || (bounds && (← atSymbol ":")) then
      let separator ← take .symbol 1
      lexeme operandStart
      return some ((← typeBase nested type ctx) :: separator :: done)
    return none

def typeWith (type : Context → Reader Tree) (bounds : Bool) (ctx : Context) : Reader Tree := do
  let first ← typeBase nested type ctx
  return phrase .typeExpression
    (← iterate (typeTail nested type bounds ctx) nested.rounds [first]).reverse

/-- A type whose brackets nest at most as deep as the bound. -/
def typeNested : Nat → Context → Reader Tree
  | 0, _ => stop
  | n + 1, ctx => typeWith nested (typeNested n) true ctx

/-- A type; with `bounds`, a colon and another type may follow. -/
def type (bounds : Bool) (ctx : Context) : Reader Tree :=
  typeWith nested (typeNested nested nested.rounds) bounds ctx

/-! ### Assignments and expressions as statements -/

def augmentedOperators : List String :=
  ["+=", "-=", "*=", "/=", "@=", "//=", "%=", "**=", ">>=", "<<=", "&=", "^=", "|="]

/-- One side of an assignment, and whether it can be assigned to. -/
def side : Reader (List Tree × Bool) := do
  if ← atWord "yield" then return ([← Expression.yield nested .statement], false)
  let es ← Expression.many nested .statement
  return (es, Tree.areTargets es)

/-- One more part of an assignment: the operator and what follows it. The state keeps the kind of
the statement, the trees in reverse and whether the last part can be assigned to. -/
def assignStep (state : NodeKind × List Tree × Bool) :
    Reader (Option (NodeKind × List Tree × Bool)) := do
  let (_, done, assignable) := state
  match ← next ending with
  | .mark _ => return none
  | .lexeme =>
    unless assignable do return none
    match ← symbol? with
    | some "=" =>
      let equals ← symbol "="
      lexeme operandStart
      let (es, targets) ← side nested
      return some (.assignment, es.reverse ++ equals :: done, targets)
    | some ":" =>
      let colon ← symbol ":"
      lexeme operandStart
      let t ← type nested true .statement
      let done := t :: colon :: done
      match ← next ending with
      | .mark _ => return some (.typedTarget, done, false)
      | .lexeme =>
        unless ← atSymbol "=" do return some (.typedTarget, done, false)
        let equals ← symbol "="
        lexeme operandStart
        let (es, targets) ← side nested
        return some (.typedTarget, es.reverse ++ equals :: done, targets)
    | some s =>
      unless augmentedOperators.contains s do return none
      let operator ← symbol s
      lexeme operandStart
      let (es, targets) ← side nested
      return some (.augmentedAssignment, es.reverse ++ operator :: done, targets)
    | none => return none

def expressionStatement : Reader Tree := do
  let p ← position
  let (es, targets) ← side nested
  let (kind, done, _) ←
    iterate (assignStep nested) nested.rounds (.expressionStatement, es.reverse, targets)
  return .node kind p done.reverse

/-! ### Statements that begin with a word which may be a name -/

/-- An expression as a statement, if that reaches the end of the statement. -/
def expressionToEnd : Reader Tree := do
  let e ← expressionStatement nested
  if ← atEnd then return e else stop

def printStatement : Reader Tree := do
  let word ← keyword "print"
  lexeme operandStart
  let first ←
    if ← atSymbol ">>" then do
      let arrows ← symbol ">>"
      lexeme operandStart
      let file ← nested.expression .statement
      pure (Tree.node .chevron arrows.position [arrows, file])
    else nested.expression .statement
  let args ← iterate (Expression.listStep nested .statement []) nested.rounds [first]
  return .node .printStatement word.position (word :: args.reverse)

def commaStep (done : List Tree) : Reader (Option (List Tree)) := do
  match ← next ending with
  | .mark _ => return none
  | .lexeme =>
    unless ← atSymbol "," do return none
    let comma ← symbol ","
    lexeme operandStart
    return some ((← nested.expression .statement) :: comma :: done)

def separated : Reader (List Tree) := do
  let first ← nested.expression .statement
  return (← iterate (commaStep nested) nested.rounds [first]).reverse

def execStatement : Reader Tree := do
  let word ← keyword "exec"
  lexeme { newline := true, quote := true }
  let code ← if ← atString then Expression.oneString nested else name
  match ← next ending with
  | .mark _ => return .node .execStatement word.position [word, code]
  | .lexeme =>
    unless ← atWord "in" do return .node .execStatement word.position [word, code]
    let inWord ← keyword "in"
    lexeme operandStart
    let scopes ← separated nested
    return .node .execStatement word.position (word :: code :: inWord :: scopes)

def typeAlias : Reader Tree := do
  let word ← keyword "type"
  lexeme { newline := true, quote := true }
  let left ← type nested true {}
  let equals ← nextSymbol "="
  lexeme operandStart
  let right ← type nested true .statement
  return .node .typeAlias word.position [word, left, equals, right]

def atChevron : Reader Bool := peek do
  let _ ← keyword "print"
  match ← next { newline := true, quote := true } with
  | .mark _ => return false
  | .lexeme => atSymbol ">>"

/-! ### Simple statements -/

def returnStatement : Reader Tree := do
  let word ← keyword "return"
  match ← next { newline := true, quote := true } with
  | .mark _ => return .node .returnStatement word.position [word]
  | .lexeme =>
    if ← atSymbol ";" then return .node .returnStatement word.position [word]
    let es ← Expression.many nested .statement
    return .node .returnStatement word.position (word :: es)

def raiseStatement : Reader Tree := do
  let word ← keyword "raise"
  match ← next { newline := true, quote := true } with
  | .mark _ => return .node .raiseStatement word.position [word]
  | .lexeme =>
    if ← atSymbol ";" then return .node .raiseStatement word.position [word]
    let es ← if ← atWord "from" then pure [] else Expression.many nested .statement ["from"]
    match ← next ending with
    | .mark _ => return .node .raiseStatement word.position (word :: es)
    | .lexeme =>
      unless ← atWord "from" do return .node .raiseStatement word.position (word :: es)
      let source ← keyword "from"
      lexeme operandStart
      let cause ← nested.expression .statement
      return .node .raiseStatement word.position (word :: es ++ [source, cause])

def namesStep (done : List Tree) : Reader (Option (List Tree)) := do
  match ← next ending with
  | .mark _ => return none
  | .lexeme =>
    unless ← atSymbol "," do return none
    let comma ← symbol ","
    return some ((← nextName) :: comma :: done)

def scopeStatement (kind : NodeKind) (text : String) : Reader Tree := do
  let word ← keyword text
  let first ← nextName
  let names ← iterate namesStep nested.rounds [first]
  return .node kind word.position (word :: names.reverse)

def wordStatement (kind : NodeKind) (text : String) : Reader Tree := do
  let word ← keyword text
  return .node kind word.position [word]

def simple : Reader Tree := do
  match ← word? with
  | some "import" => importStatement nested
  | some "from" => fromImport nested
  | some "print" =>
    -- with `>>` behind it the word is no name, otherwise it may be one
    if ← atChevron then printStatement nested
    else orElse (expressionToEnd nested) (printStatement nested)
  | some "exec" => orElse (expressionToEnd nested) (execStatement nested)
  | some "type" => orElse (expressionToEnd nested) (typeAlias nested)
  | some "assert" =>
    let word ← keyword "assert"
    lexeme operandStart
    return .node .assertStatement word.position (word :: (← separated nested))
  | some "del" =>
    let word ← keyword "del"
    lexeme operandStart
    return .node .deleteStatement word.position (word :: (← Expression.many nested .statement))
  | some "return" => returnStatement nested
  | some "raise" => raiseStatement nested
  | some "pass" => wordStatement .passStatement "pass"
  | some "break" => wordStatement .breakStatement "break"
  | some "continue" => wordStatement .continueStatement "continue"
  | some "global" => scopeStatement nested .globalStatement "global"
  | some "nonlocal" => scopeStatement nested .nonlocalStatement "nonlocal"
  | _ => expressionStatement nested

def lineStep (state : List Tree × Bool) : Reader (Option (List Tree × Bool)) := do
  let (done, ended) := state
  if ended then return none
  let s ← simple nested
  match ← next ending with
  | .mark _ => return some (s :: done, true)
  | .lexeme =>
    let semicolon ← symbol ";"
    match ← next { newline := true, quote := true } with
    | .mark _ => return some (semicolon :: s :: done, true)
    | .lexeme => return some (semicolon :: s :: done, false)

def line : Reader (List Tree) := do
  let (done, _) ← iterate (lineStep nested) nested.rounds ([], false)
  return done.reverse

/-! ### Suites -/

def start (inBlock : Bool) : Expect := { dedent := inBlock, quote := true }

variable (statements : Bool → Reader (List Tree))

def blockStep (state : List Tree × Bool) : Reader (Option (List Tree × Bool)) := do
  let (done, ended) := state
  if ended then return none
  match ← next (start true) with
  | .mark _ => return some (done, true)
  | .lexeme => return some ((← statements true).reverse ++ done, false)

/-- The suite of a compound statement: the rest of the line, an indented block, or nothing. -/
def suite : Reader Tree := do
  let p ← position
  match ← next { newline := true, indent := true, quote := true } with
  | .mark (.indent _) =>
    let (done, _) ← iterate (blockStep statements) nested.rounds ([], false)
    return .node .block p done.reverse
  -- a head with nothing below it has an empty suite
  | .mark _ => return .node .block p []
  | .lexeme =>
    let p ← position
    return .node .block p (← line nested)

def body : Reader (List Tree) := do
  let colon ← nextSymbol ":"
  return [colon, ← suite nested statements]

/-- The word at the next place, if a clause of the statement may go on there. -/
def clauseWord? (e : Expect) : Reader (Option String) := peek do
  match ← next e with
  | .mark _ => return none
  | .lexeme => word?

/-- A clause of one word and a suite, if it follows. -/
def optionalClause (kind : NodeKind) (text : String) (inBlock : Bool) : Reader (List Tree) := do
  if (← clauseWord? (start inBlock)) == some text then
    let word ← nextKeyword text (start inBlock)
    return [.node kind word.position (word :: (← body nested statements))]
  return []

/-! ### Compound statements -/

def conditional (kind : NodeKind) (text : String) : Reader Tree := do
  let word ← keyword text
  lexeme operandStart
  let condition ← nested.expression {}
  return .node kind word.position (word :: condition :: (← body nested statements))

def elifStep (inBlock : Bool) (done : List Tree) : Reader (Option (List Tree)) := do
  if (← clauseWord? (start inBlock)) == some "elif" then
    lexeme (start inBlock)
    return some ((← conditional nested statements .elifClause "elif") :: done)
  return none

def ifStatement (inBlock : Bool) : Reader Tree := do
  let first ← conditional nested statements .ifClause "if"
  let clauses ← iterate (elifStep nested statements inBlock) nested.rounds [first]
  let last ← optionalClause nested statements .elseClause "else" inBlock
  return .node .ifStatement first.position (clauses.reverse ++ last)

def whileStatement (inBlock : Bool) : Reader Tree := do
  let first ← conditional nested statements .whileStatement "while"
  let last ← optionalClause nested statements .elseClause "else" inBlock
  return .node .whileStatement first.position (first.children ++ last)

def forStatement (inBlock : Bool) (async : List Tree) : Reader Tree := do
  let word ← keyword "for"
  let left ← Expression.targets nested (Expression.operand nested)
  let inWord ← nextKeyword "in"
  lexeme operandStart
  let right ← Expression.many nested {}
  let block ← body nested statements
  let last ← optionalClause nested statements .elseClause "else" inBlock
  let parts := async ++ word :: left ++ inWord :: right ++ block ++ last
  return phrase .forStatement parts

def exceptClause : Reader Tree := do
  let word ← keyword "except"
  lexeme operandStart
  let caught ←
    if ← atSymbol ":" then pure []
    else do
      let e ← nested.expression {}
      lexeme
      if ← atSymbol "," then
        let comma ← symbol ","
        lexeme operandStart
        pure [e, comma, ← nested.expression {}]
      else pure [e]
  return .node .exceptClause word.position (word :: caught ++ (← body nested statements))

/-- The cursor is at `except` with a star right behind it. -/
def atExceptGroup : Reader Bool := do
  return (← atWord "except") && ((← rest).drop 6).head? == some '*'

def exceptGroupClause : Reader Tree := do
  let word ← keyword "except"
  let star ← symbol "*"
  lexeme operandStart
  let e ← nested.expression {}
  return .node .exceptGroupClause word.position (word :: star :: e :: (← body nested statements))

/-- Further clauses of the same kind as the first. -/
def exceptStep (group inBlock : Bool) (done : List Tree) : Reader (Option (List Tree)) := do
  let e := { start inBlock with except := true }
  if group then
    let found ← peek do
      match ← next e with
      | .mark _ => return false
      | .lexeme => atExceptGroup
    unless found do return none
    lexeme e
    return some ((← exceptGroupClause nested statements) :: done)
  else
    unless (← clauseWord? e) == some "except" do return none
    lexeme e
    return some ((← exceptClause nested statements) :: done)

def tryStatement (inBlock : Bool) : Reader Tree := do
  let word ← keyword "try"
  let block ← body nested statements
  lexeme { except := true }
  let clauses ←
    if ← atWord "finally" then pure []
    else do
      let group ← atExceptGroup
      let first ←
        if group then exceptGroupClause nested statements else exceptClause nested statements
      let cs ← iterate (exceptStep nested statements group inBlock) nested.rounds [first]
      pure (cs.reverse ++ (← optionalClause nested statements .elseClause "else" inBlock))
  let last ← optionalClause nested statements .finallyClause "finally" inBlock
  return .node .tryStatement word.position (word :: block ++ clauses ++ last)

def withStatement (async : List Tree) : Reader Tree := do
  let word ← keyword "with"
  lexeme operandStart
  let items ← Expression.many nested {}
  return phrase .withStatement (async ++ word :: items ++ (← body nested statements))

def parameterType : Reader (List Tree) := do
  lexeme { close := true }
  unless ← atSymbol ":" do return []
  let colon ← symbol ":"
  lexeme operandStart
  return [colon, ← type nested true .bracketed]

def parameter : Reader Tree := do
  let (p, hasDefault) ← Expression.bareParameter nested true
  let typed := p.isName || (p.hasKind .parameter && 1 < p.children.length)
  let typing ← if typed then parameterType nested else pure []
  lexeme { close := true }
  let value ← if hasDefault then Expression.defaultValue nested .bracketed else pure []
  return phrase .parameter (p :: typing ++ value)

def parameterStep (done : List Tree) : Reader (Option (List Tree)) := do
  lexeme { close := true }
  unless ← atSymbol "," do return none
  let comma ← symbol ","
  lexeme { close := true }
  if ← atSymbol ")" then return some (comma :: done)
  return some ((← parameter nested) :: comma :: done)

def parameters : Reader Tree := do
  let openToken ← nextSymbol "("
  lexeme { close := true }
  if ← atSymbol ")" then
    return .node .parameters openToken.position [openToken, ← symbol ")"]
  let first ← parameter nested
  let ps ← iterate (parameterStep nested) nested.rounds [first]
  let closeToken ← nextSymbol ")" { close := true }
  return .node .parameters openToken.position (openToken :: ps.reverse ++ [closeToken])

/-- Optional types in square brackets behind a name. -/
def typeParameters : Reader (List Tree) := do
  lexeme
  if ← atSymbol "[" then return [← typeList nested (type nested true)]
  return []

def functionDefinition (async : List Tree) : Reader Tree := do
  let word ← keyword "def"
  let n ← nextName
  let types ← typeParameters nested
  let ps ← parameters nested
  lexeme
  let result ←
    if ← atSymbol "->" then do
      let arrow ← symbol "->"
      lexeme operandStart
      pure [arrow, ← type nested false {}]
    else pure []
  let block ← body nested statements
  return phrase .functionDefinition (async ++ word :: n :: types ++ ps :: result ++ block)

def classDefinition : Reader Tree := do
  let word ← keyword "class"
  let n ← nextName
  let types ← typeParameters nested
  lexeme
  let args ←
    if ← atSymbol "(" then Expression.arguments nested (Expression.operand nested) else pure []
  if args.any (·.hasKind .forClause) then stop
  let block ← body nested statements
  return .node .classDefinition word.position (word :: n :: types ++ args ++ block)

/-- A word that a definition may begin with behind decorators. -/
def definition : Reader Tree := do
  match ← word? with
  | some "def" => functionDefinition nested statements []
  | some "class" => classDefinition nested statements
  | some "async" =>
    let async ← keyword "async"
    lexeme
    functionDefinition nested statements [async]
  | _ => stop

def decorator : Reader Tree := do
  let sign ← symbol "@"
  lexeme operandStart
  let e ← nested.expression .statement
  match ← next ending with
  | .mark _ => return .node .decorator sign.position [sign, e]
  | .lexeme => stop

def decoratorStep (done : List Tree) : Reader (Option (List Tree)) := do
  lexeme
  if ← atSymbol "@" then return some ((← decorator nested) :: done) else return none

def decoratedDefinition : Reader Tree := do
  let first ← decorator nested
  let decorators ← iterate (decoratorStep nested) nested.rounds [first]
  lexeme
  let d ← definition nested statements
  return .node .decoratedDefinition first.position (decorators.reverse ++ [d])

def patternStep (done : List Tree) : Reader (Option (List Tree)) := do
  lexeme
  unless ← atSymbol "," do return none
  let comma ← symbol ","
  lexeme operandStart
  if (← atWord "if") || (← atSymbol ":") then return some (comma :: done)
  return some ((← casePattern nested nested.rounds false) :: comma :: done)

def caseClause : Reader Tree := do
  let word ← keyword "case"
  lexeme operandStart
  let first ← casePattern nested nested.rounds false
  let patterns ← iterate (patternStep nested) nested.rounds [first]
  lexeme
  let guard ←
    if ← atWord "if" then do
      let ifWord ← keyword "if"
      lexeme operandStart
      pure [Tree.node .ifClause ifWord.position [ifWord, ← nested.expression {}]]
    else pure []
  return .node .caseClause word.position
    (word :: patterns.reverse ++ guard ++ (← body nested statements))

def caseStep (state : List Tree × Bool) : Reader (Option (List Tree × Bool)) := do
  let (done, ended) := state
  if ended then return none
  match ← next { dedent := true } with
  | .mark _ => return some (done, true)
  | .lexeme => return some ((← caseClause nested statements) :: done, false)

def matchStatement : Reader Tree := do
  let word ← keyword "match"
  lexeme { newline := true, quote := true }
  let subjects ← Expression.many nested {}
  let colon ← nextSymbol ":"
  match ← next { newline := true, indent := true } with
  | .mark (.indent _) =>
    let (done, _) ← iterate (caseStep nested statements) nested.rounds ([], false)
    return .node .matchStatement word.position (word :: subjects ++ colon :: done.reverse)
  | .mark _ => return .node .matchStatement word.position (word :: subjects ++ [colon])
  | .lexeme => stop

/-- The cursor is at `async` with a word behind it that makes it a keyword. -/
def asyncWord? : Reader (Option String) := peek do
  let _ ← keyword "async"
  match ← next ending with
  | .mark _ => return none
  | .lexeme => word?

/-- A statement with suites, if one begins at the cursor. -/
def compound? (inBlock : Bool) : Reader (Option Tree) := do
  if ← atSymbol "@" then return some (← decoratedDefinition nested statements)
  match ← word? with
  | some "if" => return some (← ifStatement nested statements inBlock)
  | some "while" => return some (← whileStatement nested statements inBlock)
  | some "for" => return some (← forStatement nested statements inBlock [])
  | some "try" => return some (← tryStatement nested statements inBlock)
  | some "with" => return some (← withStatement nested statements [])
  | some "def" => return some (← functionDefinition nested statements [])
  | some "class" => return some (← classDefinition nested statements)
  | some "async" =>
    match ← asyncWord? with
    | some "for" =>
      let async ← keyword "async"
      lexeme
      return some (← forStatement nested statements inBlock [async])
    | some "with" =>
      let async ← keyword "async"
      lexeme
      return some (← withStatement nested statements [async])
    | some "def" => return some (← definition nested statements)
    | _ => return none
  | _ => return none

/-- The statements of a line with a suite, or of a line of simple statements. -/
def whole (inBlock : Bool) : Reader (List Tree) := do
  if ← atWord "match" then
    let line := do
      let e ← expressionToEnd nested
      match ← next ending with
      | .mark _ => return [e]
      | .lexeme =>
        let semicolon ← symbol ";"
        match ← next { newline := true, quote := true } with
        | .mark _ => return [e, semicolon]
        | .lexeme => return e :: semicolon :: (← line nested)
    orElse line (return [← matchStatement nested statements])
  else
    match ← compound? nested statements inBlock with
    | some t => return [t]
    | none => line nested

end Statement

def statements (nested : Nested) : Nat → (inBlock : Bool) → Reader (List Tree)
  | 0, _ => stop
  | n + 1, inBlock => Statement.whole nested (statements nested n) inBlock

def fileStep (nested : Nested) (state : List Tree × Bool) :
    Reader (Option (List Tree × Bool)) := do
  let (done, ended) := state
  if ended then return none
  lexeme (Statement.start false)
  if (← rest).isEmpty then return some (done, true)
  return some ((← statements nested nested.rounds false).reverse ++ done, false)

/-- A whole file, every loop and recursion bounded by `rounds`. -/
def file (rounds : Nat) : Reader Tree := do
  let nested : Nested := ⟨rounds, expression rounds⟩
  let (done, _) ← iterate (fileStep nested) rounds ([], false)
  return .node .module .start done.reverse

namespace Tree

/-- A byte order mark at the front of a text is passed over. -/
def skipMark (c : Cursor) : Cursor :=
  match c.rest with
  | '\ufeff' :: _ => c.drop 1
  | _ => c

/-- The syntax tree of a source text, or the first place where the text cannot be continued. -/
def ofSource (source : String) : Except Position Tree := do
  let c := skipMark (.ofString source)
  let (t, _) ← (file (c.rest.length + 2)).run ⟨c, [], false⟩
  return t

end Tree

end ImportAtlas.Source
