import ImportAtlas.Json.Reader

/-!
JSON strings: quoting and reading.

Quoting escapes quotes, backslashes and control characters and leaves everything else as it is.
Reading takes every escape that JSON has; characters beyond 16 bits may come as two halves.
-/

namespace ImportAtlas.Json

def escaped (c : Char) : List Char :=
  if c = '"' then ['\\', '"']
  else if c = '\\' then ['\\', '\\']
  else if c = '\n' then ['\\', 'n']
  else if c = '\r' then ['\\', 'r']
  else if c = '\t' then ['\\', 't']
  else if c = '\x08' then ['\\', 'b']
  else if c = '\x0c' then ['\\', 'f']
  else if c.toNat < 0x20 then
    ['\\', 'u', '0', '0', (c.toNat / 16).digitChar, (c.toNat % 16).digitChar]
  else [c]

def quoted (s : String) : List Char := '"' :: s.toList.flatMap escaped ++ ['"']

/-- The character behind a backslash stands for another one. -/
def unescape? (c : Char) : Option Char :=
  match c with
  | '"' => some '"'
  | '\\' => some '\\'
  | '/' => some '/'
  | 'b' => some '\x08'
  | 'f' => some '\x0c'
  | 'n' => some '\n'
  | 'r' => some '\r'
  | 't' => some '\t'
  | _ => none

def hexDigit? (c : Char) : Option Nat :=
  if '0' ≤ c && c ≤ '9' then some (c.toNat - 48)
  else if 'a' ≤ c && c ≤ 'f' then some (c.toNat - 87)
  else if 'A' ≤ c && c ≤ 'F' then some (c.toNat - 55)
  else none

def hexNumber? (digits : List Char) : Option Nat :=
  (digits.mapM hexDigit?).map fun ds => ds.foldl (fun n d => 16 * n + d) 0

namespace Reader

/-- The four hexadecimal digits of an escape. -/
def escapeUnit : Reader Nat := do
  let digits := (← get).rest.take 4
  match hexNumber? digits with
  | some n =>
    if digits.length < 4 then failAfter 4 .endInString
    modify (·.drop 4)
    return n
  | none =>
    failAfter 4 (if (String.ofList digits).utf8ByteSize < 4 then .endInString else .badEscape)

def halfMark (mark : Char) : Reader Unit := do
  match ← peek? with
  | none => fail .endInString
  | some c => if c = mark then skip else failNext .halfPair

/-- The character that is escaped by its number. -/
def numberedEscape : Reader Char := do
  let n ← escapeUnit
  if 0xdc00 ≤ n && n ≤ 0xdfff then fail .loneSurrogate
  if n < 0xd800 || 0xdbff < n then return .ofNat n
  halfMark '\\'
  halfMark 'u'
  let m ← escapeUnit
  if m < 0xdc00 || 0xdfff < m then fail .loneSurrogate
  return .ofNat (0x10000 + (n - 0xd800) * 0x400 + (m - 0xdc00))

def escape : Reader Char := do
  match ← peek? with
  | none => fail .endInString
  | some 'u' =>
    skip
    numberedEscape
  | some c =>
    match unescape? c with
    | some d =>
      skip
      return d
    | none => failNext .badEscape

/-- The characters up to a quote, which is taken. -/
def characters : (rounds : Nat) → Reader (List Char)
  | 0 => fail .endInString
  | n + 1 => do
    match ← peek? with
    | none => fail .endInString
    | some '"' =>
      skip
      return []
    | some '\\' =>
      skip
      return (← escape) :: (← characters n)
    | some c =>
      if c.toNat < 0x20 then failNext .controlCharacter
      skip
      return c :: (← characters n)

def text : Reader String := return .ofList (← characters (← rounds))

/-- Takes what stands behind a backslash, halves of characters on their own included. -/
def skipEscape : Reader Unit := do
  match ← peek? with
  | none => fail .endInString
  | some 'u' =>
    skip
    let _ ← escapeUnit
  | some c => if (unescape? c).isSome then skip else failNext .badEscape

/-- Takes the characters up to a quote and the quote. -/
def skipCharacters : (rounds : Nat) → Reader Unit
  | 0 => fail .endInString
  | n + 1 => do
    match ← peek? with
    | none => fail .endInString
    | some '"' => skip
    | some '\\' =>
      skip
      skipEscape
      skipCharacters n
    | some c =>
      if c.toNat < 0x20 then fail .controlCharacter
      skip
      skipCharacters n

def skipText : Reader Unit := do skipCharacters (← rounds)

end Reader

end ImportAtlas.Json
