import ImportAtlas.Json.Reader
import ImportAtlas.Text.Visible

/-!
The wording of what is wrong with a JSON text.
-/

namespace ImportAtlas.Json

def Shape.text : Shape → String
  | .null => "null"
  | .boolean b => "boolean `" ++ (if b then "true" else "false") ++ "`"
  | .integer i => "integer `" ++ toString i ++ "`"
  | .fraction t => "floating point `" ++ t ++ "`"
  | .string t => "string " ++ Text.quoted t
  | .list => "sequence"
  | .object => "map"

def Wanted.text : Wanted → String
  | .list => "a sequence"
  | .string => "a string"
  | .record => "struct ImportRecord"

def Fault.message : Fault → String
  | .endInValue => "EOF while parsing a value"
  | .endInList => "EOF while parsing a list"
  | .endInObject => "EOF while parsing an object"
  | .endInString => "EOF while parsing a string"
  | .noValue => "expected value"
  | .noWord => "expected ident"
  | .noColon => "expected `:`"
  | .noListMark => "expected `,` or `]`"
  | .noObjectMark => "expected `,` or `\x7d`"
  | .noKey => "key must be a string"
  | .trailingComma => "trailing comma"
  | .trailingText => "trailing characters"
  | .badNumber => "invalid number"
  | .hugeNumber => "number out of range"
  | .badEscape => "invalid escape"
  | .loneSurrogate => "lone leading surrogate in hex escape"
  | .halfPair => "unexpected end of hex escape"
  | .controlCharacter => "control character (\\u0000-\\u001F) found while parsing a string"
  | .wrongShape found wanted => "invalid type: " ++ found.text ++ ", expected " ++ wanted.text
  | .tooFewItems n =>
    "invalid length " ++ toString n ++ ", expected struct ImportRecord with 2 elements"
  | .missingField name => "missing field `" ++ name ++ "`"
  | .repeatedField name => "duplicate field `" ++ name ++ "`"

def ReadError.message (e : ReadError) : String :=
  s!"{e.fault.message} at line {e.line} column {e.column}"

end ImportAtlas.Json
