import Antenna.Library.Json

/-!
The JSON helpers of the LLM backends that speak HTTP: string literals are written and read without a
JSON library, and a field is looked up by its quoted name.
-/

namespace LeanAntenna

open Text Turtle

/-- `{:04x}` -/
def hexFour (value : Nat) : Text :=
  let digits := Nat.toDigits 16 value
  List.replicate (4 - digits.length) '0' ++ digits

def jsonEscapeChar (c : Char) : Text :=
  match c with
  | '"' => ['\\', '"']
  | '\\' => ['\\', '\\']
  | '\n' => ['\\', 'n']
  | '\r' => ['\\', 'r']
  | '\t' => ['\\', 't']
  | other => if other.toNat < 0x20 then '\\' :: 'u' :: hexFour other.toNat else [other]

/-- `json_escape` -/
def jsonEscape (text : Text) : Text := '"' :: text.flatMap jsonEscapeChar ++ ['"']

/-- `u32::from_str_radix` with radix 16 on at most four characters: a plus sign may stand in front. -/
def fromHex (digits : Text) : Option Nat :=
  let unsigned := if digits.head? = some '+' then digits.drop 1 else digits
  if unsigned = [] then none
  else (unsigned.mapM hexValue).map fun values => values.foldl (fun code value => 16 * code + value) 0

/-- What a `\u` escape adds to the output: nothing where the digits are no scalar value. -/
def unicodeEscape (digits : Text) : Text :=
  match fromHex digits with
  | none => []
  | some code => if code < 0xD800 ∨ (0xDFFF < code ∧ code < 0x110000) then [Char.ofNat code] else []

def jsonEscaped (c : Char) : Char :=
  match c with
  | '"' => '"'
  | '\\' => '\\'
  | 'n' => '\n'
  | 'r' => '\r'
  | 't' => '\t'
  | '/' => '/'
  | _ => '?'

/-- The loop of `parse_json_string` behind the opening quote. -/
def readJson (out : Text) : Text → Except Text Text
  | [] => .error "unterminated JSON string".toList
  | '"' :: _ => .ok out
  | ['\\'] => .error "unterminated JSON string".toList
  | '\\' :: 'u' :: rest => readJson (out ++ unicodeEscape (rest.take 4)) (rest.drop 4)
  | '\\' :: c :: rest => readJson (out ++ [jsonEscaped c]) rest
  | c :: rest => readJson (out ++ [c]) rest
termination_by text => text.length
decreasing_by
  all_goals
    simp only [List.length_cons, List.length_drop]
    omega

def parseJsonString : Text → Except Text Text
  | '"' :: rest => readJson [] rest
  | _ => .error "expected '\"'".toList

/-- `extract_json_field` -/
def extractJsonField (json field : Text) : Except Text Text :=
  match behind json ('"' :: field ++ ['"']) with
  | none => .error ("field '".toList ++ field ++ "' not found in response".toList)
  | some afterKey =>
      match trimStart afterKey with
      | ':' :: rest =>
          let afterColon := trimStart rest
          if afterColon.head? = some '"' then parseJsonString afterColon
          else .error ("field '".toList ++ field ++ "' is not a string".toList)
      | _ => .error ("malformed JSON after field '".toList ++ field ++ "'".toList)

/-- `extract_nested_content` -/
def extractNestedContent (json : Text) : Except Text Text :=
  extractJsonField json "content".toList

end LeanAntenna
