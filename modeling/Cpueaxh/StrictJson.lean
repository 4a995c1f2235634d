/-
# The strict reader of replay records

The reader that `test.exe --replay` gives a record to.  It walks along the text, and a
definition here takes what is left of the text where the code moves its position; an error
is the text that the code reports.

The reader of nested values calls itself through those of arrays and objects.  The depth it
may go down is bounded by the characters that are left, since each level takes its bracket
or brace, and the rounds of a loop are bounded in the same way, since each round takes a
character; what is left when such a bound is used up is the empty text.
-/
import Mathlib.Logic.Function.Basic
import Cpueaxh.HostMemory
import Cpueaxh.JsonGrammar

namespace Cpueaxh

open JsonGrammar (Text)

/-! ## Tokens -/

def jsonSkipWs : Text → Text
  | [] => []
  | c :: json =>
    if c = ' ' || c = '\n' || c = '\r' || c = '\t' then jsonSkipWs json else c :: json

/-- The `switch` over the letter of an escape. -/
def jsonUnescape (esc : Char) : Option Char :=
  if esc = '"' then some '"'
  else if esc = '\\' then some '\\'
  else if esc = '/' then some '/'
  else if esc = 'b' then some (Char.ofNat 8)
  else if esc = 'f' then some (Char.ofNat 12)
  else if esc = 'n' then some '\n'
  else if esc = 'r' then some '\r'
  else if esc = 't' then some '\t'
  else none

/-- The loop of `json_parse_string_token`, with the characters pushed so far. -/
def jsonStringLoop (value : Text) : Text → Except String (Text × Text)
  | [] => .error "unterminated JSON string"
  | ch :: json =>
    if ch = '"' then .ok (value, json)
    else if ch = '\\' then
      match json with
      | [] => .error "unterminated JSON escape"
      | esc :: json =>
        match jsonUnescape esc with
        | some c => jsonStringLoop (value ++ [c]) json
        | none => .error "unsupported JSON escape"
    else if ch.toNat < 0x20 then .error "control character in JSON string"
    else jsonStringLoop (value ++ [ch]) json

/-- The value of a string, and what is left behind it. -/
def jsonParseStringToken : Text → Except String (Text × Text)
  | '"' :: json => jsonStringLoop [] json
  | _ => .error "expected JSON string"

/-! ## Values that are only checked -/

/-- The loop over the items of an array. -/
def jsonArrayLoop (parseValue : Text → Except String Text) : ℕ → Text → Except String Text
  | 0, _ => .error "unterminated JSON array"
  | _ + 1, [] => .error "unterminated JSON array"
  | rounds + 1, json => do
    let json ← parseValue json
    match jsonSkipWs json with
    | ',' :: json =>
      match jsonSkipWs json with
      | ']' :: _ => .error "trailing comma in JSON array"
      | json => jsonArrayLoop parseValue rounds json
    | ']' :: json => .ok json
    | _ => .error "expected ',' or ']' in JSON array"

def jsonParseArraySyntaxStrict (parseValue : Text → Except String Text) :
    Text → Except String Text
  | '[' :: json =>
    match jsonSkipWs json with
    | ']' :: json => .ok json
    | json => jsonArrayLoop parseValue json.length json
  | _ => .error "expected JSON array"

/-- The loop over the members of a nested object, with the keys seen so far. -/
def jsonObjectLoop (parseValue : Text → Except String Text) :
    ℕ → List Text → Text → Except String Text
  | 0, _, _ => .error "unterminated JSON object"
  | _ + 1, _, [] => .error "unterminated JSON object"
  | rounds + 1, seen, json => do
    let (key, json) ← jsonParseStringToken json
    if key ∈ seen then
      .error ("duplicate nested JSON field: " ++ String.ofList key)
    else
      match jsonSkipWs json with
      | ':' :: json => do
        let json ← parseValue json
        match jsonSkipWs json with
        | ',' :: json =>
          match jsonSkipWs json with
          | '}' :: _ => .error "trailing comma in JSON object"
          | json => jsonObjectLoop parseValue rounds (key :: seen) json
        | '}' :: json => .ok json
        | _ => .error "expected ',' or '\x7d' in JSON object"
      | _ => .error ("expected ':' after nested JSON key: " ++ String.ofList key)

def jsonParseObjectSyntaxStrict (parseValue : Text → Except String Text) :
    Text → Except String Text
  | '{' :: json =>
    match jsonSkipWs json with
    | '}' :: json => .ok json
    | json => jsonObjectLoop parseValue json.length [] json
  | _ => .error "expected JSON object"

/-- What ends the token of a scalar. -/
def jsonScalarEnd (c : Char) : Bool :=
  c = ',' || c = '}' || c = ']' || c = ' ' || c = '\n' || c = '\r' || c = '\t'

/-- The last part of `json_parse_value_syntax_strict`: a literal or a number. -/
def jsonParseScalar (json : Text) : Except String Text :=
  let token := json.takeWhile fun c => !jsonScalarEnd c
  let rest := json.dropWhile fun c => !jsonScalarEnd c
  match token with
  | [] => .error "invalid JSON value"
  | c :: _ =>
    if token = "true".toList || token = "false".toList || token = "null".toList then .ok rest
    else if c = '-' || ('0' ≤ c && c ≤ '9') then .ok rest
    else .error "invalid JSON scalar"

/-- What is left behind one value, nested in not more than `depth` others. -/
def jsonParseValueSyntaxStrict : ℕ → Text → Except String Text
  | 0, _ => .error "missing JSON value"
  | depth + 1, json =>
    match jsonSkipWs json with
    | [] => .error "missing JSON value"
    | '"' :: json => do
      let (_, json) ← jsonParseStringToken ('"' :: json)
      .ok json
    | '{' :: json =>
      jsonParseObjectSyntaxStrict (jsonParseValueSyntaxStrict depth) ('{' :: json)
    | '[' :: json =>
      jsonParseArraySyntaxStrict (jsonParseValueSyntaxStrict depth) ('[' :: json)
    | json => jsonParseScalar json

def jsonSkipValueStrict (json : Text) : Except String Text :=
  jsonParseValueSyntaxStrict json.length json

/-! ## The record -/

structure StrictJsonObject where
  stringValues : Text → Option Text
  u64Values : Text → Option U64
  rawValues : Text → Option Text

/-- `StrictJsonObject{}`. -/
def StrictJsonObject.empty : StrictJsonObject :=
  { stringValues := fun _ => none, u64Values := fun _ => none, rawValues := fun _ => none }

/-- The loop of `json_parse_u64_token`: it stops before a digit that would overflow. -/
def jsonU64Loop (result : U64) : Text → Option U64
  | [] => some result
  | ch :: token =>
    if ch < '0' || '9' < ch then none
    else
      let digit : U64 := BitVec.ofNat 64 (ch.toNat - '0'.toNat)
      if (BitVec.allOnes 64 - digit) / 10 < result then none
      else jsonU64Loop (result * 10 + digit) token

def jsonParseU64Token (token : Text) : Option U64 :=
  if token = [] then none else jsonU64Loop 0 token

/-- A string or an unsigned number goes under its key; another value is only checked. -/
def jsonRecordTyped (object : StrictJsonObject) (key : Text) :
    Text → Except String (StrictJsonObject × Text)
  | '"' :: json => do
    let (value, rest) ← jsonParseStringToken ('"' :: json)
    .ok ({ object with stringValues := Function.update object.stringValues key (some value) },
      rest)
  | json => do
    let rest ← jsonSkipValueStrict json
    match jsonParseU64Token (json.take (json.length - rest.length)) with
    | some u64 =>
      .ok ({ object with u64Values := Function.update object.u64Values key (some u64) }, rest)
    | none => .ok (object, rest)

/-- The value behind a key of the record, with its text: the object with the value in it, and
what is left. -/
def jsonRecordValue (object : StrictJsonObject) (key json : Text) :
    Except String (StrictJsonObject × Text) := do
  let (object, rest) ← jsonRecordTyped object key json
  let raw := json.take (json.length - rest.length)
  .ok ({ object with rawValues := Function.update object.rawValues key (some raw) }, rest)

/-- The loop over the members of the record: the object, the keys seen, and what is left.
It ends without an error where the text does. -/
def jsonTopLevelLoop (requiredKeys optionalKeys : List Text) (allowUnknownKeys : Bool) :
    ℕ → StrictJsonObject → List Text → Text →
      Except String (StrictJsonObject × List Text × Text)
  | 0, object, seen, json => .ok (object, seen, json)
  | _ + 1, object, seen, [] => .ok (object, seen, [])
  | rounds + 1, object, seen, json => do
    let (key, json) ← jsonParseStringToken json
    if !allowUnknownKeys && !(key ∈ requiredKeys || key ∈ optionalKeys) then
      .error ("unknown top-level JSON field: " ++ String.ofList key)
    else if key ∈ seen then
      .error ("duplicate top-level JSON field: " ++ String.ofList key)
    else
      match jsonSkipWs json with
      | ':' :: json => do
        let (object, json) ← jsonRecordValue object key (jsonSkipWs json)
        match jsonSkipWs json with
        | ',' :: json =>
          match jsonSkipWs json with
          | '}' :: _ => .error "trailing comma in JSON object"
          | json =>
            jsonTopLevelLoop requiredKeys optionalKeys allowUnknownKeys rounds object
              (key :: seen) json
        | '}' :: json => .ok (object, key :: seen, json)
        | _ => .error "expected ',' or '\x7d' in JSON object"
      | _ => .error ("expected ':' after JSON key: " ++ String.ofList key)

/-- The members of the record behind its opening brace. -/
def jsonTopLevelMembers (requiredKeys optionalKeys : List Text) (allowUnknownKeys : Bool)
    (json : Text) : Except String (StrictJsonObject × List Text × Text) :=
  match jsonSkipWs json with
  | '}' :: json => .ok (StrictJsonObject.empty, [], json)
  | json =>
    jsonTopLevelLoop requiredKeys optionalKeys allowUnknownKeys json.length
      StrictJsonObject.empty [] json

/-- The end of the record: nothing is left, and no required key is missing. -/
def jsonTopLevelEnd (requiredKeys : List Text) (object : StrictJsonObject) (seen : List Text)
    (json : Text) : Except String StrictJsonObject :=
  match jsonSkipWs json with
  | [] =>
    match requiredKeys.find? fun key => !(key ∈ seen) with
    | some key => .error ("missing required top-level JSON field: " ++ String.ofList key)
    | none => .ok object
  | _ => .error "unexpected trailing data after JSON object"

def jsonParseTopLevelObject (json : Text) (requiredKeys optionalKeys : List Text)
    (allowUnknownKeys : Bool) : Except String StrictJsonObject :=
  match jsonSkipWs json with
  | '{' :: json => do
    let (object, seen, json) ←
      jsonTopLevelMembers requiredKeys optionalKeys allowUnknownKeys json
    jsonTopLevelEnd requiredKeys object seen json
  | _ => .error "JSON document must be a top-level object"

end Cpueaxh
