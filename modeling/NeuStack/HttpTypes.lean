import Mathlib.Algebra.Group.Nat.Defs
import NeuStack.ByteStrings

/-! # HTTP messages

`http_types.cpp` and `string_utils.hpp`.  A map from header names is a list of its
entries, in the order in which they were inserted; which of several names that differ in
case `find_header_ignore_case` comes to first is not specified by the language.
-/
namespace NeuStack

/-- `"\r\n"` -/
def crlf : Bytes := [13, 10]

/-! ## Strings -/

namespace StringUtils

/-- `std::tolower` -/
def toLower (b : UInt8) : UInt8 := if 65 ≤ b ∧ b ≤ 90 then b + 32 else b

/-- `iequals` -/
def iequals (a b : Bytes) : Bool := a.map toLower == b.map toLower

def isSpace (b : UInt8) : Bool := b = 32 ∨ 9 ≤ b ∧ b ≤ 13

def isDigit (b : UInt8) : Bool := 48 ≤ b ∧ b ≤ 57

/-- The number of decimal digits. -/
def decimal (digits : Bytes) : Nat := digits.foldl (fun n b => 10 * n + (b.toNat - 48)) 0

/-- How `strtol` and `strtoul` read a number: white space, a sign, and digits, whatever
comes behind them.  The sign is true for a minus. -/
def readNumber (s : Bytes) : Option (Bool × Nat) :=
  let s := s.dropWhile isSpace
  let (sign, s) :=
    match s with
    | 43 :: rest => (false, rest)
    | 45 :: rest => (true, rest)
    | _ => (false, s)
  let digits := s.takeWhile isDigit
  if digits = [] then none else some (sign, decimal digits)

/-- `stoi_safe` -/
def stoiSafe (s : Bytes) (default : Int) : Int :=
  match readNumber s with
  | none => default
  | some (sign, n) =>
    let value : Int := if sign then -n else n
    if value < -2147483648 ∨ 2147483647 < value then default else value

/-- `stoul_safe`; a negative number wraps. -/
def stoulSafe (s : Bytes) (default : Nat) : Nat :=
  match readNumber s with
  | none => default
  | some (sign, n) =>
    if 2 ^ 64 ≤ n then default else if sign then (2 ^ 64 - n) % 2 ^ 64 else n

end StringUtils

/-! ## Messages -/

inductive HttpMethod where
  | get | post | put | delete | head | options | unknown
  deriving DecidableEq, Repr

namespace HttpMethod

/-- `http_method_name` -/
def name : HttpMethod → Bytes
  | get => ascii "GET"
  | post => ascii "POST"
  | put => ascii "PUT"
  | delete => ascii "DELETE"
  | head => ascii "HEAD"
  | options => ascii "OPTIONS"
  | unknown => ascii "UNKNOWN"

/-- `parse_http_method` -/
def parse (s : Bytes) : HttpMethod :=
  if s = ascii "GET" then get
  else if s = ascii "POST" then post
  else if s = ascii "PUT" then put
  else if s = ascii "DELETE" then delete
  else if s = ascii "HEAD" then head
  else if s = ascii "OPTIONS" then options
  else unknown

end HttpMethod

abbrev HttpHeaders := List (Bytes × List Bytes)

namespace HttpHeaders

/-- `headers[key].push_back(value)` -/
@[grind =] def add (key value : Bytes) : HttpHeaders → HttpHeaders
  | [] => [(key, [value])]
  | (k, values) :: rest =>
    if k = key then (k, values ++ [value]) :: rest else (k, values) :: add key value rest

/-- `headers[key] = {value}` -/
@[grind =] def set (key value : Bytes) : HttpHeaders → HttpHeaders
  | [] => [(key, [value])]
  | (k, values) :: rest =>
    if k = key then (k, [value]) :: rest else (k, values) :: set key value rest

/-- `get_header` -/
def get (key : Bytes) (headers : HttpHeaders) : Bytes := ((headers.lookup key).getD []).head?.getD []

/-- `has_header` -/
def has (key : Bytes) (headers : HttpHeaders) : Bool := (headers.lookup key).isSome

/-- The first value under `find_header_ignore_case`. -/
def findIgnoreCase (key : Bytes) (headers : HttpHeaders) : Option Bytes :=
  (headers.find? fun e => StringUtils.iequals e.1 key).bind (·.2.head?)

/-- The header lines. -/
def serialize (headers : HttpHeaders) : Bytes :=
  headers.flatMap fun (key, values) => values.flatMap fun value => key ++ ascii ": " ++ value ++ crlf

end HttpHeaders

structure HttpRequest where
  method : HttpMethod := .unknown
  path : Bytes := []
  version : Bytes := []
  rawQuery : Bytes := []
  queryParams : List (Bytes × Bytes) := []
  headers : HttpHeaders := []
  body : Bytes := []
  deriving DecidableEq, Repr

namespace HttpRequest

def serialize (r : HttpRequest) : Bytes :=
  r.method.name ++ ascii " " ++ r.path ++ ascii " " ++
    (if r.version = [] then ascii "HTTP/1.1" else r.version) ++ crlf ++ r.headers.serialize ++ crlf ++
    r.body

end HttpRequest

/-- `HttpResponse`; the status is the number of its `HttpStatus`. -/
structure HttpResponse where
  status : Nat := 200
  headers : HttpHeaders := []
  body : Bytes := []
  deriving DecidableEq, Repr

namespace HttpResponse

/-- `http_status_text` -/
def statusText : Nat → Bytes
  | 200 => ascii "OK"
  | 201 => ascii "Created"
  | 204 => ascii "No Content"
  | 301 => ascii "Moved Permanently"
  | 302 => ascii "Found"
  | 400 => ascii "Bad Request"
  | 401 => ascii "Unauthorized"
  | 403 => ascii "Forbidden"
  | 404 => ascii "Not Found"
  | 405 => ascii "Method Not Allowed"
  | 500 => ascii "Internal Server Error"
  | 501 => ascii "Not Implemented"
  | 503 => ascii "Service Unavailable"
  | _ => ascii "Unknown"

def setHeader (key value : Bytes) (r : HttpResponse) : HttpResponse :=
  { r with headers := r.headers.set key value }

/-- `content_type` -/
def contentType (type : Bytes) (r : HttpResponse) : HttpResponse :=
  r.setHeader (ascii "Content-Type") type

def setBody (content : Bytes) (r : HttpResponse) : HttpResponse :=
  { r with body := content }.setHeader (ascii "Content-Length") (decimal content.length)

def serialize (r : HttpResponse) : Bytes :=
  ascii "HTTP/1.1 " ++ decimal r.status ++ ascii " " ++ statusText r.status ++ crlf ++
    r.headers.serialize ++ crlf ++ r.body

end HttpResponse
end NeuStack
