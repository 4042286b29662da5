/-
How identifiers are written: 32 hexadecimal digits in five groups.
-/
import LogLens.Json.Reader
import LogLens.Record

namespace LogLens
namespace RecordId

/-- How many digits each group has. -/
def groups : List Nat := [8, 4, 4, 4, 12]

/-- The last `count` hexadecimal digits of a number. -/
def hexDigits : Nat → Nat → List Char
  | 0, _ => []
  | count + 1, n => hexDigits count (n / 16) ++ [Json.hexDigit (n % 16)]

/-- Cuts digits into groups with a hyphen between each two. -/
def hyphenated : List Nat → List Char → List Char
  | [], _ => []
  | [n], ds => ds.take n
  | n :: rest, ds => ds.take n ++ '-' :: hyphenated rest (ds.drop n)

def text (id : RecordId) : String :=
  String.ofList (hyphenated groups (hexDigits 32 id.val))

/-- The digits of a text in groups, without its hyphens. -/
def withoutHyphens? : List Nat → List Char → Option (List Char)
  | [], cs => if cs.isEmpty then some [] else none
  | [n], cs => if cs.length = n then some cs else none
  | n :: rest, cs =>
    match cs.drop n with
    | '-' :: behind => (withoutHyphens? rest behind).map (cs.take n ++ ·)
    | _ => none

/-- What stands in front of an identifier that is written as a name of a resource. -/
def resourcePrefix : List Char := "urn:uuid:".toList

/-- The digits of an identifier: without hyphens, or in groups, alone, in braces or behind the
prefix of resources. -/
def digits? (cs : List Char) : Option (List Char) :=
  if cs.length = 32 then some cs
  else if cs.length = 36 then withoutHyphens? groups cs
  else if cs.length = 38 then
    (afterPrefix? ['\x7b'] cs).bind fun behind =>
      (beforeSuffix? ['\x7d'] behind).bind (withoutHyphens? groups)
  else if equalsIgnoringCase (cs.take resourcePrefix.length) resourcePrefix then
    withoutHyphens? groups (cs.drop resourcePrefix.length)
  else none

def ofText? (s : String) : Option RecordId := do
  let n ← Json.Reader.hexNumber? (← digits? s.toList)
  if h : n < 0x100000000000000000000000000000000 then some ⟨n, h⟩ else none

end RecordId
end LogLens
