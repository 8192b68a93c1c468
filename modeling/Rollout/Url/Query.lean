import Rollout.Text.Ascending
import Rollout.Text.Blank
import Rollout.Text.Hex
import Rollout.Text.Pieces
import Rollout.Text.Units

/-! Query strings in `application/x-www-form-urlencoded` form, read and written, and the ids that
the parameter `variants` requests. Reading never fails: a percent sign without two hexadecimal
digits stands for itself, and bytes that are not UTF-8 are replaced. -/
namespace Rollout
set_option autoImplicit false

namespace Url

/-! ## Reading -/

/-- The byte that two hexadecimal digits after a percent sign stand for. -/
def octet? (a b : Char) : Option UInt8 := do
  return UInt8.ofNat ((← Text.hexValue? a) * 16 + (← Text.hexValue? b))

/-- The bytes of an encoded name or value: a plus sign is a space. -/
def decodedBytes : List Char → List UInt8
  | [] => []
  | '%' :: a :: b :: rest =>
    match octet? a b with
    | some byte => byte :: decodedBytes rest
    | none => 0x25 :: decodedBytes (a :: b :: rest)
  | c :: rest =>
    if c = '+' then 0x20 :: decodedBytes rest
    else String.utf8EncodeChar c ++ decodedBytes rest

def decode (cs : List Char) : String := Text.ofBytesLossy (decodedBytes cs)

/-- The name before the first equals sign and the value after it. -/
def parameter (cs : List Char) : String × String :=
  (decode (cs.takeWhile (· ≠ '=')), decode ((cs.dropWhile (· ≠ '=')).drop 1))

/-- The parameters of a query without its question mark; empty pieces are none. -/
def parameters (cs : List Char) : List (String × String) :=
  ((Text.pieces '&' cs).filter (· ≠ [])).map parameter

/-- A search string without a question mark in front. -/
def query : List Char → List Char
  | '?' :: rest => rest
  | cs => cs

/-- The value of the first parameter with a name. -/
def find? (search name : String) : Option String :=
  ((parameters (query search.toList)).find? fun p => p.1 = name).map Prod.snd

/-! ## Requested ids -/

/-- The parameter that lists the ids to force on. -/
def variantsName : String := "variants"

/-- The ids between the commas of a text, trimmed, without empty ones. -/
def idsOf (s : String) : List String :=
  ((Text.pieces ',' s.toList).map fun cs => String.ofList (Text.trimmed cs)).filter (· ≠ "")

/-- The set of the ids that a search string requests. -/
def requested (search : Option String) : List String :=
  match search.bind fun s => find? s variantsName with
  | some value => Text.setOf (idsOf value)
  | none => []

/-! ## Writing -/

/-- Letters, digits and four signs are written as they are. -/
def isUnreserved (c : Char) : Bool :=
  c.isAlphanum || c = '*' || c = '-' || c = '.' || c = '_'

/-- A byte as a percent sign and two hexadecimal digits. -/
def escapeByte (b : UInt8) : List Char :=
  ['%', Text.hexUpper (b.toNat / 16), Text.hexUpper (b.toNat % 16)]

/-- An encoded character: a space is a plus sign, others are escaped byte by byte. -/
def encodeChar (c : Char) : List Char :=
  if isUnreserved c then [c]
  else if c = ' ' then ['+']
  else (String.utf8EncodeChar c).flatMap escapeByte

def encode (s : String) : List Char := s.toList.flatMap encodeChar

def write (ps : List (String × String)) : List Char :=
  List.intercalate ['&'] (ps.map fun p => encode p.1 ++ '=' :: encode p.2)

end Url

end Rollout
