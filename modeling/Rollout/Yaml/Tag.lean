import Rollout.Text.Units

/-! Tags: the names that say what a node stands for, as bytes. The core tags ask for a truth value,
an integer, a number or null. A tag that begins with an exclamation mark is local to its text;
where its bytes are not UTF-8 it says nothing. -/
namespace Rollout
set_option autoImplicit false

namespace Yaml

abbrev Tag := List UInt8

namespace Tag

/-- The tag of written bytes, which ends before a zero byte. -/
def ofBytes (bytes : List UInt8) : Tag := bytes.takeWhile (· ≠ 0)

def mark : Tag := [0x21]

def coreLead : Tag := Text.bytes "tag:yaml.org,2002:"

def core (name : String) : Tag := coreLead ++ Text.bytes name

def isMarked (t : Tag) : Bool := mark.isPrefixOf t

/-- The tag is local to its text. -/
def isLocal (t : Tag) : Bool := t.isMarked && (Text.ofBytes? t).isSome

end Tag

end Yaml

end Rollout
