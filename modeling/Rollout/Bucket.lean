import Rollout.Text.Units

/-! The buckets of usernames: a polynomial hash over 16-bit units that wraps at 32 bits, taken
modulo 100. A name falls in the same bucket wherever and whenever it is hashed. -/
namespace Rollout
set_option autoImplicit false

namespace Bucket

/-- The hash of a text: each unit is added to 31 times the hash before it, with wrapping. -/
def hash (s : String) : Int32 :=
  (Text.units s).foldl (fun h u => h * 31 + Int32.ofNat u) 0

def count : Int := 100

/-- The bucket of a name: the remainder of its hash, never negative. -/
def ofName (name : String) : Int64 := Int64.ofInt ((hash name).toInt % count)

end Bucket

end Rollout
