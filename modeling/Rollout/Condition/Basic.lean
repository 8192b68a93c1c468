import Rollout.Condition.Field
import Rollout.Context
import Rollout.Trial

/-! Conditions and their tests. Testing never fails: what could be wrong has been refused when the
condition was built. Conditions of custom kinds bring a test of their own, whose answers are
noted. -/
namespace Rollout
set_option autoImplicit false

/-! ## Conditions -/

/-- A condition. `random` draws afresh at every test, `randomMod` looks at the shared bucket. -/
inductive Condition (G : Type) where
  | always
  | never
  | users (names : List String)
  | groups (names : List String)
  | random (chance : Chance)
  | randomMod (range : PercentRange)
  | usernameMod (range : PercentRange)
  | experiment (variation : UInt64)
  | custom (tag : String) (ask : Context → Trial G Bool)

namespace Condition

variable {G : Type}

def tag : Condition G → String
  | always => "ALWAYS"
  | never => "NEVER"
  | users _ => "USERS"
  | groups _ => "GROUPS"
  | random _ => "RANDOM"
  | randomMod _ => "RANDOM_MOD"
  | usernameMod _ => "USERNAME_MOD"
  | experiment _ => "GOOGLE_EXPERIMENTS"
  | custom tag _ => tag

/-! ## Tests -/

def bucketNumber (b : Int64) : Binary64 :=
  Binary64.ofInt b.toInt (by have h1 := b.le_toInt; have h2 := b.toInt_lt; omega)

def sharedNumber (b : Fin 100) : Binary64 := Binary64.ofInt b.val (by have h := b.isLt; omega)

/-- The user has a name and its bucket lies in the range. -/
def inRange (range : PercentRange) (ctx : Context) : Bool :=
  match ctx.user? with
  | some name => range.contains (bucketNumber (ctx.bucket name))
  | none => false

/-- The variation chosen is the one asked for; a negative one is none. -/
def matchesVariation (variation : UInt64) (chosen : Int64) : Bool :=
  0 ≤ chosen.toInt && chosen.toInt = variation.toNat

def test [RandomSource G] (ctx : Context) : Condition G → Trial G Bool
  | always => Trial.pure true
  | never => Trial.pure false
  | users names => Trial.pure (ctx.user?.any fun name => names.contains name)
  | groups names => Trial.pure (ctx.memberships.any fun group => names.contains group)
  | random chance => fun s => (Trial.uniform s).map (Run.map fun x => decide (x < chance.value))
  | randomMod range => fun s =>
    (Trial.bucket s).map (Run.map fun b => range.contains (sharedNumber b))
  | usernameMod range => Trial.pure (inRange range ctx)
  | experiment variation => fun s =>
    match s.service with
    | some _ => (Trial.variation s).map (Run.map fun chosen => chosen.any (matchesVariation variation))
    | none => some ⟨false, s, [.noService]⟩
  | custom tag ask => fun s =>
    (ask ctx s).map fun r => { r with notes := r.notes ++ [.answered tag r.value] }

/-! ## Descriptions -/

/-- Numbers show their point between `0.0001` and just under `1e16`, and an exponent beyond. -/
def decimals : DecimalStyle := ⟨-4, 15, false⟩

def describeFields (name : String) (fields : List (String × String)) : String :=
  name ++ " \x7b " ++ Text.commaSeparated (fields.map fun f => f.1 ++ ": " ++ f.2) ++ " \x7d"

def describeRange (name : String) (r : PercentRange) : String :=
  describeFields name [("from", decimals.render r.lower), ("to", decimals.render r.upper)]

def describe : Condition G → String
  | always => "AlwaysCondition"
  | never => "NeverCondition"
  | users names => describeFields "UsersCondition" [("values", Text.quoteList names)]
  | groups names => describeFields "GroupsCondition" [("values", Text.quoteList names)]
  | random chance => describeFields "RandomCondition" [("value", decimals.render chance.value)]
  | randomMod range => describeRange "RandomModCondition" range
  | usernameMod range => describeRange "UsernameModCondition" range
  | experiment variation =>
    describeFields "GoogleExperimentsCondition" [("variation", toString variation.toNat)]
  | custom tag _ => tag

end Condition

end Rollout
