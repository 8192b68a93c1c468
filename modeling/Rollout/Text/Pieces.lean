/-! The pieces of a text between its separators: one more than there are separators, some of them
perhaps empty. -/
namespace Rollout
set_option autoImplicit false

namespace Text

/-- The pieces of a list between the separators. -/
def pieces (separator : Char) : List Char → List (List Char)
  | [] => [[]]
  | c :: rest =>
    if c = separator then [] :: pieces separator rest
    else (pieces separator rest).modifyHead fun piece => c :: piece

end Text

end Rollout
