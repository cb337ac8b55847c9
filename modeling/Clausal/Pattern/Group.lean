import Clausal.Pattern.Basic

/-!
Settling groups. A resolver turns the members of a group into one pattern; it is called once for each
group, innermost groups first and from left to right, and may carry state from call to call.
-/
namespace Clausal.Pattern

variable {m : Type → Type} [Monad m]

mutual

/-- Replaces every group by what the resolver makes of its members, which are settled before. What
stands in the place of a group keeps its source text. -/
def settle (resolve : List Pattern → m Pattern) : Pattern → m Pattern
  | .group s members => do
    let members ← settleAll resolve members
    return (← resolve members).withSpan s
  | .record s c cs fields p => do
    return .record s c cs (← settleFields resolve fields) p
  | .tuple s c cs fields p => do
    return .tuple s c cs (← settleAll resolve fields) p
  | .ignore s => return .ignore s
  | .capture s n t p => return .capture s n t p
  | .equal s e p => return .equal s e p

def settleAll (resolve : List Pattern → m Pattern) : List Pattern → m (List Pattern)
  | [] => return []
  | p :: ps => do
    let p ← settle resolve p
    return p :: (← settleAll resolve ps)

def settleFields (resolve : List Pattern → m Pattern) : List FieldPattern → m (List FieldPattern)
  | [] => return []
  | ⟨n, ns, p⟩ :: fs => do
    let p ← settle resolve p
    return ⟨n, ns, p⟩ :: (← settleFields resolve fs)

end

end Clausal.Pattern
