/-!
# Failures of a program run

What a run that fails prints: what was attempted, and the causes behind it from the nearest to the
deepest. A single cause stands alone; several are numbered.
-/

namespace HashBoard

structure Failure where
  headline : String
  causes : List String
  deriving DecidableEq

namespace Failure

def indented (lead text : String) : String :=
  let margin := '\n' :: List.replicate lead.length ' '
  lead ++ String.ofList (text.toList.flatMap fun c => if c = '\n' then margin else [c])

def numbered : Nat → List String → List String
  | _, [] => []
  | n, cause :: rest =>
    let digits := toString n
    let margin := String.ofList (List.replicate (5 - digits.length) ' ')
    indented (margin ++ digits ++ ": ") cause :: numbered (n + 1) rest

def text (f : Failure) : String :=
  let causes := match f.causes with
    | [] => []
    | [cause] => ["", "Caused by:", indented "    " cause]
    | causes => ["", "Caused by:"] ++ numbered 0 causes
  String.join ((("Error: " ++ f.headline) :: causes).map (· ++ "\n"))

end Failure

end HashBoard
