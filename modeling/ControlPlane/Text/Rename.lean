/-! Replacing texts within texts. -/

namespace ControlPlane.Text

/-- Replaces every occurrence of the first text of a pair by the second, from the left and without
looking at what was put in; of several pairs that fit, the first counts. The first `skip`
characters belong to an occurrence before. -/
def renameChars (pairs : List (List Char × List Char)) : (skip : Nat) → List Char → List Char
  | _, [] => []
  | skip + 1, _ :: cs => renameChars pairs skip cs
  | 0, c :: cs =>
    match pairs.find? fun pair => pair.1.isPrefixOf (c :: cs) with
    | some (source, target) => target ++ renameChars pairs (source.length - 1) cs
    | none => c :: renameChars pairs 0 cs

def rename (pairs : List (List Char × List Char)) (s : String) : String :=
  String.ofList (renameChars pairs 0 s.toList)

end ControlPlane.Text
