import RightLinear.Batch

namespace RightLinear.Report

open Text (Points points)

-- A DFA under a heading of its own, usually the number of its test case; `write` gives the texts of
-- labels.
def dfaBlock {σ : Type} [Key σ] (write : σ → Points) (heading : String) (d : DFA σ) : Points :=
  let arrow (r : Arrow σ) : Points :=
    write r.source ++ points (" " ++ r.symbol ++ " ") ++ write r.target
  let listed (labels : List σ) : Points := (points " ").intercalate (labels.map write)
  let lines := [
    points (heading ++ ":"),
    points "# States", listed d.orderedStates, [],
    points "# Alphabet", points (" ".intercalate d.alphabet), [],
    points "# Start State", (d.start.map write).getD (points (shown none)), [],
    points "# Final States", listed d.accepting.toList, [],
    points "# Transitions"] ++ d.orderedArrows.map arrow
  (points "\n").intercalate lines ++ points "\n\n"

def block (o : Outcome) : Points :=
  match o.result with
  | .ok d => dfaBlock id (toString o.id) d
  | .error e => points s!"{o.id}:\n# Error\n{e.title}: {e.message}\n\n"

-- New labels may hold surrogates, and so may a report.
def text (outcomes : List Outcome) : Points :=
  outcomes.flatMap block

end RightLinear.Report
