import Courier.Json.Basic
import Courier.Simulation.World

/-!
# Labels for drawn ids

Ids that are drawn during a simulation mean nothing in themselves, so a reader of its reports knows
them by labels: a word for their kind and the number of their first appearance.
-/

namespace Courier.Simulation

/-- The labels of the drawn ids, with the texts that they stand for. -/
def World.legend (w : World) : List (String × String) :=
  let number (kind : String) (ids : List String) : List (String × String) :=
    ids.zipIdx.map fun e => (kind ++ "-" ++ toString (e.2 + 1), e.1)
  number "req" w.requestIds ++ number "msg" (w.rowIds.map (·.text)) ++ number "instance" w.instances

/-- The text that a label stands for; any other text stands for itself. -/
def World.unlabel (w : World) (s : String) : String :=
  match w.legend.find? fun l => l.1 == s with
  | some l => l.2
  | none => s

/-- A text with labels in place of the ids in it; an id has at least 32 characters. -/
def labelText (legend : List (String × String)) (s : String) : String :=
  if s.length < 32 then s
  else legend.foldl (fun s l => s.replace l.2 l.1) s

mutual

/-- A value with labels in place of the ids in it. -/
def labelJson (legend : List (String × String)) : Json → Json
  | .text s => .text (labelText legend s)
  | .list items => .list (labelItems legend items)
  | .object members => .object (labelMembers legend members)
  | j => j

/-- Values with labels. -/
def labelItems (legend : List (String × String)) : List Json → List Json
  | [] => []
  | x :: rest => labelJson legend x :: labelItems legend rest

/-- Members with labels. -/
def labelMembers (legend : List (String × String)) : List (String × Json) → List (String × Json)
  | [] => []
  | (k, x) :: rest => (labelText legend k, labelJson legend x) :: labelMembers legend rest

end

end Courier.Simulation
