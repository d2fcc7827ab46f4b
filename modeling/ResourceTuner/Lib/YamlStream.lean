/-!
# Event streams of YAML

A parser of YAML hands its reader one event after the other.  In the stream of a text that is in order
the events nest as the nodes do: a node is a reference to another one, a scalar, a sequence of nodes or
a mapping of nodes to nodes, and there may be any number of documents.

* **`Node`**, **`Node.events`** — the nodes and their events;
* **`stream`** — the events of a whole text.
-/

namespace Yaml

inductive Event where
  | streamStart
  | streamEnd
  | documentStart
  | documentEnd
  | reference
  | scalar (value : String)
  | sequenceStart
  | sequenceEnd
  | mappingStart
  | mappingEnd
  deriving DecidableEq, Repr

/-- A node; any node may be a key, and an alias is a reference. -/
inductive Node where
  | reference
  | scalar (value : String)
  | sequence (items : List Node)
  | mapping (pairs : List (Node × Node))

mutual

def Node.events : Node → List Event
  | .reference => [.reference]
  | .scalar value => [.scalar value]
  | .sequence items => .sequenceStart :: (itemEvents items ++ [.sequenceEnd])
  | .mapping pairs => .mappingStart :: (pairEvents pairs ++ [.mappingEnd])

def itemEvents : List Node → List Event
  | [] => []
  | item :: items => item.events ++ itemEvents items

def pairEvents : List (Node × Node) → List Event
  | [] => []
  | pair :: pairs => keyValueEvents pair ++ pairEvents pairs

def keyValueEvents : Node × Node → List Event
  | (key, value) => key.events ++ value.events

end

def documentEvents (root : Node) : List Event := .documentStart :: (root.events ++ [.documentEnd])

/-- The events of the documents of a text. -/
def stream (roots : List Node) : List Event :=
  .streamStart :: (roots.flatMap documentEvents ++ [.streamEnd])

end Yaml
