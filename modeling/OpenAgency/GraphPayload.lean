/-
GraphPayload.lean

What the graph routes return: a document of nodes and edges, cut down until its JSON
text fits a number of bytes, and for the neighbors of a node also the groups of its
edges.  The payload says how many bytes it has, so writing the number down can change
it: `setOutputSizeMeta` repeats until it is right.

Properties and query parameters are opaque values of a type `V`, known by the size of
their text; everything that the code itself writes has the size `json.dumps` gives it.
-/
import Mathlib.Data.List.Sort
import Mathlib.Data.Nat.Log
import OpenAgency.Domain.Basic
import OpenAgency.Lib.Fuel

namespace OpenAgency

namespace GraphRead

/-! ### The size of a JSON text -/

/-- A character of a string; what is not printable ASCII is escaped. -/
def charSize (c : Char) : ℕ :=
  if c.toNat ∈ [8, 9, 10, 12, 13, 34, 92] then 2
  else if 32 ≤ c.toNat ∧ c.toNat < 127 then 1
  else if c.toNat < 0x10000 then 6
  else 12

def strSize (s : String) : ℕ := 2 + (s.toList.map charSize).sum

/-- The digits of a natural number. -/
def natSize (n : ℕ) : ℕ := Nat.log 10 n + 1

def intSize (z : ℤ) : ℕ := natSize z.natAbs + if z < 0 then 1 else 0

/-- Brackets, items and commas. -/
def listSize (sizes : List ℕ) : ℕ := 2 + sizes.sum + (sizes.length - 1)

/-- A dict with the sizes of its values. -/
def dictSize (fields : List (String × ℕ)) : ℕ :=
  listSize (fields.map fun field => strSize field.1 + 1 + field.2)

/-! ### Documents and payloads -/

structure GraphReadNode (V : Type) where
  id : String
  type : String
  labels : List String := []
  properties : V

structure GraphReadEdge (V : Type) where
  id : String
  source : String
  target : String
  type : String
  properties : V

/-- A value of `meta`: one the code writes, or any other. -/
inductive MetaValue (V : Type) where
  | int (n : ℤ)
  | bool (b : Bool)
  | str (s : String)
  | strs (items : List String)
  | other (value : V)

structure GraphReadDocument (V : Type) where
  nodes : List (GraphReadNode V)
  edges : List (GraphReadEdge V)
  metadata : Dict (MetaValue V) := []
  operationalNodes : List (GraphReadNode V) := []
  operationalEdges : List (GraphReadEdge V) := []
  /-- `operational_coverage`, unless it is empty. -/
  operationalCoverage : Option V := none

/-- The edges of a node that are alike. -/
structure NeighborGroup (V : Type) where
  relationshipType : String
  direction : String
  nodeType : String
  count : ℕ := 0
  nodes : List (GraphReadNode V) := []
  edges : List (GraphReadEdge V) := []

/-- The section `operational` of a payload. -/
structure OperationalSection (V : Type) where
  nodes : List (GraphReadNode V)
  edges : List (GraphReadEdge V)
  coverage : Option V

structure GraphPayload (V : Type) where
  nodes : List (GraphReadNode V)
  edges : List (GraphReadEdge V)
  metadata : Dict (MetaValue V)
  operational : Option (OperationalSection V) := none
  /-- `center` and `groups`, where there are any. -/
  neighbors : Option (Option (GraphReadNode V) × List (NeighborGroup V)) := none

section Sizes

variable {V : Type} (size : V → ℕ)

def nodeSize (node : GraphReadNode V) : ℕ :=
  dictSize [("id", strSize node.id), ("type", strSize node.type),
    ("labels", listSize (node.labels.map strSize)), ("properties", size node.properties)]

def edgeSize (edge : GraphReadEdge V) : ℕ :=
  dictSize [("id", strSize edge.id), ("source", strSize edge.source),
    ("target", strSize edge.target), ("type", strSize edge.type),
    ("properties", size edge.properties)]

def metaValueSize : MetaValue V → ℕ
  | .int n => intSize n
  | .bool b => if b then 4 else 5
  | .str s => strSize s
  | .strs items => listSize (items.map strSize)
  | .other value => size value

def nodesSize (nodes : List (GraphReadNode V)) : ℕ := listSize (nodes.map (nodeSize size))

def edgesSize (edges : List (GraphReadEdge V)) : ℕ := listSize (edges.map (edgeSize size))

def metaSize (metadata : Dict (MetaValue V)) : ℕ :=
  dictSize (metadata.map fun field => (field.1, metaValueSize size field.2))

def groupSize (group : NeighborGroup V) : ℕ :=
  dictSize [("relationship_type", strSize group.relationshipType),
    ("direction", strSize group.direction), ("node_type", strSize group.nodeType),
    ("count", natSize group.count), ("nodes", nodesSize size group.nodes),
    ("edges", edgesSize size group.edges)]

def operationalSize (operational : OperationalSection V) : ℕ :=
  dictSize [("nodes", nodesSize size operational.nodes),
    ("edges", edgesSize size operational.edges),
    ("coverage", operational.coverage.elim 2 size)]

/-- What a payload has besides its nodes, its edges and `meta`. -/
def extraSizes (p : GraphPayload V) : List (String × ℕ) :=
  (p.operational.elim [] fun operational => [("operational", operationalSize size operational)]) ++
    p.neighbors.elim [] fun neighbors =>
      [("center", neighbors.1.elim 4 (nodeSize size)),
        ("groups", listSize (neighbors.2.map (groupSize size)))]

/-- `_payload_size`. -/
def payloadSize (p : GraphPayload V) : ℕ :=
  dictSize ([("nodes", nodesSize size p.nodes), ("edges", edgesSize size p.edges),
    ("meta", metaSize size p.metadata)] ++ extraSizes size p)

end Sizes

/-! ### Writing the size down -/

section

variable {V : Type}

/-- `payload["meta"][key] = value`. -/
def GraphPayload.setMeta (p : GraphPayload V) (key : String) (value : MetaValue V) :
    GraphPayload V :=
  { p with metadata := p.metadata.set key value }

variable (size : V → ℕ)

/-- The text is longer than it may be. -/
def exceeds (p : GraphPayload V) (maxOutputBytes : ℤ) : Bool := maxOutputBytes < payloadSize size p

/-- Edges are popped as long as there are some and the text is too long. -/
def popEdges (maxOutputBytes : ℤ) : ℕ → GraphPayload V → GraphPayload V
  | 0, p => p
  | n + 1, p =>
    if p.edges ≠ [] ∧ exceeds size p maxOutputBytes then
      popEdges maxOutputBytes n
        ({ p with edges := p.edges.dropLast }.setMeta "edge_truncated" (.bool true))
    else p

/-- Nodes are popped as long as there are some and the text is too long. -/
def popNodes (maxOutputBytes : ℤ) : ℕ → GraphPayload V → GraphPayload V
  | 0, p => p
  | n + 1, p =>
    if p.nodes ≠ [] ∧ exceeds size p maxOutputBytes then
      popNodes maxOutputBytes n
        ({ p with nodes := p.nodes.dropLast }.setMeta "node_truncated" (.bool true))
    else p

/-- The ids that edges refer to. -/
def referencedNodeIds (edges : List (GraphReadEdge V)) : List String :=
  edges.map (·.source) ++ edges.map (·.target)

/-- Where there are edges, the nodes that none of them refers to go. -/
def keepReferenced (p : GraphPayload V) : GraphPayload V :=
  let ids := referencedNodeIds p.edges
  if ids = [] then p else { p with nodes := p.nodes.filter fun node => node.id ∈ ids }

/-- The copy that is trimmed: it has no other sections. -/
def trimStart (payload : GraphPayload V) (maxOutputBytes : ℤ) : GraphPayload V where
  nodes := payload.nodes
  edges := payload.edges
  metadata := payload.metadata.set "max_output_bytes" (.int maxOutputBytes)

/-- `_trim_payload_to_bytes`; each loop ends at the latest when it has popped everything. -/
def trimPayloadToBytes (payload : GraphPayload V) (maxOutputBytes : ℤ) : GraphPayload V :=
  let fewerEdges :=
    popEdges size maxOutputBytes payload.edges.length (trimStart payload maxOutputBytes)
  let referenced := keepReferenced fewerEdges
  let trimmed := popNodes size maxOutputBytes referenced.nodes.length referenced
  ((((trimmed.setMeta "node_count" (.int trimmed.nodes.length)).setMeta
    "edge_count" (.int trimmed.edges.length)).setMeta "truncated" (.bool true)).setMeta
    "output_truncated" (.bool true))

/-- `value is False`. -/
def MetaValue.isFalse : MetaValue V → Bool
  | .bool b => !b
  | _ => false

/-- `_apply_graph_provenance_meta`. -/
def applyGraphProvenanceMeta (document : GraphReadDocument V) : GraphReadDocument V :=
  let available := !(document.metadata.get? "projection_available").any (·.isFalse)
  let operational := document.operationalNodes ≠ [] ∨ document.operationalEdges ≠ []
  let dataSources := (if available then ["projection"] else []) ++
    if operational then ["operational_coverage"] else []
  let graphSourceKind :=
    if dataSources = ["operational_coverage"] then "operational_coverage"
    else if 1 < dataSources.length then "projection_with_operational_coverage"
    else "projection"
  { document with
    metadata := document.metadata.union [
      ("data_sources", .strs dataSources),
      ("graph_source_kind", .str graphSourceKind),
      ("operational_edge_count", .int document.operationalEdges.length),
      ("operational_node_count", .int document.operationalNodes.length),
      ("projection_edge_count", .int document.edges.length),
      ("projection_node_count", .int document.nodes.length)] }

/-- `meta.setdefault(key, value)`. -/
def setDefaultMeta (metadata : Dict (MetaValue V)) (key : String) (value : MetaValue V) :
    Dict (MetaValue V) :=
  if (metadata.get? key).isSome then metadata else metadata.set key value

/-- `items[:n]`. -/
def sliceTo {α : Type} (items : List α) (n : ℤ) : List α :=
  if 0 ≤ n then items.take n.toNat else items.take (items.length - n.natAbs)

/-- The edges beyond the limit go, and the nodes that no edge refers to any more. -/
def limitEdges (maxEdges : Option ℤ) (document : GraphReadDocument V) : GraphReadDocument V :=
  match maxEdges with
  | none => document
  | some maxEdges =>
    if maxEdges < document.edges.length then
      let keptEdges := sliceTo document.edges maxEdges
      let ids := referencedNodeIds keptEdges
      { document with
        edges := keptEdges
        nodes := document.nodes.filter fun node => node.id ∈ ids ∨ ids.dedup.length < 2
        metadata := document.metadata.set "edge_truncated" (.bool true) }
    else document

/-- The counts of a document, next to what it had before its edges were limited. -/
def countMeta (limit : Option ℤ) (original document : GraphReadDocument V) :
    Dict (MetaValue V) :=
  let counted := document.metadata.union [
    ("node_count", .int document.nodes.length),
    ("edge_count", .int document.edges.length),
    ("total_node_count", .int original.nodes.length),
    ("total_edge_count", .int original.edges.length)]
  match limit with
  | none => counted
  | some limit => counted.union [
      ("limit", .int limit),
      ("truncated", .bool (limit ≤ document.nodes.length ∨ limit ≤ document.edges.length ∨
        document.nodes.length < original.nodes.length ∨
        document.edges.length < original.edges.length))]

/-- `GraphReadDocument.to_dict`. -/
def GraphReadDocument.toDict (document : GraphReadDocument V) : GraphPayload V where
  nodes := document.nodes
  edges := document.edges
  metadata := document.metadata
  operational :=
    if document.operationalNodes ≠ [] ∨ document.operationalEdges ≠ [] ∨
        document.operationalCoverage.isSome then
      some ⟨document.operationalNodes, document.operationalEdges, document.operationalCoverage⟩
    else none

/-- The options of a request for a payload. -/
structure PayloadOptions (V : Type) where
  queryMeta : Dict (MetaValue V) := []
  limit : Option ℤ := none
  maxEdges : Option ℤ := none
  maxOutputBytes : ℤ := 1000000

/-- `graph_document_payload`, up to the payload that is then trimmed. -/
def preparedPayload (document : GraphReadDocument V) (options : PayloadOptions V) :
    GraphPayload V :=
  let metadata := document.metadata.union options.queryMeta
  let metadata := setDefaultMeta metadata "projection_mode" (.str "neo4j")
  let metadata := setDefaultMeta metadata "projection_available" (.bool true)
  let original := applyGraphProvenanceMeta { document with metadata }
  let limited := limitEdges options.maxEdges original
  GraphReadDocument.toDict { limited with metadata := countMeta options.limit original limited }

/-- The last node with an id. -/
def nodeById (nodes : List (GraphReadNode V)) (id : String) : Option (GraphReadNode V) :=
  nodes.reverse.find? (·.id = id)

def NeighborGroup.key (group : NeighborGroup V) : String × String × String :=
  (group.relationshipType, group.direction, group.nodeType)

/-- An edge is counted in a group; its neighbor is listed once. -/
def NeighborGroup.add (edge : GraphReadEdge V) (neighbor : Option (GraphReadNode V))
    (group : NeighborGroup V) : NeighborGroup V :=
  { group with
    count := group.count + 1
    edges := group.edges ++ [edge]
    nodes := group.nodes ++ (neighbor.filter fun n => group.nodes.all (·.id ≠ n.id)).toList }

/-- The order of the groups. -/
def NeighborGroup.le (a b : NeighborGroup V) : Bool :=
  a.relationshipType < b.relationshipType ||
    (a.relationshipType = b.relationshipType &&
      (a.direction < b.direction || (a.direction = b.direction && a.nodeType ≤ b.nodeType)))

end

end GraphRead

end OpenAgency
