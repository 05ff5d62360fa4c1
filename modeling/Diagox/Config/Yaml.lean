import Diagox.Config.Load

/-!
# The document of a configuration

`yamlMappingKeys` of `config.go`, which reads the order of the endpoints off the nodes of the YAML document, since a
map of Go has none. An alias is no mapping here, and the endpoints behind one have no order of their own.
-/

namespace Configuration

open Sip Routing

inductive YamlKind where
  | document
  | sequence
  | mapping
  | scalar
  | alias
  deriving DecidableEq, Repr

/-- A `yaml.Node`: the content of a mapping is its keys and values in turn. -/
inductive YamlNode where
  | node (kind : YamlKind) (value : String) (content : List YamlNode)

namespace YamlNode

def kind : YamlNode → YamlKind
  | node kind _ _ => kind

def value : YamlNode → String
  | node _ value _ => value

def content : YamlNode → List YamlNode
  | node _ _ content => content

end YamlNode

/-- The keys of a mapping with their values. A key without a value at the end is left out. -/
def mappingPairs : List YamlNode → List (YamlNode × YamlNode)
  | key :: value :: rest => (key, value) :: mappingPairs rest
  | _ => []

def yamlMappingKeys (root : Option YamlNode) (key : String) : List String :=
  match root with
  | none => []
  | some root =>
      let node := match root.kind, root.content with
        | .document, first :: _ => first
        | _, _ => root
      if node.kind ≠ .mapping then []
      else match (mappingPairs node.content).find? fun pair => pair.1.value = key with
        | none => []
        | some (_, value) =>
            if value.kind ≠ .mapping then []
            else (mappingPairs value.content).map fun pair => pair.1.value

/-- What `ConfigLoad` makes of a document that is parsed: the package decodes it, and the order is read off it. -/
def YamlNode.document (decode : YamlNode → Config → Config × Option String) (root : YamlNode) : YamlDocument where
  decode := decode root
  endpointKeys := yamlMappingKeys (some root) "endpoints"

section Order

variable {endpoints : StringMap ConfigEndpoint} {order : List String}

theorem endpointNames_of_keys (h : ∀ name, name ∈ order ↔ name ∈ endpoints) :
    endpointNames endpoints order = order := by
  have hall : (order.filter fun name => (endpoints.lookup name).isSome) = order := by
    refine List.filter_eq_self.mpr fun name hname => ?_
    rw [AList.lookup_isSome]
    exact (h name).mp hname
  have hnone : (endpoints.keys.filter fun name => name ∉ order) = [] := by
    refine List.filter_eq_nil_iff.mpr fun name hname => ?_
    simpa using (h name).mpr (AList.mem_keys.mp hname)
  rw [endpointNames, hall, hnone]
  simp

end Order

end Configuration
