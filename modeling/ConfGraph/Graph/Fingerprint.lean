import ConfGraph.Digest
import ConfGraph.Graph.Basic

/-!
# Fingerprints

Graphs that are equal up to the order of attributes have the same canonical text, and so the same
fingerprint.

* `Graph.canonicalText`: the text that stands for a graph.
* `Graph.fingerprint`: its digest.
-/

namespace ConfGraph.Graph

/-- The canonical text of a graph. -/
def canonicalText (g : Graph) : String := g.toValue.canonicalText

/-- The JSON text of a graph. -/
def json (g : Graph) : String := g.toValue.json

/-- The digest of a graph's canonical text. -/
def fingerprint (g : Graph) : String := Digest.md5 g.canonicalText

end ConfGraph.Graph
