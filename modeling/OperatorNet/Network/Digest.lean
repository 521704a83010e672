import OperatorNet.Data.Json.Writer
import OperatorNet.Digest.Sha256
import OperatorNet.Network.Spec

/-!
# Digests of networks

Two specifications with equal nodes have equal digests: the digest is taken of the canonical text of
the nodes.
-/

namespace OperatorNet.Spec

/-- The digest of the nodes of a specification. -/
def digest (s : Spec Float) : String :=
  Sha256.ofText (Json.write (.list (s.nodes.map NodeSpec.toData)))

/-- What a document of a specification is signed with: its digest and its size. -/
def signature (s : Spec Float) : List (String × Data Float) :=
  [("graph_sha256", .text s.digest), ("n_nodes", .int s.nodes.length),
    ("n_edges", .int s.edges.length)]

end OperatorNet.Spec
