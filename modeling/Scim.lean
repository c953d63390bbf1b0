import Scim.Json.Reader
import Scim.Patch.Apply
import Scim.Patch.Wire
import Scim.Proofs.Patch.Locality
import Scim.Proofs.Patch.Querying
import Scim.Proofs.Patch.Refusal
import Scim.Proofs.Patch.Rewriting
import Scim.Proofs.Path.RoundTrip
import Scim.Proofs.Path.Lowering
import Scim.Proofs.Schema.Stability
import Scim.Proofs.Schema.FullPath
import Scim.Proofs.Resource.Keys
import Scim.Proofs.Patch.Keys
import Scim.Proofs.Text.Outside
import Scim.Proofs.Path.LoweredTokens
import Scim.Proofs.Path.LoweredGrammar
import Scim.Proofs.Path.LoweredPrinting
import Scim.Proofs.Filter.LetterCase
import Scim.Proofs.Resource.LetterCase
import Scim.Proofs.Patch.LetterCase
import Scim.Proofs.Schema.Extensions
import Scim.Proofs.Patch.Extensions
import Scim.Proofs.Patch.Validation
import Scim.Proofs.Filter.Elements
import Scim.Proofs.Patch.Qualified
import Scim.Proofs.Patch.Wire
import Scim.Proofs.Patch.FilteredRemoves
import Scim.Proofs.Patch.Unmatched
import Scim.Proofs.Resource.Writing
import Scim.Proofs.Patch.Appending
import Scim.Proofs.Patch.Restoring
import Scim.Proofs.Patch.Overwriting
import Scim.Proofs.Patch.Normalization
import Scim.Proofs.Resource.Creation
import Scim.Proofs.Path.Faults
import Scim.Proofs.Path.Spelling
import Scim.Proofs.Path.Grouping
import Scim.Proofs.Filter.Operators
import Scim.Proofs.Number.Order
import Scim.Proofs.Patch.IntegerKeys
import Scim.Proofs.Text.Sigma
import Scim.Proofs.Filter.Folding
import Scim.Proofs.Json.Lowering
import Scim.Proofs.Filter.Recasing
import Scim.Proofs.Path.Qualified
import Scim.Proofs.Resource.Parents
