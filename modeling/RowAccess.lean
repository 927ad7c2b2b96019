import RowAccess.Json.Reader
import RowAccess.PolicyText.Load
import RowAccess.Sql.Select
import RowAccess.Table
import RowAccess.Proofs.Precedence
import RowAccess.Proofs.Questions
import RowAccess.Proofs.Visibility
import RowAccess.Proofs.Monotonicity
import RowAccess.Proofs.Rearrangement
import RowAccess.Proofs.Checking
import RowAccess.Proofs.Equality
import RowAccess.Proofs.Interchange
import RowAccess.Proofs.Rounding
import RowAccess.Proofs.Agreement
import RowAccess.Proofs.Relevance
import RowAccess.Proofs.Provenance
import RowAccess.Proofs.Decimal.Numeral
import RowAccess.Proofs.Json.Grammar
import RowAccess.Proofs.Json.Reading
import RowAccess.Proofs.Json.Words
import RowAccess.Proofs.Json.RoundTrip
import RowAccess.Proofs.PolicyText.Grammar
import RowAccess.Proofs.PolicyText.Words
import RowAccess.Proofs.PolicyText.Acceptance
import RowAccess.Proofs.PolicyText.Exactness
import RowAccess.Proofs.PolicyText.Loading
import RowAccess.Proofs.PolicyText.Declaring
import RowAccess.Proofs.PolicyText.Mistakes
import RowAccess.Proofs.Sql.Formula
import RowAccess.Proofs.Sql.Lexing
import RowAccess.Proofs.Sql.Structure
import RowAccess.Proofs.Sql.Truth
import RowAccess.Proofs.Sql.Selection
import RowAccess.Proofs.Sql.Backslash
import RowAccess.Proofs.Sql.Conventions
import RowAccess.Proofs.Sql.Order
import RowAccess.Proofs.Log
