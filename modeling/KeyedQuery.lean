import KeyedQuery.Session.Basic
import KeyedQuery.Json.Parser
import KeyedQuery.Value.Conversion
import KeyedQuery.Proofs.Clause.FullText
import KeyedQuery.Proofs.Condition.TopLevel
import KeyedQuery.Proofs.Identifier
import KeyedQuery.Proofs.Payload.Request
import KeyedQuery.Proofs.Reading.Placement
import KeyedQuery.Proofs.Clause.Filter
import KeyedQuery.Proofs.Canonical.Query
import KeyedQuery.Proofs.Condition.Balance
import KeyedQuery.Proofs.Session.Grouping
import KeyedQuery.Proofs.Session.Statistics
import KeyedQuery.Proofs.Session.Broadcast
import KeyedQuery.Proofs.Write.Rows
import KeyedQuery.Proofs.Value.Finite
import KeyedQuery.Proofs.Errors.Reading
import KeyedQuery.Proofs.Errors.Statement
import KeyedQuery.Proofs.Portability.Clause
import KeyedQuery.Proofs.Portability.Statement
import KeyedQuery.Proofs.Sql.Literal
import KeyedQuery.Proofs.Condition.Support
import KeyedQuery.Proofs.Json.Token
import KeyedQuery.Proofs.Value.Stored
import KeyedQuery.Proofs.Sql.Truth
import KeyedQuery.Proofs.Condition.Complement
import KeyedQuery.Proofs.KeyGrammar
import KeyedQuery.Proofs.Clause.OrderText
import KeyedQuery.Proofs.Write.NonFinite
import KeyedQuery.Proofs.Binary64.Nearest
import KeyedQuery.Proofs.Binary64.Shortest
import KeyedQuery.Proofs.Value.Integer
import KeyedQuery.Proofs.Condition.Search
import KeyedQuery.Proofs.Query.OneRow
import KeyedQuery.Proofs.Clause.Window
import KeyedQuery.Proofs.Query.Projection
import KeyedQuery.Proofs.LabelGrammar
import KeyedQuery.Proofs.StatementKind
import KeyedQuery.Proofs.Session.Guard
import KeyedQuery.Proofs.Binary64.Range
import KeyedQuery.Proofs.Numeral.Grammar
import KeyedQuery.Proofs.Session.Count
import KeyedQuery.Proofs.Query.References
import KeyedQuery.Proofs.Truncation
