import TemporalDB.Encoding.Configuration
import TemporalDB.Main
import TemporalDB.Clock
import TemporalDB.Proofs.Table.Consistency
import TemporalDB.Proofs.Execution.Atomicity
import TemporalDB.Proofs.Execution.Semantics
import TemporalDB.Proofs.Execution.Twins
import TemporalDB.Proofs.Execution.Soundness
import TemporalDB.Proofs.Encoding.CompiledUnit
import TemporalDB.Proofs.Listing.Constants
import TemporalDB.Proofs.Listing.Definition
import TemporalDB.Proofs.BuildCache.Outcome
import TemporalDB.Proofs.Pipeline.Transparency
import TemporalDB.Proofs.Pipeline.Genuine
import TemporalDB.Proofs.Pipeline.OpenUnits
import TemporalDB.Proofs.Pipeline.Redefinition
import TemporalDB.Proofs.Table.History
import TemporalDB.Proofs.Sql.Lexeme
import TemporalDB.Proofs.Sql.Derivation
import TemporalDB.Proofs.Sql.Display
import TemporalDB.Proofs.Sql.WellFormed
import TemporalDB.Proofs.Sql.SchemaText
import TemporalDB.Proofs.Pipeline.Handles
import TemporalDB.Proofs.Pipeline.Healing
import TemporalDB.Proofs.Pipeline.Succession
import TemporalDB.Proofs.Decimal.Numeral
import TemporalDB.Proofs.Listing.Explanation
import TemporalDB.Proofs.Database.Opening
import TemporalDB.Proofs.Table.Commuting
import TemporalDB.Proofs.BuildCache.Footprint
import TemporalDB.Proofs.Clock
import TemporalDB.Proofs.Execution.Indexing
import TemporalDB.Proofs.Execution.Inhabitants
import TemporalDB.Proofs.Sql.Coverage
import TemporalDB.Proofs.Compiler
