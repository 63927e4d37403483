import NestedSql.Pool.Lending
import NestedSql.Proofs.Batches.Calls
import NestedSql.Proofs.Catalog.Collections
import NestedSql.Proofs.Catalog.Histories
import NestedSql.Proofs.Catalog.TypeNames
import NestedSql.Proofs.Catalog.Usable
import NestedSql.Proofs.Columns.Declared
import NestedSql.Proofs.Columns.Lookups
import NestedSql.Proofs.Columns.Uses
import NestedSql.Proofs.Documents.Decoding
import NestedSql.Proofs.Documents.GroupColumns
import NestedSql.Proofs.Documents.Runs
import NestedSql.Proofs.Faults.Filters
import NestedSql.Proofs.Faults.Requests
import NestedSql.Proofs.Influence.Compilation
import NestedSql.Proofs.Ordering.NewJoins
import NestedSql.Proofs.Pool.Loans
import NestedSql.Proofs.Pool.Precedence
import NestedSql.Proofs.Projection.Leaves
import NestedSql.Proofs.Projection.WideIntegers
import NestedSql.Proofs.Reading.Filters
import NestedSql.Proofs.Reading.Names
import NestedSql.Proofs.Scoping.Plans
import NestedSql.Proofs.Sorting.Groups
import NestedSql.Proofs.Sorting.Rows
import NestedSql.Proofs.Statistics.Variance
import NestedSql.Proofs.Support.FailsClosed
import NestedSql.Proofs.Text.ClosedStatements
import NestedSql.Proofs.Values.Fingerprints
import NestedSql.Proofs.Values.Parameters
import NestedSql.Proofs.Values.Placed
import NestedSql.Proofs.Wire.Canonical
import NestedSql.Proofs.Wire.Rewrites
import NestedSql.Proofs.Wire.Stored
import NestedSql.Server.LogNames
import NestedSql.Server.Routes
import NestedSql.Server.Settings
