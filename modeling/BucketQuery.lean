import BucketQuery.CommandLine
import BucketQuery.Files.Folder
import BucketQuery.Main
import BucketQuery.Section.Encode
import BucketQuery.Warehouse.Cell
import BucketQuery.Warehouse.Parameter
import BucketQuery.Warehouse.Run
import BucketQuery.Proofs.Compile.Columns
import BucketQuery.Proofs.Compile.Modes
import BucketQuery.Proofs.Double.Layout
import BucketQuery.Proofs.Sql.Scan
import BucketQuery.Proofs.Compile.Contained
import BucketQuery.Proofs.Compile.ValueFree
import BucketQuery.Proofs.Sql.Truth
import BucketQuery.Proofs.Sql.Lexeme
import BucketQuery.Proofs.Sql.Token
import BucketQuery.Proofs.Sql.Meaning
import BucketQuery.Proofs.Sql.Parser
import BucketQuery.Proofs.Sql.Read
import BucketQuery.Proofs.Sql.Clause
import BucketQuery.Proofs.Compile.Erase
import BucketQuery.Proofs.Compile.WhereText
import BucketQuery.Proofs.Compile.Places
import BucketQuery.Proofs.Compile.Account
import BucketQuery.Proofs.Compile.DateRange
import BucketQuery.Proofs.Compile.RawText
import BucketQuery.Proofs.Section.RoundTrip
import BucketQuery.Proofs.Compile.Reload
import BucketQuery.Proofs.Compile.Failure
import BucketQuery.Proofs.Compile.Conjunct
import BucketQuery.Proofs.Filter.Shapes
import BucketQuery.Proofs.Section.Registry
import BucketQuery.Proofs.Warehouse.Calls
import BucketQuery.Proofs.Compile.Idle
import BucketQuery.Proofs.Compile.KeyBound
import BucketQuery.Proofs.Compile.BoundOrder
import BucketQuery.Proofs.Compile.Forbidden
import BucketQuery.Proofs.Compile.Negation
import BucketQuery.Proofs.Compile.HalfFilled
import BucketQuery.Proofs.Compile.Placement
import BucketQuery.Proofs.Warehouse.Timestamp
import BucketQuery.Proofs.Compile.WholeNumber
import BucketQuery.Proofs.Warehouse.DayCell
import BucketQuery.Proofs.Calendar.Offset
import BucketQuery.Proofs.Section.File
import BucketQuery.Proofs.Section.Reread
import BucketQuery.Proofs.Compile.Shape
import BucketQuery.Proofs.CommandLine.Remarks
