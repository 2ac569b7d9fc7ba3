import PlanSql.Main
import PlanSql.Proofs.Numbering
import PlanSql.Proofs.ConstantText
import PlanSql.Proofs.CompiledPlan
import PlanSql.Proofs.PlanText
import PlanSql.Proofs.MutationText
import PlanSql.Proofs.FirstFault
import PlanSql.Proofs.DelimitedText
import PlanSql.Proofs.UniqueReading
import PlanSql.Proofs.ColumnScope
import PlanSql.Proofs.PartitionRows
import PlanSql.Proofs.ArrayBinding
import PlanSql.Proofs.FieldHistory
import PlanSql.Proofs.RecordSequence
import PlanSql.Proofs.CallHistory
import PlanSql.Proofs.ParameterChoice
import PlanSql.Proofs.RankColumns
import PlanSql.Proofs.NumberedReading
import PlanSql.Proofs.StoredPlan
import PlanSql.Proofs.DeclaredType
import PlanSql.Proofs.FieldLookup
import PlanSql.Proofs.FirstRow
import PlanSql.Proofs.ByteScan
import PlanSql.Proofs.ScannedPieces
import PlanSql.Proofs.RecordObject
import PlanSql.Proofs.TableCells
import PlanSql.Proofs.ArrayLiteral
import PlanSql.Proofs.ArrayConversion
import PlanSql.Proofs.TypedAccess
import PlanSql.Proofs.QuotedNames
import PlanSql.Proofs.UnmappedColumn
import PlanSql.Proofs.IntervalReading
import PlanSql.Proofs.IntervalStyle
import PlanSql.Proofs.WordReading
