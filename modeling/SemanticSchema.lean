import SemanticSchema.Finish
import SemanticSchema.EnumType.Lookup
import SemanticSchema.Diagnostic.Render
import SemanticSchema.Interchange.Forms
import SemanticSchema.Name.Order
import SemanticSchema.References
import SemanticSchema.Registry.Qualify
import SemanticSchema.Version
import SemanticSchema.Proofs.Registry.Body
import SemanticSchema.Proofs.Registry.Slots
import SemanticSchema.Proofs.Registry.Resolve
import SemanticSchema.Proofs.Registry.Run
import SemanticSchema.Proofs.Registry.Growth
import SemanticSchema.Proofs.Registry.Refusal
import SemanticSchema.Proofs.Registry.Records
import SemanticSchema.Proofs.Registry.Indexed
import SemanticSchema.Proofs.Builder.Clauses
import SemanticSchema.Proofs.Builder.Declare
import SemanticSchema.Proofs.Builder.Order
import SemanticSchema.Proofs.Builder.Run
import SemanticSchema.Proofs.Constraint.WellFormed
import SemanticSchema.Proofs.Registry.Ends
import SemanticSchema.Proofs.Registry.Supertypes
import SemanticSchema.Proofs.Constraint.Imported
import SemanticSchema.Proofs.Constraint.Offers
import SemanticSchema.Proofs.Builder.Attached
import SemanticSchema.Proofs.Document.Cycles
import SemanticSchema.Proofs.Document.Soundness
import SemanticSchema.Proofs.Registry.Unresolved
import SemanticSchema.Proofs.Registry.Imports
import SemanticSchema.Proofs.Object.Extensions
import SemanticSchema.Proofs.Constraint.Decorations
import SemanticSchema.Proofs.Builder.Verdict
import SemanticSchema.Proofs.Builder.ServiceTable
import SemanticSchema.Proofs.Registry.InheritanceReports
import SemanticSchema.Proofs.Registry.Lineage
import SemanticSchema.Proofs.Registry.Catalogue
import SemanticSchema.Proofs.Registry.Shadowing
import SemanticSchema.Proofs.Registry.TypedFields
import SemanticSchema.Proofs.Source.Lines
import SemanticSchema.Proofs.Enum.Lookups
import SemanticSchema.Proofs.Enum.Extensions
import SemanticSchema.Proofs.Object.Merge
import SemanticSchema.Proofs.Registry.Spelling
import SemanticSchema.Proofs.Constraint.Named
import SemanticSchema.Proofs.Constraint.JoinedPaths
import SemanticSchema.Proofs.Diagnostic.Arithmetic
import SemanticSchema.Proofs.Registry.ShortNames
import SemanticSchema.Proofs.Constraint.Built
import SemanticSchema.Proofs.Object.Places
import SemanticSchema.Proofs.Object.Collapse
import SemanticSchema.Proofs.Literal.Quoted
import SemanticSchema.Proofs.Constraint.PropertyForm
import SemanticSchema.Proofs.Document.Lookups
import SemanticSchema.Proofs.Source.Partition
import SemanticSchema.Proofs.Source.Numbers
