import Libdef.Conversion.Session
import Libdef.Main
import Libdef.Proofs.Outcome
import Libdef.Proofs.Reading
import Libdef.Proofs.Survey
import Libdef.Proofs.Printing
import Libdef.Proofs.OnePass
import Libdef.Proofs.Filing
import Libdef.Proofs.Tour
import Libdef.Proofs.Resolution
import Libdef.Proofs.Sites
import Libdef.Proofs.Consistency
import Libdef.Proofs.Collection
import Libdef.Proofs.Totality
import Libdef.Proofs.Imports
import Libdef.Proofs.ImportTable
import Libdef.Proofs.Linking
import Libdef.Proofs.Declarators
import Libdef.Proofs.ImportSources
import Libdef.Proofs.ImportTargets
import Libdef.Proofs.Leaves
import Libdef.Proofs.Width
import Libdef.Proofs.Exports
import Libdef.Proofs.Content
import Libdef.Proofs.ExportBinding
import Libdef.Proofs.Interchange
import Libdef.Proofs.Rearrangement
import Libdef.Proofs.Growth
import Libdef.Proofs.Privacy
import Libdef.Proofs.Brackets
import Libdef.Proofs.Nesting
import Libdef.Proofs.Listing
import Libdef.Proofs.Stripping
import Libdef.Proofs.Bookkeeping
import Libdef.Proofs.Disk
import Libdef.Proofs.Completion
import Libdef.Proofs.Wrapping
import Libdef.Proofs.References
import Libdef.Proofs.Sorts
import Libdef.Proofs.Renaming
import Libdef.Proofs.Marks
import Libdef.Proofs.Degraded
import Libdef.Proofs.Warnings
import Libdef.Proofs.Figures
import Libdef.Proofs.Quotation
import Libdef.Proofs.Vocabularies
import Libdef.Proofs.DottedNamespace
import Libdef.Proofs.DottedName
import Libdef.Proofs.ModuleNames
import Libdef.Proofs.KindTable
import Libdef.Proofs.Parameters
import Libdef.Proofs.LineBreaks
import Libdef.Proofs.PrintedStrings
