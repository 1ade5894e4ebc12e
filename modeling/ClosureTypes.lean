import ClosureTypes.Annotator
import ClosureTypes.Graph.Build
import ClosureTypes.LogSettings
import ClosureTypes.Options.Reader
import ClosureTypes.Options.Writer
import ClosureTypes.Proofs.Aliases
import ClosureTypes.Proofs.Building
import ClosureTypes.Proofs.Course
import ClosureTypes.Proofs.Delimited
import ClosureTypes.Proofs.DescriptionDepth
import ClosureTypes.Proofs.Descriptions
import ClosureTypes.Proofs.Faults
import ClosureTypes.Proofs.Growth
import ClosureTypes.Proofs.Hidden
import ClosureTypes.Proofs.Kinds
import ClosureTypes.Proofs.Layouts
import ClosureTypes.Proofs.LibraryPaths
import ClosureTypes.Proofs.Limit
import ClosureTypes.Proofs.LiteralShapes
import ClosureTypes.Proofs.Loss
import ClosureTypes.Proofs.Members
import ClosureTypes.Proofs.Once
import ClosureTypes.Proofs.OptionsText
import ClosureTypes.Proofs.Pieces
import ClosureTypes.Proofs.QualifiedNames
import ClosureTypes.Proofs.Redeclared
import ClosureTypes.Proofs.Unions
import ClosureTypes.Proofs.UnknownOwners
import ClosureTypes.Proofs.UnknownSymbols
import ClosureTypes.Proofs.Words
