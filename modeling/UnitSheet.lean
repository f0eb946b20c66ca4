import UnitSheet.Main
import UnitSheet.Proofs.Acceptance
import UnitSheet.Proofs.Linked
import UnitSheet.Proofs.Settled
import UnitSheet.Proofs.Totality
import UnitSheet.Proofs.Cycles
import UnitSheet.Proofs.Correspondence
import UnitSheet.Proofs.Rearrangement
import UnitSheet.Proofs.Isolation
import UnitSheet.Proofs.Propagation
import UnitSheet.Proofs.Circular
import UnitSheet.Proofs.Workbooks
import UnitSheet.Proofs.History
import UnitSheet.Proofs.Reduced
import UnitSheet.Proofs.Magnitude
import UnitSheet.Proofs.Exact
import UnitSheet.Proofs.Usable
import UnitSheet.Proofs.Numerals
import UnitSheet.Proofs.Spelling
import UnitSheet.Proofs.ReadBack
import UnitSheet.Proofs.Compatibility
import UnitSheet.Proofs.Scanning
import UnitSheet.Proofs.Highlighting
import UnitSheet.Proofs.UnitFlow
import UnitSheet.Proofs.Products
import UnitSheet.Proofs.Merging
import UnitSheet.Proofs.Brackets
import UnitSheet.Proofs.BracketUnits
import UnitSheet.Proofs.Endings
import UnitSheet.Proofs.Strictness
import UnitSheet.Proofs.Spacing
import UnitSheet.Proofs.Places
import UnitSheet.Proofs.Interpretation
import UnitSheet.Proofs.SignedSums
import UnitSheet.Proofs.Reordering
import UnitSheet.Proofs.UnitText
import UnitSheet.Proofs.Parentheses
import UnitSheet.Proofs.TypedNumbers
import UnitSheet.Proofs.Postorder
import UnitSheet.Proofs.Marks
