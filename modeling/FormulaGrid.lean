import FormulaGrid.Main
import FormulaGrid.Files.Tree
import FormulaGrid.Proofs.Address.Label
import FormulaGrid.Proofs.Csv.Content
import FormulaGrid.Proofs.Csv.Grammar
import FormulaGrid.Proofs.Csv.Guard
import FormulaGrid.Proofs.Csv.Reload
import FormulaGrid.Proofs.Document.Display
import FormulaGrid.Proofs.Document.Histories
import FormulaGrid.Proofs.Document.Locality
import FormulaGrid.Proofs.Document.Lookups
import FormulaGrid.Proofs.Document.Ranges
import FormulaGrid.Proofs.Document.Texts
import FormulaGrid.Proofs.Evaluation.BlockSums
import FormulaGrid.Proofs.Evaluation.ClosedLoops
import FormulaGrid.Proofs.Evaluation.DepthLimit
import FormulaGrid.Proofs.Evaluation.Histories
import FormulaGrid.Proofs.Evaluation.Loops
import FormulaGrid.Proofs.Evaluation.Loose
import FormulaGrid.Proofs.Evaluation.SumLoops
import FormulaGrid.Proofs.Formula.Arithmetic
import FormulaGrid.Proofs.Markdown
