import Tariff.Main
import Tariff.Synthesis.Synthesizer
import Tariff.Store.Session
import Tariff.Override
import Tariff.Proofs.Text.Lower
import Tariff.Proofs.Text.Squeeze
import Tariff.Proofs.Text.Rewriting
import Tariff.Proofs.Formula.Names
import Tariff.Proofs.Formula.Grammar
import Tariff.Proofs.Formula.Pieces
import Tariff.Proofs.Formula.Evaluable
import Tariff.Proofs.Formula.Meaning
import Tariff.Proofs.Formula.Admitted
import Tariff.Proofs.Formula.Products
import Tariff.Proofs.Formula.Faithful
import Tariff.Proofs.Rate.Readers
import Tariff.Proofs.Rate.Unambiguous
import Tariff.Proofs.Rate.Abbreviations
import Tariff.Proofs.Rate.Spelling
import Tariff.Proofs.Rate.Canonical
import Tariff.Proofs.Rate.Numerals
import Tariff.Proofs.Rate.Percentages
import Tariff.Proofs.Rate.Specific
import Tariff.Proofs.Rate.Compound
import Tariff.Proofs.Rate.Hints
import Tariff.Proofs.Rate.Exact
import Tariff.Proofs.Rate.Duty
import Tariff.Proofs.Rate.Safety
import Tariff.Proofs.Schedule.Links
import Tariff.Proofs.Schedule.Encoded
import Tariff.Proofs.Adjustment.Percentages
import Tariff.Proofs.Adjustment.Selection
import Tariff.Proofs.Adjustment.Determined
import Tariff.Proofs.Adjustment.WellFormed
import Tariff.Proofs.Override
import Tariff.Proofs.Synthesis.Batched
import Tariff.Proofs.Store.Live
import Tariff.Proofs.Store.Atomic
import Tariff.Proofs.Store.Guarded
import Tariff.Proofs.Store.Index
import Tariff.Proofs.Store.Frame
import Tariff.Proofs.Store.Duplicates
import Tariff.Proofs.Store.Idempotence
import Tariff.Proofs.Store.Convergence
import Tariff.Proofs.Store.UpToDate
import Tariff.Proofs.Store.Explicit
import Tariff.Proofs.Store.Persistence
import Tariff.Proofs.Generation.Rows
import Tariff.Proofs.Generation.RowByRow
import Tariff.Proofs.Generation.Unwrapped
import Tariff.Proofs.Generation.Prompt
import Tariff.Proofs.Generation.Resolved
import Tariff.Proofs.Generation.Bulk
import Tariff.Proofs.Generation.Evaluable
import Tariff.Proofs.Compilation.Trusted
import Tariff.Proofs.Compilation.Ledger
import Tariff.Proofs.Compilation.Agreement
