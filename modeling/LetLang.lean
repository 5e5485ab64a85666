import LetLang.Syntax.Equality
import LetLang.Syntax.Outline
import LetLang.Main
import LetLang.Proofs.Erasure
import LetLang.Proofs.Steps
import LetLang.Proofs.Spelling
import LetLang.Proofs.Scanning
import LetLang.Proofs.Tokenization
import LetLang.Proofs.Printed
import LetLang.Proofs.Reading
import LetLang.Proofs.RoundTrip
import LetLang.Proofs.Acceptance
import LetLang.Proofs.StoredTokens
import LetLang.Proofs.Confinement
import LetLang.Proofs.Reprint
import LetLang.Proofs.Likeness
import LetLang.Proofs.Reachability
import LetLang.Proofs.Seams
import LetLang.Proofs.Lines
import LetLang.Proofs.Pieces
import LetLang.Proofs.Contracts
import LetLang.Proofs.Returns
import LetLang.Proofs.Parts
import LetLang.Proofs.ErrorValues
import LetLang.Proofs.Passages
import LetLang.Proofs.Progress
import LetLang.Proofs.Diagnosis
import LetLang.Proofs.Blame
import LetLang.Proofs.Truthfulness
import LetLang.Proofs.Preservation
import LetLang.Proofs.Inline
import LetLang.Proofs.Framing
import LetLang.Proofs.Rejections
import LetLang.Proofs.Layout
import LetLang.Proofs.History
import LetLang.Proofs.Recording
import LetLang.Proofs.Scopes
import LetLang.Proofs.Exactness
import LetLang.Proofs.Observation
import LetLang.Proofs.Nesting
import LetLang.Proofs.Grouping
import LetLang.Proofs.Provenance
import LetLang.Proofs.ReadBack
import LetLang.Proofs.Exchange
import LetLang.Proofs.Blocks
import LetLang.Proofs.Recovery
import LetLang.Proofs.Edits
import LetLang.Proofs.Places
import LetLang.Proofs.Semicolons
import LetLang.Proofs.Overlooking
import LetLang.Proofs.Unmentioned
