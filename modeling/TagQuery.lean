import TagQuery.Text.Blank
import TagQuery.Text.Lowercase
import TagQuery.Text.Fold
import TagQuery.Text.Bytes
import TagQuery.Phrase.Words
import TagQuery.Query
import TagQuery.Plan.Compile
import TagQuery.Glob
import TagQuery.Options.Reader
import TagQuery.Searcher
import TagQuery.Workspace
import TagQuery.LogDirectory
import TagQuery.Proofs.PlanRun
import TagQuery.Proofs.StatementReading
import TagQuery.Proofs.StatementText
import TagQuery.Proofs.StatementMeaning
import TagQuery.Proofs.SearchAnswer
import TagQuery.Proofs.Meaning
import TagQuery.Proofs.Lowercase
import TagQuery.Proofs.Separation
import TagQuery.Proofs.WellFormed
import TagQuery.Proofs.Printing
import TagQuery.Proofs.Recall
import TagQuery.Proofs.SetAlgebra
import TagQuery.Proofs.Binding
import TagQuery.Proofs.PlanShape
import TagQuery.Proofs.Assembly
import TagQuery.Proofs.Recency
import TagQuery.Proofs.Strictness
import TagQuery.Proofs.Matching
import TagQuery.Proofs.Leniency
import TagQuery.Proofs.LetterCase
import TagQuery.Proofs.Retrieval
import TagQuery.Proofs.LostLetters
import TagQuery.Proofs.Limits
import TagQuery.Proofs.LineLength
import TagQuery.Proofs.OptionsText
import TagQuery.Proofs.Operations
import TagQuery.Proofs.Settings
import TagQuery.Proofs.Contents
import TagQuery.Proofs.PhraseMatch
import TagQuery.Proofs.Segments
import TagQuery.Proofs.PatternCode
import TagQuery.Proofs.WordPatterns
import TagQuery.Proofs.GlobExpression
import TagQuery.Proofs.GlobMatch
import TagQuery.Proofs.Spelling
import TagQuery.Proofs.Nesting
import TagQuery.Proofs.Compatibility
import TagQuery.Proofs.Atomicity
