import RulesText.Main
import RulesText.Proofs.Gap.EndPositions
import RulesText.Proofs.Gap.SuffixClasses
import RulesText.Proofs.Gap.SuffixExtension
import RulesText.Proofs.Gap.SuffixConstruction
import RulesText.Proofs.Gap.SuffixCounts
import RulesText.Proofs.Gap.SuffixFactors
import RulesText.Proofs.Gap.Occurrences
import RulesText.Proofs.Gap.WordNumbers
import RulesText.Proofs.Text.Words
import RulesText.Proofs.Text.Slices
import RulesText.Proofs.Tally
import RulesText.Proofs.Template
import RulesText.Proofs.Gap.MaximalRepeats
import RulesText.Proofs.Gap.RepeatStates
import RulesText.Proofs.Gap.Repeats
import RulesText.Proofs.Gap.WholeGaps
import RulesText.Proofs.Gap.Runs
import RulesText.Proofs.Gap.Excerpts
import RulesText.Proofs.Cursor
import RulesText.Proofs.Regex.Matching
import RulesText.Proofs.Regex.Soundness
import RulesText.Proofs.Regex.Obstacles
import RulesText.Proofs.Regex.Completeness
import RulesText.Proofs.Regex.Runs
import RulesText.Proofs.Regex.Search
import RulesText.Proofs.Regex.GroupSpans
import RulesText.Proofs.Regex.Ways
import RulesText.Proofs.Regex.Priority
import RulesText.Proofs.Regex.Isolation
import RulesText.Proofs.Regex.Captured
import RulesText.Proofs.Regex.Alternatives
import RulesText.Proofs.Regex.Escapes
import RulesText.Proofs.Regex.Classes
import RulesText.Proofs.Regex.Lexemes
import RulesText.Proofs.Regex.Fragments
import RulesText.Proofs.Regex.Composition
import RulesText.Proofs.Regex.Reading
import RulesText.Proofs.Regex.Widening
import RulesText.Proofs.Regex.GroupBodies
import RulesText.Proofs.Pattern.Compiled
import RulesText.Proofs.Pattern.Outcome
import RulesText.Proofs.Pattern.Faults
import RulesText.Proofs.Pattern.Acceptance
import RulesText.Proofs.Pattern.Markers
import RulesText.Proofs.Pattern.Pieces
import RulesText.Proofs.Pattern.Alternation
import RulesText.Proofs.Pattern.Groups
import RulesText.Proofs.Tokenizer.Unmatched
import RulesText.Proofs.Lexicon
import RulesText.Proofs.LexiconEntry
import RulesText.Proofs.Pattern.Independence
import RulesText.Proofs.Pattern.Validity
import RulesText.Proofs.Capture.Assembly
import RulesText.Proofs.Capture.Trees
import RulesText.Proofs.Capture.Shift
import RulesText.Proofs.Capture.Faithful
import RulesText.Proofs.Capture.Nesting
import RulesText.Proofs.Capture.LoyaltyCost
import RulesText.Proofs.Capture.Checks
import RulesText.Proofs.Capture.Entries
import RulesText.Proofs.Capture.Members
import RulesText.Proofs.Tokenizer.Reading
import RulesText.Proofs.Tokenizer.Tokenization
import RulesText.Proofs.Tokenizer.ReadBack
import RulesText.Proofs.Tokenizer.Standard
import RulesText.Proofs.Analysis.Provenance
import RulesText.Proofs.Pattern.GroupNames
import RulesText.Proofs.Coverage
import RulesText.Proofs.Tokenizer.Coverage
import RulesText.Proofs.Gap.Candidates
import RulesText.Proofs.Gap.Reordering
import RulesText.Proofs.Analysis.Reordering
import RulesText.Proofs.Analysis.Tallies
import RulesText.Proofs.Pattern.Slots
import RulesText.Proofs.Pattern.Choices
import RulesText.Proofs.Pattern.Spelling
import RulesText.Proofs.Tokenizer.RoundTrip
import RulesText.Proofs.Regex.Depth
import RulesText.Proofs.Text.Wording
import RulesText.Proofs.Pattern.FieldTexts
import RulesText.Proofs.Pattern.Joining
import RulesText.Proofs.Pattern.OuterEdges
import RulesText.Proofs.Regex.WordEnds
import RulesText.Proofs.Tokenizer.WordEnds
import RulesText.Proofs.Pattern.LongestForms
import RulesText.Proofs.Card.Remnants
import RulesText.Proofs.Pattern.Cycles
import RulesText.Proofs.Capture.Depth
import RulesText.Proofs.Gap.MaximalRuns
import RulesText.Proofs.Template.Slices
import RulesText.Proofs.Tokenizer.Order
import RulesText.Proofs.Report.Corpus
import RulesText.Proofs.Report.Sample
import RulesText.Proofs.Gap.SuffixBounds
import RulesText.Proofs.Pattern.Qualifying
