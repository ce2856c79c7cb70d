import FrontEnd.Main
import FrontEnd.UpToLast
import FrontEnd.Scopes.Change
import FrontEnd.Library.Store
import FrontEnd.Proofs.Grammar.Spelling
import FrontEnd.Proofs.Grammar.Grammatical
import FrontEnd.Proofs.Grammar.Decimals
import FrontEnd.Proofs.Grammar.Layout
import FrontEnd.Proofs.Grammar.Lexical
import FrontEnd.Proofs.Grammar.WellFormed
import FrontEnd.Proofs.Grammar.Recast
import FrontEnd.Proofs.Grammar.Outline
import FrontEnd.Proofs.Grammar.Solid
import FrontEnd.Proofs.Grammar.SolidRegions
import FrontEnd.Proofs.Grammar.Unmoved
import FrontEnd.Proofs.Grammar.Derivation
import FrontEnd.Proofs.Grammar.Surface
import FrontEnd.Proofs.Grammar.Patched
import FrontEnd.Proofs.Grammar.Named
import FrontEnd.Proofs.Grammar.Lacking
import FrontEnd.Proofs.Lexing.Classes
import FrontEnd.Proofs.Lexing.Scan
import FrontEnd.Proofs.Lexing.Tokens
import FrontEnd.Proofs.Lexing.Lexemes
import FrontEnd.Proofs.Lexing.Tiling
import FrontEnd.Proofs.Lexing.Counters
import FrontEnd.Proofs.Lexing.Errors
import FrontEnd.Proofs.Lexing.Resumption
import FrontEnd.Proofs.Lexing.Blanking
import FrontEnd.Proofs.Parsing.Passes
import FrontEnd.Proofs.Parsing.Reads
import FrontEnd.Proofs.Parsing.ReadsExpression
import FrontEnd.Proofs.Parsing.ReadsStatement
import FrontEnd.Proofs.Parsing.Sound
import FrontEnd.Proofs.Parsing.SoundExpression
import FrontEnd.Proofs.Parsing.SoundStatement
import FrontEnd.Proofs.Parsing.Arrange
import FrontEnd.Proofs.Parsing.RoundTrip
import FrontEnd.Proofs.Parsing.Simulation
import FrontEnd.Proofs.Parsing.SimulationExpression
import FrontEnd.Proofs.Parsing.SimulationStatement
import FrontEnd.Proofs.Parsing.Retold
import FrontEnd.Proofs.Parsing.Safe
import FrontEnd.Proofs.Parsing.SafeExpression
import FrontEnd.Proofs.Parsing.SafeStatement
import FrontEnd.Proofs.Parsing.Cursor
import FrontEnd.Proofs.Parsing.Ending
import FrontEnd.Proofs.Parsing.Builds
import FrontEnd.Proofs.Parsing.BuildsExpression
import FrontEnd.Proofs.Parsing.BuildsStatement
import FrontEnd.Proofs.Parsing.Stays
import FrontEnd.Proofs.Parsing.StaysExpression
import FrontEnd.Proofs.Parsing.StaysStatement
import FrontEnd.Proofs.Parsing.Placeless
import FrontEnd.Proofs.Parsing.Recovery
import FrontEnd.Proofs.Parsing.Places
import FrontEnd.Proofs.Parsing.PlacesExpression
import FrontEnd.Proofs.Parsing.PlacesStatement
import FrontEnd.Proofs.Parsing.Invariants
import FrontEnd.Proofs.Parsing.Completes
import FrontEnd.Proofs.Parsing.CompletesExpression
import FrontEnd.Proofs.Parsing.CompletesStatement
import FrontEnd.Proofs.Parsing.Ledger
import FrontEnd.Proofs.Parsing.Once
import FrontEnd.Proofs.Parsing.OnceExpression
import FrontEnd.Proofs.Parsing.OnceStatement
import FrontEnd.Proofs.Parsing.Crosses
import FrontEnd.Proofs.Parsing.Repeats
import FrontEnd.Proofs.Parsing.RepeatsExpression
import FrontEnd.Proofs.Parsing.RepeatsStatement
import FrontEnd.Proofs.Parsing.Misses
import FrontEnd.Proofs.Parsing.MissesValue
import FrontEnd.Proofs.Parsing.MissesStatement
import FrontEnd.Proofs.Parsing.IntegerLiterals
import FrontEnd.Proofs.Typing.Found
import FrontEnd.Proofs.Typing.Occurrences
import FrontEnd.Proofs.Typing.Resolution
import FrontEnd.Proofs.Typing.Rules
import FrontEnd.Proofs.Typing.Judgements
import FrontEnd.Proofs.Typing.Surroundings
import FrontEnd.Proofs.Typing.Values
import FrontEnd.Proofs.Typing.Verdict
import FrontEnd.Proofs.Typing.Registration
import FrontEnd.Proofs.Typing.Assertions
import FrontEnd.Proofs.Typing.ErrorKinds
import FrontEnd.Proofs.Typing.Distinct
import FrontEnd.Proofs.Typing.DistinctExpression
import FrontEnd.Proofs.Typing.DistinctStatement
import FrontEnd.Proofs.Typing.Globals
import FrontEnd.Proofs.Typing.Recast
import FrontEnd.Proofs.Typing.Exchange
import FrontEnd.Proofs.Typing.LibraryCalls
import FrontEnd.Proofs.Typing.Framing
import FrontEnd.Proofs.Typing.Fading
import FrontEnd.Proofs.Typing.Matching
import FrontEnd.Proofs.Typing.Patching
import FrontEnd.Proofs.Typing.Lookups
import FrontEnd.Proofs.Typing.Spared
import FrontEnd.Proofs.Typing.Undeclared
import FrontEnd.Proofs.Typing.Enclosures
import FrontEnd.Proofs.Typing.Equality
import FrontEnd.Proofs.Listing.Entries
import FrontEnd.Proofs.Listing.Quoted
import FrontEnd.Proofs.Listing.Details
import FrontEnd.Proofs.Listing.Expressions
import FrontEnd.Proofs.Listing.Statements
import FrontEnd.Proofs.Listing.Programs
import FrontEnd.Proofs.Listing.Symbols
import FrontEnd.Proofs.Reading
import FrontEnd.Proofs.Headers
import FrontEnd.Proofs.Faults
import FrontEnd.Proofs.Relayout
import FrontEnd.Proofs.Placement
import FrontEnd.Proofs.Acceptance
import FrontEnd.Proofs.IllegalCharacters
import FrontEnd.Proofs.CleanBeginnings
import FrontEnd.Proofs.MissingValues
import FrontEnd.Proofs.Mistakes
import FrontEnd.Proofs.Diagnostics
import FrontEnd.Proofs.Printing
import FrontEnd.Proofs.TypeTexts
import FrontEnd.Proofs.Comments
import FrontEnd.Proofs.Conversions
import FrontEnd.Proofs.EndMarks
import FrontEnd.Proofs.ScopeHistories
import FrontEnd.Proofs.LibraryStore
import FrontEnd.Proofs.Sources
