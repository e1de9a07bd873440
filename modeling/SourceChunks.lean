import SourceChunks.Grammar.ConfigFile
import SourceChunks.Main
import SourceChunks.Proofs.Arena.TreeArena
import SourceChunks.Proofs.CompleteRun
import SourceChunks.Proofs.Outline.Defined
import SourceChunks.Proofs.Walk.Recursion
import SourceChunks.Proofs.Walk.Deliveries
import SourceChunks.Proofs.Walk.CommentOrder
import SourceChunks.Proofs.Comment.CoalescedTree
import SourceChunks.Proofs.Arena.Tidy
import SourceChunks.Proofs.Comment.Reservation
import SourceChunks.Proofs.Comment.Coalescing
import SourceChunks.Proofs.Arena.Layout
import SourceChunks.Proofs.Walk.Definitions
import SourceChunks.Proofs.Comment.FixedPoint
import SourceChunks.Proofs.Walk.Interruption
import SourceChunks.Proofs.Walk.Lossless
import SourceChunks.Proofs.Walk.Repacking
import SourceChunks.Proofs.Walk.Budget
import SourceChunks.Arena.ParseCopy
import SourceChunks.Proofs.Arena.Numbering
import SourceChunks.Proofs.Arena.ParseCopy
import SourceChunks.Proofs.Comment.Conservation
import SourceChunks.Proofs.Calculator.Steady
import SourceChunks.Proofs.CommandLine.Files
import SourceChunks.Proofs.Json.RoundTrip
import SourceChunks.Proofs.CommandLine.Output
import SourceChunks.Proofs.Calculator.Costs
import SourceChunks.Proofs.CommandLine.Obstacles
import SourceChunks.Proofs.CommandLine.Totals
import SourceChunks.Proofs.Text.NormalName
import SourceChunks.Proofs.Calculator.Registry
import SourceChunks.Proofs.Grammar.Profiles
import SourceChunks.Proofs.Grammar.Languages
import SourceChunks.Proofs.Outline.Splicing
import SourceChunks.Proofs.Walk.DocumentOrder
import SourceChunks.Proofs.Comment.Packing
import SourceChunks.Proofs.Walk.CommentCosts
import SourceChunks.Proofs.Text.Thinning
import SourceChunks.Proofs.Outline.Pruning
import SourceChunks.Proofs.Text.BlankRuns
import SourceChunks.Proofs.Text.Decoding
import SourceChunks.Proofs.Walk.Rows
import SourceChunks.Proofs.Text.Numeral
import SourceChunks.Proofs.Settings
import SourceChunks.Proofs.Outline.Length
import SourceChunks.Grammar.Session
