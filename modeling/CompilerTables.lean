import CompilerTables.CommandLine.Arguments
import CompilerTables.CommandLine.Check
import CompilerTables.Description.Basic
import CompilerTables.Description.Names
import CompilerTables.Description.Parts
import CompilerTables.Description.Reading
import CompilerTables.Digraph
import CompilerTables.Index
import CompilerTables.Json.Reader
import CompilerTables.Json.Record
import CompilerTables.Json.Value
import CompilerTables.Log
import CompilerTables.Main
import CompilerTables.Parsing.Automaton
import CompilerTables.Parsing.Construction
import CompilerTables.Parsing.Grammar
import CompilerTables.Parsing.Production
import CompilerTables.Parsing.Reachability
import CompilerTables.Parsing.Symbol
import CompilerTables.Parsing.Table
import CompilerTables.Parsing.TransitionGraph
import CompilerTables.Proofs.CommandLine.Verdict
import CompilerTables.Proofs.Description.Acceptance
import CompilerTables.Proofs.Description.Demands
import CompilerTables.Proofs.Description.Faults
import CompilerTables.Proofs.Description.Injectivity
import CompilerTables.Proofs.Description.Resolution
import CompilerTables.Proofs.Description.RoundTrip
import CompilerTables.Proofs.Description.Writing
import CompilerTables.Proofs.Digraph
import CompilerTables.Proofs.DigraphText
import CompilerTables.Proofs.FiniteMap
import CompilerTables.Proofs.Json.Reading
import CompilerTables.Proofs.Json.Spelling
import CompilerTables.Proofs.Json.Texts
import CompilerTables.Proofs.Json.Writing
import CompilerTables.Proofs.Outcome
import CompilerTables.Proofs.Parsing.ActionCells
import CompilerTables.Proofs.Parsing.AutomatonFaults
import CompilerTables.Proofs.Parsing.BuildLog
import CompilerTables.Proofs.Parsing.Cells
import CompilerTables.Proofs.Parsing.Closure
import CompilerTables.Proofs.Parsing.ConflictCounts
import CompilerTables.Proofs.Parsing.Conflicts
import CompilerTables.Proofs.Parsing.Demands
import CompilerTables.Proofs.Parsing.Filling
import CompilerTables.Proofs.Parsing.Gotos
import CompilerTables.Proofs.Parsing.GrammarFaults
import CompilerTables.Proofs.Parsing.Mirroring
import CompilerTables.Proofs.Parsing.Numbering
import CompilerTables.Proofs.Parsing.Obstacles
import CompilerTables.Proofs.Parsing.Occurrences
import CompilerTables.Proofs.Parsing.ProductionIndex
import CompilerTables.Proofs.Parsing.Reachability
import CompilerTables.Proofs.Parsing.Rearrangement
import CompilerTables.Proofs.Parsing.Registration
import CompilerTables.Proofs.Parsing.RowStore
import CompilerTables.Proofs.Parsing.Rows
import CompilerTables.Proofs.Parsing.SearchOrder
import CompilerTables.Proofs.Parsing.TableEquality
import CompilerTables.Proofs.Parsing.TransitionGraph
import CompilerTables.Proofs.Parsing.Transitions
import CompilerTables.Proofs.Parsing.Validation
import CompilerTables.Proofs.Scoping.Accesses
import CompilerTables.Proofs.Scoping.Allocation
import CompilerTables.Proofs.Scoping.Blocks
import CompilerTables.Proofs.Scoping.DataSpace
import CompilerTables.Proofs.Scoping.DeclarationOrder
import CompilerTables.Proofs.Scoping.Environments
import CompilerTables.Proofs.Scoping.History
import CompilerTables.Proofs.Scoping.Hooks
import CompilerTables.Proofs.Scoping.Nesting
import CompilerTables.Proofs.Scoping.Overflow
import CompilerTables.Proofs.Scoping.Refusals
import CompilerTables.Proofs.Scoping.Requests
import CompilerTables.Proofs.Scoping.ScopeTree
import CompilerTables.Proofs.Scoping.Trace
import CompilerTables.Scoping.Dump
import CompilerTables.Scoping.Entry
import CompilerTables.Scoping.ScopeTree
import CompilerTables.Scoping.Session
import CompilerTables.Scoping.SymbolTable
import CompilerTables.Scoping.Word
import CompilerTables.Text.Glyph
import CompilerTables.Text.Quoted
import CompilerTables.Text.Visible
