import RestQuery.Cli.Run
import RestQuery.Main
import RestQuery.Select.Json
import RestQuery.Proofs.Text.Numerals
import RestQuery.Proofs.Keyed
import RestQuery.Proofs.Operator.Spelling
import RestQuery.Proofs.Select.RoundTrip
import RestQuery.Proofs.Frame
import RestQuery.Proofs.Filter.Entries
import RestQuery.Proofs.Query.Groups
import RestQuery.Proofs.Filter.WellFormed
import RestQuery.Proofs.Query.Conditions
import RestQuery.Proofs.Query.WellFormed
import RestQuery.Proofs.Ast.Filters
import RestQuery.Proofs.Ast.WellFormed
import RestQuery.Proofs.Query.Aliases
import RestQuery.Proofs.Ast.Filled
import RestQuery.Proofs.Value.Balanced
import RestQuery.Proofs.Query.Trees
import RestQuery.Proofs.Select.Json
import RestQuery.Proofs.Operator.Operands
import RestQuery.Proofs.Value.Elements
import RestQuery.Proofs.Interleaving
import RestQuery.Proofs.Select.Depth
import RestQuery.Proofs.Select.Written
import RestQuery.Proofs.Filter.Retained
import RestQuery.Proofs.Refused
import RestQuery.Proofs.Order.RoundTrip
import RestQuery.Proofs.Http.Status
import RestQuery.Proofs.Query.Arguments
import RestQuery.Proofs.Select.Positions
import RestQuery.Proofs.Value.Scalars
import RestQuery.Proofs.Query.Targets
import RestQuery.Proofs.Select.Lookup
import RestQuery.Proofs.Query.Parents
import RestQuery.Proofs.Query.Cuts
