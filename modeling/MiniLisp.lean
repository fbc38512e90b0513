import MiniLisp.Console.Completion
import MiniLisp.Console.Highlight
import MiniLisp.CountedList
import MiniLisp.Main
import MiniLisp.Proofs.Reader.Derivation
import MiniLisp.Proofs.Reader.RoundTrip
import MiniLisp.Proofs.Eval.Frames
import MiniLisp.Proofs.Value.Canonical
import MiniLisp.Proofs.Value.Equality
import MiniLisp.Proofs.Value.Neighbours
import MiniLisp.Proofs.Reader.Completion
import MiniLisp.Proofs.Reader.Nesting
import MiniLisp.Proofs.Console.Validation
import MiniLisp.Proofs.Eval.Definitions
import MiniLisp.Proofs.Session.Lines
import MiniLisp.Proofs.Eval.Closures
import MiniLisp.Proofs.Eval.Coupling
import MiniLisp.Proofs.Eval.FailedWrites
import MiniLisp.Proofs.Eval.Unmentioned
import MiniLisp.Proofs.Console.MultilineRead
import MiniLisp.Proofs.Token.Joins
import MiniLisp.Proofs.Eval.Depth
import MiniLisp.Proofs.Session.Sequences
import MiniLisp.Proofs.Token.Layout
import MiniLisp.Proofs.Session.Comparisons
import MiniLisp.Proofs.Session.Data
import MiniLisp.Proofs.Console.Agreement
import MiniLisp.Proofs.Scope.Bound
import MiniLisp.Proofs.Scope.Outward
import MiniLisp.Proofs.Console.OutputLines
import MiniLisp.Proofs.Reader.Reprinted
import MiniLisp.Proofs.Console.SameAnswers
import MiniLisp.Proofs.Number.Division
import MiniLisp.Proofs.Eval.Calls
import MiniLisp.Proofs.Value.Lookup
import MiniLisp.Proofs.Reader.Places
import MiniLisp.Proofs.Eval.MapLiterals
import MiniLisp.Proofs.Eval.WithoutClosures
import MiniLisp.Proofs.Value.Walk
import MiniLisp.Proofs.Console.Painting
import MiniLisp.Proofs.Text.ByteOrder
import MiniLisp.Proofs.Number.Totals
import MiniLisp.Proofs.Eval.Parameters
import MiniLisp.Proofs.Console.CompletedNames
import MiniLisp.Proofs.Reader.Prefixes
import MiniLisp.Proofs.Reader.Numerals
import MiniLisp.Proofs.Reader.ErrorPlaces
import MiniLisp.Proofs.Reader.OddLiterals
import MiniLisp.Proofs.Token.Literals
import MiniLisp.Proofs.Storage.Lists
import MiniLisp.Proofs.Storage.Clones
