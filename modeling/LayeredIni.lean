import LayeredIni.Proofs.Condition.Parser
import LayeredIni.Tree.Json
import LayeredIni.Tree.Same
import LayeredIni.Proofs.Context.Writing
import LayeredIni.Proofs.Tree.Overlay
import LayeredIni.Proofs.Context.Failure
import LayeredIni.Proofs.Context.Repetition
import LayeredIni.Proofs.Tree.Tidy
import LayeredIni.Proofs.Loader
import LayeredIni.Proofs.Context.Overriding
import LayeredIni.Proofs.Session
import LayeredIni.Proofs.Schema.Reordering
import LayeredIni.Proofs.Condition.Writing
import LayeredIni.Proofs.Context.Layout
import LayeredIni.Proofs.Context.Gathering
import LayeredIni.Proofs.Context.Skipping
import LayeredIni.Proofs.Context.Names
import LayeredIni.Proofs.Sources
import LayeredIni.Proofs.Header.Offsets
import LayeredIni.Proofs.Resolution
import LayeredIni.Proofs.Document.Growth
import LayeredIni.Proofs.Number.Integer
import LayeredIni.Proofs.Schema.Integers
import LayeredIni.Proofs.Schema.Records
import LayeredIni.Proofs.Congruence
import LayeredIni.Proofs.Condition.Pieces
import LayeredIni.Proofs.Condition.Comparison
import LayeredIni.Proofs.Schema.Booleans
import LayeredIni.Proofs.Tree.Json
